import ClosedForm.Proofs.Failure
import ClosedForm.Proofs.Noting

/-!
# Degree estimates fit exactly when they should

An estimate is computed on 64-bit words and guarded where two weights are added.  No weight is ever
negative, so the guard itself does not wrap, and it refuses nothing but sums that are no word.  Such a
sum is part of the final estimate: a weight is never larger than the weight of what it is part of.

`weigh` gives its result only.  `working` is the same estimate with its notes kept, and there is one note
for every word that is computed on the way.

* `exists_weigh_eq_ok` — **an estimate that is a word is found.**
* `outcome_working` — writing down changes nothing.
* `sound_of_mem_working` — **no word of an estimate wraps or is negative.**
* `degree_exact` — both, for whole expressions.
-/

namespace ClosedForm

/-! ## What is refused -/

namespace Weight

variable {u v : Weight} {j k : ℕ}

/-- **The guarded addition refuses sums that are no word, and only those.** -/
lemma exists_add_eq_ok (hu : Represents u j) (hv : Represents v k) (h : j + k < 2 ^ 63) :
    ∃ w, (Weight.add u v : Except Error Weight) = .ok w := by
  have hguard : ¬Int64.maxValue - v < u := by
    rw [maxValue_sub_lt_iff hu hv]
    omega
  exact ⟨u + v, if_neg hguard⟩

end Weight

namespace Expr

/-- An estimate that is a word is found, since every weight on the way is at most as large. -/
lemma exists_weigh_eq_ok {e : Expr} {words : Scope Weight} {weights : Scope ℕ}
    (hrel : words.Related Weight.Represents weights) (hscoped : e.Scoped words.names)
    (h : e.weight weights < 2 ^ 63) : ∃ w, e.weigh words = .ok w := by
  induction e generalizing words weights with
  | hole => exact hscoped.elim
  | param => exact ⟨words.parameter, rfl⟩
  | index name =>
      obtain ⟨w, hw⟩ := Scope.exists_lookup_of_mem hscoped
      exact ⟨w, by rw [weigh_index, Scope.index, hw]⟩
  | const v => exact ⟨0, rfl⟩
  | add a b iha ihb =>
      rw [weight, max_lt_iff] at h
      obtain ⟨u, hu⟩ := iha hrel hscoped.1 h.1
      obtain ⟨v, hv⟩ := ihb hrel hscoped.2 h.2
      exact ⟨max u v, by rw [weigh_add, hu, hv]; rfl⟩
  | mul a b iha ihb =>
      rw [weight] at h
      obtain ⟨u, hu⟩ := iha hrel hscoped.1 (by omega)
      obtain ⟨v, hv⟩ := ihb hrel hscoped.2 (by omega)
      obtain ⟨w, hw⟩ :=
        Weight.exists_add_eq_ok (weigh_represents hrel hu) (weigh_represents hrel hv) h
      exact ⟨w, by rw [weigh_mul, hu, hv, Except.bind, Except.bind, hw]⟩
  | sum lower upper name body ihl ihu ihb =>
      obtain ⟨hlower, hupper, hbody⟩ := hscoped
      simp only [weight] at h
      obtain ⟨u, hu⟩ := ihl hrel hlower (by omega)
      obtain ⟨v, hv⟩ := ihu hrel hupper (by omega)
      have hcount := (weigh_represents hrel hu).max (weigh_represents hrel hv)
      have hinner := hrel.bind name hcount
      obtain ⟨x, hx⟩ := ihb hinner hbody (by omega)
      obtain ⟨w, hw⟩ := Weight.exists_add_eq_ok (weigh_represents hinner hx) hcount h
      exact ⟨w, by rw [weigh_sum, hu, hv, Except.bind, Except.bind, hx, Except.bind, hw]⟩

end Expr

/-! ## Every word on the way -/

namespace Weight

namespace Operation

/-- What the same operation gives on integers. -/
def exact : Operation → ℤ
  | zero => 0
  | larger u v => max u.toInt v.toInt
  | room v => 2 ^ 63 - 1 - v.toInt
  | total u v => u.toInt + v.toInt

/-- The word did not wrap, and is not negative. -/
structure Sound (c : Operation) : Prop where
  toInt_word : c.word.toInt = c.exact
  nonneg : 0 ≤ c.exact

variable {u v : Weight} {j k : ℕ}

lemma sound_zero : zero.Sound := ⟨rfl, le_rfl⟩

lemma sound_larger (hu : u.Represents j) (hv : v.Represents k) : (larger u v).Sound := by
  have hmax : (max u v).toInt = (max j k : ℕ) := hu.max hv
  have hexact : max u.toInt v.toInt = (max j k : ℕ) := by
    unfold Weight.Represents at hu hv
    omega
  refine ⟨hmax.trans hexact.symm, ?_⟩
  rw [exact, hexact]
  exact Int.natCast_nonneg _

lemma sound_room (hv : v.Represents k) : (room v).Sound := by
  have hlt := v.toInt_lt
  refine ⟨?_, by rw [exact]; omega⟩
  rw [word, exact, Weight.toInt_maxValue_sub hv, hv]

/-- A sum that the guard lets through does not wrap. -/
lemma sound_total (hu : u.Represents j) (hv : v.Represents k) (hguard : ¬Int64.maxValue - v < u) :
    (total u v).Sound := by
  have hsum : (u + v).toInt = (j + k : ℕ) := Weight.add_represents hu hv (if_neg hguard)
  have hexact : u.toInt + v.toInt = (j + k : ℕ) := by
    rw [hu, hv, Nat.cast_add]
  refine ⟨hsum.trans hexact.symm, ?_⟩
  rw [exact, hexact]
  exact Int.natCast_nonneg _

end Operation

variable {u v : Weight} {j k : ℕ} {c : Operation}

lemma outcome_compute (op : Operation) :
    (compute op : Noted Operation Weight).outcome = .ok op.word := rfl

lemma notes_compute (op : Operation) : (compute op : Noted Operation Weight).notes = [op] := rfl

/-- Nothing but the guard is computed where it refuses. -/
lemma sound_of_mem_add (hu : u.Represents j) (hv : v.Represents k)
    (h : c ∈ (Weight.add u v : Noted Operation Weight).notes) : c.Sound := by
  unfold Weight.add at h
  rcases Noted.mem_notes_bind _ h with h | ⟨w, hw, h⟩
  · rw [notes_compute, List.mem_singleton] at h
    exact h ▸ Operation.sound_room hv
  · rw [outcome_compute] at hw
    obtain rfl := Except.ok.inj hw
    split at h
    · cases h
    · rename_i hguard
      rw [notes_compute, List.mem_singleton] at h
      exact h ▸ Operation.sound_total hu hv hguard

end Weight

/-- An estimate with its notes, which are the words that it computed. -/
abbrev Working := Noted Weight.Operation Weight

/-- The words that were computed, with the operations that gave them. -/
def Working.words (t : Working) : List Weight.Operation := t.notes

namespace Expr

/-- `weigh`, with every word that it computes written down. -/
def working (e : Expr) (scope : Scope Weight) : Working := interpret weights e scope

/-- Weights can be computed with and without notes. -/
lemma forgets_weights {m n : Type → Type} [Monad m] [MonadExceptOf Error m]
    [Noting Weight.Operation m] [Monad n] [MonadExceptOf Error n] [Noting Weight.Operation n]
    {forget : ∀ α, m α → n α} (h : ForgetsFailing Weight.Operation forget) :
    Algebra.Forgets forget (weights : Algebra m Weight) weights := by
  have hcompute (op : Weight.Operation) :
      forget Weight (Weight.compute op) = Weight.compute op := by
    simp only [Weight.compute, h.map_bind, h.map_note, h.map_pure]
  have hadd (u v : Weight) : forget Weight (Weight.add u v) = Weight.add u v := by
    unfold Weight.add
    rw [h.map_bind, hcompute]
    congr 1
    funext room
    rw [apply_ite (forget Weight), h.map_throw, hcompute]
  refine ⟨fun _ => hcompute .zero, fun u v => hcompute (.larger u v), hadd, fun lower upper body => ?_⟩
  simp only [weights, h.map_bind, hcompute, hadd]

/-- **Writing down changes nothing.** -/
lemma outcome_working (e : Expr) (scope : Scope Weight) :
    (e.working scope).outcome = e.weigh scope :=
  Noted.forgets_outcome.interpret_eq (forgets_weights Noted.forgets_outcome) e scope

/-- A weight that was written down stands for a natural number. -/
lemma represents_of_outcome_working {e : Expr} {words : Scope Weight} {weights : Scope ℕ}
    (hrel : words.Related Weight.Represents weights) {w : Weight}
    (h : (e.working words).outcome = .ok w) : w.Represents (e.weight weights) :=
  weigh_represents hrel ((outcome_working e words).symm.trans h)

/-- **No word of an estimate wraps or is negative,** in any expression, also in one that is not
weighed to its end. -/
lemma sound_of_mem_working {e : Expr} {words : Scope Weight} {weights : Scope ℕ}
    (hrel : words.Related Weight.Represents weights) {c : Weight.Operation}
    (h : c ∈ (e.working words).words) : c.Sound := by
  induction e generalizing words weights with
  | hole => cases h
  | param => cases h
  | index name =>
      unfold working interpret at h
      cases hname : words.index name with
      | ok v =>
          rw [hname] at h
          cases h
      | error err =>
          rw [hname] at h
          cases h
  | const v =>
      obtain rfl := List.mem_singleton.1 h
      exact Weight.Operation.sound_zero
  | add a b iha ihb =>
      rcases Noted.mem_notes_bind _ h with h | ⟨u, hu, h⟩
      · exact iha hrel h
      rcases Noted.mem_notes_bind _ h with h | ⟨v, hv, h⟩
      · exact ihb hrel h
      obtain rfl := List.mem_singleton.1 h
      exact Weight.Operation.sound_larger (represents_of_outcome_working hrel hu)
        (represents_of_outcome_working hrel hv)
  | mul a b iha ihb =>
      rcases Noted.mem_notes_bind _ h with h | ⟨u, hu, h⟩
      · exact iha hrel h
      rcases Noted.mem_notes_bind _ h with h | ⟨v, hv, h⟩
      · exact ihb hrel h
      exact Weight.sound_of_mem_add (represents_of_outcome_working hrel hu)
        (represents_of_outcome_working hrel hv) h
  | sum lower upper name body ihl ihu ihb =>
      rcases Noted.mem_notes_bind _ h with h | ⟨u, hu, h⟩
      · exact ihl hrel h
      rcases Noted.mem_notes_bind _ h with h | ⟨v, hv, h⟩
      · exact ihu hrel h
      have hlower := represents_of_outcome_working hrel hu
      have hupper := represents_of_outcome_working hrel hv
      rcases Noted.mem_notes_bind _ h with h | ⟨count, hcount, h⟩
      · obtain rfl := List.mem_singleton.1 h
        exact Weight.Operation.sound_larger hlower hupper
      cases hcount
      have hinner := hrel.bind name (hlower.max hupper)
      rcases Noted.mem_notes_bind _ h with h | ⟨w, hw, h⟩
      · exact ihb hinner h
      exact Weight.sound_of_mem_add (represents_of_outcome_working hinner hw)
        (hlower.max hupper) h

/-! ## Whole expressions -/

/-- **Degree estimates are exact.**  An expression without holes and unbound indices is estimated at
its weight in the natural numbers if that is a word, and is refused with the degree limit if it is
not.  Every word that is computed on the way, guards included, is what the same operation gives on
integers, and none is negative. -/
theorem degree_exact (e : Expr) (hscoped : e.Scoped []) :
    (e.naturalDegree ≤ 2 ^ 63 - 1 → ∃ d, e.degree = .ok d ∧ d.toInt = e.naturalDegree) ∧
    (2 ^ 63 - 1 < e.naturalDegree → ∃ err, e.degree = .error err ∧ err.OnlyWraps .degreeLimit) ∧
    (e.working (Scope.root 1)).outcome = e.degree ∧
    ∀ c ∈ (e.working (Scope.root 1)).words, c.word.toInt = c.exact ∧ 0 ≤ c.exact := by
  have hroot : (Scope.root (1 : Weight)).Related Weight.Represents (Scope.root 1) :=
    Scope.Related.root (by rfl)
  refine ⟨fun hle => ?_, fun hlt => ?_, outcome_working e _, fun c hc => ?_⟩
  · obtain ⟨d, hd⟩ := exists_weigh_eq_ok hroot hscoped
      (show e.naturalDegree < 2 ^ 63 by omega)
    exact ⟨d, hd, degree_represents hd⟩
  · cases hd : e.degree with
    | ok d =>
        have hdegree : d.toInt = e.naturalDegree := degree_represents hd
        have hword := d.toInt_lt
        omega
    | error err => exact ⟨err, rfl, onlyWraps_of_degree_eq_error hscoped hd⟩
  · obtain ⟨hexact, hnonneg⟩ := sound_of_mem_working hroot hc
    exact ⟨hexact, hnonneg⟩

/-- The tenth power of an index. -/
def tenthPower : Expr := mulAll (List.replicate 10 (index "i"))

/-- The sum of `i ^ 10` up to a bound, which is the bound of the next such sum, and so on. -/
def powerTower : ℕ → Expr
  | 0 => param
  | levels + 1 => sum (const 1) (powerTower levels) "i" tenthPower

lemma scoped_powerTower (levels : ℕ) : (powerTower levels).Scoped [] := by
  induction levels with
  | zero => trivial
  | succ levels ih =>
      refine ⟨trivial, ih, ?_⟩
      simp [tenthPower, mulAll, Scoped]

/-- Every level multiplies the weight by 11: ten for the body, and one for the summation. -/
lemma naturalDegree_powerTower (levels : ℕ) : (powerTower levels).naturalDegree = 11 ^ levels := by
  unfold naturalDegree
  induction levels with
  | zero => rfl
  | succ levels ih =>
      have hbody (k : ℕ) : tenthPower.weight ((Scope.root 1).bind "i" k) = 10 * k := by
        simp [tenthPower, mulAll, weight, Scope.lookup_bind]
        omega
      simp only [powerTower, weight, ih, hbody, zero_le, max_eq_right]
      ring

/-- 11¹⁸ is a word and 11¹⁹ is none. -/
theorem degree_exact_powerTower :
    (∃ d, (powerTower 18).degree = .ok d ∧ d.toInt = 11 ^ 18) ∧
      ∃ err, (powerTower 19).degree = .error err ∧ err.OnlyWraps .degreeLimit := by
  have hsmall := naturalDegree_powerTower 18
  have hlarge := naturalDegree_powerTower 19
  obtain ⟨d, hd, hvalue⟩ := (degree_exact _ (scoped_powerTower 18)).1 (by rw [hsmall]; decide)
  refine ⟨⟨d, hd, ?_⟩, (degree_exact _ (scoped_powerTower 19)).2.1 (by rw [hlarge]; decide)⟩
  rw [hvalue, hsmall]
  norm_num

end Expr
end ClosedForm
