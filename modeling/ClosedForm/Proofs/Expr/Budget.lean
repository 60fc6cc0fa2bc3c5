import ClosedForm.Proofs.Expr.Value
import ClosedForm.Proofs.Noting

/-!
# What a term limit allows

A limit of `L` summation terms bounds two things.  One is the result: `Spends` says what an
evaluation takes from a budget, and this file reads it off at a configured limit.  The other is the
work: under a limit, at most `L` bodies are evaluated, also by an evaluation that fails half-way.

What runs does not count the bodies it starts.  `tally` is the same evaluation with its notes kept, and
there is one note for every body.

* `Admits` — what a configured limit lets through; one that is not positive lets everything through.
* `evaluateWithin_of_admits`, `evaluateWithin_of_not_admits` — the result under a limit.
* `outcome_tally` — counting changes nothing.
* `accounts_tally` — **every started body has been paid for:** a summation takes its length before
  its first term, so the started bodies and what is left of the budget never exceed the budget.
* `termLimit_exact` — both together, at a point.
-/

namespace ClosedForm

/-! ## Configured limits -/

/-- A limit lets an amount through.  A limit that is not positive is none. -/
def Admits (limit : Int64) (amount : ℤ) : Prop := 0 < limit.toInt → amount ≤ limit.toInt

namespace Budget

variable {limit : Int64}

lemma ofLimit_of_nonpos (h : limit.toInt ≤ 0) : ofLimit limit = none := by
  have hnot : ¬0 < limit := by
    rw [Int64.lt_iff_toInt_lt]
    exact not_lt.2 h
  rw [ofLimit, if_neg hnot]

lemma ofLimit_of_pos (h : 0 < limit.toInt) : ofLimit limit = some limit.toInt.toNat := by
  have hpos : 0 < limit := Int64.lt_iff_toInt_lt.2 h
  rw [ofLimit, if_pos hpos]
  rfl

/-- A configured budget has the terms that its limit lets through. -/
lemma exists_take_ofLimit_iff (limit : Int64) (count : ℕ) :
    (∃ rest, (ofLimit limit).take count = some rest) ↔ Admits limit count := by
  unfold Admits
  by_cases hpos : 0 < limit.toInt
  · have hle : count ≤ limit.toInt.toNat ↔ (count : ℤ) ≤ limit.toInt := by omega
    simp [ofLimit_of_pos hpos, take, hpos, ← hle]
  · simp [ofLimit_of_nonpos (not_lt.1 hpos), take, hpos]

end Budget

namespace Expr

variable {e : Expr} {n v : Int} {limit : Int64}

lemma evaluateWithin_of_admits (hv : e.evaluate n = .ok v)
    (h : Admits limit (e.termCount (Scope.root n))) : e.evaluateWithin n limit = .ok v := by
  have hspends := evalIn_spends hv (Budget.ofLimit limit)
  obtain ⟨rest, hrest⟩ := (Budget.exists_take_ofLimit_iff limit _).2 h
  rw [Spends, hrest] at hspends
  rw [evaluateWithin, hspends]
  rfl

lemma evaluateWithin_of_not_admits (hv : e.evaluate n = .ok v)
    (h : ¬Admits limit (e.termCount (Scope.root n))) :
    ∃ lower upper, e.evaluateWithin n limit =
      .error (.within (.inSummation lower upper) (.sentinel .termLimit)) := by
  have hspends := evalIn_spends hv (Budget.ofLimit limit)
  cases htake : (Budget.ofLimit limit).take (e.termCount (Scope.root n)) with
  | some rest => exact absurd ((Budget.exists_take_ofLimit_iff limit _).1 ⟨rest, htake⟩) h
  | none =>
      rw [Spends, htake] at hspends
      obtain ⟨lower, upper, hlimit⟩ := hspends
      rw [evaluateWithin, hlimit]
      exact ⟨lower, upper, rfl⟩

/-- A scoped expression has a value under every limit that lets its terms through. -/
lemma exists_evaluateWithin_iff (hscoped : e.Scoped []) :
    (∃ v, e.evaluateWithin n limit = .ok v) ↔ Admits limit (e.termCount (Scope.root n)) := by
  have hvalue := evaluate_eq_denote hscoped n
  constructor
  · rintro ⟨v, hv⟩
    by_contra hnot
    obtain ⟨lower, upper, herr⟩ := evaluateWithin_of_not_admits hvalue hnot
    cases hv.symm.trans herr
  · exact fun h => ⟨_, evaluateWithin_of_admits hvalue h⟩

end Expr

/-! ## Counting the bodies that are started -/

/-- An evaluation with its notes, which are the terms that it started. -/
abbrev Tally := Noted Int (Int × Budget)

/-- How many summation bodies were started. -/
def Tally.starts (t : Tally) : ℕ := t.notes.length

namespace Expr

/-- `evalIn`, with the bodies that are started counted. -/
def tally (e : Expr) (scope : Scope Int) (budget : Budget) : Tally :=
  (interpret values e scope : StateT Budget (Noted Int) Int).run budget

/-! ### Counting changes nothing -/

section Forgetting

variable {m n : Type → Type} [Monad m] [Noting Int m] [Monad n] [Noting Int n]
variable {forget : ∀ α, m α → n α}

lemma forget_addUp (h : Forgets Int forget) (term : Int → m Int) (count : ℕ) (k total : Int) :
    forget Int (addUp term count k total) =
      addUp (fun k => forget Int (term k)) count k total := by
  induction count generalizing k total with
  | zero => exact h.map_pure total
  | succ count ih => simp only [addUp, h.map_bind, h.map_note, ih]

/-- Values can be computed with and without notes. -/
lemma forgets_values [MonadExceptOf Error m] [MonadStateOf Budget m] [MonadExceptOf Error n]
    [MonadStateOf Budget n] (h : ForgetsFailing Int forget)
    (hget : forget Budget (get : m Budget) = get)
    (hset : ∀ budget : Budget, forget PUnit (set budget : m PUnit) = set budget) :
    Algebra.Forgets forget (values : Algebra m Int) values where
  constant v := h.map_pure v
  add x y := h.map_pure (x + y)
  mul x y := h.map_pure (x * y)
  sum lower upper body := by
    unfold values
    dsimp only
    split
    · exact h.map_pure 0
    · rw [h.map_bind, hget]
      congr 1
      funext budget
      cases budget.take (upper - lower + 1).toNat with
      | none => exact h.map_throw _
      | some rest => simp only [h.map_bind, hset, forget_addUp h.toForgets]

end Forgetting

/-- **Counting changes nothing.** -/
lemma outcome_tally (e : Expr) (scope : Scope Int) (budget : Budget) :
    (e.tally scope budget).outcome = evalIn e scope budget :=
  have hvalues := forgets_values Noted.forgets_run rfl fun _ => rfl
  congrFun (Noted.forgets_run.interpret_eq hvalues e scope) budget

end Expr

/-! ### Every started body has been paid for -/

/-- At most `paid` bodies are started, and a success leaves what is paid and not used. -/
def Tally.Accounts (t : Tally) (paid : ℕ) : Prop :=
  t.starts ≤ paid ∧ ∀ v rest, t.outcome = .ok (v, rest) → ∃ left, rest = some left ∧
    t.starts + left = paid

namespace Tally.Accounts

variable {t : Tally} {paid : ℕ}

lemma of_pure (v : Int) (left : ℕ) : Accounts (pure (v, some left)) left := by
  refine ⟨Nat.zero_le left, fun w rest h => ?_⟩
  cases h
  exact ⟨left, rfl, Nat.zero_add left⟩

lemma of_throw (err : Error) (left : ℕ) : Accounts (throw err) left :=
  ⟨Nat.zero_le left, fun _ _ h => nomatch h⟩

/-- What the first part leaves pays for the second, with `more` that was paid before. -/
lemma bind_add (next : Int × Budget → Tally) {more : ℕ} (h : t.Accounts paid)
    (hnext : ∀ v left, (next (v, some left)).Accounts (left + more)) :
    Accounts (t >>= next) (paid + more) := by
  obtain ⟨hle, hok⟩ := h
  cases houtcome : t.outcome with
  | error err =>
      refine ⟨?_, fun v rest hr => ?_⟩
      · rw [starts, Noted.notes_bind_of_error next houtcome]
        exact Nat.le_add_right_of_le hle
      · rw [Noted.outcome_bind, houtcome] at hr
        cases hr
  | ok r =>
      obtain ⟨v, rest⟩ := r
      obtain ⟨left, rfl, hsum⟩ := hok v rest houtcome
      obtain ⟨hle', hok'⟩ := hnext v left
      have hstarts : starts (t >>= next) = t.starts + (next (v, some left)).starts := by
        rw [starts, Noted.notes_bind_of_ok next houtcome, List.length_append]
        rfl
      refine ⟨by omega, fun w rest' hr => ?_⟩
      rw [Noted.outcome_bind, houtcome] at hr
      obtain ⟨left', hleft', hsum'⟩ := hok' w rest' hr
      exact ⟨left', hleft', by omega⟩

lemma bind {next : Int × Budget → Tally} (h : t.Accounts paid)
    (hnext : ∀ v left, (next (v, some left)).Accounts left) : Accounts (t >>= next) paid := by
  have hsum : Accounts (t >>= next) (paid + 0) := h.bind_add next hnext
  rwa [Nat.add_zero] at hsum

/-- A body that is started has been paid for before. -/
lemma start (h : t.Accounts paid) (k : Int) :
    Accounts (note k >>= fun _ => t) (paid + 1) := by
  have hstarts : starts (note k >>= fun _ => t) = t.starts + 1 := by
    rw [starts, Noted.notes_bind_of_ok _ (Noted.outcome_note k), Noted.notes_note]
    rfl
  obtain ⟨hle, hok⟩ := h
  refine ⟨by omega, fun v rest hr => ?_⟩
  rw [Noted.outcome_bind, Noted.outcome_note] at hr
  obtain ⟨left, hleft, hsum⟩ := hok v rest hr
  exact ⟨left, hleft, by omega⟩

end Tally.Accounts

namespace Expr

/-- The terms of a sum have been paid for one each; what else they start is paid from the budget. -/
lemma accounts_addUp {term : Int → StateT Budget (Noted Int) Int}
    (hterm : ∀ k left, Tally.Accounts ((term k).run (some left)) left) (count : ℕ) (k total : Int)
    (left : ℕ) : Tally.Accounts ((addUp term count k total).run (some left)) (left + count) := by
  induction count generalizing k total left with
  | zero => exact .of_pure total left
  | succ count ih =>
      have hrest := (hterm k left).bind_add
        (fun r => (addUp term count (k + 1) (total + r.1)).run r.2)
        fun v rest => ih (k + 1) (total + v) rest
      exact hrest.start k

/-- **Every started body has been paid for.** -/
lemma accounts_tally (e : Expr) (scope : Scope Int) (left : ℕ) :
    (e.tally scope (some left)).Accounts left := by
  induction e generalizing scope left with
  | hole => exact .of_throw _ left
  | param => exact .of_pure _ left
  | index name =>
      unfold tally interpret
      cases scope.index name with
      | ok v => exact .of_pure v left
      | error err => exact .of_throw err left
  | const v => exact .of_pure v left
  | add a b iha ihb =>
      exact (iha scope left).bind fun x left => (ihb scope left).bind fun y left => .of_pure (x + y) left
  | mul a b iha ihb =>
      exact (iha scope left).bind fun x left => (ihb scope left).bind fun y left => .of_pure (x * y) left
  | sum lower upper name body ihl ihu ihb =>
      refine (ihl scope left).bind fun m left => (ihu scope left).bind fun n left => ?_
      change Tally.Accounts ((values.sum m n fun k => interpret values body (scope.bind name k) :
        StateT Budget (Noted Int) Int).run (some left)) left
      rw [run_sum_values]
      split
      · exact .of_pure 0 left
      · by_cases hlen : (n - m + 1).toNat ≤ left
        · -- The length is taken, and the loop starts as many bodies of its own.
          have hloop := accounts_addUp (fun k => ihb (scope.bind name k)) (n - m + 1).toNat m 0
            (left - (n - m + 1).toNat)
          rw [Nat.sub_add_cancel hlen] at hloop
          simpa only [Budget.take, if_pos hlen] using hloop
        · simpa only [Budget.take, if_neg hlen] using .of_throw _ left

/-- A successful evaluation starts exactly the terms of its summations. -/
lemma starts_tally {e : Expr} {scope : Scope Int} {v : Int} (hv : e.value scope = .ok v) {left : ℕ}
    (h : e.termCount scope ≤ left) : (e.tally scope (some left)).starts = e.termCount scope := by
  have hspends := evalIn_spends hv (some left)
  have htake : Budget.take (some left) (e.termCount scope) =
      some (some (left - e.termCount scope)) := if_pos h
  rw [Spends, htake, ← outcome_tally] at hspends
  obtain ⟨-, hok⟩ := accounts_tally e scope left
  obtain ⟨rest, hrest, hsum⟩ := hok v _ hspends
  cases hrest
  omega

/-! ## At a point -/

/-- **A term limit is exact.**  If an expression has a value at `n`, it has this value under every
limit that lets through the terms of all summations that the evaluation reaches, and fails with the
term limit under every other; where it has the value, as many bodies are evaluated as there are
terms.  Whether or not it has a value, no more bodies are started than a positive limit says. -/
theorem termLimit_exact (e : Expr) :
    (∀ n v : Int, e.evaluate n = .ok v → ∀ limit : Int64,
      (limit.toInt ≤ 0 → e.evaluateWithin n limit = .ok v) ∧
      (0 < limit.toInt → e.termCount (Scope.root n) ≤ limit.toInt →
        e.evaluateWithin n limit = .ok v ∧
        (e.tally (Scope.root n) (Budget.ofLimit limit)).starts = e.termCount (Scope.root n)) ∧
      (0 < limit.toInt → limit.toInt < e.termCount (Scope.root n) →
        ∃ err, e.evaluateWithin n limit = .error err ∧ err.wraps .termLimit = true)) ∧
    ∀ (n : Int) (limit : Int64), 0 < limit.toInt →
      (e.tally (Scope.root n) (Budget.ofLimit limit)).outcome =
        evalIn e (Scope.root n) (Budget.ofLimit limit) ∧
      (e.tally (Scope.root n) (Budget.ofLimit limit)).starts ≤ limit.toInt := by
  refine ⟨fun n v hv limit => ⟨fun hlimit => ?_, fun hpos hle => ?_, fun hpos hlt => ?_⟩,
    fun n limit hpos => ⟨outcome_tally .., ?_⟩⟩
  · exact evaluateWithin_of_admits hv fun hpos => absurd hpos (not_lt.2 hlimit)
  · refine ⟨evaluateWithin_of_admits hv fun _ => hle, ?_⟩
    rw [Budget.ofLimit_of_pos hpos]
    exact starts_tally hv (by omega)
  · have hnot : ¬Admits limit (e.termCount (Scope.root n)) := fun h => not_le.2 hlt (h hpos)
    obtain ⟨lower, upper, herr⟩ := evaluateWithin_of_not_admits hv hnot
    exact ⟨_, herr, rfl⟩
  · have hstarts := (accounts_tally e (Scope.root n) limit.toInt.toNat).1
    rw [Budget.ofLimit_of_pos hpos]
    omega

/-- The number of pairs `1 ≤ j ≤ i ≤ x`. -/
def pairs : Expr :=
  .sum (.const 1) .param "i" (.sum (.const 1) (.index "i") "j" (.const 1))

/-- At 3 the pairs have 3 + 1 + 2 + 3 terms: a limit of 9 is enough, and one of 8 is not. -/
theorem termLimit_exact_pairs :
    pairs.termCount (Scope.root 3) = 9 ∧ pairs.evaluateWithin 3 9 = .ok 6 ∧
      (pairs.tally (Scope.root 3) (Budget.ofLimit 9)).starts = 9 ∧
      (∃ err, pairs.evaluateWithin 3 8 = .error err ∧ err.wraps .termLimit = true) ∧
      (pairs.tally (Scope.root 3) (Budget.ofLimit 8)).starts ≤ 8 := by
  have hcount : pairs.termCount (Scope.root 3) = 9 := by decide
  obtain ⟨hvalue, hstarts⟩ := termLimit_exact pairs
  obtain ⟨-, hnine, -⟩ := hvalue 3 6 rfl 9
  obtain ⟨hok, hall⟩ := hnine (by decide) (by rw [hcount]; decide)
  obtain ⟨-, -, height⟩ := hvalue 3 6 rfl 8
  have hle : ((pairs.tally (Scope.root 3) (Budget.ofLimit 8)).starts : ℤ) ≤ 8 :=
    (hstarts 3 8 (by decide)).2
  refine ⟨hcount, hok, hall.trans hcount, height (by decide) (by rw [hcount]; decide), ?_⟩
  exact_mod_cast hle

end Expr
end ClosedForm
