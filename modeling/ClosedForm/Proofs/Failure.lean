import ClosedForm.Proofs.Expr.Weight
import ClosedForm.Simplify

/-!
# How a scoped expression fails

An expression without holes and unbound indices always has a value.  What can still fail is bounded
by limits: an estimate by the largest word, an evaluation by its budget of terms, a simplification by
both.

* `Error.OnlyWraps` — an error that wraps one sentinel and no other.
* `Unweighed` — how an estimate fails, of any expression.
* `onlyWraps_of_degree_eq_error`, `onlyWraps_of_evaluateWithin_eq_error` — estimates fail with the
  degree limit only, evaluations with the term limit only.
* `onlyWraps_of_simplify_eq_error` — **simplifications fail with one of the two only.**
-/

namespace ClosedForm

/-! ## Errors that wrap one sentinel -/

/-- The error wraps this sentinel and no other. -/
def Error.OnlyWraps (err : Error) (s : Sentinel) : Prop := ∀ t, err.wraps t = true ↔ t = s

namespace Error.OnlyWraps

variable {err : Error} {s : Sentinel}

lemma sentinel (s : Sentinel) : OnlyWraps (.sentinel s) s := by
  intro t
  simp [wraps, has]

lemma within (h : err.OnlyWraps s) (setting : Setting) : OnlyWraps (.within setting err) s := by
  intro t
  rw [← h t]
  simp [wraps, has]

end Error.OnlyWraps

/-- Inverts a failed composition. -/
lemma eq_error_of_bind_eq_error {α β : Type} {x : Except Error α} {f : α → Except Error β}
    {err : Error} (h : x.bind f = .error err) :
    x = .error err ∨ ∃ a, x = .ok a ∧ f a = .error err := by
  cases x with
  | error e =>
      cases h
      exact .inl rfl
  | ok a => exact .inr ⟨a, rfl, h⟩

/-! ## Estimates -/

lemma Weight.onlyWraps_of_add_eq_error {u v : Weight} {err : Error}
    (h : (Weight.add u v : Except Error Weight) = .error err) : err.OnlyWraps .degreeLimit := by
  rw [Weight.add_eq] at h
  split at h
  · cases h
    exact (Error.OnlyWraps.sentinel _).within _
  · cases h

namespace Expr

/-- How weighing an expression can fail: a weight is no word, or the expression is not scoped, for it
has a hole or an unbound index. -/
inductive Unweighed (e : Expr) (bound : List RawText) (err : Error) : Prop
  | tooHeavy (h : err.OnlyWraps .degreeLimit) : Unweighed e bound err
  | hole (hscoped : ¬e.Scoped bound) (h : err.OnlyWraps .nullExpression) : Unweighed e bound err
  | unbound (hscoped : ¬e.Scoped bound) (h : err.OnlyWraps .unboundIndex) : Unweighed e bound err

/-- What a part of an expression fails with, the expression fails with. -/
lemma Unweighed.of_part {part e : Expr} {inner bound : List RawText} {err : Error}
    (h : part.Unweighed inner err) (hpart : e.Scoped bound → part.Scoped inner) :
    e.Unweighed bound err := by
  cases h with
  | tooHeavy h => exact .tooHeavy h
  | hole hscoped h => exact .hole (fun hs => hscoped (hpart hs)) h
  | unbound hscoped h => exact .unbound (fun hs => hscoped (hpart hs)) h

lemma unweighed_of_weigh_eq_error {e : Expr} {words : Scope Weight} {err : Error}
    (h : e.weigh words = .error err) : e.Unweighed words.names err := by
  induction e generalizing words with
  | hole =>
      cases h
      exact .hole id (.sentinel _)
  | param => cases h
  | index name =>
      rw [weigh_index, Scope.index] at h
      split at h
      · cases h
      · rename_i hlookup
        cases h
        have hname : name ∉ words.names := (Scope.lookup_eq_none_iff words name).1 hlookup
        exact .unbound hname ((Error.OnlyWraps.sentinel _).within _)
  | const v => cases h
  | add a b iha ihb =>
      rw [weigh_add] at h
      rcases eq_error_of_bind_eq_error h with h | ⟨u, -, h⟩
      · exact (iha h).of_part And.left
      rcases eq_error_of_bind_eq_error h with h | ⟨v, -, h⟩
      · exact (ihb h).of_part And.right
      cases h
  | mul a b iha ihb =>
      rw [weigh_mul] at h
      rcases eq_error_of_bind_eq_error h with h | ⟨u, -, h⟩
      · exact (iha h).of_part And.left
      rcases eq_error_of_bind_eq_error h with h | ⟨v, -, h⟩
      · exact (ihb h).of_part And.right
      exact .tooHeavy (Weight.onlyWraps_of_add_eq_error h)
  | sum lower upper name body ihl ihu ihb =>
      rw [weigh_sum] at h
      rcases eq_error_of_bind_eq_error h with h | ⟨u, -, h⟩
      · exact (ihl h).of_part And.left
      rcases eq_error_of_bind_eq_error h with h | ⟨v, -, h⟩
      · exact (ihu h).of_part fun hs => hs.2.1
      rcases eq_error_of_bind_eq_error h with h | ⟨w, -, h⟩
      · exact (ihb h).of_part fun hs => hs.2.2
      exact .tooHeavy (Weight.onlyWraps_of_add_eq_error h)

/-- A scoped expression is too heavy to be weighed, or it is weighed. -/
lemma onlyWraps_of_degree_eq_error {e : Expr} (hscoped : e.Scoped []) {err : Error}
    (h : e.degree = .error err) : err.OnlyWraps .degreeLimit := by
  cases unweighed_of_weigh_eq_error h with
  | tooHeavy h => exact h
  | hole hnot h => exact absurd hscoped hnot
  | unbound hnot h => exact absurd hscoped hnot

/-! ## Evaluations -/

lemma onlyWraps_of_evaluateWithin_eq_error {e : Expr} (hscoped : e.Scoped []) {n : Int}
    {limit : Int64} {err : Error} (h : e.evaluateWithin n limit = .error err) :
    err.OnlyWraps .termLimit := by
  have hspends := evalIn_spends (evaluate_eq_denote hscoped n) (Budget.ofLimit limit)
  unfold Spends at hspends
  rcases eq_error_of_bind_eq_error h with h | ⟨r, -, h⟩
  · split at hspends
    · cases h.symm.trans hspends
    · obtain ⟨lower, upper, hlimit⟩ := hspends
      cases h.symm.trans hlimit
      exact (Error.OnlyWraps.sentinel _).within _
  · cases h

end Expr

/-! ## Simplifications -/

namespace Simplifier

variable {s : Simplifier} {e : Expr} {err : Error}

/-- The sampling fails at the first point where the evaluation fails. -/
lemma exists_of_sampleFrom_eq_error {count i : ℕ} (h : s.sampleFrom e count i = .error err) :
    ∃ (j : ℕ) (cause : Error), e.evaluateWithin j s.maxTerms = .error cause ∧
      err = .within (.sampling j) cause := by
  induction count generalizing i with
  | zero => cases h
  | succ count ih =>
      rw [sampleFrom] at h
      cases hv : e.evaluateWithin i s.maxTerms with
      | error cause =>
          rw [hv] at h
          cases h
          exact ⟨i, cause, hv, rfl⟩
      | ok v =>
          rw [hv] at h
          rcases eq_error_of_bind_eq_error h with h | ⟨rest, -, h⟩
          · exact ih h
          · cases h

lemma onlyWraps_of_estimate_eq_error (hscoped : e.Scoped []) (h : estimate e = .error err) :
    err.OnlyWraps .degreeLimit := by
  unfold estimate at h
  split at h
  · exact hscoped.elim
  · cases hd : e.degree with
    | error cause =>
        rw [hd] at h
        cases h
        exact (Expr.onlyWraps_of_degree_eq_error hscoped hd).within _
    | ok d =>
        rw [hd] at h
        cases h

lemma onlyWraps_of_allowDegree_eq_error {d : Weight} (h : s.allowDegree d = .error err) :
    err.OnlyWraps .degreeLimit := by
  unfold allowDegree at h
  split at h
  · cases h
    exact (Error.OnlyWraps.sentinel _).within _
  · cases h

/-- **A scoped expression that is not simplified has met a limit.** -/
lemma onlyWraps_of_simplify_eq_error (hscoped : e.Scoped []) (h : s.simplify e = .error err) :
    err.OnlyWraps .degreeLimit ∨ err.OnlyWraps .termLimit := by
  rcases eq_error_of_bind_eq_error h with h | ⟨d, -, h⟩
  · exact .inl (onlyWraps_of_estimate_eq_error hscoped h)
  rcases eq_error_of_bind_eq_error h with h | ⟨_, -, h⟩
  · exact .inl (onlyWraps_of_allowDegree_eq_error h)
  rcases eq_error_of_bind_eq_error h with h | ⟨values, -, h⟩
  · obtain ⟨j, cause, hcause, rfl⟩ := exists_of_sampleFrom_eq_error h
    exact .inr ((Expr.onlyWraps_of_evaluateWithin_eq_error hscoped hcause).within _)
  · cases h

end Simplifier
end ClosedForm
