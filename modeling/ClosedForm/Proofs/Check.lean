import ClosedForm.Check
import ClosedForm.Proofs.Expr.Value

/-!
# What a passed check means

A check finds nothing exactly if the expression and the polynomial have values, and the same ones,
at every integer of the range.

* `checkAt_eq_agrees_iff` — one point.
* `findings_eq_nil_iff` — the loop over the points, by induction on their number.
* `checkWithin_eq_none_iff` — the whole range.
* `exists_reported_of_mem_parts` — what a failed check reports: every part comes from one point,
  where a side has no value or the two differ.
-/

namespace ClosedForm

/-- The point passes exactly if both sides have a value there, and the same one. -/
lemma checkAt_eq_agrees_iff (e : Expr) (p : Poly) (limit : Int64) (n : Int) :
    checkAt e p limit n = .agrees ↔
      ∃ v, e.evaluateWithin n limit = .ok v ∧ p.evaluate n = .ok v := by
  unfold checkAt
  cases hwant : e.evaluateWithin n limit with
  | error err =>
      dsimp only
      split <;> simp
  | ok want =>
      cases hgot : p.evaluate n with
      | error err => simp
      | ok got =>
          by_cases h : got = want
          · simp [h]
          · simp [h]

/-- One turn, without notes. -/
lemma run_lookAt (e : Expr) (p : Poly) (limit : Int64) {σ : Type} (append : σ → Error → σ) (n : Int)
    (found : σ) (next : σ → Id σ) :
    (lookAt e p limit append n found next).run =
      match checkAt e p limit n with
      | .agrees => (next found).run
      | .wrong err => (next (append found err)).run
      | .aborts err => append found err := by
  unfold lookAt
  cases checkAt e p limit n <;> rfl

/-- What the loop finds. -/
def findings (e : Expr) (p : Poly) (limit : Int64) (count : ℕ) (n : Int) (found : List Error) :
    List Error :=
  Id.run (lookFrom e p limit count n found)

lemma findings_zero (e : Expr) (p : Poly) (limit : Int64) (n : Int) (found : List Error) :
    findings e p limit 0 n found = found := rfl

lemma findings_succ (e : Expr) (p : Poly) (limit : Int64) (count : ℕ) (n : Int)
    (found : List Error) :
    findings e p limit (count + 1) n found =
      match checkAt e p limit n with
      | .agrees => findings e p limit count (n + 1) found
      | .wrong err => findings e p limit count (n + 1) (err :: found)
      | .aborts err => err :: found := by
  rw [findings, lookFrom, run_lookAt]
  rfl

lemma findings_eq_nil_iff (e : Expr) (p : Poly) (limit : Int64) (count : ℕ) (n : Int)
    (found : List Error) :
    findings e p limit count n found = [] ↔
      found = [] ∧ ∀ i < count, checkAt e p limit (n + i) = .agrees := by
  induction count generalizing n found with
  | zero => simp [findings_zero]
  | succ count ih =>
      have hsplit : (∀ i < count + 1, checkAt e p limit (n + i) = .agrees) ↔
          checkAt e p limit n = .agrees ∧
            ∀ i < count, checkAt e p limit (n + 1 + i) = .agrees := by
        simp only [Expr.add_one_add_natCast]
        constructor
        · intro h
          exact ⟨by simpa using h 0 (Nat.succ_pos count), fun i hi => h (i + 1) (by omega)⟩
        · rintro ⟨hzero, hsucc⟩ i hi
          cases i with
          | zero => simpa using hzero
          | succ i => exact hsucc i (by omega)
      rw [hsplit, findings_succ]
      cases hat : checkAt e p limit n with
      | agrees => simp [ih]
      | wrong err => simp [ih]
      | aborts err => simp

lemma checkWithin_eq {e : Expr} (he : e ≠ .hole) (p : Poly) (lower upper limit : Int64) :
    checkWithin e p lower upper limit = Outcome.ofParts
      (findings e p limit (upper.toInt - lower.toInt + 1).toNat lower.toInt []).reverse := by
  cases e with
  | hole => exact absurd rfl he
  | _ => rfl

lemma check_eq_checkWithin {e : Expr} (he : e ≠ .hole) (p : Poly) (lower upper : Int64) :
    check e (some p) lower upper = checkWithin e p lower upper 0 := by
  cases e with
  | hole => exact absurd rfl he
  | _ => rfl

/-- **A check passes exactly if every point of the range does.** -/
lemma checkWithin_eq_none_iff {e : Expr} (he : e ≠ .hole) (p : Poly) (lower upper limit : Int64) :
    checkWithin e p lower upper limit = none ↔
      ∀ n : ℤ, lower.toInt ≤ n → n ≤ upper.toInt → checkAt e p limit n = .agrees := by
  have hparts (es : List Error) : Outcome.ofParts es.reverse = none ↔ es = [] := by
    rw [← List.reverse_eq_nil_iff]
    generalize es.reverse = es
    rcases es with _ | ⟨e₁, _ | ⟨e₂, es⟩⟩ <;> simp [Outcome.ofParts]
  rw [checkWithin_eq he, hparts, findings_eq_nil_iff, eq_self, true_and]
  constructor
  · intro h n hlower hupper
    have hn := h (n - lower.toInt).toNat (by omega)
    rwa [show lower.toInt + ((n - lower.toInt).toNat : ℤ) = n by omega] at hn
  · intro h i hi
    exact h (lower.toInt + i) (by omega) (by omega)

/-- Without a limit it passes exactly if both sides have values, and the same ones. -/
lemma check_eq_none_iff {e : Expr} (he : e ≠ .hole) (p : Poly) (lower upper : Int64) :
    check e (some p) lower upper = none ↔
      ∀ n : ℤ, lower.toInt ≤ n → n ≤ upper.toInt →
        ∃ v, e.evaluate n = .ok v ∧ p.evaluate n = .ok v := by
  rw [check_eq_checkWithin he, checkWithin_eq_none_iff he]
  simp only [checkAt_eq_agrees_iff]
  rfl

/-! ## What a check reports -/

/-- What a check can report at `n`: that the expression has no value there, that the polynomial has
none, or that they have different ones. -/
inductive Reported (e : Expr) (p : Poly) (limit : Int64) (n : Int) : Error → Prop
  | expression {err : Error} (h : e.evaluateWithin n limit = .error err) :
    Reported e p limit n (.within (.expressionAt n) err)
  | polynomial {v : Int} {err : Error} (hv : e.evaluateWithin n limit = .ok v)
    (h : p.evaluate n = .error err) : Reported e p limit n (.within (.polynomialAt n) err)
  | disagreement {want got : Int} (hwant : e.evaluateWithin n limit = .ok want)
    (hgot : p.evaluate n = .ok got) (hne : got ≠ want) :
    Reported e p limit n (.fault (.disagreement n got want))

lemma reported_of_checkAt {e : Expr} {p : Poly} {limit : Int64} {n : Int} {err : Error}
    (h : checkAt e p limit n = .wrong err ∨ checkAt e p limit n = .aborts err) :
    Reported e p limit n err := by
  unfold checkAt at h
  cases hwant : e.evaluateWithin n limit with
  | error err' =>
      simp only [hwant] at h
      -- Whether the point aborts the check or not, it reports the same.
      have herr : err = .within (.expressionAt n) err' := by
        split at h <;> simpa [eq_comm] using h
      exact herr ▸ .expression hwant
  | ok want =>
      cases hgot : p.evaluate n with
      | error err' =>
          simp only [hwant, hgot, Finding.wrong.injEq, reduceCtorEq, or_false] at h
          exact h ▸ .polynomial hwant hgot
      | ok got =>
          by_cases hne : got = want
          · simp [hwant, hgot, hne] at h
          · simp only [hwant, hgot, hne, if_false, Finding.wrong.injEq, reduceCtorEq, or_false] at h
            exact h ▸ .disagreement hwant hgot hne

lemma reported_of_mem_findings {e : Expr} {p : Poly} {limit : Int64} {count : ℕ} {n : Int}
    {found : List Error} {err : Error} (h : err ∈ findings e p limit count n found) :
    err ∈ found ∨ ∃ k, Reported e p limit k err := by
  induction count generalizing n found with
  | zero => exact .inl h
  | succ count ih =>
      rw [findings_succ] at h
      cases hat : checkAt e p limit n with
      | agrees =>
          rw [hat] at h
          exact ih h
      | wrong err' =>
          rw [hat] at h
          rcases ih h with hmem | hlater
          · rcases List.mem_cons.1 hmem with rfl | hmem
            · exact .inr ⟨n, reported_of_checkAt (.inl hat)⟩
            · exact .inl hmem
          · exact .inr hlater
      | aborts err' =>
          rw [hat] at h
          rcases List.mem_cons.1 h with rfl | hmem
          · exact .inr ⟨n, reported_of_checkAt (.inr hat)⟩
          · exact .inl hmem

/-- The parts of an outcome are the errors that it was made of, unless one of them was several. -/
lemma Outcome.parts_ofParts {es : List Error} (h : ∀ parts, .several parts ∉ es) :
    (Outcome.ofParts es).parts = es := by
  rcases es with _ | ⟨e₁, _ | ⟨e₂, es⟩⟩
  · rfl
  · cases e₁ with
    | several parts => exact absurd (List.mem_singleton.2 rfl) (h parts)
    | _ => rfl
  · rfl

/-- **Every part of a check was reported at a point.** -/
lemma exists_reported_of_mem_parts {e : Expr} (he : e ≠ .hole) {p : Poly}
    {lower upper limit : Int64} {part : Error}
    (h : part ∈ (checkWithin e p lower upper limit).parts) : ∃ n, Reported e p limit n part := by
  have hreported : ∀ err ∈ (findings e p limit (upper.toInt - lower.toInt + 1).toNat
      lower.toInt []).reverse, ∃ n, Reported e p limit n err := by
    intro err herr
    rcases reported_of_mem_findings (List.mem_reverse.1 herr) with hnil | hlater
    · cases hnil
    · exact hlater
  rw [checkWithin_eq he, Outcome.parts_ofParts] at h
  · exact hreported part h
  · intro parts hparts
    obtain ⟨n, hn⟩ := hreported _ hparts
    cases hn

end ClosedForm
