import ClosedForm.Proofs.Expr.Budget
import ClosedForm.Proofs.Failure
import ClosedForm.Proofs.Poly.Length
import ClosedForm.Proofs.Simplify

/-!
# When an expression is not simplified

A simplification asks three questions one after the other: is there an estimate, is it within the
limit, and has every sample the terms that it needs.  Each has an equivalence here.  There is no fourth
one: an expression that has an estimate is scoped, so no sample can meet a hole or an unbound index.

* `toInt_degreeLimit`, `allowDegree_eq_ok_iff` — the limit on the estimate.
* `exists_samples_eq_ok_iff` — the terms of the samples.
* `simplify_ok_iff_within_limits` — **when a simplification succeeds, what it gives, and how it
  fails.**
-/

namespace ClosedForm
namespace Simplifier

variable {s : Simplifier} {e : Expr} {p : Poly} {d : Weight} {err : Error}

/-- The steps of a simplification. -/
lemma simplify_eq_bind (s : Simplifier) (e : Expr) :
    s.simplify e = (estimate e).bind fun d => (s.allowDegree d).bind fun _ =>
      (s.samples e d).bind fun values => .ok (closedForm values) :=
  rfl

/-! ## The estimate -/

lemma estimate_eq_ok_of_degree (hd : e.degree = .ok d) : estimate e = .ok d := by
  cases e with
  | hole => cases hd
  | _ => simp only [estimate, hd]

/-- An expression that has no estimate is refused for the reason that it has none. -/
lemma exists_estimate_eq_error {sentinel : Sentinel} (hd : e.degree = .error err)
    (hwraps : err.OnlyWraps sentinel) :
    ∃ err', estimate e = .error err' ∧ err'.OnlyWraps sentinel := by
  cases e with
  | hole =>
      cases hd
      exact ⟨_, rfl, hwraps⟩
  | _ => exact ⟨_, by simp only [estimate, hd], hwraps.within .estimating⟩

/-! ## The limit on the estimate -/

lemma toInt_maxSampleDegree : maxSampleDegree.toInt = 2 ^ 20 := rfl

/-- The limit is the configured one, if that is positive and at most 2²⁰. -/
lemma toInt_degreeLimit (s : Simplifier) :
    s.degreeLimit.toInt =
      if 1 ≤ s.maxDegree.toInt ∧ s.maxDegree.toInt ≤ 2 ^ 20 then s.maxDegree.toInt else 2 ^ 20 := by
  unfold degreeLimit
  simp only [Bool.or_eq_true, decide_eq_true_eq, Int64.le_iff_toInt_le, Int64.lt_iff_toInt_lt,
    toInt_maxSampleDegree, Int64.toInt_zero]
  split
  · rw [if_neg (by omega), toInt_maxSampleDegree]
  · rw [if_pos (by omega)]

/-- The largest sampled estimate is the smaller of the configured limit and the fixed one. -/
lemma le_degreeLimit_iff (s : Simplifier) (d : Weight) :
    d.toInt ≤ s.degreeLimit.toInt ↔ d.toInt ≤ 2 ^ 20 ∧ Admits s.maxDegree d.toInt := by
  rw [toInt_degreeLimit, Admits]
  split <;> omega

/-- The limit refuses everything but natural numbers up to it, and always with the degree limit. -/
lemma allowDegree_of_le (hd : 0 ≤ d.toInt) (h : d.toInt ≤ s.degreeLimit.toInt) :
    s.allowDegree d = .ok () := by
  unfold allowDegree
  simp only [Bool.or_eq_true, decide_eq_true_eq, Int64.lt_iff_toInt_lt, Int64.toInt_zero]
  exact if_neg (by omega)

lemma allowDegree_of_not_le (h : ¬(0 ≤ d.toInt ∧ d.toInt ≤ s.degreeLimit.toInt)) :
    s.allowDegree d =
      .error (.within (.aboveLimit d.toInt s.degreeLimit.toInt) (.sentinel .degreeLimit)) := by
  unfold allowDegree
  simp only [Bool.or_eq_true, decide_eq_true_eq, Int64.lt_iff_toInt_lt, Int64.toInt_zero]
  exact if_pos (by omega)

/-- **What a simplification samples:** estimates that are natural numbers, at most 2²⁰, and admitted
by the configured limit. -/
lemma allowDegree_eq_ok_iff (s : Simplifier) (d : Weight) :
    s.allowDegree d = .ok () ↔ 0 ≤ d.toInt ∧ d.toInt ≤ 2 ^ 20 ∧ Admits s.maxDegree d.toInt := by
  rw [← le_degreeLimit_iff]
  constructor
  · intro h
    by_contra hnot
    rw [allowDegree_of_not_le hnot] at h
    cases h
  · exact fun ⟨hd, h⟩ => allowDegree_of_le hd h

/-! ## The samples -/

/-- Samples are the values at the naturals, and nothing else of the expression or the limits. -/
lemma samples_congr {s s' : Simplifier} {e e' : Expr}
    (h : ∀ i : ℕ, e.evaluateWithin i s.maxTerms = e'.evaluateWithin i s'.maxTerms) (d : Weight) :
    s.samples e d = s'.samples e' d := by
  have hfrom (count i : ℕ) : s.sampleFrom e count i = s'.sampleFrom e' count i := by
    induction count generalizing i with
    | zero => rfl
    | succ count ih => simp only [sampleFrom, h, ih]
  exact hfrom _ _

/-- Samples are taken exactly if the expression has a value at every point. -/
lemma exists_sampleFrom_eq_ok_iff {count i : ℕ} :
    (∃ values, s.sampleFrom e count i = .ok values) ↔
      ∀ j < count, ∃ v, e.evaluateWithin ((i + j : ℕ) : ℤ) s.maxTerms = .ok v := by
  constructor
  · rintro ⟨values, h⟩ j hj
    exact ⟨_, (length_of_sampleFrom_eq_ok h).2 j hj⟩
  · intro h
    induction count generalizing i with
    | zero => exact ⟨[], rfl⟩
    | succ count ih =>
        obtain ⟨v, hv⟩ := h 0 (Nat.succ_pos count)
        have hlater : ∀ j < count, ∃ v, e.evaluateWithin ((i + 1 + j : ℕ) : ℤ) s.maxTerms = .ok v := by
          intro j hj
          rw [Nat.add_right_comm, Nat.add_assoc]
          exact h (j + 1) (by omega)
        obtain ⟨rest, hrest⟩ := ih hlater
        exact ⟨v :: rest, sampleFrom_succ_eq_ok_iff.2 ⟨v, rest, hv, hrest, rfl⟩⟩

/-- **The samples are taken exactly if each has the terms it needs.** -/
lemma exists_samples_eq_ok_iff (hd : e.degree = .ok d) :
    (∃ values, s.samples e d = .ok values) ↔
      ∀ i : ℕ, (i : ℤ) ≤ d.toInt → Admits s.maxTerms (e.termCount (Scope.root (i : ℤ))) := by
  have hscoped := Expr.scoped_of_degree hd
  have hdegree : d.toInt = e.naturalDegree := Expr.degree_represents hd
  rw [samples, exists_sampleFrom_eq_ok_iff, (Expr.degree_represents hd).toNatClampNeg]
  refine forall_congr' fun i => ?_
  have hpoint : i < e.naturalDegree + 1 ↔ (i : ℤ) ≤ d.toInt := by omega
  rw [hpoint, Nat.zero_add, Expr.exists_evaluateWithin_iff hscoped]

/-- Samples that are not taken lack terms, and nothing else. -/
lemma onlyWraps_of_samples_eq_error (hd : e.degree = .ok d) (h : s.samples e d = .error err) :
    err.OnlyWraps .termLimit := by
  obtain ⟨j, cause, hcause, rfl⟩ := exists_of_sampleFrom_eq_error h
  exact (Expr.onlyWraps_of_evaluateWithin_eq_error (Expr.scoped_of_degree hd) hcause).within _

/-! ## What a simplification gives -/

/-- A closed form has one coefficient more than the estimate says. -/
lemma length_of_simplify (hp : s.simplify e = .ok p) (hd : e.degree = .ok d) :
    (p.length : ℤ) = d.toInt + 1 := by
  have hdegree : d.toInt = e.naturalDegree := Expr.degree_represents hd
  obtain ⟨values, hlength, -, rfl⟩ := exists_samples hp hd
  rw [closedForm, Poly.length_reduced, Poly.length_interpolate, hlength, hdegree]
  rfl

/-- With an estimate within the limit, a simplification gives what the samples give. -/
lemma simplify_of_degree_le (hd : e.degree = .ok d) (hle : d.toInt ≤ s.degreeLimit.toInt) :
    s.simplify e = (s.samples e d).bind fun values => .ok (closedForm values) := by
  have hnonneg : 0 ≤ d.toInt := (Expr.degree_represents hd).ge.trans' (Int.natCast_nonneg _)
  rw [simplify_eq_bind, estimate_eq_ok_of_degree hd]
  simp only [Except.bind, allowDegree_of_le hnonneg hle]

/-- An estimate above the limit is refused. -/
lemma simplify_of_lt_degree (hd : e.degree = .ok d) (hlt : s.degreeLimit.toInt < d.toInt) :
    s.simplify e =
      .error (.within (.aboveLimit d.toInt s.degreeLimit.toInt) (.sentinel .degreeLimit)) := by
  rw [simplify_eq_bind, estimate_eq_ok_of_degree hd]
  simp only [Except.bind, allowDegree_of_not_le fun h => not_lt.2 h.2 hlt]

lemma exists_simplify_eq_ok_iff (hd : e.degree = .ok d) :
    (∃ p, s.simplify e = .ok p) ↔ d.toInt ≤ s.degreeLimit.toInt ∧
      ∀ i : ℕ, (i : ℤ) ≤ d.toInt → Admits s.maxTerms (e.termCount (Scope.root (i : ℤ))) := by
  rw [← exists_samples_eq_ok_iff hd]
  by_cases hle : d.toInt ≤ s.degreeLimit.toInt
  · rw [simplify_of_degree_le hd hle]
    constructor
    · rintro ⟨p, hp⟩
      obtain ⟨values, hvalues, -⟩ := exists_of_bind_eq_ok hp
      exact ⟨hle, values, hvalues⟩
    · rintro ⟨-, values, hvalues⟩
      exact ⟨closedForm values, by rw [hvalues]; rfl⟩
  · rw [simplify_of_lt_degree hd (not_le.1 hle)]
    simp [hle]

/-- **When a simplification succeeds, what it gives, and how it fails.**  It succeeds exactly if there
is an estimate, which is at most the limit, and each sample needs at most as many terms as are allowed.
It then gives one coefficient more than the estimate says, in lowest terms.  Without an estimate it
fails for the reason that there is none; with an estimate above the limit, for the degree limit; and
otherwise for the term limit, since with an estimate the expression has a value everywhere. -/
theorem simplify_ok_iff_within_limits (s : Simplifier) (e : Expr) :
    (s.degreeLimit.toInt =
      if 1 ≤ s.maxDegree.toInt ∧ s.maxDegree.toInt ≤ 2 ^ 20 then s.maxDegree.toInt else 2 ^ 20) ∧
    ((∃ p, s.simplify e = .ok p) ↔
      ∃ d, e.degree = .ok d ∧ d.toInt ≤ s.degreeLimit.toInt ∧
        (s.maxTerms.toInt ≤ 0 ∨ ∀ i : ℕ, (i : ℤ) ≤ d.toInt →
          (e.termCount (Scope.root (i : ℤ)) : ℤ) ≤ s.maxTerms.toInt)) ∧
    (∀ p d, s.simplify e = .ok p → e.degree = .ok d →
      (p.length : ℤ) = d.toInt + 1 ∧ p.InLowestTerms) ∧
    (∀ err, e.degree = .error err →
      ∃ sentinel ∈ [Sentinel.nullExpression, .unboundIndex, .degreeLimit],
        err.OnlyWraps sentinel ∧ ∃ err', s.simplify e = .error err' ∧ err'.OnlyWraps sentinel) ∧
    ∀ d, e.degree = .ok d →
      (s.degreeLimit.toInt < d.toInt →
        ∃ err, s.simplify e = .error err ∧ err.OnlyWraps .degreeLimit) ∧
      (d.toInt ≤ s.degreeLimit.toInt →
        ∀ err, s.simplify e = .error err → err.OnlyWraps .termLimit) ∧
      ∀ n : Int, ∃ v, e.evaluate n = .ok v := by
  have hterms (d : Weight) :
      (∀ i : ℕ, (i : ℤ) ≤ d.toInt → Admits s.maxTerms (e.termCount (Scope.root (i : ℤ)))) ↔
        s.maxTerms.toInt ≤ 0 ∨ ∀ i : ℕ, (i : ℤ) ≤ d.toInt →
          (e.termCount (Scope.root (i : ℤ)) : ℤ) ≤ s.maxTerms.toInt := by
    unfold Admits
    by_cases hpos : 0 < s.maxTerms.toInt
    · simp [hpos]
    · simp [hpos, not_lt.1 hpos]
  refine ⟨toInt_degreeLimit s, ⟨fun ⟨p, hp⟩ => ?_, fun ⟨d, hd, hle, hsamples⟩ => ?_⟩,
    fun p d hp hd => ⟨length_of_simplify hp hd, inLowestTerms_of_simplify hp⟩,
    fun err herr => ?_, fun d hd => ⟨fun hlt => ?_, fun hle err herr => ?_, fun n => ?_⟩⟩
  · obtain ⟨d, hd⟩ := exists_degree hp
    obtain ⟨hle, hsamples⟩ := (exists_simplify_eq_ok_iff hd).1 ⟨p, hp⟩
    exact ⟨d, hd, hle, (hterms d).1 hsamples⟩
  · exact (exists_simplify_eq_ok_iff hd).2 ⟨hle, (hterms d).2 hsamples⟩
  · obtain ⟨sentinel, hmem, hwraps⟩ :
        ∃ sentinel ∈ [Sentinel.nullExpression, .unboundIndex, .degreeLimit],
          err.OnlyWraps sentinel := by
      cases Expr.unweighed_of_weigh_eq_error herr with
      | tooHeavy h => exact ⟨.degreeLimit, by simp, h⟩
      | hole _ h => exact ⟨.nullExpression, by simp, h⟩
      | unbound _ h => exact ⟨.unboundIndex, by simp, h⟩
    obtain ⟨err', herr', hwraps'⟩ := exists_estimate_eq_error herr hwraps
    exact ⟨sentinel, hmem, hwraps, err', by rw [simplify_eq_bind, herr']; rfl, hwraps'⟩
  · exact ⟨_, simplify_of_lt_degree hd hlt, (Error.OnlyWraps.sentinel _).within _⟩
  · rw [simplify_of_degree_le hd hle] at herr
    rcases eq_error_of_bind_eq_error herr with hsamples | ⟨values, -, hok⟩
    · exact onlyWraps_of_samples_eq_error hd hsamples
    · cases hok
  · exact ⟨_, Expr.evaluate_eq_denote (Expr.scoped_of_degree hd) n⟩

/-- The triangle has the estimate 3 and needs 9 terms at 3: each limit is met exactly, and one less is
not enough.  Outside of its summation, its index has no estimate. -/
theorem simplify_triangle_at_limits :
    (∃ p, Simplifier.simplify ⟨3, 9⟩ triangle = .ok p ∧ p.length = 4 ∧ p.InLowestTerms) ∧
      (∃ err, Simplifier.simplify ⟨2, 9⟩ triangle = .error err ∧ err.OnlyWraps .degreeLimit) ∧
      (∃ err, Simplifier.simplify ⟨3, 8⟩ triangle = .error err ∧ err.OnlyWraps .termLimit) ∧
      ∃ err, Simplifier.simplify ⟨3, 9⟩ (.add triangle (.index "i")) = .error err ∧
        err.OnlyWraps .unboundIndex := by
  have hd : triangle.degree = .ok 3 := rfl
  have hterms : ∀ i : ℕ, (i : ℤ) ≤ (3 : Weight).toInt →
      (triangle.termCount (Scope.root (i : ℤ)) : ℤ) ≤ (9 : Int64).toInt := by
    have hcount : ∀ i < 4, triangle.termCount (Scope.root ((i : ℕ) : ℤ)) ≤ 9 := by decide
    have hthree : (3 : Weight).toInt = 3 := rfl
    have hnine : (9 : Int64).toInt = 9 := rfl
    intro i hi
    rw [hnine]
    exact_mod_cast hcount i (by omega)
  obtain ⟨-, hok, hgives, -⟩ := simplify_ok_iff_within_limits ⟨3, 9⟩ triangle
  obtain ⟨-, -, -, -, htooHigh⟩ := simplify_ok_iff_within_limits ⟨2, 9⟩ triangle
  obtain ⟨-, -, -, -, htooLong⟩ := simplify_ok_iff_within_limits ⟨3, 8⟩ triangle
  obtain ⟨-, -, -, hfails, -⟩ := simplify_ok_iff_within_limits ⟨3, 9⟩ (.add triangle (.index "i"))
  obtain ⟨p, hp⟩ := hok.2 ⟨3, hd, by decide, .inr hterms⟩
  obtain ⟨hlength, hlowest⟩ := hgives p 3 hp hd
  have hfour : (3 : Weight).toInt + 1 = (4 : ℕ) := rfl
  rw [hfour] at hlength
  refine ⟨⟨p, hp, by exact_mod_cast hlength, hlowest⟩, (htooHigh 3 hd).1 (by decide),
    ⟨_, rfl, (htooLong 3 hd).2.1 (by decide) _ rfl⟩, ?_⟩
  obtain ⟨sentinel, -, hwraps, herror⟩ := hfails _ rfl
  obtain rfl : Sentinel.unboundIndex = sentinel := (hwraps _).1 rfl
  exact herror

end Simplifier
end ClosedForm
