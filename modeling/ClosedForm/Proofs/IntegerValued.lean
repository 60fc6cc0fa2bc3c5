import ClosedForm.Proofs.Simplify
import Mathlib.Algebra.Polynomial.Taylor

/-!
# Closed forms are integers at integers

The coefficients of an interpolant are fractions, yet its values at the integers are not: a
polynomial that is an integer at as many consecutive points as its degree needs is an integer at
every integer.  The reason is the forward difference, which has one degree less and is an integer at
one point less.

* `integralAt_of_degree_lt` — the induction on the number of points.
* `exists_evaluate_interpolate` — every interpolant has a value at every integer.
* `interpolate_integer_valued` — **no evaluation of an interpolant or of a closed form fails,** so a
  check of a closed form never reports that its polynomial failed.
-/

namespace ClosedForm

open Polynomial

/-! ## Integer-valued polynomials -/

/-- The value of a polynomial at an integer is an integer. -/
def IntegralAt (q : ℚ[X]) (n : ℤ) : Prop := ∃ v : ℤ, q.eval (n : ℚ) = v

/-- The forward difference `q(x + 1) - q(x)`. -/
noncomputable def difference (q : ℚ[X]) : ℚ[X] := taylor 1 q - q

lemma eval_difference (q : ℚ[X]) (n : ℤ) :
    (difference q).eval (n : ℚ) = q.eval ((n + 1 : ℤ) : ℚ) - q.eval (n : ℚ) := by
  rw [difference, eval_sub, taylor_eval]
  push_cast
  rfl

lemma degree_difference_lt {q : ℚ[X]} {count : ℕ} (h : q.degree < (count + 1 : ℕ)) :
    (difference q).degree < count := by
  by_cases hq : q = 0
  · simp [difference, hq]
  · have hlt : (difference q).degree < q.degree :=
      degree_sub_lt_right (degree_taylor q 1) hq (leadingCoeff_taylor 1 q)
    rw [← natDegree_lt_iff_degree_lt hq] at h
    exact hlt.trans_le (degree_le_of_natDegree_le (Nat.le_of_lt_succ h))

lemma IntegralAt.difference {q : ℚ[X]} {n : ℤ} (h : IntegralAt q n) (h' : IntegralAt q (n + 1)) :
    IntegralAt (difference q) n := by
  obtain ⟨u, hu⟩ := h
  obtain ⟨v, hv⟩ := h'
  refine ⟨v - u, ?_⟩
  rw [eval_difference, hu, hv]
  push_cast
  rfl

/-- A polynomial that is an integer at 0 and changes by integers only is an integer everywhere. -/
lemma integralAt_of_difference {q : ℚ[X]} (hzero : IntegralAt q 0)
    (hstep : ∀ n, IntegralAt (difference q) n) (n : ℤ) : IntegralAt q n := by
  induction n using Int.induction_on with
  | zero => exact hzero
  | succ n ih =>
      obtain ⟨u, hu⟩ := ih
      obtain ⟨w, hw⟩ := hstep n
      rw [eval_difference, hu] at hw
      exact ⟨w + u, by push_cast at hw ⊢; linarith⟩
  | pred n ih =>
      obtain ⟨u, hu⟩ := ih
      obtain ⟨w, hw⟩ := hstep (-n - 1)
      rw [eval_difference, sub_add_cancel, hu] at hw
      exact ⟨u - w, by push_cast at hw ⊢; linarith⟩

/-- **As many integers as the degree needs are enough.** -/
lemma integralAt_of_degree_lt {count : ℕ} {q : ℚ[X]} (hdeg : q.degree < count)
    (h : ∀ i < count, IntegralAt q (i : ℕ)) (n : ℤ) : IntegralAt q n := by
  induction count generalizing q n with
  | zero =>
      have hq : q = 0 := by simpa using hdeg
      exact ⟨0, by simp [hq]⟩
  | succ count ih =>
      have hstep := ih (degree_difference_lt hdeg) fun i hi =>
        (h i (by omega)).difference (by exact_mod_cast h (i + 1) (by omega))
      exact integralAt_of_difference (h 0 (Nat.succ_pos count)) hstep n

/-! ## Interpolants -/

namespace Poly

lemma degree_interpolate_lt (values : List Int) :
    (interpolate values).toPolynomial.degree < values.length := by
  rw [toPolynomial_interpolate]
  simpa using Lagrange.degree_interpolate_lt (s := Finset.range values.length)
    (v := fun i : ℕ => (i : ℚ)) (fun i : ℕ => ((values.getD i 0 : ℤ) : ℚ))
    Nat.cast_injective.injOn

lemma integralAt_interpolate (values : List Int) (n : ℤ) :
    IntegralAt (interpolate values).toPolynomial n :=
  integralAt_of_degree_lt (degree_interpolate_lt values)
    (fun _ hi => ⟨_, by exact_mod_cast eval_interpolate hi⟩) n

/-- Every interpolant has a value at every integer, and reducing it does not change the value. -/
lemma exists_evaluate_interpolate (values : List Int) (n : ℤ) :
    ∃ v, (interpolate values).evaluate n = .ok v ∧
      (interpolate values).reduced.evaluate n = .ok v := by
  obtain ⟨v, hv⟩ := integralAt_interpolate values n
  refine ⟨v, (evaluate_eq_ok_iff _ n v).2 hv, ?_⟩
  rw [evaluate_eq_ok_iff, toPolynomial_reduced, hv]

end Poly

/-! ## Closed forms -/

lemma Simplifier.exists_evaluate_of_simplify {s : Simplifier} {e : Expr} {p : Poly}
    (hp : s.simplify e = .ok p) (n : ℤ) : ∃ v, p.evaluate n = .ok v := by
  obtain ⟨d, hd⟩ := exists_degree hp
  obtain ⟨values, -, -, rfl⟩ := exists_samples hp hd
  obtain ⟨v, -, hv⟩ := Poly.exists_evaluate_interpolate values n
  exact ⟨v, hv⟩

/-- The error says that a polynomial has no value at a point of a check. -/
def Error.OfPolynomial (err : Error) : Prop :=
  ∃ n cause, err = .within (.polynomialAt n) cause

lemma not_ofPolynomial_of_mem_parts {e : Expr} (he : e ≠ .hole) {p : Poly}
    (hp : ∀ n, ∃ v, p.evaluate n = .ok v) {lower upper limit : Int64} {part : Error}
    (h : part ∈ (checkWithin e p lower upper limit).parts) : ¬part.OfPolynomial := by
  rintro ⟨n, cause, rfl⟩
  obtain ⟨k, hk⟩ := exists_reported_of_mem_parts he h
  cases hk with
  | polynomial _ herror =>
      obtain ⟨v, hv⟩ := hp n
      cases hv.symm.trans herror

/-- **Interpolants are integer valued.**  The interpolant of any integers has a value at every
integer, reduced or not.  So has every closed form, and no check of a closed form, whatever its range
and its limit, reports that the polynomial failed at a point. -/
theorem interpolate_integer_valued :
    (∀ (values : List Int) (n : Int), ∃ v, (Poly.interpolate values).evaluate n = .ok v ∧
      (Poly.interpolate values).reduced.evaluate n = .ok v) ∧
    ∀ (s : Simplifier) (e : Expr) (p : Poly), s.simplify e = .ok p →
      (∀ n : Int, ∃ v, p.evaluate n = .ok v) ∧
      ∀ lower upper limit : Int64,
        (∀ part ∈ (check e (some p) lower upper).parts, ¬part.OfPolynomial) ∧
        ∀ part ∈ (checkWithin e p lower upper limit).parts, ¬part.OfPolynomial := by
  refine ⟨Poly.exists_evaluate_interpolate, fun s e p hp => ?_⟩
  have hvalue := Simplifier.exists_evaluate_of_simplify hp
  have hhole : e ≠ .hole := by
    rintro rfl
    cases hp
  refine ⟨hvalue, fun lower upper limit => ⟨?_, ?_⟩⟩
  · rw [check_eq_checkWithin hhole]
    exact fun part hpart => not_ofPolynomial_of_mem_parts hhole hvalue hpart
  · exact fun part hpart => not_ofPolynomial_of_mem_parts hhole hvalue hpart

/-- The sum of `i · i` over `1 ≤ i ≤ x`, whose range has negative length below -1. -/
def squarePyramid : Expr := .sum (.const 1) .param "i" (.mul (.index "i") (.index "i"))

/-- A closed form over the divider 6 has integer values left of its samples, -14 at -4.  A check there finds
that the expression differs, and never that the polynomial failed. -/
theorem squarePyramid_integer_valued :
    ∃ p, ({} : Simplifier).simplify squarePyramid = .ok p ∧ p.divider = 6 ∧
      (∃ v, p.evaluate (-4) = .ok v ∧ v = -14) ∧
      (check squarePyramid (some p) (-4) 4).parts ≠ [] ∧
      ∀ part ∈ (check squarePyramid (some p) (-4) 4).parts, ¬part.OfPolynomial := by
  have hp : ({} : Simplifier).simplify squarePyramid = .ok ⟨[0, 1, 3, 2], 6, by decide⟩ := rfl
  obtain ⟨hvalue, hcheck⟩ := interpolate_integer_valued.2 {} squarePyramid _ hp
  obtain ⟨v, hv⟩ := hvalue (-4)
  refine ⟨_, hp, rfl, ⟨v, hv, ?_⟩, ?_, (hcheck (-4) 4 0).1⟩
  · exact (Except.ok.inj hv).symm
  · intro h
    cases h

end ClosedForm
