import ClosedForm.Poly.Interpolation
import ClosedForm.Proofs.Poly.Rational
import Mathlib.LinearAlgebra.Lagrange

/-!
# The interpolating polynomial

`interpolate` sums products of factors over separate dividers.  The polynomial that it represents is
the Lagrange interpolant at 0, 1, 2, …, so it takes the given values there, its degree is below their
number, and it is the only such polynomial.

* `toPolynomial_timesFactors` — the factors multiply to a basis polynomial.
* `toPolynomial_interpolate` — the sum is the Lagrange interpolant.
* `toPolynomial_interpolate_eq` — **samples determine a polynomial:** one of degree below the number
  of samples that takes the sampled values is the interpolant.
-/

namespace ClosedForm
namespace Poly

open Polynomial Finset

/-! ## The basis -/

lemma toPolynomial_lagrangeFactor (i j : ℕ) (h : i ≠ j) :
    (lagrangeFactor i j h).toPolynomial = Lagrange.basisDivisor (i : ℚ) (j : ℚ) := by
  simp only [toPolynomial, lagrangeFactor, Lagrange.basisDivisor, ofList_cons, ofList_nil]
  push_cast
  simp only [C_neg, C_1]
  ring

/-- The factors that separate `i` from the points below `count`. -/
lemma toPolynomial_timesFactors (i : ℕ) (p : Poly) (count : ℕ) :
    (timesFactors i p count).toPolynomial =
      p.toPolynomial * Lagrange.basis (range count) (fun j : ℕ => (j : ℚ)) i := by
  have hfold : (timesFactors i p count).toPolynomial = p.toPolynomial *
      ∏ j ∈ range count, if i = j then 1 else Lagrange.basisDivisor (i : ℚ) (j : ℚ) := by
    unfold timesFactors
    induction count with
    | zero => simp
    | succ count ih =>
        rw [List.range_succ, List.foldl_append, List.foldl_cons, List.foldl_nil, prod_range_succ,
          ← mul_assoc, ← ih]
        by_cases h : i = count
        · simp [h]
        · simp [h, toPolynomial_mul, toPolynomial_lagrangeFactor]
  rw [hfold, Lagrange.basis, ← prod_erase (a := i) _ (by simp)]
  congr 1
  refine prod_congr rfl fun j hj => ?_
  rw [if_neg (ne_of_mem_erase hj).symm]

/-! ## The interpolant -/

/-- The sum over the values from position `k` on. -/
lemma toPolynomial_foldl_add (count k : ℕ) (p : Poly) (values : List Int) :
    ((values.zipIdx k).foldl
        (fun p (v, i) => p.add (timesFactors i (constant v) count)) p).toPolynomial =
      p.toPolynomial + ∑ i ∈ range values.length,
        C ((values.getD i 0 : ℤ) : ℚ) *
          Lagrange.basis (range count) (fun j : ℕ => (j : ℚ)) (k + i) := by
  induction values generalizing k p with
  | nil => simp
  | cons v values ih =>
      have hshift : ∀ i : ℕ, k + 1 + i = k + (i + 1) := by omega
      rw [List.zipIdx_cons, List.foldl_cons, ih, toPolynomial_add, toPolynomial_timesFactors,
        toPolynomial_constant, List.length_cons, sum_range_succ']
      simp only [hshift, List.getD_cons_succ, List.getD_cons_zero, add_zero]
      ring

/-- **The sum of the products is the Lagrange interpolant.** -/
lemma toPolynomial_interpolate (values : List Int) :
    (interpolate values).toPolynomial =
      Lagrange.interpolate (range values.length) (fun i : ℕ => (i : ℚ))
        (fun i : ℕ => ((values.getD i 0 : ℤ) : ℚ)) := by
  rw [interpolate, toPolynomial_foldl_add, toPolynomial_zero, zero_add, Lagrange.interpolate_apply]
  simp only [zero_add]

/-- The interpolant takes the sampled values. -/
lemma eval_interpolate {values : List Int} {i : ℕ} (hi : i < values.length) :
    (interpolate values).toPolynomial.eval (i : ℚ) = (values.getD i 0 : ℤ) := by
  rw [toPolynomial_interpolate]
  exact Lagrange.eval_interpolate_at_node (v := fun i : ℕ => (i : ℚ)) _
    Nat.cast_injective.injOn (mem_range.2 hi)

/-- **Samples determine a polynomial.** -/
lemma toPolynomial_interpolate_eq {values : List Int} {q : ℚ[X]}
    (hdeg : q.degree < values.length)
    (hval : ∀ i < values.length, q.eval (i : ℚ) = (values.getD i 0 : ℤ)) :
    (interpolate values).toPolynomial = q := by
  rw [toPolynomial_interpolate]
  refine (Lagrange.eq_interpolate_of_eval_eq _ Nat.cast_injective.injOn ?_
    fun i hi => hval i (mem_range.1 hi)).symm
  rwa [card_range]

end Poly
end ClosedForm
