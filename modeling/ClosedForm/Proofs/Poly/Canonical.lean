import ClosedForm.Proofs.Poly.Length
import ClosedForm.Proofs.Poly.LowestTerms
import Mathlib.Algebra.GCDMonoid.Multiset
import Mathlib.Algebra.GCDMonoid.Nat
import Mathlib.LinearAlgebra.Lagrange

/-!
# The canonical form of a polynomial

Many representations stand for one polynomial: a factor can be moved between the coefficients and the
divider, and zeros can stand above the degree.  Reducing takes the first freedom away and leaves the
second, trimming takes the second.

* `gcd_eq_one_of_inLowestTerms`, `reduced_eq_self_iff` — lowest terms, as a greatest common divisor and
  as what reducing does not change.
* `reduced_eq_iff` — **reduced representations are equal exactly if they have the same length and the
  same rational coefficients.**
* `trimmed_reduced_eq_iff` — trimmed as well, they are equal exactly if they are the same polynomial.
* `toPolynomial_eq_iff_fraction_of_lt` — which their values decide, at as many naturals as there are
  coefficients.
* `reduced_is_canonical` collects these.
-/

namespace ClosedForm
namespace Poly

open Polynomial

/-! ## Rational coefficients -/

/-- The coefficient of `x ^ i` as a rational number. -/
def coefficientAt (p : Poly) (i : ℕ) : ℚ := (p.coefficients.getD i 0 : ℤ) / p.divider

/-- The represented polynomial is given by the rational coefficients. -/
lemma toPolynomial_eq_iff (p q : Poly) :
    p.toPolynomial = q.toPolynomial ↔ ∀ i, p.coefficientAt i = q.coefficientAt i := by
  simp only [Polynomial.ext_iff, coeff_toPolynomial, coefficientAt]

/-- The represented polynomial is given by its values at as many naturals as there are coefficients. -/
lemma toPolynomial_eq_iff_fraction_of_lt (p q : Poly) :
    p.toPolynomial = q.toPolynomial ↔
      ∀ n : ℕ, n < max p.length q.length → p.fraction n = q.fraction n := by
  constructor
  · intro h n _
    rw [fraction_eq_iff, h]
  · intro h
    have hdegree {r : Poly} (hr : r.length ≤ max p.length q.length) :
        r.toPolynomial.degree < (Finset.range (max p.length q.length)).card := by
      rw [Finset.card_range]
      exact (degree_toPolynomial_lt r).trans_le (by exact_mod_cast hr)
    apply eq_of_degrees_lt_of_eval_index_eq (Finset.range (max p.length q.length))
      (Nat.cast_injective (R := ℚ)).injOn (hdegree (le_max_left _ _)) (hdegree (le_max_right _ _))
    intro n hn
    exact_mod_cast (fraction_eq_iff p q n).1 (h n (Finset.mem_range.1 hn))

/-- The represented polynomial is given by its values at the integers. -/
lemma toPolynomial_eq_iff_fraction (p q : Poly) :
    p.toPolynomial = q.toPolynomial ↔ ∀ n : ℤ, p.fraction n = q.fraction n := by
  constructor
  · intro h n
    rw [fraction_eq_iff, h]
  · intro h
    rw [toPolynomial_eq_iff_fraction_of_lt]
    exact fun n _ => h n

/-! ## Lowest terms -/

/-- In lowest terms the greatest common divisor of the divider and all coefficients is 1. -/
lemma gcd_eq_one_of_inLowestTerms {p : Poly} (h : p.InLowestTerms) :
    Multiset.gcd (p.divider ::ₘ (p.coefficients : Multiset ℤ)) = 1 := by
  have hdvd : ∀ c ∈ p.divider ::ₘ (p.coefficients : Multiset ℤ),
      Multiset.gcd (p.divider ::ₘ (p.coefficients : Multiset ℤ)) ∣ c :=
    fun c hc => Multiset.gcd_dvd hc
  have hunit : IsUnit (Multiset.gcd (p.divider ::ₘ (p.coefficients : Multiset ℤ))) := by
    apply h.isUnit_of_dvd
    · intro c hc
      exact hdvd c (Multiset.mem_cons_of_mem (Multiset.mem_coe.2 hc))
    · exact hdvd p.divider (Multiset.mem_cons_self ..)
  rw [← Multiset.normalize_gcd]
  exact normalize_eq_one.2 hunit

/-- **Reducing changes nothing exactly in lowest terms.** -/
lemma reduced_eq_self_iff (p : Poly) : p.reduced = p ↔ p.InLowestTerms := by
  constructor
  · intro h
    exact h ▸ inLowestTerms_reduced p
  · intro h
    exact eq_of_toPolynomial_eq (toPolynomial_reduced p) (inLowestTerms_reduced p) h
      (length_reduced p)

/-! ## Equality of reduced representations -/

/-- **Reduced representations are equal exactly if they have the same length and represent the same
polynomial.** -/
lemma reduced_eq_iff {p q : Poly} :
    p.reduced = q.reduced ↔ p.length = q.length ∧ p.toPolynomial = q.toPolynomial := by
  constructor
  · intro h
    rw [← length_reduced p, ← length_reduced q, ← toPolynomial_reduced p, ← toPolynomial_reduced q, h]
    exact ⟨rfl, rfl⟩
  · rintro ⟨hlength, hpoly⟩
    apply eq_of_toPolynomial_eq _ (inLowestTerms_reduced p) (inLowestTerms_reduced q)
    · rw [length_reduced, length_reduced, hlength]
    · rw [toPolynomial_reduced, toPolynomial_reduced, hpoly]

/-- Trimmed as well, they are equal exactly if they represent the same polynomial. -/
lemma trimmed_reduced_eq_iff {p q : Poly} :
    p.reduced.trimmed = q.reduced.trimmed ↔ p.toPolynomial = q.toPolynomial := by
  constructor
  · intro h
    rw [← toPolynomial_reduced p, ← toPolynomial_reduced q, ← toPolynomial_trimmed p.reduced,
      ← toPolynomial_trimmed q.reduced, h]
  · intro h
    apply trimmed_eq_of_toPolynomial_eq _ (inLowestTerms_reduced p) (inLowestTerms_reduced q)
    rw [toPolynomial_reduced, toPolynomial_reduced, h]

/-- **Reducing gives a complete canonical form.**  It keeps the length and the rational coefficients,
makes the divider positive and the greatest common divisor of everything 1, and changes nothing the
second time.  Reduced representations are equal exactly if the lengths and the rational coefficients
are; reduced and trimmed, exactly if the represented polynomials are.  These are equal exactly if their
values at every integer are, or just at as many naturals as the longer one has coefficients. -/
theorem reduced_is_canonical :
    (∀ p : Poly,
      p.reduced.length = p.length ∧
      (∀ i, p.reduced.coefficientAt i = p.coefficientAt i) ∧
      0 < p.reduced.divider ∧
      Multiset.gcd (p.reduced.divider ::ₘ (p.reduced.coefficients : Multiset ℤ)) = 1 ∧
      p.reduced.reduced = p.reduced) ∧
    ∀ p q : Poly,
      (p.reduced = q.reduced ↔
        p.length = q.length ∧ ∀ i, p.coefficientAt i = q.coefficientAt i) ∧
      (p.reduced.trimmed = q.reduced.trimmed ↔ p.toPolynomial = q.toPolynomial) ∧
      (p.toPolynomial = q.toPolynomial ↔ ∀ n : ℤ, p.fraction n = q.fraction n) ∧
      (p.toPolynomial = q.toPolynomial ↔
        ∀ n : ℕ, n < max p.length q.length → p.fraction n = q.fraction n) := by
  refine ⟨fun p => ?_, fun p q => ?_⟩
  · have hlowest := inLowestTerms_reduced p
    have hcoefficients := (toPolynomial_eq_iff _ _).1 (toPolynomial_reduced p)
    exact ⟨length_reduced p, hcoefficients, hlowest.divider_pos, gcd_eq_one_of_inLowestTerms hlowest,
      (reduced_eq_self_iff _).2 hlowest⟩
  · rw [← toPolynomial_eq_iff]
    exact ⟨reduced_eq_iff, trimmed_reduced_eq_iff, toPolynomial_eq_iff_fraction p q,
      toPolynomial_eq_iff_fraction_of_lt p q⟩

/-- Without any coefficient that is not zero, the divider is all that is divided out. -/
example : (Poly.reduced ⟨[0, 0], -6, by decide⟩).coefficients = [0, 0] ∧
    (Poly.reduced ⟨[0, 0], -6, by decide⟩).divider = 1 := by decide

end Poly
end ClosedForm
