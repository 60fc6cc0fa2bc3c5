import ClosedForm.Proofs.Poly.Rational
import Mathlib.Data.Int.GCD
import Mathlib.RingTheory.Int.Basic

/-!
# Lowest terms

A representation is in lowest terms when its divider is positive and shares no divisor with all
coefficients.

* `dvd_content_iff` — the content of a polynomial is a greatest common divisor of its coefficients
  and its divider.
* `toPolynomial_reduced`, `inLowestTerms_reduced` — reducing leads to lowest terms and keeps the
  represented polynomial.
* `trimmed_eq_of_toPolynomial_eq` — **lowest terms are unique** up to zeros above the degree: two
  representations of one polynomial in lowest terms are equal once they are trimmed.
* `eq_of_toPolynomial_eq` — and they are equal as they are if they have the same length.
-/

namespace ClosedForm
namespace Poly

open Polynomial

/-- The divider is positive, and only units divide it together with all coefficients. -/
structure InLowestTerms (p : Poly) : Prop where
  divider_pos : 0 < p.divider
  isUnit_of_dvd : ∀ g : ℤ, (∀ c ∈ p.coefficients, g ∣ c) → g ∣ p.divider → IsUnit g

/-! ## The content -/

lemma dvd_foldl_commonDivisor_iff (k g : Int) (cs : List Int) :
    k ∣ cs.foldl commonDivisor g ↔ k ∣ g ∧ ∀ c ∈ cs, k ∣ c := by
  induction cs generalizing g with
  | nil => simp
  | cons c cs ih =>
      rw [List.foldl_cons, ih, commonDivisor, Int.dvd_coe_gcd_iff, List.forall_mem_cons, and_assoc]

/-- **The content is a greatest common divisor** of the coefficients and the divider. -/
lemma dvd_content_iff (p : Poly) (k : Int) :
    k ∣ p.content ↔ (∀ c ∈ p.coefficients, k ∣ c) ∧ k ∣ p.divider := by
  have hgcd : k ∣ commonDivisor (p.coefficients.foldl commonDivisor 0) p.divider ↔
      (∀ c ∈ p.coefficients, k ∣ c) ∧ k ∣ p.divider := by
    rw [commonDivisor, Int.dvd_coe_gcd_iff, dvd_foldl_commonDivisor_iff]
    simp
  rw [← hgcd]
  unfold content
  dsimp only
  split
  · exact dvd_neg
  · exact Iff.rfl

lemma content_dvd_coefficient {p : Poly} {c : Int} (hc : c ∈ p.coefficients) : p.content ∣ c :=
  ((dvd_content_iff p _).1 dvd_rfl).1 c hc

lemma content_ne_zero (p : Poly) : p.content ≠ 0 := by
  intro h
  have hdvd := p.content_dvd_divider
  rw [h, zero_dvd_iff] at hdvd
  exact p.divider_ne_zero hdvd

/-- The content has the sign of the divider. -/
lemma content_pos_iff (p : Poly) : 0 < p.content ↔ 0 < p.divider := by
  have hne := p.content_ne_zero
  have hd := p.divider_ne_zero
  have hnonneg : 0 ≤ commonDivisor (p.coefficients.foldl commonDivisor 0) p.divider :=
    Int.natCast_nonneg _
  unfold content at hne ⊢
  dsimp only at hne ⊢
  split at hne <;> rename_i hneg
  · rw [if_pos hneg]
    omega
  · rw [if_neg hneg]
    omega

lemma content_mul_divider_reduced (p : Poly) : p.content * p.reduced.divider = p.divider :=
  Int.mul_tdiv_cancel' p.content_dvd_divider

/-! ## Reducing -/

lemma toPolynomial_reduced (p : Poly) : p.reduced.toPolynomial = p.toPolynomial := by
  have hdivider : (p.divider : ℚ) = p.content * p.reduced.divider := by
    exact_mod_cast p.content_mul_divider_reduced.symm
  have hlist : ofList p.reduced.coefficients = C ((p.content : ℚ)⁻¹) * ofList p.coefficients :=
    ofList_map_tdiv p.content_ne_zero fun c hc => content_dvd_coefficient hc
  rw [toPolynomial, hlist, ← mul_assoc, ← C_mul, toPolynomial, hdivider, mul_inv,
    mul_comm (p.reduced.divider : ℚ)⁻¹]

/-- **Reducing leads to lowest terms.** -/
lemma inLowestTerms_reduced (p : Poly) : p.reduced.InLowestTerms := by
  have hdivider := p.content_mul_divider_reduced
  refine ⟨?_, fun g hcoeffs hdiv => ?_⟩
  · have hsign := p.content_pos_iff
    have hne := p.divider_ne_zero
    by_contra! hle
    rcases lt_or_gt_of_ne p.content_ne_zero with hneg | hpos
    · have := mul_nonneg_of_nonpos_of_nonpos hneg.le hle
      omega
    · have := mul_nonpos_of_nonneg_of_nonpos hpos.le hle
      omega
  · -- `g` times the content divides what the content is the greatest divisor of.
    have hdvd : p.content * g ∣ p.content := by
      rw [dvd_content_iff]
      constructor
      · intro c hc
        rw [← Int.mul_tdiv_cancel' (content_dvd_coefficient hc)]
        exact mul_dvd_mul_left _ (hcoeffs _ (List.mem_map_of_mem hc))
      · rw [← hdivider]
        exact mul_dvd_mul_left _ hdiv
    exact isUnit_of_dvd_one ((mul_dvd_mul_iff_left p.content_ne_zero).1 (by simpa using hdvd))

/-! ## Trimming -/

lemma getD_trimZeros (cs : List Int) (i : ℕ) : (trimZeros cs).getD i 0 = cs.getD i 0 := by
  have h := congrArg (fun q : ℚ[X] => q.coeff i) (ofList_trimZeros cs)
  simp only [coeff_ofList] at h
  exact_mod_cast h

lemma mem_trimZeros_of_ne_zero {cs : List Int} {c : Int} (hc : c ∈ cs) (hne : c ≠ 0) :
    c ∈ trimZeros cs := by
  obtain ⟨i, hi, rfl⟩ := List.getElem_of_mem hc
  have hget := getD_trimZeros cs i
  rw [List.getD_eq_getElem cs 0 hi] at hget
  by_cases hlen : i < (trimZeros cs).length
  · rw [List.getD_eq_getElem _ 0 hlen] at hget
    exact hget ▸ List.getElem_mem hlen
  · rw [List.getD_eq_default _ _ (not_lt.1 hlen)] at hget
    exact absurd hget.symm hne

lemma InLowestTerms.trimmed {p : Poly} (h : p.InLowestTerms) : p.trimmed.InLowestTerms := by
  refine ⟨h.divider_pos, fun g hcoeffs hdiv => h.isUnit_of_dvd g (fun c hc => ?_) hdiv⟩
  by_cases hzero : c = 0
  · exact hzero ▸ dvd_zero g
  · exact hcoeffs c (mem_trimZeros_of_ne_zero hc hzero)

lemma getD_trimZeros_last_ne_zero {cs : List Int} (h : trimZeros cs ≠ []) :
    (trimZeros cs).getD ((trimZeros cs).length - 1) 0 ≠ 0 := by
  have hlast : ¬((trimZeros cs).getLast h == 0) = true := List.rdropWhile_last_not _ cs h
  rw [List.getD_eq_getElem _ 0 (by have := List.length_pos_iff.2 h; omega),
    ← List.getLast_eq_getElem h]
  simpa using hlast

/-- Lists with the same coefficients have the same length once they are trimmed. -/
lemma length_trimZeros_le {cs ds : List Int} (h : ∀ i, cs.getD i 0 = ds.getD i 0) :
    (trimZeros cs).length ≤ (trimZeros ds).length := by
  by_contra! hlt
  have hne : trimZeros cs ≠ [] := List.length_pos_iff.1 (by omega)
  apply getD_trimZeros_last_ne_zero hne
  rw [getD_trimZeros, h, ← getD_trimZeros ds, List.getD_eq_default _ _ (by omega)]

lemma trimZeros_congr {cs ds : List Int} (h : ∀ i, cs.getD i 0 = ds.getD i 0) :
    trimZeros cs = trimZeros ds := by
  have hlen : (trimZeros cs).length = (trimZeros ds).length :=
    le_antisymm (length_trimZeros_le h) (length_trimZeros_le fun i => (h i).symm)
  refine List.ext_getElem hlen fun i hi hi' => ?_
  have hget : (trimZeros cs).getD i 0 = (trimZeros ds).getD i 0 := by
    rw [getD_trimZeros, getD_trimZeros, h]
  rwa [List.getD_eq_getElem _ 0 hi, List.getD_eq_getElem _ 0 hi'] at hget

/-! ## Uniqueness -/

/-- Two representations of one polynomial have proportional coefficients. -/
lemma getD_mul_divider {p q : Poly} (h : p.toPolynomial = q.toPolynomial) (i : ℕ) :
    p.coefficients.getD i 0 * q.divider = q.coefficients.getD i 0 * p.divider := by
  have hcoeff := congrArg (fun r : ℚ[X] => r.coeff i) h
  simp only [coeff_toPolynomial] at hcoeff
  rw [div_eq_div_iff p.divider_cast_ne_zero q.divider_cast_ne_zero] at hcoeff
  exact_mod_cast hcoeff

lemma divider_dvd_of_inLowestTerms {p q : Poly} (h : p.toPolynomial = q.toPolynomial)
    (hp : p.InLowestTerms) : p.divider ∣ q.divider := by
  have hg : 0 < Int.gcd p.divider q.divider := Int.gcd_pos_of_ne_zero_left _ p.divider_ne_zero
  obtain ⟨s, t, hst, hs, ht⟩ := Int.exists_gcd_one hg
  have hg' : (Int.gcd p.divider q.divider : ℤ) ≠ 0 := by omega
  generalize (Int.gcd p.divider q.divider : ℤ) = g at hs ht hg'
  -- `s` is what the divider of `p` has more than that of `q`; it divides every coefficient of `p`.
  have hdvd : ∀ c ∈ p.coefficients, s ∣ c := by
    intro c hc
    obtain ⟨i, hi, rfl⟩ := List.getElem_of_mem hc
    have hprop := getD_mul_divider h i
    rw [List.getD_eq_getElem _ 0 hi, hs, ht, ← mul_assoc, ← mul_assoc] at hprop
    have hdvd : s ∣ p.coefficients[i] * t := Dvd.intro_left _ (mul_right_cancel₀ hg' hprop).symm
    exact (Int.isCoprime_iff_gcd_eq_one.2 hst).dvd_of_dvd_mul_right hdvd
  have hunit : IsUnit s := hp.isUnit_of_dvd s hdvd (Dvd.intro _ hs.symm)
  rw [hs, ht]
  exact mul_dvd_mul_right hunit.dvd _

/-- In lowest terms, one polynomial has one divider. -/
lemma divider_eq_of_toPolynomial_eq {p q : Poly} (h : p.toPolynomial = q.toPolynomial)
    (hp : p.InLowestTerms) (hq : q.InLowestTerms) : p.divider = q.divider :=
  Int.dvd_antisymm hp.divider_pos.le hq.divider_pos.le (divider_dvd_of_inLowestTerms h hp)
    (divider_dvd_of_inLowestTerms h.symm hq)

/-- In lowest terms, one polynomial has one coefficient at every power. -/
lemma getD_eq_of_toPolynomial_eq {p q : Poly} (h : p.toPolynomial = q.toPolynomial)
    (hp : p.InLowestTerms) (hq : q.InLowestTerms) (i : ℕ) :
    p.coefficients.getD i 0 = q.coefficients.getD i 0 := by
  have hprop := getD_mul_divider h i
  rw [divider_eq_of_toPolynomial_eq h hp hq] at hprop
  exact Int.eq_of_mul_eq_mul_right q.divider_ne_zero hprop

/-- **Lowest terms are unique** up to zeros above the degree. -/
lemma trimmed_eq_of_toPolynomial_eq {p q : Poly} (h : p.toPolynomial = q.toPolynomial)
    (hp : p.InLowestTerms) (hq : q.InLowestTerms) : p.trimmed = q.trimmed := by
  have hdivider := divider_eq_of_toPolynomial_eq h hp hq
  have hcoeffs : trimZeros p.coefficients = trimZeros q.coefficients :=
    trimZeros_congr (getD_eq_of_toPolynomial_eq h hp hq)
  unfold Poly.trimmed
  congr

/-- **Lowest terms of one length are unique,** zeros above the degree included. -/
lemma eq_of_toPolynomial_eq {p q : Poly} (h : p.toPolynomial = q.toPolynomial)
    (hp : p.InLowestTerms) (hq : q.InLowestTerms) (hlength : p.length = q.length) : p = q := by
  have hdivider := divider_eq_of_toPolynomial_eq h hp hq
  have hcoeffs : p.coefficients = q.coefficients := by
    refine List.ext_getElem hlength fun i hi hi' => ?_
    have hget := getD_eq_of_toPolynomial_eq h hp hq i
    rwa [List.getD_eq_getElem _ 0 hi, List.getD_eq_getElem _ 0 hi'] at hget
  cases p
  cases q
  congr

end Poly
end ClosedForm
