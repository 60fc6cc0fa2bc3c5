import ClosedForm.Proofs.Poly.Canonical

/-!
# Exact arithmetic

Sums, products and values are computed on integers, with divisions that truncate.  None of these
divisions loses anything: a sum divides a common multiple by what it is a multiple of, and a value is
given only if the division leaves no remainder.

* `coefficientAt_add`, `coefficientAt_mul` — **rational coefficients are added and convolved.**
* `add_swap` — the two sides of a sum can change places, before anything is reduced.
* `degree_mul` — a product that is not zero has the degrees of its factors together.
* `horner_eq_sum` — Horner's rule.
* `evaluate_eq_ok_iff_fraction`, `evaluate_eq_error_iff` — **the two ways to evaluate agree:** the value
  as an integer is that of a fraction in lowest terms whose denominator is 1.
-/

namespace ClosedForm
namespace Poly

open Finset

/-! ## Coefficients -/

lemma coefficientAt_eq_coeff (p : Poly) (i : ℕ) : p.coefficientAt i = p.toPolynomial.coeff i :=
  (coeff_toPolynomial p i).symm

lemma coefficientAt_add (p q : Poly) (i : ℕ) :
    (p.add q).coefficientAt i = p.coefficientAt i + q.coefficientAt i := by
  simp only [coefficientAt_eq_coeff, toPolynomial_add, Polynomial.coeff_add]

/-- **The coefficients of a product are the convolution of those of its factors.** -/
lemma coefficientAt_mul (p q : Poly) (i : ℕ) :
    (p.mul q).coefficientAt i =
      ∑ jk ∈ antidiagonal i, p.coefficientAt jk.1 * q.coefficientAt jk.2 := by
  simp only [coefficientAt_eq_coeff, toPolynomial_mul, Polynomial.coeff_mul]

/-! ### The order of a sum -/

lemma commonMultiple_comm (a b : Int) : commonMultiple a b = commonMultiple b a := by
  have hswap : commonDivisor b a = commonDivisor a b := by
    rw [commonDivisor, commonDivisor, Int.gcd_comm]
  unfold commonMultiple
  rw [hswap]
  by_cases hg : commonDivisor a b = 0
  · simp only [if_pos hg]
  · obtain ⟨j, hj⟩ : commonDivisor a b ∣ a := Int.gcd_dvd_left a b
    obtain ⟨k, hk⟩ : commonDivisor a b ∣ b := Int.gcd_dvd_right a b
    generalize commonDivisor a b = g at hg hj hk ⊢
    subst hj hk
    simp only [if_neg hg, Int.mul_tdiv_cancel_left _ hg]
    ring

lemma addLists_comm (as bs : List Int) : addLists as bs = addLists bs as := by
  fun_induction addLists as bs with
  | case1 bs => cases bs <;> rfl
  | case2 as => cases as <;> rfl
  | case3 a as b bs ih => rw [addLists, ih, Int.add_comm]

/-- **The sides of a sum can change places,** so that it does not matter which one is the longer. -/
lemma add_swap (p q : Poly) : p.add q = q.add p := by
  unfold add
  simp only [commonMultiple_comm q.divider, addLists_comm (scale _ q.coefficients)]

/-! ## Degrees -/

lemma exists_length_trimZeros_eq {p : Poly} (h : ∃ c ∈ p.coefficients, c ≠ 0) :
    ∃ d : ℕ, (trimZeros p.coefficients).length = d + 1 := by
  obtain ⟨c, hc, hne⟩ := h
  exact Nat.exists_eq_succ_of_ne_zero
    (Nat.ne_of_gt (List.length_pos_of_mem (mem_trimZeros_of_ne_zero hc hne)))

/-- The degree is that of the represented polynomial, unless this is zero. -/
lemma degree_eq_natDegree {p : Poly} (h : ∃ c ∈ p.coefficients, c ≠ 0) :
    p.degree = p.toPolynomial.natDegree := by
  obtain ⟨d, hlength⟩ := exists_length_trimZeros_eq h
  have hcoeff (i : ℕ) : p.toPolynomial.coeff i =
      ((trimZeros p.coefficients).getD i 0 : ℤ) / p.divider := by
    rw [coeff_toPolynomial, getD_trimZeros]
  have hlead : p.toPolynomial.coeff d ≠ 0 := by
    have hlast := getD_trimZeros_last_ne_zero (List.ne_nil_of_length_eq_add_one hlength)
    rw [hlength, Nat.add_sub_cancel] at hlast
    rw [hcoeff]
    exact div_ne_zero (by exact_mod_cast hlast) p.divider_cast_ne_zero
  have hdegree : p.toPolynomial.natDegree = d := by
    refine le_antisymm ?_ (Polynomial.le_natDegree_of_ne_zero hlead)
    rw [Polynomial.natDegree_le_iff_coeff_eq_zero]
    intro i hi
    rw [hcoeff, List.getD_eq_default _ _ (by omega), Int.cast_zero, zero_div]
  rw [degree, hlength, hdegree]
  push_cast
  ring

/-- **The degree of a product is the sum of the degrees,** unless a factor is zero. -/
lemma degree_mul {p q : Poly} (hp : ∃ c ∈ p.coefficients, c ≠ 0)
    (hq : ∃ c ∈ q.coefficients, c ≠ 0) : (p.mul q).degree = p.degree + q.degree := by
  have hne {r : Poly} : (∃ c ∈ r.coefficients, c ≠ 0) ↔ r.toPolynomial ≠ 0 := by
    rw [Ne, toPolynomial_eq_zero_iff]
    push Not
    rfl
  have hmul := Polynomial.natDegree_mul (hne.1 hp) (hne.1 hq)
  have hpq : ∃ c ∈ (p.mul q).coefficients, c ≠ 0 := by
    rw [hne, toPolynomial_mul]
    exact mul_ne_zero (hne.1 hp) (hne.1 hq)
  rw [degree_eq_natDegree hp, degree_eq_natDegree hq, degree_eq_natDegree hpq, toPolynomial_mul, hmul]
  push_cast
  rfl

/-! ## Values -/

/-- The value at an integer as a rational number. -/
def rational (p : Poly) (n : ℤ) : ℚ := (p.fraction n).1 / (p.fraction n).2

lemma rational_eq_eval (p : Poly) (n : ℤ) : p.rational n = p.toPolynomial.eval (n : ℚ) := by
  rw [rational, fraction_eq, Int.cast_natCast, Rat.num_div_den]

lemma horner_eq_sum (n : ℤ) (cs : List Int) :
    horner n cs = ∑ i ∈ range cs.length, cs.getD i 0 * n ^ i := by
  induction cs with
  | nil => rfl
  | cons c cs ih =>
      have hcons : horner n (c :: cs) = horner n cs * n + c := rfl
      rw [hcons, ih, List.length_cons, sum_range_succ', sum_mul]
      simp only [List.getD_cons_succ, List.getD_cons_zero, pow_succ, pow_zero, mul_one, mul_assoc]

/-- A value as an integer is a fraction over 1. -/
lemma evaluate_eq_ok_iff_fraction (p : Poly) (n v : ℤ) :
    p.evaluate n = .ok v ↔ p.fraction n = (v, 1) := by
  rw [evaluate_eq_ok_iff, fraction_eq, Prod.mk.injEq]
  constructor
  · intro h
    rw [h]
    exact ⟨Rat.num_intCast v, by rw [Rat.den_intCast, Nat.cast_one]⟩
  · rintro ⟨hnum, hden⟩
    rw [← hnum]
    exact (Rat.den_eq_one_iff _).1 (by exact_mod_cast hden) |>.symm

lemma snd_fraction_pos (p : Poly) (n : ℤ) : 0 < (p.fraction n).2 := by
  rw [fraction_eq]
  exact Int.natCast_pos.2 (Rat.den_pos _)

/-- **There is no value as an integer exactly if the denominator is above 1.** -/
lemma evaluate_eq_error_iff (p : Poly) (n : ℤ) :
    p.evaluate n = .error (.sentinel .notIntegral) ↔ 1 < (p.fraction n).2 := by
  have hpos := p.snd_fraction_pos n
  cases h : p.evaluate n with
  | ok v =>
      rw [(evaluate_eq_ok_iff_fraction p n v).1 h]
      simp
  | error err =>
      rw [eq_notIntegral_of_evaluate_eq_error h]
      refine ⟨fun _ => ?_, fun _ => rfl⟩
      have hne : (p.fraction n).2 ≠ 1 := by
        intro hone
        have hok := (evaluate_eq_ok_iff_fraction p n (p.fraction n).1).2 (Prod.ext rfl hone)
        cases h.symm.trans hok
      omega

/-! ## All together -/

/-- **Sums and products are exact,** over dividers of either sign.  Their dividers are not zero, and their
lengths depend on the lengths of the operands only.  No truncated division on the way to a sum leaves a
remainder, and its sides can change places.  Rational coefficients are added and convolved, so values are
added and multiplied; and the degrees of two factors add up when neither of them is zero. -/
theorem sums_and_products_exact (p q : Poly) :
    ((p.add q).divider ≠ 0 ∧ (p.mul q).divider ≠ 0) ∧
    ((p.add q).length = max p.length q.length ∧
      (p.mul q).length = if p.length = 0 ∨ q.length = 0 then 0 else p.length + q.length - 1) ∧
    (p.divider.tmod (commonDivisor p.divider q.divider) = 0 ∧
      (commonMultiple p.divider q.divider).tmod p.divider = 0 ∧
      (commonMultiple p.divider q.divider).tmod q.divider = 0 ∧ p.add q = q.add p) ∧
    (∀ i, (p.add q).coefficientAt i = p.coefficientAt i + q.coefficientAt i ∧
      (p.mul q).coefficientAt i =
        ∑ jk ∈ antidiagonal i, p.coefficientAt jk.1 * q.coefficientAt jk.2) ∧
    (∀ n : ℤ, (p.add q).rational n = p.rational n + q.rational n ∧
      (p.mul q).rational n = p.rational n * q.rational n) ∧
    ((∃ c ∈ p.coefficients, c ≠ 0) → (∃ c ∈ q.coefficients, c ≠ 0) →
      (p.mul q).degree = p.degree + q.degree) := by
  refine ⟨⟨divider_ne_zero _, divider_ne_zero _⟩, ⟨length_add p q, length_mul p q⟩,
    ⟨?_, ?_, ?_, add_swap p q⟩, fun i => ⟨coefficientAt_add p q i, coefficientAt_mul p q i⟩,
    fun n => ?_, degree_mul⟩
  · exact Int.tmod_eq_zero_of_dvd (Int.gcd_dvd_left _ _)
  · exact Int.tmod_eq_zero_of_dvd (dvd_commonMultiple_left _ _)
  · exact Int.tmod_eq_zero_of_dvd (dvd_commonMultiple_right _ _)
  · simp only [rational_eq_eval, toPolynomial_add, toPolynomial_mul, Polynomial.eval_add,
      Polynomial.eval_mul, and_self]

/-- `(1 + 2x) / -2`, with a zero above the degree. -/
def negativeLine : Poly := ⟨[1, 2, 0], -2, by decide⟩

/-- `3x / 4`. -/
def steepLine : Poly := ⟨[0, 3], 4, by decide⟩

/-- Their product is `(3x + 6x²) / -8`, with a zero above the degree that both have together, and their
sum stands over -4. -/
theorem degree_negativeLine_mul :
    (∃ c ∈ negativeLine.coefficients, c ≠ 0) ∧ (∃ c ∈ steepLine.coefficients, c ≠ 0) ∧
      (negativeLine.mul steepLine).degree = negativeLine.degree + steepLine.degree ∧
      (negativeLine.mul steepLine).coefficients = [0, 3, 6, 0] ∧
      (negativeLine.mul steepLine).degree = 2 ∧
      (negativeLine.add steepLine).divider = -4 := by
  obtain ⟨-, -, -, -, -, hdegree⟩ := sums_and_products_exact negativeLine steepLine
  have hnegative : ∃ c ∈ negativeLine.coefficients, c ≠ 0 := by decide
  have hsteep : ∃ c ∈ steepLine.coefficients, c ≠ 0 := by decide
  exact ⟨hnegative, hsteep, hdegree hnegative hsteep, by decide, by decide, by decide⟩

/-- **Values are exact,** over dividers of either sign.  The numerator is the sum of the coefficients times
the powers, and the fraction is the value in lowest terms over a positive denominator.  The value as an
integer is `v` exactly if the fraction is `v` over 1, and there is none exactly if the denominator is above
1.  Trimming and reducing change none of this. -/
theorem values_exact (p : Poly) (n : ℤ) :
    p.numerator n = ∑ i ∈ range p.length, p.coefficients.getD i 0 * n ^ i ∧
    (p.rational n = p.numerator n / p.divider ∧ 0 < (p.fraction n).2 ∧
      Int.gcd (p.fraction n).1 (p.fraction n).2 = 1) ∧
    ((∀ v, p.evaluate n = .ok v ↔ p.fraction n = (v, 1)) ∧
      (p.evaluate n = .error (.sentinel .notIntegral) ↔ 1 < (p.fraction n).2)) ∧
    (p.trimmed.evaluate n = p.evaluate n ∧ p.trimmed.fraction n = p.fraction n) ∧
    p.reduced.evaluate n = p.evaluate n ∧ p.reduced.fraction n = p.fraction n := by
  have htrimmed := toPolynomial_trimmed p
  have hreduced := toPolynomial_reduced p
  refine ⟨horner_eq_sum n p.coefficients, ⟨?_, snd_fraction_pos p n, ?_⟩,
    ⟨evaluate_eq_ok_iff_fraction p n, evaluate_eq_error_iff p n⟩,
    ⟨evaluate_congr htrimmed n, ?_⟩, evaluate_congr hreduced n, ?_⟩
  · rw [rational_eq_eval, eval_toPolynomial]
  · rw [fraction_eq]
    exact Rat.reduced _
  · rw [fraction_eq_iff, htrimmed]
  · rw [fraction_eq_iff, hreduced]

/-- Both signs: `(1 + 2x) / -2` is no integer at 3, and its denominator there is 2. -/
example : fraction ⟨[1, 2], -2, by decide⟩ 3 = (-7, 2) ∧
    evaluate ⟨[1, 2], -2, by decide⟩ 3 = .error (.sentinel .notIntegral) := ⟨by decide, rfl⟩

end Poly
end ClosedForm
