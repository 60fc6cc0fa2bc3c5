import ClosedForm.Poly.Algebra
import ClosedForm.Poly.Eval
import Mathlib.Algebra.Polynomial.Eval.Coeff
import Mathlib.Algebra.Polynomial.Eval.Degree
import Mathlib.Data.List.DropRight
import Mathlib.Data.List.GetD
import Mathlib.Data.Rat.Lemmas
import Mathlib.Tactic.FieldSimp
import Mathlib.Tactic.LinearCombination

/-!
# The rational polynomial of a representation

A `Poly` is a list of coefficients over a divider.  `toPolynomial` is the polynomial over `ℚ` that it
represents, and every operation is an equation about it.

* `ofList` — the polynomial with given integer coefficients, and what it does to the operations on
  lists.
* `toPolynomial_add`, `toPolynomial_mul` — sums and products are those of the represented
  polynomials: every truncated division on the way is exact.
* `toPolynomial_trimmed` — trimming changes the representation only.
* `evaluate_eq_ok_iff` — the value at an integer is `v` exactly if the represented polynomial is `v`
  there, so evaluation fails exactly where that polynomial is not an integer.
* `evaluate_congr` — two representations of one polynomial have the same evaluations.
* `fraction_eq` — the value as a fraction is the value of the represented polynomial in lowest terms.
-/

namespace ClosedForm
namespace Poly

open Polynomial

/-! ## Integer coefficients -/

/-- The polynomial with the given integer coefficients, the constant term first. -/
noncomputable def ofList : List Int → ℚ[X]
  | [] => 0
  | c :: cs => C (c : ℚ) + X * ofList cs

@[simp] lemma ofList_nil : ofList [] = 0 := rfl

@[simp] lemma ofList_cons (c : Int) (cs : List Int) :
    ofList (c :: cs) = C (c : ℚ) + X * ofList cs := rfl

lemma coeff_ofList (cs : List Int) (i : ℕ) : (ofList cs).coeff i = (cs.getD i 0 : ℤ) := by
  induction cs generalizing i with
  | nil => simp
  | cons c cs ih =>
      cases i with
      | zero => simp
      | succ i => rw [ofList_cons, coeff_add, coeff_C_succ, zero_add, coeff_X_mul, ih,
          List.getD_cons_succ]

lemma eval_ofList (cs : List Int) (n : ℤ) : (ofList cs).eval (n : ℚ) = horner n cs := by
  induction cs with
  | nil => simp [horner]
  | cons c cs ih =>
      simp only [ofList_cons, eval_add, eval_C, eval_mul, eval_X, ih, horner, List.foldr_cons]
      push_cast
      ring

lemma ofList_addLists (as bs : List Int) : ofList (addLists as bs) = ofList as + ofList bs := by
  fun_induction addLists as bs with
  | case1 bs => simp
  | case2 as => simp
  | case3 a as b bs ih =>
      simp only [ofList_cons, ih, Int.cast_add, C_add]
      ring

lemma ofList_scale (k : Int) (cs : List Int) : ofList (scale k cs) = C (k : ℚ) * ofList cs := by
  induction cs with
  | nil => simp [scale]
  | cons c cs ih =>
      rw [scale] at ih
      simp only [scale, List.map_cons, ofList_cons, ih, Int.cast_mul, C_mul]
      ring

lemma ofList_shift (cs : List Int) : ofList (shift cs) = X * ofList cs := by
  cases cs <;> simp [shift]

lemma ofList_convolve (as bs : List Int) : ofList (convolve as bs) = ofList as * ofList bs := by
  induction as with
  | nil => simp [convolve]
  | cons a as ih =>
      rw [convolve, ofList_addLists, ofList_scale, ofList_shift, ih, ofList_cons]
      ring

/-- Dividing all coefficients by a common divisor. -/
lemma ofList_map_tdiv {g : Int} (hg : g ≠ 0) {cs : List Int} (hdvd : ∀ c ∈ cs, g ∣ c) :
    ofList (cs.map (·.tdiv g)) = C ((g : ℚ)⁻¹) * ofList cs := by
  have hg' : (g : ℚ) ≠ 0 := by exact_mod_cast hg
  induction cs with
  | nil => simp
  | cons c cs ih =>
      have hc : ((c.tdiv g : ℤ) : ℚ) = (g : ℚ)⁻¹ * c := by
        obtain ⟨k, rfl⟩ := hdvd c (List.mem_cons_self ..)
        rw [Int.mul_tdiv_cancel_left _ hg]
        push_cast
        field_simp
      rw [List.map_cons, ofList_cons, ofList_cons, hc, C_mul,
        ih fun x hx => hdvd x (List.mem_cons_of_mem _ hx)]
      ring

/-! ### Zeros above the degree -/

lemma ofList_concat_zero (cs : List Int) : ofList (cs ++ [0]) = ofList cs := by
  induction cs with
  | nil => simp
  | cons c cs ih => rw [List.cons_append, ofList_cons, ih, ofList_cons]

lemma trimZeros_eq_rdropWhile (cs : List Int) : trimZeros cs = cs.rdropWhile (· == 0) := rfl

lemma ofList_trimZeros (cs : List Int) : ofList (trimZeros cs) = ofList cs := by
  induction cs using List.reverseRecOn with
  | nil => rfl
  | append_singleton cs c ih =>
      rw [trimZeros_eq_rdropWhile, List.rdropWhile_concat]
      by_cases hc : c = 0
      · rw [if_pos (by simp [hc]), ← trimZeros_eq_rdropWhile, ih, hc, ofList_concat_zero]
      · rw [if_neg (by simp [hc])]

/-! ## The represented polynomial -/

/-- The polynomial over `ℚ` that coefficients over a divider represent. -/
noncomputable def toPolynomial (p : Poly) : ℚ[X] :=
  C ((p.divider : ℚ)⁻¹) * ofList p.coefficients

lemma divider_cast_ne_zero (p : Poly) : (p.divider : ℚ) ≠ 0 := by
  exact_mod_cast p.divider_ne_zero

lemma coeff_toPolynomial (p : Poly) (i : ℕ) :
    p.toPolynomial.coeff i = (p.coefficients.getD i 0 : ℤ) / p.divider := by
  rw [toPolynomial, coeff_C_mul, coeff_ofList, div_eq_inv_mul]

lemma getD_eq_zero_of_forall {cs : List Int} (h : ∀ c ∈ cs, c = 0) (i : ℕ) : cs.getD i 0 = 0 := by
  by_cases hi : i < cs.length
  · rw [List.getD_eq_getElem cs 0 hi]
    exact h _ (List.getElem_mem hi)
  · exact List.getD_eq_default cs 0 (not_lt.1 hi)

/-- Only zeros represent zero. -/
lemma toPolynomial_eq_zero_iff (p : Poly) : p.toPolynomial = 0 ↔ ∀ c ∈ p.coefficients, c = 0 := by
  constructor
  · intro h c hc
    obtain ⟨i, hi, rfl⟩ := List.getElem_of_mem hc
    have hcoeff := coeff_toPolynomial p i
    rw [h, coeff_zero, eq_comm, div_eq_zero_iff, or_iff_left p.divider_cast_ne_zero,
      List.getD_eq_getElem _ 0 hi] at hcoeff
    exact_mod_cast hcoeff
  · intro h
    ext i
    rw [coeff_toPolynomial, getD_eq_zero_of_forall h, Int.cast_zero, zero_div, coeff_zero]

/-- A polynomial has a smaller degree than it has coefficients. -/
lemma degree_toPolynomial_lt (p : Poly) : p.toPolynomial.degree < p.length := by
  rw [degree_lt_iff_coeff_zero]
  intro i hi
  rw [coeff_toPolynomial, List.getD_eq_default _ _ hi, Int.cast_zero, zero_div]

lemma eval_toPolynomial (p : Poly) (n : ℤ) :
    p.toPolynomial.eval (n : ℚ) = p.numerator n / p.divider := by
  rw [toPolynomial, eval_mul, eval_C, eval_ofList, numerator, div_eq_inv_mul]

@[simp] lemma toPolynomial_zero : zero.toPolynomial = 0 := by
  simp [toPolynomial, zero]

@[simp] lemma toPolynomial_constant (v : Int) : (constant v).toPolynomial = C (v : ℚ) := by
  simp [toPolynomial, constant]

lemma toPolynomial_trimmed (p : Poly) : p.trimmed.toPolynomial = p.toPolynomial := by
  simp only [toPolynomial, trimmed, ofList_trimZeros]

lemma toPolynomial_mul (p q : Poly) :
    (p.mul q).toPolynomial = p.toPolynomial * q.toPolynomial := by
  simp only [toPolynomial, mul, ofList_convolve, Int.cast_mul, mul_inv, C_mul]
  ring

/-! ### Sums over a common multiple -/

lemma dvd_commonMultiple_left (a b : Int) : a ∣ commonMultiple a b := by
  unfold commonMultiple commonDivisor
  by_cases hg : (Int.gcd a b : Int) = 0
  · simp [hg]
  · rw [if_neg hg]
    obtain ⟨k, hk⟩ := Int.gcd_dvd_right a b
    refine ⟨k, ?_⟩
    have ha := Int.mul_tdiv_cancel' (Int.gcd_dvd_left a b)
    calc
      a.tdiv (Int.gcd a b) * b = a.tdiv (Int.gcd a b) * ((Int.gcd a b : Int) * k) := by rw [← hk]
      _ = (Int.gcd a b : Int) * a.tdiv (Int.gcd a b) * k := by ring
      _ = a * k := by rw [ha]

lemma dvd_commonMultiple_right (a b : Int) : b ∣ commonMultiple a b := by
  unfold commonMultiple
  dsimp only
  split
  · exact dvd_zero b
  · exact Dvd.intro_left _ rfl

/-- Coefficients brought over a multiple of their divider. -/
lemma inv_mul_tdiv {a d : Int} (ha : a ≠ 0) (hd : d ≠ 0) (hdvd : a ∣ d) :
    ((d : ℚ)⁻¹) * ((d.tdiv a : ℤ) : ℚ) = (a : ℚ)⁻¹ := by
  obtain ⟨k, rfl⟩ := hdvd
  have hk : (k : ℚ) ≠ 0 := by exact_mod_cast right_ne_zero_of_mul hd
  have ha' : (a : ℚ) ≠ 0 := by exact_mod_cast ha
  rw [Int.mul_tdiv_cancel_left _ ha]
  push_cast
  field_simp

lemma toPolynomial_add (p q : Poly) :
    (p.add q).toPolynomial = p.toPolynomial + q.toPolynomial := by
  have hd : commonMultiple p.divider q.divider ≠ 0 :=
    commonMultiple_ne_zero p.divider_ne_zero q.divider_ne_zero
  have hp := inv_mul_tdiv p.divider_ne_zero hd (dvd_commonMultiple_left p.divider q.divider)
  have hq := inv_mul_tdiv q.divider_ne_zero hd (dvd_commonMultiple_right p.divider q.divider)
  simp only [toPolynomial, add, ofList_addLists, ofList_scale, mul_add, ← mul_assoc, ← C_mul, hp, hq]

/-! ## Values -/

/-- **The value at an integer is that of the represented polynomial,** and there is one exactly where
that polynomial is an integer. -/
lemma evaluate_eq_ok_iff (p : Poly) (n v : ℤ) :
    p.evaluate n = .ok v ↔ p.toPolynomial.eval (n : ℚ) = v := by
  have hexact : p.toPolynomial.eval (n : ℚ) = v ↔ p.numerator n = p.divider * v := by
    rw [eval_toPolynomial, div_eq_iff p.divider_cast_ne_zero, mul_comm (v : ℚ)]
    exact_mod_cast Iff.rfl
  rw [hexact]
  unfold evaluate
  by_cases hmod : (p.numerator n).tmod p.divider = 0
  · obtain ⟨k, hk⟩ := Int.dvd_of_tmod_eq_zero hmod
    rw [if_pos hmod, hk, Int.mul_tdiv_cancel_left _ p.divider_ne_zero, Except.ok.injEq,
      mul_right_inj' p.divider_ne_zero]
  · rw [if_neg hmod]
    constructor
    · intro h
      cases h
    · intro h
      rw [h, Int.mul_tmod_right] at hmod
      exact absurd rfl hmod

/-- An evaluation fails for one reason only. -/
lemma eq_notIntegral_of_evaluate_eq_error {p : Poly} {n : ℤ} {err : Error}
    (h : p.evaluate n = .error err) : err = .sentinel .notIntegral := by
  unfold evaluate at h
  split at h
  · cases h
  · cases h
    rfl

/-- Evaluation sees the represented polynomial only. -/
lemma evaluate_congr {p q : Poly} (h : p.toPolynomial = q.toPolynomial) (n : ℤ) :
    p.evaluate n = q.evaluate n := by
  have hok (v : ℤ) : p.evaluate n = .ok v ↔ q.evaluate n = .ok v := by
    rw [evaluate_eq_ok_iff, evaluate_eq_ok_iff, h]
  cases hp : p.evaluate n with
  | ok v => exact ((hok v).1 hp).symm
  | error err =>
      cases hq : q.evaluate n with
      | ok v => exact absurd (hp.symm.trans ((hok v).2 hq)) (by simp)
      | error err' =>
          rw [eq_notIntegral_of_evaluate_eq_error hp, eq_notIntegral_of_evaluate_eq_error hq]

/-! ### Fractions -/

/-- Dividing by the greatest common divisor, taken with the sign of the divider, leads to the numerator
and the denominator of the quotient. -/
lemma tdiv_gcd_eq_num_den {m d : ℤ} (hd : d ≠ 0) :
    m.tdiv (if d < 0 then -(Int.gcd m d : ℤ) else Int.gcd m d) = ((m : ℚ) / d).num ∧
      d.tdiv (if d < 0 then -(Int.gcd m d : ℤ) else Int.gcd m d) = ((m : ℚ) / d).den := by
  have hpos : 0 < Int.gcd m d := Int.gcd_pos_of_ne_zero_right m hd
  obtain ⟨a, b, hcoprime, hm, hb⟩ := Int.exists_gcd_one hpos
  generalize Int.gcd m d = g at hpos hm hb ⊢
  have hg : (0 : ℤ) < g := by exact_mod_cast hpos
  have hgq : (g : ℚ) ≠ 0 := by exact_mod_cast hpos.ne'
  have hvalue : (m : ℚ) / d = a / b := by
    rw [hm, hb]
    push_cast
    exact mul_div_mul_right _ _ hgq
  have hm' : m.tdiv g = a := by rw [hm, Int.mul_tdiv_cancel a hg.ne']
  have hd' : d.tdiv g = b := by rw [hb, Int.mul_tdiv_cancel b hg.ne']
  have hsign : 0 < d ↔ 0 < b := by rw [hb, mul_pos_iff_of_pos_right hg]
  have hbne : b ≠ 0 := by
    rintro rfl
    exact hd (by rw [hb, zero_mul])
  by_cases hneg : d < 0
  · -- The sign of the divider moves to the numerator.
    have hbneg : 0 < -b := by omega
    have hvalue' : (m : ℚ) / d = ((-a : ℤ) : ℚ) / ((-b : ℤ) : ℚ) := by
      rw [hvalue]
      push_cast
      rw [neg_div_neg_eq]
    have hcoprime' : (-a).natAbs.Coprime (-b).natAbs := by
      rw [Int.natAbs_neg, Int.natAbs_neg]
      exact hcoprime
    rw [if_pos hneg, Int.tdiv_neg, Int.tdiv_neg, hm', hd', hvalue',
      Rat.num_div_eq_of_coprime hbneg hcoprime', Rat.den_div_eq_of_coprime hbneg hcoprime']
    exact ⟨rfl, rfl⟩
  · have hbpos : 0 < b := by omega
    rw [if_neg hneg, hm', hd', hvalue, Rat.num_div_eq_of_coprime hbpos hcoprime,
      Rat.den_div_eq_of_coprime hbpos hcoprime]
    exact ⟨rfl, rfl⟩

/-- **The fraction at an integer is the value of the represented polynomial** in lowest terms. -/
lemma fraction_eq (p : Poly) (n : ℤ) :
    p.fraction n =
      ((p.toPolynomial.eval (n : ℚ)).num, ((p.toPolynomial.eval (n : ℚ)).den : ℤ)) := by
  obtain ⟨hnum, hden⟩ := tdiv_gcd_eq_num_den (m := p.numerator n) p.divider_ne_zero
  rw [eval_toPolynomial, ← hnum, ← hden]
  rfl

lemma fraction_eq_iff (p q : Poly) (n : ℤ) :
    p.fraction n = q.fraction n ↔ p.toPolynomial.eval (n : ℚ) = q.toPolynomial.eval (n : ℚ) := by
  rw [fraction_eq, fraction_eq, Prod.mk.injEq, Nat.cast_inj]
  constructor
  · exact fun ⟨hnum, hden⟩ => Rat.ext hnum hden
  · exact fun h => by rw [h]; exact ⟨rfl, rfl⟩

end Poly
end ClosedForm
