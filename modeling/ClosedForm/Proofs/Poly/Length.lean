import ClosedForm.Poly.Interpolation
import Mathlib.Data.Nat.Init
import Mathlib.Tactic.SplitIfs

/-!
# The length of a representation

How many coefficients the operations leave.  Nothing is trimmed on the way, so the lengths depend on
the lengths of the operands only: a sum is as long as its longer side, a product of two lists that are
not empty one shorter than both together, and an interpolant as long as the list of its values.
-/

namespace ClosedForm
namespace Poly

/-! ## Coefficient lists -/

@[simp] lemma length_addLists (as bs : List Int) :
    (addLists as bs).length = max as.length bs.length := by
  fun_induction addLists as bs with
  | case1 bs => simp
  | case2 as => simp
  | case3 a as b bs ih =>
      simp only [List.length_cons, ih]
      omega

@[simp] lemma length_scale (k : Int) (cs : List Int) : (scale k cs).length = cs.length :=
  List.length_map _

lemma length_shift (cs : List Int) :
    (shift cs).length = if cs.length = 0 then 0 else cs.length + 1 := by
  cases cs <;> rfl

/-- A product of coefficient lists is one shorter than both together, and empty if a factor is. -/
lemma length_convolve (as bs : List Int) :
    (convolve as bs).length =
      if as.length = 0 ∨ bs.length = 0 then 0 else as.length + bs.length - 1 := by
  induction as with
  | nil => simp [convolve]
  | cons a as ih =>
      rw [convolve, length_addLists, length_scale, length_shift, ih, List.length_cons]
      by_cases ha : as.length = 0
      · simp [ha]
      · by_cases hb : bs.length = 0
        · simp [hb]
        · have hrest : ¬(as.length = 0 ∨ bs.length = 0) := by omega
          rw [if_neg hrest, if_neg (by omega), if_neg (by omega)]
          omega

/-! ## Polynomials -/

lemma length_add (p q : Poly) : (p.add q).length = max p.length q.length := by
  simp [length, add]

lemma length_mul (p q : Poly) :
    (p.mul q).length = if p.length = 0 ∨ q.length = 0 then 0 else p.length + q.length - 1 :=
  length_convolve p.coefficients q.coefficients

@[simp] lemma length_reduced (p : Poly) : p.reduced.length = p.length :=
  List.length_map _

/-! ## Interpolants -/

/-- Every factor makes a product one longer, and `i` has no factor. -/
lemma length_timesFactors (i : ℕ) {p : Poly} (hp : p.length ≠ 0) (count : ℕ) :
    (timesFactors i p count).length + (if i < count then 1 else 0) = p.length + count := by
  unfold timesFactors
  induction count with
  | zero => simp
  | succ count ih =>
      rw [List.range_succ, List.foldl_append, List.foldl_cons, List.foldl_nil]
      generalize (List.range count).foldl _ p = product at ih ⊢
      by_cases h : i = count
      · rw [dif_pos h, if_pos (by omega)]
        rw [if_neg (by omega)] at ih
        omega
      · have hfactor : (lagrangeFactor i count h).length = 2 := rfl
        have hproduct : product.length ≠ 0 := by
          split_ifs at ih <;> omega
        rw [dif_neg h, length_mul, hfactor, if_neg (by omega)]
        split_ifs at ih ⊢ <;> omega

/-- Every term is as long as there are points. -/
lemma length_timesFactors_constant {i count : ℕ} (h : i < count) (v : Int) :
    (timesFactors i (constant v) count).length = count := by
  have hlength := length_timesFactors i (p := constant v) (by simp [length, constant]) count
  have hone : (constant v).length = 1 := rfl
  rw [if_pos h, hone] at hlength
  omega

/-- The sum over the values from position `k` on. -/
lemma length_foldl_add {count k : ℕ} {p : Poly} {values : List Int} (hp : p.length ≤ count)
    (hk : k + values.length ≤ count) :
    ((values.zipIdx k).foldl
        (fun p (v, i) => p.add (timesFactors i (constant v) count)) p).length =
      if values = [] then p.length else count := by
  induction values generalizing k p with
  | nil => rfl
  | cons v values ih =>
      rw [List.length_cons] at hk
      have hfirst : (p.add (timesFactors k (constant v) count)).length = count := by
        rw [length_add, length_timesFactors_constant (by omega), Nat.max_eq_right hp]
      rw [List.zipIdx_cons, List.foldl_cons, ih (Nat.le_of_eq hfirst) (by omega), hfirst,
        ite_self, if_neg (List.cons_ne_nil v values)]

/-- **An interpolant has as many coefficients as there are values.** -/
lemma length_interpolate (values : List Int) : (interpolate values).length = values.length := by
  have hzero : zero.length = 0 := rfl
  rw [interpolate, length_foldl_add (by omega) (by omega)]
  split_ifs with h
  · rw [h]
    rfl
  · rfl

end Poly
end ClosedForm
