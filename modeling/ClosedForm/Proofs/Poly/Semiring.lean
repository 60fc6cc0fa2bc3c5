import ClosedForm.Proofs.Poly.Canonical

/-!
# The laws of sums and products

Sums and products bring their operands over dividers of their own and never reduce on the way, so the
two sides of a law are mostly different representations.  Reduced they are the same one: they represent
the same polynomial, by the laws of `ℚ[X]`, and they have the same length, since a length depends on the
lengths of the operands only.

* `lengthMul` and its lemmas — the laws as the lengths obey them.
* `reduced_semiring_laws` — **the laws of a commutative semiring,** zeros above the degree included.
-/

namespace ClosedForm
namespace Poly

variable (p q r : Poly)

/-! ## Lengths -/

/-- The length of a product of polynomials of these lengths. -/
def lengthMul (m n : ℕ) : ℕ := if m = 0 ∨ n = 0 then 0 else m + n - 1

lemma length_mul_eq : (p.mul q).length = lengthMul p.length q.length := length_mul p q

lemma lengthMul_comm (m n : ℕ) : lengthMul m n = lengthMul n m := by
  unfold lengthMul
  split_ifs <;> omega

lemma lengthMul_assoc (l m n : ℕ) : lengthMul (lengthMul l m) n = lengthMul l (lengthMul m n) := by
  unfold lengthMul
  split_ifs <;> omega

/-- A product with the longer one of two is as long as the longer one of the products. -/
lemma lengthMul_max (l m n : ℕ) : lengthMul l (max m n) = max (lengthMul l m) (lengthMul l n) := by
  unfold lengthMul
  split_ifs <;> omega

lemma lengthMul_one (n : ℕ) : lengthMul n 1 = n := by
  by_cases h : n = 0
  · simp [lengthMul, h]
  · simp [lengthMul, h]

lemma lengthMul_zero (n : ℕ) : lengthMul n 0 = 0 := by
  simp [lengthMul]

@[simp] lemma length_zero : zero.length = 0 := rfl

@[simp] lemma length_constant (v : Int) : (constant v).length = 1 := rfl

/-! ## Laws -/

lemma reduced_add_comm : (p.add q).reduced = (q.add p).reduced := by
  rw [reduced_eq_iff, length_add, length_add, toPolynomial_add, toPolynomial_add]
  exact ⟨max_comm _ _, add_comm _ _⟩

lemma reduced_add_assoc : ((p.add q).add r).reduced = (p.add (q.add r)).reduced := by
  rw [reduced_eq_iff]
  simp only [length_add, toPolynomial_add]
  exact ⟨max_assoc _ _ _, add_assoc _ _ _⟩

lemma reduced_mul_comm : (p.mul q).reduced = (q.mul p).reduced := by
  rw [reduced_eq_iff, length_mul_eq, length_mul_eq, toPolynomial_mul, toPolynomial_mul]
  exact ⟨lengthMul_comm _ _, mul_comm _ _⟩

lemma reduced_mul_assoc : ((p.mul q).mul r).reduced = (p.mul (q.mul r)).reduced := by
  rw [reduced_eq_iff]
  simp only [length_mul_eq, toPolynomial_mul]
  exact ⟨lengthMul_assoc _ _ _, mul_assoc _ _ _⟩

lemma reduced_mul_add : (p.mul (q.add r)).reduced = ((p.mul q).add (p.mul r)).reduced := by
  rw [reduced_eq_iff]
  simp only [length_mul_eq, length_add, toPolynomial_mul, toPolynomial_add]
  exact ⟨lengthMul_max _ _ _, mul_add _ _ _⟩

lemma reduced_add_mul : ((p.add q).mul r).reduced = ((p.mul r).add (q.mul r)).reduced := by
  rw [reduced_eq_iff]
  simp only [length_mul_eq, length_add, toPolynomial_mul, toPolynomial_add, lengthMul_comm _ r.length]
  exact ⟨lengthMul_max _ _ _, add_mul _ _ _⟩

lemma reduced_add_zero : (p.add zero).reduced = p.reduced := by
  rw [reduced_eq_iff, length_add, length_zero, toPolynomial_add, toPolynomial_zero]
  exact ⟨Nat.max_zero _, add_zero _⟩

lemma reduced_mul_zero : (p.mul zero).reduced = zero.reduced := by
  rw [reduced_eq_iff, length_mul_eq, length_zero, toPolynomial_mul, toPolynomial_zero]
  exact ⟨lengthMul_zero _, mul_zero _⟩

lemma reduced_mul_one : (p.mul (constant 1)).reduced = p.reduced := by
  rw [reduced_eq_iff, length_mul_eq, length_constant, toPolynomial_mul, toPolynomial_constant,
    Int.cast_one, Polynomial.C_1]
  exact ⟨lengthMul_one _, mul_one _⟩

/-- **Sums and products obey the laws of a commutative semiring once they are reduced,** for dividers of
either sign and coefficients of any length: both operations are commutative and associative, products
distribute over sums from either side, and zero and one are neutral; zero also absorbs. -/
theorem reduced_semiring_laws :
    ((p.add q).reduced = (q.add p).reduced ∧
      ((p.add q).add r).reduced = (p.add (q.add r)).reduced) ∧
    ((p.mul q).reduced = (q.mul p).reduced ∧
      ((p.mul q).mul r).reduced = (p.mul (q.mul r)).reduced) ∧
    ((p.mul (q.add r)).reduced = ((p.mul q).add (p.mul r)).reduced ∧
      ((p.add q).mul r).reduced = ((p.mul r).add (q.mul r)).reduced) ∧
    ((p.add zero).reduced = p.reduced ∧ (zero.add p).reduced = p.reduced) ∧
    ((p.mul (constant 1)).reduced = p.reduced ∧ ((constant 1).mul p).reduced = p.reduced) ∧
    (p.mul zero).reduced = zero.reduced ∧ (zero.mul p).reduced = zero.reduced := by
  refine ⟨⟨reduced_add_comm p q, reduced_add_assoc p q r⟩,
    ⟨reduced_mul_comm p q, reduced_mul_assoc p q r⟩, ⟨reduced_mul_add p q r, reduced_add_mul p q r⟩,
    ⟨reduced_add_zero p, ?_⟩, ⟨reduced_mul_one p, ?_⟩, reduced_mul_zero p, ?_⟩
  · rw [reduced_add_comm, reduced_add_zero]
  · rw [reduced_mul_comm, reduced_mul_one]
  · rw [reduced_mul_comm, reduced_mul_zero]

/-- Before they are reduced, the two sides of a law can have different dividers. -/
example : (mul ⟨[1], -2, by decide⟩ (add ⟨[1, 0], 2, by decide⟩ ⟨[3], 4, by decide⟩)).divider = -8 ∧
    (add (mul ⟨[1], -2, by decide⟩ ⟨[1, 0], 2, by decide⟩)
      (mul ⟨[1], -2, by decide⟩ ⟨[3], 4, by decide⟩)).divider = 8 := by decide

end Poly
end ClosedForm
