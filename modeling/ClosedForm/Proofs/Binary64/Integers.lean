import ClosedForm.Binary64.Basic
import Mathlib.Data.Nat.Log
import Mathlib.Tactic.Ring

/-!
# Integers as doubles

An integer literal becomes the double nearest to it.  Up to `2 ^ 53` that double is the integer;
from there on neighbouring integers share doubles, and the double is the integer rounded to a
multiple of a power of two.

* `toInt?_ofInteger` — the double of an integer is infinite, or it is whole with the value
  `nearest`.
* `eq_of_nearest_le` — **only one integer outside of them rounds to one of the first `2 ^ 53`:** it
  is `2 ^ 53 + 1`, half-way between `2 ^ 53` and `2 ^ 53 + 2`, and the tie goes to the even
  significand.
-/

namespace ClosedForm
namespace Binary64

/-- A magnitude with a sign. -/
def signed (negative : Bool) (k : ℕ) : ℤ := if negative then -(k : ℤ) else k

lemma natAbs_signed (negative : Bool) (k : ℕ) : (signed negative k).natAbs = k := by
  cases negative <;> simp [signed]

/-! ## Whole doubles -/

/-- A double with a shifted significand has the value from before the shift. -/
lemma toInt?_finite_shift (negative : Bool) (n k : ℕ) :
    (finite negative (n * 2 ^ k) (-(k : ℤ))).toInt? = some (signed negative n) := by
  have hpow : 0 < 2 ^ k := Nat.two_pow_pos k
  unfold toInt?
  dsimp only
  by_cases hk : k = 0
  · subst hk
    simp [signed]
  · rw [if_neg (by omega)]
    simp [signed, Nat.mul_div_cancel n hpow]

lemma toInt?_finite_natCast (negative : Bool) (m j : ℕ) :
    (finite negative m (j : ℤ)).toInt? = some (signed negative (m * 2 ^ j)) := by
  unfold toInt?
  dsimp only
  rw [if_pos (Int.natCast_nonneg j)]
  simp [signed]

/-! ## Rounding a natural number -/

lemma roundQuotient_one (n : ℕ) : roundQuotient n 1 = n := by
  have hmod : n % 1 = 0 := Nat.mod_one n
  simp [roundQuotient, hmod]

lemma div_le_roundQuotient (n d : ℕ) : n / d ≤ roundQuotient n d := by
  unfold roundQuotient
  dsimp only
  split <;> omega

section Quotient

variable {n d m : ℕ} {q : ℤ} (hbit : lastBit n d = q)

include hbit

lemma ofQuotient_of_ne (hm : roundQuotient (n * 2 ^ (-q).toNat) (d * 2 ^ q.toNat) = m)
    (hne : m ≠ 2 ^ 53) (negative : Bool) :
    ofQuotient negative n d = if 971 < q then infinite negative else finite negative m q := by
  have hcarry : (m == Nat.pow 2 53) = false := beq_false_of_ne hne
  simp only [ofQuotient, hbit, Nat.pow_eq, hm] at hcarry ⊢
  rw [hcarry]
  rfl

/-- A significand that is rounded up to one more bit is carried to the next exponent. -/
lemma ofQuotient_of_carry (hm : roundQuotient (n * 2 ^ (-q).toNat) (d * 2 ^ q.toNat) = 2 ^ 53)
    (negative : Bool) :
    ofQuotient negative n d =
      if 971 < q + 1 then infinite negative else finite negative (2 ^ 52) (q + 1) := by
  simp only [ofQuotient, hbit, Nat.pow_eq, hm]
  rfl

end Quotient

/-- The last bit that is kept of a natural number stands 52 places below its first bit. -/
lemma lastBit_one {n : ℕ} (hn : n ≠ 0) : lastBit n 1 = (n.log2 : ℤ) - 52 := by
  have hfirst : 2 ^ n.log2 ≤ n := Nat.log2_self_le hn
  have hone : Nat.log2 1 = 0 := rfl
  have hguess : (n.log2 : ℤ) - (Nat.log2 1 : ℤ) = n.log2 := by rw [hone, Nat.cast_zero, sub_zero]
  unfold lastBit
  dsimp only
  rw [hguess, if_pos (by simpa using hfirst)]
  omega

/-- The value of the double nearest to a natural number. -/
def nearest (n : ℕ) : ℕ :=
  if n < 2 ^ 53 then n else roundQuotient n (2 ^ (n.log2 - 52)) * 2 ^ (n.log2 - 52)

lemma toInt?_ofQuotient_of_lt {n : ℕ} (hn : n ≠ 0) (h : n < 2 ^ 53) (negative : Bool) :
    (ofQuotient negative n 1).toInt? = some (signed negative n) := by
  have hlog : n.log2 < 53 := (Nat.log2_lt hn).2 h
  obtain ⟨k, hk⟩ := Nat.exists_eq_add_of_le (Nat.le_of_lt_succ hlog)
  have hbit : lastBit n 1 = -(k : ℤ) := by
    rw [lastBit_one hn]
    omega
  have hround : roundQuotient (n * 2 ^ (- -(k : ℤ)).toNat) (1 * 2 ^ (-(k : ℤ)).toNat) =
      n * 2 ^ k := by
    have hneg : (-(k : ℤ)).toNat = 0 := by omega
    rw [hneg, neg_neg, Int.toNat_natCast, pow_zero, mul_one, roundQuotient_one]
  have hfits : n * 2 ^ k < 2 ^ 53 := by
    calc n * 2 ^ k < 2 ^ (n.log2 + 1) * 2 ^ k :=
          Nat.mul_lt_mul_of_pos_right Nat.lt_log2_self (Nat.two_pow_pos k)
      _ = 2 ^ 53 := by
          rw [← pow_add]
          congr 1
          omega
  have hsmall : ¬971 < -(k : ℤ) := by omega
  rw [ofQuotient_of_ne hbit hround hfits.ne, if_neg hsmall]
  exact toInt?_finite_shift negative n k

/-- Above `2 ^ 53` the significand is rounded, and a carry does not change the value. -/
lemma toInt?_ofQuotient_of_le {n : ℕ} (h : 2 ^ 53 ≤ n) (negative : Bool)
    (hfinite : (ofQuotient negative n 1).isInfinite = false) :
    (ofQuotient negative n 1).toInt? =
      some (signed negative (roundQuotient n (2 ^ (n.log2 - 52)) * 2 ^ (n.log2 - 52))) := by
  have hn : n ≠ 0 := by omega
  have hlog : 53 ≤ n.log2 := (Nat.le_log2 hn).2 h
  have hbit : lastBit n 1 = ((n.log2 - 52 : ℕ) : ℤ) := by
    rw [lastBit_one hn]
    omega
  generalize n.log2 - 52 = j at hbit ⊢
  have hround : roundQuotient (n * 2 ^ (-(j : ℤ)).toNat) (1 * 2 ^ (j : ℤ).toNat) =
      roundQuotient n (2 ^ j) := by simp
  by_cases hcarry : roundQuotient n (2 ^ j) = 2 ^ 53
  · rw [ofQuotient_of_carry hbit (hround.trans hcarry)] at hfinite ⊢
    split at hfinite
    · cases hfinite
    · rename_i hle
      have hvalue : roundQuotient n (2 ^ j) * 2 ^ j = 2 ^ 52 * 2 ^ (j + 1) := by
        rw [hcarry]
        ring
      rw [if_neg hle, hvalue]
      exact toInt?_finite_natCast negative (2 ^ 52) (j + 1)
  · rw [ofQuotient_of_ne hbit hround hcarry] at hfinite ⊢
    split at hfinite
    · cases hfinite
    · rename_i hle
      rw [if_neg hle]
      exact toInt?_finite_natCast negative _ j

/-- **The double of an integer is whole,** unless it is infinite. -/
lemma toInt?_ofInteger (negative : Bool) (n : ℕ)
    (hfinite : (ofDecimal ⟨negative, n, 0⟩).isInfinite = false) :
    (ofDecimal ⟨negative, n, 0⟩).toInt? = some (signed negative (nearest n)) := by
  by_cases hn : n = 0
  · subst hn
    have hzero := toInt?_finite_shift negative 0 1074
    rw [Nat.zero_mul] at hzero
    exact hzero
  · have hquotient : ofDecimal ⟨negative, n, 0⟩ = ofQuotient negative n 1 := by
      have habove : ¬(400 : ℤ) < 0 := by decide
      have hbelow : ¬(0 : ℤ) < -(400 + (n.log2 : ℤ)) := by omega
      rw [ofDecimal, if_neg hn, if_neg habove, if_neg hbelow]
      simp
    rw [hquotient] at hfinite ⊢
    unfold nearest
    by_cases h : n < 2 ^ 53
    · rw [if_pos h]
      exact toInt?_ofQuotient_of_lt hn h negative
    · rw [if_neg h]
      exact toInt?_ofQuotient_of_le (not_lt.1 h) negative hfinite

/-! ## What rounds to the first integers -/

/-- **Rounding is exact below `2 ^ 53`, and only `2 ^ 53` and the integer after it round to
`2 ^ 53`.** -/
lemma eq_of_nearest_le {n : ℕ} (h : nearest n ≤ 2 ^ 53) :
    nearest n = n ∨ n = 2 ^ 53 + 1 ∧ nearest n = 2 ^ 53 := by
  unfold nearest at h ⊢
  by_cases hlt : n < 2 ^ 53
  · exact .inl (if_pos hlt)
  · rw [if_neg hlt] at h ⊢
    have hn : n ≠ 0 := by omega
    have hlog : 53 ≤ n.log2 := (Nat.le_log2 hn).2 (not_lt.1 hlt)
    obtain ⟨j, hj⟩ := Nat.exists_eq_add_of_le hlog
    have hshift : n.log2 - 52 = j + 1 := by omega
    rw [hshift] at h ⊢
    have hsignificand : 2 ^ 52 ≤ n / 2 ^ (j + 1) := by
      rw [Nat.le_div_iff_mul_le (Nat.two_pow_pos _), ← pow_add]
      have hpow : 52 + (j + 1) = n.log2 := by omega
      rw [hpow]
      exact Nat.log2_self_le hn
    have hround := hsignificand.trans (div_le_roundQuotient n (2 ^ (j + 1)))
    -- A significand of 53 bits leaves room for one more factor of two only.
    have hj0 : j = 0 := by
      by_contra hne
      have hfour : 2 ^ 2 ≤ 2 ^ (j + 1) := Nat.pow_le_pow_right (by decide) (by omega)
      have hbig := Nat.mul_le_mul hround hfour
      omega
    subst hj0
    have hm : roundQuotient n (2 ^ (0 + 1)) = 2 ^ 52 := by omega
    have hle := div_le_roundQuotient n (2 ^ (0 + 1))
    rw [hm] at hle ⊢
    omega

end Binary64
end ClosedForm
