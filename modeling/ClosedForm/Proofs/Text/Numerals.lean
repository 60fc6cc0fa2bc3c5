import ClosedForm.Text.Decimal
import ClosedForm.Text.Hexadecimal
import Mathlib.Data.Nat.Digits.Defs

/-!
# Numerals read back

Digits are written by the library's `Nat.toDigits` and read one at a time, from the left.

* `integer?_integer` — the decimal text of an integer, signed or not and of any length, is read as
  that integer; so `integer` and `decimal` are injective.
* `hexDigits_four` — the four hexadecimal digits of a code unit, one by one.
-/

namespace ClosedForm
namespace Text

/-! ## Decimal -/

lemma isDigits_decimal (n : ℕ) : isDigits (decimal n) = true := by
  simp only [isDigits, decimal, Bool.and_eq_true, Bool.not_eq_true', List.isEmpty_eq_false_iff,
    List.all_eq_true]
  exact ⟨Nat.toDigits_ne_nil, fun c hc => Nat.isDigit_of_mem_toDigits (by decide) (by decide) hc⟩

lemma isDigit_of_mem_decimal {n : ℕ} {c : Char} (h : c ∈ decimal n) : c.isDigit = true :=
  Nat.isDigit_of_mem_toDigits (by decide) (by decide) h

/-- A digit is none of these characters, if none of them is a digit. -/
lemma not_mem_of_isDigit {c : Char} (h : c.isDigit = true) {others : List Char}
    (hothers : others.any Char.isDigit = false) : c ∉ others := by
  intro hmem
  have hany : others.any Char.isDigit = true := List.any_eq_true.2 ⟨c, hmem, h⟩
  rw [hothers] at hany
  cases hany

lemma ofDigits_decimal (n : ℕ) : ofDigits (decimal n) = n := by
  have h := Nat.ofDigitChars_toDigits (n := n) (b := 10) (by decide) (by decide)
  rw [Nat.ofDigitChars] at h
  simpa only [ofDigits, decimal, digitValue, mul_comm] using h

lemma decimal_injective : Function.Injective decimal :=
  Function.LeftInverse.injective ofDigits_decimal

lemma integer?_ofList {cs : List Char} (h : isDigits cs = true) :
    integer? (String.ofList cs) = some (ofDigits cs) := by
  cases cs with
  | nil => cases h
  | cons c cs =>
      have hc : c.isDigit = true := by
        rw [isDigits, Bool.and_eq_true, List.all_cons, Bool.and_eq_true] at h
        exact h.2.1
      -- The first digit is no sign, so all of them are read.
      have hminus : c ≠ '-' := by
        rintro rfl
        cases hc
      have hplus : c ≠ '+' := by
        rintro rfl
        cases hc
      simp [integer?, hminus, hplus, h]

/-- **The decimal text of an integer reads back.** -/
lemma integer?_integer (v : ℤ) : integer? (integer v) = some v := by
  cases v with
  | ofNat n =>
      rw [integer, integer?_ofList (isDigits_decimal n), ofDigits_decimal]
      rfl
  | negSucc n =>
      simp only [integer, integer?, String.toList_ofList, isDigits_decimal, if_true,
        ofDigits_decimal]
      rfl

lemma integer_injective : Function.Injective integer := by
  intro v w h
  have hread := congrArg integer? h
  rw [integer?_integer, integer?_integer] at hread
  exact Option.some.inj hread

lemma isDigit_or_of_mem_integer {v : ℤ} {c : Char} (h : c ∈ (integer v).toList) :
    c.isDigit = true ∨ c = '-' := by
  cases v with
  | ofNat n =>
      rw [integer, String.toList_ofList] at h
      exact .inl (isDigit_of_mem_decimal h)
  | negSucc n =>
      rw [integer, String.toList_ofList, List.mem_cons] at h
      exact h.symm.imp_left isDigit_of_mem_decimal

/-! ## Hexadecimal -/

lemma hexValue?_digitChar : ∀ v < 16, hexValue? (Nat.digitChar v) = some v := by decide

/-- One more place: the last digit stands after the others. -/
lemma hexDigits_succ {width : ℕ} (hwidth : 0 < width) (n : ℕ) :
    hexDigits (width + 1) n = hexDigits width (n / 16) ++ [Nat.digitChar (n % 16)] := by
  have hdigits := Nat.toDigits_eq_if (n := n) (b := 16) (by decide)
  unfold hexDigits
  by_cases hn : n < 16
  · rw [if_pos hn] at hdigits
    have hpad : List.replicate width '0' = List.replicate (width - 1) '0' ++ ['0'] := by
      rw [← List.replicate_succ', Nat.sub_add_cancel hwidth]
    simp [hdigits, Nat.div_eq_of_lt hn, Nat.mod_eq_of_lt hn, hpad, Nat.toDigits_of_lt_base]
  · rw [if_neg hn] at hdigits
    simp [hdigits]

/-- The four digits of a number that has no more. -/
lemma hexDigits_four {n : ℕ} (h : n < 65536) :
    hexDigits 4 n = [n / 4096, n / 256 % 16, n / 16 % 16, n % 16].map Nat.digitChar := by
  have hone : hexDigits 1 (n / 4096) = [Nat.digitChar (n / 4096)] := by
    rw [hexDigits, Nat.toDigits_of_lt_base (by omega)]
    rfl
  have htwo : n / 16 / 16 = n / 256 := by omega
  have hthree : n / 256 / 16 = n / 4096 := by omega
  rw [hexDigits_succ (by decide), hexDigits_succ (by decide), hexDigits_succ (by decide), htwo,
    hthree, hone]
  rfl

end Text
end ClosedForm
