import ClosedForm.Poly.Digest
import Mathlib.Data.Nat.Digits.Defs

/-!
# Equality and the bytes of a polynomial

A digest is as good as the bytes that it is taken of.  The parts of a polynomial have no fixed size and
stand one after the other, so the bytes of two polynomials could agree although the parts end at
different places.  They do not, since every part says beforehand how long it is.  The argument is a
reader: it takes a part from the front of *any* bytes that begin with it, and leaves the rest.

* `Poly.equal_iff` — comparing coefficient by coefficient decides whether two polynomials are the same.
* `magnitudeBytes_eq_digits`, `numberOfBytes_wordBytes` — magnitudes and words are written to the base
  256, the most significant digit first, magnitudes without leading zeros.
* `readInteger_integerBytes`, `readIntegers_flatMap` — an integer, and a list of them, is read back.
* `read_bytes` — **a polynomial is read back from its bytes,** whatever follows them.
* `digest_eq_fedDigest` — the digest can be taken part by part.
* `bytes_determine_poly` — equal bytes come from equal polynomials only.
-/

namespace ClosedForm

/-! ## Equality -/

namespace Poly

lemma sameCoefficients_iff {as bs : List Int} (h : as.length = bs.length) :
    sameCoefficients as bs ↔ as = bs := by
  induction as generalizing bs with
  | nil =>
      rw [List.eq_nil_of_length_eq_zero h.symm]
      simp [sameCoefficients]
  | cons a as ih =>
      cases bs with
      | nil => cases h
      | cons b bs =>
          rw [sameCoefficients, Bool.and_eq_true, beq_iff_eq, ih (Nat.succ.inj h), List.cons.injEq]

/-- **Comparing polynomials decides whether they are the same,** wherever one may be missing. -/
lemma equal_iff (p q : Option Poly) : equal p q ↔ p = q := by
  cases p with
  | none => cases q <;> simp [equal]
  | some p =>
      cases q with
      | none => simp [equal]
      | some q =>
          rw [equal, Bool.and_eq_true, Bool.and_eq_true, beq_iff_eq, beq_iff_eq, Option.some.injEq]
          constructor
          · rintro ⟨⟨hlength, hdivider⟩, hsame⟩
            obtain ⟨coefficients, divider, hp⟩ := p
            obtain ⟨coefficients', divider', hq⟩ := q
            obtain rfl : divider = divider' := hdivider
            obtain rfl := (sameCoefficients_iff hlength).1 hsame
            rfl
          · rintro rfl
            exact ⟨⟨rfl, rfl⟩, (sameCoefficients_iff rfl).2 rfl⟩

end Poly

/-! ## Numbers to the base 256 -/

/-- The number that bytes are to the base 256, the most significant first. -/
def numberOfBytes (bytes : List UInt8) : ℕ := Nat.ofDigits 256 (bytes.reverse.map UInt8.toNat)

lemma magnitudeBytes_go {fuel n : ℕ} (h : n < 256 ^ fuel) (acc : List UInt8) :
    magnitudeBytes.go fuel n acc = (Nat.digits 256 n).reverse.map UInt8.ofNat ++ acc := by
  induction fuel generalizing n acc with
  | zero =>
      obtain rfl : n = 0 := Nat.lt_one_iff.1 h
      rw [magnitudeBytes.go, Nat.digits_zero, List.reverse_nil, List.map_nil, List.nil_append]
  | succ fuel ih =>
      cases n with
      | zero => rw [magnitudeBytes.go, Nat.digits_zero, List.reverse_nil, List.map_nil, List.nil_append]
      | succ n =>
          have hrest : (n + 1) / 256 < 256 ^ fuel := by
            rw [Nat.div_lt_iff_lt_mul (by decide), ← pow_succ]
            exact h
          rw [magnitudeBytes.go, ih hrest, Nat.digits_def' (by decide) (Nat.succ_pos n)]
          · simp
          · simp

/-- **A magnitude is written by its digits.** -/
lemma magnitudeBytes_eq_digits (n : ℕ) :
    magnitudeBytes n = (Nat.digits 256 n).reverse.map UInt8.ofNat := by
  have hfuel : n < 256 ^ (n.log2 + 1) :=
    Nat.lt_log2_self.trans_le (Nat.pow_le_pow_left (by decide) _)
  rw [magnitudeBytes, magnitudeBytes_go hfuel, List.append_nil]

lemma numberOfBytes_magnitudeBytes (n : ℕ) : numberOfBytes (magnitudeBytes n) = n := by
  have hdigits : (Nat.digits 256 n).map (UInt8.toNat ∘ UInt8.ofNat) = (Nat.digits 256 n).map id :=
    List.map_congr_left fun d hd => UInt8.toNat_ofNat_of_lt (Nat.digits_lt_base (by decide) hd)
  rw [numberOfBytes, magnitudeBytes_eq_digits, ← List.map_reverse, List.reverse_reverse, List.map_map,
    hdigits, List.map_id, Nat.ofDigits_digits]

lemma length_wordBytes (w : UInt64) : (wordBytes w).length = 8 := by simp [wordBytes]

/-- **A word is written by its eight digits,** leading zeros included. -/
lemma numberOfBytes_wordBytes (w : UInt64) : numberOfBytes (wordBytes w) = w.toNat := by
  have hlt := w.toNat_lt
  simp only [numberOfBytes, wordBytes, List.map_cons, UInt64.shiftRight_zero, List.map_nil,
    List.reverse_cons, List.reverse_nil, List.nil_append, List.cons_append, UInt64.toNat_toUInt8,
    Nat.reducePow, UInt64.toNat_shiftRight, UInt64.reduceToNat, Nat.reduceMod,
    Nat.shiftRight_eq_div_pow, Nat.ofDigits, Nat.cast_id, mul_zero, add_zero]
  omega

/-! ## Reading the parts back -/

/-- Reads a word from the front of bytes. -/
def readWord (bytes : List UInt8) : Option (ℕ × List UInt8) :=
  if 8 ≤ bytes.length then some (numberOfBytes (bytes.take 8), bytes.drop 8) else none

lemma readWord_wordBytes {n : ℕ} (h : n < UInt64.size) (rest : List UInt8) :
    readWord (wordBytes n.toUInt64 ++ rest) = some (n, rest) := by
  have hlength := length_wordBytes n.toUInt64
  have hnumber : numberOfBytes (wordBytes n.toUInt64) = n := by
    rw [numberOfBytes_wordBytes]
    exact UInt64.toNat_ofNat_of_lt h
  rw [readWord, if_pos (by rw [List.length_append, hlength]; exact Nat.le_add_right _ _),
    List.take_left' hlength, List.drop_left' hlength, hnumber]

/-- Reads an integer from the front of bytes: its sign, the size of its magnitude, the magnitude. -/
def readInteger : List UInt8 → Option (ℤ × List UInt8)
  | [] => none
  | sign :: bytes => do
    let (size, bytes) ← readWord bytes
    return ((sign.toNat - 1) * numberOfBytes (bytes.take size), bytes.drop size)

/-- The size of the magnitude is a word. -/
def FitsWord (v : ℤ) : Prop := (magnitudeBytes v.natAbs).length < UInt64.size

instance (v : ℤ) : Decidable (FitsWord v) := inferInstanceAs (Decidable (_ < _))

lemma toNat_signByte (v : ℤ) : ((UInt8.ofNat (v.sign + 1).toNat).toNat : ℤ) - 1 = v.sign := by
  rcases Int.sign_trichotomy v with h | h | h <;> rw [h] <;> rfl

/-- **An integer is read back,** whatever follows it. -/
lemma readInteger_integerBytes {v : ℤ} (h : FitsWord v) (rest : List UInt8) :
    readInteger (integerBytes v ++ rest) = some (v, rest) := by
  simp only [integerBytes, List.cons_append, List.append_assoc, readInteger, readWord_wordBytes h,
    Option.bind_eq_bind, Option.bind_some, List.take_left, List.drop_left, toNat_signByte,
    numberOfBytes_magnitudeBytes, Int.sign_mul_natAbs]
  rfl

/-- Reads so many integers from the front of bytes. -/
def readIntegers : ℕ → List UInt8 → Option (List ℤ × List UInt8)
  | 0, bytes => some ([], bytes)
  | count + 1, bytes => do
    let (v, bytes) ← readInteger bytes
    let (vs, bytes) ← readIntegers count bytes
    return (v :: vs, bytes)

lemma readIntegers_flatMap {vs : List ℤ} (h : ∀ v ∈ vs, FitsWord v) (rest : List UInt8) :
    readIntegers vs.length (vs.flatMap integerBytes ++ rest) = some (vs, rest) := by
  induction vs with
  | nil => rfl
  | cons v vs ih =>
      obtain ⟨hv, hvs⟩ := List.forall_mem_cons.1 h
      simp only [List.length_cons, List.flatMap_cons, List.append_assoc, readIntegers,
        readInteger_integerBytes hv, ih hvs, Option.bind_eq_bind, Option.bind_some]
      rfl

/-! ## Reading a polynomial back -/

namespace Poly

/-- The numbers that stand before the parts are words: the number of the coefficients, and the size of
every magnitude. -/
structure FitsWords (p : Poly) : Prop where
  count : p.length < UInt64.size
  coefficients : ∀ v ∈ p.coefficients, FitsWord v
  divider : FitsWord p.divider

/-- Reads a polynomial from the front of bytes.  There is none with zero as the divider. -/
def read (bytes : List UInt8) : Option (Poly × List UInt8) := do
  let (count, bytes) ← readWord bytes
  let (coefficients, bytes) ← readIntegers count bytes
  let (divider, bytes) ← readInteger bytes
  if h : divider = 0 then none else some (⟨coefficients, divider, h⟩, bytes)

/-- **A polynomial is read back from its bytes,** whatever follows them. -/
lemma read_bytes {p : Poly} (h : p.FitsWords) (rest : List UInt8) :
    read (p.bytes ++ rest) = some (p, rest) := by
  rw [bytes, List.append_assoc, List.append_assoc, read, readWord_wordBytes h.count]
  simp only [Option.bind_eq_bind, Option.bind_some, length, readIntegers_flatMap h.coefficients,
    readInteger_integerBytes h.divider, p.divider_ne_zero, dite_false]

variable {p q : Poly}

/-- No bytes of a polynomial are the beginning of the bytes of another one. -/
lemma eq_of_bytes_append_eq (hp : p.FitsWords) (hq : q.FitsWords) {rest rest' : List UInt8}
    (h : p.bytes ++ rest = q.bytes ++ rest') : p = q ∧ rest = rest' := by
  have hread := read_bytes hp rest
  rw [h, read_bytes hq rest', Option.some_inj, Prod.mk.injEq] at hread
  exact ⟨hread.1.symm, hread.2.symm⟩

lemma bytes_eq_iff (hp : p.FitsWords) (hq : q.FitsWords) : p.bytes = q.bytes ↔ p = q := by
  constructor
  · intro h
    have hnil : p.bytes ++ [] = q.bytes ++ [] := by rw [h]
    exact (eq_of_bytes_append_eq hp hq hnil).1
  · rintro rfl
    rfl

/-! ## The digest part by part -/

end Poly

/-- Goes on with a digest over more bytes. -/
def feed (h : UInt64) (bytes : List UInt8) : UInt64 := bytes.foldl fnvStep h

/-- Goes on with a digest over an integer: over its sign, over the size of its magnitude, and over the
magnitude. -/
def feedInteger (h : UInt64) (v : ℤ) : UInt64 :=
  let magnitude := magnitudeBytes v.natAbs
  let h := feed h [UInt8.ofNat (v.sign + 1).toNat]
  let h := feed h (wordBytes magnitude.length.toUInt64)
  feed h magnitude

lemma feedInteger_eq (h : UInt64) (v : ℤ) : feedInteger h v = feed h (integerBytes v) := by
  simp only [feedInteger, feed, integerBytes, List.foldl_cons, List.foldl_nil, List.foldl_append]

lemma foldl_feedInteger (h : UInt64) (vs : List ℤ) :
    vs.foldl feedInteger h = feed h (vs.flatMap integerBytes) := by
  induction vs generalizing h with
  | nil => rfl
  | cons v vs ih =>
      rw [List.foldl_cons, ih, feedInteger_eq, List.flatMap_cons, feed, feed, feed, List.foldl_append]

namespace Poly

/-- The digest taken part by part: over the number of coefficients, over each coefficient, and last over
the divider. -/
def fedDigest (p : Poly) : UInt64 :=
  feedInteger (p.coefficients.foldl feedInteger
    (feed 14695981039346656037 (wordBytes p.length.toUInt64))) p.divider

lemma digest_eq_fedDigest (p : Poly) : p.digest = p.fedDigest := by
  rw [fedDigest, feedInteger_eq, foldl_feedInteger, feed, feed, feed, ← List.foldl_append,
    ← List.foldl_append, ← List.append_assoc]
  rfl

/-- **The bytes of a polynomial determine it.**  Two polynomials have the same bytes exactly if they have
the same coefficients and the same divider.  So they have the same digest exactly if they are the same,
or else their bytes are two different strings that FNV-1a cannot tell apart.  The digest is the one that
is taken part by part. -/
theorem bytes_determine_poly (p q : Poly) (hp : p.FitsWords) (hq : q.FitsWords) :
    (p.bytes = q.bytes ↔ p = q) ∧
    (p.digest = q.digest ↔ p = q ∨ (p.bytes ≠ q.bytes ∧ fnv p.bytes = fnv q.bytes)) ∧
    p.digest = p.fedDigest := by
  refine ⟨bytes_eq_iff hp hq, ?_, digest_eq_fedDigest p⟩
  constructor
  · intro h
    by_cases heq : p = q
    · exact .inl heq
    · exact .inr ⟨fun hbytes => heq ((bytes_eq_iff hp hq).1 hbytes), h⟩
  · rintro (rfl | ⟨-, h⟩)
    · rfl
    · exact h

/-- The polynomial `(1 - 258 x) / 3`. -/
def fallingLine : Poly := ⟨[1, -258], 3, by decide⟩

/-- The polynomial `(257 - 2 x) / 3`. -/
def gentleLine : Poly := ⟨[257, -2], 3, by decide⟩

/-- The magnitudes of the coefficients of these two lines are the same three bytes one after the other, 1,
1 and 2, but they end at different places.  The lines have different bytes, and different digests. -/
theorem bytes_fallingLine_ne_gentleLine :
    fallingLine.FitsWords ∧ gentleLine.FitsWords ∧ fallingLine.bytes ≠ gentleLine.bytes ∧
      fallingLine.digest ≠ gentleLine.digest := by
  have hfalling : fallingLine.FitsWords := ⟨by decide, by decide, by decide⟩
  have hgentle : gentleLine.FitsWords := ⟨by decide, by decide, by decide⟩
  have hne : fallingLine ≠ gentleLine := by decide
  obtain ⟨hbytes, hdigest, -⟩ := bytes_determine_poly fallingLine gentleLine hfalling hgentle
  refine ⟨hfalling, hgentle, fun h => hne (hbytes.1 h), fun h => ?_⟩
  rcases hdigest.1 h with heq | ⟨-, hcollision⟩
  · exact hne heq
  · exact absurd hcollision (by decide +kernel)

end Poly
end ClosedForm
