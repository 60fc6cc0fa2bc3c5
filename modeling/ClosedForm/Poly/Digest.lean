import ClosedForm.Poly.Basic

/-!
# Equality and digests of polynomials

Polynomials are compared as they are held, one coefficient after the other.  A 64-bit digest is one that
equal polynomials share: the polynomial is written as bytes from which it can be read back, and the bytes
are folded by the FNV-1a rule.  The rule is that of a library, and what is proved of digests leans on the
bytes alone, not on what the rule makes of them.
-/

namespace ClosedForm

/-! ## Equality -/

namespace Poly

/-- Whether coefficients, as many on both sides, are the same at every position. -/
def sameCoefficients : List Int → List Int → Bool
  | a :: as, b :: bs => a == b && sameCoefficients as bs
  | _, _ => true

/-- Whether two polynomials, which may be missing, are equal: both are missing, or both have as many
coefficients, the same divider, and the same coefficient at every position. -/
def equal : Option Poly → Option Poly → Bool
  | some p, some q =>
    p.coefficients.length == q.coefficients.length && p.divider == q.divider &&
      sameCoefficients p.coefficients q.coefficients
  | none, none => true
  | _, _ => false

end Poly

/-! ## Bytes -/

/-- The bytes of a natural number, most significant first, zero having none.  `fuel` bounds their
number. -/
def magnitudeBytes (n : Nat) : List UInt8 := go (n.log2 + 1) n []
where
  /-- Takes bytes from the low end of `n` onto those already taken. -/
  go : Nat → Nat → List UInt8 → List UInt8
    | 0, _, acc => acc
    | _ + 1, 0, acc => acc
    | fuel + 1, n, acc => go fuel (n / 256) (UInt8.ofNat (n % 256) :: acc)

/-- The eight bytes of a 64-bit word, most significant first. -/
def wordBytes (w : UInt64) : List UInt8 :=
  ([56, 48, 40, 32, 24, 16, 8, 0] : List UInt64).map fun s => (w >>> s).toUInt8

/-- The bytes of an integer: its sign plus one, the number of its magnitude's bytes, and those. -/
def integerBytes (v : Int) : List UInt8 :=
  let bytes := magnitudeBytes v.natAbs
  UInt8.ofNat (v.sign + 1).toNat :: (wordBytes bytes.length.toUInt64 ++ bytes)

/-- The bytes of a polynomial: the number of coefficients, the coefficients, the divider. -/
def Poly.bytes (p : Poly) : List UInt8 :=
  wordBytes p.length.toUInt64 ++ p.coefficients.flatMap integerBytes ++ integerBytes p.divider

/-! ## The digest -/

/-- One step of FNV-1a: mix in a byte, then multiply. -/
def fnvStep (h : UInt64) (b : UInt8) : UInt64 := (h ^^^ b.toUInt64) * 1099511628211

/-- The FNV-1a digest of bytes. -/
def fnv (bytes : List UInt8) : UInt64 := bytes.foldl fnvStep 14695981039346656037

/-- The digest of a polynomial. -/
def Poly.digest (p : Poly) : UInt64 := fnv p.bytes

end ClosedForm
