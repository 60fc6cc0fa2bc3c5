import ClosedForm.Binary64.Decimal

/-!
# Doubles

The numbers of an inline document are doubles before they are anything else: the nearest number
with 53 significant bits and an exponent in the binary64 range, an exact tie going to the even
significand.  A double is held as its exact value, so rounding is one definition over natural
numbers, and whether a double is a whole number is a question of divisibility.
-/

namespace ClosedForm

/-- A double: `± significand · 2 ^ exponent`, an infinity, or no number at all.

A finite double built by this module has `significand < 2 ^ 53` and `-1074 ≤ exponent ≤ 971`, and
its significand has 53 bits unless the exponent is the least one. -/
inductive Binary64
  | finite (negative : Bool) (significand : Nat) (exponent : Int)
  | infinite (negative : Bool)
  | notANumber
deriving DecidableEq

namespace Binary64

/-- The natural number nearest to `n / d`; an exact tie goes to the even one. -/
def roundQuotient (n d : Nat) : Nat :=
  let q := n / d
  let r := n % d
  if d < 2 * r || (2 * r == d && q % 2 == 1) then q + 1 else q

/-- The exponent of the last bit kept of a positive quotient: 52 below that of its first bit, and
never below the least exponent. -/
def lastBit (n d : Nat) : Int :=
  let guess : Int := (n.log2 : Int) - d.log2
  -- the logarithms are rounded down, so the first bit is at `guess` or one below
  let first : Int :=
    if d * Nat.pow 2 guess.toNat ≤ n * Nat.pow 2 (-guess).toNat then guess else guess - 1
  max (first - 52) (-1074)

/-- The double nearest to the positive quotient `n / d`. -/
def ofQuotient (negative : Bool) (n d : Nat) : Binary64 :=
  let q := lastBit n d
  let m := roundQuotient (n * Nat.pow 2 (-q).toNat) (d * Nat.pow 2 q.toNat)
  -- rounding up may carry into one more bit
  let (m, q) := if m == Nat.pow 2 53 then (Nat.pow 2 52, q + 1) else (m, q)
  if 971 < q then infinite negative else finite negative m q

/-- The double nearest to a decimal numeral.  Numerals far outside the range are decided by their
exponent alone, so that no huge power is computed: above `10 ^ 400` is infinite, and what is below
`10 ^ -400` rounds to zero. -/
def ofDecimal (x : Decimal) : Binary64 :=
  if x.digits = 0 then finite x.negative 0 (-1074)
  else if 400 < x.exponent then infinite x.negative
  else if x.exponent < -(400 + x.digits.log2 : Int) then finite x.negative 0 (-1074)
  else
    ofQuotient x.negative (x.digits * Nat.pow 10 x.exponent.toNat)
      (Nat.pow 10 (-x.exponent).toNat)

/-- The double nearest to an integer. -/
def ofInt (n : Int) : Binary64 := ofDecimal ⟨n < 0, n.natAbs, 0⟩

/-- The value of a double that is a whole number. -/
def toInt? : Binary64 → Option Int
  | finite negative m q =>
    let sign (k : Nat) : Int := if negative then -(k : Int) else k
    if 0 ≤ q then some (sign (m * Nat.pow 2 q.toNat))
    else if m % Nat.pow 2 (-q).toNat == 0 then some (sign (m / Nat.pow 2 (-q).toNat))
    else none
  | infinite _ => none
  | notANumber => none

/-- Whether a numeral is beyond the largest finite double. -/
def isInfinite : Binary64 → Bool
  | infinite _ => true
  | _ => false

end Binary64
end ClosedForm
