import ClosedForm.Binary64.Basic

/-!
# The shortest numeral of a double

A double is shown by the fewest significant digits that read back as the same double; among
numerals of that length, by the nearest one.  For each length the only candidates are the two
numerals of that length around the value, so the search tries lengths 1, 2, … 17 and asks of
each candidate whether it reads back.

`Layout` then decides how the digits are set out: as a plain number, or with an exponent.
-/

namespace ClosedForm
namespace Binary64

/-- The exponent of the first decimal digit of the positive quotient `n / d`. -/
def firstDigit (n d : Nat) : Int :=
  let guess : Int := ((Text.decimal n).length : Int) - (Text.decimal d).length
  if d * Nat.pow 10 guess.toNat ≤ n * Nat.pow 10 (-guess).toNat then guess else guess - 1

/-- Whether a numeral rounds to the double `m · 2 ^ q`. -/
def readsBack (m : Nat) (q : Int) (digits : Nat) (exponent : Int) : Bool :=
  ofDecimal ⟨false, digits, exponent⟩ == finite false m q

/-- The numeral with `length` significant digits that reads back as the quotient's double, if there
is one: of the two around the value the nearer that does. -/
def ofLength? (m : Nat) (q : Int) (n d : Nat) (length : Nat) : Option (Nat × Int) :=
  let unit : Int := firstDigit n d - length + 1
  let n' := n * Nat.pow 10 (-unit).toNat
  let d' := d * Nat.pow 10 unit.toNat
  let below := n' / d'
  let nearer := roundQuotient n' d'
  let farther := if nearer == below then below + 1 else below
  if readsBack m q nearer unit then some (nearer, unit)
  else if readsBack m q farther unit then some (farther, unit)
  else none

/-- The shortest digits of the positive finite double `m · 2 ^ q`, with the exponent of the last.
Seventeen digits always suffice. -/
def shortest (m : Nat) (q : Int) : Nat × Int :=
  let n := m * Nat.pow 2 q.toNat
  let d := Nat.pow 2 (-q).toNat
  ((List.range 17).findSome? fun k => ofLength? m q n d (k + 1)).getD (0, 0)

/-- The digits of a number without its trailing zeros, and the exponent of its first digit. -/
def significant (digits : Nat) (exponent : Int) : List Char × Int :=
  let ds := Text.decimal digits
  ((ds.reverse.dropWhile (· == '0')).reverse, exponent + ds.length - 1)

/-- How a number's digits are set out: plainly while the exponent of the first digit is at least
`least` and below `above`, and otherwise with an exponent of at least `places` digits, always
signed. -/
structure Layout where
  least : Int
  above : Int
  places : Nat

/-- A number set out plainly: zeros fill the places between the digits and the point. -/
def plain (ds : List Char) (first : Int) : List Char :=
  if first < 0 then
    '0' :: '.' :: (List.replicate (-first - 1).toNat '0' ++ ds)
  else
    let whole := first.toNat + 1
    let ds := ds ++ List.replicate (whole - ds.length) '0'
    let fraction := ds.drop whole
    ds.take whole ++ if fraction.isEmpty then [] else '.' :: fraction

/-- A number set out with an exponent: one digit, the others after a point, then `e`. -/
def scientific (places : Nat) (ds : List Char) (first : Int) : List Char :=
  let fraction := ds.drop 1
  let power := Text.decimal first.natAbs
  ds.take 1 ++ (if fraction.isEmpty then [] else '.' :: fraction) ++
    'e' :: (if first < 0 then '-' else '+') ::
      (List.replicate (places - power.length) '0' ++ power)

/-- The text of a double in a layout. -/
def toText (layout : Layout) : Binary64 → String
  | notANumber => "NaN"
  | infinite negative => if negative then "-Inf" else "+Inf"
  | finite negative m q =>
    let body :=
      if m = 0 then ['0']
      else
        let (digits, exponent) := shortest m q
        let (ds, first) := significant digits exponent
        if first < layout.least || layout.above ≤ first then scientific layout.places ds first
        else plain ds first
    String.ofList (if negative then '-' :: body else body)

/-- Messages and counters show a number plainly from a ten-thousandth up to a million. -/
def messageLayout : Layout := ⟨-4, 6, 2⟩

end Binary64
end ClosedForm
