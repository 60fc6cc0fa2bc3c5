import ClosedForm.Text.Decimal

/-!
# Decimal numerals

The text of a decimal number, read exactly: a sign, a natural number of digits and a power of
ten.  Nothing is rounded here; `ClosedForm.Binary64.Basic` rounds a numeral to a double.
-/

namespace ClosedForm

/-- The number `± digits · 10 ^ exponent`, as a numeral spells it. -/
structure Decimal where
  negative : Bool
  digits : Nat
  exponent : Int
deriving DecidableEq

namespace Decimal

/-- The exponent part of a numeral: nothing, or `e` or `E`, an optional sign and digits. -/
def exponentPart? : List Char → Option Int
  | [] => some 0
  | c :: cs =>
    if c == 'e' || c == 'E' then
      match cs with
      | '-' :: ds => if Text.isDigits ds then some (-(Text.ofDigits ds : Int)) else none
      | '+' :: ds => if Text.isDigits ds then some (Text.ofDigits ds) else none
      | ds => if Text.isDigits ds then some (Text.ofDigits ds) else none
    else none

/-- Reads an unsigned numeral: digits with at most one point among or around them, at least one
digit in all, and an optional exponent. -/
def unsigned? (negative : Bool) (cs : List Char) : Option Decimal :=
  let whole := cs.takeWhile Char.isDigit
  let rest := cs.dropWhile Char.isDigit
  let (places, rest) :=
    match rest with
    | '.' :: rest => (rest.takeWhile Char.isDigit, rest.dropWhile Char.isDigit)
    | rest => ([], rest)
  if whole.isEmpty && places.isEmpty then none
  else
    (exponentPart? rest).map fun e =>
      ⟨negative, Text.ofDigits (whole ++ places), e - places.length⟩

/-- Reads a numeral with an optional sign. -/
def ofChars? : List Char → Option Decimal
  | '-' :: cs => unsigned? true cs
  | '+' :: cs => unsigned? false cs
  | cs => unsigned? false cs

/-- Reads a numeral with an optional sign. -/
def ofString? (s : String) : Option Decimal := ofChars? s.toList

end Decimal
end ClosedForm
