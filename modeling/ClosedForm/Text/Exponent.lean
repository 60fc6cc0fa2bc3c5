import ClosedForm.Text.Decimal

/-!
# Exponents

The ways a power is written after its base: superscript digits, a caret before ordinary digits,
or a caret before digits grouped by braces.
-/

namespace ClosedForm
namespace Text

/-- The superscript form of a decimal digit.  Characters that are no digit stay. -/
def superscriptDigit : Char → Char
  | '0' => '⁰'
  | '1' => '¹'
  | '2' => '²'
  | '3' => '³'
  | '4' => '⁴'
  | '5' => '⁵'
  | '6' => '⁶'
  | '7' => '⁷'
  | '8' => '⁸'
  | '9' => '⁹'
  | c => c

/-- An exponent in superscript digits. -/
def superscript (n : Nat) : String := String.ofList ((decimal n).map superscriptDigit)

/-- An exponent after a caret. -/
def caret (n : Nat) : String := String.ofList ('^' :: decimal n)

/-- An exponent between braces after a caret, the grouping that LaTeX needs. -/
def bracedCaret (n : Nat) : String := String.ofList ('^' :: '\x7b' :: (decimal n ++ ['\x7d']))

end Text
end ClosedForm
