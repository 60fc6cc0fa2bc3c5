/-!
# Decimal digits

Integers as decimal text, in both directions.  Digits are ASCII throughout.
-/

namespace ClosedForm
namespace Text

/-- The decimal digits of `n`, without leading zeros; zero is one digit. -/
def decimal (n : Nat) : List Char := Nat.toDigits 10 n

/-- The decimal text of an integer, with a sign only when it is negative. -/
def integer : Int → String
  | .ofNat n => String.ofList (decimal n)
  | .negSucc n => String.ofList ('-' :: decimal (n + 1))

/-- The value of an ASCII digit. -/
def digitValue (c : Char) : Nat := c.toNat - '0'.toNat

/-- The number written by a row of decimal digits, most significant first. -/
def ofDigits (cs : List Char) : Nat := cs.foldl (fun n c => n * 10 + digitValue c) 0

/-- Whether a row of characters is not empty and has ASCII digits only. -/
def isDigits (cs : List Char) : Bool := !cs.isEmpty && cs.all Char.isDigit

/-- Reads an optional sign and at least one digit, and nothing else.  Leading zeros are allowed. -/
def integer? (s : String) : Option Int :=
  match s.toList with
  | '-' :: cs => if isDigits cs then some (-(ofDigits cs : Int)) else none
  | '+' :: cs => if isDigits cs then some (ofDigits cs) else none
  | cs => if isDigits cs then some (ofDigits cs) else none

end Text
end ClosedForm
