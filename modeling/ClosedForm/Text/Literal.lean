import ClosedForm.Text.Decimal

/-!
# Integer literals

Integers in the notation of program source: decimal, hexadecimal after `0x`, octal after `0o` or a
bare `0`, binary after `0b`, with underscores between digits.  A literal that does not fit in 64
bits is told apart from one that is malformed; of both faults the one that comes first counts.
-/

namespace ClosedForm
namespace Text

/-- What a text says as an integer literal. -/
inductive Literal
  | value (n : Nat)
  /-- The digits read so far are beyond 64 bits. -/
  | tooLarge
  | invalid
deriving DecidableEq

/-- Why a text is no 64-bit integer. -/
inductive LiteralFault
  | invalidSyntax
  | outOfRange
deriving DecidableEq

/-- The value of a digit in a base up to 36. -/
def digitIn? (base : Nat) (c : Char) : Option Nat :=
  let n := c.toNat
  let d :=
    if '0'.toNat ≤ n && n ≤ '9'.toNat then n - '0'.toNat
    else if 'a'.toNat ≤ n && n ≤ 'z'.toNat then n - 'a'.toNat + 10
    else if 'A'.toNat ≤ n && n ≤ 'Z'.toNat then n - 'A'.toNat + 10
    else base
  if d < base then some d else none

/-- Reads digits onto a number, passing over underscores. -/
def literalDigits (base : Nat) : List Char → Nat → Literal
  | [], n => .value n
  | c :: cs, n =>
    if c == '_' then literalDigits base cs n
    else
      match digitIn? base c with
      | none => .invalid
      | some d =>
        let n := n * base + d
        if n < Nat.pow 2 64 then literalDigits base cs n else .tooLarge

/-- The base that the beginning of a literal shows, and the digits after it. -/
def literalBase : List Char → Nat × List Char
  | '0' :: 'x' :: c :: cs => (16, c :: cs)
  | '0' :: 'X' :: c :: cs => (16, c :: cs)
  | '0' :: 'o' :: c :: cs => (8, c :: cs)
  | '0' :: 'O' :: c :: cs => (8, c :: cs)
  | '0' :: 'b' :: c :: cs => (2, c :: cs)
  | '0' :: 'B' :: c :: cs => (2, c :: cs)
  | '0' :: cs => (8, cs)
  | cs => (10, cs)

/-- What an underscore may follow. -/
inductive Before
  | start
  | digit
  | underscore
  | other
deriving DecidableEq

/-- Whether every underscore stands between digits. -/
def underscoresBetween (hex : Bool) : Before → List Char → Bool
  | before, [] => before != .underscore
  | before, c :: cs =>
    if c.isDigit || (hex && (digitIn? 16 c).isSome) then underscoresBetween hex .digit cs
    else if c == '_' then before == .digit && underscoresBetween hex .underscore cs
    else before != .underscore && underscoresBetween hex .other cs

/-- Whether every underscore of an unsigned literal stands between digits, the letters that show
the base counting as one. -/
def underscoresOk (cs : List Char) : Bool :=
  match cs with
  | '0' :: p :: rest =>
    if p.toLower == 'x' then underscoresBetween true .digit rest
    else if p.toLower == 'b' || p.toLower == 'o' then underscoresBetween false .digit rest
    else underscoresBetween false .start cs
  | cs => underscoresBetween false .start cs

/-- Reads an unsigned literal. -/
def unsignedLiteral (cs : List Char) : Literal :=
  match cs with
  | [] => .invalid
  | cs =>
    let (base, digits) := literalBase cs
    match literalDigits base digits 0 with
    | .value n => if underscoresOk cs then .value n else .invalid
    | other => other

/-- Reads a literal with an optional sign as a signed 64-bit integer. -/
def int64Literal (cs : List Char) : Except LiteralFault Int64 :=
  let (negative, digits) := match cs with
    | '-' :: cs => (true, cs)
    | '+' :: cs => (false, cs)
    | cs => (false, cs)
  match unsignedLiteral digits with
  | .invalid => .error .invalidSyntax
  | .tooLarge => .error .outOfRange
  | .value n =>
    if negative then
      if n ≤ Nat.pow 2 63 then .ok (Int64.ofInt (-(n : Int))) else .error .outOfRange
    else if n < Nat.pow 2 63 then .ok (Int64.ofInt n)
    else .error .outOfRange

end Text
end ClosedForm
