import ClosedForm.Text.Literal
import ClosedForm.Yaml.Timestamp
import ClosedForm.Yaml.Value

/-!
# What scalars mean

A scalar without a tag, if it is plain, means what its text looks like: nothing, a truth value, a
number, and otherwise the text itself.  A tag says what it must mean; a text that does not look
like it is refused.  Timestamps are recognised only so that a tag can ask for one; they stay texts.
-/

namespace ClosedForm
namespace Yaml

/-- What a text can look like. -/
inductive Look
  | null
  | bool
  | int
  | float
  | timestamp
  | str
deriving DecidableEq

/-- The look that a standard tag asks for. -/
def Look.ofTag? : String → Option Look
  | "tag:yaml.org,2002:null" => some null
  | "tag:yaml.org,2002:bool" => some bool
  | "tag:yaml.org,2002:int" => some int
  | "tag:yaml.org,2002:float" => some float
  | "tag:yaml.org,2002:timestamp" => some timestamp
  | "tag:yaml.org,2002:str" => some str
  | _ => none

/-- The tag of a text that is written in base 64. -/
def binaryTag : String := "tag:yaml.org,2002:binary"

/-! ## Words and numbers -/

/-- The words with a meaning of their own. -/
def word? (s : String) : Option (Look × Value) :=
  if s ∈ ["y", "Y", "yes", "Yes", "YES", "true", "True", "TRUE", "on", "On", "ON"] then
    some (.bool, .bool true)
  else if s ∈ ["n", "N", "no", "No", "NO", "false", "False", "FALSE", "off", "Off", "OFF"] then
    some (.bool, .bool false)
  else if s ∈ ["", "~", "null", "Null", "NULL"] then some (.null, .null)
  else if s ∈ [".nan", ".NaN", ".NAN"] then some (.float, .double .notANumber)
  else if s ∈ [".inf", ".Inf", ".INF", "+.inf", "+.Inf", "+.INF"] then
    some (.float, .double (.infinite false))
  else if s ∈ ["-.inf", "-.Inf", "-.INF"] then some (.float, .double (.infinite true))
  else none

/-- The double nearest to a numeral that is within their range. -/
def float? (cs : List Char) : Option (Look × Value) := do
  let x := Binary64.ofDecimal (← Decimal.ofChars? cs)
  if x.isInfinite then none else some (.float, .double x)

/-- A signed binary literal whose sign stands after the letters that show the base. -/
def lateSign? : List Char → Option (Look × Value)
  | '0' :: 'b' :: sign :: cs =>
    if (sign == '-' || sign == '+') && !cs.isEmpty then
      match Text.int64Literal (sign :: '0' :: 'b' :: cs) with
      | .ok v => some (.int, .integer v)
      | .error _ => none
    else none
  | _ => none

/-- The number that a text looks like once its underscores are deleted: a signed word, an unsigned
word, or a double. -/
def number? (cs : List Char) : Option (Look × Value) :=
  let cs := cs.filter (· != '_')
  match Text.int64Literal cs with
  | .ok v => some (.int, .integer v)
  | .error _ =>
    match Text.unsignedLiteral cs with
    | .value n => some (.int, .natural n.toUInt64)
    | _ => (float? cs).or (lateSign? cs)

/-- What a text looks like, and what it then means.  Only a text that begins like a word with a
meaning, a number or a point is looked at. -/
def look (timestamps : Bool) (s : String) : Look × Value :=
  let plain := (Look.str, Value.text s)
  match s.toList with
  | [] => (.null, .null)
  | c :: cs =>
    if c ∈ "yYnNtTfFoO~".toList then (word? s).getD plain
    else if c == '.' then
      (word? s).getD <|
        (if Text.underscoresOk (c :: cs) then float? ((c :: cs).filter (· != '_')) else none).getD
          plain
    else if c.isDigit || c == '+' || c == '-' then
      (word? s).getD <|
        if timestamps && isTimestamp (c :: cs) then (.timestamp, .text s)
        else (number? (c :: cs)).getD plain
    else plain

/-! ## Base 64 -/

/-- The value of a base 64 digit. -/
def base64Digit? (c : Char) : Option Nat :=
  let n := c.toNat
  if 'A'.toNat ≤ n && n ≤ 'Z'.toNat then some (n - 'A'.toNat)
  else if 'a'.toNat ≤ n && n ≤ 'z'.toNat then some (n - 'a'.toNat + 26)
  else if '0'.toNat ≤ n && n ≤ '9'.toNat then some (n - '0'.toNat + 52)
  else if c == '+' then some 62
  else if c == '/' then some 63
  else none

/-- The bytes of base 64 digits in groups of four, the last of which may be padded. -/
def base64Bytes : List Char → Option (List UInt8)
  | [] => some []
  | [a, b, '=', '='] => do
    let n := (← base64Digit? a) * 64 + (← base64Digit? b)
    some [UInt8.ofNat (n / 16)]
  | [a, b, c, '='] => do
    let n := ((← base64Digit? a) * 64 + (← base64Digit? b)) * 64 + (← base64Digit? c)
    some [UInt8.ofNat (n / 1024), UInt8.ofNat (n / 4 % 256)]
  | a :: b :: c :: d :: rest => do
    let n := (((← base64Digit? a) * 64 + (← base64Digit? b)) * 64 + (← base64Digit? c)) * 64 +
      (← base64Digit? d)
    let bytes ← base64Bytes rest
    some (UInt8.ofNat (n / 65536) :: UInt8.ofNat (n / 256 % 256) :: UInt8.ofNat (n % 256) :: bytes)
  | _ => none

/-- The text that base 64 digits stand for.  Line breaks among them are ignored. -/
def base64Text? (s : String) : Option RawText := do
  let bytes ← base64Bytes (s.toList.filter fun c => c != '\n' && c != '\r')
  some (.ofBytes bytes)

/-! ## Scalars -/

/-- What a text means under a standard tag, if it can be read so.  Every text is a text, and an
integer that fits a signed word is a double too. -/
def resolveAs (want : Look) (s : String) : Option Value :=
  if want == .str then some (.text s)
  else
    match look (want == .timestamp) s with
    | (found, value) =>
      if found == want then some value
      else if want == .float then
        match value with
        | .integer v => some (.double (Binary64.ofInt v.toInt))
        | _ => none
      else none

/-- What a scalar means. -/
def resolve (tag text : String) (implicit : Bool) : Option Value :=
  if tag == "" then some (if implicit then (look true text).2 else .text text)
  else if tag == binaryTag then (base64Text? text).map .text
  else
    match Look.ofTag? tag with
    | some want => resolveAs want text
    | none => some (.text text)

end Yaml
end ClosedForm
