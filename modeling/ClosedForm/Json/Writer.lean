import ClosedForm.Document.Basic
import ClosedForm.Text.Quoted

/-!
# Writing JSON

A document as JSON text, compact or indented.  Fields are written in the order in which they stand.
Inside texts the quote, the backslash and the controls are escaped, and so are the characters that
a page or a script would take for markup: `<`, `>`, `&` and the two Unicode line separators.
-/

namespace ClosedForm
namespace Json

/-- One character of a JSON text value. -/
def escapeChar (c : Char) : List Char :=
  match c with
  | '"' => ['\\', '"']
  | '\\' => ['\\', '\\']
  | '\x08' => ['\\', 'b']
  | '\x0c' => ['\\', 'f']
  | '\n' => ['\\', 'n']
  | '\r' => ['\\', 'r']
  | '\t' => ['\\', 't']
  | c =>
    if c.toNat < 0x20 || c == '<' || c == '>' || c == '&' || c.toNat == 0x2028 || c.toNat == 0x2029
    then '\\' :: 'u' :: Text.hexDigits 4 c.toNat
    else [c]

/-- Writes a text between quotes, escaped, before what follows it. -/
def quoteBefore (s : String) (rest : List Char) : List Char :=
  '"' :: s.toList.foldr (fun c rest => escapeChar c ++ rest) ('"' :: rest)

/-- How the parts of a container are set apart. -/
inductive Spacing
  | compact
  /-- Every part on a line of its own, under this many steps of indentation. -/
  | indented (level : Nat)

namespace Spacing

/-- The spacing inside a container. -/
def inner : Spacing → Spacing
  | compact => compact
  | indented level => indented (level + 1)

/-- What stands before a part, or before the end of a container. -/
def lineBreak : Spacing → List Char
  | compact => []
  | indented level => '\n' :: List.replicate (2 * level) ' '

/-- What stands between a field's name and its value. -/
def colon : Spacing → List Char
  | compact => [':']
  | indented _ => [':', ' ']

end Spacing

/-- Writes a value that is no container before what follows it.  A double is written as its
shortest numeral. -/
def scalarBefore (d : Document) (rest : List Char) : List Char :=
  match d with
  | .bool true => "true".toList ++ rest
  | .bool false => "false".toList ++ rest
  | .text t => quoteBefore t.shown rest
  | .numeral s => s.toList ++ rest
  | .double x => (x.toText ⟨-6, 21, 1⟩).toList ++ rest
  | .integer v => (Text.integer v.toInt).toList ++ rest
  | .natural v => (Text.integer v.toNat).toList ++ rest
  | _ => "null".toList ++ rest

/-- Writes the texts of a row after the first, and its end, before what follows. -/
def textsBefore (spacing : Spacing) : List RawText → List Char → List Char
  | [], rest => spacing.lineBreak ++ ']' :: rest
  | t :: ts, rest =>
    ',' :: (spacing.inner.lineBreak ++ quoteBefore t.shown (textsBefore spacing ts rest))

mutual

/-- Writes a document before what follows it. -/
def writeBefore (spacing : Spacing) : Document → List Char → List Char
  | .texts [], rest => '[' :: ']' :: rest
  | .texts (t :: ts), rest =>
    '[' :: (spacing.inner.lineBreak ++ quoteBefore t.shown (textsBefore spacing ts rest))
  | .array [], rest => '[' :: ']' :: rest
  | .array (d :: ds), rest =>
    '[' :: (spacing.inner.lineBreak ++ writeBefore spacing.inner d (itemsBefore spacing ds rest))
  | .object [], rest => '\x7b' :: '\x7d' :: rest
  | .object ((k, d) :: fs), rest =>
    '\x7b' :: (spacing.inner.lineBreak ++ quoteBefore k (spacing.colon ++
      writeBefore spacing.inner d (fieldsBefore spacing fs rest)))
  | d, rest => scalarBefore d rest

/-- Writes the items of an array after the first, and its end, before what follows. -/
def itemsBefore (spacing : Spacing) : List Document → List Char → List Char
  | [], rest => spacing.lineBreak ++ ']' :: rest
  | d :: ds, rest =>
    ',' :: (spacing.inner.lineBreak ++ writeBefore spacing.inner d (itemsBefore spacing ds rest))

/-- Writes the fields of an object after the first, and its end, before what follows. -/
def fieldsBefore (spacing : Spacing) : List (String × Document) → List Char → List Char
  | [], rest => spacing.lineBreak ++ '\x7d' :: rest
  | (k, d) :: fs, rest =>
    ',' :: (spacing.inner.lineBreak ++ quoteBefore k (spacing.colon ++
      writeBefore spacing.inner d (fieldsBefore spacing fs rest)))

end

/-- A document as compact JSON text. -/
def write (d : Document) : String := String.ofList (writeBefore .compact d [])

/-- A document as JSON text with a line for every part, two blanks of indentation a level. -/
def writeIndented (d : Document) : String := String.ofList (writeBefore (.indented 0) d [])

end Json
end ClosedForm
