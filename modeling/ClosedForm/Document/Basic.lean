import ClosedForm.Binary64.Shortest
import ClosedForm.Document.Kind
import ClosedForm.Error

/-!
# Documents

The values that readers produce and that expressions, polynomials and tool calls are decoded from:
a tree of arrays and objects over texts and numbers.

A number is held as its reader gave it.  A JSON text gives a *numeral*, the number's own text,
which loses nothing; an inline document gives a *double*; a YAML text gives a 64-bit word, signed
if it fits, or a double.

A polynomial describes itself with a *row of texts*, which no reader gives: written and read again,
it is an array like any other.

Of several fields of one name the first counts.  A reader that lets the last one win therefore
puts later fields before earlier ones.
-/

namespace ClosedForm

/-- A value in a document. -/
inductive Document
  | null
  | bool (value : Bool)
  | text (value : RawText)
  | numeral (spelling : String)
  | double (value : Binary64)
  | integer (value : Int64)
  | natural (value : UInt64)
  | texts (items : List RawText)
  | array (items : List Document)
  | object (fields : List (String × Document))

/-- The fields of an object. -/
abbrev Fields := List (String × Document)

/-- The value of a field. -/
def Fields.get? (fields : Fields) (name : String) : Option Document := fields.lookup name

namespace Document

/-- The kind of a value.  A numeral is spelled as a text. -/
def kind : Document → Kind
  | null => .null
  | bool _ => .bool
  | text _ => .text
  | numeral _ => .text
  | double _ => .double
  | integer _ => .integer
  | natural _ => .natural
  | texts _ => .texts
  | array _ => .array
  | object _ => .object

/-- The fields of a value that is an object. -/
def fields? : Document → Option Fields
  | object fields => some fields
  | _ => none

/-! ## Integers -/

/-- The largest magnitude up to which every integer is a double of its own. -/
def maxExact : Nat := Nat.pow 2 53

/-- The integer that a value stands for: a decimal text or numeral, a whole double small enough to
stand for one integer only, or a word. -/
def toInteger : Document → Except Error Int
  | text s => decimal s
  | numeral s => decimal s
  | double x =>
    match x.toInt? with
    | none => .error (.fault (.notWhole x))
    | some n => if maxExact < n.natAbs then .error (.fault (.notExact x)) else .ok n
  | integer v => .ok v.toInt
  | natural v => .ok v.toNat
  | d => .error (.fault (.notNumeric d.kind))
where
  /-- The integer that a text spells. -/
  decimal (t : RawText) : Except Error Int :=
    match Text.integer? t.shown with
    | some n => .ok n
    | none => .error (.fault (.notDecimal t))

/-- The integers that the items of an array stand for; `place` says where an item is. -/
def toIntegers (place : Nat → Setting) (items : List Document) : Except Error (List Int) :=
  items.zipIdx.mapM fun (d, i) => d.toInteger.mapError (.within (place i))

/-! ## Rounding numerals -/

/-- A numeral that is beyond the doubles, and where it stands. -/
structure Overflow where
  pointer : Pointer
  spelling : String

/-- An overflow in a part of a value, seen from the value. -/
def Overflow.under (step : Pointer.Step) (o : Overflow) : Overflow :=
  { o with pointer := step :: o.pointer }

mutual

/-- The document with every numeral rounded to a double.  Fails with the first numeral, in the order
of the text, that is beyond the doubles. -/
def rounded : Document → Except Overflow Document
  | numeral s =>
    let x := match Decimal.ofString? s with
      | some d => Binary64.ofDecimal d
      | none => .notANumber
    if x.isInfinite then .error ⟨[], s⟩ else .ok (double x)
  | array items => do return array (← roundedItems 0 items)
  | object fields => do return object (← roundedFields fields)
  | d => .ok d

/-- Rounds the items of an array from a position on. -/
def roundedItems (position : Nat) : List Document → Except Overflow (List Document)
  | [] => .ok []
  | d :: ds => do
    let d ← (rounded d).mapError (.under (.item position))
    return d :: (← roundedItems (position + 1) ds)

/-- Rounds the fields of an object, from the last on: later fields stand first. -/
def roundedFields : List (String × Document) → Except Overflow (List (String × Document))
  | [] => .ok []
  | (k, d) :: fs => do
    let fs ← roundedFields fs
    return (k, ← (rounded d).mapError (.under (.field k))) :: fs

end

end Document
end ClosedForm
