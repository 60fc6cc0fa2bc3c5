import ClosedForm.Text.Decimal

/-!
# Pointers into documents

The way from a document to a value inside it: at every object the name of a field, at every array
the position of an item.  Messages that refuse a value inside a document say where it stands by the
text of such a pointer.
-/

namespace ClosedForm

namespace Pointer

/-- One step from a value to a part of it. -/
inductive Step
  | field (name : String)
  | item (position : Nat)
deriving DecidableEq

/-- The text of a step.  In a name `~` and `/` are written `~0` and `~1`. -/
def Step.toText : Step → String
  | field name => String.ofList (name.toList.flatMap fun c =>
      if c == '~' then ['~', '0'] else if c == '/' then ['~', '1'] else [c])
  | item position => Text.integer position

end Pointer

/-- The steps from a document to a value inside it. -/
abbrev Pointer := List Pointer.Step

namespace Pointer

/-- The text of a pointer: its steps, divided by points. -/
def toText (p : Pointer) : String := ".".intercalate (p.map Step.toText)

/-- Whether the text of a pointer ends, after its last point if it has one, in a number. -/
def endsInNumber (p : Pointer) : Bool :=
  let last := p.toText.toList.reverse.takeWhile (· != '.')
  !last.isEmpty && last.all Char.isDigit

end Pointer
end ClosedForm
