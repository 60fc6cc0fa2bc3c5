import ClosedForm.Document.Expression
import ClosedForm.Json.Reader
import ClosedForm.Json.Writer

/-!
# Expressions as JSON text

The text of an expression's document, and the two ways in which a text is read as one: as the
first value of a file, with numbers kept as they are spelled, or as a whole value given inline,
with every number rounded to a double first.
-/

namespace ClosedForm
namespace Expr

/-- The JSON text of an expression.  There is none for a hole. -/
def toJson (e : Expr) : Except Error String :=
  match e with
  | hole => .error (.sentinel .nullExpression)
  | e => .ok (Json.write e.toDocument)

/-- Reads the first value of a JSON text as an expression. -/
def ofJson (s : String) : Except Error Expr := do
  ofFields? (← Json.fields? (← Json.first s))

/-- Reads a JSON text that is one value as an expression, rounding numbers to doubles. -/
def ofInlineJson (s : String) : Except Error Expr := do
  let fields ← (read s).mapError (.within .inline)
  ofFields? fields
where
  /-- The fields of the object that the text is. -/
  read (s : String) : Except Error (Option Fields) := do
    let fields? ← Json.fields? (← Json.whole s)
    match fields? with
    | none => return none
    | some fields =>
      match Document.roundedFields fields with
      | .ok fields => return some fields
      | .error o =>
        .error (.fault (.mismatch ("number " ++ o.spelling) "" o.pointer Kind.double.typeName))

end Expr
end ClosedForm
