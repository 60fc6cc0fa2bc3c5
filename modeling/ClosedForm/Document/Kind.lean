/-!
# Kinds of values

The kinds that a value in a document can have, and the names under which messages speak of them.
-/

namespace ClosedForm

/-- The kind of a value in a document. -/
inductive Kind
  | null
  | bool
  | text
  | double
  | integer
  | natural
  | texts
  | array
  | object
deriving DecidableEq

/-- The name of a kind in messages about decoded values. -/
def Kind.typeName : Kind → String
  | .null => "<nil>"
  | .bool => "bool"
  | .text => "string"
  | .double => "float64"
  | .integer => "int"
  | .natural => "uint64"
  | .texts => "[]string"
  | .array => "[]interface \x7b\x7d"
  | .object => "map[string]interface \x7b\x7d"

end ClosedForm
