import ClosedForm.Document.Basic

/-!
# YAML values

What a YAML document means: scalars that have been resolved, sequences, and mappings whose keys
may be any scalar.  A value whose mappings have texts for keys, at every depth, is a document: its
keys are the names of fields, as they are shown.
-/

namespace ClosedForm
namespace Yaml

/-- A YAML value. -/
inductive Value
  | null
  | bool (value : Bool)
  | text (value : RawText)
  | double (value : Binary64)
  | integer (value : Int64)
  | natural (value : UInt64)
  | sequence (items : List Value)
  | mapping (entries : List (Value × Value))

namespace Value

/-- Whether a value is a collection, which no key may be. -/
def isCollection : Value → Bool
  | sequence _ => true
  | mapping _ => true
  | _ => false

/-- How a message shows a key that is no text. -/
def shown : Value → String
  | null => "<nil>"
  | bool b => if b then "true" else "false"
  | text t => t.shown
  | double x => x.toText Binary64.messageLayout
  | integer v => Text.integer v.toInt
  | natural v => Text.integer v.toNat
  | sequence _ => "[]"
  | mapping _ => "map[]"

/-- Adds an entry to those of a mapping.  An entry whose key is the same text is replaced. -/
def put (entries : List (Value × Value)) (key value : Value) : List (Value × Value) :=
  entries.filter (fun (k, _) => !sameText k key) ++ [(key, value)]
where
  /-- Whether two keys are the same text. -/
  sameText : Value → Value → Bool
    | text s, text t => s == t
    | _, _ => false

end Value

/-! ## Texts for keys -/

/-- A YAML value whose mappings have texts for keys, at every depth. -/
inductive TextKeyed
  | null
  | bool (value : Bool)
  | text (value : RawText)
  | double (value : Binary64)
  | integer (value : Int64)
  | natural (value : UInt64)
  | sequence (items : List TextKeyed)
  | mapping (entries : List (RawText × TextKeyed))

namespace Value

mutual

/-- The same value with texts for keys.  Fails with the first key that is no text. -/
def textKeyed : Value → Except Error TextKeyed
  | null => .ok .null
  | bool b => .ok (.bool b)
  | text s => .ok (.text s)
  | double x => .ok (.double x)
  | integer v => .ok (.integer v)
  | natural v => .ok (.natural v)
  | sequence items => do return .sequence (← textKeyedItems items)
  | mapping entries => do return .mapping (← textKeyedEntries entries)

/-- The items of a sequence with texts for keys. -/
def textKeyedItems : List Value → Except Error (List TextKeyed)
  | [] => .ok []
  | v :: vs => do
    let t ← textKeyed v
    return t :: (← textKeyedItems vs)

/-- The entries of a mapping with texts for keys. -/
def textKeyedEntries : List (Value × Value) → Except Error (List (RawText × TextKeyed))
  | [] => .ok []
  | (text k, v) :: es => do
    let t ← textKeyed v
    return (k, t) :: (← textKeyedEntries es)
  | (k, _) :: _ => .error (.fault (.keyNotText k.shown))

end

end Value

namespace TextKeyed

mutual

/-- The document that a value is. -/
def toDocument : TextKeyed → Document
  | null => .null
  | bool b => .bool b
  | text s => .text s
  | double x => .double x
  | integer v => .integer v
  | natural v => .natural v
  | sequence items => .array (toItems items)
  | mapping entries => .object (toFields entries)

/-- The documents that the items of a sequence are. -/
def toItems : List TextKeyed → List Document
  | [] => []
  | t :: ts => toDocument t :: toItems ts

/-- The fields that the entries of a mapping are. -/
def toFields : List (RawText × TextKeyed) → List (String × Document)
  | [] => []
  | (k, t) :: es => (k.shown, toDocument t) :: toFields es

end

end TextKeyed

/-- The document that a value is, if every key of its mappings is a text. -/
def Value.toDocument (v : Value) : Except Error Document := do return (← v.textKeyed).toDocument

end Yaml
end ClosedForm
