import ClosedForm.Json.Reader
import ClosedForm.Tool.Call

/-!
# Requests for tool calls

The body of a request is one JSON object with the fields `tool` and `params`.  Names of fields are
compared without regard to case, a field that is neither is refused, and so is a field of the wrong
kind; of several faults the first in the text counts.  Fields may be repeated: the last tool counts,
and parameters are merged.

Of a body only the first mebibyte is read.  A value that is not complete by then is too large, and
so is a number that may go on beyond it.  A body that goes on beyond it after a complete value has
more than one, unless a closing bracket has come before.
-/

namespace ClosedForm
namespace Server

/-- The bytes of a body that are read. -/
def maxBody : Nat := 1048576

/-! ## The part of a body that is read -/

/-- The characters that begin within the first `limit` bytes, latest first.  Every character comes
with the number of its bytes. -/
def takeBytes : (limit : Nat) → List (Char × Nat) → List Char → List Char
  | _, [], taken => taken
  | limit, (c, size) :: cs, taken =>
    if limit = 0 then taken else takeBytes (limit - size) cs (c :: taken)

/-- The characters of a body that are read, and whether the body goes on.  A byte that is part of no
character is read as U+FFFD, as it is shown. -/
def readable (body : RawText) : List Char × Bool :=
  if body.byteSize ≤ maxBody then (body.shown.toList, false)
  else ((takeBytes maxBody body.sizedChars []).reverse, true)

/-! ## Decoding -/

/-- A name with the case of its letters dropped.  The long s is a form of s. -/
def foldCase (name : String) : String :=
  String.ofList (name.toList.map fun c => if c == 'ſ' then 's' else c.toLower)

/-- A request while its fields are decoded: what it says so far, and the first fault. -/
structure Draft where
  tool : String := ""
  parameters : Fields := []
  fault : Option Fault := none

namespace Draft

/-- Notes a fault, unless there was one before. -/
def blame (d : Draft) (f : Fault) : Draft := { d with fault := d.fault.or (some f) }

/-- The fault of a field with a value of the wrong kind, at the field or inside it. -/
def wrongKind (found field : String) (inside : Pointer) (type : String) : Fault :=
  .mismatch found "ToolRequest" (.field field :: inside) type

/-- Decodes the tool's name.  Null leaves it as it is. -/
def setTool (d : Draft) (field : String) (value : Document) : Draft :=
  match value with
  | .text t => { d with tool := t.shown }
  | .null => d
  | v => d.blame (wrongKind (Json.found v) field [] Kind.text.typeName)

/-- Decodes parameters: an object's fields are added before those there are, and null drops all. -/
def setParameters (d : Draft) (field : String) (value : Document) : Draft :=
  match value with
  | .null => { d with parameters := [] }
  | .object fields =>
    match Document.roundedFields fields with
    | .ok fields => { d with parameters := fields ++ d.parameters }
    | .error o =>
      d.blame (wrongKind ("number " ++ o.spelling) field o.pointer Kind.double.typeName)
  | v => d.blame (wrongKind (Json.found v) field [] Kind.object.typeName)

/-- Decodes one field. -/
def setField (d : Draft) (field : String) (value : Document) : Draft :=
  match foldCase field with
  | "tool" => d.setTool field value
  | "params" => d.setParameters field value
  | _ => d.blame (.unknownField field)

end Draft

/-- Decodes a request. -/
def decode (value : Document) : Except Error ToolCall :=
  match value with
  | .null => .ok ⟨"", []⟩
  | .object fields =>
    -- later fields stand first
    let d := fields.reverse.foldl (fun d (name, value) => Draft.setField d name value) {}
    match d.fault with
    | some f => .error (.fault f)
    | none => .ok ⟨d.tool, d.parameters⟩
  | v => .error (.fault (.mismatch (Json.found v) "" [] "gosigma.ToolRequest"))

/-- Whether nothing that follows a value makes it one of several: blanks up to the end of the body,
or up to a closing bracket. -/
def endsBody (goesOn : Bool) (rest : List Char) : Bool :=
  match rest.dropWhile Json.isSpace with
  | [] => !goesOn
  | c :: _ => c == ']' || c == '\x7d'

/-- The tool call that a body asks for. -/
def callOf (body : RawText) : Except Error ToolCall :=
  let (cs, goesOn) := readable body
  match Json.readFirst cs with
  | .malformed => .error (.malformed .json)
  | .truncated => .error (if goesOn then .fault .bodyTooLarge else .malformed .json)
  | .atEnd value => if goesOn then .error (.fault .bodyTooLarge) else decode value
  | .complete value rest => do
    let call ← decode value
    if endsBody goesOn rest then return call else .error (.fault .trailingData)

end Server
end ClosedForm
