import ClosedForm.Document.Basic
import ClosedForm.Expr.Basic
import ClosedForm.Scope

/-!
# Expressions as documents

An expression is an object with a `type` (`param`, `index`, `const`, `add`, `mul` or `sum`) and the
fields of that type.  Constants are written as decimal texts.

Decoding checks scopes as it goes: every index must be introduced by a summation around it, so a
decoded expression never meets an unbound index.  Fields that its type does not have are ignored.
-/

namespace ClosedForm

/-! ## From an expression to a document -/

/-- The document of an expression, its fields in alphabetical order.  A hole is null. -/
def Expr.toDocument : Expr → Document
  | hole => .null
  | param => .object [("type", .text "param")]
  | index name => .object [("name", .text name), ("type", .text "index")]
  | const v => .object [("type", .text "const"), ("value", .text (Text.integer v))]
  | add a b =>
    .object [("left", a.toDocument), ("right", b.toDocument), ("type", .text "add")]
  | mul a b =>
    .object [("left", a.toDocument), ("right", b.toDocument), ("type", .text "mul")]
  | sum lower upper name body =>
    .object [("body", body.toDocument), ("from", lower.toDocument), ("index", .text name),
      ("to", upper.toDocument), ("type", .text "sum")]

/-! ## From a document to an expression -/

namespace Fields

/-- The type that an expression object says it has.  None of the types has stray bytes, so what is
shown tells them apart. -/
def type (fields : Fields) : Except Error String :=
  match fields.get? "type" with
  | none => .error (.fault .noType)
  | some (.text t) => if t.shown = "" then .error (.fault .typeNotText) else .ok t.shown
  | some _ => .error (.fault .typeNotText)

/-- A field that holds a name. -/
def name (fields : Fields) (type field : String) : Except Error RawText :=
  match fields.get? field with
  | none => .error (.fault (.noField type field))
  | some (.text t) => if t = .empty then .error (.fault (.fieldNotText type field)) else .ok t
  | some _ => .error (.fault (.fieldNotText type field))

/-- A field that holds an expression is an object smaller than the one it is in. -/
theorem sizeOf_get?_lt {fields : Fields} {name : String} {inner : Fields}
    (h : fields.get? name = some (.object inner)) : sizeOf inner < sizeOf fields := by
  induction fields with
  | nil => simp [get?] at h
  | cons f fs ih =>
    obtain ⟨k, d⟩ := f
    unfold get? at h ih
    rw [List.lookup_cons] at h
    split at h
    · injection h with h
      subst h
      simp only [List.cons.sizeOf_spec, Prod.mk.sizeOf_spec, Document.object.sizeOf_spec]
      omega
    · have := ih h
      simp only [List.cons.sizeOf_spec]
      omega

/-- Decodes the expression in a field with the given decoder of smaller objects. -/
def child (fields : Fields) (type field : String)
    (decode : (inner : Fields) → sizeOf inner < sizeOf fields → Except Error Expr) :
    Except Error Expr :=
  match h : fields.get? field with
  | none => .error (.fault (.noField type field))
  | some (.object inner) =>
    (decode inner (sizeOf_get?_lt h)).mapError (.within (.inField type field))
  | some _ => .error (.fault (.fieldNotObject type field))

/-- Decodes an expression object, in a scope of the index names that may be used.  The bounds of a
summation are decoded outside the scope of its index and its body inside. -/
def expression (fields : Fields) (scope : Scope Unit) : Except Error Expr := do
  let type ← fields.type
  match type with
  | "param" => return .param
  | "index" =>
    let name ← fields.name type "name"
    scope.index name
    return .index name
  | "const" =>
    match fields.get? "value" with
    | none => .error (.fault .noValue)
    | some d => return .const (← d.toInteger.mapError (.within .inConstant))
  | "add" =>
    let left ← fields.child type "left" fun inner _ => expression inner scope
    let right ← fields.child type "right" fun inner _ => expression inner scope
    return .add left right
  | "mul" =>
    let left ← fields.child type "left" fun inner _ => expression inner scope
    let right ← fields.child type "right" fun inner _ => expression inner scope
    return .mul left right
  | "sum" =>
    let name ← fields.name type "index"
    let lower ← fields.child type "from" fun inner _ => expression inner scope
    let upper ← fields.child type "to" fun inner _ => expression inner scope
    let body ← fields.child type "body" fun inner _ => expression inner (scope.bind name ())
    return .sum lower upper name body
  | type => .error (.fault (.unknownType type))
termination_by sizeOf fields

end Fields

/-- Decodes an expression document outside every summation.  What is no object is refused. -/
def Expr.ofFields? : Option Fields → Except Error Expr
  | none => .error (.fault .notAnExpression)
  | some fields => fields.expression (Scope.root ())

/-- Decodes an expression document. -/
def Expr.ofDocument (d : Document) : Except Error Expr := Expr.ofFields? d.fields?

end ClosedForm
