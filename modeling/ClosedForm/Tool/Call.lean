import ClosedForm.Check
import ClosedForm.Document.Expression
import ClosedForm.Document.Polynomial
import ClosedForm.Text.Snake
import ClosedForm.Tool.Limits
import ClosedForm.Tool.Schema

/-!
# Tool calls

A call names a tool in any convention and gives it parameters; the response has a result, the
renderings of a polynomial where there is one, and the text of an error where there is one.
A call never fails otherwise: everything that goes wrong is told in its response.
-/

namespace ClosedForm

/-! ## Calls and responses -/

/-- A tool call. -/
structure ToolCall where
  /-- The tool's name, in any convention. -/
  tool : String
  /-- The tool's parameters. -/
  parameters : Fields

/-- The response to a tool call.  Texts that are empty and a result that is missing are left out of
its document. -/
structure ToolResponse where
  result : Option Document := none
  latex : String := ""
  string : String := ""
  ascii : String := ""
  error : String := ""

namespace ToolResponse

/-- The response that tells an error. -/
def ofError (e : Error) : ToolResponse := { error := e.message }

/-- The response that shows a polynomial, with the given result. -/
def ofPoly (p : Poly) (result : Document) : ToolResponse where
  result := some result
  latex := p.render Poly.latex
  string := p.render Poly.unicode
  ascii := p.render Poly.ascii

/-- A field of a response's document, unless its text is empty. -/
def textField (name value : String) : Fields := if value = "" then [] else [(name, .text value)]

/-- The document of a response. -/
def toDocument (r : ToolResponse) : Document :=
  .object <|
    (match r.result with
      | some d => [("result", d)]
      | none => []) ++
    textField "latex" r.latex ++ textField "string" r.string ++ textField "ascii" r.ascii ++
    textField "error" r.error

end ToolResponse

/-! ## Names -/

namespace Tool

/-- A tool name in snake case, with the engine's own names for its operations replaced by those of
the tools. -/
def normalName (name : String) : String :=
  match Text.snake name with
  | "make_lagrange_at_naturals" => "lagrange"
  | "make_lagrange" => "lagrange"
  | "get_degree" => "degree"
  | n => n

/-- The tool that a name stands for. -/
def ofName? (name : String) : Option Tool := all.find? fun t => t.name == normalName name

end Tool

/-! ## Parameters -/

namespace Fields

/-- A parameter that must be there and hold an expression. -/
def expressionParameter (fields : Fields) (key : String) : Except Error Expr :=
  match fields.get? key with
  | none => .error (.fault (.noToolParameter key))
  | some (.object inner) => Expr.ofFields? (some inner)
  | some _ => .error (.fault (.toolParameterNotObject key))

/-- A parameter that holds a 64-bit integer, or the value it has when it is not given. -/
def wordParameter (fields : Fields) (key : String) (default : Int64) : Except Error Int64 :=
  match fields.get? key with
  | none => .ok default
  | some d => do
    let n ← d.toInteger.mapError (.within (.inToolParameter key))
    if Int64.minValue.toInt ≤ n && n ≤ Int64.maxValue.toInt then .ok (Int64.ofInt n)
    else .error (.fault (.toolParameterOutOfRange key))

/-- A parameter that must be there and hold integers. -/
def integersParameter (fields : Fields) (key : String) : Except Error (List Int) :=
  match fields.get? key with
  | none => .error (.fault (.noToolParameter key))
  | some (.array items) => Document.toIntegers (.inToolItem key) items
  | some _ => .error (.fault (.toolParameterNotArray key))

end Fields

/-! ## Running a call -/

namespace Tool

/-- The polynomial that a check compares with: the one given, or else the closed form. -/
def checkedPoly (limits : Limits) (parameters : Fields) (e : Expr) : Except Error Poly :=
  match parameters.get? "polynomial" with
  | some (.object inner) => Poly.ofFields? (some inner)
  | some _ => .error (.fault (.toolParameterNotObject "polynomial"))
  | none => (limits.simplifier 0).simplify e

/-- The response to a finished check. -/
def checkResponse (p : Poly) : Outcome → ToolResponse
  | none =>
    .ofPoly p (.object [("ok", .bool true), ("polynomial", p.toDocument)])
  | some err =>
    { ToolResponse.ofError err with
      result := some (.object [
        ("mismatches", .numeral (Text.integer (Outcome.parts (some err)).length)),
        ("ok", .bool false)]) }

/-- Runs a tool on its parameters, under limits. -/
def run (limits : Limits) (parameters : Fields) : Tool → Except Error ToolResponse
  | simplify => do
    let e ← parameters.expressionParameter "expr"
    let requested ← parameters.wordParameter "max_degree" 0
    let p ← (limits.simplifier requested).simplify e
    return .ofPoly p p.toDocument
  | evaluate => do
    let e ← parameters.expressionParameter "expr"
    let n ← parameters.wordParameter "n" 0
    let v ← e.evaluateWithin n.toInt limits.maxTerms
    return { result := some (.text (Text.integer v)), string := Text.integer v }
  | degree => do
    let e ← parameters.expressionParameter "expr"
    let d ← e.degree
    return { result := some (.numeral (Text.integer d.toInt)) }
  | lagrange => do
    let values ← parameters.integersParameter "values"
    limits.admitValues values.length
    let p := (Poly.interpolate values).reduced
    return .ofPoly p p.toDocument
  | check => do
    let e ← parameters.expressionParameter "expr"
    let p ← checkedPoly limits parameters e
    let lower ← parameters.wordParameter "from" 0
    let upper ← parameters.wordParameter "to" 10
    limits.admitRange lower upper
    return checkResponse p (checkWithin e p lower upper limits.maxTerms)
  | spec => .ok { result := some schemas }

end Tool

namespace ToolCall

/-- The response to a call, under limits. -/
def respond (limits : Limits) (call : ToolCall) : ToolResponse :=
  match Tool.ofName? call.tool with
  | none => .ofError (.fault (.unknownTool call.tool))
  | some tool =>
    match tool.run limits call.parameters with
    | .ok response => response
    | .error err => .ofError err

end ToolCall
end ClosedForm
