import ClosedForm.Json.Writer

/-!
# The tools and their schema

The tools by name, and the schema that tells an agent how to call them.
-/

namespace ClosedForm

/-- The tools. -/
inductive Tool
  | simplify
  | evaluate
  | degree
  | lagrange
  | check
  | spec
deriving DecidableEq

namespace Tool

/-- All tools, in the order in which the schema lists them. -/
def all : List Tool := [simplify, evaluate, degree, lagrange, check, spec]

/-- The name of a tool. -/
def name : Tool → String
  | simplify => "simplify"
  | evaluate => "evaluate"
  | degree => "degree"
  | lagrange => "lagrange"
  | check => "check"
  | spec => "mcp_spec"

/-- What the schema says of a tool. -/
def description : Tool → String
  | simplify => "Closed-form polynomial of a summation expression. Optional max_degree (integer)"
  | evaluate => "Exact value of an expression with the parameter bound to n"
  | degree => "Upper bound on the polynomial degree of an expression"
  | lagrange => "Polynomial through values[i] at x = i"
  | check => "Compare an expression with a polynomial (default: its simplification) on from..to"
  | spec => "Return this tool schema"

/-- The parameters that the schema says a tool requires. -/
def required : Tool → List String
  | simplify => ["expr"]
  | evaluate => ["expr", "n"]
  | degree => ["expr"]
  | lagrange => ["values"]
  | check => ["expr"]
  | spec => []

/-- The parameters of a tool with their types, in alphabetical order. -/
def parameters : Tool → List (String × String)
  | simplify => [("expr", "object"), ("max_degree", "integer")]
  | evaluate => [("expr", "object"), ("n", "integer")]
  | degree => [("expr", "object")]
  | lagrange => [("values", "array")]
  | check => [("expr", "object"), ("from", "integer"), ("polynomial", "object"), ("to", "integer")]
  | spec => []

/-- The schema of one tool. -/
def schema (t : Tool) : Document :=
  .object [
    ("description", .text t.description),
    ("inputSchema", .object [
      ("properties", .object (t.parameters.map fun (k, type) => (k, .object [("type", .text type)]))),
      ("required", .array (t.required.map fun name => .text (.ofString name))),
      ("type", .text "object")]),
    ("name", .text t.name)]

/-- The schema of all tools. -/
def schemas : Document := .object [("tools", .array (all.map schema))]

/-- The schema of all tools as indented text. -/
def schemaText : String := Json.writeIndented schemas

end Tool
end ClosedForm
