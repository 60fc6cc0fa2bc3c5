import ClosedForm.Document.Basic
import ClosedForm.Poly.Basic

/-!
# Polynomials as documents

A polynomial is an object with its `coefficients`, the constant term first, and its `divider`, all
written as decimal texts.  Without a divider it is 1, without coefficients there are none.

The coefficients of a described polynomial are a row of texts; a document that was read has an array
in their place.  Both are decoded.
-/

namespace ClosedForm
namespace Poly

/-- The document of a polynomial. -/
def toDocument (p : Poly) : Document :=
  .object [("coefficients", .texts (p.coefficients.map fun c => Text.integer c)),
    ("divider", .text (Text.integer p.divider))]

/-- The divider that a polynomial document has, or else 1. -/
def dividerOf (fields : Fields) : Except Error Int :=
  match fields.get? "divider" with
  | none => .ok 1
  | some d => d.toInteger.mapError (.within .inDivider)

/-- The coefficients that a polynomial document has. -/
def coefficientsOf (fields : Fields) : Except Error (List Int) :=
  match fields.get? "coefficients" with
  | none => .ok []
  | some .null => .ok []
  | some (.array items) => Document.toIntegers .inCoefficient items
  | some (.texts items) => Document.toIntegers .inCoefficient (items.map .text)
  | some _ => .error (.fault .coefficientsNotArray)

/-- Decodes a polynomial document.  The divider is looked at before the coefficients. -/
def ofFields (fields : Fields) : Except Error Poly := do
  let divider ← dividerOf fields
  let coefficients ← coefficientsOf fields
  ofDivider coefficients divider

/-- Decodes a polynomial document.  What is no object is refused. -/
def ofFields? : Option Fields → Except Error Poly
  | none => .error (.fault .notAPolynomial)
  | some fields => ofFields fields

end Poly
end ClosedForm
