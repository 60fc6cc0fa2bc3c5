import ClosedForm.Poly.Basic
import ClosedForm.Text.Exponent

/-!
# Polynomials as text

The terms that are not zero, from the highest power down, joined by their signs; a coefficient of
one is left out before a power of `x`; a divider other than one stands under the whole.  The three
scripts differ only in how they write an exponent and a fraction.
-/

namespace ClosedForm
namespace Poly

/-- A way of writing exponents and fractions. -/
structure Script where
  /-- The exponent after `x`, for powers above the first. -/
  exponent : Nat → String
  /-- A numerator over a divider. -/
  fraction : String → String → String

/-- Superscript exponents, fractions with a slash. -/
def unicode : Script := ⟨Text.superscript, fun n d => "(" ++ n ++ ")/" ++ d⟩

/-- Exponents after a caret, fractions with a slash. -/
def ascii : Script := ⟨Text.caret, fun n d => "(" ++ n ++ ")/" ++ d⟩

/-- Exponents and fractions as LaTeX commands. -/
def latex : Script :=
  ⟨Text.bracedCaret, fun n d => "\\frac\x7b" ++ n ++ "\x7d\x7b" ++ d ++ "\x7d"⟩

/-- The term `c · xⁱ` for a positive `c`. -/
def term (script : Script) (i : Nat) (c : Nat) : String :=
  if i = 0 then Text.integer c
  else
    let x := if i = 1 then "x" else "x" ++ script.exponent i
    if c = 1 then x else Text.integer c ++ x

/-- The sign before a term: the first has one only when it is negative. -/
def joiner (first : Bool) (c : Int) : String :=
  if first then (if c < 0 then "-" else "") else (if c < 0 then " - " else " + ")

/-- The terms from the highest power down, each with the sign before it. -/
def terms (script : Script) : List (Int × Nat) → String
  | [] => "0"
  | (c, i) :: rest =>
    joiner true c ++ term script i c.natAbs ++
      String.join (rest.map fun (c, i) => joiner false c ++ term script i c.natAbs)

/-- The coefficients that are not zero, with their powers, from the highest down. -/
def nonzeroTerms (cs : List Int) : List (Int × Nat) :=
  (cs.zipIdx.filter (·.1 != 0)).reverse

/-- The text of a polynomial in a script. -/
def render (script : Script) (p : Poly) : String :=
  let shown := nonzeroTerms p.coefficients
  let numerator := terms script shown
  if shown.isEmpty || p.divider == 1 then numerator
  else script.fraction numerator (Text.integer p.divider)

end Poly
end ClosedForm
