import ClosedForm.Poly.Basic

/-!
# Values of polynomials

The value of a polynomial at an integer, as a fraction in lowest terms, or as an integer when it
is one.
-/

namespace ClosedForm
namespace Poly

/-- The value of a coefficient list at `n`, by the rule `c + n · rest`. -/
def horner (n : Int) (cs : List Int) : Int := cs.foldr (fun c acc => acc * n + c) 0

/-- The value at `n` times the divider. -/
def numerator (p : Poly) (n : Int) : Int := horner n p.coefficients

/-- The value at `n` as a fraction in lowest terms, its denominator positive. -/
def fraction (p : Poly) (n : Int) : Int × Int :=
  let g := commonDivisor (p.numerator n) p.divider
  let g := if p.divider < 0 then -g else g
  ((p.numerator n).tdiv g, p.divider.tdiv g)

/-- The value at `n`, which must be an integer. -/
def evaluate (p : Poly) (n : Int) : Except Error Int :=
  if (p.numerator n).tmod p.divider = 0 then .ok ((p.numerator n).tdiv p.divider)
  else .error (.sentinel .notIntegral)

end Poly
end ClosedForm
