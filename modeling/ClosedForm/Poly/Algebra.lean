import ClosedForm.Poly.Basic

/-!
# Sums and products of polynomials

Two polynomials are added over the least common multiple of their dividers, the shorter one as if
it went on with zeros, and multiplied by convolving their coefficients and multiplying their
dividers.  Nothing is reduced or trimmed on the way.
-/

namespace ClosedForm
namespace Poly

/-- The coefficients of a sum; the longer list gives the length. -/
def addLists : List Int → List Int → List Int
  | [], bs => bs
  | as, [] => as
  | a :: as, b :: bs => (a + b) :: addLists as bs

/-- Every coefficient times `k`. -/
def scale (k : Int) (cs : List Int) : List Int := cs.map (k * ·)

/-- The coefficients of `x` times a polynomial.  The empty list stays empty. -/
def shift : List Int → List Int
  | [] => []
  | cs => 0 :: cs

/-- The coefficients of a product, one coefficient of the left factor at a time:
`(a + x · r) · s = a · s + x · (r · s)`. -/
def convolve : List Int → List Int → List Int
  | [], _ => []
  | a :: as, bs => addLists (scale a bs) (shift (convolve as bs))

/-- The sum of two polynomials over a common multiple of their dividers. -/
def add (p q : Poly) : Poly :=
  let d := commonMultiple p.divider q.divider
  ⟨addLists (scale (d.tdiv p.divider) p.coefficients) (scale (d.tdiv q.divider) q.coefficients), d,
    commonMultiple_ne_zero p.divider_ne_zero q.divider_ne_zero⟩

/-- The product of two polynomials. -/
def mul (p q : Poly) : Poly :=
  ⟨convolve p.coefficients q.coefficients, p.divider * q.divider,
    Int.mul_ne_zero p.divider_ne_zero q.divider_ne_zero⟩

end Poly
end ClosedForm
