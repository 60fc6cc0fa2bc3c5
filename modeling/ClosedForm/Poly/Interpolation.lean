import ClosedForm.Poly.Algebra

/-!
# Interpolation at the natural numbers

The polynomial of least degree that takes given values at 0, 1, 2, …, by the formula of Lagrange:
the value at `i` times the product of `(x - j) / (i - j)` over the other points `j`, summed over
all `i`.
-/

namespace ClosedForm
namespace Poly

/-- The factor `(x - j) / (i - j)`, which is 1 at `i` and 0 at `j`. -/
def lagrangeFactor (i j : Nat) (h : i ≠ j) : Poly := ⟨[-(j : Int), 1], i - j, by omega⟩

/-- The product of a polynomial with the factors that separate `i` from the points below `count`
that differ from it, in ascending order. -/
def timesFactors (i : Nat) (p : Poly) (count : Nat) : Poly :=
  (List.range count).foldl
    (fun p j => if h : i = j then p else p.mul (lagrangeFactor i j h)) p

/-- The polynomial through `values[i]` at `x = i`, for every position `i`. -/
def interpolate (values : List Int) : Poly :=
  values.zipIdx.foldl (fun p (v, i) => p.add (timesFactors i (constant v) values.length)) zero

end Poly
end ClosedForm
