import ClosedForm.Expr.Basic
import ClosedForm.Scope

/-!
# Equality up to index names

Two expressions are alike when they have the same shape and the same constants, and their indices
correspond.  The comparison carries a scope that maps the index names of the left expression to
those that the right one uses in the same place.  A name of the left that no summation around it
binds stands for itself.
-/

namespace ClosedForm
namespace Expr

/-- Whether two expressions are alike, with the index names of the left mapped as in the scope. -/
def alikeIn : Expr → Expr → Scope RawText → Bool
  | hole, hole, _ => true
  | param, param, _ => true
  | index m, index n, scope => (scope.lookup m).getD m == n
  | const u, const v, _ => u == v
  | add a b, add c d, scope => alikeIn a c scope && alikeIn b d scope
  | mul a b, mul c d, scope => alikeIn a c scope && alikeIn b d scope
  | sum l u m b, sum l' u' n b', scope =>
    alikeIn l l' scope && alikeIn u u' scope && alikeIn b b' (scope.bind m n)
  | _, _, _ => false

/-- Whether two expressions are alike up to the names of their summation indices. -/
def alike (a b : Expr) : Bool := alikeIn a b (Scope.root RawText.empty)

end Expr
end ClosedForm
