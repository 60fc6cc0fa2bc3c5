import ClosedForm.Expr.Basic
import ClosedForm.Scope

/-!
# Interpretations

An interpretation walks an expression once, bottom up, and gives every part a meaning.  Operands come
from left to right and bounds before bodies; the first failure ends the walk.

The scope says what the parameter and the indices mean.  The rest is said by an *algebra*.  It is given
the two bounds of a summation, already interpreted, and decides itself at which values of the index the
body is interpreted.
-/

namespace ClosedForm

/-- What the constants and the combinations of an expression mean. -/
structure Algebra (m : Type → Type) (α : Type) where
  constant : Int → m α
  add : α → α → m α
  mul : α → α → m α
  /-- A summation between two bounds.  Its body is given by what it means at a value of the index. -/
  sum : (lower upper : α) → (body : α → m α) → m α

namespace Expr

variable {m : Type → Type} {α : Type} [Monad m] [MonadExceptOf Error m]

/-- The meaning of an expression in a scope. -/
@[specialize alg]
def interpret (alg : Algebra m α) : Expr → Scope α → m α
  | hole, _ => throw (.sentinel .nullExpression)
  | param, scope => return scope.parameter
  | index name, scope => liftExcept (scope.index name)
  | const v, _ => alg.constant v
  | add a b, scope => do
    let x ← interpret alg a scope
    let y ← interpret alg b scope
    alg.add x y
  | mul a b, scope => do
    let x ← interpret alg a scope
    let y ← interpret alg b scope
    alg.mul x y
  | sum lower upper name body, scope => do
    let x ← interpret alg lower scope
    let y ← interpret alg upper scope
    alg.sum x y fun k => interpret alg body (scope.bind name k)

end Expr
end ClosedForm
