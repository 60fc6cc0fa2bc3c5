import ClosedForm.Expr.Interpretation
import ClosedForm.Noting

/-!
# Degree estimates

An upper bound on the degree of the polynomial that an expression computes.  The parameter weighs
1, a constant 0, a sum as much as its heavier side, a product as much as both sides together.  A
summation has as many terms as its heavier bound suggests; its index weighs that much, and its
weight is the weight of its body and that much again.

Weights are signed 64-bit words.  Two weights are added only if their sum is a word, so a weight
is never negative and never wraps; an estimate that is no word fails with the degree limit.
-/

namespace ClosedForm

/-- A degree weight, or an estimate of a degree. -/
abbrev Weight := Int64

namespace Weight

/-- What is computed on the way to an estimate, one word at a time. -/
inductive Operation
  | zero
  | larger (u v : Weight)
  /-- What a weight leaves to the largest word. -/
  | room (v : Weight)
  | total (u v : Weight)

/-- The word that an operation gives. -/
def Operation.word : Operation → Weight
  | zero => 0
  | larger u v => max u v
  | room v => Int64.maxValue - v
  | total u v => u + v

section Weights

variable {m : Type → Type} [Monad m] [Noting Operation m]

/-- Computes a word.  The operation is noted. -/
@[inline]
def compute (op : Operation) : m Weight := do
  note op
  return op.word

/-- Adds two weights, unless their sum is above the largest word. -/
@[inline]
def add [MonadExceptOf Error m] (a b : Weight) : m Weight := do
  if (← compute (.room b)) < a then throw (.within .overflow (.sentinel .degreeLimit))
  else compute (.total a b)

end Weights

end Weight

namespace Expr

/-- Degree weights.  A summation has at most as many terms as its heavier bound weighs. -/
@[inline]
def weights {m : Type → Type} [Monad m] [MonadExceptOf Error m] [Noting Weight.Operation m] :
    Algebra m Weight where
  constant _ := Weight.compute .zero
  add u v := Weight.compute (.larger u v)
  mul u v := Weight.add u v
  sum lower upper body := do
    let count ← Weight.compute (.larger lower upper)
    let w ← body count
    Weight.add w count

/-- The weight of an expression, with the weights of the indices in scope. -/
def weigh (e : Expr) (scope : Scope Weight) : Except Error Weight := interpret weights e scope

/-- The degree estimate of an expression. -/
def degree (e : Expr) : Except Error Weight := e.weigh (Scope.root 1)

end Expr
end ClosedForm
