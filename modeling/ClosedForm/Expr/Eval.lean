import ClosedForm.Expr.Interpretation
import ClosedForm.Noting

/-!
# Evaluation

The exact integer value of an expression at a value of its parameter.

Operands are evaluated from left to right and bounds before bodies; the first failure ends the
evaluation.  A summation whose lower bound is above its upper bound is 0, whatever its body.

An evaluation can be given a *budget* of summation terms.  Every summation that is not empty takes
its whole length from the budget before its first term is evaluated, and an evaluation whose
budget does not suffice fails with the term limit.  The budget is handed from each part of the
evaluation to the next, so all summations of one evaluation draw on the same budget.
-/

namespace ClosedForm

/-- The summation terms that an evaluation may still add up; `none` is without limit. -/
abbrev Budget := Option Nat

namespace Budget

/-- A limit as it is configured: only a positive one limits. -/
def ofLimit (limit : Int64) : Budget := if 0 < limit then some limit.toNatClampNeg else none

/-- Takes `length` terms from a budget, if it has them. -/
def take (budget : Budget) (length : Nat) : Option Budget :=
  match budget with
  | none => some none
  | some left => if length ≤ left then some (some (left - length)) else none

end Budget

/-- What runs: it draws on a budget, and can fail. -/
abbrev Evaluation := StateT Budget (Except Error)

namespace Expr

section Values

variable {m : Type → Type} [Monad m]

/-- Adds up `count` terms from `k` on, onto `total`.  Every term is noted when it is started. -/
@[specialize]
def addUp [Noting Int m] (term : Int → m Int) : (count : Nat) → (k total : Int) → m Int
  | 0, _, total => return total
  | count + 1, k, total => do
    note k
    let value ← term k
    addUp term count (k + 1) (total + value)

/-- Exact values, with the budget as the state.  A summation takes its length from the budget and
then adds up its terms. -/
@[inline]
def values [MonadExceptOf Error m] [MonadStateOf Budget m] [Noting Int m] : Algebra m Int where
  constant v := return v
  add x y := return x + y
  mul x y := return x * y
  sum lower upper body :=
    if upper < lower then return 0
    else do
      let length := (upper - lower + 1).toNat
      match (← get).take length with
      | none => throw (.within (.inSummation lower upper) (.sentinel .termLimit))
      | some budget =>
        set budget
        addUp body length lower 0

end Values

/-- The value of an expression in a scope, and what it leaves of a budget. -/
def evalIn (e : Expr) (scope : Scope Int) (budget : Budget) : Except Error (Int × Budget) :=
  (interpret values e scope : Evaluation Int).run budget

/-- The value of an expression in a scope, without limit. -/
def value (e : Expr) (scope : Scope Int) : Except Error Int := do
  return (← evalIn e scope none).1

/-- The value of an expression at `n`, under a limit on the summation terms; a limit that is not
positive is none. -/
def evaluateWithin (e : Expr) (n : Int) (limit : Int64) : Except Error Int := do
  return (← evalIn e (Scope.root n) (Budget.ofLimit limit)).1

/-- The value of an expression at `n`. -/
def evaluate (e : Expr) (n : Int) : Except Error Int := e.value (Scope.root n)

/-- The value of an expression at a point that may be missing. -/
def evaluateAt? (e : Expr) : Option Int → Except Error Int
  | none => .error (.fault .noParameter)
  | some n => e.evaluate n

end Expr
end ClosedForm
