import ClosedForm.Expr.Eval
import ClosedForm.Poly.Eval

/-!
# Checks

A check evaluates an expression and a polynomial at every integer of a range and gathers what is
wrong: a point where either cannot be evaluated, or where their values differ.  A point where the
expression exceeds the term limit ends the check.
-/

namespace ClosedForm

/-- What a check finds at one point. -/
inductive Finding
  | agrees
  | wrong (e : Error)
  /-- Wrong, and no further point is looked at. -/
  | aborts (e : Error)

/-- Compares an expression and a polynomial at `n`. -/
def checkAt (e : Expr) (p : Poly) (limit : Int64) (n : Int) : Finding :=
  match e.evaluateWithin n limit with
  | .error err =>
    let err' := Error.within (.expressionAt n) err
    if err.wraps .termLimit then .aborts err' else .wrong err'
  | .ok want =>
    match p.evaluate n with
    | .error err => .wrong (.within (.polynomialAt n) err)
    | .ok got =>
      if got = want then .agrees else .wrong (.fault (.disagreement n got want))

section Loop

variable {m : Type → Type} [Monad m] [Noting Int m] (e : Expr) (p : Poly) (limit : Int64)

/-- One turn of a check.  The point `n` is noted and looked at.  What is wrong there is appended to
what was found before, and the check goes on with `next` unless it ends here. -/
@[inline]
def lookAt {σ : Type} (append : σ → Error → σ) (n : Int) (found : σ) (next : σ → m σ) : m σ := do
  note n
  match checkAt e p limit n with
  | .agrees => next found
  | .wrong err => next (append found err)
  | .aborts err => return append found err

/-- What is wrong at `n`, `n + 1`, … for `count` points, onto what was found before.  The latest comes
first. -/
@[specialize]
def lookFrom : (count : Nat) → (n : Int) → List Error → m (List Error)
  | 0, _, found => return found
  | count + 1, n, found =>
    lookAt e p limit (fun found err => err :: found) n found (lookFrom count (n + 1))

/-- Compares an expression and a polynomial at every integer from `lower` to `upper`, under a limit
on the summation terms of each evaluation. -/
@[inline]
def checking (lower upper : Int64) : m Outcome :=
  match e with
  | .hole => return some (.sentinel .nullExpression)
  | e => do
    let points := (upper.toInt - lower.toInt + 1).toNat
    let found ← lookFrom e p limit points lower.toInt []
    return Outcome.ofParts found.reverse

end Loop

/-- `checking`, without notes. -/
def checkWithin (e : Expr) (p : Poly) (lower upper : Int64) (limit : Int64) : Outcome :=
  Id.run (checking e p limit lower upper)

/-- Compares an expression and a polynomial that may be missing, without limit. -/
def check (e : Expr) (p : Option Poly) (lower upper : Int64) : Outcome :=
  match e, p with
  | .hole, _ => some (.sentinel .nullExpression)
  | _, none => some (.fault .noPolynomial)
  | e, some p => checkWithin e p lower upper 0

end ClosedForm
