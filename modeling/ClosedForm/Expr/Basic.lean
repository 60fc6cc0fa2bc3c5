import ClosedForm.Misuse
import ClosedForm.Text.Decimal
import ClosedForm.Text.Raw

/-!
# Expressions

An expression over one parameter `x`: integers, sums, products, and bounded summations, each of
which introduces an index for its body.  A child that was never given is a *hole*; every
interpretation refuses it, and only the text and the document of an expression show it.

This module has the type, the constructors that take any number of operands, the constructor that
gives summations fresh index names, and the text of an expression.
-/

namespace ClosedForm

/-- An expression over the parameter `x`. -/
inductive Expr
  /-- No expression was given here. -/
  | hole
  /-- The parameter. -/
  | param
  /-- The index of the innermost enclosing summation of that name. -/
  | index (name : RawText)
  /-- An integer. -/
  | const (value : Int)
  /-- A sum of two. -/
  | add (left right : Expr)
  /-- A product of two. -/
  | mul (left right : Expr)
  /-- The sum of `body` over `name = lower, lower + 1, …, upper`.  The bounds stand outside the
  scope of the index. -/
  | sum (lower upper : Expr) (name : RawText) (body : Expr)
deriving DecidableEq

namespace Expr

/-! ## Building expressions -/

/-- The sum of any number of terms, grouped from the left.  No terms give 0. -/
def addAll : List Expr → Expr
  | [] => const 0
  | e :: es => es.foldl add e

/-- The product of any number of factors, grouped from the left.  No factors give 1. -/
def mulAll : List Expr → Expr
  | [] => const 1
  | e :: es => es.foldl mul e

/-- The negative of an expression, as a product with -1. -/
def neg (e : Expr) : Expr := mulAll [const (-1), e]

/-- A difference, as a sum with a negative. -/
def sub (a b : Expr) : Expr := addAll [a, neg b]

/-- The name of the index given to the `n`-th summation. -/
def indexName (n : UInt64) : String := "i" ++ Text.integer n.toNat

/-- An index name that no earlier summation was given.  The state is the number of summations built
so far. -/
def freshName {m : Type → Type} [Monad m] [MonadStateOf UInt64 m] : m String :=
  modifyGet fun n => (indexName (n + 1), n + 1)

/-- Builds a summation over a fresh index.  The name is taken first; then the body is built, once,
with the new index, and may build summations of its own. -/
def summation {m : Type → Type} [Monad m] [MonadStateOf UInt64 m] (lower upper : Expr)
    (body : Expr → m Expr) : m Expr := do
  let name ← freshName
  return sum lower upper name (← body (index name))

/-- Builds a summation whose body builder may be missing, which is a misuse. -/
def summation? {m : Type → Type} [Monad m] [MonadStateOf UInt64 m] (lower upper : Expr)
    (body : Option (Expr → m Expr)) : m (Except Misuse Expr) :=
  match body with
  | none => return .error .noBody
  | some body => return .ok (← summation lower upper body)

/-! ## Views -/

/-- The names of all summation indices, each summation before what it contains, and its bounds
before its body. -/
def indices : Expr → List RawText
  | add a b => indices a ++ indices b
  | mul a b => indices a ++ indices b
  | sum lower upper name body => name :: (indices lower ++ indices upper ++ indices body)
  | _ => []

/-- Whether an expression is a sum of two, which a product sets in parentheses. -/
def isAdd : Expr → Bool
  | add _ _ => true
  | _ => false

/-- The text of an expression. -/
def toText : Expr → String
  | hole => "<nil>"
  | param => "x"
  | index name => name.shown
  | const v => Text.integer v
  | add a b => toText a ++ " + " ++ toText b
  | mul a b => factor a (toText a) ++ " * " ++ factor b (toText b)
  | sum lower upper name body =>
    "Σ(" ++ name.shown ++ "=" ++ toText lower ++ ".." ++ toText upper ++ ")(" ++ toText body ++ ")"
where
  /-- The text of a factor: sums stand in parentheses. -/
  factor (e : Expr) (text : String) : String := if e.isAdd then "(" ++ text ++ ")" else text

end Expr
end ClosedForm
