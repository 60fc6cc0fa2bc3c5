import ClosedForm.Expr.Degree
import ClosedForm.Expr.Eval
import ClosedForm.Poly.Interpolation
import ClosedForm.Poly.Text
import ClosedForm.Text.Blank

/-!
# Closed forms

The closed form of an expression is found by sampling: the expression is evaluated at 0, 1, …, d,
where d is its degree estimate, and the polynomial through these values is put in lowest terms.

A simplification can report what it does.  The report is part of the result, also of a failed
simplification, which reports what came before the failure.
-/

namespace ClosedForm

/-- The estimate above which nothing is sampled, whatever the configured limit. -/
def maxSampleDegree : Int64 := 1048576

/-- The limits of a simplification; a limit that is not positive is none. -/
structure Simplifier where
  /-- The largest degree estimate that is sampled. -/
  maxDegree : Int64 := 0
  /-- The most summation terms one sample may add up. -/
  maxTerms : Int64 := 0

/-- A step of a simplification, as its report tells it. -/
inductive Step
  | expression (e : Expr)
  | estimate (degree : Weight)
  | samples (values : List Int)
  | result (p : Poly)

/-- The text of an expression, cut to a length that fits a line. -/
def Expr.describe (e : Expr) : String :=
  let cs := e.toText.toList
  if 120 < cs.length then String.ofList (Text.trimBlank (cs.take 117)) ++ "..."
  else String.ofList cs

/-- The line that reports a step. -/
def Step.line : Step → String
  | expression e => "simplify: expression: " ++ e.describe
  | estimate d => "simplify: degree estimate: " ++ Text.integer d.toInt
  | samples vs => "simplify: samples: [" ++ " ".intercalate (vs.map Text.integer) ++ "]"
  | result p => "simplify: result: " ++ p.render Poly.unicode

namespace Simplifier

/-- The largest estimate that is sampled. -/
def degreeLimit (s : Simplifier) : Int64 :=
  if s.maxDegree ≤ 0 || maxSampleDegree < s.maxDegree then maxSampleDegree else s.maxDegree

/-- The values of an expression at `i`, `i + 1`, … for `count` points; the first failure ends the
sampling. -/
def sampleFrom (s : Simplifier) (e : Expr) : (count i : Nat) → Except Error (List Int)
  | 0, _ => .ok []
  | count + 1, i =>
    match e.evaluateWithin i s.maxTerms with
    | .error err => .error (.within (.sampling i) err)
    | .ok v => do return v :: (← sampleFrom s e count (i + 1))

/-- The values of an expression at 0, 1, …, `d`. -/
def samples (s : Simplifier) (e : Expr) (d : Weight) : Except Error (List Int) :=
  s.sampleFrom e (d.toNatClampNeg + 1) 0

/-- The degree estimate of an expression that is to be sampled. -/
def estimate (e : Expr) : Except Error Weight :=
  match e with
  | .hole => .error (.sentinel .nullExpression)
  | e =>
    match e.degree with
    | .error err => .error (.within .estimating err)
    | .ok d => .ok d

/-- Refuses an estimate above the limit. -/
def allowDegree (s : Simplifier) (d : Weight) : Except Error Unit :=
  if d < 0 || s.degreeLimit < d then
    .error (.within (.aboveLimit d.toInt s.degreeLimit.toInt) (.sentinel .degreeLimit))
  else .ok ()

/-- The polynomial through samples, in lowest terms. -/
def closedForm (values : List Int) : Poly := (Poly.interpolate values).reduced

/-- The closed form of an expression. -/
def simplify (s : Simplifier) (e : Expr) : Except Error Poly := do
  let d ← estimate e
  s.allowDegree d
  return closedForm (← s.samples e d)

/-- The closed form of an expression, with the report of the steps that were taken. -/
def simplifyReporting (s : Simplifier) (e : Expr) : List Step × Except Error Poly :=
  match estimate e with
  | .error err => ([], .error err)
  | .ok d =>
    let opening := [Step.expression e, Step.estimate d]
    match s.allowDegree d >>= fun _ => s.samples e d with
    | .error err => (opening, .error err)
    | .ok values =>
      let p := closedForm values
      (opening ++ [.samples values, .result p], .ok p)

end Simplifier
end ClosedForm
