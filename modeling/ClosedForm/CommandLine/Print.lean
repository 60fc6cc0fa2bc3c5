import ClosedForm.Check
import ClosedForm.CommandLine.Arguments
import ClosedForm.Files
import ClosedForm.Simplify

/-!
# The command that prints closed forms

The command reads an expression from a file or from its arguments, prints its closed form, and
checks it on request.  A run is a value: what was written to either stream, and the failure that
ended it.
-/

namespace ClosedForm
namespace CommandLine

/-! ## Options -/

/-- The options of the command. -/
def printOptions : List OptionSpec := [⟨"expr", .text⟩, ⟨"ascii", .switch⟩, ⟨"latex", .switch⟩,
  ⟨"check", .number⟩, ⟨"max-degree", .number⟩, ⟨"dump", .switch⟩, ⟨"debug", .switch⟩]

/-- The line that shows how the command is called. -/
def printUsage : String :=
  "Usage: gosigma [--expr EXPR] [--ascii] [--latex] [--check CHECK] [--max-degree MAX-DEGREE] " ++
    "[--dump] [--debug] [FILE]\n"

/-- The help of the command. -/
def printHelp : String :=
  "gosigma rewrites a nested summation over x as an exact polynomial in x.\n\n" ++
  printUsage ++ "\n" ++
  "Positional arguments:\n" ++
  "  FILE                   expression document (.json, .yaml or .yml)\n\n" ++
  "Options:\n" ++
  "  --expr EXPR            inline JSON expression, instead of a file\n" ++
  "  --ascii                render exponents as ^n\n" ++
  "  --latex                also print the LaTeX form\n" ++
  "  --check CHECK          verify the result at x = 0..N [default: -1]\n" ++
  "  --max-degree MAX-DEGREE\n" ++
  "                         refuse expressions whose degree estimate is larger\n" ++
  "  --dump                 dump the decoded expression tree\n" ++
  "  --debug                log the sampling steps\n" ++
  "  --help, -h             display this help and exit\n"

/-! ## Runs -/

/-- Why a run failed. -/
inductive Failure
  | arguments (m : Mistake)
  /-- Both a file and an inline expression were given. -/
  | twoExpressions
  /-- Neither a file nor an inline expression was given. -/
  | noExpression
  /-- The closed form is wrong somewhere up to this point. -/
  | checkFailed (upTo : Int)
  /-- The server cannot listen on this port. -/
  | invalidPort (port : Int)
  | error (e : Error)

/-- The text of a failure. -/
def Failure.message : Failure → String
  | arguments m => m.message
  | twoExpressions => "pass either a file or --expr, not both"
  | noExpression => "no expression given"
  | checkFailed n => "check failed on x = 0.." ++ Text.integer n
  | invalidPort port => "listen tcp: address " ++ Text.integer port ++ ": invalid port"
  | error e => e.message

/-- The class of a failure. -/
def Failure.classify : Failure → Error.Class
  | error e => e.classify
  | _ => .other

/-- What a run has written, and how it ended. -/
structure Run where
  stdout : String := ""
  stderr : String := ""
  failure : Option Failure := none

/-- How text is emphasised. -/
structure Style where
  bold : String → String
  greenLine : String → String
  redLine : String → String

/-- No emphasis. -/
def Style.none : Style := ⟨id, (· ++ "\n"), (· ++ "\n")⟩

/-- The escape sequences of a colour terminal. -/
def Style.terminal : Style :=
  ⟨fun s => "\x1b[1m" ++ s ++ "\x1b[22m", fun s => "\x1b[32m" ++ s ++ "\n\x1b[0m",
    fun s => "\x1b[31m" ++ s ++ "\n\x1b[0m"⟩

/-! ## The command -/

/-- What the dump of an expression shows: the kind of its root. -/
def dump (e : Expr) : String :=
  let name := match e with
    | .hole => "nil"
    | .param => "Param"
    | .index _ => "Index"
    | .const _ => "Const"
    | .add _ _ => "Add"
    | .mul _ _ => "Mul"
    | .sum _ _ _ _ => "Sigma"
  "&gosigma." ++ name ++ "\x7b\x7d\n"

/-- The expression that the arguments give. -/
def expression (source : FileSource) (args : Arguments) : Except Failure Expr :=
  let inline := args.text "expr"
  let file := args.positional
  if inline != "" && file != "" then .error .twoExpressions
  else if inline != "" then (Expr.ofInlineJson inline).mapError .error
  else if file == "" then .error .noExpression
  else (Expr.ofFile source file).mapError .error

/-- What a check up to a point prints, and whether it failed. -/
def reportCheck (style : Style) (e : Expr) (p : Poly) (upTo : Int64) : String × Option Failure :=
  match checkWithin e p 0 upTo 0 with
  | none => (style.greenLine ("check passed on x = 0.." ++ Text.integer upTo.toInt), none)
  | some err =>
    (String.join ((Outcome.parts (some err)).map fun m => style.redLine ("mismatch: " ++ m.message)),
      some (.checkFailed upTo.toInt))

/-- Prints the closed form of an expression. -/
def printExpression (style : Style) (args : Arguments) (e : Expr) : Run :=
  let dumped := if args.switch "dump" then dump e else ""
  let simplifier : Simplifier := ⟨args.number "max-degree" 0, 0⟩
  let (steps, result) := simplifier.simplifyReporting e
  let log := if args.switch "debug" then String.join (steps.map (·.line ++ "\n")) else ""
  match result with
  | .error err => ⟨dumped, log, some (.error err)⟩
  | .ok p =>
    let script := if args.switch "ascii" then Poly.ascii else Poly.unicode
    let shown := e.toText ++ " = " ++ style.bold (p.render script) ++ "\n"
    let latex := if args.switch "latex" then p.render Poly.latex ++ "\n" else ""
    let upTo := args.number "check" (-1)
    let (checked, failure) := if upTo < 0 then ("", none) else reportCheck style e p upTo
    ⟨dumped ++ shown ++ latex ++ checked, log, failure⟩

/-- Runs the command on its arguments. -/
def print (style : Style) (source : FileSource) (args : List String) : Run :=
  match read printOptions 1 args with
  | .help => { stdout := printHelp }
  | .mistake m => { stderr := printUsage, failure := some (.arguments m) }
  | .run args =>
    match expression source args with
    | .error failure => { failure := some failure }
    | .ok e => printExpression style args e

end CommandLine
end ClosedForm
