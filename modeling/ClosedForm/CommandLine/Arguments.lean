import ClosedForm.Text.Literal
import ClosedForm.Text.Quoted

/-!
# Command line arguments

A program describes its options; this module reads arguments by the description.

An option begins with any number of dashes.  Its value stands after an equals sign or in the next
argument; a switch has no value except after an equals sign.  Two dashes alone make everything
after them positional, and are themselves no argument, wherever they stand.  An argument that looks
like an option is no value, unless the option takes a number and the argument is one.  A request
for help counts before every mistake.
-/

namespace ClosedForm
namespace CommandLine

/-! ## Options and their values -/

/-- What an option takes. -/
inductive OptionKind
  | switch
  | number
  | text
deriving DecidableEq

/-- An option of a program. -/
structure OptionSpec where
  name : String
  kind : OptionKind

/-- What an option has been set to. -/
inductive OptionValue
  | switch (on : Bool)
  | number (n : Int64)
  | text (s : String)

/-- What a command line says: the settings in the order in which they were made, and the positional
arguments. -/
structure Arguments where
  settings : List (String × OptionValue)
  positionals : List String

/-- A mistake in a command line. -/
inductive Mistake
  /-- There is no such option. -/
  | unknown (arg : String)
  /-- An option lacks its value. -/
  | missingValue (arg : String)
  /-- A value is no number. -/
  | notNumber (arg value : String) (fault : Text.LiteralFault)
  /-- A value is no truth value. -/
  | notSwitch (arg value : String)
  /-- There are more positional arguments than places for them. -/
  | surplus (arg : String)
deriving DecidableEq

/-- The text of a mistake. -/
def Mistake.message : Mistake → String
  | unknown arg => "unknown argument " ++ arg
  | missingValue arg => "missing value for " ++ arg
  | notNumber arg value fault =>
    "error processing " ++ arg ++ ": strconv.ParseInt: parsing " ++ Text.quote value ++ ": " ++
      (match fault with
        | .invalidSyntax => "invalid syntax"
        | .outOfRange => "value out of range")
  | notSwitch arg value =>
    "error processing " ++ arg ++ ": strconv.ParseBool: parsing " ++ Text.quote value ++
      ": invalid syntax"
  | surplus arg => "too many positional arguments at '" ++ arg ++ "'"

/-- What a command line asks for. -/
inductive Reading
  | help
  | mistake (m : Mistake)
  | run (args : Arguments)

/-! ## Reading -/

/-- Whether an argument looks like an option: it begins with a dash and is more than dashes. -/
def isFlag (arg : String) : Bool :=
  arg.toList.head? == some '-' && arg.toList.any (· != '-')

/-- Whether an argument asks for help. -/
def isHelp (arg : String) : Bool := arg == "-h" || arg == "--help"

/-- Whether an argument is two dashes alone. -/
def isSeparator (arg : String) : Bool := arg == "--"

/-- The name and the value of an option: what stands after the dashes, before and after the first
equals sign. -/
def splitOption (arg : String) : String × String :=
  let cs := arg.toList.dropWhile (· == '-')
  (String.ofList (cs.takeWhile (· != '=')), String.ofList ((cs.dropWhile (· != '=')).drop 1))

/-- The truth value that a text spells. -/
def truth? (s : String) : Option Bool :=
  if s ∈ ["1", "t", "T", "TRUE", "true", "True"] then some true
  else if s ∈ ["0", "f", "F", "FALSE", "false", "False"] then some false
  else none

/-- What a value sets an option to. -/
def OptionSpec.set (spec : OptionSpec) (arg value : String) : Except Mistake OptionValue :=
  match spec.kind with
  | .text => .ok (.text value)
  | .number =>
    match Text.int64Literal value.toList with
    | .ok n => .ok (.number n)
    | .error fault => .error (.notNumber arg value fault)
  | .switch =>
    match truth? value with
    | some b => .ok (.switch b)
    | none => .error (.notSwitch arg value)

/-- Whether the next argument can be the value of an option. -/
def OptionSpec.takes (spec : OptionSpec) (next : String) : Bool :=
  !isFlag next || (spec.kind == .number && (Text.int64Literal next.toList).toOption.isSome)

/-- Reads arguments from the first on. -/
def scan (specs : List OptionSpec) : List String → Arguments → Reading
  | [], args => .run args
  | arg :: rest, args =>
    if isSeparator arg then
      .run { args with positionals := args.positionals ++ rest.filter (!isSeparator ·) }
    else if !isFlag arg then
      scan specs rest { args with positionals := args.positionals ++ [arg] }
    else if isHelp arg then .help
    else
      let (name, value) := splitOption arg
      match specs.find? (·.name == name) with
      | none => .mistake (.unknown arg)
      | some spec =>
        let value := if spec.kind == .switch && value == "" then "true" else value
        let add (setting : OptionValue) : Arguments :=
          { args with settings := args.settings ++ [(name, setting)] }
        if value != "" then
          match spec.set arg value with
          | .ok setting => scan specs rest (add setting)
          | .error m => .mistake m
        else
          match rest with
          | [] => .mistake (.missingValue arg)
          | next :: rest =>
            if spec.takes next then
              match spec.set arg next with
              | .ok setting => scan specs rest (add setting)
              | .error m => .mistake m
            else .mistake (.missingValue arg)

/-- Reads a command line by a program's options and the number of its positional arguments. -/
def read (specs : List OptionSpec) (places : Nat) (args : List String) : Reading :=
  let reading : Reading :=
    match scan specs args ⟨[], []⟩ with
    | .run found =>
      match found.positionals.drop places with
      | [] => .run found
      | arg :: _ => .mistake (.surplus arg)
    | other => other
  match reading with
  | .mistake m => if (args.takeWhile (!isSeparator ·)).any isHelp then .help else .mistake m
  | other => other

/-! ## Settings -/

namespace Arguments

/-- What an option was last set to. -/
def last? (a : Arguments) (name : String) : Option OptionValue := a.settings.reverse.lookup name

/-- Whether a switch is on. -/
def switch (a : Arguments) (name : String) : Bool :=
  match a.last? name with
  | some (.switch b) => b
  | _ => false

/-- The number an option is set to, or its default. -/
def number (a : Arguments) (name : String) (default : Int64) : Int64 :=
  match a.last? name with
  | some (.number n) => n
  | _ => default

/-- The text an option is set to, or none at all. -/
def text (a : Arguments) (name : String) : String :=
  match a.last? name with
  | some (.text s) => s
  | _ => ""

/-- The first positional argument, or none at all. -/
def positional (a : Arguments) : String := a.positionals.head?.getD ""

end Arguments
end CommandLine
end ClosedForm
