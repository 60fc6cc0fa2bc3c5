import ClosedForm.Binary64.Shortest
import ClosedForm.Document.Kind
import ClosedForm.Document.Pointer
import ClosedForm.Text.Decimal
import ClosedForm.Text.Raw

/-!
# Failures

Everything that can go wrong while an expression is read, evaluated, simplified or checked.

An error is a tree.  Its leaves are causes: a *sentinel*, which callers test for, or a *fault*,
which they only show.  Around a cause stand *settings*, each saying where the cause arose, and a
check gathers several errors into one.  The wording is in one place, `Error.message`; everything
else works on the tree, so a question such as "does this wrap the term limit" never reads text.

Errors here are values.  Where they are held in memory, settings and gathering belong to two libraries.
`Library.Documented` says what is assumed of these, and for every library of which it is true, what is
held reads as such a value and answers as it does, unless it has been put into itself.
-/

namespace ClosedForm

/-! ## Causes -/

/-- The failures that callers tell apart. -/
inductive Sentinel
  | divisionByZero
  | unboundIndex
  | nullExpression
  | notIntegral
  | degreeLimit
  | termLimit
  | rangeLimit
deriving DecidableEq

namespace Sentinel

/-- All sentinels, in the order in which an error is classified by them. -/
def all : List Sentinel :=
  [divisionByZero, unboundIndex, nullExpression, notIntegral, degreeLimit, termLimit, rangeLimit]

/-- The text of a sentinel. -/
def message : Sentinel → String
  | divisionByZero => "division by zero"
  | unboundIndex => "unbound index"
  | nullExpression => "null expression"
  | notIntegral => "value is not an integer"
  | degreeLimit => "degree limit exceeded"
  | termLimit => "summation term limit exceeded"
  | rangeLimit => "check range limit exceeded"

end Sentinel

/-- The failures that are only shown. -/
inductive Fault
  /-- No value was given for the parameter. -/
  | noParameter
  /-- No polynomial was given to check. -/
  | noPolynomial
  /-- A polynomial and an expression have different values at a point. -/
  | disagreement (point polynomial expression : Int)
  /-- An expression document is no object. -/
  | notAnExpression
  /-- An expression object does not say its type. -/
  | noType
  /-- The type of an expression object is no text, or empty. -/
  | typeNotText
  /-- The type of an expression object is not one of the six. -/
  | unknownType (type : String)
  /-- An expression object lacks a field of its type. -/
  | noField (type field : String)
  /-- A field that holds an expression is no object. -/
  | fieldNotObject (type field : String)
  /-- A field that holds a name is no text, or empty. -/
  | fieldNotText (type field : String)
  /-- A constant without a value. -/
  | noValue
  /-- A text that is no decimal integer. -/
  | notDecimal (text : RawText)
  /-- A double that is not whole. -/
  | notWhole (value : Binary64)
  /-- A double so large that neighbouring integers share it. -/
  | notExact (value : Binary64)
  /-- A value of a kind that holds no integer. -/
  | notNumeric (kind : Kind)
  /-- A polynomial document is no object. -/
  | notAPolynomial
  /-- The coefficients of a polynomial document are no array. -/
  | coefficientsNotArray
  /-- A mapping key that is no text, as shown. -/
  | keyNotText (shown : String)
  /-- A document whose top level is no mapping. -/
  | notAMapping (kind : Kind)
  /-- A value stands where another type is decoded, in a document that is decoded as `root`. -/
  | mismatch (found root : String) (pointer : Pointer) (wanted : String)
  /-- A request has a field that is not known. -/
  | unknownField (name : String)
  /-- A request is larger than the server reads. -/
  | bodyTooLarge
  /-- A request goes on after its value. -/
  | trailingData
  /-- A tool parameter is missing. -/
  | noToolParameter (key : String)
  /-- A tool parameter is no object. -/
  | toolParameterNotObject (key : String)
  /-- A tool parameter is no array. -/
  | toolParameterNotArray (key : String)
  /-- A tool parameter does not fit in 64 bits. -/
  | toolParameterOutOfRange (key : String)
  /-- No tool has this name. -/
  | unknownTool (name : String)
  /-- An action on a file failed. -/
  | file (action path reason : String)
  /-- A failure that is known by its text only. -/
  | stated (text : String)
deriving DecidableEq

/-- The text of a fault. -/
def Fault.message : Fault → String
  | noParameter => "parameter value is nil"
  | noPolynomial => "polynomial is nil"
  | disagreement n p e =>
    "at " ++ Text.integer n ++ ": polynomial gives " ++ Text.integer p ++
      ", expression gives " ++ Text.integer e
  | notAnExpression => "expression must be an object"
  | noType => "missing 'type' field"
  | typeNotText => "field 'type' must be a non-empty string"
  | unknownType type => "unknown expression type: " ++ type
  | noField type field => type ++ ": missing " ++ Text.quote field
  | fieldNotObject type field => type ++ ": " ++ Text.quote field ++ " must be an object"
  | fieldNotText type field => type ++ ": " ++ Text.quote field ++ " must be a non-empty string"
  | noValue => "const: missing 'value'"
  | notDecimal text => "invalid integer: " ++ text.quote
  | notWhole value => "not an integer: " ++ value.toText Binary64.messageLayout
  | notExact value =>
    "number " ++ value.toText Binary64.messageLayout ++ " is too large to be exact, use a string"
  | notNumeric kind => "invalid integer of type " ++ kind.typeName
  | notAPolynomial => "polynomial must be an object"
  | coefficientsNotArray => "'coefficients' must be an array"
  | keyNotText shown => "mapping key " ++ shown ++ " is not a string"
  | notAMapping kind => "document must be a mapping, got " ++ kind.typeName
  | mismatch found root pointer wanted =>
    "json: cannot unmarshal " ++ found ++ " into " ++
      (if pointer.isEmpty || (root == "" && pointer.toText == "") then "Go value"
      else (if pointer.endsInNumber then "" else "Go struct field ") ++ root ++ "." ++
        pointer.toText) ++
      " of type " ++ wanted
  | unknownField name => "json: unknown field " ++ Text.quote name
  | bodyTooLarge => "http: request body too large"
  | trailingData => "invalid JSON: trailing data"
  | noToolParameter key => "missing param: " ++ key
  | toolParameterNotObject key => "invalid type for param " ++ key
  | toolParameterNotArray key => "param " ++ key ++ " must be array"
  | toolParameterOutOfRange key => "param " ++ key ++ " is out of range"
  | unknownTool name => "unknown tool: " ++ name
  | file action path reason => action ++ " " ++ path ++ ": " ++ reason
  | stated text => text

/-! ## Settings -/

/-- Where a cause arose. -/
inductive Setting
  /-- At the index of this name. -/
  | atIndex (name : RawText)
  /-- In the summation over this range. -/
  | inSummation (lower upper : Int)
  /-- While weights were added. -/
  | overflow
  /-- While the degree was estimated. -/
  | estimating
  /-- At an estimate above its limit. -/
  | aboveLimit (estimate limit : Int)
  /-- While the sample at this point was taken. -/
  | sampling (point : Int)
  /-- While the expression was checked at this point. -/
  | expressionAt (point : Int)
  /-- While the polynomial was checked at this point. -/
  | polynomialAt (point : Int)
  /-- In this field of an expression object of this type. -/
  | inField (type field : String)
  /-- In a constant. -/
  | inConstant
  /-- In the divider of a polynomial document. -/
  | inDivider
  /-- In a coefficient of a polynomial document. -/
  | inCoefficient (position : Nat)
  /-- In a tool parameter. -/
  | inToolParameter (key : String)
  /-- In an item of a tool parameter. -/
  | inToolItem (key : String) (position : Nat)
  /-- At more values than a limit on the degree allows. -/
  | tooManyValues (count : Nat) (degree limit : Int)
  /-- At a check of more points than a limit allows. -/
  | tooManyPoints (lower upper limit : Int)
  /-- While this file was read. -/
  | reading (path : String)
  /-- While this file was decoded. -/
  | decoding (path : String)
  /-- In the expression given on the command line. -/
  | inline
  /-- Where this text says. -/
  | noted (text : String)
deriving DecidableEq

/-- The text of a setting. -/
def Setting.message : Setting → String
  | atIndex name => "index " ++ name.quote
  | inSummation a b => "summation over " ++ Text.integer a ++ ".." ++ Text.integer b
  | overflow => "degree estimate overflows"
  | estimating => "degree estimate failed"
  | aboveLimit d limit => "estimate " ++ Text.integer d ++ " is above " ++ Text.integer limit
  | sampling n => "evaluation at " ++ Text.integer n ++ " failed"
  | expressionAt n => "expression at " ++ Text.integer n
  | polynomialAt n => "polynomial at " ++ Text.integer n
  | inField type field => type ++ ": " ++ field
  | inConstant => "const"
  | inDivider => "divider"
  | inCoefficient i => "coefficients[" ++ Text.integer i ++ "]"
  | inToolParameter key => "param " ++ key
  | inToolItem key i => "param " ++ key ++ "[" ++ Text.integer i ++ "]"
  | tooManyValues count d limit =>
    Text.integer count ++ " values is degree " ++ Text.integer d ++ ", above " ++
      Text.integer limit
  | tooManyPoints a b limit =>
    Text.integer a ++ ".." ++ Text.integer b ++ " is more than " ++ Text.integer limit ++ " points"
  | reading path => "can't read " ++ path
  | decoding path => "can't decode " ++ path
  | inline => "invalid --expr"
  | noted text => text

/-! ## Errors -/

/-- A format that a text can fail to have. -/
inductive Format
  | json
  | yaml
deriving DecidableEq

/-- An error. -/
inductive Error
  /-- A failure that callers tell apart. -/
  | sentinel (which : Sentinel)
  /-- A failure that is only shown. -/
  | fault (which : Fault)
  /-- A text that does not have its format. -/
  | malformed (format : Format)
  /-- An error and where it arose. -/
  | within (setting : Setting) (cause : Error)
  /-- Several errors, in the order in which they arose. -/
  | several (parts : List Error)

namespace Error

mutual

/-- The text of an error: settings stand before their cause, and several errors are listed one a
line under their number. -/
def message : Error → String
  | sentinel s => s.message
  | fault f => f.message
  | malformed .json => "malformed JSON text"
  | malformed .yaml => "malformed YAML text"
  | within setting cause => setting.message ++ ": " ++ message cause
  | several parts =>
    (if parts.length = 1 then "1 error" else Text.integer parts.length ++ " errors") ++
      " occurred:\n\t" ++ "\n\t".intercalate (bullets parts) ++ "\n\n"

/-- The listed texts of several errors. -/
def bullets : List Error → List String
  | [] => []
  | e :: es => ("* " ++ message e) :: bullets es

end

mutual

/-- Whether a leaf of the error satisfies a test: the cause inside of every setting is asked, and every
one of several errors. -/
def has (test : Error → Bool) : Error → Bool
  | within _ cause => has test cause
  | several parts => hasAny test parts
  | leaf => test leaf

/-- Whether a leaf of one of the errors satisfies a test. -/
def hasAny (test : Error → Bool) : List Error → Bool
  | [] => false
  | e :: es => has test e || hasAny test es

end

/-- Whether an error wraps a sentinel, at any depth and in any part. -/
def wraps (s : Sentinel) : Error → Bool :=
  has fun
    | sentinel t => s == t
    | _ => false

/-- Whether an error is, at any depth and in any part, that a text does not have a format. -/
def isMalformed (format : Format) : Error → Bool :=
  has fun
    | malformed f => format == f
    | _ => false

/-- What an error is classified as. -/
inductive Class
  | sentinel (which : Sentinel)
  | malformed (format : Format)
  | other
deriving DecidableEq

/-- The class of an error: the first sentinel it wraps, else the format a text of it lacks. -/
def classify (e : Error) : Class :=
  match Sentinel.all.find? (wraps · e) with
  | some s => .sentinel s
  | none =>
    if isMalformed .json e then .malformed .json
    else if isMalformed .yaml e then .malformed .yaml
    else .other

end Error

/-! ## Gathering errors

No error is `none`, so that a check can start from nothing and add what it finds. -/

/-- The outcome of a check: nothing, or an error. -/
abbrev Outcome := Option Error

namespace Outcome

/-- The parts of an outcome: none, the members of several errors, or the one error. -/
def parts : Outcome → List Error
  | none => []
  | some (.several es) => es
  | some e => [e]

/-- The outcome with the given parts: one error stands alone, and several are gathered. -/
def ofParts : List Error → Outcome
  | [] => none
  | [e] => some e
  | es => some (.several es)

/-- Adds an error to an outcome, as values: the parts of either side stand side by side in the result,
and a side that is nothing leaves the other unchanged.  Errors that are held in memory change when
others are added to them; see `Library.append`. -/
def append (a b : Outcome) : Outcome :=
  match a, b with
  | none, b => b
  | a, none => a
  | a, b => some (.several (a.parts ++ b.parts))

/-- Says where an outcome arose.  Nothing stays nothing. -/
def within (setting : Setting) (o : Outcome) : Outcome := o.map (Error.within setting)

/-- The text of an outcome, empty when it is nothing. -/
def message (o : Outcome) : String := (o.map Error.message).getD ""

end Outcome
end ClosedForm
