import ClosedForm.Document.Basic

/-!
# Reading JSON

A reader that takes one character at a time.  Its stack holds the containers that are open around
the current place, and its state says what may come next, so the reader is one recursion over the
text: it needs no bound on the depth of a value, except the one it imposes, and it can stop as
soon as the first value is complete.

Numbers keep their spelling.  Of an object's fields later ones stand first, so that the last of
several with one name counts.  An escaped surrogate that has no partner reads as U+FFFD.
-/

namespace ClosedForm
namespace Json

/-! ## States -/

/-- A container whose next part is being read. -/
inductive Frame
  /-- An array with the items read so far, the latest first. -/
  | array (items : List Document)
  /-- An object with the fields read so far, the latest first, and the name of the next one. -/
  | object (fields : Fields) (name : String)

/-- The container around the current place, between two of its parts. -/
inductive Container
  | array (items : List Document)
  | object (fields : Fields)

/-- Where a number is. -/
inductive NumberState
  | minus
  | zero
  | digits
  | point
  | places
  | mark
  | sign
  | power
deriving DecidableEq

/-- Where a text is. -/
inductive TextState
  | plain
  | escape
  /-- In a hexadecimal escape, with the places still to read and the value so far. -/
  | hex (left code : Nat)

/-- What a text is for. -/
inductive Role
  | value
  /-- The name of the next field of an object with these fields. -/
  | name (fields : Fields)

/-- What may come next. -/
inductive State
  /-- A value. -/
  | value
  /-- The first item of an array, or its end. -/
  | firstItem
  /-- The first field of an object, or its end. -/
  | firstField
  /-- A further field of an object. -/
  | field (fields : Fields)
  /-- The colon after a field's name. -/
  | colon (fields : Fields) (name : String)
  /-- A comma, or the end of a container. -/
  | after (container : Container)
  /-- The rest of a text; its code units so far, the latest first. -/
  | text (role : Role) (units : List Nat) (state : TextState)
  /-- The rest of a number; its characters so far, the latest first. -/
  | number (chars : List Char) (state : NumberState)
  /-- The rest of a literal word. -/
  | word (rest : List Char) (value : Document)
  /-- Nothing: a value outside every container is complete. -/
  | finished (value : Document)

/-- A reader between two characters. -/
structure Reader where
  /-- The open containers, innermost first. -/
  stack : List Frame
  /-- Their number. -/
  depth : Nat
  state : State

/-- The deepest nesting that is read. -/
def maxDepth : Nat := 10000

/-- What one character does. -/
inductive Move
  /-- The reader goes on. -/
  | next (reader : Reader)
  /-- The character ends the outermost container. -/
  | close (value : Document)
  /-- The value was complete before the character. -/
  | before (value : Document)
  /-- The character cannot stand here. -/
  | refuse

/-! ## Characters -/

/-- The blanks of JSON. -/
def isSpace (c : Char) : Bool := c == ' ' || c == '\t' || c == '\n' || c == '\r'

/-- The character of a one-letter escape. -/
def shortEscape? : Char → Option Nat
  | '"' => some 0x22
  | '\\' => some 0x5c
  | '/' => some 0x2f
  | 'b' => some 0x08
  | 'f' => some 0x0c
  | 'n' => some 0x0a
  | 'r' => some 0x0d
  | 't' => some 0x09
  | _ => none

/-- Whether a code unit opens a surrogate pair. -/
def isHigh (u : Nat) : Bool := 0xd800 ≤ u && u ≤ 0xdbff

/-- Whether a code unit closes a surrogate pair. -/
def isLow (u : Nat) : Bool := 0xdc00 ≤ u && u ≤ 0xdfff

/-- The character of a code unit that is no part of a pair. -/
def unitChar (u : Nat) : Char := if isHigh u || isLow u then '\ufffd' else Char.ofNat u

/-- The characters of code units given latest first: a high surrogate and the low one right after
it are one character. -/
def joinUnits : List Nat → List Char → List Char
  | [], acc => acc
  | [u], acc => unitChar u :: acc
  | u :: v :: us, acc =>
    if isLow u && isHigh v then
      joinUnits us (Char.ofNat (0x10000 + (v - 0xd800) * 0x400 + (u - 0xdc00)) :: acc)
    else joinUnits (v :: us) (unitChar u :: acc)

/-- The text of code units given latest first. -/
def unitsText (units : List Nat) : String := String.ofList (joinUnits units [])

/-! ## Numbers -/

namespace NumberState

/-- Where a number is after a further character, if it can go on with it. -/
def step? (s : NumberState) (c : Char) : Option NumberState :=
  match s with
  | minus => if c == '0' then some zero else if c.isDigit then some digits else none
  | zero => if c == '.' then some point else if c == 'e' || c == 'E' then some mark else none
  | digits =>
    if c.isDigit then some digits
    else if c == '.' then some point
    else if c == 'e' || c == 'E' then some mark
    else none
  | point => if c.isDigit then some places else none
  | places =>
    if c.isDigit then some places else if c == 'e' || c == 'E' then some mark else none
  | mark =>
    if c == '+' || c == '-' then some sign else if c.isDigit then some power else none
  | sign => if c.isDigit then some power else none
  | power => if c.isDigit then some power else none

/-- Whether a number may end here. -/
def mayEnd : NumberState → Bool
  | zero => true
  | digits => true
  | places => true
  | power => true
  | _ => false

end NumberState

/-! ## Steps -/

/-- The reader after a complete value. -/
def accept (stack : List Frame) (depth : Nat) (value : Document) : Reader :=
  match stack with
  | [] => ⟨[], depth, .finished value⟩
  | .array items :: stack => ⟨stack, depth, .after (.array (value :: items))⟩
  | .object fields name :: stack => ⟨stack, depth, .after (.object ((name, value) :: fields))⟩

/-- The move at the end of a container. -/
def closeContainer (stack : List Frame) (depth : Nat) (value : Document) : Move :=
  match stack with
  | [] => .close value
  | stack => .next (accept stack (depth - 1) value)

/-- The move at the start of a container, unless it would be nested too deeply. -/
def openContainer (stack : List Frame) (depth : Nat) (state : State) : Move :=
  if depth < maxDepth then .next ⟨stack, depth + 1, state⟩ else .refuse

/-- The move at the first character of a value. -/
def startValue (stack : List Frame) (depth : Nat) (c : Char) : Move :=
  match c with
  | '[' => openContainer stack depth .firstItem
  | '\x7b' => openContainer stack depth .firstField
  | '"' => .next ⟨stack, depth, .text .value [] .plain⟩
  | '-' => .next ⟨stack, depth, .number ['-'] .minus⟩
  | '0' => .next ⟨stack, depth, .number ['0'] .zero⟩
  | 't' => .next ⟨stack, depth, .word ['r', 'u', 'e'] (.bool true)⟩
  | 'f' => .next ⟨stack, depth, .word ['a', 'l', 's', 'e'] (.bool false)⟩
  | 'n' => .next ⟨stack, depth, .word ['u', 'l', 'l'] .null⟩
  | c => if c.isDigit then .next ⟨stack, depth, .number [c] .digits⟩ else .refuse

/-- The move between two parts of a container. -/
def afterPart (stack : List Frame) (depth : Nat) (container : Container) (c : Char) : Move :=
  if isSpace c then .next ⟨stack, depth, .after container⟩
  else
    match container with
    | .array items =>
      if c == ',' then .next ⟨.array items :: stack, depth, .value⟩
      else if c == ']' then closeContainer stack depth (.array items.reverse)
      else .refuse
    | .object fields =>
      if c == ',' then .next ⟨stack, depth, .field fields⟩
      else if c == '\x7d' then closeContainer stack depth (.object fields)
      else .refuse

/-- The move inside a text. -/
def insideText (stack : List Frame) (depth : Nat) (role : Role) (units : List Nat)
    (state : TextState) (c : Char) : Move :=
  let goOn (units : List Nat) (state : TextState) : Move :=
    .next ⟨stack, depth, .text role units state⟩
  match state with
  | .plain =>
    if c == '"' then
      match role with
      | .value => .next (accept stack depth (.text (unitsText units)))
      | .name fields => .next ⟨stack, depth, .colon fields (unitsText units)⟩
    else if c == '\\' then goOn units .escape
    else if c.toNat < 0x20 then .refuse
    else goOn (c.toNat :: units) .plain
  | .escape =>
    if c == 'u' then goOn units (.hex 4 0)
    else
      match shortEscape? c with
      | some u => goOn (u :: units) .plain
      | none => .refuse
  | .hex left code =>
    match Text.hexValue? c with
    | none => .refuse
    | some d =>
      let code := code * 16 + d
      if left ≤ 1 then goOn (code :: units) .plain else goOn units (.hex (left - 1) code)

/-- The move after a number has ended before `c`. -/
def afterNumber (reader : Reader) (c : Char) : Move :=
  match reader.state with
  | .finished value => .before value
  | .after container => afterPart reader.stack reader.depth container c
  | _ => .refuse

/-- What one character does to a reader. -/
def Reader.step (reader : Reader) (c : Char) : Move :=
  let stack := reader.stack
  let depth := reader.depth
  match reader.state with
  | .value => if isSpace c then .next reader else startValue stack depth c
  | .firstItem =>
    if isSpace c then .next reader
    else if c == ']' then closeContainer stack depth (.array [])
    else startValue (.array [] :: stack) depth c
  | .firstField =>
    if isSpace c then .next reader
    else if c == '\x7d' then closeContainer stack depth (.object [])
    else if c == '"' then .next ⟨stack, depth, .text (.name []) [] .plain⟩
    else .refuse
  | .field fields =>
    if isSpace c then .next reader
    else if c == '"' then .next ⟨stack, depth, .text (.name fields) [] .plain⟩
    else .refuse
  | .colon fields name =>
    if isSpace c then .next reader
    else if c == ':' then .next ⟨.object fields name :: stack, depth, .value⟩
    else .refuse
  | .after container => afterPart stack depth container c
  | .text role units state => insideText stack depth role units state c
  | .number chars state =>
    match state.step? c with
    | some state => .next ⟨stack, depth, .number (c :: chars) state⟩
    | none =>
      if state.mayEnd then
        afterNumber (accept stack depth (.numeral (String.ofList chars.reverse))) c
      else .refuse
  | .word rest value =>
    match rest with
    | [] => .refuse
    | [d] => if c == d then .next (accept stack depth value) else .refuse
    | d :: rest => if c == d then .next ⟨stack, depth, .word rest value⟩ else .refuse
  | .finished value => .before value

/-! ## Whole texts -/

/-- What a text begins with. -/
inductive Reading
  /-- A complete value, and what follows it. -/
  | complete (value : Document) (rest : List Char)
  /-- A number that ends only because the text does. -/
  | atEnd (value : Document)
  /-- The beginning of a value. -/
  | truncated
  /-- No value. -/
  | malformed

/-- What a reader has when the text ends. -/
def Reader.finish (reader : Reader) : Reading :=
  match reader.state with
  | .finished value => .complete value []
  | .number chars state =>
    match reader.stack with
    | [] => if state.mayEnd then .atEnd (.numeral (String.ofList chars.reverse)) else .truncated
    | _ => .truncated
  | _ => .truncated

/-- Reads on to the end of a value. -/
def Reader.run (reader : Reader) : List Char → Reading
  | [] => reader.finish
  | c :: cs =>
    match reader.step c with
    | .next reader => reader.run cs
    | .close value => .complete value cs
    | .before value => .complete value (c :: cs)
    | .refuse => .malformed

/-- Reads the value that a text begins with. -/
def readFirst (cs : List Char) : Reading := Reader.run ⟨[], 0, .value⟩ cs

/-- The value that a text begins with, whatever follows it. -/
def first (s : String) : Except Error Document :=
  match readFirst s.toList with
  | .complete value _ => .ok value
  | .atEnd value => .ok value
  | _ => .error (.malformed .json)

/-- The value that is the whole of a text, blanks around it apart. -/
def whole (s : String) : Except Error Document :=
  match readFirst s.toList with
  | .complete value rest => if rest.all isSpace then .ok value else .error (.malformed .json)
  | .atEnd value => .ok value
  | _ => .error (.malformed .json)

/-- How messages name the kind of a value that is not of the type they want. -/
def found : Document → String
  | .null => "null"
  | .bool _ => "bool"
  | .text _ => "string"
  | .array _ => "array"
  | .texts _ => "array"
  | .object _ => "object"
  | _ => "number"

/-- The fields of a top-level object.  Null is no object, and anything else is a mismatch. -/
def fields? (d : Document) : Except Error (Option Fields) :=
  match d with
  | .object fields => .ok (some fields)
  | .null => .ok none
  | d => .error (.fault (.mismatch (found d) "" [] Kind.object.typeName))

end Json
end ClosedForm
