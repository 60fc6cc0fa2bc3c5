import ClosedForm.Error

/-!
# Errors in memory

`Error` is an error as a value: a tree that never changes.  A program holds errors by reference, and one
kind of them does change.  Several errors are a place in memory where their parts are listed, and adding
to them makes that list longer in place, for everybody who holds them.

Settings and gathering are not programmed here but left to two libraries.  `Library` says what they are
called with, `Library.Documented` what they are documented to do, and everything about gathering is proved
for every library that is documented so.  `Library.inPlace` is such a library, and the one that runs.

* `Library.within`, `Library.append`, `Library.parts` — what is programmed on top of the libraries.
* `Library.Answers` — the search for a sentinel, which gives no answer where it does not end.
* `Command`, `Library.run` — programs that build errors, in any order and with any reuse.
* `Memory.read` — the error as a value, where there is one.
-/

namespace ClosedForm

/-! ## Handles and memory -/

/-- What an error that no other is inside of says. -/
inductive Cause
  | sentinel (which : Sentinel)
  | fault (which : Fault)
  | malformed (format : Format)
deriving DecidableEq

/-- A cause as an error. -/
def Cause.toError : Cause → Error
  | sentinel s => .sentinel s
  | fault f => .fault f
  | malformed format => .malformed format

/-- An error as it is held.  Several errors are held by the place of their parts, so a copy of the handle
is the same several errors. -/
inductive Handle
  | cause (which : Cause)
  | within (setting : Setting) (inner : Handle)
  | several (place : Nat)
deriving DecidableEq

/-- The memory of several errors: for each place the parts that are listed there. -/
structure Memory where
  places : List (List Handle)
deriving DecidableEq

namespace Memory

/-- Memory that nothing was put into. -/
def empty : Memory := ⟨[]⟩

/-- The place that is used next. -/
def next (m : Memory) : Nat := m.places.length

/-- The parts at a place. -/
def parts (m : Memory) (place : Nat) : List Handle := m.places[place]?.getD []

/-- Lists further parts at a place. -/
def extend (m : Memory) (place : Nat) (es : List Handle) : Memory := ⟨m.places.modify place (· ++ es)⟩

/-- Uses the next place, for several errors that are none yet. -/
def allocate (m : Memory) : Memory := ⟨m.places ++ [[]]⟩

end Memory

/-! ## What is left to libraries -/

/-- The two libraries that settings and gathering are left to. -/
structure Library where
  /-- Puts a setting around an error, or around nothing. -/
  wrap : Setting → Option Handle → Option Handle
  /-- Adds errors to an error.  The result is several errors, given by their place. -/
  gather : Handle → List Handle → Memory → Nat × Memory
  /-- The list of several errors. -/
  wrappedErrors : Nat → Memory → List Handle
  /-- What is directly inside of an error, in the order in which it is searched. -/
  unwrap : Handle → Memory → List Handle

/-- An error that is not several errors, unless with a setting around them. -/
def Handle.IsSingle (e : Handle) : Prop := ∀ place, e ≠ several place

instance (e : Handle) : Decidable e.IsSingle :=
  match e with
  | .cause _ => isTrue nofun
  | .within _ _ => isTrue nofun
  | .several place => isFalse fun h => h place rfl

/-- What the libraries are documented to do.  Adding goes through the errors one after the other: several
errors are flattened, one level deep, into those that they are added to, and any other error becomes one
further part.  An error that is not several is turned into several errors first, of which it is the first
part. -/
structure Library.Documented (lib : Library) : Prop where
  wrap_none (setting : Setting) : lib.wrap setting none = none
  wrap_some (setting : Setting) (e : Handle) : lib.wrap setting (some e) = some (.within setting e)
  /-- With nothing to add, several errors stay as they are. -/
  gather_nil (i : Nat) (m : Memory) : lib.gather (.several i) [] m = (i, m)
  gather_several (i j : Nat) (es : List Handle) (m : Memory) :
    lib.gather (.several i) (.several j :: es) m = lib.gather (.several i) es (m.extend i (m.parts j))
  gather_single (i : Nat) (e : Handle) (es : List Handle) (m : Memory) (h : e.IsSingle) :
    lib.gather (.several i) (e :: es) m = lib.gather (.several i) es (m.extend i [e])
  /-- An error that is not several is turned into several errors. -/
  gather_turns (e : Handle) (es : List Handle) (m : Memory) (h : e.IsSingle) :
    lib.gather e es m = lib.gather (.several m.next) (e :: es) m.allocate
  wrappedErrors_eq (i : Nat) (m : Memory) : lib.wrappedErrors i m = m.parts i
  unwrap_cause (which : Cause) (m : Memory) : lib.unwrap (.cause which) m = []
  unwrap_within (setting : Setting) (e : Handle) (m : Memory) :
    lib.unwrap (.within setting e) m = [e]
  unwrap_several (i : Nat) (m : Memory) : lib.unwrap (.several i) m = m.parts i

namespace Memory

/-- Goes through errors and adds them to the parts at a place. -/
def gatherAt (place : Nat) : List Handle → Memory → Memory
  | [], m => m
  | .several j :: es, m => gatherAt place es (m.extend place (m.parts j))
  | e :: es, m => gatherAt place es (m.extend place [e])

end Memory

namespace Library

/-- The library that runs: it makes the list at a place longer. -/
def inPlace : Library where
  wrap setting o := o.map (.within setting)
  gather
    | .several i, es, m => (i, m.gatherAt i es)
    | e, es, m => (m.next, m.allocate.gatherAt m.next (e :: es))
  wrappedErrors i m := m.parts i
  unwrap
    | .cause _, _ => []
    | .within _ e, _ => [e]
    | .several i, m => m.parts i

end Library

/-! ## Gathering on top of the libraries -/

/-- An outcome as it is held, nothing or an error, and the memory that it is held in. -/
structure Held where
  outcome : Option Handle
  memory : Memory

namespace Library

variable (lib : Library)

/-- Says where an outcome arose. -/
def within (setting : Setting) (o : Option Handle) : Option Handle := lib.wrap setting o

/-- Adds an error to an outcome.  A side that is nothing leaves the other unchanged. -/
def append (a b : Option Handle) (m : Memory) : Held :=
  match a, b with
  | none, b => ⟨b, m⟩
  | a, none => ⟨a, m⟩
  | some x, some y =>
    let (place, m) := lib.gather x [y] m
    ⟨some (.several place), m⟩

/-- The parts of an outcome: none, the list of several errors, or the one error. -/
def parts : Held → List Handle
  | ⟨none, _⟩ => []
  | ⟨some (.several place), m⟩ => lib.wrappedErrors place m
  | ⟨some e, _⟩ => [e]

/-- Asks errors one after the other, and what is inside of each before the next one, whether one is the
sentinel.  There is an answer only where this ends. -/
inductive Answers (s : Sentinel) (m : Memory) : List Handle → Bool → Prop
  | no : Answers s m [] false
  | yes (rest : List Handle) : Answers s m (.cause (.sentinel s) :: rest) true
  | ask {e : Handle} {rest : List Handle} {answer : Bool} (other : e ≠ .cause (.sentinel s))
    (asked : Answers s m (lib.unwrap e m ++ rest) answer) : Answers s m (e :: rest) answer

/-- Whether an outcome wraps a sentinel, at any depth and in any part.  Nothing wraps none. -/
def Is (s : Sentinel) (h : Held) (answer : Bool) : Prop :=
  lib.Answers s h.memory h.outcome.toList answer

end Library

/-! ## Programs that build errors -/

/-- A step of a program that builds errors.  Outcomes are numbered in the order in which they come
about, and each of them can be used again at any time. -/
inductive Command
  | nothing
  | plain (which : Cause)
  | within (setting : Setting) (outcome : Nat)
  | append (left right : Nat)
deriving DecidableEq

/-- What a program holds: all outcomes that have come about, and the memory. -/
structure Session where
  held : List (Option Handle)
  memory : Memory
deriving DecidableEq

namespace Session

/-- The session that a program starts in. -/
def start : Session := ⟨[], .empty⟩

/-- The outcome with this number. -/
def outcomeAt (st : Session) (number : Nat) : Option Handle := st.held[number]?.join

/-- Holds one more outcome. -/
def hold (st : Session) (h : Held) : Session := ⟨st.held ++ [h.outcome], h.memory⟩

end Session

namespace Library

variable (lib : Library)

/-- What a step gives. -/
def outcome (st : Session) : Command → Held
  | .nothing => ⟨none, st.memory⟩
  | .plain which => ⟨some (.cause which), st.memory⟩
  | .within setting k => ⟨lib.within setting (st.outcomeAt k), st.memory⟩
  | .append k l => lib.append (st.outcomeAt k) (st.outcomeAt l) st.memory

/-- Takes a step. -/
def step (st : Session) (c : Command) : Session := st.hold (lib.outcome st c)

/-- Takes all steps of a program. -/
def run (cs : List Command) : Session := cs.foldl lib.step .start

end Library

/-! ## Errors as values -/

/-- Reads an error, with the several errors at a place given. -/
def Handle.readWith (several : Nat → Option Error) : Handle → Option Error
  | cause which => some which.toError
  | within setting inner => (inner.readWith several).map (.within setting)
  | .several place => several place

namespace Memory

/-- The several errors at a place, if places are inside each other at most `depth` deep. -/
def readPlace (m : Memory) : (depth : Nat) → (place : Nat) → Option Error
  | 0, _ => none
  | depth + 1, place =>
    ((m.parts place).mapM (Handle.readWith (m.readPlace depth))).map .several

/-- An error as a value, if places are inside each other at most `depth` deep. -/
def readWithin (m : Memory) (depth : Nat) (e : Handle) : Option Error := e.readWith (m.readPlace depth)

/-- An error as a value.  There is none for several errors that have been put into themselves: places are
inside each other deeper than there are places. -/
def read (m : Memory) (e : Handle) : Option Error := m.readWithin m.next e

end Memory
end ClosedForm
