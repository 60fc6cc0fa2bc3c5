import ClosedForm.Yaml.Scanner

/-!
# From tokens to nodes

The tree of a YAML document: scalars, sequences and mappings, with aliases replaced by the nodes
they stand for.  Only the first document of a text is read, and of the text only as much as is
needed to see that this document has ended.

An alias stands for the node that was given the anchor last.  A node that is still open has no
value yet, so an alias to a node inside which it stands is refused.

Reading is by descent, one function for each kind of collection.  Every call takes a token or
descends by one of finitely many steps, so a bound from the length of the text ends the descent
and never cuts it short.
-/

namespace ClosedForm
namespace Yaml

/-- A node of a document. -/
inductive Node
  /-- A scalar with its tag, which is empty when it has none.  An *implicit* scalar is one whose
  text decides what it is. -/
  | scalar (tag text : String) (implicit : Bool)
  | sequence (items : List Node)
  | mapping (entries : List (Node × Node))
  /-- The node that an alias stands for. -/
  | aliasOf (target : Node)

namespace Node

/-- The node where nothing is written. -/
def empty : Node := scalar "" "" true

end Node

/-- What is known while a document is read. -/
structure Composer where
  scanner : Scanner
  /-- What tag handles stand for. -/
  handles : List (String × String)
  /-- The anchors given so far, the latest first, each with its own number. -/
  anchors : List (String × Nat)
  /-- The finished nodes that have an anchor, by its number. -/
  anchored : List (Nat × Node)

/-- Reading with a composer; `none` is a malformed text. -/
abbrev Compose := StateT Composer Option

namespace Compose

/-- The next token. -/
def peek : Compose Token := do
  let s ← get
  match s.scanner.peek with
  | none => failure
  | some (t, scanner) =>
    set { s with scanner }
    return t

/-- Takes the next token, which has been looked at. -/
def skip : Compose Unit := modify fun s => { s with scanner := s.scanner.drop }

/-- Gives the next node an anchor. -/
def giveAnchor (name : Option String) : Compose (Option Nat) := do
  match name with
  | none => return none
  | some name =>
    let n := (← get).anchors.length
    modify fun s => { s with anchors := (name, n) :: s.anchors }
    return some n

/-- Finishes a node that may have an anchor. -/
def finish (anchor : Option Nat) (node : Node) : Compose Node := do
  match anchor with
  | none => return node
  | some n =>
    modify fun s => { s with anchored := (n, node) :: s.anchored }
    return node

/-- The node that an alias stands for. -/
def resolveAlias (name : String) : Compose Node := do
  let s ← get
  match s.anchors.lookup name >>= fun n => s.anchored.lookup n with
  | some node => return .aliasOf node
  | none => failure

/-- The properties before a node: an anchor and a tag, in either order. -/
def properties : Compose (Option String × Option (String × String)) := do
  match ← peek with
  | .anchor name =>
    skip
    match ← peek with
    | .tag handle suffix =>
      skip
      return (some name, some (handle, suffix))
    | _ => return (some name, none)
  | .tag handle suffix =>
    skip
    match ← peek with
    | .anchor name =>
      skip
      return (some name, some (handle, suffix))
    | _ => return (none, some (handle, suffix))
  | _ => return (none, none)

/-- The full text of a tag; empty when there is none. -/
def fullTag (tag : Option (String × String)) : Compose String := do
  match tag with
  | none => return ""
  | some ("", suffix) => return suffix
  | some (handle, suffix) =>
    match (← get).handles.lookup handle with
    | some expansion => return expansion ++ suffix
    | none => failure

/-- The nodes that may be read at a place. -/
structure Place where
  /-- Whether block collections may begin here. -/
  block : Bool
  /-- Whether a sequence may stand here without being indented. -/
  indentless : Bool

/-- Outside brackets. -/
def Place.blockNode : Place := ⟨true, false⟩

/-- A key or a value of a block mapping. -/
def Place.blockPart : Place := ⟨true, true⟩

/-- Inside brackets. -/
def Place.flowNode : Place := ⟨false, false⟩

mutual

/-- Reads a node. -/
def node (place : Place) : (fuel : Nat) → Compose Node
  | 0 => failure
  | fuel + 1 => do
    if let .aliasOf name ← peek then
      skip
      return ← resolveAlias name
    let (name, tag) ← properties
    let tag ← fullTag tag
    let anchor ← giveAnchor name
    match ← peek with
    | .scalar text plain =>
      skip
      finish anchor (.scalar tag text ((tag == "" && plain) || tag == "!"))
    | .flowSequenceStart =>
      skip
      finish anchor (.sequence (← flowItems fuel true []))
    | .flowMappingStart =>
      skip
      finish anchor (.mapping (← flowEntries fuel true []))
    | .blockEntry =>
      if place.indentless then finish anchor (.sequence (← indentlessItems fuel []))
      else bare anchor tag name
    | .blockSequenceStart =>
      if place.block then
        skip
        finish anchor (.sequence (← blockItems fuel []))
      else bare anchor tag name
    | .blockMappingStart =>
      if place.block then
        skip
        finish anchor (.mapping (← blockEntries fuel []))
      else bare anchor tag name
    | _ => bare anchor tag name
where
  /-- A node that is nothing but its properties, of which it has at least one. -/
  bare (anchor : Option Nat) (tag : String) (name : Option String) : Compose Node :=
    if name.isSome || tag != "" then finish anchor (.scalar tag "" (tag == "")) else failure

/-- Reads a node unless one of the given tokens comes, which leaves it empty. -/
def nodeUnless (stop : List Token) (place : Place) : (fuel : Nat) → Compose Node
  | 0 => failure
  | fuel + 1 => do
    if stop.contains (← peek) then return .empty else node place fuel

/-- Reads the items of a block sequence, those read so far latest first. -/
def blockItems : (fuel : Nat) → List Node → Compose (List Node)
  | 0, _ => failure
  | fuel + 1, items => do
    match ← peek with
    | .blockEntry =>
      skip
      let item ← nodeUnless [.blockEntry, .blockEnd] .blockNode fuel
      blockItems fuel (item :: items)
    | .blockEnd =>
      skip
      return items.reverse
    | _ => failure

/-- Reads the items of a block sequence that is not indented: it ends at anything but a dash. -/
def indentlessItems : (fuel : Nat) → List Node → Compose (List Node)
  | 0, _ => failure
  | fuel + 1, items => do
    match ← peek with
    | .blockEntry =>
      skip
      let item ← nodeUnless [.blockEntry, .key, .value, .blockEnd] .blockNode fuel
      indentlessItems fuel (item :: items)
    | _ => return items.reverse

/-- Reads the entries of a block mapping, those read so far latest first. -/
def blockEntries : (fuel : Nat) → List (Node × Node) → Compose (List (Node × Node))
  | 0, _ => failure
  | fuel + 1, entries => do
    match ← peek with
    | .key =>
      skip
      let key ← nodeUnless [.key, .value, .blockEnd] .blockPart fuel
      let value ← blockValue fuel
      blockEntries fuel ((key, value) :: entries)
    | .blockEnd =>
      skip
      return entries.reverse
    | _ => failure

/-- Reads the value of a block mapping's entry, which may be missing. -/
def blockValue : (fuel : Nat) → Compose Node
  | 0 => failure
  | fuel + 1 => do
    match ← peek with
    | .value =>
      skip
      nodeUnless [.key, .value, .blockEnd] .blockPart fuel
    | _ => return .empty

/-- Reads the items of a sequence in brackets.  An item with a key is a mapping of one entry. -/
def flowItems : (fuel : Nat) → (first : Bool) → List Node → Compose (List Node)
  | 0, _, _ => failure
  | fuel + 1, first, items => do
    if (← peek) == .flowSequenceEnd then
      skip
      return items.reverse
    if !first then
      if (← peek) == .flowEntry then skip else failure
    match ← peek with
    | .key =>
      skip
      let entry ← singleEntry fuel
      flowItems fuel false (.mapping [entry] :: items)
    | .flowSequenceEnd =>
      skip
      return items.reverse
    | _ =>
      let item ← node .flowNode fuel
      flowItems fuel false (item :: items)

/-- Reads the one entry of a mapping that is an item of a sequence in brackets.  A missing key takes
the token in its place with it. -/
def singleEntry : (fuel : Nat) → Compose (Node × Node)
  | 0 => failure
  | fuel + 1 => do
    let key ←
      if [Token.value, .flowEntry, .flowSequenceEnd].contains (← peek) then do
        skip
        pure .empty
      else node .flowNode fuel
    let value ←
      if (← peek) == .value then do
        skip
        nodeUnless [.flowEntry, .flowSequenceEnd] .flowNode fuel
      else pure .empty
    return (key, value)

/-- Reads the entries of a mapping in brackets.  A key needs no mark, and may lack a value. -/
def flowEntries :
    (fuel : Nat) → (first : Bool) → List (Node × Node) → Compose (List (Node × Node))
  | 0, _, _ => failure
  | fuel + 1, first, entries => do
    if (← peek) == .flowMappingEnd then
      skip
      return entries.reverse
    if !first then
      if (← peek) == .flowEntry then skip else failure
    match ← peek with
    | .key =>
      skip
      let key ← nodeUnless [.value, .flowEntry, .flowMappingEnd] .flowNode fuel
      let value ← flowValue fuel
      flowEntries fuel false ((key, value) :: entries)
    | .flowMappingEnd =>
      skip
      return entries.reverse
    | _ =>
      let key ← node .flowNode fuel
      flowEntries fuel false ((key, .empty) :: entries)

/-- Reads the value after a marked key in brackets, which may be missing. -/
def flowValue : (fuel : Nat) → Compose Node
  | 0 => failure
  | fuel + 1 => do
    match ← peek with
    | .value =>
      skip
      nodeUnless [.flowEntry, .flowMappingEnd] .flowNode fuel
    | _ => return .empty

end

/-! ## Documents -/

/-- The handles that every document has. -/
def standardHandles : List (String × String) := [("!", "!"), ("!!", "tag:yaml.org,2002:")]

/-- Reads the directives before a document: at most one version, which must be 1.1, and handles
that differ. -/
def directives : (fuel : Nat) → (version : Bool) → List (String × String) →
    Compose (List (String × String))
  | 0, _, _ => failure
  | fuel + 1, version, handles => do
    match ← peek with
    | .version major minor =>
      if version || major != 1 || minor != 1 then failure
      skip
      directives fuel true handles
    | .handle handle expansion =>
      if (handles.lookup handle).isSome then failure
      skip
      directives fuel version ((handle, expansion) :: handles)
    | _ => return handles

/-- Whether a token cannot begin the content of a document. -/
def endsDocument : Token → Bool
  | .version _ _ => true
  | .handle _ _ => true
  | .documentStart => true
  | .documentEnd => true
  | .streamEnd => true
  | _ => false

/-- Reads the first document of a text; `none` when the text has none. -/
def document (fuel : Nat) : Compose (Option Node) := do
  if (← peek) == .streamStart then skip
  match ← peek with
  | .streamEnd => return none
  | .version _ _ | .handle _ _ | .documentStart =>
    let handles ← directives fuel false []
    modify fun s => { s with handles := handles ++ standardHandles }
    if (← peek) != .documentStart then failure
    skip
    let content ← if endsDocument (← peek) then pure .empty else node .blockNode fuel
    close content
  | _ => close (← node .blockNode fuel)
where
  /-- The end of a document is seen only when the token after it is. -/
  close (content : Node) : Compose (Option Node) := do
    let _ ← peek
    return some content

end Compose

/-- The first document of a YAML text, if there is one; the outer `none` is a malformed text. -/
def readFirst (cs : List Char) : Option (Option Node) :=
  let fuel := 8 * cs.length + 64
  ((Compose.document fuel).run ⟨.start cs, Compose.standardHandles, [], []⟩).map (·.1)

end Yaml
end ClosedForm
