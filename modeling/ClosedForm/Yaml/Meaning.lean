import ClosedForm.Document.Expression
import ClosedForm.Yaml.Node
import ClosedForm.Yaml.Resolve

/-!
# What nodes mean

The value of a document's tree.  Scalars are resolved, and mappings are filled entry by entry: a
later entry replaces an earlier one with the same key, and a merge entry (`<<`) brings in the
entries of another mapping at its place, or of several, the first of which counts most.

A small text can stand for a huge value, because aliases repeat what they stand for.  The nodes
valued are therefore counted, and a document most of whose nodes come from aliases is refused.
-/

namespace ClosedForm
namespace Yaml

/-- How many nodes have been valued, and how many of them on behalf of an alias. -/
structure Count where
  nodes : Nat
  aliased : Nat

/-- Whether too large a share of the nodes comes from aliases: over 99 in 100 up to 400000 nodes,
over 10 in 100 from four million, and in between over a share that falls evenly. -/
def Count.isExcessive (n : Count) : Bool :=
  100 < n.aliased && 1000 < n.nodes &&
    (if n.nodes ≤ 400000 then 99 * n.nodes < 100 * n.aliased
    else if 4000000 ≤ n.nodes then 10 * n.nodes < 100 * n.aliased
    else (99 * 3600000 - 89 * (n.nodes - 400000)) * n.nodes < 360000000 * n.aliased)

/-- Valuing nodes; `none` is a document that means nothing. -/
abbrev Valuing := StateT Count Option

/-- Counts a node. -/
def tick (aliased : Bool) : Valuing Unit := do
  let n ← get
  let n : Count := ⟨n.nodes + 1, if aliased then n.aliased + 1 else n.aliased⟩
  if n.isExcessive then failure
  set n

namespace Node

/-- Whether a key asks for a merge. -/
def isMerge : Node → Bool
  | scalar tag text implicit =>
    text == "<<" && (implicit || tag == "tag:yaml.org,2002:merge")
  | _ => false

mutual

/-- The value of a node. -/
def value (aliased : Bool) : Node → Valuing Value
  | scalar tag text implicit => do
    tick aliased
    resolve tag text implicit
  | sequence items => do
    tick aliased
    return .sequence (← values aliased items)
  | mapping entries => do
    tick aliased
    return .mapping (← fill aliased entries [])
  | aliasOf target => do
    tick aliased
    value true target

/-- The values of the items of a sequence. -/
def values (aliased : Bool) : List Node → Valuing (List Value)
  | [] => return []
  | n :: ns => do
    let v ← value aliased n
    return v :: (← values aliased ns)

/-- Adds the entries of a mapping to those there are. -/
def fill (aliased : Bool) : List (Node × Node) → List (Value × Value) →
    Valuing (List (Value × Value))
  | [], entries => return entries
  | (k, n) :: rest, entries => do
    if k.isMerge then fill aliased rest (← mergeFrom aliased n entries)
    else
      let key ← value aliased k
      if key.isCollection then failure
      let v ← value aliased n
      fill aliased rest (Value.put entries key v)

/-- Adds the entries of the mapping that a node is, or of all those in the sequence that it is. -/
def mergeFrom (aliased : Bool) : Node → List (Value × Value) → Valuing (List (Value × Value))
  | sequence items, entries => mergeAll aliased items entries
  | n, entries => merge aliased n entries

/-- Adds the entries of the mappings in a list, from the last on, so that the first counts most. -/
def mergeAll (aliased : Bool) : List Node → List (Value × Value) →
    Valuing (List (Value × Value))
  | [], entries => return entries
  | n :: ns, entries => do merge aliased n (← mergeAll aliased ns entries)

/-- Adds the entries of the mapping that a node is, or stands for. -/
def merge (aliased : Bool) : Node → List (Value × Value) → Valuing (List (Value × Value))
  | mapping more, entries => do
    tick aliased
    fill aliased more entries
  | aliasOf (mapping more), entries => do
    tick aliased
    tick true
    fill true more entries
  | _, _ => failure

end

end Node

/-- The value of the first document of a YAML text.  Where there is none the value is null. -/
def valueOf (s : String) : Except Error Value :=
  match readFirst s.toList with
  | none => .error (.malformed .yaml)
  | some none => .ok .null
  | some (some node) =>
    match (node.value false).run ⟨1, 0⟩ with
    | none => .error (.malformed .yaml)
    | some (value, _) => .ok value

end Yaml

/-- Reads the first document of a YAML text as an expression. -/
def Expr.ofYaml (s : String) : Except Error Expr := do
  let d ← (← Yaml.valueOf s).toDocument
  match d with
  | .object fields => Expr.ofFields? (some fields)
  | d => .error (.fault (.notAMapping d.kind))

end ClosedForm
