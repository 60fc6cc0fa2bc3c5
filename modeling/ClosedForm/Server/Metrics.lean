import ClosedForm.Binary64.Shortest

/-!
# Counters

How often each tool has been called, apart for calls that ended in an error and calls that did not,
and the text in which a monitoring system reads the counts.

Keeping the counts is left to a library of the server's.  `KeepsCounts` is what is assumed of it, and all
that the count of calls leans on; `Metrics` stands for it here.
-/

namespace ClosedForm
namespace Server

/-- What calls are counted under. -/
structure Label where
  /-- Whether the call ended in an error. -/
  errorful : Bool
  /-- The normal name of the tool. -/
  tool : String
deriving DecidableEq

/-- What is assumed of a library that keeps counts: it maps labels to counts.  Nothing is counted at first,
counting a call adds one to the count of its label and to no other, and the counts that it shows are those
that are not zero. -/
structure KeepsCounts {M : Type} (fresh : M) (record : M → Label → M) (count : M → Label → Nat)
    (shown : M → List (Label × Nat)) : Prop where
  count_fresh (l : Label) : count fresh l = 0
  count_record (counted : List Label) (label l : Label) :
    count (record (counted.foldl record fresh) label) l =
      count (counted.foldl record fresh) l + if label = l then 1 else 0
  mem_shown_iff (counted : List Label) (l : Label) (n : Nat) :
    (l, n) ∈ shown (counted.foldl record fresh) ↔ 0 < n ∧ n = count (counted.foldl record fresh) l

/-- The counts of the calls so far, in the order of their labels. -/
structure Metrics where
  counts : List (Label × Nat)

/-- The order of labels: calls without error first, then by the tool's name. -/
def Label.before (a b : Label) : Bool :=
  (!a.errorful && b.errorful) || (a.errorful == b.errorful && decide (a.tool < b.tool))

namespace Metrics

/-- No calls. -/
def none : Metrics := ⟨[]⟩

/-- Counts one call among ordered counts. -/
def insert (label : Label) : List (Label × Nat) → List (Label × Nat)
  | [] => [(label, 1)]
  | (l, n) :: rest =>
    if l = label then (l, n + 1) :: rest
    else if label.before l then (label, 1) :: (l, n) :: rest
    else (l, n) :: insert label rest

/-- Counts one call. -/
def record (m : Metrics) (label : Label) : Metrics := ⟨insert label m.counts⟩

/-- The number of calls with a label. -/
def count (m : Metrics) (label : Label) : Nat := (m.counts.lookup label).getD 0

/-- One character of a label's value. -/
def escapeChar : Char → List Char
  | '\\' => ['\\', '\\']
  | '"' => ['\\', '"']
  | '\n' => ['\\', 'n']
  | c => [c]

/-- The line of one count.  Counts are doubles there, so one of a million has an exponent. -/
def line (label : Label) (n : Nat) : String :=
  "gosigma_tool_calls_total\x7berrorful=\"" ++ (if label.errorful then "true" else "false") ++
    "\",tool=\"" ++ String.ofList (label.tool.toList.flatMap escapeChar) ++ "\"\x7d " ++
    (Binary64.ofInt n).toText Binary64.messageLayout ++ "\n"

/-- The text of the counts.  It is empty when nothing has been counted. -/
def toText (m : Metrics) : String :=
  if m.counts.isEmpty then ""
  else
    "# HELP gosigma_tool_calls_total Number of tool calls that have run.\n" ++
      "# TYPE gosigma_tool_calls_total counter\n" ++
      String.join (m.counts.map fun (l, n) => line l n)

end Metrics
end Server
end ClosedForm
