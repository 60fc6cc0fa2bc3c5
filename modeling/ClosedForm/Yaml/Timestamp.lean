/-!
# Timestamps

Whether a text is a date or a date with a time, in the forms `2001-12-14`,
`2001-12-14T21:59:43.1Z`, `2001-12-14t21:59:43.1-05:00` and `2001-12-14 21:59:43.1`.  Months, days,
hours, minutes and seconds may lack a leading zero.  The day must exist.
-/

namespace ClosedForm
namespace Yaml

/-- Reads one or two digits. -/
def shortNumber : List Char → Option (Nat × List Char)
  | a :: b :: cs =>
    if !a.isDigit then none
    else if b.isDigit then some ((a.toNat - 48) * 10 + (b.toNat - 48), cs)
    else some (a.toNat - 48, b :: cs)
  | [a] => if a.isDigit then some (a.toNat - 48, []) else none
  | [] => none

/-- Reads one or two digits that are a number in a range. -/
def boundedNumber (low high : Nat) (cs : List Char) : Option (Nat × List Char) := do
  let (n, cs) ← shortNumber cs
  if low ≤ n && n ≤ high then some (n, cs) else none

/-- Passes a character that must be there. -/
def expect (c : Char) : List Char → Option (List Char)
  | d :: cs => if c == d then some cs else none
  | [] => none

/-- Whether a year has a 29th of February. -/
def isLeap (year : Nat) : Bool := year % 4 == 0 && (year % 100 != 0 || year % 400 == 0)

/-- The number of days of a month. -/
def daysIn (year month : Nat) : Nat :=
  if month == 2 then (if isLeap year then 29 else 28)
  else if month ∈ [4, 6, 9, 11] then 30
  else 31

/-- Reads a date. -/
def date (cs : List Char) : Option (List Char) := do
  let year := cs.takeWhile Char.isDigit
  if year.length != 4 then none
  let cs ← expect '-' (cs.drop 4)
  let (month, cs) ← boundedNumber 1 12 cs
  let cs ← expect '-' cs
  let (day, cs) ← shortNumber cs
  let year := year.foldl (fun n c => n * 10 + (c.toNat - 48)) 0
  if 1 ≤ day && day ≤ daysIn year month then some cs else none

/-- Passes a fraction of a second, if there is one. -/
def fraction : List Char → List Char
  | p :: d :: cs =>
    if (p == '.' || p == ',') && d.isDigit then cs.dropWhile Char.isDigit else p :: d :: cs
  | cs => cs

/-- Reads a time of day. -/
def timeOfDay (cs : List Char) : Option (List Char) := do
  let (_, cs) ← boundedNumber 0 23 cs
  let cs ← expect ':' cs
  let (_, cs) ← boundedNumber 0 59 cs
  let cs ← expect ':' cs
  let (_, cs) ← boundedNumber 0 59 cs
  some (fraction cs)

/-- Whether a text is a time zone: `Z`, or a sign, two digits, a colon and two digits. -/
def isZone : List Char → Bool
  | ['Z'] => true
  | [s, a, b, ':', c, d] =>
    (s == '+' || s == '-') && [a, b, c, d].all Char.isDigit &&
      (a.toNat - 48) * 10 + (b.toNat - 48) ≤ 24 && (c.toNat - 48) * 10 + (d.toNat - 48) ≤ 60
  | _ => false

/-- Whether a text is a timestamp.  A time after a space has no zone, and any number of spaces may
stand before it. -/
def isTimestamp (cs : List Char) : Bool :=
  match date cs with
  | none => false
  | some [] => true
  | some (sep :: cs) =>
    if sep == ' ' then (timeOfDay (cs.dropWhile (· == ' '))).any List.isEmpty
    else (sep == 'T' || sep == 't') && (timeOfDay cs).any isZone

end Yaml
end ClosedForm
