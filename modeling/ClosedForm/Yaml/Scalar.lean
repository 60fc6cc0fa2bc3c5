import ClosedForm.Text.Hexadecimal
import ClosedForm.Yaml.Cursor

/-!
# The text of scalars

The three ways in which YAML writes a text, each read up to the place where it ends:

* plainly, up to an indicator, a comment or a line that is indented too little;
* between quotes, with escapes when they are double;
* as a block under an indicator, line by line.

In the first two a stretch of blanks and line breaks, a *gap*, is folded: a single break becomes a
space, of several the first is dropped, and blanks around breaks disappear.

While a text is read, its characters are kept latest first.  Each function returns `none` where the
text is malformed.
-/

namespace ClosedForm
namespace Yaml

/-! ## Gaps -/

/-- A stretch of blanks and breaks. -/
structure Gap where
  /-- The blanks before the first break, latest first. -/
  blanks : List Char := []
  /-- Whether a break was passed. -/
  broken : Bool := false
  /-- What the first break stands for. -/
  first : List Char := []
  /-- What the further breaks stand for, latest first. -/
  more : List Char := []

/-- Adds what a gap is folded to onto the characters read before it. -/
def Gap.foldOnto (g : Gap) (read : List Char) : List Char :=
  if g.broken then
    if g.first == ['\n'] then (if g.more.isEmpty then ' ' :: read else g.more ++ read)
    else g.more ++ (g.first ++ read)
  else g.blanks ++ read

/-- Passes a gap.  After a break, a tab left of column `margin` is malformed. -/
def passGap (margin : Nat) : (fuel : Nat) → Gap → Cursor → Option (Gap × Cursor)
  | 0, g, c => some (g, c)
  | fuel + 1, g, c => do
    let c ← c.want 1
    match c.next with
    | none => some (g, c)
    | some ch =>
      if isBlank ch then
        if g.broken && c.column < margin && ch == '\t' then none
        else if g.broken then passGap margin fuel g (c.skip 1)
        else passGap margin fuel { g with blanks := ch :: g.blanks } (c.skip 1)
      else if isBreak ch then
        let (b, c) ← c.passBreak
        if g.broken then passGap margin fuel { g with more := b ++ g.more } c
        else passGap margin fuel ⟨[], true, b, []⟩ c
      else some (g, c)

/-! ## Plain scalars -/

/-- Whether a character ends a plain scalar, given the character after it: a colon at the end of a
word, or, inside brackets, an indicator of the brackets' own. -/
def endsPlain (inFlow : Bool) (ch : Char) (after : Option Char) : Bool :=
  (ch == ':' && endsWord after) ||
    (inFlow && (ch == ',' || ch == '?' || ch == '[' || ch == ']' || ch == '\x7b' || ch == '\x7d'))

/-- The characters up to a blank, a break or the end of a plain scalar. -/
def plainWord (inFlow : Bool) : List Char → List Char
  | [] => []
  | ch :: cs =>
    if isBlank ch || isBreak ch || endsPlain inFlow ch cs.head? then []
    else ch :: plainWord inFlow cs

/-- Reads a plain scalar from its first character.  Outside brackets its further lines stand right
of column `margin`.  Gives the text, whether a line break follows it, and the place after the gap
that follows it. -/
def plainScalar (inFlow : Bool) (margin : Nat) :
    (fuel : Nat) → List Char → Gap → Cursor → Option (List Char × Bool × Cursor)
  | 0, read, g, c => some (read.reverse, g.broken, c)
  | fuel + 1, read, g, c => do
    let c ← c.want 4
    if c.atDocumentMarker || c.next == some '#' then some (read.reverse, g.broken, c)
    else
      let word := plainWord inFlow c.chars
      let (read, g) :=
        if word.isEmpty then (read, g) else (word.reverse ++ g.foldOnto read, {})
      let c ← c.pass 2 word.length
      match c.next with
      | none => some (read.reverse, g.broken, c)
      | some ch =>
        if isBlank ch || isBreak ch then do
          let (g, c) ← passGap margin (c.size + 1) g c
          if !inFlow && c.column < margin then some (read.reverse, g.broken, c)
          else plainScalar inFlow margin fuel read g c
        else some (read.reverse, g.broken, c)

/-! ## Quoted scalars -/

/-- The character of a one-letter escape. -/
def shortEscape? : Char → Option Char
  | '0' => some '\x00'
  | 'a' => some '\x07'
  | 'b' => some '\x08'
  | 't' => some '\t'
  | '\t' => some '\t'
  | 'n' => some '\n'
  | 'v' => some '\x0b'
  | 'f' => some '\x0c'
  | 'r' => some '\r'
  | 'e' => some '\x1b'
  | ' ' => some ' '
  | '"' => some '"'
  | '\'' => some '\''
  | '\\' => some '\\'
  | 'N' => some '\u0085'
  | '_' => some '\u00a0'
  | 'L' => some '\u2028'
  | 'P' => some '\u2029'
  | _ => none

/-- The number of hexadecimal digits after an escape letter. -/
def hexLength? : Char → Option Nat
  | 'x' => some 2
  | 'u' => some 4
  | 'U' => some 8
  | _ => none

/-- The character that an escape stands for, from after the backslash, and the number of digits it
has after its letter. -/
def escape? : List Char → Option (Char × Nat)
  | [] => none
  | ch :: cs =>
    match hexLength? ch with
    | none => (shortEscape? ch).map (·, 0)
    | some n => do
      let digits := cs.take n
      if digits.length < n then none
      let code ← Text.ofHex? digits
      if (0xd800 ≤ code && code ≤ 0xdfff) || 0x10ffff < code then none
      else some (Char.ofNat code, n)

/-- How a word inside quotes ends. -/
inductive WordEnd
  | quote
  | gap
  /-- At a backslash before a line break. -/
  | continuation

/-- Reads the characters inside quotes up to a blank, a break, the closing quote or the end, onto
those read before. -/
def quotedWord (single : Bool) :
    (fuel : Nat) → List Char → Cursor → Option (List Char × WordEnd × Cursor)
  | 0, read, c => some (read, .gap, c)
  | fuel + 1, read, c =>
    match c.chars with
    | [] => some (read, .gap, c)
    | ch :: cs =>
      if isBlank ch || isBreak ch then some (read, .gap, c)
      else if single then
        if ch == '\'' then
          if cs.head? == some '\'' then do
            quotedWord single fuel ('\'' :: read) (← (c.skip 2).want 2)
          else some (read, .quote, c)
        else do quotedWord single fuel (ch :: read) (← (c.skip 1).want 2)
      else if ch == '"' then some (read, .quote, c)
      else if ch == '\\' then
        if cs.head?.any isBreak then some (read, .continuation, c)
        else do
          let (e, n) ← escape? cs
          let c ← (c.skip 2).want n
          quotedWord single fuel (e :: read) (← (c.skip n).want 2)
      else do quotedWord single fuel (ch :: read) (← (c.skip 1).want 2)

/-- Reads a quoted scalar from after its opening quote. -/
def quotedScalar (single : Bool) : (fuel : Nat) → List Char → Cursor → Option (List Char × Cursor)
  | 0, _, _ => none
  | fuel + 1, read, c => do
    let c ← c.want 4
    if c.atDocumentMarker || c.chars.isEmpty then none
    let (read, ending, c) ← quotedWord single c.size read c
    match ending with
    | .quote => some (read.reverse, (← c.want 1).skip 1)
    | .gap =>
      let (g, c) ← passGap 0 (c.size + 1) {} c
      quotedScalar single fuel (g.foldOnto read) c
    | .continuation =>
      let (_, c) ← ((← c.want 3).skip 1).passBreak
      let (g, c) ← passGap 0 (c.size + 1) { broken := true } c
      quotedScalar single fuel (g.foldOnto read) c

/-! ## Block scalars -/

/-- What is kept of the line breaks that end a block. -/
inductive Chomp
  | strip
  | clip
  | keep
deriving DecidableEq

/-- The indentation that a digit gives, relative to the surrounding; zero is malformed. -/
def increment? (ch : Char) : Option Nat :=
  if ch == '0' then none else if ch.isDigit then some (ch.toNat - '0'.toNat) else none

/-- The chomping that an indicator asks for. -/
def chomp? (ch : Char) : Option Chomp :=
  if ch == '+' then some .keep else if ch == '-' then some .strip else none

/-- Reads the indicators after `|` or `>`, in either order. -/
def blockIndicators (c : Cursor) : Option (Chomp × Option Nat × Cursor) := do
  let digit (c : Cursor) : Option (Option Nat × Cursor) :=
    match c.next with
    | some ch => if ch.isDigit then (increment? ch).map fun n => (some n, c.skip 1) else some (none, c)
    | none => some (none, c)
  let c ← c.want 1
  match c.next.bind chomp? with
  | some chomp =>
    let (n, c) ← digit (← (c.skip 1).want 1)
    some (chomp, n, c)
  | none =>
    match ← digit c with
    | (none, c) => some (.clip, none, c)
    | (some n, c) =>
      let c ← c.want 1
      match c.next.bind chomp? with
      | some chomp => some (chomp, some n, c.skip 1)
      | none => some (.clip, some n, c)

/-- Passes the indentation of a block's next line and the empty lines before it.  With no
`indent`, every leading space is passed.  Gives what the empty lines' breaks stand for, latest
first, and the furthest column reached. -/
def blockBreaks (indent : Option Nat) :
    (fuel : Nat) → List Char → (reached : Nat) → Cursor → Option (List Char × Nat × Cursor)
  | 0, breaks, reached, c => some (breaks, reached, c)
  | fuel + 1, breaks, reached, c => do
    let c ← c.want 1
    let spaces := (c.chars.takeWhile (· == ' ')).length
    let c ← c.pass 1 (match indent with
      | none => spaces
      | some n => min spaces (n - c.column))
    let reached := max reached c.column
    if c.next == some '\t' && indent.all (c.column < ·) then none
    else if c.next.any isBreak then
      let (b, c) ← c.passBreak
      blockBreaks indent fuel (b ++ breaks) reached c
    else some (breaks, reached, c)

/-- Reads the lines of a block.  `lead` and `breaks` are what the break after the last line and,
latest first, the empty lines after it stand for, and `blank` whether the last line began with a
blank. -/
def blockLines (literal : Bool) (indent : Nat) :
    (fuel : Nat) → (read lead breaks : List Char) → (blank : Bool) → Cursor →
      Option (List Char × List Char × List Char × Cursor)
  | 0, read, lead, breaks, _, c => some (read.reverse, lead, breaks, c)
  | fuel + 1, read, lead, breaks, blank, c =>
    if c.column != indent || c.chars.isEmpty then some (read.reverse, lead, breaks, c)
    else do
      let startsBlank := c.next.any isBlank
      let joint :=
        if !literal && !blank && !startsBlank && lead == ['\n'] then
          (if breaks.isEmpty then [' '] else [])
        else lead
      let line := c.chars.takeWhile (!isBreak ·)
      let (lead, c) ← (← c.pass 1 line.length).passBreak
      let (more, _, c) ← blockBreaks (some indent) (c.size + 1) [] 0 c
      let read := line.reverse ++ (breaks ++ (joint ++ read))
      blockLines literal indent fuel read lead more startsBlank c

/-- Reads a block scalar from after its `|` or `>`, inside a collection indented to column `outer`
(or -1 outside all). -/
def blockScalar (literal : Bool) (outer : Int) (c : Cursor) : Option (List Char × Cursor) := do
  let (chomp, n, c) ← blockIndicators c
  let c ← c.passLine
  let given := n.map fun n => (max outer 0).toNat + n
  let (breaks, reached, c) ← blockBreaks given (c.size + 1) [] 0 c
  let indent := given.getD (max reached (max (outer + 1) 1).toNat)
  let (text, lead, breaks, c) ← blockLines literal indent c.size [] [] breaks false c
  let ending := match chomp with
    | .strip => []
    | .clip => lead
    | .keep => lead ++ breaks.reverse
  some (text ++ ending, c)

end Yaml
end ClosedForm
