import ClosedForm.Yaml.Scalar
import ClosedForm.Yaml.Token

/-!
# From characters to tokens

The scanner finds the tokens of a YAML text and adds those that only the layout shows: a block
collection starts where the indentation grows and ends where it shrinks.

A mapping key usually has no mark of its own; only the colon after it shows what it was.  The
scanner therefore remembers, for every level of brackets, the latest place where such a *simple
key* can have begun.  When the colon comes, the key token is put before the tokens scanned since.
For the same reason a token is handed out only when no simple key can still begin at it.  One key is
not waited for: a pair of brackets on whose level no simple key can have begun.  If a colon follows
such a pair, its tokens have been handed out, and the key token comes after them.

The text is scanned no further than the tokens that are asked for need.  `none` stands for a text
that is malformed there.
-/

namespace ClosedForm
namespace Yaml

/-- A place where a simple key can have begun. -/
structure SimpleKey where
  /-- Whether nothing but a key can stand here. -/
  required : Bool
  /-- The number of the token that begins there, counted from the start of the text. -/
  number : Nat
  index : Nat
  line : Nat
  column : Nat
  /-- Whether the token that begins there is held back. -/
  awaited : Bool

/-- A level of brackets. -/
structure Level where
  /-- The number of the token that opened it; zero outside all brackets. -/
  opened : Nat
  /-- Whether a simple key can ever have begun on it. -/
  used : Bool
  /-- The latest simple key that can have begun on it. -/
  key : Option SimpleKey

/-- The level around a level that is left.  If no simple key can have begun on the level left, the
bracket that opened it is no longer held back. -/
def Level.close (inner outer : Level) : Level :=
  { outer with key := outer.key.map fun k =>
      { k with awaited := k.awaited && (inner.used || k.number != inner.opened) } }

/-- A scanner between two tokens. -/
structure Scanner where
  cursor : Cursor
  /-- The tokens found and not yet taken. -/
  queue : List Token
  /-- The number of tokens taken. -/
  taken : Nat
  /-- Whether the start of the text has been told. -/
  started : Bool
  /-- The column of the innermost block collection, or -1. -/
  indent : Int
  /-- The columns of the block collections around it, innermost first. -/
  outerIndents : List Int
  /-- The innermost level of brackets. -/
  level : Level
  /-- The levels around it, innermost first. -/
  outerLevels : List Level
  /-- Whether a simple key can begin here. -/
  keyAllowed : Bool

namespace Scanner

/-- The deepest nesting that is scanned, of brackets and of indentation. -/
def maxNesting : Nat := 10000

/-- A scanner at the beginning of a text. -/
def start (chars : List Char) : Scanner :=
  ⟨.start chars, [], 0, false, -1, [], ⟨0, false, none⟩, [], false⟩

/-- Whether the place is inside brackets. -/
def inFlow (s : Scanner) : Bool := !s.outerLevels.isEmpty

/-- Adds a token after those found. -/
def push (s : Scanner) (t : Token) : Scanner := { s with queue := s.queue ++ [t] }

/-- Adds a token before the one with the given number, or after all when that has been taken. -/
def insert (s : Scanner) (number : Nat) (t : Token) : Scanner :=
  if number < s.taken then s.push t
  else
    let position := number - s.taken
    { s with queue := s.queue.take position ++ t :: s.queue.drop position }

/-- The number that the next token added after all will have. -/
def nextNumber (s : Scanner) : Nat := s.taken + s.queue.length

/-! ## Simple keys -/

/-- A simple key is on one line and at most 1024 characters long. -/
def isStale (s : Scanner) (k : SimpleKey) : Bool :=
  k.line < s.cursor.line || k.index + 1024 < s.cursor.index

/-- The simple key of this level, if it can still be one. -/
def validKey (s : Scanner) : Option (Option SimpleKey) :=
  match s.level.key with
  | none => some none
  | some k => if s.isStale k then (if k.required then none else some none) else some (some k)

/-- The scanner without the simple key of this level. -/
def withoutKey (s : Scanner) : Scanner := { s with level := { s.level with key := none } }

/-- Gives up the simple key of this level, unless it is required. -/
def dropKey (s : Scanner) : Option Scanner :=
  if s.level.key.any (·.required) then none else some s.withoutKey

/-- Remembers that a simple key can begin here. -/
def saveKey (s : Scanner) : Option Scanner :=
  if s.keyAllowed then do
    let c := s.cursor
    let required := !s.inFlow && s.indent == c.column
    let key : SimpleKey := ⟨required, s.nextNumber, c.index, c.line, c.column, true⟩
    let s ← s.dropKey
    some { s with level := { s.level with used := true, key := some key } }
  else some s

/-! ## Indentation -/

/-- Starts a block collection if the column is beyond the indentation; its token goes before the one
with the given number, or after all. -/
def rollIndent (s : Scanner) (column : Nat) (number : Option Nat) (t : Token) : Option Scanner :=
  if s.inFlow || (column : Int) ≤ s.indent then some s
  else if maxNesting ≤ s.outerIndents.length then none
  else
    let s := { s with outerIndents := s.indent :: s.outerIndents, indent := column }
    some (match number with
      | some n => s.insert n t
      | none => s.push t)

/-- Ends the block collections that are indented beyond a column. -/
def unrollIndents (column : Int) : List Int → Int → List Token → List Int × Int × List Token
  | [], indent, ends => ([], indent, ends)
  | outer :: outers, indent, ends =>
    if column < indent then unrollIndents column outers outer (ends ++ [.blockEnd])
    else (outer :: outers, indent, ends)

/-- Ends the block collections that are indented beyond a column.  Inside brackets there are none. -/
def unroll (s : Scanner) (column : Int) : Scanner :=
  if s.inFlow then s
  else
    let (outerIndents, indent, ends) := unrollIndents column s.outerIndents s.indent []
    { s with outerIndents, indent, queue := s.queue ++ ends }

/-! ## Between tokens -/

/-- Passes blanks, comments and line breaks.  Where a simple key can begin outside brackets, tabs
are no blanks.  A new line outside brackets lets a simple key begin.  If the byte order mark stood
where chunks were last taken in, every line begins with a character that is passed. -/
def skipToToken : (fuel : Nat) → Scanner → Option Scanner
  | 0, s => some s
  | fuel + 1, s => do
    let c ← s.cursor.want 1
    let c := if c.column == 0 && c.marked then c.skip 1 else c
    let tabs := s.inFlow || !s.keyAllowed
    let c ← c.passWhile fun ch => ch == ' ' || (tabs && ch == '\t')
    let c ← c.passComment
    if c.next.any isBreak then
      let (_, c) ← c.passBreak
      skipToToken fuel { s with cursor := c, keyAllowed := s.keyAllowed || !s.inFlow }
    else some { s with cursor := c }

/-! ## Tokens -/

/-- Moves the cursor and adds a token. -/
def emit (s : Scanner) (cursor : Cursor) (t : Token) : Scanner := { s with cursor }.push t

/-- The end of the text: everything open ends. -/
def streamEnd (s : Scanner) : Option Scanner := do
  let c := s.cursor
  let c := if c.column == 0 then c else { c with column := 0, line := c.line + 1 }
  let s ← ({ s with cursor := c }.unroll (-1)).dropKey
  some ({ s with keyAllowed := false }.push .streamEnd)

/-- A directive or a document marker: all block collections end before it. -/
def topLevel (s : Scanner) : Option Scanner := do
  let s ← (s.unroll (-1)).dropKey
  some { s with keyAllowed := false }

/-- An opening bracket. -/
def openFlow (s : Scanner) (t : Token) : Option Scanner := do
  let s ← s.saveKey
  if maxNesting ≤ s.outerLevels.length then none
  let s := { s with
    outerLevels := s.level :: s.outerLevels
    level := ⟨s.nextNumber, false, none⟩
    keyAllowed := true }
  some (s.emit (s.cursor.skip 1) t)

/-- A closing bracket.  One that closes nothing is left to the grammar. -/
def closeFlow (s : Scanner) (t : Token) : Option Scanner := do
  let s ← s.dropKey
  let s := match s.outerLevels with
    | [] => s
    | outer :: outers => { s with level := s.level.close outer, outerLevels := outers }
  some ({ s with keyAllowed := false }.emit (s.cursor.skip 1) t)

/-- A comma inside brackets. -/
def flowEntry (s : Scanner) : Option Scanner := do
  let s ← s.dropKey
  some ({ s with keyAllowed := true }.emit (s.cursor.skip 1) .flowEntry)

/-- A dash before an item.  Inside brackets it is left to the grammar. -/
def blockEntry (s : Scanner) : Option Scanner := do
  let s ←
    if s.inFlow then some s
    else if !s.keyAllowed then none
    else s.rollIndent s.cursor.column none .blockSequenceStart
  let s ← s.dropKey
  some ({ s with keyAllowed := true }.emit (s.cursor.skip 1) .blockEntry)

/-- A question mark before a key. -/
def explicitKey (s : Scanner) : Option Scanner := do
  let s ←
    if s.inFlow then some s
    else if !s.keyAllowed then none
    else s.rollIndent s.cursor.column none .blockMappingStart
  let s ← s.dropKey
  some ({ s with keyAllowed := !s.inFlow }.emit (s.cursor.skip 1) .key)

/-- A colon before a value: it shows that the simple key of this level was one, or else stands after
an explicit key. -/
def valueMark (s : Scanner) : Option Scanner := do
  match ← s.validKey with
  | some k =>
    let s := s.insert k.number .key
    let s ← s.rollIndent k.column (some k.number) .blockMappingStart
    some ({ s.withoutKey with keyAllowed := false }.emit (s.cursor.skip 1) .value)
  | none =>
    let s := s.withoutKey
    let s ←
      if s.inFlow then some s
      else if !s.keyAllowed then none
      else s.rollIndent s.cursor.column none .blockMappingStart
    some ({ s with keyAllowed := !s.inFlow }.emit (s.cursor.skip 1) .value)

/-- An anchor or an alias. -/
def anchorMark (s : Scanner) (token : String → Token) : Option Scanner := do
  let s ← s.saveKey
  let (name, c) ← anchorName (s.cursor.skip 1)
  some ({ s with keyAllowed := false }.emit c (token name))

/-- A tag. -/
def tagMark (s : Scanner) : Option Scanner := do
  let s ← s.saveKey
  let (t, c) ← tagToken s.cursor
  some ({ s with keyAllowed := false }.emit c t)

/-- A block scalar. -/
def blockText (s : Scanner) (literal : Bool) : Option Scanner := do
  let s ← s.dropKey
  let (text, c) ← blockScalar literal s.indent (s.cursor.skip 1)
  some ({ s with keyAllowed := true }.emit c (.scalar (String.ofList text) false))

/-- A quoted scalar. -/
def quotedText (s : Scanner) (single : Bool) : Option Scanner := do
  let s ← s.saveKey
  let c := s.cursor.skip 1
  let (text, c) ← quotedScalar single (c.size + 1) [] c
  some ({ s with keyAllowed := false }.emit c (.scalar (String.ofList text) false))

/-- A plain scalar. -/
def plainText (s : Scanner) : Option Scanner := do
  let s ← s.saveKey
  let c := s.cursor
  let (text, broken, c) ← plainScalar s.inFlow (s.indent + 1).toNat (c.size + 1) [] {} c
  some ({ s with keyAllowed := broken }.emit c (.scalar (String.ofList text) true))

/-- Whether a plain scalar can begin with a character, given the one after it. -/
def startsPlain (inFlow : Bool) (ch : Char) (after : Option Char) : Bool :=
  !(isBlank ch || isBreak ch || ch ∈ ['-', '?', ':', ',', '[', ']', '\x7b', '\x7d', '#', '&', '*',
      '!', '|', '>', '\'', '"', '%', '@', '\x60']) ||
    (ch == '-' && !after.any isBlank) ||
    (!inFlow && (ch == '?' || ch == ':') && !endsWord after)

/-- Finds the next token, with those that the layout adds before it. -/
def fetch (s : Scanner) : Option Scanner := do
  let c ← s.cursor.want 1
  if !s.started then some ({ s with started := true, keyAllowed := true }.emit c .streamStart)
  else
    let s ← skipToToken (c.size + 1) { s with cursor := c }
    let s := s.unroll s.cursor.column
    let c ← s.cursor.want 4
    let s := { s with cursor := c }
    match c.next with
    | none => s.streamEnd
    | some ch =>
      let after := c.ahead 1
      let indicator := s.inFlow || endsWord after
      if c.column == 0 && ch == '%' then do
        let s ← s.topLevel
        let (t, c) ← directive c
        some (s.emit c t)
      else if c.atMarker '-' then s.topLevel.map (·.emit (c.skip 3) .documentStart)
      else if c.atMarker '.' then s.topLevel.map (·.emit (c.skip 3) .documentEnd)
      else if ch == '[' then s.openFlow .flowSequenceStart
      else if ch == '\x7b' then s.openFlow .flowMappingStart
      else if ch == ']' then s.closeFlow .flowSequenceEnd
      else if ch == '\x7d' then s.closeFlow .flowMappingEnd
      else if ch == ',' then s.flowEntry
      else if ch == '-' && endsWord after then s.blockEntry
      else if ch == '?' && indicator then s.explicitKey
      else if ch == ':' && indicator then s.valueMark
      else if ch == '*' then s.anchorMark .aliasOf
      else if ch == '&' then s.anchorMark .anchor
      else if ch == '!' then s.tagMark
      else if ch == '|' && !s.inFlow then s.blockText true
      else if ch == '>' && !s.inFlow then s.blockText false
      else if ch == '\'' then s.quotedText true
      else if ch == '"' then s.quotedText false
      else if startsPlain s.inFlow ch after then s.plainText
      else none

/-! ## Taking tokens -/

/-- Whether the first token found is held back because a simple key can begin at it.  A key that has
become impossible is given up, and a required one is then malformed. -/
def headIsKey (s : Scanner) : Option Bool :=
  match (s.level :: s.outerLevels).findSome? fun l => l.key.filter (·.number == s.taken) with
  | some k =>
    if !k.awaited then some false
    else if s.isStale k then (if k.required then none else some false)
    else some true
  | none => some false

/-- Scans on until the first token is certain. -/
def settle : (fuel : Nat) → Scanner → Option Scanner
  | 0, s => some s
  | fuel + 1, s => do
    if s.queue.isEmpty || (← s.headIsKey) then settle fuel (← s.fetch) else some s

/-- The next token, and the scanner before it. -/
def peek (s : Scanner) : Option (Token × Scanner) := do
  let s ← settle (s.cursor.size + 3) s
  let t ← s.queue.head?
  some (t, s)

/-- The scanner after its first token. -/
def drop (s : Scanner) : Scanner := { s with queue := s.queue.drop 1, taken := s.taken + 1 }

end Scanner
end Yaml
end ClosedForm
