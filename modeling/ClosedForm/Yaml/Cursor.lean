/-!
# A place in a YAML text

YAML's structure is in its layout, so every step of reading knows where it is: how many characters
and lines it has left behind, and how many characters of the current line.  A `Cursor` is the rest
of a text together with that place.

A text is taken in by *chunks* of bytes, and only as far as a step wants to look ahead.  A character
that may not occur is found when its chunk is taken in, so a text is not refused for what stands
beyond the last chunk that was wanted.

The module also has the character classes of YAML 1.1: blanks, the five line breaks, and the
markers that begin or end a document.
-/

namespace ClosedForm
namespace Yaml

/-! ## Characters -/

/-- A space or a tab. -/
def isBlank (c : Char) : Bool := c == ' ' || c == '\t'

/-- A line break: line feed, carriage return, next line, line separator, paragraph separator. -/
def isBreak (c : Char) : Bool :=
  c == '\n' || c == '\r' || c.toNat == 0x85 || c.toNat == 0x2028 || c.toNat == 0x2029

/-- A character of a name: a letter, a digit, an underscore or a hyphen, all ASCII. -/
def isNameChar (c : Char) : Bool := c.isAlphanum || c == '_' || c == '-'

/-- Whether a word ends before what comes next: a blank, a break, or the end of the text. -/
def endsWord : Option Char → Bool
  | none => true
  | some c => isBlank c || isBreak c

/-- Whether a character may occur in a YAML text at all.  Most controls may not. -/
def isAllowed (c : Char) : Bool :=
  let n := c.toNat
  n == 0x9 || n == 0xa || n == 0xd || (0x20 ≤ n && n ≤ 0x7e) || n == 0x85 ||
    (0xa0 ≤ n && n ≤ 0xd7ff) || (0xe000 ≤ n && n ≤ 0xfffd) || 0x10000 ≤ n

/-! ## Chunks -/

/-- A stretch of a text that is taken in at once. -/
structure Chunk where
  /-- The number of its characters. -/
  length : Nat
  /-- Whether all of them may occur. -/
  sound : Bool
deriving DecidableEq

/-- The most bytes of a chunk. -/
def chunkSize : Nat := 512

/-- The mark of the byte order, which is no part of the text that it begins. -/
def byteOrderMark : Char := '\ufeff'

/-- The chunks of characters, after a chunk that has the given number of bytes left. -/
def chunksAfter : List Char → (room : Nat) → Chunk → List Chunk
  | [], _, chunk => [chunk]
  | c :: cs, room, chunk =>
    if c.utf8Size ≤ room then
      chunksAfter cs (room - c.utf8Size) ⟨chunk.length + 1, chunk.sound && isAllowed c⟩
    else chunk :: chunksAfter cs (chunkSize - c.utf8Size) ⟨1, isAllowed c⟩

/-- Takes in chunks until `n` characters are at hand, `window` of which already are.  Beyond the last
chunk there is the end of the text, which counts as a character every time it is reached. -/
def takeChunks (n : Nat) : (window : Nat) → List Chunk → Option (Nat × List Chunk)
  | window, [] => some (window + 1, [])
  | window, chunk :: chunks =>
    if !chunk.sound then none
    else if n ≤ window + chunk.length then some (window + chunk.length, chunks)
    else takeChunks n (window + chunk.length) chunks

/-! ## Cursors -/

/-- The rest of a text, and where it begins.  The length of the whole text bounds every walk over
the rest. -/
structure Cursor where
  chars : List Char
  size : Nat
  index : Nat
  line : Nat
  column : Nat
  /-- How many characters from here on are at hand. -/
  window : Nat
  /-- The chunks that have not been taken in. -/
  chunks : List Chunk
  /-- Whether the byte order mark stood here when chunks were last taken in. -/
  marked : Bool

namespace Cursor

/-- The beginning of a text.  A mark of the byte order before everything is passed, but its bytes are
in the first chunk. -/
def start (chars : List Char) : Cursor :=
  match chars with
  | [] => ⟨[], 0, 0, 0, 0, 0, [], false⟩
  | c :: cs =>
    let marked := c == byteOrderMark
    let chars := if marked then cs else c :: cs
    let room := if marked then chunkSize - c.utf8Size else chunkSize
    ⟨chars, chars.length, 0, 0, 0, 0, chunksAfter chars room ⟨0, true⟩, false⟩

/-- The next character. -/
def next (c : Cursor) : Option Char := c.chars.head?

/-- The character `n` places on. -/
def ahead (c : Cursor) (n : Nat) : Option Char := c.chars[n]?

/-- Sees to it that `n` characters are at hand. -/
def want (n : Nat) (c : Cursor) : Option Cursor :=
  if n ≤ c.window then some c
  else do
    let (window, chunks) ← takeChunks n c.window c.chunks
    some { c with window, chunks, marked := c.next == some byteOrderMark }

/-- Passes `n` characters of the current line. -/
def skip (c : Cursor) (n : Nat) : Cursor :=
  { c with
    chars := c.chars.drop n
    index := c.index + n
    column := c.column + n
    window := c.window - n }

/-- Passes `count` characters of the current line one by one, and sees to it after each that `n` are
at hand. -/
def pass (n : Nat) : (count : Nat) → Cursor → Option Cursor
  | 0, c => some c
  | count + 1, c => do pass n count (← (c.skip 1).want n)

/-- Passes the characters of the current line that satisfy a test, which no break does. -/
def passWhile (test : Char → Bool) (c : Cursor) : Option Cursor := do
  let c ← c.want 1
  c.pass 1 (c.chars.takeWhile test).length

/-- Passes a comment, if there is one, up to the end of its line. -/
def passComment (c : Cursor) : Option Cursor :=
  if c.next == some '#' then c.passWhile (!isBreak ·) else some c

/-- Passes a line break, if there is one, and gives what it stands for: a line feed, or the
separator itself.  A carriage return and a line feed are one break. -/
def passBreak (c : Cursor) : Option (List Char × Cursor) := do
  let c ← c.want 2
  let newLine (n : Nat) : Cursor := { c.skip n with line := c.line + 1, column := 0 }
  match c.chars with
  | '\r' :: '\n' :: _ => some (['\n'], newLine 2)
  | b :: _ =>
    if b.toNat == 0x2028 || b.toNat == 0x2029 then some ([b], newLine 1)
    else if isBreak b then some (['\n'], newLine 1)
    else some ([], c)
  | [] => some ([], c)

/-- Passes the rest of a line on which only blanks and a comment may stand. -/
def passLine (c : Cursor) : Option Cursor := do
  let c ← (← c.passWhile isBlank).passComment
  match c.next with
  | none => some c
  | some ch => if isBreak ch then return (← c.passBreak).2 else none

/-- Whether a document marker, three times `mark` as a word of its own, begins the line here. -/
def atMarker (c : Cursor) (mark : Char) : Bool :=
  c.column == 0 && c.next == some mark && c.ahead 1 == some mark && c.ahead 2 == some mark &&
    endsWord (c.ahead 3)

/-- Whether a document begins or ends here. -/
def atDocumentMarker (c : Cursor) : Bool := c.atMarker '-' || c.atMarker '.'

end Cursor
end Yaml
end ClosedForm
