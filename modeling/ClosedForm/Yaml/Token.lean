import ClosedForm.Text.Hexadecimal
import ClosedForm.Yaml.Cursor

/-!
# Tokens

The words of a YAML text: indicators, scalars, node properties and directives, and the starts and
ends of block collections, which no character marks.

This module reads the tokens that have a grammar of their own: names after `&` and `*`, tags, and
directives.  Each function returns `none` where the text is malformed.
-/

namespace ClosedForm
namespace Yaml

/-- A token. -/
inductive Token
  | streamStart
  | streamEnd
  | version (major minor : Nat)
  | handle (handle expansion : String)
  | documentStart
  | documentEnd
  | blockSequenceStart
  | blockMappingStart
  | blockEnd
  | flowSequenceStart
  | flowSequenceEnd
  | flowMappingStart
  | flowMappingEnd
  | blockEntry
  | flowEntry
  | key
  | value
  | aliasOf (name : String)
  | anchor (name : String)
  | tag (handle suffix : String)
  | scalar (text : String) (plain : Bool)
deriving DecidableEq

/-! ## Anchors and aliases -/

/-- Whether what follows an anchor's name lets it end. -/
def endsAnchor (after : Option Char) : Bool :=
  endsWord after || after.any (fun c => c ∈ ['?', ':', ',', ']', '\x7d', '%', '@', '\x60'])

/-- Reads the characters of a name, which may be none. -/
def nameChars (c : Cursor) : Option (List Char × Cursor) := do
  let c ← c.want 1
  let name := c.chars.takeWhile isNameChar
  return (name, ← c.pass 1 name.length)

/-- Reads the name after `&` or `*`. -/
def anchorName (c : Cursor) : Option (String × Cursor) := do
  let (name, c) ← nameChars c
  if name.isEmpty || !endsAnchor c.next then none else some (String.ofList name, c)

/-! ## Tags -/

/-- The characters of a tag's URI. -/
def isUriChar (c : Char) : Bool :=
  isNameChar c || c ∈ [';', '/', '?', ':', '@', '&', '=', '+', '$', '.', ',', '!', '~', '*', '\'',
    '(', ')', '[', ']', '%']

/-- The number of bytes of a character, from the first of them. -/
def byteWidth? (b : Nat) : Option Nat :=
  if b < 0x80 then some 1
  else if 0xc0 ≤ b && b < 0xe0 then some 2
  else if 0xe0 ≤ b && b < 0xf0 then some 3
  else if 0xf0 ≤ b && b < 0xf8 then some 4
  else none

/-- The byte of a percent escape at the beginning. -/
def percentByte? : List Char → Option Nat
  | '%' :: a :: b :: _ => Text.ofHex? [a, b]
  | _ => none

/-- Reads `n` further bytes of a percent-escaped character onto the bits before them. -/
def continuationBytes : (n : Nat) → (bits : Nat) → Cursor → Option (Nat × Cursor)
  | 0, bits, c => some (bits, c)
  | n + 1, bits, c => do
    let c ← c.want 3
    let b ← percentByte? c.chars
    if b < 0x80 || 0xc0 ≤ b then none
    else continuationBytes n (bits * 64 + b % 64) (c.skip 3)

/-- The least code of a character that needs the given number of bytes. -/
def leastCode : (width : Nat) → Nat
  | 2 => 0x80
  | 3 => 0x800
  | 4 => 0x10000
  | _ => 0

/-- Reads a percent-escaped character.  A code in more bytes than it needs, or of no character,
stands for U+FFFD, which no standard tag has. -/
def percentChar (c : Cursor) : Option (Char × Cursor) := do
  let c ← c.want 3
  let b ← percentByte? c.chars
  let width ← byteWidth? b
  let bits := if width = 1 then b else b % Nat.pow 2 (7 - width)
  let (code, c) ← continuationBytes (width - 1) bits (c.skip 3)
  if code < leastCode width || !code.isValidChar then some ('\ufffd', c)
  else some (Char.ofNat code, c)

/-- Reads the characters of a URI, the ones read so far latest first. -/
def uriChars : (fuel : Nat) → List Char → Cursor → Option (List Char × Cursor)
  | 0, read, c => some (read.reverse, c)
  | fuel + 1, read, c => do
    let c ← c.want 1
    match c.next with
    | none => some (read.reverse, c)
    | some ch =>
      if ch == '%' then do
        let (ch, c) ← percentChar c
        uriChars fuel (ch :: read) c
      else if isUriChar ch then uriChars fuel (ch :: read) (c.skip 1)
      else some (read.reverse, c)

/-- Reads a URI, which may be empty. -/
def uri (c : Cursor) : Option (List Char × Cursor) := uriChars (c.size + 1) [] c

/-- Reads a handle: `!`, or a name between two of them, or the beginning of a URI that looks like
one.  The characters read are given. -/
def tagHandle (c : Cursor) : Option (List Char × Cursor) := do
  let c ← c.want 1
  if c.next != some '!' then none
  let (name, c) ← nameChars (c.skip 1)
  if c.next == some '!' then some ('!' :: (name ++ ['!']), c.skip 1) else some ('!' :: name, c)

/-- Reads a tag from its `!`. -/
def tagToken (c : Cursor) : Option (Token × Cursor) := do
  let c ← c.want 2
  let (handle, suffix, c) ←
    if c.ahead 1 == some '<' then do
      let (suffix, c) ← uri (c.skip 2)
      if suffix.isEmpty || c.next != some '>' then none
      else some ([], suffix, c.skip 1)
    else do
      let (handle, c) ← tagHandle c
      let (rest, c) ← uri c
      if 1 < handle.length && handle.getLast? == some '!' then
        if rest.isEmpty then none else some (handle, rest, c)
      else
        -- no handle after all: what was read belongs to the suffix
        let suffix := handle.drop 1 ++ rest
        if suffix.isEmpty then some ([], ['!'], c) else some (['!'], suffix, c)
  let c ← c.want 1
  if endsWord c.next then some (.tag (String.ofList handle) (String.ofList suffix), c) else none

/-! ## Directives -/

/-- Reads a number of one or two digits. -/
def versionNumber (c : Cursor) : Option (Nat × Cursor) := do
  let c ← c.want 1
  let digits := c.chars.takeWhile Char.isDigit
  if digits.isEmpty || 2 < digits.length then none
  let c ← c.pass 1 digits.length
  some (digits.foldl (fun n d => n * 10 + (d.toNat - '0'.toNat)) 0, c)

/-- Reads the version after `%YAML`. -/
def versionDirective (c : Cursor) : Option (Token × Cursor) := do
  let (major, c) ← versionNumber (← c.passWhile isBlank)
  if c.next != some '.' then none
  let (minor, c) ← versionNumber (c.skip 1)
  some (.version major minor, c)

/-- Reads the handle and what it stands for after `%TAG`. -/
def handleDirective (c : Cursor) : Option (Token × Cursor) := do
  let (handle, c) ← tagHandle (← c.passWhile isBlank)
  if handle.getLast? != some '!' then none
  let c ← c.want 1
  if !c.next.any isBlank then none
  let (expansion, c) ← uri (← c.passWhile isBlank)
  if expansion.isEmpty || !endsWord c.next then none
  some (.handle (String.ofList handle) (String.ofList expansion), c)

/-- Reads a directive from its `%`, with the rest of its line. -/
def directive (c : Cursor) : Option (Token × Cursor) := do
  let (name, c) ← nameChars (c.skip 1)
  if name.isEmpty || !endsWord c.next then none
  let (token, c) ←
    if name == "YAML".toList then versionDirective c
    else if name == "TAG".toList then handleDirective c
    else none
  some (token, ← c.passLine)

end Yaml
end ClosedForm
