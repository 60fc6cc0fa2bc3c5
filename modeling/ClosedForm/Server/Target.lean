import ClosedForm.Text.Hexadecimal

/-!
# What a request is for

A request names what it is for by a *target*: a path, after a question mark a query, and before the
path possibly a scheme and the server's own address.  In a path any byte may be written as a percent sign
and two hexadecimal digits, so two targets with different texts can have the same path.  Not every text
is a target; a request whose text is none does not reach the router.

The address is not looked into: whether it is the address of a host is not asked.
-/

namespace ClosedForm
namespace Server

/-- The target of a request. -/
structure Target where
  /-- The scheme and the host before the path; mostly empty. -/
  origin : String
  /-- The path, its escapes resolved. -/
  path : String
  /-- The query with the question mark before it; empty when there is none. -/
  query : String
deriving DecidableEq

/-- Resolves the escapes of a path, unless a percent sign is not followed by two hexadecimal digits.  A
byte beyond ASCII becomes the character with its number, which no route has. -/
def unescape? : List Char → Option (List Char)
  | '%' :: a :: b :: cs => do
    let n ← Text.ofHex? [a, b]
    return Char.ofNat n :: (← unescape? cs)
  | '%' :: _ => none
  | c :: cs => do return c :: (← unescape? cs)
  | [] => some []

namespace Target

/-- Whether a character can stand in a scheme.  A scheme begins with a letter. -/
def isSchemeChar (c : Char) : Bool := c.isAlphanum || c == '+' || c == '-' || c == '.'

/-- Splits the scheme, with its colon, from the rest of a target.  What begins with a colon has none and
is no target. -/
def splitScheme? (cs : List Char) : Option (List Char × List Char) :=
  let scheme := cs.takeWhile isSchemeChar
  match scheme, cs.drop scheme.length with
  | [], ':' :: _ => none
  | first :: _, ':' :: rest =>
    if first.isAlpha then some (scheme.map Char.toLower ++ [':'], rest) else some ([], cs)
  | _, _ => some ([], cs)

/-- The scheme and the host of a target, given the scheme and what stands between it and the query, and
the path.  Two slashes begin a host only after a scheme.  After a scheme there can be something else than
a path, which is kept with the scheme; without a scheme there must be a path. -/
def splitHost? (scheme front : List Char) : Option (List Char × List Char) :=
  match scheme, front with
  | [], '/' :: _ => some ([], front)
  | [], _ => none
  | scheme, '/' :: '/' :: rest =>
    let host := rest.takeWhile (· != '/')
    some (scheme ++ '/' :: '/' :: host, rest.drop host.length)
  | scheme, '/' :: _ => some (scheme, front)
  | scheme, _ => some (scheme ++ front, [])

/-- Reads a target, if the text is one.  It has no blanks and no control characters, and the first
question mark begins the query.  A lone star is a target of its own. -/
def ofString? (s : String) : Option Target := do
  let cs := s.toList
  if cs.any fun c => c.val ≤ ' '.val || c == '\x7f' then none
  else if cs == ['*'] then some ⟨"", "*", ""⟩
  else
    let (scheme, rest) ← splitScheme? cs
    let front := rest.takeWhile (· != '?')
    let (origin, path) ← splitHost? scheme front
    let path ← unescape? path
    return ⟨String.ofList origin, String.ofList path, String.ofList (rest.drop front.length)⟩

/-- The target that a text is.  The path of a text that is none is empty, as no route's is. -/
def ofString (s : String) : Target := (ofString? s).getD ⟨"", "", ""⟩

/-- The target with another path, one that needs no escapes. -/
def withPath (t : Target) (path : String) : String := t.origin ++ path ++ t.query

end Target
end Server
end ClosedForm
