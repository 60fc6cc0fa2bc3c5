import ClosedForm.Text.Blank

/-!
# Snake case

Names in other conventions (`camelCase`, `kebab-case`, `Title Case`) as lower-case words joined by
underscores.  A word ends where the kind of character changes between small letters, capitals and
digits, a row of capitals counting as one word up to the capital that begins the next.  Only ASCII
letters and digits have a kind.

The rules are those of a library.  They only decide which tool a name stands for, and what is proved of
a tool is proved of every name that stands for it, so no general statement leans on the rules.
-/

namespace ClosedForm
namespace Text

/-- The characters that separate words, each of which becomes an underscore. -/
def isSeparator (c : Char) : Bool := c == ' ' || c == '_' || c == '-' || c == '.'

/-- Whether the kind of character changes between two neighbours, other than from a letter's small
form to a separator or the like. -/
def changes (c next : Char) : Bool :=
  (c.isUpper && (next.isLower || next.isDigit)) ||
    (c.isLower && (next.isUpper || next.isDigit)) ||
    (c.isDigit && (next.isUpper || next.isLower))

/-- The snake case of characters, given whether a capital stands right before them. -/
def snakeChars (afterCapital : Bool) : List Char → List Char
  | [] => []
  | [c] => [if isSeparator c then '_' else c.toLower]
  | c :: next :: rest =>
    let tail := snakeChars c.isUpper (next :: rest)
    if changes c next then
      -- the last of several capitals begins the next word
      (if c.isUpper && next.isLower && afterCapital then ['_'] else []) ++
        c.toLower :: ((if c.isLower || c.isDigit || next.isDigit then ['_'] else []) ++ tail)
    else (if isSeparator c then '_' else c.toLower) :: tail

/-- A name in snake case, without the blanks around it. -/
def snake (s : String) : String := String.ofList (snakeChars false (trimBlank s.toList))

end Text
end ClosedForm
