/-!
# Misuse of a builder

Mistakes of the program that builds expressions and polynomials.  No input of that program can
cause them, so they are kept apart from errors and never wrapped or gathered.
-/

namespace ClosedForm

/-- A mistake of the program that calls a builder. -/
inductive Misuse
  /-- A summation without a builder for its body. -/
  | noBody
  /-- A literal polynomial over zero. -/
  | zeroDivider
deriving DecidableEq

/-- What the program is told when it makes the mistake. -/
def Misuse.message : Misuse → String
  | noBody => "gosigma: summation body builder is nil"
  | zeroDivider => "gosigma: divider is zero"

end ClosedForm
