import ClosedForm.Simplify

/-!
# Limits on tool calls

How much work one tool call may do.  A limit that is not positive is none.
-/

namespace ClosedForm

/-- The limits of a tool call. -/
structure Limits where
  /-- The largest degree estimate that is simplified, and the largest degree that is
  interpolated. -/
  maxDegree : Int64
  /-- The most summation terms one evaluation may add up. -/
  maxTerms : Int64
  /-- The most points one check may visit. -/
  maxCheckRange : Int64
deriving DecidableEq

namespace Limits

/-- The limits when none are configured. -/
def default : Limits := ⟨64, 1048576, 10000⟩

/-- The smaller of the configured degree limit and a requested one. -/
def degreeCap (limits : Limits) (requested : Int64) : Int64 :=
  if 0 < requested && (limits.maxDegree ≤ 0 || requested < limits.maxDegree) then requested
  else limits.maxDegree

/-- The simplifier of a call that requests a degree limit of its own. -/
def simplifier (limits : Limits) (requested : Int64) : Simplifier :=
  ⟨limits.degreeCap requested, limits.maxTerms⟩

/-- Refuses more values than a polynomial within the degree limit has. -/
def admitValues (limits : Limits) (count : Nat) : Except Error Unit :=
  let degree : Int := count - 1
  if 0 < limits.maxDegree && limits.maxDegree.toInt < degree then
    .error (.within (.tooManyValues count degree limits.maxDegree.toInt) (.sentinel .degreeLimit))
  else .ok ()

/-- Refuses a check of more points than allowed.  The distance of the bounds is taken in unsigned
words: for bounds in order the difference modulo 2⁶⁴ is the distance itself. -/
def admitRange (limits : Limits) (lower upper : Int64) : Except Error Unit :=
  if 0 < limits.maxCheckRange && lower ≤ upper &&
      limits.maxCheckRange.toUInt64 ≤ upper.toUInt64 - lower.toUInt64 then
    .error (.within (.tooManyPoints lower.toInt upper.toInt limits.maxCheckRange.toInt)
      (.sentinel .rangeLimit))
  else .ok ()

end Limits
end ClosedForm
