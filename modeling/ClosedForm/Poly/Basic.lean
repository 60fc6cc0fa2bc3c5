import ClosedForm.Error
import ClosedForm.Misuse

/-!
# Polynomials

A polynomial with rational coefficients, held as integer coefficients in ascending powers over one
shared divider that is not zero.  The representation is kept as it is built: `2x/2` and `x/1` are
different until both are reduced, and zeros above the degree stay until they are trimmed.

This module has the type, its builders, and the two operations that change the representation and
not the polynomial: `reduced` and `trimmed`.
-/

namespace ClosedForm

/-- The polynomial `(c₀ + c₁ x + c₂ x² + …) / divider`. -/
structure Poly where
  /-- The coefficients over the divider, the constant term first. -/
  coefficients : List Int
  /-- What every coefficient is divided by. -/
  divider : Int
  divider_ne_zero : divider ≠ 0
deriving DecidableEq

/-! ## Divisors and multiples of integers -/

/-- The greatest common divisor, never negative. -/
def commonDivisor (a b : Int) : Int := Int.gcd a b

/-- A least common multiple with the sign of `a * b`. -/
def commonMultiple (a b : Int) : Int :=
  let g := commonDivisor a b
  if g = 0 then 0 else a.tdiv g * b

theorem commonMultiple_ne_zero {a b : Int} (ha : a ≠ 0) (hb : b ≠ 0) : commonMultiple a b ≠ 0 := by
  have hg : (Int.gcd a b : Int) ≠ 0 := by
    simp [Int.gcd_eq_zero_iff, ha]
  unfold commonMultiple commonDivisor
  rw [if_neg hg]
  refine Int.mul_ne_zero ?_ hb
  intro h
  have hd := Int.mul_tdiv_cancel' (Int.gcd_dvd_left a b)
  rw [h, Int.mul_zero] at hd
  exact ha hd.symm

namespace Poly

/-! ## Builders -/

/-- Coefficients over a divider, which must not be zero. -/
def ofDivider (coefficients : List Int) (divider : Int) : Except Error Poly :=
  if h : divider = 0 then .error (.sentinel .divisionByZero) else .ok ⟨coefficients, divider, h⟩

/-- Coefficients and divider as they come from outside: a missing coefficient counts as zero, and
a missing divider is as bad as zero. -/
def ofOptions (coefficients : List (Option Int)) (divider : Option Int) : Except Error Poly :=
  ofDivider (coefficients.map (·.getD 0)) (divider.getD 0)

/-- A literal polynomial: the divider, then the coefficients.  Zero as the divider is a misuse. -/
def literal (divider : Int) (coefficients : List Int) : Except Misuse Poly :=
  if h : divider = 0 then .error .zeroDivider else .ok ⟨coefficients, divider, h⟩

/-- The polynomial without coefficients. -/
def zero : Poly := ⟨[], 1, by decide⟩

/-- A constant polynomial. -/
def constant (v : Int) : Poly := ⟨[v], 1, by decide⟩

/-! ## Length and degree -/

/-- The number of coefficients, zeros included. -/
def length (p : Poly) : Nat := p.coefficients.length

/-- The coefficients up to the last one that is not zero. -/
def trimZeros (cs : List Int) : List Int := (cs.reverse.dropWhile (· == 0)).reverse

/-- The highest power whose coefficient is not zero, or -1 when there is none. -/
def degree (p : Poly) : Int := (trimZeros p.coefficients).length - 1

/-- The same polynomial without the zeros above its degree. -/
def trimmed (p : Poly) : Poly := { p with coefficients := trimZeros p.coefficients }

/-! ## Lowest terms -/

/-- The greatest common divisor of all coefficients and the divider, with the sign of the
divider. -/
def content (p : Poly) : Int :=
  let g := commonDivisor (p.coefficients.foldl commonDivisor 0) p.divider
  if p.divider < 0 then -g else g

theorem content_dvd_divider (p : Poly) : p.content ∣ p.divider := by
  have h : commonDivisor (p.coefficients.foldl commonDivisor 0) p.divider ∣ p.divider :=
    Int.gcd_dvd_right _ _
  unfold content
  dsimp only
  split
  · exact Int.neg_dvd.2 h
  · exact h

/-- The same polynomial in lowest terms over a positive divider. -/
def reduced (p : Poly) : Poly where
  coefficients := p.coefficients.map (·.tdiv p.content)
  divider := p.divider.tdiv p.content
  divider_ne_zero := by
    intro h
    have hd := Int.mul_tdiv_cancel' p.content_dvd_divider
    rw [h, Int.mul_zero] at hd
    exact p.divider_ne_zero hd.symm

end Poly
end ClosedForm
