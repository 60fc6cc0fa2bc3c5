import ClosedForm.Proofs.IntegerValued
import ClosedForm.Proofs.Poly.Length

/-!
# Interpolation inverts sampling

From values to a polynomial and back again, nothing is lost: the interpolant takes the values.  From a
polynomial to its values and back, all that is lost is how it was represented: the interpolant of as
many values as a polynomial has coefficients is that polynomial, and reduced it is the same list over
the same divider, zeros above the degree included.

* `Poly.evaluate_interpolate` — the interpolant takes the values.
* `Poly.reduced_interpolate_eq` — **a polynomial is found again from its values.**
* `Simplifier.check_samples` — a closed form passes the check of its own samples.
* `interpolate_inverts_sampling` — all three.
-/

namespace ClosedForm

open Polynomial

/-! ## Mapping with failures -/

/-- A list is mapped if every element is. -/
lemma mapM_eq_ok {ε α β : Type} {f : α → Except ε β} {g : α → β} {xs : List α}
    (h : ∀ x ∈ xs, f x = .ok (g x)) : xs.mapM f = .ok (xs.map g) := by
  induction xs with
  | nil => rfl
  | cons x xs ih =>
      rw [List.mapM_cons, h x (List.mem_cons_self ..), ih fun y hy => h y (List.mem_cons_of_mem x hy)]
      rfl

namespace Poly

/-! ## Values, polynomial, values -/

/-- The interpolant takes the values. -/
lemma evaluate_interpolate {values : List Int} {i : ℕ} (hi : i < values.length) :
    (interpolate values).evaluate i = .ok values[i] := by
  have hval := eval_interpolate hi
  rw [List.getD_eq_getElem values 0 hi] at hval
  rw [evaluate_eq_ok_iff]
  exact_mod_cast hval

lemma evaluate_reduced (p : Poly) (n : ℤ) : p.reduced.evaluate n = p.evaluate n :=
  evaluate_congr (toPolynomial_reduced p) n

/-! ## Polynomial, values, polynomial -/

/-- **A polynomial is found again from its values,** as many as it has coefficients. -/
lemma reduced_interpolate_eq {q : Poly} {values : List Int} (hlength : values.length = q.length)
    (hval : ∀ i < values.length, q.toPolynomial.eval (i : ℚ) = (values.getD i 0 : ℤ)) :
    (interpolate values).reduced = q.reduced := by
  have hdegree : q.toPolynomial.degree < values.length := hlength ▸ degree_toPolynomial_lt q
  have hpoly : (interpolate values).toPolynomial = q.toPolynomial :=
    toPolynomial_interpolate_eq hdegree hval
  refine eq_of_toPolynomial_eq ?_ (inLowestTerms_reduced _) (inLowestTerms_reduced _) ?_
  · rw [toPolynomial_reduced, toPolynomial_reduced, hpoly]
  · rw [length_reduced, length_reduced, length_interpolate, hlength]

/-- A polynomial that is an integer at 0, 1, … has its values taken there. -/
lemma exists_samples {q : Poly} (h : ∀ i < q.length, IntegralAt q.toPolynomial (i : ℕ)) :
    ∃ values : List Int, (List.range q.length).mapM (fun i : ℕ => q.evaluate i) = .ok values ∧
      values.length = q.length ∧
      ∀ i < values.length, q.toPolynomial.eval (i : ℚ) = (values.getD i 0 : ℤ) := by
  choose! g hg using h
  refine ⟨(List.range q.length).map g, mapM_eq_ok fun i hi => ?_, by simp, fun i hi => ?_⟩
  · exact (evaluate_eq_ok_iff q i (g i)).2 (hg i (List.mem_range.1 hi))
  · have hlt : i < q.length := by simpa using hi
    rw [List.getD_eq_getElem _ 0 hi, List.getElem_map, List.getElem_range, ← hg i hlt]
    rfl

end Poly

/-! ## Closed forms -/

/-- **A closed form passes the check of its own samples,** whatever the ranges and the limits. -/
lemma Simplifier.check_samples {s : Simplifier} {e : Expr} {p : Poly} {d : Weight}
    (hp : s.simplify e = .ok p) (hd : e.degree = .ok d) : check e (some p) 0 d = none := by
  have hhole : e ≠ .hole := by
    rintro rfl
    cases hp
  rw [check_eq_none_iff hhole]
  intro n hlower hupper
  lift n to ℕ using hlower
  obtain ⟨v, hpv, hev⟩ := exists_value_at_sample hp hd hupper
  exact ⟨v, hev, hpv⟩

/-- **Interpolation inverts sampling.**  The interpolant of a list of integers has as many coefficients
as the list has values, over a divider that is not zero, and takes the values, reduced or not; so a
closed form passes the check of the points that were sampled.  And a polynomial that is an integer at
0, 1, …, at as many points as it has coefficients, is in lowest terms the interpolant of its values
there. -/
theorem interpolate_inverts_sampling :
    (∀ values : List Int,
      (Poly.interpolate values).length = values.length ∧
      (Poly.interpolate values).reduced.length = values.length ∧
      (Poly.interpolate values).divider ≠ 0 ∧ (Poly.interpolate values).reduced.divider ≠ 0 ∧
      ∀ (i : ℕ) (hi : i < values.length),
        (Poly.interpolate values).evaluate i = .ok values[i] ∧
        (Poly.interpolate values).reduced.evaluate i = .ok values[i]) ∧
    (∀ (s : Simplifier) (e : Expr) (p : Poly) (d : Weight), s.simplify e = .ok p →
      e.degree = .ok d → check e (some p) 0 d = none) ∧
    ∀ q : Poly, (∀ i < q.length, IntegralAt q.toPolynomial (i : ℕ)) →
      ∃ values : List Int, (List.range q.length).mapM (fun i : ℕ => q.evaluate i) = .ok values ∧
        (Poly.interpolate values).reduced = q.reduced := by
  refine ⟨fun values => ?_, fun s e p d hp hd => Simplifier.check_samples hp hd, fun q hq => ?_⟩
  · have hlength := Poly.length_interpolate values
    refine ⟨hlength, (Poly.length_reduced _).trans hlength, Poly.divider_ne_zero _,
      Poly.divider_ne_zero _, fun i hi => ?_⟩
    have hval := Poly.evaluate_interpolate hi
    exact ⟨hval, (Poly.evaluate_reduced _ _).trans hval⟩
  · obtain ⟨values, hsamples, hlength, hval⟩ := Poly.exists_samples hq
    exact ⟨values, hsamples, Poly.reduced_interpolate_eq hlength hval⟩

/-- The sum of squares up to `x`, not in lowest terms and over a negative divider. -/
def scaledPyramid : Poly := ⟨[0, -2, -6, -4], -12, by decide⟩

/-- Its values at 0, 1, 2, 3 give it back in lowest terms, and it is the closed form of the sum. -/
theorem interpolate_scaledPyramid :
    (∃ values, (List.range 4).mapM (fun i : ℕ => scaledPyramid.evaluate i) = .ok values ∧
      (Poly.interpolate values).reduced = scaledPyramid.reduced ∧
      (Poly.interpolate values).evaluate 3 = .ok 14) ∧
    ∃ p, ({} : Simplifier).simplify squarePyramid = .ok p ∧
      check squarePyramid (some p) 0 3 = none := by
  obtain ⟨hvalues, hcheck, hback⟩ := interpolate_inverts_sampling
  have hsamples : (List.range 4).mapM (fun i : ℕ => scaledPyramid.evaluate i) =
      .ok [0, 1, 5, 14] := rfl
  have hintegral : ∀ i < scaledPyramid.length, IntegralAt scaledPyramid.toPolynomial (i : ℕ) := by
    have hpoints : ∀ i < 4, ∃ v, scaledPyramid.evaluate (i : ℕ) = .ok v := by
      intro i hi
      interval_cases i
      exacts [⟨0, rfl⟩, ⟨1, rfl⟩, ⟨5, rfl⟩, ⟨14, rfl⟩]
    intro i hi
    obtain ⟨v, hv⟩ := hpoints i hi
    exact ⟨v, (Poly.evaluate_eq_ok_iff _ i v).1 hv⟩
  obtain ⟨values, htaken, hreduced⟩ := hback scaledPyramid hintegral
  cases htaken.symm.trans hsamples
  obtain ⟨-, -, -, -, hpoint⟩ := hvalues [0, 1, 5, 14]
  have hp : ({} : Simplifier).simplify squarePyramid = .ok ⟨[0, 1, 3, 2], 6, by decide⟩ := rfl
  exact ⟨⟨_, hsamples, hreduced, (hpoint 3 (by decide)).1⟩, _, hp,
    hcheck {} squarePyramid _ 3 hp rfl⟩

end ClosedForm
