import ClosedForm.Proofs.Check
import ClosedForm.Proofs.Expr.Graded
import ClosedForm.Proofs.Expr.Growth
import ClosedForm.Proofs.Poly.Interpolation
import ClosedForm.Proofs.Poly.LowestTerms
import ClosedForm.Simplify

/-!
# When the closed form is right

A simplification samples an expression at 0, 1, …, d, where d is its degree estimate, and
interpolates.  What it returns is the polynomial through these samples; this file says when that is
the expression.

* `exists_samples` — what a successful simplification has computed.
* `toPolynomial_eq_of_agreesAt` — a polynomial of at most the estimated degree that agrees with the
  expression at the sampled points is the closed form.
* `simplify_eq_evaluate_of_uncrossed` — **soundness:** where no summation has a range of negative
  length, at the samples and at `n`, the closed form is right at `n`.
* `simplify_complete` — **completeness:** if the expression is a polynomial on the naturals at all,
  crossed ranges or not, the closed form is that polynomial.
* `simplify_eq_evaluate_on_naturals` — the closed form passes every check of `Covered` naturals;
  `simplify_ne_evaluate_descending` is a check of other naturals that it fails.
-/

namespace ClosedForm

open Polynomial

namespace Simplifier

variable {s : Simplifier} {e : Expr} {p : Poly} {d : Weight}

/-! ## What was sampled -/

lemma sampleFrom_succ_eq_ok_iff {count i : ℕ} {values : List Int} :
    s.sampleFrom e (count + 1) i = .ok values ↔
      ∃ v rest, e.evaluateWithin i s.maxTerms = .ok v ∧
        s.sampleFrom e count (i + 1) = .ok rest ∧ values = v :: rest := by
  rw [sampleFrom]
  constructor
  · intro h
    cases hv : e.evaluateWithin i s.maxTerms with
    | error err =>
        rw [hv] at h
        cases h
    | ok v =>
        rw [hv] at h
        obtain ⟨rest, hrest, hvalues⟩ := exists_of_bind_eq_ok h
        cases hvalues
        exact ⟨v, rest, rfl, hrest, rfl⟩
  · rintro ⟨v, rest, hv, hrest, rfl⟩
    simp only [hv, hrest]
    rfl

lemma length_of_sampleFrom_eq_ok {count i : ℕ} {values : List Int}
    (h : s.sampleFrom e count i = .ok values) :
    values.length = count ∧
      ∀ j < count, e.evaluateWithin ((i + j : ℕ) : ℤ) s.maxTerms = .ok (values.getD j 0) := by
  induction count generalizing i values with
  | zero =>
      cases h
      exact ⟨rfl, fun j hj => absurd hj (Nat.not_lt_zero j)⟩
  | succ count ih =>
      obtain ⟨v, rest, hv, hrest, rfl⟩ := sampleFrom_succ_eq_ok_iff.1 h
      obtain ⟨hlen, hval⟩ := ih hrest
      refine ⟨by rw [List.length_cons, hlen], fun j hj => ?_⟩
      cases j with
      | zero => simpa using hv
      | succ j =>
          rw [List.getD_cons_succ, ← hval j (by omega), Nat.add_right_comm, Nat.add_assoc]

lemma degree_of_estimate_eq_ok (h : estimate e = .ok d) : e.degree = .ok d := by
  unfold estimate at h
  split at h
  · cases h
  · cases hd : e.degree with
    | error err =>
        rw [hd] at h
        cases h
    | ok d' =>
        rw [hd] at h
        exact h

/-- **What a successful simplification has computed:** the exact values at 0, 1, …, d, and the
polynomial through them in lowest terms.  The term limit has changed none of the values. -/
lemma exists_samples (hp : s.simplify e = .ok p) (hd : e.degree = .ok d) :
    ∃ values : List Int, values.length = e.naturalDegree + 1 ∧
      (∀ i < values.length, e.evaluate i = .ok (values.getD i 0)) ∧ p = closedForm values := by
  obtain ⟨d', hd', h⟩ := exists_of_bind_eq_ok hp
  obtain ⟨-, -, h⟩ := exists_of_bind_eq_ok h
  obtain ⟨values, hvalues, h⟩ := exists_of_bind_eq_ok h
  cases h
  cases hd.symm.trans (degree_of_estimate_eq_ok hd')
  obtain ⟨hlen, hval⟩ := length_of_sampleFrom_eq_ok hvalues
  rw [(Expr.degree_represents hd).toNatClampNeg] at hlen hval
  refine ⟨values, hlen, fun i hi => ?_, rfl⟩
  have hwithin := hval i (by omega)
  rw [Nat.zero_add] at hwithin
  have hexact := Expr.evaluate_eq_denote (Expr.scoped_of_degree hd) i
  rw [hexact, Expr.eq_of_evaluateWithin_eq_ok hexact hwithin]

lemma exists_degree (hp : s.simplify e = .ok p) : ∃ d, e.degree = .ok d := by
  obtain ⟨d, hd, -⟩ := exists_of_bind_eq_ok hp
  exact ⟨d, degree_of_estimate_eq_ok hd⟩

/-! ## What the samples determine -/

/-- **The samples determine the closed form.** -/
lemma toPolynomial_eq_of_agreesAt (hp : s.simplify e = .ok p) (hd : e.degree = .ok d) {q : ℚ[X]}
    (hdeg : q.natDegree ≤ e.naturalDegree)
    (hagree : ∀ i ≤ e.naturalDegree, e.AgreesAt q i) : p.toPolynomial = q := by
  obtain ⟨values, hlen, hval, rfl⟩ := exists_samples hp hd
  rw [closedForm, Poly.toPolynomial_reduced]
  have hlt : q.degree < values.length := by
    refine degree_le_natDegree.trans_lt ?_
    exact_mod_cast (by omega : q.natDegree < values.length)
  refine Poly.toPolynomial_interpolate_eq hlt fun i hi => ?_
  obtain ⟨v, hv, hq⟩ := hagree i (by omega)
  cases hv.symm.trans (hval i hi)
  exact hq

lemma inLowestTerms_of_simplify (hp : s.simplify e = .ok p) : p.InLowestTerms := by
  obtain ⟨d, hd⟩ := exists_degree hp
  obtain ⟨values, -, -, rfl⟩ := exists_samples hp hd
  exact Poly.inLowestTerms_reduced _

/-- At the sampled points the closed form is right, whatever the ranges. -/
lemma exists_value_at_sample (hp : s.simplify e = .ok p) (hd : e.degree = .ok d) {n : ℕ}
    (hn : (n : ℤ) ≤ d.toInt) : ∃ v, p.evaluate n = .ok v ∧ e.evaluate n = .ok v := by
  have hdegree : d.toInt = e.naturalDegree := Expr.degree_represents hd
  obtain ⟨values, hlen, hval, rfl⟩ := exists_samples hp hd
  have hlt : n < values.length := by omega
  refine ⟨values.getD n 0, ?_, hval n hlt⟩
  rw [Poly.evaluate_eq_ok_iff, closedForm, Poly.toPolynomial_reduced]
  exact_mod_cast Poly.eval_interpolate hlt

/-! ## Soundness -/

/-- No summation has a range of negative length at the points 0, 1, …, `d`. -/
def UncrossedSamples (e : Expr) (d : Weight) : Prop :=
  ∀ i : ℕ, (i : ℤ) ≤ d.toInt → e.Uncrossed (Scope.root (i : ℤ))

instance (e : Expr) (d : Weight) : Decidable (UncrossedSamples e d) :=
  decidable_of_iff (∀ i < (d.toInt + 1).toNat, e.Uncrossed (Scope.root (i : ℤ))) (by
    refine forall_congr' fun i => ?_
    rw [Int.lt_toNat, Int.lt_add_one_iff])

lemma exists_value_of_uncrossed (hp : s.simplify e = .ok p) (hd : e.degree = .ok d)
    (hsamples : UncrossedSamples e d) {n : ℤ} (hn : e.Uncrossed (Scope.root n)) :
    ∃ v, p.evaluate n = .ok v ∧ e.evaluate n = .ok v := by
  have hscoped := Expr.scoped_of_degree hd
  have hdegree : d.toInt = e.naturalDegree := Expr.degree_represents hd
  obtain ⟨q, hq, hqval⟩ := Expr.exists_polynomial hscoped
  have hpq : p.toPolynomial = q := by
    refine toPolynomial_eq_of_agreesAt hp hd hq fun i hi => ?_
    refine ⟨_, Expr.evaluate_eq_denote hscoped i, ?_⟩
    exact_mod_cast hqval i (hsamples i (by omega))
  refine ⟨_, ?_, Expr.evaluate_eq_denote hscoped n⟩
  rw [Poly.evaluate_eq_ok_iff, hpq, hqval n hn]

/-- **Soundness up to negative lengths.**  If no summation that an evaluation reaches at 0, 1, …, d or
at `n` has a range of negative length, the closed form and the expression both have a value at `n`,
and it is the same. -/
theorem simplify_eq_evaluate_of_uncrossed (s : Simplifier) (e : Expr) (p : Poly)
    (hp : s.simplify e = .ok p) :
    ∃ d, e.degree = .ok d ∧ ∀ n : ℤ, UncrossedSamples e d → e.Uncrossed (Scope.root n) →
      ∃ v, p.evaluate n = .ok v ∧ e.evaluate n = .ok v := by
  obtain ⟨d, hd⟩ := exists_degree hp
  exact ⟨d, hd, fun n hsamples hn => exists_value_of_uncrossed hp hd hsamples hn⟩

/-- The sum of `i · j` over `x ≤ i ≤ 5` and `i ≤ j ≤ 6`. -/
def staircase : Expr :=
  .sum .param (.const 5) "i" (.sum (.index "i") (.const 6) "j" (.mul (.index "i") (.index "j")))

/-- The closed form of the staircase is right at a negative point. -/
theorem simplify_staircase_at_neg_three :
    ∃ p v, ({} : Simplifier).simplify staircase = .ok p ∧ p.evaluate (-3) = .ok v ∧
      staircase.evaluate (-3) = .ok v := by
  have hp : ({} : Simplifier).simplify staircase =
      .ok ⟨[5520, 250, -243, -10, 3], 24, by decide⟩ := rfl
  have hfour : staircase.degree = .ok 4 := rfl
  obtain ⟨d, hd, h⟩ := simplify_eq_evaluate_of_uncrossed {} staircase _ hp
  cases hd.symm.trans hfour
  obtain ⟨v, hv⟩ := h (-3) (by decide) (by decide)
  exact ⟨_, v, hp, hv⟩

/-! ## Completeness -/

/-- The expression is a rational polynomial on the naturals. -/
def AgreesOnNaturals (e : Expr) (q : ℚ[X]) : Prop := ∀ n : ℕ, e.AgreesAt q n

/-- A polynomial that the expression is on the naturals is the closed form: the growth of the
expression bounds its degree by the estimate, so that the samples determine it. -/
lemma toPolynomial_eq_of_agreesOnNaturals (hp : s.simplify e = .ok p) {q : ℚ[X]}
    (hq : AgreesOnNaturals e q) : p.toPolynomial = q := by
  obtain ⟨d, hd⟩ := exists_degree hp
  have hall : {n : ℕ | e.AgreesAt q n} = Set.univ := Set.eq_univ_of_forall hq
  have hinfinite : {n : ℕ | e.AgreesAt q n}.Infinite := hall ▸ Set.infinite_univ
  have hdeg := Expr.natDegree_le_of_infinite_agreesAt (Expr.scoped_of_degree hd) hinfinite
  exact toPolynomial_eq_of_agreesAt hp hd hdeg fun i _ => hq i

/-- The closed form is right on the naturals exactly if its polynomial is. -/
lemma evaluate_eq_iff_agreesOnNaturals (hp : s.simplify e = .ok p) :
    (∀ n : ℕ, p.evaluate n = e.evaluate n) ↔ AgreesOnNaturals e p.toPolynomial := by
  obtain ⟨d, hd⟩ := exists_degree hp
  refine forall_congr' fun n => ?_
  have hvalue := Expr.evaluate_eq_denote (Expr.scoped_of_degree hd) n
  rw [hvalue, Poly.evaluate_eq_ok_iff]
  constructor
  · intro h
    exact ⟨_, hvalue, by exact_mod_cast h⟩
  · rintro ⟨v, hv, hq⟩
    cases hv.symm.trans hvalue
    exact_mod_cast hq

/-- **Completeness of sampling.**  The closed form is right on the naturals exactly if the expression is
some polynomial there.  That polynomial is then the closed form, whose trimmed representation is the
only one in lowest terms, so that every expression with the same values has the same closed form. -/
theorem simplify_complete (s : Simplifier) (e : Expr) (p : Poly) (hp : s.simplify e = .ok p) :
    ((∃ q, AgreesOnNaturals e q) ↔ ∀ n : ℕ, p.evaluate n = e.evaluate n) ∧
      ∀ q, AgreesOnNaturals e q →
        p.toPolynomial = q ∧
        (p.trimmed.toPolynomial = q ∧ p.trimmed.InLowestTerms ∧
          ∀ r : Poly, r.toPolynomial = q → r.InLowestTerms → r.trimmed = p.trimmed) ∧
        ∀ (s' : Simplifier) (e' : Expr) (p' : Poly), s'.simplify e' = .ok p' →
          AgreesOnNaturals e' q → p'.trimmed = p.trimmed := by
  have hlowest := inLowestTerms_of_simplify hp
  constructor
  · rw [evaluate_eq_iff_agreesOnNaturals hp]
    constructor
    · rintro ⟨q, hq⟩
      rwa [toPolynomial_eq_of_agreesOnNaturals hp hq]
    · exact fun h => ⟨_, h⟩
  · intro q hq
    have hpq := toPolynomial_eq_of_agreesOnNaturals hp hq
    have hunique (r : Poly) (hr : r.toPolynomial = q) (hr' : r.InLowestTerms) :
        r.trimmed = p.trimmed := Poly.trimmed_eq_of_toPolynomial_eq (hr.trans hpq.symm) hr' hlowest
    refine ⟨hpq, ⟨by rw [Poly.toPolynomial_trimmed, hpq], hlowest.trimmed, hunique⟩, ?_⟩
    intro s' e' p' hp' hq'
    exact hunique p' (toPolynomial_eq_of_agreesOnNaturals hp' hq') (inLowestTerms_of_simplify hp')

/-- The sum over a range whose length is -1 everywhere. -/
def reversed : Expr := .sum (.add .param (.const 2)) .param "i" (.index "i")

/-- A summation that is crossed at every point is the polynomial 0, and its closed form is right. -/
theorem simplify_reversed_complete :
    ∃ p, ({} : Simplifier).simplify reversed = .ok p ∧ AgreesOnNaturals reversed 0 ∧
      p.toPolynomial = 0 ∧ ∀ n : ℕ, p.evaluate n = reversed.evaluate n := by
  have hp : ({} : Simplifier).simplify reversed = .ok ⟨[0, 0, 0], 1, by decide⟩ := rfl
  have hzero : AgreesOnNaturals reversed 0 := by
    intro n
    have hscoped : reversed.Scoped [] := by simp [reversed, Expr.Scoped]
    refine ⟨0, ?_, by simp⟩
    rw [Expr.evaluate_eq_denote hscoped]
    simp [reversed, Expr.denote]
  have h := simplify_complete {} reversed _ hp
  exact ⟨_, hp, hzero, (h.2 0 hzero).1, h.1.1 ⟨0, hzero⟩⟩

/-! ## Checks -/

/-- The three grounds on which the closed form is right at a natural `n`: it was sampled there; no
summation has a range of negative length there or at a sample; or the expression is a polynomial on
all naturals. -/
inductive Covered (e : Expr) (d : Weight) (n : ℕ) : Prop
  | sampled : (n : ℤ) ≤ d.toInt → Covered e d n
  | uncrossed : UncrossedSamples e d → e.Uncrossed (Scope.root n) → Covered e d n
  | polynomial {q : ℚ[X]} : AgreesOnNaturals e q → Covered e d n

lemma exists_value_of_covered (hp : s.simplify e = .ok p) (hd : e.degree = .ok d) {n : ℕ}
    (hn : Covered e d n) : ∃ v, p.evaluate n = .ok v ∧ e.evaluate n = .ok v := by
  cases hn with
  | sampled hn => exact exists_value_at_sample hp hd hn
  | uncrossed hsamples hn => exact exists_value_of_uncrossed hp hd hsamples hn
  | polynomial hq =>
      obtain ⟨v, hev, -⟩ := hq n
      rw [← toPolynomial_eq_of_agreesOnNaturals hp hq] at hq
      exact ⟨v, ((evaluate_eq_iff_agreesOnNaturals hp).2 hq n).trans hev, hev⟩

/-- **The closed form passes every check of covered naturals.**  Only beyond the samples of an
expression that is no polynomial, and only if some range has negative length, can it be wrong. -/
theorem simplify_eq_evaluate_on_naturals (s : Simplifier) (e : Expr) (p : Poly) (d : Weight)
    (hp : s.simplify e = .ok p) (hd : e.degree = .ok d) :
    (∀ n : ℕ, Covered e d n → ∃ v, e.evaluate n = .ok v ∧ p.evaluate n = .ok v) ∧
      ∀ a b : Int64, 0 ≤ a.toInt →
        (∀ n : ℕ, a.toInt ≤ n → n ≤ b.toInt → Covered e d n) → check e (some p) a b = none := by
  have hpoint (n : ℕ) (hn : Covered e d n) : ∃ v, e.evaluate n = .ok v ∧ p.evaluate n = .ok v := by
    obtain ⟨v, hpv, hev⟩ := exists_value_of_covered hp hd hn
    exact ⟨v, hev, hpv⟩
  have hhole : e ≠ .hole := by
    rintro rfl
    cases hp
  refine ⟨hpoint, fun a b ha h => ?_⟩
  rw [check_eq_none_iff hhole]
  intro n hlower hupper
  lift n to ℕ using ha.trans hlower
  exact hpoint n (h n hlower hupper)

/-- The sum of `j` over `1 ≤ i ≤ j ≤ x`. -/
def triangle : Expr :=
  .sum (.const 1) .param "i" (.sum (.index "i") .param "j" (.index "j"))

/-- The closed form of the triangle passes a check beyond its samples. -/
theorem check_simplify_triangle :
    ∃ p, ({} : Simplifier).simplify triangle = .ok p ∧ check triangle (some p) 0 7 = none := by
  have hp : ({} : Simplifier).simplify triangle = .ok ⟨[0, 1, 3, 2], 6, by decide⟩ := rfl
  have hd : triangle.degree = .ok 3 := rfl
  refine ⟨_, hp, (simplify_eq_evaluate_on_naturals {} triangle _ 3 hp hd).2 0 7 (by decide) ?_⟩
  intro n _ hn
  have hpoints : ∀ n < 8, triangle.Uncrossed (Scope.root (n : ℕ)) := by decide
  exact .uncrossed (by decide) (hpoints n (by simp at hn; omega))

/-- The sum of 1 over `x ≤ i ≤ 0`, whose range has length -1 at 2. -/
def descending : Expr := .sum .param (.const 0) "i" (.const 1)

/-- The closed form `1 - x` of a range that is exact at both samples is wrong where the range has
negative length. -/
theorem simplify_ne_evaluate_descending :
    ∃ p, ({} : Simplifier).simplify descending = .ok p ∧ descending.evaluate 2 = .ok 0 ∧
      p.evaluate 2 = .ok (-1) ∧ check descending (some p) 0 2 ≠ none := by
  refine ⟨⟨[1, -1], 1, by decide⟩, rfl, rfl, rfl, ?_⟩
  intro h
  cases h

end Simplifier
end ClosedForm
