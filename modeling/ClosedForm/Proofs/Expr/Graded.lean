import ClosedForm.Proofs.Expr.Weight
import Mathlib.NumberTheory.BernoulliPolynomials

/-!
# Uncrossed expressions are polynomials

Where no summation has a range of negative length, an expression is a polynomial in the parameter
and the indices in scope, and the degree estimate bounds its degree when every index counts with its
weight.

* `exists_antidifference` — powers have indefinite sums, one degree higher.
* `Graded weights d f` — `f` is a polynomial function of the scope, of weighted degree at most `d`.
* `Graded.expands` — such a function of a scope with one more index is a polynomial in that index,
  with coefficients that are graded without it.
* `exists_graded_sum` — **summing over an index raises the weighted degree by the weight of the
  index**, which is what the estimate charges for a summation.
* `exists_polynomial` — at the root only the parameter is left, so the expression is a rational
  polynomial of at most the estimated degree.
-/

namespace ClosedForm

open Finset Polynomial

/-! ## Indefinite sums of powers -/

lemma natDegree_bernoulli_le (n : ℕ) : (Polynomial.bernoulli n).natDegree ≤ n := by
  rw [Polynomial.bernoulli]
  refine natDegree_sum_le_of_forall_le _ _ fun i _ => ?_
  exact (natDegree_monomial_le _).trans (Nat.sub_le n i)

/-- Every power has an indefinite sum: a polynomial whose difference it is. -/
lemma exists_antidifference (b : ℕ) :
    ∃ S : ℚ[X], S.natDegree ≤ b + 1 ∧ ∀ x : ℚ, S.eval (x + 1) = S.eval x + x ^ b := by
  refine ⟨C ((b + 1 : ℚ)⁻¹) * Polynomial.bernoulli (b + 1), ?_, fun x => ?_⟩
  · exact (natDegree_C_mul_le _ _).trans (natDegree_bernoulli_le (b + 1))
  · have hb : (b + 1 : ℚ) ≠ 0 := by positivity
    simp only [eval_mul, eval_C]
    rw [add_comm x 1, bernoulli_eval_one_add, Nat.add_sub_cancel]
    push_cast
    field_simp

/-- A sum over a range that is not of negative length telescopes. -/
lemma sum_Icc_pow {b : ℕ} {S : ℚ[X]} (hS : ∀ x : ℚ, S.eval (x + 1) = S.eval x + x ^ b) {m n : ℤ}
    (hmn : m ≤ n + 1) :
    ∑ k ∈ Icc m n, (k : ℚ) ^ b = S.eval (n + 1 : ℚ) - S.eval (m : ℚ) := by
  have hend : ((n - m + 1).toNat : ℤ) = n + 1 - m := by omega
  have hend' : (m : ℚ) + ((n - m + 1).toNat : ℕ) = n + 1 := by
    have := congrArg (Int.cast (R := ℚ)) hend
    push_cast at this
    linarith
  rw [Expr.sum_Icc_eq_sum_range]
  calc
    ∑ i ∈ range (n - m + 1).toNat, (((m + i : ℤ)) : ℚ) ^ b
        = ∑ i ∈ range (n - m + 1).toNat,
            (S.eval ((m : ℚ) + (i + 1 : ℕ)) - S.eval ((m : ℚ) + i)) := by
          refine sum_congr rfl fun i _ => ?_
          push_cast
          rw [← add_assoc, hS]
          ring
    _ = S.eval ((m : ℚ) + ((n - m + 1).toNat : ℕ)) - S.eval ((m : ℚ) + (0 : ℕ)) :=
          sum_range_sub (fun i : ℕ => S.eval ((m : ℚ) + i)) _
    _ = S.eval (n + 1 : ℚ) - S.eval (m : ℚ) := by rw [hend', Nat.cast_zero, add_zero]

/-! ## Graded functions of a scope -/

/-- A polynomial function of the parameter and the indices in scope, of degree at most `d` when every
index counts with its weight. -/
inductive Graded (weights : Scope ℕ) : ℕ → (Scope Int → ℚ) → Prop
  | const (c : ℚ) : Graded weights 0 fun _ => c
  | param : Graded weights weights.parameter fun scope => scope.parameter
  | index {name : RawText} {w : ℕ} (h : weights.lookup name = some w) :
    Graded weights w fun scope => ((scope.lookup name).getD 0 : ℤ)
  | add {d : ℕ} {f g : Scope Int → ℚ} (hf : Graded weights d f) (hg : Graded weights d g) :
    Graded weights d fun scope => f scope + g scope
  | mul {a b : ℕ} {f g : Scope Int → ℚ} (hf : Graded weights a f) (hg : Graded weights b g) :
    Graded weights (a + b) fun scope => f scope * g scope
  | mono {a b : ℕ} {f : Scope Int → ℚ} (hab : a ≤ b) (hf : Graded weights a f) :
    Graded weights b f

namespace Graded

variable {weights : Scope ℕ} {c d : ℕ} {f : Scope Int → ℚ}

lemma const_le (x : ℚ) (d : ℕ) : Graded weights d fun _ => x := (const x).mono (Nat.zero_le d)

lemma pow (hf : Graded weights c f) (b : ℕ) : Graded weights (b * c) fun scope => f scope ^ b := by
  induction b with
  | zero => simpa using const_le 1 (0 * c)
  | succ b ih =>
      simp only [pow_succ, Nat.succ_mul]
      exact ih.mul hf

lemma sum {ι : Type} (s : Finset ι) {F : ι → Scope Int → ℚ} (hF : ∀ i ∈ s, Graded weights d (F i)) :
    Graded weights d fun scope => ∑ i ∈ s, F i scope := by
  classical
  induction s using Finset.induction_on with
  | empty => simpa using const_le 0 d
  | insert i s hi ih =>
      simp only [sum_insert hi]
      exact (hF i (mem_insert_self i s)).add (ih fun j hj => hF j (mem_insert_of_mem hj))

/-- A polynomial of degree `b` multiplies the weighted degree by `b`. -/
lemma eval {q : ℚ[X]} {b : ℕ} (hq : q.natDegree ≤ b) (hf : Graded weights c f) :
    Graded weights (b * c) fun scope => q.eval (f scope) := by
  simp only [eval_eq_sum_range]
  refine Graded.sum _ fun i hi => ?_
  have hib : i ≤ b := (Nat.le_of_lt_succ (mem_range.1 hi)).trans hq
  simpa using ((const (q.coeff i)).mul (hf.pow i)).mono
    (by simpa using Nat.mul_le_mul_right c hib)

end Graded

/-! ## One index singled out -/

/-- A polynomial in one index of weight `c`, with coefficients that are graded in the rest of the
scope, of weighted degree at most `d` together. -/
inductive Expands (weights : Scope ℕ) (c d : ℕ) : (Scope Int → ℤ → ℚ) → Prop
  | term {a b : ℕ} {f : Scope Int → ℚ} (hf : Graded weights a f) (hd : a + b * c ≤ d) :
    Expands weights c d fun scope k => f scope * (k : ℚ) ^ b
  | add {F G : Scope Int → ℤ → ℚ} (hF : Expands weights c d F) (hG : Expands weights c d G) :
    Expands weights c d fun scope k => F scope k + G scope k

namespace Expands

variable {weights : Scope ℕ} {c d d' : ℕ} {F G : Scope Int → ℤ → ℚ}

lemma mono (h : d ≤ d') (hF : Expands weights c d F) : Expands weights c d' F := by
  induction hF with
  | term hf hd => exact term hf (hd.trans h)
  | add _ _ ihF ihG => exact ihF.add ihG

/-- A function that does not read the index. -/
lemma of_graded {f : Scope Int → ℚ} (hf : Graded weights d f) :
    Expands weights c d fun scope _ => f scope := by
  simpa using term (b := 0) hf (le_of_eq (by simp))

lemma mul (hF : Expands weights c d F) (hG : Expands weights c d' G) :
    Expands weights c (d + d') fun scope k => F scope k * G scope k := by
  induction hF with
  | @term a b f hf hd =>
      induction hG with
      | @term a' b' g hg hd' =>
          have hterm := term (c := c) (b := b + b') (hf.mul hg) (d := d + d') (by
            calc
              a + a' + (b + b') * c = (a + b * c) + (a' + b' * c) := by ring
              _ ≤ d + d' := add_le_add hd hd')
          convert hterm using 3
          rw [pow_add]
          ring
      | add _ _ ihF ihG =>
          simp only [mul_add]
          exact ihF.add ihG
  | add _ _ ihF ihG =>
      simp only [add_mul]
      exact ihF.add ihG

end Expands

/-- A graded function of a scope with one more index, seen as a polynomial in that index. -/
lemma Graded.expands {weights : Scope ℕ} {name : RawText} {c d : ℕ} {f : Scope Int → ℚ}
    (hf : Graded (weights.bind name c) d f) :
    Expands weights c d fun scope k => f (scope.bind name k) := by
  induction hf with
  | const x => exact Expands.of_graded (Graded.const x)
  | param => exact Expands.of_graded Graded.param
  | @index n w h =>
      rw [Scope.lookup_bind] at h
      simp only [Scope.lookup_bind]
      by_cases hn : n = name
      · simp only [hn, if_true, Option.some.injEq] at h ⊢
        subst h
        simpa using Expands.term (b := 1) (Graded.const_le 1 0) (le_of_eq (by simp))
      · simp only [hn, if_false] at h ⊢
        exact Expands.of_graded (Graded.index h)
  | add _ _ ihf ihg => exact ihf.add ihg
  | mul _ _ ihf ihg => exact ihf.mul ihg
  | mono hab _ ih => exact ih.mono hab

/-! ## Summing over an index -/

/-- **Summing over an index raises the weighted degree by the weight of the index.**  The sum is
graded, and takes the value of the summation wherever the range is not of negative length. -/
lemma exists_graded_sum {weights : Scope ℕ} {c d : ℕ} {F : Scope Int → ℤ → ℚ}
    {lower upper : Scope Int → ℚ} (hlower : Graded weights c lower)
    (hupper : Graded weights c upper) (hF : Expands weights c d F) :
    ∃ g, Graded weights (d + c) g ∧ ∀ scope (m n : ℤ), lower scope = m → upper scope = n →
      m ≤ n + 1 → ∑ k ∈ Icc m n, F scope k = g scope := by
  induction hF with
  | @term a b f hf hd =>
      obtain ⟨S, hSdeg, hS⟩ := exists_antidifference b
      have hafter : Graded weights c fun scope => upper scope + 1 :=
        hupper.add (Graded.const_le 1 c)
      have hdiff : Graded weights ((b + 1) * c) fun scope =>
          S.eval (upper scope + 1) + -1 * S.eval (lower scope) := by
        simpa using (hafter.eval hSdeg).add
          (((Graded.const (-1)).mul (hlower.eval hSdeg)).mono (by simp))
      refine ⟨_, (hf.mul hdiff).mono ?_, fun scope m n hm hn hmn => ?_⟩
      · calc
          a + (b + 1) * c = a + b * c + c := by ring
          _ ≤ d + c := Nat.add_le_add_right hd c
      · rw [← mul_sum, sum_Icc_pow hS hmn, hm, hn]
        ring
  | @add F G _ _ ihF ihG =>
      obtain ⟨f, hf, hfsum⟩ := ihF
      obtain ⟨g, hg, hgsum⟩ := ihG
      refine ⟨_, hf.add hg, fun scope m n hm hn hmn => ?_⟩
      rw [sum_add_distrib, hfsum scope m n hm hn hmn, hgsum scope m n hm hn hmn]

namespace Expr

/-- An expression is graded by its weight, wherever no range has negative length. -/
lemma exists_graded (e : Expr) (weights : Scope ℕ) :
    ∃ f, Graded weights (e.weight weights) f ∧
      ∀ scope : Scope Int, weights.Related (fun _ _ => True) scope → e.Scoped scope.names →
        e.Uncrossed scope → f scope = e.denote scope := by
  induction e generalizing weights with
  | hole => exact ⟨_, Graded.const 0, fun scope _ hscoped _ => hscoped.elim⟩
  | param => exact ⟨_, Graded.param, fun scope _ _ _ => rfl⟩
  | index name =>
      cases hname : weights.lookup name with
      | some w =>
          refine ⟨_, ?_, fun scope _ _ _ => rfl⟩
          simp only [weight, hname, Option.getD_some]
          exact Graded.index hname
      | none =>
          refine ⟨_, Graded.const_le 0 _, fun scope hrel _ _ => ?_⟩
          have hscope := hrel.lookup name
          rw [hname] at hscope
          generalize hx : scope.lookup name = x at hscope
          cases hscope
          simp [denote, hx]
  | const v => exact ⟨_, Graded.const v, fun scope _ _ _ => rfl⟩
  | add a b iha ihb =>
      obtain ⟨f, hf, hfval⟩ := iha weights
      obtain ⟨g, hg, hgval⟩ := ihb weights
      refine ⟨_, (hf.mono (le_max_left _ _)).add (hg.mono (le_max_right _ _)), ?_⟩
      intro scope hrel hscoped huncrossed
      rw [uncrossed_add_iff] at huncrossed
      rw [hfval scope hrel hscoped.1 huncrossed.1, hgval scope hrel hscoped.2 huncrossed.2]
      simp [denote]
  | mul a b iha ihb =>
      obtain ⟨f, hf, hfval⟩ := iha weights
      obtain ⟨g, hg, hgval⟩ := ihb weights
      refine ⟨_, hf.mul hg, ?_⟩
      intro scope hrel hscoped huncrossed
      rw [uncrossed_mul_iff] at huncrossed
      rw [hfval scope hrel hscoped.1 huncrossed.1, hgval scope hrel hscoped.2 huncrossed.2]
      simp [denote]
  | sum lower upper name body ihl ihu ihb =>
      obtain ⟨l, hl, hlval⟩ := ihl weights
      obtain ⟨u, hu, huval⟩ := ihu weights
      obtain ⟨f, hf, hfval⟩ :=
        ihb (weights.bind name (max (lower.weight weights) (upper.weight weights)))
      obtain ⟨g, hg, hgsum⟩ := exists_graded_sum (hl.mono (le_max_left _ _))
        (hu.mono (le_max_right _ _)) hf.expands
      refine ⟨g, hg, fun scope hrel hscoped huncrossed => ?_⟩
      obtain ⟨hsl, hsu, hsb⟩ := hscoped
      rw [uncrossed_sum_iff (value_eq_denote hsl) (value_eq_denote hsu)] at huncrossed
      obtain ⟨hul, huu, hlen, hub⟩ := huncrossed
      rw [← hgsum scope _ _ (hlval scope hrel hsl hul) (huval scope hrel hsu huu) hlen, denote,
        Int.cast_sum]
      exact sum_congr rfl fun k hk => hfval _ (hrel.bind name trivial) hsb (hub k hk)

end Expr

/-! ## At the root -/

/-- With only the parameter in scope, a graded function is a polynomial. -/
lemma Graded.exists_polynomial {d : ℕ} {f : Scope Int → ℚ} (hf : Graded (Scope.root 1) d f) :
    ∃ q : ℚ[X], q.natDegree ≤ d ∧ ∀ n : ℤ, f (Scope.root n) = q.eval (n : ℚ) := by
  induction hf with
  | const c => exact ⟨C c, by simp, fun n => by simp⟩
  | param => exact ⟨X, by simp, fun n => by simp⟩
  | index h => cases h
  | add _ _ ihf ihg =>
      obtain ⟨p, hp, hpval⟩ := ihf
      obtain ⟨q, hq, hqval⟩ := ihg
      exact ⟨p + q, natDegree_add_le_of_degree_le hp hq, fun n => by simp [hpval, hqval]⟩
  | mul _ _ ihf ihg =>
      obtain ⟨p, hp, hpval⟩ := ihf
      obtain ⟨q, hq, hqval⟩ := ihg
      exact ⟨p * q, natDegree_mul_le_of_le hp hq, fun n => by simp [hpval, hqval]⟩
  | mono hab _ ih =>
      obtain ⟨p, hp, hpval⟩ := ih
      exact ⟨p, hp.trans hab, hpval⟩

/-- **An expression computes a rational polynomial of at most the estimated degree,** at every integer
at which no summation has a range of negative length. -/
lemma Expr.exists_polynomial {e : Expr} (hscoped : e.Scoped []) :
    ∃ q : ℚ[X], q.natDegree ≤ e.naturalDegree ∧
      ∀ n : ℤ, e.Uncrossed (Scope.root n) → q.eval (n : ℚ) = e.denote (Scope.root n) := by
  obtain ⟨f, hf, hfval⟩ := e.exists_graded (Scope.root 1)
  obtain ⟨q, hq, hqval⟩ := hf.exists_polynomial
  refine ⟨q, hq, fun n huncrossed => ?_⟩
  rw [← hqval, hfval _ (Scope.Related.root trivial) hscoped huncrossed]

end ClosedForm
