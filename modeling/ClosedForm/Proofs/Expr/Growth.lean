import ClosedForm.Proofs.Expr.Weight
import Mathlib.Analysis.Polynomial.Basic
import Mathlib.Topology.Instances.Rat

/-!
# Expressions grow no faster than their degree estimate

A summation whose bounds cross is 0, so an expression is only piecewise a polynomial.  Its growth is
bounded all the same: at every integer `n` its value is at most `C · max(1, |n|) ^ d`, where `d` is
the degree estimate and `C` does not depend on `n`.

* `Within B M w k` — `k` is at most `B · M ^ w` in size.  It relates the scope of weights to the
  scope of values: an index of weight `w` takes values of size `O(M ^ w)` only.
* `exists_within_denote` — the induction over expressions that carries this relation into the body
  of every summation.
* `natDegree_le_of_infinite` — a rational polynomial that is small at infinitely many naturals has
  a small degree, so the estimate is never below the degree of a polynomial that an expression
  computes.
-/

namespace ClosedForm

open Finset

/-! ## Size in terms of a weight -/

/-- The size of `k` is at most `B · M ^ w`. -/
def Within (B M w : ℕ) (k : ℤ) : Prop := k.natAbs ≤ B * M ^ w

namespace Within

variable {B C M v w : ℕ} {j k : ℤ}

lemma mono_left (hBC : B ≤ C) (h : Within B M w k) : Within C M w k :=
  h.trans (Nat.mul_le_mul_right _ hBC)

lemma mono_weight (hM : 1 ≤ M) (hvw : v ≤ w) (h : Within B M v k) : Within B M w k :=
  h.trans (Nat.mul_le_mul_left _ (Nat.pow_le_pow_right hM hvw))

lemma add (hj : Within B M w j) (hk : Within C M w k) : Within (B + C) M w (j + k) := by
  calc
    (j + k).natAbs ≤ j.natAbs + k.natAbs := Int.natAbs_add_le j k
    _ ≤ B * M ^ w + C * M ^ w := add_le_add hj hk
    _ = (B + C) * M ^ w := by ring

lemma mul (hj : Within B M v j) (hk : Within C M w k) : Within (B * C) M (v + w) (j * k) := by
  calc
    (j * k).natAbs = j.natAbs * k.natAbs := Int.natAbs_mul j k
    _ ≤ B * M ^ v * (C * M ^ w) := Nat.mul_le_mul hj hk
    _ = B * C * M ^ (v + w) := by ring

/-- What lies between two bounds is no larger than both together. -/
lemma of_mem_Icc {i : ℤ} (hj : Within B M w j) (hk : Within C M w k) (hi : i ∈ Icc j k) :
    Within (B + C) M w i := by
  have hsize : i.natAbs ≤ j.natAbs + k.natAbs := by
    rw [mem_Icc] at hi
    omega
  calc
    i.natAbs ≤ j.natAbs + k.natAbs := hsize
    _ ≤ B * M ^ w + C * M ^ w := add_le_add hj hk
    _ = (B + C) * M ^ w := by ring

/-- The number of terms between two bounds, whether or not they cross. -/
lemma card_Icc_le (hM : 1 ≤ M) (hj : Within B M w j) (hk : Within C M w k) :
    #(Icc j k) ≤ (B + C + 1) * M ^ w := by
  have hpow : 1 ≤ M ^ w := Nat.one_le_pow _ _ hM
  calc
    #(Icc j k) ≤ j.natAbs + k.natAbs + 1 := by
      rw [Int.card_Icc]
      omega
    _ ≤ B * M ^ w + C * M ^ w + M ^ w := by
      unfold Within at hj hk
      omega
    _ = (B + C + 1) * M ^ w := by ring

/-- A sum of `D · M ^ v` terms of weight `w` has weight `w + v`. -/
lemma sum {s : Finset ℤ} {f : ℤ → ℤ} {D : ℕ} (hcard : #s ≤ D * M ^ v)
    (hf : ∀ i ∈ s, Within C M w (f i)) : Within (C * D) M (w + v) (∑ i ∈ s, f i) := by
  calc
    (∑ i ∈ s, f i).natAbs ≤ ∑ i ∈ s, (f i).natAbs := Int.natAbs_sum_le s f
    _ ≤ #s * (C * M ^ w) := by simpa using sum_le_card_nsmul s _ _ hf
    _ ≤ D * M ^ v * (C * M ^ w) := Nat.mul_le_mul_right _ hcard
    _ = C * D * M ^ (w + v) := by ring

end Within

/-! ## The induction over expressions -/

namespace Expr

/-- **Values grow no faster than weights.**  If every name in scope is `O(M ^ w)` for its weight `w`,
so is the expression, with a constant that depends on neither the values nor `M`.

The constant for the names has to be general: in the body of a summation the index has the constants
of both bounds. -/
lemma exists_within_denote (e : Expr) (weights : Scope ℕ) (B : ℕ) :
    ∃ C, ∀ M, 1 ≤ M → ∀ scope, weights.Related (Within B M) scope →
      Within C M (e.weight weights) (e.denote scope) := by
  induction e generalizing weights B with
  | hole => exact ⟨0, fun M _ scope _ => Nat.zero_le _⟩
  | param => exact ⟨B, fun M _ scope hrel => hrel.parameter⟩
  | index name =>
      refine ⟨B, fun M _ scope hrel => ?_⟩
      have hname := hrel.lookup name
      simp only [weight, denote]
      generalize weights.lookup name = x, scope.lookup name = y at hname
      cases hname with
      | some hk => exact hk
      | none => exact Nat.zero_le _
  | const v => exact ⟨v.natAbs, fun M _ scope _ => by simp [Within, weight, denote]⟩
  | add a b iha ihb =>
      obtain ⟨Ca, ha⟩ := iha weights B
      obtain ⟨Cb, hb⟩ := ihb weights B
      refine ⟨Ca + Cb, fun M hM scope hrel => ?_⟩
      exact ((ha M hM scope hrel).mono_weight hM (le_max_left _ _)).add
        ((hb M hM scope hrel).mono_weight hM (le_max_right _ _))
  | mul a b iha ihb =>
      obtain ⟨Ca, ha⟩ := iha weights B
      obtain ⟨Cb, hb⟩ := ihb weights B
      exact ⟨Ca * Cb, fun M hM scope hrel => (ha M hM scope hrel).mul (hb M hM scope hrel)⟩
  | sum lower upper name body ihl ihu ihb =>
      obtain ⟨Cl, hl⟩ := ihl weights B
      obtain ⟨Cu, hu⟩ := ihu weights B
      -- One constant for the names outside and for the index.
      obtain ⟨C, hC⟩ := ihb (weights.bind name (max (lower.weight weights) (upper.weight weights)))
        (B + (Cl + Cu))
      refine ⟨C * (Cl + Cu + 1), fun M hM scope hrel => ?_⟩
      have hlower := (hl M hM scope hrel).mono_weight hM (le_max_left _ (upper.weight weights))
      have hupper := (hu M hM scope hrel).mono_weight hM (le_max_right (lower.weight weights) _)
      refine Within.sum (Within.card_Icc_le hM hlower hupper) fun k hk => ?_
      have hindex := (Within.of_mem_Icc hlower hupper hk).mono_left (Nat.le_add_left _ B)
      have houter := hrel.mono fun w v hv => hv.mono_left (Nat.le_add_right B (Cl + Cu))
      exact hC M hM (scope.bind name k) (houter.bind name hindex)

/-- The growth of an expression at the root. -/
lemma exists_growth_bound {e : Expr} (h : e.Scoped []) :
    ∃ C : ℕ, ∀ n : ℤ, ∃ v : ℤ, e.evaluate n = .ok v ∧ |v| ≤ C * max 1 |n| ^ e.naturalDegree := by
  obtain ⟨C, hC⟩ := exists_within_denote e (Scope.root 1) 1
  refine ⟨C, fun n => ⟨e.denote (Scope.root n), evaluate_eq_denote h n, ?_⟩⟩
  have hroot : (Scope.root 1).Related (Within 1 (max 1 n.natAbs)) (Scope.root n) :=
    Scope.Related.root (by simp [Within])
  have hsize := hC (max 1 n.natAbs) (le_max_left _ _) (Scope.root n) hroot
  unfold Within at hsize
  zify at hsize
  exact hsize

end Expr

/-! ## Polynomials that are small infinitely often -/

open Polynomial Filter

/-- A rational polynomial whose size is at most `C · max(1, n) ^ d` at infinitely many naturals has
degree at most `d`. -/
lemma natDegree_le_of_infinite {q : ℚ[X]} {C : ℚ} {d : ℕ}
    (h : {n : ℕ | |q.eval (n : ℚ)| ≤ C * max 1 (n : ℚ) ^ d}.Infinite) : q.natDegree ≤ d := by
  by_contra! hlt
  have hdeg : (X ^ d : ℚ[X]).degree < q.degree := by
    rw [← natDegree_lt_natDegree_iff (pow_ne_zero d X_ne_zero), natDegree_X_pow]
    exact hlt
  have hgrow : ∀ᶠ n : ℕ in atTop, C < |q.eval (n : ℚ) / (X ^ d : ℚ[X]).eval (n : ℚ)| :=
    ((abs_div_tendsto_atTop_atTop_of_degree_gt q (X ^ d) hdeg (pow_ne_zero d X_ne_zero)).comp
      tendsto_natCast_atTop_atTop).eventually_gt_atTop C
  obtain ⟨n, hsmall, hlarge, hn⟩ := ((Nat.frequently_atTop_iff_infinite.2 h).and_eventually
    (hgrow.and (eventually_ge_atTop 1))).exists
  have hn' : (1 : ℚ) ≤ n := by exact_mod_cast hn
  have hpow : (0 : ℚ) < (n : ℚ) ^ d := by positivity
  rw [eval_pow, eval_X, abs_div, abs_of_pos hpow, lt_div_iff₀ hpow] at hlarge
  rw [max_eq_right hn'] at hsmall
  exact absurd hsmall (not_le.2 hlarge)

namespace Expr

/-- The value of an expression at a natural number is that of a rational polynomial. -/
def AgreesAt (e : Expr) (q : ℚ[X]) (n : ℕ) : Prop :=
  ∃ v : ℤ, e.evaluate n = .ok v ∧ q.eval (n : ℚ) = v

lemma natDegree_le_of_infinite_agreesAt {e : Expr} (hscoped : e.Scoped []) {q : ℚ[X]}
    (h : {n : ℕ | e.AgreesAt q n}.Infinite) : q.natDegree ≤ e.naturalDegree := by
  obtain ⟨C, hC⟩ := exists_growth_bound hscoped
  refine natDegree_le_of_infinite (C := C) (h.mono ?_)
  rintro n ⟨v, hv, hq⟩
  obtain ⟨w, hw, hbound⟩ := hC n
  cases hv.symm.trans hw
  rw [Nat.abs_cast] at hbound
  rw [Set.mem_ofPred_eq, hq]
  exact_mod_cast hbound

/-- **The degree estimate is never below the true growth.**  An expression with an estimate `d` has a
value at every integer, of size at most `C · max(1, |n|) ^ d`, whatever the ranges of its summations;
and a rational polynomial that agrees with it at infinitely many naturals has degree at most `d`. -/
theorem degree_bounds_growth {e : Expr} {d : Weight} (h : e.degree = .ok d) :
    0 ≤ d.toInt ∧
      (∃ C : ℕ, ∀ n : ℤ, ∃ v : ℤ, e.evaluate n = .ok v ∧
        |v| ≤ C * max 1 |n| ^ d.toInt.toNat) ∧
      ∀ q : ℚ[X], {n : ℕ | e.AgreesAt q n}.Infinite → q.natDegree ≤ d.toInt.toNat := by
  have hscoped := scoped_of_degree h
  have hd : d.toInt = e.naturalDegree := degree_represents h
  rw [hd, Int.toNat_natCast]
  exact ⟨Int.natCast_nonneg _, exists_growth_bound hscoped,
    fun q hq => natDegree_le_of_infinite_agreesAt hscoped hq⟩

/-- The sum of `i · j` over `x ≤ i ≤ 3` and `i ≤ j ≤ x`: the outer range is crossed from `x = 5` on,
and of the inner ones only that of `i = x` is not empty. -/
def crossing : Expr :=
  sum param (const 3) "i" (sum (index "i") param "j" (mul (index "i") (index "j")))

/-- Crossed ranges do not disturb the bound. -/
theorem degree_bounds_growth_crossing :
    crossing.degree = .ok 4 ∧ ∃ C : ℕ, ∀ n : ℤ, ∃ v : ℤ, crossing.evaluate n = .ok v ∧
      |v| ≤ C * max 1 |n| ^ 4 :=
  ⟨rfl, (degree_bounds_growth (e := crossing) (d := 4) rfl).2.1⟩

end Expr
end ClosedForm
