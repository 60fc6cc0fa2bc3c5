import ClosedForm.Proofs.Expr.Nameless

/-!
# Binding is substituting

A summation does not put its index into the body; it evaluates the body in a scope that binds the index.
Both come to the same: what a scope binds can be written into the expression as a constant, at every
place that the binding reaches.

A binding reaches past summations of other names, which come later in the scope, and stops at the body of
a summation of its own name.  So the induction needs that the order of two bindings does not matter when
their names differ, and that a hidden one does not matter at all.

* `evalIn_bind` — **an evaluation under a binding is the evaluation of the expression with the constant
  written in,** under any budget and failures included.
* `value_sum_eq_ok_iff`, `value_sum_eq_error_iff` — what a summation with known bounds evaluates to: the
  sum of the body with each index written in, or the failure of the first of these that fails.
* `evaluation_is_substitution` — both, and what the bounds of a summation see.
-/

namespace ClosedForm

open Finset

/-! ## Scopes that look up alike -/

namespace Scope

/-- Scopes that give the same to every name are aligned outside of all binders. -/
lemma Aligned.of_lookup {α : Type} {s t : Scope α} (hparameter : s.parameter = t.parameter)
    (hlookup : ∀ n, s.lookup n = t.lookup n) : Aligned [] [] s t := by
  refine ⟨hparameter, fun m n h => ?_⟩
  have hmn : m = n := by simpa [Reference.resolve] using h
  rw [Scope.index, Scope.index, hmn, hlookup]

end Scope

namespace Expr

/-- An evaluation sees only what the scope gives to a name. -/
lemma evalIn_congr (e : Expr) {s t : Scope Int} (hparameter : s.parameter = t.parameter)
    (hlookup : ∀ n, s.lookup n = t.lookup n) : evalIn e s = evalIn e t := by
  have hsame : Renamed [] [] e e := renamed_of_namelessIn_eq rfl
  exact evalIn_eq_of_renamed hsame (.of_lookup hparameter hlookup)

/-- **The innermost binding wins:** one of the same name outside of it is not seen. -/
lemma evalIn_bind_bind (e : Expr) (scope : Scope Int) (name : RawText) (j k : Int) :
    evalIn e ((scope.bind name j).bind name k) = evalIn e (scope.bind name k) := by
  refine evalIn_congr e rfl fun n => ?_
  rw [Scope.lookup_bind, Scope.lookup_bind, Scope.lookup_bind]
  split <;> rfl

/-- Bindings of different names can change places. -/
lemma evalIn_bind_comm (e : Expr) (scope : Scope Int) {m n : RawText} (hne : m ≠ n) (j k : Int) :
    evalIn e ((scope.bind m j).bind n k) = evalIn e ((scope.bind n k).bind m j) := by
  refine evalIn_congr e rfl fun i => ?_
  simp only [Scope.lookup_bind]
  by_cases hn : i = n
  · rw [if_pos hn, if_pos hn, if_neg (by rw [hn]; exact hne.symm)]
  · rw [if_neg hn, if_neg hn]

/-! ## Substitution -/

/-- The expression with `k` in the place of every index `name` that no summation in it binds. -/
def substitute (name : RawText) (k : Int) : Expr → Expr
  | index m => if m = name then const k else index m
  | add a b => add (substitute name k a) (substitute name k b)
  | mul a b => mul (substitute name k a) (substitute name k b)
  | sum lower upper m body =>
    sum (substitute name k lower) (substitute name k upper) m
      (if m = name then body else substitute name k body)
  | e => e

/-- **A binding can be written into the expression.** -/
lemma evalIn_bind (e : Expr) (scope : Scope Int) (name : RawText) (k : Int) :
    evalIn e (scope.bind name k) = evalIn (e.substitute name k) scope := by
  induction e generalizing scope with
  | hole => rfl
  | param => rfl
  | index m =>
      funext budget
      rw [substitute]
      by_cases hm : m = name
      · rw [if_pos hm, evalIn_index, Scope.index, Scope.lookup_bind, if_pos hm]
        rfl
      · rw [if_neg hm, evalIn_index, evalIn_index, Scope.index, Scope.index, Scope.lookup_bind,
          if_neg hm]
  | const v => rfl
  | add a b iha ihb =>
      funext budget
      rw [substitute, evalIn_add, evalIn_add, withBoth_congr (iha scope) (ihb scope) rfl]
  | mul a b iha ihb =>
      funext budget
      rw [substitute, evalIn_mul, evalIn_mul, withBoth_congr (iha scope) (ihb scope) rfl]
  | sum lower upper m body ihl ihu ihb =>
      -- In the body the summation's own binding is the inner one.
      have hterm (j : Int) : evalIn body ((scope.bind name k).bind m j) =
          evalIn (if m = name then body else body.substitute name k) (scope.bind m j) := by
        by_cases hm : m = name
        · rw [if_pos hm, hm, evalIn_bind_bind]
        · rw [if_neg hm, evalIn_bind_comm body scope (Ne.symm hm), ihb]
      funext budget
      rw [substitute, evalIn_sum, evalIn_sum,
        withBoth_congr (ihl scope) (ihu scope) (sumOver_congr hterm)]

/-! ## Summations -/

/-- Without limit, an evaluation gives its value, and again no limit. -/
lemma evalIn_none (e : Expr) (scope : Scope Int) :
    evalIn e scope none = (e.value scope).map fun v => (v, none) := by
  cases h : evalIn e scope none with
  | ok r =>
      have hr : r = (r.1, none) := Except.ok.inj (h.symm.trans (spendsIn e scope r h none).eq_ok)
      rw [value, h, hr]
      rfl
  | error err =>
      rw [value, h]
      rfl

lemma evalIn_none_eq_ok {e : Expr} {scope : Scope Int} {v : Int} (h : e.value scope = .ok v) :
    evalIn e scope none = .ok (v, none) := by
  rw [evalIn_none, h]
  rfl

/-- The first term that fails ends a sum. -/
lemma addUpFrom_eq_error {term : Int → Budget → Except Error (Int × Budget)} {f : Int → Int}
    {k : Int} {count i : ℕ} (hi : i < count) {err : Error} (hfails : term (k + i) none = .error err)
    (hbefore : ∀ j < i, term (k + (j : ℕ)) none = .ok (f (k + j), none)) (total : Int) :
    addUpFrom term count k total none = .error err := by
  induction i generalizing count k total with
  | zero =>
      obtain ⟨count, rfl⟩ := Nat.exists_eq_succ_of_ne_zero (Nat.ne_of_gt hi)
      have hfirst : term k none = .error err := by simpa using hfails
      rw [addUpFrom_succ, hfirst]
      rfl
  | succ i ih =>
      obtain ⟨count, rfl⟩ := Nat.exists_eq_succ_of_ne_zero (Nat.ne_zero_of_lt hi)
      have hfirst : term k none = .ok (f k, none) := by simpa using hbefore 0 (Nat.succ_pos i)
      rw [addUpFrom_succ, hfirst]
      refine ih (Nat.lt_of_succ_lt_succ hi) ?_ (fun j hj => ?_) _
      · rw [add_one_add_natCast, hfails]
      · rw [add_one_add_natCast]
        exact hbefore (j + 1) (Nat.succ_lt_succ hj)

section Bounds

variable {lower upper body : Expr} {name : RawText} {scope : Scope Int} {m n : Int}

/-- With known bounds, what is left is the loop over the body with each index written in. -/
lemma value_sum (hm : lower.value scope = .ok m) (hn : upper.value scope = .ok n) :
    (sum lower upper name body).value scope =
      if n < m then .ok 0
      else
        (addUpFrom (fun k => evalIn (body.substitute name k) scope) (n - m + 1).toNat m 0 none).map
          Prod.fst := by
  rw [value, evalIn_sum, withBoth_eq (evalIn_none_eq_ok hm) (evalIn_none_eq_ok hn), sumOver]
  simp only [evalIn_bind, Budget.take]
  split
  · rfl
  · cases addUpFrom (fun k => evalIn (body.substitute name k) scope) (n - m + 1).toNat m 0 none <;>
      rfl

lemma value_sum_of_lt (hm : lower.value scope = .ok m) (hn : upper.value scope = .ok n)
    (hlt : n < m) : (sum lower upper name body).value scope = .ok 0 := by
  rw [value_sum hm hn, if_pos hlt]

/-- **If all terms have values, a summation is their sum.** -/
lemma value_sum_eq_ok (hm : lower.value scope = .ok m) (hn : upper.value scope = .ok n)
    {f : Int → Int} (hterm : ∀ k ∈ Icc m n, (body.substitute name k).value scope = .ok (f k)) :
    (sum lower upper name body).value scope = .ok (∑ k ∈ Icc m n, f k) := by
  rw [value_sum hm hn]
  split
  · rename_i hlt
    rw [Icc_eq_empty (not_le.2 hlt), sum_empty]
  · have hterm' : ∀ i < (n - m + 1).toNat,
        evalIn (body.substitute name (m + (i : ℕ))) scope none = .ok (f (m + i), none) := by
      intro i hi
      exact evalIn_none_eq_ok (hterm (m + i) (mem_Icc.2 (by omega)))
    have hadd : addUpFrom (fun k => evalIn (body.substitute name k) scope) (n - m + 1).toNat m 0 none =
        .ok (0 + ∑ i ∈ range (n - m + 1).toNat, f (m + i), none) := addUpFrom_eq_ok hterm' 0
    rw [hadd, sum_Icc_eq_sum_range, zero_add]
    rfl

/-- **Otherwise it fails as the first term that does.** -/
lemma value_sum_eq_error (hm : lower.value scope = .ok m) (hn : upper.value scope = .ok n) {k : Int}
    (hk : k ∈ Icc m n) {err : Error} (hfails : (body.substitute name k).value scope = .error err)
    (hbefore : ∀ j ∈ Ico m k, ∃ w, (body.substitute name j).value scope = .ok w) :
    (sum lower upper name body).value scope = .error err := by
  obtain ⟨hmk, hkn⟩ := mem_Icc.1 hk
  obtain ⟨i, rfl⟩ := Int.le.dest hmk
  choose! f hf using hbefore
  have hfails' : evalIn (body.substitute name (m + i)) scope none = .error err := by
    rw [evalIn_none, hfails]
    rfl
  have hbefore' : ∀ j < i,
      evalIn (body.substitute name (m + (j : ℕ))) scope none = .ok (f (m + j), none) := by
    intro j hj
    exact evalIn_none_eq_ok (hf (m + j) (mem_Ico.2 (by omega)))
  have hadd : addUpFrom (fun k => evalIn (body.substitute name k) scope) (n - m + 1).toNat m 0 none =
      .error err := addUpFrom_eq_error (by omega) hfails' hbefore' 0
  rw [value_sum hm hn, if_neg (by omega), hadd]
  rfl

end Bounds

/-- A summation fails as its bounds do, the lower one first. -/
lemma value_sum_of_bounds {lower upper : Expr} {scope : Scope Int} {err : Error} (name : RawText)
    (body : Expr)
    (h : lower.value scope = .error err ∨ ∃ m, lower.value scope = .ok m ∧
      upper.value scope = .error err) : (sum lower upper name body).value scope = .error err := by
  rw [value, evalIn_sum, withBoth, evalIn_none]
  rcases h with hlower | ⟨m, hlower, hupper⟩
  · rw [hlower]
    rfl
  · rw [hlower]
    simp only [Except.map, Except.bind, evalIn_none, hupper]
    rfl

/-- **Evaluation is substitution.**  Under a binding an expression evaluates as with the constant written
into it, in every scope, under every budget and failures included.  So a summation whose bounds evaluate
to `m` and `n` is the mathematical sum of its body with `m, …, n` written in, 0 if there is none of them
and whatever the body is, or else fails as the first of them that does.  Bounds are evaluated outside: a
summation fails as they do, and what an outer summation of the same name binds is written into the bounds
and not into the body.  Of two bindings of one name only the inner one is seen. -/
theorem evaluation_is_substitution :
    (∀ (e : Expr) (scope : Scope Int) (name : RawText) (k : Int) (budget : Budget),
      evalIn e (scope.bind name k) budget = evalIn (e.substitute name k) scope budget) ∧
    (∀ (lower upper : Expr) (name : RawText) (body : Expr) (scope : Scope Int) (m n : Int),
      lower.value scope = .ok m → upper.value scope = .ok n →
      (n < m → (sum lower upper name body).value scope = .ok 0) ∧
      (∀ f : Int → Int, (∀ k ∈ Icc m n, (body.substitute name k).value scope = .ok (f k)) →
        (sum lower upper name body).value scope = .ok (∑ k ∈ Icc m n, f k)) ∧
      ∀ k ∈ Icc m n, ∀ err, (body.substitute name k).value scope = .error err →
        (∀ j ∈ Ico m k, ∃ w, (body.substitute name j).value scope = .ok w) →
        (sum lower upper name body).value scope = .error err) ∧
    (∀ (lower upper : Expr) (name : RawText) (body : Expr) (scope : Scope Int),
      (∀ err, (lower.value scope = .error err ∨ ∃ m, lower.value scope = .ok m ∧
        upper.value scope = .error err) → (sum lower upper name body).value scope = .error err) ∧
      ∀ (k : Int) (budget : Budget),
        evalIn (sum lower upper name body) (scope.bind name k) budget =
          evalIn (sum (lower.substitute name k) (upper.substitute name k) name body) scope budget) ∧
    ∀ (e : Expr) (scope : Scope Int) (name : RawText) (j k : Int) (budget : Budget),
      evalIn e ((scope.bind name j).bind name k) budget = evalIn e (scope.bind name k) budget := by
  refine ⟨fun e scope name k budget => by rw [evalIn_bind],
    fun lower upper name body scope m n hm hn => ⟨value_sum_of_lt hm hn, fun f => value_sum_eq_ok hm hn,
      fun k hk err => value_sum_eq_error hm hn hk⟩,
    fun lower upper name body scope => ⟨fun err => value_sum_of_bounds name body, fun k budget => ?_⟩,
    fun e scope name j k budget => by rw [evalIn_bind_bind]⟩
  rw [evalIn_bind, substitute, if_pos rfl]

/-- The sums from each of `1, …, x` up to 3, the inner index hiding the outer one. -/
def cascade : Expr :=
  .sum (.const 1) .param "i" (.sum (.index "i") (.const 3) "i" (.index "i"))

/-- A sum of sums whose terms have no value, the first of them without terms. -/
def brokenCascade : Expr :=
  .sum (.const 0) .param "k" (.sum (.const 1) (.index "k") "j" (.index "y"))

/-- At 2 the cascade is `(1 + 2 + 3) + (2 + 3)`.  The broken one is 0 where it has no terms, and at 3 its
second term fails. -/
theorem value_cascade :
    cascade.value (Scope.root 2) = .ok 11 ∧ brokenCascade.value (Scope.root (-1)) = .ok 0 ∧
      brokenCascade.value (Scope.root 3) =
        .error (.within (.atIndex "y") (.sentinel .unboundIndex)) := by
  obtain ⟨-, hsum, -, -⟩ := evaluation_is_substitution
  refine ⟨?_, ?_, ?_⟩
  · obtain ⟨-, hvalue, -⟩ := hsum (.const 1) .param "i"
      (.sum (.index "i") (.const 3) "i" (.index "i")) (Scope.root 2) 1 2 rfl rfl
    have hterm : ∀ k ∈ Icc (1 : ℤ) 2, ((sum (.index "i") (.const 3) "i" (.index "i")).substitute "i"
        k).value (Scope.root 2) = .ok (if k = 1 then 6 else 5) := by
      intro k hk
      obtain rfl | rfl : k = 1 ∨ k = 2 := by
        rw [mem_Icc] at hk
        omega
      all_goals rfl
    exact hvalue _ hterm
  · exact (hsum (.const 0) .param "k" _ (Scope.root (-1)) 0 (-1) rfl rfl).1 (by decide)
  · obtain ⟨-, -, hfails⟩ := hsum (.const 0) .param "k"
      (.sum (.const 1) (.index "k") "j" (.index "y")) (Scope.root 3) 0 3 rfl rfl
    have hbefore : ∀ j ∈ Ico (0 : ℤ) 1, ∃ w, ((sum (.const 1) (.index "k") "j"
        (.index "y")).substitute "k" j).value (Scope.root 3) = .ok w := by
      intro j hj
      obtain rfl : j = 0 := by
        rw [mem_Ico] at hj
        omega
      exact ⟨0, rfl⟩
    exact hfails 1 (by decide) _ rfl hbefore

end Expr
end ClosedForm
