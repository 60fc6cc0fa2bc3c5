import ClosedForm.Expr.Eval
import ClosedForm.Proofs.Scope
import Mathlib.Algebra.BigOperators.Intervals
import Mathlib.Algebra.BigOperators.Group.List.Basic
import Mathlib.Data.Int.ConditionallyCompleteOrder
import Mathlib.Data.Int.Interval
import Mathlib.Tactic.Ring

/-!
# What an evaluation computes and what it spends

`evalIn` evaluates an expression, can fail, and hands a budget through.  This file takes the three
apart.

* `Scoped` — no hole, and every index is bound.  `value_eq_denote`: in a scope that binds its free
  indices a scoped expression has a value, and that value is `denote`, the integer that the
  expression denotes as a piece of mathematics: a summation is a sum over an interval.
* `ranges` — the bounds of every summation that an evaluation reaches, and `termCount`, the terms
  that these summations have together.
* `evalIn_spends` — **a budget decides only whether the value is given.**  An evaluation that
  succeeds without limit gives the same value under every budget of at least `termCount` terms, and
  leaves the rest; under a smaller budget it fails with the term limit.
-/

namespace ClosedForm

open Finset

/-! ## Scoped expressions -/

namespace Expr

/-- The expression has no hole, and every index is bound in it or is one of `bound`. -/
def Scoped : Expr → List RawText → Prop
  | hole, _ => False
  | param, _ => True
  | index name, bound => name ∈ bound
  | const _, _ => True
  | add a b, bound => Scoped a bound ∧ Scoped b bound
  | mul a b, bound => Scoped a bound ∧ Scoped b bound
  | sum lower upper name body, bound =>
    Scoped lower bound ∧ Scoped upper bound ∧ Scoped body (name :: bound)

/-! ## The denoted integer -/

/-- The integer that an expression denotes.  Holes and unbound indices, which have no value, count
as 0 here. -/
noncomputable def denote : Expr → Scope Int → Int
  | hole, _ => 0
  | param, scope => scope.parameter
  | index name, scope => (scope.lookup name).getD 0
  | const v, _ => v
  | add a b, scope => denote a scope + denote b scope
  | mul a b, scope => denote a scope * denote b scope
  | sum lower upper name body, scope =>
    ∑ k ∈ Icc (denote lower scope) (denote upper scope), denote body (scope.bind name k)

/-! ### Evaluation step by step -/

/-- Evaluates two operands from left to right and goes on with their values and the budget that they
leave. -/
def withBoth (a b : Expr) (scope : Scope Int)
    (next : Int → Int → Budget → Except Error (Int × Budget)) (budget : Budget) :
    Except Error (Int × Budget) :=
  (evalIn a scope budget).bind fun x => (evalIn b scope x.2).bind fun y => next x.1 y.1 y.2

/-- `addUp` in an evaluation: terms are added up from a budget on. -/
def addUpFrom (term : Int → Budget → Except Error (Int × Budget)) (count : ℕ) (k total : Int)
    (budget : Budget) : Except Error (Int × Budget) :=
  (addUp term count k total : Evaluation Int).run budget

/-- What a summation does once its bounds are known. -/
def sumOver (name : RawText) (body : Expr) (scope : Scope Int) (m n : Int) (budget : Budget) :
    Except Error (Int × Budget) :=
  if n < m then .ok (0, budget)
  else
    match budget.take (n - m + 1).toNat with
    | none => .error (.within (.inSummation m n) (.sentinel .termLimit))
    | some budget =>
      addUpFrom (fun k => evalIn body (scope.bind name k)) (n - m + 1).toNat m 0 budget

lemma evalIn_param (scope : Scope Int) (budget : Budget) :
    evalIn param scope budget = .ok (scope.parameter, budget) := rfl

lemma evalIn_index (name : RawText) (scope : Scope Int) (budget : Budget) :
    evalIn (index name) scope budget = (scope.index name).bind fun v => .ok (v, budget) := by
  unfold evalIn interpret
  cases scope.index name <;> rfl

lemma evalIn_add (a b : Expr) (scope : Scope Int) (budget : Budget) :
    evalIn (add a b) scope budget =
      withBoth a b scope (fun x y rest => .ok (x + y, rest)) budget := rfl

lemma evalIn_mul (a b : Expr) (scope : Scope Int) (budget : Budget) :
    evalIn (mul a b) scope budget =
      withBoth a b scope (fun x y rest => .ok (x * y, rest)) budget := rfl

/-- A summation at a budget, whether or not notes are kept. -/
lemma run_sum_values {m : Type → Type} [Monad m] [LawfulMonad m] [MonadExceptOf Error m]
    [Noting Int m] (lower upper : Int) (body : Int → StateT Budget m Int) (budget : Budget) :
    (values.sum lower upper body).run budget =
      if upper < lower then pure (0, budget)
      else
        match budget.take (upper - lower + 1).toNat with
        | none => (throw (.within (.inSummation lower upper) (.sentinel .termLimit)) :
            StateT Budget m Int).run budget
        | some rest => (addUp body (upper - lower + 1).toNat lower 0).run rest := by
  unfold values
  dsimp only
  split
  · rfl
  · rw [StateT.run_bind, StateT.run_get, pure_bind]
    cases budget.take (upper - lower + 1).toNat with
    | none => rfl
    | some rest => rw [StateT.run_bind, StateT.run_set, pure_bind]

lemma evalIn_sum (lower upper : Expr) (name : RawText) (body : Expr) (scope : Scope Int)
    (budget : Budget) :
    evalIn (sum lower upper name body) scope budget =
      withBoth lower upper scope (sumOver name body scope) budget := by
  have hsum (m n : Int) : sumOver name body scope m n =
      (values.sum m n fun k => evalIn body (scope.bind name k) : Evaluation Int).run :=
    funext fun rest => (run_sum_values m n (fun k => evalIn body (scope.bind name k)) rest).symm
  simp only [withBoth, hsum]
  rfl

lemma withBoth_eq {a b : Expr} {scope : Scope Int} {x y : Int}
    (ha : evalIn a scope none = .ok (x, none)) (hb : evalIn b scope none = .ok (y, none))
    (next : Int → Int → Budget → Except Error (Int × Budget)) :
    withBoth a b scope next none = next x y none := by
  simp only [withBoth, ha, hb, Except.bind]

lemma addUpFrom_succ (term : Int → Budget → Except Error (Int × Budget)) (count : ℕ)
    (k total : Int) (budget : Budget) :
    addUpFrom term (count + 1) k total budget =
      (term k budget).bind fun x => addUpFrom term count (k + 1) (total + x.1) x.2 := rfl

/-! ### Scoped expressions have the value that they denote -/

/-- The points after the first one, counted from the first one. -/
lemma add_one_add_natCast (k : ℤ) (i : ℕ) : k + 1 + (i : ℤ) = k + ((i + 1 : ℕ) : ℤ) := by
  push_cast
  ring

/-- An interval of integers, counted from its lower end. -/
lemma sum_Icc_eq_sum_range {M : Type} [AddCommMonoid M] (f : ℤ → M) (m n : ℤ) :
    ∑ k ∈ Icc m n, f k = ∑ i ∈ range (n - m + 1).toNat, f (m + i) := by
  have hlen : n + 1 - m = n - m + 1 := by ring
  rw [Int.Icc_eq_finset_map, sum_map, hlen]
  rfl

lemma addUpFrom_eq_ok {term : Int → Budget → Except Error (Int × Budget)} {f : Int → Int} {count : ℕ}
    {k : Int} (hterm : ∀ i < count, term (k + (i : ℕ)) none = .ok (f (k + i), none)) (total : Int) :
    addUpFrom term count k total none = .ok (total + ∑ i ∈ range count, f (k + i), none) := by
  induction count generalizing k total with
  | zero =>
      rw [sum_range_zero, add_zero]
      rfl
  | succ count ih =>
      have hfirst : term k none = .ok (f k, none) := by simpa using hterm 0 (Nat.succ_pos count)
      have hrest : ∀ i < count, term (k + 1 + (i : ℕ)) none = .ok (f (k + 1 + i), none) := by
        intro i hi
        rw [add_one_add_natCast]
        exact hterm (i + 1) (Nat.succ_lt_succ hi)
      rw [addUpFrom_succ, hfirst, sum_range_succ' (fun i : ℕ => f (k + i))]
      simp only [Except.bind, ih hrest, add_one_add_natCast, Nat.cast_zero, add_zero]
      congr 2
      ring

lemma evalIn_eq_denote {e : Expr} {scope : Scope Int} (h : e.Scoped scope.names) :
    evalIn e scope none = .ok (e.denote scope, none) := by
  induction e generalizing scope with
  | hole => exact h.elim
  | param => rfl
  | index name =>
      obtain ⟨v, hv⟩ := Scope.exists_lookup_of_mem h
      rw [evalIn_index, Scope.index, denote, hv]
      rfl
  | const v => rfl
  | add a b iha ihb =>
      rw [evalIn_add, withBoth_eq (iha h.1) (ihb h.2)]
      rfl
  | mul a b iha ihb =>
      rw [evalIn_mul, withBoth_eq (iha h.1) (ihb h.2)]
      rfl
  | sum lower upper name body ihl ihu ihb =>
      obtain ⟨hl, hu, hb⟩ := h
      have hterm (k : Int) : evalIn body (scope.bind name k) none =
          .ok (body.denote (scope.bind name k), none) := ihb hb
      rw [evalIn_sum, withBoth_eq (ihl hl) (ihu hu)]
      simp only [sumOver, Budget.take, denote]
      split
      · rename_i hlt
        rw [Icc_eq_empty (not_le.2 hlt), sum_empty]
      · refine (addUpFrom_eq_ok (f := fun k => body.denote (scope.bind name k)) ?_ 0).trans ?_
        · exact fun i _ => hterm _
        · rw [sum_Icc_eq_sum_range, zero_add]

/-- **A scoped expression has a value,** and it is the integer that the expression denotes. -/
lemma value_eq_denote {e : Expr} {scope : Scope Int} (h : e.Scoped scope.names) :
    e.value scope = .ok (e.denote scope) := by
  rw [value, evalIn_eq_denote h]
  rfl

/-! ## The ranges that an evaluation reaches -/

/-- The bounds of every summation that an evaluation reaches, once for each time it is reached: in
operands, in bounds, and in the body for every value of the index. -/
def ranges : Expr → Scope Int → List (Int × Int)
  | add a b, scope => ranges a scope ++ ranges b scope
  | mul a b, scope => ranges a scope ++ ranges b scope
  | sum lower upper name body, scope =>
    ranges lower scope ++ ranges upper scope ++
      match lower.value scope, upper.value scope with
      | .ok m, .ok n =>
        (m, n) :: (List.range (n - m + 1).toNat).flatMap fun i : ℕ =>
          ranges body (scope.bind name (m + i))
      | _, _ => []
  | _, _ => []

/-- No summation that an evaluation reaches has a range of negative length: every lower bound is at
most one above its upper bound. -/
def Uncrossed (e : Expr) (scope : Scope Int) : Prop := ∀ r ∈ e.ranges scope, r.1 ≤ r.2 + 1

instance (e : Expr) (scope : Scope Int) : Decidable (e.Uncrossed scope) :=
  inferInstanceAs (Decidable (∀ r ∈ e.ranges scope, r.1 ≤ r.2 + 1))

lemma uncrossed_add_iff (a b : Expr) (scope : Scope Int) :
    (add a b).Uncrossed scope ↔ a.Uncrossed scope ∧ b.Uncrossed scope := List.forall_mem_append

lemma uncrossed_mul_iff (a b : Expr) (scope : Scope Int) :
    (mul a b).Uncrossed scope ↔ a.Uncrossed scope ∧ b.Uncrossed scope := List.forall_mem_append

lemma uncrossed_sum_iff {lower upper : Expr} {scope : Scope Int} {m n : Int}
    (hm : lower.value scope = .ok m) (hn : upper.value scope = .ok n) (name : RawText)
    (body : Expr) :
    (sum lower upper name body).Uncrossed scope ↔
      lower.Uncrossed scope ∧ upper.Uncrossed scope ∧ m ≤ n + 1 ∧
        ∀ k ∈ Icc m n, body.Uncrossed (scope.bind name k) := by
  simp only [Uncrossed, ranges, hm, hn, List.forall_mem_append, List.forall_mem_cons, and_assoc]
  refine and_congr_right fun _ => and_congr_right fun _ => and_congr_right fun _ => ?_
  constructor
  · intro h k hk r hr
    rw [mem_Icc] at hk
    refine h r (List.mem_flatMap.2 ⟨(k - m).toNat, List.mem_range.2 (by omega), ?_⟩)
    rwa [show m + ((k - m).toNat : ℤ) = k by omega]
  · intro h r hr
    obtain ⟨i, hi, hr⟩ := List.mem_flatMap.1 hr
    rw [List.mem_range] at hi
    exact h (m + i) (mem_Icc.2 (by omega)) r hr

/-- The number of terms that the summations of an evaluation have together. -/
def termCount (e : Expr) (scope : Scope Int) : ℕ :=
  ((e.ranges scope).map fun r => (r.2 - r.1 + 1).toNat).sum

/-- The number of terms of one summation whose bounds are known, inner summations included. -/
def termsOver (name : RawText) (body : Expr) (scope : Scope Int) (m n : Int) : ℕ :=
  (n - m + 1).toNat +
    ((List.range (n - m + 1).toNat).map fun i : ℕ => body.termCount (scope.bind name (m + i))).sum

lemma termCount_add (a b : Expr) (scope : Scope Int) :
    (add a b).termCount scope = a.termCount scope + b.termCount scope := by
  simp [termCount, ranges]

lemma termCount_mul (a b : Expr) (scope : Scope Int) :
    (mul a b).termCount scope = a.termCount scope + b.termCount scope := by
  simp [termCount, ranges]

lemma termCount_sum {lower upper : Expr} {scope : Scope Int} {m n : Int}
    (hm : lower.value scope = .ok m) (hn : upper.value scope = .ok n) (name : RawText)
    (body : Expr) :
    (sum lower upper name body).termCount scope =
      lower.termCount scope + (upper.termCount scope + termsOver name body scope m n) := by
  simp only [termCount, ranges, hm, hn, termsOver, List.map_append, List.sum_append, List.map_cons,
    List.sum_cons]
  rw [List.map_flatMap, List.flatMap_def, List.sum_flatten, List.map_map]
  simp only [Function.comp_def]
  ring

end Expr

/-! ## Budgets -/

namespace Budget

@[simp] lemma take_zero (budget : Budget) : budget.take 0 = some budget := by
  cases budget <;> simp [take]

/-- Taking terms twice is taking them at once. -/
lemma take_add (budget : Budget) (a b : ℕ) :
    budget.take (a + b) = (budget.take a).bind fun rest => rest.take b := by
  cases budget with
  | none => rfl
  | some left =>
      simp only [take]
      by_cases ha : a ≤ left
      · by_cases hb : b ≤ left - a
        · rw [if_pos ha, if_pos (by omega)]
          simp [hb, Nat.sub_sub]
        · rw [if_pos ha, if_neg (by omega)]
          simp [hb]
      · rw [if_neg ha, if_neg (by omega)]
        rfl

end Budget

/-- A computation whose value is `v` and which takes `cost` terms: it leaves the rest of the budget,
or fails with the term limit when the budget has fewer. -/
def Spends (r : Except Error (Int × Budget)) (v : Int) (budget : Budget) (cost : ℕ) : Prop :=
  match budget.take cost with
  | some rest => r = .ok (v, rest)
  | none => ∃ m n, r = .error (.within (.inSummation m n) (.sentinel .termLimit))

namespace Spends

variable {r : Except Error (Int × Budget)} {v w : Int} {budget : Budget} {a c : ℕ}

lemma pure (v : Int) (budget : Budget) : Spends (.ok (v, budget)) v budget 0 := by
  simp [Spends]

/-- Without limit, nothing is taken. -/
lemma eq_ok (h : Spends r v none c) : r = .ok (v, none) := h

lemma bind {f : Int × Budget → Except Error (Int × Budget)} (hr : Spends r v budget a)
    (hf : ∀ rest, Spends (f (v, rest)) w rest c) : Spends (r.bind f) w budget (a + c) := by
  unfold Spends at hr ⊢
  rw [Budget.take_add]
  cases hta : budget.take a with
  | some rest =>
      rw [hta] at hr
      rw [hr]
      exact hf rest
  | none =>
      rw [hta] at hr
      obtain ⟨m, n, rfl⟩ := hr
      exact ⟨m, n, rfl⟩

end Spends

/-! ## The cost of an evaluation -/

/-- Inverts a successful composition. -/
lemma exists_of_bind_eq_ok {ε α β : Type} {x : Except ε α} {f : α → Except ε β} {r : β}
    (h : x.bind f = .ok r) : ∃ a, x = .ok a ∧ f a = .ok r := by
  cases x with
  | error e => cases h
  | ok a => exact ⟨a, rfl, h⟩

namespace Expr

/-- `e` spends what its ranges say in `scope`, whenever it succeeds there without limit. -/
def SpendsIn (e : Expr) (scope : Scope Int) : Prop :=
  ∀ r, evalIn e scope none = .ok r → ∀ budget,
    Spends (evalIn e scope budget) r.1 budget (e.termCount scope)

/-- The sum of terms that each spend their cost spends all of them. -/
lemma addUpFrom_spends {term : Int → Budget → Except Error (Int × Budget)} {cost : Int → ℕ}
    (hterm : ∀ k r, term k none = .ok r → ∀ budget, Spends (term k budget) r.1 budget (cost k))
    (count : ℕ) (k total : Int) (r : Int × Budget) (h : addUpFrom term count k total none = .ok r)
    (budget : Budget) :
    Spends (addUpFrom term count k total budget) r.1 budget
      ((List.range count).map fun i : ℕ => cost (k + i)).sum := by
  induction count generalizing k total budget with
  | zero =>
      cases h
      exact Spends.pure total budget
  | succ count ih =>
      rw [addUpFrom_succ] at h
      obtain ⟨x, hx, hrest⟩ := exists_of_bind_eq_ok h
      have hfirst := hterm k x hx
      -- Without limit the budget stays `none`, so the induction hypothesis applies to the rest.
      have hnone : x = (x.1, none) := Except.ok.inj (hx.symm.trans (hfirst none).eq_ok)
      rw [hnone] at hrest
      have htail := ih (k + 1) (total + x.1) hrest
      simp only [add_one_add_natCast] at htail
      rw [addUpFrom_succ, List.sum_range_succ']
      simpa using (hfirst budget).bind htail

lemma sumOver_spends {name : RawText} {body : Expr} {scope : Scope Int} {m n : Int}
    {r : Int × Budget} (h : sumOver name body scope m n none = .ok r)
    (hbody : ∀ k, body.SpendsIn (scope.bind name k)) (budget : Budget) :
    Spends (sumOver name body scope m n budget) r.1 budget (termsOver name body scope m n) := by
  unfold sumOver at h ⊢
  unfold termsOver
  by_cases hlt : n < m
  · rw [if_pos hlt] at h ⊢
    have hlen : (n - m + 1).toNat = 0 := by omega
    cases h
    rw [hlen]
    exact Spends.pure 0 budget
  · rw [if_neg hlt] at h ⊢
    -- The whole length is taken first, then each term takes its own.
    unfold Spends
    rw [Budget.take_add]
    cases htake : budget.take (n - m + 1).toNat with
    | none => exact ⟨m, n, rfl⟩
    | some rest => exact addUpFrom_spends hbody _ m 0 r h rest

lemma withBoth_spends {a b : Expr} {scope : Scope Int} (ha : a.SpendsIn scope)
    (hb : b.SpendsIn scope) {next : Int → Int → Budget → Except Error (Int × Budget)}
    {r : Int × Budget} (h : withBoth a b scope next none = .ok r) :
    ∃ x y, a.value scope = .ok x ∧ b.value scope = .ok y ∧ next x y none = .ok r ∧
      ∀ budget c, (∀ rest, Spends (next x y rest) r.1 rest c) →
        Spends (withBoth a b scope next budget) r.1 budget
          (a.termCount scope + (b.termCount scope + c)) := by
  obtain ⟨⟨x, restx⟩, hx, h⟩ := exists_of_bind_eq_ok h
  obtain ⟨⟨y, resty⟩, hy, h⟩ := exists_of_bind_eq_ok h
  cases hx.symm.trans (ha _ hx none).eq_ok
  cases hy.symm.trans (hb _ hy none).eq_ok
  refine ⟨x, y, by rw [value, hx]; rfl, by rw [value, hy]; rfl, h, fun budget c hc => ?_⟩
  exact (ha _ hx budget).bind fun rest => (hb _ hy rest).bind hc

lemma spendsIn (e : Expr) (scope : Scope Int) : e.SpendsIn scope := by
  intro r h budget
  induction e generalizing scope r budget with
  | hole => cases h
  | param =>
      cases h
      exact Spends.pure _ budget
  | index name =>
      rw [evalIn_index] at h ⊢
      obtain ⟨v, hv, hr⟩ := exists_of_bind_eq_ok h
      cases hr
      rw [hv]
      exact Spends.pure v budget
  | const v =>
      cases h
      exact Spends.pure v budget
  | add a b iha ihb =>
      rw [evalIn_add] at h
      obtain ⟨x, y, -, -, hr, hspends⟩ := withBoth_spends (iha scope) (ihb scope) h
      cases hr
      rw [evalIn_add, termCount_add]
      exact hspends budget 0 fun rest => Spends.pure (x + y) rest
  | mul a b iha ihb =>
      rw [evalIn_mul] at h
      obtain ⟨x, y, -, -, hr, hspends⟩ := withBoth_spends (iha scope) (ihb scope) h
      cases hr
      rw [evalIn_mul, termCount_mul]
      exact hspends budget 0 fun rest => Spends.pure (x * y) rest
  | sum lower upper name body ihl ihu ihb =>
      rw [evalIn_sum] at h
      obtain ⟨m, n, hm, hn, hr, hspends⟩ := withBoth_spends (ihl scope) (ihu scope) h
      rw [evalIn_sum, termCount_sum hm hn]
      exact hspends budget _ (sumOver_spends hr fun k => ihb (scope.bind name k))

/-- **A budget decides only whether the value is given.**  An evaluation that succeeds without limit
takes exactly its terms from every budget that has them, and fails with the term limit on every
other. -/
lemma evalIn_spends {e : Expr} {scope : Scope Int} {v : Int} (h : e.value scope = .ok v)
    (budget : Budget) : Spends (evalIn e scope budget) v budget (e.termCount scope) := by
  obtain ⟨r, hr, hv⟩ := exists_of_bind_eq_ok h
  cases hv
  exact spendsIn e scope r hr budget

/-! ## At a point -/

lemma evaluate_eq_denote {e : Expr} (h : e.Scoped []) (n : Int) :
    e.evaluate n = .ok (e.denote (Scope.root n)) :=
  value_eq_denote h

/-- A limit never changes a value. -/
lemma eq_of_evaluateWithin_eq_ok {e : Expr} {n v w : Int} {limit : Int64}
    (hv : e.evaluate n = .ok v) (hw : e.evaluateWithin n limit = .ok w) : w = v := by
  obtain ⟨r, hr, hw⟩ := exists_of_bind_eq_ok hw
  cases hw
  have hspends := evalIn_spends hv (Budget.ofLimit limit)
  rw [hr] at hspends
  unfold Spends at hspends
  split at hspends
  · cases hspends
    rfl
  · obtain ⟨m, k, herror⟩ := hspends
    cases herror

end Expr
end ClosedForm
