import ClosedForm.Expr.Degree
import ClosedForm.Proofs.Expr.Value

/-!
# The degree estimate without words

`weigh` works on signed 64-bit words and fails where a sum of weights is no word.  `weight` is the
same estimate on the natural numbers, which never fails.

* `Weight.Represents` — a word stands for a natural number.
* `Weight.add_represents` — the guarded addition, when it succeeds, adds.
* `weigh_represents` — an estimate that succeeds is the estimate on the natural numbers.
* `scoped_of_weigh` — and its expression is scoped, so that it has a value everywhere.
-/

namespace ClosedForm

/-! ## Words that stand for natural numbers -/

namespace Weight

/-- A word stands for a natural number. -/
def Represents (w : Weight) (k : ℕ) : Prop := w.toInt = k

variable {u v w : Weight} {j k : ℕ}

lemma Represents.toNatClampNeg (h : Represents w k) : w.toNatClampNeg = k := by
  rw [Int64.toNatClampNeg, h, Int.toNat_natCast]

lemma Represents.max (hu : Represents u j) (hv : Represents v k) :
    Represents (max u v) (max j k) := by
  unfold Represents at *
  rw [show Max.max u v = if u ≤ v then v else u from rfl]
  by_cases hle : u ≤ v
  · rw [if_pos hle, hv]
    rw [Int64.le_iff_toInt_le] at hle
    omega
  · rw [if_neg hle, hu]
    rw [Int64.le_iff_toInt_le] at hle
    omega

/-- The largest word less a weight does not wrap. -/
lemma toInt_maxValue_sub (hv : Represents v k) : (Int64.maxValue - v).toInt = 2 ^ 63 - 1 - k := by
  unfold Represents at hv
  have hlt := v.toInt_lt
  rw [Int64.toInt_sub, Int64.toInt_maxValue, hv]
  exact Int.bmod_eq_of_le (by omega) (by omega)

/-- The guard tells exactly when the sum of two weights is no word. -/
lemma maxValue_sub_lt_iff (hu : Represents u j) (hv : Represents v k) :
    Int64.maxValue - v < u ↔ 2 ^ 63 ≤ j + k := by
  rw [Int64.lt_iff_toInt_lt, toInt_maxValue_sub hv, hu]
  omega

/-- Without notes an operation is the word that it gives. -/
lemma compute_eq (op : Operation) : (compute op : Except Error Weight) = .ok op.word := rfl

/-- The guarded addition in an estimate. -/
lemma add_eq (u v : Weight) : (Weight.add u v : Except Error Weight) =
    if Int64.maxValue - v < u then .error (.within .overflow (.sentinel .degreeLimit))
    else .ok (u + v) := rfl

/-- **The guarded addition adds.** -/
lemma add_represents (hu : Represents u j) (hv : Represents v k)
    (h : (Weight.add u v : Except Error Weight) = .ok w) : Represents w (j + k) := by
  rw [add_eq] at h
  split at h
  · cases h
  · rename_i hguard
    cases h
    rw [maxValue_sub_lt_iff hu hv] at hguard
    unfold Represents at *
    rw [Int64.toInt_add, hu, hv]
    push_cast
    exact Int.bmod_eq_of_le (by omega) (by omega)

end Weight

namespace Expr

/-! ## The estimate on the natural numbers -/

/-- The weight of an expression as a natural number, with the weights of the indices in scope.  Holes
and unbound indices weigh nothing. -/
def weight : Expr → Scope ℕ → ℕ
  | hole, _ => 0
  | param, scope => scope.parameter
  | index name, scope => (scope.lookup name).getD 0
  | const _, _ => 0
  | add a b, scope => max (weight a scope) (weight b scope)
  | mul a b, scope => weight a scope + weight b scope
  | sum lower upper name body, scope =>
    let count := max (weight lower scope) (weight upper scope)
    weight body (scope.bind name count) + count

/-! ### Weighing step by step -/

lemma weigh_param (scope : Scope Weight) : weigh param scope = .ok scope.parameter := rfl

lemma weigh_index (name : RawText) (scope : Scope Weight) :
    weigh (index name) scope = scope.index name := by
  unfold weigh interpret
  cases scope.index name <;> rfl

lemma weigh_add (a b : Expr) (scope : Scope Weight) :
    weigh (add a b) scope =
      (weigh a scope).bind fun u => (weigh b scope).bind fun v => .ok (max u v) := by
  simp only [weigh, interpret, weights, bind, Weight.compute_eq, Weight.Operation.word]

lemma weigh_mul (a b : Expr) (scope : Scope Weight) :
    weigh (mul a b) scope =
      (weigh a scope).bind fun u => (weigh b scope).bind fun v => Weight.add u v := by
  simp only [weigh, interpret, weights, bind]

lemma weigh_sum (lower upper : Expr) (name : RawText) (body : Expr) (scope : Scope Weight) :
    weigh (sum lower upper name body) scope =
      (weigh lower scope).bind fun u => (weigh upper scope).bind fun v =>
        (weigh body (scope.bind name (max u v))).bind fun w => Weight.add w (max u v) := by
  simp only [weigh, interpret, weights, bind, Weight.compute_eq, Weight.Operation.word, Except.bind]

/-! ## A successful estimate -/

/-- **An estimate that succeeds is the estimate on the natural numbers.** -/
lemma weigh_represents {e : Expr} {words : Scope Weight} {weights : Scope ℕ}
    (hrel : words.Related Weight.Represents weights) {w : Weight} (h : e.weigh words = .ok w) :
    w.Represents (e.weight weights) := by
  induction e generalizing words weights w with
  | hole => cases h
  | param =>
      cases h
      exact hrel.parameter
  | index name =>
      have hname := hrel.lookup name
      rw [weigh_index, Scope.index] at h
      simp only [weight]
      generalize words.lookup name = x, weights.lookup name = y at hname h
      cases hname with
      | some hwk =>
          cases h
          exact hwk
      | none => cases h
  | const v =>
      cases h
      rfl
  | add a b iha ihb =>
      rw [weigh_add] at h
      obtain ⟨u, hu, h⟩ := exists_of_bind_eq_ok h
      obtain ⟨v, hv, h⟩ := exists_of_bind_eq_ok h
      cases h
      exact (iha hrel hu).max (ihb hrel hv)
  | mul a b iha ihb =>
      rw [weigh_mul] at h
      obtain ⟨u, hu, h⟩ := exists_of_bind_eq_ok h
      obtain ⟨v, hv, h⟩ := exists_of_bind_eq_ok h
      exact Weight.add_represents (iha hrel hu) (ihb hrel hv) h
  | sum lower upper name body ihl ihu ihb =>
      rw [weigh_sum] at h
      obtain ⟨u, hu, h⟩ := exists_of_bind_eq_ok h
      obtain ⟨v, hv, h⟩ := exists_of_bind_eq_ok h
      obtain ⟨x, hx, h⟩ := exists_of_bind_eq_ok h
      have hcount := (ihl hrel hu).max (ihu hrel hv)
      exact Weight.add_represents (ihb (hrel.bind name hcount) hx) hcount h

lemma scoped_of_weigh {e : Expr} {words : Scope Weight} {w : Weight}
    (h : e.weigh words = .ok w) : e.Scoped words.names := by
  induction e generalizing words w with
  | hole => cases h
  | param => trivial
  | index name =>
      rw [weigh_index, Scope.index] at h
      split at h
      · rename_i v hv
        by_contra hname
        rw [(Scope.lookup_eq_none_iff words name).2 hname] at hv
        cases hv
      · cases h
  | const v => trivial
  | add a b iha ihb =>
      rw [weigh_add] at h
      obtain ⟨u, hu, h⟩ := exists_of_bind_eq_ok h
      obtain ⟨v, hv, -⟩ := exists_of_bind_eq_ok h
      exact ⟨iha hu, ihb hv⟩
  | mul a b iha ihb =>
      rw [weigh_mul] at h
      obtain ⟨u, hu, h⟩ := exists_of_bind_eq_ok h
      obtain ⟨v, hv, -⟩ := exists_of_bind_eq_ok h
      exact ⟨iha hu, ihb hv⟩
  | sum lower upper name body ihl ihu ihb =>
      rw [weigh_sum] at h
      obtain ⟨u, hu, h⟩ := exists_of_bind_eq_ok h
      obtain ⟨v, hv, h⟩ := exists_of_bind_eq_ok h
      obtain ⟨x, hx, -⟩ := exists_of_bind_eq_ok h
      exact ⟨ihl hu, ihu hv, ihb hx⟩

/-! ## At the root -/

/-- The degree estimate of an expression as a natural number. -/
def naturalDegree (e : Expr) : ℕ := e.weight (Scope.root 1)

lemma degree_represents {e : Expr} {d : Weight} (h : e.degree = .ok d) :
    d.Represents e.naturalDegree :=
  weigh_represents (Scope.Related.root (by rfl)) h

lemma scoped_of_degree {e : Expr} {d : Weight} (h : e.degree = .ok d) : e.Scoped [] :=
  scoped_of_weigh h

end Expr
end ClosedForm
