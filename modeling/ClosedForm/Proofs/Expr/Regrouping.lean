import ClosedForm.Proofs.Expr.Estimate
import ClosedForm.Proofs.Expr.Nameless

/-!
# Regrouping sums and products

Sums and products have two operands each, so an expression groups them; its text does not show how.
Two expressions that differ in their grouping only have the same values and the same degree estimate.

* `Operation.operands` — the operands of the sums, or of the products, at the top of an expression,
  with the grouping forgotten.
* `Regrouped` — only the grouping differs, anywhere in the expression.
* `regrouped_of_operands` — **operands that are regroupings of each other make up regroupings of each
  other,** however they are grouped.
* `Regrouped.evalIn_eq`, `Regrouped.degree_eq_ok_iff` — what a regrouping preserves.
-/

namespace ClosedForm
namespace Expr

/-! ## Sums and products alike -/

/-- The two operations that the text of an expression does not group. -/
inductive Operation
  | plus
  | times
deriving DecidableEq

namespace Operation

/-- The sum or the product of two. -/
def apply : Operation → Expr → Expr → Expr
  | plus => add
  | times => mul

/-- The sum or the product of any number of operands, grouped from the left. -/
def all : Operation → List Expr → Expr
  | plus => addAll
  | times => mulAll

/-- The operands of an expression: what it adds up, or what it multiplies, after all groups are opened.
An expression that does neither is its own only operand. -/
def operands : Operation → Expr → List Expr
  | plus, add a b => operands plus a ++ operands plus b
  | times, mul a b => operands times a ++ operands times b
  | _, e => [e]

variable {op : Operation}

@[simp] lemma operands_apply (op : Operation) (a b : Expr) :
    op.operands (op.apply a b) = op.operands a ++ op.operands b := by
  cases op <;> rfl

@[simp] lemma all_singleton (op : Operation) (e : Expr) : op.all [e] = e := by
  cases op <;> rfl

lemma all_cons (op : Operation) (e : Expr) (es : List Expr) :
    op.all (e :: es) = es.foldl op.apply e := by
  cases op <;> rfl

lemma all_concat (op : Operation) {es : List Expr} (hes : es ≠ []) (e : Expr) :
    op.all (es ++ [e]) = op.apply (op.all es) e := by
  cases es with
  | nil => exact absurd rfl hes
  | cons first es => rw [List.cons_append, all_cons, all_cons, List.foldl_concat]

/-- The expression does not apply the operation, so that it is no group of operands. -/
def Single (op : Operation) (e : Expr) : Prop := ∀ a b, e ≠ op.apply a b

lemma exists_of_not_single {e : Expr} (h : ¬op.Single e) : ∃ a b, e = op.apply a b := by
  simpa [Single] using h

/-- **An expression is a group of two or it is no group.** -/
@[elab_as_elim]
lemma induction_on (op : Operation) {motive : Expr → Prop} (e : Expr)
    (single : ∀ e, op.Single e → motive e)
    (apply : ∀ a b, motive a → motive b → motive (op.apply a b)) : motive e := by
  induction e with
  | add a b iha ihb =>
      cases op with
      | plus => exact apply a b iha ihb
      | times => exact single _ fun _ _ h => by cases h
  | mul a b iha ihb =>
      cases op with
      | plus => exact single _ fun _ _ h => by cases h
      | times => exact apply a b iha ihb
  | _ => exact single _ fun _ _ h => by cases op <;> cases h

lemma operands_of_single {e : Expr} (h : op.Single e) : op.operands e = [e] := by
  cases op with
  | plus =>
      cases e with
      | add a b => exact absurd rfl (h a b)
      | _ => rfl
  | times =>
      cases e with
      | mul a b => exact absurd rfl (h a b)
      | _ => rfl

lemma operands_ne_nil (op : Operation) (e : Expr) : op.operands e ≠ [] := by
  induction e using op.induction_on with
  | single e h => simp [operands_of_single h]
  | apply a b iha ihb => simp [iha]

lemma single_of_mem_operands {e o : Expr} (h : o ∈ op.operands e) : op.Single o := by
  induction e using op.induction_on with
  | single e hsingle =>
      rw [operands_of_single hsingle, List.mem_singleton] at h
      exact h ▸ hsingle
  | apply a b iha ihb =>
      rw [operands_apply, List.mem_append] at h
      exact h.elim iha ihb

/-- Only a group has more than one operand. -/
lemma single_of_length_eq_one {e : Expr} (h : (op.operands e).length = 1) : op.Single e := by
  rintro a b rfl
  have ha := List.length_pos_iff.2 (op.operands_ne_nil a)
  have hb := List.length_pos_iff.2 (op.operands_ne_nil b)
  rw [operands_apply, List.length_append] at h
  omega

end Operation

/-! ## Regroupings -/

/-- Two expressions that differ in the grouping of sums and products only. -/
inductive Regrouped : Expr → Expr → Prop
  | refl (e : Expr) : Regrouped e e
  | symm {a b : Expr} (h : Regrouped a b) : Regrouped b a
  | trans {a b c : Expr} (hab : Regrouped a b) (hbc : Regrouped b c) : Regrouped a c
  | apply (op : Operation) {a b a' b' : Expr} (ha : Regrouped a a') (hb : Regrouped b b') :
    Regrouped (op.apply a b) (op.apply a' b')
  | sum {lower upper body lower' upper' body' : Expr} (name : RawText)
    (hlower : Regrouped lower lower') (hupper : Regrouped upper upper')
    (hbody : Regrouped body body') :
    Regrouped (sum lower upper name body) (sum lower' upper' name body')
  | assoc (op : Operation) (a b c : Expr) :
    Regrouped (op.apply (op.apply a b) c) (op.apply a (op.apply b c))

namespace Regrouped

variable {op : Operation}

/-- Two groups next to each other are one group. -/
lemma apply_all (op : Operation) {as bs : List Expr} (ha : as ≠ []) (hb : bs ≠ []) :
    Regrouped (op.apply (op.all as) (op.all bs)) (op.all (as ++ bs)) := by
  induction bs using List.reverseRecOn with
  | nil => exact absurd rfl hb
  | append_singleton bs b ih =>
      by_cases hbs : bs = []
      · rw [hbs, List.nil_append, Operation.all_singleton, Operation.all_concat op ha]
        exact .refl _
      · rw [Operation.all_concat op hbs, ← List.append_assoc, Operation.all_concat op (by simp [ha])]
        exact .trans (.symm (.assoc op _ _ b)) (.apply op (ih hbs) (.refl b))

/-- **An expression is its operands, grouped from the left.** -/
lemma all_operands (op : Operation) (e : Expr) : Regrouped e (op.all (op.operands e)) := by
  induction e using op.induction_on with
  | single e h =>
      rw [Operation.operands_of_single h, Operation.all_singleton]
      exact .refl e
  | apply a b iha ihb =>
      rw [Operation.operands_apply]
      exact .trans (.apply op iha ihb)
        (apply_all op (op.operands_ne_nil a) (op.operands_ne_nil b))

lemma all_congr {as bs : List Expr} (h : List.Forall₂ Regrouped as bs) :
    Regrouped (op.all as) (op.all bs) := by
  cases h with
  | nil => exact .refl _
  | @cons a b as bs hab h =>
      rw [Operation.all_cons, Operation.all_cons]
      induction h generalizing a b with
      | nil => exact hab
      | cons hab' _ ih => exact ih (.apply op hab hab')

end Regrouped

lemma regrouped_of_operands {op : Operation} {a b : Expr}
    (h : List.Forall₂ Regrouped (op.operands a) (op.operands b)) : Regrouped a b :=
  .trans (.all_operands op a) (.trans (.all_congr h) (.symm (.all_operands op b)))

/-! ## What a regrouping preserves -/

namespace Operation

/-- What an operation does to integers. -/
def onInt : Operation → Int → Int → Int
  | plus => (· + ·)
  | times => (· * ·)

lemma onInt_assoc (op : Operation) (x y z : Int) :
    op.onInt (op.onInt x y) z = op.onInt x (op.onInt y z) := by
  cases op with
  | plus => exact add_assoc x y z
  | times => exact mul_assoc x y z

lemma evalIn_apply (op : Operation) (a b : Expr) (scope : Scope Int) (budget : Budget) :
    evalIn (op.apply a b) scope budget =
      withBoth a b scope (fun x y rest => .ok (op.onInt x y, rest)) budget := by
  cases op <;> rfl

/-- What an operation does to weights. -/
def onWeight : Operation → ℕ → ℕ → ℕ
  | plus => max
  | times => (· + ·)

lemma onWeight_assoc (op : Operation) (u v w : ℕ) :
    op.onWeight (op.onWeight u v) w = op.onWeight u (op.onWeight v w) := by
  cases op with
  | plus => exact max_assoc u v w
  | times => exact add_assoc u v w

lemma weight_apply (op : Operation) (a b : Expr) (scope : Scope ℕ) :
    weight (op.apply a b) scope = op.onWeight (weight a scope) (weight b scope) := by
  cases op <;> rfl

lemma scoped_apply (op : Operation) (a b : Expr) (bound : List RawText) :
    Scoped (op.apply a b) bound ↔ Scoped a bound ∧ Scoped b bound := by
  cases op <;> rfl

end Operation

namespace Regrouped

variable {a b : Expr}

/-- **A regrouping changes no evaluation,** under any budget and failures included: the operands are
evaluated in the same order. -/
lemma evalIn_eq (h : Regrouped a b) (scope : Scope Int) : evalIn a scope = evalIn b scope := by
  induction h generalizing scope with
  | refl => rfl
  | symm _ ih => exact (ih scope).symm
  | trans _ _ ih₁ ih₂ => exact (ih₁ scope).trans (ih₂ scope)
  | apply op _ _ iha ihb =>
      funext budget
      rw [op.evalIn_apply, op.evalIn_apply, withBoth_congr (iha scope) (ihb scope) rfl]
  | @sum lower upper body lower' upper' body' name _ _ _ ihl ihu ihb =>
      have hnext : sumOver name body scope = sumOver name body' scope := by
        funext m n budget
        simp only [sumOver, ihb]
      funext budget
      rw [evalIn_sum, evalIn_sum, withBoth_congr (ihl scope) (ihu scope) hnext]
  | assoc op a b c =>
      funext budget
      simp only [op.evalIn_apply, withBoth]
      cases evalIn a scope budget with
      | error err => rfl
      | ok x =>
          simp only [Except.bind]
          cases evalIn b scope x.2 with
          | error err => rfl
          | ok y =>
              dsimp only
              cases evalIn c scope y.2 with
              | error err => rfl
              | ok z => simp only [op.onInt_assoc]

lemma evaluate_eq (h : Regrouped a b) (n : Int) : a.evaluate n = b.evaluate n := by
  rw [evaluate, evaluate, value, value, h.evalIn_eq]

lemma scoped_iff (h : Regrouped a b) (bound : List RawText) : a.Scoped bound ↔ b.Scoped bound := by
  induction h generalizing bound with
  | refl => rfl
  | symm _ ih => exact (ih bound).symm
  | trans _ _ ih₁ ih₂ => exact (ih₁ bound).trans (ih₂ bound)
  | apply op _ _ iha ihb => rw [op.scoped_apply, op.scoped_apply, iha, ihb]
  | sum name _ _ _ ihl ihu ihb => rw [Scoped, Scoped, ihl, ihu, ihb]
  | assoc op a b c => simp only [op.scoped_apply, and_assoc]

lemma weight_eq (h : Regrouped a b) (scope : Scope ℕ) : a.weight scope = b.weight scope := by
  induction h generalizing scope with
  | refl => rfl
  | symm _ ih => exact (ih scope).symm
  | trans _ _ ih₁ ih₂ => exact (ih₁ scope).trans (ih₂ scope)
  | apply op _ _ iha ihb => rw [op.weight_apply, op.weight_apply, iha, ihb]
  | sum name _ _ _ ihl ihu ihb => rw [weight, weight, ihl, ihu, ihb]
  | assoc op a b c => simp only [op.weight_apply, op.onWeight_assoc]

end Regrouped

/-- A degree estimate is what the natural numbers give, where there is anything to estimate and the
result is a word. -/
lemma degree_eq_ok_iff (e : Expr) (d : Weight) :
    e.degree = .ok d ↔ e.Scoped [] ∧ d.Represents e.naturalDegree := by
  constructor
  · intro h
    exact ⟨scoped_of_degree h, degree_represents h⟩
  · rintro ⟨hscoped, hd⟩
    have hsmall : e.naturalDegree < 2 ^ 63 := by
      have hlt := d.toInt_lt
      rw [hd] at hlt
      omega
    have hroot : (Scope.root (1 : Weight)).Related Weight.Represents (Scope.root 1) := .root (by rfl)
    obtain ⟨w, hw⟩ := exists_weigh_eq_ok hroot hscoped hsmall
    have hword : w = d := Int64.toInt_inj.1 ((weigh_represents hroot hw).trans hd.symm)
    rw [degree, hw, hword]

lemma Regrouped.degree_eq_ok_iff {a b : Expr} (h : Regrouped a b) (d : Weight) :
    a.degree = .ok d ↔ b.degree = .ok d := by
  rw [Expr.degree_eq_ok_iff, Expr.degree_eq_ok_iff, h.scoped_iff, naturalDegree, naturalDegree,
    h.weight_eq]

end Expr
end ClosedForm
