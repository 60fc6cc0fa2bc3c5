import ClosedForm.Expr.Interpretation
import ClosedForm.Noting
import Mathlib.Algebra.FreeMonoid.Basic
import Mathlib.Control.Monad.Writer

/-!
# Keeping the notes

What runs drops its notes.  `Noted` keeps them: the same computation, run in it, gives its outcome and
what it noted, in order.  What was noted before a failure is kept.

* `Noted.forgets_outcome` — forgetting the notes keeps results, failures, and their order.
* `Forgets.interpret_eq` — **an interpretation does the same whether or not its notes are kept,** for
  every algebra of which that is true.
-/

namespace ClosedForm

variable {ω ε σ α β : Type} {m n : Type → Type}

/-! ## A monad that keeps notes -/

instance : Noting ω (Writer (FreeMonoid ω)) := ⟨fun w => tell (FreeMonoid.of w)⟩

instance [Monad m] [Noting ω m] : Noting ω (ExceptT ε m) := ⟨fun w => ExceptT.lift (note w)⟩

/-- A computation that can fail, with its notes. -/
abbrev Noted (ω : Type) : Type → Type := ExceptT Error (Writer (FreeMonoid ω))

namespace Noted

/-- What a computation gives. -/
def outcome (x : Noted ω α) : Except Error α := (Id.run x.run.run).1

/-- What a computation noted, in order. -/
def notes (x : Noted ω α) : List ω := (Id.run x.run.run).2.toList

lemma outcome_pure (a : α) : (pure a : Noted ω α).outcome = .ok a := rfl

lemma outcome_throw (err : Error) : (throw err : Noted ω α).outcome = .error err := rfl

lemma outcome_note (w : ω) : (note w : Noted ω Unit).outcome = .ok () := rfl

lemma notes_note (w : ω) : (note w : Noted ω Unit).notes = [w] := rfl

variable {x : Noted ω α} (f : α → Noted ω β)

lemma outcome_bind (x : Noted ω α) :
    (x >>= f).outcome = x.outcome >>= fun a => (f a).outcome := by
  rcases x with ⟨_ | a, w⟩ <;> rfl

/-- After a success the notes of the rest follow. -/
lemma notes_bind_of_ok {a : α} (h : x.outcome = .ok a) :
    (x >>= f).notes = x.notes ++ (f a).notes := by
  rcases x with ⟨_ | a, w⟩
  · cases h
  · cases h
    rfl

/-- After a failure nothing is noted. -/
lemma notes_bind_of_error {err : Error} (h : x.outcome = .error err) :
    (x >>= f).notes = x.notes := by
  rcases x with ⟨_ | a, w⟩
  · exact List.append_nil w
  · cases h

lemma mem_notes_bind {c : ω} (h : c ∈ (x >>= f).notes) :
    c ∈ x.notes ∨ ∃ a, x.outcome = .ok a ∧ c ∈ (f a).notes := by
  cases hx : x.outcome with
  | ok a =>
      rw [notes_bind_of_ok f hx, List.mem_append] at h
      exact h.imp_right fun h => ⟨a, rfl, h⟩
  | error err =>
      rw [notes_bind_of_error f hx] at h
      exact .inl h

end Noted

/-! ## Forgetting the notes -/

/-- A map between monads that keeps results and their order.  Notes become what the second monad makes
of them. -/
structure Forgets (ω : Type) [Monad m] [Noting ω m] [Monad n] [Noting ω n]
    (forget : ∀ α, m α → n α) : Prop where
  map_pure {α : Type} (a : α) : forget α (pure a) = pure a
  map_bind {α β : Type} (x : m α) (f : α → m β) :
    forget β (x >>= f) = forget α x >>= fun a => forget β (f a)
  map_note (w : ω) : forget Unit (note w) = note w

section Failing

variable [Monad m] [MonadExceptOf Error m] [Noting ω m]
variable [Monad n] [MonadExceptOf Error n] [Noting ω n]

/-- Failures are kept as well. -/
structure ForgetsFailing (ω : Type) [Noting ω m] [Noting ω n] (forget : ∀ α, m α → n α) : Prop
    extends Forgets ω forget where
  map_throw {α : Type} (err : Error) : forget α (throw err) = throw err

/-- The second algebra does what the first does, less the notes. -/
structure Algebra.Forgets (forget : ∀ α, m α → n α) (alg : Algebra m α) (alg' : Algebra n α) :
    Prop where
  constant (v : Int) : forget α (alg.constant v) = alg'.constant v
  add (x y : α) : forget α (alg.add x y) = alg'.add x y
  mul (x y : α) : forget α (alg.mul x y) = alg'.mul x y
  sum (lower upper : α) (body : α → m α) :
    forget α (alg.sum lower upper body) = alg'.sum lower upper fun k => forget α (body k)

/-- **Interpretations forget,** by induction on the expression. -/
lemma ForgetsFailing.interpret_eq {forget : ∀ α, m α → n α} (h : ForgetsFailing ω forget)
    {alg : Algebra m α} {alg' : Algebra n α} (halg : alg.Forgets forget alg') (e : Expr)
    (scope : Scope α) : forget α (e.interpret alg scope) = e.interpret alg' scope := by
  induction e generalizing scope with
  | hole => exact h.map_throw _
  | param => exact h.map_pure _
  | index name =>
      unfold Expr.interpret
      cases scope.index name with
      | ok v => exact h.map_pure v
      | error err => exact h.map_throw err
  | const v => exact halg.constant v
  | add a b iha ihb => simp only [Expr.interpret, h.map_bind, iha, ihb, halg.add]
  | mul a b iha ihb => simp only [Expr.interpret, h.map_bind, iha, ihb, halg.mul]
  | sum lower upper name body ihl ihu ihb =>
      simp only [Expr.interpret, h.map_bind, ihl, ihu, ihb, halg.sum]

end Failing

lemma forgets_fst : Forgets (m := Writer (FreeMonoid ω)) (n := Id) ω
    fun _ x => (Id.run x.run).1 where
  map_pure _ := rfl
  map_bind _ _ := rfl
  map_note _ := rfl

namespace Noted

lemma forgets_outcome : ForgetsFailing (m := Noted ω) ω fun _ => outcome where
  map_pure := outcome_pure
  map_bind x f := outcome_bind f x
  map_note := outcome_note
  map_throw := outcome_throw

/-- Forgetting the notes, with a state. -/
lemma forgets_run : ForgetsFailing (m := StateT σ (Noted ω)) (n := StateT σ (Except Error)) ω
    fun _ x s => (x.run s).outcome where
  map_pure _ := rfl
  map_bind x _ := funext fun s => outcome_bind _ (x.run s)
  map_note _ := rfl
  map_throw _ := rfl

end Noted
end ClosedForm
