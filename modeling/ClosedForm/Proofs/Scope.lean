import ClosedForm.Scope
import Mathlib.Data.Option.Basic
import Mathlib.Data.List.Basic

/-!
# Scopes that bind alike

An expression is interpreted more than once, each time in a scope of another kind of value: weights
while its degree is estimated, integers while it is evaluated.  What one interpretation says about
another is carried by a relation between the two scopes.

* `names` — the names that a scope binds, innermost first.
* `Related R s t` — `s` and `t` bind the same names, and what they bind is related by `R`.  It says
  nothing about the order of the bindings or about hidden ones, since no interpretation sees them.
* `Related.bind` — the relation survives entering a summation.
* `induction_on` — a scope is entered from the root, one summation after another.
-/

namespace ClosedForm
namespace Scope

variable {α β : Type}

/-- Every scope is the root, entered by one summation after another. -/
@[elab_as_elim]
lemma induction_on {motive : Scope α → Prop} (scope : Scope α) (root : ∀ p, motive (root p))
    (bind : ∀ scope n v, motive scope → motive (bind scope n v)) : motive scope := by
  obtain ⟨parameter, bindings⟩ := scope
  induction bindings with
  | nil => exact root parameter
  | cons binding bindings ih => exact bind ⟨parameter, bindings⟩ binding.1 binding.2 ih

/-! ## The bound names -/

/-- The names that a scope binds, innermost first. -/
def names (s : Scope α) : List RawText := s.bindings.map Prod.fst

@[simp] lemma names_root (p : α) : (root p).names = [] := rfl

@[simp] lemma names_bind (s : Scope α) (n : RawText) (v : α) :
    (s.bind n v).names = n :: s.names := rfl

lemma lookup_eq_none_iff (s : Scope α) (n : RawText) : s.lookup n = none ↔ n ∉ s.names := by
  rw [lookup, List.lookup_eq_none_iff, names]
  constructor
  · intro h hn
    obtain ⟨x, hx, rfl⟩ := List.mem_map.1 hn
    simpa using h x hx
  · intro h x hx
    have hne : n ≠ x.1 := fun hn => h (List.mem_map.2 ⟨x, hx, hn.symm⟩)
    simpa using hne

lemma exists_lookup_of_mem {s : Scope α} {n : RawText} (h : n ∈ s.names) :
    ∃ v, s.lookup n = some v := by
  rw [← Option.ne_none_iff_exists']
  exact fun hn => (lookup_eq_none_iff s n).1 hn h

/-! ## Related scopes -/

/-- Two scopes bind the same names, and the values of the parameter and of every name are related. -/
structure Related (R : α → β → Prop) (s : Scope α) (t : Scope β) : Prop where
  parameter : R s.parameter t.parameter
  lookup : ∀ n, Option.Rel R (s.lookup n) (t.lookup n)

namespace Related

variable {R : α → β → Prop} {s : Scope α} {t : Scope β}

lemma root {p : α} {q : β} (h : R p q) : Related R (Scope.root p) (Scope.root q) :=
  ⟨h, fun _ => .none⟩

lemma bind (h : Related R s t) (n : RawText) {a : α} {b : β} (hab : R a b) :
    Related R (s.bind n a) (t.bind n b) := by
  refine ⟨h.parameter, fun m => ?_⟩
  rw [lookup_bind, lookup_bind]
  by_cases hm : m = n
  · simpa [hm] using hab
  · simpa [hm] using h.lookup m

lemma mono {S : α → β → Prop} (hRS : ∀ a b, R a b → S a b) (h : Related R s t) :
    Related S s t := by
  refine ⟨hRS _ _ h.parameter, fun n => ?_⟩
  have hn := h.lookup n
  generalize s.lookup n = x, t.lookup n = y at hn ⊢
  cases hn with
  | some hab => exact .some (hRS _ _ hab)
  | none => exact .none

end Related
end Scope
end ClosedForm
