import ClosedForm.Error

/-!
# Scopes

What the names of an expression mean while it is interpreted: a value for the parameter, and a
chain of bindings for the indices of the summations around the current place, innermost first.
An inner binding hides an outer one of the same name.
-/

namespace ClosedForm

/-- The parameter's value and the index bindings in force, innermost first. -/
structure Scope (α : Type) where
  parameter : α
  bindings : List (RawText × α)

namespace Scope

variable {α : Type}

/-- The scope outside every summation. -/
def root (parameter : α) : Scope α := ⟨parameter, []⟩

/-- The scope inside a summation over `name`. -/
def bind (scope : Scope α) (name : RawText) (value : α) : Scope α :=
  ⟨scope.parameter, (name, value) :: scope.bindings⟩

/-- The value of the innermost binding of `name`. -/
def lookup (scope : Scope α) (name : RawText) : Option α := scope.bindings.lookup name

/-- The value of the innermost binding of `name`, or the error that it is unbound. -/
def index (scope : Scope α) (name : RawText) : Except Error α :=
  match scope.lookup name with
  | some value => .ok value
  | none => .error (.within (.atIndex name) (.sentinel .unboundIndex))

/-- The number of bindings in force. -/
def depth (scope : Scope α) : Nat := scope.bindings.length

@[simp]
theorem parameter_root (p : α) : (root p).parameter = p := rfl

@[simp]
theorem parameter_bind (s : Scope α) (n : RawText) (v : α) : (s.bind n v).parameter = s.parameter :=
  rfl

@[simp]
theorem lookup_root (p : α) (n : RawText) : (root p).lookup n = none := rfl

/-- The innermost binding wins. -/
theorem lookup_bind (s : Scope α) (m n : RawText) (v : α) :
    (s.bind n v).lookup m = if m = n then some v else s.lookup m := by
  unfold lookup bind
  rw [List.lookup_cons]
  by_cases h : m = n
  · simp [h]
  · simp [h, beq_false_of_ne h]

end Scope
end ClosedForm
