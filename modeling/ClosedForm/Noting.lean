/-!
# Notes

A computation gives its result, and not how it came to it.  One that is written for every monad with
`Noting` also says what it does on the way: it notes the terms that it starts, the words that it
computes, or the points that it looks at.

What runs drops every note, so nothing is spent on them.  The same computation in a monad that keeps
them shows what happened on the way.
-/

namespace ClosedForm

/-- A monad whose computations note what they do. -/
class Noting (ω : Type) (m : Type → Type) where
  /-- Notes one thing. -/
  note : ω → m Unit

export Noting (note)

namespace Noting

variable {ω ε σ : Type} {m : Type → Type}

@[always_inline, inline]
instance : Noting ω Id := ⟨fun _ => pure ()⟩

@[always_inline, inline]
instance : Noting ω (Except ε) := ⟨fun _ => pure ()⟩

@[always_inline, inline]
instance [Monad m] [Noting ω m] : Noting ω (StateT σ m) := ⟨fun w => StateT.lift (note w)⟩

end Noting
end ClosedForm
