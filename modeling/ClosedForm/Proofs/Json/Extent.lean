import ClosedForm.Json.Reader
import Mathlib.Data.List.Basic
import Mathlib.Tactic.SplitIfs

/-!
# Where a value ends

The reader stops at the end of the first value, and what it says of the value depends only on the
characters up to there.  A text that begins with a value is therefore that value's own text before
anything at all, and anything at all can be put after it.

A number is the exception: it ends only where something that is no part of it follows, so of a text
that stops inside one the reader says so.

* `exists_of_run_eq_complete` — what has been read stands before what has not.
* `run_append_of_complete` — what has not been read can be anything.
* `exists_numeral_of_run_eq_atEnd` — only numbers end because the text does.
-/

namespace ClosedForm
namespace Json

/-! ## The character after a value

Two kinds of states see that the value was complete before a character: the one after a value
outside every container, and one inside a number there.  In all others a character goes on with
something that is still open. -/

lemma closeContainer_ne_before (stack : List Frame) (depth : ℕ) (d value : Document) :
    closeContainer stack depth d ≠ .before value := by
  cases stack <;> simp [closeContainer]

lemma afterPart_ne_before (stack : List Frame) (depth : ℕ) (container : Container) (c : Char)
    (value : Document) : afterPart stack depth container c ≠ .before value := by
  cases container <;>
  · simp only [afterPart]
    split_ifs <;> simp [closeContainer_ne_before]

lemma startValue_ne_before (stack : List Frame) (depth : ℕ) (c : Char) (value : Document) :
    startValue stack depth c ≠ .before value := by
  have hopen (state : State) : openContainer stack depth state ≠ .before value := by
    unfold openContainer
    split_ifs <;> simp
  unfold startValue
  split
  case h_9 =>
    split_ifs <;> simp
  all_goals simp [hopen]

lemma insideText_ne_before (stack : List Frame) (depth : ℕ) (role : Role) (units : List ℕ)
    (state : TextState) (c : Char) (value : Document) :
    insideText stack depth role units state c ≠ .before value := by
  unfold insideText
  repeat' split
  all_goals simp

/-- Where a character shows that the value was complete before it, the end of the text shows so
too. -/
lemma finish_of_before {r : Reader} {c : Char} {value : Document}
    (h : r.step c = .before value) :
    r.finish = .complete value [] ∨ r.finish = .atEnd value := by
  obtain ⟨stack, depth, state⟩ := r
  cases state with
  | finished v =>
      cases h
      exact .inl rfl
  | number chars state =>
      right
      simp only [Reader.step] at h
      split at h
      · cases h
      · split_ifs at h with hend
        cases stack with
        | nil =>
            cases h
            simp [Reader.finish, hend]
        | cons frame stack =>
            cases frame <;> exact absurd h (afterPart_ne_before _ _ _ _ _)
  | value | firstItem | firstField | field | colon | after | text | word =>
      exfalso
      simp only [Reader.step] at h
      revert h
      repeat' split
      all_goals simp [closeContainer_ne_before, afterPart_ne_before, startValue_ne_before,
        insideText_ne_before]

/-! ## Whole runs -/

/-- **What has been read stands before what has not,** and read alone it is the same value. -/
lemma exists_of_run_eq_complete {cs rest : List Char} {value : Document} {r : Reader}
    (h : r.run cs = .complete value rest) :
    ∃ taken, cs = taken ++ rest ∧
      (r.run taken = .complete value [] ∨ r.run taken = .atEnd value) := by
  induction cs generalizing r with
  | nil =>
      have hrest : rest = [] := by
        simp only [Reader.run, Reader.finish] at h
        repeat' split at h
        all_goals cases h
        rfl
      exact ⟨[], hrest.symm, .inl (hrest ▸ h)⟩
  | cons c cs ih =>
      rw [Reader.run] at h
      cases hstep : r.step c with
      | next r' =>
          rw [hstep] at h
          obtain ⟨taken, rfl, htaken⟩ := ih h
          refine ⟨c :: taken, rfl, ?_⟩
          rwa [Reader.run, hstep]
      | close v =>
          rw [hstep] at h
          cases h
          exact ⟨[c], rfl, .inl (by rw [Reader.run, hstep])⟩
      | before v =>
          rw [hstep] at h
          cases h
          exact ⟨[], rfl, finish_of_before hstep⟩
      | refuse =>
          rw [hstep] at h
          cases h

/-- **What has not been read can be anything.** -/
lemma run_append_of_complete {cs rest : List Char} {value : Document} {r : Reader}
    (h : r.run cs = .complete value rest) (more : List Char) :
    r.run (cs ++ more) = .complete value (rest ++ more) := by
  induction cs generalizing r with
  | nil =>
      -- A value that is complete when the text ends is complete before whatever comes instead.
      obtain ⟨stack, depth, state⟩ := r
      cases state <;> simp only [Reader.run, Reader.finish] at h
      case finished v =>
        cases h
        cases more <;> rfl
      case number =>
        repeat' split at h
        all_goals cases h
      all_goals cases h
  | cons c cs ih =>
      rw [Reader.run] at h
      rw [List.cons_append, Reader.run]
      cases hstep : r.step c with
      | next r' =>
          rw [hstep] at h
          exact ih h
      | close v =>
          rw [hstep] at h
          cases h
          rfl
      | before v =>
          rw [hstep] at h
          cases h
          rfl
      | refuse =>
          rw [hstep] at h
          cases h

/-- **Only numbers end because the text does.** -/
lemma exists_numeral_of_run_eq_atEnd {cs : List Char} {value : Document} {r : Reader}
    (h : r.run cs = .atEnd value) : ∃ spelling, value = .numeral spelling := by
  induction cs generalizing r with
  | nil =>
      simp only [Reader.run, Reader.finish] at h
      repeat' split at h
      all_goals cases h
      exact ⟨_, rfl⟩
  | cons c cs ih =>
      rw [Reader.run] at h
      split at h
      · exact ih h
      all_goals cases h

end Json
end ClosedForm
