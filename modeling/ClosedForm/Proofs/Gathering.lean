import ClosedForm.Proofs.Report

/-!
# Gathering errors as values

Errors are gathered one after the other into one, which is split into its parts again when it is shown.
Neither the order nor the number of parts may depend on how the appending was grouped.

This file is about errors as values, where appending is a function and what is appended to stays as it
is.  Where a program holds errors that change, `Proofs.Error.Session` says when this is what happens.

* `parts_append`, `append_assoc` — **appending concatenates the parts,** so it is a monoid.
* `wraps_eq_any_parts` — whether a sentinel is wrapped is seen from the parts alone.
* `built_iff` — **what can be built,** as a shape: several errors are at least two, and none of them is
  several, at every depth.
* `ofParts_parts` — what can be built is told by its parts.
-/

namespace ClosedForm

namespace Outcome

/-! ## Parts -/

/-- **Appending concatenates the parts.** -/
lemma parts_append (a b : Outcome) : (a.append b).parts = a.parts ++ b.parts := by
  cases a with
  | none => rfl
  | some x =>
      cases b with
      | none => exact (List.append_nil _).symm
      | some y => rfl

lemma none_append (a : Outcome) : append none a = a := rfl

lemma append_none (a : Outcome) : append a none = a := by cases a <;> rfl

/-- Three errors are the same error, however they are grouped. -/
lemma append_assoc (a b c : Outcome) : (a.append b).append c = a.append (b.append c) := by
  cases a with
  | none => rfl
  | some x =>
      cases b with
      | none => rfl
      | some y =>
          cases c with
          | none => rfl
          | some z =>
              have hgrouped := List.append_assoc (parts (some x)) (parts (some y)) (parts (some z))
              exact congrArg (fun es => some (Error.several es)) hgrouped

/-! ## Sentinels -/

/-- Whether an outcome wraps a sentinel.  Nothing wraps none. -/
def wraps (s : Sentinel) (o : Outcome) : Bool := o.any (Error.wraps s)

end Outcome

lemma Error.hasAny_eq_any (test : Error → Bool) (es : List Error) :
    Error.hasAny test es = es.any (Error.has test) := by
  induction es with
  | nil => rfl
  | cons e es ih => rw [Error.hasAny, ih, List.any_cons]

lemma Error.wraps_several (s : Sentinel) (es : List Error) :
    (Error.several es).wraps s = es.any (Error.wraps s) := by
  rw [Error.wraps, Error.has, Error.hasAny_eq_any]

lemma Error.wraps_within (s : Sentinel) (setting : Setting) (e : Error) :
    (Error.within setting e).wraps s = e.wraps s := by
  rw [Error.wraps, Error.has]

namespace Outcome

/-- **A sentinel is seen from the parts alone.** -/
lemma wraps_eq_any_parts (s : Sentinel) (o : Outcome) : o.wraps s = o.parts.any (Error.wraps s) := by
  cases o with
  | none => rfl
  | some e =>
      cases e with
      | several es => exact Error.wraps_several s es
      | _ => exact (Bool.or_false _).symm

lemma wraps_append (s : Sentinel) (a b : Outcome) :
    (a.append b).wraps s = (a.wraps s || b.wraps s) := by
  simp only [wraps_eq_any_parts, parts_append, List.any_append]

end Outcome

/-! ## What can be built -/

namespace Error

/-- An error that no other is inside of. -/
def IsPlain : Error → Prop
  | within _ _ => False
  | several _ => False
  | _ => True

/-- An error that is not several errors, unless with a setting around them. -/
def IsSingle (e : Error) : Prop := ∀ es, e ≠ several es

/-- The shape of errors that were gathered one after the other: at every depth, several errors are at
least two, and each of them is a single one. -/
inductive Regular : Error → Prop
  | plain {e : Error} (h : e.IsPlain) : Regular e
  | within (setting : Setting) {cause : Error} (h : Regular cause) : Regular (within setting cause)
  | several {es : List Error} (two : 2 ≤ es.length) (regular : ∀ e ∈ es, Regular e)
    (single : ∀ e ∈ es, e.IsSingle) : Regular (several es)

lemma IsPlain.isSingle {e : Error} (h : e.IsPlain) : e.IsSingle := by
  rintro es rfl
  exact h

/-- A regular error is single, or it is at least two regular and single ones. -/
lemma Regular.isSingle_or {e : Error} (h : e.Regular) :
    e.IsSingle ∨ ∃ es, e = Error.several es ∧ 2 ≤ es.length ∧
      ∀ part ∈ es, part.Regular ∧ part.IsSingle := by
  cases h with
  | plain h => exact .inl h.isSingle
  | within setting h => exact .inl fun _ => nofun
  | several two regular single =>
      exact .inr ⟨_, rfl, two, fun part hpart => ⟨regular part hpart, single part hpart⟩⟩

end Error

namespace Outcome

/-- What can be built from nothing and plain errors, in any order and number of steps, by saying where
an outcome arose and by appending. -/
inductive Built : Outcome → Prop
  | nothing : Built none
  | plain {e : Error} (h : e.IsPlain) : Built (some e)
  | within (setting : Setting) {o : Outcome} (h : Built o) : Built (o.within setting)
  | append {a b : Outcome} (ha : Built a) (hb : Built b) : Built (a.append b)

lemma parts_of_isSingle {e : Error} (h : e.IsSingle) : parts (some e) = [e] :=
  parts_ofParts fun es hmem => h es (List.mem_singleton.1 hmem).symm

/-- The parts of a regular error are at least one, and every part is regular and single. -/
lemma parts_of_regular {e : Error} (h : e.Regular) :
    1 ≤ (parts (some e)).length ∧ ∀ part ∈ parts (some e), part.Regular ∧ part.IsSingle := by
  rcases h.isSingle_or with hsingle | ⟨es, rfl, htwo, hes⟩
  · rw [parts_of_isSingle hsingle]
    exact ⟨le_rfl, List.forall_mem_singleton.2 ⟨h, hsingle⟩⟩
  · exact ⟨(Nat.le_succ 1).trans htwo, hes⟩

/-- Appending keeps the shape: both sides have a part, so there are two, and both have single ones. -/
lemma regular_append {a b : Outcome} (ha : ∀ e ∈ a, e.Regular) (hb : ∀ e ∈ b, e.Regular) :
    ∀ e ∈ a.append b, e.Regular := by
  cases a with
  | none => exact hb
  | some x =>
      cases b with
      | none => exact ha
      | some y =>
          obtain ⟨hx, hxs⟩ := parts_of_regular (ha x rfl)
          obtain ⟨hy, hys⟩ := parts_of_regular (hb y rfl)
          have hparts := List.forall_mem_append.2 ⟨hxs, hys⟩
          rintro e ⟨⟩
          refine .several ?_ (fun part h => (hparts part h).1) (fun part h => (hparts part h).2)
          rw [List.length_append]
          omega

/-- **Whatever is built has the shape.** -/
lemma regular_of_built {o : Outcome} (h : Built o) : ∀ e ∈ o, e.Regular := by
  induction h with
  | nothing => nofun
  | plain h =>
      rintro e ⟨⟩
      exact .plain h
  | within setting _ ih =>
      intro e he
      obtain ⟨cause, hcause, rfl⟩ := Option.mem_map.1 he
      exact (ih cause hcause).within setting
  | append _ _ iha ihb => exact regular_append iha ihb

/-- Single errors that can be built are gathered by appending them one after the other. -/
lemma built_ofParts {es : List Error} (hbuilt : ∀ e ∈ es, Built (some e))
    (hsingle : ∀ e ∈ es, e.IsSingle) : Built (ofParts es) := by
  induction es with
  | nil => exact .nothing
  | cons e es ih =>
      obtain ⟨he, hes⟩ := List.forall_mem_cons.1 hbuilt
      obtain ⟨hesingle, hessingle⟩ := List.forall_mem_cons.1 hsingle
      have happend : (ofParts [e]).append (ofParts es) = ofParts ([e] ++ es) := by
        refine append_ofParts (fun parts hmem => ?_) (fun parts hmem => ?_)
        · exact hesingle parts (List.mem_singleton.1 hmem).symm
        · exact hessingle _ hmem parts rfl
      rw [← List.singleton_append, ← happend]
      exact he.append (ih hes hessingle)

lemma ofParts_of_two_le {es : List Error} (h : 2 ≤ es.length) : ofParts es = some (.several es) := by
  rcases es with _ | ⟨e₁, _ | ⟨e₂, es⟩⟩
  · cases h
  · exact absurd h (by simp)
  · rfl

lemma built_of_regular {e : Error} (h : e.Regular) : Built (some e) := by
  induction h with
  | plain h => exact .plain h
  | within setting _ ih => exact ih.within setting
  | several two _ single ih =>
      rw [← ofParts_of_two_le two]
      exact built_ofParts ih single

/-- **What can be built is what has the shape.** -/
lemma built_iff (o : Outcome) : Built o ↔ ∀ e ∈ o, e.Regular := by
  refine ⟨regular_of_built, fun h => ?_⟩
  cases o with
  | none => exact .nothing
  | some e => exact built_of_regular (h e rfl)

/-- What can be built is its parts, gathered. -/
lemma ofParts_parts {o : Outcome} (h : Built o) : ofParts o.parts = o := by
  cases o with
  | none => rfl
  | some e =>
      rcases (regular_of_built h e rfl).isSingle_or with hsingle | ⟨es, rfl, htwo, -⟩
      · rw [parts_of_isSingle hsingle]
        rfl
      · exact ofParts_of_two_le htwo

end Outcome
end ClosedForm
