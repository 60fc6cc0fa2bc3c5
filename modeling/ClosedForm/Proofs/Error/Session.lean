import ClosedForm.Proofs.Error.Memory

/-!
# Programs that build errors

A program can use an outcome again after errors were added to it, which then has changed, and it can even
put several errors into themselves.  This file says what no program can do, over any documented library.

Nothing in memory forbids several errors as a part of several errors, whose own parts would be hidden from
a caller, since adding looks one level deep only.  What excludes it is how errors come about, so it is an
invariant of programs.

* `Memory.Sound` — **what every program keeps up,** with one lemma for each kind of step (`Session.Gives`).
* `Memory.Sound.exists_reads_iff` — **errors stand for a value exactly if none inside of them have been put
  into themselves,** and then they are read to the depth of the number of places (`reads_iff`).
* `Appended.reads` — what was appended to stands for the parts of both sides.
* `Library.Documented.sound_run` — every program keeps memory sound.
-/

open List

namespace ClosedForm

/-! ## Sound memory -/

/-- What every program keeps up: all places are in use, none is a part of another one without a setting
around it, and several errors are at least two. -/
structure Memory.Sound (m : Memory) : Prop where
  parts_in : ∀ i, ∀ e ∈ m.parts i, e.In m
  single : ∀ i, ∀ e ∈ m.parts i, e.IsSingle
  two_le : ∀ i < m.next, 2 ≤ (m.parts i).length

namespace Memory.Sound

variable {m : Memory} (h : m.Sound) {e : Handle}

include h

lemma partsOf_in (he : e.In m) : ∀ part ∈ m.partsOf e, part.In m := by
  cases e with
  | several i => exact h.parts_in i
  | _ => exact List.forall_mem_singleton.2 he

lemma isSingle_of_mem_partsOf : ∀ part ∈ m.partsOf e, part.IsSingle := by
  cases e with
  | several i => exact h.single i
  | cause which => exact List.forall_mem_singleton.2 (Handle.isSingle_cause which)
  | within setting e => exact List.forall_mem_singleton.2 (Handle.isSingle_within setting e)

lemma one_le_length_partsOf (he : e.In m) : 1 ≤ (m.partsOf e).length := by
  cases e with
  | several i => exact (h.two_le i he).trans' (by omega)
  | _ => exact le_rfl

/-- A place that is inside of an error in use is in use. -/
lemma lt_of_inside {i : ℕ} (hin : m.Inside i e) (he : e.In m) : i < m.next := by
  induction hin with
  | here => exact he
  | within setting _ ih => exact ih he
  | part hmem _ ih => exact ih (h.parts_in _ _ hmem)

/-- What is read has the regular shape. -/
lemma regular_of_reads {t : Error} (hreads : m.Reads e t) : e.In m → t.Regular := by
  refine hreads.induction (fun which _ => ?_) (fun setting e t ih he => (ih he).within setting)
    (fun i ts hts ih hi => ?_)
  · exact .plain (by cases which <;> trivial)
  · have hregular := ((forall₂_and_left _ _).2 ⟨h.parts_in i, ih⟩).imp fun e t he => he.2 he.1
    have hsingle := ((forall₂_and_left _ _).2 ⟨h.single i, hts⟩).imp fun e t he => he.2.isSingle he.1
    refine .several (hts.length_eq ▸ h.two_le i hi) ?_ ?_
    · exact forall_mem_of_forall₂ hregular.flip
    · exact forall_mem_of_forall₂ hsingle.flip

end Memory.Sound

/-! ## How deep errors are read -/

namespace Memory

variable {m : Memory} {e : Handle}

open Classical in
/-- The places in use that are inside of an error. -/
noncomputable def placesInside (m : Memory) (e : Handle) : Finset ℕ :=
  (Finset.range m.next).filter fun i => m.Inside i e

lemma mem_placesInside {i : ℕ} : i ∈ m.placesInside e ↔ i < m.next ∧ m.Inside i e := by
  simp only [placesInside, Finset.mem_filter, Finset.mem_range]

lemma card_placesInside_le (m : Memory) (e : Handle) : (m.placesInside e).card ≤ m.next :=
  (Finset.card_le_card fun _ hi => Finset.mem_range.2 (mem_placesInside.1 hi).1).trans
    (Finset.card_range _).le

lemma placesInside_subset {e' : Handle} (himp : ∀ i, m.Inside i e' → m.Inside i e) :
    m.placesInside e' ⊆ m.placesInside e := fun i hi =>
  mem_placesInside.2 ((mem_placesInside.1 hi).imp_right (himp i))

/-- Without loops fewer places are inside of a part than of several errors. -/
lemma card_placesInside_lt {i : ℕ} {part : Handle} (hi : i < m.next) (hloop : m.Loopless (.several i))
    (hpart : part ∈ m.parts i) : (m.placesInside part).card < (m.placesInside (.several i)).card := by
  have hsub : m.placesInside part ⊆ m.placesInside (.several i) := placesInside_subset fun _ => .part hpart
  refine Finset.card_lt_card ((Finset.ssubset_iff_of_subset hsub).2 ⟨i, ?_, fun hback => ?_⟩)
  · exact mem_placesInside.2 ⟨hi, .here⟩
  · exact hloop i .here part hpart (mem_placesInside.1 hback).2

namespace Sound

variable (h : m.Sound)

include h

/-- Errors without loops are read, at a depth that counts the places inside of them. -/
lemma exists_readWithin {depth : ℕ} (he : e.In m) (hloop : m.Loopless e)
    (hdepth : (m.placesInside e).card ≤ depth) : ∃ t, m.readWithin depth e = some t := by
  induction depth using Nat.strong_induction_on generalizing e with
  | h depth ihdepth =>
      induction e with
      | cause which => exact ⟨_, rfl⟩
      | within setting e ih =>
          have hsub : m.placesInside e ⊆ m.placesInside (.within setting e) :=
            placesInside_subset fun _ => .within setting
          obtain ⟨t, ht⟩ := ih he (hloop.of_imp fun _ => .within setting)
            ((Finset.card_le_card hsub).trans hdepth)
          exact ⟨.within setting t, by rw [readWithin_within, ht]; rfl⟩
      | several i =>
          obtain _ | depth := depth
          · have hhere : i ∈ m.placesInside (.several i) := mem_placesInside.2 ⟨he, .here⟩
            rw [Finset.card_eq_zero.1 (Nat.le_zero.1 hdepth)] at hhere
            cases hhere
          · obtain ⟨ts, hts⟩ := exists_forall₂ fun part hpart =>
              ihdepth depth (Nat.lt_succ_self depth) (h.parts_in i part hpart)
                (hloop.of_imp fun _ => .part hpart)
                (Nat.le_of_lt_succ ((card_placesInside_lt he hloop hpart).trans_le hdepth))
            exact ⟨.several ts, readWithin_several_eq_some_iff.2 ⟨ts, hts, rfl⟩⟩

/-- **Errors stand for a value exactly if none inside of them have been put into themselves.** -/
lemma exists_reads_iff (he : e.In m) : (∃ t, m.Reads e t) ↔ m.Loopless e := by
  refine ⟨fun ⟨t, ht⟩ => ht.loopless, fun hloop => ?_⟩
  obtain ⟨t, ht⟩ := h.exists_readWithin he hloop le_rfl
  exact ⟨t, _, ht⟩

/-- **Errors are read to the depth of the number of places, or not at all.** -/
lemma reads_iff {t : Error} (he : e.In m) : m.Reads e t ↔ m.read e = some t := by
  refine ⟨fun ht => ?_, fun hread => ⟨m.next, hread⟩⟩
  obtain ⟨t', ht'⟩ := h.exists_readWithin he ht.loopless (m.card_placesInside_le e)
  rw [read, ht', Reads.unique ⟨m.next, ht'⟩ ht]

end Sound
end Memory

/-- Two errors that the same two are put into, with a setting around them, stand for no value. -/
example : (Library.inPlace.run
    [.plain (.fault .noType), .plain (.sentinel .termLimit), .append 0 1, .within .inline 2,
      .append 2 3]).memory.read (.several 0) = none := by rfl

/-! ## One step -/

namespace Appended

variable {m m' : Memory} {x y : Handle} {place : ℕ} (h : Appended m m' x y place)

include h

/-- No part is lost. -/
lemma mem_parts {i : ℕ} {e : Handle} (he : e ∈ m.parts i) : e ∈ m'.parts i := by
  by_cases hi : i = place
  · rcases h.place_of with rfl | ⟨-, hnew⟩
    · rw [hi, h.parts_place]
      exact List.mem_append_left _ (hi ▸ he)
    · rw [Memory.parts_eq_nil (hi.trans hnew).ge] at he
      cases he
  · rwa [h.parts_of_ne hi]

/-- An error whose parts are listed has no loops if the list has none. -/
lemma loopless_of_parts (hloop : m'.Loopless (.several place)) {z : Handle}
    (hz : ∀ part ∈ m.partsOf z, part ∈ m'.parts place) : m.Loopless z := by
  have hmono {i : ℕ} {e : Handle} (hin : m.Inside i e) : m'.Inside i e := hin.mono fun _ _ => h.mem_parts
  intro i hin part hpart hback
  have hlisted : m'.Inside i (.several place) := by
    rcases hin.eq_or_mem with rfl | ⟨inner, hinner, hin⟩
    · exact .part (hz part hpart) (hmono hback)
    · exact .part (hz inner hinner) (hmono hin)
  exact hloop i hlisted part (h.mem_parts hpart) (hmono hback)

lemma loopless_left (hloop : m'.Loopless (.several place)) : m.Loopless x :=
  h.loopless_of_parts hloop fun part hpart => by
    rw [h.parts_place]
    exact List.mem_append_left _ hpart

lemma loopless_right (hloop : m'.Loopless (.several place)) : m.Loopless y :=
  h.loopless_of_parts hloop fun part hpart => by
    rw [h.parts_place]
    exact List.mem_append_right _ hpart

lemma sound (hm : m.Sound) (hx : x.In m) (hy : y.In m) : m'.Sound := by
  have hparts {p : Handle → Prop} (hold : ∀ i, ∀ e ∈ m.parts i, p e) (hxp : ∀ e ∈ m.partsOf x, p e)
      (hyp : ∀ e ∈ m.partsOf y, p e) (i : ℕ) : ∀ e ∈ m'.parts i, p e := by
    by_cases hi : i = place
    · rw [hi, h.parts_place]
      exact List.forall_mem_append.2 ⟨hxp, hyp⟩
    · rw [h.parts_of_ne hi]
      exact hold i
  refine ⟨hparts (fun i e he => ?_) (fun e he => ?_) (fun e he => ?_), ?_, fun i hi => ?_⟩
  · exact (hm.parts_in i e he).mono h.next_le
  · exact (hm.partsOf_in hx e he).mono h.next_le
  · exact (hm.partsOf_in hy e he).mono h.next_le
  · exact hparts hm.single hm.isSingle_of_mem_partsOf hm.isSingle_of_mem_partsOf
  · by_cases hplace : i = place
    · have hxlen := hm.one_le_length_partsOf hx
      have hylen := hm.one_le_length_partsOf hy
      rw [hplace, h.parts_place, List.length_append]
      omega
    · rw [h.parts_of_ne hplace]
      exact hm.two_le i ((h.lt_or_eq hi).resolve_right hplace)

/-- **On values it is the parts that are put together,** unless errors are put into themselves. -/
lemma reads (hout : ∀ e ∈ m.partsOf x ++ m.partsOf y, ¬m.Inside place e) {t u : Error}
    (hx : m.Reads x t) (hy : m.Reads y u) :
    m'.Reads (.several place) (.several (Outcome.parts (some t) ++ Outcome.parts (some u))) := by
  refine Memory.reads_several ?_
  rw [h.parts_place]
  exact ((forall₂_and_left _ _).2 ⟨hout, List.rel_append hx.partsOf hy.partsOf⟩).imp fun e t he =>
    he.2.frame (fun _ => h.parts_of_ne) he.1

lemma reads_of_loopless (hloop : m'.Loopless (.several place)) {t u : Error} (hx : m.Reads x t)
    (hy : m.Reads y u) :
    m'.Reads (.several place) (.several (Outcome.parts (some t) ++ Outcome.parts (some u))) :=
  h.reads (fun e he hin => hloop place .here e (h.parts_place ▸ he)
    (hin.mono fun _ _ => h.mem_parts)) hx hy

end Appended

/-! ## Whole programs -/

/-- What every program keeps up. -/
structure Session.Sound (st : Session) : Prop where
  memory : st.memory.Sound
  held : ∀ o ∈ st.held, OutcomeIn st.memory o

/-- What one step of a program can give. -/
inductive Session.Gives (st : Session) : Held → Prop
  | nothing : st.Gives ⟨none, st.memory⟩
  | plain (which : Cause) : st.Gives ⟨some (.cause which), st.memory⟩
  | within (setting : Setting) {e : Handle} (he : some e ∈ st.held) :
    st.Gives ⟨some (.within setting e), st.memory⟩
  | again {o : Option Handle} (ho : o ∈ st.held) : st.Gives ⟨o, st.memory⟩
  | appended {x y : Handle} (hx : some x ∈ st.held) (hy : some y ∈ st.held) {place : ℕ} {m' : Memory}
    (h : Appended st.memory m' x y place) : st.Gives ⟨some (.several place), m'⟩

namespace Session

variable {st : Session}

/-- A number is the one of an outcome that is held, or of nothing. -/
lemma outcomeAt_eq (st : Session) (k : ℕ) : st.outcomeAt k ∈ st.held ∨ st.outcomeAt k = none := by
  unfold outcomeAt
  cases hget : st.held[k]? with
  | none => exact .inr rfl
  | some o => exact .inl (List.mem_of_getElem? hget)

lemma gives_outcomeAt (st : Session) (k : ℕ) : st.Gives ⟨st.outcomeAt k, st.memory⟩ := by
  rcases st.outcomeAt_eq k with h | h
  · exact .again h
  · rw [h]
    exact .nothing

lemma mem_held_of_outcomeAt {k : ℕ} {e : Handle} (h : st.outcomeAt k = some e) : some e ∈ st.held := by
  rcases st.outcomeAt_eq k with hmem | hnone
  · exact h ▸ hmem
  · rw [h] at hnone
    cases hnone

end Session

namespace Library.Documented

variable {lib : Library} (hlib : lib.Documented) {st : Session}

include hlib

/-- **What a step can give,** whatever the step is. -/
lemma gives_outcome (hst : st.Sound) (c : Command) : st.Gives (lib.outcome st c) := by
  cases c with
  | nothing => exact .nothing
  | plain which => exact .plain which
  | within setting k =>
      rw [outcome, Library.within]
      cases hk : st.outcomeAt k with
      | none =>
          rw [hlib.wrap_none]
          exact .nothing
      | some e =>
          rw [hlib.wrap_some]
          exact .within setting (Session.mem_held_of_outcomeAt hk)
  | append k l =>
      rw [outcome]
      cases hk : st.outcomeAt k with
      | none => exact st.gives_outcomeAt l
      | some x =>
          cases hl : st.outcomeAt l with
          | none =>
              rw [append_none, ← hk]
              exact st.gives_outcomeAt k
          | some y =>
              have hx := Session.mem_held_of_outcomeAt hk
              have hy := Session.mem_held_of_outcomeAt hl
              obtain ⟨place, m', happend, h⟩ :=
                hlib.exists_append (hst.held _ hx x rfl) (hst.held _ hy y rfl)
              rw [happend]
              exact .appended hx hy h

end Library.Documented

namespace Session.Gives

variable {st : Session} {r : Held} (h : st.Gives r)

include h

lemma sound (hst : st.Sound) : (st.hold r).Sound := by
  have hold {o : Option Handle} (ho : OutcomeIn st.memory o) :
      (st.hold ⟨o, st.memory⟩).Sound :=
    ⟨hst.memory, List.forall_mem_append.2 ⟨hst.held, List.forall_mem_singleton.2 ho⟩⟩
  cases h with
  | nothing => exact hold nofun
  | plain which =>
      refine hold ?_
      rintro e ⟨⟩
      trivial
  | @within setting e he =>
      have hin : e.In st.memory := hst.held _ he e rfl
      refine hold ?_
      rintro e' ⟨⟩
      exact hin
  | again ho => exact hold (hst.held _ ho)
  | appended hx hy happended =>
      refine ⟨happended.sound hst.memory (hst.held _ hx _ rfl) (hst.held _ hy _ rfl), ?_⟩
      refine List.forall_mem_append.2 ⟨fun o ho e he => ?_, List.forall_mem_singleton.2 ?_⟩
      · exact (hst.held o ho e he).mono happended.next_le
      · rintro e ⟨⟩
        exact happended.place_lt

end Session.Gives

namespace Library.Documented

variable {lib : Library} (hlib : lib.Documented)

include hlib

/-- **Every program keeps memory sound,** by induction on its steps. -/
lemma sound_run (cs : List Command) : (lib.run cs).Sound := by
  induction cs using List.reverseRecOn with
  | nil =>
      refine ⟨⟨fun i e he => ?_, fun i e he => ?_, fun i hi => ?_⟩, fun o ho => ?_⟩
      · rw [Memory.parts_eq_nil (Nat.zero_le i)] at he
        cases he
      · rw [Memory.parts_eq_nil (Nat.zero_le i)] at he
        cases he
      · cases hi
      · cases ho
  | append_singleton cs c ih =>
      rw [run, List.foldl_concat]
      exact (hlib.gives_outcome ih c).sound ih

end Library.Documented
end ClosedForm
