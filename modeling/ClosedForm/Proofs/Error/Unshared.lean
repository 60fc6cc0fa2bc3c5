import ClosedForm.Proofs.Error.Session

/-!
# Programs that use nothing twice

Adding to several errors changes them for everybody who holds them, but most programs do not notice: an
error that was added to others, or got a setting around it, is not looked at again.  For these programs
the conditions that gathering otherwise has hold by themselves.

* `Command.uses`, `usedBy` — the numbers of the outcomes that a program uses.
* `Session.Unshared` — **the invariant:** the outcomes that are not used yet stand for values, and no place
  is inside of two of them.
* `Session.Fresh` — what a step has to give so that this stays so, with one lemma for each kind of step.
* `Library.Documented.unshared_run` — **a program that uses nothing twice keeps the invariant.**
-/

open List

namespace ClosedForm

/-- The numbers of the outcomes that a step uses. -/
def Command.uses : Command → List ℕ
  | nothing => []
  | plain _ => []
  | within _ k => [k]
  | append k l => [k, l]

/-- The numbers of the outcomes that a program uses, as often as it uses them. -/
def usedBy (cs : List Command) : List ℕ := cs.flatMap Command.uses

/-! ## The place of what is appended -/

namespace Appended

variable {m m' : Memory} {x y : Handle} {place : ℕ} (h : Appended m m' x y place) (hm : m.Sound)

include h hm

/-- It is not inside of an error that shares no place with the left side. -/
lemma not_inside {z : Handle} (hz : z.In m) (hdisjoint : ∀ i, m.Inside i x → ¬m.Inside i z) :
    ¬m.Inside place z := by
  rcases h.place_of with rfl | ⟨-, rfl⟩
  · exact hdisjoint place .here
  · exact fun hin => lt_irrefl _ (hm.lt_of_inside hin hz)

/-- It is not inside of the parts, if the two sides share no place. -/
lemma not_inside_parts (hx : x.In m) (hy : y.In m) (hloop : m.Loopless x)
    (hdisjoint : ∀ i, m.Inside i x → ¬m.Inside i y) :
    ∀ e ∈ m.partsOf x ++ m.partsOf y, ¬m.Inside place e := by
  refine List.forall_mem_append.2 ⟨fun e he => ?_, fun e he => ?_⟩
  · rcases h.place_of with rfl | ⟨-, rfl⟩
    · exact hloop place .here e he
    · exact fun hin => lt_irrefl _ (hm.lt_of_inside hin (hm.partsOf_in hx e he))
  · exact h.not_inside hm (hm.partsOf_in hy e he) fun i hin hback =>
      hdisjoint i hin (.of_mem_partsOf he hback)

omit hm in
/-- What is inside of the result was inside of one of the two sides, the place itself apart. -/
lemma inside_cases (hout : ∀ e ∈ m.partsOf x ++ m.partsOf y, ¬m.Inside place e) {i : ℕ}
    (hin : m'.Inside i (.several place)) : i = place ∨ m.Inside i x ∨ m.Inside i y := by
  rcases hin.eq_or_mem with heq | ⟨part, hpart, hin⟩
  · exact .inl (Handle.several.inj heq).symm
  · rw [Memory.partsOf, h.parts_place] at hpart
    have hbefore := hin.frame (fun _ => h.parts_of_ne) (hout part hpart)
    exact .inr ((List.mem_append.1 hpart).imp (fun hx => .of_mem_partsOf hx hbefore)
      fun hy => .of_mem_partsOf hy hbefore)

end Appended

/-! ## The invariant -/

namespace Session

/-- The outcomes that are not used yet stand for values, and no place is inside of two of them. -/
structure Unshared (st : Session) (used : List ℕ) : Prop where
  reads : ∀ k ∉ used, ∀ e ∈ st.outcomeAt k, ∃ t, st.memory.Reads e t
  disjoint : ∀ k ∉ used, ∀ l ∉ used, k ≠ l → ∀ e ∈ st.outcomeAt k, ∀ e' ∈ st.outcomeAt l,
    ∀ i, st.memory.Inside i e → ¬st.memory.Inside i e'

/-- What a step gives is a value that shares no place with what is not used yet, and does not change any
of that. -/
structure Fresh (st : Session) (used : List ℕ) (r : Held) : Prop where
  reads : ∀ e ∈ r.outcome, ∃ t, r.memory.Reads e t
  disjoint : ∀ e ∈ r.outcome, ∀ i, r.memory.Inside i e →
    ∀ k ∉ used, ∀ e' ∈ st.outcomeAt k, ¬st.memory.Inside i e'
  kept : ∀ k ∉ used, ∀ e ∈ st.outcomeAt k, ∀ t, st.memory.Reads e t → r.memory.Reads e t
  inside_of : ∀ k ∉ used, ∀ e ∈ st.outcomeAt k, ∀ i, r.memory.Inside i e → st.memory.Inside i e

variable {st : Session} {used uses : List ℕ} {r : Held}

lemma outcomeAt_hold (st : Session) (r : Held) (k : ℕ) :
    (st.hold r).outcomeAt k = if k = st.held.length then r.outcome else st.outcomeAt k := by
  unfold outcomeAt hold
  rcases lt_trichotomy k st.held.length with hlt | rfl | hgt
  · rw [List.getElem?_append_left hlt, if_neg hlt.ne]
  · rw [List.getElem?_concat_length, if_pos rfl]
    rfl
  · rw [List.getElem?_eq_none (by simpa using hgt), List.getElem?_eq_none hgt.le, if_neg hgt.ne']

/-- **One step.** -/
lemma Unshared.hold (hst : st.Unshared used) (h : st.Fresh used r) : (st.hold r).Unshared used := by
  constructor
  · intro k hk e he
    rw [outcomeAt_hold] at he
    split at he
    · exact h.reads e he
    · obtain ⟨t, ht⟩ := hst.reads k hk e he
      exact ⟨t, h.kept k hk e he t ht⟩
  · intro k hk l hl hne e he e' he' i hin hin'
    rw [outcomeAt_hold] at he he'
    split at he <;> split at he'
    · omega
    · exact h.disjoint e he i hin l hl e' he' (h.inside_of l hl e' he' i hin')
    · exact h.disjoint e' he' i hin' k hk e he (h.inside_of k hk e he i hin)
    · exact hst.disjoint k hk l hl hne e he e' he' i (h.inside_of k hk e he i hin)
        (h.inside_of l hl e' he' i hin')

/-- A step that leaves memory as it is gives something fresh if every place in it is one of an outcome that
is used by it. -/
lemma Unshared.fresh_of_inside (hst : st.Unshared used) {o : Option Handle}
    (hreads : ∀ e ∈ o, ∃ t, st.memory.Reads e t) (hnew : ∀ k ∈ uses, k ∉ used)
    (hinside : ∀ e ∈ o, ∀ i, st.memory.Inside i e →
      ∃ k ∈ uses, ∃ e' ∈ st.outcomeAt k, st.memory.Inside i e') :
    st.Fresh (used ++ uses) ⟨o, st.memory⟩ := by
  refine ⟨hreads, fun e he i hin l hl e' he' => ?_, fun _ _ _ _ _ ht => ht, fun _ _ _ _ _ hin => hin⟩
  obtain ⟨k, hk, e₀, he₀, hin₀⟩ := hinside e he i hin
  obtain ⟨hl, hluses⟩ := not_or.1 (mt List.mem_append.2 hl)
  have hne : k ≠ l := by
    rintro rfl
    exact hluses hk
  exact hst.disjoint k (hnew k hk) l hl hne e₀ he₀ e' he' i hin₀

/-- What is appended is fresh, if the two sides are different outcomes. -/
lemma Unshared.fresh_appended (hst : st.Unshared used) (hsound : st.Sound) {k l : ℕ} (hk : k ∉ used)
    (hl : l ∉ used) (hne : k ≠ l) {x y : Handle} (hx : st.outcomeAt k = some x)
    (hy : st.outcomeAt l = some y) {place : ℕ} {m' : Memory}
    (h : Appended st.memory m' x y place) : st.Fresh (used ++ [k, l]) ⟨some (.several place), m'⟩ := by
  have hin {n : ℕ} {z : Handle} (hz : st.outcomeAt n = some z) : z.In st.memory :=
    hsound.held _ (mem_held_of_outcomeAt hz) z rfl
  have hothers {n : ℕ} (hn : n ∉ used ++ [k, l]) : n ∉ used ∧ k ≠ n ∧ l ≠ n := by
    simp only [List.mem_append, List.mem_cons, List.not_mem_nil, or_false, not_or] at hn
    exact ⟨hn.1, Ne.symm hn.2.1, Ne.symm hn.2.2⟩
  have hplace {n : ℕ} (hn : n ∉ used ++ [k, l]) {z : Handle} (hz : st.outcomeAt n = some z) :
      ¬st.memory.Inside place z :=
    h.not_inside hsound.memory (hin hz)
      (hst.disjoint k hk n (hothers hn).1 (hothers hn).2.1 x hx z hz)
  obtain ⟨t, ht⟩ := hst.reads k hk x hx
  obtain ⟨u, hu⟩ := hst.reads l hl y hy
  have hout := h.not_inside_parts hsound.memory (hin hx) (hin hy) ht.loopless
    (hst.disjoint k hk l hl hne x hx y hy)
  refine ⟨?_, ?_, fun n hn z hz t ht => ht.frame (fun _ => h.parts_of_ne) (hplace hn hz),
    fun n hn z hz i hi => hi.frame (fun _ => h.parts_of_ne) (hplace hn hz)⟩
  · rintro e ⟨⟩
    exact ⟨_, h.reads hout ht hu⟩
  · rintro e ⟨⟩ i hi n hn z hz
    obtain ⟨hnused, hkn, hln⟩ := hothers hn
    rcases h.inside_cases hout hi with rfl | hi | hi
    · exact hplace hn hz
    · exact hst.disjoint k hk n hnused hkn x hx z hz i hi
    · exact hst.disjoint l hl n hnused hln y hy z hz i hi

/-- Two outcomes that are not used yet are not the same several errors. -/
lemma Unshared.apart (hst : st.Unshared used) {k l : ℕ} (hk : k ∉ used) (hl : l ∉ used) (hne : k ≠ l) :
    Apart (st.outcomeAt k) (st.outcomeAt l) := fun place hplace hplace' =>
  hst.disjoint k hk l hl hne _ hplace _ hplace' place .here .here

end Session

/-! ## Whole programs -/

namespace Library.Documented

variable {lib : Library} (hlib : lib.Documented) {st : Session} {used : List ℕ}

include hlib

/-- **What a step gives is fresh,** if it uses nothing twice and nothing that was used. -/
lemma fresh_outcome (hsound : st.Sound) (hst : st.Unshared used) (c : Command) (hnodup : c.uses.Nodup)
    (hnew : ∀ k ∈ c.uses, k ∉ used) : st.Fresh (used ++ c.uses) (lib.outcome st c) := by
  cases c with
  | nothing => exact hst.fresh_of_inside nofun hnew nofun
  | plain which =>
      refine hst.fresh_of_inside ?_ hnew ?_
      · rintro e ⟨⟩
        exact ⟨_, Memory.reads_cause _ which⟩
      · rintro e ⟨⟩ i hin
        cases hin
  | within setting k =>
      have hk := hnew k (List.mem_singleton_self k)
      rw [outcome, Library.within]
      cases hget : st.outcomeAt k with
      | none =>
          rw [hlib.wrap_none]
          exact hst.fresh_of_inside nofun hnew nofun
      | some e =>
          rw [hlib.wrap_some]
          obtain ⟨t, ht⟩ := hst.reads k hk e hget
          refine hst.fresh_of_inside ?_ hnew ?_
          · rintro e' ⟨⟩
            exact ⟨_, ht.within setting⟩
          · rintro e' ⟨⟩ i hin
            cases hin with
            | within _ hin => exact ⟨k, List.mem_singleton_self k, e, hget, hin⟩
  | append k l =>
      have hk := hnew k List.mem_cons_self
      have hl := hnew l (List.mem_cons_of_mem _ (List.mem_singleton_self l))
      rw [outcome]
      cases hx : st.outcomeAt k with
      | none =>
          exact hst.fresh_of_inside (hst.reads l hl) hnew fun e he i hin =>
            ⟨l, List.mem_cons_of_mem _ (List.mem_singleton_self l), e, he, hin⟩
      | some x =>
          cases hy : st.outcomeAt l with
          | none =>
              rw [append_none, ← hx]
              exact hst.fresh_of_inside (hst.reads k hk) hnew fun e he i hin =>
                ⟨k, List.mem_cons_self, e, he, hin⟩
          | some y =>
              have hne : k ≠ l := fun heq => (List.nodup_cons.1 hnodup).1 (List.mem_singleton.2 heq)
              obtain ⟨place, m', happend, h⟩ := hlib.exists_append
                (hsound.held _ (Session.mem_held_of_outcomeAt hx) x rfl)
                (hsound.held _ (Session.mem_held_of_outcomeAt hy) y rfl)
              rw [happend]
              exact hst.fresh_appended hsound hk hl hne hx hy h

/-- **A program that uses nothing twice shares nothing,** by induction on its steps. -/
lemma unshared_run (cs : List Command) (hnodup : (usedBy cs).Nodup) :
    (lib.run cs).Unshared (usedBy cs) := by
  induction cs using List.reverseRecOn with
  | nil =>
      refine ⟨fun k _ e he => ?_, fun k _ l _ _ e he => ?_⟩
      · cases he
      · cases he
  | append_singleton cs c ih =>
      have hused : usedBy (cs ++ [c]) = usedBy cs ++ c.uses := by
        rw [usedBy, List.flatMap_append, List.flatMap_singleton, ← usedBy]
      rw [hused] at hnodup ⊢
      obtain ⟨hbefore, hstep, hnew⟩ := List.nodup_append'.1 hnodup
      have hst := ih hbefore
      have hfresh := hlib.fresh_outcome (hlib.sound_run cs) hst c hstep fun k hk hback =>
        hnew hback hk
      rw [run, List.foldl_concat]
      have hmono : (lib.run cs).Unshared (usedBy cs ++ c.uses) := by
        have hsub {k : ℕ} (hk : k ∉ usedBy cs ++ c.uses) : k ∉ usedBy cs := fun hmem =>
          hk (List.mem_append_left _ hmem)
        exact ⟨fun k hk => hst.reads k (hsub hk), fun k hk l hl => hst.disjoint k (hsub hk) l (hsub hl)⟩
      exact hmono.hold hfresh

/-- Without shared errors nothing that is appended has been put into itself. -/
lemma loopless_append_of_unshared (hsound : st.Sound) (hst : st.Unshared used) {k l : ℕ} (hk : k ∉ used)
    (hl : l ∉ used) (hne : k ≠ l) :
    (lib.append (st.outcomeAt k) (st.outcomeAt l) st.memory).Loopless := by
  have hnodup : [k, l].Nodup := List.nodup_cons.2 ⟨mt List.mem_singleton.1 hne, List.nodup_singleton l⟩
  have hnew : ∀ n ∈ [k, l], n ∉ used := List.forall_mem_cons.2 ⟨hk, List.forall_mem_singleton.2 hl⟩
  intro e he
  obtain ⟨t, ht⟩ := (hlib.fresh_outcome hsound hst (.append k l) hnodup hnew).reads e he
  exact ht.loopless

end Library.Documented
end ClosedForm
