import ClosedForm.Error.Memory
import ClosedForm.Proofs.Gathering
import Mathlib.Data.List.Forall2

/-!
# What gathering does to memory

Adding to several errors makes a list longer in place, so an error that is held can change without being
touched.  This file says what one call changes, and when errors in memory still are values.

* `Library.Documented.exists_append` — **what appending does:** the parts of both sides are listed at one
  place, which is the place of the left side or a new one, and no other place changes.
* `Memory.Reads` — the error that a handle stands for, with its induction principle.
* `Memory.Reads.frame` — **what a place is not inside of does not change with it.**
* `Memory.Loopless` — errors with none inside that have been put into themselves, as those that stand for a
  value are (`Memory.Reads.loopless`).
* `Library.Documented.finds_of_reads` — **the search for a sentinel ends on a value,** and finds what the
  value wraps.
-/

namespace ClosedForm

open List

lemma Library.inPlace_documented : Library.inPlace.Documented where
  wrap_none _ := rfl
  wrap_some _ _ := rfl
  gather_nil _ _ := rfl
  gather_several _ _ _ _ := rfl
  gather_single i e es m h := by
    cases e with
    | several j => exact absurd rfl (h j)
    | _ => rfl
  gather_turns e es m h := by
    cases e with
    | several j => exact absurd rfl (h j)
    | _ => rfl
  wrappedErrors_eq _ _ := rfl
  unwrap_cause _ _ := rfl
  unwrap_within _ _ _ := rfl
  unwrap_several _ _ := rfl

/-! ## Places -/

namespace Memory

variable {m : Memory} {i j : ℕ} {es : List Handle}

lemma parts_extend_self (h : i < m.next) : (m.extend i es).parts i = m.parts i ++ es := by
  have hget : m.places[i]? = some m.places[i] := List.getElem?_eq_getElem h
  simp only [parts, extend, List.getElem?_modify, hget, if_true, Option.map_eq_map, Option.map_some,
    Option.getD_some]

lemma parts_extend_of_ne (h : j ≠ i) : (m.extend i es).parts j = m.parts j := by
  simp only [parts, extend, List.getElem?_modify, if_neg h.symm, Option.map_eq_map, Option.map_id']

lemma next_extend : (m.extend i es).next = m.next := List.length_modify _ _ _

lemma parts_eq_nil (h : m.next ≤ i) : m.parts i = [] := by
  rw [parts, List.getElem?_eq_none h]
  rfl

lemma parts_allocate : m.allocate.parts i = m.parts i := by
  rcases lt_trichotomy i m.next with hlt | rfl | hgt
  · simp only [parts, allocate, List.getElem?_append_left hlt]
  · rw [parts_eq_nil le_rfl]
    simp [parts, allocate, next]
  · rw [parts_eq_nil hgt.le, parts_eq_nil]
    simpa [next, allocate] using hgt

lemma next_allocate : m.allocate.next = m.next + 1 := by simp [next, allocate]

/-- The parts of an error: the list of several errors, or the one error. -/
def partsOf (m : Memory) : Handle → List Handle
  | .several place => m.parts place
  | e => [e]

lemma partsOf_of_isSingle {e : Handle} (h : e.IsSingle) (m : Memory) : m.partsOf e = [e] := by
  cases e with
  | several place => exact absurd rfl (h place)
  | _ => rfl

end Memory

namespace Handle

lemma isSingle_cause (which : Cause) : (cause which).IsSingle := fun _ => nofun

lemma isSingle_within (setting : Setting) (e : Handle) : (within setting e).IsSingle := fun _ => nofun

end Handle

/-- The places of an error are in use. -/
def Handle.In (m : Memory) : Handle → Prop
  | cause _ => True
  | within _ e => e.In m
  | several place => place < m.next

lemma Handle.In.mono {m m' : Memory} (h : m.next ≤ m'.next) {e : Handle} (he : e.In m) : e.In m' := by
  induction e with
  | cause which => trivial
  | within setting e ih => exact ih he
  | several place => exact lt_of_lt_of_le he h

/-! ## What appending does -/

/-- From `m` to `m'`, the parts of `x` and of `y` were listed together at `place`. -/
structure Appended (m m' : Memory) (x y : Handle) (place : ℕ) : Prop where
  /-- The place of the left side, or a new one. -/
  place_of : x = .several place ∨ x.IsSingle ∧ place = m.next
  parts_place : m'.parts place = m.partsOf x ++ m.partsOf y
  /-- No other place changes. -/
  parts_of_ne : ∀ {i}, i ≠ place → m'.parts i = m.parts i
  next_le : m.next ≤ m'.next
  place_lt : place < m'.next
  /-- No other place is new. -/
  lt_or_eq : ∀ {i}, i < m'.next → i < m.next ∨ i = place

namespace Library

variable (lib : Library) {m : Memory}

lemma none_append (a : Option Handle) : lib.append none a m = ⟨a, m⟩ := rfl

lemma append_none (a : Option Handle) : lib.append a none m = ⟨a, m⟩ := by cases a <;> rfl

end Library

namespace Library.Documented

variable {lib : Library} (hlib : lib.Documented) {m : Memory} {x y : Handle}

include hlib

/-- One error is added to several. -/
lemma gather_one (i : ℕ) (y : Handle) (m : Memory) :
    lib.gather (.several i) [y] m = (i, m.extend i (m.partsOf y)) := by
  cases y with
  | several j => rw [hlib.gather_several, hlib.gather_nil, Memory.partsOf]
  | cause which =>
      exact (hlib.gather_single i _ _ _ (Handle.isSingle_cause which)).trans (hlib.gather_nil _ _)
  | within setting e =>
      exact (hlib.gather_single i _ _ _ (Handle.isSingle_within setting e)).trans
        (hlib.gather_nil _ _)

/-- **What appending does.** -/
lemma exists_append (hx : x.In m) (hy : y.In m) : ∃ place m',
    lib.append (some x) (some y) m = ⟨some (.several place), m'⟩ ∧ Appended m m' x y place := by
  by_cases hsingle : x.IsSingle
  · have hne {j : ℕ} (h : y = .several j) : j ≠ m.next := by
      rintro rfl
      rw [h] at hy
      exact lt_irrefl _ hy
    have hown : (m.allocate.extend m.next [x]).partsOf y = m.partsOf y := by
      cases y with
      | several j =>
          rw [Memory.partsOf, Memory.parts_extend_of_ne (hne rfl), Memory.parts_allocate,
            Memory.partsOf]
      | _ => rfl
    have hlt : m.next < m.allocate.next := by
      rw [Memory.next_allocate]
      exact Nat.lt_succ_self _
    refine ⟨m.next, (m.allocate.extend m.next [x]).extend m.next (m.partsOf y), ?_, ?_⟩
    · rw [append, hlib.gather_turns x _ _ hsingle, hlib.gather_single _ _ _ _ hsingle,
        hlib.gather_one, hown]
    · refine ⟨.inr ⟨hsingle, rfl⟩, ?_, fun h => ?_, ?_, ?_, fun h => ?_⟩
      · rw [Memory.parts_extend_self (by rwa [Memory.next_extend]), Memory.parts_extend_self hlt,
          Memory.parts_allocate, Memory.parts_eq_nil le_rfl, Memory.partsOf_of_isSingle hsingle,
          List.nil_append]
      · rw [Memory.parts_extend_of_ne h, Memory.parts_extend_of_ne h, Memory.parts_allocate]
      · rw [Memory.next_extend, Memory.next_extend]
        exact hlt.le
      · rwa [Memory.next_extend, Memory.next_extend]
      · rw [Memory.next_extend, Memory.next_extend, Memory.next_allocate] at h
        exact Nat.lt_succ_iff_lt_or_eq.1 h
  · obtain ⟨i, rfl⟩ : ∃ i, x = .several i := by simpa [Handle.IsSingle] using hsingle
    refine ⟨i, m.extend i (m.partsOf y), ?_, ?_⟩
    · rw [append, hlib.gather_one]
    · refine ⟨.inl rfl, Memory.parts_extend_self hx, Memory.parts_extend_of_ne, ?_, ?_, fun h => ?_⟩
      · exact Memory.next_extend.ge
      · rwa [Memory.next_extend]
      · rw [Memory.next_extend] at h
        exact .inl h

lemma parts_some (e : Handle) (m : Memory) : lib.parts ⟨some e, m⟩ = m.partsOf e := by
  cases e with
  | several place => exact hlib.wrappedErrors_eq place m
  | _ => rfl

end Library.Documented

/-! ## Reading an error as a value -/

lemma mapM_eq_some_iff_forall₂ {α β : Type} {f : α → Option β} {as : List α} {bs : List β} :
    as.mapM f = some bs ↔ Forall₂ (fun a b => f a = some b) as bs := by
  induction as generalizing bs with
  | nil => simp [eq_comm]
  | cons a as ih =>
      rw [List.mapM_cons]
      constructor
      · intro h
        obtain ⟨b, hb, h⟩ := Option.bind_eq_some_iff.1 h
        obtain ⟨bs', hbs', h⟩ := Option.bind_eq_some_iff.1 h
        cases h
        exact .cons hb (ih.1 hbs')
      · rintro (_ | ⟨hb, hbs⟩)
        simp [hb, ih.2 hbs]

/-- What two lists say about the members of the first one. -/
lemma forall_mem_of_forall₂ {α β : Type} {p : α → Prop} {as : List α} {bs : List β}
    (h : Forall₂ (fun a _ => p a) as bs) : ∀ a ∈ as, p a :=
  ((forall₂_and_left (R := fun _ _ => True) as bs).1 (h.imp fun _ _ ha => ⟨ha, trivial⟩)).1

/-- If every member of a list is related to something, then the list is related to a list. -/
lemma exists_forall₂ {α β : Type} {R : α → β → Prop} {as : List α} (h : ∀ a ∈ as, ∃ b, R a b) :
    ∃ bs, Forall₂ R as bs := by
  induction as with
  | nil => exact ⟨[], .nil⟩
  | cons a as ih =>
      obtain ⟨⟨b, hb⟩, has⟩ := List.forall_mem_cons.1 h
      obtain ⟨bs, hbs⟩ := ih has
      exact ⟨b :: bs, .cons hb hbs⟩

namespace Memory

/-- The error stands for this value. -/
def Reads (m : Memory) (e : Handle) (t : Error) : Prop := ∃ depth, m.readWithin depth e = some t

lemma readWithin_within (m : Memory) (depth : ℕ) (setting : Setting) (e : Handle) :
    m.readWithin depth (.within setting e) = (m.readWithin depth e).map (.within setting) := rfl

lemma readWithin_several_eq_some_iff {m : Memory} {depth i : ℕ} {t : Error} :
    m.readWithin (depth + 1) (.several i) = some t ↔
      ∃ ts, Forall₂ (fun e t => m.readWithin depth e = some t) (m.parts i) ts ∧ .several ts = t := by
  rw [readWithin, Handle.readWith, readPlace, Option.map_eq_some_iff]
  simp only [mapM_eq_some_iff_forall₂]
  rfl

/-- Down to the places inside of it, an error is read as it is built. -/
lemma readWithin_induction {m : Memory} {depth : ℕ} {motive : Handle → Error → Prop}
    (cause : ∀ which, motive (.cause which) which.toError)
    (within : ∀ setting e t, motive e t → motive (.within setting e) (.within setting t))
    (several : ∀ i t, m.readWithin depth (.several i) = some t → motive (.several i) t)
    {e : Handle} {t : Error} (h : m.readWithin depth e = some t) : motive e t := by
  induction e generalizing t with
  | cause which =>
      cases h
      exact cause which
  | within setting e ih =>
      obtain ⟨t', ht', rfl⟩ := Option.map_eq_some_iff.1 h
      exact within setting e t' (ih ht')
  | several i => exact several i t h

lemma readWithin_mono {m : Memory} {d d' : ℕ} (hle : d ≤ d') {e : Handle} {t : Error}
    (h : m.readWithin d e = some t) : m.readWithin d' e = some t := by
  induction d' generalizing d e t with
  | zero => rwa [Nat.le_zero.1 hle] at h
  | succ d' ihd =>
      refine readWithin_induction (motive := fun e t => m.readWithin (d' + 1) e = some t) (fun _ => rfl)
        (fun setting e t ht => ?_) (fun i t ht => ?_) h
      · rw [readWithin_within, ht]
        rfl
      · cases d with
        | zero => cases ht
        | succ d =>
            obtain ⟨ts, hts, rfl⟩ := readWithin_several_eq_some_iff.1 ht
            have hdeeper := hts.imp fun _ _ => ihd (Nat.le_of_succ_le_succ hle)
            exact readWithin_several_eq_some_iff.2 ⟨ts, hdeeper, rfl⟩

variable {m : Memory}

lemma reads_cause (m : Memory) (which : Cause) : m.Reads (.cause which) which.toError := ⟨0, rfl⟩

lemma Reads.within {e : Handle} {t : Error} (h : m.Reads e t) (setting : Setting) :
    m.Reads (.within setting e) (.within setting t) := by
  obtain ⟨depth, h⟩ := h
  exact ⟨depth, by rw [readWithin_within, h]; rfl⟩

/-- Parts that can be read can be read at one depth. -/
lemma exists_depth {es : List Handle} {ts : List Error} (h : Forall₂ m.Reads es ts) :
    ∃ depth, Forall₂ (fun e t => m.readWithin depth e = some t) es ts := by
  induction h with
  | nil => exact ⟨0, .nil⟩
  | cons hhead _ ih =>
      obtain ⟨d, hd⟩ := hhead
      obtain ⟨d', hd'⟩ := ih
      refine ⟨max d d', .cons (readWithin_mono (le_max_left d d') hd) ?_⟩
      exact hd'.imp fun _ _ => readWithin_mono (le_max_right d d')

lemma reads_several {i : ℕ} {ts : List Error} (h : Forall₂ m.Reads (m.parts i) ts) :
    m.Reads (.several i) (.several ts) := by
  obtain ⟨depth, h⟩ := exists_depth h
  exact ⟨depth + 1, readWithin_several_eq_some_iff.2 ⟨ts, h, rfl⟩⟩

/-- Induction over an error that can be read: over its settings, and over the parts of several errors. -/
@[elab_as_elim]
lemma Reads.induction {motive : Handle → Error → Prop}
    (cause : ∀ which, motive (.cause which) which.toError)
    (within : ∀ setting e t, motive e t → motive (.within setting e) (.within setting t))
    (several : ∀ i ts, Forall₂ m.Reads (m.parts i) ts → Forall₂ motive (m.parts i) ts →
      motive (.several i) (.several ts))
    {e : Handle} {t : Error} (h : m.Reads e t) : motive e t := by
  obtain ⟨depth, h⟩ := h
  induction depth generalizing e t with
  | zero => exact readWithin_induction cause within (fun i t ht => by cases ht) h
  | succ depth ih =>
      refine readWithin_induction cause within (fun i t ht => ?_) h
      obtain ⟨ts, hts, rfl⟩ := readWithin_several_eq_some_iff.1 ht
      exact several i ts (hts.imp fun _ _ het => ⟨depth, het⟩) (hts.imp fun _ _ => ih)

lemma Reads.unique {e : Handle} {t t' : Error} (h : m.Reads e t) (h' : m.Reads e t') : t = t' := by
  obtain ⟨d, hd⟩ := h
  obtain ⟨d', hd'⟩ := h'
  have hmax := readWithin_mono (le_max_left d d') hd
  rw [readWithin_mono (le_max_right d d') hd'] at hmax
  exact (Option.some.inj hmax).symm

lemma reads_cause_iff {which : Cause} {t : Error} :
    m.Reads (.cause which) t ↔ t = which.toError :=
  ⟨fun h => h.unique (reads_cause m which), fun h => h ▸ reads_cause m which⟩

lemma reads_within_iff {setting : Setting} {e : Handle} {t : Error} :
    m.Reads (.within setting e) t ↔ ∃ t', m.Reads e t' ∧ t = .within setting t' := by
  constructor
  · rintro ⟨depth, h⟩
    obtain ⟨t', ht', rfl⟩ := Option.map_eq_some_iff.1 h
    exact ⟨t', ⟨depth, ht'⟩, rfl⟩
  · rintro ⟨t', ht', rfl⟩
    exact ht'.within setting

lemma reads_several_iff {i : ℕ} {t : Error} :
    m.Reads (.several i) t ↔ ∃ ts, Forall₂ m.Reads (m.parts i) ts ∧ t = .several ts := by
  constructor
  · rintro ⟨_ | depth, h⟩
    · cases h
    · obtain ⟨ts, hts, rfl⟩ := readWithin_several_eq_some_iff.1 h
      exact ⟨ts, hts.imp fun _ _ het => ⟨depth, het⟩, rfl⟩
  · rintro ⟨ts, hts, rfl⟩
    exact reads_several hts

/-- A single error stands for a single one. -/
lemma Reads.isSingle {e : Handle} {t : Error} (h : m.Reads e t) (he : e.IsSingle) : t.IsSingle := by
  cases e with
  | cause which =>
      rw [reads_cause_iff.1 h]
      cases which <;> exact fun _ => nofun
  | within setting e =>
      obtain ⟨t', -, rfl⟩ := reads_within_iff.1 h
      exact fun _ => nofun
  | several place => exact absurd rfl (he place)

/-- The parts of an error stand for the parts of its value. -/
lemma Reads.partsOf {e : Handle} {t : Error} (h : m.Reads e t) :
    Forall₂ m.Reads (m.partsOf e) (Outcome.parts (some t)) := by
  by_cases hsingle : e.IsSingle
  · rw [partsOf_of_isSingle hsingle, Outcome.parts_of_isSingle (h.isSingle hsingle)]
    exact .cons h .nil
  · obtain ⟨i, rfl⟩ : ∃ i, e = .several i := by simpa [Handle.IsSingle] using hsingle
    obtain ⟨ts, hts, rfl⟩ := reads_several_iff.1 h
    exact hts

/-! ## Places inside of errors -/

/-- The place is inside of the error, at any depth. -/
inductive Inside (m : Memory) (place : ℕ) : Handle → Prop
  | here : m.Inside place (.several place)
  | within (setting : Setting) {e : Handle} (h : m.Inside place e) :
    m.Inside place (.within setting e)
  | part {i : ℕ} {e : Handle} (hmem : e ∈ m.parts i) (h : m.Inside place e) :
    m.Inside place (.several i)

/-- No several errors inside of this error have been put into themselves. -/
def Loopless (m : Memory) (e : Handle) : Prop := ∀ i, m.Inside i e → ∀ part ∈ m.parts i, ¬m.Inside i part

lemma Loopless.of_imp {e e' : Handle} (h : m.Loopless e) (himp : ∀ i, m.Inside i e' → m.Inside i e) :
    m.Loopless e' := fun i hin => h i (himp i hin)

/-- A place is inside of an error as the error itself or inside of a part. -/
lemma Inside.eq_or_mem {place : ℕ} {e : Handle} (h : m.Inside place e) :
    e = .several place ∨ ∃ part ∈ m.partsOf e, m.Inside place part := by
  cases h with
  | here => exact .inl rfl
  | within setting h => exact .inr ⟨_, List.mem_singleton_self _, h.within setting⟩
  | part hmem h => exact .inr ⟨_, hmem, h⟩

lemma Inside.mono {m' : Memory} (hparts : ∀ i, ∀ e ∈ m.parts i, e ∈ m'.parts i) {place : ℕ}
    {e : Handle} (h : m.Inside place e) : m'.Inside place e := by
  induction h with
  | here => exact .here
  | within setting _ ih => exact .within setting ih
  | part hmem _ ih => exact .part (hparts _ _ hmem) ih

/-- What is inside of a part is inside of the error. -/
lemma Inside.of_mem_partsOf {place : ℕ} {e part : Handle} (hpart : part ∈ m.partsOf e)
    (h : m.Inside place part) : m.Inside place e := by
  cases e with
  | several i => exact .part hpart h
  | _ =>
      rw [List.mem_singleton.1 hpart] at h
      exact h

/-- What is inside of an error does not change with a place that is not. -/
lemma Inside.frame {m' : Memory} {place i : ℕ} (hparts : ∀ i ≠ place, m'.parts i = m.parts i)
    {e : Handle} (h : m'.Inside i e) : ¬m.Inside place e → m.Inside i e := by
  induction h with
  | here => exact fun _ => .here
  | within setting _ ih => exact fun hout => (ih fun hin => hout (.within setting hin)).within setting
  | @part j e hmem _ ih =>
      intro hout
      have hne : j ≠ place := by
        rintro rfl
        exact hout .here
      rw [hparts j hne] at hmem
      exact .part hmem (ih fun hin => hout (.part hmem hin))

/-- **What a place is not inside of does not change with it.** -/
lemma Reads.frame {m' : Memory} {place : ℕ} (hparts : ∀ i ≠ place, m'.parts i = m.parts i)
    {e : Handle} {t : Error} (h : m.Reads e t) : ¬m.Inside place e → m'.Reads e t := by
  refine h.induction (fun which _ => reads_cause m' which) (fun setting e t ih hout => ?_)
    (fun i ts _ ih hout => ?_)
  · exact (ih fun hin => hout (.within setting hin)).within setting
  · have hne : i ≠ place := by
      rintro rfl
      exact hout .here
    refine reads_several ?_
    rw [hparts i hne]
    have houts : ∀ e ∈ m.parts i, ¬m.Inside place e := fun e hmem hin => hout (.part hmem hin)
    exact ((forall₂_and_left _ _).2 ⟨houts, ih⟩).imp fun e t h => h.2 h.1

/-- What can be read does not lead back to a place that it has passed. -/
lemma Reads.loopless {e : Handle} {t : Error} (h : m.Reads e t) : m.Loopless e := by
  refine h.induction (fun which i hin => ?_) (fun setting e t ih i hin => ?_)
    (fun j ts _ ih i hin => ?_)
  · cases hin
  · cases hin with
    | within _ hin => exact ih i hin
  · have hparts := forall_mem_of_forall₂ ih
    cases hin with
    | here => exact fun part hpart hback => hparts part hpart j hback part hpart hback
    | part hmem hin => exact hparts _ hmem i hin

end Memory

/-! ## Outcomes that are held -/

/-- The places of an outcome are in use. -/
def OutcomeIn (m : Memory) (o : Option Handle) : Prop := ∀ e ∈ o, e.In m

/-- The two outcomes are not the same several errors. -/
def Apart (a b : Option Handle) : Prop := ∀ place, a = some (.several place) → b ≠ some (.several place)

/-- No several errors inside of an outcome have been put into themselves. -/
def Held.Loopless (h : Held) : Prop := ∀ e ∈ h.outcome, h.memory.Loopless e

/-! ## The search for a sentinel -/

namespace Library

variable {lib : Library} {s : Sentinel} {m : Memory}

/-- There is at most one answer. -/
lemma Answers.unique {es : List Handle} {b b' : Bool} (h : lib.Answers s m es b)
    (h' : lib.Answers s m es b') : b = b' := by
  induction h with
  | no =>
      cases h'
      rfl
  | yes rest =>
      cases h' with
      | yes => rfl
      | ask other _ => exact absurd rfl other
  | ask other _ ih =>
      cases h' with
      | yes => exact absurd rfl other
      | ask _ asked => exact ih asked

/-- The search does not leave errors that are closed under looking inside. -/
lemma not_answers_true (closed : List Handle) (hs : .cause (.sentinel s) ∉ closed)
    (hclosed : ∀ e ∈ closed, ∀ inner ∈ lib.unwrap e m, inner ∈ closed) {es : List Handle}
    (hes : ∀ e ∈ es, e ∈ closed) : ¬lib.Answers s m es true := by
  intro h
  generalize hanswer : true = answer at h
  induction h with
  | no => cases hanswer
  | yes rest => exact hs (hes _ List.mem_cons_self)
  | ask _ _ ih =>
      obtain ⟨he, hrest⟩ := List.forall_mem_cons.1 hes
      exact ih (List.forall_mem_append.2 ⟨hclosed _ he, hrest⟩) hanswer

/-- The search through these errors ends: at the sentinel, or so that it goes on with what comes next. -/
def Finds (lib : Library) (s : Sentinel) (m : Memory) (es : List Handle) : Bool → Prop
  | true => ∀ rest, lib.Answers s m (es ++ rest) true
  | false => ∀ rest answer, lib.Answers s m rest answer → lib.Answers s m (es ++ rest) answer

namespace Finds

lemma nil : lib.Finds s m [] false := fun _ _ h => h

lemma append {es es' : List Handle} {b b' : Bool} (h : lib.Finds s m es b)
    (h' : lib.Finds s m es' b') : lib.Finds s m (es ++ es') (b || b') := by
  cases b with
  | true => exact fun rest => by simpa only [List.append_assoc] using h (es' ++ rest)
  | false =>
      cases b' with
      | true => exact fun rest => by simpa only [List.append_assoc] using h _ _ (h' rest)
      | false =>
          exact fun rest answer hrest => by
            simpa only [List.append_assoc] using h _ _ (h' rest answer hrest)

lemma of_unwrap {e : Handle} {b : Bool} (hother : e ≠ .cause (.sentinel s))
    (h : lib.Finds s m (lib.unwrap e m) b) : lib.Finds s m [e] b := by
  cases b with
  | true => exact fun rest => .ask hother (h rest)
  | false => exact fun rest answer hrest => .ask hother (h rest answer hrest)

/-- Nothing comes after the last error. -/
lemma answers {es : List Handle} {b : Bool} (h : lib.Finds s m es b) : lib.Answers s m es b := by
  cases b with
  | true => simpa only [List.append_nil] using h []
  | false => simpa only [List.append_nil] using h [] false .no

lemma of_forall₂ {es : List Handle} {ts : List Error}
    (h : Forall₂ (fun e t => lib.Finds s m [e] (t.wraps s)) es ts) :
    lib.Finds s m es (ts.any (Error.wraps s)) := by
  induction h with
  | nil => exact nil
  | cons hhead _ ih =>
      rw [List.any_cons]
      exact hhead.append ih

end Finds

namespace Documented

variable (hlib : lib.Documented)

include hlib

lemma finds_cause (which : Cause) : lib.Finds s m [.cause which] (which.toError.wraps s) := by
  by_cases heq : which = .sentinel s
  · have hwraps : which.toError.wraps s = true := by
      rw [heq]
      exact beq_self_eq_true s
    rw [hwraps, heq]
    exact Answers.yes
  · have hwraps : which.toError.wraps s = false := by
      cases which with
      | sentinel s' => exact beq_false_of_ne fun h => heq (h ▸ rfl)
      | _ => rfl
    have hother : Handle.cause which ≠ .cause (.sentinel s) := fun h => heq (Handle.cause.inj h)
    rw [hwraps]
    refine .of_unwrap hother ?_
    rw [hlib.unwrap_cause]
    exact .nil

/-- A search that ends with no has gone through values only. -/
lemma exists_reads_of_answers {es : List Handle} (h : lib.Answers s m es false) :
    ∀ e ∈ es, ∃ t, m.Reads e t := by
  generalize hanswer : false = answer at h
  induction h with
  | no => exact List.forall_mem_nil _
  | yes rest => cases hanswer
  | @ask e rest answer _ _ ih =>
      obtain ⟨hinside, hrest⟩ := List.forall_mem_append.1 (ih hanswer)
      refine List.forall_mem_cons.2 ⟨?_, hrest⟩
      cases e with
      | cause which => exact ⟨_, Memory.reads_cause m which⟩
      | within setting e =>
          obtain ⟨t, ht⟩ := hinside e (by rw [hlib.unwrap_within]; exact List.mem_singleton_self e)
          exact ⟨_, ht.within setting⟩
      | several i =>
          rw [hlib.unwrap_several] at hinside
          obtain ⟨ts, hts⟩ := exists_forall₂ hinside
          exact ⟨_, Memory.reads_several hts⟩

/-- **The search for a sentinel ends on a value,** and finds what the value wraps. -/
lemma finds_of_reads {e : Handle} {t : Error} (h : m.Reads e t) :
    lib.Finds s m [e] (t.wraps s) := by
  refine h.induction hlib.finds_cause (fun setting e t ih => ?_) (fun i ts _ ih => ?_)
  · rw [Error.wraps_within]
    refine .of_unwrap nofun ?_
    rwa [hlib.unwrap_within]
  · rw [Error.wraps_several]
    refine .of_unwrap nofun ?_
    rw [hlib.unwrap_several]
    exact .of_forall₂ ih

end Documented
end Library
end ClosedForm
