import Mathlib.Data.List.Basic

/-!
# Where a part of a text ends

A text is put together from parts with separators between them, and a part may have a separator in it
as long as that stands in parentheses.  Then the text alone tells where its parts end: a part ends at
the first stop outside of all parentheses.

* `depthAfter` — reads a text and counts the parentheses that are open, and fails at a stop outside of
  all of them.
* `append_inj_of_uncut` — **a part that is followed by a stop or by nothing is determined by the text
  that it begins,** and so is the rest.
* `eq_of_flatten_eq` — the same for any number of parts, each of which begins with a stop.
-/

namespace ClosedForm
namespace Text

/-- The number of open parentheses after one more character. -/
def depthStep (depth : ℕ) (c : Char) : ℕ :=
  if c = '(' then depth + 1 else if c = ')' then depth - 1 else depth

/-- The number of open parentheses after a text, unless it has a stop outside of all parentheses. -/
def depthAfter (stops : List Char) : ℕ → List Char → Option ℕ
  | depth, [] => some depth
  | depth, c :: cs =>
    if depth = 0 ∧ c ∈ stops then none else depthAfter stops (depthStep depth c) cs

/-- A text without a stop outside of parentheses, whose parentheses are closed at its end. -/
def Uncut (stops cs : List Char) : Prop := depthAfter stops 0 cs = some 0

/-- A text that is nothing or begins with a stop. -/
def Stopped (stops cs : List Char) : Prop := ∀ c ∈ cs.head?, c ∈ stops

variable {stops : List Char}

lemma depthAfter_append (stops : List Char) (depth : ℕ) (as bs : List Char) :
    depthAfter stops depth (as ++ bs) =
      (depthAfter stops depth as).bind fun depth' => depthAfter stops depth' bs := by
  induction as generalizing depth with
  | nil => rfl
  | cons c as ih =>
      rw [List.cons_append, depthAfter, depthAfter, ih]
      split <;> rfl

/-- A part that does not change the depth. -/
lemma depthAfter_append_of_eq {as : List Char} {depth : ℕ}
    (h : depthAfter stops depth as = some depth) (bs : List Char) :
    depthAfter stops depth (as ++ bs) = depthAfter stops depth bs := by
  rw [depthAfter_append, h, Option.bind_some]

/-- A character that is no parenthesis, and no stop outside of all parentheses. -/
lemma depthAfter_cons {c : Char} {depth : ℕ} (hopen : c ≠ '(') (hclose : c ≠ ')')
    (hstop : depth = 0 → c ∉ stops) (cs : List Char) :
    depthAfter stops depth (c :: cs) = depthAfter stops depth cs := by
  rw [depthAfter, if_neg fun h => hstop h.1 h.2, depthStep, if_neg hopen, if_neg hclose]

/-- A part in parentheses. -/
lemma depthAfter_parentheses {as : List Char} {depth : ℕ} (hopen : depth = 0 → '(' ∉ stops)
    (h : depthAfter stops (depth + 1) as = some (depth + 1)) (bs : List Char) :
    depthAfter stops depth ('(' :: (as ++ ')' :: bs)) = depthAfter stops depth bs := by
  rw [depthAfter, if_neg fun h => hopen h.1 h.2, depthStep, if_pos rfl, depthAfter_append_of_eq h,
    depthAfter, if_neg fun h => absurd h.1 depth.succ_ne_zero]
  rfl

/-- Characters that are no parentheses do not change the depth. -/
lemma depthAfter_of_forall {cs : List Char} {depth : ℕ} (h : ∀ c ∈ cs, c ≠ '(' ∧ c ≠ ')')
    (hstops : depth = 0 → ∀ c ∈ cs, c ∉ stops) : depthAfter stops depth cs = some depth := by
  induction cs with
  | nil => rfl
  | cons c cs ih =>
      obtain ⟨⟨hopen, hclose⟩, hcs⟩ := List.forall_mem_cons.1 h
      rw [depthAfter_cons hopen hclose fun hdepth => hstops hdepth c List.mem_cons_self]
      exact ih hcs fun hdepth d hd => hstops hdepth d (List.mem_cons_of_mem c hd)

lemma uncut_of_forall {cs : List Char} (h : ∀ c ∈ cs, c ∉ '(' :: ')' :: stops) : Uncut stops cs := by
  apply depthAfter_of_forall
  · intro c hc
    exact ⟨fun hopen => h c hc (by simp [hopen]), fun hclose => h c hc (by simp [hclose])⟩
  · intro _ c hc hstop
    exact h c hc (List.mem_cons_of_mem _ (List.mem_cons_of_mem _ hstop))

/-- A part with a blank on either side of it. -/
lemma Uncut.between_blanks {cs : List Char} (h : Uncut stops cs) (hblank : ' ' ∉ stops) :
    Uncut stops (' ' :: (cs ++ [' '])) := by
  have hgoes : (0 : ℕ) = 0 → ' ' ∉ stops := fun _ => hblank
  rw [Uncut, depthAfter_cons (by decide) (by decide) hgoes, depthAfter_append_of_eq h,
    depthAfter_cons (by decide) (by decide) hgoes]
  rfl

@[simp] lemma stopped_nil : Stopped stops [] := by
  simp [Stopped]

@[simp] lemma stopped_cons_iff {c : Char} {cs : List Char} : Stopped stops (c :: cs) ↔ c ∈ stops := by
  simp [Stopped]

lemma not_uncut_cons_of_mem {c : Char} {cs : List Char} (hc : c ∈ stops) : ¬Uncut stops (c :: cs) := by
  simp [Uncut, depthAfter, hc]

/-- **Where a part ends is determined by the text that it begins.**  The depth is carried along, since
inside of parentheses neither part can end. -/
lemma append_inj_of_depthAfter {as bs rs ss : List Char} {depth : ℕ}
    (ha : depthAfter stops depth as = some 0) (hb : depthAfter stops depth bs = some 0)
    (hr : Stopped stops rs) (hs : Stopped stops ss) (h : as ++ rs = bs ++ ss) :
    as = bs ∧ rs = ss := by
  -- Where one part is at its end, what follows there is a stop, so the other one cannot go on.
  induction as generalizing bs depth with
  | nil =>
      cases ha
      cases bs with
      | nil => exact ⟨rfl, h⟩
      | cons c bs =>
          obtain rfl : rs = c :: (bs ++ ss) := h
          exact absurd hb (not_uncut_cons_of_mem (stopped_cons_iff.1 hr))
  | cons c as ih =>
      cases bs with
      | nil =>
          cases hb
          obtain rfl : c :: (as ++ rs) = ss := h
          exact absurd ha (not_uncut_cons_of_mem (stopped_cons_iff.1 hs))
      | cons c' bs =>
          obtain ⟨rfl, hrest⟩ := List.cons.inj h
          rw [depthAfter] at ha hb
          split at ha
          · cases ha
          · rename_i hgoes
            rw [if_neg hgoes] at hb
            obtain ⟨rfl, hrs⟩ := ih ha hb hrest
            exact ⟨rfl, hrs⟩

lemma append_inj_of_uncut {as bs rs ss : List Char} (ha : Uncut stops as) (hb : Uncut stops bs)
    (hr : Stopped stops rs) (hs : Stopped stops ss) (h : as ++ rs = bs ++ ss) :
    as = bs ∧ rs = ss :=
  append_inj_of_depthAfter ha hb hr hs h

/-! ## Parts one after another -/

/-- A stop and a part after it. -/
inductive Piece (stops : List Char) : List Char → Prop
  | mk {c : Char} {cs : List Char} (hc : c ∈ stops) (hcs : Uncut stops cs) : Piece stops (c :: cs)

lemma stopped_flatten {pieces : List (List Char)} (h : ∀ p ∈ pieces, Piece stops p) :
    Stopped stops pieces.flatten := by
  cases pieces with
  | nil => exact stopped_nil
  | cons p pieces =>
      obtain ⟨hp, -⟩ := List.forall_mem_cons.1 h
      cases hp with
      | mk hc _ => exact stopped_cons_iff.2 hc

/-- **Parts that begin with a stop are determined by the text that they make up.** -/
lemma eq_of_flatten_eq {ps qs : List (List Char)} (hp : ∀ p ∈ ps, Piece stops p)
    (hq : ∀ q ∈ qs, Piece stops q) (h : ps.flatten = qs.flatten) : ps = qs := by
  induction ps generalizing qs with
  | nil =>
      cases qs with
      | nil => rfl
      | cons q qs =>
          cases hq q List.mem_cons_self
          cases h
  | cons p ps ih =>
      obtain ⟨hfirst, hrest⟩ := List.forall_mem_cons.1 hp
      cases qs with
      | nil =>
          cases hfirst
          cases h
      | cons q qs =>
          obtain ⟨hfirst', hrest'⟩ := List.forall_mem_cons.1 hq
          cases hfirst with
          | mk _ hcs =>
            cases hfirst' with
            | mk _ hcs' =>
              rw [List.flatten_cons, List.flatten_cons, List.cons_append, List.cons_append] at h
              obtain ⟨rfl, htail⟩ := List.cons.inj h
              obtain ⟨rfl, hpieces⟩ :=
                append_inj_of_uncut hcs hcs' (stopped_flatten hrest) (stopped_flatten hrest') htail
              rw [ih hrest hrest' hpieces]

end Text
end ClosedForm
