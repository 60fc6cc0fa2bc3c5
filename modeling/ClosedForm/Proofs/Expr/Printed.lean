import ClosedForm.Proofs.Expr.Regrouping
import ClosedForm.Proofs.Text.Numerals
import ClosedForm.Proofs.Text.Parentheses

/-!
# The text of an expression determines its meaning

The text of an expression drops the grouping of sums and products, and nothing else.  A sum within a
product stands in parentheses, and so do the bounds and the body of a summation.  So the character at
which two parts are cut, be it a sign, the dots between bounds or a closing parenthesis, does not occur
in a part outside of the part's own parentheses.

Only index names could get in the way, since any text can be one.  Those of the form `i1`, which
summations are given, do not.

* `depthAfter_toText` — what the text of an expression has outside of parentheses.
* `operands_written` — a text determines the texts of the operands.
* `regrouped_of_toText_eq` — **equal texts are regroupings.**
* `toText_determines_meaning` — so they have the same values, failures and estimates.
-/

namespace ClosedForm
namespace Expr

/-! ## Index names -/

/-- A name of the form that summations are given: the letter `i` and digits. -/
def IndexName (name : RawText) : Prop :=
  ∃ digits, Text.isDigits digits = true ∧ name = String.ofList ('i' :: digits)

lemma indexName_indexName (n : UInt64) : IndexName (indexName n) := by
  refine ⟨Text.decimal n.toNat, Text.isDigits_decimal _, congrArg RawText.ofString ?_⟩
  have hdigits : (Text.integer n.toNat).toList = Text.decimal n.toNat := String.toList_ofList
  apply String.toList_injective
  simp [indexName, hdigits]

lemma IndexName.exists_toList {name : RawText} (h : IndexName name) :
    ∃ digits, name.shown.toList = 'i' :: digits ∧ ∀ c ∈ digits, c.isDigit = true := by
  obtain ⟨digits, hdigits, rfl⟩ := h
  rw [Text.isDigits, Bool.and_eq_true, List.all_eq_true] at hdigits
  exact ⟨digits, String.toList_ofList, hdigits.2⟩

lemma IndexName.ofString_shown {name : RawText} (h : IndexName name) : name = name.shown := by
  obtain ⟨digits, -, rfl⟩ := h
  rfl

lemma IndexName.eq_of_shown_eq {m n : RawText} (hm : IndexName m) (hn : IndexName n)
    (h : m.shown = n.shown) : m = n := by
  rw [hm.ofString_shown, hn.ofString_shown, h]

/-- Every index name has the form that summations are given. -/
def Numbered : Expr → Prop
  | index name => IndexName name
  | add a b => Numbered a ∧ Numbered b
  | mul a b => Numbered a ∧ Numbered b
  | sum lower upper name body =>
    IndexName name ∧ Numbered lower ∧ Numbered upper ∧ Numbered body
  | _ => True

/-! ## Operands in a text -/

namespace Operation

variable {op : Operation}

/-- The sign between two operands. -/
def sign : Operation → Char
  | plus => '+'
  | times => '*'

/-- An expression as it is written as an operand. -/
def written : Operation → Expr → List Char
  | plus, e => e.toText.toList
  | times, e => (toText.factor e e.toText).toList

lemma written_apply (op : Operation) (a b : Expr) :
    op.written (op.apply a b) = op.written a ++ ' ' :: op.sign :: ' ' :: op.written b := by
  cases op <;> simp [written, apply, sign, toText, toText.factor, isAdd]

lemma written_times_add (a b : Expr) :
    times.written (add a b) = '(' :: (plus.written (add a b) ++ [')']) := by
  simp [written, toText.factor, isAdd]

lemma written_times_of_single {e : Expr} (h : plus.Single e) :
    times.written e = plus.written e := by
  cases e with
  | add a b => exact absurd rfl (h a b)
  | _ => simp [written, toText.factor, isAdd]

lemma toList_toText_add (a b : Expr) :
    (add a b).toText.toList = a.toText.toList ++ ' ' :: '+' :: ' ' :: b.toText.toList :=
  written_apply plus a b

lemma toList_toText_mul (a b : Expr) :
    (mul a b).toText.toList = times.written a ++ ' ' :: '*' :: ' ' :: times.written b := by
  have hsingle : plus.Single (mul a b) := fun _ _ h => by cases h
  exact (written_times_of_single hsingle).symm.trans (written_apply times a b)

/-- An operand with the sign before it and the blanks around it. -/
def surround (op : Operation) (text : List Char) : List Char := op.sign :: ' ' :: (text ++ [' '])

lemma surround_injective (op : Operation) : Function.Injective op.surround := by
  intro s t h
  exact List.append_cancel_right (List.cons.inj (List.cons.inj h).2).2

/-- **A text is the texts of its operands, one after another.** -/
lemma surround_written (op : Operation) (e : Expr) :
    op.surround (op.written e) = (((op.operands e).map op.written).map op.surround).flatten := by
  induction e using op.induction_on with
  | single e h => simp [operands_of_single h]
  | apply a b iha ihb =>
      rw [operands_apply, List.map_append, List.map_append, List.flatten_append, ← iha, ← ihb,
        written_apply]
      simp [surround]

lemma numbered_apply (op : Operation) (a b : Expr) :
    Numbered (op.apply a b) ↔ Numbered a ∧ Numbered b := by
  cases op <;> rfl

lemma numbered_of_mem_operands {e o : Expr} (he : e.Numbered) (h : o ∈ op.operands e) :
    o.Numbered := by
  induction e using op.induction_on with
  | single e hsingle =>
      rw [operands_of_single hsingle, List.mem_singleton] at h
      exact h ▸ he
  | apply a b iha ihb =>
      rw [operands_apply, List.mem_append] at h
      obtain ⟨ha, hb⟩ := (numbered_apply op a b).1 he
      exact h.elim (iha ha) (ihb hb)

end Operation

/-- The text of a summation. -/
lemma toList_toText_sum (lower upper : Expr) (name : RawText) (body : Expr) :
    (sum lower upper name body).toText.toList =
      'Σ' :: '(' :: (name.shown.toList ++ '=' :: (lower.toText.toList ++ '.' :: '.' ::
        (upper.toText.toList ++ ')' :: '(' :: (body.toText.toList ++ [')'])))) := by
  simp [toText]

/-! ## Outside of parentheses -/

/-- The characters at which the parts of a text are cut. -/
def marks : List Char := ['+', '*', '.', ')']

/-- The text of the expression has none of these outside of parentheses: they are marks, and the
expression has no operands with such a sign between them. -/
structure Unstopped (stops : List Char) (e : Expr) : Prop where
  subset : stops ⊆ marks
  plus : '+' ∈ stops → Operation.plus.Single e
  times : '*' ∈ stops → Operation.plus.Single e ∧ Operation.times.Single e

namespace Unstopped

variable {stops : List Char} {a b : Expr}

/-- A sum is cut at neither sign, so its operands may be of any kind. -/
lemma of_add (h : Unstopped stops (add a b)) : '+' ∉ stops ∧ ∀ e, Unstopped stops e := by
  have hplus : '+' ∉ stops := fun hmem => h.plus hmem a b rfl
  have htimes : '*' ∉ stops := fun hmem => (h.times hmem).1 a b rfl
  exact ⟨hplus, fun e => ⟨h.subset, fun hmem => absurd hmem hplus, fun hmem => absurd hmem htimes⟩⟩

/-- A product may be cut at the sign of a sum, since its factors have that in parentheses only. -/
lemma of_mul (h : Unstopped stops (mul a b)) :
    '*' ∉ stops ∧ ∀ e, Operation.plus.Single e → Unstopped stops e := by
  have htimes : '*' ∉ stops := fun hmem => (h.times hmem).2 a b rfl
  exact ⟨htimes, fun e he => ⟨h.subset, fun _ => he, fun hmem => absurd hmem htimes⟩⟩

end Unstopped

open Text (depthAfter depthAfter_append_of_eq depthAfter_cons depthAfter_of_forall
  depthAfter_parentheses Uncut)

variable {stops : List Char} {depth : ℕ}

/-- Digits, letters and the signs of numbers are neither parentheses nor marks. -/
lemma depthAfter_plain {cs : List Char} (hcs : ∀ c ∈ cs, c ∉ '(' :: marks)
    (hstops : depth = 0 → stops ⊆ marks) : depthAfter stops depth cs = some depth := by
  apply depthAfter_of_forall
  · intro c hc
    constructor
    · rintro rfl
      exact hcs _ hc List.mem_cons_self
    · rintro rfl
      exact hcs _ hc (by decide)
  · intro hdepth c hc hstop
    exact hcs c hc (List.mem_cons_of_mem _ (hstops hdepth hstop))

/-- Two operands with a sign and blanks between them. -/
lemma depthAfter_operands {as bs : List Char} {sign : Char} (hstops : depth = 0 → stops ⊆ marks)
    (hopen : sign ≠ '(') (hclose : sign ≠ ')') (hsign : depth = 0 → sign ∉ stops)
    (ha : depthAfter stops depth as = some depth) (hb : depthAfter stops depth bs = some depth) :
    depthAfter stops depth (as ++ ' ' :: sign :: ' ' :: bs) = some depth := by
  have hblank : depth = 0 → ' ' ∉ stops := by
    intro hdepth hmem
    exact absurd (hstops hdepth hmem) (by decide)
  rw [depthAfter_append_of_eq ha, depthAfter_cons (by decide) (by decide) hblank,
    depthAfter_cons hopen hclose hsign, depthAfter_cons (by decide) (by decide) hblank, hb]

lemma depthAfter_indexName {name : RawText} (hname : IndexName name)
    (hstops : depth = 0 → stops ⊆ marks) :
    depthAfter stops depth name.shown.toList = some depth := by
  obtain ⟨digits, hchars, hdigits⟩ := hname.exists_toList
  refine depthAfter_plain (fun c hc => ?_) hstops
  rw [hchars, List.mem_cons] at hc
  rcases hc with rfl | hc
  · decide
  · exact Text.not_mem_of_isDigit (hdigits c hc) rfl

/-- A factor is written as it is, unless it is a sum: that one stands in parentheses. -/
lemma depthAfter_factor {e : Expr} (hopen : depth = 0 → '(' ∉ stops)
    (hsingle : Operation.plus.Single e → depthAfter stops depth e.toText.toList = some depth)
    (hgroup : depthAfter stops (depth + 1) e.toText.toList = some (depth + 1)) :
    depthAfter stops depth (Operation.times.written e) = some depth := by
  by_cases h : Operation.plus.Single e
  · rw [Operation.written_times_of_single h]
    exact hsingle h
  · obtain ⟨a, b, rfl⟩ := Operation.exists_of_not_single h
    rw [Operation.apply, Operation.written_times_add]
    exact depthAfter_parentheses hopen hgroup []

/-- The bounds of a summation in parentheses, and its body in parentheses. -/
lemma depthAfter_sum {lower upper body : Expr} {name : RawText} (hname : IndexName name)
    (hstops : depth = 0 → stops ⊆ marks)
    (hparts : ∀ e ∈ [lower, upper, body],
      depthAfter stops (depth + 1) e.toText.toList = some (depth + 1)) :
    depthAfter stops depth (sum lower upper name body).toText.toList = some depth := by
  have hnotMark {c : Char} (hc : c ∉ marks) : depth = 0 → c ∉ stops := by
    intro hdepth hmem
    exact hc (hstops hdepth hmem)
  have hinside {p : Prop} (hdepth : depth + 1 = 0) : p := absurd hdepth depth.succ_ne_zero
  have hlower := hparts lower (by simp)
  have hupper := hparts upper (by simp)
  have hbody := hparts body (by simp)
  have hbounds : depthAfter stops (depth + 1) (name.shown.toList ++ '=' ::
      (lower.toText.toList ++ '.' :: '.' :: upper.toText.toList)) = some (depth + 1) := by
    rw [depthAfter_append_of_eq (depthAfter_indexName hname hinside),
      depthAfter_cons (by decide) (by decide) hinside, depthAfter_append_of_eq hlower,
      depthAfter_cons (by decide) (by decide) hinside,
      depthAfter_cons (by decide) (by decide) hinside, hupper]
  have htext : (sum lower upper name body).toText.toList =
      'Σ' :: '(' :: ((name.shown.toList ++ '=' ::
        (lower.toText.toList ++ '.' :: '.' :: upper.toText.toList)) ++
        ')' :: '(' :: (body.toText.toList ++ [')'])) := by
    simp [toList_toText_sum]
  rw [htext, depthAfter_cons (by decide) (by decide) (hnotMark (by decide)),
    depthAfter_parentheses (hnotMark (by decide)) hbounds,
    depthAfter_parentheses (hnotMark (by decide)) hbody]
  rfl

/-- **What the text of an expression has outside of parentheses.**  Inside of them there is nothing to
show, since no stop counts there. -/
lemma depthAfter_toText {e : Expr} (he : e.Numbered) (h : depth = 0 → Unstopped stops e) :
    depthAfter stops depth e.toText.toList = some depth := by
  have hstops : depth = 0 → stops ⊆ marks := fun hdepth => (h hdepth).subset
  induction e generalizing depth with
  | hole => exact depthAfter_plain (by simp [toText, marks]) hstops
  | param => exact depthAfter_plain (by simp [toText, marks]) hstops
  | index name => exact depthAfter_indexName he hstops
  | const v =>
      refine depthAfter_plain (fun c hc => ?_) hstops
      rcases Text.isDigit_or_of_mem_integer hc with hc | rfl
      · exact Text.not_mem_of_isDigit hc rfl
      · decide
  | add a b iha ihb =>
      have hoperand (f : Expr) : depth = 0 → Unstopped stops f := fun hdepth => (h hdepth).of_add.2 f
      rw [Operation.toList_toText_add]
      exact depthAfter_operands hstops (by decide) (by decide) (fun hdepth => (h hdepth).of_add.1)
        (iha he.1 (hoperand a) hstops) (ihb he.2 (hoperand b) hstops)
  | mul a b iha ihb =>
      have hopen : depth = 0 → '(' ∉ stops := by
        intro hdepth hmem
        exact absurd (hstops hdepth hmem) (by decide)
      have hinside {p : Prop} (hdepth : depth + 1 = 0) : p := absurd hdepth depth.succ_ne_zero
      have hfactor (f : Expr) (hsingle : Operation.plus.Single f) : depth = 0 → Unstopped stops f :=
        fun hdepth => (h hdepth).of_mul.2 f hsingle
      have ha := depthAfter_factor hopen (fun hsingle => iha he.1 (hfactor a hsingle) hstops)
        (iha he.1 hinside hinside)
      have hb := depthAfter_factor hopen (fun hsingle => ihb he.2 (hfactor b hsingle) hstops)
        (ihb he.2 hinside hinside)
      rw [Operation.toList_toText_mul]
      exact depthAfter_operands hstops (by decide) (by decide) (fun hdepth => (h hdepth).of_mul.1) ha hb
  | sum lower upper name body ihl ihu ihb =>
      obtain ⟨hname, hlower, hupper, hbody⟩ := he
      have hinside {p : Prop} (hdepth : depth + 1 = 0) : p := absurd hdepth depth.succ_ne_zero
      refine depthAfter_sum hname hstops fun e hmem => ?_
      simp only [List.mem_cons, List.not_mem_nil, or_false] at hmem
      rcases hmem with rfl | rfl | rfl
      · exact ihl hlower hinside hinside
      · exact ihu hupper hinside hinside
      · exact ihb hbody hinside hinside

lemma uncut_toText {e : Expr} (he : e.Numbered) (h : Unstopped stops e) :
    Uncut stops e.toText.toList :=
  depthAfter_toText he fun _ => h

/-! ## Cutting a text -/

namespace Operation

variable {op : Operation} {a b e : Expr}

lemma uncut_written (he : e.Numbered) (hsingle : op.Single e) : Uncut [op.sign] (op.written e) := by
  cases op with
  | plus => exact uncut_toText he ⟨by simp [sign, marks], fun _ => hsingle, by simp [sign]⟩
  | times =>
      have hopen (_ : 0 = 0) : '(' ∉ [times.sign] := by decide
      have hgroup : depthAfter [times.sign] 1 e.toText.toList = some 1 :=
        depthAfter_toText he nofun
      refine depthAfter_factor hopen (fun hplus => uncut_toText he ?_) hgroup
      exact ⟨by simp [sign, marks], fun _ => hplus, fun _ => ⟨hplus, hsingle⟩⟩

/-- **A text determines the texts of the operands.** -/
lemma operands_written (ha : a.Numbered) (hb : b.Numbered) (h : op.written a = op.written b) :
    (op.operands a).map op.written = (op.operands b).map op.written := by
  have hpieces {e : Expr} (he : e.Numbered) :
      ∀ p ∈ ((op.operands e).map op.written).map op.surround, Text.Piece [op.sign] p := by
    intro p hp
    obtain ⟨text, htext, rfl⟩ := List.mem_map.1 hp
    obtain ⟨o, ho, rfl⟩ := List.mem_map.1 htext
    have hwritten : Uncut [op.sign] (op.written o) :=
      uncut_written (numbered_of_mem_operands he ho) (single_of_mem_operands ho)
    have hblank : ' ' ∉ [op.sign] := by cases op <;> decide
    exact .mk (List.mem_singleton.2 rfl) (hwritten.between_blanks hblank)
  have hflat := congrArg op.surround h
  rw [surround_written, surround_written] at hflat
  exact List.map_injective_iff.2 op.surround_injective
    (Text.eq_of_flatten_eq (hpieces ha) (hpieces hb) hflat)

/-- Whatever is written like an operand of this expression is a regrouping of that operand. -/
def Legible (op : Operation) (e : Expr) : Prop :=
  ∀ o ∈ op.operands e, ∀ b, b.Numbered → op.Single b → op.written o = op.written b → Regrouped o b

lemma legible_apply {a b : Expr} (ha : op.Legible a) (hb : op.Legible b) :
    op.Legible (op.apply a b) := by
  intro o ho
  rw [operands_apply, List.mem_append] at ho
  exact ho.elim (ha o) (hb o)

/-- Expressions that are written alike have as many operands, and these are written alike. -/
lemma Legible.regrouped {a b : Expr} (hlegible : op.Legible a) (ha : a.Numbered) (hb : b.Numbered)
    (h : op.written a = op.written b) : Regrouped a b := by
  have hoperands := operands_written ha hb h
  rw [← List.forall₂_eq_eq_eq, List.forall₂_map_left_iff, List.forall₂_map_right_iff,
    List.forall₂_iff_zip] at hoperands
  obtain ⟨hlength, hzip⟩ := hoperands
  refine regrouped_of_operands (List.forall₂_iff_zip.2 ⟨hlength, fun {o p} hmem => ?_⟩)
  obtain ⟨ho, hp⟩ := List.of_mem_zip hmem
  exact hlegible o ho p (numbered_of_mem_operands hb hp) (single_of_mem_operands hp) (hzip hmem)

end Operation

/-! ## What is neither sum nor product -/

/-- The expression is neither a sum nor a product of two. -/
def Atomic (e : Expr) : Prop := ∀ op : Operation, op.Single e

/-- The characters that the text of such an expression can begin with. -/
def begins : Expr → Char → Bool
  | hole, c => c == '<'
  | param, c => c == 'x'
  | index _, c => c == 'i'
  | const _, c => c.isDigit || c == '-'
  | sum _ _ _ _, c => c == 'Σ'
  | _, _ => false

lemma exists_begins {e : Expr} (he : e.Numbered) (hatomic : e.Atomic) :
    ∃ c cs, e.toText.toList = c :: cs ∧ e.begins c = true := by
  cases e with
  | hole => exact ⟨'<', _, rfl, rfl⟩
  | param => exact ⟨'x', _, rfl, rfl⟩
  | index name =>
      obtain ⟨digits, hname, -⟩ := IndexName.exists_toList he
      exact ⟨'i', digits, hname, rfl⟩
  | const v =>
      cases hchars : (Text.integer v).toList with
      | nil =>
          have hread := Text.integer?_integer v
          rw [String.toList_eq_nil_iff.1 hchars] at hread
          cases hread
      | cons c cs =>
          have hc : c ∈ (Text.integer v).toList := by simp [hchars]
          exact ⟨c, cs, hchars, by simpa [begins] using Text.isDigit_or_of_mem_integer hc⟩
  | add a b => exact absurd rfl (hatomic .plus a b)
  | mul a b => exact absurd rfl (hatomic .times a b)
  | sum lower upper name body => exact ⟨'Σ', _, toList_toText_sum lower upper name body, rfl⟩

lemma Atomic.of_begins {e : Expr} (c : Char) (h : e.begins c = true) : e.Atomic := by
  rintro (_ | _) a b rfl <;> cases h

/-- A sum in parentheses is not written like anything that has no parentheses around it. -/
lemma Atomic.written_times_ne {e : Expr} (hatomic : e.Atomic) (he : e.Numbered) (a b : Expr) :
    Operation.times.written e ≠ Operation.times.written (add a b) := by
  intro h
  obtain ⟨first, rest, htext, hfirst⟩ := exists_begins he hatomic
  rw [Operation.written_times_add, Operation.written_times_of_single (hatomic .plus),
    Operation.written, htext] at h
  rw [(List.cons.inj h).1] at hfirst
  cases e <;> simp [begins] at hfirst

/-- What is written like an atomic expression is atomic: a sum would stand in parentheses, and a product
would have more operands. -/
lemma Atomic.of_written_eq {op : Operation} {a b : Expr} (hatomic : a.Atomic) (ha : a.Numbered)
    (hb : b.Numbered) (hsingle : op.Single b) (h : op.written a = op.written b) :
    b.Atomic ∧ a.toText.toList = b.toText.toList := by
  have hplus : Operation.plus.Single b := by
    cases op with
    | plus => exact hsingle
    | times =>
        by_contra hgroup
        obtain ⟨c, d, rfl⟩ := Operation.exists_of_not_single hgroup
        exact hatomic.written_times_ne ha c d h
  have htext : a.toText.toList = b.toText.toList := by
    cases op with
    | plus => exact h
    | times =>
        rw [Operation.written_times_of_single (hatomic .plus),
          Operation.written_times_of_single hplus] at h
        exact h
  have htimes : Operation.times.written a = Operation.times.written b := by
    rw [Operation.written_times_of_single (hatomic .plus), Operation.written_times_of_single hplus]
    exact htext
  have hlength := congrArg List.length (Operation.operands_written ha hb htimes)
  rw [List.length_map, List.length_map, Operation.operands_of_single (hatomic .times)] at hlength
  have hsingle' : Operation.times.Single b := Operation.single_of_length_eq_one hlength.symm
  refine ⟨fun op => ?_, htext⟩
  cases op with
  | plus => exact hplus
  | times => exact hsingle'

lemma Atomic.legible {a : Expr} (hatomic : a.Atomic) (ha : a.Numbered)
    (hsame : ∀ b c, b.Numbered → a.begins c = true → b.begins c = true →
      a.toText.toList = b.toText.toList → Regrouped a b) (op : Operation) : op.Legible a := by
  intro o ho b hb hsingle h
  rw [Operation.operands_of_single (hatomic op), List.mem_singleton] at ho
  subst ho
  obtain ⟨hatomic', htext⟩ := hatomic.of_written_eq ha hb hsingle h
  obtain ⟨c, cs, hchars, hc⟩ := exists_begins ha hatomic
  obtain ⟨c', cs', hchars', hc'⟩ := exists_begins hb hatomic'
  rw [htext, hchars'] at hchars
  exact hsame b c hb hc ((List.cons.inj hchars).1 ▸ hc') htext

/-- The text of a summation is cut at the first `=`, at the dots and at the parenthesis that are outside
of its bounds' own parentheses. -/
lemma sum_inj {lower upper body lower' upper' body' : Expr} {m n : RawText}
    (he : (sum lower upper m body).Numbered) (he' : (sum lower' upper' n body').Numbered)
    (h : (sum lower upper m body).toText.toList = (sum lower' upper' n body').toText.toList) :
    m = n ∧ lower.toText.toList = lower'.toText.toList ∧
      upper.toText.toList = upper'.toText.toList ∧ body.toText.toList = body'.toText.toList := by
  obtain ⟨hm, hl, hu, -⟩ := he
  obtain ⟨hn, hl', hu', -⟩ := he'
  have hname {k : RawText} (hk : IndexName k) : Uncut ['='] k.shown.toList := by
    obtain ⟨digits, hchars, hdigits⟩ := hk.exists_toList
    rw [hchars]
    refine Text.uncut_of_forall (List.forall_mem_cons.2 ⟨by decide, fun c hc => ?_⟩)
    exact Text.not_mem_of_isDigit (hdigits c hc) rfl
  have hdot {e : Expr} (he : e.Numbered) : Uncut ['.'] e.toText.toList :=
    uncut_toText he ⟨by simp [marks], by simp, by simp⟩
  have hclose {e : Expr} (he : e.Numbered) : Uncut [')'] e.toText.toList :=
    uncut_toText he ⟨by simp [marks], by simp, by simp⟩
  have hstopped (c : Char) (cs : List Char) : Text.Stopped [c] (c :: cs) :=
    Text.stopped_cons_iff.2 (List.mem_singleton.2 rfl)
  rw [toList_toText_sum, toList_toText_sum] at h
  obtain ⟨hnames, h⟩ := Text.append_inj_of_uncut (hname hm) (hname hn) (hstopped _ _) (hstopped _ _)
    (List.cons.inj (List.cons.inj h).2).2
  obtain ⟨hlowers, h⟩ := Text.append_inj_of_uncut (hdot hl) (hdot hl') (hstopped _ _) (hstopped _ _)
    (List.cons.inj h).2
  obtain ⟨huppers, h⟩ := Text.append_inj_of_uncut (hclose hu) (hclose hu') (hstopped _ _)
    (hstopped _ _) (List.cons.inj (List.cons.inj h).2).2
  have hbodies := List.append_cancel_right (List.cons.inj (List.cons.inj h).2).2
  exact ⟨hm.eq_of_shown_eq hn (String.toList_injective hnames), hlowers, huppers, hbodies⟩

/-- **Every expression is legible.** -/
lemma legible {e : Expr} (he : e.Numbered) (op : Operation) : op.Legible e := by
  induction e generalizing op with
  | hole =>
      refine Atomic.legible (.of_begins '<' rfl) he (fun b c _ hc hc' _ => ?_) op
      cases b with
      | hole => exact .refl _
      | _ => simp_all [begins]
  | param =>
      refine Atomic.legible (.of_begins 'x' rfl) he (fun b c _ hc hc' _ => ?_) op
      cases b with
      | param => exact .refl _
      | _ => simp_all [begins]
  | index m =>
      refine Atomic.legible (.of_begins 'i' rfl) he (fun b c hb hc hc' h => ?_) op
      cases b with
      | index n =>
          have hnames : m = n := IndexName.eq_of_shown_eq he hb (String.toList_injective h)
          exact hnames ▸ .refl _
      | _ => simp_all [begins]
  | const v =>
      refine Atomic.legible (.of_begins '-' rfl) he (fun b c _ hc hc' h => ?_) op
      cases b with
      | const w =>
          have hvalues : v = w := Text.integer_injective (String.toList_injective h)
          exact hvalues ▸ .refl _
      | _ => simp_all [begins]
  | add a b iha ihb =>
      have hplus : Operation.plus.Legible (add a b) :=
        Operation.legible_apply (iha he.1 .plus) (ihb he.2 .plus)
      cases op with
      | plus => exact hplus
      | times =>
          intro o ho b' hb' hsingle h
          obtain rfl := List.mem_singleton.1 ho
          have hgroup : ¬Operation.plus.Single b' := by
            intro hplus
            have hatomic : b'.Atomic := by
              rintro (_ | _)
              exacts [hplus, hsingle]
            exact hatomic.written_times_ne hb' a b h.symm
          obtain ⟨c, d, rfl⟩ := Operation.exists_of_not_single hgroup
          rw [Operation.apply, Operation.written_times_add, Operation.written_times_add] at h
          exact hplus.regrouped he hb' (List.append_cancel_right (List.cons.inj h).2)
  | mul a b iha ihb =>
      have htimes : Operation.times.Legible (mul a b) :=
        Operation.legible_apply (iha he.1 .times) (ihb he.2 .times)
      cases op with
      | plus =>
          intro o ho b' hb' hsingle h
          obtain rfl := List.mem_singleton.1 ho
          apply htimes.regrouped he hb'
          rw [Operation.written_times_of_single hsingle, ← h]
          exact Operation.written_times_of_single fun _ _ hne => by cases hne
      | times => exact htimes
  | sum lower upper m body ihl ihu ihb =>
      refine Atomic.legible (.of_begins 'Σ' rfl) he (fun b c hb hc hc' h => ?_) op
      cases b with
      | sum lower' upper' n body' =>
          obtain ⟨rfl, hl, hu, hbodies⟩ := sum_inj he hb h
          obtain ⟨-, hlower, hupper, hbody⟩ := he
          obtain ⟨-, hlower', hupper', hbody'⟩ := hb
          exact .sum m ((ihl hlower .plus).regrouped hlower hlower' hl)
            ((ihu hupper .plus).regrouped hupper hupper' hu)
            ((ihb hbody .plus).regrouped hbody hbody' hbodies)
      | _ => simp_all [begins]

/-- **Expressions with the same text differ in the grouping of sums and products only.** -/
lemma regrouped_of_toText_eq {a b : Expr} (ha : a.Numbered) (hb : b.Numbered)
    (h : a.toText = b.toText) : Regrouped a b :=
  (legible ha .plus).regrouped ha hb (congrArg String.toList h)

/-- **The text of an expression is unambiguous.**  Two expressions with the same text, in which all index
names have the form that summations are given, differ in the grouping of sums and products only.  At
every point they have the same value or fail in the same way, and one has a degree estimate exactly if
the other has the same one. -/
theorem toText_determines_meaning {a b : Expr} (ha : a.Numbered) (hb : b.Numbered)
    (h : a.toText = b.toText) :
    Regrouped a b ∧ (∀ n, a.evaluate n = b.evaluate n) ∧
      ∀ d, a.degree = .ok d ↔ b.degree = .ok d := by
  have hregrouped : Regrouped a b := regrouped_of_toText_eq ha hb h
  exact ⟨hregrouped, hregrouped.evaluate_eq, hregrouped.degree_eq_ok_iff⟩

/-- A sum and a product of more than two operands, around and within a summation whose body has a
hole. -/
def leftGroupedSum : Expr :=
  add (add (const (-3)) (mul (mul (add param (const 1)) param) (const (-2))))
    (sum (const 0) (add (add param (const 1)) param) (indexName 7)
      (mul (index (indexName 7)) (add param hole)))

/-- The same operands, grouped from the right. -/
def rightGroupedSum : Expr :=
  add (const (-3)) (add (mul (add param (const 1)) (mul param (const (-2))))
    (sum (const 0) (add param (add (const 1) param)) (indexName 7)
      (mul (index (indexName 7)) (add param hole))))

/-- Two groupings of one text.  Where the summation is empty they have a value, and elsewhere they fail
at the hole. -/
theorem leftGroupedSum_means_rightGroupedSum :
    (leftGroupedSum ≠ rightGroupedSum ∧
      leftGroupedSum.toText = "-3 + (x + 1) * x * -2 + Σ(i7=0..x + 1 + x)(i7 * (x + <nil>))" ∧
      rightGroupedSum.evaluate (-5) = .ok (-43) ∧
      rightGroupedSum.evaluate 0 = .error (.sentinel .nullExpression)) ∧
    Regrouped leftGroupedSum rightGroupedSum ∧
    (∀ n, leftGroupedSum.evaluate n = rightGroupedSum.evaluate n) ∧
    ∀ d, leftGroupedSum.degree = .ok d ↔ rightGroupedSum.degree = .ok d := by
  have hleft : leftGroupedSum.Numbered := by simp [leftGroupedSum, Numbered, indexName_indexName]
  have hright : rightGroupedSum.Numbered := by simp [rightGroupedSum, Numbered, indexName_indexName]
  have htext : leftGroupedSum.toText = rightGroupedSum.toText := by decide
  refine ⟨⟨?_, ?_, rfl, rfl⟩, toText_determines_meaning hleft hright htext⟩
  all_goals decide

end Expr
end ClosedForm
