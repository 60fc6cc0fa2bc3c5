import ClosedForm.Json.Expression
import ClosedForm.Proofs.Binary64.Integers
import ClosedForm.Proofs.Document.Grammar
import Mathlib.Data.List.TakeWhile

/-!
# Documents with rounded numbers

An expression document is decoded with its numbers as they are spelled, or with every number rounded
to a double first.  Rounding touches nothing but numerals, and a numeral matters in one place only,
the value of a constant.  There a double is refused when neighbouring integers may share it, that
is, above `maxExact`; but `maxExact` itself is already shared, with the integer after it.

* `toInteger_rounded_numeral` — what becomes of one integer literal.
* `equalBut_of_expression_eq_ok` — **two decodings of a document differ in constants only,** and
  only where the document spells `maxExact + 1` or its negative.
* `decodings_agree_but_next` — the statement for literals, for documents and for texts;
  `decodings_differ_at_next` is a text that is decoded to two expressions.
-/

namespace ClosedForm

open Binary64 (signed)

/-! ## Integer literals -/

lemma Decimal.unsigned?_of_isDigits {cs : List Char} (h : Text.isDigits cs = true)
    (negative : Bool) : unsigned? negative cs = some ⟨negative, Text.ofDigits cs, 0⟩ := by
  rw [Text.isDigits, Bool.and_eq_true, Bool.not_eq_true', List.all_eq_true] at h
  obtain ⟨hne, hall⟩ := h
  have htake : cs.takeWhile Char.isDigit = cs := List.takeWhile_eq_self_iff.2 hall
  have hdrop : cs.dropWhile Char.isDigit = [] := List.dropWhile_eq_nil_iff.2 hall
  simp [unsigned?, htake, hdrop, hne, exponentPart?]

/-- A decimal integer is a numeral of the same value. -/
lemma Decimal.exists_of_integer? {s : String} {u : Int} (h : Text.integer? s = some u) :
    ∃ negative, ofString? s = some ⟨negative, u.natAbs, 0⟩ ∧ signed negative u.natAbs = u := by
  unfold Text.integer? at h
  unfold ofString?
  generalize s.toList = cs at h ⊢
  split at h <;> split at h
  · rename_i hdigits
    cases h
    exact ⟨true, by simp [ofChars?, unsigned?_of_isDigits hdigits], by simp [signed]⟩
  · cases h
  · rename_i hdigits
    cases h
    exact ⟨false, by simp [ofChars?, unsigned?_of_isDigits hdigits], by simp [signed]⟩
  · cases h
  · rename_i hminus hplus hdigits
    cases h
    have hunsigned : ofChars? cs = unsigned? false cs := by
      unfold ofChars?
      split
      · exact absurd rfl (hminus _)
      · exact absurd rfl (hplus _)
      · rfl
    exact ⟨false, by simp [hunsigned, unsigned?_of_isDigits hdigits], by simp [signed]⟩
  · cases h

namespace Document

/-- The integer after `maxExact`, or its negative, and the integer that its double stands for. -/
def NextToExact (u v : Int) : Prop := u.natAbs = maxExact + 1 ∧ v = u.sign * maxExact

lemma toInteger_double_of_toInt? {x : Binary64} {v : Int} (h : x.toInt? = some v) :
    toInteger (.double x) =
      if maxExact < v.natAbs then .error (.fault (.notExact x)) else .ok v := by
  simp only [toInteger, h]

/-- **What becomes of an integer literal** that is rounded to a finite double: it stands for itself,
or it is refused as too large to be exact, unless it is next to exact. -/
lemma toInteger_rounded_numeral {s : String} {u : Int} (hu : Text.integer? s = some u)
    {d : Document} (hd : rounded (.numeral s) = .ok d) :
    d.toInteger = .ok u ∨ (∃ x, d.toInteger = .error (.fault (.notExact x))) ∨
      ∃ v, NextToExact u v ∧ d.toInteger = .ok v := by
  obtain ⟨negative, hs, hsigned⟩ := Decimal.exists_of_integer? hu
  generalize hn : u.natAbs = n at hs hsigned
  generalize hx : Binary64.ofDecimal ⟨negative, n, 0⟩ = x at hd
  simp only [rounded, hs, hx] at hd
  split at hd
  · cases hd
  · rename_i hfinite
    cases hd
    have hvalue := Binary64.toInt?_ofInteger negative n (by simpa [hx] using hfinite)
    rw [hx] at hvalue
    rw [toInteger_double_of_toInt? hvalue, Binary64.natAbs_signed]
    by_cases hlarge : maxExact < Binary64.nearest n
    · rw [if_pos hlarge]
      exact .inr (.inl ⟨x, rfl⟩)
    · rw [if_neg hlarge]
      rcases Binary64.eq_of_nearest_le (not_lt.1 hlarge) with hexact | ⟨hnext, hexact⟩
      · rw [hexact, hsigned]
        exact .inl rfl
      · refine .inr (.inr ⟨_, ⟨hn.trans hnext, ?_⟩, rfl⟩)
        rw [hexact, ← hsigned, hnext]
        cases negative <;> rfl

/-! ## Numerals in a document -/

mutual

/-- The spellings of the numerals in a document. -/
def numerals : Document → List String
  | numeral s => [s]
  | array items => itemNumerals items
  | object fields => fieldNumerals fields
  | _ => []

/-- The spellings of the numerals in items. -/
def itemNumerals : List Document → List String
  | [] => []
  | d :: ds => numerals d ++ itemNumerals ds

/-- The spellings of the numerals in fields. -/
def fieldNumerals : List (String × Document) → List String
  | [] => []
  | (_, d) :: fs => numerals d ++ fieldNumerals fs

end

lemma numerals_subset_of_get? {fields : Fields} {field : String} {d : Document}
    (h : fields.get? field = some d) {spelled : List String}
    (hspelled : fieldNumerals fields ⊆ spelled) : d.numerals ⊆ spelled := by
  induction fields with
  | nil => cases h
  | cons f fields ih =>
      obtain ⟨k, d'⟩ := f
      rw [Fields.get?, List.lookup_cons] at h
      rw [fieldNumerals, List.append_subset] at hspelled
      split at h
      · cases h
        exact hspelled.1
      · exact ih h hspelled.2

/-- Rounding the fields of an object is rounding the value of each. -/
lemma get?_of_roundedFields {fields fields' : Fields} (h : roundedFields fields = .ok fields')
    {field : String} {d : Document} (hd : fields.get? field = some d) :
    ∃ d', d.rounded = .ok d' ∧ fields'.get? field = some d' := by
  induction fields generalizing fields' with
  | nil => cases hd
  | cons f fields ih =>
      obtain ⟨k, d₀⟩ := f
      rw [roundedFields] at h
      obtain ⟨rest, hrest, h⟩ := exists_of_bind_eq_ok h
      obtain ⟨d₀', hd₀, h⟩ := exists_of_bind_eq_ok h
      cases h
      have hd₀ := (Fields.mapError_eq_ok_iff ..).1 hd₀
      rw [Fields.get?, List.lookup_cons] at hd ⊢
      split at hd
      · cases hd
        exact ⟨d₀', hd₀, rfl⟩
      · exact ih hrest hd

lemma get?_text_of_roundedFields {fields fields' : Fields} (h : roundedFields fields = .ok fields')
    {field : String} {t : RawText} (ht : fields.get? field = some (.text t)) :
    fields'.get? field = some (.text t) := by
  obtain ⟨d', hd', hget⟩ := get?_of_roundedFields h ht
  cases hd'
  exact hget

/-- The objects in one field, before and after. -/
lemma roundedFields_of_get? {fields fields' : Fields} (h : roundedFields fields = .ok fields')
    {field : String} {inner inner' : Fields} (hinner : fields.get? field = some (.object inner))
    (hinner' : fields'.get? field = some (.object inner')) :
    roundedFields inner = .ok inner' := by
  obtain ⟨d', hd', hget⟩ := get?_of_roundedFields h hinner
  rw [rounded] at hd'
  obtain ⟨fs, hfs, hd'⟩ := exists_of_bind_eq_ok hd'
  cases hd'
  cases hinner'.symm.trans hget
  exact hfs

end Document

/-! ## Expressions that differ in constants only -/

namespace Expr

/-- The expressions are the same but for their constants, which are related. -/
inductive EqualBut (R : Int → Int → Prop) : Expr → Expr → Prop
  | hole : EqualBut R .hole .hole
  | param : EqualBut R .param .param
  | index (name : RawText) : EqualBut R (.index name) (.index name)
  | const {u v : Int} (h : R u v) : EqualBut R (.const u) (.const v)
  | add {a b a' b' : Expr} (ha : EqualBut R a a') (hb : EqualBut R b b') :
    EqualBut R (.add a b) (.add a' b')
  | mul {a b a' b' : Expr} (ha : EqualBut R a a') (hb : EqualBut R b b') :
    EqualBut R (.mul a b) (.mul a' b')
  | sum {l u b l' u' b' : Expr} (name : RawText) (hl : EqualBut R l l') (hu : EqualBut R u u')
    (hb : EqualBut R b b') : EqualBut R (.sum l u name b) (.sum l' u' name b')

lemma EqualBut.eq {R : Int → Int → Prop} (hR : ∀ u v, R u v → u = v) {e e' : Expr}
    (h : EqualBut R e e') : e = e' := by
  induction h with
  | hole => rfl
  | param => rfl
  | index name => rfl
  | const h => rw [hR _ _ h]
  | add _ _ iha ihb => rw [iha, ihb]
  | mul _ _ iha ihb => rw [iha, ihb]
  | sum name _ _ _ ihl ihu ihb => rw [ihl, ihu, ihb]

end Expr

/-! ## Two decodings of one document -/

/-- A constant is read as it is spelled, or one of `spelled` is next to exact and spells it. -/
def ReadAs (spelled : List String) (u v : Int) : Prop :=
  u = v ∨ (∃ s ∈ spelled, Text.integer? s = some u) ∧ Document.NextToExact u v

lemma ReadAs.mono {spelled spelled' : List String} {u v : Int} (h : ReadAs spelled u v)
    (hsub : spelled ⊆ spelled') : ReadAs spelled' u v := by
  rcases h with heq | ⟨⟨s, hs, hspells⟩, hnext⟩
  · exact .inl heq
  · exact .inr ⟨⟨s, hsub hs, hspells⟩, hnext⟩

lemma Document.readAs_of_toInteger {d d' : Document} (hd : d.rounded = .ok d') {u v : Int}
    (hu : d.toInteger = .ok u) (hv : d'.toInteger = .ok v) : ReadAs d.numerals u v := by
  cases d with
  | numeral s =>
      have hs : Text.integer? s = some u := by
        simp only [toInteger, toInteger.decimal, RawText.shown_ofString] at hu
        split at hu
        · cases hu
          assumption
        · cases hu
      rcases toInteger_rounded_numeral hs hd with hexact | ⟨x, hrefused⟩ | ⟨w, hnext, hw⟩
      · cases hexact.symm.trans hv
        exact .inl rfl
      · cases hrefused.symm.trans hv
      · cases hw.symm.trans hv
        exact .inr ⟨⟨s, List.mem_singleton_self s, hs⟩, hnext⟩
  | array items => cases hu
  | object fields => cases hu
  | _ =>
      -- Any other value stays as it is.
      cases hd
      exact .inl (Except.ok.inj (hu.symm.trans hv))

namespace Fields

variable {fields fields' : Fields} {spelled : List String}

lemma type_of_roundedFields (h : Document.roundedFields fields = .ok fields') {type : String}
    (htype : fields.HasType type) (hne : type ≠ "") : fields'.type = .ok type := by
  obtain ⟨t, ht, hshown⟩ := htype
  exact (type_eq_ok_iff ..).2 ⟨⟨t, Document.get?_text_of_roundedFields h ht, hshown⟩, hne⟩

lemma name_of_roundedFields (h : Document.roundedFields fields = .ok fields') {field : String}
    {name : RawText} (hname : fields.HasName field name) (type : String) :
    fields'.name type field = .ok name :=
  (name_eq_ok_iff ..).2 ⟨Document.get?_text_of_roundedFields h hname.1, hname.2⟩

/-- **Two decodings of one object differ in constants only.** -/
lemma equalBut_of_expression_eq_ok {bound : List RawText} {e e' : Expr}
    (h : Derives bound fields e) (hrounded : Document.roundedFields fields = .ok fields')
    {scope : Scope Unit} (h' : fields'.expression scope = .ok e')
    (hspelled : Document.fieldNumerals fields ⊆ spelled) : e.EqualBut (ReadAs spelled) e' := by
  induction h generalizing fields' scope e' with
  | param type =>
      have htype := type_of_roundedFields hrounded type (by decide)
      rw [Fields.expression, htype] at h'
      cases h'
      exact .param
  | index type hname hbound =>
      have htype := type_of_roundedFields hrounded type (by decide)
      have hname := name_of_roundedFields hrounded hname "index"
      rw [Fields.expression, htype] at h'
      simp only [bind, Except.bind, hname] at h'
      split at h'
      · cases h'
      · cases h'
        exact .index _
  | const type hvalue hinteger =>
      have htype := type_of_roundedFields hrounded type (by decide)
      obtain ⟨d', hd', hvalue'⟩ := Document.get?_of_roundedFields hrounded hvalue
      rw [Fields.expression, htype] at h'
      simp only [bind, Except.bind, hvalue'] at h'
      split at h'
      · cases h'
      · rename_i v hv
        cases h'
        have hread := Document.readAs_of_toInteger hd' hinteger ((mapError_eq_ok_iff ..).1 hv)
        exact .const (hread.mono (Document.numerals_subset_of_get? hvalue hspelled))
  | add type hleft hright _ _ iha ihb =>
      have htype := type_of_roundedFields hrounded type (by decide)
      rw [Fields.expression, htype] at h'
      obtain ⟨left', right', a', b', hleft', hright', ha', hb', rfl⟩ :=
        exists_operands_of_eq_ok h'
      have hroundedl := Document.roundedFields_of_get? hrounded hleft hleft'
      have hroundedr := Document.roundedFields_of_get? hrounded hright hright'
      exact .add (iha hroundedl ha' (Document.numerals_subset_of_get? hleft hspelled))
        (ihb hroundedr hb' (Document.numerals_subset_of_get? hright hspelled))
  | mul type hleft hright _ _ iha ihb =>
      have htype := type_of_roundedFields hrounded type (by decide)
      rw [Fields.expression, htype] at h'
      obtain ⟨left', right', a', b', hleft', hright', ha', hb', rfl⟩ :=
        exists_operands_of_eq_ok h'
      have hroundedl := Document.roundedFields_of_get? hrounded hleft hleft'
      have hroundedr := Document.roundedFields_of_get? hrounded hright hright'
      exact .mul (iha hroundedl ha' (Document.numerals_subset_of_get? hleft hspelled))
        (ihb hroundedr hb' (Document.numerals_subset_of_get? hright hspelled))
  | sum type hname hlower hupper hbody _ _ _ ihl ihu ihb =>
      have htype := type_of_roundedFields hrounded type (by decide)
      have hname := name_of_roundedFields hrounded hname "sum"
      rw [Fields.expression, htype] at h'
      obtain ⟨_, htype', h'⟩ := exists_of_bind_eq_ok h'
      cases htype'
      obtain ⟨name', hname', h'⟩ := exists_of_bind_eq_ok h'
      obtain ⟨l', hl', h'⟩ := exists_of_bind_eq_ok h'
      obtain ⟨u', hu', h'⟩ := exists_of_bind_eq_ok h'
      obtain ⟨b', hb', h'⟩ := exists_of_bind_eq_ok h'
      cases h'
      cases hname.symm.trans hname'
      obtain ⟨lower', hlower', hl'⟩ := (child_eq_ok_iff ..).1 hl'
      obtain ⟨upper', hupper', hu'⟩ := (child_eq_ok_iff ..).1 hu'
      obtain ⟨body', hbody', hb'⟩ := (child_eq_ok_iff ..).1 hb'
      have hroundedl := Document.roundedFields_of_get? hrounded hlower hlower'
      have hroundedu := Document.roundedFields_of_get? hrounded hupper hupper'
      have hroundedb := Document.roundedFields_of_get? hrounded hbody hbody'
      exact .sum _ (ihl hroundedl hl' (Document.numerals_subset_of_get? hlower hspelled))
        (ihu hroundedu hu' (Document.numerals_subset_of_get? hupper hspelled))
        (ihb hroundedb hb' (Document.numerals_subset_of_get? hbody hspelled))

end Fields

namespace Expr

lemma equalBut_of_ofDocument_eq_ok {d d' : Document} {e e' : Expr} (hd : d.rounded = .ok d')
    (he : ofDocument d = .ok e) (he' : ofDocument d' = .ok e') :
    e.EqualBut (ReadAs d.numerals) e' := by
  obtain ⟨fields, rfl, hderives⟩ := (ofDocument_eq_ok_iff d e).1 he
  rw [Document.rounded] at hd
  obtain ⟨fields', hfields, hd⟩ := exists_of_bind_eq_ok hd
  cases hd
  exact Fields.equalBut_of_expression_eq_ok hderives hfields he' (List.Subset.refl _)

/-! ### Texts -/

lemma exists_document_of_ofJson {text : String} {e : Expr} (h : ofJson text = .ok e) :
    ∃ d, Json.first text = .ok d ∧ ofDocument d = .ok e := by
  obtain ⟨d, hd, h⟩ := exists_of_bind_eq_ok h
  obtain ⟨fields?, hfields, h⟩ := exists_of_bind_eq_ok h
  refine ⟨d, hd, ?_⟩
  cases d with
  | object fields =>
      cases hfields
      exact h
  | null =>
      cases hfields
      exact h
  | _ => cases hfields

lemma first_of_whole {text : String} {d : Document} (h : Json.whole text = .ok d) :
    Json.first text = .ok d := by
  unfold Json.whole at h
  unfold Json.first
  split at h
  · split at h
    · exact h
    · cases h
  · exact h
  · cases h

lemma exists_document_of_ofInlineJson {text : String} {e : Expr} (h : ofInlineJson text = .ok e) :
    ∃ d d', Json.whole text = .ok d ∧ d.rounded = .ok d' ∧ ofDocument d' = .ok e := by
  obtain ⟨fields?, hread, h⟩ := exists_of_bind_eq_ok h
  have hread := (Fields.mapError_eq_ok_iff ..).1 hread
  obtain ⟨d, hd, hread⟩ := exists_of_bind_eq_ok hread
  obtain ⟨parsed, hparsed, hread⟩ := exists_of_bind_eq_ok hread
  cases d with
  | object fields =>
      cases hparsed
      dsimp only at hread
      split at hread
      · rename_i fields' hrounded
        cases hread
        refine ⟨_, .object fields', hd, ?_, h⟩
        rw [Document.rounded, hrounded]
        rfl
      · cases hread
  | null =>
      cases hparsed
      cases hread
      cases h
  | _ => cases hparsed

end Expr

/-! ## Agreement -/

/-- **The two decodings agree but for one literal.**  An integer literal that is rounded to a double
stands for itself or is refused as too large to be exact, unless its magnitude is `maxExact + 1`;
then it stands for `maxExact`, with its sign.  So two expressions that are decoded from one
document, with its numbers as they are spelled and with its numbers rounded, have the same nodes and
the same names, and the same constants but for those that such a literal spells; without such a
literal they are the same expression.  So it is for a text that is decoded in both ways. -/
theorem decodings_agree_but_next (literal : String) (d : Document) (text : String) :
    (∀ (u : Int) (x : Document), Text.integer? literal = some u →
      Document.rounded (.numeral literal) = .ok x →
        x.toInteger = .ok u ∨ (∃ y, x.toInteger = .error (.fault (.notExact y))) ∨
          ∃ v, Document.NextToExact u v ∧ x.toInteger = .ok v) ∧
    (∀ (d' : Document) (e e' : Expr), d.rounded = .ok d' → Expr.ofDocument d = .ok e →
      Expr.ofDocument d' = .ok e' →
        e.EqualBut (ReadAs d.numerals) e' ∧
        ((∀ s ∈ d.numerals, ∀ u, Text.integer? s = some u → u.natAbs ≠ Document.maxExact + 1) →
          e = e')) ∧
    ∀ (e e' : Expr), Expr.ofJson text = .ok e → Expr.ofInlineJson text = .ok e' →
      ∃ d, Json.first text = .ok d ∧ e.EqualBut (ReadAs d.numerals) e' ∧
        ((∀ s ∈ d.numerals, ∀ u, Text.integer? s = some u → u.natAbs ≠ Document.maxExact + 1) →
          e = e') := by
  have hsame {d : Document} {e e' : Expr} (h : e.EqualBut (ReadAs d.numerals) e')
      (hnone : ∀ s ∈ d.numerals, ∀ u, Text.integer? s = some u →
        u.natAbs ≠ Document.maxExact + 1) : e = e' := by
    refine h.eq fun u v hread => ?_
    rcases hread with heq | ⟨⟨s, hs, hspells⟩, hnext, -⟩
    · exact heq
    · exact absurd hnext (hnone s hs u hspells)
  refine ⟨fun u x hu hx => Document.toInteger_rounded_numeral hu hx, fun d' e e' hd he he' => ?_,
    fun e e' he he' => ?_⟩
  · have h := Expr.equalBut_of_ofDocument_eq_ok hd he he'
    exact ⟨h, hsame h⟩
  · obtain ⟨d, hd, he⟩ := Expr.exists_document_of_ofJson he
    obtain ⟨d₁, d', hd₁, hd', he'⟩ := Expr.exists_document_of_ofInlineJson he'
    cases hd.symm.trans (Expr.first_of_whole hd₁)
    have h := Expr.equalBut_of_ofDocument_eq_ok hd' he he'
    exact ⟨d, hd, h, hsame h⟩

/-! ### One literal in a text -/

/-- The text of the document of a constant, its value spelled as a number. -/
def constantText (spelling : String) : String :=
  "\x7b\"type\":\"const\",\"value\":" ++ spelling ++ "\x7d"

/-- That document as it is read. -/
def constantFields (value : Document) : Fields := [("value", value), ("type", .text "const")]

lemma ofDocument_constantFields {value : Document} {v : Int} (h : value.toInteger = .ok v) :
    Expr.ofDocument (.object (constantFields value)) = .ok (.const v) :=
  (Expr.ofDocument_eq_ok_iff ..).2 ⟨_, rfl, .const ⟨_, rfl, rfl⟩ rfl h⟩

lemma ofJson_of_first {text : String} {fields : Fields}
    (h : Json.first text = .ok (.object fields)) :
    Expr.ofJson text = Expr.ofDocument (.object fields) := by
  rw [Expr.ofJson, h]
  rfl

lemma ofInlineJson_of_whole {text : String} {fields fields' : Fields}
    (h : Json.whole text = .ok (.object fields))
    (hrounded : Document.roundedFields fields = .ok fields') :
    Expr.ofInlineJson text = Expr.ofDocument (.object fields') := by
  have hread : Expr.ofInlineJson.read text = .ok (some fields') := by
    rw [Expr.ofInlineJson.read, h]
    simp only [bind, Except.bind, Json.fields?, hrounded]
    rfl
  rw [Expr.ofInlineJson, hread]
  rfl

/-- The double of `-maxExact` is the number that is spelled, and both decodings give it. -/
theorem decodings_agree_at_neg_maxExact :
    (∃ d, Document.rounded (.numeral "-9007199254740992") = .ok d ∧
      (d.toInteger = .ok (-9007199254740992) ∨
        (∃ x, d.toInteger = .error (.fault (.notExact x))) ∨
          ∃ v, Document.NextToExact (-9007199254740992) v ∧ d.toInteger = .ok v)) ∧
    (∃ d e e', Document.rounded (.object (constantFields (.numeral "-9007199254740992"))) = .ok d ∧
      Expr.ofDocument (.object (constantFields (.numeral "-9007199254740992"))) = .ok e ∧
      Expr.ofDocument d = .ok e' ∧ e = e') ∧
    ∃ e e', Expr.ofJson (constantText "-9007199254740992") = .ok e ∧
      Expr.ofInlineJson (constantText "-9007199254740992") = .ok e' ∧ e = e' := by
  obtain ⟨hliteral, hdocument, htext⟩ := decodings_agree_but_next "-9007199254740992"
    (.object (constantFields (.numeral "-9007199254740992"))) (constantText "-9007199254740992")
  have hrounded : Document.roundedFields (constantFields (.numeral "-9007199254740992")) =
      .ok (constantFields (.double (.finite true (2 ^ 52) 1))) := rfl
  have hd : Document.rounded (.object (constantFields (.numeral "-9007199254740992"))) =
      .ok (.object (constantFields (.double (.finite true (2 ^ 52) 1)))) := rfl
  have hfirst : Json.first (constantText "-9007199254740992") =
      .ok (.object (constantFields (.numeral "-9007199254740992"))) := rfl
  have hwhole : Json.whole (constantText "-9007199254740992") =
      .ok (.object (constantFields (.numeral "-9007199254740992"))) := rfl
  have hspelled : Expr.ofDocument (.object (constantFields (.numeral "-9007199254740992"))) =
      .ok (.const (-9007199254740992)) := ofDocument_constantFields rfl
  have hdouble : Expr.ofDocument (.object (constantFields (.double (.finite true (2 ^ 52) 1)))) =
      .ok (.const (-9007199254740992)) := ofDocument_constantFields rfl
  have hnumerals : ∀ s ∈ Document.numerals
      (.object (constantFields (.numeral "-9007199254740992"))),
      ∀ u, Text.integer? s = some u → u.natAbs ≠ Document.maxExact + 1 := by
    intro s hs u hu
    rw [show s = "-9007199254740992" by simpa [constantFields, Document.numerals,
      Document.fieldNumerals] using hs] at hu
    cases hu
    decide
  have hnumeral : Document.rounded (.numeral "-9007199254740992") =
      .ok (.double (.finite true (2 ^ 52) 1)) := rfl
  refine ⟨⟨_, hnumeral, hliteral (-9007199254740992) _ rfl hnumeral⟩,
    ⟨_, _, _, hd, hspelled, hdouble, (hdocument _ _ _ hd hspelled hdouble).2 hnumerals⟩, ?_⟩
  rw [ofJson_of_first hfirst, ofInlineJson_of_whole hwhole hrounded]
  obtain ⟨d, hd, -, hsame⟩ := htext _ _
    ((ofJson_of_first hfirst).trans hspelled)
    ((ofInlineJson_of_whole hwhole hrounded).trans hdouble)
  cases hfirst.symm.trans hd
  exact ⟨_, _, hspelled, hdouble, hsame hnumerals⟩

/-- The integer after `maxExact` is read as itself from its text, and as `maxExact` from the double
that its text is rounded to. -/
theorem decodings_differ_at_next :
    Expr.ofJson (constantText "9007199254740993") = .ok (.const 9007199254740993) ∧
      Expr.ofInlineJson (constantText "9007199254740993") = .ok (.const 9007199254740992) := by
  have hfirst : Json.first (constantText "9007199254740993") =
      .ok (.object (constantFields (.numeral "9007199254740993"))) := rfl
  have hwhole : Json.whole (constantText "9007199254740993") =
      .ok (.object (constantFields (.numeral "9007199254740993"))) := rfl
  have hrounded : Document.roundedFields (constantFields (.numeral "9007199254740993")) =
      .ok (constantFields (.double (.finite false (2 ^ 52) 1))) := rfl
  rw [ofJson_of_first hfirst, ofInlineJson_of_whole hwhole hrounded]
  exact ⟨ofDocument_constantFields rfl, ofDocument_constantFields rfl⟩

end ClosedForm
