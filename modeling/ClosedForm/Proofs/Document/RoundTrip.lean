import ClosedForm.Json.Expression
import ClosedForm.Proofs.Document.Grammar
import ClosedForm.Proofs.Json.RoundTrip

/-!
# Expressions written and read back

Two ways out of the program and back lead through the grammar of expression documents.  An
expression without holes, unbound indices and empty names is derived from its own document, so
decoding gives it back, whatever its names hide.  As text it comes back with the fields of every
object in another order; the grammar looks fields up by their names only, so the same expression is
derived from what is read.

* `derives_toDocument` — the document of an expression derives it.
* `derives_of_sameMaps` — **the grammar sees maps,** not the order of fields.
* `legible_toDocument` — the document of an expression is one that JSON text can carry.
* `ofDocument_toDocument` — the round trips through documents and through text.
-/

namespace ClosedForm

/-- The text of an integer stands for that integer. -/
lemma Document.toInteger_text (v : ℤ) : Document.toInteger (.text (Text.integer v)) = .ok v := by
  simp only [toInteger, toInteger.decimal, RawText.shown_ofString, Text.integer?_integer]

namespace Expr

/-! ## Through a document -/

lemma derives_toDocument {e : Expr} {bound : List RawText} (hscoped : e.Scoped bound)
    (hnames : ∀ n ∈ e.mentions, n ≠ .empty) :
    ∃ fields, e.toDocument = .object fields ∧ Fields.Derives bound fields e := by
  induction e generalizing bound with
  | hole => cases hscoped
  | param => exact ⟨_, rfl, .param ⟨_, rfl, rfl⟩⟩
  | index name =>
      exact ⟨_, rfl, .index ⟨_, rfl, rfl⟩ ⟨rfl, hnames name (List.mem_singleton_self name)⟩ hscoped⟩
  | const v => exact ⟨_, rfl, .const ⟨_, rfl, rfl⟩ rfl (Document.toInteger_text v)⟩
  | add a b iha ihb =>
      obtain ⟨hna, hnb⟩ := List.forall_mem_append.1 hnames
      obtain ⟨left, hleft, ha⟩ := iha hscoped.1 hna
      obtain ⟨right, hright, hb⟩ := ihb hscoped.2 hnb
      rw [toDocument, hleft, hright]
      exact ⟨_, rfl, .add ⟨_, rfl, rfl⟩ rfl rfl ha hb⟩
  | mul a b iha ihb =>
      obtain ⟨hna, hnb⟩ := List.forall_mem_append.1 hnames
      obtain ⟨left, hleft, ha⟩ := iha hscoped.1 hna
      obtain ⟨right, hright, hb⟩ := ihb hscoped.2 hnb
      rw [toDocument, hleft, hright]
      exact ⟨_, rfl, .mul ⟨_, rfl, rfl⟩ rfl rfl ha hb⟩
  | sum l u name body ihl ihu ihb =>
      obtain ⟨hname, hnames⟩ := List.forall_mem_cons.1 hnames
      obtain ⟨hnbounds, hnb⟩ := List.forall_mem_append.1 hnames
      obtain ⟨hnl, hnu⟩ := List.forall_mem_append.1 hnbounds
      obtain ⟨lower, hlower, hl⟩ := ihl hscoped.1 hnl
      obtain ⟨upper, hupper, hu⟩ := ihu hscoped.2.1 hnu
      obtain ⟨inner, hinner, hb⟩ := ihb hscoped.2.2 hnb
      rw [toDocument, hlower, hupper, hinner]
      exact ⟨_, rfl, .sum ⟨_, rfl, rfl⟩ ⟨rfl, hname⟩ rfl rfl rfl hl hu hb⟩

lemma ofDocument_toDocument_of_scoped {e : Expr} (hscoped : e.Scoped [])
    (hnames : ∀ n ∈ e.mentions, n ≠ .empty) : ofDocument e.toDocument = .ok e :=
  (ofDocument_eq_ok_iff e.toDocument e).2 (derives_toDocument hscoped hnames)

end Expr

/-! ## Through a text -/

namespace Fields

open Document (SameMaps)

variable {fields fields' : Fields}

lemma get?_text_of_sameMaps (h : SameMaps (.object fields) (.object fields')) {field : String}
    {t : RawText} (ht : fields.get? field = some (.text t)) :
    fields'.get? field = some (.text t) := by
  obtain ⟨d', hd', hsame⟩ := h.get? ht
  rw [hd', hsame.eq_of_text]

lemma get?_object_of_sameMaps (h : SameMaps (.object fields) (.object fields')) {field : String}
    {inner : Fields} (hinner : fields.get? field = some (.object inner)) :
    ∃ inner', fields'.get? field = some (.object inner') ∧
      SameMaps (.object inner) (.object inner') := by
  obtain ⟨d', hd', hsame⟩ := h.get? hinner
  obtain ⟨inner', rfl⟩ := hsame.exists_object
  exact ⟨inner', hd', hsame⟩

lemma hasType_of_sameMaps (h : SameMaps (.object fields) (.object fields')) {type : String}
    (htype : fields.HasType type) : fields'.HasType type := by
  obtain ⟨t, ht, hshown⟩ := htype
  exact ⟨t, get?_text_of_sameMaps h ht, hshown⟩

lemma hasName_of_sameMaps (h : SameMaps (.object fields) (.object fields')) {field : String}
    {name : RawText} (hname : fields.HasName field name) : fields'.HasName field name :=
  ⟨get?_text_of_sameMaps h hname.1, hname.2⟩

/-- **The grammar sees maps,** not the order of fields. -/
lemma derives_of_sameMaps {bound : List RawText} {e : Expr} (h : Derives bound fields e)
    (hsame : SameMaps (.object fields) (.object fields')) : Derives bound fields' e := by
  induction h generalizing fields' with
  | param type => exact .param (hasType_of_sameMaps hsame type)
  | index type hname hbound =>
      exact .index (hasType_of_sameMaps hsame type) (hasName_of_sameMaps hsame hname) hbound
  | const type hvalue hinteger =>
      obtain ⟨d', hd', hvalues⟩ := hsame.get? hvalue
      -- An object stands for no integer, so the value is the same.
      cases hvalues with
      | same => exact .const (hasType_of_sameMaps hsame type) hd' hinteger
      | object => cases hinteger
  | add type hleft hright _ _ iha ihb =>
      obtain ⟨left', hleft', ha⟩ := get?_object_of_sameMaps hsame hleft
      obtain ⟨right', hright', hb⟩ := get?_object_of_sameMaps hsame hright
      exact .add (hasType_of_sameMaps hsame type) hleft' hright' (iha ha) (ihb hb)
  | mul type hleft hright _ _ iha ihb =>
      obtain ⟨left', hleft', ha⟩ := get?_object_of_sameMaps hsame hleft
      obtain ⟨right', hright', hb⟩ := get?_object_of_sameMaps hsame hright
      exact .mul (hasType_of_sameMaps hsame type) hleft' hright' (iha ha) (ihb hb)
  | sum type hname hlower hupper hbody _ _ _ ihl ihu ihb =>
      obtain ⟨lower', hlower', hl⟩ := get?_object_of_sameMaps hsame hlower
      obtain ⟨upper', hupper', hu⟩ := get?_object_of_sameMaps hsame hupper
      obtain ⟨body', hbody', hb⟩ := get?_object_of_sameMaps hsame hbody
      exact .sum (hasType_of_sameMaps hsame type) (hasName_of_sameMaps hsame hname) hlower' hupper'
        hbody' (ihl hl) (ihu hu) (ihb hb)

end Fields

namespace Expr

/-- A text is read as the expression if it is read as the maps of its document. -/
lemma ofJson_eq_ok_of_sameMaps {e : Expr} (hscoped : e.Scoped [])
    (hnames : ∀ n ∈ e.mentions, n ≠ .empty) {text : String} {d : Document}
    (hd : Json.first text = .ok d) (hsame : e.toDocument.SameMaps d) : ofJson text = .ok e := by
  obtain ⟨fields, hfields, hderives⟩ := derives_toDocument hscoped hnames
  rw [hfields] at hsame
  obtain ⟨fields', rfl⟩ := hsame.exists_object
  have hderives' := Fields.derives_of_sameMaps hderives hsame
  have hok := (Fields.expression_eq_ok_iff fields' (Scope.root ()) e).2 hderives'
  simp only [ofJson, hd, bind, Except.bind, Json.fields?]
  exact hok

/-- The number of nodes on the longest way down. -/
def height : Expr → ℕ
  | add a b => max (height a) (height b) + 1
  | mul a b => max (height a) (height b) + 1
  | sum lower upper _ body => max (max (height lower) (height upper)) (height body) + 1
  | _ => 1

lemma legible_of_stray_eq_nil (room : ℕ) {t : RawText} (h : t.stray = []) :
    Document.Legible room (.text t) := by
  obtain ⟨shown, stray, hshown, hascending⟩ := t
  cases h
  exact .text room shown

lemma legible_binary {room : ℕ} {left right : Document} (type : String)
    (hleft : left.Legible room) (hright : right.Legible room) :
    Document.Legible (room + 1)
      (.object [("left", left), ("right", right), ("type", .text type)]) := by
  refine .object (by simp) ?_
  simp only [List.forall_mem_cons]
  exact ⟨hleft, hright, .text .., List.forall_mem_nil _⟩

/-- The document of an expression has an object for every node, nested as the nodes are. -/
lemma legible_toDocument {e : Expr} {bound : List RawText} (hscoped : e.Scoped bound)
    (hnames : ∀ n ∈ e.mentions, n.stray = []) {room : ℕ} (hroom : e.height ≤ room) :
    e.toDocument.Legible room := by
  induction e generalizing bound room with
  | hole => cases hscoped
  | param =>
      obtain ⟨room, rfl⟩ := Nat.exists_eq_add_of_le' hroom
      exact .object (by simp) (List.forall_mem_singleton.2 (.text ..))
  | index name =>
      obtain ⟨room, rfl⟩ := Nat.exists_eq_add_of_le' hroom
      have hname := hnames name (List.mem_singleton_self name)
      refine .object (by simp) ?_
      simp only [List.forall_mem_cons]
      exact ⟨legible_of_stray_eq_nil room hname, .text .., List.forall_mem_nil _⟩
  | const v =>
      obtain ⟨room, rfl⟩ := Nat.exists_eq_add_of_le' hroom
      refine .object (by simp) ?_
      simp only [List.forall_mem_cons]
      exact ⟨.text .., .text .., List.forall_mem_nil _⟩
  | add a b iha ihb =>
      obtain ⟨hna, hnb⟩ := List.forall_mem_append.1 hnames
      obtain ⟨room, rfl⟩ := Nat.exists_eq_add_of_le' (Nat.le_of_add_left_le hroom)
      obtain ⟨ha, hb⟩ := Nat.max_le.1 (Nat.le_of_add_le_add_right hroom)
      exact legible_binary "add" (iha hscoped.1 hna ha) (ihb hscoped.2 hnb hb)
  | mul a b iha ihb =>
      obtain ⟨hna, hnb⟩ := List.forall_mem_append.1 hnames
      obtain ⟨room, rfl⟩ := Nat.exists_eq_add_of_le' (Nat.le_of_add_left_le hroom)
      obtain ⟨ha, hb⟩ := Nat.max_le.1 (Nat.le_of_add_le_add_right hroom)
      exact legible_binary "mul" (iha hscoped.1 hna ha) (ihb hscoped.2 hnb hb)
  | sum l u name body ihl ihu ihb =>
      obtain ⟨hname, hnames⟩ := List.forall_mem_cons.1 hnames
      obtain ⟨hnbounds, hnb⟩ := List.forall_mem_append.1 hnames
      obtain ⟨hnl, hnu⟩ := List.forall_mem_append.1 hnbounds
      obtain ⟨room, rfl⟩ := Nat.exists_eq_add_of_le' (Nat.le_of_add_left_le hroom)
      obtain ⟨hbounds, hb⟩ := Nat.max_le.1 (Nat.le_of_add_le_add_right hroom)
      obtain ⟨hl, hu⟩ := Nat.max_le.1 hbounds
      refine .object (by simp) ?_
      simp only [List.forall_mem_cons]
      exact ⟨ihb hscoped.2.2 hnb hb, ihl hscoped.1 hnl hl, legible_of_stray_eq_nil room hname,
        ihu hscoped.2.1 hnu hu, .text .., List.forall_mem_nil _⟩

/-- **An expression comes back.**  An expression in which every index is bound and no name is empty
is decoded from its own document, node for node, and so is whatever was decoded from any document.
Such an expression has a text.  The text is read as the expression if the reader finds the maps of
the document in it, and the reader does if the names have no stray bytes and the nodes are not nested
beyond its depth. -/
theorem ofDocument_toDocument :
    (∀ e : Expr, e.Scoped [] → (∀ n ∈ e.mentions, n ≠ .empty) →
      ofDocument e.toDocument = .ok e) ∧
    (∀ (d : Document) (e : Expr), ofDocument d = .ok e → ofDocument e.toDocument = .ok e) ∧
    ∀ e : Expr, e.Scoped [] → (∀ n ∈ e.mentions, n ≠ .empty) → ∃ text, e.toJson = .ok text ∧
      (∀ d, Json.first text = .ok d → e.toDocument.SameMaps d → ofJson text = .ok e) ∧
      ((∀ n ∈ e.mentions, n.stray = []) → e.height ≤ Json.maxDepth → ofJson text = .ok e) := by
  refine ⟨fun e => ofDocument_toDocument_of_scoped, fun d e h => ?_, fun e hscoped hnames => ?_⟩
  · obtain ⟨fields, -, hderives⟩ := (ofDocument_eq_ok_iff d e).1 h
    exact ofDocument_toDocument_of_scoped (scoped_of_derives hderives)
      (mentions_ne_empty_of_derives hderives)
  · have htext : e.toJson = .ok (Json.write e.toDocument) := by
      cases e with
      | hole => cases hscoped
      | _ => rfl
    refine ⟨_, htext, fun d => ofJson_eq_ok_of_sameMaps hscoped hnames, fun hstray hheight => ?_⟩
    obtain ⟨d, hd, hsame⟩ := Json.first_write (legible_toDocument hscoped hstray hheight)
    exact ofJson_eq_ok_of_sameMaps hscoped hnames hd hsame

/-- A sum over `1 ≤ i ≤ x` of the sum of `-10¹⁸ * i` over `i ≤ i ≤ x`.  The inner index hides the
outer one, from which it starts; the name of both has a character that a text escapes. -/
def hidingSum : Expr :=
  .sum (.const 1) .param "i<j"
    (.sum (.index "i<j") .param "i<j" (.mul (.const (-10 ^ 18)) (.index "i<j")))

/-- The hiding sum comes back from its document and from its text. -/
theorem ofJson_hidingSum :
    ofDocument hidingSum.toDocument = .ok hidingSum ∧
      ∃ text, hidingSum.toJson = .ok text ∧ ofJson text = .ok hidingSum := by
  have hscoped : hidingSum.Scoped [] := by simp [hidingSum, Scoped]
  have hnames : ∀ n ∈ hidingSum.mentions, n ≠ .empty := by decide
  have hstray : ∀ n ∈ hidingSum.mentions, n.stray = [] := by decide
  obtain ⟨text, htext, -, hread⟩ := ofDocument_toDocument.2.2 hidingSum hscoped hnames
  exact ⟨ofDocument_toDocument.1 hidingSum hscoped hnames, text, htext, hread hstray (by decide)⟩

end Expr
end ClosedForm
