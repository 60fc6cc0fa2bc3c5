import ClosedForm.Proofs.Document.RoundTrip
import ClosedForm.Proofs.Yaml.Keys
import ClosedForm.Yaml.Meaning
import Mathlib.Data.List.Perm.Basic

/-!
# YAML values as documents

An expression has one document, and many YAML values: the entries of a mapping have no order, and a
constant can be written as a text or as a word.  `WrittenAs` relates them to the expression without a
document in between.  Decoding goes through the grammar of expression documents, which looks fields up
by their names, so no order of the entries is lost on it.

* `exists_mapping` — the entries of a mapping are the fields of an object, in any order.
* `derives_of_writtenAs` — **every value of an expression derives it.**
* `exists_writtenAs` — the entries of its document are one of them.
* `yaml_values_mean_documents` collects what YAML documents mean.
-/

namespace ClosedForm
namespace Yaml

/-! ## Entries as fields -/

lemma TextKeyed.toFields_eq_map (entries : List (RawText × TextKeyed)) :
    toFields entries = entries.map fun e => (e.1.shown, e.2.toDocument) := by
  induction entries with
  | nil => rfl
  | cons e es ih => rw [toFields, ih, List.map_cons]

/-- Under different names, a field is found by its name. -/
lemma get?_of_mem {fields : Fields} (names : (fields.map Prod.fst).Nodup) {name : String}
    {d : Document} (h : (name, d) ∈ fields) : fields.get? name = some d := by
  induction fields with
  | nil => cases h
  | cons f fields ih =>
      obtain ⟨hf, hfields⟩ := List.nodup_cons.1 names
      rw [Fields.get?, List.lookup_cons]
      rcases List.mem_cons.1 h with rfl | hmem
      · simp
      · have hne : name ≠ f.1 := by
          rintro rfl
          exact hf (List.mem_map.2 ⟨_, hmem, rfl⟩)
        rw [beq_false_of_ne hne]
        exact ih hfields hmem

/-- **The entries of a mapping are the fields of an object,** in any order. -/
lemma exists_mapping (fields : List (String × TextKeyed)) {entries : List (Value × Value)}
    (h : entries.Perm (fields.map fun f => (.text f.1, f.2.toValue)))
    (names : (fields.map Prod.fst).Nodup) :
    ∃ (t : TextKeyed) (inner : Fields), t.toValue = .mapping entries ∧
      t.toDocument = .object inner ∧ ∀ f ∈ fields, inner.get? f.1 = some f.2.toDocument := by
  -- The same order of the fields gives the entries as they are.
  obtain ⟨ordered, rfl, hperm⟩ := (congrFun₂ (List.eq_map_comp_perm _) entries fields).mpr h
  refine ⟨.mapping (ordered.map fun f => (f.1, f.2)),
    ordered.map fun f => (f.1, f.2.toDocument), ?_, ?_, fun f hf => ?_⟩
  · rw [TextKeyed.toValue, TextKeyed.entriesToValues_eq_map, List.map_map]
    rfl
  · rw [TextKeyed.toDocument, TextKeyed.toFields_eq_map, List.map_map]
    rfl
  · apply get?_of_mem
    · rw [List.map_map]
      exact (hperm.map Prod.fst).nodup_iff.2 names
    · exact List.mem_map.2 ⟨f, hperm.mem_iff.2 hf, rfl⟩

/-! ## Expressions -/

/-- The value stands for the integer: as its decimal text, or as a word, signed or not. -/
inductive Value.Spells : Value → ℤ → Prop
  | text (n : ℤ) : Spells (.text (Text.integer n)) n
  | integer (w : Int64) : Spells (.integer w) w.toInt
  | natural (w : UInt64) : Spells (.natural w) w.toNat

end Yaml

open Yaml (Value TextKeyed exists_mapping)

namespace Expr

/-- The value has the entries of the document of the expression, at every depth in any order, but the
value of a constant may be a word. -/
inductive WrittenAs : Expr → Value → Prop
  | param {entries : List (Value × Value)} (h : entries.Perm [(.text "type", .text "param")]) :
    WrittenAs .param (.mapping entries)
  | index (name : RawText) {entries : List (Value × Value)}
    (h : entries.Perm [(.text "name", .text name), (.text "type", .text "index")]) :
    WrittenAs (.index name) (.mapping entries)
  | const {n : ℤ} {v : Value} {entries : List (Value × Value)} (hv : v.Spells n)
    (h : entries.Perm [(.text "type", .text "const"), (.text "value", v)]) :
    WrittenAs (.const n) (.mapping entries)
  | add {a b : Expr} {left right : Value} {entries : List (Value × Value)} (ha : WrittenAs a left)
    (hb : WrittenAs b right)
    (h : entries.Perm [(.text "left", left), (.text "right", right), (.text "type", .text "add")]) :
    WrittenAs (.add a b) (.mapping entries)
  | mul {a b : Expr} {left right : Value} {entries : List (Value × Value)} (ha : WrittenAs a left)
    (hb : WrittenAs b right)
    (h : entries.Perm [(.text "left", left), (.text "right", right), (.text "type", .text "mul")]) :
    WrittenAs (.mul a b) (.mapping entries)
  | sum {l u b : Expr} (name : RawText) {lower upper body : Value} {entries : List (Value × Value)}
    (hl : WrittenAs l lower) (hu : WrittenAs u upper) (hb : WrittenAs b body)
    (h : entries.Perm [(.text "body", body), (.text "from", lower), (.text "index", .text name),
      (.text "to", upper), (.text "type", .text "sum")]) :
    WrittenAs (.sum l u name b) (.mapping entries)

/-- Every spelling of an integer is decoded to it. -/
lemma toInteger_of_spells {v : Value} {n : ℤ} (h : v.Spells n) :
    ∃ t : TextKeyed, t.toValue = v ∧ t.toDocument.toInteger = .ok n := by
  cases h with
  | text n => exact ⟨.text (Text.integer n), rfl, Document.toInteger_text n⟩
  | integer w => exact ⟨.integer w, rfl, rfl⟩
  | natural w => exact ⟨.natural w, rfl, rfl⟩

/-- The mapping of a sum or a product is an object of its type with both operands. -/
lemma exists_operands {type : String} {left right : TextKeyed} {entries : List (Value × Value)}
    (h : entries.Perm [(.text "left", left.toValue), (.text "right", right.toValue),
      (.text "type", .text type)]) :
    ∃ (t : TextKeyed) (fields : Fields), t.toValue = .mapping entries ∧
      t.toDocument = .object fields ∧ fields.HasType type ∧
      fields.get? "left" = some left.toDocument ∧ fields.get? "right" = some right.toDocument := by
  obtain ⟨t, fields, ht, hfields, hget⟩ :=
    exists_mapping [("left", left), ("right", right), ("type", .text type)] h (by simp)
  simp only [List.forall_mem_cons] at hget
  obtain ⟨hleft, hright, htype, -⟩ := hget
  exact ⟨t, fields, ht, hfields, ⟨_, htype, rfl⟩, hleft, hright⟩

/-- **Every value of an expression derives it.** -/
lemma derives_of_writtenAs {e : Expr} {v : Value} (h : e.WrittenAs v) {bound : List RawText}
    (hscoped : e.Scoped bound) (hnames : ∀ n ∈ e.mentions, n ≠ .empty) :
    ∃ (t : TextKeyed) (fields : Fields), t.toValue = v ∧ t.toDocument = .object fields ∧
      Fields.Derives bound fields e := by
  induction h generalizing bound with
  | param h =>
      obtain ⟨t, fields, ht, hfields, hget⟩ := exists_mapping [("type", .text "param")] h (by simp)
      simp only [List.forall_mem_cons] at hget
      exact ⟨t, fields, ht, hfields, .param ⟨_, hget.1, rfl⟩⟩
  | index name h =>
      obtain ⟨t, fields, ht, hfields, hget⟩ :=
        exists_mapping [("name", .text name), ("type", .text "index")] h (by simp)
      simp only [List.forall_mem_cons] at hget
      obtain ⟨hname, htype, -⟩ := hget
      exact ⟨t, fields, ht, hfields, .index ⟨_, htype, rfl⟩
        ⟨hname, hnames name (List.mem_singleton_self name)⟩ hscoped⟩
  | const hv h =>
      obtain ⟨c, rfl, hinteger⟩ := toInteger_of_spells hv
      obtain ⟨t, fields, ht, hfields, hget⟩ :=
        exists_mapping [("type", .text "const"), ("value", c)] h (by simp)
      simp only [List.forall_mem_cons] at hget
      obtain ⟨htype, hvalue, -⟩ := hget
      exact ⟨t, fields, ht, hfields, .const ⟨_, htype, rfl⟩ hvalue hinteger⟩
  | add _ _ h iha ihb =>
      obtain ⟨hna, hnb⟩ := List.forall_mem_append.1 hnames
      obtain ⟨left, fa, rfl, hfa, ha⟩ := iha hscoped.1 hna
      obtain ⟨right, fb, rfl, hfb, hb⟩ := ihb hscoped.2 hnb
      obtain ⟨t, fields, ht, hfields, htype, hleft, hright⟩ := exists_operands h
      rw [hfa] at hleft
      rw [hfb] at hright
      exact ⟨t, fields, ht, hfields, .add htype hleft hright ha hb⟩
  | mul _ _ h iha ihb =>
      obtain ⟨hna, hnb⟩ := List.forall_mem_append.1 hnames
      obtain ⟨left, fa, rfl, hfa, ha⟩ := iha hscoped.1 hna
      obtain ⟨right, fb, rfl, hfb, hb⟩ := ihb hscoped.2 hnb
      obtain ⟨t, fields, ht, hfields, htype, hleft, hright⟩ := exists_operands h
      rw [hfa] at hleft
      rw [hfb] at hright
      exact ⟨t, fields, ht, hfields, .mul htype hleft hright ha hb⟩
  | sum name _ _ _ h ihl ihu ihb =>
      obtain ⟨hname, hnames⟩ := List.forall_mem_cons.1 hnames
      obtain ⟨hnbounds, hnb⟩ := List.forall_mem_append.1 hnames
      obtain ⟨hnl, hnu⟩ := List.forall_mem_append.1 hnbounds
      obtain ⟨lower, fl, rfl, hfl, hl⟩ := ihl hscoped.1 hnl
      obtain ⟨upper, fu, rfl, hfu, hu⟩ := ihu hscoped.2.1 hnu
      obtain ⟨body, fb, rfl, hfb, hb⟩ := ihb hscoped.2.2 hnb
      obtain ⟨t, fields, ht, hfields, hget⟩ := exists_mapping [("body", body), ("from", lower),
        ("index", .text name), ("to", upper), ("type", .text "sum")] h (by simp)
      simp only [List.forall_mem_cons, hfb, hfl, hfu] at hget
      obtain ⟨hbody, hlower, hindex, hupper, htype, -⟩ := hget
      exact ⟨t, fields, ht, hfields,
        .sum ⟨_, htype, rfl⟩ ⟨hindex, hname⟩ hlower hupper hbody hl hu hb⟩

/-- The entries of the document of an expression are one of its values. -/
lemma exists_writtenAs {e : Expr} {bound : List RawText} (hscoped : e.Scoped bound) :
    ∃ t : TextKeyed, t.toDocument = e.toDocument ∧ e.WrittenAs t.toValue := by
  induction e generalizing bound with
  | hole => cases hscoped
  | param => exact ⟨.mapping [("type", .text "param")], rfl, .param (.refl _)⟩
  | index name =>
      exact ⟨.mapping [("name", .text name), ("type", .text "index")], rfl, .index name (.refl _)⟩
  | const n =>
      exact ⟨.mapping [("type", .text "const"), ("value", .text (Text.integer n))], rfl,
        .const (.text n) (.refl _)⟩
  | add a b iha ihb =>
      obtain ⟨left, hleft, ha⟩ := iha hscoped.1
      obtain ⟨right, hright, hb⟩ := ihb hscoped.2
      rw [toDocument, ← hleft, ← hright]
      exact ⟨.mapping [("left", left), ("right", right), ("type", .text "add")], rfl,
        .add ha hb (.refl _)⟩
  | mul a b iha ihb =>
      obtain ⟨left, hleft, ha⟩ := iha hscoped.1
      obtain ⟨right, hright, hb⟩ := ihb hscoped.2
      rw [toDocument, ← hleft, ← hright]
      exact ⟨.mapping [("left", left), ("right", right), ("type", .text "mul")], rfl,
        .mul ha hb (.refl _)⟩
  | sum l u name b ihl ihu ihb =>
      obtain ⟨lower, hlower, hl⟩ := ihl hscoped.1
      obtain ⟨upper, hupper, hu⟩ := ihu hscoped.2.1
      obtain ⟨body, hbody, hb⟩ := ihb hscoped.2.2
      rw [toDocument, ← hlower, ← hupper, ← hbody]
      exact ⟨.mapping [("body", body), ("from", lower), ("index", .text name), ("to", upper),
        ("type", .text "sum")], rfl, .sum name hl hu hb (.refl _)⟩

lemma ofYaml_eq_ok_of_derives {e : Expr} {t : TextKeyed} {fields : Fields}
    (hfields : t.toDocument = .object fields) (hderives : Fields.Derives [] fields e) {s : String}
    (hs : Yaml.valueOf s = .ok t.toValue) : ofYaml s = .ok e := by
  have hdocument : t.toValue.toDocument = .ok (.object fields) := by
    rw [Value.toDocument, t.textKeyed_toValue, ← hfields]
    rfl
  simp only [ofYaml, hs, bind, Except.bind, hdocument]
  exact (Fields.expression_eq_ok_iff fields (Scope.root ()) e).2 hderives

/-- **YAML documents mean what JSON documents mean.**  A value has a counterpart with texts for keys
exactly if every key, at every depth, is a text; the counterpart is then the same value, and otherwise
the failure shows a key that is no text.  An expression in which every index is bound and no name is
empty is decoded from each of its values: from the one with the entries of its document, and from those
with the entries in another order or with words for constants.  So it is read from every YAML text that
has such a value, and from every JSON text that has the maps of its document. -/
theorem yaml_values_mean_documents :
    (∀ v : Value, (∃ t, v.textKeyed = .ok t) ↔ ∀ k : Value, k.KeyIn v → k.IsText) ∧
    (∀ (v : Value) (t : TextKeyed), v.textKeyed = .ok t ↔ t.toValue = v) ∧
    (∀ (v : Value) (err : Error), v.textKeyed = .error err →
      ∃ k : Value, k.KeyIn v ∧ ¬k.IsText ∧ err = .fault (.keyNotText k.shown)) ∧
    ∀ e : Expr, e.Scoped [] → (∀ n ∈ e.mentions, n ≠ .empty) →
      (∃ t : TextKeyed, t.toDocument = e.toDocument ∧ e.WrittenAs t.toValue) ∧
      (∀ v : Value, e.WrittenAs v →
        (∃ t, v.textKeyed = .ok t ∧ ofDocument t.toDocument = .ok e) ∧
        ∀ s, Yaml.valueOf s = .ok v → ofYaml s = .ok e) ∧
      ofDocument e.toDocument = .ok e ∧
      ∀ text d, Json.first text = .ok d → e.toDocument.SameMaps d → ofJson text = .ok e := by
  refine ⟨Value.exists_textKeyed_eq_ok_iff, Value.textKeyed_eq_ok_iff,
    fun v err => Value.exists_keyIn_of_textKeyed_eq_error, fun e hscoped hnames =>
      ⟨exists_writtenAs hscoped, fun v hv => ?_, ofDocument_toDocument_of_scoped hscoped hnames,
        fun text d => ofJson_eq_ok_of_sameMaps hscoped hnames⟩⟩
  obtain ⟨t, fields, rfl, hfields, hderives⟩ := derives_of_writtenAs hv hscoped hnames
  exact ⟨⟨t, t.textKeyed_toValue, (ofDocument_eq_ok_iff _ e).2 ⟨fields, hfields, hderives⟩⟩,
    fun s => ofYaml_eq_ok_of_derives hfields hderives⟩

/-- The sum of `-3 * (18446744073709551615 + i)` over `5 ≤ i ≤ x`. -/
def spelledSum : Expr :=
  .sum (.const 5) .param "i" (.mul (.const (-3)) (.add (.const 18446744073709551615) (.index "i")))

/-- The value of a constant. -/
def constantValue (v : Value) : Value := .mapping [(.text "value", v), (.text "type", .text "const")]

/-- A value of that sum.  Its entries are not in the order of the document; the three constants are a
text, a signed word and an unsigned one. -/
def spelledValue : Value :=
  .mapping [(.text "type", .text "sum"), (.text "to", .mapping [(.text "type", .text "param")]),
    (.text "index", .text "i"), (.text "from", constantValue (.text "5")),
    (.text "body", .mapping [(.text "type", .text "mul"),
      (.text "right", .mapping [(.text "type", .text "add"),
        (.text "right", .mapping [(.text "type", .text "index"), (.text "name", .text "i")]),
        (.text "left", constantValue (.natural 18446744073709551615))]),
      (.text "left", constantValue (.integer (-3)))])]

lemma writtenAs_constantValue {v : Value} {n : ℤ} (h : v.Spells n) :
    (Expr.const n).WrittenAs (constantValue v) :=
  .const h (List.reverse_perm _).symm

/-- The value is decoded to the sum.  In a list of such values, one more entry deep inside whose key is
a number is refused. -/
theorem ofDocument_spelledValue :
    spelledSum.WrittenAs spelledValue ∧
      (∃ t, spelledValue.textKeyed = .ok t ∧ ofDocument t.toDocument = .ok spelledSum) ∧
      ¬∃ t, (Value.sequence [spelledValue, .mapping [(.text "more", .mapping [(.integer 1, .null)])]]
        ).textKeyed = .ok t := by
  have hscoped : spelledSum.Scoped [] := by simp [spelledSum, Scoped]
  have hnames : ∀ n ∈ spelledSum.mentions, n ≠ .empty := by decide
  have hfive : Value.Spells (.text "5") 5 := .text 5
  have hthree : Value.Spells (.integer (-3)) (-3) := .integer (-3)
  have hlargest : Value.Spells (.natural 18446744073709551615) 18446744073709551615 :=
    .natural 18446744073709551615
  have hi : (Expr.index "i").WrittenAs
      (.mapping [(.text "type", .text "index"), (.text "name", .text "i")]) :=
    .index "i" (List.reverse_perm _).symm
  have hwritten : spelledSum.WrittenAs spelledValue :=
    .sum "i" (writtenAs_constantValue hfive) (.param (.refl _))
      (.mul (writtenAs_constantValue hthree)
        (.add (writtenAs_constantValue hlargest) hi (List.reverse_perm _).symm) (List.reverse_perm _).symm)
      (List.reverse_perm _).symm
  obtain ⟨hkeys, -, -, hmeans⟩ := yaml_values_mean_documents
  obtain ⟨-, hdecoded, -⟩ := hmeans spelledSum hscoped hnames
  refine ⟨hwritten, (hdecoded spelledValue hwritten).1, fun hnumber => ?_⟩
  obtain ⟨t, ht⟩ := (hkeys _).1 hnumber (.integer 1) (.item
    (List.mem_cons_of_mem _ List.mem_cons_self) (.entry List.mem_cons_self (.here List.mem_cons_self)))
  cases ht

end Expr
end ClosedForm
