import ClosedForm.Json.Reader
import ClosedForm.Json.Writer
import ClosedForm.Proofs.Text.Numerals
import Mathlib.Data.List.Induction

/-!
# Written objects read back

The writer puts a document before whatever follows it, and the reader takes one character at a time.
So every lemma here is about a run of the reader over a written part and *any* rest: what the part
was becomes the reader's next state, and the run goes on with the rest.

The documents are the *legible* ones, objects and texts without stray bytes, an object's fields
under different names.  The reader holds an object's fields the last first, so what it gives is not
the same list of fields; it is the same map of names to values.

* `run_escaped`, `unitsText_map` — a text is read as it was, however its characters are escaped.
* `reads_object`, `reads_texts` — an object is read if its values are; a row of texts is read as an
  array.
* `reads_of_legible` — **what is written is read,** if it is not nested too deeply.
* `first_write` — the whole text of a legible document gives a document with the same maps.
-/

namespace ClosedForm

/-! ## The same maps -/

/-- Documents that a look-up by names cannot tell apart: equal ones, and objects with fields of the
same names, whose values are alike in turn. -/
inductive Document.SameMaps : Document → Document → Prop
  | same (d : Document) : SameMaps d d
  | object {fields fields' : Fields}
    (names : ∀ name, (fields.get? name).isSome = (fields'.get? name).isSome)
    (values : ∀ name d d', fields.get? name = some d → fields'.get? name = some d' →
      SameMaps d d') : SameMaps (.object fields) (.object fields')

namespace Document.SameMaps

lemma eq_of_text {t : RawText} {d : Document} (h : SameMaps (.text t) d) : d = .text t := by
  cases h
  rfl

lemma exists_object {fields : Fields} {d : Document} (h : SameMaps (.object fields) d) :
    ∃ fields', d = .object fields' := by
  cases h with
  | same => exact ⟨fields, rfl⟩
  | object => exact ⟨_, rfl⟩

/-- A field of one is a field of the other. -/
lemma get? {fields fields' : Fields} (h : SameMaps (.object fields) (.object fields'))
    {name : String} {d : Document} (hd : fields.get? name = some d) :
    ∃ d', fields'.get? name = some d' ∧ SameMaps d d' := by
  cases h with
  | same => exact ⟨d, hd, .same d⟩
  | object names values =>
      have hsome : (fields'.get? name).isSome := by rw [← names name, hd]; rfl
      obtain ⟨d', hd'⟩ := Option.isSome_iff_exists.1 hsome
      exact ⟨d', hd', values name d d' hd hd'⟩

end Document.SameMaps

/-! ## Fields in reverse -/

namespace Document

mutual

/-- An object with its fields in reverse, and those of the objects in them. -/
def reversed : Document → Document
  | object fields => object (reversedFields fields)
  | d => d

/-- Fields in reverse, and those of the objects in them. -/
def reversedFields : Fields → Fields
  | [] => []
  | (name, d) :: fields => reversedFields fields ++ [(name, reversed d)]

end

/-- The fields of an object as a reader holds them, the last first, with what each value is read as. -/
def fieldsAsRead (value : Document → Document) (fields : Fields) : Fields :=
  (fields.map fun f => (f.1, value f.2)).reverse

lemma reversedFields_eq (fields : Fields) : reversedFields fields = fieldsAsRead reversed fields := by
  induction fields with
  | nil => rfl
  | cons f fields ih => simp [reversedFields, fieldsAsRead, ih]

/-- A document of objects and texts without stray bytes, the fields of an object under different
names, with at most so many objects around each other. -/
inductive Legible : ℕ → Document → Prop
  | text (room : ℕ) (s : String) : Legible room (.text s)
  | object {room : ℕ} {fields : Fields} (names : (fields.map Prod.fst).Nodup)
    (members : ∀ f ∈ fields, Legible room f.2) : Legible (room + 1) (.object fields)

/-- Under different names, the order of the fields does not matter to a look-up. -/
lemma get?_reversedFields {fields : Fields} (h : (fields.map Prod.fst).Nodup) (name : String) :
    Fields.get? (reversedFields fields) name = (fields.get? name).map reversed := by
  induction fields with
  | nil => rfl
  | cons f fields ih =>
      obtain ⟨k, d⟩ := f
      obtain ⟨hk, hfields⟩ := List.nodup_cons.1 h
      rw [reversedFields, Fields.get?, List.lookup_append, ← Fields.get?, ih hfields, Fields.get?,
        Fields.get?, List.lookup_cons, List.lookup_cons, List.lookup_nil]
      by_cases hname : name = k
      · have hnone : fields.lookup k = none := by
          rw [List.lookup_eq_none_iff]
          intro p hp
          have hne : k ≠ p.1 := fun heq => hk (List.mem_map.2 ⟨p, hp, heq.symm⟩)
          simpa using hne
        simp [hname, hnone]
      · simp [beq_false_of_ne hname]

lemma sameMaps_reversed {room : ℕ} {d : Document} (h : Legible room d) : SameMaps d d.reversed := by
  induction h with
  | text => exact .same _
  | object names _ ih =>
      refine .object (fun name => ?_) (fun name d d' hd hd' => ?_)
      · rw [get?_reversedFields names, Option.isSome_map]
      · rw [get?_reversedFields names, hd] at hd'
        cases hd'
        obtain ⟨before, after, rfl, -⟩ := List.lookup_eq_some_iff.1 hd
        exact ih (name, d) (by simp)

end Document

/-! ## Steps of the reader -/

namespace Json

lemma run_of_next {r r' : Reader} {c : Char} (h : r.step c = .next r') (cs : List Char) :
    r.run (c :: cs) = r'.run cs := by
  rw [Reader.run, h]

lemma run_finished (depth : ℕ) (value : Document) (rest : List Char) :
    Reader.run ⟨[], depth, .finished value⟩ rest = .complete value rest := by
  cases rest <;> rfl

/-- The end of a container gives it to what is around it, be that another container or nothing. -/
lemma run_of_close {r : Reader} {c : Char} {stack : List Frame} {depth : ℕ} {value : Document}
    (h : r.step c = closeContainer stack (depth + 1) value) (rest : List Char) :
    r.run (c :: rest) = (accept stack depth value).run rest := by
  cases stack with
  | nil =>
      rw [Reader.run, h, accept, run_finished]
      rfl
  | cons frame stack => exact run_of_next h rest

/-! ## Texts -/

section Texts

variable (stack : List Frame) (depth : ℕ) (role : Role) (units : List ℕ) (rest : List Char)

lemma run_hex {n : ℕ} (h : n < 65536) :
    Reader.run ⟨stack, depth, .text role units (.hex 4 0)⟩ (Text.hexDigits 4 n ++ rest) =
      Reader.run ⟨stack, depth, .text role (n :: units) .plain⟩ rest := by
  have hcode : ((n / 4096 * 16 + n / 256 % 16) * 16 + n / 16 % 16) * 16 + n % 16 = n := by omega
  have h₃ := Text.hexValue?_digitChar (n / 4096) (by omega)
  have h₂ := Text.hexValue?_digitChar (n / 256 % 16) (by omega)
  have h₁ := Text.hexValue?_digitChar (n / 16 % 16) (by omega)
  have h₀ := Text.hexValue?_digitChar (n % 16) (by omega)
  rw [Text.hexDigits_four h]
  simp [Reader.run, Reader.step, insideText, h₃, h₂, h₁, h₀, hcode]

/-- A character is read as itself, however it is escaped. -/
lemma run_escapeChar (c : Char) :
    Reader.run ⟨stack, depth, .text role units .plain⟩ (escapeChar c ++ rest) =
      Reader.run ⟨stack, depth, .text role (c.toNat :: units) .plain⟩ rest := by
  unfold escapeChar
  split
  -- The characters with an escape of their own are computed.
  iterate 7 rfl
  rename_i hquote hbackslash _ _ _ _ _
  split
  · rename_i h
    have hcode : c.toNat < 65536 := by
      simp only [Bool.or_eq_true, decide_eq_true_eq, beq_iff_eq] at h
      rcases h with ((((h | rfl) | rfl) | rfl) | h) | h
      · omega
      · decide
      · decide
      · decide
      · omega
      · omega
    exact run_hex stack depth role units rest hcode
  · rename_i h
    have hprintable : ¬c.toNat < 0x20 := by
      intro hlt
      simp [hlt] at h
    have hquote : c ≠ '"' := hquote
    have hbackslash : c ≠ '\\' := hbackslash
    refine run_of_next ?_ rest
    simp [Reader.step, insideText, hquote, hbackslash, hprintable]

lemma run_escaped (cs : List Char) :
    Reader.run ⟨stack, depth, .text role units .plain⟩
        (cs.foldr (fun c rest => escapeChar c ++ rest) ('"' :: rest)) =
      Reader.run ⟨stack, depth, .text role ((cs.map Char.toNat).reverse ++ units) .plain⟩
        ('"' :: rest) := by
  induction cs generalizing units with
  | nil => rfl
  | cons c cs ih =>
      rw [List.foldr_cons, run_escapeChar, ih]
      simp

end Texts

/-- No character is a surrogate, so no two characters are taken for a pair. -/
lemma not_surrogate (c : Char) : isHigh c.toNat = false ∧ isLow c.toNat = false := by
  have h := c.valid
  have hval : c.toNat = c.val.toNat := rfl
  simp only [UInt32.isValidChar, Nat.isValidChar] at h
  simp only [isHigh, isLow, Bool.and_eq_false_iff, decide_eq_false_iff_not]
  omega

lemma joinUnits_cons (c : Char) (units : List ℕ) (acc : List Char) :
    joinUnits (c.toNat :: units) acc = joinUnits units (c :: acc) := by
  have hunit : unitChar c.toNat = c := by simp [unitChar, not_surrogate]
  cases units with
  | nil => simp [joinUnits, hunit]
  | cons u units => simp [joinUnits, hunit, not_surrogate]

lemma joinUnits_map (cs acc : List Char) :
    joinUnits (cs.map Char.toNat).reverse acc = cs ++ acc := by
  induction cs using List.reverseRecOn generalizing acc with
  | nil => rfl
  | append_singleton cs c ih =>
      rw [List.map_append, List.reverse_append, List.map_singleton, List.reverse_singleton,
        List.singleton_append, joinUnits_cons, ih, List.append_assoc, List.singleton_append]

lemma unitsText_map (s : String) : unitsText (s.toList.map Char.toNat).reverse = s := by
  rw [unitsText, joinUnits_map, List.append_nil, String.ofList_toList]

lemma run_quoteBefore_value (stack : List Frame) (depth : ℕ) (s : String) (rest : List Char) :
    Reader.run ⟨stack, depth, .value⟩ (quoteBefore s rest) =
      (accept stack depth (.text s)).run rest := by
  rw [quoteBefore, run_of_next rfl, run_escaped, List.append_nil]
  refine run_of_next ?_ rest
  simp [Reader.step, insideText, unitsText_map]

/-! ## Objects -/

/-- What is written of a document is read as this value, whatever is around it and follows it. -/
def Reads (depth : ℕ) (d value : Document) : Prop :=
  ∀ (stack : List Frame) (rest : List Char),
    Reader.run ⟨stack, depth, .value⟩ (writeBefore .compact d rest) =
      (accept stack depth value).run rest

/-- The name of a field, its colon and its value. -/
lemma run_field {depth : ℕ} {d value : Document} (hd : Reads depth d value) (stack : List Frame)
    (fields : Fields) (name : String) (rest : List Char) :
    Reader.run ⟨stack, depth, .text (.name fields) [] .plain⟩
        (name.toList.foldr (fun c rest => escapeChar c ++ rest)
          ('"' :: ':' :: writeBefore .compact d rest)) =
      Reader.run ⟨stack, depth, .after (.object ((name, value) :: fields))⟩ rest := by
  have hquote : Reader.step ⟨stack, depth, .text (.name fields)
      (name.toList.map Char.toNat).reverse .plain⟩ '"' =
        .next ⟨stack, depth, .colon fields name⟩ := by
    simp [Reader.step, insideText, unitsText_map]
  have hcolon : Reader.step ⟨stack, depth, .colon fields name⟩ ':' =
      .next ⟨.object fields name :: stack, depth, .value⟩ := rfl
  rw [run_escaped, List.append_nil, run_of_next hquote, run_of_next hcolon, hd]
  rfl

/-- The fields after the first, and the end of the object. -/
lemma run_fieldsBefore {depth : ℕ} {value : Document → Document} {fields : Fields}
    (h : ∀ f ∈ fields, Reads (depth + 1) f.2 (value f.2)) (stack : List Frame) (acc : Fields)
    (rest : List Char) :
    Reader.run ⟨stack, depth + 1, .after (.object acc)⟩ (fieldsBefore .compact fields rest) =
      (accept stack depth (.object (Document.fieldsAsRead value fields ++ acc))).run rest := by
  induction fields generalizing acc with
  | nil => exact run_of_close rfl rest
  | cons f fields ih =>
      obtain ⟨name, d⟩ := f
      obtain ⟨hd, hfields⟩ := List.forall_mem_cons.1 h
      have hfield := run_field hd stack acc name (fieldsBefore .compact fields rest)
      have hread : Document.fieldsAsRead value ((name, d) :: fields) ++ acc =
          Document.fieldsAsRead value fields ++ (name, value d) :: acc := by
        simp [Document.fieldsAsRead]
      rw [fieldsBefore, hread, ← ih hfields, ← hfield]
      rfl

/-- An object is read if the values of its fields are. -/
lemma reads_object {depth : ℕ} {value : Document → Document} {fields : Fields}
    (hdepth : depth < maxDepth) (h : ∀ f ∈ fields, Reads (depth + 1) f.2 (value f.2)) :
    Reads depth (.object fields) (.object (Document.fieldsAsRead value fields)) := by
  intro stack rest
  have hopen : Reader.step ⟨stack, depth, .value⟩ '\x7b' =
      .next ⟨stack, depth + 1, .firstField⟩ := by
    simp [Reader.step, isSpace, startValue, openContainer, hdepth]
  cases fields with
  | nil =>
      rw [writeBefore, run_of_next hopen]
      exact run_of_close rfl rest
  | cons f fields =>
      obtain ⟨name, d⟩ := f
      obtain ⟨hd, hfields⟩ := List.forall_mem_cons.1 h
      have hfield := run_field hd stack [] name (fieldsBefore .compact fields rest)
      have hrest := run_fieldsBefore hfields stack [(name, value d)] rest
      have hread : Document.fieldsAsRead value ((name, d) :: fields) =
          Document.fieldsAsRead value fields ++ [(name, value d)] := by
        simp [Document.fieldsAsRead]
      rw [writeBefore, run_of_next hopen, hread, ← hrest, ← hfield]
      rfl

/-! ## Rows of texts -/

/-- The texts after the first, and the end of the row. -/
lemma run_textsBefore (stack : List Frame) (depth : ℕ) (texts : List String) (acc : List Document)
    (rest : List Char) :
    Reader.run ⟨stack, depth + 1, .after (.array acc)⟩
        (textsBefore .compact (texts.map .ofString) rest) =
      (accept stack depth (.array (acc.reverse ++ texts.map fun s : String => .text s))).run rest := by
  induction texts generalizing acc with
  | nil =>
      rw [List.map_nil, List.map_nil, List.append_nil]
      exact run_of_close rfl rest
  | cons s texts ih =>
      have hcomma : Reader.step ⟨stack, depth + 1, .after (.array acc)⟩ ',' =
          .next ⟨.array acc :: stack, depth + 1, .value⟩ := rfl
      have hitem := ih (.text s :: acc)
      rw [List.reverse_cons, List.append_assoc, List.singleton_append] at hitem
      rw [List.map_cons, textsBefore, run_of_next hcomma, List.map_cons, ← hitem]
      exact run_quoteBefore_value (.array acc :: stack) (depth + 1) s _

/-- **A row of texts is read as an array.** -/
lemma reads_texts {depth : ℕ} (hdepth : depth < maxDepth) (texts : List String) :
    Reads depth (.texts (texts.map .ofString)) (.array (texts.map fun s : String => .text s)) := by
  intro stack rest
  have hopen : Reader.step ⟨stack, depth, .value⟩ '[' =
      .next ⟨stack, depth + 1, .firstItem⟩ := by
    simp [Reader.step, isSpace, startValue, openContainer, hdepth]
  cases texts with
  | nil =>
      rw [List.map_nil, writeBefore, run_of_next hopen]
      exact run_of_close rfl rest
  | cons s texts =>
      have hrest := run_textsBefore stack depth texts [.text s] rest
      rw [List.map_cons, writeBefore, run_of_next hopen, List.map_cons]
      rw [List.reverse_singleton, List.singleton_append] at hrest
      rw [← hrest]
      exact run_quoteBefore_value (.array [] :: stack) (depth + 1) s _

/-! ## Legible documents -/

/-- **What is written is read,** as far as the reader's depth reaches. -/
lemma reads_of_legible {room : ℕ} {d : Document} (h : d.Legible room) {depth : ℕ}
    (hdepth : depth + room ≤ maxDepth) : Reads depth d d.reversed := by
  induction h generalizing depth with
  | text room s => exact fun stack rest => run_quoteBefore_value stack depth s rest
  | @object room fields names members ih =>
      rw [Document.reversed, Document.reversedFields_eq]
      exact reads_object (by omega) fun f hf => ih f hf (by omega)

/-- The whole text of a document that is read. -/
lemma first_of_reads {d value : Document} (h : Reads 0 d value) : first (write d) = .ok value := by
  have hread : readFirst (writeBefore .compact d []) = .complete value [] := h [] []
  rw [first, write, String.toList_ofList, hread]

/-- **The text of a legible document gives a document with the same maps.** -/
lemma first_write {d : Document} (h : d.Legible maxDepth) :
    ∃ d', first (write d) = .ok d' ∧ d.SameMaps d' := by
  have hreads : Reads 0 d d.reversed := reads_of_legible h (Nat.zero_add maxDepth).le
  exact ⟨d.reversed, first_of_reads hreads, Document.sameMaps_reversed h⟩

end Json
end ClosedForm
