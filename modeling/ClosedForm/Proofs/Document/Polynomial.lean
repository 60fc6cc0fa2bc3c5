import ClosedForm.Document.Polynomial
import ClosedForm.Proofs.Document.RoundTrip
import ClosedForm.Proofs.Samples

/-!
# Polynomial documents read back

A polynomial describes itself with all its integers as texts.  Its coefficients are a row of texts as
long as the document stays within the program, and an array of texts once it was written and read.
The decoder takes both, and what else is in the object does not matter.

* `DescribedBy` — the fields hold a polynomial's integers as texts, in one form or the other.
* `ofFields_of_describedBy` — **what describes a polynomial is decoded to it.**
* `describedBy_toDocument` — its own document describes it.
* `first_write_toDocument` — **what the text of that document is read as,** which describes it too.
-/

namespace ClosedForm

/-- The texts of integers stand for these integers, whatever the place in which they stand is called. -/
lemma Document.toIntegers_texts (place : ℕ → Setting) (vs : List ℤ) :
    Document.toIntegers place (vs.map fun v => .text (Text.integer v)) = .ok vs := by
  have hitem : ∀ x ∈ vs.zipIdx, ((Document.text (Text.integer x.1)).toInteger.mapError
      (.within (place x.2)) : Except Error ℤ) = .ok x.1 := by
    intro x _
    rw [toInteger_text]
    rfl
  have hitems := mapM_eq_ok hitem
  rw [List.zipIdx_map_fst] at hitems
  rw [toIntegers, List.zipIdx_map, List.mapM_map]
  exact hitems

namespace Poly

/-- The coefficients as texts, the constant term first. -/
def coefficientTexts (p : Poly) : List String := p.coefficients.map Text.integer

/-- The fields hold the divider of the polynomial as a text, and its coefficients as a row or as an array
of texts. -/
structure DescribedBy (p : Poly) (fields : Fields) : Prop where
  divider : fields.get? "divider" = some (.text (Text.integer p.divider))
  coefficients :
    fields.get? "coefficients" = some (.texts (p.coefficientTexts.map .ofString)) ∨
    fields.get? "coefficients" = some (.array (p.coefficientTexts.map fun s : String => .text s))

lemma ofFields_of_describedBy {p : Poly} {fields : Fields} (h : p.DescribedBy fields) :
    ofFields fields = .ok p := by
  have hitems := Document.toIntegers_texts .inCoefficient p.coefficients
  have hp : ofDivider p.coefficients p.divider = .ok p := dif_neg p.divider_ne_zero
  have harray : p.coefficientTexts.map (fun s : String => Document.text s) =
      p.coefficients.map fun c => .text (Text.integer c) := List.map_map
  have hrow : (p.coefficientTexts.map RawText.ofString).map Document.text =
      p.coefficients.map fun c => .text (Text.integer c) := by
    rw [List.map_map]
    exact harray
  have hdivider : dividerOf fields = .ok p.divider := by
    rw [dividerOf, h.divider]
    exact congrArg (Except.mapError _) (Document.toInteger_text p.divider)
  have hcoefficients : coefficientsOf fields = .ok p.coefficients := by
    rw [coefficientsOf]
    rcases h.coefficients with hkey | hkey
    · simp only [hkey, hrow, hitems]
    · simp only [hkey, harray, hitems]
  rw [ofFields, hdivider, hcoefficients]
  exact hp

/-- The document of a polynomial holds the coefficients as a row. -/
lemma describedBy_toDocument (p : Poly) :
    ∃ fields, p.toDocument = .object fields ∧ p.DescribedBy fields := by
  refine ⟨_, rfl, rfl, .inl ?_⟩
  simp [Fields.get?, coefficientTexts]

end Poly

/-- The document of a polynomial as a reader gives it: the last field first, the coefficients as an
array. -/
def Poly.fieldsRead (p : Poly) : Fields :=
  [("divider", .text (Text.integer p.divider)),
    ("coefficients", .array (p.coefficientTexts.map fun s : String => .text s))]

lemma Poly.describedBy_fieldsRead (p : Poly) : p.DescribedBy p.fieldsRead := ⟨rfl, .inr rfl⟩

/-- A row of texts as it is read, which is an array. -/
def Document.rowAsRead : Document → Document
  | texts items => array (items.map text)
  | d => d

lemma Document.rowAsRead_texts (texts : List String) :
    rowAsRead (.texts (texts.map .ofString)) = .array (texts.map fun s : String => .text s) :=
  congrArg array List.map_map

/-- **The text of a polynomial document is read with the coefficients as an array.** -/
lemma Poly.first_write_toDocument (p : Poly) :
    Json.first (Json.write p.toDocument) = .ok (.object p.fieldsRead) := by
  have hdocument : p.toDocument = .object
      [("coefficients", .texts (p.coefficientTexts.map .ofString)),
        ("divider", .text (Text.integer p.divider))] := by
    simp [toDocument, coefficientTexts]
  have hfields : p.fieldsRead = Document.fieldsAsRead Document.rowAsRead
      [("coefficients", .texts (p.coefficientTexts.map .ofString)),
        ("divider", .text (Text.integer p.divider))] := by
    rw [fieldsRead, ← Document.rowAsRead_texts]
    rfl
  apply Json.first_of_reads
  rw [hdocument, hfields]
  refine Json.reads_object (by decide) fun f hf => ?_
  rcases List.mem_pair.1 hf with rfl | rfl
  · rw [Document.rowAsRead_texts]
    exact Json.reads_texts (by decide) p.coefficientTexts
  · exact fun stack rest => Json.run_quoteBefore_value stack 1 (Text.integer p.divider) rest

end ClosedForm
