import ClosedForm.Proofs.Failure
import ClosedForm.Yaml.Value

/-!
# Texts for keys

A YAML mapping may have anything for a key, at any depth, and an object has names.  Reading a document
therefore goes through a value with texts for keys.  That step looks at every entry of every mapping and
of every sequence; a level that it left as it was would only show on deep documents.  The inverse is the
inclusion `toValue` of the values with texts for keys among all values: what the step gives is included
as the value that it was given.

* `exists_keyIn_of_textKeyed_eq_error` — the step fails by a key only, at any depth.
* `textKeyed_toValue`, `toValue_of_textKeyed_eq_ok`, `textKeyed_eq_ok_iff` — what it gives.
* `exists_textKeyed_eq_ok_iff` — **it succeeds exactly if every key is a text.**
-/

namespace ClosedForm
namespace Yaml

/-! ## Keys -/

namespace Value

/-- The value is a key of a mapping, at any depth. -/
inductive KeyIn (k : Value) : Value → Prop
  | here {entries : List (Value × Value)} {v : Value} (h : (k, v) ∈ entries) :
    KeyIn k (.mapping entries)
  | entry {entries : List (Value × Value)} {k' v : Value} (h : (k', v) ∈ entries) (hk : KeyIn k v) :
    KeyIn k (.mapping entries)
  | item {items : List Value} {v : Value} (h : v ∈ items) (hk : KeyIn k v) : KeyIn k (.sequence items)

lemma not_keyIn_of_isCollection_eq_false {k v : Value} (h : v.isCollection = false) :
    ¬k.KeyIn v := by
  rintro (_ | _ | _) <;> cases h

/-- The value is a text. -/
def IsText (v : Value) : Prop := ∃ t, v = .text t

/-- Induction on a value from its items and the values of its entries.  Keys are not taken apart. -/
lemma induction_on {motive : Value → Prop} (v : Value)
    (scalar : ∀ v, v.isCollection = false → motive v)
    (sequence : ∀ items, (∀ v ∈ items, motive v) → motive (.sequence items))
    (mapping : ∀ entries, (∀ k v, (k, v) ∈ entries → motive v) → motive (.mapping entries)) :
    motive v := by
  match v with
  | .sequence items => exact sequence items fun v h => induction_on v scalar sequence mapping
  | .mapping entries => exact mapping entries fun k v h => induction_on v scalar sequence mapping
  | .null => exact scalar _ rfl
  | .bool _ => exact scalar _ rfl
  | .text _ => exact scalar _ rfl
  | .double _ => exact scalar _ rfl
  | .integer _ => exact scalar _ rfl
  | .natural _ => exact scalar _ rfl
termination_by sizeOf v
decreasing_by
  · have := List.sizeOf_lt_of_mem h
    simp only [Value.sequence.sizeOf_spec]
    omega
  · have := List.sizeOf_lt_of_mem h
    simp only [Value.mapping.sizeOf_spec, Prod.mk.sizeOf_spec] at this ⊢
    omega

/-! ## How the step fails -/

lemma exists_of_textKeyedItems_eq_error {items : List Value} {err : Error}
    (h : textKeyedItems items = .error err) : ∃ v ∈ items, v.textKeyed = .error err := by
  induction items with
  | nil => cases h
  | cons v vs ih =>
      rw [textKeyedItems] at h
      rcases eq_error_of_bind_eq_error h with hv | ⟨t, -, h⟩
      · exact ⟨v, List.mem_cons_self, hv⟩
      rcases eq_error_of_bind_eq_error h with hvs | ⟨ts, -, h⟩
      · obtain ⟨v', hmem, hv'⟩ := ih hvs
        exact ⟨v', List.mem_cons_of_mem v hmem, hv'⟩
      · cases h

/-- The entries fail by a key of their own or by what one of their values fails with. -/
lemma exists_of_textKeyedEntries_eq_error {entries : List (Value × Value)} {err : Error}
    (h : textKeyedEntries entries = .error err) :
    ∃ k v, (k, v) ∈ entries ∧
      ((¬k.IsText ∧ err = .fault (.keyNotText k.shown)) ∨ v.textKeyed = .error err) := by
  induction entries with
  | nil => cases h
  | cons e es ih =>
      obtain ⟨k, v⟩ := e
      cases k with
      | text k =>
          rw [textKeyedEntries] at h
          rcases eq_error_of_bind_eq_error h with hv | ⟨t, -, h⟩
          · exact ⟨_, v, List.mem_cons_self, .inr hv⟩
          rcases eq_error_of_bind_eq_error h with hes | ⟨ts, -, h⟩
          · obtain ⟨k', v', hmem, hcause⟩ := ih hes
            exact ⟨k', v', List.mem_cons_of_mem _ hmem, hcause⟩
          · cases h
      | _ =>
          cases h
          exact ⟨_, v, List.mem_cons_self, .inl ⟨nofun, rfl⟩⟩

/-- **The step fails by a key only,** which is no text and stands at some depth. -/
lemma exists_keyIn_of_textKeyed_eq_error {v : Value} {err : Error} (h : v.textKeyed = .error err) :
    ∃ k : Value, k.KeyIn v ∧ ¬k.IsText ∧ err = .fault (.keyNotText k.shown) := by
  induction v using induction_on with
  | scalar v hv =>
      cases v with
      | sequence => cases hv
      | mapping => cases hv
      | _ => cases h
  | sequence items ih =>
      rw [textKeyed] at h
      rcases eq_error_of_bind_eq_error h with hitems | ⟨ts, -, h⟩
      · obtain ⟨v, hmem, hv⟩ := exists_of_textKeyedItems_eq_error hitems
        obtain ⟨k, hk, hbad⟩ := ih v hmem hv
        exact ⟨k, .item hmem hk, hbad⟩
      · cases h
  | mapping entries ih =>
      rw [textKeyed] at h
      rcases eq_error_of_bind_eq_error h with hentries | ⟨es, -, h⟩
      · obtain ⟨k, v, hmem, hbad | hv⟩ := exists_of_textKeyedEntries_eq_error hentries
        · exact ⟨k, .here hmem, hbad⟩
        · obtain ⟨k', hk', hbad⟩ := ih k v hmem hv
          exact ⟨k', .entry hmem hk', hbad⟩
      · cases h

end Value

/-! ## What the step gives -/

namespace TextKeyed

mutual

/-- A value with texts for keys is a value. -/
def toValue : TextKeyed → Value
  | null => .null
  | bool b => .bool b
  | text s => .text s
  | double x => .double x
  | integer v => .integer v
  | natural v => .natural v
  | sequence items => .sequence (itemsToValues items)
  | mapping entries => .mapping (entriesToValues entries)

/-- The items of a sequence as values. -/
def itemsToValues : List TextKeyed → List Value
  | [] => []
  | t :: ts => toValue t :: itemsToValues ts

/-- The entries of a mapping as values, their keys too. -/
def entriesToValues : List (RawText × TextKeyed) → List (Value × Value)
  | [] => []
  | (k, t) :: es => (.text k, toValue t) :: entriesToValues es

end

lemma itemsToValues_eq_map (items : List TextKeyed) : itemsToValues items = items.map toValue := by
  induction items with
  | nil => rfl
  | cons t ts ih => rw [itemsToValues, ih, List.map_cons]

lemma entriesToValues_eq_map (entries : List (RawText × TextKeyed)) :
    entriesToValues entries = entries.map fun e => (.text e.1, e.2.toValue) := by
  induction entries with
  | nil => rfl
  | cons e es ih => rw [entriesToValues, ih, List.map_cons]

/-- Induction on a value with texts for keys. -/
lemma induction_on {motive : TextKeyed → Prop} (t : TextKeyed)
    (scalar : ∀ t, t.toValue.isCollection = false → motive t)
    (sequence : ∀ items, (∀ t ∈ items, motive t) → motive (.sequence items))
    (mapping : ∀ entries, (∀ k t, (k, t) ∈ entries → motive t) → motive (.mapping entries)) :
    motive t := by
  match t with
  | .sequence items => exact sequence items fun t h => induction_on t scalar sequence mapping
  | .mapping entries => exact mapping entries fun k t h => induction_on t scalar sequence mapping
  | .null => exact scalar _ rfl
  | .bool _ => exact scalar _ rfl
  | .text _ => exact scalar _ rfl
  | .double _ => exact scalar _ rfl
  | .integer _ => exact scalar _ rfl
  | .natural _ => exact scalar _ rfl
termination_by sizeOf t
decreasing_by
  · have := List.sizeOf_lt_of_mem h
    simp only [TextKeyed.sequence.sizeOf_spec]
    omega
  · have := List.sizeOf_lt_of_mem h
    simp only [TextKeyed.mapping.sizeOf_spec, Prod.mk.sizeOf_spec] at this ⊢
    omega

/-- Every key is a text. -/
lemma isText_of_keyIn_toValue {k : Value} {t : TextKeyed} (h : k.KeyIn t.toValue) : k.IsText := by
  induction t using induction_on with
  | scalar t ht => exact absurd h (Value.not_keyIn_of_isCollection_eq_false ht)
  | sequence items ih =>
      rw [toValue, itemsToValues_eq_map] at h
      cases h with
      | item hmem hk =>
          obtain ⟨t, ht, rfl⟩ := List.mem_map.1 hmem
          exact ih t ht hk
  | mapping entries ih =>
      rw [toValue, entriesToValues_eq_map] at h
      cases h with
      | here hmem =>
          obtain ⟨e, -, he⟩ := List.mem_map.1 hmem
          exact ⟨e.1, (Prod.mk.inj he).1.symm⟩
      | entry hmem hk =>
          obtain ⟨⟨k', t⟩, ht, he⟩ := List.mem_map.1 hmem
          obtain ⟨-, rfl⟩ := Prod.mk.inj he
          exact ih k' t ht hk

lemma textKeyedItems_map_toValue {items : List TextKeyed}
    (h : ∀ t ∈ items, t.toValue.textKeyed = .ok t) :
    Value.textKeyedItems (items.map toValue) = .ok items := by
  induction items with
  | nil => rfl
  | cons t ts ih =>
      obtain ⟨ht, hts⟩ := List.forall_mem_cons.1 h
      rw [List.map_cons, Value.textKeyedItems, ht, ih hts]
      rfl

lemma textKeyedEntries_map_toValue {entries : List (RawText × TextKeyed)}
    (h : ∀ k t, (k, t) ∈ entries → t.toValue.textKeyed = .ok t) :
    Value.textKeyedEntries (entries.map fun e => (.text e.1, e.2.toValue)) = .ok entries := by
  induction entries with
  | nil => rfl
  | cons e es ih =>
      obtain ⟨k, t⟩ := e
      have ht := h k t List.mem_cons_self
      have hes := ih fun k' t' hmem => h k' t' (List.mem_cons_of_mem _ hmem)
      rw [List.map_cons, Value.textKeyedEntries, ht, hes]
      rfl

/-- A value whose keys are texts already is given back. -/
lemma textKeyed_toValue (t : TextKeyed) : t.toValue.textKeyed = .ok t := by
  induction t using induction_on with
  | scalar t ht =>
      cases t with
      | sequence => cases ht
      | mapping => cases ht
      | _ => rfl
  | sequence items ih =>
      rw [toValue, itemsToValues_eq_map, Value.textKeyed, textKeyedItems_map_toValue ih]
      rfl
  | mapping entries ih =>
      rw [toValue, entriesToValues_eq_map, Value.textKeyed, textKeyedEntries_map_toValue ih]
      rfl

end TextKeyed

namespace Value

lemma map_toValue_of_textKeyedItems {items : List Value} {ts : List TextKeyed}
    (h : textKeyedItems items = .ok ts)
    (hitems : ∀ v ∈ items, ∀ t, v.textKeyed = .ok t → t.toValue = v) :
    ts.map TextKeyed.toValue = items := by
  induction items generalizing ts with
  | nil =>
      cases h
      rfl
  | cons v vs ih =>
      obtain ⟨hv, hvs⟩ := List.forall_mem_cons.1 hitems
      rw [textKeyedItems] at h
      obtain ⟨t, ht, h⟩ := exists_of_bind_eq_ok h
      obtain ⟨ts, hts, h⟩ := exists_of_bind_eq_ok h
      cases h
      rw [List.map_cons, hv t ht, ih hts hvs]

lemma map_toValue_of_textKeyedEntries {entries : List (Value × Value)}
    {es : List (RawText × TextKeyed)} (h : textKeyedEntries entries = .ok es)
    (hentries : ∀ k v, (k, v) ∈ entries → ∀ t, v.textKeyed = .ok t → t.toValue = v) :
    (es.map fun e => (.text e.1, e.2.toValue)) = entries := by
  induction entries generalizing es with
  | nil =>
      cases h
      rfl
  | cons e rest ih =>
      obtain ⟨k, v⟩ := e
      cases k with
      | text k =>
          rw [textKeyedEntries] at h
          obtain ⟨t, ht, h⟩ := exists_of_bind_eq_ok h
          obtain ⟨es, hes, h⟩ := exists_of_bind_eq_ok h
          cases h
          have hv := hentries _ v List.mem_cons_self t ht
          have hrest := ih hes fun k' v' hmem => hentries k' v' (List.mem_cons_of_mem _ hmem)
          rw [List.map_cons, hv, hrest]
      | _ => cases h

/-- What the step gives is the value that it was given. -/
lemma toValue_of_textKeyed_eq_ok {v : Value} {t : TextKeyed} (h : v.textKeyed = .ok t) :
    t.toValue = v := by
  induction v using induction_on generalizing t with
  | scalar v hv =>
      cases v with
      | sequence => cases hv
      | mapping => cases hv
      | _ =>
          cases h
          rfl
  | sequence items ih =>
      rw [textKeyed] at h
      obtain ⟨ts, hts, h⟩ := exists_of_bind_eq_ok h
      cases h
      have hitems := map_toValue_of_textKeyedItems hts fun v hv t => ih v hv
      rw [TextKeyed.toValue, TextKeyed.itemsToValues_eq_map, hitems]
  | mapping entries ih =>
      rw [textKeyed] at h
      obtain ⟨es, hes, h⟩ := exists_of_bind_eq_ok h
      cases h
      have hentries := map_toValue_of_textKeyedEntries hes fun k v hv t => ih k v hv
      rw [TextKeyed.toValue, TextKeyed.entriesToValues_eq_map, hentries]

/-- **The step gives the same value,** and gives it whenever there is one. -/
lemma textKeyed_eq_ok_iff (v : Value) (t : TextKeyed) : v.textKeyed = .ok t ↔ t.toValue = v := by
  constructor
  · exact toValue_of_textKeyed_eq_ok
  · rintro rfl
    exact t.textKeyed_toValue

/-- **The step succeeds exactly if every key is a text.** -/
lemma exists_textKeyed_eq_ok_iff (v : Value) :
    (∃ t, v.textKeyed = .ok t) ↔ ∀ k : Value, k.KeyIn v → k.IsText := by
  constructor
  · rintro ⟨t, ht⟩ k hk
    rw [← toValue_of_textKeyed_eq_ok ht] at hk
    exact TextKeyed.isText_of_keyIn_toValue hk
  · intro h
    cases hv : v.textKeyed with
    | ok t => exact ⟨t, rfl⟩
    | error err =>
        obtain ⟨k, hk, hbad, -⟩ := exists_keyIn_of_textKeyed_eq_error hv
        exact absurd (h k hk) hbad

end Value

end Yaml
end ClosedForm
