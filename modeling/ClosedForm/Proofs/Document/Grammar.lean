import ClosedForm.Document.Expression
import ClosedForm.Proofs.Failure

/-!
# The grammar of expression documents

`Fields.expression` decodes an object with a scope of the index names that may be used, and stops at
the first thing that is missing, ill-typed or unbound.  `Derives` says the same as a grammar: which
objects stand for which expressions inside of which binders.  Only the fields of its type are looked
at in an object; what else it has does not matter.

* `expression_eq_ok_iff` — **the decoder accepts exactly what the grammar derives,** and gives the
  derived expression.
* `scoped_of_derives`, `mentions_ne_empty_of_derives` — a derived expression has no hole, no unbound
  index and no empty name.
* `ofDocument_accepts_iff_derives` — decoded expressions have a value everywhere, and only limits
  stop an estimate, an evaluation or a simplification of them.
-/

namespace ClosedForm

/-! ## The grammar -/

namespace Fields

/-- The object says that it has this type. -/
def HasType (fields : Fields) (type : String) : Prop :=
  ∃ t, fields.get? "type" = some (.text t) ∧ t.shown = type

/-- The field holds this name, which is not empty. -/
def HasName (fields : Fields) (field : String) (name : RawText) : Prop :=
  fields.get? field = some (.text name) ∧ name ≠ .empty

/-- **The grammar of expression documents.** -/
inductive Derives : List RawText → Fields → Expr → Prop
  | param {bound : List RawText} {fields : Fields} (type : fields.HasType "param") :
    Derives bound fields .param
  | index {bound : List RawText} {fields : Fields} {name : RawText} (type : fields.HasType "index")
    (hname : fields.HasName "name" name) (hbound : name ∈ bound) :
    Derives bound fields (.index name)
  | const {bound : List RawText} {fields : Fields} {d : Document} {v : Int}
    (type : fields.HasType "const") (hvalue : fields.get? "value" = some d)
    (hinteger : d.toInteger = .ok v) : Derives bound fields (.const v)
  | add {bound : List RawText} {fields left right : Fields} {a b : Expr}
    (type : fields.HasType "add") (hleft : fields.get? "left" = some (.object left))
    (hright : fields.get? "right" = some (.object right)) (ha : Derives bound left a)
    (hb : Derives bound right b) : Derives bound fields (.add a b)
  | mul {bound : List RawText} {fields left right : Fields} {a b : Expr}
    (type : fields.HasType "mul") (hleft : fields.get? "left" = some (.object left))
    (hright : fields.get? "right" = some (.object right)) (ha : Derives bound left a)
    (hb : Derives bound right b) : Derives bound fields (.mul a b)
  | sum {bound : List RawText} {fields lower upper body : Fields} {l u b : Expr} {name : RawText}
    (type : fields.HasType "sum") (hname : fields.HasName "index" name)
    (hlower : fields.get? "from" = some (.object lower))
    (hupper : fields.get? "to" = some (.object upper))
    (hbody : fields.get? "body" = some (.object body)) (hl : Derives bound lower l)
    (hu : Derives bound upper u) (hb : Derives (name :: bound) body b) :
    Derives bound fields (.sum l u name b)

/-! ## Decoding one field -/

lemma type_eq_ok_iff (fields : Fields) (type : String) :
    fields.type = .ok type ↔ fields.HasType type ∧ type ≠ "" := by
  unfold Fields.type HasType
  cases h : fields.get? "type" with
  | none => simp
  | some d =>
      cases d with
      | text t =>
          by_cases ht : t.shown = ""
          · simp only [ht, if_true, reduceCtorEq, Option.some.injEq, Document.text.injEq,
              exists_eq_left', false_iff, not_and, not_not]
            exact Eq.symm
          · simp only [ht, if_false, Except.ok.injEq, Option.some.injEq, Document.text.injEq,
              exists_eq_left', iff_self_and]
            rintro rfl
            exact ht
      | _ => simp

lemma name_eq_ok_iff (fields : Fields) (type field : String) (name : RawText) :
    fields.name type field = .ok name ↔ fields.HasName field name := by
  unfold Fields.name HasName
  cases h : fields.get? field with
  | none => simp
  | some d =>
      cases d with
      | text t =>
          by_cases ht : t = .empty
          · simp only [ht, if_true, reduceCtorEq, Option.some.injEq, Document.text.injEq, false_iff,
              not_and, not_not]
            exact Eq.symm
          · simp only [ht, if_false, Except.ok.injEq, Option.some.injEq, Document.text.injEq,
              iff_self_and]
            rintro rfl
            exact ht
      | _ => simp

lemma mapError_eq_ok_iff {ε ε' α : Type} (f : ε → ε') (x : Except ε α) (a : α) :
    x.mapError f = .ok a ↔ x = .ok a := by
  cases x <;> simp [Except.mapError]

lemma child_eq_ok_iff (fields : Fields) (type field : String) (decode : Fields → Except Error Expr)
    (e : Expr) :
    fields.child type field (fun inner _ => decode inner) = .ok e ↔
      ∃ inner, fields.get? field = some (.object inner) ∧ decode inner = .ok e := by
  unfold child
  split <;> rename_i h
  · simp [h]
  · simp [h, mapError_eq_ok_iff]
  · rename_i hother
    constructor
    · intro h
      cases h
    · rintro ⟨inner, hinner, -⟩
      exact absurd (Option.some.inj (h.symm.trans hinner)) (hother inner)

end Fields

lemma Scope.index_eq_ok_iff (scope : Scope Unit) (name : RawText) :
    scope.index name = .ok () ↔ name ∈ scope.names := by
  unfold Scope.index
  cases h : scope.lookup name with
  | none => simpa using (Scope.lookup_eq_none_iff scope name).1 h
  | some v =>
      simp only [true_iff]
      by_contra hn
      rw [(Scope.lookup_eq_none_iff scope name).2 hn] at h
      cases h

/-! ## Decoding an object -/

namespace Fields

/-- Sums and products decode their operands in the same way. -/
lemma exists_operands_of_eq_ok {fields : Fields} {type : String} {scope : Scope Unit}
    {node : Expr → Expr → Expr} {e : Expr}
    (h : (do
      let a ← fields.child type "left" fun inner _ => inner.expression scope
      let b ← fields.child type "right" fun inner _ => inner.expression scope
      return node a b) = .ok e) :
    ∃ (left right : Fields) (a b : Expr), fields.get? "left" = some (.object left) ∧
      fields.get? "right" = some (.object right) ∧ left.expression scope = .ok a ∧
      right.expression scope = .ok b ∧ e = node a b := by
  obtain ⟨a, ha, h⟩ := exists_of_bind_eq_ok h
  obtain ⟨b, hb, h⟩ := exists_of_bind_eq_ok h
  cases h
  obtain ⟨left, hleft, ha⟩ := (child_eq_ok_iff ..).1 ha
  obtain ⟨right, hright, hb⟩ := (child_eq_ok_iff ..).1 hb
  exact ⟨left, right, a, b, hleft, hright, ha, hb, rfl⟩

/-- What the decoder accepts is derivable. -/
lemma derives_of_expression_eq_ok {fields : Fields} {scope : Scope Unit} {e : Expr}
    (h : fields.expression scope = .ok e) : Derives scope.names fields e := by
  -- The recursion of the decoder: any smaller object in the same scope, or under one more name.
  induction fields, scope using Fields.expression.induct generalizing e with
  | _ fields scope ih ihbody =>
      rw [Fields.expression] at h
      obtain ⟨type, htype, h⟩ := exists_of_bind_eq_ok h
      have htype := ((type_eq_ok_iff fields type).1 htype).1
      split at h
      · cases h
        exact .param htype
      · obtain ⟨name, hname, h⟩ := exists_of_bind_eq_ok h
        obtain ⟨_, hbound, h⟩ := exists_of_bind_eq_ok h
        cases h
        exact .index htype ((name_eq_ok_iff ..).1 hname) ((Scope.index_eq_ok_iff ..).1 hbound)
      · split at h
        · cases h
        · rename_i d hd
          obtain ⟨v, hv, h⟩ := exists_of_bind_eq_ok h
          cases h
          exact .const htype hd ((mapError_eq_ok_iff ..).1 hv)
      · obtain ⟨left, right, a, b, hleft, hright, ha, hb, rfl⟩ := exists_operands_of_eq_ok h
        exact .add htype hleft hright (ih left (sizeOf_get?_lt hleft) ha)
          (ih right (sizeOf_get?_lt hright) hb)
      · obtain ⟨left, right, a, b, hleft, hright, ha, hb, rfl⟩ := exists_operands_of_eq_ok h
        exact .mul htype hleft hright (ih left (sizeOf_get?_lt hleft) ha)
          (ih right (sizeOf_get?_lt hright) hb)
      · obtain ⟨name, hname, h⟩ := exists_of_bind_eq_ok h
        obtain ⟨l, hl, h⟩ := exists_of_bind_eq_ok h
        obtain ⟨u, hu, h⟩ := exists_of_bind_eq_ok h
        obtain ⟨b, hb, h⟩ := exists_of_bind_eq_ok h
        cases h
        obtain ⟨lower, hlower, hl⟩ := (child_eq_ok_iff ..).1 hl
        obtain ⟨upper, hupper, hu⟩ := (child_eq_ok_iff ..).1 hu
        obtain ⟨body, hbody, hb⟩ := (child_eq_ok_iff ..).1 hb
        exact .sum htype ((name_eq_ok_iff ..).1 hname) hlower hupper hbody
          (ih lower (sizeOf_get?_lt hlower) hl) (ih upper (sizeOf_get?_lt hupper) hu)
          (ihbody name body (sizeOf_get?_lt hbody) hb)
      · cases h

lemma child_expression_eq_ok {fields inner : Fields} {field : String} {scope : Scope Unit}
    {e : Expr} (type : String) (h : fields.get? field = some (.object inner))
    (he : inner.expression scope = .ok e) :
    fields.child type field (fun inner _ => inner.expression scope) = .ok e :=
  (child_eq_ok_iff fields type field (·.expression scope) e).2 ⟨inner, h, he⟩

lemma expression_eq_ok_of_derives {fields : Fields} {bound : List RawText} {e : Expr}
    (h : Derives bound fields e) {scope : Scope Unit} (hscope : scope.names = bound) :
    fields.expression scope = .ok e := by
  induction h generalizing scope with
  | param type =>
      have htype := (type_eq_ok_iff ..).2 ⟨type, by decide⟩
      rw [Fields.expression, htype]
      rfl
  | index type hname hbound =>
      have htype := (type_eq_ok_iff ..).2 ⟨type, by decide⟩
      have hname := (name_eq_ok_iff _ "index" _ _).2 hname
      have hindex := (Scope.index_eq_ok_iff scope _).2 (hscope ▸ hbound)
      rw [Fields.expression, htype]
      simp only [bind, Except.bind, hname, hindex]
      rfl
  | const type hvalue hinteger =>
      have htype := (type_eq_ok_iff ..).2 ⟨type, by decide⟩
      rw [Fields.expression, htype]
      simp only [bind, Except.bind, hvalue, hinteger]
      rfl
  | add type hleft hright _ _ iha ihb =>
      have htype := (type_eq_ok_iff ..).2 ⟨type, by decide⟩
      have ha := child_expression_eq_ok "add" hleft (iha hscope)
      have hb := child_expression_eq_ok "add" hright (ihb hscope)
      rw [Fields.expression, htype]
      simp only [bind, Except.bind, ha, hb]
      rfl
  | mul type hleft hright _ _ iha ihb =>
      have htype := (type_eq_ok_iff ..).2 ⟨type, by decide⟩
      have ha := child_expression_eq_ok "mul" hleft (iha hscope)
      have hb := child_expression_eq_ok "mul" hright (ihb hscope)
      rw [Fields.expression, htype]
      simp only [bind, Except.bind, ha, hb]
      rfl
  | sum type hname hlower hupper hbody _ _ _ ihl ihu ihb =>
      subst hscope
      have htype := (type_eq_ok_iff ..).2 ⟨type, by decide⟩
      have hname := (name_eq_ok_iff _ "sum" _ _).2 hname
      have hl := child_expression_eq_ok "sum" hlower (ihl rfl)
      have hu := child_expression_eq_ok "sum" hupper (ihu rfl)
      have hb := child_expression_eq_ok "sum" hbody (ihb (Scope.names_bind scope _ ()))
      rw [Fields.expression, htype]
      simp only [bind, Except.bind, hname, hl, hu, hb]
      rfl

/-- **The decoder accepts exactly what the grammar derives.** -/
lemma expression_eq_ok_iff (fields : Fields) (scope : Scope Unit) (e : Expr) :
    fields.expression scope = .ok e ↔ Derives scope.names fields e :=
  ⟨derives_of_expression_eq_ok, fun h => expression_eq_ok_of_derives h rfl⟩

end Fields

lemma Expr.ofDocument_eq_ok_iff (d : Document) (e : Expr) :
    Expr.ofDocument d = .ok e ↔ ∃ fields, d = .object fields ∧ Fields.Derives [] fields e := by
  cases d with
  | object fields =>
      simp only [Document.object.injEq, exists_eq_left']
      exact Fields.expression_eq_ok_iff fields (Scope.root ()) e
  | _ => simp [Expr.ofDocument, Document.fields?, Expr.ofFields?]

/-! ## Derived expressions -/

/-- The index names that stand anywhere in an expression. -/
def Expr.mentions : Expr → List RawText
  | index name => [name]
  | add a b => mentions a ++ mentions b
  | mul a b => mentions a ++ mentions b
  | sum lower upper name body => name :: (mentions lower ++ mentions upper ++ mentions body)
  | _ => []

namespace Expr

variable {bound : List RawText} {fields : Fields} {e : Expr}

lemma scoped_of_derives (h : Fields.Derives bound fields e) : e.Scoped bound := by
  induction h with
  | param => trivial
  | index _ _ hbound => exact hbound
  | const => trivial
  | add _ _ _ _ _ iha ihb => exact ⟨iha, ihb⟩
  | mul _ _ _ _ _ iha ihb => exact ⟨iha, ihb⟩
  | sum _ _ _ _ _ _ _ _ ihl ihu ihb => exact ⟨ihl, ihu, ihb⟩

lemma mentions_ne_empty_of_derives (h : Fields.Derives bound fields e) :
    ∀ n ∈ e.mentions, n ≠ .empty := by
  induction h with
  | param => simp [mentions]
  | index _ hname _ => simpa [mentions] using hname.2
  | const => simp [mentions]
  | add _ _ _ _ _ iha ihb => exact List.forall_mem_append.2 ⟨iha, ihb⟩
  | mul _ _ _ _ _ iha ihb => exact List.forall_mem_append.2 ⟨iha, ihb⟩
  | sum _ hname _ _ _ _ _ _ ihl ihu ihb =>
      refine List.forall_mem_cons.2 ⟨hname.2, List.forall_mem_append.2 ⟨?_, ihb⟩⟩
      exact List.forall_mem_append.2 ⟨ihl, ihu⟩

/-- **Decoding accepts exactly the well-scoped documents, and what it accepts fails by limits only.**
A document is decoded to the expression that the grammar derives from it outside every binder, and
refused if there is none.  A decoded expression has a value at every point; its estimate can only
exceed the degree limit, its evaluation under a budget the term limit, its simplification one of the
two. -/
theorem ofDocument_accepts_iff_derives :
    (∀ (d : Document) (e : Expr),
      ofDocument d = .ok e ↔ ∃ fields, d = .object fields ∧ Fields.Derives [] fields e) ∧
    ∀ (d : Document) (e : Expr), ofDocument d = .ok e →
      (∀ n : Int, ∃ v, e.evaluate n = .ok v) ∧
      (∀ err, e.degree = .error err → err.OnlyWraps .degreeLimit) ∧
      (∀ (n : Int) (limit : Int64) (err : Error), e.evaluateWithin n limit = .error err →
        err.OnlyWraps .termLimit) ∧
      ∀ (s : Simplifier) (err : Error), s.simplify e = .error err →
        err.OnlyWraps .degreeLimit ∨ err.OnlyWraps .termLimit := by
  refine ⟨ofDocument_eq_ok_iff, fun d e h => ?_⟩
  obtain ⟨fields, -, hderives⟩ := (ofDocument_eq_ok_iff d e).1 h
  have hscoped : e.Scoped [] := scoped_of_derives hderives
  refine ⟨fun n => ⟨_, evaluate_eq_denote hscoped n⟩, ?_, ?_, ?_⟩
  · exact fun err => onlyWraps_of_degree_eq_error hscoped
  · exact fun n limit err => onlyWraps_of_evaluateWithin_eq_error hscoped
  · exact fun s err => Simplifier.onlyWraps_of_simplify_eq_error hscoped

/-- The object of the sum of `i` over `i ≤ i ≤ x`: its bound is outside the scope of its index. -/
def innerFields : Fields :=
  [("type", .text "sum"), ("index", .text "i"),
    ("from", .object [("type", .text "index"), ("name", .text "i")]),
    ("to", .object [("type", .text "param")]),
    ("body", .object [("type", .text "index"), ("name", .text "i")])]

/-- The object of the sum of the former over `1 ≤ i ≤ x`, with a number for the bound and a field
that no type has. -/
def outerFields : Fields :=
  [("type", .text "sum"), ("note", .null), ("index", .text "i"),
    ("from", .object [("type", .text "const"), ("value", .integer 1)]),
    ("to", .object [("type", .text "param")]), ("body", .object innerFields)]

/-- A document in which an index hides another is accepted, and only a limit stops its evaluation:
one term is too few. -/
theorem ofDocument_outerFields :
    ∃ e err, ofDocument (.object outerFields) = .ok e ∧ (∃ v, e.evaluate (-7) = .ok v) ∧
      e.evaluateWithin 2 1 = .error err ∧ err.OnlyWraps .termLimit := by
  have hi : RawText.ofString "i" ≠ .empty := by decide
  have hinner : Fields.Derives ["i"] innerFields (.sum (.index "i") .param "i" (.index "i")) :=
    .sum ⟨_, rfl, rfl⟩ ⟨rfl, hi⟩ rfl rfl rfl (.index ⟨_, rfl, rfl⟩ ⟨rfl, hi⟩ (by simp))
      (.param ⟨_, rfl, rfl⟩) (.index ⟨_, rfl, rfl⟩ ⟨rfl, hi⟩ (by simp))
  have houter : Fields.Derives [] outerFields
      (.sum (.const 1) .param "i" (.sum (.index "i") .param "i" (.index "i"))) :=
    .sum ⟨_, rfl, rfl⟩ ⟨rfl, hi⟩ rfl rfl rfl (.const ⟨_, rfl, rfl⟩ rfl rfl) (.param ⟨_, rfl, rfl⟩)
      hinner
  have hok := (ofDocument_accepts_iff_derives.1 (.object outerFields) _).2 ⟨_, rfl, houter⟩
  obtain ⟨hvalue, -, hterms, -⟩ := ofDocument_accepts_iff_derives.2 _ _ hok
  exact ⟨_, _, hok, hvalue (-7), rfl, hterms 2 1 _ rfl⟩

end Expr
end ClosedForm
