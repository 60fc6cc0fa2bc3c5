import ClosedForm.Expr.Alike
import ClosedForm.Proofs.Expr.Value

/-!
# Expressions without index names

The name of a summation index does not matter, only which summation an index refers to.  The
*nameless form* of an expression keeps just that: an index is the number of binders between it and
its own, or a name if nothing around binds it.

`alike` compares two expressions through a map from the names of the left to those of the right.
The map says where a name of the left goes and does not look at what that name means on the right, so
it takes an index of the right that an inner summation has captured for one that it has not.

* `nameless_eq_iff_alike` — two expressions have the same nameless form exactly if they are alike
  both ways.
* `alike_iff_of_clear` — one way is enough when the right has nothing to capture with: no summation
  inside another of the same name, and none that binds a free index of the left.
* `evalIn_eq_of_renamed` — the nameless form decides every evaluation, failures included.
* `alike_decides_nameless_unless_captured` collects what `alike` decides, and
  `alike_of_captured_index` shows both captures.
-/

namespace ClosedForm

/-! ## Nameless forms -/

/-- What an index refers to. -/
inductive Reference
  /-- The binder outside of this many others. -/
  | bound (distance : ℕ)
  /-- Nothing around: the index stands for its name. -/
  | free (name : RawText)
deriving DecidableEq

/-- What `name` refers to inside of these binders, innermost first. -/
def Reference.resolve (binders : List RawText) (name : RawText) : Reference :=
  match binders.idxOf? name with
  | some distance => .bound distance
  | none => .free name

/-- An expression whose summations have no index names. -/
inductive Nameless
  | hole
  | param
  | index (reference : Reference)
  | const (value : Int)
  | add (left right : Nameless)
  | mul (left right : Nameless)
  | sum (lower upper body : Nameless)
deriving DecidableEq

namespace Expr

/-- The nameless form of an expression inside of these binders. -/
def namelessIn : Expr → List RawText → Nameless
  | hole, _ => .hole
  | param, _ => .param
  | index name, binders => .index (.resolve binders name)
  | const v, _ => .const v
  | add a b, binders => .add (namelessIn a binders) (namelessIn b binders)
  | mul a b, binders => .mul (namelessIn a binders) (namelessIn b binders)
  | sum lower upper name body, binders =>
    .sum (namelessIn lower binders) (namelessIn upper binders) (namelessIn body (name :: binders))

/-- The nameless form of an expression. -/
def nameless (e : Expr) : Nameless := e.namelessIn []

end Expr

/-- Inside of one more binder on either side, two names refer to the same if both mean the new
binder, or if neither does and they referred to the same before. -/
lemma Reference.resolve_cons_eq_iff (p q m n : RawText) (ps qs : List RawText) :
    resolve (p :: ps) m = resolve (q :: qs) n ↔
      (m = p ∧ n = q) ∨ (m ≠ p ∧ n ≠ q ∧ resolve ps m = resolve qs n) := by
  unfold resolve
  rw [List.idxOf?_cons, List.idxOf?_cons]
  by_cases hm : m = p
  · by_cases hn : n = q
    · simp [hm, hn]
    · have hn' : (q == n) = false := beq_false_of_ne (Ne.symm hn)
      cases qs.idxOf? n <;> simp [hm, hn, hn']
  · have hm' : (p == m) = false := beq_false_of_ne (Ne.symm hm)
    by_cases hn : n = q
    · cases ps.idxOf? m <;> simp [hm, hn, hm']
    · have hn' : (q == n) = false := beq_false_of_ne (Ne.symm hn)
      cases ps.idxOf? m <;> cases qs.idxOf? n <;> simp [hm, hn, hm', hn']

/-! ## The map between names -/

namespace Scope

/-- The map from the names of the right to those of the left. -/
def mirrored (scope : Scope RawText) : Scope RawText :=
  ⟨scope.parameter, scope.bindings.map Prod.swap⟩

@[simp] lemma mirrored_bind (scope : Scope RawText) (m n : RawText) :
    (scope.bind m n).mirrored = scope.mirrored.bind n m := rfl

lemma lookup_mirrored {scope : Scope RawText} {m n : RawText} (hnodup : scope.mirrored.names.Nodup)
    (h : scope.lookup m = some n) : scope.mirrored.lookup n = some m := by
  induction scope using induction_on with
  | root => cases h
  | bind scope p q ih =>
      rw [mirrored_bind, names_bind, List.nodup_cons] at hnodup
      rw [lookup_bind] at h
      rw [mirrored_bind, lookup_bind]
      by_cases hm : m = p
      · rw [if_pos hm, Option.some.injEq] at h
        rw [if_pos h.symm, hm]
      · rw [if_neg hm] at h
        have hn := ih hnodup.2 h
        have hne : n ≠ q := by
          rintro rfl
          rw [(lookup_eq_none_iff scope.mirrored n).2 hnodup.1] at hn
          cases hn
        rw [if_neg hne, hn]

/-- **Two names refer to the same exactly if each is mapped to the other.** -/
lemma resolve_eq_iff_lookup (scope : Scope RawText) (m n : RawText) :
    Reference.resolve scope.names m = Reference.resolve scope.mirrored.names n ↔
      (scope.lookup m).getD m = n ∧ (scope.mirrored.lookup n).getD n = m := by
  induction scope using induction_on with
  | root => simp [names, root, mirrored, lookup, Reference.resolve, eq_comm]
  | bind scope p q ih =>
      rw [mirrored_bind, names_bind, names_bind]
      rw [Reference.resolve_cons_eq_iff, lookup_bind, lookup_bind]
      by_cases hm : m = p
      · by_cases hn : n = q
        · simp [hm, hn]
        · simp [hm, hn, eq_comm]
      · by_cases hn : n = q
        · simp [hm, hn, eq_comm]
        · simpa [hm, hn] using ih

end Scope

namespace Expr

/-- **The same nameless form is being alike both ways.** -/
lemma namelessIn_eq_iff (a b : Expr) (scope : Scope RawText) :
    a.namelessIn scope.names = b.namelessIn scope.mirrored.names ↔
      alikeIn a b scope = true ∧ alikeIn b a scope.mirrored = true := by
  induction a generalizing b scope with
  | hole => cases b <;> simp [namelessIn, alikeIn]
  | param => cases b <;> simp [namelessIn, alikeIn]
  | index m =>
      cases b with
      | index n => simp [namelessIn, alikeIn, Scope.resolve_eq_iff_lookup]
      | _ => simp [namelessIn, alikeIn]
  | const u =>
      cases b with
      | const v =>
          simp only [namelessIn, alikeIn, Nameless.const.injEq, beq_iff_eq]
          exact ⟨fun h => ⟨h, h.symm⟩, And.left⟩
      | _ => simp [namelessIn, alikeIn]
  | add a₁ a₂ ih₁ ih₂ =>
      cases b with
      | add b₁ b₂ =>
          simp only [namelessIn, alikeIn, Nameless.add.injEq, Bool.and_eq_true, ih₁, ih₂]
          tauto
      | _ => simp [namelessIn, alikeIn]
  | mul a₁ a₂ ih₁ ih₂ =>
      cases b with
      | mul b₁ b₂ =>
          simp only [namelessIn, alikeIn, Nameless.mul.injEq, Bool.and_eq_true, ih₁, ih₂]
          tauto
      | _ => simp [namelessIn, alikeIn]
  | sum lower upper m body ihl ihu ihb =>
      cases b with
      | sum lower' upper' n body' =>
          have hbody := ihb body' (scope.bind m n)
          rw [Scope.mirrored_bind, Scope.names_bind, Scope.names_bind] at hbody
          simp only [namelessIn, alikeIn, Nameless.sum.injEq, Bool.and_eq_true, ihl, ihu, hbody]
          tauto
      | _ => simp [namelessIn, alikeIn]

lemma nameless_eq_iff_alike (a b : Expr) :
    a.nameless = b.nameless ↔ a.alike b = true ∧ b.alike a = true :=
  namelessIn_eq_iff a b (Scope.root RawText.empty)

/-! ## Where one way is enough -/

/-- The indices of an expression that no summation around them binds. -/
def freeIndices : Expr → List RawText
  | index name => [name]
  | add a b => freeIndices a ++ freeIndices b
  | mul a b => freeIndices a ++ freeIndices b
  | sum lower upper name body =>
    freeIndices lower ++ freeIndices upper ++ (freeIndices body).filter (· ≠ name)
  | _ => []

/-- No summation lies in the body of another of the same name, and none binds one of `bound`. -/
def Unshadowed : Expr → List RawText → Prop
  | add a b, bound => Unshadowed a bound ∧ Unshadowed b bound
  | mul a b, bound => Unshadowed a bound ∧ Unshadowed b bound
  | sum lower upper name body, bound =>
    name ∉ bound ∧ Unshadowed lower bound ∧ Unshadowed upper bound ∧
      Unshadowed body (name :: bound)
  | _, _ => True

/-- The right expression captures nothing: its summations neither hide each other nor bind a free
index of the left. -/
structure Clear (a b : Expr) : Prop where
  unshadowed : b.Unshadowed []
  free : ∀ n ∈ a.freeIndices, n ∉ b.indices

/-- `Clear` inside of the binders that the scope maps to each other. -/
structure ClearIn (a b : Expr) (scope : Scope RawText) : Prop where
  nodup : scope.mirrored.names.Nodup
  unshadowed : b.Unshadowed scope.mirrored.names
  free : ∀ n ∈ a.freeIndices, n ∉ scope.names → n ∉ b.indices ∧ n ∉ scope.mirrored.names

lemma Clear.clearIn {a b : Expr} (h : Clear a b) : ClearIn a b (Scope.root RawText.empty) :=
  ⟨List.nodup_nil, h.unshadowed, fun n hn _ => ⟨h.free n hn, List.not_mem_nil⟩⟩

lemma ClearIn.body {lower upper body lower' upper' body' : Expr} {m n : RawText}
    {scope : Scope RawText}
    (h : ClearIn (sum lower upper m body) (sum lower' upper' n body') scope) :
    ClearIn body body' (scope.bind m n) := by
  obtain ⟨hn, -, -, hbody⟩ := h.unshadowed
  refine ⟨List.nodup_cons.2 ⟨hn, h.nodup⟩, hbody, fun k hk hkm => ?_⟩
  rw [Scope.names_bind, List.mem_cons, not_or] at hkm
  have hfree : k ∈ (sum lower upper m body).freeIndices := by simp [freeIndices, hk, hkm.1]
  obtain ⟨hindices, hnames⟩ := h.free k hfree hkm.2
  simp only [indices, List.mem_cons, List.mem_append, not_or] at hindices
  rw [Scope.mirrored_bind, Scope.names_bind, List.mem_cons, not_or]
  exact ⟨hindices.2.2, hindices.1, hnames⟩

/-- Parts of expressions that are clear are clear. -/
lemma ClearIn.part {a b a' b' : Expr} {scope : Scope RawText} (h : ClearIn a b scope)
    (hb : b'.Unshadowed scope.mirrored.names) (hfree : a'.freeIndices ⊆ a.freeIndices)
    (hindices : b'.indices ⊆ b.indices) : ClearIn a' b' scope := by
  refine ⟨h.nodup, hb, fun n hn hbound => ?_⟩
  obtain ⟨hnb, hnames⟩ := h.free n (hfree hn) hbound
  exact ⟨fun hmem => hnb (hindices hmem), hnames⟩

lemma lookup_mirrored_of_clearIn {m n : RawText} {scope : Scope RawText}
    (hclear : ClearIn (index m) (index n) scope) (h : (scope.lookup m).getD m = n) :
    (scope.mirrored.lookup n).getD n = m := by
  cases hm : scope.lookup m with
  | some n' =>
      rw [hm, Option.getD_some] at h
      rw [Scope.lookup_mirrored hclear.nodup (h ▸ hm), Option.getD_some]
  | none =>
      rw [hm, Option.getD_none] at h
      subst h
      have hfree : m ∈ (index m).freeIndices := List.mem_singleton.2 rfl
      have hnames := (hclear.free m hfree ((Scope.lookup_eq_none_iff scope m).1 hm)).2
      rw [(Scope.lookup_eq_none_iff scope.mirrored m).2 hnames, Option.getD_none]

/-- **Alike one way is alike the other,** where nothing is captured. -/
lemma alikeIn_mirrored {a b : Expr} {scope : Scope RawText} (hclear : ClearIn a b scope)
    (h : alikeIn a b scope = true) : alikeIn b a scope.mirrored = true := by
  induction a generalizing b scope with
  | hole => cases b <;> simp_all [alikeIn]
  | param => cases b <;> simp_all [alikeIn]
  | const u =>
      cases b with
      | const v =>
          simp only [alikeIn, beq_iff_eq] at h ⊢
          exact h.symm
      | _ => simp [alikeIn] at h
  | index m =>
      cases b with
      | index n =>
          simp only [alikeIn, beq_iff_eq] at h ⊢
          exact lookup_mirrored_of_clearIn hclear h
      | _ => simp [alikeIn] at h
  | add a₁ a₂ ih₁ ih₂ =>
      cases b with
      | add b₁ b₂ =>
          simp only [alikeIn, Bool.and_eq_true] at h ⊢
          obtain ⟨hb₁, hb₂⟩ := hclear.unshadowed
          exact ⟨ih₁ (hclear.part hb₁ (by simp [freeIndices]) (by simp [indices])) h.1,
            ih₂ (hclear.part hb₂ (by simp [freeIndices]) (by simp [indices])) h.2⟩
      | _ => simp [alikeIn] at h
  | mul a₁ a₂ ih₁ ih₂ =>
      cases b with
      | mul b₁ b₂ =>
          simp only [alikeIn, Bool.and_eq_true] at h ⊢
          obtain ⟨hb₁, hb₂⟩ := hclear.unshadowed
          exact ⟨ih₁ (hclear.part hb₁ (by simp [freeIndices]) (by simp [indices])) h.1,
            ih₂ (hclear.part hb₂ (by simp [freeIndices]) (by simp [indices])) h.2⟩
      | _ => simp [alikeIn] at h
  | sum lower upper m body ihl ihu ihb =>
      cases b with
      | sum lower' upper' n body' =>
          simp only [alikeIn, Bool.and_eq_true] at h ⊢
          obtain ⟨⟨hl, hu⟩, hb⟩ := h
          obtain ⟨-, hlower, hupper, -⟩ := hclear.unshadowed
          refine ⟨⟨ihl (hclear.part hlower ?_ ?_) hl, ihu (hclear.part hupper ?_ ?_) hu⟩,
            ihb hclear.body hb⟩
          all_goals intro k hk; simp [freeIndices, indices, hk]
      | _ => simp [alikeIn] at h

lemma alike_iff_of_clear {a b : Expr} (hclear : Clear a b) :
    a.alike b = true ↔ a.nameless = b.nameless := by
  rw [nameless_eq_iff_alike]
  exact ⟨fun h => ⟨h, alikeIn_mirrored hclear.clearIn h⟩, And.left⟩

end Expr

/-! ## Renaming -/

/-- Two scopes give the same to names that refer to the same, each inside of its own binders. -/
structure Scope.Aligned {α : Type} (ps qs : List RawText) (s t : Scope α) : Prop where
  parameter : s.parameter = t.parameter
  index : ∀ m n, Reference.resolve ps m = Reference.resolve qs n → s.index m = t.index n

namespace Scope.Aligned

variable {α : Type} {ps qs : List RawText} {s t : Scope α}

lemma root (p : α) : Aligned [] [] (Scope.root p) (Scope.root p) := by
  refine ⟨rfl, fun m n h => ?_⟩
  have hmn : m = n := by simpa [Reference.resolve] using h
  rw [hmn]

lemma bind (h : Aligned ps qs s t) (p q : RawText) (v : α) :
    Aligned (p :: ps) (q :: qs) (s.bind p v) (t.bind q v) := by
  refine ⟨h.parameter, fun m n hmn => ?_⟩
  rw [Scope.index, Scope.index, lookup_bind, lookup_bind]
  rcases (Reference.resolve_cons_eq_iff p q m n ps qs).1 hmn with ⟨hm, hn⟩ | ⟨hm, hn, hrest⟩
  · rw [if_pos hm, if_pos hn]
  · rw [if_neg hm, if_neg hn]
    exact h.index m n hrest

end Scope.Aligned

namespace Expr

/-- The right expression is the left one with its indices renamed, inside of these binders of either
side. -/
inductive Renamed : List RawText → List RawText → Expr → Expr → Prop
  | hole {ps qs : List RawText} : Renamed ps qs hole hole
  | param {ps qs : List RawText} : Renamed ps qs param param
  | index {ps qs : List RawText} {m n : RawText}
    (h : Reference.resolve ps m = Reference.resolve qs n) : Renamed ps qs (index m) (index n)
  | const {ps qs : List RawText} {v : Int} : Renamed ps qs (const v) (const v)
  | add {ps qs : List RawText} {a b a' b' : Expr} (ha : Renamed ps qs a a')
    (hb : Renamed ps qs b b') : Renamed ps qs (add a b) (add a' b')
  | mul {ps qs : List RawText} {a b a' b' : Expr} (ha : Renamed ps qs a a')
    (hb : Renamed ps qs b b') : Renamed ps qs (mul a b) (mul a' b')
  | sum {ps qs : List RawText} {lower upper body lower' upper' body' : Expr} {m n : RawText}
    (hlower : Renamed ps qs lower lower') (hupper : Renamed ps qs upper upper')
    (hbody : Renamed (m :: ps) (n :: qs) body body') :
    Renamed ps qs (sum lower upper m body) (sum lower' upper' n body')

/-- The same nameless form leaves nothing but a renaming. -/
lemma renamed_of_namelessIn_eq {a b : Expr} {ps qs : List RawText}
    (h : a.namelessIn ps = b.namelessIn qs) : Renamed ps qs a b := by
  induction a generalizing b ps qs with
  | hole =>
      cases b with
      | hole => exact .hole
      | _ => cases h
  | param =>
      cases b with
      | param => exact .param
      | _ => cases h
  | index m =>
      cases b with
      | index n => exact .index (Nameless.index.inj h)
      | _ => cases h
  | const u =>
      cases b with
      | const v => exact Nameless.const.inj h ▸ .const
      | _ => cases h
  | add a₁ a₂ ih₁ ih₂ =>
      cases b with
      | add b₁ b₂ =>
          obtain ⟨h₁, h₂⟩ := Nameless.add.inj h
          exact .add (ih₁ h₁) (ih₂ h₂)
      | _ => cases h
  | mul a₁ a₂ ih₁ ih₂ =>
      cases b with
      | mul b₁ b₂ =>
          obtain ⟨h₁, h₂⟩ := Nameless.mul.inj h
          exact .mul (ih₁ h₁) (ih₂ h₂)
      | _ => cases h
  | sum lower upper m body ihl ihu ihb =>
      cases b with
      | sum lower' upper' n body' =>
          obtain ⟨hl, hu, hb⟩ := Nameless.sum.inj h
          exact .sum (ihl hl) (ihu hu) (ihb hb)
      | _ => cases h

lemma withBoth_congr {a b a' b' : Expr} {s t : Scope Int}
    {next next' : Int → Int → Budget → Except Error (Int × Budget)} (ha : evalIn a s = evalIn a' t)
    (hb : evalIn b s = evalIn b' t) (hnext : next = next') (budget : Budget) :
    withBoth a b s next budget = withBoth a' b' t next' budget := by
  simp only [withBoth, ha, hb, hnext]

lemma sumOver_congr {m n : RawText} {body body' : Expr} {s t : Scope Int}
    (hterm : ∀ k, evalIn body (s.bind m k) = evalIn body' (t.bind n k)) :
    sumOver m body s = sumOver n body' t := by
  funext u v budget
  simp only [sumOver, hterm]

/-- **A renaming changes no evaluation,** under any budget and failures included. -/
lemma evalIn_eq_of_renamed {a b : Expr} {ps qs : List RawText} {s t : Scope Int}
    (h : Renamed ps qs a b) (hst : Scope.Aligned ps qs s t) : evalIn a s = evalIn b t := by
  induction h generalizing s t with
  | hole => rfl
  | param =>
      funext budget
      rw [evalIn_param, evalIn_param, hst.parameter]
  | index hmn =>
      funext budget
      rw [evalIn_index, evalIn_index, hst.index _ _ hmn]
  | const => rfl
  | add _ _ iha ihb =>
      funext budget
      rw [evalIn_add, evalIn_add, withBoth_congr (iha hst) (ihb hst) rfl]
  | mul _ _ iha ihb =>
      funext budget
      rw [evalIn_mul, evalIn_mul, withBoth_congr (iha hst) (ihb hst) rfl]
  | @sum ps qs lower upper body lower' upper' body' m n _ _ _ ihl ihu ihb =>
      have hterm (k : Int) : evalIn body (s.bind m k) = evalIn body' (t.bind n k) :=
        ihb (hst.bind m n k)
      funext budget
      rw [evalIn_sum, evalIn_sum, withBoth_congr (ihl hst) (ihu hst) (sumOver_congr hterm)]

lemma evaluate_eq_of_nameless_eq {a b : Expr} (h : a.nameless = b.nameless) (n : Int) :
    a.evaluate n = b.evaluate n := by
  have hrenamed : Renamed [] [] a b := renamed_of_namelessIn_eq h
  rw [evaluate, evaluate, value, value, evalIn_eq_of_renamed hrenamed (.root n)]

/-- **What `alike` decides.**  Having the same nameless form is being alike both ways; one way is
enough where the right captures nothing, and there `alike` is symmetric.  Expressions with the same
nameless form have the same value at every point, or fail there in the same way. -/
theorem alike_decides_nameless_unless_captured (a b : Expr) :
    (a.nameless = b.nameless ↔ a.alike b = true ∧ b.alike a = true) ∧
      (Clear a b → (a.alike b = true ↔ a.nameless = b.nameless)) ∧
      (Clear a b → Clear b a → a.alike b = b.alike a) ∧
      (a.nameless = b.nameless → ∀ n : Int, a.evaluate n = b.evaluate n) := by
  refine ⟨nameless_eq_iff_alike a b, alike_iff_of_clear, fun hab hba => ?_,
    evaluate_eq_of_nameless_eq⟩
  rw [Bool.eq_iff_iff, alike_iff_of_clear hab, alike_iff_of_clear hba, eq_comm]

/-- The sum of an index that hides another of its name. -/
def shadowingSum : Expr :=
  .sum (.const 1) .param "i" (.sum (.const 1) (.index "i") "i" (.index "i"))

/-- The same with two names. -/
def renamedSum : Expr :=
  .sum (.const 1) .param "j" (.sum (.const 1) (.index "j") "k" (.index "k"))

/-- The sum of the outer index over both ranges. -/
def outerIndexSum : Expr :=
  .sum (.const 1) .param "i" (.sum (.const 1) (.const 2) "j" (.index "i"))

/-- Shadowing on the left does no harm, and without any the two sides can change places. -/
theorem evaluate_shadowingSum_eq :
    Clear shadowingSum renamedSum ∧ shadowingSum.nameless = renamedSum.nameless ∧
      (∀ n : Int, shadowingSum.evaluate n = renamedSum.evaluate n) ∧
      Clear outerIndexSum renamedSum ∧ Clear renamedSum outerIndexSum ∧
      outerIndexSum.alike renamedSum = renamedSum.alike outerIndexSum := by
  have hrenamed : renamedSum.Unshadowed [] := by simp [renamedSum, Unshadowed, RawText.ofString]
  have houter : outerIndexSum.Unshadowed [] := by simp [outerIndexSum, Unshadowed, RawText.ofString]
  have hclear : Clear shadowingSum renamedSum := ⟨hrenamed, by simp [shadowingSum, freeIndices]⟩
  have hclear' : Clear outerIndexSum renamedSum := ⟨hrenamed, by decide⟩
  have hclear'' : Clear renamedSum outerIndexSum := ⟨houter, by decide⟩
  obtain ⟨-, hiff, -, hvalue⟩ := alike_decides_nameless_unless_captured shadowingSum renamedSum
  have hnameless := (hiff hclear).1 (by decide)
  refine ⟨hclear, hnameless, hvalue hnameless, hclear', hclear'', ?_⟩
  exact (alike_decides_nameless_unless_captured outerIndexSum renamedSum).2.2.1 hclear' hclear''

/-- The same with both indices of one name, so that the inner one captures the index. -/
def capturedIndexSum : Expr :=
  .sum (.const 1) .param "k" (.sum (.const 1) (.const 2) "k" (.index "k"))

/-- A sum of an index that nothing binds. -/
def freeIndexSum : Expr := .sum (.const 1) .param "i" (.index "j")

/-- The same with a summation that binds the index. -/
def boundIndexSum : Expr := .sum (.const 1) .param "j" (.index "j")

/-- **Both captures go unnoticed.**  An expression is alike another one whose inner summation has
captured an outer index, or whose summation has captured a free one.  The nameless forms differ, the
values differ, and `alike` is not symmetric there. -/
theorem alike_of_captured_index :
    (outerIndexSum.alike capturedIndexSum = true ∧ capturedIndexSum.alike outerIndexSum = false ∧
      outerIndexSum.nameless ≠ capturedIndexSum.nameless ∧
      outerIndexSum.evaluate 3 = .ok 12 ∧ capturedIndexSum.evaluate 3 = .ok 9) ∧
    (freeIndexSum.alike boundIndexSum = true ∧ boundIndexSum.alike freeIndexSum = false ∧
      freeIndexSum.nameless ≠ boundIndexSum.nameless ∧
      freeIndexSum.evaluate 3 = .error (.within (.atIndex "j") (.sentinel .unboundIndex)) ∧
      boundIndexSum.evaluate 3 = .ok 6) := by
  refine ⟨⟨?_, ?_, ?_, rfl, rfl⟩, ?_, ?_, ?_, rfl, rfl⟩
  all_goals decide

end Expr
end ClosedForm
