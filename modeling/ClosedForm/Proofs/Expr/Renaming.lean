import ClosedForm.Proofs.Expr.Nameless
import ClosedForm.Proofs.Refusal

/-!
# Index names do not matter

What an expression means does not depend on how its indices are called.  Expressions with the same
nameless form have the same values, under every limit and failures included, the same degree estimate
and the same closed form, also where an inner summation hides an outer one.

`alike` compares names, so it sees this only where names are unambiguous.  On closed expressions without
shadowing it is an equivalence relation, and it is the right one.

* `weigh_eq_of_renamed` — a renaming changes no estimate.
* `indistinguishable_of_nameless_eq` — **the nameless form decides every interpretation.**
* `clear_of_scoped` — a closed expression has nothing that an unshadowed one could capture.
* `alike_is_alpha_equivalence` collects what `alike` is on closed expressions.
-/

namespace ClosedForm

/-! ## Interpretations under a renaming -/

namespace Expr

/-- **A renaming changes no estimate,** failures included. -/
lemma weigh_eq_of_renamed {a b : Expr} {ps qs : List RawText} {s t : Scope Weight}
    (h : Renamed ps qs a b) (hst : Scope.Aligned ps qs s t) : weigh a s = weigh b t := by
  induction h generalizing s t with
  | hole => rfl
  | param => rw [weigh_param, weigh_param, hst.parameter]
  | index hmn => rw [weigh_index, weigh_index, hst.index _ _ hmn]
  | const => rfl
  | add _ _ iha ihb => rw [weigh_add, weigh_add, iha hst, ihb hst]
  | mul _ _ iha ihb => rw [weigh_mul, weigh_mul, iha hst, ihb hst]
  | @sum ps qs lower upper body lower' upper' body' m n _ _ _ ihl ihu ihb =>
      have hbody (w : Weight) : weigh body (s.bind m w) = weigh body' (t.bind n w) :=
        ihb (hst.bind m n w)
      simp only [weigh_sum, ihl hst, ihu hst, hbody]

/-- No interpretation tells the two expressions apart: they have the same values, under every limit and
failures included, the same estimate and the same closed forms. -/
structure Indistinguishable (a b : Expr) : Prop where
  evaluate : ∀ n : Int, a.evaluate n = b.evaluate n
  evaluateWithin : ∀ (n : Int) (limit : Int64), a.evaluateWithin n limit = b.evaluateWithin n limit
  degree : a.degree = b.degree
  simplify : ∀ s : Simplifier, s.simplify a = s.simplify b

/-- **The nameless form decides every interpretation.** -/
lemma indistinguishable_of_nameless_eq {a b : Expr} (h : a.nameless = b.nameless) :
    Indistinguishable a b := by
  have hrenamed : Renamed [] [] a b := renamed_of_namelessIn_eq h
  have hvalue (n : Int) (limit : Int64) : a.evaluateWithin n limit = b.evaluateWithin n limit := by
    rw [evaluateWithin, evaluateWithin, evalIn_eq_of_renamed hrenamed (.root n)]
  have hdegree : a.degree = b.degree := weigh_eq_of_renamed hrenamed (.root 1)
  have hestimate : Simplifier.estimate a = Simplifier.estimate b := by
    cases hrenamed with
    | hole => rfl
    | _ => simp only [Simplifier.estimate, hdegree]
  refine ⟨evaluate_eq_of_nameless_eq h, hvalue, hdegree, fun s => ?_⟩
  simp only [Simplifier.simplify_eq_bind, hestimate,
    Simplifier.samples_congr fun i => hvalue i s.maxTerms]

/-! ## Closed expressions -/

lemma freeIndices_subset_of_scoped {e : Expr} {bound : List RawText} (h : e.Scoped bound) :
    e.freeIndices ⊆ bound := by
  induction e generalizing bound with
  | hole => exact h.elim
  | param => exact List.nil_subset bound
  | index name => exact List.cons_subset.2 ⟨h, List.nil_subset bound⟩
  | const v => exact List.nil_subset bound
  | add a b iha ihb => exact List.append_subset.2 ⟨iha h.1, ihb h.2⟩
  | mul a b iha ihb => exact List.append_subset.2 ⟨iha h.1, ihb h.2⟩
  | sum lower upper name body ihl ihu ihb =>
      obtain ⟨hlower, hupper, hbody⟩ := h
      refine List.append_subset.2 ⟨List.append_subset.2 ⟨ihl hlower, ihu hupper⟩, fun n hn => ?_⟩
      obtain ⟨hmem, hne⟩ := List.mem_filter.1 hn
      rcases List.mem_cons.1 (ihb hbody hmem) with rfl | hbound
      · simp at hne
      · exact hbound

/-- A closed expression has nothing that an unshadowed one could capture. -/
lemma clear_of_scoped {a b : Expr} (ha : a.Scoped []) (hb : b.Unshadowed []) : Clear a b := by
  refine ⟨hb, fun n hn => ?_⟩
  cases freeIndices_subset_of_scoped ha hn

end Expr

/-- An expression without holes and free indices, in which no summation lies in the body of another one
of the same name. -/
structure PlainExpr where
  expr : Expr
  closed : expr.Scoped []
  unshadowed : expr.Unshadowed []

namespace PlainExpr

/-- On plain expressions, being alike is having the same nameless form. -/
lemma alike_iff (a b : PlainExpr) :
    a.expr.alike b.expr = true ↔ a.expr.nameless = b.expr.nameless :=
  Expr.alike_iff_of_clear (Expr.clear_of_scoped a.closed b.unshadowed)

end PlainExpr

/-- **On closed expressions, being alike is equality up to index names.**  The same nameless form makes
two closed expressions alike both ways and indistinguishable, whatever hides what in either; and if
nothing is hidden in the right one, being alike is having the same nameless form.  So on plain
expressions it is an equivalence relation that every interpretation respects. -/
theorem alike_is_alpha_equivalence :
    (∀ a b : Expr, a.Scoped [] → b.Scoped [] →
      (a.nameless = b.nameless →
        a.alike b = true ∧ b.alike a = true ∧ Expr.Indistinguishable a b) ∧
      (b.Unshadowed [] → a.alike b = true → a.nameless = b.nameless)) ∧
    Equivalence (fun a b : PlainExpr => a.expr.alike b.expr = true) ∧
    ∀ a b : PlainExpr, a.expr.alike b.expr = true → Expr.Indistinguishable a.expr b.expr := by
  refine ⟨fun a b ha _ => ⟨fun h => ?_, fun hb halike => ?_⟩, ?_, fun a b halike => ?_⟩
  · obtain ⟨hab, hba⟩ := (Expr.nameless_eq_iff_alike a b).1 h
    exact ⟨hab, hba, Expr.indistinguishable_of_nameless_eq h⟩
  · exact (Expr.alike_iff_of_clear (Expr.clear_of_scoped ha hb)).1 halike
  · simp only [PlainExpr.alike_iff]
    exact ⟨fun a => rfl, fun hab => hab.symm, fun hab hbc => hab.trans hbc⟩
  · exact Expr.indistinguishable_of_nameless_eq ((PlainExpr.alike_iff a b).1 halike)

/-- The double sum of the renamed one, with two names more. -/
def relabeledSum : Expr :=
  .sum (.const 1) .param "m" (.sum (.const 1) (.index "m") "n" (.index "n"))

/-- The sum that hides an index, the one with two names and the one with two others are one sum. -/
theorem shadowingSum_indistinguishable :
    Expr.shadowingSum.nameless = Expr.renamedSum.nameless ∧
      Expr.Indistinguishable Expr.shadowingSum Expr.renamedSum ∧
      Expr.Indistinguishable Expr.renamedSum relabeledSum := by
  obtain ⟨hclosed, -, hplain⟩ := alike_is_alpha_equivalence
  have hshadowing : Expr.shadowingSum.Scoped [] := by simp [Expr.shadowingSum, Expr.Scoped]
  have hrenamed : Expr.renamedSum.Scoped [] := by simp [Expr.renamedSum, Expr.Scoped]
  have hrelabeled : relabeledSum.Scoped [] := by simp [relabeledSum, Expr.Scoped]
  have hclear : Expr.renamedSum.Unshadowed [] := by
    simp [Expr.renamedSum, Expr.Unshadowed, RawText.ofString]
  have hclear' : relabeledSum.Unshadowed [] := by
    simp [relabeledSum, Expr.Unshadowed, RawText.ofString]
  obtain ⟨hsame, hdecides⟩ := hclosed Expr.shadowingSum Expr.renamedSum hshadowing hrenamed
  have hnameless := hdecides hclear (by decide)
  have halike : Expr.renamedSum.alike relabeledSum = true := by decide
  exact ⟨hnameless, (hsame hnameless).2.2,
    hplain ⟨Expr.renamedSum, hrenamed, hclear⟩ ⟨relabeledSum, hrelabeled, hclear'⟩ halike⟩

end ClosedForm
