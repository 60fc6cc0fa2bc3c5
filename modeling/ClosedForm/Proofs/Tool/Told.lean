import ClosedForm.Proofs.Check
import ClosedForm.Proofs.Document.Grammar
import ClosedForm.Tool.Call

/-!
# Every failure is told

A tool call never fails: what goes wrong is told in the response, which holds a text where there is
an error and an empty text where there is none.  Whoever reads the response takes an empty text for
success, so this rests on no error having an empty text.

Only a failure that is known by its text alone could be silent.  The error of a tool has a cause or
a setting with words of its own, and this file says so of every step of a run.

* `Error.message_eq_empty_iff` — the one error that would be silent.
* `Told` — a computation that does not fail with it; `Told.bind` composes them.
* `Tool.told_run` — **no tool fails silently.**
* `ToolCall.exists_run_of_error_eq_empty` — a response without the text of an error is that of a run
  that has not failed.
-/

namespace ClosedForm

/-! ## Silent errors -/

lemma Fault.message_eq_empty_iff (f : Fault) : f.message = "" ↔ f = .stated "" := by
  unfold Fault.message
  cases f <;> simp

/-- The one error that has no text. -/
lemma Error.message_eq_empty_iff (err : Error) : err.message = "" ↔ err = .fault (.stated "") := by
  cases err with
  | sentinel s => cases s <;> simp [message, Sentinel.message]
  | fault f => simp [message, Fault.message_eq_empty_iff]
  | malformed format => cases format <;> simp [message]
  | within setting cause => simp [message]
  | several parts => simp [message]

/-- An error that callers can tell apart has a text. -/
lemma Error.message_ne_empty_of_wraps {err : Error} {s : Sentinel} (h : err.wraps s = true) :
    err.message ≠ "" := by
  rw [Ne, message_eq_empty_iff]
  rintro rfl
  cases h

/-! ## Computations that tell their failures -/

/-- Whatever this fails with has a text. -/
def Told {α : Type} (x : Except Error α) : Prop := ∀ err, x = .error err → err.message ≠ ""

namespace Told

variable {α β : Type}

lemma ok (a : α) : Told (.ok a) := by
  intro err h
  cases h

lemma error {err : Error} (h : err ≠ .fault (.stated "")) : Told (.error err : Except Error α) := by
  intro err' herr
  cases herr
  rwa [Ne, Error.message_eq_empty_iff]

lemma bind {x : Except Error α} {f : α → Except Error β} (hx : Told x)
    (hf : ∀ a, x = .ok a → Told (f a)) : Told (x.bind f) := by
  intro err h
  rcases eq_error_of_bind_eq_error h with h | ⟨a, ha, h⟩
  · exact hx err h
  · exact hf a ha err h

/-- A value that is guarded against an error with a text. -/
lemma guard {c : Prop} [Decidable c] {err : Error} (a : α) (h : err ≠ .fault (.stated "")) :
    Told (if c then .error err else .ok a) := by
  by_cases hc : c
  · rw [if_pos hc]
    exact error h
  · rw [if_neg hc]
    exact ok a

/-- An error with the place where it arose has a text, whatever its cause. -/
lemma within (x : Except Error α) (setting : Setting) : Told (x.mapError (.within setting)) := by
  cases x with
  | ok a => exact ok a
  | error cause => exact error (by simp)

lemma of_onlyWraps {x : Except Error α} {s : Sentinel}
    (h : ∀ err, x = .error err → err.OnlyWraps s) : Told x := by
  intro err herr
  exact Error.message_ne_empty_of_wraps ((h err herr s).2 rfl)

end Told

/-! ## Decoding -/

lemma Scope.told_index {α : Type} (scope : Scope α) (name : RawText) : Told (scope.index name) := by
  unfold Scope.index
  split
  · exact .ok _
  · exact .error (by simp)

namespace Fields

lemma told_type (fields : Fields) : Told fields.type := by
  unfold Fields.type
  cases fields.get? "type" with
  | none => exact .error (by simp)
  | some d =>
      cases d with
      | text t => exact .guard _ (by simp)
      | _ => exact .error (by simp)

lemma told_name (fields : Fields) (type field : String) : Told (fields.name type field) := by
  unfold Fields.name
  cases fields.get? field with
  | none => exact .error (by simp)
  | some d =>
      cases d with
      | text t => exact .guard _ (by simp)
      | _ => exact .error (by simp)

lemma told_child (fields : Fields) (type field : String)
    (decode : (inner : Fields) → sizeOf inner < sizeOf fields → Except Error Expr) :
    Told (fields.child type field decode) := by
  unfold Fields.child
  split
  case h_1 absent => exact .error (by simp)
  case h_2 inner hinner => exact .within _ _
  case h_3 other hother => exact .error (by simp)

/-- The error of a part stands in the field of the part, so no induction is needed. -/
lemma told_expression (fields : Fields) (scope : Scope Unit) : Told (fields.expression scope) := by
  rw [Fields.expression]
  refine (told_type fields).bind fun type _ => ?_
  split
  · exact .ok _
  · refine (told_name fields _ _).bind fun name _ => ?_
    exact (scope.told_index name).bind fun _ _ => .ok _
  · split
    · exact .error (by simp)
    · exact (Told.within _ _).bind fun v _ => .ok _
  · refine (told_child fields _ _ _).bind fun left _ => ?_
    exact (told_child fields _ _ _).bind fun right _ => .ok _
  · refine (told_child fields _ _ _).bind fun left _ => ?_
    exact (told_child fields _ _ _).bind fun right _ => .ok _
  · refine (told_name fields _ _).bind fun name _ => ?_
    refine (told_child fields _ _ _).bind fun lower _ => ?_
    refine (told_child fields _ _ _).bind fun upper _ => ?_
    exact (told_child fields _ _ _).bind fun body _ => .ok _
  · exact .error (by simp)

lemma told_expressionParameter (fields : Fields) (key : String) :
    Told (fields.expressionParameter key) := by
  unfold expressionParameter
  split
  · exact .error (by simp)
  · exact told_expression _ _
  · exact .error (by simp)

/-- An expression that is given as a parameter has no unbound index. -/
lemma scoped_of_expressionParameter {fields : Fields} {key : String} {e : Expr}
    (h : fields.expressionParameter key = .ok e) : e.Scoped [] := by
  unfold expressionParameter at h
  split at h
  · cases h
  · exact Expr.scoped_of_derives ((expression_eq_ok_iff ..).1 h)
  · cases h

lemma told_wordParameter (fields : Fields) (key : String) (default : Int64) :
    Told (fields.wordParameter key default) := by
  unfold wordParameter
  split
  · exact .ok _
  · refine (Told.within _ _).bind fun n _ => ?_
    split
    · exact .ok _
    · exact .error (by simp)

end Fields

lemma Document.told_toIntegers (place : ℕ → Setting) (items : List Document) :
    Told (Document.toIntegers place items) := by
  unfold toIntegers
  induction items.zipIdx with
  | nil => exact .ok _
  | cons item items ih =>
      rw [List.mapM_cons]
      exact (Told.within _ _).bind fun v _ => ih.bind fun vs _ => .ok _

lemma Fields.told_integersParameter (fields : Fields) (key : String) :
    Told (fields.integersParameter key) := by
  unfold integersParameter
  split
  · exact .error (by simp)
  · exact Document.told_toIntegers _ _
  · exact .error (by simp)

namespace Poly

lemma told_dividerOf (fields : Fields) : Told (dividerOf fields) := by
  unfold dividerOf
  cases fields.get? "divider" with
  | none => exact .ok _
  | some d => exact .within _ _

lemma told_coefficientsOf (fields : Fields) : Told (coefficientsOf fields) := by
  unfold coefficientsOf
  cases fields.get? "coefficients" with
  | none => exact .ok _
  | some d =>
      cases d with
      | null => exact .ok _
      | array items => exact Document.told_toIntegers _ _
      | texts items => exact Document.told_toIntegers _ _
      | _ => exact .error (by simp)

lemma told_ofDivider (coefficients : List Int) (divider : Int) :
    Told (ofDivider coefficients divider) := by
  unfold ofDivider
  by_cases hzero : divider = 0
  · rw [dif_pos hzero]
    exact .error (by simp)
  · rw [dif_neg hzero]
    exact .ok _

lemma told_ofFields (fields : Fields) : Told (ofFields fields) :=
  (told_dividerOf fields).bind fun divider _ =>
    (told_coefficientsOf fields).bind fun coefficients _ => told_ofDivider coefficients divider

end Poly

/-! ## Simplifying and checking -/

namespace Simplifier

lemma told_sampleFrom (s : Simplifier) (e : Expr) (count i : ℕ) :
    Told (s.sampleFrom e count i) := by
  intro err h
  obtain ⟨j, cause, -, rfl⟩ := exists_of_sampleFrom_eq_error h
  rw [Ne, Error.message_eq_empty_iff]
  simp

lemma told_estimate (e : Expr) : Told (estimate e) := by
  unfold estimate
  split
  · exact .error (by simp)
  · split
    · exact .error (by simp)
    · exact .ok _

lemma told_allowDegree (s : Simplifier) (d : Weight) : Told (s.allowDegree d) :=
  .of_onlyWraps fun _ => onlyWraps_of_allowDegree_eq_error

lemma told_simplify (s : Simplifier) (e : Expr) : Told (s.simplify e) := by
  refine (told_estimate e).bind fun d _ => (told_allowDegree s d).bind fun _ _ => ?_
  exact (told_sampleFrom s e _ _).bind fun values _ => .ok _

end Simplifier

/-- A check that finds something tells it. -/
lemma message_ne_empty_of_checkWithin {e : Expr} {p : Poly} {lower upper limit : Int64}
    {err : Error} (h : checkWithin e p lower upper limit = some err) : err.message ≠ "" := by
  rw [Ne, Error.message_eq_empty_iff]
  rintro rfl
  by_cases he : e = .hole
  · subst he
    cases h
  · have hpart : Error.fault (.stated "") ∈ (checkWithin e p lower upper limit).parts := by
      rw [h]
      exact List.mem_singleton.2 rfl
    obtain ⟨n, hn⟩ := exists_reported_of_mem_parts he hpart
    cases hn

/-! ## Running a tool -/

namespace Limits

lemma told_admitValues (limits : Limits) (count : ℕ) : Told (limits.admitValues count) := by
  unfold admitValues
  exact .guard _ (by simp)

lemma told_admitRange (limits : Limits) (lower upper : Int64) :
    Told (limits.admitRange lower upper) := by
  unfold admitRange
  exact .guard _ (by simp)

end Limits

namespace Tool

lemma told_checkedPoly (limits : Limits) (parameters : Fields) (e : Expr) :
    Told (checkedPoly limits parameters e) := by
  unfold checkedPoly
  split
  · exact Poly.told_ofFields _
  · exact .error (by simp)
  · exact Simplifier.told_simplify _ e

/-- **No tool fails silently.** -/
lemma told_run (limits : Limits) (parameters : Fields) (tool : Tool) :
    Told (tool.run limits parameters) := by
  have hexpr := parameters.told_expressionParameter "expr"
  cases tool with
  | simplify =>
      refine hexpr.bind fun e _ => (parameters.told_wordParameter _ _).bind fun requested _ => ?_
      exact (Simplifier.told_simplify _ e).bind fun p _ => .ok _
  | evaluate =>
      refine hexpr.bind fun e he => (parameters.told_wordParameter _ _).bind fun n _ => ?_
      have hscoped := Fields.scoped_of_expressionParameter he
      have hvalue : Told (e.evaluateWithin n.toInt limits.maxTerms) :=
        .of_onlyWraps fun _ => Expr.onlyWraps_of_evaluateWithin_eq_error hscoped
      exact hvalue.bind fun v _ => .ok _
  | degree =>
      refine hexpr.bind fun e he => ?_
      have hscoped := Fields.scoped_of_expressionParameter he
      have hdegree : Told e.degree :=
        .of_onlyWraps fun _ => Expr.onlyWraps_of_degree_eq_error hscoped
      exact hdegree.bind fun d _ => .ok _
  | lagrange =>
      refine (parameters.told_integersParameter "values").bind fun values _ => ?_
      exact (limits.told_admitValues _).bind fun _ _ => .ok _
  | check =>
      refine hexpr.bind fun e _ => (told_checkedPoly limits parameters e).bind fun p _ => ?_
      refine (parameters.told_wordParameter _ _).bind fun lower _ => ?_
      refine (parameters.told_wordParameter _ _).bind fun upper _ => ?_
      exact (limits.told_admitRange lower upper).bind fun _ _ => .ok _
  | spec => exact .ok _

end Tool

/-- **A response without the text of an error is that of a run that has not failed.** -/
lemma ToolCall.exists_run_of_error_eq_empty {limits : Limits} {call : ToolCall}
    (h : (call.respond limits).error = "") :
    ∃ tool, Tool.ofName? call.tool = some tool ∧
      tool.run limits call.parameters = .ok (call.respond limits) := by
  cases htool : Tool.ofName? call.tool with
  | none =>
      simp only [respond, htool, ToolResponse.ofError, Error.message_eq_empty_iff] at h
      cases h
  | some tool =>
      refine ⟨tool, rfl, ?_⟩
      cases hrun : tool.run limits call.parameters with
      | ok response => simp only [respond, htool, hrun]
      | error err =>
          simp only [respond, htool, hrun] at h
          exact absurd h (Tool.told_run limits call.parameters tool err hrun)

end ClosedForm
