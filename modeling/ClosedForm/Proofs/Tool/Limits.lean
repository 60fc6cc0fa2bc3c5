import ClosedForm.Proofs.Refusal
import ClosedForm.Proofs.Tool.Told

/-!
# Limits only cut off

A limit decides whether a call gets its answer, never what the answer is.  Every limit is read at
one place, and there it does nothing but let an amount through or refuse it: the degree estimate,
the summation terms of one evaluation, the number of values, the points of a check.  So each place
has an equivalence that says in terms of `Admits` what it lets through, and that what one limit
admits is admitted by every looser one is all that the rest needs.

* `Limits.Loosens` — limits that are each at least as large, where one that is not positive is none.
* `Simplifier.allowDegree_eq_ok_iff`, `Limits.admitValues_eq_ok_iff`, `Limits.admitRange_eq_ok_iff`
  — what each guard lets through.
* `Tool.run_of_loosens` — **a run that has succeeded gives the same under looser limits.**
* `Limits.simplify_requested` — a requested degree limit refuses, or it changes nothing.
* `ToolCall.limits_only_cut_off` — both, for whole calls.
-/

namespace ClosedForm

/-! ## Looser limits -/

/-- The second limit is at least the first, where one that is not positive is none. -/
def LimitLoosens (limit limit' : Int64) : Prop :=
  limit'.toInt ≤ 0 ∨ 0 < limit.toInt ∧ limit.toInt ≤ limit'.toInt

lemma Admits.of_loosens {limit limit' : Int64} {amount : ℤ} (h : Admits limit amount)
    (hlimit : LimitLoosens limit limit') : Admits limit' amount := by
  unfold Admits at *
  rcases hlimit with hnone | ⟨hpos, hle⟩
  · intro hpos
    exact absurd hpos (not_lt.2 hnone)
  · intro _
    exact (h hpos).trans hle

/-- Every limit of the second is at least that of the first. -/
structure Limits.Loosens (limits limits' : Limits) : Prop where
  degree : LimitLoosens limits.maxDegree limits'.maxDegree
  terms : LimitLoosens limits.maxTerms limits'.maxTerms
  range : LimitLoosens limits.maxCheckRange limits'.maxCheckRange

/-! ## What is kept -/

/-- Whatever wanted the first computation gives, the second gives too. -/
def Kept {α : Type} (wanted : α → Prop) (x y : Except Error α) : Prop :=
  ∀ a, wanted a → x = .ok a → y = .ok a

namespace Kept

variable {α β : Type} {wanted : β → Prop}

lemma refl (x : Except Error β) : Kept wanted x x := fun _ _ h => h

lemma bind {x y : Except Error α} {f g : α → Except Error β} (hx : ∀ a, x = .ok a → y = .ok a)
    (hf : ∀ a, x = .ok a → Kept wanted (f a) (g a)) : Kept wanted (x.bind f) (y.bind g) := by
  intro b hb h
  obtain ⟨a, ha, h⟩ := exists_of_bind_eq_ok h
  rw [hx a ha]
  exact hf a ha b hb h

end Kept

/-! ## Evaluations -/

/-- A value that a limit lets through is let through by every looser one. -/
lemma Expr.evaluateWithin_of_loosens {e : Expr} (hscoped : e.Scoped []) {n v : Int}
    {limit limit' : Int64} (hlimit : LimitLoosens limit limit')
    (h : e.evaluateWithin n limit = .ok v) : e.evaluateWithin n limit' = .ok v := by
  have hvalue := evaluate_eq_denote hscoped n
  have hadmits := (exists_evaluateWithin_iff hscoped).1 ⟨v, h⟩
  rw [eq_of_evaluateWithin_eq_ok hvalue h]
  exact evaluateWithin_of_admits hvalue (hadmits.of_loosens hlimit)

/-! ## Simplifications -/

namespace Simplifier

variable {s s' : Simplifier} {e : Expr} {p : Poly}

lemma sampleFrom_of_loosens (hscoped : e.Scoped []) (hterms : LimitLoosens s.maxTerms s'.maxTerms)
    {count i : ℕ} {values : List Int} (h : s.sampleFrom e count i = .ok values) :
    s'.sampleFrom e count i = .ok values := by
  induction count generalizing i values with
  | zero => exact h
  | succ count ih =>
      obtain ⟨v, rest, hv, hrest, rfl⟩ := sampleFrom_succ_eq_ok_iff.1 h
      have hv' := Expr.evaluateWithin_of_loosens hscoped hterms hv
      exact sampleFrom_succ_eq_ok_iff.2 ⟨v, rest, hv', ih hrest, rfl⟩

lemma simplify_of_loosens (hscoped : e.Scoped []) (hterms : LimitLoosens s.maxTerms s'.maxTerms)
    (hdegree : ∀ amount, Admits s.maxDegree amount → Admits s'.maxDegree amount)
    (h : s.simplify e = .ok p) : s'.simplify e = .ok p := by
  have hkept : Kept (fun _ => True) (s.simplify e) (s'.simplify e) := by
    refine Kept.bind (fun _ hd => hd) fun d _ => Kept.bind (fun _ hd => ?_) fun _ _ => ?_
    · obtain ⟨hnonneg, hle, hadmits⟩ := (allowDegree_eq_ok_iff s d).1 hd
      exact (allowDegree_eq_ok_iff s' d).2 ⟨hnonneg, hle, hdegree _ hadmits⟩
    · exact Kept.bind (fun _ hv => sampleFrom_of_loosens hscoped hterms hv) fun _ _ => .refl _
  exact hkept p trivial h

/-- A simplification that has succeeded has let its estimate through. -/
lemma exists_allowed_degree (h : s.simplify e = .ok p) :
    ∃ d, e.degree = .ok d ∧ s.allowDegree d = .ok () := by
  obtain ⟨d, hd, h⟩ := exists_of_bind_eq_ok h
  obtain ⟨_, hallowed, -⟩ := exists_of_bind_eq_ok h
  exact ⟨d, degree_of_estimate_eq_ok hd, hallowed⟩

end Simplifier

namespace Limits

variable {limits limits' : Limits}

/-- A requested degree limit leaves the term limit as it is. -/
lemma maxTerms_simplifier (limits : Limits) (requested requested' : Int64) :
    (limits.simplifier requested).maxTerms = (limits.simplifier requested').maxTerms := rfl

/-- **A requested degree limit holds besides the configured one.** -/
lemma admits_degreeCap_iff (limits : Limits) (requested : Int64) (amount : ℤ) :
    Admits (limits.degreeCap requested) amount ↔
      Admits limits.maxDegree amount ∧ Admits requested amount := by
  unfold degreeCap Admits
  simp only [Bool.and_eq_true, Bool.or_eq_true, decide_eq_true_eq, Int64.le_iff_toInt_le,
    Int64.lt_iff_toInt_lt, Int64.toInt_zero]
  split <;> omega

/-! ## Values and ranges -/

lemma admitValues_eq_ok_iff (limits : Limits) (count : ℕ) :
    limits.admitValues count = .ok () ↔ Admits limits.maxDegree (count - 1) := by
  unfold admitValues Admits
  simp only [Bool.and_eq_true, decide_eq_true_eq, Int64.lt_iff_toInt_lt, Int64.toInt_zero]
  split
  · simp only [reduceCtorEq, false_iff]
    omega
  · simp only [true_iff]
    omega

/-- Bounds in order have their distance in unsigned words. -/
lemma toNat_sub_eq {lower upper : Int64} (h : lower.toInt ≤ upper.toInt) :
    ((upper.toUInt64 - lower.toUInt64).toNat : ℤ) = upper.toInt - lower.toInt := by
  have hlower : lower.toInt = lower.toUInt64.toBitVec.toInt := rfl
  have hupper : upper.toInt = upper.toUInt64.toBitVec.toInt := rfl
  rw [BitVec.toInt_eq_toNat_cond, UInt64.toNat_toBitVec] at hlower hupper
  have hlt₁ := lower.toUInt64.toNat_lt
  have hlt₂ := upper.toUInt64.toNat_lt
  rw [UInt64.toNat_sub]
  split at hlower <;> split at hupper <;> omega

lemma toNat_toUInt64_eq {word : Int64} (h : 0 ≤ word.toInt) :
    (word.toUInt64.toNat : ℤ) = word.toInt := by
  have hword : word.toInt = word.toUInt64.toBitVec.toInt := rfl
  rw [BitVec.toInt_eq_toNat_cond, UInt64.toNat_toBitVec] at hword
  have hlt := word.toUInt64.toNat_lt
  split at hword <;> omega

/-- A check is let through if its bounds are crossed, or if it has no more points than allowed. -/
lemma admitRange_eq_ok_iff (limits : Limits) (lower upper : Int64) :
    limits.admitRange lower upper = .ok () ↔
      (lower.toInt ≤ upper.toInt →
        Admits limits.maxCheckRange (upper.toInt - lower.toInt + 1)) := by
  unfold admitRange Admits
  simp only [Bool.and_eq_true, decide_eq_true_eq, Int64.lt_iff_toInt_lt, Int64.le_iff_toInt_le,
    UInt64.le_iff_toNat_le, Int64.toInt_zero]
  split
  · rename_i h
    obtain ⟨⟨hpos, hle⟩, hfar⟩ := h
    have hdistance := toNat_sub_eq hle
    have hrange := toNat_toUInt64_eq hpos.le
    simp only [reduceCtorEq, false_iff]
    omega
  · rename_i h
    simp only [true_iff]
    intro hle hpos
    have hdistance := toNat_sub_eq hle
    have hrange := toNat_toUInt64_eq hpos.le
    have hnear : ¬limits.maxCheckRange.toUInt64.toNat ≤
        (upper.toUInt64 - lower.toUInt64).toNat := fun hfar => h ⟨⟨hpos, hle⟩, hfar⟩
    omega

/-- The simplifications of calls under looser limits, whatever degree limit a call requests. -/
lemma Loosens.simplify (h : limits.Loosens limits') {requested : Int64} {e : Expr} {p : Poly}
    (hscoped : e.Scoped []) (hp : (limits.simplifier requested).simplify e = .ok p) :
    (limits'.simplifier requested).simplify e = .ok p := by
  refine Simplifier.simplify_of_loosens hscoped h.terms (fun amount hadmits => ?_) hp
  obtain ⟨hconfigured, hrequested⟩ := (admits_degreeCap_iff limits requested amount).1 hadmits
  exact (admits_degreeCap_iff limits' requested amount).2
    ⟨hconfigured.of_loosens h.degree, hrequested⟩

end Limits

/-! ## Runs -/

/-- A check that finds nothing finds nothing under a looser limit. -/
lemma checkWithin_of_loosens {e : Expr} (hscoped : e.Scoped []) {p : Poly}
    {lower upper limit limit' : Int64} (hlimit : LimitLoosens limit limit')
    (h : checkWithin e p lower upper limit = none) :
    checkWithin e p lower upper limit' = none := by
  have he : e ≠ .hole := by
    rintro rfl
    exact hscoped
  rw [checkWithin_eq_none_iff he] at h ⊢
  intro n hlower hupper
  obtain ⟨v, hv, hp⟩ := (checkAt_eq_agrees_iff ..).1 (h n hlower hupper)
  exact (checkAt_eq_agrees_iff ..).2 ⟨v, Expr.evaluateWithin_of_loosens hscoped hlimit hv, hp⟩

namespace Tool

lemma checkedPoly_of_loosens {limits limits' : Limits} (h : limits.Loosens limits')
    {parameters : Fields} {e : Expr} (hscoped : e.Scoped []) {p : Poly}
    (hp : checkedPoly limits parameters e = .ok p) : checkedPoly limits' parameters e = .ok p := by
  unfold checkedPoly at hp ⊢
  split at hp
  · exact hp
  · exact hp
  · exact h.simplify hscoped hp

/-- **A run that has succeeded gives the same under looser limits.**  Of a check that has found
something only its response has an error, so the runs are compared by their responses. -/
lemma run_of_loosens {limits limits' : Limits} (h : limits.Loosens limits') (parameters : Fields)
    (tool : Tool) :
    Kept (fun response => response.error = "") (tool.run limits parameters)
      (tool.run limits' parameters) := by
  cases tool with
  | simplify =>
      refine Kept.bind (fun _ he => he) fun e he => Kept.bind (fun _ hr => hr) fun requested _ => ?_
      have hscoped := Fields.scoped_of_expressionParameter he
      exact Kept.bind (fun _ hp => h.simplify hscoped hp) fun _ _ => .refl _
  | evaluate =>
      refine Kept.bind (fun _ he => he) fun e he => Kept.bind (fun _ hn => hn) fun n _ => ?_
      have hscoped := Fields.scoped_of_expressionParameter he
      exact Kept.bind (fun _ hv => Expr.evaluateWithin_of_loosens hscoped h.terms hv)
        fun _ _ => .refl _
  | degree => exact .refl _
  | lagrange =>
      refine Kept.bind (fun _ hvalues => hvalues) fun values _ => ?_
      refine Kept.bind (fun _ hadmits => ?_) fun _ _ => .refl _
      rw [Limits.admitValues_eq_ok_iff] at hadmits ⊢
      exact hadmits.of_loosens h.degree
  | check =>
      refine Kept.bind (fun _ he => he) fun e he => ?_
      have hscoped := Fields.scoped_of_expressionParameter he
      refine Kept.bind (fun _ hp => checkedPoly_of_loosens h hscoped hp) fun p _ => ?_
      refine Kept.bind (fun _ hlower => hlower) fun lower _ => ?_
      refine Kept.bind (fun _ hupper => hupper) fun upper _ => ?_
      refine Kept.bind (fun _ hadmits => ?_) fun _ _ => ?_
      · rw [Limits.admitRange_eq_ok_iff] at hadmits ⊢
        exact fun hle => (hadmits hle).of_loosens h.range
      · intro response hresponse hrun
        cases hrun
        cases hcheck : checkWithin e p lower upper limits.maxTerms with
        | none =>
            rw [checkWithin_of_loosens hscoped h.terms hcheck]
            rfl
        | some err =>
            rw [hcheck] at hresponse
            exact absurd hresponse (message_ne_empty_of_checkWithin hcheck)
  | spec => exact .refl _

end Tool

/-! ## A requested degree limit -/

/-- **A requested degree limit refuses, or it changes nothing.** -/
lemma Limits.simplify_requested (limits : Limits) (requested : Int64) (e : Expr) :
    (limits.simplifier requested).simplify e = (limits.simplifier 0).simplify e ∨
      ∃ err, (limits.simplifier requested).simplify e = .error err ∧
        err.wraps .degreeLimit = true := by
  rw [Simplifier.simplify_eq_bind, Simplifier.simplify_eq_bind]
  cases Simplifier.estimate e with
  | error err => simp only [Except.bind, true_or]
  | ok d =>
      simp only [Except.bind]
      cases hallowed : (limits.simplifier requested).allowDegree d with
      | error err =>
          have hwraps := Simplifier.onlyWraps_of_allowDegree_eq_error hallowed
          exact .inr ⟨err, rfl, (hwraps .degreeLimit).2 rfl⟩
      | ok _ =>
          -- What passes both limits passes the configured one, and then the same is sampled.
          obtain ⟨hnonneg, hle, hadmits⟩ := (Simplifier.allowDegree_eq_ok_iff _ d).1 hallowed
          obtain ⟨hconfigured, -⟩ := (limits.admits_degreeCap_iff requested _).1 hadmits
          have hzero : Admits 0 d.toInt := fun hpos => absurd hpos (by decide)
          have hdefault : (limits.simplifier 0).allowDegree d = .ok () :=
            (Simplifier.allowDegree_eq_ok_iff _ d).2
              ⟨hnonneg, hle, (limits.admits_degreeCap_iff 0 _).2 ⟨hconfigured, hzero⟩⟩
          have hsamples : (limits.simplifier requested).samples e d =
              (limits.simplifier 0).samples e d :=
            Simplifier.samples_congr
              (fun i => by rw [limits.maxTerms_simplifier requested 0]) d
          left
          simp only [hdefault, hsamples]

/-- The second parameters are the first with a requested degree limit added. -/
structure Fields.AddsDegreeLimit (parameters parameters' : Fields) (requested : Int64) : Prop where
  absent : parameters.get? "max_degree" = none
  present : ∃ d, parameters'.get? "max_degree" = some d ∧ d.toInteger = .ok requested.toInt
  others : ∀ key, key ≠ "max_degree" → parameters'.get? key = parameters.get? key

namespace Fields

/-- A parameter that stands for a word is that word. -/
lemma wordParameter_of_toInteger {parameters : Fields} {key : String} {d : Document} {word : Int64}
    (hkey : parameters.get? key = some d) (hd : d.toInteger = .ok word.toInt) (default : Int64) :
    parameters.wordParameter key default = .ok word := by
  have hfits : (Int64.minValue.toInt ≤ word.toInt && word.toInt ≤ Int64.maxValue.toInt) = true := by
    rw [Bool.and_eq_true, decide_eq_true_eq, decide_eq_true_eq]
    exact ⟨word.minValue_le_toInt, word.toInt_le⟩
  unfold wordParameter
  simp only [hkey, hd, Except.mapError]
  change (if _ then _ else _) = _
  rw [if_pos hfits, Int64.ofInt_toInt]

/-- Nothing but the degree limit is changed, in particular not the expression. -/
lemma AddsDegreeLimit.expressionParameter {parameters parameters' : Fields} {requested : Int64}
    (h : parameters.AddsDegreeLimit parameters' requested) :
    parameters'.expressionParameter "expr" = parameters.expressionParameter "expr" := by
  unfold Fields.expressionParameter
  rw [h.others "expr" (by decide)]

end Fields

namespace Tool

variable {limits : Limits} {parameters parameters' : Fields} {requested : Int64}

/-- A simplification is run on an expression under a requested degree limit. -/
lemma run_simplify_eq (limits : Limits)
    (hrequested : parameters.wordParameter "max_degree" 0 = .ok requested) :
    simplify.run limits parameters = (parameters.expressionParameter "expr").bind fun e =>
      ((limits.simplifier requested).simplify e).bind fun p => .ok (.ofPoly p p.toDocument) := by
  unfold run
  rw [hrequested]
  rfl

lemma run_simplify_without (limits : Limits)
    (h : parameters.AddsDegreeLimit parameters' requested) :
    simplify.run limits parameters = (parameters.expressionParameter "expr").bind fun e =>
      ((limits.simplifier 0).simplify e).bind fun p => .ok (.ofPoly p p.toDocument) := by
  refine run_simplify_eq limits ?_
  rw [Fields.wordParameter, h.absent]

lemma run_simplify_with (limits : Limits) (h : parameters.AddsDegreeLimit parameters' requested) :
    simplify.run limits parameters' = (parameters.expressionParameter "expr").bind fun e =>
      ((limits.simplifier requested).simplify e).bind fun p => .ok (.ofPoly p p.toDocument) := by
  obtain ⟨d, hkey, hd⟩ := h.present
  rw [← h.expressionParameter]
  exact run_simplify_eq limits (Fields.wordParameter_of_toInteger hkey hd 0)

/-- A run with a requested degree limit is refused, or it is the run without. -/
lemma run_simplify_requested (limits : Limits)
    (h : parameters.AddsDegreeLimit parameters' requested) :
    simplify.run limits parameters' = simplify.run limits parameters ∨
      ∃ err, simplify.run limits parameters' = .error err ∧ err.wraps .degreeLimit = true := by
  rw [run_simplify_with limits h, run_simplify_without limits h]
  cases parameters.expressionParameter "expr" with
  | error err => simp only [Except.bind, true_or]
  | ok e =>
      simp only [Except.bind]
      rcases limits.simplify_requested requested e with heq | ⟨err, herr, hwraps⟩
      · rw [heq]
        exact .inl rfl
      · rw [herr]
        exact .inr ⟨err, rfl, hwraps⟩

/-- What has been simplified under a requested degree limit is within every limit. -/
lemma exists_degree_of_run_simplify {response : ToolResponse}
    (h : parameters.AddsDegreeLimit parameters' requested)
    (hrun : simplify.run limits parameters' = .ok response) :
    ∃ e d, parameters.expressionParameter "expr" = .ok e ∧ e.degree = .ok d ∧
      Admits limits.maxDegree d.toInt ∧ Admits requested d.toInt ∧ d.toInt ≤ 2 ^ 20 := by
  rw [run_simplify_with limits h] at hrun
  obtain ⟨e, he, hrun⟩ := exists_of_bind_eq_ok hrun
  obtain ⟨p, hp, -⟩ := exists_of_bind_eq_ok hrun
  obtain ⟨d, hd, hallowed⟩ := Simplifier.exists_allowed_degree hp
  obtain ⟨-, hle, hadmits⟩ := (Simplifier.allowDegree_eq_ok_iff _ d).1 hallowed
  obtain ⟨hconfigured, hrequested⟩ := (limits.admits_degreeCap_iff requested _).1 hadmits
  exact ⟨e, d, he, hd, hconfigured, hrequested, hle⟩

end Tool

/-! ## Calls -/

namespace ToolCall

lemma respond_of_run {limits : Limits} {call : ToolCall} {tool : Tool} {response : ToolResponse}
    (htool : Tool.ofName? call.tool = some tool)
    (hrun : tool.run limits call.parameters = .ok response) : call.respond limits = response := by
  simp only [respond, htool, hrun]

/-- The response to a simplification that has succeeded. -/
lemma respond_of_simplify (limits : Limits) (call : ToolCall) {requested : Int64} {e : Expr}
    {p : Poly} (htool : Tool.ofName? call.tool = some .simplify)
    (he : call.parameters.expressionParameter "expr" = .ok e)
    (hrequested : call.parameters.wordParameter "max_degree" 0 = .ok requested)
    (hp : (limits.simplifier requested).simplify e = .ok p) :
    call.respond limits = .ofPoly p p.toDocument := by
  refine respond_of_run htool ?_
  rw [Tool.run_simplify_eq limits hrequested, he]
  simp only [Except.bind, hp]

/-- **Limits only cut off.**  A response without an error is the response under all looser limits.
And a degree limit that a simplification requests, whatever word it is, makes the response an error
that wraps the degree limit, or leaves it as it is; where there is no error, the degree estimate is
within the configured limit, the requested one and the fixed one. -/
theorem limits_only_cut_off :
    (∀ (limits limits' : Limits) (call : ToolCall), limits.Loosens limits' →
      (call.respond limits).error = "" → call.respond limits' = call.respond limits) ∧
    ∀ (limits : Limits) (call call' : ToolCall) (requested : Int64),
      Tool.ofName? call.tool = some .simplify → call'.tool = call.tool →
      call.parameters.AddsDegreeLimit call'.parameters requested →
        (call'.respond limits = call.respond limits ∨
          ∃ err, call'.respond limits = .ofError err ∧ err.wraps .degreeLimit = true) ∧
        ((call'.respond limits).error = "" →
          ∃ e d, call.parameters.expressionParameter "expr" = .ok e ∧ e.degree = .ok d ∧
            Admits limits.maxDegree d.toInt ∧ Admits requested d.toInt ∧ d.toInt ≤ 2 ^ 20) := by
  refine ⟨fun limits limits' call hlimits herror => ?_,
    fun limits call call' requested htool hsame hadds => ⟨?_, fun herror => ?_⟩⟩
  · obtain ⟨tool, htool, hrun⟩ := exists_run_of_error_eq_empty herror
    exact respond_of_run htool (tool.run_of_loosens hlimits _ _ herror hrun)
  · have htool' : Tool.ofName? call'.tool = some .simplify := hsame ▸ htool
    rcases Tool.run_simplify_requested limits hadds with heq | ⟨err, herr, hwraps⟩
    · left
      simp only [respond, htool, htool', heq]
    · right
      exact ⟨err, by simp only [respond, htool', herr], hwraps⟩
  · obtain ⟨tool, htool', hrun⟩ := exists_run_of_error_eq_empty herror
    rw [hsame, htool] at htool'
    cases htool'
    exact Tool.exists_degree_of_run_simplify hadds hrun

/-- The sum of the numbers from 1 to `x`. -/
def gaussSum : Expr := .sum (.const 1) .param "i" (.index "i")

/-- The parameters of a call for the sum of the numbers from 1 to `x`. -/
def gaussParameters : Fields :=
  [("expr", .object [("type", .text "sum"), ("index", .text "i"),
    ("from", .object [("type", .text "const"), ("value", .text "1")]),
    ("to", .object [("type", .text "param")]),
    ("body", .object [("type", .text "index"), ("name", .text "i")])])]

lemma expressionParameter_gauss : gaussParameters.expressionParameter "expr" = .ok gaussSum := by
  have hi : RawText.ofString "i" ≠ .empty := by decide
  exact Fields.expression_eq_ok_of_derives
    (.sum ⟨_, rfl, rfl⟩ ⟨rfl, hi⟩ rfl rfl rfl (.const ⟨_, rfl, rfl⟩ rfl rfl) (.param ⟨_, rfl, rfl⟩)
      (.index ⟨_, rfl, rfl⟩ ⟨rfl, hi⟩ (by simp))) rfl

/-- The closed form of that sum. -/
def gaussForm : Poly := ⟨[0, 1, 1], 2, nofun⟩

/-- The sum is checked against its closed form at the points from 0 to 10, and passes. -/
lemma respond_check_gauss :
    (⟨"check", gaussParameters⟩ : ToolCall).respond ⟨2, 10, 11⟩ = Tool.checkResponse gaussForm none := by
  refine respond_of_run (show Tool.ofName? "check" = some .check from rfl) ?_
  change (gaussParameters.expressionParameter "expr").bind _ = _
  rw [expressionParameter_gauss]
  rfl

/-- The value of the sum at 10 is 55. -/
lemma respond_evaluate_gauss :
    (⟨"evaluate", ("n", .text "10") :: gaussParameters⟩ : ToolCall).respond ⟨2, 10, 11⟩ =
      { result := some (.text "55"), string := "55" } := by
  refine respond_of_run (show Tool.ofName? "evaluate" = some .evaluate from rfl) ?_
  have he : Fields.expressionParameter (("n", .text "10") :: gaussParameters) "expr" = .ok gaussSum :=
    expressionParameter_gauss
  change (Fields.expressionParameter _ "expr").bind _ = _
  rw [he]
  rfl

/-- The closed form interpolates the first values of the sum. -/
lemma respond_lagrange_gauss :
    (⟨"makeLagrange", [("values", .array [.text "0", .text "1", .text "3"])]⟩ : ToolCall).respond
      ⟨2, 10, 11⟩ = .ofPoly gaussForm gaussForm.toDocument := by
  rfl

/-- The sum is simplified under the tightest limits there are for it, so it is under looser ones and
with the degree limit 2 requested.  Evaluations, checks and interpolations that succeed under limits give
the same response under looser ones. -/
theorem respond_gauss :
    let call : ToolCall := ⟨"Simplify", gaussParameters⟩
    let call' : ToolCall := ⟨"Simplify", ("max_degree", .text "2") :: gaussParameters⟩
    (call.respond ⟨2, 2, 1⟩).error = "" ∧
      call.respond ⟨64, 0, -3⟩ = call.respond ⟨2, 2, 1⟩ ∧
      (call'.respond ⟨64, 2, 1⟩).error = "" ∧
      (∃ e d, call.parameters.expressionParameter "expr" = .ok e ∧ e.degree = .ok d ∧
        Admits 64 d.toInt ∧ Admits 2 d.toInt ∧ d.toInt ≤ 2 ^ 20) ∧
      (⟨"check", gaussParameters⟩ : ToolCall).respond ⟨64, 0, -3⟩ =
        Tool.checkResponse gaussForm none ∧
      (⟨"evaluate", ("n", .text "10") :: gaussParameters⟩ : ToolCall).respond ⟨64, 0, -3⟩ =
        { result := some (.text "55"), string := "55" } ∧
      (⟨"makeLagrange", [("values", .array [.text "0", .text "1", .text "3"])]⟩ : ToolCall).respond
        ⟨64, 0, -3⟩ = .ofPoly gaussForm gaussForm.toDocument := by
  intro call call'
  have hloosens : Limits.Loosens ⟨2, 2, 1⟩ ⟨64, 0, -3⟩ :=
    ⟨.inr (by decide), .inl (by decide), .inl (by decide)⟩
  have hloosens' : Limits.Loosens ⟨2, 10, 11⟩ ⟨64, 0, -3⟩ :=
    ⟨.inr (by decide), .inl (by decide), .inl (by decide)⟩
  have htool : Tool.ofName? "Simplify" = some .simplify := rfl
  have hadds : call.parameters.AddsDegreeLimit call'.parameters 2 := by
    refine ⟨rfl, ⟨_, rfl, rfl⟩, fun key hkey => ?_⟩
    change List.lookup key _ = _
    rw [List.lookup_cons, beq_false_of_ne hkey]
    rfl
  have hcall : (call.respond ⟨2, 2, 1⟩).error = "" := by
    have hp : (Limits.simplifier ⟨2, 2, 1⟩ 0).simplify gaussSum = .ok gaussForm := rfl
    rw [respond_of_simplify _ call htool expressionParameter_gauss rfl hp]
    rfl
  have hcall' : (call'.respond ⟨64, 2, 1⟩).error = "" := by
    have hp : (Limits.simplifier ⟨64, 2, 1⟩ 2).simplify gaussSum = .ok gaussForm := rfl
    have he := hadds.expressionParameter.trans expressionParameter_gauss
    rw [respond_of_simplify _ call' htool he rfl hp]
    rfl
  obtain ⟨hloose, hrequest⟩ := limits_only_cut_off
  refine ⟨hcall, hloose _ _ call hloosens hcall, hcall',
    (hrequest ⟨64, 2, 1⟩ call call' 2 htool rfl hadds).2 hcall', ?_, ?_, ?_⟩
  · rw [hloose _ _ _ hloosens' (by rw [respond_check_gauss]; rfl), respond_check_gauss]
  · rw [hloose _ _ _ hloosens' (by rw [respond_evaluate_gauss]), respond_evaluate_gauss]
  · rw [hloose _ _ _ hloosens' (by rw [respond_lagrange_gauss]; rfl), respond_lagrange_gauss]

end ToolCall
end ClosedForm
