import ClosedForm.Proofs.Document.Polynomial
import ClosedForm.Proofs.Tool.Limits
import ClosedForm.Proofs.Visits

/-!
# Checks on call

A call for a check takes its polynomial from its parameters, or else simplifies the expression itself,
and refuses a range of too many points before it looks at the first of them.

A simplification gives its polynomial as a document, and a document of a polynomial is decoded to the
same polynomial whether its coefficients are still a row of texts or were read as an array.  So a check
may be given the result of the simplification in place of its own.

The guard takes the distance of the bounds in unsigned words and compares it with the limit as such a
word.  There are one more points than the distance, a number that need not be a word, but nothing
computes it.

* `Tool.run_check_eq` — the steps of a check.
* `ToolCall.given_closed_form_is_default` — **polynomial documents round trip, and a given closed form is
  the default.**
* `ToolCall.range_guard_exact` — **the guard refuses exactly the ranges with too many points;** of every
  other range the check looks at all points, unless the term limit ends it.
-/

namespace ClosedForm

/-! ## The polynomial of a check -/

/-- The second parameters are the first with one more. -/
structure Fields.Adds (parameters parameters' : Fields) (key : String) (d : Document) : Prop where
  absent : parameters.get? key = none
  present : parameters'.get? key = some d
  others : ∀ other, other ≠ key → parameters'.get? other = parameters.get? other

namespace Fields

/-- A parameter that was not there, put before the others. -/
lemma adds_cons {parameters : Fields} {key : String} (h : parameters.get? key = none) (d : Document) :
    parameters.Adds ((key, d) :: parameters) key d := by
  refine ⟨h, ?_, fun other hother => ?_⟩
  · rw [get?, List.lookup_cons_self]
  · rw [get?, List.lookup_cons, beq_false_of_ne hother]
    rfl

end Fields

namespace Tool

variable {limits : Limits} {parameters parameters' : Fields} {e : Expr} {p : Poly}

/-- A check takes the expression, the polynomial and the bounds from its parameters, in this order. -/
lemma run_check_eq (limits : Limits) (parameters : Fields) :
    check.run limits parameters = (parameters.expressionParameter "expr").bind fun e =>
      (checkedPoly limits parameters e).bind fun p =>
        (parameters.wordParameter "from" 0).bind fun lower =>
          (parameters.wordParameter "to" 10).bind fun upper =>
            (limits.admitRange lower upper).bind fun _ =>
              .ok (checkResponse p (checkWithin e p lower upper limits.maxTerms)) := rfl

lemma checkedPoly_of_describedBy {fields : Fields} (hp : p.DescribedBy fields)
    (hkey : parameters.get? "polynomial" = some (.object fields)) (limits : Limits) (e : Expr) :
    checkedPoly limits parameters e = .ok p := by
  rw [checkedPoly, hkey]
  exact Poly.ofFields_of_describedBy hp

/-- A check with the closed form as its polynomial is the check without a polynomial. -/
lemma run_check_of_adds {fields : Fields}
    (hadds : parameters.Adds parameters' "polynomial" (.object fields)) (hp : p.DescribedBy fields)
    (he : parameters.expressionParameter "expr" = .ok e)
    (hsimplify : (limits.simplifier 0).simplify e = .ok p) :
    check.run limits parameters' = check.run limits parameters := by
  have hexpr : parameters'.expressionParameter "expr" = parameters.expressionParameter "expr" := by
    rw [Fields.expressionParameter, Fields.expressionParameter, hadds.others "expr" (by decide)]
  have hword (key : String) (hkey : key ≠ "polynomial") (default : Int64) :
      parameters'.wordParameter key default = parameters.wordParameter key default := by
    rw [Fields.wordParameter, Fields.wordParameter, hadds.others key hkey]
  have hpoly : checkedPoly limits parameters' e = checkedPoly limits parameters e := by
    have hdefault : checkedPoly limits parameters e = (limits.simplifier 0).simplify e := by
      rw [checkedPoly, hadds.absent]
    rw [checkedPoly_of_describedBy hp hadds.present, hdefault, hsimplify]
  rw [run_check_eq, run_check_eq, hexpr, he, hword "from" (by decide), hword "to" (by decide)]
  simp only [Except.bind, hpoly]

end Tool

namespace ToolCall

variable {limits : Limits} {call : ToolCall}

/-- A simplification without a degree limit of its own that has succeeded. -/
lemma exists_poly_of_simplify (htool : Tool.ofName? call.tool = some .simplify)
    (hdegree : call.parameters.get? "max_degree" = none) (herror : (call.respond limits).error = "") :
    ∃ e p, call.parameters.expressionParameter "expr" = .ok e ∧
      (limits.simplifier 0).simplify e = .ok p ∧ (call.respond limits).result = some p.toDocument := by
  obtain ⟨tool, htool', hrun⟩ := exists_run_of_error_eq_empty herror
  rw [htool] at htool'
  cases htool'
  have hrequested : call.parameters.wordParameter "max_degree" 0 = .ok 0 := by
    rw [Fields.wordParameter, hdegree]
  rw [Tool.run_simplify_eq limits hrequested] at hrun
  obtain ⟨e, he, hrun⟩ := exists_of_bind_eq_ok hrun
  obtain ⟨p, hp, hrun⟩ := exists_of_bind_eq_ok hrun
  have hresponse := Except.ok.inj hrun
  exact ⟨e, p, he, hp, by rw [← hresponse]; rfl⟩

/-- **Polynomial documents round trip, so a check may be given the polynomial that it would take.**  The
document of a polynomial is decoded to that polynomial, as it is and as its text is read.  And a check
gives the same response with the result of a successful simplification of its expression, in either form,
as without a polynomial. -/
theorem given_closed_form_is_default :
    (∀ p : Poly, Poly.ofFields? p.toDocument.fields? = .ok p ∧
      Json.first (Json.write p.toDocument) = .ok (.object p.fieldsRead) ∧
      Poly.ofFields? (some p.fieldsRead) = .ok p) ∧
    ∀ (limits : Limits) (call call' simplification : ToolCall) (result d : Document),
      Tool.ofName? simplification.tool = some .simplify →
      simplification.parameters.get? "expr" = call.parameters.get? "expr" →
      simplification.parameters.get? "max_degree" = none →
      (simplification.respond limits).error = "" →
      (simplification.respond limits).result = some result →
      (d = result ∨ Json.first (Json.write result) = .ok d) →
      Tool.ofName? call.tool = some .check → Tool.ofName? call'.tool = some .check →
      call.parameters.Adds call'.parameters "polynomial" d →
        call'.respond limits = call.respond limits := by
  refine ⟨fun p => ⟨?_, p.first_write_toDocument, ?_⟩, ?_⟩
  · obtain ⟨fields, hdocument, hp⟩ := p.describedBy_toDocument
    rw [hdocument]
    exact Poly.ofFields_of_describedBy hp
  · exact Poly.ofFields_of_describedBy p.describedBy_fieldsRead
  · intro limits call call' simplification result d hsimplification hexpr hdegree herror hresult hd
      hcall hcall' hadds
    obtain ⟨e, p, he, hp, hresult'⟩ := exists_poly_of_simplify hsimplification hdegree herror
    obtain rfl : p.toDocument = result := Option.some.inj (hresult'.symm.trans hresult)
    have he' : call.parameters.expressionParameter "expr" = .ok e := by
      rw [← he, Fields.expressionParameter, Fields.expressionParameter, hexpr]
    have hdescribed : ∃ fields, d = .object fields ∧ p.DescribedBy fields := by
      rcases hd with rfl | hd
      · exact p.describedBy_toDocument
      · have hread := Except.ok.inj (hd.symm.trans p.first_write_toDocument)
        exact ⟨p.fieldsRead, hread, p.describedBy_fieldsRead⟩
    obtain ⟨fields, rfl, hfields⟩ := hdescribed
    have hrun := Tool.run_check_of_adds hadds hfields he' hp
    simp only [respond, hcall, hcall', hrun]

/-- The sum of the numbers from 1 to `x` is checked against its closed form, as it is read from the text of
what the simplification has given, with the same response as without: the check passes. -/
theorem respond_gauss_given_closed_form :
    let simplification : ToolCall := ⟨"Simplify", gaussParameters⟩
    let given : Document :=
      .object [("divider", .text "2"), ("coefficients", .array [.text "0", .text "1", .text "1"])]
    let call : ToolCall := ⟨"check", gaussParameters⟩
    let call' : ToolCall := ⟨"Check", ("polynomial", given) :: gaussParameters⟩
    (simplification.respond ⟨2, 10, 11⟩).result = some gaussForm.toDocument ∧
      Json.first (Json.write gaussForm.toDocument) = .ok given ∧
      call'.respond ⟨2, 10, 11⟩ = call.respond ⟨2, 10, 11⟩ ∧
      call'.respond ⟨2, 10, 11⟩ =
        .ofPoly gaussForm (.object [("ok", .bool true), ("polynomial", gaussForm.toDocument)]) := by
  intro simplification given call call'
  have hsimplify : Tool.ofName? "Simplify" = some .simplify := rfl
  have hcall : Tool.ofName? "check" = some .check := rfl
  have hcall' : Tool.ofName? "Check" = some .check := rfl
  have hp : (Limits.simplifier ⟨2, 10, 11⟩ 0).simplify gaussSum = .ok gaussForm := rfl
  have hresponse := respond_of_simplify _ simplification hsimplify expressionParameter_gauss rfl hp
  have herror : (simplification.respond ⟨2, 10, 11⟩).error = "" := by
    rw [hresponse]
    rfl
  have hresult : (simplification.respond ⟨2, 10, 11⟩).result = some gaussForm.toDocument := by
    rw [hresponse]
    rfl
  have hadds : call.parameters.Adds call'.parameters "polynomial" given := Fields.adds_cons rfl given
  obtain ⟨hdocuments, hcheck⟩ := given_closed_form_is_default
  obtain ⟨-, hread, -⟩ := hdocuments gaussForm
  have hsame : call'.respond ⟨2, 10, 11⟩ = call.respond ⟨2, 10, 11⟩ :=
    hcheck _ call call' simplification _ given hsimplify rfl rfl herror hresult (.inr hread) hcall
      hcall' hadds
  exact ⟨hresult, hread, hsame, hsame.trans respond_check_gauss⟩

end ToolCall

/-! ## The range of a check -/

namespace Limits

variable {limits : Limits} {lower upper : Int64}

/-- The range has more points than allowed: its bounds are in order, and their distance and one more is
above the limit. -/
def TooManyPoints (limits : Limits) (lower upper : Int64) : Prop :=
  lower.toInt ≤ upper.toInt ∧ limits.maxCheckRange.toInt < upper.toInt - lower.toInt + 1

/-- The error of a check of more points than allowed. -/
def rangeError (limits : Limits) (lower upper : Int64) : Error :=
  .within (.tooManyPoints lower.toInt upper.toInt limits.maxCheckRange.toInt) (.sentinel .rangeLimit)

/-- The guard lets a range through, or it refuses it with this error. -/
lemma admitRange_eq_or (limits : Limits) (lower upper : Int64) :
    limits.admitRange lower upper = .ok () ∨
      limits.admitRange lower upper = .error (limits.rangeError lower upper) := by
  unfold admitRange rangeError
  split
  · exact .inr rfl
  · exact .inl rfl

/-- With a limit on the points, what is let through is what does not have too many. -/
lemma admitRange_eq_ok_iff_not_tooManyPoints (hlimit : 0 < limits.maxCheckRange) :
    limits.admitRange lower upper = .ok () ↔ ¬limits.TooManyPoints lower upper := by
  have hpos : 0 < limits.maxCheckRange.toInt := by
    rwa [Int64.lt_iff_toInt_lt, Int64.toInt_zero] at hlimit
  rw [admitRange_eq_ok_iff, TooManyPoints, Admits]
  constructor
  · rintro h ⟨hle, hmany⟩
    have hfew := h hle hpos
    omega
  · intro h hle _
    by_contra hmany
    exact h ⟨hle, not_le.1 hmany⟩

/-- A range without too many points has at most as many as allowed, none if its bounds are crossed. -/
lemma points_le_of_not_tooManyPoints (hlimit : 0 < limits.maxCheckRange)
    (h : ¬limits.TooManyPoints lower upper) :
    max 0 (upper.toInt - lower.toInt + 1) ≤ limits.maxCheckRange.toInt := by
  rw [Int64.lt_iff_toInt_lt, Int64.toInt_zero] at hlimit
  unfold TooManyPoints at h
  omega

end Limits

namespace ToolCall

variable {limits : Limits} {call : ToolCall} {e : Expr} {p : Poly} {lower upper : Int64}

/-- What is left of a check once its parameters are accepted. -/
lemma run_check_of_accepted (he : call.parameters.expressionParameter "expr" = .ok e)
    (hp : Tool.checkedPoly limits call.parameters e = .ok p)
    (hlower : call.parameters.wordParameter "from" 0 = .ok lower)
    (hupper : call.parameters.wordParameter "to" 10 = .ok upper) :
    Tool.check.run limits call.parameters = (limits.admitRange lower upper).bind fun _ =>
      .ok (Tool.checkResponse p (checkWithin e p lower upper limits.maxTerms)) := by
  rw [Tool.run_check_eq, he]
  simp only [Except.bind, hp, hlower, hupper]

/-- **The range guard is exact over all 64-bit bounds.**  With a limit on the points of a check, a call
whose expression, polynomial and bounds are accepted is refused with the range limit exactly if its range
has too many points, counted by integers.  Otherwise the response is that of the check, which looks at
every point of the range, or at those up to the first one that exceeds the term limit; these are no more
than allowed. -/
theorem range_guard_exact (limits : Limits) (call : ToolCall) (hlimit : 0 < limits.maxCheckRange)
    (htool : Tool.ofName? call.tool = some .check)
    (he : call.parameters.expressionParameter "expr" = .ok e)
    (hp : Tool.checkedPoly limits call.parameters e = .ok p)
    (hlower : call.parameters.wordParameter "from" 0 = .ok lower)
    (hupper : call.parameters.wordParameter "to" 10 = .ok upper) :
    ((∃ err, Tool.check.run limits call.parameters = .error err ∧ err.wraps .rangeLimit = true) ↔
      limits.TooManyPoints lower upper) ∧
    (limits.TooManyPoints lower upper →
      call.respond limits = .ofError (limits.rangeError lower upper)) ∧
    (¬limits.TooManyPoints lower upper → ∃ points,
      checkVisiting e p limits.maxTerms lower upper =
        (checkWithin e p lower upper limits.maxTerms, points) ∧
      call.respond limits =
        Tool.checkResponse p (checkWithin e p lower upper limits.maxTerms) ∧
      Visited e limits.maxTerms lower.toInt upper.toInt points ∧
      max 0 (upper.toInt - lower.toInt + 1) ≤ limits.maxCheckRange.toInt) := by
  have hrun := run_check_of_accepted he hp hlower hupper
  have hguard : limits.admitRange lower upper = .ok () ↔ ¬limits.TooManyPoints lower upper :=
    Limits.admitRange_eq_ok_iff_not_tooManyPoints hlimit
  rcases limits.admitRange_eq_or lower upper with hadmits | hrefuses
  · have hfew := hguard.1 hadmits
    rw [hadmits] at hrun
    have hhole : e ≠ .hole := by
      rintro rfl
      exact Fields.scoped_of_expressionParameter he
    refine ⟨⟨?_, fun hmany => absurd hmany hfew⟩, fun hmany => absurd hmany hfew, fun _ => ?_⟩
    · rintro ⟨err, herr, -⟩
      cases hrun.symm.trans herr
    · have houtcome := fst_checkVisiting e p limits.maxTerms lower upper
      exact ⟨_, Prod.ext houtcome rfl, respond_of_run htool hrun,
        visited_checkVisiting hhole p limits.maxTerms lower upper,
        Limits.points_le_of_not_tooManyPoints hlimit hfew⟩
  · have hmany : limits.TooManyPoints lower upper := by
      by_contra hfew
      cases hrefuses.symm.trans (hguard.2 hfew)
    rw [hrefuses] at hrun
    refine ⟨⟨fun _ => hmany, fun _ => ⟨_, hrun, rfl⟩⟩, fun _ => ?_, fun hfew => absurd hmany hfew⟩
    simp only [respond, htool, hrun]
    rfl

/-- A call for a check of the sum of the numbers from 1 to `x` between these bounds. -/
def gaussCheck (lower upper : Int64) : ToolCall :=
  ⟨"check", ("from", .integer lower) :: ("to", .integer upper) :: gaussParameters⟩

lemma checkedPoly_gaussCheck (range lower upper : Int64) :
    Tool.checkedPoly ⟨2, 0, range⟩ (gaussCheck lower upper).parameters gaussSum = .ok gaussForm := by
  have habsent : (gaussCheck lower upper).parameters.get? "polynomial" = none := rfl
  have hsimplify : Simplifier.simplify ⟨2, 0⟩ gaussSum = .ok gaussForm := rfl
  rw [Tool.checkedPoly, habsent]
  exact hsimplify

/-- All words together are more points than any limit allows; the three points around 0 are as many as a
limit of three allows; and between the crossed extremes there is no point to look at. -/
theorem gaussCheck_at_the_extremes :
    (gaussCheck Int64.minValue Int64.maxValue).respond ⟨2, 0, Int64.maxValue⟩ =
      .ofError (Limits.rangeError ⟨2, 0, Int64.maxValue⟩ Int64.minValue Int64.maxValue) ∧
    (∃ points, Visited gaussSum 0 (-1) 1 points ∧ (gaussCheck (-1) 1).respond ⟨2, 0, 3⟩ =
      Tool.checkResponse gaussForm (checkWithin gaussSum gaussForm (-1) 1 0)) ∧
    (gaussCheck Int64.maxValue Int64.minValue).respond ⟨2, 0, 1⟩ = Tool.checkResponse gaussForm none ∧
      checkVisiting gaussSum gaussForm 0 Int64.maxValue Int64.minValue = (none, []) := by
  have hcheck : Tool.ofName? "check" = some .check := rfl
  have hguard (range lower upper : Int64) (hrange : 0 < range) :=
    range_guard_exact ⟨2, 0, range⟩ (gaussCheck lower upper) hrange hcheck expressionParameter_gauss
      (checkedPoly_gaussCheck range lower upper) (Fields.wordParameter_of_toInteger rfl rfl 0)
      (Fields.wordParameter_of_toInteger rfl rfl 10)
  have hmany : Limits.TooManyPoints ⟨2, 0, Int64.maxValue⟩ Int64.minValue Int64.maxValue :=
    ⟨by decide, by decide⟩
  have hthree : ¬Limits.TooManyPoints ⟨2, 0, 3⟩ (-1) 1 := fun h => absurd h.2 (by decide)
  have hcrossed : ¬Limits.TooManyPoints ⟨2, 0, 1⟩ Int64.maxValue Int64.minValue :=
    fun h => absurd h.1 (by decide)
  have hnone : checkWithin gaussSum gaussForm Int64.maxValue Int64.minValue 0 = none := rfl
  obtain ⟨-, hrefused, -⟩ := hguard Int64.maxValue Int64.minValue Int64.maxValue (by decide)
  obtain ⟨-, -, hthree'⟩ := hguard 3 (-1) 1 (by decide)
  obtain ⟨-, -, hcrossed'⟩ := hguard 1 Int64.maxValue Int64.minValue (by decide)
  obtain ⟨points, -, hresponse, hvisited, -⟩ := hthree' hthree
  obtain ⟨nowhere, houtcome, hresponse', hvisited', -⟩ := hcrossed' hcrossed
  have hlength : (nowhere.length : ℤ) ≤ 0 := hvisited'.length_le
  have hnowhere : nowhere = [] := List.length_eq_zero_iff.1 (by omega)
  rw [hnone, hnowhere] at houtcome
  rw [hnone] at hresponse'
  exact ⟨hrefused hmany, ⟨points, hvisited, hresponse⟩, hresponse', houtcome⟩

end ToolCall
end ClosedForm
