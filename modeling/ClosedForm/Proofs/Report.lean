import ClosedForm.Proofs.IntegerValued

/-!
# What a check reports

A check reports the points of its range at which the expression and the polynomial do not agree: every
one of them, once, in ascending order, up to the first point whose evaluation exceeds the term limit.

What is reported at a point is `Reported`; which points are to be reported is `Bad` and `Exhausts`,
said without the check.  `Reports` ties the two together over a range, by a list of points that stands
beside the list of parts.

* `bad_iff`, `exhausts_iff` — one point.
* `exists_reports` — the loop, by induction on the number of points that are left.
* `checkWithin_eq_wordLoop` — the points can be counted by a 64-bit word and the parts gathered one by
  one: the word does not wrap, not even at the largest one, and no part is dropped, merged or moved.
* `check_reports_bad_points` collects what a check reports.
-/

namespace ClosedForm

open Polynomial

variable {e : Expr} {p : Poly} {limit : Int64} {n : ℤ}

/-! ## One point -/

/-- The expression and the polynomial do not agree at `n`: the expression has no value there, the
polynomial is no integer there, or the two values differ. -/
inductive Bad (e : Expr) (p : Poly) (limit : Int64) (n : Int) : Prop
  | unevaluated {err : Error} (h : e.evaluateWithin n limit = .error err) : Bad e p limit n
  | fractional (h : ¬IntegralAt p.toPolynomial n) : Bad e p limit n
  | different {v w : Int} (hv : e.evaluateWithin n limit = .ok v)
    (hw : p.toPolynomial.eval (n : ℚ) = w) (h : w ≠ v) : Bad e p limit n

/-- The evaluation of the expression at `n` exceeds the term limit. -/
def Exhausts (e : Expr) (limit : Int64) (n : Int) : Prop :=
  ∃ err, e.evaluateWithin n limit = .error err ∧ err.wraps .termLimit = true

/-- The text of the error says at which point it arose. -/
def Error.Names (n : Int) (err : Error) : Prop :=
  ∃ opening cause, opening ∈ ["expression at ", "polynomial at ", "at "] ∧
    err.message = opening ++ Text.integer n ++ ": " ++ cause

lemma Exhausts.bad (h : Exhausts e limit n) : Bad e p limit n := by
  obtain ⟨err, herr, -⟩ := h
  exact .unevaluated herr

/-- A point is bad exactly if it does not pass. -/
lemma bad_iff : Bad e p limit n ↔ checkAt e p limit n ≠ .agrees := by
  rw [Ne, checkAt_eq_agrees_iff]
  constructor
  · rintro (h | h | ⟨hv, hw, hne⟩) ⟨u, hu, hpu⟩
    · cases hu.symm.trans h
    · exact h ⟨u, (Poly.evaluate_eq_ok_iff p n u).1 hpu⟩
    · cases hu.symm.trans hv
      rw [Poly.evaluate_eq_ok_iff, hw] at hpu
      exact hne (by exact_mod_cast hpu)
  · intro h
    cases hv : e.evaluateWithin n limit with
    | error err => exact .unevaluated hv
    | ok v =>
        by_cases hintegral : IntegralAt p.toPolynomial n
        · obtain ⟨w, hw⟩ := hintegral
          refine .different hv hw fun hwv => h ⟨v, hv, ?_⟩
          rw [Poly.evaluate_eq_ok_iff, hw, hwv]
        · exact .fractional hintegral

/-- The term limit of a point is exceeded exactly if the point ends the check. -/
lemma exhausts_iff : Exhausts e limit n ↔ ∃ err, checkAt e p limit n = .aborts err := by
  unfold Exhausts checkAt
  cases hv : e.evaluateWithin n limit with
  | error err =>
      by_cases h : err.wraps .termLimit = true
      · simp [h]
      · simp [h]
  | ok v =>
      cases hw : p.evaluate n with
      | error err => simp
      | ok w =>
          by_cases h : w = v
          · simp [h]
          · simp [h]

lemma Reported.bad {part : Error} (h : Reported e p limit n part) : Bad e p limit n := by
  cases h with
  | expression h => exact .unevaluated h
  | polynomial _ h =>
      refine .fractional fun ⟨w, hw⟩ => ?_
      rw [(Poly.evaluate_eq_ok_iff p n w).2 hw] at h
      cases h
  | disagreement hv hw hne => exact .different hv ((Poly.evaluate_eq_ok_iff p n _).1 hw) hne

lemma Setting.message_expressionAt (n : Int) :
    (Setting.expressionAt n).message = "expression at " ++ Text.integer n := rfl

lemma Setting.message_polynomialAt (n : Int) :
    (Setting.polynomialAt n).message = "polynomial at " ++ Text.integer n := rfl

lemma Fault.message_disagreement (n got want : Int) :
    (Fault.disagreement n got want).message =
      "at " ++ Text.integer n ++ ": polynomial gives " ++ Text.integer got ++
        ", expression gives " ++ Text.integer want := rfl

lemma Reported.names {part : Error} (h : Reported e p limit n part) : part.Names n := by
  cases h with
  | @expression err =>
      refine ⟨"expression at ", err.message, by simp, ?_⟩
      rw [Error.message, Setting.message_expressionAt]
  | @polynomial _ err =>
      refine ⟨"polynomial at ", err.message, by simp, ?_⟩
      rw [Error.message, Setting.message_polynomialAt]
  | @disagreement want got =>
      refine ⟨"at ", "polynomial gives " ++ Text.integer got ++ ", expression gives " ++
        Text.integer want, by simp, ?_⟩
      have hcolon : ": polynomial gives " = ": " ++ "polynomial gives " := by decide
      rw [Error.message, Fault.message_disagreement, hcolon]
      simp only [String.append_assoc]

/-! ## A range -/

/-- `parts` reports the bad points from `lower` to `upper`, which are `points`: in ascending order, one
part for each, and none after a point that exceeds the term limit. -/
structure Reports (e : Expr) (p : Poly) (limit : Int64) (lower upper : Int) (points : List Int)
    (parts : List Error) : Prop where
  ascending : points.Pairwise (· < ·)
  mem_iff : ∀ n, n ∈ points ↔
    lower ≤ n ∧ n ≤ upper ∧ Bad e p limit n ∧ ∀ m, lower ≤ m → m < n → ¬Exhausts e limit m
  reported : List.Forall₂ (Reported e p limit) points parts

namespace Reports

variable {lower upper : ℤ} {points : List ℤ} {part : Error} {parts : List Error}

lemma empty (h : upper < lower) : Reports e p limit lower upper [] [] := by
  refine ⟨.nil, fun n => ⟨fun hn => absurd hn List.not_mem_nil, ?_⟩, .nil⟩
  rintro ⟨hlower, hupper, -⟩
  omega

/-- A first point that passes is left out. -/
lemma skip (hpasses : ¬Bad e p limit lower) (h : Reports e p limit (lower + 1) upper points parts) :
    Reports e p limit lower upper points parts := by
  refine ⟨h.ascending, fun n => ?_, h.reported⟩
  rw [h.mem_iff]
  constructor
  · rintro ⟨hlower, hupper, hbad, hbefore⟩
    refine ⟨by omega, hupper, hbad, fun m hm hmn hexhausts => ?_⟩
    rcases eq_or_lt_of_le hm with rfl | hlt
    · exact hpasses hexhausts.bad
    · exact hbefore m hlt hmn hexhausts
  · rintro ⟨hlower, hupper, hbad, hbefore⟩
    have hne : lower ≠ n := by
      rintro rfl
      exact hpasses hbad
    exact ⟨by omega, hupper, hbad, fun m hm => hbefore m (by omega)⟩

/-- A first point that is reported and does not end the check comes before all later ones. -/
lemma cons (hle : lower ≤ upper) (hpart : Reported e p limit lower part)
    (hgoes : ¬Exhausts e limit lower) (h : Reports e p limit (lower + 1) upper points parts) :
    Reports e p limit lower upper (lower :: points) (part :: parts) := by
  refine ⟨List.pairwise_cons.2 ⟨fun n hn => ?_, h.ascending⟩, fun n => ?_, .cons hpart h.reported⟩
  · have := ((h.mem_iff n).1 hn).1
    omega
  · rw [List.mem_cons, h.mem_iff]
    constructor
    · rintro (rfl | ⟨hlower, hupper, hbad, hbefore⟩)
      · exact ⟨le_rfl, hle, hpart.bad, fun m hm hmn => by omega⟩
      · refine ⟨by omega, hupper, hbad, fun m hm hmn => ?_⟩
        rcases eq_or_lt_of_le hm with rfl | hlt
        · exact hgoes
        · exact hbefore m hlt hmn
    · rintro ⟨hlower, hupper, hbad, hbefore⟩
      rcases eq_or_lt_of_le hlower with rfl | hlt
      · exact .inl rfl
      · exact .inr ⟨hlt, hupper, hbad, fun m hm => hbefore m (by omega)⟩

/-- A first point that ends the check is reported alone. -/
lemma stop (hle : lower ≤ upper) (hpart : Reported e p limit lower part)
    (hstops : Exhausts e limit lower) : Reports e p limit lower upper [lower] [part] := by
  refine ⟨List.pairwise_singleton _ _, fun n => ?_, .cons hpart .nil⟩
  rw [List.mem_singleton]
  constructor
  · rintro rfl
    exact ⟨le_rfl, hle, hpart.bad, fun m hm hmn => by omega⟩
  · rintro ⟨hlower, -, -, hbefore⟩
    by_contra hne
    exact hbefore lower le_rfl (by omega) hstops

end Reports

/-- **What the loop finds reports the points that are left.** -/
lemma exists_reports (e : Expr) (p : Poly) (limit : Int64) {count : ℕ} (lower upper : ℤ)
    (hcount : (upper - lower + 1).toNat = count) (found : List Error) :
    ∃ points parts, findings e p limit count lower found = parts.reverse ++ found ∧
      Reports e p limit lower upper points parts := by
  induction count generalizing lower found with
  | zero => exact ⟨[], [], rfl, .empty (by omega)⟩
  | succ count ih =>
      have hle : lower ≤ upper := by omega
      have hrest : (upper - (lower + 1) + 1).toNat = count := by omega
      rw [findings_succ]
      cases hat : checkAt e p limit lower with
      | agrees =>
          obtain ⟨points, parts, hfound, h⟩ := ih (lower + 1) hrest found
          exact ⟨points, parts, hfound, h.skip fun hbad => bad_iff.1 hbad hat⟩
      | wrong err =>
          obtain ⟨points, parts, hfound, h⟩ := ih (lower + 1) hrest (err :: found)
          have hgoes : ¬Exhausts e limit lower := by
            rw [exhausts_iff (p := p), hat]
            simp
          refine ⟨lower :: points, err :: parts, ?_, h.cons hle (reported_of_checkAt (.inl hat)) hgoes⟩
          simpa using hfound
      | aborts err =>
          exact ⟨[lower], [err], rfl,
            .stop hle (reported_of_checkAt (.inr hat)) (exhausts_iff.2 ⟨err, hat⟩)⟩

/-! ## Gathering the parts one by one -/

lemma Outcome.append_some (a b : Error) :
    Outcome.append (some a) (some b) =
      some (.several (Outcome.parts (some a) ++ Outcome.parts (some b))) := rfl

lemma Outcome.exists_ofParts_cons (err : Error) (es : List Error) :
    ∃ a, Outcome.ofParts (err :: es) = some a := by
  rcases es with _ | ⟨e₁, es⟩
  · exact ⟨err, rfl⟩
  · exact ⟨.several (err :: e₁ :: es), rfl⟩

/-- **Appending two outcomes sets their parts side by side.** -/
lemma Outcome.append_ofParts {es fs : List Error} (hes : ∀ parts, .several parts ∉ es)
    (hfs : ∀ parts, .several parts ∉ fs) :
    (Outcome.ofParts es).append (Outcome.ofParts fs) = Outcome.ofParts (es ++ fs) := by
  rcases es with _ | ⟨e₁, es⟩
  · rfl
  rcases fs with _ | ⟨f₁, fs⟩
  · rw [List.append_nil]
    rcases es with _ | ⟨e₂, es⟩ <;> rfl
  · obtain ⟨a, ha⟩ := Outcome.exists_ofParts_cons e₁ es
    obtain ⟨b, hb⟩ := Outcome.exists_ofParts_cons f₁ fs
    have hparts := congrArg₂ (· ++ ·) (Outcome.parts_ofParts hes) (Outcome.parts_ofParts hfs)
    rw [ha, hb] at hparts ⊢
    rw [Outcome.append_some, show _ ++ _ = _ from hparts]
    rcases es with _ | ⟨e₂, es⟩ <;> rfl

/-- What is wrong at a point becomes one more part, whatever was found before. -/
lemma append_of_checkAt {found : List Error} (hfound : ∀ parts, .several parts ∉ found) {err : Error}
    (h : checkAt e p limit n = .wrong err ∨ checkAt e p limit n = .aborts err) :
    (∀ parts, .several parts ∉ err :: found) ∧
      (Outcome.ofParts found.reverse).append (some err) = Outcome.ofParts (err :: found).reverse := by
  have herr (parts : List Error) : Error.several parts ≠ err := by
    rintro rfl
    cases reported_of_checkAt h
  refine ⟨fun parts hmem => ?_, ?_⟩
  · rcases List.mem_cons.1 hmem with heq | hmem
    · exact herr parts heq
    · exact hfound parts hmem
  · have hone : some err = Outcome.ofParts [err] := rfl
    rw [hone, Outcome.append_ofParts, List.reverse_cons]
    · simpa using hfound
    · simpa using herr

/-- One step up is one step nearer to `upper`, also where words wrap. -/
lemma toNat_sub_add_one_lt {word upper : Int64} (h : word ≠ upper) :
    (upper.toBitVec - (word + 1).toBitVec).toNat < (upper.toBitVec - word.toBitVec).toNat := by
  have hne : word.toBitVec ≠ upper.toBitVec := fun heq => h (Int64.toBitVec_inj.1 heq)
  have hone : (1 : Int64).toBitVec = 1#64 := rfl
  rw [Int64.toBitVec_add, hone]
  bv_omega

/-- The check as a loop: the point is a word that goes up by one until it is `upper`, and what is wrong
at it is appended to what was found before. -/
def wordLoop (e : Expr) (p : Poly) (limit upper word : Int64) (found : Outcome) : Outcome :=
  Id.run <| lookAt e p limit (fun found err => found.append (some err)) word.toInt found fun found =>
    if h : word = upper then found else wordLoop e p limit upper (word + 1) found
termination_by (upper.toBitVec - word.toBitVec).toNat
decreasing_by exact toNat_sub_add_one_lt h

lemma toInt_add_one_of_lt {word upper : Int64} (h : word.toInt < upper.toInt) :
    (word + 1).toInt = word.toInt + 1 := by
  have hlt := upper.toInt_lt
  have hle := word.le_toInt
  rw [Int64.toInt_add, Int64.toInt_one]
  exact Int.bmod_eq_of_le (by omega) (by omega)

/-- **The loop over words finds what the loop over integers finds.**  The word is compared with `upper`
before it goes up, so it never leaves the range. -/
lemma wordLoop_eq {count : ℕ} {upper word : Int64} (hcount : word.toInt + count = upper.toInt)
    {found : List Error} (hfound : ∀ parts, .several parts ∉ found) :
    wordLoop e p limit upper word (Outcome.ofParts found.reverse) =
      Outcome.ofParts (findings e p limit (count + 1) word.toInt found).reverse := by
  induction count generalizing word found with
  | zero =>
      have hlast : word = upper := Int64.toInt_inj.1 (by omega)
      rw [wordLoop, run_lookAt, findings_succ]
      cases hat : checkAt e p limit word.toInt with
      | agrees => simp only [hlast, dite_true, Id.run, findings_zero]
      | wrong err =>
          simp only [hlast, dite_true, Id.run, findings_zero]
          exact (append_of_checkAt hfound (.inl hat)).2
      | aborts err => exact (append_of_checkAt hfound (.inr hat)).2
  | succ count ih =>
      have hlt : word.toInt < upper.toInt := by omega
      have hmore : word ≠ upper := by
        rintro rfl
        omega
      have hnext := toInt_add_one_of_lt hlt
      have hrest : (word + 1).toInt + count = upper.toInt := by omega
      rw [wordLoop, run_lookAt, findings_succ]
      cases hat : checkAt e p limit word.toInt with
      | agrees =>
          simp only [hmore, dite_false, Id.run]
          rw [ih hrest hfound, hnext]
      | wrong err =>
          obtain ⟨hfound', happend⟩ := append_of_checkAt hfound (.inl hat)
          simp only [hmore, dite_false, Id.run]
          rw [happend, ih hrest hfound', hnext]
      | aborts err => exact (append_of_checkAt hfound (.inr hat)).2

/-- **A check is the loop over the words of its range,** the largest word included. -/
lemma checkWithin_eq_wordLoop (he : e ≠ .hole) {lower upper : Int64} (hle : lower ≤ upper) :
    checkWithin e p lower upper limit = wordLoop e p limit upper lower none := by
  rw [Int64.le_iff_toInt_le] at hle
  obtain ⟨count, hcount⟩ := Int.eq_ofNat_of_zero_le (sub_nonneg.2 hle)
  have hpoints : (upper.toInt - lower.toInt + 1).toNat = count + 1 := by omega
  rw [checkWithin_eq he, hpoints]
  have hnothing : ∀ parts, Error.several parts ∉ ([] : List Error) := by simp
  exact (wordLoop_eq (by omega) hnothing).symm

/-! ## The whole check -/

lemma several_not_mem_findings (e : Expr) (p : Poly) (limit : Int64) (count : ℕ) (lower : ℤ)
    (parts : List Error) : .several parts ∉ findings e p limit count lower [] := by
  intro hmem
  rcases reported_of_mem_findings hmem with hnil | ⟨n, hn⟩
  · cases hnil
  · cases hn

/-- The parts of a check report its range. -/
lemma exists_reports_parts (he : e ≠ .hole) (p : Poly) (lower upper limit : Int64) :
    ∃ points, Reports e p limit lower.toInt upper.toInt points
      (checkWithin e p lower upper limit).parts := by
  have hsingle := several_not_mem_findings e p limit (upper.toInt - lower.toInt + 1).toNat lower.toInt
  obtain ⟨points, parts, hfound, h⟩ := exists_reports e p limit lower.toInt upper.toInt rfl []
  rw [List.append_nil] at hfound
  rw [checkWithin_eq he, Outcome.parts_ofParts (by simpa using hsingle), hfound, List.reverse_reverse]
  exact ⟨points, h⟩

/-- **A check reports exactly the bad points.**  Its parts stand in ascending order for the bad points
of the range up to the first one that exceeds the term limit, one part for each point, whose text names
the point.  So nothing is reported exactly if both sides have a value at every integer of the range, and
the same one.  And the check is the loop over the words of its range, the largest word included, with
every part appended to what came before. -/
theorem check_reports_bad_points (e : Expr) (p : Poly) (lower upper limit : Int64) (he : e ≠ .hole) :
    (∃ points, Reports e p limit lower.toInt upper.toInt points
        (checkWithin e p lower upper limit).parts ∧
      List.Forall₂ Error.Names points (checkWithin e p lower upper limit).parts) ∧
    (checkWithin e p lower upper limit = none ↔
      ∀ n : ℤ, lower.toInt ≤ n → n ≤ upper.toInt →
        ∃ v, e.evaluateWithin n limit = .ok v ∧ p.evaluate n = .ok v) ∧
    (lower ≤ upper → checkWithin e p lower upper limit = wordLoop e p limit upper lower none) := by
  refine ⟨?_, ?_, checkWithin_eq_wordLoop he⟩
  · obtain ⟨points, h⟩ := exists_reports_parts he p lower upper limit
    exact ⟨points, h, h.reported.imp fun n part => Reported.names⟩
  · rw [checkWithin_eq_none_iff he]
    simp only [checkAt_eq_agrees_iff]

/-- The polynomial `x / 2`. -/
def halfLine : Poly := ⟨[0, 1], 2, by decide⟩

/-- Against the sum of squares, `x / 2` passes at 0, is no integer at 1 and 3, and differs at 2; at 4 the
sum has more than three terms, which ends the check.  And `x` passes against itself up to the largest
word. -/
theorem squarePyramid_reports_four_points :
    (∃ points, Reports squarePyramid halfLine 3 0 9 points
      [.within (.polynomialAt 1) (.sentinel .notIntegral), .fault (.disagreement 2 1 5),
        .within (.polynomialAt 3) (.sentinel .notIntegral),
        .within (.expressionAt 4) (.within (.inSummation 1 4) (.sentinel .termLimit))]) ∧
      squarePyramid ≠ .hole ∧
      wordLoop .param ⟨[0, 1], 1, by decide⟩ 0 Int64.maxValue (Int64.maxValue - 2) none = none := by
  have hhole : squarePyramid ≠ .hole := by simp [squarePyramid]
  obtain ⟨⟨points, hreports, -⟩, -, -⟩ := check_reports_bad_points squarePyramid halfLine 0 9 3 hhole
  obtain ⟨-, hpasses, hloop⟩ := check_reports_bad_points .param ⟨[0, 1], 1, by decide⟩
    (Int64.maxValue - 2) Int64.maxValue 0 (by simp)
  refine ⟨⟨points, hreports⟩, hhole, ?_⟩
  rw [← hloop (by decide), hpasses]
  intro n _ _
  refine ⟨n, rfl, (Poly.evaluate_eq_ok_iff _ n n).2 ?_⟩
  simp [Poly.toPolynomial]

end ClosedForm
