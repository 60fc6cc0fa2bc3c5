import ClosedForm.Proofs.Expr.Regrouping
import ClosedForm.Proofs.Text.Numerals
import Mathlib.Data.List.GetD
import Mathlib.Data.List.Nodup
import Mathlib.Data.List.Perm.Basic

/-!
# Fresh index names never shadow

A summation is given the next index name before its body is built, and the summation itself is there only
when its body is.  In between, the builder of the body has the index and can do anything with it: build
further summations, put the index outside of the one that it was given for, or use what was built before
as often as it likes.

What a run of the constructors does is written down as a `Script`, and running it goes through `summation`
itself.

* `Script`, `Script.run` — the calls of a run, one inside of the other, and what they lead to.
* `issues_after` — **a run gives consecutive names:** the calls that return between two points of a run are
  those with the names that the counter went past in between.
* `accounted_after` — **a summation contains only summations that returned before it.**
* `fresh_names_never_shadow` — so it never contains another one of its name.
-/

namespace ClosedForm
namespace Expr

/-! ## Summations in an expression -/

/-- The summations in an expression, itself included. -/
def summations : Expr → List Expr
  | add a b => summations a ++ summations b
  | mul a b => summations a ++ summations b
  | sum lower upper name body =>
    sum lower upper name body :: (summations lower ++ summations upper ++ summations body)
  | _ => []

/-- The summations in the bounds and in the body of a summation. -/
def innerSummations : Expr → List Expr
  | sum lower upper _ body => summations lower ++ summations upper ++ summations body
  | _ => []

/-- The name of a summation's index. -/
def boundName? : Expr → Option RawText
  | sum _ _ name _ => some name
  | _ => none

/-- The first expression is a summation, and binds the index that the second one is. -/
def Binds (e i : Expr) : Prop := ∃ name, e.boundName? = some name ∧ i = index name

/-- No summation contains another one of its name, neither in its bounds nor in its body. -/
def Unrepeated (e : Expr) : Prop :=
  ∀ lower upper name body, sum lower upper name body ∈ e.summations →
    name ∉ lower.indices ++ upper.indices ++ body.indices

lemma indices_eq_filterMap (e : Expr) : e.indices = e.summations.filterMap boundName? := by
  induction e with
  | add a b iha ihb => simp [indices, summations, iha, ihb]
  | mul a b iha ihb => simp [indices, summations, iha, ihb]
  | sum lower upper name body ihl ihu ihb =>
      simp [indices, summations, boundName?, ihl, ihu, ihb]
  | _ => rfl

lemma summations_apply (op : Operation) (a b : Expr) :
    (op.apply a b).summations = a.summations ++ b.summations := by
  cases op <;> rfl

lemma summations_all (op : Operation) (es : List Expr) :
    (op.all es).summations = es.flatMap summations := by
  cases es with
  | nil => cases op <;> rfl
  | cons e es =>
      rw [Operation.all_cons]
      induction es generalizing e with
      | nil => simp
      | cons e' es ih => rw [List.foldl_cons, ih, List.flatMap_cons, summations_apply]; simp

/-! ## Runs of the constructors -/

/-- A call of a constructor that takes no name.  Operands stand at places, counted in the order in which
a run has obtained its expressions; a place where nothing stands is a hole. -/
inductive PlainCall
  | const (v : Int)
  | param
  | all (op : Operation) (operands : List ℕ)
  | sub (a b : ℕ)
  | neg (a : ℕ)

/-- The expression that a call gives. -/
def PlainCall.build (fetch : ℕ → Expr) : PlainCall → Expr
  | const v => .const v
  | param => .param
  | all op operands => op.all (operands.map fetch)
  | sub a b => .sub (fetch a) (fetch b)
  | neg a => .neg (fetch a)

/-- The calls of a run.  Each expression that one gives takes the next place. -/
inductive Script
  | done
  | plain (call : PlainCall) (rest : Script)
  /-- The index takes the next place.  The builder then makes the calls of `body` and gives what stands at
  `result`; at last the summation takes its place. -/
  | summation (lower upper : ℕ) (body : Script) (result : ℕ) (rest : Script)

/-- A summation call that has returned: the index that its builder was given, and the expression. -/
structure SummationCall where
  index : Expr
  result : Expr

/-- What a run has so far: all expressions, and the summation calls in the order in which they returned. -/
structure Workbench where
  known : List Expr := []
  calls : List SummationCall := []

namespace Workbench

/-- The expression at a place. -/
def fetch (w : Workbench) (place : ℕ) : Expr := w.known.getD place hole

/-- Gives an expression the next place. -/
def keep (w : Workbench) (e : Expr) : Workbench := { w with known := w.known ++ [e] }

/-- Gives a summation the next place.  Its index stands at `place`. -/
def close (w : Workbench) (place : ℕ) (e : Expr) : Workbench :=
  ⟨w.known ++ [e], w.calls ++ [⟨w.fetch place, e⟩]⟩

/-- The summations that have been built. -/
def results (w : Workbench) : List Expr := w.calls.map SummationCall.result

lemma results_keep (w : Workbench) (e : Expr) : (w.keep e).results = w.results := rfl

lemma results_close (w : Workbench) (place : ℕ) (e : Expr) :
    (w.close place e).results = w.results ++ [e] := List.map_append

end Workbench

namespace Script

/-- How many summations are called, those of the builders included. -/
def calls : Script → ℕ
  | done => 0
  | plain _ rest => rest.calls
  | summation _ _ body _ rest => 1 + body.calls + rest.calls

/-- Makes the calls. -/
def build : Script → StateT Workbench (StateM UInt64) Unit
  | done => pure ()
  | plain call rest => do
    modify fun w => w.keep (call.build w.fetch)
    rest.build
  | summation lower upper body result rest => do
    let w ← getThe Workbench
    let e ← Expr.summation (w.fetch lower) (w.fetch upper) fun i => do
      modify (Workbench.keep · i)
      body.build
      return (← getThe Workbench).fetch result
    modify (Workbench.close · w.known.length e)
    rest.build

/-- What there is after the calls, and the counter. -/
def after (script : Script) (w : Workbench) (n : UInt64) : Workbench × UInt64 :=
  let ((_, w), n) := (script.build.run w).run n
  (w, n)

/-- What a run leads to, from nothing and any counter. -/
def run (script : Script) (start : UInt64) : Workbench := (script.after {} start).1

lemma after_done (w : Workbench) (n : UInt64) : done.after w n = (w, n) := rfl

lemma after_plain (call : PlainCall) (rest : Script) (w : Workbench) (n : UInt64) :
    (plain call rest).after w n = rest.after (w.keep (call.build w.fetch)) n := rfl

lemma after_summation (lower upper : ℕ) (body : Script) (result : ℕ) (rest : Script) (w : Workbench)
    (n : UInt64) :
    (summation lower upper body result rest).after w n =
      let inner := body.after (w.keep (index (indexName (n + 1)))) (n + 1)
      rest.after (inner.1.close w.known.length
        (sum (w.fetch lower) (w.fetch upper) (indexName (n + 1)) (inner.1.fetch result))) inner.2 :=
  rfl

end Script

/-! ## Consecutive names -/

lemma indexName_injective : Function.Injective indexName := by
  intro m n h
  have htext : Text.integer m.toNat = Text.integer n.toNat := by
    simpa [indexName, String.ext_iff] using h
  exact UInt64.toNat_inj.1 (by exact_mod_cast Text.integer_injective htext)

/-- The name that the `k`-th summation call of a run is given, counted from 0. -/
def nameAt (start : UInt64) (k : ℕ) : RawText := indexName (start + .ofNat (k + 1))

/-- The counter has room for as many names as there are words. -/
lemma nameAt_inj {start : UInt64} {j k : ℕ} (hj : j < 2 ^ 64) (hk : k < 2 ^ 64)
    (h : nameAt start j = nameAt start k) : j = k := by
  have hword : UInt64.ofNat (j + 1) = .ofNat (k + 1) := by
    simpa using indexName_injective (congrArg RawText.shown h)
  have hnat := congrArg UInt64.toNat hword
  rw [UInt64.toNat_ofNat', UInt64.toNat_ofNat'] at hnat
  omega

/-- The index of a call, and the name that its result binds. -/
def SummationCall.label (c : SummationCall) : Expr × Option RawText := (c.index, c.result.boundName?)

/-- The label of the `k`-th call: its result binds its index. -/
def labelAt (start : UInt64) (k : ℕ) : Expr × Option RawText :=
  (index (nameAt start k), some (nameAt start k))

/-- From one point of a run to a later one, `count` summations are called, the first of them as the
`k`-th of the run.  All of them have returned, in some order, and nothing that was there is lost. -/
structure Issues (start : UInt64) (k count : ℕ) (before : Workbench) (after : Workbench × UInt64) :
    Prop where
  known : before.known <+: after.1.known
  counter : after.2 = start + .ofNat (k + count)
  calls : ∃ (new : List SummationCall) (ordinals : List ℕ), after.1.calls = before.calls ++ new ∧
    new.map SummationCall.label = ordinals.map (labelAt start) ∧ ordinals.Perm (List.range' k count)

namespace Issues

variable {start : UInt64} {k count count' : ℕ} {w : Workbench} {inner after : Workbench × UInt64}

/-- A call that gives an expression without a name. -/
lemma keep (e : Expr) (h : Issues start k count (w.keep e) after) : Issues start k count w after :=
  ⟨(List.prefix_append _ _).trans h.known, h.counter, h.calls⟩

/-- The index is still where it was put when the builder has returned. -/
lemma fetch_index {i : Expr} (h : Issues start k count (w.keep i) inner) :
    inner.1.fetch w.known.length = i := by
  obtain ⟨more, hmore⟩ := h.known
  rw [Workbench.fetch, ← hmore]
  simp [Workbench.keep]

/-- A summation call: its name, then the calls of its builder, then those after it. -/
lemma summation {lower upper body : Expr}
    (hbody : Issues start (k + 1) count (w.keep (index (nameAt start k))) inner)
    (hrest : Issues start (k + 1 + count) count'
      (inner.1.close w.known.length (sum lower upper (nameAt start k) body)) after) :
    Issues start k (1 + count + count') w after := by
  obtain ⟨new, ordinals, hcalls, hlabels, hperm⟩ := hbody.calls
  obtain ⟨new', ordinals', hcalls', hlabels', hperm'⟩ := hrest.calls
  refine ⟨?_, ?_, new ++ ⟨index (nameAt start k), sum lower upper (nameAt start k) body⟩ :: new',
    ordinals ++ k :: ordinals', ?_, ?_, ?_⟩
  · exact (List.prefix_append _ _).trans
      (hbody.known.trans ((List.prefix_append _ _).trans hrest.known))
  · rw [hrest.counter]
    congr 2
    omega
  · rw [hcalls', Workbench.close, hbody.fetch_index, hcalls]
    simp [Workbench.keep]
  · rw [List.map_append, List.map_append, List.map_cons, List.map_cons, hlabels, hlabels']
    rfl
  · have hrange : List.range' k (1 + count + count') =
        k :: (List.range' (k + 1) count ++ List.range' (k + 1 + count) count') := by
      rw [List.range'_append_1, Nat.add_assoc, Nat.add_comm 1, List.range'_succ]
    rw [hrange]
    exact List.perm_middle.trans ((hperm.append hperm').cons k)

end Issues

/-- **A run gives consecutive names,** by induction on its calls. -/
lemma issues_after (script : Script) (w : Workbench) (start : UInt64) (k : ℕ) :
    Issues start k script.calls w (script.after w (start + .ofNat k)) := by
  induction script generalizing w k with
  | done => exact ⟨List.prefix_refl _, rfl, [], [], by simp [Script.after_done], rfl, .refl _⟩
  | plain call rest ih =>
      rw [Script.after_plain]
      exact (ih (w.keep (call.build w.fetch)) k).keep _
  | summation lower upper body result rest ihb ihr =>
      have hnext : start + .ofNat k + 1 = start + .ofNat (k + 1) := by
        rw [UInt64.ofNat_add, ← UInt64.add_assoc]
        rfl
      let inner := body.after (w.keep (index (nameAt start k))) (start + .ofNat (k + 1))
      have hbody : Issues start (k + 1) body.calls (w.keep (index (nameAt start k))) inner := ihb _ _
      have hrest := ihr (inner.1.close w.known.length (sum (w.fetch lower) (w.fetch upper)
        (nameAt start k) (inner.1.fetch result))) (k + 1 + body.calls)
      rw [← hbody.counter] at hrest
      rw [Script.after_summation, hnext]
      exact hbody.summation hrest

/-! ## One summation inside of another -/

/-- Inside of each summation there are only summations that stand before it. -/
inductive Layered : List Expr → Prop
  | nil : Layered []
  | concat {es : List Expr} {e : Expr} (h : Layered es) (he : e.innerSummations ⊆ es) :
    Layered (es ++ [e])

/-- If the names differ, no summation contains another one of its name. -/
lemma Layered.not_mem_indices {es : List Expr} (h : Layered es) (hnodup : (es.map boundName?).Nodup)
    {lower upper body : Expr} {name : RawText} (hmem : sum lower upper name body ∈ es) :
    name ∉ lower.indices ++ upper.indices ++ body.indices := by
  induction h with
  | nil => cases hmem
  | @concat es e _ he ih =>
      rw [List.map_append, List.nodup_append] at hnodup
      obtain ⟨hes, -, hdisjoint⟩ := hnodup
      rcases List.mem_append.1 hmem with hmem | hmem
      · exact ih hes hmem
      · obtain rfl := List.mem_singleton.1 hmem
        intro hname
        simp only [indices_eq_filterMap, ← List.filterMap_append] at hname
        obtain ⟨s, hs, hbound⟩ := List.mem_filterMap.1 hname
        exact hdisjoint _ (List.mem_map.2 ⟨s, he hs, hbound⟩) _ (List.mem_singleton.2 rfl) rfl

/-- Every summation there is has been returned by a call, after all that it contains. -/
structure Workbench.Accounted (w : Workbench) : Prop where
  known : ∀ e ∈ w.known, e.summations ⊆ w.results
  layered : Layered w.results

namespace Workbench.Accounted

variable {w : Workbench}

lemma fetch (h : w.Accounted) (place : ℕ) : (w.fetch place).summations ⊆ w.results := by
  unfold Workbench.fetch
  by_cases hplace : place < w.known.length
  · rw [List.getD_eq_getElem _ _ hplace]
    exact h.known _ (List.getElem_mem hplace)
  · rw [List.getD_eq_default _ _ (not_lt.1 hplace)]
    exact List.nil_subset _

lemma keep (h : w.Accounted) {e : Expr} (he : e.summations ⊆ w.results) : (w.keep e).Accounted := by
  refine ⟨fun e' he' => ?_, h.layered⟩
  rcases List.mem_append.1 he' with he' | he'
  · exact h.known e' he'
  · exact List.mem_singleton.1 he' ▸ he

lemma close (h : w.Accounted) (place : ℕ) {lower upper body : Expr} (name : RawText)
    (hlower : lower.summations ⊆ w.results) (hupper : upper.summations ⊆ w.results)
    (hbody : body.summations ⊆ w.results) : (w.close place (sum lower upper name body)).Accounted := by
  have hinner : (sum lower upper name body).innerSummations ⊆ w.results :=
    List.append_subset.2 ⟨List.append_subset.2 ⟨hlower, hupper⟩, hbody⟩
  refine ⟨fun e he => ?_, results_close .. ▸ h.layered.concat hinner⟩
  rw [results_close]
  rcases List.mem_append.1 he with he | he
  · exact List.subset_append_of_subset_left _ (h.known e he)
  · obtain rfl := List.mem_singleton.1 he
    exact List.cons_subset.2 ⟨by simp, List.subset_append_of_subset_left _ hinner⟩

end Workbench.Accounted

lemma summations_build (call : PlainCall) {fetch : ℕ → Expr} {results : List Expr}
    (hfetch : ∀ place, (fetch place).summations ⊆ results) :
    (call.build fetch).summations ⊆ results := by
  cases call with
  | const v => exact List.nil_subset _
  | param => exact List.nil_subset _
  | all op operands =>
      intro s hs
      rw [PlainCall.build, summations_all, List.flatMap_map] at hs
      obtain ⟨place, -, hs⟩ := List.mem_flatMap.1 hs
      exact hfetch place hs
  | sub a b => exact List.append_subset.2 ⟨hfetch a, hfetch b⟩
  | neg a => exact hfetch a

/-- **A summation contains only summations that returned before it,** by induction on the calls. -/
lemma accounted_after (script : Script) {w : Workbench} (n : UInt64) (h : w.Accounted) :
    (script.after w n).1.Accounted ∧ w.results ⊆ (script.after w n).1.results := by
  induction script generalizing w n with
  | done => exact ⟨h, List.Subset.refl _⟩
  | plain call rest ih =>
      rw [Script.after_plain]
      exact ih n (h.keep (summations_build call h.fetch))
  | summation lower upper body result rest ihb ihr =>
      obtain ⟨hinner, hsubset⟩ := ihb (n + 1) (h.keep (e := index (indexName (n + 1))) (List.nil_subset _))
      rw [Workbench.results_keep] at hsubset
      -- The bounds were there before the body was built, so what they contain has not got lost.
      have hbound (place : ℕ) : (w.fetch place).summations ⊆ _ := List.Subset.trans (h.fetch place) hsubset
      have hclosed := hinner.close w.known.length (indexName (n + 1)) (hbound lower) (hbound upper)
        (hinner.fetch result)
      obtain ⟨hrest, hsubset'⟩ := ihr _ hclosed
      rw [Workbench.results_close] at hsubset'
      rw [Script.after_summation]
      exact ⟨hrest, List.Subset.trans (List.subset_append_of_subset_left _ hsubset) hsubset'⟩

/-! ## A whole run -/

/-- What the names of a run keep apart.  No expression that it obtains has a summation inside of another
one of its name; every summation in one is the result of a call; and the result of a call binds the index
of that call, and of no other one. -/
structure Workbench.NeverShadows (w : Workbench) : Prop where
  unrepeated : ∀ e ∈ w.known, e.Unrepeated
  returned : ∀ e ∈ w.known, ∀ s ∈ e.summations, ∃ c ∈ w.calls, c.result = s
  binds_iff : ∀ (i j : ℕ) (hi : i < w.calls.length) (hj : j < w.calls.length),
    w.calls[i].result.Binds w.calls[j].index ↔ i = j

lemma binds_iff_of_label_eq {c d : SummationCall} {start : UInt64} {j k : ℕ}
    (hc : c.label = labelAt start j) (hd : d.label = labelAt start k) :
    c.result.Binds d.index ↔ nameAt start j = nameAt start k := by
  obtain ⟨-, hresult⟩ := Prod.mk.inj hc
  obtain ⟨hindex, -⟩ := Prod.mk.inj hd
  rw [Binds, hresult, hindex]
  simp [eq_comm]

/-- Different ordinals, with no more of them than names, keep the calls apart. -/
lemma Workbench.Accounted.neverShadows {w : Workbench} (h : w.Accounted) {start : UInt64}
    {ordinals : List ℕ} (hlabels : w.calls.map SummationCall.label = ordinals.map (labelAt start))
    (hnodup : ordinals.Nodup) (hlt : ∀ k ∈ ordinals, k < 2 ^ 64) : w.NeverShadows := by
  have hnames : w.results.map boundName? = ordinals.map fun k => some (nameAt start k) := by
    have hsnd := congrArg (List.map Prod.snd) hlabels
    rw [List.map_map, List.map_map] at hsnd
    rwa [results, List.map_map]
  have hdistinct : (w.results.map boundName?).Nodup := by
    rw [hnames]
    refine hnodup.map_on fun j hj k hk hjk => ?_
    exact nameAt_inj (hlt j hj) (hlt k hk) (Option.some.inj hjk)
  have hlength : w.calls.length = ordinals.length := by
    simpa using congrArg List.length hlabels
  have hlabel (i : ℕ) (hi : i < w.calls.length) (hi' : i < ordinals.length) :
      w.calls[i].label = labelAt start ordinals[i] := by
    have hget := List.getElem_of_eq hlabels (i := i) (by rwa [List.length_map])
    rwa [List.getElem_map, List.getElem_map] at hget
  refine ⟨fun e he lower upper name body hs => ?_, fun e he s hs => ?_, fun i j hi hj => ?_⟩
  · exact h.layered.not_mem_indices hdistinct (h.known e he hs)
  · exact List.mem_map.1 (h.known e he hs)
  · have hi' : i < ordinals.length := hlength ▸ hi
    have hj' : j < ordinals.length := hlength ▸ hj
    rw [binds_iff_of_label_eq (hlabel i hi hi') (hlabel j hj hj')]
    constructor
    · intro hij
      have hordinal := nameAt_inj (hlt _ (List.getElem_mem _)) (hlt _ (List.getElem_mem _)) hij
      exact hnodup.getElem_inj_iff.1 hordinal
    · rintro rfl
      rfl

/-- **Fresh names never shadow.**  Whatever the constructors are called for, however their calls nest,
share expressions and let indices out of their summations, and wherever the counter of names stands: with
fewer than 2⁶⁴ summation calls, no summation is inside of another one of its name, neither in its bounds
nor in its body, and no index is bound by a summation other than that of its own call. -/
theorem fresh_names_never_shadow (start : UInt64) (script : Script) (h : script.calls < 2 ^ 64) :
    (script.run start).calls.length = script.calls ∧ (script.run start).NeverShadows := by
  have hempty : ({} : Workbench).Accounted := ⟨fun _ he => (List.not_mem_nil he).elim, .nil⟩
  obtain ⟨haccounted, -⟩ := accounted_after script start hempty
  have hissues := issues_after script {} start 0
  rw [show start + .ofNat 0 = start from UInt64.add_zero start] at hissues
  obtain ⟨new, ordinals, hcalls, hlabels, hperm⟩ := hissues.calls
  rw [← List.nil_append new, ← hcalls] at hlabels
  refine ⟨?_, haccounted.neverShadows hlabels (hperm.nodup_iff.2 List.nodup_range') fun k hk => ?_⟩
  · have hlength := congrArg List.length hlabels
    rw [List.length_map, List.length_map, hperm.length_eq, List.length_range'] at hlength
    exact hlength
  · have hrange := List.mem_range'_1.1 (hperm.mem_iff.1 hk)
    omega

/-- A summation inside of another one.  The inner index is let out: it is subtracted from the outer
summation, and is the body of a third one. -/
def leakyScript : Script :=
  .plain (.const 1) <| .plain .param <|
    .summation 0 1
      (.summation 0 2 (.plain (.all .times [2, 3]) .done) 4 .done) 5
      (.plain (.sub 6 3) <| .summation 6 7 .done 3 .done)

/-- The names are kept apart also where the counter of names runs over. -/
theorem leakyScript_never_shadows :
    leakyScript.calls < 2 ^ 64 ∧ (leakyScript.run 18446744073709551614).NeverShadows ∧
      (leakyScript.run 18446744073709551614).results.map boundName? =
        (["i0", "i18446744073709551615", "i1"] : List RawText).map some := by
  have hcalls : leakyScript.calls < 2 ^ 64 := by decide
  exact ⟨hcalls, (fresh_names_never_shadow _ leakyScript hcalls).2, by decide⟩

end Expr
end ClosedForm
