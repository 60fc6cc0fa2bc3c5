import ClosedForm.Proofs.Server.ToolRoute
import Mathlib.Data.List.Induction
import Mathlib.Data.Prod.Lex
import Mathlib.Data.String.Basic

/-!
# The counters count the calls that ran

The server remembers nothing but its counters, and a tool call that has run adds one to one of them.
So after any requests each counter is the number of calls that ran under its label, and no response
depends on what was asked before.

The counts are a list in the order of their labels.  As long as it is ordered, each label stands in it
at most once, and counting a call changes what is looked up under that label only.

* `Metrics.lookup_insert`, `Metrics.WellFormed.record` — one call counted.
* `Metrics.keepsCounts` — the counters do what is assumed of them, which is all that is used below.
* `serve_cases` — what one request can do.
* `metricsAfter_eq_foldl` — **a server only counts the calls that ran,** by induction on the requests.
* `counters_count_calls` — the counters, what they are shown as, and the answers.
-/

namespace ClosedForm
namespace Server

/-! ## Ordered counts -/

/-- A label as a pair, ordered by its first part and then by its second. -/
def Label.key (l : Label) : Bool ×ₗ String := toLex (l.errorful, l.tool)

lemma Label.key_injective : Function.Injective Label.key := by
  rintro ⟨errorful, tool⟩ ⟨errorful', tool'⟩ h
  cases h
  rfl

lemma Label.before_iff (a b : Label) : a.before b ↔ a.key < b.key := by
  rw [Label.key, Label.key, Prod.Lex.toLex_lt_toLex, Label.before]
  cases a.errorful <;> cases b.errorful <;> simp

namespace Metrics

/-- Counts as the server keeps them: every label at most once, in order, and not for nothing. -/
structure WellFormed (m : Metrics) : Prop where
  ordered : m.counts.Pairwise fun x y => x.1.key < y.1.key
  positive : ∀ x ∈ m.counts, 0 < x.2

lemma lookup_cons_eq (l k : Label) (n : ℕ) (counts : List (Label × ℕ)) :
    ((k, n) :: counts).lookup l = if l = k then some n else counts.lookup l := by
  rw [List.lookup_cons]
  by_cases h : l = k
  · simp [h]
  · simp [h, beq_false_of_ne h]

variable {counts : List (Label × ℕ)} {label : Label}

/-- A label before all others is not among them. -/
lemma lookup_eq_none_of_lt (h : ∀ x ∈ counts, label.key < x.1.key) :
    counts.lookup label = Option.none := by
  rw [List.lookup_eq_none_iff]
  intro x hx
  have hne : label ≠ x.1 := by
    rintro rfl
    exact lt_irrefl _ (h x hx)
  simpa using hne

/-- **Counting a call changes what is looked up under its label only.** -/
lemma lookup_insert (h : counts.Pairwise fun x y => x.1.key < y.1.key) (l : Label) :
    (insert label counts).lookup l =
      if l = label then some ((counts.lookup label).getD 0 + 1) else counts.lookup l := by
  induction counts with
  | nil => exact lookup_cons_eq l label 1 []
  | cons x counts ih =>
      obtain ⟨k, n⟩ := x
      obtain ⟨hfirst, hrest⟩ := List.pairwise_cons.1 h
      rw [insert]
      by_cases hk : k = label
      · subst hk
        rw [if_pos rfl, lookup_cons_eq, lookup_cons_eq, lookup_cons_eq, if_pos rfl]
        split_ifs <;> rfl
      rw [if_neg hk]
      by_cases hbefore : label.before k
      · -- The label comes before the first one, so it was not counted yet.
        have hfresh : ((k, n) :: counts).lookup label = Option.none := by
          have hlt := (Label.before_iff label k).1 hbefore
          refine lookup_eq_none_of_lt (List.forall_mem_cons.2 ⟨hlt, fun x hx => ?_⟩)
          exact hlt.trans (hfirst x hx)
        rw [if_pos hbefore, hfresh, lookup_cons_eq]
        rfl
      · rw [if_neg hbefore, lookup_cons_eq, lookup_cons_eq, lookup_cons_eq, ih hrest,
          if_neg (Ne.symm hk)]
        by_cases hl : l = k
        · have hne : l ≠ label := hl.trans_ne hk
          rw [if_pos hl, if_neg hne, if_pos hl]
        · rw [if_neg hl, if_neg hl]

/-- Counting leaves what there is, but for the count of the label. -/
lemma mem_insert {x : Label × ℕ} (h : x ∈ insert label counts) :
    (x.1 = label ∧ 0 < x.2) ∨ x ∈ counts := by
  induction counts with
  | nil =>
      obtain rfl := List.mem_singleton.1 h
      exact .inl ⟨rfl, Nat.one_pos⟩
  | cons y counts ih =>
      rw [insert] at h
      split_ifs at h with hk
      · rcases List.mem_cons.1 h with rfl | h
        · exact .inl ⟨hk, Nat.succ_pos _⟩
        · exact .inr (List.mem_cons_of_mem y h)
      · rcases List.mem_cons.1 h with rfl | h
        · exact .inl ⟨rfl, Nat.one_pos⟩
        · exact .inr h
      · rcases List.mem_cons.1 h with rfl | h
        · exact .inr (List.mem_cons_self ..)
        · exact (ih h).imp_right (List.mem_cons_of_mem y)

lemma pairwise_insert (h : counts.Pairwise fun x y => x.1.key < y.1.key) :
    (insert label counts).Pairwise fun x y => x.1.key < y.1.key := by
  induction counts with
  | nil => exact List.pairwise_singleton ..
  | cons x counts ih =>
      obtain ⟨k, n⟩ := x
      obtain ⟨hfirst, hrest⟩ := List.pairwise_cons.1 h
      rw [insert]
      split_ifs with hk hbefore
      · exact List.pairwise_cons.2 ⟨hfirst, hrest⟩
      · have hlt := (Label.before_iff label k).1 hbefore
        refine List.pairwise_cons.2 ⟨List.forall_mem_cons.2 ⟨hlt, fun x hx => ?_⟩, h⟩
        exact hlt.trans (hfirst x hx)
      · -- Neither equal nor before, so the label comes later.
        have hlater : k.key < label.key := by
          have hne : k.key ≠ label.key := fun heq => hk (Label.key_injective heq)
          exact lt_of_le_of_ne (not_lt.1 fun hlt => hbefore ((Label.before_iff label k).2 hlt)) hne
        refine List.pairwise_cons.2 ⟨fun x hx => ?_, ih hrest⟩
        rcases mem_insert hx with ⟨hlabel, -⟩ | hmem
        · exact hlabel ▸ hlater
        · exact hfirst x hmem

/-! ### Counters -/

lemma wellFormed_none : WellFormed none := ⟨.nil, fun _ hx => nomatch hx⟩

lemma WellFormed.record {m : Metrics} (h : m.WellFormed) (label : Label) :
    (m.record label).WellFormed := by
  refine ⟨pairwise_insert h.ordered, fun x hx => ?_⟩
  rcases mem_insert hx with ⟨-, hpos⟩ | hmem
  · exact hpos
  · exact h.positive x hmem

lemma count_none (label : Label) : none.count label = 0 := rfl

lemma count_record {m : Metrics} (h : m.WellFormed) (label l : Label) :
    (m.record label).count l = m.count l + if label = l then 1 else 0 := by
  rw [record, count, lookup_insert h.ordered, count]
  by_cases hl : label = l
  · rw [if_pos hl.symm, if_pos hl, hl]
    rfl
  · rw [if_neg (Ne.symm hl), if_neg hl, Nat.add_zero]

lemma lookup_eq_some_iff_mem (h : counts.Pairwise fun x y => x.1.key < y.1.key) {n : ℕ} :
    counts.lookup label = some n ↔ (label, n) ∈ counts := by
  induction counts with
  | nil => simp
  | cons x counts ih =>
      obtain ⟨k, m⟩ := x
      obtain ⟨hfirst, hrest⟩ := List.pairwise_cons.1 h
      rw [lookup_cons_eq, List.mem_cons, Prod.mk.injEq]
      split_ifs with hk
      · have hnot : (label, n) ∉ counts := fun hmem =>
          lt_irrefl k.key (hk ▸ hfirst (label, n) hmem)
        rw [Option.some.injEq, or_iff_left hnot]
        exact ⟨fun hn => ⟨hk, hn.symm⟩, fun hn => hn.2.symm⟩
      · simp [hk, ih hrest]

/-- **What the counts show of a label:** its counter if that is not zero, and nothing otherwise. -/
lemma WellFormed.mem_counts_iff {m : Metrics} (h : m.WellFormed) {n : ℕ} :
    (label, n) ∈ m.counts ↔ 0 < n ∧ n = m.count label := by
  rw [← lookup_eq_some_iff_mem h.ordered, count]
  cases hlookup : m.counts.lookup label with
  | none =>
      simp only [reduceCtorEq, Option.getD_none, false_iff]
      omega
  | some k =>
      have hpos := h.positive _ ((lookup_eq_some_iff_mem h.ordered).1 hlookup)
      simp only [Option.some.injEq, Option.getD_some]
      dsimp only at hpos
      omega

lemma wellFormed_foldl (counted : List Label) : (counted.foldl record none).WellFormed := by
  induction counted using List.reverseRecOn with
  | nil => exact wellFormed_none
  | append_singleton counted label ih =>
      rw [List.foldl_concat]
      exact ih.record label

/-- **The counters are a map from labels to counts.** -/
lemma keepsCounts : KeepsCounts none record count Metrics.counts where
  count_fresh := count_none
  count_record counted := count_record (wellFormed_foldl counted)
  mem_shown_iff counted _ _ := (wellFormed_foldl counted).mem_counts_iff

end Metrics

/-- After any calls a label's count is the number of its calls. -/
lemma KeepsCounts.count_foldl {M : Type} {fresh : M} {record : M → Label → M} {count : M → Label → ℕ}
    {shown : M → List (Label × ℕ)} (h : KeepsCounts fresh record count shown) (counted : List Label)
    (l : Label) : count (counted.foldl record fresh) l = counted.count l := by
  induction counted using List.reverseRecOn with
  | nil => exact h.count_fresh l
  | append_singleton counted label ih =>
      rw [List.foldl_concat, h.count_record, ih, List.count_append, List.count_singleton]
      simp only [beq_iff_eq]

/-! ## One request -/

/-- The request is one to the tool route. -/
def Request.ToTool (r : Request) : Prop :=
  r.method = "POST" ∧ (Target.ofString r.target).path = "/tool"

instance (r : Request) : Decidable r.ToTool :=
  inferInstanceAs (Decidable (r.method = "POST" ∧ (Target.ofString r.target).path = "/tool"))

/-- The request is one to the tool route and was answered with status 200, the call that it asks for has
the label's tool, and the response tells an error if the label does. -/
def counted (label : Label) (r : Request) (reply : Reply) : Bool :=
  decide r.ToTool && reply.status == 200 &&
    match callOf r.body, reply with
    | .ok call, .tool response =>
      Tool.normalName call.tool == label.tool && (response.error != "") == label.errorful
    | _, _ => false

/-- What is found under a method and a path is the route that is there. -/
lemma Route.place_of_find? {method path : String} {route : Route}
    (h : Route.find? method path = some route) : route.place = (method, path) := by
  simpa using List.find?_some h

/-- Only the tool route changes the counters. -/
lemma serve_of_not_toTool {limits : Limits} {m : Metrics} {r : Request} (h : ¬r.ToTool) :
    (serve limits m r).2 = m := by
  rw [serve]
  cases htarget : Target.ofString? r.target with
  | none => rfl
  | some target =>
      have hsame : Target.ofString r.target = target := by rw [Target.ofString, htarget, Option.getD_some]
      dsimp only [serveTarget]
      cases hroute : Route.find? (if r.method = "" then "GET" else r.method) target.path with
      | none =>
          dsimp only
          cases Route.findBeforeSlash? (if r.method = "" then "GET" else r.method) target.path <;> rfl
      | some route =>
          cases route with
          | tool =>
              -- A request without a method is one to read, so the method that was found is its own.
              obtain ⟨hmethod, hpath⟩ := Prod.mk.inj (Route.place_of_find? hroute)
              split_ifs at hmethod with hnameless
              · exact absurd hmethod (by decide)
              · exact absurd ⟨hmethod.symm, hsame ▸ hpath.symm⟩ h
          | schema | health | metrics => rfl

/-- What a request to the tool route is answered does not depend on the counters. -/
lemma serve_toTool {limits : Limits} {m : Metrics} {r : Request} (h : r.ToTool) {call : ToolCall}
    (hcall : callOf r.body = .ok call) : serve limits m r = runCall limits m call := by
  rw [serve_tool h.1 h.2, Route.serve, hcall]

/-- **What a request can do:** run a call, be rejected for its body, or be none to the tool route. -/
lemma serve_cases (limits : Limits) (m : Metrics) (r : Request) :
    (∃ call, r.ToTool ∧ callOf r.body = .ok call ∧ serve limits m r = runCall limits m call) ∨
      (∃ e, serve limits m r = (.rejected e, m)) ∨
      (¬r.ToTool ∧ (serve limits m r).2 = m) := by
  by_cases h : r.ToTool
  · cases hcall : callOf r.body with
    | ok call => exact .inl ⟨call, h, rfl, serve_toTool h hcall⟩
    | error e => exact .inr (.inl ⟨e, by rw [serve_tool h.1 h.2, Route.serve, hcall]⟩)
  · exact .inr (.inr ⟨h, serve_of_not_toTool h⟩)

/-- What a request is counted under: the tool that it asks for, and whether the response tells an error, if
it asks the tool route for a call. -/
def ranUnder (limits : Limits) (r : Request) : Option Label :=
  if r.ToTool then
    match callOf r.body with
    | .ok call => some ⟨(call.respond limits).error != "", Tool.normalName call.tool⟩
    | .error _ => none
  else none

/-- A server counts the call that ran, and does nothing else with its counters. -/
lemma snd_serve (limits : Limits) (m : Metrics) (r : Request) :
    (serve limits m r).2 = (ranUnder limits r).toList.foldl Metrics.record m := by
  unfold ranUnder
  split_ifs with h
  · cases hcall : callOf r.body with
    | ok call =>
        rw [serve_toTool h hcall]
        rfl
    | error e =>
        rw [serve_tool h.1 h.2, Route.serve, hcall]
        rfl
  · exact serve_of_not_toTool h

/-- The answer tells what a request is counted under. -/
lemma counted_serve (label : Label) (limits : Limits) (m : Metrics) (r : Request) :
    counted label r (serve limits m r).1 = (ranUnder limits r == some label) := by
  unfold ranUnder
  split_ifs with h
  · cases hcall : callOf r.body with
    | ok call =>
        rw [serve_toTool h hcall]
        obtain ⟨errorful, tool⟩ := label
        simp [counted, h, hcall, runCall, Reply.status, Bool.and_comm, Bool.beq_eq_decide_eq]
    | error e =>
        rw [serve_tool h.1 h.2, Route.serve, hcall]
        simp [counted, Reply.status]
  · simp [counted, h]

/-- A request that is answered with status 400 is not counted. -/
lemma metrics_of_status {limits : Limits} {m : Metrics} {r : Request}
    (hstatus : (serve limits m r).1.status = 400) : (serve limits m r).2 = m := by
  rcases serve_cases limits m r with ⟨call, -, -, hserve⟩ | ⟨e, hserve⟩ | ⟨-, hserve⟩
  · rw [hserve] at hstatus
    exact absurd hstatus (by decide : ¬(200 : ℕ) = 400)
  · rw [hserve]
  · exact hserve

/-- A request to the tool route that is answered with status 200 asks for a call. -/
lemma exists_call_of_status {limits : Limits} {m : Metrics} {r : Request} (h : r.ToTool)
    (hstatus : (serve limits m r).1.status = 200) : ∃ call, callOf r.body = .ok call := by
  rcases serve_cases limits m r with ⟨call, -, hcall, -⟩ | ⟨e, hserve⟩ | ⟨hnot, -⟩
  · exact ⟨call, hcall⟩
  · rw [hserve] at hstatus
    exact absurd hstatus (by decide : ¬(400 : ℕ) = 200)
  · exact absurd h hnot

/-! ## A run of requests -/

/-- The counters after requests. -/
def metricsAfter (limits : Limits) : Metrics → List Request → Metrics
  | m, [] => m
  | m, r :: rs => metricsAfter limits (serve limits m r).2 rs

lemma serveAll_cons (limits : Limits) (m : Metrics) (r : Request) (rs : List Request) :
    serveAll limits m (r :: rs) =
      (serve limits m r).1 :: serveAll limits (serve limits m r).2 rs :=
  rfl

lemma serveAll_append (limits : Limits) (m : Metrics) (rs rs' : List Request) :
    serveAll limits m (rs ++ rs') =
      serveAll limits m rs ++ serveAll limits (metricsAfter limits m rs) rs' := by
  induction rs generalizing m with
  | nil => rfl
  | cons r rs ih =>
      rw [List.cons_append, serveAll_cons, serveAll_cons, ih, metricsAfter, List.cons_append]

/-- How many of the answered requests are counted under a label. -/
def callsUnder (label : Label) (rs : List Request) (replies : List Reply) : ℕ :=
  (rs.zip replies).countP fun x => counted label x.1 x.2

/-- **A server only counts the calls that ran.** -/
lemma metricsAfter_eq_foldl (limits : Limits) (m : Metrics) (rs : List Request) :
    metricsAfter limits m rs = (rs.filterMap (ranUnder limits)).foldl Metrics.record m := by
  induction rs generalizing m with
  | nil => rfl
  | cons r rs ih =>
      rw [metricsAfter, ih, snd_serve]
      cases hran : ranUnder limits r with
      | none => rw [List.filterMap_cons_none hran, Option.toList_none, List.foldl_nil]
      | some label =>
          rw [List.filterMap_cons_some hran, Option.toList_some, List.foldl_cons, List.foldl_nil,
            List.foldl_cons]

/-- The answered requests that are counted under a label are the calls that ran under it. -/
lemma callsUnder_serveAll (label : Label) (limits : Limits) (m : Metrics) (rs : List Request) :
    callsUnder label rs (serveAll limits m rs) = (rs.filterMap (ranUnder limits)).count label := by
  induction rs generalizing m with
  | nil => rfl
  | cons r rs ih =>
      rw [callsUnder, serveAll_cons, List.zip_cons_cons, List.countP_cons, ← callsUnder, ih,
        counted_serve]
      cases hran : ranUnder limits r with
      | none =>
          rw [List.filterMap_cons_none hran]
          rfl
      | some l =>
          rw [List.filterMap_cons_some hran, List.count_cons]
          simp only [beq_iff_eq, Option.some.injEq]

/-! ## The counters and the answers -/

/-- **The counters count the calls that ran.**  After any requests to a server that has counted nothing,
the counter of a label is the number of requests to the tool route that were answered with status 200,
that asked for the label's tool and whose response tells an error if the label does.  The counts, which
the metrics route answers with, show each counter that is not zero, and only those.  A request answered
with status 400 changes no counter, nor does one to another route.  A request to the tool route that is
answered with status 200 asks for a call, and the answer is the response to that call alone, whatever
was asked before. -/
theorem counters_count_calls (limits : Limits) :
    (∀ rs label n,
      let counters := metricsAfter limits .none rs
      let calls := callsUnder label rs (serveAll limits .none rs)
      counters.count label = calls ∧ ((label, n) ∈ counters.counts ↔ 0 < n ∧ n = calls)) ∧
    (∀ rs r rs',
      let answer := serve limits (metricsAfter limits .none rs) r
      serveAll limits .none (rs ++ r :: rs') =
        serveAll limits .none rs ++ answer.1 :: serveAll limits answer.2 rs') ∧
    ∀ m r,
      (r.ToTool → (serve limits m r).1.status = 200 →
        ∃ call, callOf r.body = .ok call ∧ ∀ m', (serve limits m' r).1 = .tool (call.respond limits)) ∧
      ((serve limits m r).1.status = 400 → (serve limits m r).2 = m) ∧
      (¬r.ToTool → (serve limits m r).2 = m) ∧
      (r.method = "GET" → (Target.ofString r.target).path = "/metrics" →
        serve limits m r = (.metrics m, m)) := by
  refine ⟨fun rs label n => ?_, fun rs r rs' => ?_, fun m r => ⟨fun h hstatus => ?_,
    metrics_of_status, serve_of_not_toTool, fun hmethod hpath => ?_⟩⟩
  · dsimp only
    rw [metricsAfter_eq_foldl, callsUnder_serveAll, Metrics.keepsCounts.mem_shown_iff,
      Metrics.keepsCounts.count_foldl]
    exact ⟨rfl, Iff.rfl⟩
  · dsimp only
    rw [serveAll_append, serveAll_cons]
  · obtain ⟨call, hcall⟩ := exists_call_of_status h hstatus
    exact ⟨call, hcall, fun m' => by rw [serve_toTool h hcall, runCall]⟩
  · have hserve : serve limits m r = Route.metrics.serve limits m r.body := by
      refine serve_of_find? ?_ ?_ ?_
      · rw [hmethod]
        decide
      · rw [hpath]
        decide
      · rw [hmethod, hpath]
        decide
    rw [hserve, Route.serve]

/-- A call of an unknown tool. -/
def flyRequest : Request := ⟨"POST", "/tool", .ofString "\x7b\"tool\":\"fly\"\x7d"⟩

/-- A call for the degree of the parameter, under another name of its tool. -/
def degreeRequest : Request := ⟨"POST", "/tool", .ofString
  "\x7b\"tool\":\"getDegree\",\"params\":\x7b\"expr\":\x7b\"type\":\"param\"\x7d\x7d\x7d"⟩

/-- A body that ends too early. -/
def cutRequest : Request := ⟨"POST", "/tool", .ofString "\x7b\"tool\":"⟩

/-- A request that only reads. -/
def readRequest (path : String) : Request := ⟨"GET", path, .ofString ""⟩

/-- Two calls that fail, one that succeeds, and two requests that are no calls. -/
def mixedRequests : List Request :=
  [flyRequest, degreeRequest, cutRequest, readRequest "/health", flyRequest]

/-- The calls are counted, each under its normal name, and the counters are shown. -/
theorem counters_after_mixedRequests :
    let counters := metricsAfter .default .none mixedRequests
    counters.count ⟨true, "fly"⟩ = 2 ∧ (⟨false, "degree"⟩, 1) ∈ counters.counts ∧
      (∃ call, callOf degreeRequest.body = .ok call ∧
        ∀ m, (serve .default m degreeRequest).1 = .tool (call.respond .default)) ∧
      (serve .default counters cutRequest).2 = counters ∧
      (serve .default counters (readRequest "/health")).2 = counters ∧
      serve .default counters (readRequest "/metrics") = (.metrics counters, counters) := by
  obtain ⟨hcounts, -, hstep⟩ := counters_count_calls .default
  refine ⟨(hcounts mixedRequests ⟨true, "fly"⟩ 0).1.trans ?_,
    (hcounts mixedRequests ⟨false, "degree"⟩ 1).2.2 ?_, (hstep .none degreeRequest).1 ?_ ?_,
    (hstep _ cutRequest).2.1 ?_, (hstep _ (readRequest "/health")).2.2.1 ?_,
    (hstep _ (readRequest "/metrics")).2.2.2 rfl ?_⟩ <;> decide +kernel

end Server
end ClosedForm
