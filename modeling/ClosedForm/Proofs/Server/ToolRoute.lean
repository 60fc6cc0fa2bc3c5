import ClosedForm.Proofs.Json.Extent
import ClosedForm.Server.Router
import Mathlib.Data.List.TakeWhile

/-!
# Which bodies run a tool call

A body is meant to be one JSON value and nothing else but blanks.  The server decodes the first
value and then asks its reader whether there is more; the reader, made for reading inside arrays and
objects, says no at a closing bracket too.  So what a body must be is one value that decodes as a
call, with blanks around it, and after that either nothing or a closing bracket *before anything at
all*.

* `Server.callOf_eq_ok_iff` — **the bodies that ask for a call,** as far as bodies are read whole.
* `Server.serve_tool_ok_iff_asks` — such a body runs its call, which is counted; every other body is
  answered with status 400 and counts nothing.
* `Server.serve_tool_ok_of_junk` — a body that is no JSON value and runs a call all the same.
-/

namespace ClosedForm
namespace Server

/-! ## What a body says -/

/-- A text is one JSON value that decodes as a call, blanks around it apart. -/
def IsRequest (text : List Char) (call : ToolCall) : Prop :=
  ∃ value, Json.whole (String.ofList text) = .ok value ∧ decode value = .ok call

/-- No number is a request, so nothing depends on where a number ends. -/
lemma decode_numeral_ne_ok (spelling : String) (call : ToolCall) :
    decode (.numeral spelling) ≠ .ok call := by
  simp [decode]

/-- A request is complete before the blanks that end its text. -/
lemma isRequest_iff {text : List Char} {call : ToolCall} :
    IsRequest text call ↔ ∃ value blanks, Json.readFirst text = .complete value blanks ∧
      blanks.all Json.isSpace ∧ decode value = .ok call := by
  constructor
  · rintro ⟨value, hwhole, hdecode⟩
    rw [Json.whole, String.toList_ofList] at hwhole
    cases hread : Json.readFirst text with
    | complete v rest =>
        rw [hread] at hwhole
        dsimp only at hwhole
        split_ifs at hwhole with hblank
        cases hwhole
        exact ⟨value, rest, rfl, hblank, hdecode⟩
    | atEnd v =>
        rw [hread] at hwhole
        cases hwhole
        obtain ⟨spelling, rfl⟩ := Json.exists_numeral_of_run_eq_atEnd hread
        exact absurd hdecode (decode_numeral_ne_ok spelling call)
    | truncated | malformed =>
        rw [hread] at hwhole
        cases hwhole
  · rintro ⟨value, blanks, hread, hblank, hdecode⟩
    refine ⟨value, ?_, hdecode⟩
    rw [Json.whole, String.toList_ofList, hread]
    exact if_pos hblank

/-! ## What follows it -/

/-- Nothing, or a closing bracket before anything at all. -/
def Unheeded (rest : List Char) : Prop := ∀ c ∈ rest.head?, c = ']' ∨ c = '\x7d'

lemma dropWhile_isSpace_append {blanks : List Char} (hblanks : blanks.all Json.isSpace)
    {rest : List Char} (hrest : ∀ c ∈ rest.head?, Json.isSpace c = false) :
    (blanks ++ rest).dropWhile Json.isSpace = rest := by
  have hfront : blanks.dropWhile Json.isSpace = [] :=
    List.dropWhile_eq_nil_iff.2 (List.all_eq_true.1 hblanks)
  have hback : rest.dropWhile Json.isSpace = rest := by
    cases rest with
    | nil => rfl
    | cons c rest => exact List.dropWhile_cons_of_neg (by simp [hrest c rfl])
  rw [List.dropWhile_append, hfront, hback]
  rfl

lemma Unheeded.not_isSpace {rest : List Char} (h : Unheeded rest) :
    ∀ c ∈ rest.head?, Json.isSpace c = false := by
  intro c hc
  rcases h c hc with rfl | rfl <;> decide

/-- Of a body that is read whole, what follows the value goes unheeded after its blanks. -/
lemma endsBody_iff {rest : List Char} :
    endsBody false rest ↔ Unheeded (rest.dropWhile Json.isSpace) := by
  unfold endsBody
  cases rest.dropWhile Json.isSpace with
  | nil => simp [Unheeded]
  | cons c cs => simp [Unheeded]

/-- A body asks for a call: it is a request, or a request before a closing bracket and anything. -/
def Asks (body : RawText) (call : ToolCall) : Prop :=
  ∃ text rest, body.shown.toList = text ++ rest ∧ IsRequest text call ∧ Unheeded rest

/-- A body within the limit is read whole. -/
lemma readable_of_le {body : RawText} (h : body.byteSize ≤ maxBody) :
    readable body = (body.shown.toList, false) := by
  rw [readable, if_pos h]

/-- A complete value is a call if it decodes as one and nothing follows that is heeded. -/
lemma callOf_eq_ok_iff_of_complete {body : RawText} (h : body.byteSize ≤ maxBody) {call : ToolCall}
    {value : Document} {rest : List Char}
    (hread : Json.readFirst body.shown.toList = .complete value rest) :
    callOf body = .ok call ↔
      decode value = .ok call ∧ Unheeded (rest.dropWhile Json.isSpace) := by
  rw [callOf, readable_of_le h, ← endsBody_iff]
  simp only [hread]
  cases decode value with
  | error e => simp [bind, Except.bind]
  | ok call' =>
      by_cases hends : endsBody false rest <;>
        simp [bind, Except.bind, pure, Except.pure, hends]

/-- **The bodies that ask for a call,** as far as bodies are read whole. -/
lemma callOf_eq_ok_iff {body : RawText} (h : body.byteSize ≤ maxBody) {call : ToolCall} :
    callOf body = .ok call ↔ Asks body call := by
  constructor
  · intro hcall
    cases hread : Json.readFirst body.shown.toList with
    | complete value rest =>
        obtain ⟨hdecode, hrest⟩ := (callOf_eq_ok_iff_of_complete h hread).1 hcall
        obtain ⟨taken, hbody, htaken⟩ := Json.exists_of_run_eq_complete hread
        rcases htaken with htaken | htaken
        · -- The blanks after the value belong to the request, what is after them does not.
          refine ⟨taken ++ rest.takeWhile Json.isSpace, rest.dropWhile Json.isSpace, ?_, ?_, hrest⟩
          · rw [List.append_assoc, List.takeWhile_append_dropWhile]
            exact hbody
          · exact isRequest_iff.2 ⟨value, _, Json.run_append_of_complete htaken _,
              List.all_takeWhile, hdecode⟩
        · obtain ⟨spelling, rfl⟩ := Json.exists_numeral_of_run_eq_atEnd htaken
          exact absurd hdecode (decode_numeral_ne_ok spelling call)
    | atEnd value =>
        simp only [callOf, readable_of_le h, hread] at hcall
        obtain ⟨spelling, rfl⟩ := Json.exists_numeral_of_run_eq_atEnd hread
        exact absurd hcall (decode_numeral_ne_ok spelling call)
    | truncated | malformed =>
        simp only [callOf, readable_of_le h, hread] at hcall
        cases hcall
  · rintro ⟨text, rest, hbody, htext, hrest⟩
    obtain ⟨value, blanks, hread, hblanks, hdecode⟩ := isRequest_iff.1 htext
    have hwhole : Json.readFirst body.shown.toList = .complete value (blanks ++ rest) := by
      rw [hbody]
      exact Json.run_append_of_complete hread rest
    have hunheeded : Unheeded ((blanks ++ rest).dropWhile Json.isSpace) := by
      rw [dropWhile_isSpace_append hblanks hrest.not_isSpace]
      exact hrest
    exact (callOf_eq_ok_iff_of_complete h hwhole).2 ⟨hdecode, hunheeded⟩

/-- A request before anything else than blanks and a closing bracket has something after it. -/
lemma callOf_of_trailing {body : RawText} (h : body.byteSize ≤ maxBody) {text rest : List Char}
    {c : Char} {call : ToolCall} (hbody : body.shown.toList = text ++ c :: rest)
    (htext : IsRequest text call) (hspace : Json.isSpace c = false) (hsquare : c ≠ ']')
    (hcurly : c ≠ '\x7d') : callOf body = .error (.fault .trailingData) := by
  obtain ⟨value, blanks, hread, hblanks, hdecode⟩ := isRequest_iff.1 htext
  have hwhole : Json.readFirst body.shown.toList = .complete value (blanks ++ c :: rest) := by
    rw [hbody]
    exact Json.run_append_of_complete hread (c :: rest)
  have hends : ¬endsBody false (blanks ++ c :: rest) := by
    rw [endsBody_iff, dropWhile_isSpace_append hblanks (by simp [hspace])]
    simp [Unheeded, hsquare, hcurly]
  rw [callOf, readable_of_le h]
  simp only [hwhole, hdecode]
  exact if_neg hends

/-! ## What is answered -/

/-- A text with a path is a target. -/
lemma Target.ofString?_eq {s : String} (h : (Target.ofString s).path ≠ "") :
    Target.ofString? s = some (Target.ofString s) := by
  unfold Target.ofString at h ⊢
  cases htarget : Target.ofString? s with
  | some target => rfl
  | none =>
      rw [htarget] at h
      exact absurd rfl h

/-- A request is answered by the route that is under its method and path. -/
lemma serve_of_find? {limits : Limits} {m : Metrics} {r : Request} {route : Route}
    (hmethod : r.method ≠ "") (hpath : (Target.ofString r.target).path ≠ "")
    (hroute : Route.find? r.method (Target.ofString r.target).path = some route) :
    serve limits m r = route.serve limits m r.body := by
  simp only [serve, Target.ofString?_eq hpath, serveTarget, if_neg hmethod, hroute]

/-- A request to the tool route is answered by what its body says. -/
lemma serve_tool {limits : Limits} {m : Metrics} {r : Request} (hmethod : r.method = "POST")
    (hpath : (Target.ofString r.target).path = "/tool") :
    serve limits m r = Route.tool.serve limits m r.body := by
  refine serve_of_find? ?_ ?_ ?_
  · rw [hmethod]
    decide
  · rw [hpath]
    decide
  · rw [hmethod, hpath]
    decide

/-- **Which bodies run a tool call.**  A body within the size limit is answered with status 200
exactly if it asks for a call.  Then that call is run and counted; otherwise the answer tells an
error and nothing is counted.  In particular so is a request before anything that is neither blank
nor a closing bracket. -/
theorem serve_tool_ok_iff_asks (limits : Limits) (m : Metrics) (r : Request)
    (hmethod : r.method = "POST") (hpath : (Target.ofString r.target).path = "/tool")
    (hsize : r.body.byteSize ≤ maxBody) :
    ((serve limits m r).1.status = 200 ↔ ∃ call, Asks r.body call) ∧
      (∀ call, Asks r.body call → serve limits m r = runCall limits m call) ∧
      ((¬∃ call, Asks r.body call) →
        (serve limits m r).1.status = 400 ∧ ∃ e, serve limits m r = (.rejected e, m)) ∧
      ∀ text c rest call, r.body.shown.toList = text ++ c :: rest → IsRequest text call →
        Json.isSpace c = false → c ≠ ']' → c ≠ '\x7d' →
          serve limits m r = (.rejected (.fault .trailingData), m) := by
  rw [serve_tool hmethod hpath]
  have hran (call : ToolCall) (hcall : Asks r.body call) :
      Route.tool.serve limits m r.body = runCall limits m call := by
    rw [Route.serve, (callOf_eq_ok_iff hsize).2 hcall]
  have hrejected (hcall : ¬∃ call, Asks r.body call) :
      ∃ e, Route.tool.serve limits m r.body = (.rejected e, m) := by
    cases hbody : callOf r.body with
    | ok call => exact absurd ⟨call, (callOf_eq_ok_iff hsize).1 hbody⟩ hcall
    | error e => exact ⟨e, by rw [Route.serve, hbody]⟩
  refine ⟨⟨fun hstatus => ?_, fun ⟨call, hcall⟩ => ?_⟩, hran, fun hcall => ?_, ?_⟩
  · by_contra hcall
    obtain ⟨e, he⟩ := hrejected hcall
    rw [he] at hstatus
    exact absurd hstatus (by decide : ¬(400 : ℕ) = 200)
  · rw [hran call hcall]
    rfl
  · obtain ⟨e, he⟩ := hrejected hcall
    exact ⟨by rw [he]; rfl, e, he⟩
  · intro text c rest call hbody htext hspace hsquare hcurly
    rw [Route.serve, callOf_of_trailing hsize hbody htext hspace hsquare hcurly]

/-- A request for an unknown tool, and a closing bracket before what is no JSON. -/
def junkRequest : Request :=
  ⟨"POST", "/tool", .ofString "\x7b\"tool\":\"fly\"\x7d] and more"⟩

/-- The call before the bracket is run. -/
theorem serve_junkRequest :
    serve .default .none junkRequest = runCall .default .none ⟨"fly", []⟩ := by
  have hsize : junkRequest.body.byteSize ≤ maxBody := by decide
  have hrest : Unheeded "] and more".toList := by
    intro c hc
    exact .inl (Option.some.inj hc).symm
  have hasks : Asks junkRequest.body ⟨"fly", []⟩ :=
    ⟨"\x7b\"tool\":\"fly\"\x7d".toList, "] and more".toList, rfl, ⟨_, rfl, rfl⟩, hrest⟩
  exact (serve_tool_ok_iff_asks .default .none junkRequest rfl rfl hsize).2.1 _ hasks

/-- A body that is no request, for there is junk in it, and that runs a call all the same. -/
theorem serve_tool_ok_of_junk :
    junkRequest.body.byteSize ≤ maxBody ∧ (serve .default .none junkRequest).1.status = 200 ∧
      ¬∃ call, IsRequest junkRequest.body.shown.toList call := by
  refine ⟨by decide, rfl, ?_⟩
  rintro ⟨call, value, hwhole, -⟩
  have hjunk : Json.whole (String.ofList junkRequest.body.shown.toList) =
    .error (.malformed .json) := rfl
  rw [hjunk] at hwhole
  cases hwhole

end Server
end ClosedForm
