import ClosedForm.Server.Metrics
import ClosedForm.Server.Request
import ClosedForm.Server.Target

/-!
# The router

What the server answers to a request.  A route is a method and a path; a request for a route's path
with a slash after it is sent on to the route.  The counters are all that the server remembers from
one request to the next, and only a tool call that has run changes them.

Finding a route is left to a library of the server's.  What is proved of the tool calls leans on one
thing that it is assumed to do, `Route.find?`: a request is answered by the route that is under exactly
its method and path, if there is one.  Sending on stands here so that every request has its answer.
-/

namespace ClosedForm
namespace Server

/-- A request.  Its body is any sequence of bytes. -/
structure Request where
  method : String
  target : String
  body : RawText

/-! ## Routes -/

/-- What the server offers. -/
inductive Route
  | tool
  | schema
  | health
  | metrics
deriving DecidableEq

namespace Route

/-- The method and the path of a route. -/
def place : Route → String × String
  | tool => ("POST", "/tool")
  | schema => ("GET", "/schema")
  | health => ("GET", "/health")
  | metrics => ("GET", "/metrics")

/-- All routes. -/
def all : List Route := [tool, schema, health, metrics]

/-- The route under a method and a path. -/
def find? (method path : String) : Option Route :=
  all.find? fun route => route.place == (method, path)

/-- The route under a method and a path that has a slash after the route's own. -/
def findBeforeSlash? (method path : String) : Option Route :=
  all.find? fun route => (route.place.1, route.place.2 ++ "/") == (method, path)

end Route

/-! ## Answers -/

/-- An answer. -/
inductive Reply
  /-- The response to a tool call. -/
  | tool (response : ToolResponse)
  /-- A body that asks for no tool call. -/
  | rejected (e : Error)
  /-- The schema of the tools. -/
  | schema
  /-- A sign of life. -/
  | health
  /-- The counters. -/
  | metrics (m : Metrics)
  /-- What a request to read asked for is under another target. -/
  | moved (target : String)
  /-- A request to act is to be made again under another target. -/
  | sentOn
  /-- There is nothing under this method and path. -/
  | notFound
  /-- The text for the target is none.  This is answered before the router is asked. -/
  | noTarget

/-- A text inside markup, with the characters of the markup written as references. -/
def escapeMarkup (s : String) : String :=
  String.join (s.toList.map fun
    | '&' => "&amp;"
    | '<' => "&lt;"
    | '>' => "&gt;"
    | '"' => "&#34;"
    | '\'' => "&#39;"
    | c => c.toString)

namespace Reply

/-- The status of an answer. -/
def status : Reply → Nat
  | rejected _ => 400
  | noTarget => 400
  | moved _ => 301
  | sentOn => 307
  | notFound => 404
  | _ => 200

/-- The body of an answer that is given at a time. -/
def body (time : String) : Reply → String
  | tool response => Json.write response.toDocument
  | rejected e => Json.write (.object [("error", .text e.message)])
  | schema => Tool.schemaText
  | health => Json.write (.object [("status", .text "ok"), ("time", .text time)])
  | metrics m => m.toText
  | moved target => "<a href=\"" ++ escapeMarkup target ++ "\">Moved Permanently</a>.\n\n"
  | sentOn => ""
  | notFound => "404 page not found"
  | noTarget => "400 Bad Request"

/-- The type of an answer's body. -/
def contentType : Reply → String
  | schema => "application/json"
  | metrics _ => "text/plain; version=0.0.4; charset=utf-8; escaping=underscores"
  | moved _ => "text/html; charset=utf-8"
  | sentOn => ""
  | notFound => "text/plain"
  | noTarget => "text/plain; charset=utf-8"
  | _ => "application/json; charset=utf-8"

/-- Whether an answer carries an identifier of its request.  One that sends the request elsewhere or does
not come from the router does not. -/
def isIdentified : Reply → Bool
  | moved _ => false
  | sentOn => false
  | noTarget => false
  | _ => true

end Reply

/-! ## Serving -/

/-- Runs a tool call and counts it. -/
def runCall (limits : Limits) (m : Metrics) (call : ToolCall) : Reply × Metrics :=
  let response := call.respond limits
  (.tool response, m.record ⟨response.error != "", Tool.normalName call.tool⟩)

/-- Answers a request under a route. -/
def Route.serve (limits : Limits) (m : Metrics) (body : RawText) : Route → Reply × Metrics
  | tool =>
    match callOf body with
    | .ok call => runCall limits m call
    | .error e => (.rejected e, m)
  | schema => (.schema, m)
  | health => (.health, m)
  | metrics => (.metrics m, m)

/-- Sends a request on to a route. -/
def Route.redirect (route : Route) (target : Target) : Reply :=
  if route.place.1 == "GET" then .moved (target.withPath route.place.2) else .sentOn

/-- Answers a request for a target. -/
def serveTarget (limits : Limits) (m : Metrics) (method : String) (target : Target) (body : RawText) :
    Reply × Metrics :=
  match Route.find? method target.path with
  | some route => route.serve limits m body
  | none =>
    match Route.findBeforeSlash? method target.path with
    | some route => (route.redirect target, m)
    | none => (.notFound, m)

/-- Answers a request.  One that names no method is a request to read. -/
def serve (limits : Limits) (m : Metrics) (r : Request) : Reply × Metrics :=
  match Target.ofString? r.target with
  | some target =>
    serveTarget limits m (if r.method = "" then "GET" else r.method) target r.body
  | none => (.noTarget, m)

/-- Answers requests one after the other. -/
def serveAll (limits : Limits) : Metrics → List Request → List Reply
  | _, [] => []
  | m, r :: rs =>
    let (reply, m) := serve limits m r
    reply :: serveAll limits m rs

end Server
end ClosedForm
