import LuaTypings.Outcome
import LuaTypings.Registry.Basic
import LuaTypings.Exchange.Description

/-!
# Answering requests

The service says whether it is well, lists the modules of a registry, declares the source that a message brings, and
describes itself.
-/

namespace LuaTypings.Exchange

/-- A message to the service. -/
structure Message where
  method : Text
  path : Text
  body : Text
  deriving DecidableEq, Repr

/-- An answer of the service. -/
inductive Response where
  | healthy
  | modules (modules : List ModuleSpec)
  | outcome (outcome : Outcome)
  | description
  /-- A page for readers, which is no structured value. -/
  | page (page : Page)
  /-- The path would be that of a route without the slashes at its end. -/
  | redirected (route : Route)
  | refused (refusal : Refusal)
  | notFound
  | methodNotAllowed
  deriving DecidableEq, Repr

namespace Response

open Json (Value)

/-- The status code of an answer. -/
def status : Response → Nat
  | healthy | modules _ | outcome _ | description | page _ => 200
  | redirected _ => 307
  | refused .unreadable => 400
  | notFound => 404
  | methodNotAllowed => 405
  | refused (.faulty _) => 422

/-- A module as a structured value. -/
def moduleValue (m : ModuleSpec) : Value :=
  .object [
    ("name", .string m.name), ("source_file", .string m.sourceFile), ("main_export", .textOrNull m.mainExport),
    ("filter_classes", .list (m.classFilter.map .string)), ("declare_global_var", .bool m.declareGlobal)]

/-- A fault as a structured value. -/
def faultValue (f : Fault) : Value :=
  .object [("type", .string f.kind.name), ("loc", .list (f.location.map .string))]

/-- The body of an answer. -/
def body : Response → Value
  | healthy => .object [("status", .string "ok")]
  | modules ms => .list (ms.map moduleValue)
  | outcome o =>
    .object [
      ("status", .string o.status), ("declaration", .textOrNull o.declaration?), ("reason", .textOrNull o.reason?)]
  | description => serviceDescription
  | page _ | redirected _ => .null
  | refused .unreadable => .object [("detail", .string "There was an error parsing the body")]
  | refused (.faulty faults) => .object [("detail", .list (faults.map faultValue))]
  | notFound => .object [("detail", .string "Not Found")]
  | methodNotAllowed => .object [("detail", .string "Method Not Allowed")]

end Response

/-- Answers with what becomes of the source that a message brings. -/
def answerSource (body : Text) : Response :=
  match SourceRequest.ofBody body with
  | .error refusal => .refused refusal
  | .ok request => .outcome (.ofSource request.source request.spec)

/-- Answers a message. Its path has to be that of a route to the letter, and so has its method. -/
def respond (registry : Registry) (message : Message) : Response :=
  match Route.ofPath? message.path with
  | none => ((Route.behindSlashes? message.path).map .redirected).getD .notFound
  | some route =>
    if message.method ∉ route.methods then .methodNotAllowed
    else match route with
      | .health => .healthy
      | .modules => .modules registry.modules
      | .translate => answerSource message.body
      | .description => .description
      | .page page => .page page

end LuaTypings.Exchange
