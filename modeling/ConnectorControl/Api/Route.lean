import ConnectorControl.Api.Request
import ConnectorControl.Json.Reader

/-!
# Routes of the API

A path leads to the objects of a kind, to one of them, or to its status.  What a request asks for
there is a call on the store.
-/

namespace ConnectorControl

/-- where a path leads to -/
inductive Route where
  | collection (kind : Kind) (ns : Option String)
  | item (kind : Kind) (ns name : String)
  | status (kind : Kind) (ns name : String)

namespace Route

/-- the kind that has its place in a group -/
def kind? (group version plural : String) : Option Kind :=
  Kind.all.find? fun k => k.group = group && k.version = version && k.plural = plural

/-- the route behind a group and a version -/
def ofParts? (group version : String) : List String → Option Route
  | [plural] => do return .collection (← kind? group version plural) none
  | ["namespaces", ns, plural] => do return .collection (← kind? group version plural) (some ns)
  | ["namespaces", ns, plural, name] => do return .item (← kind? group version plural) ns name
  | ["namespaces", ns, plural, name, "status"] => do
    return .status (← kind? group version plural) ns name
  | _ => none

def ofPath? (path : String) : Option Route :=
  match Text.split '/' path with
  | "" :: "api" :: version :: parts => ofParts? "" version parts
  | "" :: "apis" :: group :: version :: parts => ofParts? group version parts
  | _ => none

end Route

namespace Request

/-- the value of the body -/
def content? (r : Request) : Option Json := r.body.bind Json.parse?

/-- the value that the query has under a name -/
def parameter (r : Request) (name : String) : String :=
  (Entries.find? name (Http.Form.ofQuery (r.target.query.getD ""))).getD ""

/-- the call that a request stands for -/
def call? (r : Request) : Option Call := do
  match r.method, ← Route.ofPath? r.target.path with
  | "GET", .item kind ns name => return .get kind ns name
  | "GET", .collection kind (some ns) => return .list kind ns (r.parameter "labelSelector")
  | "POST", .collection kind (some ns) =>
    return .create kind ns (← (Object.decode (← r.content?)).toOption)
  | "PATCH", .item kind ns name => return .patch kind ns name (← r.content?)
  | "PATCH", .status kind ns name => return .patchStatus kind ns name (← r.content?)
  | "DELETE", .item kind ns name => return .delete kind ns name
  | _, _ => none

end Request
end ConnectorControl
