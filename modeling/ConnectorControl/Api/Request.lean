import ConnectorControl.Derived.Naming
import ConnectorControl.Http.Form
import ConnectorControl.Http.Target
import ConnectorControl.Json.Writer
import ConnectorControl.Store.Call

/-!
# Requests to the API server

Each call on the store is one request.  Patches are merge patches; what is created or patched names
its manager; a delete leaves it to the server to remove what the object owns.

Names and namespaces go into the target of the request as they are.  So a name with a question mark
in it ends the path, and there is no request when a name cannot stand in a target.
-/

namespace ConnectorControl

/-- why a call has no request -/
inductive RequestError where
  | nameless
  | badTarget (target : String)
deriving DecidableEq

namespace RequestError

def message : RequestError → String
  | nameless => "failed to validate request: A non-empty name is required"
  | badTarget target =>
    "failed to build request: " ++
      if Http.Target.longest < target.utf8ByteSize then "uri too long" else "invalid uri character"

def failure (e : RequestError) : Failure := .exchange ("Failed to build request: " ++ e.message)

end RequestError

structure Request where
  method : String
  target : Http.Target
  contentType : Option String
  body : Option String

namespace Request

/-- the path of the objects of a kind, in one namespace or in all -/
def collection (kind : Kind) (ns : Option String) : String :=
  let root := if kind.group = "" then "/api/" else "/apis/" ++ kind.group ++ "/"
  let scope :=
    match ns with
    | some ns => "/namespaces/" ++ ns
    | none => ""
  root ++ kind.version ++ scope ++ "/" ++ kind.plural

/-- the path of an object, which has to have a name -/
def item (kind : Kind) (ns name : String) : Except RequestError String :=
  if name = "" then .error .nameless else .ok (collection kind (some ns) ++ "/" ++ name)

def targetOf (s : String) : Except RequestError Http.Target :=
  match Http.Target.parse? s with
  | some t => .ok t
  | none => .error (.badTarget s)

/-- a path with a query behind it -/
def withQuery (path : String) (form : List (String × String)) : String :=
  path ++ "?" ++ Http.Form.text form

def managed : List (String × String) := [("fieldManager", Derived.manager)]

/-- a request with a body of JSON -/
def sending (method uri contentType : String) (body : Json) : Except RequestError Request := do
  return {
    method
    target := ← targetOf uri
    contentType := some contentType
    body := some body.text }

/-- a request that only reads -/
def reading (uri : String) : Except RequestError Request := do
  return {
    method := "GET"
    target := ← targetOf uri
    contentType := none
    body := none }

def mergePatch (path : String) (body : Json) : Except RequestError Request :=
  sending "PATCH" (withQuery path managed) "application/merge-patch+json" body

end Request

open Request

/-- the request of a call -/
def Call.request : Call → Except RequestError Request
  | .get kind ns name => do reading (← item kind ns name)
  | .create kind ns o =>
    sending "POST" (withQuery (collection kind (some ns)) managed) "application/json" o.toJson
  | .patch kind ns name body => do mergePatch (← item kind ns name) body
  | .patchStatus kind ns name body => do mergePatch ((← item kind ns name) ++ "/status") body
  | .list kind ns selector =>
    reading (withQuery (collection kind (some ns)) [("labelSelector", selector)])
  | .delete kind ns name => do
    sending "DELETE" (withQuery (← item kind ns name) []) "application/json"
      (.object [("propagationPolicy", .str "Background")])

end ConnectorControl
