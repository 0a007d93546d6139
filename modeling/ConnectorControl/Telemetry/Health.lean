import ConnectorControl.Http.Target
import ConnectorControl.Telemetry.Exposition

/-!
# Health endpoints

Three paths are served: whether the process is alive, whether it is ready, and its metrics.  A
`HEAD` is answered like a `GET` without the body; other methods and other paths are refused.
-/

namespace ConnectorControl

/-- what the endpoints report on -/
structure Health where
  ready : Bool
  metrics : Metrics

namespace Health

def initial : Health := ⟨false, .empty⟩

structure Response where
  status : Nat
  contentType : Option String
  body : String
deriving DecidableEq

namespace Response

def plain (status : Nat) (body : String) : Response :=
  ⟨status, some "text/plain; charset=utf-8", body⟩

/-- a refusal has no content -/
def refusal (status : Nat) : Response := ⟨status, none, ""⟩

def withoutBody (r : Response) : Response := { r with body := "" }

end Response

/-- the page at a path -/
def page? (h : Health) (path : String) : Option Response :=
  if path = "/healthz" then some (.plain 200 "ok")
  else if path = "/readyz" then
    some (if h.ready then .plain 200 "ready" else .plain 503 "not ready")
  else if path = "/metrics" then
    some ⟨200, some "text/plain; version=0.0.4; charset=utf-8", h.metrics.text⟩
  else none

/-- the response to a request -/
def respond (h : Health) (method : String) (target : Http.Target) : Response :=
  match h.page? target.path with
  | none => .refusal 404
  | some r =>
    if method = "GET" then r
    else if method = "HEAD" then r.withoutBody
    else .refusal 405

end Health
end ConnectorControl
