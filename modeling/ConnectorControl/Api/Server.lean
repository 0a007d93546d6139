import ConnectorControl.Api.Reply
import ConnectorControl.Api.Route
import ConnectorControl.Store.Fault

/-!
# An API server over a cluster

The server lets a cluster in memory answer the requests of the operator.  A failure of the cluster
becomes an error of the API, under the status of its code.  What was written is not always what the
operator takes for written: a failure with a code that is no error looks like success.
-/

namespace ConnectorControl

namespace ApiError

/-- the error that a server answers for a failure -/
def ofFailure : Failure → ApiError
  | .api e => e
  | .alreadyExists kind name =>
    ⟨"Failure", (Failure.alreadyExists kind name).message, "AlreadyExists", 409⟩
  | e => ⟨"Failure", e.message, "InternalError", 500⟩

def notFound : ApiError := ⟨"Failure", "not found", "NotFound", 404⟩

def toJson (e : ApiError) : Json :=
  .object [
    ("apiVersion", .str "v1"),
    ("kind", .str "Status"),
    ("metadata", .obj []),
    ("status", .str e.status),
    ("message", .str e.message),
    ("reason", .str e.reason),
    ("code", .int e.code)]

end ApiError

namespace HttpReply

def ofJson (status : Nat) (v : Json) : HttpReply := ⟨status, v.text⟩

/-- an error, under the status of its code if there is such a status -/
def ofError (e : ApiError) : HttpReply :=
  ofJson (if isHttpStatus e.code then e.code else 500) e.toJson

/-- the reply that hands out the answer to a call -/
def ofAnswer : (c : Call) → c.Answer → HttpReply
  | .get _ _ _, some o => ofJson 200 o.toJson
  | .get _ _ _, none => ofError .notFound
  | .create _ _ _, o => ofJson 201 (Object.toJson o)
  | .patch _ _ _ _, o => ofJson 200 (Object.toJson o)
  | .patchStatus _ _ _ _, _ => ofJson 200 (.obj [])
  | .list _ _ _, os =>
    ofJson 200 (.object [("items", .arr (List.map Object.toJson os)), ("metadata", .obj [])])
  | .delete _ _ _, true =>
    ofJson 200 (.object [("kind", .str "Status"), ("status", .str "Success")])
  | .delete _ _ _, false => ofError .notFound

def ofReply (c : Call) : c.Reply → HttpReply
  | .ok a => ofAnswer c a
  | .error e => ofError (.ofFailure e)

end HttpReply

/-- the reply to a request; where there is nothing to ask for, nothing is found -/
def World.respond (r : Request) (w : World) : HttpReply × World :=
  match r.call? with
  | none => (.ofError .notFound, w)
  | some c =>
    let (reply, w) := World.answer c w
    (.ofReply c reply, w)

namespace Call

/-- the reply to a call that has no request -/
def unsent? (c : Call) : Option c.Reply :=
  match c.request with
  | .error f => some (.error f.failure)
  | .ok _ => none

/-- the reply to a call that goes through the server -/
def serve : Program.Handler World := fun c w =>
  match c.request with
  | .error f => (.error f.failure, w)
  | .ok r =>
    let (reply, w) := w.respond r
    (c.receive reply, w)

end Call
end ConnectorControl
