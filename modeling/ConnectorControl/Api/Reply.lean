import ConnectorControl.Api.Request
import ConnectorControl.Json.Reader
import ConnectorControl.Json.Writer

/-!
# Replies of the API server

A reply has a status of HTTP; another number makes it none.  A reply with the status of an error
carries the error in its body; a body that is no error is kept as the message of one.  Some errors
answer a call after all: what is not found is absent, and an object that cannot be created because
of a conflict is already there.

`Call.onError` is what an error means for a call, `Call.receive` what a reply does.
-/

namespace ConnectorControl

structure HttpReply where
  status : Nat
  body : String

/-- whether a number is a status of HTTP -/
def isHttpStatus (status : Nat) : Bool := 100 ≤ status && status ≤ 999

/-! ## errors -/

/-- the phrases of the statuses of errors -/
def statusPhrases : List (Nat × String) := [
  (400, "Bad Request"), (401, "Unauthorized"), (402, "Payment Required"), (403, "Forbidden"),
  (404, "Not Found"), (405, "Method Not Allowed"), (406, "Not Acceptable"),
  (407, "Proxy Authentication Required"), (408, "Request Timeout"), (409, "Conflict"),
  (410, "Gone"), (411, "Length Required"), (412, "Precondition Failed"),
  (413, "Payload Too Large"), (414, "URI Too Long"), (415, "Unsupported Media Type"),
  (416, "Range Not Satisfiable"), (417, "Expectation Failed"), (418, "I'm a teapot"),
  (421, "Misdirected Request"), (422, "Unprocessable Entity"), (423, "Locked"),
  (424, "Failed Dependency"), (425, "Too Early"), (426, "Upgrade Required"),
  (428, "Precondition Required"), (429, "Too Many Requests"),
  (431, "Request Header Fields Too Large"), (451, "Unavailable For Legal Reasons"),
  (500, "Internal Server Error"), (501, "Not Implemented"), (502, "Bad Gateway"),
  (503, "Service Unavailable"), (504, "Gateway Timeout"), (505, "HTTP Version Not Supported"),
  (506, "Variant Also Negotiates"), (507, "Insufficient Storage"), (508, "Loop Detected"),
  (510, "Not Extended"), (511, "Network Authentication Required")]

def statusText (status : Nat) : String :=
  toString status ++ " " ++
    (Entries.find? status statusPhrases).getD "<unknown status code>"

namespace Decode

/-- reads a text, of which the decoder looks at an outline -/
def text {α : Type} (o : Json.Outline) (decoder : Decoder α) (s : String) : Decoded α :=
  match o.ofText? s with
  | some v => decoder v
  | none => .error (.unreadable "the text is not JSON")

end Decode

namespace ApiError

def members : List String := ["status", "message", "reason", "code"]

open Decode in
def decode : Decoder ApiError := record "ErrorResponse" members fun ms absent => do
  let code ← single? ms "code" (uint 16)
  let message ← single? ms "message" string
  let reason ← single? ms "reason" string
  let status ← single? ms "status" string
  return {
    status := ← require (absent "status") status
    message := message.getD ""
    reason := reason.getD ""
    code := ← require (absent "code") code }

/-- the error of a reply whose body does not say it -/
def ofText (r : HttpReply) : ApiError where
  status := statusText r.status
  message := Text.quoted r.body
  reason := "Failed to parse error data"
  code := r.status

def ofReply (r : HttpReply) : ApiError :=
  match Decode.text (.ofNames members) decode r.body with
  | .ok e => e
  | .error _ => ofText r

end ApiError

/-- what an error means for a call -/
def Call.onError : (c : Call) → ApiError → c.Reply
  | .get _ _ _, e => if e.reason = "NotFound" then .ok none else .error (.api e)
  | .create kind _ o, e =>
    if e.code = 409 then .error (.alreadyExists kind.name (o.metadata.name.getD ""))
    else .error (.api e)
  | .patch _ _ _ _, e => .error (.api e)
  | .patchStatus _ _ _ _, e => .error (.api e)
  | .list _ _ _, e => if e.code = 404 then .ok [] else .error (.api e)
  | .delete _ _ _, e => if e.code = 404 then .ok false else .error (.api e)

/-! ## bodies -/

namespace Decode

def listMetadataMembers : List String :=
  ["continue", "remainingItemCount", "resourceVersion", "selfLink"]

/-- the metadata of a list -/
def listMetadata : Decoder Unit := fun v => do
  let ms ← membersOf "ListMeta" v
  let _ ← optional ms "continue" string
  let _ ← optional ms "remainingItemCount" int64
  let _ ← optional ms "resourceVersion" string
  let _ ← optional ms "selfLink" string

/-- A list of objects.  Its items may be `null`, which is none, and its metadata may be absent. -/
def objectList : Decoder (List Object) := fun v => do
  let ms ← membersOf "struct ObjectList" v
  let items ← single? ms "items" (option (list Object.decode))
  let _ ← single? ms "metadata" listMetadata
  return (← require (.missing "items") items).getD []

/-- what is looked at of a list: all of it, as far as its metadata and its items are -/
def objectListOutline : Json.Outline :=
  .record [("metadata", .ofNames listMetadataMembers), ("items", .items Object.outline)] true

/-- the members of a cause among the details of a status -/
def causeMembers : List String := ["reason", "message", "field"]

def statusCause : Decoder Unit := record "StatusCause" causeMembers fun ms _ => do
  for name in causeMembers do
    let _ ← single? ms name string

/-- what is looked at of the details of a status -/
def detailMembers : List (String × Json.Outline) :=
  Json.Outline.plain ["name", "group", "kind", "uid"] ++
    [("causes", .items (.ofNames causeMembers)), ("retryAfterSeconds", .written)]

def statusDetails : Decoder Unit := record "StatusDetails" (detailMembers.map (·.1)) fun ms _ => do
  let _ ← single? ms "causes" (list statusCause)
  for name in ["group", "kind", "name", "uid"] do
    let _ ← single? ms name string
  let _ ← single? ms "retryAfterSeconds" (uint 32)

/-- a report on how a request went -/
def statusReport : Decoder Unit := fun v => do
  let ms ← membersOf "struct Status" v
  let _ ← single? ms "code" (uint 16)
  let _ ← single? ms "details" (option statusDetails)
  let _ ← single? ms "message" string
  let _ ← single? ms "reason" string
  let _ ← single? ms "status" (option (choice [("Success", ()), ("Failure", ())]))

/-- what is looked at of a status -/
def statusOutline : Json.Outline :=
  .record (("details", .record detailMembers false) ::
    Json.Outline.plain ["code", "message", "reason", "status"]) false

/-- The object that was deleted, or a report.  The text has to have a value to tell which. -/
def deletion (s : String) : Decoded Unit := do
  let v ← text .whole json s
  if v.get "kind" = .str "Status" then text statusOutline statusReport s
  else (fun _ => ()) <$> text Object.outline Object.decode s

end Decode

/-- reads the answer to a call from a body -/
def Call.decodeAnswer : (c : Call) → String → Decoded c.Answer
  | .get _ _ _, s => some <$> Decode.text Object.outline Object.decode s
  | .create _ _ _, s => Decode.text Object.outline Object.decode s
  | .patch _ _ _ _, s => Decode.text Object.outline Object.decode s
  | .patchStatus _ _ _ _, s => (fun _ => ()) <$> Decode.text Object.outline Object.decode s
  | .list _ _ _, s => Decode.text Decode.objectListOutline Decode.objectList s
  | .delete _ _ _, s => (fun _ => true) <$> Decode.deletion s

/-- Where an error is noticed in a body, which is one line: what is missing at the end, and a name
of the last member in front of the closing brace. -/
def HttpReply.errorColumn (r : HttpReply) : DecodeError → Nat
  | .unknownName _ _ => r.body.utf8ByteSize - 1
  | _ => r.body.utf8ByteSize

/-- a reply whose body is not what was asked for -/
def HttpReply.failure (r : HttpReply) (e : DecodeError) : Failure :=
  .exchange ("Error deserializing response: " ++ e.message ++ " at line 1 column " ++
    toString (r.errorColumn e))

/-- what a reply means for a call -/
def Call.receive (c : Call) (r : HttpReply) : c.Reply :=
  if !isHttpStatus r.status then .error (.exchange "invalid status code")
  else if 400 ≤ r.status ∧ r.status < 600 then c.onError (ApiError.ofReply r)
  else
    match c.decodeAnswer r.body with
    | .ok a => .ok a
    | .error e => .error (r.failure e)

end ConnectorControl
