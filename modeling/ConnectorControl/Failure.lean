import ConnectorControl.Connector.Legacy
import ConnectorControl.Json.Decode

/-!
# Failures of a pass

A pass over a Connector ends with one of these causes.  `Failure.message` is its text in conditions
and logs, `Failure.isRetryable` says whether another pass can succeed while the user changes
nothing: a refusal by the API only when it is a conflict or a limit on the rate of requests, a
missing Secret or ConfigMap always, as it may still be created.
-/

namespace ConnectorControl

/-- the error that the API answers -/
structure ApiError where
  status : String
  message : String
  reason : String
  code : Nat
deriving DecidableEq

namespace ApiError

/-- an error with its message and reason, then all of its parts -/
def text (e : ApiError) : String :=
  "ApiError: " ++ e.message ++ ": " ++ e.reason ++ " (ErrorResponse \x7b status: " ++
    Text.quoted e.status ++ ", message: " ++ Text.quoted e.message ++ ", reason: " ++
    Text.quoted e.reason ++ ", code: " ++ toString e.code ++ " \x7d)"

/-- a refusal that stays until something is changed -/
def isPermanent (e : ApiError) : Bool :=
  400 ≤ e.code && e.code < 500 && e.code ≠ 409 && e.code ≠ 429

end ApiError

inductive Failure where
  /-- the API answered with an error -/
  | api (e : ApiError)
  /-- the API could not be asked, or its answer not understood -/
  | exchange (text : String)
  /-- a stored object does not read as what it should be -/
  | undecodable (e : DecodeError)
  /-- an object lacks the member at a path -/
  | missingKey (path : String)
  | alreadyExists (kind name : String)
  /-- an object that the spec refers to is not there -/
  | notFound (what : String)
  | unknownTriggerType (type : String)
  /-- a Secret has none of the key sets of a trigger type; the keys missing from the closest -/
  | secretMissesKeys (secret triggerType : String) (missing : List String)
  | invalid (why : String)
  | conversion (e : ConversionError)
  | transient (what : String)
deriving DecidableEq

namespace Failure

def message : Failure → String
  | .api e => "Kubernetes API error: " ++ e.text
  | .exchange text => "Kubernetes API error: " ++ text
  | .undecodable e => "Serialization error: " ++ e.message
  | .missingKey path => "Missing object key: " ++ path
  | .alreadyExists kind name => kind ++ " " ++ name ++ " already exists"
  | .notFound what => "Resource not found: " ++ what
  | .unknownTriggerType type =>
    "Unknown trigger type " ++ Text.quoted type ++ ": no scaler auth configured"
  | .secretMissesKeys secret triggerType missing =>
    "secret " ++ secret ++ " misses required field for trigger " ++ triggerType ++ ": " ++
      Text.quotedList missing
  | .invalid why => "Validation error: " ++ why
  | .conversion e => "Invalid legacy scaler spec: " ++ e.message
  | .transient what => "Transient error (will retry): " ++ what

def isRetryable : Failure → Bool
  | .api e => !e.isPermanent
  | .exchange _ => true
  | .undecodable _ => false
  | .missingKey _ => false
  | .alreadyExists _ _ => true
  | .notFound _ => true
  | .unknownTriggerType _ => false
  | .secretMissesKeys _ _ _ => false
  | .invalid _ => false
  | .conversion _ => false
  | .transient _ => true

end Failure
end ConnectorControl
