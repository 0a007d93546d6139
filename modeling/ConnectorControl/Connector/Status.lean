import ConnectorControl.Json.Decode

/-!
# Status of a Connector

The status keeps a history of conditions, oldest first, and the generation last observed.  A
condition that repeats the latest one is not added; the history keeps the sixteen latest.
-/

namespace ConnectorControl

inductive ConditionType where
  | created
  | terminated
  | error
  | pending
  | terminating
  | unknown
  | ready
deriving DecidableEq

namespace ConditionType

def all : List ConditionType :=
  [.created, .terminated, .error, .pending, .terminating, .unknown, .ready]

def name : ConditionType → String
  | .created => "Created"
  | .terminated => "Terminated"
  | .error => "Error"
  | .pending => "Pending"
  | .terminating => "Terminating"
  | .unknown => "Unknown"
  | .ready => "Ready"

def decode : Decoder ConditionType := Decode.choice (all.map fun t => (t.name, t))

end ConditionType

inductive Truth where
  | true
  | false
  | unknown
deriving DecidableEq

namespace Truth

def all : List Truth := [.true, .false, .unknown]

def name : Truth → String
  | .true => "True"
  | .false => "False"
  | .unknown => "Unknown"

def decode : Decoder Truth := Decode.choice (all.map fun t => (t.name, t))

end Truth

inductive Reason where
  | errorCreatingScaledObject
  | scaledObjectCreated
  | terminatingResources
  | scaledObjectTerminated
  | scaledObjectTerminationError
  | pendingCreation
  | httpScaledObjectReady
  | deploymentCreated
  | errorCreatingDeployment
  | invalidSpec
deriving DecidableEq

namespace Reason

def all : List Reason :=
  [.errorCreatingScaledObject, .scaledObjectCreated, .terminatingResources,
    .scaledObjectTerminated, .scaledObjectTerminationError, .pendingCreation,
    .httpScaledObjectReady, .deploymentCreated, .errorCreatingDeployment, .invalidSpec]

def name : Reason → String
  | .errorCreatingScaledObject => "ErrorCreatingAppScaledObject"
  | .scaledObjectCreated => "AppScaledObjectCreated"
  | .terminatingResources => "TerminatingResources"
  | .scaledObjectTerminated => "AppScaledObjectTerminated"
  | .scaledObjectTerminationError => "AppScaledObjectTerminationError"
  | .pendingCreation => "PendingCreation"
  | .httpScaledObjectReady => "HTTPScaledObjectIsReady"
  | .deploymentCreated => "DeploymentCreated"
  | .errorCreatingDeployment => "ErrorCreatingDeployment"
  | .invalidSpec => "InvalidSpec"

def decode : Decoder Reason := Decode.choice (all.map fun r => (r.name, r))

end Reason

/-- what the controller observed or did at some time -/
structure Condition where
  timestamp : String
  type : ConditionType
  status : Truth
  reason : Option Reason
  message : Option String
deriving DecidableEq

namespace Condition

def order : List String := ["timestamp", "type", "status", "reason", "message"]

open Decode in
def decode : Decoder Condition := record "ConnectorCondition" order fun ms absent => do
  let message ← optional ms "message" string
  let reason ← optional ms "reason" Reason.decode
  let status ← member? ms "status" Truth.decode
  let timestamp ← member? ms "timestamp" string
  let type ← member? ms "type" ConditionType.decode
  return {
    timestamp := ← require (absent "timestamp") timestamp
    type := ← require (absent "type") type
    status := ← require (absent "status") status
    reason, message }

def toJson (c : Condition) : Json :=
  .objectOfSet [
    ("timestamp", some (.str c.timestamp)),
    ("type", some (.str c.type.name)),
    ("status", some (.str c.status.name)),
    ("reason", c.reason.map fun r => .str r.name),
    ("message", c.message.map .str)]

/-- whether two conditions say the same, whenever they were made -/
def sameObservation (a b : Condition) : Bool :=
  a.type = b.type && a.status = b.status && a.reason = b.reason && a.message = b.message

theorem sameObservation_iff {a b : Condition} :
    a.sameObservation b = true ↔
      a.type = b.type ∧ a.status = b.status ∧ a.reason = b.reason ∧ a.message = b.message := by
  simp [sameObservation, and_assoc]

end Condition

/-! ## history -/

namespace History

/-- the most conditions that a history keeps -/
def limit : Nat := 16

/-- the latest conditions, as many as a history keeps -/
def latest (cs : List Condition) : List Condition := cs.drop (cs.length - limit)

/-- whether a condition says what the latest one says -/
def repeats (cs : List Condition) (c : Condition) : Bool :=
  match cs.getLast? with
  | some last => last.sameObservation c
  | none => false

/-- adds a condition, unless it repeats the latest one -/
def push (cs : List Condition) (c : Condition) : List Condition :=
  if repeats cs c then cs else latest (cs ++ [c])

theorem length_latest (cs : List Condition) : (latest cs).length ≤ limit := by
  simp [latest]; omega

theorem push_of_repeats {cs : List Condition} {c : Condition} (h : repeats cs c = true) :
    push cs c = cs := by
  simp [push, h]

theorem getLast?_latest_append (cs : List Condition) (c : Condition) :
    (latest (cs ++ [c])).getLast? = some c := by
  have : ¬cs.length + 1 ≤ cs.length - 15 := by omega
  simp [latest, limit, List.getLast?_drop, this]

theorem repeats_push (cs : List Condition) (c : Condition) : repeats (push cs c) c = true := by
  by_cases h : repeats cs c = true
  · rw [push_of_repeats h, h]
  · rw [push, if_neg h, repeats, getLast?_latest_append]
    simp [Condition.sameObservation]

end History

structure Status where
  conditions : List Condition
  observedGeneration : Option Int64
deriving DecidableEq

instance : Inhabited Status := ⟨[], none⟩

namespace Status

def order : List String := ["conditions", "observedGeneration"]

open Decode in
def decode : Decoder Status := record "ConnectorStatus" order fun ms _ => do
  return {
    conditions := ← withDefault ms "conditions" (list Condition.decode) []
    observedGeneration := ← optional ms "observedGeneration" int64 }

/-- the status as written; what is empty or unset is left out -/
def toJson (s : Status) : Json :=
  .objectOfSet [
    ("conditions",
      if s.conditions.isEmpty then none else some (.arr (s.conditions.map Condition.toJson))),
    ("observedGeneration", s.observedGeneration.map fun n => .int n.toInt)]

end Status
end ConnectorControl
