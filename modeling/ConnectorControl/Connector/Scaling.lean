import ConnectorControl.Json.Decode

/-!
# Scaling rules

A scaling rule bounds the replicas of a Connector and has one of two modes: custom scaling by
triggers, or HTTP scaling by pending requests.  On the wire the mode is the one member
`customScaling` or `httpScaling` beside the bounds; a rule with both or neither is refused, after
every member has been read.
-/

namespace ConnectorControl

inductive ServiceType where
  | clusterIP
  | loadBalancer
deriving DecidableEq, Inhabited

namespace ServiceType

def name : ServiceType → String
  | .clusterIP => "ClusterIP"
  | .loadBalancer => "LoadBalancer"

def names : List (String × ServiceType) :=
  [.clusterIP, .loadBalancer].map fun t : ServiceType => (t.name, t)

def decode : Decoder ServiceType := Decode.choice names

end ServiceType

/-- one condition to scale on -/
structure Trigger where
  type : String
  metadata : Table String String
  secretRef : Option String
deriving DecidableEq

structure CustomScaling where
  checkInterval : Option Int32
  cooldownPeriod : Option Int32
  triggers : List Trigger
deriving DecidableEq

structure HttpScaling where
  host : String
  serviceType : ServiceType
  pendingRequests : Int32
deriving DecidableEq

inductive ScalingMode where
  | custom (c : CustomScaling)
  | http (h : HttpScaling)
deriving DecidableEq

structure ScalingRule where
  maxReplicas : Option Int32
  minReplicas : Option Int32
  mode : ScalingMode
deriving DecidableEq

/-- why a rule has no single mode -/
inductive ModeError where
  | both
  | neither

def ModeError.message : ModeError → String
  | .both => "scalingRule sets both customScaling and httpScaling"
  | .neither => "scalingRule needs one of customScaling or httpScaling"

open Decode

namespace Trigger

/-- a trigger without metadata and secret -/
def ofType (type : String) : Trigger := ⟨type, ∅, none⟩

/-- the secret that the trigger names; an empty name is none -/
def secretName (t : Trigger) : Option String := t.secretRef.filter (· ≠ "")

def order : List String := ["type", "metadata", "secretRef"]

def decode : Decoder Trigger := record "Trigger" order fun ms absent => do
  let metadata ← withDefault ms "metadata" (table string) ∅
  let secretRef ← optional ms "secretRef" string
  let type ← member? ms "type" string
  return { type := ← require (absent "type") type, metadata, secretRef }

def toJson (t : Trigger) : Json :=
  .objectOfSet [
    ("type", some (.str t.type)),
    ("metadata", some (.ofStringTable t.metadata)),
    ("secretRef", t.secretRef.map .str)]

end Trigger

namespace CustomScaling

def order : List String := ["checkInterval", "cooldownPeriod", "triggers"]

def decode : Decoder CustomScaling := record "CustomScaling" order fun ms absent => do
  let checkInterval ← optional ms "checkInterval" int32
  let cooldownPeriod ← optional ms "cooldownPeriod" int32
  let triggers ← member? ms "triggers" (list Trigger.decode)
  return { checkInterval, cooldownPeriod, triggers := ← require (absent "triggers") triggers }

def toJson (c : CustomScaling) : Json :=
  .objectOfSet [
    ("checkInterval", Json.ofInt32? c.checkInterval),
    ("cooldownPeriod", Json.ofInt32? c.cooldownPeriod),
    ("triggers", some (.arr (c.triggers.map Trigger.toJson)))]

end CustomScaling

namespace HttpScaling

def order : List String := ["host", "svcType", "pendingRequests"]

def decode : Decoder HttpScaling := record "HttpScaling" order fun ms absent => do
  let host ← member? ms "host" string
  let pendingRequests ← withDefault ms "pendingRequests" int32 0
  let serviceType ← withDefault ms "svcType" ServiceType.decode .clusterIP
  return { host := ← require (absent "host") host, serviceType, pendingRequests }

def toJson (h : HttpScaling) : Json :=
  .objectOfSet [
    ("host", some (.str h.host)),
    ("svcType", some (.str h.serviceType.name)),
    ("pendingRequests",
      if h.pendingRequests = 0 then none else some (.int h.pendingRequests.toInt))]

end HttpScaling

namespace ScalingMode

/-- the mode of which exactly one is given -/
def ofOptions : Option CustomScaling → Option HttpScaling → Except ModeError ScalingMode
  | some c, none => .ok (.custom c)
  | none, some h => .ok (.http h)
  | some _, some _ => .error .both
  | none, none => .error .neither

def member : ScalingMode → String × Json
  | .custom c => ("customScaling", c.toJson)
  | .http h => ("httpScaling", h.toJson)

end ScalingMode

namespace ScalingRule

def isHttp (r : ScalingRule) : Bool :=
  match r.mode with
  | .http _ => true
  | .custom _ => false

def order : List String := ["maxReplicaCount", "minReplicaCount", "customScaling", "httpScaling"]

def decode : Decoder ScalingRule := record "ScalingRuleFields" order fun ms _ => do
  let custom ← optional ms "customScaling" CustomScaling.decode
  let http ← optional ms "httpScaling" HttpScaling.decode
  let maxReplicas ← optional ms "maxReplicaCount" int32
  let minReplicas ← optional ms "minReplicaCount" int32
  match ScalingMode.ofOptions custom http with
  | .ok mode => return { maxReplicas, minReplicas, mode }
  | .error e => throw (.refused e.message)

def toJson (r : ScalingRule) : Json :=
  .objectOfSet [
    ("maxReplicaCount", Json.ofInt32? r.maxReplicas),
    ("minReplicaCount", Json.ofInt32? r.minReplicas),
    (r.mode.member.1, some r.mode.member.2)]

end ScalingRule
end ConnectorControl
