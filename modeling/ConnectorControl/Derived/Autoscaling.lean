import ConnectorControl.Derived.Naming

/-!
# Autoscaling objects

A ScaledObject scales the Deployment by triggers, whose TriggerAuthentications hand keys of a Secret
to the scaler; an HTTPScaledObject scales it by requests to a host.  What a spec leaves open is
written as `null`, so that a patch clears it.
-/

namespace ConnectorControl

def Json.ofInt32OrNull (n : Option Int32) : Json := (Json.ofInt32? n).getD .null

/-! ## ScaledObject -/

/-- a trigger of a ScaledObject with the name of its TriggerAuthentication -/
structure ScaleTrigger where
  type : String
  metadata : Table String String
  authentication : Option String
deriving DecidableEq

namespace ScaleTrigger

def ofTrigger (t : Trigger) (authentication : Option String) : ScaleTrigger :=
  ⟨t.type, t.metadata, authentication⟩

def toJson (t : ScaleTrigger) : Json :=
  .objectOfSet [
    ("type", some (.str t.type)),
    ("metadata", some (.ofStringTable t.metadata)),
    ("authenticationRef", t.authentication.map fun name => .object [("name", .str name)])]

end ScaleTrigger

structure ScaledObject where
  target : String
  minReplicas : Option Int32
  maxReplicas : Option Int32
  cooldownPeriod : Option Int32
  pollingInterval : Option Int32
  triggers : List ScaleTrigger

namespace ScaledObject

def ofConnector (c : Connector) (rule : ScalingRule) (custom : CustomScaling)
    (triggers : List ScaleTrigger) : ScaledObject where
  target := Derived.objectName .deployment c.name
  minReplicas := rule.minReplicas
  maxReplicas := rule.maxReplicas
  cooldownPeriod := custom.cooldownPeriod
  pollingInterval := custom.checkInterval
  triggers := triggers

def spec (s : ScaledObject) : Json :=
  .object [
    ("scaleTargetRef", .object [
      ("apiVersion", .str "apps/v1"),
      ("kind", .str "Deployment"),
      ("name", .str s.target)]),
    ("minReplicaCount", Json.ofInt32OrNull s.minReplicas),
    ("maxReplicaCount", Json.ofInt32OrNull s.maxReplicas),
    ("cooldownPeriod", Json.ofInt32OrNull s.cooldownPeriod),
    ("pollingInterval", Json.ofInt32OrNull s.pollingInterval),
    ("triggers", .arr (s.triggers.map ScaleTrigger.toJson))]

def toObject (s : ScaledObject) (c : Connector) : Object :=
  Derived.object c .scaledObject (Derived.objectName .scaledObject c.name) s.spec

end ScaledObject

/-! ## TriggerAuthentication -/

/-- keys of a Secret, each handed to the parameter of its name -/
structure TriggerAuth where
  name : String
  secret : String
  keys : List String
deriving DecidableEq

namespace TriggerAuth

def spec (a : TriggerAuth) : Json :=
  .object [
    ("secretTargetRef", .arr (a.keys.map fun key =>
      .object [("parameter", .str key), ("name", .str a.secret), ("key", .str key)]))]

def toObject (a : TriggerAuth) (c : Connector) : Object :=
  Derived.object c .triggerAuthentication a.name a.spec

end TriggerAuth

/-! ## HTTPScaledObject -/

structure HttpScaledObject where
  host : String
  target : String
  service : String
  port : Int32
  minReplicas : Int32
  maxReplicas : Int32
  pendingRequests : Option Int32

namespace HttpScaledObject

/-- bounds left open are zero and ten replicas -/
def ofConnector (c : Connector) (rule : ScalingRule) (http : HttpScaling) (port : Int32) :
    HttpScaledObject where
  host := http.host
  target := Derived.objectName .deployment c.name
  service := Derived.objectName .service c.name
  port := port
  minReplicas := rule.minReplicas.getD 0
  maxReplicas := rule.maxReplicas.getD 10
  pendingRequests := if http.pendingRequests = 0 then none else some http.pendingRequests

def spec (s : HttpScaledObject) : Json :=
  .object [
    ("hosts", .ofStrings [s.host]),
    ("scaleTargetRef", .object [
      ("name", .str s.target),
      ("kind", .str "Deployment"),
      ("apiVersion", .str "apps/v1"),
      ("service", .str s.service),
      ("port", .int s.port.toInt)]),
    ("replicas", .object [
      ("min", .int s.minReplicas.toInt),
      ("max", .int s.maxReplicas.toInt)]),
    ("targetPendingRequests", Json.ofInt32OrNull s.pendingRequests)]

def toObject (s : HttpScaledObject) (c : Connector) : Object :=
  Derived.object c .httpScaledObject (Derived.objectName .httpScaledObject c.name) s.spec

end HttpScaledObject
end ConnectorControl
