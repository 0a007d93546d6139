import ConnectorControl.Connector.Legacy
import ConnectorControl.Connector.Status
import ConnectorControl.Objects.Container
import ConnectorControl.Objects.Kind

/-!
# Connectors

A Connector asks for a workload, by image or by containers, with an optional port, mounts and
scaling.  A scaling rule wins over the type and scaler of the first API revision, of which the
scaler needs the type.
-/

namespace ConnectorControl

structure ConnectorSpec where
  image : Option String
  containers : List Container
  exposePort : Option Int32
  configRef : Option String
  secretRef : Option String
  scalingRule : Option ScalingRule
  type : Option ConnectorType
  scaler : Option LegacyScaler
deriving DecidableEq

namespace ConnectorSpec

def order : List String :=
  ["image", "containers", "exposePort", "configRef", "secretRef", "scalingRule", "type",
    "scalerSpec"]

open Decode in
def decode : Decoder ConnectorSpec := record "ConnectorSpec" order fun ms _ => do
  let configRef ← optional ms "configRef" string
  let containers ← withDefault ms "containers" (list Container.decode) []
  let exposePort ← optional ms "exposePort" int32
  let image ← optional ms "image" string
  let scaler ← optional ms "scalerSpec" LegacyScaler.decode
  let scalingRule ← optional ms "scalingRule" ScalingRule.decode
  let secretRef ← optional ms "secretRef" string
  let type ← optional ms "type" ConnectorType.decode
  return { image, containers, exposePort, configRef, secretRef, scalingRule, type, scaler }

def toJson (s : ConnectorSpec) : Json :=
  .objectOfSet [
    ("image", s.image.map .str),
    ("containers",
      if s.containers.isEmpty then none else some (.arr (s.containers.map Container.toJson))),
    ("exposePort", Json.ofInt32? s.exposePort),
    ("configRef", s.configRef.map .str),
    ("secretRef", s.secretRef.map .str),
    ("scalingRule", s.scalingRule.map ScalingRule.toJson),
    ("type", s.type.map fun t => .str t.name),
    ("scalerSpec", s.scaler.map LegacyScaler.toJson)]

/-- the scaling rule to follow, if scaling is asked for -/
def effectiveScaling (s : ConnectorSpec) : Except ConversionError (Option ScalingRule) :=
  match s.scalingRule, s.type, s.scaler with
  | some rule, _, _ => .ok (some rule)
  | none, some type, some scaler => some <$> scaler.toScalingRule type
  | none, none, some _ => .error (.missingField "type")
  | none, _, none => .ok none

/-- whether the replica count is left to the autoscaler -/
def wantsAutoscaling (s : ConnectorSpec) : Bool := s.scalingRule.isSome || s.scaler.isSome

/-- the port that the Connector listens on -/
def effectivePort (s : ConnectorSpec) : Option Int32 :=
  s.exposePort <|> s.scaler.bind (·.int? "svcPort")

/-- the ConfigMap to mount; an empty name is none -/
def configMapName (s : ConnectorSpec) : Option String := s.configRef.filter (· ≠ "")

/-- the Secret to mount; an empty name is none -/
def secretName (s : ConnectorSpec) : Option String := s.secretRef.filter (· ≠ "")

end ConnectorSpec

structure Connector where
  metadata : Metadata
  spec : ConnectorSpec
  status : Option Status
deriving DecidableEq

namespace Connector

open Decode in
/-- reads a Connector, whatever type it is given with -/
def decode : Decoder Connector := fun v => do
  let ms ← membersOf "struct Connector" v
  let metadata ← member? ms "metadata" Metadata.decode
  let spec ← member? ms "spec" ConnectorSpec.decode
  let status ← optional ms "status" Status.decode
  return {
    metadata := ← require (.missing "metadata") metadata
    spec := ← require (.missing "spec") spec
    status }

def toJson (c : Connector) : Json :=
  .objectOfSet [
    ("apiVersion", some (.str Kind.connector.apiVersion)),
    ("kind", some (.str Kind.connector.name)),
    ("metadata", some c.metadata.toJson),
    ("spec", some c.spec.toJson),
    ("status", c.status.map Status.toJson)]

def name (c : Connector) : String := c.metadata.nameAny

end Connector
end ConnectorControl
