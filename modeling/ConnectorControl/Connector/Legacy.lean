import ConnectorControl.Connector.Scaling
import ConnectorControl.Objects.IntOrString
import ConnectorControl.Text.Quoted

/-!
# Scalers of the first API revision

A Connector of the first revision has a type and a single scaler, whose metadata mixes what the
scaler needs with settings of the controller (`secret`, `svcPort`, `host`, the replica bounds).
Such a scaler is turned into a scaling rule: HTTP scaling for the type `http`, else custom scaling
with one trigger.
-/

namespace ConnectorControl

inductive ConnectorType where
  | http
  | activemq
  | artemisQueue
  | kafka
  | awsCloudwatch
  | awsKinesisStream
  | awsSqsQueue
  | azureAppInsights
  | rabbitmq
  | mysql
deriving DecidableEq

namespace ConnectorType

def all : List ConnectorType :=
  [.http, .activemq, .artemisQueue, .kafka, .awsCloudwatch, .awsKinesisStream, .awsSqsQueue,
    .azureAppInsights, .rabbitmq, .mysql]

/-- the type's name, which is also the scaler's -/
def name : ConnectorType → String
  | .http => "http"
  | .activemq => "activemq"
  | .artemisQueue => "artemis-queue"
  | .kafka => "kafka"
  | .awsCloudwatch => "aws-cloudwatch"
  | .awsKinesisStream => "aws-kinesis-stream"
  | .awsSqsQueue => "aws-sqs-queue"
  | .azureAppInsights => "azure-app-insights"
  | .rabbitmq => "rabbitmq"
  | .mysql => "mysql"

def decode : Decoder ConnectorType := Decode.choice (all.map fun t => (t.name, t))

end ConnectorType

/-- why a scaler has no scaling rule -/
inductive ConversionError where
  | missingField (field : String)
  | invalidValue (field value : String)
deriving DecidableEq

def ConversionError.message : ConversionError → String
  | .missingField field => "missing required field <" ++ field ++ ">"
  | .invalidValue field value => "field <" ++ field ++ "> has invalid value " ++ Text.quoted value

structure LegacyScaler where
  checkInterval : Option Int32
  cooldownPeriod : Option Int32
  maxReplicas : Option Int32
  minReplicas : Option Int32
  metadata : Table String IntOrString
  scalerSecret : Option String
deriving DecidableEq

namespace LegacyScaler

def order : List String :=
  ["checkInterval", "cooldownPeriod", "maxReplicaCount", "minReplicaCount", "metadata",
    "scalerSecret"]

open Decode in
def decode : Decoder LegacyScaler := record "LegacyScalerSpec" order fun ms _ => do
  return {
    checkInterval := ← optional ms "checkInterval" int32
    cooldownPeriod := ← optional ms "cooldownPeriod" int32
    maxReplicas := ← optional ms "maxReplicaCount" int32
    metadata := ← withDefault ms "metadata" (table IntOrString.decode) ∅
    minReplicas := ← optional ms "minReplicaCount" int32
    scalerSecret := ← optional ms "scalerSecret" string }

def toJson (s : LegacyScaler) : Json :=
  .objectOfSet [
    ("checkInterval", Json.ofInt32? s.checkInterval),
    ("cooldownPeriod", Json.ofInt32? s.cooldownPeriod),
    ("maxReplicaCount", Json.ofInt32? s.maxReplicas),
    ("minReplicaCount", Json.ofInt32? s.minReplicas),
    ("metadata",
      if s.metadata.isEmpty then none
      else some (.obj (Entries.mapValues IntOrString.toJson s.metadata.entries))),
    ("scalerSecret", s.scalerSecret.map .str)]

/-- a metadata value as text; an empty one is none -/
def string? (s : LegacyScaler) (key : String) : Option String :=
  ((s.metadata.find? key).map IntOrString.render).filter (· ≠ "")

/-- a metadata value as an integer -/
def int? (s : LegacyScaler) (key : String) : Option Int32 :=
  (s.metadata.find? key).bind IntOrString.int?

/-- a replica bound of the metadata, where zero counts as unset -/
def bound? (s : LegacyScaler) (key : String) : Option Int32 := (s.int? key).filter (· ≠ 0)

/-- the pending requests per replica, none when unset -/
def pendingRequests (s : LegacyScaler) : Except ConversionError Int32 :=
  match s.metadata.find? "pendingRequests" with
  | none => .ok 0
  | some raw =>
    match raw.int? with
    | some n => .ok n
    | none => .error (.invalidValue "pendingRequests" raw.render)

def toHttpRule (s : LegacyScaler) : Except ConversionError ScalingRule :=
  match s.string? "host" with
  | none => .error (.missingField "host")
  | some host => do
    let pendingRequests ← s.pendingRequests
    return {
      maxReplicas := s.bound? "maxReplica" <|> s.maxReplicas
      minReplicas := s.bound? "minReplica" <|> s.minReplicas
      mode := .http { host, serviceType := .loadBalancer, pendingRequests } }

/-- the one trigger of a scaler; the secret's name is no scaler metadata -/
def trigger (s : LegacyScaler) (type : ConnectorType) : Trigger where
  type := type.name
  metadata := (s.metadata.erase "secret").mapValues IntOrString.render
  secretRef := s.string? "secret" <|> s.scalerSecret.filter (· ≠ "")

def toCustomRule (s : LegacyScaler) (type : ConnectorType) : ScalingRule where
  maxReplicas := s.maxReplicas
  minReplicas := s.minReplicas
  mode := .custom {
    checkInterval := s.checkInterval
    cooldownPeriod := s.cooldownPeriod
    triggers := [s.trigger type] }

/-- the scaling rule that a scaler stands for -/
def toScalingRule (s : LegacyScaler) : ConnectorType → Except ConversionError ScalingRule
  | .http => s.toHttpRule
  | type => .ok (s.toCustomRule type)

end LegacyScaler
end ConnectorControl
