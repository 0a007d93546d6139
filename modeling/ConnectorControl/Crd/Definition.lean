import ConnectorControl.Connector.Basic
import ConnectorControl.Crd.Schema
import ConnectorControl.Yaml

/-!
# The definition of the Connector resource

The definition tells the API server of the Connector: its names, the schema of its spec and status,
the columns it is listed with, and that its status is written apart from its spec.
-/

namespace ConnectorControl
namespace Crd

open Schema

/-! ## scaling -/

def triggerSchema : Schema :=
  described "One KEDA scale trigger" (object [
    ("type", described "KEDA scaler type, e.g. `aws-sqs-queue`" string),
    ("metadata", withDefault (.obj [])
      (described "Scaler metadata passed to KEDA verbatim" (table string))),
    ("secretRef", nullable
      (described "Secret supplying the scaler authentication parameters" string))]
    ["type"])

def customScalingSchema : Schema :=
  object [
    ("checkInterval", nullable
      (described "Polling interval of the triggers (seconds)" (integer 32))),
    ("cooldownPeriod", nullable (described
      "Wait period after the last active trigger before scaling to min (seconds)" (integer 32))),
    ("triggers", array triggerSchema)]
    ["triggers"]

def httpScalingSchema : Schema :=
  object [
    ("host", described "Host routed to the connector by the HTTP Add-on interceptor" string),
    ("pendingRequests", described
      "Target pending requests per replica, 0 keeps the KEDA default" (integer 32)),
    ("svcType", withDefault (.str ServiceType.clusterIP.name)
      (described "Kubernetes Service type used for HTTP-scaled connectors"
        (names (ServiceType.names.map (·.1)))))]
    ["host"]

def scalingRuleSchema : Schema :=
  exactlyOne ["customScaling", "httpScaling"] (object [
    ("maxReplicaCount", nullable (integer 32)),
    ("minReplicaCount", nullable (integer 32)),
    ("customScaling", customScalingSchema),
    ("httpScaling", httpScalingSchema)]
    [])

def scalerSchema : Schema :=
  object [
    ("checkInterval", nullable (integer 32)),
    ("cooldownPeriod", nullable (integer 32)),
    ("maxReplicaCount", nullable (integer 32)),
    ("minReplicaCount", nullable (integer 32)),
    ("metadata", table intOrString),
    ("scalerSecret", nullable string)]
    []

/-! ## spec and status -/

def specSchema : Schema :=
  described "Connector is the Schema for the connectors API" (object [
    ("image", nullable (described "The image uri of the connector" string)),
    ("containers", described
      "Explicit pod containers. When set they are used verbatim and `image` is ignored."
      (array anyObject)),
    ("exposePort", nullable (described "Port the connector listens on" (integer 32))),
    ("configRef", nullable
      (described "ConfigMap mounted into the connector at `/vance/config`" string)),
    ("secretRef", nullable
      (described "Secret mounted into the connector at `/vance/secret`" string)),
    ("scalingRule", nullable (described "Autoscaling configuration" scalingRuleSchema)),
    ("type", described
      "Deprecated: connector type of the first API revision. Use `scalingRule`."
      (namesOrNull (ConnectorType.all.map ConnectorType.name))),
    ("scalerSpec", nullable (described
      "Deprecated: single scaler of the first API revision. Use `scalingRule`."
      scalerSchema))]
    [])

def conditionSchema : Schema :=
  object [
    ("timestamp", described "Timestamp of this condition" string),
    ("type", described "Type of status condition"
      (names (ConditionType.all.map ConditionType.name))),
    ("status", described "Status of the condition, one of True, False, Unknown"
      (names (Truth.all.map Truth.name))),
    ("reason", described "One-word CamelCase reason for the condition's last transition"
      (namesOrNull (Reason.all.map Reason.name))),
    ("message", nullable
      (described "Human-readable message indicating details about last transition" string))]
    ["status", "timestamp", "type"]

def statusSchema : Schema :=
  described "Status of the Connector" (object [
    ("conditions", described "History of what the controller observed and did, oldest first"
      (array conditionSchema)),
    ("observedGeneration", nullable (integer 64))]
    [])

def connectorSchema : Schema :=
  titled "Connector" (described
    "Auto-generated derived type for ConnectorSpec via `CustomResource`"
    (object [("spec", specSchema), ("status", nullable statusSchema)] ["spec"]))

/-! ## the definition -/

/-- a column in which Connectors are listed -/
structure Column where
  name : String
  type : String
  path : String

def columns : List Column := [
  ⟨"Image", "string", ".spec.image"⟩,
  ⟨"Port", "integer", ".spec.exposePort"⟩,
  ⟨"Age", "date", ".metadata.creationTimestamp"⟩]

def Column.toJson (c : Column) : Json :=
  .object [("jsonPath", .str c.path), ("name", .str c.name), ("type", .str c.type)]

def resourceNames : Json :=
  .object [
    ("categories", .arr []),
    ("kind", .str Kind.connector.name),
    ("plural", .str Kind.connector.plural),
    ("shortNames", .ofStrings ["conn"]),
    ("singular", .str "connector")]

def version : Json :=
  .object [
    ("additionalPrinterColumns", .arr (columns.map Column.toJson)),
    ("name", .str Kind.connector.version),
    ("schema", .object [("openAPIV3Schema", connectorSchema.toJson)]),
    ("served", .bool true),
    ("storage", .bool true),
    ("subresources", .object [("status", .object [])])]

def definition : Json :=
  .object [
    ("apiVersion", .str "apiextensions.k8s.io/v1"),
    ("kind", .str "CustomResourceDefinition"),
    ("metadata", .object
      [("name", .str (Kind.connector.plural ++ "." ++ Kind.connector.group))]),
    ("spec", .object [
      ("group", .str Kind.connector.group),
      ("names", resourceNames),
      ("scope", .str "Namespaced"),
      ("versions", .arr [version])])]

/-- the definition as a file to install -/
def manifest : String := Yaml.text definition

end Crd
end ConnectorControl
