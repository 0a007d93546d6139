import ConnectorControl.Connector.Basic
import ConnectorControl.Objects.Object

/-!
# Names, labels and owners of derived objects

The objects derived from a Connector are named after it.  They carry its name as a label, by which
they are selected, and the Connector as their only owner, marked as their controller.
-/

namespace ConnectorControl
namespace Derived

/-- the manager named on every object and every write -/
def manager : String := "connector-operator"

/-- the label that names the Connector -/
def connectorLabel : String := "vance.io/connector"

/-- what a kind puts behind the Connector's name -/
def suffix : DerivedKind → String
  | .deployment => ""
  | .service => ""
  | .scaledObject => "-vso"
  | .httpScaledObject => "-vhso"
  | .triggerAuthentication => "-vta"

/-- the name of a kind's object -/
def objectName (kind : DerivedKind) (connector : String) : String := connector ++ suffix kind

/-- the name of the TriggerAuthentication of a trigger, counting only those with a Secret -/
def triggerAuthName (connector : String) (index : Nat) : String :=
  let base := objectName .triggerAuthentication connector
  if index = 0 then base else base ++ "-" ++ toString index

/-- the kinds that are removed when no longer wanted, in the order of their removal -/
def prunable : List DerivedKind :=
  [.httpScaledObject, .scaledObject, .triggerAuthentication, .service]

/-- the selector of all objects of a Connector -/
def selector (connector : String) : String := connectorLabel ++ "=" ++ connector

def standardLabels (connector : String) : Table String String :=
  .ofList [
    ("app.kubernetes.io/name", connector),
    ("app.kubernetes.io/managed-by", manager),
    (connectorLabel, connector)]

/-- the labels by which a Deployment and a Service select the pods -/
def selectorLabels (connector : String) : Table String String := .ofList [("app", connector)]

def podLabels (connector : String) : Table String String :=
  (standardLabels connector).insert "app" connector

def owner (c : Connector) : OwnerReference where
  apiVersion := Kind.connector.apiVersion
  kind := Kind.connector.name
  name := c.name
  uid := c.metadata.uid.getD ""
  controller := some true
  blockOwnerDeletion := some true

/-- the metadata of a derived object -/
def metadata (c : Connector) (name : String) : Metadata :=
  { (default : Metadata) with
    name := some name
    ns := c.metadata.ns
    labels := some (standardLabels c.name)
    ownerReferences := some [owner c] }

/-- a derived object with its spec -/
def object (c : Connector) (kind : DerivedKind) (name : String) (spec : Json) : Object where
  types := some ⟨(kind : Kind).apiVersion, (kind : Kind).name⟩
  metadata := metadata c name
  body := .ofList [("spec", spec)]

end Derived
end ConnectorControl
