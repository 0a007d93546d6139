/-!
# Kinds of objects

A Connector is turned into objects of five derived kinds; the controller reads Secrets and
ConfigMaps besides.  Each kind has a place in the API: a group, a version and a plural name.
-/

namespace ConnectorControl

/-- the kinds of objects made for a Connector -/
inductive DerivedKind where
  | deployment
  | service
  | scaledObject
  | httpScaledObject
  | triggerAuthentication
deriving DecidableEq, Ord, Inhabited

inductive Kind where
  | derived (d : DerivedKind)
  | connector
  | secret
  | configMap
deriving DecidableEq, Ord, Inhabited

instance : Coe DerivedKind Kind := ⟨.derived⟩

namespace DerivedKind

def all : List DerivedKind :=
  [.deployment, .service, .scaledObject, .httpScaledObject, .triggerAuthentication]

def name : DerivedKind → String
  | .deployment => "Deployment"
  | .service => "Service"
  | .scaledObject => "ScaledObject"
  | .httpScaledObject => "HTTPScaledObject"
  | .triggerAuthentication => "TriggerAuthentication"

def plural : DerivedKind → String
  | .deployment => "deployments"
  | .service => "services"
  | .scaledObject => "scaledobjects"
  | .httpScaledObject => "httpscaledobjects"
  | .triggerAuthentication => "triggerauthentications"

def group : DerivedKind → String
  | .deployment => "apps"
  | .service => ""
  | .scaledObject => "keda.sh"
  | .httpScaledObject => "http.keda.sh"
  | .triggerAuthentication => "keda.sh"

def version : DerivedKind → String
  | .deployment => "v1"
  | .service => "v1"
  | .scaledObject => "v1alpha1"
  | .httpScaledObject => "v1alpha1"
  | .triggerAuthentication => "v1alpha1"

end DerivedKind

namespace Kind

def all : List Kind := DerivedKind.all.map .derived ++ [.connector, .secret, .configMap]

def name : Kind → String
  | .derived d => d.name
  | .connector => "Connector"
  | .secret => "Secret"
  | .configMap => "ConfigMap"

def plural : Kind → String
  | .derived d => d.plural
  | .connector => "connectors"
  | .secret => "secrets"
  | .configMap => "configmaps"

def group : Kind → String
  | .derived d => d.group
  | .connector => "vance.io"
  | .secret => ""
  | .configMap => ""

def version : Kind → String
  | .derived d => d.version
  | .connector => "v1alpha1"
  | .secret => "v1"
  | .configMap => "v1"

/-- group and version in one; the core group has no name -/
def apiVersion (k : Kind) : String :=
  if k.group = "" then k.version else k.group ++ "/" ++ k.version

def ofName? (s : String) : Option Kind := all.find? fun k => k.name = s

theorem ofName?_name (k : Kind) : ofName? k.name = some k := by
  rcases k with d | _ | _ | _
  · cases d <;> decide
  all_goals decide

end Kind
end ConnectorControl
