import ConnectorControl.Derived.Deployment
import ConnectorControl.Derived.Service
import ConnectorControl.Pass.Upsert

/-!
# Deployment and Service of a Connector

The ConfigMap and the Secret that a spec names have to be there before the Deployment is written, so
that no pod starts without its mounts.
-/

namespace ConnectorControl
namespace Pass

/-- insists that an object is there, if one is named -/
def requireObject (kind : Kind) (ns : String) : Option String → Pass Unit
  | none => return ()
  | some name => do
    match ← get kind ns name with
    | none => throw (.notFound (kind.name ++ " " ++ ns ++ "/" ++ name))
    | some _ => return ()

def upsertDeployment (c : Connector) (ns : String) : Pass Applied := do
  requireObject .configMap ns c.spec.configMapName
  requireObject .secret ns c.spec.secretName
  upsert .deployment ns (Deployment.ofConnector c).toObject

def upsertService (c : Connector) (ns : String) (port : Int32) (type : ServiceType) :
    Pass Applied :=
  upsert .service ns (Service.ofConnector c port type).toObject

end Pass
end ConnectorControl
