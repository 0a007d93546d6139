import ConnectorControl.Derived.Naming

/-!
# The Deployment of a Connector

Containers given in the spec are taken as they are; else one container is made from the image.  The
ConfigMap and the Secret that the spec names become volumes, and each is mounted into the first
container unless a mount there already uses the volume's name.  The replica count is one, or left
open for the autoscaler.
-/

namespace ConnectorControl

/-- a volume backed by a ConfigMap or a Secret -/
inductive Volume where
  | configMap (name : String)
  | secret (name : String)
deriving DecidableEq

namespace Volume

/-- the name of the volume within the pod -/
def volumeName : Volume → String
  | .configMap _ => "config"
  | .secret _ => "secret"

def mount : Volume → VolumeMount
  | .configMap _ => { name := "config", mountPath := "/vance/config", readOnly := some true }
  | .secret _ => { name := "secret", mountPath := "/vance/secret", readOnly := some true }

def toJson : Volume → Json
  | .configMap name =>
    .object [("name", .str "config"), ("configMap", .object [("name", .str name)])]
  | .secret name =>
    .object [("name", .str "secret"), ("secret", .object [("secretName", .str name)])]

end Volume

structure Deployment where
  metadata : Metadata
  replicas : Option Nat
  selector : Table String String
  podLabels : Table String String
  containers : List Container
  volumes : List Volume

namespace Deployment

/-- the container of a Connector that gives only an image -/
def defaultContainer (c : Connector) : Container :=
  { name := c.name
    image := c.spec.image
    imagePullPolicy := some "IfNotPresent"
    ports := c.spec.effectivePort.map fun p =>
      [{ containerPort := p, name := some "http", protocol := some "TCP" }] }

/-- the containers before mounts are added -/
def baseContainers (c : Connector) : List Container :=
  if c.spec.containers.isEmpty then [defaultContainer c] else c.spec.containers

/-- the volumes that a spec asks for -/
def volumesOf (s : ConnectorSpec) : List Volume :=
  (s.configMapName.map .configMap).toList ++ (s.secretName.map .secret).toList

/-- adds a mount unless one of its name is there -/
def addMount (mounts : List VolumeMount) (m : VolumeMount) : List VolumeMount :=
  if mounts.any fun m' => m'.name = m.name then mounts else mounts ++ [m]

/-- the container with the volumes mounted; no mounts at all are left out -/
def withMounts (volumes : List Volume) (c : Container) : Container :=
  let mounts := (volumes.map Volume.mount).foldl addMount (c.volumeMounts.getD [])
  { c with volumeMounts := if mounts.isEmpty then none else some mounts }

def mountFirst (volumes : List Volume) : List Container → List Container
  | [] => []
  | c :: rest => withMounts volumes c :: rest

def ofConnector (c : Connector) : Deployment where
  metadata := Derived.metadata c c.name
  replicas := if c.spec.wantsAutoscaling then none else some 1
  selector := Derived.selectorLabels c.name
  podLabels := Derived.podLabels c.name
  containers := mountFirst (volumesOf c.spec) (baseContainers c)
  volumes := volumesOf c.spec

def spec (d : Deployment) : Json :=
  .objectOfSet [
    ("replicas", d.replicas.map fun n => .int n),
    ("selector", some (.object [("matchLabels", .ofStringTable d.selector)])),
    ("template", some (.object [
      ("metadata", .object [("labels", .ofStringTable d.podLabels)]),
      ("spec", .object [
        ("containers", .arr (d.containers.map Container.toJson)),
        ("volumes", .arr (d.volumes.map Volume.toJson))])]))]

def toObject (d : Deployment) : Object where
  types := some ⟨Kind.apiVersion DerivedKind.deployment, DerivedKind.deployment.name⟩
  metadata := d.metadata
  body := .ofList [("spec", d.spec)]

end Deployment
end ConnectorControl
