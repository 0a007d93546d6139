import ConnectorControl.Json.Decode
import ConnectorControl.Json.Outline
import ConnectorControl.Time.Instant

/-!
# Object metadata

Every member of an object's metadata is optional, and `null` counts as absent.  The members are read
in the order of their names.  What is set is written back, empty lists and tables included.
-/

namespace ConnectorControl

/-- the object that another one belongs to -/
structure OwnerReference where
  apiVersion : String
  kind : String
  name : String
  uid : String
  controller : Option Bool
  blockOwnerDeletion : Option Bool
deriving DecidableEq

/-- the members of an object that one manager has set -/
structure ManagedMembers where
  manager : Option String
  operation : Option String
  apiVersion : Option String
  time : Option Instant
  fieldsType : Option String
  fieldsV1 : Option Json
  subresource : Option String
deriving DecidableEq

structure Metadata where
  name : Option String
  generateName : Option String
  ns : Option String
  uid : Option String
  resourceVersion : Option String
  generation : Option Int64
  labels : Option (Table String String)
  annotations : Option (Table String String)
  finalizers : Option (List String)
  creationTimestamp : Option Instant
  deletionTimestamp : Option Instant
  deletionGracePeriodSeconds : Option Int64
  ownerReferences : Option (List OwnerReference)
  managedFields : Option (List ManagedMembers)
  selfLink : Option String
deriving DecidableEq

instance : Inhabited Metadata :=
  ⟨none, none, none, none, none, none, none, none, none, none, none, none, none, none, none⟩

namespace Decode

def instant : Decoder Instant
  | .str s =>
    match Instant.read s with
    | .ok t => .ok t
    | .error e => .error (.unreadable e.message)
  | v => .error (.mismatch "an RFC 3339 formatted date and time string" v)

/-- reads a text that is empty when it is absent -/
def textOrEmpty (ms : List (String × Json)) (name : String) : Decoded String :=
  return (← optional ms name string).getD ""

end Decode

open Decode in
def OwnerReference.decode : Decoder OwnerReference := fun v => do
  let ms ← membersOf "OwnerReference" v
  return {
    apiVersion := ← textOrEmpty ms "apiVersion"
    blockOwnerDeletion := ← optional ms "blockOwnerDeletion" bool
    controller := ← optional ms "controller" bool
    kind := ← textOrEmpty ms "kind"
    name := ← textOrEmpty ms "name"
    uid := ← textOrEmpty ms "uid" }

/-- what is looked at of an owner reference -/
def OwnerReference.outline : Json.Outline :=
  .ofNames ["apiVersion", "kind", "name", "uid", "controller", "blockOwnerDeletion"]

def OwnerReference.toJson (o : OwnerReference) : Json :=
  .objectOfSet [
    ("apiVersion", some (.str o.apiVersion)),
    ("kind", some (.str o.kind)),
    ("name", some (.str o.name)),
    ("uid", some (.str o.uid)),
    ("controller", o.controller.map .bool),
    ("blockOwnerDeletion", o.blockOwnerDeletion.map .bool)]

open Decode in
def ManagedMembers.decode : Decoder ManagedMembers := fun v => do
  let ms ← membersOf "ManagedFieldsEntry" v
  return {
    apiVersion := ← optional ms "apiVersion" string
    fieldsType := ← optional ms "fieldsType" string
    fieldsV1 := ← optional ms "fieldsV1" json
    manager := ← optional ms "manager" string
    operation := ← optional ms "operation" string
    subresource := ← optional ms "subresource" string
    time := ← optional ms "time" instant }

/-- what is looked at of the members of a manager -/
def ManagedMembers.outline : Json.Outline :=
  let plain := ["manager", "operation", "apiVersion", "time", "fieldsType", "subresource"]
  .record (("fieldsV1", .whole) :: Json.Outline.plain plain) false

def ManagedMembers.toJson (m : ManagedMembers) : Json :=
  .objectOfSet [
    ("manager", m.manager.map .str),
    ("operation", m.operation.map .str),
    ("apiVersion", m.apiVersion.map .str),
    ("time", m.time.map fun t => .str t.text),
    ("fieldsType", m.fieldsType.map .str),
    ("fieldsV1", m.fieldsV1),
    ("subresource", m.subresource.map .str)]

namespace Metadata

open Decode in
def decode : Decoder Metadata := fun v => do
  let ms ← membersOf "ObjectMeta" v
  return {
    annotations := ← optional ms "annotations" (table string)
    creationTimestamp := ← optional ms "creationTimestamp" instant
    deletionGracePeriodSeconds := ← optional ms "deletionGracePeriodSeconds" int64
    deletionTimestamp := ← optional ms "deletionTimestamp" instant
    finalizers := ← optional ms "finalizers" (list string)
    generateName := ← optional ms "generateName" string
    generation := ← optional ms "generation" int64
    labels := ← optional ms "labels" (table string)
    managedFields := ← optional ms "managedFields" (list ManagedMembers.decode)
    name := ← optional ms "name" string
    ns := ← optional ms "namespace" string
    ownerReferences := ← optional ms "ownerReferences" (list OwnerReference.decode)
    resourceVersion := ← optional ms "resourceVersion" string
    selfLink := ← optional ms "selfLink" string
    uid := ← optional ms "uid" string }

/-- what is looked at of metadata -/
def outline : Json.Outline :=
  let plain := ["name", "generateName", "namespace", "uid", "resourceVersion", "generation",
    "labels", "annotations", "finalizers", "creationTimestamp", "deletionTimestamp",
    "deletionGracePeriodSeconds", "selfLink"]
  let listed := [
    ("ownerReferences", .items OwnerReference.outline),
    ("managedFields", .items ManagedMembers.outline)]
  .record (listed ++ Json.Outline.plain plain) false

def toJson (m : Metadata) : Json :=
  .objectOfSet [
    ("name", m.name.map .str),
    ("generateName", m.generateName.map .str),
    ("namespace", m.ns.map .str),
    ("uid", m.uid.map .str),
    ("resourceVersion", m.resourceVersion.map .str),
    ("generation", m.generation.map fun n => .int n.toInt),
    ("labels", m.labels.map .ofStringTable),
    ("annotations", m.annotations.map .ofStringTable),
    ("finalizers", m.finalizers.map .ofStrings),
    ("creationTimestamp", m.creationTimestamp.map fun t => .str t.text),
    ("deletionTimestamp", m.deletionTimestamp.map fun t => .str t.text),
    ("deletionGracePeriodSeconds", m.deletionGracePeriodSeconds.map fun n => .int n.toInt),
    ("ownerReferences", m.ownerReferences.map fun os => .arr (os.map OwnerReference.toJson)),
    ("managedFields", m.managedFields.map fun ms => .arr (ms.map ManagedMembers.toJson)),
    ("selfLink", m.selfLink.map .str)]

/-- the name of an object, or the name that one is to be generated from -/
def nameAny (m : Metadata) : String := (m.name <|> m.generateName).getD ""

/-- whether an owner reference with this UID is marked as the controller -/
def isControlledBy (m : Metadata) (uid : String) : Bool :=
  (m.ownerReferences.getD []).any fun o => o.controller = some true && o.uid = uid

end Metadata
end ConnectorControl
