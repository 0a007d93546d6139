import ConnectorControl.Connector.Basic
import ConnectorControl.Proofs.Connector.Status
import ConnectorControl.Proofs.Objects.Reading
import ConnectorControl.Proofs.Objects.Shape

/-!
# What is written is read back

Every record of a Connector is read back as it was written: each member that may be left out is
left out only where reading puts its default in its place.

* `Container.decode_toJson`       containers, with all that they may hold;
* `ScalingRule.decode_toJson`     the rule, whose mode is written as a member of the rule itself;
* `ConnectorSpec.decode_toJson`, `Status.decode_toJson`   the two halves of a Connector.

A rule is read from what its members give (`ScalingRule.decode_of_gives`), of which one of the two
modes has to be set (`Json.Sets`); `reads_back_what_is_written` has both directions.
-/

namespace ConnectorControl

open Decode

/-! ## containers -/

theorem ContainerPort.decode_toJson (p : ContainerPort) : decode p.toJson = .ok p := by
  have hf := @Json.find?_objectOfSet [
    ("containerPort", some (.int p.containerPort.toInt)),
    ("hostIP", p.hostIP.map .str),
    ("hostPort", p.hostPort.map fun n => .int n.toInt),
    ("name", p.name.map .str),
    ("protocol", p.protocol.map .str)] (by simp)
  have ho : Entries.Ordered p.toJson.members := (Json.isTable_objectOfSet _).ordered
  have hport : Entries.find? "containerPort" p.toJson.members =
      (some p.containerPort).map fun n => .int n.toInt := hf "containerPort"
  show (do
    let containerPort ← optional p.toJson.members "containerPort" int32
    let hostIP ← optional p.toJson.members "hostIP" string
    let hostPort ← optional p.toJson.members "hostPort" int32
    let name ← optional p.toJson.members "name" string
    let protocol ← optional p.toJson.members "protocol" string
    return (⟨containerPort.getD 0, name, protocol, hostIP, hostPort⟩ : ContainerPort)) = _
  rw [optional_of_map ho hport fun n _ => ⟨int32_toInt n, rfl⟩,
    optional_of_map ho (hf "hostIP") fun _ _ => ⟨rfl, rfl⟩,
    optional_of_map ho (hf "hostPort") fun n _ => ⟨int32_toInt n, rfl⟩,
    optional_of_map ho (hf "name") fun _ _ => ⟨rfl, rfl⟩,
    optional_of_map ho (hf "protocol") fun _ _ => ⟨rfl, rfl⟩]
  rfl

theorem VolumeMount.decode_toJson (m : VolumeMount) : decode m.toJson = .ok m := by
  have hf := @Json.find?_objectOfSet [
    ("mountPath", some (.str m.mountPath)),
    ("mountPropagation", m.mountPropagation.map .str),
    ("name", some (.str m.name)),
    ("readOnly", m.readOnly.map .bool),
    ("recursiveReadOnly", m.recursiveReadOnly.map .str),
    ("subPath", m.subPath.map .str),
    ("subPathExpr", m.subPathExpr.map .str)] (by simp)
  have ho : Entries.Ordered m.toJson.members := (Json.isTable_objectOfSet _).ordered
  show (do
    let mountPath ← textOrEmpty m.toJson.members "mountPath"
    let mountPropagation ← optional m.toJson.members "mountPropagation" string
    let name ← textOrEmpty m.toJson.members "name"
    let readOnly ← optional m.toJson.members "readOnly" bool
    let recursiveReadOnly ← optional m.toJson.members "recursiveReadOnly" string
    let subPath ← optional m.toJson.members "subPath" string
    let subPathExpr ← optional m.toJson.members "subPathExpr" string
    return (⟨name, mountPath, readOnly, subPath, mountPropagation, recursiveReadOnly,
      subPathExpr⟩ : VolumeMount)) = _
  rw [textOrEmpty_of_find? ho (hf "mountPath"),
    optional_of_map ho (hf "mountPropagation") fun _ _ => ⟨rfl, rfl⟩,
    textOrEmpty_of_find? ho (hf "name"),
    optional_of_map ho (hf "readOnly") fun _ _ => ⟨rfl, rfl⟩,
    optional_of_map ho (hf "recursiveReadOnly") fun _ _ => ⟨rfl, rfl⟩,
    optional_of_map ho (hf "subPath") fun _ _ => ⟨rfl, rfl⟩,
    optional_of_map ho (hf "subPathExpr") fun _ _ => ⟨rfl, rfl⟩]
  rfl

namespace Container

theorem find?_toJson (c : Container) (k : String) : c.toJson.find? k = (Entries.find? k [
    ("args", c.args.map Json.ofStrings),
    ("command", c.command.map .ofStrings),
    ("env", c.env.map fun es => .arr (es.map Shape.envVar.toJson)),
    ("envFrom", c.envFrom.map fun es => .arr (es.map Shape.envFrom.toJson)),
    ("image", c.image.map .str),
    ("imagePullPolicy", c.imagePullPolicy.map .str),
    ("lifecycle", c.lifecycle.map Shape.lifecycle.toJson),
    ("livenessProbe", c.livenessProbe.map Shape.probe.toJson),
    ("name", some (.str c.name)),
    ("ports", c.ports.map fun ps => .arr (ps.map ContainerPort.toJson)),
    ("readinessProbe", c.readinessProbe.map Shape.probe.toJson),
    ("resizePolicy", c.resizePolicy.map fun ps => .arr (ps.map Shape.resizePolicy.toJson)),
    ("resources", c.resources.map Shape.resources.toJson),
    ("restartPolicy", c.restartPolicy.map .str),
    ("securityContext", c.securityContext.map Shape.securityContext.toJson),
    ("startupProbe", c.startupProbe.map Shape.probe.toJson),
    ("stdin", c.stdin.map .bool),
    ("stdinOnce", c.stdinOnce.map .bool),
    ("terminationMessagePath", c.terminationMessagePath.map .str),
    ("terminationMessagePolicy", c.terminationMessagePolicy.map .str),
    ("tty", c.tty.map .bool),
    ("volumeDevices", c.volumeDevices.map fun ds => .arr (ds.map Shape.volumeDevice.toJson)),
    ("volumeMounts", c.volumeMounts.map fun ms => .arr (ms.map VolumeMount.toJson)),
    ("workingDir", c.workingDir.map .str)]).join :=
  Json.find?_objectOfSet (by simp) k

theorem decode_toJson (c : Container) : decode c.toJson = .ok c := by
  have hf := c.find?_toJson
  have ho : Entries.Ordered c.toJson.members := (Json.isTable_objectOfSet _).ordered
  show (do
    let args ← optional c.toJson.members "args" (list string)
    let command ← optional c.toJson.members "command" (list string)
    let env ← optional c.toJson.members "env" (list Shape.envVar.decode)
    let envFrom ← optional c.toJson.members "envFrom" (list Shape.envFrom.decode)
    let image ← optional c.toJson.members "image" string
    let imagePullPolicy ← optional c.toJson.members "imagePullPolicy" string
    let lifecycle ← optional c.toJson.members "lifecycle" Shape.lifecycle.decode
    let livenessProbe ← optional c.toJson.members "livenessProbe" Shape.probe.decode
    let name ← textOrEmpty c.toJson.members "name"
    let ports ← optional c.toJson.members "ports" (list ContainerPort.decode)
    let readinessProbe ← optional c.toJson.members "readinessProbe" Shape.probe.decode
    let resizePolicy ← optional c.toJson.members "resizePolicy" (list Shape.resizePolicy.decode)
    let resources ← optional c.toJson.members "resources" Shape.resources.decode
    let restartPolicy ← optional c.toJson.members "restartPolicy" string
    let securityContext ←
      optional c.toJson.members "securityContext" Shape.securityContext.decode
    let startupProbe ← optional c.toJson.members "startupProbe" Shape.probe.decode
    let stdin ← optional c.toJson.members "stdin" bool
    let stdinOnce ← optional c.toJson.members "stdinOnce" bool
    let terminationMessagePath ← optional c.toJson.members "terminationMessagePath" string
    let terminationMessagePolicy ← optional c.toJson.members "terminationMessagePolicy" string
    let tty ← optional c.toJson.members "tty" bool
    let volumeDevices ←
      optional c.toJson.members "volumeDevices" (list Shape.volumeDevice.decode)
    let volumeMounts ← optional c.toJson.members "volumeMounts" (list VolumeMount.decode)
    let workingDir ← optional c.toJson.members "workingDir" string
    return (⟨name, image, imagePullPolicy, command, args, workingDir, env, envFrom, ports,
      volumeMounts, volumeDevices, resources, resizePolicy, restartPolicy, lifecycle,
      livenessProbe, readinessProbe, startupProbe, securityContext, stdin, stdinOnce, tty,
      terminationMessagePath, terminationMessagePolicy⟩ : Container)) = _
  rw [optional_of_map ho (hf "args") fun ss _ => ⟨list_ofStrings ss, rfl⟩,
    optional_of_map ho (hf "command") fun ss _ => ⟨list_ofStrings ss, rfl⟩,
    Shape.optional_list_toJson ho (by decide) (hf "env"),
    Shape.optional_list_toJson ho (by decide) (hf "envFrom"),
    optional_of_map ho (hf "image") fun _ _ => ⟨rfl, rfl⟩,
    optional_of_map ho (hf "imagePullPolicy") fun _ _ => ⟨rfl, rfl⟩,
    Shape.optional_toJson ho (by decide) (hf "lifecycle"),
    Shape.optional_toJson ho (by decide) (hf "livenessProbe"),
    textOrEmpty_of_find? ho (hf "name"),
    optional_of_map ho (hf "ports") fun _ _ => ⟨list_map fun p _ => p.decode_toJson, rfl⟩,
    Shape.optional_toJson ho (by decide) (hf "readinessProbe"),
    Shape.optional_list_toJson ho (by decide) (hf "resizePolicy"),
    Shape.optional_toJson ho (by decide) (hf "resources"),
    optional_of_map ho (hf "restartPolicy") fun _ _ => ⟨rfl, rfl⟩,
    Shape.optional_toJson ho (by decide) (hf "securityContext"),
    Shape.optional_toJson ho (by decide) (hf "startupProbe"),
    optional_of_map ho (hf "stdin") fun _ _ => ⟨rfl, rfl⟩,
    optional_of_map ho (hf "stdinOnce") fun _ _ => ⟨rfl, rfl⟩,
    optional_of_map ho (hf "terminationMessagePath") fun _ _ => ⟨rfl, rfl⟩,
    optional_of_map ho (hf "terminationMessagePolicy") fun _ _ => ⟨rfl, rfl⟩,
    optional_of_map ho (hf "tty") fun _ _ => ⟨rfl, rfl⟩,
    Shape.optional_list_toJson ho (by decide) (hf "volumeDevices"),
    optional_of_map ho (hf "volumeMounts") fun _ _ => ⟨list_map fun m _ => m.decode_toJson, rfl⟩,
    optional_of_map ho (hf "workingDir") fun _ _ => ⟨rfl, rfl⟩]
  rfl

end Container

/-! ## scaling rules -/

theorem ServiceType.decode_name (t : ServiceType) : decode (.str t.name) = .ok t := by
  cases t <;> rfl

theorem Trigger.decode_toJson (t : Trigger) : decode t.toJson = .ok t := by
  have hf := @Json.find?_objectOfSet [
    ("type", some (.str t.type)),
    ("metadata", some (.ofStringTable t.metadata)),
    ("secretRef", t.secretRef.map .str)] (by simp)
  have ho : Entries.Ordered t.toJson.members := (Json.isTable_objectOfSet _).ordered
  show (do
    let metadata ← withDefault t.toJson.members "metadata" (table string) ∅
    let secretRef ← optional t.toJson.members "secretRef" string
    let type ← member? t.toJson.members "type" string
    return (⟨← require (.missing "type") type, metadata, secretRef⟩ : Trigger)) = _
  rw [withDefault_of_find? ho (hf "metadata") (table_ofStringTable t.metadata),
    optional_of_map ho (hf "secretRef") fun _ _ => ⟨rfl, rfl⟩,
    member?_of_find? ho (hf "type") (show string (.str t.type) = .ok t.type from rfl)]
  rfl

theorem CustomScaling.decode_toJson (c : CustomScaling) : decode c.toJson = .ok c := by
  have hf := @Json.find?_objectOfSet [
    ("checkInterval", Json.ofInt32? c.checkInterval),
    ("cooldownPeriod", Json.ofInt32? c.cooldownPeriod),
    ("triggers", some (.arr (c.triggers.map Trigger.toJson)))] (by simp)
  have ho : Entries.Ordered c.toJson.members := (Json.isTable_objectOfSet _).ordered
  have htriggers : list Trigger.decode (.arr (c.triggers.map Trigger.toJson)) = .ok c.triggers :=
    list_map fun t _ => t.decode_toJson
  show (do
    let checkInterval ← optional c.toJson.members "checkInterval" int32
    let cooldownPeriod ← optional c.toJson.members "cooldownPeriod" int32
    let triggers ← member? c.toJson.members "triggers" (list Trigger.decode)
    let triggers ← require (.missing "triggers") triggers
    return (⟨checkInterval, cooldownPeriod, triggers⟩ : CustomScaling)) = _
  rw [optional_of_map ho (hf "checkInterval") fun n _ => ⟨int32_toInt n, rfl⟩,
    optional_of_map ho (hf "cooldownPeriod") fun n _ => ⟨int32_toInt n, rfl⟩,
    member?_of_find? ho (hf "triggers") htriggers]
  rfl

theorem HttpScaling.decode_toJson (h : HttpScaling) : decode h.toJson = .ok h := by
  have hf := @Json.find?_objectOfSet [
    ("host", some (.str h.host)),
    ("svcType", some (.str h.serviceType.name)),
    ("pendingRequests",
      if h.pendingRequests = 0 then none else some (.int h.pendingRequests.toInt))] (by simp)
  have ho : Entries.Ordered h.toJson.members := (Json.isTable_objectOfSet _).ordered
  show (do
    let host ← member? h.toJson.members "host" string
    let pendingRequests ← withDefault h.toJson.members "pendingRequests" int32 0
    let serviceType ← withDefault h.toJson.members "svcType" ServiceType.decode .clusterIP
    return (⟨← require (.missing "host") host, serviceType, pendingRequests⟩ : HttpScaling)) = _
  rw [member?_of_find? ho (hf "host") (show string (.str h.host) = .ok h.host from rfl),
    withDefault_of_ite ho (hf "pendingRequests") id (int32_toInt h.pendingRequests),
    withDefault_of_find? ho (hf "svcType") h.serviceType.decode_name]
  rfl

namespace ScalingRule

theorem decode_obj {ms : List (String × Json)} {custom : Option CustomScaling}
    {http : Option HttpScaling} {most least : Option Int32}
    (hcustom : optional ms "customScaling" CustomScaling.decode = .ok custom)
    (hhttp : optional ms "httpScaling" HttpScaling.decode = .ok http)
    (hmost : optional ms "maxReplicaCount" int32 = .ok most)
    (hleast : optional ms "minReplicaCount" int32 = .ok least) :
    decode (.obj ms) = match ScalingMode.ofOptions custom http with
      | .ok mode => .ok ⟨most, least, mode⟩
      | .error e => .error (.refused e.message) := by
  show (do
    let custom ← optional ms "customScaling" CustomScaling.decode
    let http ← optional ms "httpScaling" HttpScaling.decode
    let most ← optional ms "maxReplicaCount" int32
    let least ← optional ms "minReplicaCount" int32
    match ScalingMode.ofOptions custom http with
    | .ok mode => return (⟨most, least, mode⟩ : ScalingRule)
    | .error e => throw (DecodeError.refused e.message)) = _
  rw [hcustom, hhttp, hmost, hleast]
  rfl

end ScalingRule

theorem ScalingRule.decode_toJson (r : ScalingRule) : decode r.toJson = .ok r := by
  have ho : Entries.Ordered r.toJson.members := (Json.isTable_objectOfSet _).ordered
  obtain ⟨most, least, mode⟩ := r
  -- the mode that is not set has no member, whichever of the two it is
  cases mode with
  | custom c =>
    have hf := @Json.find?_objectOfSet [
      ("maxReplicaCount", Json.ofInt32? most),
      ("minReplicaCount", Json.ofInt32? least),
      ("customScaling", some c.toJson)] (by simp)
    have hcustom : Entries.find? "customScaling" (toJson ⟨most, least, .custom c⟩).members =
      (some c).map CustomScaling.toJson := hf "customScaling"
    have hhttp : Entries.find? "httpScaling" (toJson ⟨most, least, .custom c⟩).members =
      (none : Option HttpScaling).map HttpScaling.toJson := hf "httpScaling"
    exact decode_obj (optional_of_map ho hcustom fun c _ => ⟨c.decode_toJson, rfl⟩)
      (optional_of_map ho hhttp nofun)
      (optional_of_map ho (hf "maxReplicaCount") fun n _ => ⟨int32_toInt n, rfl⟩)
      (optional_of_map ho (hf "minReplicaCount") fun n _ => ⟨int32_toInt n, rfl⟩)
  | http h =>
    have hf := @Json.find?_objectOfSet [
      ("maxReplicaCount", Json.ofInt32? most),
      ("minReplicaCount", Json.ofInt32? least),
      ("httpScaling", some h.toJson)] (by simp)
    have hcustom : Entries.find? "customScaling" (toJson ⟨most, least, .http h⟩).members =
      (none : Option CustomScaling).map CustomScaling.toJson := hf "customScaling"
    have hhttp : Entries.find? "httpScaling" (toJson ⟨most, least, .http h⟩).members =
      (some h).map HttpScaling.toJson := hf "httpScaling"
    exact decode_obj (optional_of_map ho hcustom nofun)
      (optional_of_map ho hhttp fun h _ => ⟨h.decode_toJson, rfl⟩)
      (optional_of_map ho (hf "maxReplicaCount") fun n _ => ⟨int32_toInt n, rfl⟩)
      (optional_of_map ho (hf "minReplicaCount") fun n _ => ⟨int32_toInt n, rfl⟩)

/-! ## specs and statuses -/

theorem ConnectorType.decode_name (t : ConnectorType) : decode (.str t.name) = .ok t := by
  cases t <;> rfl

theorem LegacyScaler.decode_toJson (s : LegacyScaler) : decode s.toJson = .ok s := by
  have hf := @Json.find?_objectOfSet [
    ("checkInterval", Json.ofInt32? s.checkInterval),
    ("cooldownPeriod", Json.ofInt32? s.cooldownPeriod),
    ("maxReplicaCount", Json.ofInt32? s.maxReplicas),
    ("minReplicaCount", Json.ofInt32? s.minReplicas),
    ("metadata",
      if s.metadata.isEmpty then none
      else some (.obj (Entries.mapValues IntOrString.toJson s.metadata.entries))),
    ("scalerSecret", s.scalerSecret.map .str)] (by simp)
  have ho : Entries.Ordered s.toJson.members := (Json.isTable_objectOfSet _).ordered
  have hempty : s.metadata.isEmpty = true → s.metadata = ∅ := fun h =>
    Table.eq_of_entries (List.isEmpty_iff.1 h)
  show (do
    let checkInterval ← optional s.toJson.members "checkInterval" int32
    let cooldownPeriod ← optional s.toJson.members "cooldownPeriod" int32
    let maxReplicas ← optional s.toJson.members "maxReplicaCount" int32
    let metadata ← withDefault s.toJson.members "metadata" (table IntOrString.decode) ∅
    let minReplicas ← optional s.toJson.members "minReplicaCount" int32
    let scalerSecret ← optional s.toJson.members "scalerSecret" string
    return (⟨checkInterval, cooldownPeriod, maxReplicas, minReplicas, metadata, scalerSecret⟩ :
      LegacyScaler)) = _
  rw [optional_of_map ho (hf "checkInterval") fun n _ => ⟨int32_toInt n, rfl⟩,
    optional_of_map ho (hf "cooldownPeriod") fun n _ => ⟨int32_toInt n, rfl⟩,
    optional_of_map ho (hf "maxReplicaCount") fun n _ => ⟨int32_toInt n, rfl⟩,
    withDefault_of_ite ho (hf "metadata") hempty
      (table_mapValues IntOrString.decode_toJson s.metadata),
    optional_of_map ho (hf "minReplicaCount") fun n _ => ⟨int32_toInt n, rfl⟩,
    optional_of_map ho (hf "scalerSecret") fun _ _ => ⟨rfl, rfl⟩]
  rfl

theorem ConnectorSpec.decode_toJson (s : ConnectorSpec) : decode s.toJson = .ok s := by
  have hf := @Json.find?_objectOfSet [
    ("image", s.image.map .str),
    ("containers",
      if s.containers.isEmpty then none else some (.arr (s.containers.map Container.toJson))),
    ("exposePort", Json.ofInt32? s.exposePort),
    ("configRef", s.configRef.map .str),
    ("secretRef", s.secretRef.map .str),
    ("scalingRule", s.scalingRule.map ScalingRule.toJson),
    ("type", s.type.map fun t => .str t.name),
    ("scalerSpec", s.scaler.map LegacyScaler.toJson)] (by simp)
  have ho : Entries.Ordered s.toJson.members := (Json.isTable_objectOfSet _).ordered
  have hcontainers : list Container.decode (.arr (s.containers.map Container.toJson)) =
      .ok s.containers := list_map fun c _ => c.decode_toJson
  show (do
    let configRef ← optional s.toJson.members "configRef" string
    let containers ← withDefault s.toJson.members "containers" (list Container.decode) []
    let exposePort ← optional s.toJson.members "exposePort" int32
    let image ← optional s.toJson.members "image" string
    let scaler ← optional s.toJson.members "scalerSpec" LegacyScaler.decode
    let scalingRule ← optional s.toJson.members "scalingRule" ScalingRule.decode
    let secretRef ← optional s.toJson.members "secretRef" string
    let type ← optional s.toJson.members "type" ConnectorType.decode
    return (⟨image, containers, exposePort, configRef, secretRef, scalingRule, type, scaler⟩ :
      ConnectorSpec)) = _
  rw [optional_of_map ho (hf "configRef") fun _ _ => ⟨rfl, rfl⟩,
    withDefault_of_ite ho (hf "containers") List.isEmpty_iff.1 hcontainers,
    optional_of_map ho (hf "exposePort") fun n _ => ⟨int32_toInt n, rfl⟩,
    optional_of_map ho (hf "image") fun _ _ => ⟨rfl, rfl⟩,
    optional_of_map ho (hf "scalerSpec") fun s _ => ⟨s.decode_toJson, rfl⟩,
    optional_of_map ho (hf "scalingRule") fun r _ => ⟨r.decode_toJson, rfl⟩,
    optional_of_map ho (hf "secretRef") fun _ _ => ⟨rfl, rfl⟩,
    optional_of_map ho (hf "type") fun t _ => ⟨t.decode_name, rfl⟩]
  rfl

theorem Status.decode_toJson (s : Status) : decode s.toJson = .ok s := by
  have hf := @Json.find?_objectOfSet [
    ("conditions",
      if s.conditions.isEmpty then none else some (.arr (s.conditions.map Condition.toJson))),
    ("observedGeneration", s.observedGeneration.map fun n => .int n.toInt)] (by simp)
  have ho : Entries.Ordered s.toJson.members := (Json.isTable_objectOfSet _).ordered
  have hconditions : list Condition.decode (.arr (s.conditions.map Condition.toJson)) =
      .ok s.conditions := list_map fun c _ => c.decode_toJson
  exact decode_obj.2
    ⟨withDefault_of_ite ho (hf "conditions") List.isEmpty_iff.1 hconditions,
      optional_of_map ho (hf "observedGeneration") fun n _ => ⟨int64_toInt n, rfl⟩⟩

/-! ## the mode of a rule -/

namespace Json

def Sets (v : Json) (k : String) : Prop := ∃ w, v.find? k = some w ∧ w ≠ .null

/-- what a member that may be left out gives: what is read from it when it is set -/
def Gives {α : Type} (v : Json) (k : String) (value : Decoder α) : Option α → Prop
  | none => ¬v.Sets k
  | some a => ∃ w, v.find? k = some w ∧ w ≠ .null ∧ value w = .ok a

variable {α : Type} {v : Json} {k : String} {value : Decoder α} {x : Option α}

theorem Gives.sets_iff (h : v.Gives k value x) : v.Sets k ↔ x.isSome = true := by
  cases x with
  | none => exact iff_of_false h nofun
  | some a =>
    obtain ⟨w, hw, hnull, _⟩ := h
    exact iff_of_true ⟨w, hw, hnull⟩ rfl

theorem Gives.optional (hv : v.IsTable) (h : v.Gives k value x) :
    optional v.members k value = .ok x := by
  rw [optional_eq hv.ordered, show Entries.find? k v.members = v.find? k from rfl]
  cases x with
  | none =>
    cases hw : v.find? k with
    | none => rfl
    | some w =>
      obtain rfl : w = .null := Decidable.byContradiction fun hnull => h ⟨w, hw, hnull⟩
      rfl
  | some a =>
    obtain ⟨w, hw, hnull, ha⟩ := h
    have hoption : option value w = some <$> value w := by
      unfold option
      split
      · exact absurd rfl hnull
      · rfl
    rw [hw]
    show Option.join <$> some <$> option value w = _
    rw [hoption, ha]
    rfl

end Json

namespace ScalingRule

theorem decode_of_gives {v : Json} (hv : v.IsTable) {custom : Option CustomScaling}
    {http : Option HttpScaling} {most least : Option Int32}
    (hcustom : v.Gives "customScaling" CustomScaling.decode custom)
    (hhttp : v.Gives "httpScaling" HttpScaling.decode http)
    (hmost : v.Gives "maxReplicaCount" int32 most)
    (hleast : v.Gives "minReplicaCount" int32 least) :
    decode v = match ScalingMode.ofOptions custom http with
      | .ok mode => .ok ⟨most, least, mode⟩
      | .error e => .error (.refused e.message) := by
  have h := decode_obj (hcustom.optional hv) (hhttp.optional hv) (hmost.optional hv)
    (hleast.optional hv)
  cases v with
  | obj ms => exact h
  | _ => cases hv.isObject

theorem find?_toJson_mode (r : ScalingRule) {k : String} (hmost : k ≠ "maxReplicaCount")
    (hleast : k ≠ "minReplicaCount") :
    r.toJson.find? k = if k = r.mode.member.1 then some r.mode.member.2 else none := by
  have hf := @Json.find?_objectOfSet [
    ("maxReplicaCount", Json.ofInt32? r.maxReplicas),
    ("minReplicaCount", Json.ofInt32? r.minReplicas),
    (r.mode.member.1, some r.mode.member.2)] (by cases r.mode <;> simp [ScalingMode.member])
  unfold toJson
  rw [hf, Entries.find?_cons, if_neg hmost, Entries.find?_cons,
    if_neg hleast, Entries.find?_cons]
  split <;> rfl

end ScalingRule

/-- A spec and a status are read back as they were written.  A rule whose four members can each be
read is itself read just when one of the two modes is set and the other one is not.  It then has
that mode and the bounds given, and is written with that mode as a member of its own, and without
the other one. -/
theorem reads_back_what_is_written :
    (∀ s : ConnectorSpec, ConnectorSpec.decode s.toJson = .ok s) ∧
      (∀ s : Status, Status.decode s.toJson = .ok s) ∧
      ∀ (v : Json) (custom : Option CustomScaling) (http : Option HttpScaling)
        (most least : Option Int32), v.IsTable →
        v.Gives "customScaling" CustomScaling.decode custom →
        v.Gives "httpScaling" HttpScaling.decode http →
        v.Gives "maxReplicaCount" int32 most → v.Gives "minReplicaCount" int32 least →
        ((∃ r, ScalingRule.decode v = .ok r) ↔
          (v.Sets "customScaling" ↔ ¬v.Sets "httpScaling")) ∧
        ∀ r, ScalingRule.decode v = .ok r → r.maxReplicas = most ∧ r.minReplicas = least ∧
          ((∃ c, custom = some c ∧ r.mode = .custom c ∧
              r.toJson.find? "customScaling" = some c.toJson ∧
              r.toJson.find? "httpScaling" = none) ∨
            ∃ h, http = some h ∧ r.mode = .http h ∧
              r.toJson.find? "httpScaling" = some h.toJson ∧
              r.toJson.find? "customScaling" = none) := by
  refine ⟨ConnectorSpec.decode_toJson, Status.decode_toJson, ?_⟩
  intro v custom http most least hv hcustom hhttp hmost hleast
  rw [ScalingRule.decode_of_gives hv hcustom hhttp hmost hleast, hcustom.sets_iff, hhttp.sets_iff]
  rcases custom with _ | c <;> rcases http with _ | h
  case none.none => exact ⟨iff_of_false nofun (by simp), nofun⟩
  case some.some => exact ⟨iff_of_false nofun (by simp), nofun⟩
  case some.none =>
    refine ⟨iff_of_true ⟨_, rfl⟩ (by simp), fun r hr => ?_⟩
    obtain rfl := Except.ok.inj hr
    refine ⟨rfl, rfl, .inl ⟨c, rfl, rfl, ?_, ?_⟩⟩ <;>
      exact ScalingRule.find?_toJson_mode _ (by decide) (by decide)
  case none.some =>
    refine ⟨iff_of_true ⟨_, rfl⟩ (by simp), fun r hr => ?_⟩
    obtain rfl := Except.ok.inj hr
    refine ⟨rfl, rfl, .inr ⟨h, rfl, rfl, ?_, ?_⟩⟩ <;>
      exact ScalingRule.find?_toJson_mode _ (by decide) (by decide)

/-- a rule with an HTTP mode that is given as a list, a `null` for the other one and a single
bound -/
def hostRule : Json := .object [
  ("customScaling", .null),
  ("httpScaling", .arr [.str "a.example", .str "LoadBalancer"]),
  ("minReplicaCount", .int 2)]

theorem reads_back_what_is_written_host :
    hostRule.Sets "httpScaling" ∧ ¬hostRule.Sets "customScaling" ∧
      ∃ r, ScalingRule.decode hostRule = .ok r ∧ r.minReplicas = some 2 ∧
        r.mode = .http ⟨"a.example", .loadBalancer, 0⟩ ∧
        r.toJson.find? "customScaling" = none := by
  have hsets : hostRule.Sets "httpScaling" := ⟨_, rfl, nofun⟩
  have hunset : ¬hostRule.Sets "customScaling" := by
    rintro ⟨w, hw, hnull⟩
    exact hnull (Option.some.inj hw).symm
  obtain ⟨hreads, hread⟩ := reads_back_what_is_written.2.2 hostRule none
    (some ⟨"a.example", .loadBalancer, 0⟩) none (some 2) (Json.isTable_object _) hunset
    ⟨_, rfl, nofun, rfl⟩ nofun ⟨_, rfl, nofun, rfl⟩
  obtain ⟨r, hr⟩ := hreads.2 (iff_of_false hunset (not_not_intro hsets))
  obtain ⟨_, hleast, ⟨c, hc, _⟩ | ⟨h, hh, hmode, _, hother⟩⟩ := hread r hr
  · cases hc
  · obtain rfl := Option.some.inj hh
    exact ⟨hsets, hunset, r, hr, hleast, hmode, hother⟩

end ConnectorControl
