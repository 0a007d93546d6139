import ConnectorControl.Proofs.History.Pruning

/-!
# Derived objects that agree

The objects of a Connector work together by what they say of each other: labels, names and ports
(`Connector.Routed`), and by what they all say of the Connector: its label and its UID
(`Identity.OwnsAlone`).  A store is coherent for a Connector (`Identity.Coherent`) when its objects
agree so.  What is written for one spec does, whatever it was merged over.
-/

namespace ConnectorControl

namespace Json

def matchLabels (v : Json) : Json := ((v.get "spec").get "selector").get "matchLabels"

def podLabels (v : Json) : Json := (((v.get "spec").get "template").get "metadata").get "labels"

def podContainers (v : Json) : Json :=
  (((v.get "spec").get "template").get "spec").get "containers"

/-- what an autoscaling object scales -/
def scaleTarget (v : Json) : Json := (v.get "spec").get "scaleTargetRef"

/-- the pods of a Deployment have the labels that they are selected by -/
def SelectsOwnPods (v : Json) : Prop :=
  ∃ selector labels : Table String String, v.matchLabels = .ofStringTable selector ∧
    v.podLabels = .ofStringTable labels ∧ ∀ k x, selector.find? k = some x → labels.find? k = some x

end Json

/-- A request to the port of an HTTPScaledObject goes by the port of the Service to pods of the
Deployment, and to the only container of each unless the spec has containers of its own. -/
structure Connector.Routed (c : Connector) (deployment service scaled : Json) : Prop where
  selector : (service.get "spec").get "selector" = deployment.matchLabels
  ports : ∃ n : Int, scaled.scaleTarget.get "port" = .int n ∧
    (∃ p, (service.get "spec").get "ports" = .arr [p] ∧
      p.get "port" = .int n ∧ p.get "targetPort" = .int n) ∧
    (c.spec.containers = [] → ∃ x p, deployment.podContainers = .arr [x] ∧
      x.get "ports" = .arr [p] ∧ p.get "containerPort" = .int n)

namespace Identity

variable (i : Identity)

/-- the Connector is the only owner of an object, as its controller -/
def OwnsAlone (v : Json) : Prop :=
  ∃ owner uid, (v.get "metadata").get "ownerReferences" = .arr [owner] ∧
    owner.get "controller" = .bool true ∧ i.uid = some uid ∧ owner.get "uid" = .str uid

/-- the derived objects of a Connector agree with each other -/
structure Coherent (c : Connector) (s : Cluster) : Prop where
  workload : ∃ d, s.find? (i.key .deployment i.name) = some d ∧ d.SelectsOwnPods
  routed : ∀ rule http, c.spec.effectiveScaling = .ok (some rule) → rule.mode = .http http →
    ∃ d sv h, s.find? (i.key .deployment i.name) = some d ∧
      s.find? (i.key .service i.name) = some sv ∧
      s.find? (i.key .httpScaledObject (i.name ++ "-vhso")) = some h ∧
      h.scaleTarget.get "name" = .str i.name ∧ h.scaleTarget.get "service" = .str i.name ∧
      c.Routed d sv h
  scaled : ∀ rule custom, c.spec.effectiveScaling = .ok (some rule) → rule.mode = .custom custom →
    ∃ so, s.find? (i.key .scaledObject (i.name ++ "-vso")) = some so ∧
      so.scaleTarget.get "name" = .str i.name
  owned : ∀ kind name v, i.Names kind name → s.find? (i.key kind name) = some v →
    i.OwnsAlone v ∧ Cluster.isSelected (Derived.selector i.name) v = true

variable {i} {c : Connector} {v : Json} {kind : DerivedKind} {name : String}

theorem Coherent.congr {s s' : Cluster} (h : i.Coherent c s)
    (hs : ∀ kind name, s'.find? (i.key kind name) = s.find? (i.key kind name)) :
    i.Coherent c s' := by
  refine ⟨?_, fun rule http hr hm => ?_, fun rule custom hr hm => ?_, fun kind name v hn hv => ?_⟩
  · rw [hs]
    exact h.workload
  · rw [hs, hs, hs]
    exact h.routed rule http hr hm
  · rw [hs]
    exact h.scaled rule custom hr hm
  · rw [hs] at hv
    exact h.owned kind name v hn hv

/-! ## owners -/

theorem Made.ownsAlone (h : i.Made kind name v) (hu : i.uid.isSome) : i.OwnsAlone v := by
  obtain ⟨uid, spec, _, rfl⟩ := h
  obtain ⟨owner, ho⟩ := Option.isSome_iff_exists.1 hu
  have howners : ((i.stored kind name uid spec.stripNulls).get "metadata").get "ownerReferences" =
      .arr [i.owner.toJson] := by
    rw [get_metadata_stored, Json.get_eq]
    show ((Metadata.ofOwned _ _ _ _ _).toJson.find? "ownerReferences").getD .null = _
    rw [Metadata.find?_ofOwned]
    rfl
  refine ⟨_, owner, howners, ?_, ho, ?_⟩
  · unfold OwnerReference.toJson
    rw [Json.get_objectOfSet (by simp)]
    rfl
  · unfold OwnerReference.toJson
    rw [Json.get_objectOfSet (by simp)]
    show Json.str (i.uid.getD "") = _
    rw [ho]
    rfl

/-! ## the workload -/

theorem find?_podLabels {connector k x : String}
    (h : (Derived.selectorLabels connector).find? k = some x) :
    (Derived.podLabels connector).find? k = some x := by
  have hlabels : (Derived.selectorLabels connector).find? k =
      if k = "app" then some connector else none := rfl
  rw [hlabels] at h
  show ((Derived.standardLabels connector).insert "app" connector).find? k = some x
  rw [Table.find?_insert]
  split at h
  next hk => rw [if_pos hk, h]
  · cases h

section
variable (hi : i.Describes c) (h : i.Written (.deployment c) v)
include hi h

theorem Written.matchLabels :
    v.matchLabels = .ofStringTable (Derived.selectorLabels i.name) := by
  have hselector : (v.get "spec").get "selector" =
      .object [("matchLabels", .ofStringTable (Deployment.ofConnector c).selector)] :=
    h.get_member (Json.isTable_objectOfSet _) (Deployment.find?_spec _ "selector")
      (Deployment.clean_selector _).stripped (by decide)
  unfold Json.matchLabels
  rw [hselector, Json.get_object (by simp)]
  show Json.ofStringTable (Derived.selectorLabels c.name) = _
  rw [hi.connector_name]

omit hi in
theorem Written.template : (v.get "spec").get "template" = (Deployment.ofConnector c).template :=
  h.get_member (Json.isTable_objectOfSet _) (Deployment.find?_spec _ "template")
    (Deployment.clean_template _).stripped (by decide)

theorem Written.selectsOwnPods : v.SelectsOwnPods := by
  refine ⟨_, Derived.podLabels i.name, h.matchLabels hi, ?_, fun _ _ => find?_podLabels⟩
  unfold Json.podLabels
  rw [h.template]
  unfold Deployment.template
  rw [Json.get_object (by simp)]
  show Json.get (.object _) "labels" = _
  rw [Json.get_object (by simp)]
  show Json.ofStringTable (Derived.podLabels c.name) = _
  rw [hi.connector_name]

omit hi in
theorem Written.podContainers : v.podContainers =
    .arr ((Deployment.ofConnector c).containers.map Container.toJson) := by
  rw [← Deployment.get_containers]
  unfold Json.podContainers
  rw [h.template, Json.get_eq (Deployment.spec _), Deployment.find?_spec]
  rfl

end

/-! ## routing and scaling -/

variable {rule : ScalingRule} {port : Int32}

theorem clean_httpTarget (x : HttpScaledObject) : (Json.object [
    ("name", .str x.target),
    ("kind", .str "Deployment"),
    ("apiVersion", .str "apps/v1"),
    ("service", .str x.service),
    ("port", .int x.port.toInt)]).Clean := by
  refine Json.clean_object ?_
  simp only [List.forall_mem_cons]
  exact ⟨Json.clean_str _, Json.clean_str _, Json.clean_str _, Json.clean_str _, Json.clean_int _,
    List.forall_mem_nil _⟩

theorem Written.httpTarget {http : HttpScaling} (hi : i.Describes c)
    (h : i.Written (.httpScaledObject c rule http port) v) :
    v.scaleTarget.get "name" = .str i.name ∧ v.scaleTarget.get "service" = .str i.name ∧
      v.scaleTarget.get "port" = .int port.toInt := by
  have htarget : v.scaleTarget = _ := h.get_member (k := "scaleTargetRef")
    (Json.isTable_object _) (Json.find?_object (by simp) _)
    (clean_httpTarget (.ofConnector c rule http port)).stripped (by decide)
  rw [htarget]
  refine ⟨?_, ?_, ?_⟩
  · rw [Json.get_object (by simp)]
    show Json.str (Derived.objectName .deployment c.name) = _
    rw [objectName_deployment, hi.connector_name]
  · rw [Json.get_object (by simp)]
    show Json.str (Derived.objectName .service c.name) = _
    rw [objectName_service, hi.connector_name]
  · rw [Json.get_object (by simp)]
    rfl

theorem Written.target {custom : CustomScaling} {planned : List PlannedTrigger}
    (hi : i.Describes c) (h : i.Written (.scaledObject c rule custom planned) v) :
    v.scaleTarget.get "name" = .str i.name := by
  have hclean : (Json.object [
      ("apiVersion", .str "apps/v1"),
      ("kind", .str "Deployment"),
      ("name", .str (Derived.objectName .deployment c.name))]).Clean := by
    refine Json.clean_object ?_
    simp only [List.forall_mem_cons]
    exact ⟨Json.clean_str _, Json.clean_str _, Json.clean_str _, List.forall_mem_nil _⟩
  have htarget : v.scaleTarget = _ := h.get_member (k := "scaleTargetRef")
    (Json.isTable_object _) (Json.find?_object (by simp) _) hclean.stripped (by decide)
  rw [htarget, Json.get_object (by simp)]
  show Json.str (Derived.objectName .deployment c.name) = _
  rw [objectName_deployment, hi.connector_name]

/-- the objects that are written for requests to a port agree on it -/
theorem Written.routed {http : HttpScaling} {type : ServiceType} {d sv h : Json}
    (hi : i.Describes c) (hport : c.spec.effectivePort = some port)
    (hd : i.Written (.deployment c) d) (hsv : i.Written (.service c port type) sv)
    (hh : i.Written (.httpScaledObject c rule http port) h) : c.Routed d sv h := by
  have hselector : (sv.get "spec").get "selector" =
      .ofStringTable (Derived.selectorLabels c.name) := hsv.get_member (Json.isTable_object _)
    (Json.find?_object (by simp) _) (Json.stripped_ofStringTable _) (by decide)
  have hports : (sv.get "spec").get "ports" = _ := hsv.get_member (Json.isTable_object _)
    (Json.find?_object (by simp) _) (Service.clean_ports port).stripped (by decide)
  refine ⟨?_, port.toInt, (hh.httpTarget hi).2.2, ⟨_, hports, ?_, ?_⟩, fun hempty => ?_⟩
  · rw [hselector, hd.matchLabels hi, hi.connector_name]
  · rw [Json.get_object (by simp)]
    rfl
  · rw [Json.get_object (by simp)]
    rfl
  · let p : ContainerPort :=
      { containerPort := port, name := some "http", protocol := some "TCP" }
    refine ⟨(Deployment.withMounts (Deployment.volumesOf c.spec)
      (Deployment.defaultContainer c)).toJson, _, ?_, ?_, p.get_port⟩
    · rw [hd.podContainers, Deployment.containers_of_empty hempty]
      rfl
    · rw [Container.get_ports]
      show ((c.spec.effectivePort.map _).map _).getD Json.null = _
      rw [hport]
      rfl

end Identity
end ConnectorControl
