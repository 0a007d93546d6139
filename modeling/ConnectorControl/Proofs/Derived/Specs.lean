import ConnectorControl.Derived.Autoscaling
import ConnectorControl.Derived.Deployment
import ConnectorControl.Derived.Service
import ConnectorControl.Proofs.Derived.Stored
import ConnectorControl.Proofs.Objects.Shape

/-!
# Specs of derived objects

Each kind has one writer of its spec.  Two specs of a kind have the same members at every depth, so
one merged over the other leaves nothing of it; only a Deployment that leaves its replica count
open keeps the one that is there (`Deployment.merge_spec`).
-/

namespace ConnectorControl

open Json

/-! ## pods -/

theorem ContainerPort.clean_toJson (p : ContainerPort) : p.toJson.Clean := by
  refine clean_objectOfSet ?_
  simp only [List.forall_mem_cons]
  exact ⟨clean_of_some (clean_int _), clean_of_map clean_str _,
    clean_of_map (fun _ => clean_int _) _, clean_of_map clean_str _, clean_of_map clean_str _,
    List.forall_mem_nil _⟩

theorem VolumeMount.clean_toJson (m : VolumeMount) : m.toJson.Clean := by
  refine clean_objectOfSet ?_
  simp only [List.forall_mem_cons]
  exact ⟨clean_of_some (clean_str _), clean_of_map clean_str _, clean_of_some (clean_str _),
    clean_of_map clean_bool _, clean_of_map clean_str _, clean_of_map clean_str _,
    clean_of_map clean_str _, List.forall_mem_nil _⟩

theorem Container.clean_toJson (c : Container) : c.toJson.Clean := by
  have htext := fun x => clean_of_map clean_str x
  have htexts := fun x => clean_of_map clean_ofStrings x
  have hflag := fun x => clean_of_map clean_bool x
  have hrecord := fun s : Shape => fun x => clean_of_map s.clean_toJson x
  have hrecords := fun s : Shape => fun x => clean_of_map (clean_list s.clean_toJson) x
  refine clean_objectOfSet ?_
  simp only [List.forall_mem_cons]
  exact ⟨htexts _, htexts _, hrecords _ _, hrecords _ _, htext _, htext _, hrecord _ _,
    hrecord _ _, clean_of_some (clean_str _),
    clean_of_map (clean_list ContainerPort.clean_toJson) _, hrecord _ _, hrecords _ _,
    hrecord _ _, htext _, hrecord _ _, hrecord _ _, hflag _, hflag _, htext _, htext _, hflag _,
    hrecords _ _, clean_of_map (clean_list VolumeMount.clean_toJson) _, htext _,
    List.forall_mem_nil _⟩

theorem Volume.clean_toJson (v : Volume) : v.toJson.Clean := by
  cases v with
  | configMap name =>
    refine clean_object ?_
    simp only [List.forall_mem_cons]
    refine ⟨clean_str _, clean_object ?_, List.forall_mem_nil _⟩
    simpa using clean_str name
  | secret name =>
    refine clean_object ?_
    simp only [List.forall_mem_cons]
    refine ⟨clean_str _, clean_object ?_, List.forall_mem_nil _⟩
    simpa using clean_str name

theorem Container.get_image (x : Container) :
    x.toJson.get "image" = (x.image.map .str).getD .null := by
  unfold toJson
  rw [Json.get_objectOfSet (by simp)]
  rfl

theorem Container.get_ports (x : Container) : x.toJson.get "ports" =
    (x.ports.map fun ps => .arr (ps.map ContainerPort.toJson)).getD .null := by
  unfold toJson
  rw [Json.get_objectOfSet (by simp)]
  rfl

theorem ContainerPort.get_port (p : ContainerPort) :
    p.toJson.get "containerPort" = .int p.containerPort.toInt := by
  unfold toJson
  rw [Json.get_objectOfSet (by simp)]
  rfl

theorem ScaleTrigger.get_type (t : ScaleTrigger) : t.toJson.get "type" = .str t.type := by
  unfold toJson
  rw [Json.get_objectOfSet (by simp)]
  rfl

/-! ## one writer after the other -/

theorem ScaleTrigger.clean_toJson (t : ScaleTrigger) : t.toJson.Clean := by
  refine clean_objectOfSet ?_
  simp only [List.forall_mem_cons]
  refine ⟨clean_of_some (clean_str _), clean_of_some (clean_ofStringTable _),
    clean_of_map (fun name => clean_object ?_) _, List.forall_mem_nil _⟩
  simpa using clean_str name

theorem Json.isPlain_ofInt32OrNull (n : Option Int32) : (ofInt32OrNull n).isPlain = true := by
  cases n <;> rfl

theorem Json.canonical_of_plain {v : Json} (h : v.isPlain = true) : v.Canonical := by
  cases v with
  | arr items => cases h
  | obj ms => cases h
  | _ => trivial

namespace ScaledObject

theorem find?_triggers (s : ScaledObject) :
    s.spec.find? "triggers" = some (.arr (s.triggers.map ScaleTrigger.toJson)) := by
  show Json.find? (.object _) "triggers" = _
  rw [find?_object (by simp)]
  rfl

theorem canonical_spec (s : ScaledObject) : s.spec.Canonical := by
  refine canonical_object ?_
  simp only [List.forall_mem_cons]
  refine ⟨canonical_object ?_, canonical_of_plain (isPlain_ofInt32OrNull _),
    canonical_of_plain (isPlain_ofInt32OrNull _), canonical_of_plain (isPlain_ofInt32OrNull _),
    canonical_of_plain (isPlain_ofInt32OrNull _),
    (clean_list ScaleTrigger.clean_toJson _).canonical, List.forall_mem_nil _⟩
  simp only [List.forall_mem_cons]
  exact ⟨trivial, trivial, trivial, List.forall_mem_nil _⟩

theorem covers_spec (s s' : ScaledObject) : Covers s.spec s'.spec := by
  refine covers_object (by simp) ?_
  refine .cons ⟨rfl, covers_object (by simp) ?_⟩ (.cons ⟨rfl, ?_⟩ (.cons ⟨rfl, ?_⟩
    (.cons ⟨rfl, ?_⟩ (.cons ⟨rfl, ?_⟩ (.cons ⟨rfl, ?_⟩ .nil)))))
  · exact .cons ⟨rfl, covers_of_plain rfl⟩ (.cons ⟨rfl, covers_of_plain rfl⟩
      (.cons ⟨rfl, covers_of_plain rfl⟩ .nil))
  · exact covers_of_plain (isPlain_ofInt32OrNull _)
  · exact covers_of_plain (isPlain_ofInt32OrNull _)
  · exact covers_of_plain (isPlain_ofInt32OrNull _)
  · exact covers_of_plain (isPlain_ofInt32OrNull _)
  · exact .leaf rfl (clean_list ScaleTrigger.clean_toJson _).stripped

end ScaledObject

namespace TriggerAuth

theorem clean_targets (a : TriggerAuth) : (arr (a.keys.map fun key =>
    object [("parameter", .str key), ("name", .str a.secret), ("key", .str key)])).Clean := by
  refine clean_list (fun key => clean_object ?_) _
  simp only [List.forall_mem_cons]
  exact ⟨clean_str _, clean_str _, clean_str _, List.forall_mem_nil _⟩

theorem find?_targets (a : TriggerAuth) :
    a.spec.find? "secretTargetRef" = some (.arr (a.keys.map fun key =>
      object [("parameter", .str key), ("name", .str a.secret), ("key", .str key)])) := by
  show Json.find? (.object _) "secretTargetRef" = _
  rw [find?_object (by simp)]
  rfl

theorem canonical_spec (a : TriggerAuth) : a.spec.Canonical := by
  refine canonical_object ?_
  simp only [List.forall_mem_cons]
  exact ⟨a.clean_targets.canonical, List.forall_mem_nil _⟩

theorem covers_spec (a a' : TriggerAuth) : Covers a.spec a'.spec :=
  covers_object (by simp) (.cons ⟨rfl, .leaf rfl a.clean_targets.stripped⟩ .nil)

end TriggerAuth

namespace HttpScaledObject

theorem canonical_spec (s : HttpScaledObject) : s.spec.Canonical := by
  refine canonical_object ?_
  simp only [List.forall_mem_cons]
  refine ⟨(clean_ofStrings _).canonical, canonical_object ?_, canonical_object ?_,
    canonical_of_plain (isPlain_ofInt32OrNull _), List.forall_mem_nil _⟩
  · simp only [List.forall_mem_cons]
    exact ⟨trivial, trivial, trivial, trivial, trivial, List.forall_mem_nil _⟩
  · simp only [List.forall_mem_cons]
    exact ⟨trivial, trivial, List.forall_mem_nil _⟩

theorem covers_spec (s s' : HttpScaledObject) : Covers s.spec s'.spec := by
  refine covers_object (by simp) (.cons ⟨rfl, ?_⟩ (.cons ⟨rfl, covers_object (by simp) ?_⟩
    (.cons ⟨rfl, covers_object (by simp) ?_⟩ (.cons ⟨rfl, ?_⟩ .nil))))
  · exact .leaf rfl (clean_ofStrings _).stripped
  · exact .cons ⟨rfl, covers_of_plain rfl⟩ (.cons ⟨rfl, covers_of_plain rfl⟩
      (.cons ⟨rfl, covers_of_plain rfl⟩ (.cons ⟨rfl, covers_of_plain rfl⟩
        (.cons ⟨rfl, covers_of_plain rfl⟩ .nil))))
  · exact .cons ⟨rfl, covers_of_plain rfl⟩ (.cons ⟨rfl, covers_of_plain rfl⟩ .nil)
  · exact covers_of_plain (isPlain_ofInt32OrNull _)

end HttpScaledObject

namespace Service

theorem clean_ports (port : Int32) : (arr [object [
    ("name", .str "http"),
    ("port", .int port.toInt),
    ("protocol", .str "TCP"),
    ("targetPort", .int port.toInt)]]).Clean := by
  refine clean_arr ?_
  simp only [List.forall_mem_cons]
  refine ⟨clean_object ?_, List.forall_mem_nil _⟩
  simp only [List.forall_mem_cons]
  exact ⟨clean_str _, clean_int _, clean_str _, clean_int _, List.forall_mem_nil _⟩

theorem canonical_spec (s : Service) : s.spec.Canonical := by
  refine canonical_object ?_
  simp only [List.forall_mem_cons]
  exact ⟨(clean_ports s.port).canonical, (clean_ofStringTable _).canonical, trivial,
    List.forall_mem_nil _⟩

theorem covers_spec {s s' : Service} (h : s'.selector = s.selector) : Covers s.spec s'.spec := by
  refine covers_object (by simp) (.cons ⟨rfl, ?_⟩ (.cons ⟨rfl, ?_⟩
    (.cons ⟨rfl, covers_of_plain rfl⟩ .nil)))
  · exact .leaf rfl (clean_ports s.port).stripped
  · show Covers (.ofStringTable s.selector) (.ofStringTable s'.selector)
    rw [h]
    exact covers_ofStringTable _

end Service

namespace Deployment

def template (d : Deployment) : Json :=
  .object [
    ("metadata", .object [("labels", .ofStringTable d.podLabels)]),
    ("spec", .object [
      ("containers", .arr (d.containers.map Container.toJson)),
      ("volumes", .arr (d.volumes.map Volume.toJson))])]

theorem spec_eq (d : Deployment) : d.spec = .objectOfSet [
    ("replicas", d.replicas.map fun n : Nat => .int n),
    ("selector", some (.object [("matchLabels", .ofStringTable d.selector)])),
    ("template", some d.template)] := by
  unfold spec
  cases d.replicas <;> rfl

theorem find?_spec (d : Deployment) (k : String) : d.spec.find? k =
    (Entries.find? k [
      ("replicas", d.replicas.map fun n : Nat => .int n),
      ("selector", some (.object [("matchLabels", .ofStringTable d.selector)])),
      ("template", some d.template)]).join := by
  rw [spec_eq]
  exact find?_objectOfSet (by simp) k

theorem get_pod (d : Deployment) : (d.spec.get "template").get "spec" = .object [
    ("containers", .arr (d.containers.map Container.toJson)),
    ("volumes", .arr (d.volumes.map Volume.toJson))] := by
  rw [Json.get_eq d.spec, Deployment.find?_spec]
  show d.template.get "spec" = _
  unfold template
  rw [Json.get_object (by simp)]
  rfl

theorem get_containers (d : Deployment) :
    ((d.spec.get "template").get "spec").get "containers" =
      .arr (d.containers.map Container.toJson) := by
  rw [get_pod, Json.get_object (by simp)]
  rfl

theorem get_volumes (d : Deployment) :
    ((d.spec.get "template").get "spec").get "volumes" = .arr (d.volumes.map Volume.toJson) := by
  rw [get_pod, Json.get_object (by simp)]
  rfl

/-- without containers in the spec there is the one made from the image -/
theorem containers_of_empty {c : Connector} (h : c.spec.containers = []) :
    (ofConnector c).containers = [withMounts (volumesOf c.spec) (defaultContainer c)] := by
  unfold ofConnector baseContainers
  rw [h]
  rfl

theorem clean_selector (t : Table String String) :
    (object [("matchLabels", .ofStringTable t)]).Clean := by
  refine clean_object ?_
  simpa using clean_ofStringTable t

theorem clean_template (d : Deployment) : d.template.Clean := by
  refine clean_object ?_
  simp only [List.forall_mem_cons]
  refine ⟨clean_object ?_, clean_object ?_, List.forall_mem_nil _⟩
  · simpa using clean_ofStringTable d.podLabels
  · simp only [List.forall_mem_cons]
    exact ⟨clean_list Container.clean_toJson _, clean_list Volume.clean_toJson _,
      List.forall_mem_nil _⟩

theorem clean_spec (d : Deployment) : d.spec.Clean := by
  rw [spec_eq]
  refine clean_objectOfSet ?_
  simp only [List.forall_mem_cons]
  exact ⟨clean_of_map (fun n : Nat => clean_int n) _, clean_of_some (clean_selector _),
    clean_of_some (clean_template d), List.forall_mem_nil _⟩

theorem covers_template {d d' : Deployment} (h : d'.podLabels = d.podLabels) :
    Covers d.template d'.template := by
  refine covers_object (by simp) (.cons ⟨rfl, covers_object (by simp) (.cons ⟨rfl, ?_⟩ .nil)⟩
    (.cons ⟨rfl, covers_object (by simp) (.cons ⟨rfl, ?_⟩ (.cons ⟨rfl, ?_⟩ .nil))⟩ .nil))
  · show Covers (.ofStringTable d.podLabels) (.ofStringTable d'.podLabels)
    rw [h]
    exact covers_ofStringTable _
  · exact .leaf rfl (clean_list Container.clean_toJson _).stripped
  · exact .leaf rfl (clean_list Volume.clean_toJson _).stripped

/-- a Deployment merged over another one keeps its replica count if it leaves its own open -/
theorem merge_spec {d d' : Deployment} (hs : d'.selector = d.selector)
    (hp : d'.podLabels = d.podLabels) :
    d'.spec.merge d.spec =
      ({ d with replicas := d.replicas <|> d'.replicas } : Deployment).spec := by
  refine merge_eq_of_forall (isTable_objectOfSet _).ordered (isTable_objectOfSet _)
    (isTable_objectOfSet _) fun k => ?_
  rw [find?_spec, find?_spec]
  show _ = (({ d with replicas := d.replicas <|> d'.replicas } : Deployment).spec).find? k
  rw [find?_spec]
  by_cases h₁ : k = "replicas"
  · subst h₁
    show mergedMember (d'.replicas.map _) (d.replicas.map _) =
      (d.replicas <|> d'.replicas).map fun n : Nat => Json.int n
    cases d.replicas <;> rfl
  by_cases h₂ : k = "selector"
  · subst h₂
    show some (Json.merge (object [("matchLabels", .ofStringTable d'.selector)])
      (object [("matchLabels", .ofStringTable d.selector)])) = _
    rw [hs, merge_self (clean_selector _).canonical (clean_selector _).stripped]
    rfl
  by_cases h₃ : k = "template"
  · subst h₃
    show some (Json.merge d'.template d.template) = some d.template
    rw [merge_of_covers (covers_template hp), stripNulls_of_stripped d.clean_template.stripped]
  · simp only [Entries.find?_cons, h₁, h₂, h₃, if_false]
    rfl

end Deployment

/-! ## specs of one kind -/

/-- a spec as it stands, but for a replica count where it leaves that open -/
structure Json.Fills (w r : Json) : Prop where
  isTable : r.IsTable
  others : ∀ k, k ≠ "replicas" → r.find? k = w.find? k
  replicas : ∀ n, w.find? "replicas" = some n → r.find? "replicas" = some n

theorem Json.Fills.refl {w : Json} (h : w.IsTable) : Fills w w :=
  ⟨h, fun _ _ => rfl, fun _ hn => hn⟩

namespace Identity

/-- what is written as the spec of an object of a kind -/
def IsSpec (i : Identity) : DerivedKind → Json → Prop
  | .deployment, v => ∃ d : Deployment,
    d.selector = Derived.selectorLabels i.name ∧ d.podLabels = Derived.podLabels i.name ∧ v = d.spec
  | .service, v => ∃ s : Service, s.selector = Derived.selectorLabels i.name ∧ v = s.spec
  | .scaledObject, v => ∃ s : ScaledObject, v = s.spec
  | .httpScaledObject, v => ∃ s : HttpScaledObject, v = s.spec
  | .triggerAuthentication, v => ∃ a : TriggerAuth, v = a.spec

variable {i : Identity} {kind : DerivedKind} {v w : Json}

theorem IsSpec.canonical (h : i.IsSpec kind v) : v.Canonical := by
  cases kind with
  | deployment =>
    obtain ⟨d, _, _, rfl⟩ := h
    exact d.clean_spec.canonical
  | service =>
    obtain ⟨s, _, rfl⟩ := h
    exact s.canonical_spec
  | scaledObject =>
    obtain ⟨s, rfl⟩ := h
    exact s.canonical_spec
  | httpScaledObject =>
    obtain ⟨s, rfl⟩ := h
    exact s.canonical_spec
  | triggerAuthentication =>
    obtain ⟨a, rfl⟩ := h
    exact a.canonical_spec

theorem IsSpec.isTable (h : i.IsSpec kind v) : v.IsTable := by
  cases kind with
  | deployment =>
    obtain ⟨d, _, _, rfl⟩ := h
    exact isTable_objectOfSet _
  | service =>
    obtain ⟨s, _, rfl⟩ := h
    exact isTable_object _
  | scaledObject =>
    obtain ⟨s, rfl⟩ := h
    exact isTable_object _
  | httpScaledObject =>
    obtain ⟨s, rfl⟩ := h
    exact isTable_object _
  | triggerAuthentication =>
    obtain ⟨a, rfl⟩ := h
    exact isTable_object _

theorem IsSpec.isNull (h : i.IsSpec kind v) : v.isNull = false := by
  have := h.isTable.isObject
  cases v with
  | obj ms => rfl
  | _ => cases this

/-- two specs of a kind, the Deployment's aside, have the same members -/
theorem IsSpec.covers (hk : kind ≠ .deployment) (hv : i.IsSpec kind v) (hw : i.IsSpec kind w) :
    Covers w v := by
  cases kind with
  | deployment => exact absurd rfl hk
  | service =>
    obtain ⟨s, hs, rfl⟩ := hv
    obtain ⟨s', hs', rfl⟩ := hw
    exact Service.covers_spec (hs.trans hs'.symm)
  | scaledObject =>
    obtain ⟨s, rfl⟩ := hv
    obtain ⟨s', rfl⟩ := hw
    exact s'.covers_spec s
  | httpScaledObject =>
    obtain ⟨s, rfl⟩ := hv
    obtain ⟨s', rfl⟩ := hw
    exact s'.covers_spec s
  | triggerAuthentication =>
    obtain ⟨a, rfl⟩ := hv
    obtain ⟨a', rfl⟩ := hw
    exact a'.covers_spec a

/-- a spec merged over the stored form of another one; only in a Deployment's does that show -/
theorem IsSpec.merge (hv : i.IsSpec kind v) (hw : i.IsSpec kind w) :
    ∃ r, i.IsSpec kind r ∧ v.stripNulls.merge w = r.stripNulls ∧
      Fills w.stripNulls r.stripNulls ∧ (kind ≠ .deployment → r = w) := by
  by_cases hk : kind = .deployment
  · subst hk
    obtain ⟨d, hs, hp, rfl⟩ := hv
    obtain ⟨d', hs', hp', rfl⟩ := hw
    refine ⟨_, ⟨{ d' with replicas := d'.replicas <|> d.replicas }, hs', hp', rfl⟩, ?_, ?_,
      fun hk => absurd rfl hk⟩
    · rw [stripNulls_of_stripped d.clean_spec.stripped,
        Deployment.merge_spec (hs.trans hs'.symm) (hp.trans hp'.symm),
        stripNulls_of_stripped (Deployment.clean_spec _).stripped]
    · rw [stripNulls_of_stripped d'.clean_spec.stripped,
        stripNulls_of_stripped (Deployment.clean_spec _).stripped]
      refine ⟨isTable_objectOfSet _, fun k hk => ?_, fun n hn => ?_⟩
      · rw [Deployment.find?_spec, Deployment.find?_spec, Entries.find?_cons, if_neg hk]
        conv => rhs; rw [Entries.find?_cons, if_neg hk]
        rfl
      · rw [Deployment.find?_spec] at hn ⊢
        change (d'.replicas.map fun n : Nat => Json.int n) = some n at hn
        show ((d'.replicas <|> d.replicas).map fun n : Nat => Json.int n) = some n
        cases hr : d'.replicas with
        | none =>
          rw [hr] at hn
          cases hn
        | some m =>
          rw [hr] at hn
          exact hn
  · exact ⟨w, hw, merge_of_covers (hv.covers hk hw).stripNulls,
      .refl (isTable_stripNulls hw.isTable), fun _ => rfl⟩

theorem IsSpec.merge_self (hv : i.IsSpec kind v) : v.stripNulls.merge v = v.stripNulls := by
  by_cases hk : kind = .deployment
  · subst hk
    obtain ⟨d, _, _, rfl⟩ := hv
    rw [stripNulls_of_stripped d.clean_spec.stripped]
    exact Json.merge_self d.clean_spec.canonical d.clean_spec.stripped
  · exact merge_of_covers (hv.covers hk hv).stripNulls

end Identity
end ConnectorControl
