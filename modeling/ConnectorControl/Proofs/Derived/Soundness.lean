import ConnectorControl.Proofs.Connector.Validity
import ConnectorControl.Proofs.Derived.Specs

/-!
# Sound objects of accepted Connectors

What has to hold of the spec of a derived object so that the API and the autoscaler can use it
(`Derived.Sound`), read off its JSON: ports that can be listened on, texts that say something,
replica bounds that fit each other.  The objects of a Connector that is accepted are sound; there is
one lemma for each kind.
-/

namespace ConnectorControl

namespace Json

def IsPort (v : Json) : Prop := ∃ n : Int, v = .int n ∧ 1 ≤ n ∧ n ≤ 65535

def IsFilled (v : Json) : Prop := ∃ s, v = .str s ∧ Text.isBlank s = false

/-- a lower bound that is left open or not negative, and not above the upper one if both are set -/
def Bounded (both : Prop) (min max : Json) : Prop :=
  (min = .null ∨ ∃ n : Int, min = .int n ∧ 0 ≤ n) ∧
    (both → ∃ m n : Int, min = .int m ∧ max = .int n ∧ m ≤ n)

theorem isPort_int {p : Int32} (h : ConnectorSpec.isPort p = true) : IsPort (.int p.toInt) :=
  ⟨p.toInt, rfl, ConnectorSpec.isPort_iff.1 h⟩

end Json

def ConnectorSpec.BoundsBoth (s : ConnectorSpec) : Prop :=
  ∃ rule, s.effectiveScaling = .ok (some rule) ∧ rule.minReplicas.isSome ∧ rule.maxReplicas.isSome

/-- what makes the spec of an object of a kind one that can be used -/
def Derived.Sound (c : Connector) (spec : Json) : DerivedKind → Prop
  | .deployment => ∃ containers,
    ((spec.get "template").get "spec").get "containers" = .arr containers ∧ containers ≠ [] ∧
      (c.spec.containers = [] → ∃ x, containers = [x] ∧ (x.get "image").IsFilled ∧
        ∀ ports, x.get "ports" = .arr ports → ∀ p ∈ ports, (p.get "containerPort").IsPort)
  | .service => ∃ ports, spec.get "ports" = .arr ports ∧ ports ≠ [] ∧
    ∀ p ∈ ports, (p.get "port").IsPort ∧ (p.get "targetPort").IsPort
  | .httpScaledObject =>
    (∃ host, spec.get "hosts" = .arr [host] ∧ host.IsFilled) ∧
      ((spec.get "scaleTargetRef").get "port").IsPort ∧
      Json.Bounded c.spec.BoundsBoth ((spec.get "replicas").get "min")
        ((spec.get "replicas").get "max")
  | .scaledObject =>
    (∃ triggers, spec.get "triggers" = .arr triggers ∧ triggers ≠ [] ∧
      ∀ t ∈ triggers, (t.get "type").IsFilled) ∧
      Json.Bounded c.spec.BoundsBoth (spec.get "minReplicaCount") (spec.get "maxReplicaCount")
  | .triggerAuthentication => True

variable {c : Connector} {rule : ScalingRule}

/-! ## the workload -/

theorem Deployment.sound (hw : c.spec.workloadFault = none) :
    Derived.Sound c (ofConnector c).spec .deployment := by
  obtain ⟨hworkload, hport⟩ := ConnectorSpec.workloadFault_eq_none.1 hw
  refine ⟨_, get_containers _, ?_, fun hempty => ?_⟩
  · unfold ofConnector baseContainers
    cases hcs : c.spec.containers <;> simp [mountFirst]
  · -- without containers in the spec there is the image, and the port that it listens on
    rw [containers_of_empty hempty]
    refine ⟨_, rfl, ?_, fun ports hports p hp => ?_⟩
    · have himage : c.spec.hasImage = true := hworkload.resolve_right fun hne => hne hempty
      unfold ConnectorSpec.hasImage at himage
      rw [Container.get_image]
      show ((c.spec.image.map Json.str).getD .null).IsFilled
      cases himg : c.spec.image with
      | none =>
        rw [himg] at himage
        cases himage
      | some image =>
        rw [himg] at himage
        exact ⟨image, rfl, by simpa using himage⟩
    · rw [Container.get_ports] at hports
      change ((c.spec.effectivePort.map _).map _).getD Json.null = .arr ports at hports
      cases hp' : c.spec.effectivePort with
      | none =>
        rw [hp'] at hports
        cases hports
      | some port =>
        rw [hp'] at hports
        obtain rfl := Json.arr.inj hports
        obtain rfl := List.mem_singleton.1 hp
        rw [ContainerPort.get_port]
        exact Json.isPort_int (hport port hp')

theorem Service.sound {port : Int32} {type : ServiceType}
    (hport : ConnectorSpec.isPort port = true) :
    Derived.Sound c (ofConnector c port type).spec .service := by
  refine ⟨_, Json.get_object (by simp) _, List.cons_ne_nil _ _, fun p hp => ?_⟩
  obtain rfl := List.mem_singleton.1 hp
  rw [Json.get_object (by simp), Json.get_object (by simp)]
  exact ⟨Json.isPort_int hport, Json.isPort_int hport⟩

/-! ## autoscaling -/

/-- bounds that are written as the rule has them, a lower one that is not set aside -/
theorem ScalingRule.bounded {min max : Json} (hs : c.spec.effectiveScaling = .ok (some rule))
    (hb : rule.boundsFault = none)
    (hunset : rule.minReplicas = none → min = .null ∨ min = .int 0)
    (hmin : ∀ m, rule.minReplicas = some m → min = .int m.toInt)
    (hmax : ∀ m, rule.maxReplicas = some m → max = .int m.toInt) :
    Json.Bounded c.spec.BoundsBoth min max := by
  have hbounds := ScalingRule.boundsFault_eq_none.1 hb
  refine ⟨?_, fun ⟨rule', hs', hset, hset'⟩ => ?_⟩
  · cases hr : rule.minReplicas with
    | none => exact (hunset hr).imp_right fun h => ⟨0, h, Int.le_refl 0⟩
    | some m => exact .inr ⟨m.toInt, hmin m hr, (hbounds m hr).1⟩
  · obtain rfl := Option.some.inj (Except.ok.inj (hs'.symm.trans hs))
    obtain ⟨m, hm⟩ := Option.isSome_iff_exists.1 hset
    obtain ⟨n, hn⟩ := Option.isSome_iff_exists.1 hset'
    exact ⟨m.toInt, n.toInt, hmin m hm, hmax n hn, (hbounds m hm).2 n hn⟩

theorem HttpScaledObject.get_replicas (x : HttpScaledObject) :
    (x.spec.get "replicas").get "min" = .int x.minReplicas.toInt ∧
      (x.spec.get "replicas").get "max" = .int x.maxReplicas.toInt := by
  unfold spec
  rw [Json.get_object (by simp)]
  show Json.get (.object _) "min" = _ ∧ Json.get (.object _) "max" = _
  rw [Json.get_object (by simp), Json.get_object (by simp)]
  exact ⟨rfl, rfl⟩

theorem HttpScaledObject.sound {http : HttpScaling} {port : Int32}
    (hs : c.spec.effectiveScaling = .ok (some rule)) (hb : rule.boundsFault = none)
    (hport : ConnectorSpec.isPort port = true) (hhost : Text.isBlank http.host = false) :
    Derived.Sound c (ofConnector c rule http port).spec .httpScaledObject := by
  refine ⟨⟨_, Json.get_object (by simp) _, http.host, rfl, hhost⟩, ?_, ?_⟩
  · unfold spec
    rw [Json.get_object (by simp)]
    show (Json.get (.object _) "port").IsPort
    rw [Json.get_object (by simp)]
    exact Json.isPort_int hport
  · obtain ⟨hmin, hmax⟩ := get_replicas (ofConnector c rule http port)
    rw [hmin, hmax]
    refine ScalingRule.bounded hs hb (fun h => .inr ?_) (fun m h => ?_) fun m h => ?_
    · show Json.int (rule.minReplicas.getD 0).toInt = _
      rw [h]
      rfl
    · show Json.int (rule.minReplicas.getD 0).toInt = _
      rw [h]
      rfl
    · show Json.int (rule.maxReplicas.getD 10).toInt = _
      rw [h]
      rfl

theorem ScaledObject.sound {custom : CustomScaling} {triggers : List ScaleTrigger}
    (hs : c.spec.effectiveScaling = .ok (some rule)) (hb : rule.boundsFault = none)
    (hne : triggers ≠ []) (htypes : ∀ t ∈ triggers, Text.isBlank t.type = false) :
    Derived.Sound c (ofConnector c rule custom triggers).spec .scaledObject := by
  unfold spec
  refine ⟨⟨_, Json.get_object (by simp) _, ?_, fun v hv => ?_⟩, ?_⟩
  · simpa [ofConnector] using hne
  · obtain ⟨t, ht, rfl⟩ := List.mem_map.1 hv
    exact ⟨t.type, t.get_type, htypes t ht⟩
  · rw [Json.get_object (by simp), Json.get_object (by simp)]
    refine ScalingRule.bounded hs hb (fun h => .inl ?_) (fun m h => ?_) fun m h => ?_
    · show Json.ofInt32OrNull rule.minReplicas = _
      rw [h]
      rfl
    · show Json.ofInt32OrNull rule.minReplicas = _
      rw [h]
      rfl
    · show Json.ofInt32OrNull rule.maxReplicas = _
      rw [h]
      rfl

end ConnectorControl
