import Mathlib.Logic.Relation
import ConnectorControl.Proofs.History.Passes

/-!
# Histories of a Connector

The history of a Connector is a sequence of steps (`Identity.Step`): Connector, Secrets and
ConfigMaps are edited, or a pass is made, with any settings and under any failures of writes.
Every store of a history that starts afresh is sound (`sound_of_steps`), so references between
derived objects go to objects that are there, at the end of each pass and during it
(`linked_throughout`).
-/

namespace ConnectorControl
namespace Identity

variable {i : Identity} {s₀ s s' : Cluster}

def pass (i : Identity) (settings : PassSettings) (now : String) (faults : List Fault)
    (s : Cluster) : Program.Run World (Except Failure Action) :=
  (Pass.reconcile settings now i.ns i.name).run.run World.answer ⟨s, faults, []⟩

/-- what may happen to a store between two looks at it -/
inductive Step (i : Identity) : Cluster → Cluster → Prop
  /-- The Connector, Secrets and ConfigMaps are changed; the derived objects are not. -/
  | edited {s s' : Cluster}
    (hkeep : ∀ kind name, s'.find? (i.key kind name) = s.find? (i.key kind name))
    (hfixed : i.Fixed s') : Step i s s'
  /-- a pass is made -/
  | passed {s : Cluster} (settings : PassSettings) (now : String) (faults : List Fault)
    (hfaults : ∀ f ∈ faults, f.onWrites = true) :
    Step i s (i.pass settings now faults s).state.cluster

theorem Fresh.sound (h : i.Fresh s) (hfixed : i.Fixed s) : i.Sound s :=
  ⟨h.orderly, h.linked, hfixed⟩

theorem within_writes {faults : List Fault} (h : ∀ f ∈ faults, f.onWrites = true) :
    ∀ f ∈ faults, f.Within .writes := fun f hf => .writes (h f hf)

theorem pass_ends {d : Disturbance} (hd : d.Tame) (h : i.Sound s) {faults : List Fault}
    (hw : ∀ f ∈ faults, f.Within d) (settings : PassSettings) (now : String) :
    (∀ m ∈ (Pass.reconcile settings now i.ns i.name).run.calls World.answer ⟨s, faults, []⟩,
      i.Linked m.2.cluster) ∧
    Pass.Ends (Pass.Succeeded i settings s) (fun _ => Pass.Failed i settings d s)
      (i.pass settings now faults s).result (i.pass settings now faults s).state.cluster := by
  have hpass : Pass.Ensures d (fun _ s => i.Linked s) (Pass.reconcile settings now i.ns i.name) s
      (Pass.Succeeded i settings s) fun _ => Pass.Failed i settings d s :=
    Pass.ensures_reconcile_sound hd h
  have hrun := Program.Ensures.run (w := ⟨s, faults, []⟩) hpass hw
  exact ⟨hrun.1, hrun.2.1⟩

theorem sound_pass (h : i.Sound s) (settings : PassSettings) (now : String) {faults : List Fault}
    (hfaults : ∀ f ∈ faults, f.onWrites = true) :
    i.Sound (i.pass settings now faults s).state.cluster := by
  have hend := (pass_ends Disturbance.tame_writes h (within_writes hfaults) settings now).2
  cases hr : (i.pass settings now faults s).result with
  | ok a =>
    rw [hr] at hend
    exact hend.sound
  | error e =>
    rw [hr] at hend
    exact hend.sound

/-- what a step keeps: a sound store stays sound -/
theorem Step.sound (h : i.Step s s') (hs : i.Sound s) : i.Sound s' := by
  cases h with
  | edited hkeep hfixed => exact ⟨hs.orderly.congr hkeep, hs.linked.congr hkeep, hfixed⟩
  | passed settings now faults hfaults =>
    exact sound_pass hs settings now hfaults

/-- every store of a history that starts afresh is sound -/
theorem sound_of_steps (hfresh : i.Fresh s₀) (hfixed : i.Fixed s₀)
    (h : Relation.ReflTransGen i.Step s₀ s) : i.Sound s := by
  induction h with
  | refl => exact hfresh.sound hfixed
  | tail _ hstep ih => exact hstep.sound ih

/-- No reference dangles at any moment: in a history that starts afresh, at each call of a pass and
when it is over, the authentications of the ScaledObject, the Deployment that is scaled, and the
Deployment and the Service behind the HTTPScaledObject are there. -/
theorem linked_throughout (hfresh : i.Fresh s₀) (hfixed : i.Fixed s₀)
    (h : Relation.ReflTransGen i.Step s₀ s) (settings : PassSettings) (now : String)
    {faults : List Fault} (hfaults : ∀ f ∈ faults, f.onWrites = true) :
    (∀ m ∈ (Pass.reconcile settings now i.ns i.name).run.calls World.answer ⟨s, faults, []⟩,
      i.Linked m.2.cluster) ∧ i.Linked (i.pass settings now faults s).state.cluster := by
  have hs := sound_of_steps hfresh hfixed h
  exact ⟨(pass_ends Disturbance.tame_writes hs (within_writes hfaults) settings now).1,
    (sound_pass hs settings now hfaults).linked⟩

/-! ## a history -/

theorem fixed_of_read {c : Connector} (hi : i.Describes c)
    (h : (Pass.getAs .connector i.ns i.name Connector.decode).run.value s = .ok (some c)) :
    i.Fixed s := by
  intro c' hc
  rw [Pass.value_getAs.2 hc] at h
  obtain rfl := Option.some.inj (Except.ok.inj h)
  exact hi

def queueConnector (scaling : Option ScalingRule) : Connector where
  metadata := { (default : Metadata) with name := some "mq", ns := some "apps", uid := some "u1" }
  spec := {
    image := some "mq:1", containers := [], exposePort := some 80, configRef := none
    secretRef := none, type := none, scaler := none, scalingRule := scaling }
  status := none

def queue : Identity := ⟨"apps", "mq", some "u1"⟩

theorem queue_describes (scaling : Option ScalingRule) : queue.Describes (queueConnector scaling) :=
  ⟨rfl, fun _ hns => (Option.some.inj hns).symm, rfl⟩

/-- a store with the Connector and with a Secret for its trigger -/
def queueStore (scaling : Option ScalingRule) : Cluster :=
  Cluster.empty
    |>.set queue.connectorKey (queueConnector scaling).toJson
    |>.set ⟨.secret, "apps", "db"⟩ (.object [("stringData", .object [("token", .str "t")])])

theorem queue_fresh (scaling : Option ScalingRule) : queue.Fresh (queueStore scaling) := by
  intro kind name v hv
  unfold queueStore at hv
  rw [Cluster.find?_set, if_neg nofun, Cluster.find?_set, if_neg nofun] at hv
  cases hv

/-- scaling on a trigger with a Secret, and scaling on requests -/
def queueScaling : Option ScalingRule :=
  some ⟨none, none, .custom ⟨none, none, [⟨"mysql", .ofList [], some "db"⟩]⟩⟩

def queueSettings : PassSettings where
  auth := ScalerConfig.empty |>.register "mysql" [["token"]]
  prune := true

def failing (verb : Verb) (kind : DerivedKind) : Fault :=
  ⟨verb, kind, none, some (.transient "down"), none, 0⟩

theorem queue_fixed : queue.Fixed (queueStore queueScaling) :=
  fixed_of_read (queue_describes queueScaling) (by decide +kernel)

/-- the creation of the ScaledObject fails, and then scaling is dropped -/
def queueHistory : Cluster :=
  (queue.pass queueSettings "t0" [failing .create .scaledObject]
      (queueStore queueScaling)).state.cluster
    |>.set queue.connectorKey (queueConnector none).toJson

theorem queueHistory_steps :
    Relation.ReflTransGen queue.Step (queueStore queueScaling) queueHistory := by
  refine .tail (.single (.passed queueSettings "t0" [failing .create .scaledObject] ?_))
    (.edited ?_ ?_)
  · simp [failing, Fault.onWrites]
  · intro kind name
    exact (Cluster.find?_set _ _ _ _).trans (if_neg nofun)
  · exact fixed_of_read (queue_describes none) (by decide +kernel)

theorem linked_throughout_queue :
    (∀ m ∈ (Pass.reconcile queueSettings "t1" "apps" "mq").run.calls World.answer
      ⟨queueHistory, [failing .delete .triggerAuthentication], []⟩, queue.Linked m.2.cluster) ∧
    queue.Linked (queue.pass queueSettings "t1" [failing .delete .triggerAuthentication]
      queueHistory).state.cluster :=
  linked_throughout (queue_fresh _) queue_fixed queueHistory_steps queueSettings "t1"
    (by simp [failing, Fault.onWrites])

end Identity
end ConnectorControl
