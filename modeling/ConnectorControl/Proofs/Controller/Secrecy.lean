import ConnectorControl.Controller.Operator
import ConnectorControl.Proofs.Pass.References
import ConnectorControl.Proofs.Pass.Secrecy

/-!
# What an operator shows of the values in Secrets

Two passes of an operator are indistinct (`Operator.Indistinct`) when they end alike, write the same
but for the times of what is recorded, and leave the same counts of failures and the same metrics
but for what was taken from a clock.

`indistinct_of_sameButValues`: passes over worlds that are the same but for values in Secrets and
ConfigMaps are indistinct, under any faults, at any times and however long they take.
-/

namespace ConnectorControl

/-! ## metrics -/

/-- the same numbers of everything; durations and the time of the last pass may differ -/
structure Metrics.SameButClock (m m' : Metrics) : Prop where
  reconciliations : m.reconciliations = m'.reconciliations
  errors : m.errors = m'.errors
  observations : ∀ l,
    (m.durations.find? l).map (·.count) = (m'.durations.find? l).map (·.count)
  secretFailures : m.secretFailures = m'.secretFailures

namespace Operator

variable {op : Operator} {now now' : Moment} {seconds seconds' : Float} {ns name : String}
  {c : Connector} {v w : World}

theorem sameButClock_noteResult (m : Metrics) (r : Except Failure Action) :
    (op.noteResult ns name now seconds m r).SameButClock
      (op.noteResult ns name now' seconds' m r) := by
  have hrefl : m.SameButClock m := ⟨rfl, rfl, fun _ => rfl, rfl⟩
  cases r with
  | error e => exact ⟨rfl, rfl, fun _ => rfl, rfl⟩
  | ok action =>
    unfold noteResult
    dsimp only
    split
    · refine ⟨rfl, rfl, fun l => ?_, rfl⟩
      show (Table.find? (m.durations.insert ⟨ns, name⟩ _) l).map _ =
        (Table.find? (m.durations.insert ⟨ns, name⟩ _) l).map _
      rw [Table.find?_insert, Table.find?_insert]
      split <;> rfl
    · exact hrefl

/-- of what happens in a pass only the Secrets that lack keys are counted -/
theorem foldl_noteEvent (events : List Event) (m : Metrics) :
    events.foldl noteEvent m =
      (events.filterMap Event.rejected?).foldl Metrics.recordSecretFailure m := by
  induction events generalizing m with
  | nil => rfl
  | cons e events ih =>
    cases e with
    | call call reply => exact ih m
    | secretRejected t => exact ih (m.recordSecretFailure t)

theorem noteEvents_congr {events events' : List Event}
    (h : events.filterMap Event.rejected? = events'.filterMap Event.rejected?) (m : Metrics) :
    op.noteEvents events m = op.noteEvents events' m := by
  unfold noteEvents
  rw [foldl_noteEvent, foldl_noteEvent, h]

/-! ## passes -/

theorem blind_passOver (op : Operator) (now : Moment) (c : Connector) :
    Pass.Blind (op.passOver now c) := by
  unfold passOver
  split
  · exact Pass.blind_ofExcept
  · exact Pass.blind_reconcile

/-- at another time the pass that a Connector calls for does the same, but for times -/
theorem run_passOver_times (op : Operator) (now now' : Moment) (c : Connector) (w : World) :
    ((op.passOver now c).run.run World.answer w).result =
        ((op.passOver now' c).run.run World.answer w).result ∧
      ((op.passOver now c).run.run World.answer w).state.Beside Json.withoutTimes
        ((op.passOver now' c).run.run World.answer w).state ∧
      ((op.passOver now c).run.run World.answer w).rejected =
        ((op.passOver now' c).run.run World.answer w).rejected := by
  unfold passOver
  cases c.metadata.ns with
  | none => exact ⟨rfl, World.beside_refl w, rfl⟩
  | some ns => exact Pass.reconciled_times op.settings now.text now'.text ns c.name w

theorem store_conclude {σ : Type} (events : List Event) (r : Except Failure Action)
    (s : OperatorState σ) : (op.conclude now seconds c events r s).store = s.store := by
  unfold conclude
  split <;> rfl

theorem conclude_congr {σ : Type} (op : Operator) (c : Connector) {events events' : List Event}
    (h : events.filterMap Event.rejected? = events'.filterMap Event.rejected?)
    (r : Except Failure Action) (s t : σ) (failures : FailureCounts) (metrics : Metrics)
    (now now' : Moment) (seconds seconds' : Float) :
    (op.conclude now seconds c events r ⟨s, failures, metrics⟩).failures =
        (op.conclude now' seconds' c events' r ⟨t, failures, metrics⟩).failures ∧
      (op.conclude now seconds c events r ⟨s, failures, metrics⟩).metrics.SameButClock
        (op.conclude now' seconds' c events' r ⟨t, failures, metrics⟩).metrics ∧
      (op.conclude now seconds c events r ⟨s, failures, metrics⟩).metrics =
        (op.conclude now seconds c events' r ⟨t, failures, metrics⟩).metrics := by
  unfold conclude
  cases c.metadata.ns with
  | none => exact ⟨rfl, ⟨rfl, rfl, fun _ => rfl, rfl⟩, rfl⟩
  | some ns =>
    dsimp only
    rw [noteEvents_congr h]
    exact ⟨rfl, sameButClock_noteResult _ r, rfl⟩

/-- Two passes, at two moments and of two durations, that end alike, write the same but for the
times of what they record, and are counted alike; at one moment they leave worlds that are the same
but for values, and the same metrics if they take as long. -/
structure Indistinct (now now' : Moment) (seconds seconds' : Float)
    (r r' : Program.Run (OperatorState World) (Except Failure Action)) : Prop where
  result : r.result = r'.result
  writes : r.state.store.writes.map (Write.mapStatus Json.withoutTimes) =
    r'.state.store.writes.map (Write.mapStatus Json.withoutTimes)
  failures : r.state.failures = r'.state.failures
  metrics : r.state.metrics.SameButClock r'.state.metrics
  atOneTime : now = now' → r.state.store.SameButValues r'.state.store ∧
    (seconds = seconds' → r.state.metrics = r'.state.metrics)

/-- Whatever Secrets and ConfigMaps hold, as long as the keys of Secrets are the same and all of it
decodes, does not show: passes over worlds that are the same but for such values are indistinct. -/
theorem indistinct_of_sameButValues (op : Operator) (h : v.SameButValues w) (now now' : Moment)
    (seconds seconds' : Float) (c : Connector) (failures : FailureCounts) (metrics : Metrics) :
    Indistinct now now' seconds seconds'
      (op.reconcile World.answer now seconds c ⟨v, failures, metrics⟩)
      (op.reconcile World.answer now' seconds' c ⟨w, failures, metrics⟩) := by
  obtain ⟨hresult, hworlds, hrejected⟩ := Program.Blind.run (blind_passOver op now c) h
  obtain ⟨hresult', hbeside, hrejected'⟩ := run_passOver_times op now now' c w
  have hconclude := conclude_congr op c (hrejected.trans hrejected')
    ((op.passOver now c).run.run World.answer v).result
    ((op.passOver now c).run.run World.answer v).state
    ((op.passOver now' c).run.run World.answer w).state failures metrics now now' seconds seconds'
  obtain ⟨hfailures, hmetrics, _⟩ := hconclude
  rw [hresult.trans hresult'] at hfailures hmetrics
  unfold reconcile
  dsimp only
  rw [hresult.trans hresult']
  refine ⟨rfl, ?_, hfailures, hmetrics, fun hnow => ?_⟩
  · rw [store_conclude, store_conclude]
    unfold World.writes
    rw [hworlds.written]
    exact hbeside.writes
  · subst hnow
    rw [store_conclude, store_conclude]
    refine ⟨hworlds, fun hseconds => ?_⟩
    subst hseconds
    exact (conclude_congr op c hrejected _ _ _ failures metrics now now seconds seconds).2.2

/-- a Connector with a ConfigMap, and with a Secret for its trigger -/
def heldConnector : Connector :=
  Pass.mixedConnector.withSpec { Pass.mixedConnector.spec with configRef := some "cfg" }

def heldSecret (user pass : String) : Json :=
  .object [("data", .object [("user", .str user)]), ("stringData", .object [("pass", .str pass)])]

def heldConfigMap (mode : String) : Json := .object [("data", .object [("mode", .str mode)])]

/-- a world where the Connector finds both, with given values in them -/
def heldWorld (user pass mode : String) : World where
  cluster := Cluster.empty
    |>.set ⟨.connector, "apps", "mq"⟩ heldConnector.toJson
    |>.set ⟨.secret, "apps", "db"⟩ (heldSecret user pass)
    |>.set ⟨.configMap, "apps", "cfg"⟩ (heldConfigMap mode)
  faults := []
  written := []

def heldOperator : Operator := ⟨Pass.mixedSettings, .standard, true⟩

/-- What the two worlds hold is different throughout, and a pass writes all that the Connector asks
for. -/
theorem indistinct_of_sameButValues_held :
    (heldWorld "dQ==" "p" "fast").SameButValues (heldWorld "d3c=" "q" "slow") ∧
      (heldOperator.reconcile World.answer ⟨"t0", 0⟩ 0.25 heldConnector
        (.initial (heldWorld "dQ==" "p" "fast"))).state.store.writes.map
          (fun x => (x.verb, x.kind)) = [(.create, (DerivedKind.deployment : Kind)),
            (.create, (DerivedKind.triggerAuthentication : Kind)),
            (.create, (DerivedKind.scaledObject : Kind)), (.patchStatus, .connector)] ∧
      Indistinct ⟨"t0", 0⟩ ⟨"t1", 1⟩ 0.25 0.5
        (heldOperator.reconcile World.answer ⟨"t0", 0⟩ 0.25 heldConnector
          (.initial (heldWorld "dQ==" "p" "fast")))
        (heldOperator.reconcile World.answer ⟨"t1", 1⟩ 0.5 heldConnector
          (.initial (heldWorld "d3c=" "q" "slow"))) := by
  have hsecret : Kind.secret.SameButValues (heldSecret "dQ==" "p") (heldSecret "d3c=" "q") :=
    ⟨by decide +kernel, fun _ => ⟨⟨by decide +kernel, by decide +kernel⟩,
      ⟨by decide +kernel, by decide +kernel⟩⟩⟩
  have hconfigMap : Kind.configMap.SameButValues (heldConfigMap "fast") (heldConfigMap "slow") :=
    ⟨by decide +kernel, nofun⟩
  have hconnector : Kind.connector.SameButValues heldConnector.toJson heldConnector.toJson :=
    (settles_sameButValues not_holdsValues_connector _ _).2 rfl
  have hcluster : (heldWorld "dQ==" "p" "fast").cluster.SameButValues
      (heldWorld "d3c=" "q" "slow").cluster :=
    ((Cluster.Related.empty.set hconnector).set hsecret).set hconfigMap
  have hworlds : (heldWorld "dQ==" "p" "fast").SameButValues (heldWorld "d3c=" "q" "slow") :=
    ⟨hcluster, rfl, rfl⟩
  exact ⟨hworlds, by decide +kernel, indistinct_of_sameButValues heldOperator hworlds _ _ _ _
    heldConnector .empty .empty⟩

end Operator
end ConnectorControl
