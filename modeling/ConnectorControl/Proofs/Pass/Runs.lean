import ConnectorControl.Proofs.Pass.Calls
import ConnectorControl.Proofs.Pass.Repetition

/-!
# Runs of a reconciliation in their parts

A reconciliation reads the Connector (`run_read`), a visit of a Connector that is not being deleted
runs the pass over it and records how that went (`run_visit`), and a pass that fails before pruning
ends there (`run_converge_of_error`).
-/

namespace ConnectorControl
namespace Pass

universe u

variable {α β ε : Type} {σ : Type u} {h : Program.Handler σ} {x : σ}

theorem run_bind_of_error {p : ExceptT ε Program α} {f : α → ExceptT ε Program β} {e : ε}
    (he : (p.run.run h x).result = .error e) : ((p >>= f).run.run h x).result = .error e ∧
      ((p >>= f).run.run h x).state = (p.run.run h x).state := by
  have hb : (p >>= f).run.run h x = Program.run h (Program.bind p.run (ExceptT.bindCont f)) x := rfl
  rw [hb, Program.run_bind]
  simp only [he]
  exact ⟨rfl, rfl⟩

theorem run_always {p : Program α} : ((always p).run.run h x).result = .ok (p.run h x).result ∧
    ((always p).run.run h x).state = (p.run h x).state := by
  have hb : (always p).run.run h x =
      Program.run h (Program.bind p fun a => .done (Except.ok a : Except Failure α)) x := rfl
  rw [hb, Program.run_bind]
  exact ⟨rfl, rfl⟩

theorem run_adapt {ε' : Type} {p : ExceptT ε Program α} {f : ε → ε'} :
    ((p.adapt f).run.run h x).result = (p.run.run h x).result.mapError f ∧
      ((p.adapt f).run.run h x).state = (p.run.run h x).state := by
  have hb : (p.adapt f).run.run h x =
      Program.run h (Program.bind p.run fun r => .done (r.mapError f)) x := rfl
  rw [hb, Program.run_bind]
  exact ⟨rfl, rfl⟩

variable {settings : PassSettings} {now ns name : String} {c : Connector} {w : World}

def afterRead (ns name : String) (w : World) : World :=
  ((getAs .connector ns name Connector.decode).run.run World.answer w).state

theorem cluster_afterRead : (afterRead ns name w).cluster = w.cluster := by
  have hread : Fetches (fun k => k = ⟨.connector, ns, name⟩)
      (getAs .connector ns name Connector.decode) := fetches_getAs rfl
  exact ((Program.Fetches.unchanged (P := fun _ _ => True) hread fun _ _ => trivial).run
    w.within_any).2.1

/-- a Connector that is there is read, unless the fetch of it is disturbed -/
theorem run_read_of_spares {d : Disturbance} (hd : d.Spares (.get .connector ns name))
    (hw : w.Within d) (hc : w.cluster.Holds .connector ns name Connector.decode c) :
    ((getAs .connector ns name Connector.decode).run.run World.answer w).result = .ok (some c) ∧
      (afterRead ns name w).cluster = w.cluster ∧ (afterRead ns name w).Within d := by
  have hread : Fetches (fun k => k = ⟨.connector, ns, name⟩)
      (getAs .connector ns name Connector.decode) := fetches_getAs rfl
  have hspares : ∀ k : ObjectKey, k = ⟨.connector, ns, name⟩ →
      d.Spares (.get k.kind k.ns k.name) := by
    rintro k rfl
    exact hd
  refine ⟨?_, cluster_afterRead, (Program.Ensures.run (Program.ensures_trivial _ _) hw).2.2⟩
  exact (Program.Fetches.result_of_answered hread
    (Program.Fetches.answered hread hspares hw)).trans (value_getAs.2 hc)

theorem holds_of_read {kind : Kind} {decoder : Decoder α} {a : α}
    (ha : ((getAs kind ns name decoder).run.run World.answer w).result = .ok (some a)) :
    w.cluster.Holds kind ns name decoder a := by
  obtain ⟨_, hread, _⟩ := Program.Ensures.run (ensures_getAs_holds .any w.cluster) w.within_any
  rw [ha] at hread
  exact hread a rfl

/-- a Connector that is there is read, unless fetches are disturbed -/
theorem run_read {d : Disturbance} (hd : d.Tame) (hw : w.Within d)
    (hc : w.cluster.Holds .connector ns name Connector.decode c) :
    ((getAs .connector ns name Connector.decode).run.run World.answer w).result = .ok (some c) ∧
      (afterRead ns name w).cluster = w.cluster ∧ (afterRead ns name w).Within d :=
  run_read_of_spares (hd.spares _ _ _) hw hc

theorem written_afterRead : (afterRead ns name w).written = w.written := by
  have hread : Fetches (fun k => k = ⟨.connector, ns, name⟩)
      (getAs .connector ns name Connector.decode) := fetches_getAs rfl
  exact Program.Asks.written_eq hread.asks w

def visitFound (settings : PassSettings) (now ns : String) : Option Connector → Pass Action
  | none => return .awaitChange
  | some c => visit settings now ns c

theorem reconcile_eq (settings : PassSettings) (now : String) : reconcile settings now ns name =
    getAs .connector ns name Connector.decode >>= visitFound settings now ns := rfl

/-- a reconciliation that reads a Connector goes on as the visit of it -/
theorem run_reconcile (settings : PassSettings) (now : String)
    (hc : ((getAs .connector ns name Connector.decode).run.run World.answer w).result =
      .ok (some c)) :
    (reconciled settings now ns name w).result =
        ((visit settings now ns c).run.run World.answer (afterRead ns name w)).result ∧
      (reconciled settings now ns name w).state =
        ((visit settings now ns c).run.run World.answer (afterRead ns name w)).state := by
  unfold reconciled reconcile
  exact run_bind_of_ok hc

def conclude (now ns : String) (c : Connector) (r : Except (Stage × Failure) Condition) :
    Pass Action := do
  always (tryRecord c ns (conditionOf now r))
  ofExcept (resultOf r)

theorem visit_eq (hd : c.metadata.deletionTimestamp = none) : visit settings now ns c =
    always (converge settings now c ns).run >>= conclude now ns c := by
  unfold visit
  rw [hd]
  show always (converge settings now c ns).run >>= _ = _
  congr 1
  funext r
  cases r <;> rfl

theorem run_conclude (r : Except (Stage × Failure) Condition) :
    ((conclude now ns c r).run.run World.answer w).result = resultOf r ∧
      ((conclude now ns c r).run.run World.answer w).state =
        ((tryRecord c ns (conditionOf now r)).run World.answer w).state := by
  obtain ⟨hresult, hstate⟩ := run_always (p := tryRecord c ns (conditionOf now r))
    (h := World.answer) (x := w)
  obtain ⟨hlast, hlaststate⟩ := run_bind_of_ok (f := fun _ => ofExcept (resultOf r)) hresult
  exact ⟨hlast, hlaststate.trans hstate⟩

theorem run_visit (hd : c.metadata.deletionTimestamp = none) :
    ((visit settings now ns c).run.run World.answer w).result =
        resultOf ((converge settings now c ns).run.run World.answer w).result ∧
      ((visit settings now ns c).run.run World.answer w).state =
        ((tryRecord c ns (conditionOf now
          ((converge settings now c ns).run.run World.answer w).result)).run World.answer
            ((converge settings now c ns).run.run World.answer w).state).state := by
  obtain ⟨hresult, hstate⟩ := run_always (p := (converge settings now c ns).run)
    (h := World.answer) (x := w)
  obtain ⟨hlast, hlaststate⟩ := run_bind_of_ok (f := conclude now ns c) hresult
  rw [visit_eq hd, hlast, hlaststate, hstate]
  exact run_conclude _

/-- a Connector that is accepted has its Deployment written and its scaling rule followed -/
theorem untilPruning_of_valid {scaling : Option ScalingRule} (hvalid : c.validate = .ok ())
    (hscaling : c.spec.effectiveScaling = .ok scaling) : untilPruning settings now c ns =
      inStage .deployment (upsertDeployment c ns) >>= fun _ => scale settings now c ns scaling := by
  unfold untilPruning
  rw [hvalid, hscaling]
  rfl

/-- once the Deployment is written, a pass follows the scaling rule -/
theorem run_untilPruning (settings : PassSettings) (now : String)
    {scaling : Option ScalingRule} {applied : Applied} (hvalid : c.validate = .ok ())
    (hscaling : c.spec.effectiveScaling = .ok scaling)
    (hwritten : ((upsertDeployment c ns).run.run World.answer w).result = .ok applied) :
    ((untilPruning settings now c ns).run.run World.answer w).result =
        ((scale settings now c ns scaling).run.run World.answer
          ((upsertDeployment c ns).run.run World.answer w).state).result ∧
      ((untilPruning settings now c ns).run.run World.answer w).state =
        ((scale settings now c ns scaling).run.run World.answer
          ((upsertDeployment c ns).run.run World.answer w).state).state := by
  obtain ⟨hresult, hstate⟩ := run_adapt (p := upsertDeployment c ns)
    (f := fun e => (Stage.deployment, e)) (h := World.answer) (x := w)
  rw [hwritten] at hresult
  rw [untilPruning_of_valid hvalid hscaling, ← hstate]
  exact run_bind_of_ok hresult

theorem run_converge_of_error {e : Stage × Failure}
    (he : ((untilPruning settings now c ns).run.run World.answer w).result = .error e) :
    ((converge settings now c ns).run.run World.answer w).result = .error e ∧
      ((converge settings now c ns).run.run World.answer w).state =
        ((untilPruning settings now c ns).run.run World.answer w).state := by
  rw [converge_eq_untilPruning]
  exact run_bind_of_error he

end Pass
end ConnectorControl
