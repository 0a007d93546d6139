import ConnectorControl.Proofs.Pass.Planned
import ConnectorControl.Proofs.Store.Asks

/-!
# The calls of each part of a pass

An upsert asks about its own object only (`Call.Upserts`), recording a condition patches the status
of the Connector only (`Call.Records`), pruning lists and deletes derived objects (`Call.Prunes`),
what comes before it all only fetches, and nothing but pruning deletes (`asks_untilPruning`).  These
are all the calls of a reconciliation (`asks_reconcile`).
-/

namespace ConnectorControl

def Call.key (c : Call) : ObjectKey := ⟨c.kind, c.ns, c.name⟩

structure Call.Upserts (k : ObjectKey) (c : Call) : Prop where
  key : c.key = k
  verb : c.verb = .create ∨ c.verb = .get ∨ c.verb = .patch

/-- a call that records a condition of the Connector under a key -/
structure Call.Records (k : ObjectKey) (c : Call) : Prop where
  key : c.key = k
  verb : c.verb = .patchStatus

structure Call.Prunes (c : Call) : Prop where
  kind : ∃ kind : DerivedKind, c.kind = kind
  verb : c.verb = .list ∨ c.verb = .delete

/-- a call that a pass may make before it is recorded -/
inductive Call.OfPass (c : Call) : Prop
  | fetches (h : c.verb = .get)
  | upserts {kind : DerivedKind} {ns name : String} (h : c.Upserts ⟨kind, ns, name⟩)
  | prunes (h : c.Prunes)

theorem Call.OfPass.derived {c : Call} (h : c.OfPass) (hget : c.verb ≠ .get) :
    ∃ kind : DerivedKind, c.kind = kind := by
  cases h with
  | fetches h => exact absurd h hget
  | upserts h => exact ⟨_, congrArg ObjectKey.kind h.key⟩
  | prunes h => exact h.kind

namespace Pass

variable {α : Type} {kind : DerivedKind} {ns name : String} {o : Object} {c : Connector}
  {settings : PassSettings} {now : String}

theorem asks_upsert (hn : o.metadata.name = some name) :
    Asks (Call.Upserts ⟨kind, ns, name⟩) (upsert kind ns o) := by
  have hcreate : Call.Upserts ⟨kind, ns, name⟩ (.create kind ns o.stripNulls) := by
    refine ⟨?_, .inl rfl⟩
    show (⟨kind, ns, o.metadata.name.getD ""⟩ : ObjectKey) = _
    rw [hn]
    rfl
  have hover : Asks (Call.Upserts ⟨kind, ns, name⟩) (patchOver kind ns name o) := by
    refine asks_bind (asks_call ⟨rfl, .inr (.inl rfl)⟩) fun found => ?_
    cases found with
    | none => exact asks_throw
    | some _ => exact asks_bind (asks_call ⟨rfl, .inr (.inr rfl)⟩) fun _ => asks_pure
  unfold upsert
  rw [hn]
  refine asks_bind (asks_always (p := Program.attempt _) ⟨hcreate, fun _ => trivial⟩) fun r => ?_
  split
  · exact asks_pure
  · exact hover
  · exact asks_throw

theorem asks_upsertAll (xs : List Draft) :
    Asks (fun call => ∃ x ∈ xs, call.Upserts (x.key ns)) (upsertAll c ns xs) := by
  induction xs with
  | nil => exact asks_pure
  | cons x xs ih =>
    have hx : Asks (Call.Upserts (x.key ns)) (upsert x.kind ns (x.toObject c)) :=
      asks_upsert (show (x.toObject c).metadata.name = some x.name from rfl)
    refine asks_bind (hx.mono fun call h => ⟨x, List.mem_cons_self, h⟩) fun _ => ?_
    exact ih.mono fun call ⟨y, hy, h⟩ => ⟨y, List.mem_cons_of_mem _ hy, h⟩

theorem asks_tryRecord (cond : Condition) :
    (tryRecord c ns cond).Asks (Call.Records ⟨.connector, ns, c.name⟩) := by
  unfold tryRecord record
  refine Program.asks_bind ?_ fun _ => trivial
  split
  · exact trivial
  · exact asks_bind (asks_call ⟨rfl, rfl⟩) fun _ => asks_pure

theorem asks_deleteStale {desired : List (DerivedKind × String)} {uid : String}
    (os : List Object) : Asks Call.Prunes (deleteStale desired uid ns kind os) := by
  induction os with
  | nil => exact asks_pure
  | cons o os ih =>
    unfold deleteStale
    split
    · exact asks_bind (asks_call ⟨⟨kind, rfl⟩, .inr rfl⟩) fun _ =>
        asks_bind ih fun _ => asks_pure
    · exact ih

theorem asks_prune (desired : List (DerivedKind × String)) :
    Asks Call.Prunes (prune c ns desired) := by
  unfold prune
  cases c.metadata.uid with
  | none => exact asks_pure
  | some uid =>
    dsimp only
    generalize Derived.prunable = kinds
    induction kinds with
    | nil => exact asks_pure
    | cons kind kinds ih =>
      unfold pruneKinds
      exact asks_bind (asks_call ⟨⟨kind, rfl⟩, .inl rfl⟩) fun found =>
        asks_bind (asks_deleteStale found) fun _ => asks_bind ih fun _ => asks_pure

theorem asks_untilPruning_calls :
    Asks (fun call => call.verb = .get ∨ ∃ (kind : DerivedKind) (name : String),
      call.Upserts ⟨kind, ns, name⟩) (untilPruning settings now c ns) := by
  have hdeployment : Asks (fun call => call.verb = .get ∨ ∃ (kind : DerivedKind) (name : String),
      call.Upserts ⟨kind, ns, name⟩) (upsertDeployment c ns) := by
    rw [upsertDeployment_eq]
    refine asks_bind (fetches_requireMounts.asks.mono fun _ => .inl) fun _ => ?_
    have hname : ((Draft.deployment c).toObject c).metadata.name = some c.name := rfl
    exact (asks_upsert hname).mono fun _ h => .inr ⟨_, _, h⟩
  refine asks_bind (asks_adapt asks_ofExcept) fun _ => asks_bind (asks_adapt asks_ofExcept)
    fun scaling => asks_bind (asks_adapt hdeployment) fun _ => ?_
  rw [scale_eq]
  refine asks_bind (fetches_plan.asks.mono fun _ => .inl) fun p => ?_
  refine asks_bind (asks_adapt ?_) fun _ => asks_pure
  exact (asks_upsertAll p.drafts).mono fun call ⟨x, _, h⟩ => .inr ⟨_, _, h⟩

/-- nothing is deleted before pruning -/
theorem asks_untilPruning : Asks (·.verb ≠ .delete) (untilPruning settings now c ns) := by
  refine asks_untilPruning_calls.mono fun call hcall => ?_
  rcases hcall with h | ⟨kind, name, h⟩
  · rw [h]
    exact nofun
  · rcases h.verb with h | h | h <;> rw [h] <;> exact nofun

theorem asks_converge_calls : Asks Call.OfPass (converge settings now c ns) := by
  rw [converge_eq_untilPruning]
  refine asks_bind (asks_untilPruning_calls.mono fun call hcall => ?_) fun outcome => ?_
  · rcases hcall with h | ⟨kind, name, h⟩
    · exact .fetches h
    · exact .upserts h
  · unfold finish
    split
    · exact asks_bind (asks_adapt ((asks_prune _).mono fun _ => .prunes)) fun _ => asks_pure
    · exact asks_pure

/-- the calls of a reconciliation -/
theorem asks_reconcile :
    Asks (fun call => call.OfPass ∨ ∃ name, call.Records ⟨.connector, ns, name⟩)
      (reconcile settings now ns name) := by
  have hrecord : ∀ (c : Connector) cond, (tryRecord c ns cond).Asks
      fun call => call.OfPass ∨ ∃ name, call.Records ⟨.connector, ns, name⟩ := fun c cond =>
    (asks_tryRecord cond).mono fun _ h => .inr ⟨_, h⟩
  have hread : Fetches (fun k => k = ⟨.connector, ns, name⟩)
      (getAs .connector ns name Connector.decode) := fetches_getAs rfl
  refine asks_bind (hread.asks.mono fun _ h => .inl (.fetches h)) fun found => ?_
  cases found with
  | none => exact asks_pure
  | some c =>
    show Asks _ (visit settings now ns c)
    unfold visit
    split
    · exact asks_bind (asks_always (hrecord c _)) fun _ => asks_pure
    · refine asks_bind (asks_always (asks_converge_calls.mono fun _ => .inl)) fun r => ?_
      cases r with
      | ok cond => exact asks_bind (asks_always (hrecord c cond)) fun _ => asks_pure
      | error e => exact asks_bind (asks_always (hrecord c _)) fun _ => asks_throw

end Pass
end ConnectorControl
