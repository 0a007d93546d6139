import ConnectorControl.Proofs.Pass.Runs
import ConnectorControl.Proofs.Store.Alike
import ConnectorControl.Proofs.Store.Cuts

/-!
# Faults of status writes

A fault of status writes takes no other call (`Fault.take_filter`).  So as long as a program writes
no status, it does the same whether there are such faults or not (`Asks.run_statusFree`).

A program records last (`Program.RecordsLast`) when a status write is the last thing that it does,
and what comes of it does not show in the program's result.  Such a program ends alike whatever
faults of status writes there are, and leaves the same store but for the status
(`RecordsLast.run_statusFree`).
-/

namespace ConnectorControl

/-! ## stores that differ in one status -/

/-- the same objects, but for the status of the one under a key -/
structure Cluster.SameButStatus (k : ObjectKey) (s t : Cluster) : Prop where
  created : s.created = t.created
  others : ∀ k', k' ≠ k → s.find? k' = t.find? k'
  own : Option.Rel (fun v w => ∀ m, m ≠ "status" → v.find? m = w.find? m) (s.find? k) (t.find? k)

namespace Pass.Recorded

variable {ns name : String} {s s' t' : Cluster}

theorem created_eq (h : Recorded ns name s s') : s'.created = s.created := by
  cases h <;> rfl

theorem members (h : Recorded ns name s s') :
    Option.Rel (fun v w => ∀ m, m ≠ "status" → v.find? m = w.find? m)
      (s.find? ⟨.connector, ns, name⟩) (s'.find? ⟨.connector, ns, name⟩) := by
  cases h with
  | skipped =>
    cases s.find? ⟨.connector, ns, name⟩ with
    | none => exact .none
    | some v => exact .some fun _ _ => rfl
  | patched v status hv =>
    rw [Cluster.find?_set, if_pos rfl, hv]
    refine .some fun m hm => ?_
    have hpatch : (Json.object [("status", status)]).IsTable := Json.isTable_object _
    have hnone : (Json.object [("status", status)]).find? m = none := by
      rw [Json.find?_object (by simp), Entries.find?_cons, if_neg hm]
      rfl
    rw [Json.find?_merge v hpatch, hnone]
    rfl

theorem sameButStatus (hs : Recorded ns name s s') (ht : Recorded ns name s t') :
    s'.SameButStatus ⟨.connector, ns, name⟩ t' where
  created := hs.created_eq.trans ht.created_eq.symm
  others k' hk := (hs.find?_of_ne hk).trans (ht.find?_of_ne hk).symm
  own := by
    have hs := hs.members
    have ht := ht.members
    generalize s.find? ⟨.connector, ns, name⟩ = x at hs ht
    generalize s'.find? ⟨.connector, ns, name⟩ = y at hs ⊢
    generalize t'.find? ⟨.connector, ns, name⟩ = z at ht ⊢
    cases hs with
    | none =>
      cases ht
      exact .none
    | some hv =>
      cases ht with
      | some hw => exact .some fun m hm => (hv m hm).symm.trans (hw m hm)

end Pass.Recorded

/-! ## faults -/

namespace Fault

def onStatus (f : Fault) : Bool := f.verb = .patchStatus && f.kind = .connector

theorem concerns_of_onStatus {f : Fault} (h : f.onStatus = true) {c : Call}
    (hc : c.verb ≠ .patchStatus) : f.concerns c = false := by
  unfold onStatus at h
  simp only [Bool.and_eq_true, decide_eq_true_eq] at h
  unfold concerns
  rw [h.1, decide_eq_false (Ne.symm hc), Bool.false_and, Bool.false_and]

/-- faults of status writes are passed by and kept by what is no status write -/
theorem take_filter {c : Call} (hc : c.verb ≠ .patchStatus) (fs : List Fault) :
    take c (fs.filter fun f => !f.onStatus) =
      ((take c fs).1, (take c fs).2.filter fun f => !f.onStatus) := by
  induction fs with
  | nil => rfl
  | cons f fs ih =>
    cases hf : f.onStatus with
    | true =>
      have hpass : take c (f :: fs) = ((take c fs).1, f :: (take c fs).2) := by
        rw [take, concerns_of_onStatus hf hc]
        rfl
      rw [List.filter_cons_of_neg (by rw [hf]; decide), ih, hpass]
      dsimp only
      rw [List.filter_cons_of_neg (by rw [hf]; decide)]
    | false =>
      have hkeep : ∀ (g : Fault) (gs : List Fault), g.onStatus = f.onStatus →
          g :: gs.filter (fun f => !f.onStatus) = (g :: gs).filter fun f => !f.onStatus :=
        fun g gs hg => (List.filter_cons_of_pos (by rw [hg, hf]; rfl)).symm
      rw [← hkeep f fs rfl, take, take, ih]
      split
      · exact congrArg (Prod.mk _) (hkeep f _ rfl)
      · split
        · exact congrArg (Prod.mk _) (hkeep { f with skip := f.skip - 1 } _ rfl)
        · exact congrArg (Prod.mk _) (hkeep { f with times := f.times.map (· - 1) } _ rfl)

end Fault

namespace World

def statusFree (w : World) : World := { w with faults := w.faults.filter fun f => !f.onStatus }

variable {c : Call} {v w : World}

theorem answer_statusFree (hc : c.verb ≠ .patchStatus) (w : World) :
    answer c w.statusFree = ((answer c w).1, (answer c w).2.statusFree) := by
  have htake := Fault.take_filter hc w.faults
  unfold answer
  rw [show w.statusFree.faults = w.faults.filter fun f => !f.onStatus from rfl, htake]
  rcases Fault.take c w.faults with ⟨_ | f, faults⟩
  · rfl
  · dsimp only
    cases f.failure with
    | some e => rfl
    | none => cases Fault.hidden c <;> rfl

theorem objectWrites_congr (h : v.written = w.written) : v.objectWrites = w.objectWrites := by
  unfold objectWrites writes
  rw [h]

theorem objectWrites_answer_patchStatus (kind : Kind) (ns name : String) (body : Json)
    (w : World) : (answer (.patchStatus kind ns name body) w).2.objectWrites = w.objectWrites := by
  have hstatus : ∀ x ∈ Cluster.write? (.patchStatus kind ns name body) w.cluster,
      x.verb = .patchStatus := by
    intro x hx
    obtain ⟨rfl, _⟩ := Cluster.write_of_write? hx
    rfl
  have hpass : ∀ faults, (passOn (.patchStatus kind ns name body)
      { w with faults := faults }).2.objectWrites = w.objectWrites := by
    intro faults
    refine (objectWrites_of_written (w := w) rfl).trans ?_
    rw [List.filter_eq_nil_iff.2 fun x hx => ?_, List.append_nil]
    simp [hstatus x (Option.mem_toList.1 (List.mem_reverse.1 hx))]
  unfold answer
  split
  · exact hpass _
  · split
    · rfl
    · rfl
    · exact hpass _

theorem answer_congr_statusFree (hc : c.verb ≠ .patchStatus) (h : v.statusFree = w.statusFree) :
    (answer c v).1 = (answer c w).1 ∧ (answer c v).2.statusFree = (answer c w).2.statusFree := by
  have hv := answer_statusFree hc v
  rw [h, answer_statusFree hc w] at hv
  obtain ⟨hreply, hstate⟩ := Prod.mk.inj hv
  exact ⟨hreply.symm, hstate.symm⟩

end World

/-! ## programs -/

namespace Program

variable {α β : Type} {p : Program α} {v w : World} {ns name : String}

/-- a program that writes no status does the same without faults of status writes -/
theorem Asks.run_statusFree (h : p.Asks (·.verb ≠ .patchStatus))
    (hw : v.statusFree = w.statusFree) :
    (p.run World.answer v).result = (p.run World.answer w).result ∧
      (p.run World.answer v).rejected = (p.run World.answer w).rejected ∧
        (p.run World.answer v).state.statusFree = (p.run World.answer w).state.statusFree := by
  induction p generalizing v w with
  | done a => exact ⟨rfl, rfl, hw⟩
  | ask c next ih =>
    obtain ⟨hreply, hstate⟩ := World.answer_congr_statusFree h.1 hw
    have hrest := ih (World.answer c v).1 (h.2 _) hstate
    rw [rejected_ask, rejected_ask]
    simp only [Program.run]
    rw [hreply] at hrest ⊢
    exact hrest
  | rejectSecret t next ih =>
    obtain ⟨hresult, hrejected, hstate⟩ := ih h hw
    refine ⟨hresult, ?_, hstate⟩
    rw [rejected_rejectSecret, rejected_rejectSecret, hrejected]

/-- The only status that is written is the one of a Connector, as the last thing of all, and it does
not show in the result whether that succeeds. -/
def RecordsLast (ns name : String) : Program α → Prop
  | done _ => True
  | ask c next =>
    (c.verb ≠ .patchStatus ∧ ∀ r, (next r).RecordsLast ns name) ∨
      (∃ body, c = .patchStatus .connector ns name body) ∧ ∃ a, ∀ r, next r = done a
  | rejectSecret _ next => next.RecordsLast ns name

theorem recordsLast_bind {f : α → Program β} (hp : p.Asks (·.verb ≠ .patchStatus))
    (hf : ∀ a, (f a).RecordsLast ns name) : (p.bind f).RecordsLast ns name := by
  induction p with
  | done a => exact hf a
  | ask c next ih => exact .inl ⟨hp.1, fun r => ih r (hp.2 r)⟩
  | rejectSecret t next ih => exact ih hp

theorem run_ask_done {σ : Type} {h : Handler σ} {c : Call} {next : c.Reply → Program α} {a : α}
    (hnext : ∀ r, next r = done a) (x : σ) :
    (ask c next).run h x = ⟨a, [.call c (h c x).1], (h c x).2⟩ := by
  simp only [run, hnext]

/-- Programs that record last do not depend on faults of status writes: they end alike, write the
same besides the status, and record, or do not record, in one and the same store. -/
theorem RecordsLast.run_statusFree (h : p.RecordsLast ns name)
    (hw : v.statusFree = w.statusFree) :
    (p.run World.answer v).result = (p.run World.answer w).result ∧
      (p.run World.answer v).rejected = (p.run World.answer w).rejected ∧
      (p.run World.answer v).state.objectWrites = (p.run World.answer w).state.objectWrites ∧
      (p.run World.answer v).state.cluster.SameButStatus ⟨.connector, ns, name⟩
        (p.run World.answer w).state.cluster := by
  induction p generalizing v w with
  | done a =>
    have hcluster : v.cluster = w.cluster := congrArg (·.cluster) hw
    refine ⟨rfl, rfl, World.objectWrites_congr (congrArg (·.written) hw), ?_⟩
    show v.cluster.SameButStatus _ w.cluster
    rw [hcluster]
    exact Pass.Recorded.skipped.sameButStatus .skipped
  | ask c next ih =>
    rcases h with ⟨hc, hnext⟩ | ⟨⟨body, rfl⟩, a, hnext⟩
    · obtain ⟨hreply, hstate⟩ := World.answer_congr_statusFree hc hw
      have hrest := ih (World.answer c v).1 (hnext _) hstate
      rw [rejected_ask, rejected_ask]
      simp only [Program.run]
      rw [hreply] at hrest ⊢
      exact hrest
    · have hcluster : v.cluster = w.cluster := congrArg (·.cluster) hw
      have hrecorded : ∀ x : World, Pass.Recorded ns name x.cluster
          (World.answer (.patchStatus .connector ns name body) x).2.cluster := fun x =>
        .of_replies (World.replies_answer x.within_any _).1
      rw [run_ask_done hnext, run_ask_done hnext]
      refine ⟨rfl, rfl, ?_, ?_⟩
      · rw [World.objectWrites_answer_patchStatus, World.objectWrites_answer_patchStatus]
        exact World.objectWrites_congr (congrArg (·.written) hw)
      · have hv := hrecorded v
        rw [hcluster] at hv
        exact hv.sameButStatus (hrecorded w)
  | rejectSecret t next ih =>
    obtain ⟨hresult, hrejected, hrest⟩ := ih h hw
    refine ⟨hresult, ?_, hrest⟩
    rw [rejected_rejectSecret, rejected_rejectSecret, hrejected]

theorem run_bind_statusFree {f : α → Program β} (hp : p.Asks (·.verb ≠ .patchStatus))
    (hf : (f (p.run World.answer w).result).RecordsLast ns name)
    (hw : v.statusFree = w.statusFree) :
    ((p.bind f).run World.answer v).result = ((p.bind f).run World.answer w).result ∧
      ((p.bind f).run World.answer v).rejected = ((p.bind f).run World.answer w).rejected ∧
      ((p.bind f).run World.answer v).state.objectWrites =
        ((p.bind f).run World.answer w).state.objectWrites ∧
      ((p.bind f).run World.answer v).state.cluster.SameButStatus ⟨.connector, ns, name⟩
        ((p.bind f).run World.answer w).state.cluster := by
  obtain ⟨hresult, hrejected, hstate⟩ := hp.run_statusFree hw
  obtain ⟨hend, hnoted, hlast⟩ := hf.run_statusFree hstate
  rw [rejected_bind, rejected_bind, run_bind, run_bind]
  dsimp only
  rw [hresult, hrejected, hnoted]
  exact ⟨hend, rfl, hlast⟩

end Program

/-! ## passes -/

theorem Call.OfPass.verb_ne_patchStatus {c : Call} (h : c.OfPass) : c.verb ≠ .patchStatus := by
  cases h with
  | fetches h =>
    rw [h]
    exact nofun
  | upserts h => rcases h.verb with h | h | h <;> rw [h] <;> exact nofun
  | prunes h => rcases h.verb with h | h <;> rw [h] <;> exact nofun

namespace Pass

variable {α : Type} {settings : PassSettings} {now ns name : String} {c : Connector} {v w : World}

/-- recording a condition and ending with a result that does not depend on it -/
theorem recordsLast_tryRecord {cond : Condition} {f : Unit → Pass α} {r : Except Failure α}
    (hf : ∀ u, (f u).run = .done r) :
    ((always (tryRecord c ns cond) >>= f).run).RecordsLast ns c.name := by
  cases hafter : c.statusAfter cond with
  | none =>
    rw [tryRecord_of_none hafter]
    show (f ()).run.RecordsLast ns c.name
    rw [hf]
    trivial
  | some status =>
    rw [tryRecord_of_some hafter]
    exact .inr ⟨⟨_, rfl⟩, r, fun _ => hf ()⟩

theorem recordsLast_visit : (visit settings now ns c).run.RecordsLast ns c.name := by
  cases hd : c.metadata.deletionTimestamp with
  | some time =>
    have hterminating : visit settings now ns c =
        always (tryRecord c ns (.terminating now)) >>= fun _ => pure .awaitChange := by
      unfold visit
      rw [hd]
      rfl
    rw [hterminating]
    exact recordsLast_tryRecord fun _ => rfl
  | none =>
    rw [visit_eq hd]
    refine Program.recordsLast_bind (asks_always (asks_converge_calls.mono fun _ h =>
      h.verb_ne_patchStatus)) fun r => ?_
    cases r with
    | ok r => exact recordsLast_tryRecord fun _ => rfl
    | error e => trivial

theorem recordsLast_visitFound {own : String} (r : Except Failure (Option Connector))
    (hr : ∀ c, r = .ok (some c) → c.name = own) :
    Program.RecordsLast ns own
      (ExceptT.bindCont (m := Program) (visitFound settings now ns) r) := by
  cases r with
  | error e => trivial
  | ok found =>
    cases found with
    | none => trivial
    | some c =>
      obtain rfl := hr c rfl
      exact recordsLast_visit

/-- what was read says which Connector is recorded; in a store in order it is the one asked for -/
theorem recorded_name {r : Except Failure (Option Connector)}
    (hr : ∀ c, r = .ok (some c) → w.cluster.Holds .connector ns name Connector.decode c) :
    ∃ own, (w.cluster.Kept → own = name) ∧ ∀ c, r = .ok (some c) → c.name = own := by
  rcases r with e | _ | c
  · exact ⟨name, fun _ => rfl, fun _ hc => nomatch hc⟩
  · exact ⟨name, fun _ => rfl, fun _ hc => nomatch hc⟩
  · refine ⟨c.name, fun hs => (hs.describes (hr c rfl)).connector_name, fun c' hc => ?_⟩
    obtain rfl := Option.some.inj (Except.ok.inj hc)
    rfl

/-- A reconciliation does not depend on faults of status writes: it ends alike, and writes and
leaves the same but for the status of the Connector. -/
theorem reconciled_statusFree (settings : PassSettings) (now ns name : String)
    (hw : v.statusFree = w.statusFree) :
    (reconciled settings now ns name v).result = (reconciled settings now ns name w).result ∧
      (reconciled settings now ns name v).rejected = (reconciled settings now ns name w).rejected ∧
      (reconciled settings now ns name v).state.objectWrites =
        (reconciled settings now ns name w).state.objectWrites ∧
      ∃ own, (w.cluster.Kept → own = name) ∧
        (reconciled settings now ns name v).state.cluster.SameButStatus ⟨.connector, ns, own⟩
          (reconciled settings now ns name w).state.cluster := by
  have hread : Fetches (fun k => k = ⟨.connector, ns, name⟩)
      (getAs .connector ns name Connector.decode) := fetches_getAs rfl
  have hasks : (getAs .connector ns name Connector.decode).run.Asks (·.verb ≠ .patchStatus) :=
    hread.asks.mono fun call hget => by rw [hget]; exact nofun
  obtain ⟨own, hkept, hown⟩ := recorded_name fun c hc => holds_of_read (w := w) hc
  obtain ⟨hresult, hrejected, hwrites, hclusters⟩ :=
    Program.run_bind_statusFree hasks (recordsLast_visitFound _ hown) hw
  exact ⟨hresult, hrejected, hwrites, own, hkept, hclusters⟩

end Pass
end ConnectorControl
