import ConnectorControl.Proofs.Connector.Reading
import ConnectorControl.Proofs.Pass.Settling
import ConnectorControl.Proofs.Pass.Visit

/-!
# A reconciliation after a reconciliation

A second reconciliation right after a first one comes to the same and changes nothing
(`reconcile_again`), whatever the first one came to:

* `repeats_tryRecord`   a condition that was recorded is not recorded again, whatever the time, and
                        as long as no generation is observed its patch is what is there already;
* `repeats_visit`       a visit reads the status that the one before it has left;
* `repeats_reconcile`   the same from the reading of the Connector on.

This is about stores in order (`Cluster.Kept`): what is put, removed and reconciled keeps them so.
-/

namespace ConnectorControl

/-! ## stores in order -/

theorem Cluster.there_of_write? {call : Call} {s : Cluster} {x : Write}
    (h : write? call s = some x) (hx : x.verb ≠ .create) :
    (s.find? ⟨x.kind, x.ns, x.name⟩).isSome := by
  simp only [write?, Option.ite_none_right_eq_some, Option.some.injEq] at h
  obtain ⟨hthere, rfl⟩ := h
  have hx : call.verb ≠ .create := hx
  cases hv : call.verb <;> simp_all [Call.write, contains_eq]

/-- where an object belongs by the name and the namespace that it states -/
def ObjectKey.stated? (kind : Kind) (v : Json) : Option ObjectKey :=
  ((v.get "metadata").get "name").string?.map fun name =>
    ⟨kind, ((v.get "metadata").get "namespace").string?.getD "default", name⟩

namespace Cluster

/-- The members of all objects are in key order, and Connectors are where they belong, which is
where they are put (`Kept.put`). -/
structure Kept (s : Cluster) : Prop where
  canonical : s.Canonical
  filed : ∀ k v, k.kind = .connector → s.find? k = some v → ObjectKey.stated? k.kind v = some k

variable {s s' : Cluster} {k : ObjectKey} {v : Json}

theorem kept_empty : empty.Kept := ⟨nofun, nofun⟩

theorem put?_eq {kind : Kind} : s.put? kind v = (ObjectKey.stated? kind v).map (s.set · v) := by
  unfold put? ObjectKey.stated?
  rw [Option.map_map]
  rfl

theorem Kept.put (h : s.Kept) {kind : Kind} (hv : v.Canonical) (hs : s.put? kind v = some s') :
    s'.Kept := by
  rw [put?_eq] at hs
  obtain ⟨k, hk, rfl⟩ := Option.map_eq_some_iff.1 hs
  refine ⟨h.canonical.set hv, fun k' v' hkind hv' => ?_⟩
  rw [find?_set] at hv'
  split at hv'
  next he =>
    obtain rfl := Option.some.inj hv'
    subst he
    have hkind' : k'.kind = kind := by
      obtain ⟨_, _, rfl⟩ := Option.map_eq_some_iff.1 hk
      rfl
    rw [hkind']
    exact hk
  · exact h.filed k' v' hkind hv'

theorem Kept.changesOnly (h : s.Kept)
    (hs : s.ChangesOnly (fun k => ∃ kind : DerivedKind, k.kind = kind) s') : s'.Kept := by
  refine ⟨hs.canonical, fun k v hkind hv => h.filed k v hkind ?_⟩
  rw [← hs.same k, hv]
  rintro ⟨kind, hk⟩
  rw [hkind] at hk
  cases hk

variable {ns name : String} {c : Connector}

theorem Kept.describes (h : s.Kept) (hc : s.Holds .connector ns name Connector.decode c) :
    (Identity.mk ns name c.metadata.uid).Describes c := by
  obtain ⟨v, o, hv, ho, hc⟩ := hc
  have ho := decode_of_readObject ho
  obtain ⟨ms, _, rfl, _, _⟩ := Object.decode_eq_ok ho
  obtain ⟨name', hname, hkey⟩ := Option.map_eq_some_iff.1 (h.filed _ _ rfl hv)
  obtain ⟨-, hns, rfl⟩ := ObjectKey.mk.inj hkey
  have hstr : ((Json.obj ms).get "metadata").get "name" = .str name' := by
    generalize ((Json.obj ms).get "metadata").get "name" = x at hname
    cases x with
    | str n => exact congrArg Json.str (Option.some.inj hname)
    | _ => cases hname
  obtain ⟨hcname, hcns⟩ := Connector.names_of_decodeAs (h.canonical _ _ hv) ho hc hstr
  refine ⟨hcname, fun n hn => ?_, rfl⟩
  rw [hcns n hn] at hns
  exact hns

def patchedStatus (v : Json) (status : Status) : Json :=
  v.merge (.object [("status", status.toJson)])

theorem patchedStatus_again (hv : v.Canonical) (status : Status) :
    patchedStatus (patchedStatus v status) status = patchedStatus v status :=
  Json.merge_merge hv (Json.canonical_object (List.forall_mem_singleton.2 Status.canonical_toJson))

theorem Kept.recorded (h : s.Kept) (hv : s.find? k = some v) (status : Status) :
    (s.set k (patchedStatus v status)).Kept := by
  have hpatch : (Json.object [("status", status.toJson)]).Canonical :=
    Json.canonical_object (List.forall_mem_singleton.2 Status.canonical_toJson)
  have hmeta : (patchedStatus v status).get "metadata" = v.get "metadata" := by
    unfold patchedStatus
    rw [Json.get_eq, Json.find?_merge v (Json.isTable_object _)]
    rfl
  refine ⟨h.canonical.set (Json.canonical_merge (h.canonical _ v hv) hpatch),
    fun k' v' hkind hv' => ?_⟩
  rw [find?_set] at hv'
  split at hv'
  next he =>
    obtain rfl := Option.some.inj hv'
    subst he
    have hfiled := h.filed _ v hkind hv
    unfold ObjectKey.stated? at hfiled ⊢
    rw [hmeta]
    exact hfiled
  · exact h.filed k' v' hkind hv'

/-- A Connector is read back with the conditions that are patched in, and with the generation if it
is set.  Else the one that was in the status is left. -/
theorem Canonical.holds_recorded (h : s.Canonical)
    (hc : s.Holds .connector ns name Connector.decode c)
    (hv : s.find? ⟨.connector, ns, name⟩ = some v) {status : Status} (hs : status.conditions ≠ []) :
    ∃ left, (s.set ⟨.connector, ns, name⟩ (patchedStatus v status)).Holds .connector ns name
      Connector.decode
        { c with status := some ⟨status.conditions, status.observedGeneration <|> left⟩ } ∧
      (left = none ↔ (v.get "status").get "observedGeneration" = .null) := by
  obtain ⟨w, o, hw, ho, hc⟩ := hc
  obtain rfl := Option.some.inj (hv.symm.trans hw)
  obtain ⟨o', left, ho', hc', hleft⟩ :=
    Connector.decode_merge_status (h _ v hv) (decode_of_readObject ho) hc hs
  refine ⟨left, ⟨patchedStatus v status, o', ?_, ?_, hc'⟩, hleft⟩
  · rw [find?_set, if_pos rfl]
  · unfold readObject patchedStatus
    rw [ho']

end Cluster

namespace Pass

variable {α : Type} {s s' : Cluster} {ns name : String} {c : Connector} {settings : PassSettings}
  {now : String}

/-- The program comes to a value and leaves the store as it is.  If the Connector has a generation,
nothing is written on the way but patches of derived objects. -/
def Repeats (c : Connector) (p : Program α) (a : α) (s : Cluster) : Prop :=
  Program.Ensures .none (fun call t => c.metadata.generation.isSome → call.Gentle s t) p s
    fun a' s' => a' = a ∧ s' = s

/-! ## conditions -/

section
variable {cond cond' : Condition} {status : Status} {P : Call → Cluster → Prop}
  {Q : Unit → Cluster → Prop} {v : Json}

theorem statusAfter_eq_none : c.statusAfter cond = none ↔
    History.repeats (c.status.getD default).conditions cond = true ∧
      (c.status.getD default).observedGeneration = c.metadata.generation := by
  show (if (History.repeats (c.status.getD default).conditions cond &&
    decide ((c.status.getD default).observedGeneration = c.metadata.generation)) = true then none
    else some _) = none ↔ _
  simp

theorem statusAfter_congr (h : cond.sameObservation cond' = true) :
    c.statusAfter cond = none ↔ c.statusAfter cond' = none := by
  rw [statusAfter_eq_none, statusAfter_eq_none, History.repeats_congr h]

theorem eq_of_statusAfter (h : c.statusAfter cond = some status) : status =
    ⟨History.push (c.status.getD default).conditions cond, c.metadata.generation⟩ := by
  change (if (History.repeats (c.status.getD default).conditions cond &&
    decide ((c.status.getD default).observedGeneration = c.metadata.generation)) = true then none
    else some _) = some status at h
  split at h
  · cases h
  · exact (Option.some.inj h).symm

/-- without faults, the status of a Connector that is there is patched -/
theorem ensures_patchStatus_of_find? {name : String} {Q : Unit → Cluster → Prop}
    {E : Failure → Cluster → Prop} (hv : s.find? ⟨.connector, ns, name⟩ = some v)
    (hP : P (.patchStatus .connector ns name (statusPatch status)) s)
    (hQ : Q () (s.set ⟨.connector, ns, name⟩ (Cluster.patchedStatus v status))) :
    Ensures .none P (patchStatus .connector ns name (statusPatch status)) s Q E := by
  refine ensures_call.2 ⟨hP, fun r s' hr => ?_⟩
  rcases hr.of_patchStatus with ⟨_, _, _, hf⟩ | ⟨hno, _⟩ | ⟨w, hw, rfl, rfl⟩
  · exact hf.elim
  · rw [hv] at hno
    cases hno
  · obtain rfl := Option.some.inj (hv.symm.trans hw)
    exact hQ

theorem tryRecord_of_none (h : c.statusAfter cond = none) : tryRecord c ns cond = .done () := by
  unfold tryRecord record
  rw [h]
  rfl

theorem tryRecord_of_some (h : c.statusAfter cond = some status) : tryRecord c ns cond =
    .ask (.patchStatus .connector ns c.name (statusPatch status)) fun _ => .done () := by
  unfold tryRecord record
  rw [h]
  refine congrArg (Program.ask _) (funext fun r => ?_)
  cases r <;> rfl

theorem ensures_tryRecord_of_some (h : c.statusAfter cond = some status)
    (hv : s.find? ⟨.connector, ns, c.name⟩ = some v)
    (hP : P (.patchStatus .connector ns c.name (statusPatch status)) s)
    (hQ : Q () (s.set ⟨.connector, ns, c.name⟩ (Cluster.patchedStatus v status))) :
    Program.Ensures .none P (tryRecord c ns cond) s Q := by
  refine ensures_tryRecord_iff.2 (ensures_record (fun hnone => ?_) fun status' hsome => ?_)
  · rw [h] at hnone
    cases hnone
  · obtain rfl := Option.some.inj (h.symm.trans hsome)
    exact ensures_patchStatus_of_find? hv hP hQ

/-- What is observed repeats the latest condition.  Without a generation it may be recorded again,
and then the patch is the one that was made. -/
theorem repeats_recorded {cs : List Condition} {n : Option Int64} (hv : v.Canonical)
    (hrepeats : History.repeats cs cond = true) :
    Repeats c (tryRecord { c with status := some ⟨cs, c.metadata.generation <|> n⟩ } ns cond) ()
      (s.set ⟨.connector, ns, c.name⟩
        (Cluster.patchedStatus v ⟨cs, c.metadata.generation⟩)) := by
  have hset : ∀ w, (s.set ⟨.connector, ns, c.name⟩ w).find? ⟨.connector, ns, c.name⟩ = some w :=
    fun w => (Cluster.find?_set _ _ _ _).trans (if_pos rfl)
  cases hg : c.metadata.generation with
  | some g =>
    have hafter : Connector.statusAfter { c with status := some ⟨cs, some g⟩ } cond = none :=
      statusAfter_eq_none.2 ⟨hrepeats, hg.symm⟩
    rw [show (some g <|> n) = some g from rfl, tryRecord_of_none hafter]
    exact ⟨rfl, rfl⟩
  | none =>
    cases hafter : Connector.statusAfter { c with status := some ⟨cs, n⟩ } cond with
    | none =>
      rw [show (none <|> n) = n from rfl, tryRecord_of_none hafter]
      exact ⟨rfl, rfl⟩
    | some status =>
      have hstatus : status = ⟨cs, none⟩ := by
        rw [eq_of_statusAfter hafter, ← hg]
        exact congrArg (Status.mk · _) (History.push_of_repeats hrepeats)
      rw [show (none <|> n) = n from rfl]
      refine ensures_tryRecord_of_some hafter (hset _) (fun hsome => ?_) ⟨rfl, ?_⟩
      · rw [hg] at hsome
        cases hsome
      · rw [hstatus, Cluster.patchedStatus_again hv]
        exact Cluster.set_eq_self (hset _)

theorem repeats_tryRecord (hs : s.Kept) (hc : s.Holds .connector ns name Connector.decode c)
    (cond : Condition) :
    Program.Ensures .none (fun _ _ => True) (tryRecord c ns cond) s fun _ s' => s'.Kept ∧
      (∀ k, k.kind ≠ .connector → s'.find? k = s.find? k) ∧
      ∃ x, s'.Holds .connector ns name Connector.decode { c with status := x } ∧
        ∀ cond', cond.sameObservation cond' = true →
          Repeats c (tryRecord { c with status := x } ns cond') () s' := by
  obtain rfl : c.name = name := (hs.describes hc).connector_name
  cases hafter : c.statusAfter cond with
  | none =>
    rw [tryRecord_of_none hafter]
    refine ⟨hs, fun _ _ => rfl, c.status, hc, fun cond' hsame => ?_⟩
    have hafter' : c.statusAfter cond' = none := (statusAfter_congr hsame).1 hafter
    show Repeats c (tryRecord c ns cond') () s
    rw [tryRecord_of_none hafter']
    exact ⟨rfl, rfl⟩
  | some status =>
    obtain rfl := eq_of_statusAfter hafter
    -- the history that is read back is the one that was pushed to, so it is repeated
    obtain ⟨v, _, hv, _⟩ := id hc
    obtain ⟨left, hread, -⟩ := hs.canonical.holds_recorded hc hv
      (show Status.conditions ⟨History.push _ cond, c.metadata.generation⟩ ≠ [] from
        History.push_ne_nil)
    refine ensures_tryRecord_of_some hafter hv trivial ⟨hs.recorded hv _, fun k hk => ?_, _,
      hread, fun cond' hsame => ?_⟩
    · rw [Cluster.find?_set, if_neg]
      rintro rfl
      exact hk rfl
    · refine repeats_recorded (hs.canonical _ v hv) ?_
      rw [History.repeats_congr hsame]
      exact History.repeats_push _ _

end

/-! ## visits -/

def conditionOf (now : String) : Except (Stage × Failure) Condition → Condition
  | .ok cond => cond
  | .error e => .ofFailure now e.1 e.2

def resultOf : Except (Stage × Failure) Condition → Except Failure Action
  | .ok _ => .ok (.requeue resyncInterval)
  | .error e => .error e.2

theorem sameObservation_conditionOf (now now' : String) (r : Except (Stage × Failure) Condition) :
    (conditionOf now r).sameObservation
      (conditionOf now' (r.map fun cond => { cond with timestamp := now' })) = true := by
  cases r <;> exact Condition.sameObservation_iff.2 ⟨rfl, rfl, rfl, rfl⟩

theorem ensures_visit_run {d : Disturbance} {P : Call → Cluster → Prop}
    {Q : Except Failure Action → Cluster → Prop} (hd : c.metadata.deletionTimestamp = none)
    (h : Program.Ensures d P (converge settings now c ns).run s fun r s => Program.Ensures d P
      (tryRecord c ns (conditionOf now r)) s fun _ s => Q (resultOf r) s) :
    Program.Ensures d P (visit settings now ns c).run s Q := by
  refine ensures_run.2 (ensures_visit (fun hd' => ?_) fun _ => ?_)
  · rw [hd] at hd'
    cases hd'
  · refine Program.Ensures.mono h fun r s' hr => ?_
    cases r with
    | ok cond => exact hr
    | error e => exact hr

theorem upsertAll_status (x : Option Status) (ds : List Draft) :
    upsertAll { c with status := x } ns ds = upsertAll c ns ds := by
  induction ds with
  | nil => rfl
  | cons d ds ih =>
    show (upsert d.kind ns (d.toObject c) >>= fun _ => upsertAll { c with status := x } ns ds) = _
    rw [ih]
    rfl

/-- the status of a Connector does not show in what is derived from it -/
theorem converge_status (x : Option Status) :
    converge settings now { c with status := x } ns = converge settings now c ns := by
  have hscale : scale settings now { c with status := x } ns = scale settings now c ns := by
    funext scaling
    rw [scale_eq, scale_eq]
    simp only [upsertAll_status]
    rfl
  unfold converge
  rw [hscale]
  rfl

/-- a visit right after a visit comes to the same and changes nothing -/
theorem repeats_visit (now' : String) (hs : s.Kept)
    (hc : s.Holds .connector ns name Connector.decode c) :
    Program.Ensures .none (fun _ _ => True) (visit settings now ns c).run s fun r s' => s'.Kept ∧
      ∃ x, s'.Holds .connector ns name Connector.decode { c with status := x } ∧
        Repeats c (visit settings now' ns { c with status := x }).run r s' := by
  cases hd : c.metadata.deletionTimestamp with
  | some time =>
    have hd : c.metadata.deletionTimestamp ≠ none := by rw [hd]; exact nofun
    refine ensures_run.2 (ensures_visit (fun _ => ?_) fun hd' => absurd hd' hd)
    refine (repeats_tryRecord hs hc _).mono fun _ s' ⟨hs', _, x, hx, hagain⟩ => ⟨hs', x, hx, ?_⟩
    refine ensures_run.2 (ensures_visit (fun _ => ?_) fun hd' => absurd hd' hd)
    refine (hagain (.terminating now') rfl).mono fun _ _ ht => ⟨rfl, ht.2⟩
  | none =>
    have hsettles : Settles (fun k => k.kind ≠ .connector)
        (fun k => ∃ kind : DerivedKind, k.kind = kind) (converge settings now c ns)
        (converge settings now' c ns) (fun cond => { cond with timestamp := now' }) s :=
      settles_converge (i := ⟨ns, name, c.metadata.uid⟩) hs.canonical (hs.describes hc)
    refine ensures_visit_run hd (Program.Ensures.mono hsettles fun r s₁ hr => ?_)
    obtain ⟨hchanges, hsettled⟩ := hr
    have hc₁ : s₁.Holds .connector ns name Connector.decode c := by
      obtain ⟨v, o, hv, hread⟩ := hc
      exact ⟨v, o, (hchanges.same _ fun ⟨_, hk⟩ => nomatch hk).trans hv, hread⟩
    refine (repeats_tryRecord (hs.changesOnly hchanges) hc₁ _).mono
      fun _ s' ⟨hs', hkeep, x, hx, hagain⟩ => ⟨hs', x, hx, ensures_visit_run hd ?_⟩
    -- the first pass settles the derived objects, and what is recorded then is not one of them
    rw [converge_status]
    refine ((hsettled s' hkeep).mono_calls fun _ _ hgentle _ => hgentle).mono fun r' t hr' => ?_
    obtain ⟨rfl, rfl⟩ := hr'
    refine (hagain _ (sameObservation_conditionOf now now' r)).mono fun _ _ ht => ⟨?_, ht.2⟩
    cases r <;> rfl

/-! ## reconciliations -/

theorem repeats_reconcile (now' : String) (hs : s.Kept) :
    Program.Ensures .none (fun _ _ => True) (reconcile settings now ns name).run s fun r s' =>
      s'.Kept ∧ Program.Ensures .none (fun call t => (∀ c, s.Holds .connector ns name
        Connector.decode c → c.metadata.generation.isSome) → call.Gentle s' t)
          (reconcile settings now' ns name).run s' fun r' s'' => r' = r ∧ s'' = s' := by
  have hread : Fetches (fun k => k = ⟨.connector, ns, name⟩)
      (getAs .connector ns name Connector.decode) := fetches_getAs rfl
  have hfetch : ∀ {P : Call → Cluster → Prop} (t : Cluster), (∀ c, c.verb = .get → P c t) →
      Program.Ensures .none P (getAs .connector ns name Connector.decode).run t fun r t' =>
        t' = t ∧ r = (getAs .connector ns name Connector.decode).run.value t := fun t hP =>
    Program.Fetches.ensures hread (fun _ _ => ⟨not_false, not_false⟩) fun _ _ => hP _ rfl
  unfold reconcile
  refine Program.ensures_bind.2 ((hfetch s fun _ _ => trivial).mono fun r t hr => ?_)
  obtain ⟨rfl, rfl⟩ := hr
  cases hr : (getAs .connector ns name Connector.decode).run.value t with
  | error e =>
    refine ⟨hs, Program.ensures_bind.2 ((hfetch t fun _ hget _ => .of_get hget).mono
      fun r' t' hr' => ?_)⟩
    obtain ⟨rfl, rfl⟩ := hr'
    rw [hr]
    exact ⟨rfl, rfl⟩
  | ok found =>
    cases found with
    | none =>
      refine ⟨hs, Program.ensures_bind.2 ((hfetch t fun _ hget _ => .of_get hget).mono
        fun r' t' hr' => ?_)⟩
      obtain ⟨rfl, rfl⟩ := hr'
      rw [hr]
      exact ⟨rfl, rfl⟩
    | some c =>
      have hc := value_getAs.1 hr
      refine (repeats_visit now' hs hc).mono fun r s' ⟨hs', x, hx, hagain⟩ => ⟨hs', ?_⟩
      refine Program.ensures_bind.2 ((hfetch s' fun _ hget _ => .of_get hget).mono
        fun r' t' hr' => ?_)
      obtain ⟨rfl, rfl⟩ := hr'
      rw [value_getAs.2 hx]
      exact hagain.mono_calls fun _ _ hgentle hgeneration => hgentle (hgeneration c hc)

def reconciled (settings : PassSettings) (now ns name : String) (w : World) :
    Program.Run World (Except Failure Action) :=
  (reconcile settings now ns name).run.run World.answer w

def reconciledTwice (settings : PassSettings) (now now' ns name : String) (w : World) :
    Program.Run World (Except Failure Action) :=
  reconciled settings now' ns name (reconciled settings now ns name w).state

/-- a reconciliation keeps a store in order -/
theorem kept_reconciled {w : World} (hw : w.faults = []) (hs : w.cluster.Kept) :
    (reconciled settings now ns name w).state.cluster.Kept :=
  ((repeats_reconcile now hs).run (World.within_of_noFaults hw)).2.1.1

/-- A reconciliation right after another one, without faults and at whatever time, comes to the same
and leaves the store as it is, status included.  If the Connector has a generation, it writes
nothing but merge patches of derived objects that are there. -/
theorem reconcile_again {w : World} (hw : w.faults = []) (hs : w.cluster.Kept)
    (settings : PassSettings) (now now' ns name : String) :
    (reconciledTwice settings now now' ns name w).result =
        (reconciled settings now ns name w).result ∧
      (reconciledTwice settings now now' ns name w).state.cluster =
        (reconciled settings now ns name w).state.cluster ∧
      ∃ new, (reconciledTwice settings now now' ns name w).state.written =
          new ++ (reconciled settings now ns name w).state.written ∧
        ((∀ c, w.cluster.Holds .connector ns name Connector.decode c →
          c.metadata.generation.isSome) → ∀ x ∈ new, x.verb = .patch ∧
            (∃ kind : DerivedKind, x.kind = kind) ∧ ((reconciled settings now ns name
              w).state.cluster.find? ⟨x.kind, x.ns, x.name⟩).isSome) := by
  obtain ⟨_, ⟨_, hagain⟩, hwithin⟩ :=
    (repeats_reconcile now' hs).run (World.within_of_noFaults hw)
  obtain ⟨hcalls, ⟨hresult, hcluster⟩, _⟩ := hagain.run hwithin
  refine ⟨hresult, hcluster, ?_⟩
  obtain ⟨new, hnew, hmade⟩ := Program.written_run (reconcile settings now' ns name).run
    (reconciled settings now ns name w).state
  refine ⟨new, hnew, fun hgeneration x hx => ?_⟩
  obtain ⟨m, hm, hwrite⟩ := hmade x hx
  have hgentle := hcalls m hm hgeneration
  obtain ⟨hverb, hkind⟩ := hgentle.patches x hwrite
  refine ⟨hverb, hkind, ?_⟩
  have hthere := Cluster.there_of_write? hwrite (by rw [hverb]; exact nofun)
  rw [hgentle.unchanged] at hthere
  exact hthere

/-- a Connector with a generation and with a trigger of a type that is not configured -/
def portal : Json := .object [
  ("metadata", .object [("generation", .int 2), ("name", .str "portal"), ("namespace", .str "apps"),
    ("uid", .str "u1")]),
  ("spec", .object [
    ("image", .str "portal:1"),
    ("scalingRule", .object [("customScaling", .object [
      ("triggers", .arr [.object [("type", .str "queue")]])])])])]

def portalWorld : World := ⟨Cluster.empty.set ⟨.connector, "apps", "portal"⟩ portal, [], []⟩

theorem kept_portal : portalWorld.cluster.Kept := by
  refine Cluster.kept_empty.put (v := portal) (Json.Clean.canonical ?_) rfl
  have htrigger : (Json.object [("type", .str "queue")]).Clean :=
    Json.clean_object (List.forall_mem_singleton.2 (Json.clean_str _))
  have hscaling : (Json.object [("triggers", .arr [.object [("type", .str "queue")]])]).Clean :=
    Json.clean_object (List.forall_mem_singleton.2
      (Json.clean_arr (List.forall_mem_singleton.2 htrigger)))
  refine Json.clean_object (List.forall_mem_cons.2 ⟨Json.clean_object ?_,
    List.forall_mem_singleton.2 (Json.clean_object (List.forall_mem_cons.2 ⟨Json.clean_str _,
      List.forall_mem_singleton.2 (Json.clean_object (List.forall_mem_singleton.2 hscaling))⟩))⟩)
  simp only [List.forall_mem_cons]
  exact ⟨Json.clean_int _, Json.clean_str _, Json.clean_str _, Json.clean_str _,
    List.forall_mem_nil _⟩

theorem portal_generation {c : Connector}
    (hc : portalWorld.cluster.Holds .connector "apps" "portal" Connector.decode c) :
    c.metadata.generation.isSome := by
  have hread : ∃ c', (getAs .connector "apps" "portal" Connector.decode).run.value
      portalWorld.cluster = .ok (some c') ∧ c'.metadata.generation.isSome := ⟨_, rfl, rfl⟩
  obtain ⟨c', hc', hgeneration⟩ := hread
  rw [value_getAs.2 hc] at hc'
  obtain rfl := Option.some.inj (Except.ok.inj hc')
  exact hgeneration

theorem reconcile_again_portal :
    (reconciledTwice ⟨.empty, true⟩ "t0" "t1" "apps" "portal" portalWorld).result =
        (reconciled ⟨.empty, true⟩ "t0" "apps" "portal" portalWorld).result ∧
      (reconciledTwice ⟨.empty, true⟩ "t0" "t1" "apps" "portal" portalWorld).state.cluster =
        (reconciled ⟨.empty, true⟩ "t0" "apps" "portal" portalWorld).state.cluster ∧
      ∃ new, (reconciledTwice ⟨.empty, true⟩ "t0" "t1" "apps" "portal" portalWorld).state.written =
          new ++ (reconciled ⟨.empty, true⟩ "t0" "apps" "portal" portalWorld).state.written ∧
        ∀ x ∈ new, x.verb = .patch ∧ (∃ kind : DerivedKind, x.kind = kind) ∧
          ((reconciled ⟨.empty, true⟩ "t0" "apps" "portal" portalWorld).state.cluster.find?
            ⟨x.kind, x.ns, x.name⟩).isSome := by
  obtain ⟨hresult, hcluster, new, hnew, hpatches⟩ :=
    reconcile_again rfl kept_portal ⟨.empty, true⟩ "t0" "t1" "apps" "portal"
  exact ⟨hresult, hcluster, new, hnew, hpatches fun _ hc => portal_generation hc⟩

end Pass
end ConnectorControl
