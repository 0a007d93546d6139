import ConnectorControl.Proofs.History.Runs

/-!
# Convergence

What a Connector owns after a successful pass with pruning does not depend on the history before it:
it is what one pass makes of a fresh store (`owned_of_history`).

Two things are left open, and `Connector.settled` takes them out: the UID that an object was given
when it was created, and the replica count of a Deployment that is scaled.
-/

namespace ConnectorControl

def Connector.settled (c : Connector) (kind : DerivedKind) (v : Json) : Json :=
  v.merge (.object (("metadata", .object [("uid", .null)]) ::
    if kind = .deployment ∧ c.spec.wantsAutoscaling = true then
      [("spec", .object [("replicas", .null)])]
    else []))

variable {i : Identity} {s₀ s s' t : Cluster} {c : Connector} {p : ScalePlan} {v w : Json}
  {kind : DerivedKind} {name : String}

/-! ## what is left open -/

theorem Metadata.merge_ofOwned_uid {name : String} {ns uid : Option String}
    {labels : Table String String} {owner : OwnerReference} :
    (ofOwned name ns uid labels owner).toJson.merge (.object [("uid", .null)]) =
      (ofOwned name ns none labels owner).toJson := by
  refine Json.merge_eq_of_forall isTable_ofOwned.ordered (Json.isTable_object _) isTable_ofOwned
    fun k => ?_
  rw [find?_ofOwned, find?_ofOwned, Json.find?_object (by simp)]
  by_cases h : k = "uid"
  · subst h
    rfl
  · simp only [Entries.find?_cons, h, if_false]
    rfl

namespace Identity

/-- the object of the Connector under a kind and a name, if it carries its label and it is its
controller -/
def owned (i : Identity) (s : Cluster) (kind : DerivedKind) (name : String) : Option Json :=
  (s.find? (i.key kind name)).filter fun v => i.labels v && i.controls v

theorem settled_stored {uid uid' : String} {spec spec' : Json}
    (h : spec = spec' ∨ (kind = .deployment ∧ c.spec.wantsAutoscaling = true) ∧
      spec.merge (.object [("replicas", .null)]) = spec'.merge (.object [("replicas", .null)])) :
    c.settled kind (i.stored kind name uid spec) =
      c.settled kind (i.stored kind name uid' spec') := by
  have hnodup : (((("metadata", Json.object [("uid", .null)]) :: if kind = .deployment ∧
      c.spec.wantsAutoscaling = true then [("spec", Json.object [("replicas", .null)])] else []) :
        List (String × Json)).map (·.1)).Nodup := by
    split <;> simp
  unfold Connector.settled
  have htable : ∀ uid spec, (i.stored kind name uid spec).IsTable :=
    fun _ _ => Object.isTable_ofSpec
  refine (Json.isTable_merge (htable uid spec).ordered (Json.isTable_object _)).ext
    (Json.isTable_merge (htable uid' spec').ordered (Json.isTable_object _)) fun k => ?_
  have hfind : ∀ uid spec, (i.stored kind name uid spec).find? k = _ :=
    fun _ _ => Object.find?_ofSpec k
  rw [Json.find?_merge _ (Json.isTable_object _), Json.find?_merge _ (Json.isTable_object _), hfind,
    hfind, Json.find?_object hnodup]
  by_cases hmeta : k = "metadata"
  · subst hmeta
    show some (Json.merge (i.metadata name uid).toJson (.object [("uid", .null)])) =
      some (Json.merge (i.metadata name uid').toJson (.object [("uid", .null)]))
    unfold metadata
    rw [Metadata.merge_ofOwned_uid, Metadata.merge_ofOwned_uid]
  by_cases hspec : k = "spec"
  · subst hspec
    rcases h with rfl | ⟨hopen, h⟩
    · rfl
    · rw [if_pos hopen]
      show some (Json.merge spec (.object [("replicas", .null)])) =
        some (Json.merge spec' (.object [("replicas", .null)]))
      rw [h]
  · simp only [Entries.find?_cons, hmeta, hspec, if_false]

/-- what a Connector settles of what is written for a draft is settled by the draft -/
theorem Written.settled {x : Draft} (hv : i.Written x v) (hw : i.Written x w)
    (hx : x = .deployment c ∨ x.kind ≠ .deployment) : c.settled x.kind v = c.settled x.kind w := by
  obtain ⟨uid, spec, hspec, hfills, hsame, rfl⟩ := hv
  obtain ⟨uid', spec', hspec', hfills', hsame', rfl⟩ := hw
  refine settled_stored ?_
  rcases hx with rfl | hx
  · have hnull : (Json.object [("replicas", .null)]).IsTable := Json.isTable_object _
    by_cases hscaled : c.spec.wantsAutoscaling = true
    · refine .inr ⟨⟨rfl, hscaled⟩, ?_⟩
      refine (Json.isTable_merge hfills.isTable.ordered hnull).ext
        (Json.isTable_merge hfills'.isTable.ordered hnull) fun k => ?_
      rw [Json.find?_merge _ hnull, Json.find?_merge _ hnull]
      by_cases hk : k = "replicas"
      · subst hk
        rfl
      · rw [hfills.others k hk, hfills'.others k hk]
    · -- the Deployment of a Connector without scaling has a replica count
      have hreplicas : (Draft.deployment c).spec.stripNulls.find? "replicas" = some (.int 1) := by
        have htable : (Draft.deployment c).spec.IsTable := Json.isTable_objectOfSet _
        rw [Json.find?_stripNulls htable.ordered]
        show Json.strippedMember ((Deployment.ofConnector c).spec.find? "replicas") = _
        rw [Deployment.find?_spec]
        show Json.strippedMember
          ((Deployment.ofConnector c).replicas.map fun n : Nat => Json.int n) = _
        unfold Deployment.ofConnector
        rw [if_neg hscaled]
        rfl
      refine .inl (hfills.isTable.ext hfills'.isTable fun k => ?_)
      by_cases hk : k = "replicas"
      · subst hk
        rw [hfills.replicas _ hreplicas, hfills'.replicas _ hreplicas]
      · rw [hfills.others k hk, hfills'.others k hk]
  · rw [hsame hx, hsame' hx]
    exact .inl rfl

/-! ## what is owned -/

theorem owned_of_written {x : Draft} (huid : i.uid.isSome) (hv : s.find? (x.key i.ns) = some v)
    (hw : i.Written x v) : i.owned s x.kind x.name = some v := by
  obtain ⟨uid, spec, _, _, _, rfl⟩ := hw
  unfold owned
  rw [show s.find? (i.key x.kind x.name) = _ from hv]
  refine Option.filter_eq_some_iff.2 ⟨rfl, ?_⟩
  rw [labels_stored, controls_stored huid]
  rfl

theorem Derives.owned_of_mem {x : Draft} (h : i.Derives c p s) (hi : i.Describes c)
    (huid : i.uid.isSome) (hx : x ∈ Draft.deployment c :: p.drafts) :
    ∃ v, i.owned s x.kind x.name = some v ∧ i.Written x v := by
  rcases List.mem_cons.1 hx with rfl | hx
  · obtain ⟨v, hv, hw⟩ := h.deployment
    refine ⟨v, owned_of_written huid ?_ hw, hw⟩
    exact (congrArg s.find? (Pass.key_deployment hi)).trans hv
  · obtain ⟨v, hv, hw⟩ := h.drafts x hx
    exact ⟨v, owned_of_written huid hv hw, hw⟩

theorem Derives.owned_eq_none (h : i.Derives c p s) (hi : i.Describes c)
    (hno : ∀ x ∈ Draft.deployment c :: p.drafts, ¬(x.kind = kind ∧ x.name = name)) :
    i.owned s kind name = none := by
  unfold owned
  cases hv : s.find? (i.key kind name) with
  | none => rfl
  | some v =>
    rcases h.orderly kind name v hv with ⟨hn, _⟩ | ⟨_, hf⟩
    · exfalso
      by_cases hk : kind = .deployment
      · subst hk
        refine hno _ List.mem_cons_self ⟨rfl, ?_⟩
        rw [show name = i.name from hn.trans (objectName_deployment _)]
        exact hi.connector_name
      · obtain ⟨x, hx, hxn⟩ := h.only kind hk name v hn hv
        exact hno x (List.mem_cons_of_mem _ hx) hxn
    · refine Option.filter_eq_none_iff.2 fun w hw => ?_
      obtain rfl := Option.some.inj hw
      rw [hf.labels]
      exact Bool.false_ne_true

/-- What is derived for one plan is settled alike in any two stores. -/
theorem Derives.settled_eq (h : i.Derives c p s) (h' : i.Derives c p t) (hi : i.Describes c)
    (huid : i.uid.isSome) (hkinds : ∀ x ∈ p.drafts, x.kind ≠ .deployment) (kind : DerivedKind)
    (name : String) :
    (i.owned s kind name).map (c.settled kind) = (i.owned t kind name).map (c.settled kind) := by
  by_cases hx : ∃ x ∈ Draft.deployment c :: p.drafts, x.kind = kind ∧ x.name = name
  · obtain ⟨x, hx, rfl, rfl⟩ := hx
    obtain ⟨v, hv, hwv⟩ := h.owned_of_mem hi huid hx
    obtain ⟨w, hw, hww⟩ := h'.owned_of_mem hi huid hx
    have hcase : x = .deployment c ∨ x.kind ≠ .deployment := by
      rcases List.mem_cons.1 hx with hx | hx
      · exact .inl hx
      · exact .inr (hkinds x hx)
    rw [hv, hw, Option.map_some, Option.map_some, hwv.settled hww hcase]
  · have hno : ∀ x ∈ Draft.deployment c :: p.drafts, ¬(x.kind = kind ∧ x.name = name) :=
      fun x hx' hn => hx ⟨x, hx', hn⟩
    rw [h.owned_eq_none hi hno, h'.owned_eq_none hi hno]

/-! ## histories -/

/-- what a pass over a Connector ends with, when it succeeds behind faults of writes -/
theorem derives_of_pass {settings : PassSettings} {now : String} {faults : List Fault} {a : Action}
    (h : i.Sound s) (hc : s.Holds .connector i.ns i.name Connector.decode c)
    (halive : c.metadata.deletionTimestamp = none) (hprune : settings.prune = true)
    (hname : ',' ∉ i.name.toList) (huid : i.uid.isSome)
    (hfaults : ∀ f ∈ faults, f.onWrites = true)
    (hok : (i.pass settings now faults s).result = .ok a) :
    a = .requeue resyncInterval ∧ ∃ p, Pass.Feasible settings i.ns s c p ∧
      i.Derives c p (i.pass settings now faults s).state.cluster := by
  have hend := (pass_ends Disturbance.tame_writes h (within_writes hfaults) settings now).2
  rw [hok] at hend
  obtain ⟨ha, p, hfeasible, hderives⟩ := hend.derives c hc halive
  exact ⟨ha, p, hfeasible, hderives hprune hname huid⟩

/-- what a pass over a Connector ends with when nothing comes between -/
theorem derives_of_feasible {settings : PassSettings} (now : String) (h : i.Sound s)
    (hc : s.Holds .connector i.ns i.name Connector.decode c)
    (halive : c.metadata.deletionTimestamp = none) (hprune : settings.prune = true)
    (hname : ',' ∉ i.name.toList) (huid : i.uid.isSome)
    (hfeasible : Pass.Feasible settings i.ns s c p) :
    (i.pass settings now [] s).result = .ok (.requeue resyncInterval) ∧
      i.Derives c p (i.pass settings now [] s).state.cluster := by
  have hend := (pass_ends Disturbance.tame_none h (fun f hf => absurd hf List.not_mem_nil) settings
    now).2
  cases hr : (i.pass settings now [] s).result with
  | error e =>
    rw [hr] at hend
    exact absurd hfeasible (hend.unfeasible c hc halive Disturbance.quiet_none hname p)
  | ok a =>
    rw [hr] at hend
    obtain ⟨rfl, p', hfeasible', hderives⟩ := hend.derives c hc halive
    rw [hfeasible.eq hfeasible']
    exact ⟨rfl, hderives hprune hname huid⟩

/-- Convergence: after any history of a Connector that starts afresh, a pass with pruning that
succeeds leaves the Connector with what a pass makes of a fresh store with the same Connector,
Secrets and ConfigMaps; that pass succeeds as well. -/
theorem owned_of_history (hname : ',' ∉ i.name.toList) (huid : i.uid.isSome) (hfresh : i.Fresh s₀)
    (hfixed : i.Fixed s₀) (hsteps : Relation.ReflTransGen i.Step s₀ s)
    (hc : s.Holds .connector i.ns i.name Connector.decode c)
    (halive : c.metadata.deletionTimestamp = none) {settings : PassSettings}
    (hprune : settings.prune = true) {faults : List Fault}
    (hfaults : ∀ f ∈ faults, f.onWrites = true) {now now' : String} {a : Action}
    (hok : (i.pass settings now faults s).result = .ok a) (ht : i.Fresh t)
    (hconnector : t.find? i.connectorKey = s.find? i.connectorKey)
    (hmounts : ∀ k, Pass.IsMount i.ns k → t.find? k = s.find? k) :
    (i.pass settings now' [] t).result = .ok a ∧ ∀ kind name,
      (i.owned (i.pass settings now faults s).state.cluster kind name).map (c.settled kind) =
        (i.owned (i.pass settings now' [] t).state.cluster kind name).map (c.settled kind) := by
  have hs := sound_of_steps hfresh hfixed hsteps
  have hi := hs.describes c hc
  obtain ⟨rfl, p, hfeasible, hderives⟩ :=
    derives_of_pass hs hc halive hprune hname huid hfaults hok
  -- the same Connector is read from the fresh store, and the same plan is made
  have hread : ∀ c, t.Holds .connector i.ns i.name Connector.decode c →
      s.Holds .connector i.ns i.name Connector.decode c := by
    rintro c ⟨v, o, hv, ho, hc⟩
    exact ⟨v, o, hconnector.symm.trans hv, ho, hc⟩
  have htc : t.Holds .connector i.ns i.name Connector.decode c := by
    obtain ⟨v, o, hv, ho, hc⟩ := hc
    exact ⟨v, o, hconnector.trans hv, ho, hc⟩
  have hsound : i.Sound t := ht.sound fun c hc => hs.describes c (hread c hc)
  obtain ⟨hresult, hderives'⟩ := derives_of_feasible now' hsound htc halive hprune hname
    huid (hfeasible.congr hmounts)
  obtain ⟨scaling, _, hplan⟩ := hfeasible.planned
  have hkinds : ∀ x ∈ p.drafts, x.kind ≠ .deployment :=
    fun x hx => (Pass.planned_of_value hplan).kind_ne hx
  exact ⟨hresult, hderives.settled_eq hderives' hi huid hkinds⟩

theorem owned_of_history_queue :
    (queue.pass queueSettings "t1" [failing .create .service] queueHistory).result =
      .ok (.requeue resyncInterval) ∧
    (queue.pass queueSettings "t2" [] (queueStore none)).result = .ok (.requeue resyncInterval) ∧
    ∀ kind name,
      (queue.owned
        (queue.pass queueSettings "t1" [failing .create .service] queueHistory).state.cluster
        kind name).map ((queueConnector none).settled kind) =
      (queue.owned (queue.pass queueSettings "t2" [] (queueStore none)).state.cluster
        kind name).map ((queueConnector none).settled kind) := by
  have hc : queueHistory.Holds .connector "apps" "mq" Connector.decode (queueConnector none) :=
    Pass.value_getAs.1 (by decide +kernel)
  have hok : (queue.pass queueSettings "t1" [failing .create .service] queueHistory).result =
      .ok (.requeue resyncInterval) := by decide +kernel
  have hsecrets : (queueStore none).objects.entries.filter (fun e => decide (e.1.kind = .secret)) =
      queueHistory.objects.entries.filter fun e => decide (e.1.kind = .secret) := by decide +kernel
  have hmaps : (queueStore none).objects.entries.filter (fun e => decide (e.1.kind = .configMap)) =
      queueHistory.objects.entries.filter fun e => decide (e.1.kind = .configMap) := by
    decide +kernel
  refine ⟨hok, owned_of_history (by decide) rfl (queue_fresh _) queue_fixed queueHistory_steps hc
    rfl rfl (by simp [failing, Fault.onWrites]) hok (queue_fresh none) (by decide +kernel)
    fun k hk => ?_⟩
  rcases hk.2 with hk | hk
  · exact Cluster.find?_eq_of_filter (fun k => decide (k.kind = .secret)) hsecrets
      (decide_eq_true hk)
  · exact Cluster.find?_eq_of_filter (fun k => decide (k.kind = .configMap)) hmaps
      (decide_eq_true hk)

end Identity
end ConnectorControl
