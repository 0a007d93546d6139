import ConnectorControl.Proofs.History.Readable
import ConnectorControl.Proofs.Objects.Merging
import ConnectorControl.Proofs.Pass.Meaning

/-!
# An upsert with rivals

While an object is upserted, others may create it and delete it.  A contested cluster is one with
all that others do before each call that is still to come (`Contested`); a call meets the cluster as
they have left it (`Contested.met`).

No call of an upsert but the last changes anything, and the last one either writes the object or
finds none and fails (`Pass.endsAt_upsert`).  The failure can be retried if the object was gone
before it was fetched, and can not if it was deleted after that (`Pass.retryable_unless_lost`).
-/

namespace ConnectorControl

open Decode

/-- what another one does to an object -/
inductive Rival where
  | creates (v : Json)
  | deletes

def Rival.act (k : ObjectKey) (s : Cluster) : Rival → Cluster
  | creates v => if s.objects.contains k then s else s.add k v
  | deletes => s.remove k

/-- a cluster, with what others do to an object of it before each call to come -/
structure Contested where
  cluster : Cluster
  moves : List (List Rival)

namespace Contested

variable {k : ObjectKey} {w : Contested}

/-- the cluster that the next call meets -/
def met (k : ObjectKey) (w : Contested) : Cluster :=
  (w.moves.headD []).foldl (Rival.act k) w.cluster

/-- the others go first, then the cluster replies -/
def answer (k : ObjectKey) : Program.Handler Contested := fun c w =>
  let r := Cluster.answer c (w.met k)
  (r.1, ⟨r.2, w.moves.tail⟩)

structure Readable (k : ObjectKey) (w : Contested) : Prop where
  cluster : w.cluster.Readable
  moves : ∀ rivals ∈ w.moves, ∀ v, .creates v ∈ rivals → v.ReadsAs k.kind

theorem readable_foldl {rivals : List Rival} {s : Cluster} (hs : s.Readable)
    (h : ∀ v, .creates v ∈ rivals → v.ReadsAs k.kind) :
    (rivals.foldl (Rival.act k) s).Readable := by
  induction rivals generalizing s with
  | nil => exact hs
  | cons rival rivals ih =>
    refine ih ?_ fun v hv => h v (List.mem_cons_of_mem _ hv)
    cases rival with
    | creates v =>
      show (if s.objects.contains k then s else s.add k v).Readable
      split
      · exact hs
      · exact hs.changed (h v List.mem_cons_self) fun k' => Cluster.find?_add s k k' v
    | deletes => exact hs.remove k

theorem Readable.met (h : w.Readable k) : (w.met k).Readable := by
  refine readable_foldl h.cluster fun v hv => ?_
  cases hmoves : w.moves with
  | nil =>
    rw [hmoves] at hv
    cases hv
  | cons rivals rest =>
    rw [hmoves] at hv
    exact h.moves rivals (hmoves ▸ List.mem_cons_self) v hv

theorem Readable.kept (h : w.Readable k) : Readable k ⟨w.met k, w.moves.tail⟩ :=
  ⟨h.met, fun rivals hrivals => h.moves rivals (List.mem_of_mem_tail hrivals)⟩

end Contested

/-! ## the object to write -/

namespace Metadata

def stampPatch (ns uid : String) : Json := .object [("namespace", .str ns), ("uid", .str uid)]

theorem toJson_stamped (m : Metadata) (ns uid : String) :
    { m with ns := some ns, uid := some uid }.toJson = m.toJson.merge (stampPatch ns uid) := by
  refine (Json.merge_eq_of_forall isTable_toJson.ordered (Json.isTable_object _) isTable_toJson
    fun k => ?_).symm
  rw [find?_toJson, find?_toJson, Json.find?_object (by simp)]
  by_cases h₁ : k = "namespace"
  · subst h₁
    rfl
  by_cases h₂ : k = "uid"
  · subst h₂
    rfl
  simp only [Entries.find?_cons, h₁, h₂, if_false]
  rfl

theorem succeeds_stamped {m : Metadata} {ns uid : String} (hm : m.toJson.Canonical)
    (h : Succeeds (decode m.toJson)) :
    Succeeds (decode { m with ns := some ns, uid := some uid }.toJson) := by
  -- the patch is metadata itself, of which nothing else is set
  have hread : Succeeds (decode (stampPatch ns uid)) :=
    ⟨_, decode_toJson (m := { (default : Metadata) with ns := some ns, uid := some uid })
      ⟨rfl, rfl, rfl⟩⟩
  have hpatch : (stampPatch ns uid).Canonical := by
    refine Json.canonical_object ?_
    simp only [List.forall_mem_cons]
    exact ⟨trivial, trivial, List.forall_mem_nil _⟩
  obtain ⟨ms, hms⟩ := exists_of_succeeds_decode h
  rw [hms] at h hm
  rw [toJson_stamped, hms]
  exact succeeds_merge hm hpatch (succeeds_decode.1 h) hread

end Metadata

namespace Object

variable {o : Object}

theorem find?_toJson_metadata (h : o.body.find? "metadata" = none) :
    o.toJson.find? "metadata" = some o.metadata.toJson := by
  rw [find?_toJson o (by decide) (by decide), h]
  rfl

theorem Reads.stamped (h : o.Reads) (s : Cluster) (ns : String) :
    ∃ o', Cluster.readObject (s.stamp ns o.stripNulls).toJson = .ok o' := by
  have hfind := find?_toJson_metadata h.apart
  obtain ⟨_, hmetadata⟩ := metadata_of_succeeds h.canonical h.succeeds
  have hapart : o.stripNulls.body.find? "metadata" = none := by
    show Entries.find? "metadata" (Entries.ofList (Json.stripMembers o.body.entries)) = none
    rw [(Json.ordered_stripMembers o.body.ordered).ofList_eq,
      Json.find?_stripMembers o.body.ordered, show Entries.find? _ _ = _ from h.apart]
    rfl
  have hread : Succeeds (decode (s.stamp ns o.stripNulls).toJson) := by
    refine succeeds_of_metadata (isTable_toJson _) fun m hm => ?_
    rw [find?_toJson_metadata (o := s.stamp ns o.stripNulls) hapart] at hm
    obtain rfl := Option.some.inj hm
    exact Metadata.succeeds_stamped (Json.canonical_of_find? h.canonical hfind)
      (hmetadata _ hfind)
  obtain ⟨o', ho'⟩ := hread
  exact ⟨o', Cluster.readObject_of_decode ho'⟩

end Object

/-! ## upserts -/

namespace Pass

variable {kind : DerivedKind} {ns name : String} {o : Object} {w : Contested}

/-- The last call of an upsert, with the cluster that it leaves and the result that it leads to, by
the cluster that it meets. -/
inductive Ended (kind : DerivedKind) (ns name : String) (o : Object) (met : Cluster) :
    Call → Cluster → Except Failure Applied → Prop
  | created (h : met.find? ⟨kind, ns, name⟩ = none) :
    Ended kind ns name o met (.create kind ns o.stripNulls)
      (met.add ⟨kind, ns, name⟩ (met.stamp ns o.stripNulls).toJson) (.ok .created)
  | patched (v : Json) (h : met.find? ⟨kind, ns, name⟩ = some v) :
    Ended kind ns name o met (.patch kind ns name o.toJson)
      (met.set ⟨kind, ns, name⟩ (v.merge o.toJson)) (.ok .patched)
  /-- deleted since it was found to be there -/
  | gone (h : met.find? ⟨kind, ns, name⟩ = none) :
    Ended kind ns name o met (.get kind ns name) met (.error (disappeared kind ns name))
  /-- deleted since it was fetched -/
  | lost (h : met.find? ⟨kind, ns, name⟩ = none) :
    Ended kind ns name o met (.patch kind ns name o.toJson) met
      (.error (Cluster.notFound kind ns name))

/-- No call but the last changes what it meets, and with the last the program is ended. -/
def EndsAt (kind : DerivedKind) (ns name : String) (o : Object)
    (p : Program (Except Failure Applied)) (w : Contested) : Prop :=
  let k : ObjectKey := ⟨kind, ns, name⟩
  ∃ before c w', p.calls (Contested.answer k) w = before ++ [(c, w')] ∧
    (∀ m ∈ before, (Contested.answer k m.1 m.2).2.cluster = m.2.met k) ∧
    Ended kind ns name o (w'.met k) c (p.run (Contested.answer k) w).state.cluster
      (p.run (Contested.answer k) w).result

theorem EndsAt.ask {c : Call} {next : c.Reply → Program (Except Failure Applied)}
    {reply : c.Reply}
    (hanswer : Cluster.answer c (w.met ⟨kind, ns, name⟩) = (reply, w.met ⟨kind, ns, name⟩))
    (h : EndsAt kind ns name o (next reply) ⟨w.met ⟨kind, ns, name⟩, w.moves.tail⟩) :
    EndsAt kind ns name o (.ask c next) w := by
  have hreply : Contested.answer ⟨kind, ns, name⟩ c w =
      (reply, ⟨w.met ⟨kind, ns, name⟩, w.moves.tail⟩) := by
    unfold Contested.answer
    rw [hanswer]
  obtain ⟨before, last, w', hcalls, hbefore, hended⟩ := h
  refine ⟨(c, w) :: before, last, w', ?_, List.forall_mem_cons.2 ⟨?_, hbefore⟩, ?_⟩
  · show (c, w) :: Program.calls _ _ _ = _
    rw [hreply, hcalls]
    rfl
  · dsimp only
    rw [hreply]
  · unfold Program.run
    dsimp only
    rw [hreply]
    exact hended

theorem EndsAt.last {c : Call} {next : c.Reply → Program (Except Failure Applied)}
    {reply : c.Reply} {s : Cluster} {r : Except Failure Applied}
    (hanswer : Cluster.answer c (w.met ⟨kind, ns, name⟩) = (reply, s))
    (hnext : next reply = .done r)
    (h : Ended kind ns name o (w.met ⟨kind, ns, name⟩) c s r) :
    EndsAt kind ns name o (.ask c next) w := by
  have hreply : Contested.answer ⟨kind, ns, name⟩ c w = (reply, ⟨s, w.moves.tail⟩) := by
    unfold Contested.answer
    rw [hanswer]
  refine ⟨[], c, w, ?_, List.forall_mem_nil _, ?_⟩
  · show (c, w) :: Program.calls _ _ _ = _
    rw [hreply, hnext]
    rfl
  · unfold Program.run
    dsimp only
    rw [hreply, hnext]
    exact h

theorem endsAt_patch (ho : o.Reads) (hw : w.Readable ⟨kind, ns, name⟩) :
    EndsAt kind ns name o
      (patch kind ns name o.toJson >>= fun _ => pure Applied.patched : Pass Applied).run w := by
  have hquiet : ¬Disturbance.none.fails (.patch kind ns name o.toJson) := not_false
  rcases (Cluster.Replies.answered (d := .none) (c := .patch kind ns name o.toJson)
    (s := w.met ⟨kind, ns, name⟩)).of_patch with ⟨_, _, _, hf⟩ | ⟨hnone, hr, hs⟩ | ⟨v, hv, hr, hs⟩
  · exact absurd hf hquiet
  · exact .last (Prod.ext hr hs) rfl (.lost hnone)
  · obtain ⟨hcanonical, o', ho', _⟩ := hw.met _ v hv
    obtain ⟨merged, hmerged⟩ := Object.succeeds_merge hcanonical ho.canonical ⟨o', ho'⟩ ho.succeeds
    rw [Cluster.readObject_of_decode hmerged] at hr
    exact .last (Prod.ext hr hs) rfl (.patched v hv)

theorem endsAt_patchOver (ho : o.Reads) (hw : w.Readable ⟨kind, ns, name⟩) :
    EndsAt kind ns name o (patchOver kind ns name o).run w := by
  rcases (Cluster.Replies.answered (d := .none) (c := .get kind ns name)
    (s := w.met ⟨kind, ns, name⟩)).of_get with ⟨hs, ⟨_, _, hf⟩ | ⟨hr, hnone | hh⟩ | ⟨v, hv, hr⟩⟩
  · exact absurd hf not_false
  · exact .last (Prod.ext hr hs) rfl (.gone hnone)
  · exact absurd hh not_false
  · obtain ⟨found, hfound⟩ := hw.met.readObject hv
    rw [hfound] at hr
    exact .ask (Prod.ext hr hs) (endsAt_patch ho hw.kept)

/-- Whatever rivals do, an upsert ends with a call that writes the object or that finds none, and
changes nothing before. -/
theorem endsAt_upsert (hn : o.metadata.name = some name) (ho : o.Reads)
    (hw : w.Readable ⟨kind, ns, name⟩) : EndsAt kind ns name o (upsert kind ns o).run w := by
  have hn' : o.stripNulls.metadata.name = some name := hn
  unfold upsert
  rw [hn]
  rcases (Cluster.Replies.answered (d := .none) (c := .create kind ns o.stripNulls)
    (s := w.met ⟨kind, ns, name⟩)).of_create hn' with
    ⟨_, _, _, hf⟩ | ⟨v, hv, hr, hs⟩ | ⟨hnone, hr, hs⟩
  · exact absurd hf not_false
  · exact .ask (Prod.ext hr hs) (endsAt_patchOver ho hw.kept)
  · obtain ⟨stored, hstored⟩ := ho.stamped (w.met ⟨kind, ns, name⟩) ns
    rw [hstored] at hr
    exact .last (Prod.ext hr hs) rfl (.created hnone)

/-- Whatever rivals do to an object between the calls of an upsert, as long as all objects can be
read, no call but the last changes anything, and the last one writes the object or finds none.  If
it finds none the upsert fails, and it can be retried unless the object was deleted between the
fetch and the patch. -/
theorem retryable_unless_lost (hn : o.metadata.name = some name) (ho : o.Reads)
    (hw : w.Readable ⟨kind, ns, name⟩) :
    let k : ObjectKey := ⟨kind, ns, name⟩
    let run := (upsert kind ns o).run.run (Contested.answer k) w
    ∃ before c w', (upsert kind ns o).run.calls (Contested.answer k) w = before ++ [(c, w')] ∧
      (∀ m ∈ before, (Contested.answer k m.1 m.2).2.cluster = m.2.met k) ∧
      Ended kind ns name o (w'.met k) c run.state.cluster run.result ∧
      ∀ e, run.result = .error e → (e.isRetryable = false ↔ c.verb = .patch) := by
  intro k run
  obtain ⟨before, c, w', hcalls, hbefore, hended⟩ := endsAt_upsert hn ho hw
  refine ⟨before, c, w', hcalls, hbefore, hended, fun e he => ?_⟩
  change Ended kind ns name o (w'.met k) c run.state.cluster run.result at hended
  rw [he] at hended
  generalize run.state.cluster = s at hended
  cases hended with
  | gone h => exact iff_of_false nofun nofun
  | lost h => exact iff_of_true rfl rfl

def shopDeployment : Object := (Draft.deployment shopConnector).toObject shopConnector

/-- another one creates the Deployment before an upsert, and acts once more before the patch -/
def contestedShop (last : List Rival) : Contested :=
  ⟨.empty, [[.creates shopDeployment.toJson], [], last]⟩

theorem reads_shopDeployment : shopDeployment.Reads :=
  (Draft.proper_deployment shopConnector).reads shopConnector

theorem readable_contestedShop {last : List Rival}
    (h : ∀ v, .creates v ∈ last → v = shopDeployment.toJson) :
    (contestedShop last).Readable ⟨DerivedKind.deployment, "apps", "shop"⟩ := by
  have hreads : shopDeployment.toJson.ReadsAs DerivedKind.deployment :=
    .of_derived reads_shopDeployment.canonical reads_shopDeployment.succeeds
  refine ⟨Cluster.readable_empty, ?_⟩
  unfold contestedShop
  simp only [List.forall_mem_cons]
  refine ⟨fun v hv => ?_, fun v hv => absurd hv List.not_mem_nil, fun v hv => ?_,
    List.forall_mem_nil _⟩
  · obtain rfl := Rival.creates.inj (List.mem_singleton.1 hv)
    exact hreads
  · obtain rfl := h v hv
    exact hreads

/-- a Deployment that is deleted and created again is patched -/
theorem retryable_unless_lost_shop :
    let w := contestedShop [.deletes, .creates shopDeployment.toJson]
    let k : ObjectKey := ⟨DerivedKind.deployment, "apps", "shop"⟩
    let run := (upsert .deployment "apps" shopDeployment).run.run (Contested.answer k) w
    shopDeployment.metadata.name = some "shop" ∧ shopDeployment.Reads ∧ w.Readable k ∧
      run.result = .ok .patched ∧
      ∃ c w', (c, w') ∈ (upsert .deployment "apps" shopDeployment).run.calls
          (Contested.answer k) w ∧
        Ended .deployment "apps" "shop" shopDeployment (w'.met k) c run.state.cluster
          run.result := by
  have hn : shopDeployment.metadata.name = some "shop" := by decide +kernel
  have hw : (contestedShop [.deletes, .creates shopDeployment.toJson]).Readable
      ⟨DerivedKind.deployment, "apps", "shop"⟩ := by
    refine readable_contestedShop fun v hv => ?_
    rcases List.mem_cons.1 hv with hv | hv
    · cases hv
    · exact Rival.creates.inj (List.mem_singleton.1 hv)
  obtain ⟨before, c, w', hcalls, _, hended, _⟩ := retryable_unless_lost hn reads_shopDeployment hw
  refine ⟨hn, reads_shopDeployment, hw, by decide +kernel, c, w', ?_, hended⟩
  rw [hcalls]
  exact List.mem_append_right _ List.mem_cons_self

/-- A Deployment that is deleted after it was fetched makes the upsert fail for a reason that is not
retried. -/
theorem not_retryable_lost :
    let w := contestedShop [.deletes]
    let k : ObjectKey := ⟨DerivedKind.deployment, "apps", "shop"⟩
    let run := (upsert .deployment "apps" shopDeployment).run.run (Contested.answer k) w
    shopDeployment.metadata.name = some "shop" ∧ shopDeployment.Reads ∧ w.Readable k ∧
      run.result = .error (Cluster.notFound DerivedKind.deployment "apps" "shop") ∧
      (Cluster.notFound DerivedKind.deployment "apps" "shop").isRetryable = false := by
  have hw : (contestedShop [.deletes]).Readable ⟨DerivedKind.deployment, "apps", "shop"⟩ :=
    readable_contestedShop fun v hv => nomatch List.mem_singleton.1 hv
  exact ⟨by decide +kernel, reads_shopDeployment, hw, by decide +kernel, by decide +kernel⟩

end Pass
end ConnectorControl
