import ConnectorControl.Proofs.Pass.Likeness
import ConnectorControl.Proofs.Pass.Tending
import ConnectorControl.Proofs.Store.Abreast

/-!
# One pass on two stores

Two passes of a Connector, each on its own store, where the stores are level for the Connector
(`Level`), make the same of both (`Parallel`): under the Connector's keys there is the same on both
sides, or an object that both have created and that differs in its UID (`Twins`).

* `abreast_upsert`   before pruning an object is written on both sides or on none;
* `abreast_prune`    what is listed differs in objects that are not stale, so the same is deleted.
-/

namespace ConnectorControl
namespace Pass

/-- what two passes hold under a key: the same, or an object that both have created -/
inductive Twins (i : Identity) (s₀ : Cluster) (W : ObjectKey → Prop) (k : ObjectKey) :
    Option Json → Option Json → Prop
  | same (v : Option Json) : Twins i s₀ W k v v
  | created {kind : DerivedKind} {name uid uid' : String} {spec : Json} (hW : W k)
    (hk : k = i.key kind name) (hnone : s₀.find? k = none) :
    Twins i s₀ W k (some (i.stored kind name uid spec)) (some (i.stored kind name uid' spec))

/-- what two passes have made of two stores, where new objects are under the keys `W` -/
structure Parallel (i : Identity) (W : ObjectKey → Prop) (s₀ t₀ s t : Cluster) : Prop where
  left : Tended i s₀ s
  right : Tended i t₀ t
  twins : ∀ k, i.Owns k → Twins i s₀ W k (s.find? k) (t.find? k)
  created : s.created + t₀.created = t.created + s₀.created

structure Midway (i : Identity) (W : ObjectKey → Prop) (s₀ t₀ s t : Cluster) : Prop extends
    Parallel i W s₀ t₀ s t where
  connector : s.find? i.connectorKey = t.find? i.connectorKey

/-- before anything is pruned: what has not been written is as it was -/
structure Writing (i : Identity) (W : ObjectKey → Prop) (s₀ t₀ s t : Cluster) : Prop extends
    Midway i W s₀ t₀ s t where
  untouched : ∀ k, i.Owns k → ¬W k → s.find? k = s₀.find? k ∧ t.find? k = t₀.find? k

section
variable {i : Identity} {c : Connector} {W V : ObjectKey → Prop} {s₀ t₀ s t s' t' : Cluster}
  {x : Draft} {w w' : Json} {k : ObjectKey}

/-! ## two stores -/

theorem Twins.mono {v v' : Option Json} (h : Twins i s₀ W k v v') (hW : W k → V k) :
    Twins i s₀ V k v v' := by
  cases h with
  | same => exact .same _
  | created hk hkey hnone => exact .created (hW hk) hkey hnone

theorem Twins.symm {v v' : Option Json} (h : Twins i s₀ W k v v') : Twins i s₀ W k v' v := by
  cases h with
  | same => exact .same _
  | created hW hk hnone => exact .created hW hk hnone

theorem Twins.eq {v v' : Option Json} (h : Twins i s₀ W k v v') (hk : s₀.find? k = some w) :
    v = v' := by
  cases h with
  | same => rfl
  | created _ _ hnone =>
    rw [hnone] at hk
    cases hk

theorem Twins.withoutUid {v v' : Option Json} (h : Twins i s₀ W k v v') :
    v.map Json.withoutUid = v'.map Json.withoutUid := by
  cases h with
  | same => rfl
  | created => exact congrArg some (Identity.withoutUid_stored _ _)

theorem Midway.mono (h : Midway i W s₀ t₀ s t) (hW : ∀ k, W k → V k) : Midway i V s₀ t₀ s t :=
  ⟨⟨h.left, h.right, fun k hk => (h.twins k hk).mono (hW k), h.created⟩, h.connector⟩

theorem Midway.anywhere (h : Midway i W s₀ t₀ s t) : Midway i (fun _ => True) s₀ t₀ s t :=
  h.mono fun _ _ => trivial

theorem Level.writing (h : Level i s t) : Writing i (fun _ => False) s t s t := by
  refine ⟨⟨⟨.refl h.filed.1, .refl h.filed.2, fun k hk => ?_, Nat.add_comm _ _⟩, h.connector⟩,
    fun _ _ _ => ⟨rfl, rfl⟩⟩
  rw [h.owned k hk]
  exact .same _

theorem Parallel.mounts (h : Parallel i W s₀ t₀ s t) (h₀ : Level i s₀ t₀) (hk : IsMount i.ns k) :
    s.find? k = t.find? k := by
  rw [h.left.mounts hk, h.right.mounts hk]
  exact h₀.mounts k hk

theorem Midway.remove (h : Midway i W s₀ t₀ s t) (howns : i.Owns k)
    (hs₀ : ∀ v e, s₀.find? k = some v → Cluster.readObject v ≠ .error e)
    (ht₀ : ∀ v e, t₀.find? k = some v → Cluster.readObject v ≠ .error e) :
    Midway i W s₀ t₀ (s.remove k) (t.remove k) := by
  refine ⟨⟨h.left.remove howns hs₀, h.right.remove howns ht₀, fun k' hk' => ?_, h.created⟩, ?_⟩
  · rw [Cluster.find?_remove, Cluster.find?_remove]
    split
    · exact .same _
    · exact h.twins k' hk'
  · rw [Cluster.find?_remove, Cluster.find?_remove, h.connector]

/-! ## upserts -/

theorem Upserted.readable {kind : DerivedKind} {name ns : String} {o : Object} {v : Json}
    {e : Failure} (h : Upserted kind ns name o s w s') (hv : s.find? ⟨kind, ns, name⟩ = some v) :
    Cluster.readObject v ≠ .error e := by
  cases h with
  | created hnone =>
    rw [hnone] at hv
    cases hv
  | patched v' hv' hread =>
    obtain rfl := Option.some.inj (hv.symm.trans hv')
    obtain ⟨o', ho'⟩ := hread
    rw [ho']
    exact nofun

/-- an upsert of what is alike on both sides writes the same, but for the UID of a new object -/
theorem Upserted.alike (hu : Upserted x.kind i.ns x.name (x.toObject c) s w s')
    (hu' : Upserted x.kind i.ns x.name (x.toObject c) t w' t') (hi : i.Describes c)
    (hx : x.Fits i) (hk : s.find? (x.key i.ns) = t.find? (x.key i.ns)) :
    (w = w' ∧ s'.created = s.created ∧ t'.created = t.created) ∨
      s.find? (x.key i.ns) = none ∧ s'.created = s.created + 1 ∧ t'.created = t.created + 1 ∧
        ∃ uid uid', w = i.stored x.kind x.name uid x.spec.stripNulls ∧
          w' = i.stored x.kind x.name uid' x.spec.stripNulls := by
  cases hu with
  | created hnone =>
    cases hu' with
    | created hnone' =>
      exact .inr ⟨hnone, rfl, rfl, _, _, hi.stored_of_create s hx.isSpec.isNull,
        hi.stored_of_create t hx.isSpec.isNull⟩
    | patched v' hv' _ =>
      have hk : none = some v' := hnone.symm.trans (hk.trans hv')
      cases hk
  | patched v hv _ =>
    cases hu' with
    | created hnone' =>
      have hk : some v = none := hv.symm.trans (hk.trans hnone')
      cases hk
    | patched v' hv' _ =>
      obtain rfl : v = v' := Option.some.inj (hv.symm.trans (hk.trans hv'))
      exact .inl ⟨rfl, rfl, rfl⟩

theorem Upserted.unread_iff {e : Failure}
    (hu : Upserted x.kind i.ns x.name (x.toObject c) s w s')
    (hu' : Upserted x.kind i.ns x.name (x.toObject c) t w' t') (hi : i.Describes c)
    (hx : x.Fits i) (hk : s.find? (x.key i.ns) = t.find? (x.key i.ns)) :
    Cluster.readObject w = .error e ↔ Cluster.readObject w' = .error e := by
  rcases hu.alike hu' hi hx hk with ⟨rfl, _⟩ | ⟨_, _, _, uid, uid', rfl, rfl⟩
  · exact Iff.rfl
  · rw [Identity.readObject_stored, Identity.readObject_stored]
    exact ⟨nofun, nofun⟩

theorem Writing.upserted (h : Writing i W s₀ t₀ s t) (hi : i.Describes c) (hx : x.Fits i)
    (hW : ¬W (x.key i.ns)) (hk : s.find? (x.key i.ns) = t.find? (x.key i.ns))
    (hu : Upserted x.kind i.ns x.name (x.toObject c) s w s')
    (hu' : Upserted x.kind i.ns x.name (x.toObject c) t w' t') :
    Writing i (fun k => W k ∨ k = x.key i.ns) s₀ t₀ s' t' := by
  have howns : i.Owns (x.key i.ns) := ⟨x.kind, x.name, rfl, hx.names⟩
  have hcreated := h.created
  have halike := hu.alike hu' hi hx hk
  refine ⟨⟨⟨h.left.upserted hi hx hu, h.right.upserted hi hx hu', fun k howned => ?_, ?_⟩, ?_⟩,
    fun k howned hno => ?_⟩
  · by_cases hkey : k = x.key i.ns
    · subst hkey
      rw [show s'.find? (x.key i.ns) = some w from hu.find?_self,
        show t'.find? (x.key i.ns) = some w' from hu'.find?_self]
      rcases halike with ⟨rfl, _⟩ | ⟨hnone, _, _, uid, uid', rfl, rfl⟩
      · exact .same _
      · exact .created (.inr rfl) rfl ((h.untouched _ howns hW).1.symm.trans hnone)
    · rw [hu.find?_of_ne hkey, hu'.find?_of_ne hkey]
      exact (h.twins k howned).mono .inl
  · rcases halike with ⟨_, hs, ht⟩ | ⟨_, hs, ht, _⟩
    · omega
    · omega
  · have hkey : i.connectorKey ≠ x.key i.ns := (i.key_ne_connectorKey i).symm
    rw [hu.find?_of_ne hkey, hu'.find?_of_ne hkey]
    exact h.connector
  · obtain ⟨hno, hkey⟩ := not_or.1 hno
    rw [hu.find?_of_ne hkey, hu'.find?_of_ne hkey]
    exact h.untouched k howned hno

theorem ensures_upsert_end {kind : DerivedKind} {ns name : String} {o : Object}
    (hn : o.metadata.name = some name) : Ensures .none (fun _ _ => True) (upsert kind ns o) s
      (fun _ s' => ∃ w, Upserted kind ns name o s w s' ∧ ∀ e, Cluster.readObject w ≠ .error e)
      fun e s' => (s' = s ∧ ∃ v, s.find? ⟨kind, ns, name⟩ = some v ∧
          Cluster.readObject v = .error e) ∨
        ∃ w, Upserted kind ns name o s w s' ∧ Cluster.readObject w = .error e := by
  refine ensures_upsert hn trivial trivial trivial (fun _ w s' o' hu hw _ => ⟨w, hu, ?_⟩)
    (fun e he => ?_) fun e w s' hu hw => .inr ⟨w, hu, hw⟩
  · rw [hw]
    exact fun _ => nofun
  · rcases he with hq | he
    · exact absurd Disturbance.quiet_none hq
    · exact .inl ⟨rfl, he⟩

theorem abreast_upsert (h : Writing i W s₀ t₀ s t) (hi : i.Describes c) (hx : x.Fits i)
    (hW : ¬W (x.key i.ns)) (hk : s.find? (x.key i.ns) = t.find? (x.key i.ns)) :
    Abreast (upsert x.kind i.ns (x.toObject c)) (upsert x.kind i.ns (x.toObject c)) s t
      (fun _ _ => Writing i (fun k => W k ∨ k = x.key i.ns) s₀ t₀)
      (Midway i (fun _ => True) s₀ t₀) := by
  have hname : (x.toObject c).metadata.name = some x.name := rfl
  refine (Program.Ensures.abreast (ensures_upsert_end (s := s) hname)
    (ensures_upsert_end (s := t) hname)).mono fun r r' s' t' ⟨hs, ht⟩ => ?_
  cases r with
  | ok a =>
    obtain ⟨w, hu, hw⟩ := hs
    cases r' with
    | ok b =>
      obtain ⟨w', hu', _⟩ := ht
      exact h.upserted hi hx hW hk hu hu'
    | error e' =>
      rcases ht with ⟨_, v, hv, he⟩ | ⟨w', hu', hw'⟩
      · exact hu.readable (hk.trans hv) he
      · exact hw e' ((hu.unread_iff hu' hi hx hk).2 hw')
  | error e =>
    rcases hs with ⟨rfl, v, hv, he⟩ | ⟨w, hu, hw⟩
    · cases r' with
      | ok b =>
        obtain ⟨w', hu', _⟩ := ht
        exact hu'.readable (hk.symm.trans hv) he
      | error e' =>
        rcases ht with ⟨rfl, v', hv', he'⟩ | ⟨w', hu', _⟩
        · obtain rfl : v = v' := Option.some.inj (hv.symm.trans (hk.trans hv'))
          exact ⟨Except.error.inj (he.symm.trans he'), h.anywhere⟩
        · exact absurd he (hu'.readable (hk.symm.trans hv))
    · cases r' with
      | ok b =>
        obtain ⟨w', hu', hw'⟩ := ht
        exact hw' e ((hu.unread_iff hu' hi hx hk).1 hw)
      | error e' =>
        rcases ht with ⟨rfl, v', hv', he'⟩ | ⟨w', hu', hw'⟩
        · exact absurd he' (hu.readable (hk.trans hv'))
        · have hw := (hu.unread_iff hu' hi hx hk).1 hw
          exact ⟨Except.error.inj (hw.symm.trans hw'), (h.upserted hi hx hW hk hu hu').anywhere⟩

theorem abreast_upsertAll {xs : List Draft} (h₀ : Level i s₀ t₀) (h : Writing i W s₀ t₀ s t)
    (hi : i.Describes c) (hxs : ∀ x ∈ xs, x.Fits i ∧ ¬W (x.key i.ns))
    (hkeys : (xs.map (·.key i.ns)).Nodup) :
    Abreast (upsertAll c i.ns xs) (upsertAll c i.ns xs) s t
      (fun _ _ => Midway i (fun k => W k ∨ k ∈ xs.map (·.key i.ns)) s₀ t₀)
      (Midway i (fun _ => True) s₀ t₀) := by
  induction xs generalizing W s t with
  | nil => exact h.toMidway.mono fun _ => .inl
  | cons x xs ih =>
    obtain ⟨hx, hW⟩ := hxs x List.mem_cons_self
    rw [List.map_cons, List.nodup_cons] at hkeys
    obtain ⟨hxkey, hkeys⟩ := hkeys
    have howns : i.Owns (x.key i.ns) := ⟨x.kind, x.name, rfl, hx.names⟩
    obtain ⟨hs, ht⟩ := h.untouched _ howns hW
    have hk : s.find? (x.key i.ns) = t.find? (x.key i.ns) := by
      rw [hs, ht]
      exact h₀.owned _ howns
    refine abreast_bind ((abreast_upsert h hi hx hW hk).mono (fun _ _ s' t' h' => ?_) fun _ _ => id)
    refine (ih h' (fun y hy => ?_) hkeys).mono (fun _ _ _ _ h'' => h''.mono fun k hk => ?_)
      fun _ _ => id
    · obtain ⟨hy', hWy⟩ := hxs y (List.mem_cons_of_mem _ hy)
      refine ⟨hy', not_or.2 ⟨hWy, fun he => hxkey ?_⟩⟩
      rw [← he]
      exact List.mem_map_of_mem hy
    · rcases hk with (hk | hk) | hk
      · exact .inl hk
      · exact .inr (hk ▸ List.mem_cons_self)
      · exact .inr (List.mem_cons_of_mem _ hk)

/-! ## pruning -/

section
variable {desired : List (DerivedKind × String)} {uid : String} {kind : DerivedKind}

/-- whether a listed value matters to pruning: it is stale or it can not be read -/
def matters (desired : List (DerivedKind × String)) (uid : String) (kind : DerivedKind)
    (v : Json) : Bool :=
  match Cluster.readObject v with
  | .ok o => isStale desired uid kind o
  | .error _ => true

theorem matters_of_read {v : Json} {o : Object} (h : Cluster.readObject v = .ok o) :
    matters desired uid kind v = isStale desired uid kind o := by
  unfold matters
  rw [h]

theorem exists_of_not_matters {v : Json} (h : matters desired uid kind v = false) :
    ∃ o, Cluster.readObject v = .ok o ∧ isStale desired uid kind o = false := by
  cases ho : Cluster.readObject v with
  | ok o => exact ⟨o, rfl, (matters_of_read ho).symm.trans h⟩
  | error e =>
    unfold matters at h
    rw [ho] at h
    cases h

theorem matters_stored {name uid' : String} {spec : Json} (h : (kind, name) ∈ desired) :
    matters desired uid kind (i.stored kind name uid' spec) = false := by
  rw [matters_of_read Identity.readObject_stored, ← Bool.not_eq_true, isStale_iff]
  exact fun hst => hst.1 h

/-- what carries the Connector's label and matters, under no name of it, can not be read -/
theorem exists_error_of_matters {name : String} {v : Json} (h : i.NamesOwn s)
    (huid : i.uid = some uid) (hname : ¬i.Names kind name)
    (hv : s.find? (i.key kind name) = some v) (hlabel : i.labels v = true)
    (hm : matters desired uid kind v = true) : ∃ e, Cluster.readObject v = .error e := by
  cases ho : Cluster.readObject v with
  | error e => exact ⟨e, rfl⟩
  | ok o =>
    rw [matters_of_read ho] at hm
    have howner := Identity.controls_of_read huid ho (isStale_iff.1 hm).2
    exact absurd (h kind name v hv hlabel howner) hname

theorem Parallel.filter_select (h : Parallel i W s₀ t₀ s t) (h₀ : Level i s₀ t₀)
    (hcomma : ',' ∉ i.name.toList) (huid : i.uid = some uid)
    (hW : ∀ name, W (i.key kind name) → (kind, name) ∈ desired) :
    (s.select kind i.ns (Derived.selector i.name)).filter (matters desired uid kind) =
      (t.select kind i.ns (Derived.selector i.name)).filter (matters desired uid kind) := by
  refine Cluster.filter_select_congr fun name => ?_
  simp only [Identity.isSelected_selector hcomma]
  show (s.find? (i.key kind name)).filter _ = (t.find? (i.key kind name)).filter _
  by_cases hname : i.Names kind name
  · have htwins := h.twins _ (Identity.owns_key.2 hname)
    generalize s.find? (i.key kind name) = v at htwins
    generalize t.find? (i.key kind name) = v' at htwins
    cases htwins with
    | same => rfl
    | @created kind' name' uid₁ uid₂ spec hWk hk hnone =>
      simp only [Identity.key, ObjectKey.mk.injEq, Kind.derived.injEq, true_and] at hk
      obtain ⟨rfl, rfl⟩ := hk
      have hno : ∀ u, (some (i.stored kind name u spec)).filter (fun v =>
          i.labels v && matters desired uid kind v) = none := fun u => by
        rw [Option.filter_some, matters_stored (hW name hWk), Bool.and_false]
        rfl
      rw [hno, hno]
  · have hno := mt Identity.owns_key.1 hname
    have hkey : i.key kind name ≠ i.connectorKey := i.key_ne_connectorKey i
    rw [h.left.others _ hkey hno, h.right.others _ hkey hno]
    refine Option.ext fun v => ?_
    simp only [Option.filter_eq_some_iff, Bool.and_eq_true]
    constructor
    · rintro ⟨hv, hlabel, hm⟩
      obtain ⟨e, he⟩ := exists_error_of_matters h₀.namesOwn.1 huid hname hv hlabel hm
      exact ⟨(h₀.unread kind name v e hlabel he).1 hv, hlabel, hm⟩
    · rintro ⟨hv, hlabel, hm⟩
      obtain ⟨e, he⟩ := exists_error_of_matters h₀.namesOwn.2 huid hname hv hlabel hm
      exact ⟨(h₀.unread kind name v e hlabel he).2 hv, hlabel, hm⟩

/-- an object that may be deleted: it is the Connector's, and it could be read from the first on -/
def Deletable (i : Identity) (s₀ : Cluster) (k : ObjectKey) : Prop :=
  i.Owns k ∧ ∀ v e, s₀.find? k = some v → Cluster.readObject v ≠ .error e

theorem Tended.deletable (h : Tended i s₀ s) (hi : i.NamesOwn s₀) (hcomma : ',' ∉ i.name.toList)
    (huid : i.uid = some uid) {found : List Object} (hfound : (s.select kind i.ns
      (Derived.selector i.name)).mapM Cluster.readObject = .ok found) {o : Object}
    (ho : o ∈ found) (hst : isStale desired uid kind o = true) :
    Deletable i s₀ (i.key kind o.metadata.nameAny) := by
  obtain ⟨v, hmem, hread⟩ := exists_of_mem_mapM hfound ho
  obtain ⟨name, hv, hselected⟩ := Cluster.mem_select.1 hmem
  rw [Identity.isSelected_selector hcomma] at hselected
  obtain ⟨hundesired, howner⟩ := isStale_iff.1 hst
  rw [show o.metadata.nameAny = name from h.filed.nameAny hv hread]
  have hname := h.namesOwn hi kind name v hv hselected (Identity.controls_of_read huid hread howner)
  refine ⟨Identity.owns_key.2 hname, fun v' e hv' he => ?_⟩
  have hv'' := h.unread _ v' e (i.key_ne_connectorKey i) hv' he
  obtain rfl := Option.some.inj (hv.symm.trans hv'')
  rw [hread] at he
  cases he

theorem abreast_deleteStale {os : List Object} (h : Midway i W s₀ t₀ s t)
    (hos : ∀ o ∈ os, isStale desired uid kind o = true ∧
      Deletable i s₀ (i.key kind o.metadata.nameAny) ∧
        Deletable i t₀ (i.key kind o.metadata.nameAny)) :
    Abreast (deleteStale desired uid i.ns kind os) (deleteStale desired uid i.ns kind os) s t
      (fun _ _ => Midway i W s₀ t₀) (Midway i (fun _ => True) s₀ t₀) := by
  induction os generalizing s t with
  | nil => exact h
  | cons o os ih =>
    obtain ⟨hst, hs₀, ht₀⟩ := hos o List.mem_cons_self
    unfold deleteStale
    rw [if_pos hst]
    refine abreast_bind ?_
    show Abreast _ _ (s.remove (i.key kind o.metadata.nameAny))
      (t.remove (i.key kind o.metadata.nameAny)) _ _
    refine abreast_bind ((ih (h.remove hs₀.1 hs₀.2 ht₀.2) fun o' ho' =>
      hos o' (List.mem_cons_of_mem _ ho')).mono (fun _ _ _ _ h' => ?_) fun _ _ => id)
    exact h'

theorem abreast_pruneKind (h : Midway i W s₀ t₀ s t) (h₀ : Level i s₀ t₀)
    (hcomma : ',' ∉ i.name.toList) (huid : i.uid = some uid)
    (hW : ∀ name, W (i.key kind name) → (kind, name) ∈ desired) :
    Abreast (list kind i.ns (Derived.selector i.name)) (list kind i.ns (Derived.selector i.name))
      s t (fun found found' s t =>
        Abreast (deleteStale desired uid i.ns kind found)
          (deleteStale desired uid i.ns kind found') s t (fun _ _ => Midway i W s₀ t₀)
          (Midway i (fun _ => True) s₀ t₀)) (Midway i (fun _ => True) s₀ t₀) := by
  have hsame := h.filter_select h₀ hcomma huid hW
  show EndAlike _ _ ((s.select kind i.ns _).mapM Cluster.readObject)
    ((t.select kind i.ns _).mapM Cluster.readObject) s t
  have hread : ∀ {vs : List Json}, ∀ v ∈ vs, matters desired uid kind v = false →
      ∃ o, Cluster.readObject v = .ok o := fun v _ hv =>
    let ⟨o, ho, _⟩ := exists_of_not_matters hv
    ⟨o, ho⟩
  cases hm : ((s.select kind i.ns (Derived.selector i.name)).filter
      (matters desired uid kind)).mapM Cluster.readObject with
  | error e =>
    rw [mapM_of_filter_error hread hm, mapM_of_filter_error hread (hsame ▸ hm)]
    exact ⟨rfl, h.anywhere⟩
  | ok found =>
    obtain ⟨os, hos, hstale⟩ := mapM_of_filter_ok (fun v _ => exists_of_not_matters) hm
    obtain ⟨os', hos', hstale'⟩ :=
      mapM_of_filter_ok (fun v _ => exists_of_not_matters) (hsame ▸ hm)
    rw [hos, hos']
    show Abreast (deleteStale desired uid i.ns kind os) (deleteStale desired uid i.ns kind os')
      s t _ _
    rw [deleteStale_filter os, deleteStale_filter os', hstale, hstale']
    refine abreast_deleteStale h fun o ho => ?_
    obtain ⟨_, hst⟩ := List.mem_filter.1 ho
    refine ⟨hst, h.left.deletable h₀.namesOwn.1 hcomma huid hos ?_ hst,
      h.right.deletable h₀.namesOwn.2 hcomma huid hos' ?_ hst⟩
    · rw [← hstale] at ho
      exact (List.mem_filter.1 ho).1
    · rw [← hstale'] at ho
      exact (List.mem_filter.1 ho).1

theorem abreast_pruneKinds {kinds : List DerivedKind} (h : Midway i W s₀ t₀ s t)
    (h₀ : Level i s₀ t₀) (hcomma : ',' ∉ i.name.toList) (huid : i.uid = some uid)
    (hW : ∀ kind ∈ kinds, ∀ name, W (i.key kind name) → (kind, name) ∈ desired) :
    Abreast (pruneKinds desired uid i.ns (Derived.selector i.name) kinds)
      (pruneKinds desired uid i.ns (Derived.selector i.name) kinds) s t
      (fun _ _ => Midway i W s₀ t₀) (Midway i (fun _ => True) s₀ t₀) := by
  induction kinds generalizing s t with
  | nil => exact h
  | cons kind kinds ih =>
    unfold pruneKinds
    refine abreast_bind ((abreast_pruneKind h h₀ hcomma huid (hW kind List.mem_cons_self)).mono
      (fun _ _ _ _ h₁ => ?_) fun _ _ => id)
    refine abreast_bind (h₁.mono (fun _ _ _ _ h₂ => ?_) fun _ _ => id)
    refine abreast_bind ((ih h₂ fun kind' hk => hW kind' (List.mem_cons_of_mem _ hk)).mono
      (fun _ _ _ _ h₃ => ?_) fun _ _ => id)
    exact h₃

theorem abreast_prune (h : Midway i W s₀ t₀ s t) (h₀ : Level i s₀ t₀) (hi : i.Describes c)
    (hcomma : ',' ∉ i.name.toList)
    (hW : ∀ kind ∈ Derived.prunable, ∀ name, W (i.key kind name) → (kind, name) ∈ desired) :
    Abreast (prune c i.ns desired) (prune c i.ns desired) s t
      (fun _ _ => Midway i (fun _ => True) s₀ t₀) (Midway i (fun _ => True) s₀ t₀) := by
  unfold prune
  rw [hi.uid]
  cases huid : i.uid with
  | none => exact h.anywhere
  | some uid =>
    show Abreast (pruneKinds desired uid i.ns (Derived.selector c.name) _) _ s t _ _
    rw [hi.connector_name]
    exact (abreast_pruneKinds h h₀ hcomma huid hW).mono (fun _ _ _ _ h' => h'.anywhere)
      fun _ _ => id

end

end
end Pass
end ConnectorControl
