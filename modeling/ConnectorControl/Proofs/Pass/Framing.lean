import ConnectorControl.Proofs.Pass.Filing
import ConnectorControl.Proofs.Pass.Prune

/-!
# What a pass leaves alone

Whatever the store holds, whatever faults come between and however a pass ends, what it makes of an
object is one of four things (`Fate`):

* it stays as it was;
* it is the Connector, and differs in its status at most;
* it has the name of an object that the Connector asks for, and keeps whatever the body of that
  object does not speak of;
* it is pruned, having the Connector as its controller.

`Framed` says so for all objects of a store.  Every write of a pass keeps a store framed
(`Framed.upserted`, `Framed.remove`, `Framed.recorded`), hence so does a whole pass, at each of its
calls and at its end (`confined_of_reconcile`).
-/

namespace ConnectorControl
namespace Pass

/-- what a pass may have made of the value under a key: `X` are the objects that it may write, `D`
the keys that it may prune -/
inductive Fate (i : Identity) (c : Connector) (X : Draft → Prop) (D : ObjectKey → Prop)
    (k : ObjectKey) (old : Option Json) : Option Json → Prop
  | kept : Fate i c X D k old old
  | recorded {v w : Json} (hk : k = i.connectorKey) (hv : old = some v)
    (hkeep : ∀ m, m ≠ "status" → w.find? m = v.find? m) : Fate i c X D k old (some w)
  | written {x : Draft} {w : Json} (hx : X x) (hk : x.key i.ns = k) (hname : i.Names x.kind x.name)
    (hlabel : i.labels w = true)
    (hkeep : ∀ v, old = some v → ∀ path, (x.toObject c).toJson.LeavesAlone path →
      w.at? path = v.at? path) : Fate i c X D k old (some w)
  | pruned {v : Json} (hk : D k) (hv : old = some v)
    (hlabel : Cluster.isSelected (Derived.selector i.name) v = true)
    (howner : i.controls v = true) : Fate i c X D k old none

/-- what a pass may have made of a store; no object has left its place -/
structure Framed (i : Identity) (c : Connector) (X : Draft → Prop) (D : ObjectKey → Prop)
    (s s' : Cluster) : Prop where
  filed : s'.Filed
  fate : ∀ k, Fate i c X D k (s.find? k) (s'.find? k)

section
variable {i : Identity} {c : Connector} {X Y : Draft → Prop} {D F : ObjectKey → Prop}
  {s₀ s s' : Cluster} {k : ObjectKey} {old new : Option Json} {x : Draft} {v w : Json}

/-! ## single steps -/

theorem Fate.mono (h : Fate i c X D k old new) (hX : ∀ x, X x → Y x) (hD : ∀ k, D k → F k) :
    Fate i c Y F k old new := by
  cases h with
  | kept => exact .kept
  | recorded hk hv hkeep => exact .recorded hk hv hkeep
  | written hx hk hname hlabel hkeep => exact .written (hX _ hx) hk hname hlabel hkeep
  | pruned hk hv hlabel howner => exact .pruned (hD _ hk) hv hlabel howner

/-- whatever is not the Connector, not wanted and not to be pruned is kept -/
theorem Fate.eq (h : Fate i c X D k old new) (hc : k ≠ i.connectorKey)
    (hX : ∀ x, X x → x.key i.ns ≠ k) (hD : ¬D k) : new = old := by
  cases h with
  | kept => rfl
  | recorded hk _ _ => exact absurd hk hc
  | written hx hk _ _ _ => exact absurd hk (hX _ hx)
  | pruned hk _ _ _ => exact absurd hk hD

theorem Framed.refl (h : s.Filed) : Framed i c X D s s := ⟨h, fun _ => .kept⟩

theorem Framed.mono (h : Framed i c X D s s') (hX : ∀ x, X x → Y x) (hD : ∀ k, D k → F k) :
    Framed i c Y F s s' := ⟨h.filed, fun k => (h.fate k).mono hX hD⟩

/-- what an upsert writes keeps what its body does not speak of -/
theorem Fate.upserted (h : Fate i c X D (x.key i.ns) old (s.find? (x.key i.ns)))
    (hi : i.Describes c) (hx : X x) (hfits : x.Fits i)
    (hone : ∀ y, X y → y.key i.ns = x.key i.ns → y = x) (hD : ¬D (x.key i.ns))
    (hu : Upserted x.kind i.ns x.name (x.toObject c) s w s') :
    Fate i c X D (x.key i.ns) old (some w) := by
  cases hu with
  | created hnone =>
    have hnone : s.find? (x.key i.ns) = none := hnone
    rw [hnone] at h
    have hlabel : i.labels (s.stamp i.ns (x.toObject c).stripNulls).toJson = true := by
      rw [show (s.stamp i.ns (x.toObject c).stripNulls).toJson = _ from
        hi.stored_of_create s hfits.isSpec.isNull]
      exact Identity.labels_stored
    refine .written hx rfl hfits.names hlabel fun v hv => ?_
    -- an object that was there can only be gone if it was pruned, which this one is not
    cases h with
    | kept => cases hv
    | pruned hk _ _ _ => exact absurd hk hD
  | patched v hv hread =>
    have hv : s.find? (x.key i.ns) = some v := hv
    have hcanonical := hfits.isSpec.canonical
    have hmerge : ∀ path, (x.toObject c).toJson.LeavesAlone path →
        (v.merge (x.toObject c).toJson).at? path = v.at? path := fun path hpath =>
      Json.at?_merge (Derived.canonical_toJson hcanonical) hpath v
    rw [hv] at h
    refine .written hx rfl hfits.names (hi.labels_merge hcanonical v) fun v' hv' path hpath => ?_
    rw [hmerge path hpath]
    cases h with
    | kept =>
      obtain rfl := Option.some.inj hv'
      rfl
    | recorded hk _ _ => cases hk
    | written hy hk _ _ hkeep =>
      obtain rfl := hone _ hy hk
      exact hkeep v' hv' path hpath

theorem Framed.upserted (h : Framed i c X D s₀ s) (hi : i.Describes c) (hx : X x)
    (hfits : x.Fits i) (hone : ∀ y, X y → y.key i.ns = x.key i.ns → y = x)
    (hD : ¬D (x.key i.ns)) (hu : Upserted x.kind i.ns x.name (x.toObject c) s w s') :
    Framed i c X D s₀ s' := by
  refine ⟨filed_upserted h.filed hi hfits hu, fun k => ?_⟩
  by_cases hk : k = x.key i.ns
  · subst hk
    rw [show s'.find? (x.key i.ns) = some w from hu.find?_self]
    exact (h.fate _).upserted hi hx hfits hone hD hu
  · rw [hu.find?_of_ne hk]
    exact h.fate k

/-- an object that is not wanted may be deleted if it is still the one that the pass found -/
theorem Framed.remove (h : Framed i c X D s₀ s) (hc : k ≠ i.connectorKey)
    (hX : ∀ x, X x → x.key i.ns ≠ k) (hD : D k)
    (hv : ∀ v, s.find? k = some v → Cluster.isSelected (Derived.selector i.name) v = true ∧
      i.controls v = true) : Framed i c X D s₀ (s.remove k) := by
  refine ⟨h.filed.remove, fun k' => ?_⟩
  rw [Cluster.find?_remove]
  split
  next hk =>
    subst hk
    have hfate := h.fate k'
    cases hs : s.find? k' with
    | none =>
      rw [hs] at hfate
      exact hfate
    | some v =>
      obtain ⟨hlabel, howner⟩ := hv v hs
      rw [hs] at hfate
      generalize hold : s₀.find? k' = old at hfate ⊢
      cases hfate with
      | kept => exact .pruned hD rfl hlabel howner
      | recorded hk _ _ => exact absurd hk hc
      | written hx hk _ _ _ => exact absurd hk (hX _ hx)
  · exact h.fate k'

/-- a status that is recorded shows in the Connector's status alone -/
theorem Framed.recorded (h : Framed i c X D s₀ s) (hX : ∀ x, X x → x.key i.ns ≠ i.connectorKey)
    (hr : Recorded i.ns i.name s s') (k : ObjectKey) :
    Fate i c X D k (s₀.find? k) (s'.find? k) := by
  by_cases hk : k = i.connectorKey
  · subst hk
    cases hr with
    | skipped => exact h.fate _
    | patched v status hv =>
      have hv : s.find? i.connectorKey = some v := hv
      have hset : (s.set i.connectorKey (v.merge (.object [("status", status)]))).find?
          i.connectorKey = some (v.merge (.object [("status", status)])) :=
        (Cluster.find?_set _ _ _ _).trans (if_pos rfl)
      have hmember : ∀ m, m ≠ "status" →
          (v.merge (.object [("status", status)])).find? m = v.find? m := by
        intro m hm
        rw [Json.find?_merge v (Json.isTable_object _), Json.find?_object (by simp),
          Entries.find?_cons, if_neg hm]
        rfl
      have hfate := h.fate i.connectorKey
      rw [hv] at hfate
      rw [show s.set ⟨.connector, i.ns, i.name⟩ _ = s.set i.connectorKey _ from rfl, hset]
      generalize hold : s₀.find? i.connectorKey = old at hfate ⊢
      cases hfate with
      | kept => exact .recorded rfl rfl hmember
      | recorded _ hv₀ hkeep =>
        exact .recorded rfl hv₀ fun m hm => (hmember m hm).trans (hkeep m hm)
      | written hx hk _ _ _ => exact absurd hk (hX _ hx)
  · rw [hr.find?_of_ne hk]
    exact h.fate k

end
/-! ## the steps of a pass -/

/-- what a pass over a Connector wants to be there -/
inductive Wanted (s : Cluster) (auth : ScalerConfig) (c : Connector) (ns : String) : Draft → Prop
  | deployment : Wanted s auth c ns (.deployment c)
  | drafted {scaling : Option ScalingRule} {p : ScalePlan} {x : Draft}
    (hscaling : c.spec.effectiveScaling = .ok scaling) (hp : Planned s auth c ns scaling p)
    (hx : x ∈ p.drafts) : Wanted s auth c ns x

/-- where pruning may delete objects, if it is on -/
structure Prunable (settings : PassSettings) (ns : String) (k : ObjectKey) : Prop where
  on : settings.prune = true
  ns : k.ns = ns
  kind : ∃ kind ∈ Derived.prunable, k.kind = .derived kind

section
variable {i : Identity} {c : Connector} {X : Draft → Prop} {D : ObjectKey → Prop} {d : Disturbance}
  {s₀ s s' : Cluster} {settings : PassSettings} {now : String} {p : ScalePlan}

/-- different objects that a pass writes are written under different keys -/
def Apart (i : Identity) (X : Draft → Prop) : Prop :=
  ∀ x y, X x → X y → x.key i.ns = y.key i.ns → x = y

theorem ensures_upsert_framed {x : Draft} (hi : i.Describes c) (hx : X x) (hfits : x.Fits i)
    (hX : Apart i X) (hD : ¬D (x.key i.ns)) (hs : Framed i c X D s₀ s) :
    Ensures d (fun _ => Framed i c X D s₀) (upsert x.kind i.ns (x.toObject c)) s
      (fun _ => Framed i c X D s₀) fun _ => Framed i c X D s₀ := by
  have hwritten : ∀ w s', Upserted x.kind i.ns x.name (x.toObject c) s w s' →
      Framed i c X D s₀ s' := fun w s' hu =>
    hs.upserted hi hx hfits (fun y hy => hX y x hy hx) hD hu
  exact ensures_upsert (show _ = some x.name from rfl) hs hs hs
    (fun _ w s' _ hu _ _ => hwritten w s' hu) (fun _ _ => hs) fun _ w s' hu _ => hwritten w s' hu

theorem ensures_upsertAll_framed {xs : List Draft} (hi : i.Describes c)
    (hxs : ∀ x ∈ xs, X x ∧ x.Fits i) (hX : Apart i X) (hD : ∀ x, X x → ¬D (x.key i.ns))
    (hs : Framed i c X D s₀ s) :
    Ensures d (fun _ => Framed i c X D s₀) (upsertAll c i.ns xs) s
      (fun _ => Framed i c X D s₀) fun _ => Framed i c X D s₀ := by
  induction xs generalizing s with
  | nil => exact hs
  | cons x xs ih =>
    obtain ⟨hx, hfits⟩ := hxs x List.mem_cons_self
    unfold upsertAll
    rw [ensures_bind]
    refine (ensures_upsert_framed hi hx hfits hX (hD x hx) hs).mono_ok fun _ s' hs' => ?_
    exact ih (fun y hy => hxs y (List.mem_cons_of_mem _ hy)) hs'

/-- Pruning deletes what it has listed, which the pass has not written. -/
theorem ensures_prune_framed {desired : List (DerivedKind × String)} (hi : i.Describes c)
    (hdesired : ∀ kind ∈ Derived.prunable, ∀ name, (kind, name) ∉ desired →
      D (i.key kind name) ∧ ∀ x, X x → x.key i.ns ≠ i.key kind name)
    (hs : Framed i c X D s₀ s) :
    Ensures d (fun _ => Framed i c X D s₀) (prune c i.ns desired) s
      (fun _ => Framed i c X D s₀) fun _ => Framed i c X D s₀ := by
  unfold prune
  cases huid : c.metadata.uid with
  | none => exact hs
  | some uid =>
    have hi' : i.uid = some uid := by rw [← hi.uid, huid]
    show Ensures d _ (pruneKinds desired uid i.ns (Derived.selector c.name) _) s _ _
    rw [hi.connector_name]
    let J : List DerivedKind → Cluster → Prop := fun kinds s =>
      Framed i c X D s₀ s ∧ ∀ kind ∈ kinds, kind ∈ Derived.prunable
    refine (ensures_pruneKinds (J := J) (fun kind kinds s hJ => ?_)
      ⟨hs, fun _ hk => hk⟩).mono_ok fun _ _ h => h.1
    obtain ⟨hs, hkinds⟩ := hJ
    have hrest : ∀ s', Framed i c X D s₀ s' → J kinds s' := fun s' hs' =>
      ⟨hs', fun kind' hk => hkinds kind' (List.mem_cons_of_mem _ hk)⟩
    refine ensures_list hs (fun found hfound => ?_) (fun _ => hrest s hs) fun _ _ => hs
    -- while the listed objects are deleted one by one, the others stay as they were listed
    let L : Cluster → Prop := fun s' => Framed i c X D s₀ s' ∧
      ∀ k v, s'.find? k = some v → s.find? k = some v
    refine Ensures.mono_ok (Q := fun _ s' => L s' ∧ _) (ensures_deleteStale (J := L)
      (fun _ _ _ s' hs' => hs'.1) (fun o ho hstale s' hs' => ?_) (fun _ _ _ hs' => hs'.1)
      ⟨hs, fun _ _ hv => hv⟩) fun _ s' h => hrest s' h.1.1
    obtain ⟨v, hmem, hread⟩ := exists_of_mem_mapM hfound ho
    obtain ⟨name, hv, hselected⟩ := Cluster.mem_select.1 hmem
    have hname : o.metadata.nameAny = name := hs.filed.nameAny hv hread
    obtain ⟨hundesired, howner⟩ := isStale_iff.1 hstale
    rw [hname] at hundesired ⊢
    obtain ⟨hD, hX⟩ := hdesired kind (hkinds kind List.mem_cons_self) name hundesired
    refine ⟨hs'.1.remove nofun hX hD fun v' hv' => ?_, fun k v' hv' => ?_⟩
    · obtain rfl := Option.some.inj (hv.symm.trans (hs'.2 _ v' hv'))
      exact ⟨hselected, Identity.controls_of_read hi' hread howner⟩
    · exact hs'.2 k v' (Cluster.find?_of_find?_remove hv')

theorem Framed.sameMounts (h : Framed i c X D s₀ s) (hD : ∀ k, D k → ∃ kind : DerivedKind,
    k.kind = kind) (k : ObjectKey) (hk : IsMount i.ns k) : s.find? k = s₀.find? k := by
  have hkind : ∀ kind : DerivedKind, k.kind ≠ kind := by
    intro kind he
    rcases hk.2 with hk | hk <;> rw [he] at hk <;> cases hk
  refine (h.fate k).eq ?_ (fun x _ he => hkind x.kind (by rw [← he]; rfl)) fun hk' => ?_
  · rintro rfl
    rcases hk.2 with hk | hk <;> cases hk
  · obtain ⟨kind, he⟩ := hD k hk'
    exact hkind kind he

end

section
variable {s t : Cluster} {auth : ScalerConfig} {c : Connector} {ns connector : String}

theorem Plans.congr {index : Nat} {ts : List Trigger} {ps : List PlannedTrigger}
    (h : Plans s auth connector ns index ts ps) (ht : ∀ k, IsMount ns k → t.find? k = s.find? k) :
    Plans t auth connector ns index ts ps := by
  induction h with
  | nil index => exact .nil index
  | plain hs rest ih => exact .plain hs ih
  | secret hs hsets hsecret hkeys rest ih =>
    obtain ⟨v, o, hv, hread⟩ := hsecret
    exact .secret hs hsets ⟨v, o, (ht _ ⟨rfl, .inl rfl⟩).trans hv, hread⟩ hkeys ih

theorem Planned.congr {scaling : Option ScalingRule} {p : ScalePlan}
    (h : Planned s auth c ns scaling p) (ht : ∀ k, IsMount ns k → t.find? k = s.find? k) :
    Planned t auth c ns scaling p := by
  cases h with
  | none => exact .none
  | http hm hport => exact .http hm hport
  | custom hm hps => exact .custom hm (hps.congr ht)

end

/-! ## a pass -/

section
variable {i : Identity} {c : Connector} {d : Disturbance} {s s' : Cluster}
  {settings : PassSettings} {now : String} {p : ScalePlan} {scaling : Option ScalingRule}

def OfPlan (c : Connector) (p : ScalePlan) (x : Draft) : Prop := x = .deployment c ∨ x ∈ p.drafts

def BesidesPlan (settings : PassSettings) (i : Identity) (c : Connector) (p : ScalePlan)
    (k : ObjectKey) : Prop :=
  Prunable settings i.ns k ∧ ∀ x, OfPlan c p x → x.key i.ns ≠ k

theorem apart_deployment : Apart i (· = .deployment c) := by
  rintro x y rfl rfl _
  rfl

theorem apart_ofPlan (hp : Planned s settings.auth c i.ns scaling p) : Apart i (OfPlan c p) := by
  rintro x y (rfl | hx) (rfl | hy) he
  · rfl
  · exact absurd he.symm (hp.key_ne hy)
  · exact absurd he (hp.key_ne hx)
  · exact List.inj_on_of_nodup_map hp.keys_nodup hx hy he

theorem besidesPlan_of_not_mem (hp : Planned s settings.auth c i.ns scaling p)
    (hon : settings.prune = true) {kind : DerivedKind} (hkind : kind ∈ Derived.prunable)
    {name : String} (hno : (kind, name) ∉ (p.outcome now).desired) :
    BesidesPlan settings i c p (i.key kind name) := by
  refine ⟨⟨hon, rfl, kind, hkind, rfl⟩, ?_⟩
  rintro x (rfl | hx) he
  · have hk : Kind.derived .deployment = .derived kind := congrArg ObjectKey.kind he
    rw [← Kind.derived.inj hk] at hkind
    revert hkind
    decide
  · refine hno ((hp.mem_desired now).2 ⟨x, hx, ?_, ?_⟩)
    · exact Kind.derived.inj (congrArg ObjectKey.kind he)
    · exact congrArg ObjectKey.name he

theorem wanted_of_ofPlan (hscaling : c.spec.effectiveScaling = .ok scaling)
    (hp : Planned s settings.auth c i.ns scaling p) {x : Draft} (hx : OfPlan c p x) :
    Wanted s settings.auth c i.ns x := by
  rcases hx with rfl | hx
  · exact .deployment
  · exact .drafted hscaling hp hx

/-- before pruning, all that may have been written is the Deployment and what is planned -/
theorem ensures_untilPruning_framed (settings : PassSettings) (now : String) (hi : i.Describes c)
    (hs : s.Filed) :
    Ensures d (fun _ => Framed i c (Wanted s settings.auth c i.ns) (fun _ => False) s)
      (untilPruning settings now c i.ns) s
      (fun outcome s' => ∃ scaling p, c.spec.effectiveScaling = .ok scaling ∧
        Planned s settings.auth c i.ns scaling p ∧ outcome = p.outcome now ∧
          Framed i c (OfPlan c p) (fun _ => False) s s')
      fun _ => Framed i c (Wanted s settings.auth c i.ns) (fun _ => False) s := by
  have hrefl : Framed i c (Wanted s settings.auth c i.ns) (fun _ => False) s s := .refl hs
  refine ensures_untilPruning (fun _ _ => hrefl) (fun _ _ => hrefl) fun scaling _ hscaling => ?_
  refine (fetches_requireMounts.unchanged fun _ _ => hrefl).mono (fun _ s₁ h₁ => ?_)
    fun _ s₁ h₁ => by rw [h₁]; exact hrefl
  subst h₁
  have hfirst : ∀ s', Framed i c (· = .deployment c) (fun _ => False) s₁ s' →
      Framed i c (Wanted s₁ settings.auth c i.ns) (fun _ => False) s₁ s' := fun s' h => by
    refine h.mono ?_ fun _ hk => hk
    rintro x rfl
    exact .deployment
  refine ((ensures_upsert_framed (X := (· = .deployment c)) (D := fun _ => False) hi rfl
    (fits_deployment hi) apart_deployment not_false (.refl hs)).mono_calls fun _ => hfirst).mono
      (fun _ s₂ h₂ => ?_) fun _ => hfirst
  refine (ensures_plan (fun _ => hfirst s₂ h₂) fun _ => hfirst s₂ h₂).mono_ok fun p s₃ h₃ => ?_
  obtain ⟨rfl, hp⟩ := h₃
  -- the Deployment is no Secret, so the plan is one for the store at the start
  have hp₁ : Planned s₁ settings.auth c i.ns scaling p :=
    hp.congr fun k hk => (h₂.sameMounts (fun _ h => h.elim) k hk).symm
  have hnext : ∀ s', Framed i c (OfPlan c p) (fun _ => False) s₁ s' →
      Framed i c (Wanted s₁ settings.auth c i.ns) (fun _ => False) s₁ s' := fun s' h =>
    h.mono (fun _ => wanted_of_ofPlan hscaling hp₁) fun _ hk => hk
  have hstart : Framed i c (OfPlan c p) (fun _ => False) s₁ s₃ :=
    h₂.mono (fun _ => .inl) fun _ h => h
  exact ((ensures_upsertAll_framed hi (fun x hx => ⟨.inr hx, hp.fits hi hx⟩) (apart_ofPlan hp)
    (fun _ _ => not_false) hstart).mono_calls fun _ => hnext).mono
      (fun _ s₄ h₄ => ⟨scaling, p, hscaling, hp₁, rfl, h₄⟩) fun _ => hnext

/-- what a pass over a Connector may have made of a store -/
abbrev FramedBy (settings : PassSettings) (i : Identity) (c : Connector) (s s' : Cluster) : Prop :=
  Framed i c (Wanted s settings.auth c i.ns) (Prunable settings i.ns) s s'

theorem ensures_converge_framed (hi : i.Describes c) (hs : s.Filed) :
    Ensures d (fun _ => FramedBy settings i c s) (converge settings now c i.ns) s
      (fun _ => FramedBy settings i c s) fun _ => FramedBy settings i c s := by
  have hfirst : ∀ s', Framed i c (Wanted s settings.auth c i.ns) (fun _ => False) s s' →
      FramedBy settings i c s s' := fun s' h => h.mono (fun _ hx => hx) fun _ hk => hk.elim
  rw [converge_eq_untilPruning, ensures_bind]
  refine ((ensures_untilPruning_framed settings now hi hs).mono_calls fun _ => hfirst).mono
    (fun outcome s₁ h₁ => ?_) fun _ => hfirst
  obtain ⟨scaling, p, hscaling, hp, rfl, h₁⟩ := h₁
  have hlast : ∀ s', Framed i c (OfPlan c p) (BesidesPlan settings i c p) s s' →
      FramedBy settings i c s s' := fun s' h =>
    h.mono (fun _ => wanted_of_ofPlan hscaling hp) fun _ hk => hk.1
  have hstart : Framed i c (OfPlan c p) (BesidesPlan settings i c p) s s₁ :=
    h₁.mono (fun _ hx => hx) fun _ h => h.elim
  refine ensures_finish (fun hon => ?_) fun _ => hlast s₁ hstart
  have hdesired : ∀ kind ∈ Derived.prunable, ∀ name, (kind, name) ∉ (p.outcome now).desired →
      BesidesPlan settings i c p (i.key kind name) ∧
        ∀ x, OfPlan c p x → x.key i.ns ≠ i.key kind name := fun kind hkind name hno =>
    have hk := besidesPlan_of_not_mem hp hon hkind hno
    ⟨hk, hk.2⟩
  exact ((ensures_prune_framed hi hdesired hstart).mono_calls fun _ => hlast).mono
    (fun _ => hlast) fun _ => hlast

theorem ensures_tryRecord_framed {s₁ : Cluster} {cond : Condition} (hi : i.Describes c)
    (h : FramedBy settings i c s s₁) : Program.Ensures d
      (fun _ s' => ∀ k, Fate i c (Wanted s settings.auth c i.ns) (Prunable settings i.ns) k
        (s.find? k) (s'.find? k)) (tryRecord c i.ns cond) s₁
      fun _ s' => ∀ k, Fate i c (Wanted s settings.auth c i.ns) (Prunable settings i.ns) k
        (s.find? k) (s'.find? k) := by
  refine (ensures_tryRecord fun _ => h.fate).mono fun _ s' hr => ?_
  rw [hi.connector_name] at hr
  exact h.recorded (fun _ _ => nofun) hr

end

/-! ## a reconciliation -/

/-- What a reconciliation may have made of a store: every object is as it was, or it has one of the
fates that the Connector brings with it; and there are places where nothing changes at all. -/
structure Confined (settings : PassSettings) (ns name : String) (s t : Cluster) : Prop where
  fate : ∀ k, t.find? k = s.find? k ∨ ∃ c, s.Holds .connector ns name Connector.decode c ∧
    Fate ⟨ns, name, c.metadata.uid⟩ c (Wanted s settings.auth c ns) (Prunable settings ns) k
      (s.find? k) (t.find? k)
  elsewhere : ∀ k, (k.ns ≠ ns ∨ k.kind = .secret ∨ k.kind = .configMap ∨
    k.kind = .connector ∧ k.name ≠ name) → t.find? k = s.find? k

section
variable {ns name : String} {settings : PassSettings} {now : String} {s t : Cluster}
  {d : Disturbance}

theorem Confined.refl : Confined settings ns name s s := ⟨fun _ => .inl rfl, fun _ _ => rfl⟩

theorem confined_of_fate {c : Connector} (hc : s.Holds .connector ns name Connector.decode c)
    (h : ∀ k, Fate ⟨ns, name, c.metadata.uid⟩ c (Wanted s settings.auth c ns)
      (Prunable settings ns) k (s.find? k) (t.find? k)) : Confined settings ns name s t := by
  refine ⟨fun k => .inr ⟨c, hc, h k⟩, fun k hk => ?_⟩
  refine (h k).eq ?_ ?_ fun hp => ?_
  · rintro rfl
    simp [Identity.connectorKey] at hk
  · rintro x _ rfl
    simp [Draft.key] at hk
  · obtain ⟨kind, _, hkind⟩ := hp.kind
    simp [hp.ns, hkind] at hk

theorem ensures_reconcile_confined (hs : s.Filed) :
    Ensures d (fun _ => Confined settings ns name s) (reconcile settings now ns name) s
      (fun _ => Confined settings ns name s) fun _ => Confined settings ns name s := by
  refine ensures_reconcile .refl (fun c hc => ?_) .refl fun _ => .refl
  have hi := hs.describes hc
  have hrecord : ∀ cond s₁, FramedBy settings ⟨ns, name, c.metadata.uid⟩ c s s₁ →
      Program.Ensures d (fun _ => Confined settings ns name s) (tryRecord c ns cond) s₁
        fun _ => Confined settings ns name s := fun cond s₁ h₁ =>
    ((ensures_tryRecord_framed hi h₁).mono_calls fun _ _ h => confined_of_fate hc h).mono
      fun _ _ h => confined_of_fate hc h
  refine ensures_visit (fun _ => hrecord _ s (.refl hs)) fun _ => ?_
  exact ((ensures_converge_framed hi hs).mono_calls fun _ _ h => confined_of_fate hc h.fate).mono
    (fun cond s₁ => hrecord cond s₁) fun e s₁ => hrecord _ s₁

/-- Whatever faults come between and however it ends, a reconciliation leaves every object alone but
the status of its Connector, the objects that the Connector asks for, which keep what their bodies
do not speak of, and those that it owns and that are pruned.  So it is at each of its calls. -/
theorem confined_of_reconcile (hs : s.Filed) (settings : PassSettings) (now ns name : String)
    (faults : List Fault) :
    (∀ m ∈ (reconcile settings now ns name).run.calls World.answer ⟨s, faults, []⟩,
      Confined settings ns name s m.2.cluster) ∧
    Confined settings ns name s
      (reconciled settings now ns name ⟨s, faults, []⟩).state.cluster := by
  have h : Ensures .any (fun _ => Confined settings ns name s) (reconcile settings now ns name) s
      (fun _ => Confined settings ns name s) fun _ => Confined settings ns name s :=
    ensures_reconcile_confined hs
  obtain ⟨hcalls, hend, _⟩ := Program.Ensures.run (w := ⟨s, faults, []⟩) h (World.within_any _)
  refine ⟨hcalls, ?_⟩
  unfold reconciled
  cases hr : ((reconcile settings now ns name).run.run World.answer ⟨s, faults, []⟩).result with
  | ok a =>
    rw [hr] at hend
    exact hend
  | error e =>
    rw [hr] at hend
    exact hend

end

theorem filed_portal : portalWorld.cluster.Filed := by
  refine ⟨kept_portal.canonical, fun k v hv => ?_⟩
  have hv : (Cluster.empty.set ⟨.connector, "apps", "portal"⟩ portal).find? k = some v := hv
  rw [Cluster.find?_set] at hv
  split at hv
  next hk =>
    obtain rfl := Option.some.inj hv
    rw [hk]
    rfl
  · cases hv

/-- a pass that creates a Deployment and then fails to record how it went -/
theorem confined_of_reconcile_portal :
    ((reconciled ⟨.empty, true⟩ "t" "apps" "portal" ⟨portalWorld.cluster,
        [⟨.patchStatus, .connector, none, some (.transient "down"), none, 0⟩],
        []⟩).state.cluster.find? ⟨.derived .deployment, "apps", "portal"⟩).isSome = true ∧
    Confined ⟨.empty, true⟩ "apps" "portal" portalWorld.cluster
      (reconciled ⟨.empty, true⟩ "t" "apps" "portal" ⟨portalWorld.cluster,
        [⟨.patchStatus, .connector, none, some (.transient "down"), none, 0⟩], []⟩).state.cluster :=
  ⟨by decide +kernel, (confined_of_reconcile filed_portal ⟨.empty, true⟩ "t" "apps" "portal" _).2⟩

end Pass
end ConnectorControl
