import ConnectorControl.Proofs.Pass.Framing
import ConnectorControl.Proofs.Pass.Runs
import ConnectorControl.Proofs.Store.Written

/-!
# What a pass deletes

An object is stale (`Stale`) when it carries the Connector's label, has the Connector as its
controller, and is not asked for by the scaling rule (`Desires`).

* `Planned.desired_iff`   what is planned is what the rule asks for;
* `ensures_prune_stale`   pruning deletes the objects that are stale when it begins, and no other;
* `deleted_iff_stale`     so a pass that succeeds has deleted what was stale when the pass began,
                          since nothing that it writes is stale before or after.
-/

namespace ConnectorControl

/-- whether a mode of scaling asks for an object besides the Deployment -/
def ScalingMode.Desires (connector : String) (kind : DerivedKind) (name : String) :
    ScalingMode → Prop
  | .http _ =>
    kind = .service ∧ name = connector ∨ kind = .httpScaledObject ∧ name = connector ++ "-vhso"
  | .custom scaling =>
    kind = .scaledObject ∧ name = connector ++ "-vso" ∨
      kind = .triggerAuthentication ∧
        ∃ index < (scaling.triggers.filter (·.secretName.isSome)).length,
          name = Derived.triggerAuthName connector index

/-- what is asked for by a scaling rule; without one, nothing -/
def Desires (connector : String) (scaling : Option ScalingRule) (kind : DerivedKind)
    (name : String) : Prop :=
  ∃ rule, scaling = some rule ∧ rule.mode.Desires connector kind name

namespace Pass

section
variable {s : Cluster} {auth : ScalerConfig} {c : Connector} {ns connector now : String}
  {scaling : Option ScalingRule} {p : ScalePlan} {kind : DerivedKind} {name : String}

theorem Plans.length_auths {index : Nat} {ts : List Trigger} {ps : List PlannedTrigger}
    (h : Plans s auth connector ns index ts ps) :
    (ScalePlan.auths ps).length = (ts.filter (·.secretName.isSome)).length := by
  induction h with
  | nil => rfl
  | @plain index t ts ps hs rest ih =>
    rw [List.filter_cons_of_neg (by rw [hs]; exact nofun)]
    exact ih
  | @secret index t ts ps name sets secret keys hs hsets hsecret hkeys rest ih =>
    rw [List.filter_cons_of_pos (by rw [hs]; rfl), List.length_cons, ← ih]
    rfl

theorem desires_some {rule : ScalingRule} :
    Desires connector (some rule) kind name ↔ rule.mode.Desires connector kind name := by
  constructor
  · rintro ⟨rule', hrule, h⟩
    obtain rfl := Option.some.inj hrule
    exact h
  · exact fun h => ⟨rule, rfl, h⟩

theorem Planned.desired_iff (h : Planned s auth c ns scaling p) (now : String) :
    (kind, name) ∈ (p.outcome now).desired ↔ Desires c.name scaling kind name := by
  rw [h.mem_desired now]
  cases h with
  | none =>
    constructor
    · rintro ⟨x, hx, _⟩
      cases hx
    · rintro ⟨rule, hrule, _⟩
      cases hrule
  | @http rule http port hm hport =>
    rw [desires_some, hm]
    constructor
    · rintro ⟨x, hx, rfl, rfl⟩
      rcases List.mem_cons.1 hx with rfl | hx
      · exact Or.inl ⟨rfl, rfl⟩
      · obtain rfl := List.mem_singleton.1 hx
        exact Or.inr ⟨rfl, rfl⟩
    · rintro (⟨rfl, rfl⟩ | ⟨rfl, rfl⟩)
      · exact ⟨_, List.mem_cons_self, rfl, rfl⟩
      · exact ⟨_, List.mem_cons_of_mem _ List.mem_cons_self, rfl, rfl⟩
  | @custom rule custom ps hm hps =>
    rw [desires_some, hm]
    -- the authentications are numbered from zero on
    have hauths : (∃ a ∈ ScalePlan.auths ps, a.name = name) ↔
        ∃ index < (custom.triggers.filter (·.secretName.isSome)).length,
          name = Derived.triggerAuthName c.name index := by
      rw [← List.mem_map, hps.names, ← hps.length_auths, List.mem_map]
      constructor
      · rintro ⟨index, hindex, rfl⟩
        rw [List.mem_range'_1] at hindex
        exact ⟨index, by omega, rfl⟩
      · rintro ⟨index, hindex, rfl⟩
        exact ⟨index, List.mem_range'_1.2 (by omega), rfl⟩
    constructor
    · rintro ⟨x, hx, rfl, rfl⟩
      rcases List.mem_append.1 hx with hx | hx
      · obtain ⟨a, ha, rfl⟩ := List.mem_map.1 hx
        exact Or.inr ⟨rfl, hauths.1 ⟨a, ha, rfl⟩⟩
      · obtain rfl := List.mem_singleton.1 hx
        exact Or.inl ⟨rfl, rfl⟩
    · rintro (⟨rfl, rfl⟩ | ⟨rfl, hname⟩)
      · exact ⟨_, List.mem_append_right _ List.mem_cons_self, rfl, rfl⟩
      · obtain ⟨a, ha, rfl⟩ := hauths.2 hname
        exact ⟨_, List.mem_append_left _ (List.mem_map_of_mem ha), rfl, rfl⟩

end

/-! ## stale objects -/

/-- an object of the Connector that is not wanted any more -/
structure Stale (i : Identity) (wanted : DerivedKind → String → Prop) (s : Cluster)
    (k : ObjectKey) : Prop where
  ns : k.ns = i.ns
  kind : ∃ kind, k.kind = .derived kind ∧ kind ≠ .deployment ∧ ¬wanted kind k.name
  owned : ∃ v, s.find? k = some v ∧ i.labels v = true ∧ i.controls v = true

section
variable {i : Identity} {c : Connector} {d : Disturbance} {s s' : Cluster} {k : ObjectKey}
  {wanted : DerivedKind → String → Prop} {settings : PassSettings} {now : String}

theorem Stale.congr (h : Stale i wanted s k) (hs : s'.find? k = s.find? k) :
    Stale i wanted s' k := by
  obtain ⟨v, hv, howned⟩ := h.owned
  exact ⟨h.ns, h.kind, v, hs.trans hv, howned⟩

/-- what may be there while stale objects are deleted -/
structure Pruning (i : Identity) (wanted : DerivedKind → String → Prop) (s : Cluster)
    (rest : List DerivedKind) (s' : Cluster) : Prop where
  prunable : ∀ kind ∈ rest, kind ∈ Derived.prunable
  kept : ∀ k v, s'.find? k = some v → s.find? k = some v
  gone : ∀ k, Stale i wanted s k → (∀ kind ∈ rest, k.kind ≠ .derived kind) → s'.find? k = none

theorem Pruning.remove {rest : List DerivedKind} (h : Pruning i wanted s rest s') :
    Pruning i wanted s rest (s'.remove k) := by
  refine ⟨h.prunable, fun k' v hv => h.kept k' v (Cluster.find?_of_find?_remove hv),
    fun k' hstale hrest => ?_⟩
  rw [Cluster.find?_remove]
  split
  · rfl
  · exact h.gone k' hstale hrest

section
variable {s₁ : Cluster} {kind : DerivedKind} {kinds : List DerivedKind} {found : List Object}
  {desired : List (DerivedKind × String)} {uid : String}

/-- what is listed while pruning and is not desired was stale when pruning began -/
theorem Pruning.stale_of_listed (h : Pruning i wanted s (kind :: kinds) s₁) (hs : s.Filed)
    (huid : i.uid = some uid) (hcomma : ',' ∉ i.name.toList)
    (hdesired : ∀ kind name, (kind, name) ∈ desired ↔ wanted kind name)
    (hfound : (s₁.select kind i.ns (Derived.selector i.name)).mapM Cluster.readObject = .ok found)
    {o : Object} (ho : o ∈ found) (hst : isStale desired uid kind o = true) :
    Stale i wanted s (i.key kind o.metadata.nameAny) := by
  obtain ⟨v, hmem, hread⟩ := exists_of_mem_mapM hfound ho
  obtain ⟨name, hv, hselected⟩ := Cluster.mem_select.1 hmem
  have hv := h.kept _ v hv
  obtain ⟨hno, howner⟩ := isStale_iff.1 hst
  rw [show o.metadata.nameAny = name from hs.nameAny hv hread] at hno ⊢
  rw [Identity.isSelected_selector hcomma] at hselected
  refine ⟨rfl, ⟨kind, rfl, Derived.mem_prunable.1 (h.prunable kind List.mem_cons_self), ?_⟩,
    v, hv, hselected, Identity.controls_of_read huid hread howner⟩
  rwa [← hdesired]

/-- what was stale when pruning began, and is still there, is listed -/
theorem Pruning.listed_of_stale {k : ObjectKey} {v : Json}
    (h : Pruning i wanted s (kind :: kinds) s₁) (hs : s.Filed) (huid : i.uid = some uid)
    (hcomma : ',' ∉ i.name.toList)
    (hdesired : ∀ kind name, (kind, name) ∈ desired ↔ wanted kind name)
    (hfound : (s₁.select kind i.ns (Derived.selector i.name)).mapM Cluster.readObject = .ok found)
    (hst : Stale i wanted s k) (hk : k.kind = .derived kind) (hv₁ : s₁.find? k = some v) :
    ∃ o ∈ found, isStale desired uid kind o = true ∧ i.key kind o.metadata.nameAny = k := by
  obtain ⟨v', hv, hlabel, howner⟩ := hst.owned
  obtain rfl := Option.some.inj ((h.kept k v hv₁).symm.trans hv)
  obtain ⟨_, hkind', _, hunwanted⟩ := hst.kind
  obtain rfl := Kind.derived.inj (hk.symm.trans hkind')
  have hkey : i.key kind k.name = k := by
    unfold Identity.key
    rw [← hk, ← hst.ns]
  have hmem : v ∈ s₁.select kind i.ns (Derived.selector i.name) := by
    refine Cluster.mem_select.2 ⟨k.name, ?_, ?_⟩
    · rw [show (⟨.derived kind, i.ns, k.name⟩ : ObjectKey) = k from hkey]
      exact hv₁
    · rwa [Identity.isSelected_selector hcomma]
  obtain ⟨o, ho, hread⟩ := mem_mapM_of_mem hfound hmem
  have hname : o.metadata.nameAny = k.name := hs.nameAny hv hread
  refine ⟨o, ho, isStale_iff.2 ⟨?_, ?_⟩, by rw [hname, hkey]⟩
  · rw [hname, hdesired]
    exact hunwanted
  · unfold Identity.controls at howner
    rw [hread, huid] at howner
    exact howner

/-- Pruning deletes the objects that are stale when it begins, and no other. -/
theorem ensures_prune_stale {E : Failure → Cluster → Prop}
    (hd : ∀ c, ¬d.hides c) (hi : i.Describes c) (hs : s.Filed) (hcomma : ',' ∉ i.name.toList)
    (huid : i.uid.isSome) (hdesired : ∀ kind name, (kind, name) ∈ desired ↔ wanted kind name)
    (hE : ∀ e s, E e s) :
    Ensures d (fun call _ => call.verb = .delete → Stale i wanted s call.key)
      (prune c i.ns desired) s (fun _ s' => ∀ k, Stale i wanted s k → s'.find? k = none) E := by
  obtain ⟨uid, huid⟩ := Option.isSome_iff_exists.1 huid
  unfold prune
  rw [hi.uid, huid]
  show Ensures d _ (pruneKinds desired uid i.ns (Derived.selector c.name) _) s _ E
  rw [hi.connector_name]
  have hstart : Pruning i wanted s Derived.prunable s := by
    refine ⟨fun _ hk => hk, fun _ _ hv => hv, fun k hst hrest => ?_⟩
    obtain ⟨kind, hkind, hne, _⟩ := hst.kind
    exact absurd hkind (hrest kind (Derived.mem_prunable.2 hne))
  refine (ensures_pruneKinds (J := Pruning i wanted s) (fun kind kinds s₁ h => ?_)
    hstart).mono_ok fun _ s' h k hst => h.gone k hst nofun
  refine ensures_list (fun he => nomatch he) (fun found hfound => ?_)
    (fun hh => absurd hh (hd _)) fun _ _ => hE _ _
  let L : Cluster → Prop := fun s' => Pruning i wanted s (kind :: kinds) s' ∧
    ∀ k v, s'.find? k = some v → s₁.find? k = some v
  refine Ensures.mono_ok (Q := fun _ s' => L s' ∧ _) (ensures_deleteStale (J := L)
    (fun o ho hst _ _ _ => h.stale_of_listed hs huid hcomma hdesired hfound ho hst)
    (fun _ _ _ _ h' => ⟨h'.1.remove, fun k v hv => h'.2 k v (Cluster.find?_of_find?_remove hv)⟩)
    (fun _ _ _ _ => hE _ _) ⟨h, fun _ _ hv => hv⟩) fun _ s' h' => ?_
  obtain ⟨⟨h', hless⟩, hgone⟩ := h'
  refine ⟨fun kind' hk => h'.prunable kind' (List.mem_cons_of_mem _ hk), h'.kept,
    fun k hst hrest => ?_⟩
  by_cases hk : k.kind = .derived kind
  · cases hv' : s'.find? k with
    | none => rfl
    | some v =>
      -- a stale object that is still there would have been listed and deleted
      obtain ⟨o, ho, hout, hkey⟩ :=
        h.listed_of_stale hs huid hcomma hdesired hfound hst hk (hless k v hv')
      have hnone : s'.find? (i.key kind o.metadata.nameAny) = none := hgone hd o ho hout
      rw [hkey, hv'] at hnone
      cases hnone
  · refine h'.gone k hst fun kind' hk' => ?_
    rcases List.mem_cons.1 hk' with rfl | hk'
    · exact hk
    · exact hrest kind' hk'

end

/-! ## a pass -/

/-- what a pass writes before pruning is not stale, before or after -/
theorem stale_iff {s₀ : Cluster} {auth : ScalerConfig} {scaling : Option ScalingRule}
    {p : ScalePlan} (hi : i.Describes c) (hp : Planned s₀ auth c i.ns scaling p)
    (h : Framed i c (OfPlan c p) (fun _ => False) s s') :
    Stale i (Desires i.name scaling) s' k ↔ Stale i (Desires i.name scaling) s k := by
  have hsame : ∀ kind, k.kind = .derived kind → kind ≠ .deployment →
      ¬Desires i.name scaling kind k.name → s'.find? k = s.find? k := by
    intro kind hkind hne hno
    refine (h.fate k).eq ?_ ?_ not_false
    · rintro rfl
      cases hkind
    · rintro x (rfl | hx) rfl
      · exact hne (Kind.derived.inj hkind).symm
      · rw [← hi.connector_name] at hno
        refine hno ((hp.desired_iff "").1 ((hp.mem_desired "").2 ⟨x, hx, ?_, rfl⟩))
        exact Kind.derived.inj hkind
  constructor
  · intro hstale
    obtain ⟨kind, hkind, hne, hno⟩ := hstale.kind
    exact hstale.congr (hsame kind hkind hne hno).symm
  · intro hstale
    obtain ⟨kind, hkind, hne, hno⟩ := hstale.kind
    exact hstale.congr (hsame kind hkind hne hno)

/-- an object that is stale by the scaling rule of the Connector -/
def Unwanted (i : Identity) (c : Connector) (s : Cluster) (k : ObjectKey) : Prop :=
  ∃ scaling, c.spec.effectiveScaling = .ok scaling ∧ Stale i (Desires i.name scaling) s k

theorem ensures_converge_deletes (hd : ∀ c, ¬d.hides c) (hi : i.Describes c) (hs : s.Filed)
    (hcomma : ',' ∉ i.name.toList) (huid : i.uid.isSome) (hon : settings.prune = true) :
    Ensures d (fun call _ => call.verb = .delete → Unwanted i c s call.key)
      (converge settings now c i.ns) s
      (fun _ s' => (∃ scaling, c.spec.effectiveScaling = .ok scaling) ∧
        ∀ k, Unwanted i c s k → s'.find? k = none) fun _ _ => True := by
  rw [converge_eq_untilPruning, ensures_bind]
  have hfirst :=
    (ensures_untilPruning_framed (d := d) settings now hi hs).and_asks asks_untilPruning
  refine (hfirst.mono_calls fun call _ hcall hdelete => absurd hdelete hcall.2).mono
    (fun outcome s₁ h₁ => ?_) fun _ _ _ => trivial
  obtain ⟨scaling, p, hscaling, hp, rfl, h₁⟩ := h₁
  have hunwanted : ∀ k, Unwanted i c s k ↔ Stale i (Desires i.name scaling) s₁ k := by
    intro k
    rw [stale_iff hi hp h₁]
    constructor
    · rintro ⟨scaling', hscaling', hstale⟩
      obtain rfl := Except.ok.inj (hscaling.symm.trans hscaling')
      exact hstale
    · exact fun hstale => ⟨scaling, hscaling, hstale⟩
  refine ensures_finish (fun _ => ?_) fun hoff => absurd hon (by rw [hoff]; exact nofun)
  have hdesired : ∀ kind name, (kind, name) ∈ (p.outcome now).desired ↔
      Desires i.name scaling kind name := fun kind name => by
    rw [← hi.connector_name]
    exact hp.desired_iff now
  refine ((ensures_prune_stale hd hi h₁.filed hcomma huid hdesired
    (fun _ _ => trivial)).mono_calls fun call _ hcall hdelete =>
      (hunwanted _).2 (hcall hdelete)).mono_ok fun _ s₂ h₂ => ?_
  exact ⟨⟨scaling, hscaling⟩, fun k hk => h₂ k ((hunwanted k).1 hk)⟩

theorem ensures_visit_deletes (hd : ∀ c, ¬d.hides c) (hi : i.Describes c) (hs : s.Filed)
    (hcomma : ',' ∉ i.name.toList) (huid : i.uid.isSome) (hon : settings.prune = true)
    (halive : c.metadata.deletionTimestamp = none) :
    Program.Ensures d (fun call _ => call.verb = .delete → Unwanted i c s call.key)
      (visit settings now i.ns c).run s fun r s' => ∀ a, r = .ok a →
        (∃ scaling, c.spec.effectiveScaling = .ok scaling) ∧
          ∀ k, Unwanted i c s k → s'.find? k = none := by
  have hrecord : ∀ cond s₁, Program.Ensures d
      (fun call _ => call.verb = .delete → Unwanted i c s call.key) (tryRecord c i.ns cond) s₁
        fun _ s₂ => ∀ k, k.kind ≠ .connector → s₂.find? k = s₁.find? k := by
    intro cond s₁
    refine ((Program.Ensures.and (ensures_tryRecord (P := fun _ _ => True) fun _ => trivial)
      (asks_tryRecord cond).ensures).mono_calls fun call _ hcall hdelete => ?_).mono
        fun _ s₂ h k hk => h.1.find?_of_ne ?_
    · rw [hcall.2.verb] at hdelete
      cases hdelete
    · rintro rfl
      exact hk rfl
  refine ensures_visit_run halive (Program.Ensures.mono
    (ensures_converge_deletes hd hi hs hcomma huid hon) fun r s₁ hr => ?_)
  refine (hrecord _ s₁).mono fun _ s₂ h₂ a ha => ?_
  cases r with
  | error e => cases ha
  | ok cond =>
    obtain ⟨hok, hgone⟩ := hr
    refine ⟨hok, fun k hk => ?_⟩
    obtain ⟨_, _, hstale⟩ := id hk
    obtain ⟨kind, hkind, _⟩ := hstale.kind
    rw [h₂ k (by rw [hkind]; exact nofun)]
    exact hgone k hk

theorem asks_converge (h : settings.prune = false ∨ c.metadata.uid = none) {ns : String} :
    Asks (·.verb ≠ .delete) (converge settings now c ns) := by
  rw [converge_eq_untilPruning]
  refine asks_bind asks_untilPruning fun outcome => ?_
  unfold finish
  rcases h with hoff | huid
  · rw [hoff]
    exact asks_pure
  · unfold prune
    rw [huid]
    cases settings.prune with
    | false => exact asks_pure
    | true => exact asks_bind (asks_adapt asks_pure) fun _ => asks_pure

theorem written_of_visit {ns : String} {w : World}
    (h : settings.prune = false ∨ c.metadata.uid = none ∨ c.metadata.deletionTimestamp.isSome ∨
      ∃ e, ((untilPruning settings now c ns).run.run World.answer w).result = .error e) :
    ∀ x ∈ ((visit settings now ns c).run.run World.answer w).state.written,
      x ∈ w.written ∨ x.verb ≠ .delete := by
  have hkept : ∀ {α : Type} {p : Program α} (w' : World), p.Asks (·.verb ≠ .delete) →
      (∀ x ∈ w'.written, x ∈ w.written ∨ x.verb ≠ .delete) →
        ∀ x ∈ (p.run World.answer w').state.written, x ∈ w.written ∨ x.verb ≠ .delete := by
    intro α p w' hp hw' x hx
    rcases hp.written w' x hx with hx | ⟨call, hcall, rfl⟩
    · exact hw' x hx
    · exact .inr hcall
  have hrecord : ∀ cond, (tryRecord c ns cond).Asks (·.verb ≠ .delete) := fun cond =>
    (asks_tryRecord cond).mono fun call hcall => by rw [hcall.verb]; exact nofun
  cases hdt : c.metadata.deletionTimestamp with
  | some t =>
    refine hkept w ?_ fun _ => .inl
    unfold visit
    rw [hdt]
    exact asks_bind (asks_always (hrecord _)) fun _ => asks_pure
  | none =>
    rw [(run_visit hdt).2]
    refine hkept _ (hrecord _) ?_
    rcases h with hoff | huid | hterminating | ⟨e, he⟩
    · exact hkept w (asks_converge (.inl hoff)) fun _ => .inl
    · exact hkept w (asks_converge (.inr huid)) fun _ => .inl
    · rw [hdt] at hterminating
      cases hterminating
    · rw [(run_converge_of_error he).2]
      exact hkept w asks_untilPruning fun _ => .inl

end

/-! ## a reconciliation -/

section
variable {ns name : String} {settings : PassSettings} {now : String} {s : Cluster} {c : Connector}

def Deleted (w : World) (k : ObjectKey) : Prop := ∃ x ∈ w.writes, x.verb = .delete ∧ x.key = k

/-- Pruning is exact: a reconciliation with pruning that succeeds has deleted those objects that
were stale when it began, and no others.  Without pruning, without a UID, under deletion, and if the
pass fails before it comes to prune, nothing is deleted. -/
theorem deleted_iff_stale (hs : s.Filed)
    (hc : s.Holds .connector ns name Connector.decode c) {faults : List Fault}
    (hfaults : ∀ f ∈ faults, f.onWrites = true) (settings : PassSettings) (now : String) :
    (c.metadata.deletionTimestamp = none → c.metadata.uid.isSome → ',' ∉ name.toList →
      settings.prune = true →
        ∀ a, (reconciled settings now ns name ⟨s, faults, []⟩).result = .ok a →
          ∃ scaling, c.spec.effectiveScaling = .ok scaling ∧
            ∀ k, Deleted (reconciled settings now ns name ⟨s, faults, []⟩).state k ↔
              Stale ⟨ns, name, c.metadata.uid⟩ (Desires name scaling) s k) ∧
    ((settings.prune = false ∨ c.metadata.uid = none ∨ c.metadata.deletionTimestamp.isSome ∨
      ∃ e, ((untilPruning settings now c ns).run.run World.answer
        (afterRead ns name ⟨s, faults, []⟩)).result = .error e) →
      ∀ k, ¬Deleted (reconciled settings now ns name ⟨s, faults, []⟩).state k) := by
  have hw : World.Within .writes ⟨s, faults, []⟩ := fun f hf => .writes (hfaults f hf)
  obtain ⟨hread, hcluster, hwithin⟩ := run_read Disturbance.tame_writes hw hc
  have hempty : (afterRead ns name ⟨s, faults, []⟩).written = [] := written_afterRead
  obtain ⟨hresult, hstate⟩ := run_reconcile settings now hread
  constructor
  · intro halive huid hcomma hon a ha
    have hi := hs.describes hc
    have hvisit : Program.Ensures .writes
        (fun call _ => call.verb = .delete → Unwanted ⟨ns, name, c.metadata.uid⟩ c s call.key)
        (visit settings now ns c).run (afterRead ns name ⟨s, faults, []⟩).cluster
        fun r s' => ∀ a, r = .ok a → (∃ scaling, c.spec.effectiveScaling = .ok scaling) ∧
          ∀ k, Unwanted ⟨ns, name, c.metadata.uid⟩ c s k → s'.find? k = none := by
      rw [hcluster]
      exact ensures_visit_deletes Disturbance.tame_writes.shows hi hs hcomma huid hon halive
    rw [hresult] at ha
    obtain ⟨⟨scaling, hscaling⟩, hgone⟩ := (hvisit.run hwithin).2.1 a ha
    refine ⟨scaling, hscaling, fun k => ?_⟩
    rw [hstate]
    constructor
    · rintro ⟨x, hx, hdelete, rfl⟩
      obtain ⟨call, s', hcall, hwrite⟩ := Program.written_of_ensures hvisit hwithin hempty x hx
      obtain ⟨rfl, _⟩ := Cluster.write_of_write? hwrite
      obtain ⟨scaling', hscaling', hstale⟩ := hcall hdelete
      obtain rfl := Except.ok.inj (hscaling.symm.trans hscaling')
      exact hstale
    · intro hstale
      obtain ⟨v, hv, _⟩ := hstale.owned
      have hv : (afterRead ns name ⟨s, faults, []⟩).cluster.find? k = some v := by
        rw [hcluster]
        exact hv
      exact Program.exists_delete_of_lost hv (hgone k ⟨scaling, hscaling, hstale⟩)
  · rintro h k ⟨x, hx, hdelete, _⟩
    rw [hstate, World.mem_writes] at hx
    rcases written_of_visit h x hx with hx | hx
    · rw [hempty] at hx
      cases hx
    · exact hx hdelete

end

def portalIdentity : Identity := ⟨"apps", "portal", some "u1"⟩

/-- a store with the Connector, which scales by triggers, and with a Service of it -/
def portalStore : Cluster :=
  portalWorld.cluster.set (portalIdentity.key .service "portal")
    (portalIdentity.stored .service "portal" "u2" (.object []))

theorem filed_portalStore : portalStore.Filed :=
  filed_portal.set (Identity.canonical_stored (Json.canonical_object (List.forall_mem_nil _)))
    Identity.stated?_stored

def portalSettings : PassSettings := ⟨ScalerConfig.empty |>.register "queue" [], true⟩

/-- a pass deletes the Service, even if no status can be recorded -/
theorem deleted_iff_stale_portal :
    (reconciled portalSettings "t" "apps" "portal" ⟨portalStore,
      [⟨.patchStatus, .connector, none, some (.transient "down"), none, 0⟩], []⟩).result =
        .ok (.requeue resyncInterval) ∧
    Deleted (reconciled portalSettings "t" "apps" "portal" ⟨portalStore,
      [⟨.patchStatus, .connector, none, some (.transient "down"), none, 0⟩], []⟩).state
        (portalIdentity.key .service "portal") ∧
    ∃ scaling, ∀ k, Deleted (reconciled portalSettings "t" "apps" "portal" ⟨portalStore,
      [⟨.patchStatus, .connector, none, some (.transient "down"), none, 0⟩], []⟩).state k ↔
        Stale portalIdentity (Desires "portal" scaling) portalStore k := by
  obtain ⟨c, hc, halive, huid⟩ : ∃ c, (getAs .connector "apps" "portal" Connector.decode).run.value
      portalStore = .ok (some c) ∧ c.metadata.deletionTimestamp = none ∧
        c.metadata.uid = some "u1" := ⟨_, rfl, rfl, rfl⟩
  have hok : (reconciled portalSettings "t" "apps" "portal" ⟨portalStore,
      [⟨.patchStatus, .connector, none, some (.transient "down"), none, 0⟩], []⟩).result =
        .ok (.requeue resyncInterval) := by decide +kernel
  obtain ⟨scaling, _, hexact⟩ := (deleted_iff_stale filed_portalStore (value_getAs.1 hc)
    (List.forall_mem_singleton.2 rfl) portalSettings "t").1 halive (by rw [huid]; rfl) (by decide)
      rfl _ hok
  rw [huid] at hexact
  refine ⟨hok, ?_, scaling, hexact⟩
  unfold Deleted
  decide +kernel

end Pass
end ConnectorControl
