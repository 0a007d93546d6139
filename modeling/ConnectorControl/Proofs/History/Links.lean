import ConnectorControl.Proofs.History.Ownership

/-!
# References between derived objects

A ScaledObject refers to TriggerAuthentications by its triggers and to the Deployment, an
HTTPScaledObject to the Deployment and to the Service.  A store is linked (`Identity.Linked`) when
none of these references goes to an object that is not there.

Writing what is planned keeps the store linked, since an object comes after those that it refers to
(`linked_upserted`); deleting what is not planned does, as long as the kinds that refer to others
are done first (`linked_remove`).
-/

namespace ConnectorControl

def Json.items : Json → List Json
  | .arr items => items
  | _ => []

def Json.scaleTriggers (v : Json) : List Json := ((v.get "spec").get "triggers").items

namespace Identity

variable (i : Identity)

/-- every reference between the Connector's objects goes to an object that is there -/
structure Linked (s : Cluster) : Prop where
  auths : ∀ v, s.find? (i.key .scaledObject (i.name ++ "-vso")) = some v →
    ∀ t ∈ v.scaleTriggers, ∀ r, t.find? "authenticationRef" = some r →
      ∃ name, r.get "name" = .str name ∧ (s.find? (i.key .triggerAuthentication name)).isSome
  scaled : (s.find? (i.key .scaledObject (i.name ++ "-vso"))).isSome →
    (s.find? (i.key .deployment i.name)).isSome
  routed : (s.find? (i.key .httpScaledObject (i.name ++ "-vhso"))).isSome →
    (s.find? (i.key .deployment i.name)).isSome ∧ (s.find? (i.key .service i.name)).isSome

variable {i} {s s' : Cluster} {v : Json}

theorem Fresh.linked (h : i.Fresh s) : i.Linked s := by
  have hso : s.find? (i.key .scaledObject (i.name ++ "-vso")) = none := by
    cases hv : s.find? (i.key .scaledObject (i.name ++ "-vso")) with
    | none => rfl
    | some v => exact absurd rfl (h _ _ v hv).1
  have hhttp : s.find? (i.key .httpScaledObject (i.name ++ "-vhso")) = none := by
    cases hv : s.find? (i.key .httpScaledObject (i.name ++ "-vhso")) with
    | none => rfl
    | some v => exact absurd rfl (h _ _ v hv).1
  refine ⟨fun v hv => ?_, fun hv => ?_, fun hv => ?_⟩
  · rw [hso] at hv
    cases hv
  · rw [hso] at hv
    cases hv
  · rw [hhttp] at hv
    cases hv

/-- Objects that refer to others may go, and what they refer to may come; neither does any harm. -/
theorem Linked.mono (h : i.Linked s)
    (hso : ∀ v, s'.find? (i.key .scaledObject (i.name ++ "-vso")) = some v →
      s.find? (i.key .scaledObject (i.name ++ "-vso")) = some v)
    (hhttp : (s'.find? (i.key .httpScaledObject (i.name ++ "-vhso"))).isSome →
      (s.find? (i.key .httpScaledObject (i.name ++ "-vhso"))).isSome)
    (hmore : ∀ kind name, kind ≠ .scaledObject → kind ≠ .httpScaledObject →
      (s.find? (i.key kind name)).isSome → (s'.find? (i.key kind name)).isSome) :
    i.Linked s' := by
  refine ⟨fun v hv t ht r hr => ?_, fun hv => ?_, fun hv => ?_⟩
  · obtain ⟨name, hname, hauth⟩ := h.auths v (hso v hv) t ht r hr
    exact ⟨name, hname, hmore _ _ nofun nofun hauth⟩
  · obtain ⟨v, hv⟩ := Option.isSome_iff_exists.1 hv
    exact hmore _ _ nofun nofun (h.scaled (Option.isSome_iff_exists.2 ⟨v, hso v hv⟩))
  · obtain ⟨hdeployment, hservice⟩ := h.routed (hhttp hv)
    exact ⟨hmore _ _ nofun nofun hdeployment, hmore _ _ nofun nofun hservice⟩

theorem Written.get_member {x : Draft} {k : String} {y : Json} (h : i.Written x v)
    (hx : x.spec.IsTable) (hk : x.spec.find? k = some y) (hs : y.Stripped)
    (hr : k ≠ "replicas") : (v.get "spec").get k = y := by
  obtain ⟨uid, spec, _, hfills, _, rfl⟩ := h
  rw [get_spec_stored, Json.get_eq, hfills.others k hr, Json.find?_stripNulls hx.ordered, hk,
    Json.getD_strippedMember]
  exact Json.stripNulls_of_stripped hs

end Identity

namespace Pass

variable {i : Identity} {s s' : Cluster} {c : Connector} {auth : ScalerConfig}
  {scaling : Option ScalingRule} {p : ScalePlan} {v w : Json}

/-- the references of a planned ScaledObject go to planned TriggerAuthentications -/
theorem auths_of_written {rule : ScalingRule} {custom : CustomScaling}
    {planned : List PlannedTrigger} (h : i.Written (.scaledObject c rule custom planned) v) :
    ∀ t ∈ v.scaleTriggers, ∀ r, t.find? "authenticationRef" = some r →
      ∃ a ∈ ScalePlan.auths planned, r.get "name" = .str a.name := by
  intro t ht r hr
  have hlist := h.get_member (Json.isTable_object _) (ScaledObject.find?_triggers _)
    (Json.clean_list ScaleTrigger.clean_toJson _).stripped (by decide)
  unfold Json.scaleTriggers at ht
  rw [hlist] at ht
  obtain ⟨st, hst, rfl⟩ := List.mem_map.1 ht
  obtain ⟨p, hp, rfl⟩ := List.mem_map.1 hst
  have hr : (Json.objectOfSet _).find? "authenticationRef" = some r := hr
  rw [Json.find?_objectOfSet (by simp)] at hr
  change ((p.auth.map (·.name)).map fun name => Json.object [("name", .str name)]) = some r at hr
  cases ha : p.auth with
  | none =>
    rw [ha] at hr
    cases hr
  | some a =>
    rw [ha] at hr
    obtain rfl := Option.some.inj hr
    exact ⟨a, List.mem_filterMap.2 ⟨p, hp, ha⟩, rfl⟩

/-- in a custom plan the ScaledObject comes last -/
theorem split_custom {as : List TriggerAuth} {so x : Draft} {done rest : List Draft}
    (h : as.map Draft.triggerAuth ++ [so] = done ++ x :: rest) :
    x ∈ as.map Draft.triggerAuth ∨ x = so ∧ done = as.map Draft.triggerAuth := by
  rcases List.append_eq_append_iff.1 h with ⟨more, hdone, hso⟩ | ⟨more, has, hx⟩
  · cases more with
    | nil =>
      obtain ⟨rfl, _⟩ := List.cons.inj hso
      exact .inr ⟨rfl, by rw [hdone, List.append_nil]⟩
    | cons y ys =>
      have := (List.cons.inj hso).2
      simp at this
  · cases more with
    | nil =>
      obtain ⟨rfl, _⟩ := List.cons.inj hx
      exact .inr ⟨rfl, by rw [has, List.append_nil]⟩
    | cons y ys =>
      obtain ⟨rfl, _⟩ := List.cons.inj hx
      refine .inl ?_
      rw [has]
      exact List.mem_append_right _ List.mem_cons_self

theorem Upserted.isSome {kind : DerivedKind} {ns name : String} {o : Object}
    (hu : Upserted kind ns name o s w s') {k : ObjectKey} (h : (s.find? k).isSome) :
    (s'.find? k).isSome := by
  rw [hu.find?]
  split
  · rfl
  · exact h

theorem find?_of_kind_ne {kind kind' : DerivedKind} {name name' : String} {o : Object}
    (hu : Upserted kind i.ns name o s w s') (hk : kind' ≠ kind) :
    s'.find? (i.key kind' name') = s.find? (i.key kind' name') := by
  exact hu.find?_of_ne (Identity.key_ne fun he => absurd he hk)

theorem linked_upserted_plain {kind : DerivedKind} {name : String} {o : Object} (h : i.Linked s)
    (hu : Upserted kind i.ns name o s w s') (hso : kind ≠ .scaledObject)
    (hhttp : kind ≠ .httpScaledObject) : i.Linked s' := by
  refine h.mono (fun v hv => ?_) (fun hv => ?_) fun _ _ _ _ => hu.isSome
  · rw [← find?_of_kind_ne hu hso.symm]
    exact hv
  · rw [← find?_of_kind_ne hu hhttp.symm]
    exact hv

/-- what is planned is written after what it refers to -/
theorem linked_upserted {x : Draft} {done rest : List Draft} (h : i.Linked s)
    (hi : i.Describes c) {s₀ : Cluster} (hp : Planned s₀ auth c i.ns scaling p)
    (hall : p.drafts = done ++ x :: rest)
    (hdeployment : (s.find? (i.key .deployment i.name)).isSome)
    (hdone : ∀ y ∈ done, (s.find? (y.key i.ns)).isSome)
    (hu : Upserted x.kind i.ns x.name (x.toObject c) s w s') (hw : i.Written x w) :
    i.Linked s' := by
  cases hp with
  | none => simp [ScalePlan.none] at hall
  | @http rule http port hm hport =>
    cases done with
    | nil =>
      obtain ⟨rfl, _⟩ := List.cons.inj hall
      exact linked_upserted_plain h hu (fun hk => by cases hk) fun hk => by cases hk
    | cons y ys =>
      obtain ⟨rfl, hall'⟩ := List.cons.inj hall
      have hservice : (s.find? (i.key .service i.name)).isSome := by
        rw [← key_service hi]
        exact hdone _ List.mem_cons_self
      cases ys with
      | nil =>
        obtain ⟨rfl, _⟩ := List.cons.inj hall'
        have hso : s'.find? (i.key .scaledObject (i.name ++ "-vso")) =
            s.find? (i.key .scaledObject (i.name ++ "-vso")) :=
          find?_of_kind_ne hu fun hk => by cases hk
        refine ⟨fun v hv t ht r hr => ?_, fun hv => ?_, fun _ => ?_⟩
        · rw [hso] at hv
          obtain ⟨name, hname, hauth⟩ := h.auths v hv t ht r hr
          exact ⟨name, hname, hu.isSome hauth⟩
        · exact hu.isSome hdeployment
        · exact ⟨hu.isSome hdeployment, hu.isSome hservice⟩
      | cons z zs =>
        have := (List.cons.inj hall').2
        simp at this
  | @custom rule custom planned hm hps =>
    rcases split_custom hall with hx | ⟨rfl, hd⟩
    · obtain ⟨a, _, rfl⟩ := List.mem_map.1 hx
      exact linked_upserted_plain h hu (fun hk => by cases hk) fun hk => by cases hk
    · have hhttp : s'.find? (i.key .httpScaledObject (i.name ++ "-vhso")) =
          s.find? (i.key .httpScaledObject (i.name ++ "-vhso")) :=
        find?_of_kind_ne hu fun hk => by cases hk
      have hso : s'.find? (i.key .scaledObject (i.name ++ "-vso")) = some w := by
        rw [← key_scaledObject hi]
        exact hu.find?_self
      refine ⟨fun v hv t ht r hr => ?_, fun _ => hu.isSome hdeployment, fun hv => ?_⟩
      · obtain rfl := Option.some.inj (hso.symm.trans hv)
        obtain ⟨a, ha, hname⟩ := auths_of_written hw t ht r hr
        refine ⟨a.name, hname, hu.isSome (hdone (.triggerAuth a) ?_)⟩
        rw [hd]
        exact List.mem_map_of_mem ha
      · rw [hhttp] at hv
        exact ⟨hu.isSome hdeployment, hu.isSome (h.routed hv).2⟩

/-! ## deleting what is not planned -/

/-- what is not planned is deleted after what refers to it -/
theorem linked_remove {kind : DerivedKind} {name : String} (h : i.Linked s) (hi : i.Describes c)
    {s₀ : Cluster} (hp : Planned s₀ auth c i.ns scaling p)
    (hwritten : ∀ x ∈ p.drafts, ∃ v, s.find? (x.key i.ns) = some v ∧ i.Written x v)
    (hstale : ∀ x ∈ p.drafts, x.kind = kind → x.name ≠ name) (hkind : kind ≠ .deployment)
    (hso : kind = .triggerAuthentication →
      (s.find? (i.key .scaledObject (i.name ++ "-vso"))).isSome →
        ∃ x ∈ p.drafts, x.kind = .scaledObject)
    (hhttp : kind = .service →
      (s.find? (i.key .httpScaledObject (i.name ++ "-vhso"))).isSome →
        ∃ x ∈ p.drafts, x.kind = .httpScaledObject) :
    i.Linked (s.remove (i.key kind name)) := by
  have hrest : ∀ kind' name', (kind' = kind → name' ≠ name) →
      (s.remove (i.key kind name)).find? (i.key kind' name') = s.find? (i.key kind' name') := by
    intro kind' name' hne
    rw [Cluster.find?_remove, if_neg (Identity.key_ne hne)]
  have hsome : ∀ k, ((s.remove (i.key kind name)).find? k).isSome → (s.find? k).isSome := by
    intro k hk
    obtain ⟨v, hv⟩ := Option.isSome_iff_exists.1 hk
    exact Option.isSome_iff_exists.2 ⟨v, Cluster.find?_of_find?_remove hv⟩
  refine ⟨fun v hv t ht r hr => ?_, fun hv => ?_, fun hv => ?_⟩
  · replace hv := Cluster.find?_of_find?_remove hv
    obtain ⟨a, hname, hauth⟩ := h.auths v hv t ht r hr
    refine ⟨a, hname, ?_⟩
    rw [hrest]
    · exact hauth
    rintro rfl rfl
    -- the ScaledObject is planned, so it refers to what is planned
    obtain ⟨x, hx, hx'⟩ := hso rfl (by rw [hv]; rfl)
    obtain ⟨rule, custom, planned, rfl⟩ := hp.eq_custom hx hx'
    obtain ⟨v', hv', hw⟩ := hwritten (.scaledObject c rule custom planned)
      (List.mem_append_right _ List.mem_cons_self)
    rw [key_scaledObject hi] at hv'
    obtain rfl := Option.some.inj (hv.symm.trans hv')
    obtain ⟨b, hb, hname'⟩ := auths_of_written hw t ht r hr
    rw [hname] at hname'
    exact hstale (.triggerAuth b) (List.mem_append_left _ (List.mem_map_of_mem hb)) rfl
      (Json.str.inj hname').symm
  · rw [hrest _ _ fun he => absurd he.symm hkind]
    exact h.scaled (hsome _ hv)
  · obtain ⟨hdeployment, hservice⟩ := h.routed (hsome _ hv)
    refine ⟨?_, ?_⟩
    · rw [hrest _ _ fun he => absurd he.symm hkind]
      exact hdeployment
    rw [hrest]
    · exact hservice
    rintro rfl rfl
    -- with an HTTPScaledObject a Service is planned
    obtain ⟨x, hx, hx'⟩ := hhttp rfl (hsome _ hv)
    obtain ⟨rule, http, port, rfl⟩ := hp.eq_http hx hx'
    exact hstale (.service c port http.serviceType) List.mem_cons_self rfl hi.connector_name

end Pass
end ConnectorControl
