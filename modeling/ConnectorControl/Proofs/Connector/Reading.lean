import ConnectorControl.Connector.Basic
import ConnectorControl.Proofs.Connector.Status
import ConnectorControl.Proofs.Objects.Reading

/-!
# Connectors as they are read

A Connector is read from the JSON of an object member by member (`Connector.decode_eq_ok`), so its
metadata is that of the object (`Connector.metadata_of_decodeAs`), and a status that is merged in
shows in its status alone (`Connector.decode_merge_status`).
-/

namespace ConnectorControl

open Decode

theorem Object.isTable_toJson (o : Object) : o.toJson.IsTable := Json.isTable_object _

namespace Connector

theorem decode_eq_ok {v : Json} (hv : v.IsTable) {c : Connector} :
    decode v = .ok c ↔
      ofMember Metadata.decode (v.find? "metadata") = .ok (some c.metadata) ∧
        ofMember ConnectorSpec.decode (v.find? "spec") = .ok (some c.spec) ∧
          optional v.members "status" Status.decode = .ok c.status := by
  cases v with
  | obj ms =>
    show (do
      let metadata ← member? ms "metadata" Metadata.decode
      let spec ← member? ms "spec" ConnectorSpec.decode
      let status ← optional ms "status" Status.decode
      return (⟨← require (.missing "metadata") metadata, ← require (.missing "spec") spec,
      status⟩ : Connector)) = _ ↔ _
    have hms : Entries.Ordered ms := hv.ordered
    rw [member?_eq hms, member?_eq hms]
    show (ofMember Metadata.decode (Json.find? (.obj ms) "metadata") >>= fun metadata =>
      ofMember ConnectorSpec.decode (Json.find? (.obj ms) "spec") >>= fun spec =>
      optional (Json.obj ms).members "status" Status.decode >>= fun status => _) = _ ↔ _
    generalize ofMember Metadata.decode _ = metadata
    generalize ofMember ConnectorSpec.decode _ = spec
    generalize optional (Json.obj ms).members "status" Status.decode = status
    constructor
    · intro h
      rcases metadata with e | _ | m
      · cases h
      · rcases spec with e | _ | sp <;> rcases status with e | st <;> cases h
      · rcases spec with e | _ | sp
        · cases h
        · rcases status with e | st <;> cases h
        · rcases status with e | st
          · cases h
          · obtain rfl := Except.ok.inj h
            exact ⟨rfl, rfl, rfl⟩
    · rintro ⟨rfl, rfl, rfl⟩
      rfl
  | _ => cases hv.isObject

theorem metadata_of_decodeAs {v : Json} {o : Object} {c : Connector} (ho : Object.decode v = .ok o)
    (hc : o.decodeAs decode = .ok c) : Metadata.decode o.metadata.toJson = .ok c.metadata := by
  have h := ((decode_eq_ok o.isTable_toJson).1 hc).1
  rw [o.find?_toJson (by decide) (by decide), Object.find?_body_metadata ho] at h
  obtain ⟨w, hw, h⟩ := ofMember_eq_some h
  obtain rfl := Option.some.inj hw
  exact h

theorem find?_of_get_str {v : Json} {k s : String} (h : v.get k = .str s) :
    v.find? k = some (.str s) := by
  rw [Json.get_eq] at h
  cases hv : v.find? k with
  | none =>
    rw [hv] at h
    cases h
  | some w =>
    rw [hv] at h
    exact congrArg some h

/-- a Connector has the name of the object it is read from, and no namespace but the object's -/
theorem names_of_decodeAs {ms : List (String × Json)} {o : Object} {c : Connector} {name : String}
    (hv : (Json.obj ms).Canonical) (ho : Object.decode (.obj ms) = .ok o)
    (hc : o.decodeAs decode = .ok c)
    (hname : ((Json.obj ms).get "metadata").get "name" = .str name) :
    c.metadata.name = some name ∧
      ∀ ns ∈ c.metadata.ns, (((Json.obj ms).get "metadata").get "namespace").string? = some ns := by
  obtain ⟨hcname, hcns⟩ := Metadata.names_of_decode_toJson (metadata_of_decodeAs ho hc)
  obtain ⟨ms', m, hms, hm, rfl⟩ := Object.decode_eq_ok ho
  obtain rfl := Json.obj.inj hms
  rw [single?_eq hv.1] at hm
  rw [Json.get_eq (.obj ms)] at hname ⊢
  have hcanonical := Json.canonical_getD hv "metadata"
  change ofMember _ ((Json.obj ms).find? "metadata") = _ at hm
  generalize (Json.obj ms).find? "metadata" = x at hm hname hcanonical ⊢
  cases x with
  | none => cases hname
  | some v =>
    obtain ⟨md, hmd, rfl⟩ := map_eq_ok (show some <$> Metadata.decode v = .ok m from hm)
    obtain ⟨hreadname, hreadns⟩ := Metadata.optional_of_decode hmd
    have hordered : Entries.Ordered v.members := Json.ordered_members hcanonical
    refine ⟨?_, fun ns hns => ?_⟩
    · have hfind : Entries.find? "name" v.members = some (.str name) := find?_of_get_str hname
      rw [optional_string_of_find? hordered hfind] at hreadname
      rw [hcname]
      exact (Except.ok.inj hreadname).symm
    · rw [hcns] at hns
      have hns : md.ns = some ns := hns
      rw [hns] at hreadns
      show (v.get "namespace").string? = _
      rw [Json.get_eq, show v.find? "namespace" = _ from find?_of_optional_string hordered hreadns]
      rfl

/-- the members of a status are read as a status, which is the one of the Connector unless they are
those of a list -/
theorem status_of_decodeAs {ms : List (String × Json)} {o : Object} {c : Connector}
    (hms : Entries.Ordered ms) (ho : Object.decode (.obj ms) = .ok o)
    (hc : o.decodeAs decode = .ok c) :
    ∃ s, Status.decode (.obj ((Json.obj ms).get "status").members) = .ok s ∧
      ((∀ items, (Json.obj ms).get "status" ≠ .arr items) → s = c.status.getD default) := by
  have h := ((decode_eq_ok o.isTable_toJson).1 hc).2.2
  have ht : Entries.Ordered o.toJson.members := o.isTable_toJson.ordered
  have hfind : Entries.find? "status" o.toJson.members = Entries.find? "status" ms := by
    show o.toJson.find? "status" = _
    rw [o.find?_toJson (by decide) (by decide),
      Object.find?_body ho hms (by decide) (by decide) (by decide)]
    exact Option.or_none
  rw [optional_eq ht, hfind] at h
  show ∃ s, Status.decode (.obj ((Entries.find? "status" ms).getD .null).members) = .ok s ∧
    ((∀ items, (Entries.find? "status" ms).getD .null ≠ .arr items) → _)
  cases hs : Entries.find? "status" ms with
  | none =>
    rw [hs] at h
    rw [← Except.ok.inj h]
    exact ⟨default, rfl, fun _ => rfl⟩
  | some v =>
    rw [hs] at h
    change Option.join <$> some <$> option Status.decode v = _ at h
    obtain ⟨y, hy, hjoin⟩ := map_eq_ok h
    obtain ⟨x, hx, rfl⟩ := map_eq_ok hy
    rw [← hjoin]
    exact Status.decode_members hx

/-- a Connector of which no generation was observed has none in the members of its status -/
theorem get_generation_of_decodeAs {v : Json} {o : Object} {c : Connector} (hv : v.Canonical)
    (ho : Object.decode v = .ok o) (hc : o.decodeAs decode = .ok c)
    (hnone : (c.status.getD default).observedGeneration = none) :
    (v.get "status").get "observedGeneration" = .null := by
  obtain ⟨ms, _, rfl, _, _⟩ := Object.decode_eq_ok ho
  obtain ⟨s, hs, hsame⟩ := status_of_decodeAs hv.1 ho hc
  have hordered := Json.ordered_members (Json.canonical_getD hv "status")
  by_cases hlist : ∃ items, (Json.obj ms).get "status" = .arr items
  · obtain ⟨items, hitems⟩ := hlist
    rw [hitems]
    rfl
  · rw [← hsame fun items hitems => hlist ⟨items, hitems⟩] at hnone
    exact (Status.generation_eq_none hordered hs).1 hnone

/-- a Connector with a status merged in is the same Connector with another status, in which a
generation may be left from the one that was there -/
theorem decode_merge_status {v : Json} {o : Object} {c : Connector} {s : Status} (hv : v.Canonical)
    (ho : Object.decode v = .ok o) (hc : o.decodeAs decode = .ok c) (hs : s.conditions ≠ []) :
    ∃ o' left, Object.decode (v.merge (.object [("status", s.toJson)])) = .ok o' ∧
      o'.decodeAs decode =
        .ok { c with status := some ⟨s.conditions, s.observedGeneration <|> left⟩ } ∧
      (left = none ↔ (v.get "status").get "observedGeneration" = .null) := by
  obtain ⟨o', ho'⟩ := Object.decode_merge_status ho s.toJson
  have hmeta := Object.metadata_of_merge_status ho ho'
  obtain ⟨ms, m, rfl, _, _⟩ := Object.decode_eq_ok ho
  have hms : Entries.Ordered ms := hv.1
  have hpatch : (Json.object [("status", s.toJson)]).IsTable := Json.isTable_object _
  have ht := Json.isTable_merge (v := .obj ms) hms hpatch
  have hfind := fun k => Json.find?_merge (.obj ms) hpatch k
  obtain ⟨old, hold, -⟩ := status_of_decodeAs hms ho hc
  have hordered := Json.ordered_members (Json.canonical_getD hv "status")
  refine ⟨o', old.observedGeneration, ho', ?_, Status.generation_eq_none hordered hold⟩
  rw [show Json.object [("status", s.toJson)] = .obj [("status", s.toJson)] from rfl,
    Json.merge_obj] at ho' ht hfind
  generalize Json.mergeMembers (Json.obj ms).members [("status", s.toJson)] = ms' at ho' ht hfind
  have hms' : Entries.Ordered ms' := ht.ordered
  -- a member besides the metadata is the one that is stored
  have hmember : ∀ {o : Object} {ms : List (String × Json)}, Object.decode (.obj ms) = .ok o →
      Entries.Ordered ms → ∀ k, k ≠ "apiVersion" → k ≠ "kind" → k ≠ "metadata" →
        o.toJson.find? k = Entries.find? k ms := by
    intro o ms ho hms k h₁ h₂ h₃
    rw [o.find?_toJson h₁ h₂, Object.find?_body ho hms h₁ h₂ h₃, if_neg h₃, Option.or_none]
  obtain ⟨hm, hspec, _⟩ := (decode_eq_ok o.isTable_toJson).1 hc
  refine (decode_eq_ok o'.isTable_toJson).2 ⟨?_, ?_, ?_⟩
  · rw [o.find?_toJson (by decide) (by decide), Object.find?_body_metadata ho] at hm
    rw [o'.find?_toJson (by decide) (by decide), Object.find?_body_metadata ho', hmeta]
    exact hm
  · rw [hmember ho hms _ (by decide) (by decide) (by decide)] at hspec
    rw [hmember ho' hms' _ (by decide) (by decide) (by decide),
      show Entries.find? "spec" ms' = _ from hfind "spec"]
    exact hspec
  · have htable : Entries.Ordered o'.toJson.members := o'.isTable_toJson.ordered
    have hmerged : Status.decode (Json.merge ((Json.obj ms).get "status") s.toJson) =
        .ok ⟨s.conditions, s.observedGeneration <|> old.observedGeneration⟩ :=
      Status.decode_merge hordered hold hs
    rw [optional_eq htable, show Entries.find? "status" o'.toJson.members = _ from
      hmember ho' hms' _ (by decide) (by decide) (by decide),
      show Entries.find? "status" ms' = _ from hfind "status"]
    show Option.join <$> some <$> some <$> Status.decode
      (Json.merge ((Json.obj ms).get "status") s.toJson) = _
    rw [hmerged]
    rfl

end Connector
end ConnectorControl
