import ConnectorControl.Objects.Secret
import ConnectorControl.Proofs.Json.Entrywise
import ConnectorControl.Proofs.Json.Erased
import ConnectorControl.Proofs.Objects.Reading
import ConnectorControl.Proofs.Store.Alike

/-!
# Secrets and ConfigMaps but for their values

`Kind.veil` takes the values out of an object: under the keys of a Secret nothing is left, and a
ConfigMap loses its keys as well.  Values are the same but for what they hold
(`Kind.SameButValues`) when they are the same once they are veiled, as long as what a Secret holds
decodes.

* `readObject_secret`      Secrets that are the same but for their values are read as Secrets with
                           the same keys, or fail to read for one reason;
* `readObject_configMap`   ConfigMaps that are the same but for their values both read as objects,
                           or fail for one reason.
-/

namespace ConnectorControl

open Decode Pass Entries

/-! ## what is left out -/

/-- an object with nothing under its keys -/
def Json.keysOnly : Json → Json
  | .obj ms => .obj (mapValues (fun _ => .null) ms)
  | v => v

structure Json.OnObjects (f : Json → Json) : Prop where
  objects : ∀ ms, (f (.obj ms)).isObject = true
  others : ∀ v, v.isObject = false → f v = v

theorem Json.OnObjects.eq_or_objects {f : Json → Json} (hf : OnObjects f) {v w : Json}
    (h : f v = f w) : v = w ∨ ∃ ms ns, v = .obj ms ∧ w = .obj ns := by
  have hkept : ∀ v, (f v).isObject = v.isObject := by
    intro v
    cases v with
    | obj ms => exact hf.objects ms
    | _ => rw [hf.others _ rfl]
  have hboth : v.isObject = w.isObject := by rw [← hkept v, ← hkept w, h]
  cases hv : v.isObject with
  | false =>
    rw [hv] at hboth
    rw [hf.others v hv, hf.others w hboth.symm] at h
    exact .inl h
  | true =>
    rw [hv] at hboth
    cases v with
    | obj ms =>
      cases w with
      | obj ns => exact .inr ⟨ms, ns, rfl, rfl⟩
      | _ => cases hboth
    | _ => cases hv

theorem Json.onObjects_keysOnly : OnObjects keysOnly := by
  refine ⟨fun _ => rfl, fun v hv => ?_⟩
  cases v with
  | obj ms => cases hv
  | _ => rfl

/-- an object without what it holds: of a Secret the keys remain, of a ConfigMap not even these -/
def Kind.veil : Kind → Json → Json
  | .secret, v => (v.mapMember "data" Json.keysOnly).mapMember "stringData" Json.keysOnly
  | .configMap, v => (v.without "data").without "binaryData"
  | _, v => v

theorem Kind.onObjects_veil (kind : Kind) : Json.OnObjects kind.veil := by
  refine ⟨fun ms => by cases kind <;> rfl, fun v hv => ?_⟩
  cases v with
  | obj ms => cases hv
  | _ => cases kind <;> rfl

structure Secret.ValuesDecode (v : Json) : Prop where
  data : ∀ m ∈ v.members, m.1 = "data" → ∀ x ∈ m.2.members, Succeeds (bytes x.2)
  stringData : ∀ m ∈ v.members, m.1 = "stringData" → ∀ x ∈ m.2.members, Succeeds (string x.2)

structure Kind.SameButValues (kind : Kind) (v w : Json) : Prop where
  veiled : kind.veil v = kind.veil w
  decode : kind = .secret → Secret.ValuesDecode v ∧ Secret.ValuesDecode w

/-- Secrets and ConfigMaps hold values, other objects hold none -/
def Kind.HoldsValues (kind : Kind) : Prop := kind = .secret ∨ kind = .configMap

theorem settles_sameButValues {kind : Kind} (h : ¬kind.HoldsValues) :
    Settles Kind.SameButValues kind := by
  have hveil : ∀ v, kind.veil v = v := fun v => by
    cases kind with
    | secret => exact absurd (.inl rfl) h
    | configMap => exact absurd (.inr rfl) h
    | _ => rfl
  intro v w
  constructor
  · intro hvw
    rw [← hveil v, ← hveil w, hvw.veiled]
  · rintro rfl
    exact ⟨rfl, fun hk => absurd (.inl hk) h⟩

/-! ## tables with the same keys -/

namespace Decode

variable {α : Type} {value : Decoder α}

/-- values that read as tables with the same keys, or do not read for one reason -/
def SameKeys (value : Decoder α) (v w : Json) : Prop :=
  EndsAlike (Option.Rel fun t t' => t.contains = t'.contains) (option (table value) v)
    (option (table value) w)

theorem sameKeys_refl (v : Json) : SameKeys value v v := by
  refine endsAlike_of_forall (fun t => ?_) _
  cases t with
  | none => exact .none
  | some t => exact .some rfl

theorem table_obj (ms : List (String × Json)) (h : ∀ m ∈ ms, Succeeds (value m.2)) :
    ∃ es : List (String × α), table value (.obj ms) = .ok (.ofList es) ∧
      es.map (·.1) = ms.map (·.1) := by
  suffices ∃ es : List (String × α), (ms.mapM fun m => (do return (m.1, ← value m.2) :
      Decoded (String × α))) = .ok es ∧ es.map (·.1) = ms.map (·.1) by
    obtain ⟨es, hes, hkeys⟩ := this
    refine ⟨es, ?_, hkeys⟩
    show (do return Table.ofList (← ms.mapM _) : Decoded _) = _
    rw [hes]
    rfl
  induction ms with
  | nil => exact ⟨[], rfl, rfl⟩
  | cons m ms ih =>
    obtain ⟨es, hes, hkeys⟩ := ih fun m hm => h m (List.mem_cons_of_mem _ hm)
    obtain ⟨a, ha⟩ := h m List.mem_cons_self
    refine ⟨(m.1, a) :: es, ?_, congrArg (m.1 :: ·) hkeys⟩
    rw [List.mapM_cons, hes, ha]
    rfl

theorem contains_ofList {es fs : List (String × α)} (h : es.map (·.1) = fs.map (·.1)) :
    (Table.ofList es).contains = (Table.ofList fs).contains := by
  funext k
  have hfind := (together_of_keys h).ofList.find? k
  show (Entries.find? k (Entries.ofList es)).isSome = (Entries.find? k (Entries.ofList fs)).isSome
  generalize Entries.find? k (Entries.ofList es) = x at hfind
  generalize Entries.find? k (Entries.ofList fs) = y at hfind
  cases hfind <;> rfl

theorem sameKeys_of_keysOnly {v w : Json} (h : v.keysOnly = w.keysOnly)
    (hv : ∀ x ∈ v.members, Succeeds (value x.2)) (hw : ∀ x ∈ w.members, Succeeds (value x.2)) :
    SameKeys value v w := by
  obtain rfl | ⟨ms, ns, rfl, rfl⟩ := Json.onObjects_keysOnly.eq_or_objects h
  · exact sameKeys_refl v
  · have hkeys := congrArg (List.map (·.1)) (Json.obj.inj h)
    rw [mapValues, mapValues, List.map_map, List.map_map] at hkeys
    obtain ⟨es, hes, hms⟩ := table_obj ms hv
    obtain ⟨fs, hfs, hns⟩ := table_obj ns hw
    show EndsAlike _ (some <$> table value (.obj ms)) (some <$> table value (.obj ns))
    rw [hes, hfs]
    exact .ok (.some (contains_ofList ((hms.trans hkeys).trans hns.symm)))

end Decode

/-! ## Secrets -/

namespace Secret

/-- members of one name in two Secrets that are the same but for their values -/
structure SameMember (name : String) (v w : Json) : Prop where
  data : name = "data" → SameKeys bytes v w
  stringData : name = "stringData" → SameKeys string v w
  others : name ≠ "data" → name ≠ "stringData" → v = w

theorem sameMember_refl (name : String) (v : Json) : SameMember name v v :=
  ⟨fun _ => sameKeys_refl v, fun _ => sameKeys_refl v, fun _ _ => rfl⟩

variable {v w : Json} {ms ns : List (String × Json)}

def veilMember (name : String) (v : Json) : Json :=
  if name = "data" ∨ name = "stringData" then v.keysOnly else v

theorem veil_obj (ms : List (String × Json)) :
    Kind.secret.veil (.obj ms) = .obj (ms.map fun m => (m.1, veilMember m.1 m.2)) := by
  show Json.obj ((ms.map _).map _) = _
  rw [List.map_map]
  refine congrArg Json.obj (List.map_congr_left fun m _ => ?_)
  obtain ⟨name, v⟩ := m
  unfold veilMember
  by_cases hdata : name = "data"
  · subst hdata
    rfl
  · by_cases hstring : name = "stringData"
    · subst hstring
      rfl
    · simp [hdata, hstring]

theorem together_of_sameButValues (h : Kind.secret.SameButValues (.obj ms) (.obj ns)) :
    Together SameMember ms ns := by
  obtain ⟨hv, hw⟩ := h.decode rfl
  have hveiled := h.veiled
  rw [veil_obj, veil_obj] at hveiled
  refine together_of_map (Json.obj.inj hveiled) fun name v w hvm hwm hvw => ?_
  unfold veilMember at hvw
  refine ⟨fun hname => ?_, fun hname => ?_, fun hdata hstring => ?_⟩
  · rw [if_pos (.inl hname), if_pos (.inl hname)] at hvw
    exact sameKeys_of_keysOnly hvw (hv.data _ hvm hname) (hw.data _ hwm hname)
  · rw [if_pos (.inr hname), if_pos (.inr hname)] at hvw
    exact sameKeys_of_keysOnly hvw (hv.stringData _ hvm hname) (hw.stringData _ hwm hname)
  · have hneither : ¬(name = "data" ∨ name = "stringData") := not_or.2 ⟨hdata, hstring⟩
    rwa [if_neg hneither, if_neg hneither] at hvw

end Secret

/-! ## reading -/

namespace Object

variable {ms ns : List (String × Json)} {R : String → Json → Json → Prop}

theorem named_of_together {k : String} (h : Together R ms ns) (hk : ∀ v w, R k v w → v = w) :
    named ms k = named ns k := by
  induction h with
  | nil => rfl
  | @cons m n ms ns hmn _ ih =>
    obtain ⟨name, v⟩ := m
    obtain ⟨name', w⟩ := n
    obtain ⟨rfl, hvw⟩ : name = name' ∧ R name v w := hmn
    unfold named at ih ⊢
    by_cases hname : name = k
    · subst hname
      rw [List.filter_cons_of_pos (by simp), List.filter_cons_of_pos (by simp), List.map_cons,
        List.map_cons, ih, hk v w hvw]
    · rw [List.filter_cons_of_neg (by simpa using hname),
        List.filter_cons_of_neg (by simpa using hname), ih]

theorem takeTypes_together (h : Together R ms ns) (hversion : ∀ v w, R "apiVersion" v w → v = w)
    (hkind : ∀ v w, R "kind" v w → v = w) (version kind : Option String) :
    (takeTypes version kind ms).1 = (takeTypes version kind ns).1 ∧
      Together R (takeTypes version kind ms).2 (takeTypes version kind ns).2 := by
  induction h generalizing version kind with
  | nil => exact ⟨rfl, by unfold takeTypes; split <;> exact .nil⟩
  | @cons m n ms ns hmn hrest ih =>
    obtain ⟨name, v⟩ := m
    obtain ⟨name', w⟩ := n
    obtain ⟨rfl, hvw⟩ : name = name' ∧ R name v w := hmn
    rw [takeTypes_cons, takeTypes_cons]
    split
    next hname =>
      subst hname
      obtain rfl := hversion v w hvw
      split
      · exact ih _ _
      · exact ⟨rfl, hrest⟩
    · split
      next hname =>
        subst hname
        obtain rfl := hkind v w hvw
        split
        · exact ih _ _
        · exact ⟨rfl, hrest⟩
      · exact ⟨(ih version kind).1, .cons ⟨rfl, hvw⟩ (ih version kind).2⟩

theorem endsAlike_decode {Q : Object → Object → Prop}
    (h : named ms "metadata" = named ns "metadata")
    (hQ : ∀ m, Q
      ⟨(takeTypes none none (ms.filter fun m => m.1 ≠ "metadata")).1, m,
        .ofList (takeTypes none none (ms.filter fun m => m.1 ≠ "metadata")).2⟩
      ⟨(takeTypes none none (ns.filter fun m => m.1 ≠ "metadata")).1, m,
        .ofList (takeTypes none none (ns.filter fun m => m.1 ≠ "metadata")).2⟩) :
    EndsAlike Q (decode (.obj ms)) (decode (.obj ns)) := by
  have hsingle : single? ms "metadata" Metadata.decode = single? ns "metadata" Metadata.decode := by
    unfold single?
    rw [h]
  show EndsAlike Q (single? ms "metadata" Metadata.decode >>= fun m => pure _)
    (single? ns "metadata" Metadata.decode >>= fun m => pure _)
  rw [hsingle]
  refine (endsAlike_refl _).bind fun m m' heq => ?_
  subst heq
  exact .ok (hQ _)

theorem endsAlike_readObject {Q : Object → Object → Prop} {v w : Json}
    (h : EndsAlike Q (decode v) (decode w)) :
    EndsAlike Q (Cluster.readObject v) (Cluster.readObject w) := by
  unfold Cluster.readObject
  generalize decode v = x at h
  generalize decode w = y at h
  cases h with
  | ok h => exact .ok h
  | error e => exact .error _

end Object

namespace Secret

variable {v w : Json} {ms ns : List (String × Json)}

/-- Secrets with the same keys, as far as they are read, or none for one reason -/
def HoldSame (o o' : Object) : Prop :=
  EndsAlike (fun s s' => s.hasKey = s'.hasKey) (o.decodeAs Secret.decode)
    (o'.decodeAs Secret.decode)

theorem holdSame_refl (o : Object) : HoldSame o o :=
  endsAlike_of_forall (Q := fun s s' : Secret => s.hasKey = s'.hasKey) (fun _ => rfl) _

theorem endsAlike_optional {α : Type} {value : Decoder α} {name : String} {x y : Option Json}
    (h : Option.Rel (SameMember name) x y)
    (hname : ∀ v w, SameMember name v w → SameKeys value v w) :
    EndsAlike (Option.Rel fun t t' => t.contains = t'.contains)
      (Option.join <$> ofMember (option (table value)) x)
      (Option.join <$> ofMember (option (table value)) y) := by
  cases h with
  | none => exact .ok .none
  | @some v w hvw =>
    show EndsAlike _ (Option.join <$> some <$> option (table value) v)
      (Option.join <$> some <$> option (table value) w)
    have hread : SameKeys value v w := hname v w hvw
    unfold SameKeys at hread
    generalize option (table value) v = x at hread
    generalize option (table value) w = y at hread
    cases hread with
    | ok h => exact .ok h
    | error e => exact .error e

theorem hasKey_congr {s s' : Secret}
    (hdata : Option.Rel (fun t t' => t.contains = t'.contains) s.data s'.data)
    (hstring : Option.Rel (fun t t' => t.contains = t'.contains) s.stringData s'.stringData) :
    s.hasKey = s'.hasKey := by
  have hany : ∀ {α : Type} {x y : Option (Table String α)},
      Option.Rel (fun t t' => t.contains = t'.contains) x y →
        ∀ key, x.any (·.contains key) = y.any (·.contains key) := by
    intro α x y h key
    cases h with
    | none => rfl
    | some h => exact congrFun h key
  funext key
  unfold hasKey
  rw [hany hdata, hany hstring]

/-- members that go together are read as Secrets with the same keys -/
theorem decode_together (hms : Ordered ms) (hns : Ordered ns) (h : Together SameMember ms ns) :
    EndsAlike (fun s s' => s.hasKey = s'.hasKey) (Secret.decode (.obj ms))
      (Secret.decode (.obj ns)) := by
  have hothers : ∀ k, k ≠ "data" → k ≠ "stringData" →
      Entries.find? k ms = Entries.find? k ns := by
    intro k hdata hstring
    have hfind := h.find? k
    generalize Entries.find? k ms = x at hfind
    generalize Entries.find? k ns = y at hfind
    cases hfind with
    | none => rfl
    | some hvw => rw [hvw.others hdata hstring]
  have hmember : ∀ {α : Type} (k : String) (value : Decoder α), k ≠ "data" → k ≠ "stringData" →
      member? ms k value = member? ns k value := by
    intro α k value hdata hstring
    rw [member?_eq hms, member?_eq hns, hothers k hdata hstring]
  have hoptional : ∀ {α : Type} (k : String) (value : Decoder α), k ≠ "data" →
      k ≠ "stringData" → optional ms k value = optional ns k value := by
    intro α k value hdata hstring
    unfold Decode.optional
    rw [hmember k _ hdata hstring]
  have hdata := endsAlike_optional (h.find? "data") fun _ _ hvw => hvw.data rfl
  have hstring := endsAlike_optional (h.find? "stringData") fun _ _ hvw => hvw.stringData rfl
  rw [← optional_eq hms, ← optional_eq hns] at hdata hstring
  show EndsAlike _ (do
      let _ ← member? ms "apiVersion" (exactly Kind.secret.apiVersion)
      let data ← optional ms "data" (table bytes)
      let immutable ← optional ms "immutable" bool
      let _ ← member? ms "kind" (exactly Kind.secret.name)
      let metadata ← optional ms "metadata" Metadata.decode
      let stringData ← optional ms "stringData" (table string)
      let type ← optional ms "type" string
      return (⟨metadata.getD default, type, immutable, data, stringData⟩ : Secret))
    (do
      let _ ← member? ns "apiVersion" (exactly Kind.secret.apiVersion)
      let data ← optional ns "data" (table bytes)
      let immutable ← optional ns "immutable" bool
      let _ ← member? ns "kind" (exactly Kind.secret.name)
      let metadata ← optional ns "metadata" Metadata.decode
      let stringData ← optional ns "stringData" (table string)
      let type ← optional ns "type" string
      return (⟨metadata.getD default, type, immutable, data, stringData⟩ : Secret))
  rw [hmember "apiVersion" _ (by decide) (by decide), hmember "kind" _ (by decide) (by decide),
    hoptional "immutable" _ (by decide) (by decide), hoptional "metadata" _ (by decide) (by decide),
    hoptional "type" _ (by decide) (by decide)]
  refine (endsAlike_refl _).bind fun _ _ _ => hdata.bind fun data data' hdata =>
    (endsAlike_refl _).bind fun _ _ himmutable => (endsAlike_refl _).bind fun _ _ _ =>
      (endsAlike_refl _).bind fun _ _ hmetadata => hstring.bind fun strings strings' hstrings =>
        (endsAlike_refl _).bind fun _ _ htype => .ok ?_
  exact hasKey_congr hdata hstrings

/-- what is read of such Secrets differs in what is under their keys -/
theorem endsAlike_object (h : Together SameMember ms ns) :
    EndsAlike HoldSame (Object.decode (.obj ms)) (Object.decode (.obj ns)) := by
  have hsame : ∀ {k}, k ≠ "data" → k ≠ "stringData" → ∀ v w, SameMember k v w → v = w :=
    fun hdata hstring _ _ hvw => hvw.others hdata hstring
  have hrest : Together SameMember (ms.filter fun m => m.1 ≠ "metadata")
      (ns.filter fun m => m.1 ≠ "metadata") := h.filter (p := fun k => decide (k ≠ "metadata"))
  obtain ⟨htypes, hbody⟩ := Object.takeTypes_together hrest (hsame (by decide) (by decide))
    (hsame (by decide) (by decide)) none none
  refine Object.endsAlike_decode (Object.named_of_together h (hsame (by decide) (by decide)))
    fun m => ?_
  rw [htypes]
  refine decode_together (ordered_ofList _) (ordered_ofList _) (Together.ofList ?_)
  refine (together_refl sameMember_refl _).append (.cons ⟨rfl, sameMember_refl _ _⟩ ?_)
  exact hbody.ofList

end Secret

/-- Secrets that are the same but for their values hold the same keys -/
theorem readObject_secret {v w : Json} (h : Kind.secret.SameButValues v w) :
    EndsAlike Secret.HoldSame (Cluster.readObject v) (Cluster.readObject w) := by
  obtain rfl | ⟨ms, ns, rfl, rfl⟩ := Kind.secret.onObjects_veil.eq_or_objects h.veiled
  · exact endsAlike_of_forall Secret.holdSame_refl _
  · exact Object.endsAlike_readObject (Secret.endsAlike_object (Secret.together_of_sameButValues h))

/-- ConfigMaps that are the same but for their values are both read, or neither is -/
theorem readObject_configMap {v w : Json} (h : Kind.configMap.SameButValues v w) :
    EndsAlike (fun _ _ => True) (Cluster.readObject v) (Cluster.readObject w) := by
  refine Object.endsAlike_readObject ?_
  obtain rfl | ⟨ms, ns, rfl, rfl⟩ := Kind.configMap.onObjects_veil.eq_or_objects h.veiled
  · exact endsAlike_of_forall (fun _ => trivial) _
  · have herased : erase "binaryData" (erase "data" ms) = erase "binaryData" (erase "data" ns) :=
      Json.obj.inj h.veiled
    have hnamed : ∀ ms : List (String × Json),
        named (erase "binaryData" (erase "data" ms)) "metadata" = named ms "metadata" := by
      intro ms
      rw [named_erase _ (by decide), named_erase _ (by decide)]
    refine Object.endsAlike_decode ?_ fun _ => trivial
    rw [← hnamed ms, herased, hnamed ns]

end ConnectorControl
