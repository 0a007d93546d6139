import Mathlib.Data.List.Nodup
import ConnectorControl.Proofs.Derived.Stored

/-!
# Names of derived objects

Whatever the spec, an object of a Connector has one of the Connector's names for its kind
(`Identity.Names`).  Every kind has one such name, but for the TriggerAuthentications, which are
numbered.

Connectors of different names have no name in common, even if one name begins with the other
(`Identity.Names.name_eq`): a kind's suffix is the same for all, and a number has no dash in it.
The names of one Connector differ from each other (`names_nodup`), but for those of its Deployment
and its Service.
-/

namespace ConnectorControl

theorem Derived.triggerAuthName_inj {connector : String} {m n : Nat}
    (h : triggerAuthName connector m = triggerAuthName connector n) : m = n := by
  unfold triggerAuthName at h
  -- a numbered name is longer than one without a number
  have hlong : ∀ k : Nat, objectName .triggerAuthentication connector ≠
      objectName .triggerAuthentication connector ++ "-" ++ toString k := by
    intro k hk
    have := congrArg String.toList hk
    rw [String.toList_append, String.toList_append, List.append_assoc] at this
    have := List.append_cancel_left ((List.append_nil _).trans this)
    cases this
  split at h
  next hm =>
    split at h
    next hn => rw [hm, hn]
    · exact absurd h (hlong n)
  next hm =>
    split at h
    · exact absurd h.symm (hlong m)
    · have h := congrArg String.toList ((String.append_right_inj _).1 h)
      have h : (Nat.repr m).toList = (Nat.repr n).toList := h
      rw [Nat.toList_repr, Nat.toList_repr] at h
      rw [← Nat.ofDigitChars_ten_toDigits (n := m), h, Nat.ofDigitChars_ten_toDigits]

namespace Derived

/-- what stands behind the last of some separators, and what before it -/
theorem append_inj_of_last {α : Type} {sep : α} {a b l m : List α} (hl : sep ∉ l)
    (hm : sep ∉ m) (h : a ++ sep :: l = b ++ sep :: m) : a = b ∧ l = m := by
  rcases List.append_eq_append_iff.1 h with ⟨x, hb, hx⟩ | ⟨x, ha, hx⟩
  · cases x with
    | nil => exact ⟨by rw [hb, List.append_nil], (List.cons.inj hx).2⟩
    | cons c x =>
      -- a separator would be left behind the last one
      obtain ⟨rfl, rfl⟩ := List.cons.inj hx
      exact absurd (List.mem_append_right x List.mem_cons_self) hl
  · cases x with
    | nil => exact ⟨by rw [ha, List.append_nil], (List.cons.inj hx).2.symm⟩
    | cons c x =>
      obtain ⟨rfl, rfl⟩ := List.cons.inj hx
      exact absurd (List.mem_append_right x List.mem_cons_self) hm

theorem not_mem_digits {n : Nat} {c : Char} (hc : c.isDigit = false) :
    c ∉ (toString n).toList := by
  intro h
  have h : c ∈ Nat.toDigits 10 n := by
    rw [← Nat.toList_repr]
    exact h
  rw [Nat.isDigit_of_mem_toDigits (by decide) (by decide) h] at hc
  cases hc

theorem toList_triggerAuthName_zero (connector : String) :
    (triggerAuthName connector 0).toList = connector.toList ++ '-' :: "vta".toList :=
  String.toList_append

theorem toList_triggerAuthName_succ (connector : String) (n : Nat) :
    (triggerAuthName connector (n + 1)).toList =
      (connector.toList ++ "-vta".toList) ++ '-' :: (toString (n + 1)).toList := by
  show (connector ++ "-vta" ++ "-" ++ toString (n + 1)).toList = _
  rw [String.toList_append, String.toList_append, String.toList_append, List.append_assoc]
  rfl

/-- the names of a Connector's TriggerAuthentications tell whose they are -/
theorem connector_eq_of_triggerAuthName {a b : String} {m n : Nat}
    (h : triggerAuthName a m = triggerAuthName b n) : a = b := by
  have hvta : '-' ∉ "vta".toList := by decide
  have hdigits : ∀ n : Nat, '-' ∉ (toString n).toList := fun n => not_mem_digits rfl
  -- what stands behind the last dash is a number or not
  have hnumber : ∀ n : Nat, "vta".toList ≠ (toString n).toList := fun n he =>
    not_mem_digits (show ('v' : Char).isDigit = false from rfl)
      (he ▸ show 'v' ∈ "vta".toList by decide)
  have h := congrArg String.toList h
  cases m with
  | zero =>
    rw [toList_triggerAuthName_zero] at h
    cases n with
    | zero =>
      rw [toList_triggerAuthName_zero] at h
      exact String.toList_inj.1 (append_inj_of_last hvta hvta h).1
    | succ n =>
      rw [toList_triggerAuthName_succ] at h
      exact absurd (append_inj_of_last hvta (hdigits _) h).2 (hnumber _)
  | succ m =>
    rw [toList_triggerAuthName_succ] at h
    cases n with
    | zero =>
      rw [toList_triggerAuthName_zero] at h
      exact absurd (append_inj_of_last (hdigits _) hvta h).2.symm (hnumber _)
    | succ n =>
      rw [toList_triggerAuthName_succ] at h
      exact String.toList_inj.1
        (List.append_cancel_right (append_inj_of_last (hdigits _) (hdigits _) h).1)

theorem objectName_injective (kind : DerivedKind) : Function.Injective (objectName kind) :=
  fun _ _ h => (String.append_left_inj _).1 h

/-! ## the names of one Connector -/

/-- whatever its number, the name of a TriggerAuthentication goes on with the kind's suffix -/
theorem exists_triggerAuthName_eq (connector : String) (index : Nat) :
    ∃ rest, triggerAuthName connector index = connector ++ ("-vta" ++ rest) := by
  unfold triggerAuthName
  split
  · exact ⟨"", by rw [String.append_empty]; rfl⟩
  · refine ⟨"-" ++ toString index, ?_⟩
    show connector ++ "-vta" ++ "-" ++ toString index = _
    rw [String.append_assoc, String.append_assoc]

theorem triggerAuthName_ne {connector : String} {kind : DerivedKind}
    (hkind : kind ≠ .triggerAuthentication) (index : Nat) :
    objectName kind connector ≠ triggerAuthName connector index := by
  intro h
  obtain ⟨rest, hrest⟩ := exists_triggerAuthName_eq connector index
  have hsuffix : suffix kind = "-vta" ++ rest := (String.append_right_inj _).1 (h.trans hrest)
  have hlist := congrArg String.toList hsuffix
  rw [String.toList_append] at hlist
  cases kind with
  | triggerAuthentication => exact hkind rfl
  -- the suffixes differ in their third character, if they have one
  | _ => simp [suffix] at hlist

/-- The ScaledObject, the HTTPScaledObject, the Deployment and any number of TriggerAuthentications
of a Connector have different names. -/
theorem names_nodup (connector : String) (count : Nat) :
    ([.scaledObject, .httpScaledObject, .deployment].map (objectName · connector) ++
      (List.range count).map (triggerAuthName connector)).Nodup := by
  refine List.nodup_append.2 ⟨?_, ?_, ?_⟩
  · have hsuffixes : ["-vso", "-vhso", ""].Nodup := by decide
    have happend : Function.Injective (connector ++ ·) := fun a b h =>
      (String.append_right_inj connector).1 h
    show (["-vso", "-vhso", ""].map (connector ++ ·)).Nodup
    exact hsuffixes.map happend
  · have hindex : Function.Injective (triggerAuthName connector) := fun m n h =>
      triggerAuthName_inj h
    exact List.nodup_range.map hindex
  · intro name hname other hother heq
    obtain ⟨kind, hkind, rfl⟩ := List.mem_map.1 hname
    obtain ⟨index, _, rfl⟩ := List.mem_map.1 hother
    refine triggerAuthName_ne ?_ index heq
    rintro rfl
    simp at hkind

/-- The names of derived objects never collide.  The name of a TriggerAuthentication tells the
Connector and the index, whatever the Connector's name ends in, and the name of a kind's object
tells the Connector.  One Connector's ScaledObject, HTTPScaledObject, Deployment and
TriggerAuthentications have different names, however many there are of the last. -/
theorem names_never_collide :
    Function.Injective2 triggerAuthName ∧
      (∀ kind, Function.Injective (objectName kind)) ∧
      ∀ connector count,
        ([.scaledObject, .httpScaledObject, .deployment].map (objectName · connector) ++
          (List.range count).map (triggerAuthName connector)).Nodup := by
  refine ⟨?_, objectName_injective, names_nodup⟩
  intro m n i j h
  obtain rfl := connector_eq_of_triggerAuthName h
  exact ⟨rfl, triggerAuthName_inj h⟩

example : triggerAuthName "shop-vta" 1 = "shop-vta-vta-1" := by decide +kernel

end Derived

namespace Identity

def Names (i : Identity) : DerivedKind → String → Prop
  | .triggerAuthentication, name => ∃ index, name = Derived.triggerAuthName i.name index
  | kind, name => name = Derived.objectName kind i.name

variable {i : Identity} {name : String}

theorem objectName_deployment (connector : String) :
    Derived.objectName .deployment connector = connector := String.append_empty

theorem objectName_service (connector : String) :
    Derived.objectName .service connector = connector := String.append_empty

theorem names_deployment : i.Names .deployment i.name := (objectName_deployment _).symm

theorem names_service : i.Names .service i.name := (objectName_service _).symm

theorem Names.name_eq {j : Identity} {kind : DerivedKind} (hi : i.Names kind name)
    (hj : j.Names kind name) : i.name = j.name := by
  have hsuffix := Derived.objectName_injective kind
  cases kind with
  | triggerAuthentication =>
    obtain ⟨m, rfl⟩ := hi
    obtain ⟨n, hn⟩ := hj
    exact Derived.connector_eq_of_triggerAuthName hn
  | deployment => exact hsuffix (Eq.trans (Eq.symm hi) hj)
  | service => exact hsuffix (Eq.trans (Eq.symm hi) hj)
  | scaledObject => exact hsuffix (Eq.trans (Eq.symm hi) hj)
  | httpScaledObject => exact hsuffix (Eq.trans (Eq.symm hi) hj)

end Identity
end ConnectorControl
