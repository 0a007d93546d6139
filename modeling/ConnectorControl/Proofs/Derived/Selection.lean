import Mathlib.Data.List.TakeDrop
import ConnectorControl.Proofs.Derived.Stored

/-!
# Objects that belong to a Connector

An object belongs to a Connector when it carries its label and has its UID as its controller.  The
selector of a Connector goes by the label (`isSelected_selector`), unless the Connector's name has
a comma in it: then the selector falls into several terms.
-/

namespace ConnectorControl

theorem Text.cut?_append {sep : Char} {a : String} (b : String) (h : sep ∉ a.toList) :
    cut? sep (a ++ String.singleton sep ++ b) = some (a, b) := by
  have hne : ∀ c ∈ a.toList, decide (c ≠ sep) = true := by
    intro c hc
    refine decide_eq_true fun e => ?_
    rw [e] at hc
    exact h hc
  have hspan : (a.toList ++ sep :: b.toList).span (· ≠ sep) = (a.toList, sep :: b.toList) := by
    rw [List.span_eq_takeWhile_dropWhile, List.takeWhile_append_of_pos hne,
      List.dropWhile_append_of_pos hne]
    simp
  unfold cut?
  rw [show (a ++ String.singleton sep ++ b).toList = a.toList ++ sep :: b.toList by simp, hspan]
  simp

namespace Identity

variable (i : Identity)

def labels (v : Json) : Bool :=
  (((v.get "metadata").get "labels").get Derived.connectorLabel).string? = some i.name

def controls (v : Json) : Bool :=
  match Cluster.readObject v with
  | .ok o => i.uid.any o.metadata.isControlledBy
  | .error _ => false

variable {i} {kind : DerivedKind} {name uid : String} {spec : Json}

theorem find?_connectorLabel (connector : String) :
    (Derived.standardLabels connector).find? Derived.connectorLabel = some connector := by
  show Entries.find? _ (Entries.ofList _) = _
  rw [Entries.find?_ofList _ _ (by simp [Derived.connectorLabel])]
  rfl

theorem labels_stored : i.labels (i.stored kind name uid spec) = true := by
  unfold labels
  rw [get_labels_stored, Json.get_eq, Json.find?_ofStringTable, find?_connectorLabel]
  exact decide_eq_true rfl

theorem controls_stored (h : i.uid.isSome) : i.controls (i.stored kind name uid spec) = true := by
  obtain ⟨owner, ho⟩ := Option.isSome_iff_exists.1 h
  unfold controls
  rw [readObject_stored]
  show i.uid.any (i.metadata name uid).isControlledBy = true
  rw [ho, Option.any_some, isControlledBy_metadata ho]

theorem controls_of_read {v : Json} {o : Object} (hi : i.uid = some uid)
    (hv : Cluster.readObject v = .ok o) (ho : o.metadata.isControlledBy uid = true) :
    i.controls v = true := by
  unfold controls
  rw [hv, hi]
  exact ho

theorem isSelected_selector (h : ',' ∉ i.name.toList) (v : Json) :
    Cluster.isSelected (Derived.selector i.name) v = i.labels v := by
  have hcomma : ',' ∉ (Derived.selector i.name).toList := by
    unfold Derived.selector
    rw [String.toList_append, String.toList_append, List.mem_append, List.mem_append]
    rintro ((hm | hm) | hm)
    · exact absurd hm (by decide)
    · exact absurd hm (by decide)
    · exact h hm
  have hcut : Text.cut? '=' (Derived.selector i.name) =
      some (Derived.connectorLabel, i.name) :=
    Text.cut?_append i.name (by decide)
  have hne : Derived.selector i.name ≠ "" := by
    intro he
    rw [he] at hcut
    cases hcut
  unfold Cluster.isSelected
  rw [Text.split_of_not_mem hcomma]
  show ([Derived.selector i.name].filter (· ≠ "")).all _ = _
  rw [List.filter_cons_of_pos (by simpa using hne), List.filter_nil, List.all_cons, List.all_nil,
    Bool.and_true]
  unfold Cluster.satisfiesTerm labels
  rw [hcut]

end Identity
end ConnectorControl
