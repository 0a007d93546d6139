import ConnectorControl.Store.Fault

/-!
# Replies of a disturbed store

A cluster replies to a call, or something comes between: a failure that leaves the cluster alone,
or a reply that hides an object.  A `Disturbance` says which calls may fail and which may be kept
from seeing; `Cluster.Replies` is what may then come of a call.

A world with faults is a cluster under a disturbance (`World.replies_answer`): the faults only
choose among the replies that the disturbance leaves open, whatever they count and skip.
-/

namespace ConnectorControl

/-- which calls may fail, and which may find nothing where there is something -/
structure Disturbance where
  fails : Call → Prop
  hides : Call → Prop

namespace Disturbance

def none : Disturbance := ⟨fun _ => False, fun _ => False⟩

def writes : Disturbance :=
  ⟨fun c => c.verb ≠ .get ∧ c.verb ≠ .list, fun _ => False⟩

def any : Disturbance := ⟨fun _ => True, fun _ => True⟩

/-- a disturbance that leaves a call alone -/
def Spares (d : Disturbance) (c : Call) : Prop := ¬d.fails c ∧ ¬d.hides c

def Quiet (d : Disturbance) : Prop := ∀ c, d.Spares c

theorem quiet_none : none.Quiet := fun _ => ⟨not_false, not_false⟩

/-- a disturbance that leaves fetches alone and hides nothing -/
structure Tame (d : Disturbance) : Prop where
  spares : ∀ kind ns name, d.Spares (.get kind ns name)
  shows : ∀ c, ¬d.hides c

theorem tame_none : none.Tame := ⟨fun _ _ _ => ⟨not_false, not_false⟩, fun _ => not_false⟩

theorem tame_writes : writes.Tame :=
  ⟨fun _ _ _ => ⟨fun h => h.1 rfl, not_false⟩, fun _ => not_false⟩

end Disturbance

/-- what may come of a call: the reply and the cluster after it -/
inductive Cluster.Replies (d : Disturbance) (c : Call) (s : Cluster) : c.Reply → Cluster → Prop
  | answered : Replies d c s (answer c s).1 (answer c s).2
  | failed (e : Failure) (h : d.fails c) : Replies d c s (.error e) s
  | hidden (a : c.Answer) (h : d.hides c) (ha : Fault.hidden c = some a) :
    Replies d c s (.ok a) s

/-! ## faults as a disturbance -/

namespace Fault

def Within (d : Disturbance) (f : Fault) : Prop :=
  ∀ c, f.concerns c = true →
    (f.failure ≠ none → d.fails c) ∧ (f.failure = none → Fault.hidden c ≠ none → d.hides c)

theorem Within.any (f : Fault) : f.Within .any := fun _ _ => ⟨fun _ => trivial, fun _ _ => trivial⟩

structure Same (f g : Fault) : Prop where
  verb : g.verb = f.verb
  kind : g.kind = f.kind
  name : g.name = f.name
  failure : g.failure = f.failure

theorem Same.concerns_eq {f g : Fault} (h : f.Same g) (c : Call) :
    g.concerns c = f.concerns c := by
  unfold concerns
  rw [h.verb, h.kind, h.name]

theorem Within.of_same {d : Disturbance} {f g : Fault} (h : f.Within d) (hg : f.Same g) :
    g.Within d := by
  intro c hc
  rw [hg.concerns_eq] at hc
  rw [hg.failure]
  exact h c hc

/-- a fault of writes, which either fail or are made: a deletion does not only seem to be made -/
def onWrites (f : Fault) : Bool :=
  f.verb = .create || f.verb = .patch || f.verb = .patchStatus ||
    (f.verb = .delete && f.failure.isSome)

theorem Within.writes {f : Fault} (h : f.onWrites = true) : f.Within .writes := by
  intro c hc
  have hv : f.verb = c.verb := by
    unfold concerns at hc
    simp only [Bool.and_eq_true, decide_eq_true_eq] at hc
    exact hc.1.1
  unfold onWrites at h
  rw [hv] at h
  constructor
  · intro _
    cases c <;> simp_all [Disturbance.writes, Call.verb]
  · intro hn hh
    cases c <;> simp_all [Call.verb, Fault.hidden]

/-- what does not depend on counts holds of the faults that are left, and of the one that acts -/
theorem take_forall {P : Fault → Prop} (hP : ∀ f g : Fault, f.Same g → P f → P g) (c : Call)
    {fs : List Fault} (h : ∀ f ∈ fs, P f) :
    (∀ f ∈ (take c fs).2, P f) ∧
      ∀ f, (take c fs).1 = some f → P f ∧ f.concerns c = true := by
  induction fs with
  | nil => simp [take]
  | cons f fs ih =>
    have hf := h f List.mem_cons_self
    have hfs : ∀ g ∈ fs, P g := fun g hg => h g (List.mem_cons_of_mem _ hg)
    obtain ⟨ih₁, ih₂⟩ := ih hfs
    rw [take]
    split
    · refine ⟨fun g hg => ?_, ih₂⟩
      rcases List.mem_cons.1 hg with rfl | hg
      · exact hf
      · exact ih₁ g hg
    next hp =>
      split
      · refine ⟨fun g hg => ?_, ih₂⟩
        rcases List.mem_cons.1 hg with rfl | hg
        · exact hP f _ ⟨rfl, rfl, rfl, rfl⟩ hf
        · exact ih₁ g hg
      · refine ⟨fun g hg => ?_, fun g hg => ?_⟩
        · rcases List.mem_cons.1 hg with rfl | hg
          · exact hP f _ ⟨rfl, rfl, rfl, rfl⟩ hf
          · exact hfs g hg
        · obtain rfl : f = g := Option.some.inj hg
          refine ⟨hf, ?_⟩
          cases hc : f.concerns c with
          | true => rfl
          | false => simp [hc] at hp

theorem take_within {d : Disturbance} (c : Call) {fs : List Fault} (h : ∀ f ∈ fs, f.Within d) :
    (∀ f ∈ (take c fs).2, f.Within d) ∧
      ∀ f, (take c fs).1 = some f → f.Within d ∧ f.concerns c = true :=
  take_forall (fun _ _ hg h => h.of_same hg) c h

end Fault

namespace World

def Within (d : Disturbance) (w : World) : Prop := ∀ f ∈ w.faults, f.Within d

theorem within_of_noFaults {w : World} (h : w.faults = []) : w.Within .none := by
  intro f hf
  rw [h] at hf
  cases hf

theorem within_any (w : World) : w.Within .any := fun f _ => Fault.Within.any f

/-- a world replies as its cluster may under the disturbance -/
theorem replies_answer {d : Disturbance} {w : World} (hw : w.Within d) (c : Call) :
    Cluster.Replies d c w.cluster (answer c w).1 (answer c w).2.cluster ∧
      (answer c w).2.Within d := by
  obtain ⟨hrest, htaken⟩ := Fault.take_within c hw
  unfold answer
  rcases ht : Fault.take c w.faults with ⟨_ | f, faults⟩
  · rw [ht] at hrest
    exact ⟨.answered, hrest⟩
  · rw [ht] at hrest htaken
    obtain ⟨hf, hc⟩ := htaken f rfl
    obtain ⟨hfail, hhide⟩ := hf c hc
    dsimp only
    split
    · next _ _ e he => exact ⟨.failed e (hfail (by rw [he]; exact nofun)), hrest⟩
    · next _ _ a he hh => exact ⟨.hidden a (hhide he (by rw [hh]; exact nofun)) hh, hrest⟩
    · exact ⟨.answered, hrest⟩

end World
end ConnectorControl
