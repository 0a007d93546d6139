import ConnectorControl.Proofs.Pass.Runs

/-!
# Reading a Connector whose condition has been recorded

A Connector that is read again after a condition was recorded is the one that was there, with the
condition pushed to its history and with its generation observed (`ensures_record_read`).  The
generation is left out of the patch if the Connector has none, so a generation that the stored
status holds is left over then (`Connector.LeftoverGeneration`).  Unless there is one, what is read
has observed the generation of the Connector, and saying the same again writes nothing
(`settles_unless_leftover`).
-/

namespace ConnectorControl

namespace Connector

variable {c : Connector} {s : Cluster} {ns : String} {cond again : Condition} {st : Status}
  {x : Option Status}

/-- the status of a Connector, which is empty if it has none -/
def presentStatus (c : Connector) : Status := c.status.getD default

/-- The Connector has no generation, and the stored status has an observed one among its members.
A status that is a list has no members. -/
def LeftoverGeneration (c : Connector) (s : Cluster) (ns : String) : Prop :=
  c.metadata.generation = none ∧ ∃ v, s.find? ⟨.connector, ns, c.name⟩ = some v ∧
    (v.get "status").get "observedGeneration" ≠ .null

theorem leftoverGeneration_iff {v : Json} (hv : s.find? ⟨.connector, ns, c.name⟩ = some v) :
    c.LeftoverGeneration s ns ↔
      c.metadata.generation = none ∧ (v.get "status").get "observedGeneration" ≠ .null := by
  constructor
  · rintro ⟨hnone, w, hw, hleft⟩
    obtain rfl := Option.some.inj (hv.symm.trans hw)
    exact ⟨hnone, hleft⟩
  · rintro ⟨hnone, hleft⟩
    exact ⟨hnone, v, hv, hleft⟩

/-- the status that is read once a condition is recorded -/
structure Observes (c : Connector) (s : Cluster) (ns : String) (cond : Condition) (st : Status) :
    Prop where
  conditions : st.conditions = History.push c.presentStatus.conditions cond
  generation : st.observedGeneration = c.metadata.generation ↔ ¬c.LeftoverGeneration s ns

theorem observes_of_statusAfter (hs : s.Canonical)
    (hc : s.Holds .connector ns c.name decode c) (h : c.statusAfter cond = none) :
    c.Observes s ns cond c.presentStatus := by
  obtain ⟨hrepeats, hobserved⟩ := Pass.statusAfter_eq_none.1 h
  refine ⟨(History.push_of_repeats hrepeats).symm, iff_of_true hobserved ?_⟩
  obtain ⟨v, o, hv, ho, hread⟩ := hc
  rw [leftoverGeneration_iff hv]
  rintro ⟨hnone, hleft⟩
  exact hleft (get_generation_of_decodeAs (hs _ v hv) (Cluster.decode_of_readObject ho) hread
    (hobserved.trans hnone))

/-- a generation that is patched in is observed, and of the others the one that was there -/
theorem observes_patched {v : Json} {left : Option Int64}
    (hv : s.find? ⟨.connector, ns, c.name⟩ = some v)
    (hleft : left = none ↔ (v.get "status").get "observedGeneration" = .null) :
    c.Observes s ns cond
      ⟨History.push c.presentStatus.conditions cond, c.metadata.generation <|> left⟩ := by
  refine ⟨rfl, ?_⟩
  rw [leftoverGeneration_iff hv, not_and, not_not, ← hleft]
  cases c.metadata.generation with
  | some n => exact iff_of_true rfl nofun
  | none => exact ⟨fun h _ => h, fun h => h rfl⟩

theorem Observes.last (h : c.Observes s ns cond st) :
    ∃ last, st.conditions.getLast? = some last ∧ last.sameObservation cond = true := by
  have hrepeats := History.repeats_push c.presentStatus.conditions cond
  rw [← h.conditions] at hrepeats
  unfold History.repeats at hrepeats
  split at hrepeats
  next last hlast => exact ⟨last, hlast, hrepeats⟩
  · cases hrepeats

/-- once a condition is observed, there is nothing to record about another one that says the same,
unless a generation is left over -/
theorem Observes.statusAfter_iff (h : c.Observes s ns cond (x.getD default))
    (hsame : cond.sameObservation again = true) :
    statusAfter { c with status := x } again = none ↔ ¬c.LeftoverGeneration s ns := by
  rw [Pass.statusAfter_eq_none, ← h.generation, h.conditions, History.repeats_congr hsame]
  exact and_iff_right (History.repeats_push _ _)

end Connector

namespace Pass

variable {s : Cluster} {ns name : String} {c : Connector} {cond again : Condition} {w : World}

def recording (ns : String) (c : Connector) (cond : Condition) (w : World) :
    Program.Run World (Except Failure Bool) :=
  (record c ns cond).run.run World.answer w

def reading (ns name : String) (w : World) :
    Program.Run World (Except Failure (Option Connector)) :=
  (getAs .connector ns name Connector.decode).run.run World.answer w

/-- recording the condition writes nothing and says so -/
def Skips (ns : String) (c : Connector) (cond : Condition) (w : World) : Prop :=
  (recording ns c cond w).result = .ok false ∧ (recording ns c cond w).state = w

theorem skips_iff : Skips ns c cond w ↔ c.statusAfter cond = none := by
  constructor
  · rintro ⟨hresult, -⟩
    have htells : Ensures .any (fun _ _ => True) (record c ns cond) w.cluster
        (fun written _ => written = false → c.statusAfter cond = none) fun _ _ => True := by
      refine ensures_record (fun hnone _ => hnone) fun status _ => ?_
      refine ensures_call.2 ⟨trivial, fun r s' _ => ?_⟩
      cases r with
      | ok _ => exact nofun
      | error _ => trivial
    have hend := (Program.Ensures.run htells w.within_any).2.1
    change Ends _ _ (recording ns c cond w).result _ at hend
    rw [hresult] at hend
    exact hend rfl
  · intro hnone
    unfold Skips recording record
    rw [hnone]
    exact ⟨rfl, rfl⟩

/-- without faults a condition is recorded, and is observed by whoever reads the Connector then -/
theorem ensures_record_read (hs : s.Canonical)
    (hc : s.Holds .connector ns c.name Connector.decode c) (cond : Condition) :
    Ensures .none (fun _ _ => True) (record c ns cond) s
      (fun _ s' => ∃ x, s'.Holds .connector ns c.name Connector.decode { c with status := x } ∧
        c.Observes s ns cond (x.getD default)) fun _ _ => False := by
  refine ensures_record (fun hnone => ?_) fun status hsome => ?_
  · exact ⟨c.status, hc, Connector.observes_of_statusAfter hs hc hnone⟩
  · obtain rfl := eq_of_statusAfter hsome
    obtain ⟨v, _, hv, _⟩ := id hc
    obtain ⟨left, hread, hleft⟩ := hs.holds_recorded hc hv
      (show Status.conditions ⟨History.push _ cond, c.metadata.generation⟩ ≠ [] from
        History.push_ne_nil)
    exact ensures_patchStatus_of_find? hv trivial
      ⟨_, hread, Connector.observes_patched hv hleft⟩

/-- Recording a condition of a Connector that is there succeeds when nothing fails, and the
Connector that is read then is the same but for its status: its last condition says what was
recorded.  Its observed generation is the one of its metadata, and recording whatever says the same
writes nothing, if and only if there is no generation left over. -/
theorem settles_unless_leftover (hw : w.faults = []) (hs : w.cluster.Canonical)
    (hc : w.cluster.Holds .connector ns c.name Connector.decode c) (cond : Condition) :
    (∃ written, (recording ns c cond w).result = .ok written) ∧
      ∃ c', (reading ns c.name (recording ns c cond w).state).result = .ok (some c') ∧
        c'.metadata = c.metadata ∧ c'.spec = c.spec ∧
        (∃ last, c'.presentStatus.conditions.getLast? = some last ∧
          last.sameObservation cond = true) ∧
        (c'.presentStatus.observedGeneration = c'.metadata.generation ↔
          ¬c.LeftoverGeneration w.cluster ns) ∧
        ∀ again, cond.sameObservation again = true →
          (Skips ns c' again (reading ns c.name (recording ns c cond w).state).state ↔
            ¬c.LeftoverGeneration w.cluster ns) := by
  obtain ⟨_, hend, hwithin⟩ :=
    Program.Ensures.run (ensures_record_read hs hc cond) (World.within_of_noFaults hw)
  change Ends _ _ (recording ns c cond w).result (recording ns c cond w).state.cluster at hend
  cases hresult : (recording ns c cond w).result with
  | error e =>
    rw [hresult] at hend
    exact hend.elim
  | ok written =>
    rw [hresult] at hend
    obtain ⟨x, hx, hobserves⟩ := hend
    obtain ⟨hread, -, -⟩ := run_read_of_spares ⟨not_false, not_false⟩ hwithin hx
    refine ⟨⟨written, rfl⟩, { c with status := x }, hread, rfl, rfl, hobserves.last,
      hobserves.generation, fun again hsame => ?_⟩
    rw [skips_iff]
    exact hobserves.statusAfter_iff hsame

def upSince (time : String) : Condition := ⟨time, .created, .true, some .deploymentCreated, none⟩

/-- a Connector of which a condition and the fifth generation were observed -/
def upPortal (generation : Option Int64) : Json := .object [
  ("metadata", .objectOfSet [("generation", generation.map fun n => .int n.toInt),
    ("name", some (.str "portal")), ("namespace", some (.str "apps"))]),
  ("spec", .object [("image", .str "portal:1")]),
  ("status", Status.toJson ⟨[upSince "t0"], some 5⟩)]

def upWorld (generation : Option Int64) : World :=
  ⟨Cluster.empty.set ⟨.connector, "apps", "portal"⟩ (upPortal generation), [], []⟩

theorem canonical_upWorld (generation : Option Int64) : (upWorld generation).cluster.Canonical := by
  refine Cluster.kept_empty.canonical.set (Json.canonical_object ?_)
  have hmeta : (Json.objectOfSet [("generation", generation.map fun n => .int n.toInt),
      ("name", some (.str "portal")), ("namespace", some (.str "apps"))]).Clean := by
    refine Json.clean_objectOfSet ?_
    simp only [List.forall_mem_cons]
    exact ⟨Json.clean_of_map (fun _ => Json.clean_int _) _, Json.clean_of_some (Json.clean_str _),
      Json.clean_of_some (Json.clean_str _), List.forall_mem_nil _⟩
  have hspec : (Json.object [("image", .str "portal:1")]).Clean :=
    Json.clean_object (List.forall_mem_singleton.2 (Json.clean_str _))
  simp only [List.forall_mem_cons]
  exact ⟨hmeta.canonical, hspec.canonical, Status.canonical_toJson, List.forall_mem_nil _⟩

/-- a new generation is observed without a new condition, once -/
theorem settles_unless_leftover_up : ∃ c,
    (upWorld (some 6)).cluster.Holds .connector "apps" c.name Connector.decode c ∧
      c.presentStatus.observedGeneration = some 5 ∧
      (∃ written, (recording "apps" c (upSince "t1") (upWorld (some 6))).result = .ok written) ∧
      ∃ c', (reading "apps" c.name
          (recording "apps" c (upSince "t1") (upWorld (some 6))).state).result = .ok (some c') ∧
        c'.presentStatus.observedGeneration = some 6 ∧
        Skips "apps" c' (upSince "t2") (reading "apps" c.name
          (recording "apps" c (upSince "t1") (upWorld (some 6))).state).state := by
  have hread : ∃ c, (getAs .connector "apps" "portal" Connector.decode).run.value
      (upWorld (some 6)).cluster = .ok (some c) ∧ c.name = "portal" ∧
        c.metadata.generation = some 6 ∧ c.presentStatus.observedGeneration = some 5 :=
    ⟨_, rfl, rfl, rfl, rfl⟩
  obtain ⟨c, hc, hname, hgeneration, hobserved⟩ := hread
  have hc := value_getAs.1 hc
  rw [← hname] at hc
  have hleft : ¬c.LeftoverGeneration (upWorld (some 6)).cluster "apps" := by
    rintro ⟨hnone, -⟩
    rw [hgeneration] at hnone
    cases hnone
  obtain ⟨hwritten, c', hc', hmeta, -, -, hsettled, hskips⟩ :=
    settles_unless_leftover rfl (canonical_upWorld _) hc (upSince "t1")
  refine ⟨c, hc, hobserved, hwritten, c', hc', ?_, (hskips (upSince "t2") rfl).2 hleft⟩
  rw [hsettled.2 hleft, hmeta, hgeneration]

/-- the generation of a Connector that has none any more stays observed, and what was recorded is
recorded again -/
theorem not_settled_leftover : ∃ c c',
    (reading "apps" "portal" (upWorld none)).result = .ok (some c) ∧
      (recording "apps" c (upSince "t1") (upWorld none)).result = .ok true ∧
      (reading "apps" "portal" (recording "apps" c (upSince "t1") (upWorld none)).state).result =
        .ok (some c') ∧
      c'.metadata.generation = none ∧ c'.presentStatus.observedGeneration = some 5 ∧
      (recording "apps" c' (upSince "t1") (reading "apps" "portal"
        (recording "apps" c (upSince "t1") (upWorld none)).state).state).result = .ok true :=
  ⟨_, _, rfl, rfl, rfl, rfl, rfl, rfl⟩

end Pass
end ConnectorControl
