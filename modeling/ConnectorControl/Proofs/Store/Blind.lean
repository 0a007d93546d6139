import ConnectorControl.Proofs.Store.Values

/-!
# Programs that values do not reach

A program is blind (`Program.Blind`) when it does nothing with Secrets and ConfigMaps but fetch
them, and goes on from what it fetches in a way that does not depend on the values in there: from
two Secrets with the same keys it goes on as one and the same program.

In two worlds that are the same but for such values (`World.SameButValues`) a blind program ends
alike, with the same writes, and leaves worlds that are the same but for values (`Blind.run`).
-/

namespace ConnectorControl

open Pass

variable {α β ε ε' : Type}

/-! ## replies -/

/-- objects that are the same as far as a blind program looks: at the keys of Secrets, and at
nothing in ConfigMaps -/
def Kind.ReadSame : Kind → Object → Object → Prop
  | .secret => Secret.HoldSame
  | .configMap => fun _ _ => True
  | _ => Eq

theorem readSame_refl (kind : Kind) (o : Object) : kind.ReadSame o o := by
  cases kind with
  | secret => exact Secret.holdSame_refl o
  | configMap => trivial
  | _ => rfl

theorem eq_of_readSame {kind : Kind} (hk : ¬kind.HoldsValues) {o o' : Object}
    (h : kind.ReadSame o o') : o = o' := by
  cases kind with
  | secret => exact absurd (.inl rfl) hk
  | configMap => exact absurd (.inr rfl) hk
  | _ => exact h

/-- values that are the same but for what they hold are read as such -/
theorem readObject_sameButValues {kind : Kind} {v w : Json} (h : kind.SameButValues v w) :
    EndsAlike kind.ReadSame (Cluster.readObject v) (Cluster.readObject w) := by
  by_cases hk : kind.HoldsValues
  · rcases hk with rfl | rfl
    · exact readObject_secret h
    · exact readObject_configMap h
  · obtain rfl := (settles_sameButValues hk v w).1 h
    exact endsAlike_of_forall (readSame_refl kind) _

def Fetched (kind : Kind) (r r' : Except Failure (Option Object)) : Prop :=
  EndsAlike (Option.Rel kind.ReadSame) r r'

theorem fetched_refl (kind : Kind) (r : Except Failure (Option Object)) : Fetched kind r r := by
  refine endsAlike_of_forall (fun x => ?_) r
  cases x with
  | none => exact .none
  | some o => exact .some (readSame_refl kind o)

theorem eq_of_fetched {kind : Kind} (hk : ¬kind.HoldsValues)
    {r r' : Except Failure (Option Object)} (h : Fetched kind r r') : r = r' := by
  cases h with
  | error e => rfl
  | ok h =>
    cases h with
    | none => rfl
    | some h => rw [eq_of_readSame hk h]

def Call.SameReply : (c : Call) → c.Reply → c.Reply → Prop
  | .get kind _ _, r, r' => Fetched kind r r'
  | .create _ _ _, r, r' => r = r'
  | .patch _ _ _ _, r, r' => r = r'
  | .patchStatus _ _ _ _, r, r' => r = r'
  | .list _ _ _, r, r' => r = r'
  | .delete _ _ _, r, r' => r = r'

theorem sameReply_refl (c : Call) (r : c.Reply) : c.SameReply r r := by
  cases c with
  | get kind ns name => exact fetched_refl kind r
  | _ => rfl

theorem eq_of_sameReply {c : Call} (hc : ¬c.kind.HoldsValues) {r r' : c.Reply}
    (h : c.SameReply r r') : r = r' := by
  cases c with
  | get kind ns name => exact eq_of_fetched hc h
  | _ => exact h

/-! ## stores and worlds -/

/-- the same objects, but for what the Secrets and ConfigMaps among them hold -/
def Cluster.SameButValues (s t : Cluster) : Prop := s.Related Kind.SameButValues t

/-- the same worlds, but for what the Secrets and ConfigMaps in them hold -/
structure World.SameButValues (v w : World) : Prop where
  cluster : v.cluster.SameButValues w.cluster
  faults : v.faults = w.faults
  written : v.written = w.written

def Cluster.fetch : Option Json → Except Failure (Option Object)
  | none => .ok none
  | some v => some <$> readObject v

theorem Cluster.answer_get (kind : Kind) (ns name : String) (s : Cluster) :
    answer (.get kind ns name) s = (fetch (s.find? ⟨kind, ns, name⟩), s) := by
  cases hk : s.find? ⟨kind, ns, name⟩ with
  | none =>
    simp only [answer, hk]
    rfl
  | some v =>
    simp only [answer, hk]
    rfl

theorem Cluster.SameButValues.fetched {s t : Cluster} (h : s.SameButValues t) (k : ObjectKey) :
    Fetched k.kind (fetch (s.find? k)) (fetch (t.find? k)) := by
  have hvalues := h.values k
  generalize s.find? k = x at hvalues
  generalize t.find? k = y at hvalues
  cases hvalues with
  | none => exact EndsAlike.ok .none
  | @some v w hvw =>
    show Fetched k.kind (some <$> readObject v) (some <$> readObject w)
    have hread := readObject_sameButValues hvw
    generalize readObject v = x at hread
    generalize readObject w = y at hread
    cases hread with
    | ok h => exact EndsAlike.ok (.some h)
    | error e => exact EndsAlike.error e

/-- a call that fetches an object, or that does not concern Secrets and ConfigMaps -/
def Call.FetchesValues (c : Call) : Prop := c.verb = .get ∨ ¬c.kind.HoldsValues

theorem Cluster.SameButValues.answer {s t : Cluster} {c : Call} (h : s.SameButValues t)
    (hc : c.FetchesValues) : c.SameReply (answer c s).1 (answer c t).1 ∧
      (answer c s).2.SameButValues (answer c t).2 := by
  by_cases hk : c.kind.HoldsValues
  · cases c with
    | get kind ns name =>
      rw [answer_get, answer_get]
      exact ⟨h.fetched ⟨kind, ns, name⟩, h⟩
    | _ => exact absurd hk (hc.resolve_left nofun)
  · obtain ⟨hreply, hrelated⟩ := Related.answer h (settles_sameButValues hk)
    rw [hreply]
    exact ⟨sameReply_refl c _, hrelated⟩

namespace World.SameButValues

variable {v w : World} {c : Call}

theorem withFaults (h : v.SameButValues w) (faults : List Fault) :
    World.SameButValues { v with faults } { w with faults } := ⟨h.cluster, rfl, h.written⟩

theorem answer (h : v.SameButValues w) (hc : c.FetchesValues) :
    c.SameReply (answer c v).1 (answer c w).1 ∧
      (answer c v).2.SameButValues (answer c w).2 := by
  refine World.answer_both (Q := fun r r' => c.SameReply r.1 r'.1 ∧ r.2.SameButValues r'.2) h.faults
    (fun faults => ?_) (fun _ faults => ⟨sameReply_refl c _, h.withFaults faults⟩)
    fun _ faults _ => ⟨sameReply_refl c _, h.withFaults faults⟩
  obtain ⟨hreply, hcluster⟩ := h.cluster.answer hc
  refine ⟨hreply, hcluster, rfl, ?_⟩
  show (Cluster.write? c v.cluster).toList ++ v.written =
    (Cluster.write? c w.cluster).toList ++ w.written
  rw [Cluster.Related.write?_eq h.cluster, h.written]

end World.SameButValues

/-! ## programs -/

namespace Program

/-- what the program does after a reply does not depend on values in it -/
def Blind : Program α → Prop
  | done _ => True
  | ask c next => c.FetchesValues ∧ (∀ r r', c.SameReply r r' → next r = next r') ∧
      ∀ r, (next r).Blind
  | rejectSecret _ next => next.Blind

theorem blind_bind {p : Program α} {f : α → Program β} (hp : p.Blind) (hf : ∀ a, (f a).Blind) :
    (p.bind f).Blind := by
  induction p with
  | done a => exact hf a
  | ask c next ih =>
    obtain ⟨hc, hsame, hnext⟩ := hp
    exact ⟨hc, fun r r' h => congrArg (Program.bind · f) (hsame r r' h), fun r => ih r (hnext r)⟩
  | rejectSecret t next ih => exact ih hp

theorem Asks.blind {p : Program α} (h : p.Asks fun c => ¬c.kind.HoldsValues) : p.Blind := by
  induction p with
  | done a => trivial
  | ask c next ih =>
    refine ⟨.inr h.1, fun r r' hr => ?_, fun r => ih r (h.2 r)⟩
    rw [eq_of_sameReply h.1 hr]
  | rejectSecret t next ih => exact ih h

/-- A blind program does the same in worlds that are the same but for values: it ends alike, finds
the same Secrets lacking, and leaves worlds with the same writes. -/
theorem Blind.run {p : Program α} (hp : p.Blind) {v w : World} (h : v.SameButValues w) :
    (p.run World.answer v).result = (p.run World.answer w).result ∧
      (p.run World.answer v).state.SameButValues (p.run World.answer w).state ∧
        (p.run World.answer v).rejected = (p.run World.answer w).rejected := by
  induction p generalizing v w with
  | done a => exact ⟨rfl, h, rfl⟩
  | ask c next ih =>
    obtain ⟨hc, hsame, hnext⟩ := hp
    obtain ⟨hreply, hworlds⟩ := h.answer hc
    have hrest := ih (World.answer c v).1 (hnext _) hworlds
    rw [rejected_ask, rejected_ask]
    simp only [Program.run]
    rw [← hsame _ _ hreply]
    exact hrest
  | rejectSecret t next ih =>
    obtain ⟨hresult, hstate, hrejected⟩ := ih hp h
    refine ⟨hresult, hstate, ?_⟩
    rw [rejected_rejectSecret, rejected_rejectSecret, hrejected]

end Program

/-! ## programs that may fail -/

namespace Pass

/-- what the program does after a reply does not depend on values in it -/
def Blind (p : ExceptT ε Program α) : Prop := p.run.Blind

theorem blind_pure {a : α} : Blind (pure a : ExceptT ε Program α) := trivial

theorem blind_throw {e : ε} : Blind (throw e : ExceptT ε Program α) := trivial

theorem blind_ofExcept {r : Except Failure α} : Blind (ofExcept r) := trivial

theorem blind_bind {p : ExceptT ε Program α} {f : α → ExceptT ε Program β} (hp : Blind p)
    (hf : ∀ a, Blind (f a)) : Blind (p >>= f) := by
  refine Program.blind_bind hp fun r => ?_
  cases r with
  | ok a => exact hf a
  | error e => trivial

theorem blind_adapt {p : ExceptT ε Program α} {f : ε → ε'} (hp : Blind p) : Blind (p.adapt f) :=
  Program.blind_bind hp fun _ => trivial

theorem blind_always {p : Program α} (hp : p.Blind) : Blind (always p) :=
  Program.blind_bind hp fun _ => trivial

theorem Asks.blind {p : ExceptT ε Program α} (h : Asks (fun c => ¬c.kind.HoldsValues) p) :
    Blind p := Program.Asks.blind h

/-- an object may be fetched if what follows does not depend on values in it -/
theorem blind_get_bind {kind : Kind} {ns name : String} {k : Option Object → Pass β}
    (hsame : ∀ x y, Option.Rel kind.ReadSame x y → k x = k y) (hk : ∀ x, Blind (k x)) :
    Blind (get kind ns name >>= k) := by
  show Program.Blind (.ask (.get kind ns name) fun r => ExceptT.bindCont k r)
  refine ⟨.inl rfl, fun r r' h => ?_, fun r => ?_⟩
  · have h : Fetched kind r r' := h
    cases h with
    | ok hxy => exact hsame _ _ hxy
    | error e => rfl
  · cases r with
    | ok x => exact hk x
    | error e => trivial

end Pass
end ConnectorControl
