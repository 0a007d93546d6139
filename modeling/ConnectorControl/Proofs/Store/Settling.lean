import ConnectorControl.Proofs.Json.Stripped
import ConnectorControl.Proofs.Store.Fetches

/-!
# Programs that settle

A program settles (`Pass.Settles`) when another one, started on what the first has left, comes to
the same end and changes nothing.  The second may be started later: it goes by some keys only
(`F`), and whatever has been done to others does not matter to it.  The first changes some keys only
(`W`), so two programs settle one after the other if the second does not change what the first one
goes by (`Settles.bind`).
-/

namespace ConnectorControl

namespace Cluster

/-- the members of all objects are in key order -/
def Canonical (s : Cluster) : Prop := ∀ k v, s.find? k = some v → v.Canonical

variable {s : Cluster} {k : ObjectKey} {v : Json}

theorem Canonical.set (h : s.Canonical) (hv : v.Canonical) : (s.set k v).Canonical := by
  intro k' v' hv'
  rw [find?_set] at hv'
  split at hv'
  · obtain rfl := Option.some.inj hv'
    exact hv
  · exact h k' v' hv'

theorem Canonical.add (h : s.Canonical) (hv : v.Canonical) : (s.add k v).Canonical := by
  intro k' v' hv'
  rw [find?_add] at hv'
  split at hv'
  · obtain rfl := Option.some.inj hv'
    exact hv
  · exact h k' v' hv'

theorem Canonical.remove (h : s.Canonical) : (s.remove k).Canonical := by
  intro k' v' hv'
  exact h k' v' (find?_of_find?_remove hv')

/-- what is under other keys has stayed, and the members of all objects are in key order -/
structure ChangesOnly (W : ObjectKey → Prop) (s s' : Cluster) : Prop where
  same : ∀ k, ¬W k → s'.find? k = s.find? k
  canonical : s'.Canonical

variable {U W : ObjectKey → Prop} {s' s'' : Cluster}

theorem ChangesOnly.refl (h : s.Canonical) : ChangesOnly W s s := ⟨fun _ _ => rfl, h⟩

theorem ChangesOnly.mono (h : ChangesOnly U s s') (hU : ∀ k, U k → W k) : ChangesOnly W s s' :=
  ⟨fun k hk => h.same k fun hk' => hk (hU k hk'), h.canonical⟩

theorem ChangesOnly.trans (h : ChangesOnly W s s') (h' : ChangesOnly W s' s'') :
    ChangesOnly W s s'' :=
  ⟨fun k hk => (h'.same k hk).trans (h.same k hk), h'.canonical⟩

end Cluster

/-! ## the judgement -/

/-- a call on the cluster as it was found, which writes at most a merge patch of a derived object -/
structure Call.Gentle (t : Cluster) (c : Call) (s : Cluster) : Prop where
  unchanged : s = t
  patches : ∀ w, Cluster.write? c s = some w → w.verb = .patch ∧ ∃ kind : DerivedKind, w.kind = kind

theorem Call.Gentle.of_get {c : Call} {s : Cluster} (h : c.verb = .get) : c.Gentle s s := by
  refine ⟨rfl, fun w hw => ?_⟩
  cases c <;> simp_all [Call.verb, Cluster.write?]

namespace Pass

variable {α β γ δ ε ε' : Type} {F G W U V : ObjectKey → Prop} {s s' t : Cluster}

/-- whatever has been done to other keys, the program comes to its end and changes nothing -/
def Settled (F : ObjectKey → Prop) (p : ExceptT ε Program α) (r : Except ε α) (s : Cluster) :
    Prop :=
  ∀ t : Cluster, (∀ k, F k → t.find? k = s.find? k) →
    Program.Ensures .none (Call.Gentle t) p.run t fun r' t' => r' = r ∧ t' = t

/-- the first program leaves what settles the second one -/
def Settles (F W : ObjectKey → Prop) (p : ExceptT ε Program α) (p' : ExceptT ε Program β)
    (g : α → β) (s : Cluster) : Prop :=
  Program.Ensures .none (fun _ _ => True) p.run s fun r s' =>
    s.ChangesOnly W s' ∧ Settled F p' (r.map g) s'

theorem settles_of_ensures {p : ExceptT ε Program α} {p' : ExceptT ε Program β} {g : α → β}
    (h : Ensures .none (fun _ _ => True) p s
      (fun a s' => s.ChangesOnly W s' ∧ Settled F p' (.ok (g a)) s')
      fun e s' => s.ChangesOnly W s' ∧ Settled F p' (.error e) s') : Settles F W p p' g s := by
  refine Program.Ensures.mono h fun r s' hr => ?_
  cases r with
  | ok a => exact hr
  | error e => exact hr

theorem settled_of_ensures {p : ExceptT ε Program α} {a : α}
    (h : ∀ t : Cluster, (∀ k, F k → t.find? k = s.find? k) → Ensures .none (Call.Gentle t) p t
      (fun b t' => b = a ∧ t' = t) fun _ _ => False) : Settled F p (.ok a) s := by
  intro t ht
  refine Program.Ensures.mono (h t ht) fun r t' hr => ?_
  cases r with
  | ok b => exact ⟨congrArg _ hr.1, hr.2⟩
  | error e => exact hr.elim

theorem settled_error_of_ensures {p : ExceptT ε Program α} {e : ε}
    (h : ∀ t : Cluster, (∀ k, F k → t.find? k = s.find? k) → Ensures .none (Call.Gentle t) p t
      (fun _ _ => False) fun e' t' => e' = e ∧ t' = t) : Settled F p (.error e) s := by
  intro t ht
  refine Program.Ensures.mono (h t ht) fun r t' hr => ?_
  cases r with
  | ok b => exact hr.elim
  | error e => exact ⟨congrArg _ hr.1, hr.2⟩

theorem Settled.mono {p : ExceptT ε Program α} {r : Except ε α} (h : Settled G p r s)
    (hF : ∀ k, G k → F k) : Settled F p r s := fun t ht => h t fun k hk => ht k (hF k hk)

theorem Settles.mono {p : ExceptT ε Program α} {p' : ExceptT ε Program β} {g : α → β}
    (h : Settles G U p p' g s) (hF : ∀ k, G k → F k) (hW : ∀ k, U k → W k) :
    Settles F W p p' g s :=
  Program.Ensures.mono h fun _ _ hr => ⟨hr.1.mono hW, hr.2.mono hF⟩

theorem settles_pure {a : α} {b : β} {g : α → β} (hb : b = g a) (hs : s.Canonical) :
    Settles F W (pure a : ExceptT ε Program α) (pure b) g s := by
  subst hb
  exact ⟨.refl hs, fun _ _ => ⟨rfl, rfl⟩⟩

/-- two programs one after the other, of which the second does not change what the first goes by -/
theorem Settles.bind {p : ExceptT ε Program α} {p' : ExceptT ε Program β} {g : α → β}
    {f : α → ExceptT ε Program γ} {f' : β → ExceptT ε Program δ} {h : γ → δ}
    (hp : Settles G U p p' g s)
    (hf : ∀ a s', s.ChangesOnly U s' → Settles F V (f a) (f' (g a)) h s')
    (hF : ∀ k, G k → F k ∧ ¬V k) (hU : ∀ k, U k → W k) (hV : ∀ k, V k → W k) :
    Settles F W (p >>= f) (p' >>= f') h s := by
  refine Program.ensures_bind.2 (Program.Ensures.mono hp fun r s₁ hr => ?_)
  obtain ⟨hchanges, hsettled⟩ := hr
  cases r with
  | error e =>
    refine ⟨hchanges.mono hU, fun t ht => ?_⟩
    refine Program.ensures_bind.2 (Program.Ensures.mono
      (hsettled t fun k hk => ht k (hF k hk).1) fun r' t' hr' => ?_)
    obtain ⟨rfl, rfl⟩ := hr'
    exact ⟨rfl, rfl⟩
  | ok a =>
    refine Program.Ensures.mono (hf a s₁ hchanges) fun r₂ s₂ hr₂ => ?_
    obtain ⟨hchanges₂, hsettled₂⟩ := hr₂
    refine ⟨(hchanges.mono hU).trans (hchanges₂.mono hV), fun t ht => ?_⟩
    -- what the first part goes by is as it was after the first part
    have hfirst : ∀ k, G k → t.find? k = s₁.find? k := fun k hk => by
      rw [ht k (hF k hk).1, hchanges₂.same k (hF k hk).2]
    refine Program.ensures_bind.2 (Program.Ensures.mono (hsettled t hfirst) fun r' t' hr' => ?_)
    obtain ⟨rfl, rfl⟩ := hr'
    exact hsettled₂ t' ht

theorem Settles.adapt {p : ExceptT ε Program α} {p' : ExceptT ε Program β} {g : α → β}
    (h : Settles F W p p' g s) (f : ε → ε') : Settles F W (p.adapt f) (p'.adapt f) g s := by
  refine Program.ensures_bind.2 (Program.Ensures.mono h fun r s₁ hr => ⟨hr.1, fun t ht => ?_⟩)
  refine Program.ensures_bind.2 (Program.Ensures.mono (hr.2 t ht) fun r' t' hr' => ?_)
  obtain ⟨rfl, rfl⟩ := hr'
  refine ⟨?_, rfl⟩
  cases r <;> rfl

/-- A program that only fetches comes to the same again, and so does what follows. -/
theorem settles_fetch_bind {p : ExceptT ε Program α} {f : α → ExceptT ε Program γ}
    {f' : α → ExceptT ε Program δ} {h : γ → δ} (hp : Fetches G p) (hs : s.Canonical)
    (hf : ∀ a, p.run.value s = .ok a → Settles F W (f a) (f' a) h s)
    (hF : ∀ k, G k → F k ∧ ¬W k) : Settles F W (p >>= f) (p >>= f') h s := by
  have hrun : ∀ {P : Call → Cluster → Prop} (t : Cluster), (∀ c, c.verb = .get → P c t) →
      Program.Ensures .none P p.run t fun r t' => t' = t ∧ r = p.run.value t := fun t hP =>
    Program.Fetches.ensures hp (fun _ _ => ⟨not_false, not_false⟩) fun _ _ => hP _ rfl
  refine Program.ensures_bind.2 (Program.Ensures.mono (hrun s fun _ _ => trivial)
    fun r s₁ hr => ?_)
  obtain ⟨rfl, rfl⟩ := hr
  -- the second time the same is fetched
  have hagain : ∀ t : Cluster, (∀ k, G k → t.find? k = s₁.find? k) →
      Program.Ensures .none (Call.Gentle t) p.run t fun r t' => t' = t ∧ r = p.run.value s₁ := by
    intro t ht
    have hvalue : p.run.value t = p.run.value s₁ := Program.Fetches.congr hp ht
    rw [← hvalue]
    exact hrun t fun c hc => Call.Gentle.of_get hc
  cases hr : p.run.value s₁ with
  | error e =>
    refine ⟨.refl hs, fun t ht => Program.ensures_bind.2 ?_⟩
    refine Program.Ensures.mono (hagain t fun k hk => ht k (hF k hk).1) fun r' t' hr' => ?_
    obtain ⟨rfl, rfl⟩ := hr'
    rw [hr]
    exact ⟨rfl, rfl⟩
  | ok a =>
    refine Program.Ensures.mono (hf a hr) fun r₂ s₂ hr₂ => ⟨hr₂.1, fun t ht => ?_⟩
    have hfirst : ∀ k, G k → t.find? k = s₁.find? k := fun k hk => by
      rw [ht k (hF k hk).1, hr₂.1.same k (hF k hk).2]
    refine Program.ensures_bind.2 (Program.Ensures.mono (hagain t hfirst) fun r' t' hr' => ?_)
    obtain ⟨rfl, rfl⟩ := hr'
    rw [hr]
    exact hr₂.2 t' ht

end Pass
end ConnectorControl
