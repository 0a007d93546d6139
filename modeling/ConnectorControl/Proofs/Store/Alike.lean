import ConnectorControl.Proofs.Store.Related

/-!
# Programs that do the same beside their Connectors

Two programs are alike (`Program.Alike f`) when they make the same calls after the same replies and
ask nothing about Connectors but to record conditions, where what is recorded need to agree only
once `f` is applied to it.  Two worlds are beside each other (`World.Beside f`) when they differ in
their Connectors at most, and not in which of them are there.

Alike programs on worlds beside each other end alike, with the same writes but for what `f` drops,
and leave worlds that are beside each other again (`Program.Alike.run`).  This holds under any
faults, as they take the same calls on both sides.
-/

namespace ConnectorControl

variable {α β γ δ ε ε' : Type}

/-! ## stores that differ in their Connectors -/

/-- the same objects, but for what the Connectors among them are -/
structure Cluster.Beside (s t : Cluster) : Prop where
  created : s.created = t.created
  others : ∀ k, k.kind ≠ .connector → s.find? k = t.find? k
  there : ∀ k, (s.find? k).isSome = (t.find? k).isSome

def SameBesideConnectors (kind : Kind) (v w : Json) : Prop := kind ≠ .connector → v = w

theorem settles_besideConnectors {kind : Kind} (h : kind ≠ .connector) :
    Settles SameBesideConnectors kind := fun _ _ => ⟨fun hvw => hvw h, fun hvw _ => hvw⟩

namespace Cluster.Beside

variable {s t : Cluster} {k : ObjectKey} {v w : Json} {c : Call}

theorem related (h : s.Beside t) : s.Related SameBesideConnectors t := by
  refine ⟨h.created, fun k => ?_⟩
  by_cases hk : k.kind = .connector
  · have hthere := h.there k
    cases hs : s.find? k with
    | none =>
      cases ht : t.find? k with
      | none => exact .none
      | some w =>
        rw [hs, ht] at hthere
        cases hthere
    | some v =>
      cases ht : t.find? k with
      | none =>
        rw [hs, ht] at hthere
        cases hthere
      | some w => exact .some fun hne => absurd hk hne
  · rw [h.others k hk]
    cases t.find? k with
    | none => exact .none
    | some v => exact .some fun _ => rfl

theorem of_related (h : s.Related SameBesideConnectors t) : s.Beside t :=
  ⟨h.created, fun _ hk => h.find?_eq (settles_besideConnectors hk), h.isSome_eq⟩

/-- the same is kept under a key, or two values under the key of a Connector -/
theorem set (h : s.Beside t) (hv : k.kind ≠ .connector → v = w) :
    (s.set k v).Beside (t.set k w) := of_related (h.related.set hv)

theorem write?_eq (h : s.Beside t) (c : Call) : write? c s = write? c t := h.related.write?_eq c

/-- stores beside each other reply alike to what does not concern Connectors -/
theorem answer (h : s.Beside t) (hc : c.kind ≠ .connector) :
    (answer c s).1 = (answer c t).1 ∧ (answer c s).2.Beside (answer c t).2 := by
  obtain ⟨hreply, hrelated⟩ := h.related.answer (settles_besideConnectors hc)
  exact ⟨hreply, of_related hrelated⟩

/-- whether a status is patched does not depend on what the status is -/
theorem answer_patchStatus (h : s.Beside t) (ns name : String) (body body' : Json) :
    (Cluster.answer (.patchStatus .connector ns name body) s).1 =
        (Cluster.answer (.patchStatus .connector ns name body') t).1 ∧
      (Cluster.answer (.patchStatus .connector ns name body) s).2.Beside
        (Cluster.answer (.patchStatus .connector ns name body') t).2 := by
  have hvalues := h.related.values ⟨.connector, ns, name⟩
  simp only [Cluster.answer, patchObject]
  generalize s.find? ⟨.connector, ns, name⟩ = x at hvalues
  generalize t.find? ⟨.connector, ns, name⟩ = y at hvalues
  cases hvalues with
  | none => exact ⟨rfl, h⟩
  | some _ => exact ⟨rfl, h.set fun hk => absurd rfl hk⟩

end Cluster.Beside

/-! ## worlds -/

def Write.mapStatus (f : Json → Json) (x : Write) : Write :=
  if x.verb = .patchStatus then { x with body := f x.body } else x

theorem Write.mapStatus_id : mapStatus id = id := by
  funext x
  unfold mapStatus
  split <;> rfl

/-- two worlds with the same faults and, once `f` is applied to what is recorded, the same writes,
whose stores differ in their Connectors at most -/
structure World.Beside (f : Json → Json) (v w : World) : Prop where
  cluster : v.cluster.Beside w.cluster
  faults : v.faults = w.faults
  written : v.written.map (Write.mapStatus f) = w.written.map (Write.mapStatus f)

theorem World.beside_refl {f : Json → Json} (w : World) : w.Beside f w :=
  ⟨⟨rfl, fun _ _ => rfl, fun _ => rfl⟩, rfl, rfl⟩

namespace World.Beside

variable {f : Json → Json} {v w : World} {c : Call}

theorem writes (h : v.Beside f w) :
    v.writes.map (Write.mapStatus f) = w.writes.map (Write.mapStatus f) := by
  unfold World.writes
  rw [List.map_reverse, List.map_reverse, h.written]

theorem write (h : v.Beside f w) {s t : Cluster} (hs : s.Beside t) {x y : Option Write}
    (hx : x.map (Write.mapStatus f) = y.map (Write.mapStatus f)) (faults : List Fault) :
    World.Beside f ⟨s, faults, x.toList ++ v.written⟩ ⟨t, faults, y.toList ++ w.written⟩ := by
  refine ⟨hs, rfl, ?_⟩
  show (x.toList ++ v.written).map _ = (y.toList ++ w.written).map _
  rw [List.map_append, List.map_append, h.written]
  congr 1
  cases x with
  | none =>
    cases y with
    | none => rfl
    | some y => cases hx
  | some x =>
    cases y with
    | none => cases hx
    | some y => exact congrArg (fun z => [z]) (Option.some.inj hx)

theorem withFaults (h : v.Beside f w) (faults : List Fault) :
    World.Beside f { v with faults } { w with faults } :=
  ⟨h.cluster, rfl, h.written⟩

/-- worlds beside each other answer alike to what does not concern Connectors -/
theorem answer (h : v.Beside f w) (hc : c.kind ≠ .connector) :
    (answer c v).1 = (answer c w).1 ∧ (answer c v).2.Beside f (answer c w).2 := by
  refine World.answer_both (Q := fun r r' => r.1 = r'.1 ∧ r.2.Beside f r'.2) h.faults
    (fun faults => ?_) (fun _ faults => ⟨rfl, h.withFaults faults⟩)
    fun _ faults _ => ⟨rfl, h.withFaults faults⟩
  obtain ⟨hreply, hcluster⟩ := h.cluster.answer hc
  have hwrite := congrArg (Option.map (Write.mapStatus f)) (h.cluster.write?_eq c)
  exact ⟨hreply, h.write hcluster hwrite faults⟩

theorem take_congr (c c' : Call) (hv : c.verb = c'.verb) (hk : c.kind = c'.kind)
    (hn : c.name = c'.name) (fs : List Fault) : Fault.take c fs = Fault.take c' fs := by
  induction fs with
  | nil => rfl
  | cons f fs ih =>
    have hconcerns : f.concerns c = f.concerns c' := by
      unfold Fault.concerns
      rw [hv, hk, hn]
    unfold Fault.take
    rw [hconcerns, ih]

/-- a condition is recorded on both sides or on none, and with the same failure -/
theorem answer_patchStatus (h : v.Beside f w) (ns name : String) {body body' : Json}
    (hbody : f body = f body') :
    (World.answer (.patchStatus .connector ns name body) v).1 =
        (World.answer (.patchStatus .connector ns name body') w).1 ∧
      (World.answer (.patchStatus .connector ns name body) v).2.Beside f
        (World.answer (.patchStatus .connector ns name body') w).2 := by
  have hpass : ∀ faults,
      (passOn (.patchStatus .connector ns name body) { v with faults }).1 =
          (passOn (.patchStatus .connector ns name body') { w with faults }).1 ∧
        (passOn (.patchStatus .connector ns name body) { v with faults }).2.Beside f
          (passOn (.patchStatus .connector ns name body') { w with faults }).2 := by
    intro faults
    obtain ⟨hreply, hcluster⟩ := h.cluster.answer_patchStatus ns name body body'
    refine ⟨hreply, h.write hcluster ?_ faults⟩
    rw [h.cluster.write?_eq]
    show (if w.cluster.objects.contains ⟨.connector, ns, name⟩ = true then some _ else none).map _ =
      (if w.cluster.objects.contains ⟨.connector, ns, name⟩ = true then some _ else none).map _
    split
    · exact congrArg (fun b => some (Write.mk .patchStatus .connector ns name b)) hbody
    · rfl
  have htake : Fault.take (.patchStatus .connector ns name body) w.faults =
      Fault.take (.patchStatus .connector ns name body') w.faults :=
    take_congr (.patchStatus .connector ns name body) (.patchStatus .connector ns name body')
      rfl rfl rfl _
  unfold World.answer
  rw [h.faults, htake]
  rcases Fault.take (.patchStatus .connector ns name body') w.faults with ⟨_ | fault, faults⟩
  · exact hpass faults
  · dsimp only [Fault.hidden]
    cases fault.failure with
    | some e => exact ⟨rfl, h.withFaults faults⟩
    | none => exact hpass faults

end World.Beside

/-! ## Secrets that lack keys -/

def Event.rejected? : Event → Option String
  | .call _ _ => none
  | .secretRejected t => some t

namespace Program

def Run.rejected {σ : Type} (r : Run σ α) : List String := r.events.filterMap Event.rejected?

theorem rejected_ask {σ : Type} {h : Handler σ} {c : Call} {next : c.Reply → Program α} {x : σ} :
    ((ask c next).run h x).rejected = ((next (h c x).1).run h (h c x).2).rejected := rfl

theorem rejected_rejectSecret {σ : Type} {h : Handler σ} {t : String} {next : Program α} {x : σ} :
    ((rejectSecret t next).run h x).rejected = t :: (next.run h x).rejected := rfl

theorem rejected_bind {σ : Type} {h : Handler σ} {p : Program α} {k : α → Program β} {x : σ} :
    ((p.bind k).run h x).rejected = (p.run h x).rejected ++
      ((k (p.run h x).result).run h (p.run h x).state).rejected := by
  unfold Run.rejected
  rw [run_bind, List.filterMap_append]

end Program

/-! ## programs -/

namespace Program

/-- The programs make the same calls, none of them about a Connector but to record conditions,
which agree once `f` is applied; and they end with values that `Q` relates. -/
inductive Alike (f : Json → Json) (Q : α → β → Prop) : Program α → Program β → Prop
  | done {a : α} {b : β} (h : Q a b) : Alike f Q (.done a) (.done b)
  | ask {c : Call} {next : c.Reply → Program α} {next' : c.Reply → Program β}
    (hc : c.kind ≠ .connector) (h : ∀ r, Alike f Q (next r) (next' r)) :
    Alike f Q (.ask c next) (.ask c next')
  | record {ns name : String} {body body' : Json}
    {next : (Call.patchStatus .connector ns name body).Reply → Program α}
    {next' : (Call.patchStatus .connector ns name body').Reply → Program β}
    (hbody : f body = f body')
    (h : ∀ r : Except Failure Unit, Alike f Q (next r) (next' r)) :
    Alike f Q (.ask (.patchStatus .connector ns name body) next)
      (.ask (.patchStatus .connector ns name body') next')
  | rejectSecret {t : String} {next : Program α} {next' : Program β} (h : Alike f Q next next') :
    Alike f Q (.rejectSecret t next) (.rejectSecret t next')

variable {f : Json → Json} {Q : α → β → Prop} {R : γ → δ → Prop} {p : Program α} {q : Program β}

theorem alike_bind {k : α → Program γ} {l : β → Program δ} (h : Alike f Q p q)
    (hk : ∀ a b, Q a b → Alike f R (k a) (l b)) : Alike f R (p.bind k) (q.bind l) := by
  induction h with
  | done h => exact hk _ _ h
  | ask hc _ ih => exact .ask hc ih
  | record hbody _ ih => exact .record hbody ih
  | rejectSecret _ ih => exact .rejectSecret ih

/-- a program is alike with itself as long as it asks nothing about Connectors -/
theorem Asks.alike {p : Program α} (h : p.Asks (·.kind ≠ .connector)) : Alike f Eq p p := by
  induction p with
  | done a => exact .done rfl
  | ask c next ih => exact .ask h.1 fun r => ih r (h.2 r)
  | rejectSecret t next ih => exact .rejectSecret (ih h)

/-- a program that is alike with another one is alike with itself, whatever is dropped -/
theorem Alike.refl {g : Json → Json} (h : Alike f Q p q) : Alike g Eq p p := by
  induction h with
  | done h => exact .done rfl
  | ask hc _ ih => exact .ask hc ih
  | record hbody _ ih => exact .record rfl ih
  | rejectSecret _ ih => exact .rejectSecret ih

/-- alike programs do the same in worlds beside each other, and find the same Secrets lacking -/
theorem Alike.run_rejected (h : Alike f Q p q) {v w : World} (hw : v.Beside f w) :
    Q (p.run World.answer v).result (q.run World.answer w).result ∧
      (p.run World.answer v).state.Beside f (q.run World.answer w).state ∧
        (p.run World.answer v).rejected = (q.run World.answer w).rejected := by
  induction h generalizing v w with
  | done h => exact ⟨h, hw, rfl⟩
  | @ask c next next' hc _ ih =>
    obtain ⟨hreply, hw'⟩ := hw.answer hc
    have hrest := ih (World.answer c v).1 hw'
    rw [rejected_ask, rejected_ask]
    simp only [Program.run]
    rw [hreply] at hrest ⊢
    exact hrest
  | @record ns name body body' next next' hbody _ ih =>
    obtain ⟨hreply, hw'⟩ := hw.answer_patchStatus ns name hbody
    have hrest := ih (World.answer (.patchStatus .connector ns name body) v).1 hw'
    rw [rejected_ask, rejected_ask]
    simp only [Program.run]
    rw [← hreply]
    exact hrest
  | rejectSecret _ ih =>
    obtain ⟨hresult, hstate, hrejected⟩ := ih hw
    refine ⟨hresult, hstate, ?_⟩
    rw [rejected_rejectSecret, rejected_rejectSecret, hrejected]

theorem run_bind_of_alike {p : Program α} {k : α → Program γ} {l : α → Program δ}
    (h : ∀ a, Alike f R (k a) (l a)) (w : World) :
    R ((p.bind k).run World.answer w).result ((p.bind l).run World.answer w).result ∧
      ((p.bind k).run World.answer w).state.Beside f ((p.bind l).run World.answer w).state ∧
        ((p.bind k).run World.answer w).rejected = ((p.bind l).run World.answer w).rejected := by
  obtain ⟨hresult, hstate, hrejected⟩ := (h (p.run World.answer w).result).run_rejected
    (World.beside_refl (p.run World.answer w).state)
  rw [rejected_bind, rejected_bind, run_bind, run_bind, hrejected]
  exact ⟨hresult, hstate, rfl⟩

theorem Alike.run (h : Alike f Q p q) {v w : World} (hw : v.Beside f w) :
    Q (p.run World.answer v).result (q.run World.answer w).result ∧
      (p.run World.answer v).state.Beside f (q.run World.answer w).state :=
  ⟨(h.run_rejected hw).1, (h.run_rejected hw).2.1⟩

end Program

/-! ## programs that may fail -/

namespace Pass

/-- two ends that are both values, which `Q` relates, or the same failure -/
inductive EndsAlike (Q : α → β → Prop) : Except ε α → Except ε β → Prop
  | ok {a : α} {b : β} (h : Q a b) : EndsAlike Q (.ok a) (.ok b)
  | error (e : ε) : EndsAlike Q (.error e) (.error e)

/-- the programs make the same calls and end with related values or with the same failure -/
def Alike (f : Json → Json) (Q : α → β → Prop) (p : ExceptT ε Program α)
    (q : ExceptT ε Program β) : Prop :=
  Program.Alike f (EndsAlike Q) p.run q.run

variable {f : Json → Json} {Q : α → β → Prop} {R : γ → δ → Prop} {p : ExceptT ε Program α}
  {q : ExceptT ε Program β}

theorem EndsAlike.eq {r r' : Except ε α} (h : EndsAlike Eq r r') : r = r' := by
  cases h with
  | ok h => rw [h]
  | error e => rfl

theorem endsAlike_of_forall {Q : α → α → Prop} (hQ : ∀ a, Q a a) (r : Except ε α) :
    EndsAlike Q r r := by
  cases r with
  | ok a => exact .ok (hQ a)
  | error e => exact .error e

theorem endsAlike_refl (r : Except ε α) : EndsAlike Eq r r := endsAlike_of_forall (fun _ => rfl) r

theorem EndsAlike.bind {x : Except ε α} {y : Except ε β} {k : α → Except ε γ} {l : β → Except ε δ}
    (h : EndsAlike Q x y) (hk : ∀ a b, Q a b → EndsAlike R (k a) (l b)) :
    EndsAlike R (x >>= k) (y >>= l) := by
  cases h with
  | ok hab => exact hk _ _ hab
  | error e => exact .error e

theorem alike_pure {a : α} {b : β} (h : Q a b) :
    Alike f Q (pure a : ExceptT ε Program α) (pure b) := .done (.ok h)

theorem alike_throw {e : ε} :
    Alike f Q (throw e : ExceptT ε Program α) (throw e : ExceptT ε Program β) := .done (.error e)

theorem alike_ofExcept {r : Except Failure α} : Alike f Eq (ofExcept r) (ofExcept r) :=
  .done (endsAlike_refl r)

theorem alike_bind {k : α → ExceptT ε Program γ} {l : β → ExceptT ε Program δ}
    (h : Alike f Q p q) (hk : ∀ a b, Q a b → Alike f R (k a) (l b)) :
    Alike f R (p >>= k) (q >>= l) := by
  refine Program.alike_bind h fun r r' hr => ?_
  cases hr with
  | ok hab => exact hk _ _ hab
  | error e => exact .done (.error e)

theorem alike_adapt {g : ε → ε'} (h : Alike f Q p q) : Alike f Q (p.adapt g) (q.adapt g) := by
  refine Program.alike_bind h fun r r' hr => ?_
  cases hr with
  | ok hab => exact .done (.ok hab)
  | error e => exact .done (.error (g e))

theorem alike_always {p : Program α} {q : Program β} (h : Program.Alike f Q p q) :
    Alike f Q (always p) (always q) := Program.alike_bind h fun _ _ hab => .done (.ok hab)

theorem alike_of_eq {p : ExceptT ε Program α} (h : Program.Alike f Eq p.run p.run) :
    Alike f Eq p p := by
  have hrefl : Program.Alike f (EndsAlike Eq) (p.run.bind .done) (p.run.bind .done) := by
    refine Program.alike_bind h fun r r' hr => ?_
    subst hr
    exact .done (endsAlike_refl r)
  rwa [Program.bind_done] at hrefl

theorem Asks.alike {p : ExceptT ε Program α} (h : Asks (·.kind ≠ .connector) p) :
    Alike f Eq p p := alike_of_eq (Program.Asks.alike h)

/-- a program that is alike with another one is alike with itself, whatever is dropped -/
theorem Alike.refl {g : Json → Json} (h : Alike f Q p q) : Alike g Eq p p :=
  alike_of_eq (Program.Alike.refl h)

end Pass
end ConnectorControl
