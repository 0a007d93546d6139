import ConnectorControl.Proofs.Store.Asks

/-!
# Runs that a fault cuts short

Faults on creates and patches that answer with a failure of the server (`Fault.Cuts`) leave the
store alone when they act.  So a run under such faults is the run without faults up to the first
call that a fault takes.

A program gives up (`Program.GivesUp`) when after such a failure it does nothing but record
conditions.  Its run is the whole run without faults, or it is that run cut short
(`GivesUp.run`): the same calls up to one that a fault takes, and then records only.
-/

namespace ConnectorControl

variable {α β : Type}

def Failure.IsOutage : Failure → Prop
  | .api e => 500 ≤ e.code
  | _ => False

theorem Failure.IsOutage.isRetryable {e : Failure} (h : e.IsOutage) : e.isRetryable = true := by
  cases e with
  | api e =>
    have hcode : 500 ≤ e.code := h
    have hpermanent : e.isPermanent = false := by
      unfold ApiError.isPermanent
      have hno : ¬e.code < 500 := by omega
      simp [hno]
    show (!e.isPermanent) = true
    rw [hpermanent]
    rfl
  | _ => exact h.elim

def Call.Upserting (c : Call) : Prop := c.verb = .create ∨ c.verb = .patch

structure Fault.Cuts (f : Fault) : Prop where
  verb : f.verb = .create ∨ f.verb = .patch
  failure : ∃ e, f.failure = some e ∧ e.IsOutage

theorem Fault.Cuts.of_same {f g : Fault} (hg : f.Same g) (h : f.Cuts) : g.Cuts := by
  refine ⟨?_, ?_⟩
  · rw [hg.verb]
    exact h.verb
  · rw [hg.failure]
    exact h.failure

namespace World

def calm (w : World) : World := { w with faults := [] }

def failure? (c : Call) (w : World) : Option Failure :=
  (Fault.take c w.faults).1.bind (·.failure)

def CutsOnly (w : World) : Prop := ∀ f ∈ w.faults, f.Cuts

variable {w : World} {c : Call}

theorem answer_calm (c : Call) (w : World) : answer c w.calm = passOn c w.calm := rfl

theorem calm_passOn (c : Call) (faults : List Fault) (w : World) :
    passOn c w.calm = ((passOn c { w with faults }).1, (passOn c { w with faults }).2.calm) := rfl

/-- A call that no fault takes is answered as without faults.  One that a fault takes fails, and
nothing else happens. -/
theorem answer_of_cuts (hw : w.CutsOnly) (c : Call) : (answer c w).2.CutsOnly ∧
    ((failure? c w = none ∧ answer c w.calm = ((answer c w).1, (answer c w).2.calm)) ∨
      ∃ e, failure? c w = some e ∧ c.Upserting ∧ e.IsOutage ∧ (answer c w).1 = .error e ∧
        (answer c w).2.cluster = w.cluster ∧ (answer c w).2.written = w.written) := by
  obtain ⟨hrest, htaken⟩ := Fault.take_forall (fun _ _ => Fault.Cuts.of_same) c hw
  unfold failure?
  rw [answer_calm]
  unfold answer
  rcases ht : Fault.take c w.faults with ⟨_ | f, faults⟩
  · rw [ht] at hrest
    exact ⟨hrest, .inl ⟨rfl, calm_passOn c faults w⟩⟩
  · rw [ht] at hrest htaken
    obtain ⟨hcuts, hconcerns⟩ := htaken f rfl
    obtain ⟨e, he, houtage⟩ := hcuts.failure
    have hverb : f.verb = c.verb := by
      unfold Fault.concerns at hconcerns
      simp only [Bool.and_eq_true, decide_eq_true_eq] at hconcerns
      exact hconcerns.1.1
    have hupserting : c.Upserting := by
      unfold Call.Upserting
      rw [← hverb]
      exact hcuts.verb
    dsimp only [Option.bind]
    rw [he]
    exact ⟨hrest, .inr ⟨e, rfl, hupserting, houtage, rfl, rfl, rfl⟩⟩

end World

namespace Program

/-! ## programs that give up -/

/-- nothing is done from here on but to record conditions, and the end is as `Q` says -/
def OnlyRecords (Q : α → Prop) (p : Program α) : Prop :=
  ∀ s, Ensures .any (fun c _ => c.verb = .patchStatus) p s fun a _ => Q a

/-- After a create or a patch that failed, the program does nothing but record conditions, and comes
to an end that tells of the failure, as `T` says. -/
def GivesUp (T : Failure → α → Prop) : Program α → Prop
  | done _ => True
  | ask c next =>
    (c.Upserting → ∀ e, e.IsOutage → (next (.error e)).OnlyRecords (T e)) ∧
      ∀ r, (next r).GivesUp T
  | rejectSecret _ next => next.GivesUp T

variable {T : Failure → α → Prop} {U : Failure → β → Prop} {p : Program α}

theorem givesUp_bind {f : α → Program β} (hp : p.GivesUp T) (hf : ∀ a, (f a).GivesUp U)
    (hT : ∀ e a, T e a → (f a).OnlyRecords (U e)) : (p.bind f).GivesUp U := by
  induction p with
  | done a => exact hf a
  | ask c next ih =>
    refine ⟨fun hc e he s => ?_, fun r => ih r (hp.2 r)⟩
    show Ensures .any _ ((next (.error e)).bind f) s _
    rw [ensures_bind]
    exact (hp.1 hc e he s).mono fun a s' ha => hT e a ha s'
  | rejectSecret t next ih => exact ih hp

theorem GivesUp.mono {T' : Failure → α → Prop} (hp : p.GivesUp T) (hT : ∀ e a, T e a → T' e a) :
    p.GivesUp T' := by
  induction p with
  | done a => trivial
  | ask c next ih =>
    exact ⟨fun hc e he s => (hp.1 hc e he s).mono fun a _ ha => hT e a ha, fun r => ih r (hp.2 r)⟩
  | rejectSecret t next ih => exact ih hp

/-- a program that creates and patches nothing has nothing to give up -/
theorem Asks.givesUp (h : p.Asks fun c => ¬c.Upserting) : p.GivesUp T := by
  induction p with
  | done a => trivial
  | ask c next ih => exact ⟨fun hc => absurd hc h.1, fun r => ih r (h.2 r)⟩
  | rejectSecret t next ih => exact ih h

/-! ## runs -/

/-- The run of a program is the one without faults, cut short: it makes the same calls up to one
that a fault takes, after which it only records conditions and ends as `T` says. -/
structure CutShort (T : Failure → α → Prop) (p : Program α) (w : World)
    (before : List (Call × World)) (m : Call × World) (after : List (Call × World))
    (e : Failure) : Prop where
  calls : p.calls World.answer w = before ++ m :: after
  taken : World.failure? m.1 m.2 = some e
  upserting : m.1.Upserting
  outage : e.IsOutage
  result : T e (p.run World.answer w).result
  records : ∀ m' ∈ after, m'.1.verb = .patchStatus
  written : ∃ new, (p.run World.answer w).state.written = new ++ m.2.written ∧
    ∀ x ∈ new, x.verb = .patchStatus
  calmCalls : ∃ rest, p.calls World.answer w.calm =
    before.map (fun m => (m.1, m.2.calm)) ++ (m.1, m.2.calm) :: rest
  calmWritten : ∃ new, (p.run World.answer w.calm).state.written = new ++ m.2.written

/-- a call that no fault takes comes before the call that one takes -/
theorem CutShort.ask {c : Call} {next : c.Reply → Program α} {w : World}
    {before after : List (Call × World)} {m : Call × World} {e : Failure}
    (hcalm : World.answer c w.calm = ((World.answer c w).1, (World.answer c w).2.calm))
    (h : CutShort T (next (World.answer c w).1) (World.answer c w).2 before m after e) :
    CutShort T (.ask c next) w ((c, w) :: before) m after e where
  calls := congrArg ((c, w) :: ·) h.calls
  taken := h.taken
  upserting := h.upserting
  outage := h.outage
  result := h.result
  records := h.records
  written := h.written
  calmCalls := by
    obtain ⟨rest, hrest⟩ := h.calmCalls
    refine ⟨rest, ?_⟩
    show (c, w.calm) :: (next (World.answer c w.calm).1).calls World.answer
      (World.answer c w.calm).2 = _
    rw [hcalm]
    exact congrArg ((c, w.calm) :: ·) hrest
  calmWritten := by
    obtain ⟨new, hnew⟩ := h.calmWritten
    refine ⟨new, ?_⟩
    show ((next (World.answer c w.calm).1).run World.answer
      (World.answer c w.calm).2).state.written = _
    rw [hcalm]
    exact hnew

theorem CutShort.head {c : Call} {next : c.Reply → Program α} {w : World} {e : Failure}
    (hc : c.Upserting) (he : e.IsOutage) (htaken : World.failure? c w = some e)
    (hreply : (World.answer c w).1 = .error e)
    (hwritten : (World.answer c w).2.written = w.written)
    (h : (next (.error e)).OnlyRecords (T e)) :
    CutShort T (.ask c next) w [] (c, w)
      ((next (World.answer c w).1).calls World.answer (World.answer c w).2) e := by
  have hrest := (h (World.answer c w).2.cluster).run (World.within_any (World.answer c w).2)
  rw [← hreply] at hrest
  obtain ⟨hcalls, hend, _⟩ := hrest
  refine ⟨rfl, htaken, hc, he, hend, hcalls, ?_, ⟨_, rfl⟩, ?_⟩
  · obtain ⟨new, hnew, hmade⟩ :=
      written_run (next (World.answer c w).1) (World.answer c w).2
    rw [hwritten] at hnew
    refine ⟨new, hnew, fun x hx => ?_⟩
    obtain ⟨m, hm, hwrite⟩ := hmade x hx
    have hverb : m.1.verb = .patchStatus := hcalls m hm
    have hx : m.1.write = x := by
      simp only [Cluster.write?, Option.ite_none_right_eq_some, Option.some.injEq] at hwrite
      exact hwrite.2
    rw [← hx]
    exact hverb
  · obtain ⟨new, hnew, _⟩ := written_run (.ask c next) w.calm
    exact ⟨new, hnew⟩

/-- a program that gives up runs as without faults, or its run is cut short -/
theorem GivesUp.run (hp : p.GivesUp T) {w : World} (hw : w.CutsOnly) :
    ((p.run World.answer w.calm).result = (p.run World.answer w).result ∧
      (p.run World.answer w.calm).state = (p.run World.answer w).state.calm) ∨
    ∃ before m after e, CutShort T p w before m after e := by
  induction p generalizing w with
  | done a => exact .inl ⟨rfl, rfl⟩
  | ask c next ih =>
    obtain ⟨hw', hanswer⟩ := World.answer_of_cuts hw c
    rcases hanswer with ⟨_, hcalm⟩ | ⟨e, htaken, hc, he, hreply, _, hwritten⟩
    · rcases ih _ (hp.2 _) hw' with ⟨hresult, hstate⟩ | ⟨before, m, after, e, hcut⟩
      · left
        show ((next (World.answer c w.calm).1).run World.answer
            (World.answer c w.calm).2).result = _ ∧
          ((next (World.answer c w.calm).1).run World.answer (World.answer c w.calm).2).state = _
        rw [hcalm]
        exact ⟨hresult, hstate⟩
      · exact .inr ⟨_, _, _, _, hcut.ask hcalm⟩
    · exact .inr ⟨_, _, _, _, .head hc he htaken hreply hwritten (hp.1 hc e he)⟩
  | rejectSecret t next ih =>
    rcases ih hp hw with hsame | ⟨before, m, after, e, hcut⟩
    · exact .inl hsame
    · exact .inr ⟨before, m, after, e, hcut.calls, hcut.taken, hcut.upserting, hcut.outage,
        hcut.result, hcut.records, hcut.written, hcut.calmCalls, hcut.calmWritten⟩

end Program

/-! ## what is written besides conditions -/

namespace World

def objectWrites (w : World) : List Write := w.writes.filter fun x => x.verb ≠ .patchStatus

theorem objectWrites_of_written {v w : World} {new : List Write}
    (h : v.written = new ++ w.written) : v.objectWrites =
      w.objectWrites ++ new.reverse.filter fun x => x.verb ≠ .patchStatus := by
  unfold objectWrites writes
  rw [h, List.reverse_append, List.filter_append]

end World

theorem Program.CutShort.objectWrites_eq {T : Failure → α → Prop} {p : Program α} {w : World}
    {before after : List (Call × World)} {m : Call × World} {e : Failure}
    (h : CutShort T p w before m after e) :
    (p.run World.answer w).state.objectWrites = m.2.objectWrites := by
  obtain ⟨new, hnew, hrecords⟩ := h.written
  have hnone : (new.reverse.filter fun x => decide (x.verb ≠ .patchStatus)) = [] := by
    refine List.filter_eq_nil_iff.2 fun x hx => ?_
    have hverb := hrecords x (List.mem_reverse.1 hx)
    simp [hverb]
  rw [World.objectWrites_of_written hnew, hnone, List.append_nil]

/-- what the run has written besides conditions, the run without faults begins with -/
theorem Program.CutShort.isPrefix {T : Failure → α → Prop} {p : Program α} {w : World}
    {before after : List (Call × World)} {m : Call × World} {e : Failure}
    (h : CutShort T p w before m after e) : (p.run World.answer w).state.objectWrites <+:
      (p.run World.answer w.calm).state.objectWrites := by
  obtain ⟨new, hnew⟩ := h.calmWritten
  rw [h.objectWrites_eq, World.objectWrites_of_written hnew]
  exact List.prefix_append _ _

end ConnectorControl
