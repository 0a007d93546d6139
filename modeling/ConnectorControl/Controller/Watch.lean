import ConnectorControl.Api.Server
import ConnectorControl.Connector.Basic
import ConnectorControl.Controller.Queue

/-!
# Watches

The controller watches the Connectors of its scope, and the Deployments and Services there for the
Connectors that own them.  A watch lists what there is, tells of it, and asks for the changes from
then on; a change that comes before is missed.  The Connectors are cached once all of them have been
told of.

The watches that have something to do take turns, and tell of one Connector in each.  When a watch
comes to something that it cannot read, all watches pause, longer each time up to a limit; a
Connector that is told of makes the pauses short again, and so does a while without errors.  A watch
that could not list starts anew.  An object that is read but has no name breaks the watches for
good.
-/

namespace ConnectorControl

/-- what a watch reports of an object -/
inductive WatchEvent where
  | added
  | modified
  | deleted
deriving DecidableEq

inductive Watched where
  | connectors
  | deployments
  | services
deriving DecidableEq

def Watched.kind : Watched → Kind
  | .connectors => .connector
  | .deployments => .derived .deployment
  | .services => .derived .service

def Watched.ofKind? (kind : Kind) : Option Watched :=
  [Watched.connectors, .deployments, .services].find? fun w => w.kind = kind

/-! ## one watch -/

/-- How far a watch has come.  In two of the stages a request has been sent and not been
answered. -/
inductive WatchStage where
  | unlisted
  | listing (path : String)
  | telling (listed : List Connector)
  | opening
  | opened

namespace WatchStage

/-- the steps until the watch is open -/
def left : WatchStage → Nat
  | unlisted => 4
  | listing _ => 3
  | telling _ => 2
  | opening => 1
  | opened => 0

end WatchStage

structure Change where
  event : WatchEvent
  object : Json

structure Watch where
  stage : WatchStage
  /-- the Connectors that it has to tell of -/
  refs : List ConnectorRef
  /-- the changes that it has not read -/
  changes : List Change

namespace Watch

def initial : Watch := ⟨.unlisted, [], []⟩

end Watch

/-- the Connectors that own an object -/
def Object.owners (o : Object) : List ConnectorRef :=
  ((o.metadata.ownerReferences.getD []).filter fun r =>
    r.apiVersion = Kind.connector.apiVersion && r.kind = Kind.connector.name).map fun r =>
      ⟨o.metadata.ns, r.name⟩

def Connector.ref (c : Connector) : ConnectorRef := ⟨c.metadata.ns, c.name⟩

/-- why a watch does not go on from what it has come to -/
inductive WatchFault where
  | unreadable (e : DecodeError)
  | nameless

/-- reads values as objects with names; one that cannot be read goes before one without a name -/
def WatchFault.readNamed {α : Type} (decoder : Decoder α) (metadata : α → Metadata)
    (vs : List Json) : Except WatchFault (List α) :=
  match vs.mapM decoder with
  | .error e => .error (.unreadable e)
  | .ok as => if as.all fun a => (metadata a).name.isSome then .ok as else .error .nameless

/-! ## pauses -/

/-- the pauses of the watches, in milliseconds -/
structure Pauses where
  /-- when the pause ends that is being made -/
  finish : Option Nat
  /-- the length of the next one -/
  next : Nat
  /-- when the last error was -/
  last : Option Nat

namespace Pauses

def shortest : Nat := 800

def longest : Nat := 30000

/-- after this time without errors pauses are short again -/
def memory : Nat := 120000

def initial : Pauses := ⟨none, shortest, none⟩

/-- Pauses are doubled in single precision, which makes the result a little too large, and they end
with a millisecond.  The shortest is not doubled, and the longest is cut to its length. -/
def roundedUp (length : Nat) : Nat :=
  if shortest < length ∧ length < longest then length + 1 else length

/-- the pause after an error -/
def begin (p : Pauses) (now : Nat) : Pauses :=
  let length := if p.last.any fun t => t + memory < now then shortest else p.next
  ⟨some (now + roundedUp length), min longest (2 * length), some now⟩

/-- makes the next pause short again -/
def reset (p : Pauses) : Pauses := { p with next := shortest }

end Pauses

/-! ## all watches -/

structure Watching where
  connectors : Watch
  deployments : Watch
  services : Watch
  /-- the watches that have something to do, in the order of their turns -/
  ready : List Watched
  /-- the watches that wait for an answer -/
  waiting : List Watched
  pauses : Pauses
  /-- the collections that have been listed -/
  collections : List String
  /-- the Connectors that the watch has told of, once it has listed them -/
  cache : Option (List (ConnectorRef × Connector))
  /-- the Connectors that passes are asked for, in order -/
  asked : List ConnectorRef
  /-- whether a watch has come to an object without a name -/
  broken : Bool

namespace Watching

def initial : Watching where
  connectors := .initial
  deployments := .initial
  services := .initial
  ready := [.connectors, .deployments, .services]
  waiting := []
  pauses := .initial
  collections := []
  cache := none
  asked := []
  broken := false

def watch (s : Watching) : Watched → Watch
  | .connectors => s.connectors
  | .deployments => s.deployments
  | .services => s.services

def setWatch (s : Watching) (w : Watch) : Watched → Watching
  | .connectors => { s with connectors := w }
  | .deployments => { s with deployments := w }
  | .services => { s with services := w }

/-! ## reading -/

/-- a cached Connector -/
def cached? (s : Watching) (r : ConnectorRef) : Option Connector :=
  s.cache.bind fun cache => Entries.find? r cache

/-- puts a Connector into the cache -/
def remember (cache : List (ConnectorRef × Connector)) (c : Connector) :
    List (ConnectorRef × Connector) :=
  Entries.erase c.ref cache ++ [(c.ref, c)]

/-- the objects of a kind that a list in a scope finds -/
def visible (scope : Option String) (cluster : Cluster) (kind : Kind) : List Json :=
  (cluster.objects.entries.filter fun e =>
    e.1.kind = kind && scope.all fun ns => ns = e.1.ns).map (·.2)

/-- the path of the list of a kind -/
def listPath? (scope : Option String) (kind : Kind) : Option String :=
  (Http.Target.parse? (Request.withQuery (Request.collection kind scope) [])).map (·.path)

/-- The collection at the path of a list, and what is in it.  There may be no such collection. -/
def listAt? (cluster : Cluster) (path : String) : Option (List Json) :=
  match Route.ofPath? path with
  | some (.collection kind scope) => some (visible scope cluster kind)
  | _ => none

/-- what a listed watch tells of, and the Connectors if it lists those -/
def readList (src : Watched) (items : List Json) :
    Except WatchFault (List ConnectorRef × List Connector) :=
  match src with
  | .connectors => do
    let cs ← WatchFault.readNamed Connector.decode (·.metadata) items
    return (cs.map Connector.ref, cs)
  | _ => do
    let os ← WatchFault.readNamed Object.decode (·.metadata) items
    return (os.flatMap Object.owners, [])

/-- what a watch tells of a change, and what becomes of the cache -/
def readChange (src : Watched) (change : Change)
    (cache : Option (List (ConnectorRef × Connector))) :
    Except WatchFault (List ConnectorRef × Option (List (ConnectorRef × Connector))) := do
  let (refs, listed) ← readList src [change.object]
  if src = .connectors ∧ change.event = .deleted then
    return ([], cache.map fun cached => refs.foldl (fun cached r => Entries.erase r cached) cached)
  else return (refs, cache.map fun cached => listed.foldl remember cached)

/-- caches what a watch has told of if it watches the Connectors -/
def finishList (src : Watched) (listed : List Connector) (s : Watching) : Watching :=
  if src = .connectors then { s with cache := some (listed.foldl remember []) } else s

/-! ## turns -/

/-- how a step of a watch ends -/
inductive Progress where
  | more
  | told
  | waits
  | rests
  | fails
  | breaks

/-- whether the watch may go on after the step -/
def Progress.goesOn : Progress → Bool
  | more => true
  | told => true
  | waits => true
  | rests => false
  | fails => false
  | breaks => false

/-- what comes of a fault -/
def Progress.ofFault : WatchFault → Progress
  | .unreadable _ => fails
  | .nameless => breaks

theorem Progress.goesOn_ofFault (e : WatchFault) : (ofFault e).goesOn = false := by
  cases e <;> rfl

/-- reads the list that was asked for -/
def takeList (cluster : Cluster) (src : Watched) (path : String) (s : Watching) :
    Progress × Watching :=
  let anew := s.setWatch { s.watch src with stage := .unlisted } src
  match listAt? cluster path with
  | none => (.fails, anew)
  | some items =>
    let collections := s.collections ++ [path]
    match readList src items with
    | .error e => (.ofFault e, { anew with collections })
    | .ok (refs, listed) =>
      let w := { s.watch src with stage := .telling listed, refs }
      (.more, { s.setWatch w src with collections })

/-- reads the next change -/
def takeChange (src : Watched) (change : Change) (rest : List Change) (s : Watching) :
    Progress × Watching :=
  match readChange src change s.cache with
  | .error e => (.ofFault e, s.setWatch { s.watch src with changes := rest } src)
  | .ok (refs, cache) =>
    (.more, { s.setWatch { s.watch src with refs, changes := rest } src with cache })

/-- a step of a watch -/
def step (scope : Option String) (cluster : Cluster) (src : Watched) (s : Watching) :
    Progress × Watching :=
  let w := s.watch src
  match w.stage, w.refs, w.changes with
  | .unlisted, _, _ =>
    match listPath? scope src.kind with
    | none => (.fails, s)
    | some path => (.waits, s.setWatch { w with stage := .listing path } src)
  | .listing path, _, _ => takeList cluster src path s
  | .telling listed, [], _ =>
    (.waits, (s.finishList src listed).setWatch { w with stage := .opening } src)
  | .opening, _, _ => (.more, s.setWatch { w with stage := .opened } src)
  | .opened, [], change :: rest => takeChange src change rest s
  | .opened, [], [] => (.rests, s)
  | _, r :: rest, _ =>
    (.told, { s.setWatch { w with refs := rest } src with asked := s.asked ++ [r] })

/-! ## all turns -/

/-- a number that the watches have, in sum -/
def total (f : Watch → Nat) (s : Watching) : Nat := f s.connectors + f s.deployments + f s.services

/-- what is left to do before all watches rest: the stages to pass, the changes to read, and the
Connectors to tell of -/
def work (s : Watching) : Nat × Nat × Nat :=
  (s.total (·.stage.left), s.total (·.changes.length), s.total (·.refs.length))

/-- less work in the order of its parts -/
abbrev Less : Nat × Nat × Nat → Nat × Nat × Nat → Prop :=
  Prod.Lex (· < ·) (Prod.Lex (· < ·) (· < ·))

theorem work_setWatch {s : Watching} {src : Watched} {w : Watch}
    (h : Less (w.stage.left, w.changes.length, w.refs.length)
      ((s.watch src).stage.left, (s.watch src).changes.length, (s.watch src).refs.length)) :
    Less (s.setWatch w src).work s.work := by
  simp only [Less, work, total, Prod.lex_def] at h ⊢
  cases src <;> simp only [setWatch, watch] at h ⊢ <;> omega

theorem work_finishList (src : Watched) (listed : List Connector) (s : Watching) :
    (s.finishList src listed).work = s.work ∧
      (s.finishList src listed).watch src = s.watch src := by
  unfold finishList
  split
  · exact ⟨rfl, by cases src <;> rfl⟩
  · exact ⟨rfl, rfl⟩

/-- every step after which a watch goes on leaves less work -/
theorem work_step (scope : Option String) (cluster : Cluster) (src : Watched) (s : Watching) :
    (step scope cluster src s).1.goesOn = true →
      Less (step scope cluster src s).2.work s.work := by
  unfold step takeList takeChange
  generalize hw : s.watch src = w
  obtain ⟨stage, refs, changes⟩ := w
  have lt : ∀ {t : Watching} {w' : Watch}, t.work = s.work → t.watch src = s.watch src →
      Less (w'.stage.left, w'.changes.length, w'.refs.length)
        (stage.left, changes.length, refs.length) → Less (t.setWatch w' src).work s.work :=
    fun ht hs h => ht ▸ work_setWatch (by simpa [hs, hw] using h)
  have stops : ∀ {e : WatchFault} {P : Prop}, (Progress.ofFault e).goesOn = true → P :=
    fun h => by simp [Progress.goesOn_ofFault] at h
  dsimp only
  split
  · split
    · exact nofun
    · exact fun _ => lt rfl rfl (.left _ _ (by simp [WatchStage.left]))
  · split
    · exact nofun
    · split
      · exact stops
      · exact fun _ => lt rfl rfl (.left _ _ (by simp [WatchStage.left]))
  · have h := fun listed => work_finishList src listed s
    exact fun _ => lt (h _).1 (h _).2 (.left _ _ (by simp [WatchStage.left]))
  · exact fun _ => lt rfl rfl (.left _ _ (by simp [WatchStage.left]))
  · split
    · exact stops
    · exact fun _ => lt rfl rfl (.right _ (.left _ _ (by simp)))
  · exact nofun
  · exact fun _ => lt rfl rfl (.right _ (.right _ (by simp)))

/-- Lets the watches take turns until all of them rest, or until one comes to something that it
cannot read or that has no name. -/
def takeTurns (scope : Option String) (cluster : Cluster) (now : Nat) (s : Watching) : Watching :=
  match _hr : s.ready with
  | [] =>
    match _hw : s.waiting with
    | [] => s
    | src :: rest => takeTurns scope cluster now { s with ready := src :: rest, waiting := [] }
  | src :: rest =>
    match step scope cluster src s, work_step scope cluster src s with
    | (.more, s'), _lt => takeTurns scope cluster now { s' with ready := src :: rest }
    | (.told, s'), _lt =>
      takeTurns scope cluster now
        { s' with ready := rest ++ [src], pauses := s'.pauses.reset }
    | (.waits, s'), _lt =>
      takeTurns scope cluster now { s' with ready := rest, waiting := s'.waiting ++ [src] }
    | (.rests, _), _ => takeTurns scope cluster now { s with ready := rest }
    | (.fails, s'), _ =>
      { s' with
        ready := rest ++ src :: s'.waiting
        waiting := []
        pauses := s'.pauses.begin now }
    | (.breaks, s'), _ => { s' with broken := true }
termination_by (s.work, 2 * s.waiting.length + s.ready.length)
decreasing_by
  · exact .right _ (by simp [_hr, _hw])
  · exact .left _ _ (_lt rfl)
  · exact .left _ _ (_lt rfl)
  · exact .left _ _ (_lt rfl)
  · exact .right _ (by simp [_hr])

/-! ## reports -/

/-- lets the watches go on unless they pause or are broken -/
def poll (scope : Option String) (cluster : Cluster) (now : Nat) (s : Watching) : Watching :=
  if s.broken || s.pauses.finish.any fun t => now < t then s
  else takeTurns scope cluster now { s with pauses := { s.pauses with finish := none } }

/-- A report on an object of a namespace.  It is missed by a watch that is not open or has another
scope. -/
def notice (scope : Option String) (event : WatchEvent) (kind : Kind) (ns : String) (v : Json)
    (s : Watching) : Watching :=
  match Watched.ofKind? kind with
  | none => s
  | some src =>
    let w := s.watch src
    match w.stage with
    | .opened =>
      if scope.all fun scope => scope = ns then
        { s.setWatch { w with changes := w.changes ++ [⟨event, v⟩] } src with
          ready := if s.ready.contains src then s.ready else s.ready ++ [src] }
      else s
    | _ => s

end Watching
end ConnectorControl
