import ConnectorControl.Json.Merge
import ConnectorControl.Store.Program
import ConnectorControl.Text.Split

/-!
# A cluster in memory

Objects are kept as JSON by kind, namespace and name.  A create numbers the new object, a patch is a
merge patch, a status patch reaches the status alone, and a list selects by labels.  Every object
that is answered has to read as an object.
-/

namespace ConnectorControl

structure ObjectKey where
  kind : Kind
  ns : String
  name : String
deriving DecidableEq

namespace ObjectKey

/-- by the name of the kind, then by namespace, then by name -/
instance : Ord ObjectKey where
  compare :=
    compareLex (compareOn (·.kind.name)) (compareLex (compareOn (·.ns)) (compareOn (·.name)))

instance : Std.TransOrd ObjectKey :=
  inferInstanceAs (Std.TransCmp (compareLex (compareOn fun k : ObjectKey => k.kind.name)
    (compareLex (compareOn (·.ns)) (compareOn (·.name)))))

instance : Std.LawfulEqOrd ObjectKey where
  compare_self := Std.ReflCmp.compare_self
  eq_of_compare {a b} h := by
    have h : compareLex (compareOn fun k : ObjectKey => k.kind.name)
      (compareLex (compareOn (·.ns)) (compareOn (·.name))) a b = .eq := h
    simp only [compareLex_eq_eq, compareOn, Std.LawfulEqOrd.compare_eq_iff_eq] at h
    obtain ⟨hk, hns, hn⟩ := h
    have : a.kind = b.kind := by
      have := Kind.ofName?_name a.kind
      rw [hk, Kind.ofName?_name] at this
      exact (Option.some.inj this).symm
    cases a; cases b; simp_all

def text (k : ObjectKey) : String := k.kind.name ++ "/" ++ k.ns ++ "/" ++ k.name

end ObjectKey

structure Cluster where
  objects : Table ObjectKey Json
  /-- how many objects have been created -/
  created : Nat

namespace Cluster

def empty : Cluster := ⟨∅, 0⟩

def find? (s : Cluster) (k : ObjectKey) : Option Json := s.objects.find? k

/-! ## changes from outside -/

/-- puts an object as it is, by the name and namespace that it states; it has to have a name -/
def put? (s : Cluster) (kind : Kind) (v : Json) : Option Cluster :=
  let m := v.get "metadata"
  let ns := (m.get "namespace").string?.getD "default"
  (m.get "name").string?.map fun name => { s with objects := s.objects.insert ⟨kind, ns, name⟩ v }

def remove (s : Cluster) (k : ObjectKey) : Cluster := { s with objects := s.objects.erase k }

/-! ## selectors -/

/-- whether labels satisfy a term of a selector: an equality, or a label that is there -/
def satisfiesTerm (labels : Json) (term : String) : Bool :=
  match Text.cut? '=' term with
  | some (key, value) => (labels.get key).string? = some value
  | none => !(labels.get term).isNull

/-- whether the labels of an object satisfy every term of a selector -/
def isSelected (selector : String) (v : Json) : Bool :=
  let labels := (v.get "metadata").get "labels"
  ((Text.split ',' selector).filter (· ≠ "")).all (satisfiesTerm labels)

/-! ## calls -/

/-- reads a stored value as an object -/
def readObject (v : Json) : Except Failure Object :=
  match Object.decode v with
  | .ok o => .ok o
  | .error e => .error (.undecodable e)

def notFound (kind : Kind) (ns name : String) : Failure :=
  .api {
    status := "Failure"
    message := kind.name ++ " " ++ ns ++ "/" ++ name ++ " not found"
    reason := "NotFound"
    code := 404 }

/-- an object as it is stored when it is created -/
def stamp (s : Cluster) (ns : String) (o : Object) : Object :=
  { o with
    metadata := { o.metadata with uid := some ("uid-" ++ toString s.created), ns := some ns } }

/-- merges a patch into an object that is there -/
def patchObject (s : Cluster) (k : ObjectKey) (patch : Json) : Option (Json × Cluster) :=
  (s.find? k).map fun v =>
    let merged := v.merge patch
    (merged, { s with objects := s.objects.insert k merged })

/-- the objects of a kind in a namespace that a selector selects, by name -/
def select (s : Cluster) (kind : Kind) (ns selector : String) : List Json :=
  (s.objects.entries.filter fun e =>
    e.1.kind = kind && e.1.ns = ns && isSelected selector e.2).map (·.2)

/-- the reply to a call, and the cluster after it -/
def answer : Program.Handler Cluster
  | .get kind ns name, s =>
    match s.find? ⟨kind, ns, name⟩ with
    | none => (.ok none, s)
    | some v => (some <$> readObject v, s)
  | .create kind ns o, s =>
    let name := o.metadata.name.getD ""
    let key : ObjectKey := ⟨kind, ns, name⟩
    if s.objects.contains key then (.error (.alreadyExists kind.name name), s)
    else
      let v := (s.stamp ns o).toJson
      (readObject v, { objects := s.objects.insert key v, created := s.created + 1 })
  | .patch kind ns name body, s =>
    match s.patchObject ⟨kind, ns, name⟩ body with
    | none => (.error (notFound kind ns name), s)
    | some (merged, s') => (readObject merged, s')
  | .patchStatus kind ns name body, s =>
    match s.patchObject ⟨kind, ns, name⟩ (.object [("status", body.get "status")]) with
    | none => (.error (notFound kind ns name), s)
    | some (_, s') => (.ok (), s')
  | .list kind ns selector, s => ((s.select kind ns selector).mapM readObject, s)
  | .delete kind ns name, s =>
    let key : ObjectKey := ⟨kind, ns, name⟩
    (.ok (s.objects.contains key), s.remove key)

/-- The write that a call makes: what is there can be patched and deleted, what is not can be
created.  A patch is written even if the object can not be read then. -/
def write? (c : Call) (s : Cluster) : Option Write :=
  let there := s.objects.contains ⟨c.kind, c.ns, c.name⟩
  let writes :=
    match c.verb with
    | .get => false
    | .list => false
    | .create => !there
    | .patch => there
    | .patchStatus => there
    | .delete => there
  if writes then some c.write else none

theorem contains_of_find? {s : Cluster} {k : ObjectKey} {v : Json} (h : s.find? k = some v) :
    s.objects.contains k = true := by
  have h : s.objects.find? k = some v := h
  simp [Table.contains, h]

/-- a call that succeeds makes the write that its event tells of -/
theorem write?_event_of_ok {c : Call} {s : Cluster} {a : c.Answer} (h : (answer c s).1 = .ok a) :
    Event.write? (.call c (.ok a)) = write? c s := by
  cases c with
  | get kind ns name => simp [Event.write?, write?, Call.verb]
  | list kind ns selector => simp [Event.write?, write?, Call.verb]
  | create kind ns o =>
    by_cases hk : s.objects.contains ⟨kind, ns, o.metadata.name.getD ""⟩ = true
    · simp [answer, hk] at h
    · simp [Event.write?, write?, Call.verb, Call.kind, Call.ns, Call.name, hk]
  | patch kind ns name body =>
    cases hk : s.find? ⟨kind, ns, name⟩ with
    | none => simp [answer, patchObject, hk] at h
    | some v =>
      simp [Event.write?, write?, Call.verb, Call.kind, Call.ns, Call.name, contains_of_find? hk]
  | patchStatus kind ns name body =>
    cases hk : s.find? ⟨kind, ns, name⟩ with
    | none => simp [answer, patchObject, hk] at h
    | some v =>
      simp [Event.write?, write?, Call.verb, Call.kind, Call.ns, Call.name, contains_of_find? hk]
  | delete kind ns name =>
    have h : s.objects.contains ⟨kind, ns, name⟩ = a := Except.ok.inj h
    subst h
    cases hk : s.objects.contains ⟨kind, ns, name⟩ <;>
      simp [Event.write?, write?, Call.verb, Call.kind, Call.ns, Call.name, hk]

/-- the objects that two clusters do not have in common: what became of those of the first, and the
new ones of the second -/
def changes (s t : Cluster) : List (ObjectKey × Option Json) :=
  let gone := s.objects.entries.filterMap fun e =>
    if t.objects.contains e.1 then none else some (e.1, none)
  let changed := t.objects.entries.filterMap fun e =>
    if (s.find? e.1).any (Json.same e.2) then none else some (e.1, some e.2)
  gone ++ changed

end Cluster
end ConnectorControl
