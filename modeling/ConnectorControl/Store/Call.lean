import ConnectorControl.Failure
import ConnectorControl.Objects.Kind
import ConnectorControl.Objects.Object

/-!
# Calls on the object store

Whatever a pass learns of the cluster, and whatever it changes there, goes through one of six calls.
Each call has its type of answer.  `Call.write` is the change that a call asks for, `Event.write?`
the change that its reply tells of.
-/

namespace ConnectorControl

inductive Call where
  | get (kind : Kind) (ns name : String)
  | create (kind : Kind) (ns : String) (object : Object)
  | patch (kind : Kind) (ns name : String) (body : Json)
  | patchStatus (kind : Kind) (ns name : String) (body : Json)
  | list (kind : Kind) (ns selector : String)
  | delete (kind : Kind) (ns name : String)

/-- the six calls, without what they are about -/
inductive Verb where
  | get
  | create
  | patch
  | patchStatus
  | list
  | delete
deriving DecidableEq

namespace Call

/-- what a call answers -/
def Answer : Call → Type
  | get _ _ _ => Option Object
  | create _ _ _ => Object
  | patch _ _ _ _ => Object
  | patchStatus _ _ _ _ => Unit
  | list _ _ _ => List Object
  | delete _ _ _ => Bool

/-- an answer or a failure -/
abbrev Reply (c : Call) : Type := Except Failure c.Answer

def verb : Call → Verb
  | get _ _ _ => .get
  | create _ _ _ => .create
  | patch _ _ _ _ => .patch
  | patchStatus _ _ _ _ => .patchStatus
  | list _ _ _ => .list
  | delete _ _ _ => .delete

def kind : Call → Kind
  | get k _ _ => k
  | create k _ _ => k
  | patch k _ _ _ => k
  | patchStatus k _ _ _ => k
  | list k _ _ => k
  | delete k _ _ => k

def ns : Call → String
  | get _ ns _ => ns
  | create _ ns _ => ns
  | patch _ ns _ _ => ns
  | patchStatus _ ns _ _ => ns
  | list _ ns _ => ns
  | delete _ ns _ => ns

/-- the name of the object, empty for a list -/
def name : Call → String
  | get _ _ n => n
  | create _ _ o => o.metadata.name.getD ""
  | patch _ _ n _ => n
  | patchStatus _ _ n _ => n
  | list _ _ _ => ""
  | delete _ _ n => n

/-- the body handed to the store -/
def body : Call → Json
  | get _ _ _ => .null
  | create _ _ o => o.toJson
  | patch _ _ _ b => b
  | patchStatus _ _ _ b => b
  | list _ _ _ => .null
  | delete _ _ _ => .null

end Call

/-- a change made to the store -/
structure Write where
  verb : Verb
  kind : Kind
  ns : String
  name : String
  body : Json
deriving DecidableEq

/-- the change that a call asks for -/
def Call.write (c : Call) : Write := ⟨c.verb, c.kind, c.ns, c.name, c.body⟩

/-- what happens during a pass: a call with its reply, or a Secret found to lack keys -/
inductive Event where
  | call (c : Call) (reply : c.Reply)
  | secretRejected (triggerType : String)

namespace Event

/-- the write of a call that succeeded and changed the store -/
def write? : Event → Option Write
  | .call c reply =>
    match c, reply with
    | .get _ _ _, _ => none
    | .list _ _ _, _ => none
    | .delete _ _ _, .ok false => none
    | c, .ok _ => some c.write
    | _, .error _ => none
  | .secretRejected _ => none

end Event
end ConnectorControl
