import ConnectorControl.Derived.Naming
import ConnectorControl.Store.Program

/-!
# Pruning

Objects that the spec no longer asks for are deleted, kind by kind: those that carry the Connector's
label, have its UID as their controller, and are not desired.  The Deployment is never pruned.
-/

namespace ConnectorControl
namespace Pass

/-- whether an object that is listed has to go -/
def isStale (desired : List (DerivedKind × String)) (uid : String) (kind : DerivedKind)
    (o : Object) : Bool :=
  !desired.contains (kind, o.metadata.nameAny) && o.metadata.isControlledBy uid

/-- deletes the stale ones of some objects and counts those that were there -/
def deleteStale (desired : List (DerivedKind × String)) (uid ns : String) (kind : DerivedKind) :
    List Object → Pass Nat
  | [] => return 0
  | o :: os => do
    if isStale desired uid kind o then
      let existed ← delete kind ns o.metadata.nameAny
      let n ← deleteStale desired uid ns kind os
      return if existed then n + 1 else n
    else deleteStale desired uid ns kind os

/-- deletes the stale objects of some kinds -/
def pruneKinds (desired : List (DerivedKind × String)) (uid ns selector : String) :
    List DerivedKind → Pass Nat
  | [] => return 0
  | kind :: kinds => do
    let found ← list kind ns selector
    let n ← deleteStale desired uid ns kind found
    return n + (← pruneKinds desired uid ns selector kinds)

/-- deletes the stale objects of a Connector; without a UID it has none -/
def prune (c : Connector) (ns : String) (desired : List (DerivedKind × String)) : Pass Nat :=
  match c.metadata.uid with
  | none => return 0
  | some uid => pruneKinds desired uid ns (Derived.selector c.name) Derived.prunable

end Pass
end ConnectorControl
