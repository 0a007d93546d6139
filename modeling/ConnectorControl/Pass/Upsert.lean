import ConnectorControl.Store.Program

/-!
# Creating or patching an object

A derived object is created, or merged over the object that already has its name.  What it leaves
open is `null`: dropped when it is created, cleared when it is patched.  The object found is fetched
before it is patched; if it is gone by then, the pass fails and is run again.
-/

namespace ConnectorControl

inductive Applied where
  | created
  | patched
deriving DecidableEq

namespace Pass

/-- an object was deleted between the two steps -/
def disappeared (kind : DerivedKind) (ns name : String) : Failure :=
  .transient (kind.name ++ " " ++ ns ++ "/" ++ name ++ " disappeared before patch")

/-- merges an object over the one of its name -/
def patchOver (kind : DerivedKind) (ns name : String) (o : Object) : Pass Applied := do
  match ← get kind ns name with
  | none => throw (disappeared kind ns name)
  | some _ =>
    let _ ← patch kind ns name o.toJson
    return .patched

/-- creates an object, or merges it over the one of its name -/
def upsert (kind : DerivedKind) (ns : String) (o : Object) : Pass Applied :=
  match o.metadata.name with
  | none => throw (.missingKey ".metadata.name")
  | some name => do
    match ← always (Program.attempt (.create kind ns o.stripNulls)) with
    | .ok _ => return .created
    | .error (.alreadyExists _ _) => patchOver kind ns name o
    | .error e => throw e

end Pass
end ConnectorControl
