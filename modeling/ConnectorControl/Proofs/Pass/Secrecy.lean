import ConnectorControl.Proofs.Pass.Meaning
import ConnectorControl.Proofs.Store.Blind

/-!
# A pass and the values in Secrets

A pass goes on from a Secret by its keys alone (`secretKeys_eq`), and from a ConfigMap by its being
there.  So every pass is blind to values (`blind_reconcile`), and in worlds that are the same but
for values it does the same.

In one world a pass does the same at every time, but for the times of what it records
(`reconciled_times`).
-/

namespace ConnectorControl

theorem not_holdsValues_derived (kind : DerivedKind) : ¬(kind : Kind).HoldsValues := by
  rintro (h | h) <;> cases h

theorem not_holdsValues_connector : ¬Kind.connector.HoldsValues := by
  rintro (h | h) <;> cases h

namespace Pass

variable {settings : PassSettings} {now now' ns name : String} {c : Connector}

/-! ## Secrets and ConfigMaps -/

theorem blind_requireObject {kind : Kind} {name : Option String} :
    Blind (requireObject kind ns name) := by
  cases name with
  | none => exact blind_pure
  | some n =>
    refine blind_get_bind (fun x y hxy => ?_) fun x => ?_
    · cases hxy <;> rfl
    · cases x with
      | none => exact blind_throw
      | some o => exact blind_pure

/-- the key set that is used, by what is held under the keys of a Secret that was found -/
def chooseKeys (ns secret triggerType : String) (alternatives : List (List String)) :
    Option (String → Bool) → Pass (List String)
  | none => throw (.notFound ("Secret " ++ ns ++ "/" ++ secret))
  | some holds =>
    match KeySets.matching holds alternatives with
    | some keys => return keys
    | none => do
      always (Program.noteRejected triggerType)
      throw (.secretMissesKeys secret triggerType (KeySets.closestMissing holds alternatives))

theorem secretKeys_eq (secret triggerType : String) (alternatives : List (List String)) :
    secretKeys ns secret triggerType alternatives = get .secret ns secret >>= fun found =>
      readAs Secret.decode found >>= fun s =>
        chooseKeys ns secret triggerType alternatives (s.map Secret.hasKey) := by
  have hchoose : secretKeys ns secret triggerType alternatives =
      getAs .secret ns secret Secret.decode >>= fun s =>
        chooseKeys ns secret triggerType alternatives (s.map Secret.hasKey) := by
    unfold secretKeys
    congr 1
    funext s
    cases s <;> rfl
  rw [hchoose, getAs_eq, bind_assoc]

theorem blind_chooseKeys {secret triggerType : String} {alternatives : List (List String)}
    (holds : Option (String → Bool)) :
    Blind (chooseKeys ns secret triggerType alternatives holds) := by
  cases holds with
  | none => exact blind_throw
  | some holds =>
    unfold chooseKeys
    dsimp only
    split
    · exact blind_pure
    · exact blind_bind (blind_always (p := Program.noteRejected _) trivial) fun _ => blind_throw

theorem blind_secretKeys {secret triggerType : String} {alternatives : List (List String)} :
    Blind (secretKeys ns secret triggerType alternatives) := by
  rw [secretKeys_eq]
  refine blind_get_bind (fun x y hxy => ?_) fun x => blind_bind ?_ fun s => blind_chooseKeys _
  · cases hxy with
    | none => rfl
    | @some o o' hread =>
      have hread : EndsAlike (fun s s' => s.hasKey = s'.hasKey) (o.decodeAs Secret.decode)
        (o'.decodeAs Secret.decode) := hread
      generalize hr : o.decodeAs Secret.decode = r at hread
      generalize hr' : o'.decodeAs Secret.decode = r' at hread
      cases hread with
      | error e => rw [readAs_of_error hr, readAs_of_error hr']
      | @ok s s' hkeys =>
        rw [readAs_of_ok hr, readAs_of_ok hr']
        show chooseKeys ns secret triggerType alternatives (some s.hasKey) =
          chooseKeys ns secret triggerType alternatives (some s'.hasKey)
        rw [hkeys]
  · cases x with
    | none => exact blind_pure
    | some o =>
      cases hr : o.decodeAs Secret.decode with
      | ok s =>
        rw [readAs_of_ok hr]
        exact blind_pure
      | error e =>
        rw [readAs_of_error hr]
        exact blind_throw

theorem blind_planTriggers {auth : ScalerConfig} {connector : String} (index : Nat)
    (ts : List Trigger) : Blind (planTriggers auth connector ns index ts) := by
  induction ts generalizing index with
  | nil => exact blind_pure
  | cons t ts ih =>
    unfold planTriggers
    split
    · exact blind_throw
    · split
      · exact blind_bind (ih index) fun _ => blind_pure
      · exact blind_bind blind_secretKeys fun _ => blind_bind (ih (index + 1)) fun _ => blind_pure

/-! ## the parts of a pass -/

theorem blind_upsert {kind : DerivedKind} {o : Object} (hn : o.metadata.name = some name) :
    Blind (upsert kind ns o) := by
  refine Asks.blind ((asks_upsert hn).mono fun call hcall => ?_)
  rw [show call.kind = kind from congrArg ObjectKey.kind hcall.key]
  exact not_holdsValues_derived kind

theorem blind_upsertAll (xs : List Draft) : Blind (upsertAll c ns xs) := by
  induction xs with
  | nil => exact blind_pure
  | cons x xs ih =>
    have hname : (x.toObject c).metadata.name = some x.name := rfl
    exact blind_bind (blind_upsert hname) fun _ => ih

theorem blind_upsertDeployment : Blind (upsertDeployment c ns) := by
  have hname : ((Draft.deployment c).toObject c).metadata.name = some c.name := rfl
  rw [upsertDeployment_eq]
  exact blind_bind (blind_bind blind_requireObject fun _ => blind_requireObject) fun _ =>
    blind_upsert hname

theorem blind_plan {auth : ScalerConfig} (scaling : Option ScalingRule) :
    Blind (plan auth c ns scaling) := by
  cases scaling with
  | none => exact blind_pure
  | some rule =>
    unfold plan
    dsimp only
    split
    · split
      · exact blind_throw
      · exact blind_pure
    · exact blind_adapt (blind_bind (blind_planTriggers 0 _) fun _ => blind_pure)

theorem blind_prune (desired : List (DerivedKind × String)) : Blind (prune c ns desired) := by
  refine Asks.blind ((asks_prune desired).mono fun call hcall => ?_)
  obtain ⟨kind, hkind⟩ := hcall.kind
  rw [hkind]
  exact not_holdsValues_derived kind

theorem blind_converge : Blind (converge settings now c ns) := by
  refine blind_bind (blind_adapt blind_ofExcept) fun _ =>
    blind_bind (blind_adapt blind_ofExcept) fun scaling =>
      blind_bind (blind_adapt blind_upsertDeployment) fun _ => blind_bind ?_ fun outcome => ?_
  · rw [scale_eq]
    exact blind_bind (blind_plan scaling) fun p =>
      blind_bind (blind_adapt (blind_upsertAll p.drafts)) fun _ => blind_pure
  · split
    · exact blind_bind (blind_adapt (blind_prune _)) fun _ => blind_pure
    · exact blind_pure

theorem blind_tryRecord (cond : Condition) : (tryRecord c ns cond).Blind := by
  refine Program.Asks.blind ((asks_tryRecord cond).mono fun call hcall => ?_)
  rw [show call.kind = .connector from congrArg ObjectKey.kind hcall.key]
  exact not_holdsValues_connector

theorem blind_visit : Blind (visit settings now ns c) := by
  unfold visit
  split
  · exact blind_bind (blind_always (blind_tryRecord _)) fun _ => blind_pure
  · refine blind_bind (blind_always (p := (converge settings now c ns).run) blind_converge)
      fun r => ?_
    cases r with
    | ok cond => exact blind_bind (blind_always (blind_tryRecord _)) fun _ => blind_pure
    | error e => exact blind_bind (blind_always (blind_tryRecord _)) fun _ => blind_throw

/-- no pass depends on what Secrets and ConfigMaps hold -/
theorem blind_reconcile : Blind (reconcile settings now ns name) := by
  have hread : Asks (fun call => ¬call.kind.HoldsValues)
      (getAs .connector ns name Connector.decode) := by
    refine Fetches.asks_of (fetches_getAs (K := fun k => k = ⟨.connector, ns, name⟩) rfl) ?_
    rintro k rfl
    exact not_holdsValues_connector
  rw [reconcile_eq]
  refine blind_bind (Asks.blind hread) fun found => ?_
  cases found with
  | none => exact blind_pure
  | some c => exact blind_visit

/-! ## one world at two times -/

/-- a pass over one world does the same at every time, but for the times of what it records -/
theorem reconciled_times (settings : PassSettings) (now now' ns name : String) (w : World) :
    (reconciled settings now ns name w).result = (reconciled settings now' ns name w).result ∧
      (reconciled settings now ns name w).state.Beside Json.withoutTimes
        (reconciled settings now' ns name w).state ∧
      (reconciled settings now ns name w).rejected =
        (reconciled settings now' ns name w).rejected := by
  have hvisit : ∀ found, Alike Json.withoutTimes Eq (visitFound settings now ns found)
      (visitFound settings now' ns found) := by
    intro found
    cases found with
    | none => exact alike_pure rfl
    | some c => exact alike_visit settings now now'
  have hrest : ∀ r : Except Failure (Option Connector),
      Program.Alike Json.withoutTimes (EndsAlike Eq)
        (ExceptT.bindCont (m := Program) (visitFound settings now ns) r)
        (ExceptT.bindCont (m := Program) (visitFound settings now' ns) r) := by
    intro r
    cases r with
    | ok found => exact hvisit found
    | error e => exact .done (.error e)
  obtain ⟨hresult, hstate, hrejected⟩ := Program.run_bind_of_alike
    (p := (getAs .connector ns name Connector.decode).run) hrest w
  exact ⟨hresult.eq, hstate, hrejected⟩

end Pass
end ConnectorControl
