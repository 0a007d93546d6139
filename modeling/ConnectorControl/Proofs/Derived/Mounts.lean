import ConnectorControl.Proofs.Connector.RoundTrip
import ConnectorControl.Proofs.Derived.Specs

/-!
# What the pods of a Connector mount

A pod has a volume for each of the ConfigMap and the Secret that the spec names, under two different
names.  The first container mounts both: its own mounts stay as they are, and one more comes after
them for each volume whose name none of them uses (`mountedInto_withMounts`).  The other containers
are those of the spec.
-/

namespace ConnectorControl

namespace Volume

theorem mount_eq (v : Volume) : v.mount =
    { name := v.volumeName, mountPath := "/vance/" ++ v.volumeName, readOnly := some true } := by
  cases v <;> rfl

theorem name_mount (v : Volume) : v.mount.name = v.volumeName := by
  rw [mount_eq]

theorem get_name (v : Volume) : v.toJson.get "name" = .str v.volumeName := by
  cases v with
  | configMap name =>
    unfold toJson
    rw [Json.get_object (by simp)]
    rfl
  | secret name =>
    unfold toJson
    rw [Json.get_object (by simp)]
    rfl

end Volume

def VolumeMount.unused (mounts : List VolumeMount) (name : String) : Bool :=
  mounts.all fun m => m.name ≠ name

def Container.mounts (c : Container) : List VolumeMount := c.volumeMounts.getD []

namespace Deployment

open VolumeMount

/-! ## adding mounts -/

theorem addMount_eq (mounts : List VolumeMount) (m : VolumeMount) :
    addMount mounts m = if unused mounts m.name = true then mounts ++ [m] else mounts := by
  have hany : (mounts.any fun m' => m'.name = m.name) = !unused mounts m.name := by
    unfold unused
    rw [List.any_eq_not_all_not]
    simp
  unfold addMount
  rw [hany]
  cases unused mounts m.name <;> rfl

theorem unused_concat {mounts : List VolumeMount} {m : VolumeMount} {name : String}
    (h : m.name ≠ name) : unused (mounts ++ [m]) name = unused mounts name := by
  unfold unused
  rw [List.all_append, List.all_cons, decide_eq_true h]
  exact Bool.and_true _

/-- mounts of different names are added unless their name is used at first -/
theorem foldl_addMount (mounts : List VolumeMount) {ms : List VolumeMount}
    (h : (ms.map (·.name)).Nodup) :
    ms.foldl addMount mounts = mounts ++ ms.filter fun m => unused mounts m.name := by
  induction ms generalizing mounts with
  | nil => exact (List.append_nil mounts).symm
  | cons m ms ih =>
    rw [List.map_cons, List.nodup_cons] at h
    obtain ⟨hm, hms⟩ := h
    rw [List.foldl_cons, ih _ hms, addMount_eq, List.filter_cons]
    cases unused mounts m.name with
    | true =>
      -- what is added has the name of none that is still to come
      have hrest : ms.filter (fun x => unused (mounts ++ [m]) x.name) =
          ms.filter fun x => unused mounts x.name := by
        refine List.filter_congr fun x hx => unused_concat ?_
        rintro hname
        rw [hname] at hm
        exact hm (List.mem_map_of_mem hx)
      rw [if_pos rfl, if_pos rfl, hrest, List.append_assoc]
      rfl
    | false => rfl

/-- A container before and after volumes are mounted into it: its own mounts come first, as they
were, then a mount for each volume whose name none of them uses. -/
structure MountedInto (volumes : List Volume) (c c' : Container) : Prop where
  mounts : c'.mounts =
    c.mounts ++ (volumes.filter fun v => unused c.mounts v.volumeName).map Volume.mount
  mounted : ∀ v ∈ volumes, ∃ m ∈ c'.mounts, m.name = v.volumeName
  stated : c'.volumeMounts ≠ some []
  others : { c' with volumeMounts := none } = { c with volumeMounts := none }

section
variable {volumes : List Volume} (h : (volumes.map Volume.volumeName).Nodup) (c : Container)
include h

theorem mounts_withMounts : (withMounts volumes c).mounts =
    c.mounts ++ (volumes.filter fun v => unused c.mounts v.volumeName).map Volume.mount := by
  have hnames : (volumes.map Volume.mount).map (·.name) = volumes.map Volume.volumeName := by
    rw [List.map_map]
    exact List.map_congr_left fun v _ => v.name_mount
  have hadded : (volumes.map Volume.mount).foldl addMount c.mounts =
      c.mounts ++ (volumes.filter fun v => unused c.mounts v.volumeName).map Volume.mount := by
    rw [foldl_addMount _ (hnames ▸ h), List.filter_map]
    refine congrArg (c.mounts ++ List.map Volume.mount ·) (List.filter_congr fun v _ => ?_)
    exact congrArg (unused c.mounts) v.name_mount
  rw [← hadded]
  unfold withMounts
  show (if _ then none else some _ : Option (List VolumeMount)).getD [] = _
  split
  next hempty => exact (List.isEmpty_iff.1 hempty).symm
  · rfl

theorem mountedInto_withMounts : MountedInto volumes c (withMounts volumes c) where
  mounts := mounts_withMounts h c
  mounted v hv := by
    rw [mounts_withMounts h c]
    cases hunused : unused c.mounts v.volumeName with
    | true =>
      refine ⟨v.mount, List.mem_append_right _ (List.mem_map_of_mem ?_), v.name_mount⟩
      exact List.mem_filter.2 ⟨hv, hunused⟩
    | false =>
      obtain ⟨m, hm, hname⟩ := List.all_eq_false.1 hunused
      exact ⟨m, List.mem_append_left _ hm, by simpa using hname⟩
  stated := by
    unfold withMounts
    dsimp only
    split
    · exact nofun
    next hmounts =>
      intro hempty
      rw [Option.some.inj hempty] at hmounts
      exact hmounts rfl
  others := rfl

end

/-! ## the pods of a Connector -/

theorem nodup_volumesOf (s : ConnectorSpec) :
    ((volumesOf s).map Volume.volumeName).Nodup := by
  unfold volumesOf
  cases s.configMapName with
  | none =>
    cases s.secretName with
    | none => exact List.nodup_nil
    | some name => exact show ["secret"].Nodup by decide
  | some name =>
    cases s.secretName with
    | none => exact show ["config"].Nodup by decide
    | some name => exact show ["config", "secret"].Nodup by decide

theorem toList_volume (make : String → Volume) (name : Option String) :
    ((name.filter (· ≠ "")).map make).toList = (name.toList.filter (· ≠ "")).map make := by
  cases name with
  | none => rfl
  | some name => by_cases h : name = "" <;> simp [Option.filter, h]

/-- The pods of a Connector have a volume for the ConfigMap that the spec names and one for the
Secret, with different names, and the first container mounts both.  Its own mounts come first, and
what is added is read-only.  But for these mounts the containers are those of the spec, or the one
that is made from the image if the spec gives none, and they are read from what is written. -/
theorem mounts_each_volume (c : Connector) :
    let d := ofConnector c
    let pod := ((d.toObject.toJson.get "spec").get "template").get "spec"
    let configs := c.spec.configRef.toList.filter (· ≠ "")
    let secrets := c.spec.secretRef.toList.filter (· ≠ "")
    let made : Container :=
      { name := c.name, image := c.spec.image, imagePullPolicy := some "IfNotPresent"
        ports := c.spec.effectivePort.map fun port =>
          [{ containerPort := port, name := some "http", protocol := some "TCP" }] }
    d.volumes = configs.map .configMap ++ secrets.map .secret ∧
      (d.volumes.map Volume.volumeName).Nodup ∧
      (∀ v ∈ d.volumes, v.toJson.get "name" = .str v.volumeName ∧ v.mount =
        { name := v.volumeName, mountPath := "/vance/" ++ v.volumeName, readOnly := some true }) ∧
      (∃ first first' rest,
        (if c.spec.containers = [] then [made] else c.spec.containers) = first :: rest ∧
        d.containers = first' :: rest ∧ MountedInto d.volumes first first') ∧
      pod.get "volumes" = .arr (configs.map (fun name =>
          .object [("name", .str "config"), ("configMap", .object [("name", .str name)])]) ++
        secrets.map fun name =>
          .object [("name", .str "secret"), ("secret", .object [("secretName", .str name)])]) ∧
      pod.get "containers" = .arr (d.containers.map Container.toJson) ∧
      ∀ x ∈ d.containers, Container.decode x.toJson = .ok x := by
  intro d pod configs secrets made
  have hpod : pod = (d.spec.get "template").get "spec" := by
    show ((d.toObject.toJson.get "spec").get "template").get "spec" = _
    rw [show d.toObject.toJson.get "spec" = d.spec from Object.get_spec_ofSpec]
  have hvolumes : d.volumes = configs.map .configMap ++ secrets.map .secret := by
    rw [← toList_volume, ← toList_volume]
    rfl
  refine ⟨hvolumes, nodup_volumesOf c.spec, fun v _ => ⟨v.get_name, v.mount_eq⟩, ?_, ?_, ?_,
    fun x _ => x.decode_toJson⟩
  · have hmounted := mountedInto_withMounts (nodup_volumesOf c.spec)
    cases hcontainers : c.spec.containers with
    | nil =>
      refine ⟨made, _, [], if_pos rfl, ?_, hmounted _⟩
      exact containers_of_empty hcontainers
    | cons first rest =>
      refine ⟨first, _, rest, if_neg (List.cons_ne_nil _ _), ?_, hmounted first⟩
      show mountFirst _ (baseContainers c) = _
      unfold baseContainers
      rw [hcontainers]
      rfl
  · rw [hpod, show ((d.spec.get "template").get "spec").get "volumes" = _ from get_volumes d,
      hvolumes, List.map_append, List.map_map, List.map_map]
    rfl
  · rw [hpod]
    exact get_containers d

end Deployment
end ConnectorControl
