/-
The volumes of skills: `resolve_volume_resources` of `agent_host_rs/src/skills.rs`.

What is checked of the mount paths is that none is a reserved path or lies below one, and
that no two are the same. A mount above another is not looked for.
-/
import AgentSpace.Config.SkillValidation

set_option autoImplicit false

namespace AgentSpace.Skills

open Text Lib

/-! ## Data -/

/-- `SKILL_METADATA_FILE`. -/
def SKILL_METADATA_FILE : Text := "agentspace.json".toList

/-- `RESERVED_PATHS` of `validate_skill_mount_path`. -/
def RESERVED_PATHS : List Text :=
  ["/workspace".toList, "/root/.copilot".toList, "/mnt/all-skills".toList, "/skills".toList,
    "/root/.config/opencode/skills".toList]

/-- `SkillVolumeScope`. -/
inductive SkillVolumeScope where
  | Installation

/-- `SkillVolumeMode`. -/
inductive SkillVolumeMode where
  | Ro
  | Rw
  deriving DecidableEq

/-- `SkillVolumeDeclaration`. -/
structure SkillVolumeDeclaration where
  id : Text
  scope : SkillVolumeScope
  mount_path : Text
  advertise : Bool
  mode : SkillVolumeMode

/-- `SkillResources`. -/
structure SkillResources where
  volumes : List SkillVolumeDeclaration

/-- `SkillMetadata`. -/
structure SkillMetadata where
  schema_version : UInt32
  resources : SkillResources

/-- `SkillVolumeResource`. -/
structure SkillVolumeResource where
  skill_id : Text
  resource_id : Text
  mount_path : Text
  advertise : Bool
  mode : SkillVolumeMode
  deriving DecidableEq

/-- `SkillError`, as far as resolving volumes returns it. -/
inductive VolumeError where
  | Skill (error : SkillError)
  | InvalidMetadata (skill_id message : Text)

/-! ## Mount paths -/

section MountPaths

variable (debug : Text → Text) (skill_id : Text)

/-- `validate_skill_mount_path`; `debug` is how a text is written with `{:?}`. -/
def validate_skill_mount_path (mount_path : Text) : Except VolumeError Unit :=
  let valid := mount_path.head? = some '/' && mount_path ≠ "/".toList
    && mount_path.getLast? ≠ some '/'
    && ((split '/' mount_path).drop 1).all fun component =>
      component ≠ [] && component ≠ ".".toList && component ≠ "..".toList
  if !valid then
    .error (.InvalidMetadata skill_id ("volume mount_path ".toList ++ debug mount_path
      ++ " must be a normalized absolute path".toList))
  else if RESERVED_PATHS.any fun reserved =>
      mount_path = reserved || (reserved ++ "/".toList).isPrefixOf mount_path then
    .error (.InvalidMetadata skill_id ("volume mount_path ".toList ++ debug mount_path
      ++ " overlaps a reserved kernel path".toList))
  else .ok ()

/-- The loop over the declarations of `skill_volume_resources`. -/
def declared_resources (resource_ids mount_paths : List Text) :
    List SkillVolumeDeclaration → Except VolumeError (List SkillVolumeResource)
  | [] => .ok []
  | declaration :: rest =>
    if !is_valid_skill_id declaration.id then
      .error (.InvalidMetadata skill_id ("invalid volume resource id ".toList ++ debug declaration.id))
    else if declaration.id ∈ resource_ids then
      .error (.InvalidMetadata skill_id ("duplicate volume resource id ".toList ++ debug declaration.id))
    else do
      validate_skill_mount_path debug skill_id declaration.mount_path
      if declaration.mount_path ∈ mount_paths then
        .error (.InvalidMetadata skill_id
          ("duplicate volume mount_path ".toList ++ debug declaration.mount_path))
      else do
        let resources ← declared_resources (declaration.id :: resource_ids)
          (declaration.mount_path :: mount_paths) rest
        .ok (⟨skill_id, declaration.id, declaration.mount_path, declaration.advertise,
          declaration.mode⟩ :: resources)

end MountPaths

/-! ## Volumes of skills -/

section Resolving

variable (debug : Text → Text) (from_str : Text → Except String SkillMetadata) (t : Tree)

/-- The metadata of a skill, if it has any. -/
def skill_metadata (skill_id : Text) : Except VolumeError (Option SkillMetadata) :=
  let metadata_path := skill_path skill_id ++ [SKILL_METADATA_FILE]
  if !t.is_file metadata_path then .ok none
  else
    match t.read metadata_path with
    | .error source => .error (.Skill (.Io "read skill metadata" metadata_path source))
    | .ok metadata_content =>
      match from_str metadata_content with
      | .error source => .error (.Skill (.Json "parse skill metadata" metadata_path source))
      | .ok metadata => .ok (some metadata)

/-- `skill_volume_resources` of a skill in the skills directory. -/
def skill_volume_resources (skill_id : Text) : Except VolumeError (List SkillVolumeResource) := do
  match ← skill_metadata from_str t skill_id with
  | none => .ok []
  | some metadata =>
    if metadata.schema_version ≠ 1 then
      .error (.InvalidMetadata skill_id ("unsupported schema_version ".toList
        ++ decimal metadata.schema_version.toNat ++ "; expected 1".toList))
    else declared_resources debug skill_id [] [] metadata.resources.volumes

/-- The inner loop of `resolve_volume_resources`: the mount paths after a skill's volumes. -/
def claim_mount_paths (skill_id : Text) (mount_paths : List Text) :
    List SkillVolumeResource → Except VolumeError (List Text)
  | [] => .ok mount_paths
  | resource :: rest =>
    if resource.mount_path ∈ mount_paths then
      .error (.InvalidMetadata skill_id ("volume mount path ".toList ++ debug resource.mount_path
        ++ " conflicts with another enabled skill".toList))
    else claim_mount_paths skill_id (resource.mount_path :: mount_paths) rest

/-- The loop of `resolve_volume_resources`. -/
def resolve_from (service : SkillsService) (mount_paths : List Text) :
    List Text → Except VolumeError (List SkillVolumeResource)
  | [] => .ok []
  | skill_id :: rest =>
    if !is_valid_skill_id skill_id then .error (.Skill (.InvalidSkillId skill_id))
    else if !service.is_builtin skill_id then resolve_from service mount_paths rest
    else do
      let resources ← skill_volume_resources debug from_str t skill_id
      let mount_paths ← claim_mount_paths debug skill_id mount_paths resources
      let later ← resolve_from service mount_paths rest
      .ok (resources ++ later)

/-- `SkillsService::resolve_volume_resources`. -/
def SkillsService.resolve_volume_resources (service : SkillsService) (skill_ids : List Text) :
    Except VolumeError (List SkillVolumeResource) :=
  resolve_from debug from_str t service [] skill_ids

/-- The mount paths that the enabled skills of the host declare. -/
def declared_mount_paths (service : SkillsService) (skill_ids : List Text) : List Text :=
  skill_ids.flatMap fun skill_id =>
    if service.is_builtin skill_id then
      match skill_metadata from_str t skill_id with
      | .ok (some metadata) => metadata.resources.volumes.map (·.mount_path)
      | _ => []
    else []

end Resolving

/-! ## Places -/

/-- The place of an absolute path: its names from the root. -/
def place (path : Text) : Path := (split '/' path).drop 1

/-- One path is the other, or above it, or below it. -/
def Overlap (a b : Text) : Prop := place a <+: place b ∨ place b <+: place a

/-- No mount hides or is hidden: by a reserved path, or by another mount. -/
structure NoShadow (mount_paths : List Text) : Prop where
  reserved : ∀ mount_path ∈ mount_paths, ∀ reserved ∈ RESERVED_PATHS, ¬Overlap mount_path reserved
  mounts : mount_paths.Pairwise fun a b => ¬Overlap a b

/-- No path is above a reserved path, and none is above another of them. -/
structure NoneAbove (mount_paths : List Text) : Prop where
  reserved : ∀ mount_path ∈ mount_paths, ∀ reserved ∈ RESERVED_PATHS,
    ¬FileTree.Above (place mount_path) (place reserved)
  mounts : ∀ a ∈ mount_paths, ∀ b ∈ mount_paths, ¬FileTree.Above (place a) (place b)

theorem split_of_absolute {path : Text} (h : path.head? = some '/') :
    split '/' path = [] :: place path := by
  cases path with
  | nil => cases h
  | cons c rest =>
    obtain rfl : c = '/' := Option.some.inj h
    have hsplit : split '/' ([] ++ '/' :: rest) = split '/' [] ++ split '/' rest :=
      List.splitOn_append_cons_self [] rest
    have hnil : split '/' [] = [[]] := List.splitOn_nil '/'
    rw [List.nil_append, hnil, List.singleton_append] at hsplit
    unfold place
    rw [hsplit]
    rfl

variable {a b : Text}

theorem place_injective (ha : a.head? = some '/') (hb : b.head? = some '/')
    (h : place a = place b) : a = b := by
  have hsplit : split '/' a = split '/' b := by rw [split_of_absolute ha, split_of_absolute hb, h]
  rw [← join_split '/' a, hsplit, join_split]

theorem starts_with_iff (ha : a.head? = some '/') (hb : b.head? = some '/') :
    (a ++ "/".toList).isPrefixOf b = true ↔ FileTree.Above (place a) (place b) := by
  rw [List.isPrefixOf_iff_prefix]
  constructor
  · rintro ⟨rest, rfl⟩
    have hsplit : split '/' (a ++ '/' :: rest) = split '/' a ++ split '/' rest :=
      List.splitOn_append_cons_self a rest
    have hplace : place (a ++ '/' :: rest) = place a ++ split '/' rest := by
      unfold place
      rw [hsplit, split_of_absolute ha]
      rfl
    have hshape : a ++ "/".toList ++ rest = a ++ '/' :: rest := by simp
    rw [hshape, hplace]
    exact ⟨List.prefix_append _ _, fun heq => split_ne_nil '/' rest (List.self_eq_append_right.1 heq)⟩
  · rintro ⟨⟨more, hmore⟩, hne⟩
    have hmore_ne : more ≠ [] := by
      rintro rfl
      exact hne (by rw [← hmore, List.append_nil])
    have hparts : ∀ p ∈ more, '/' ∉ p := by
      intro p hp
      refine not_mem_of_mem_split (t := b) ?_
      rw [split_of_absolute hb, ← hmore]
      exact List.mem_cons_of_mem _ (List.mem_append_right _ hp)
    have hsplit : split '/' (a ++ '/' :: join ['/'] more) = split '/' b := by
      have happend : split '/' (a ++ '/' :: join ['/'] more)
          = split '/' a ++ split '/' (join ['/'] more) := List.splitOn_append_cons_self a _
      rw [happend, split_join hmore_ne hparts, split_of_absolute ha, split_of_absolute hb, ← hmore]
      rfl
    refine ⟨join ['/'] more, ?_⟩
    rw [← join_split '/' b, ← hsplit, join_split]
    simp

theorem overlap_iff (ha : a.head? = some '/') (hb : b.head? = some '/') :
    Overlap a b ↔ a = b ∨ FileTree.Above (place a) (place b) ∨ FileTree.Above (place b) (place a) := by
  unfold Overlap FileTree.Above
  constructor
  · intro h
    by_cases heq : place a = place b
    · exact Or.inl (place_injective ha hb heq)
    · rcases h with h | h
      · exact Or.inr (Or.inl ⟨h, heq⟩)
      · exact Or.inr (Or.inr ⟨h, Ne.symm heq⟩)
  · rintro (rfl | h | h)
    · exact Or.inl (List.prefix_refl _)
    · exact Or.inl h.1
    · exact Or.inr h.1

/-! ## What is accepted -/

theorem absolute_of_reserved : ∀ reserved ∈ RESERVED_PATHS, reserved.head? = some '/' := by decide

/-- A mount path is absolute, and neither is a reserved path nor lies below one. -/
structure Accepted (mount_path : Text) : Prop where
  absolute : mount_path.head? = some '/'
  reserved : ∀ reserved ∈ RESERVED_PATHS,
    mount_path ≠ reserved ∧ ¬FileTree.Above (place reserved) (place mount_path)

section Spec

variable {debug : Text → Text} {from_str : Text → Except String SkillMetadata} {t : Tree}
  {service : SkillsService} {skill_id : Text}

theorem accepted_of_validate {mount_path : Text}
    (h : validate_skill_mount_path debug skill_id mount_path = .ok ()) : Accepted mount_path := by
  unfold validate_skill_mount_path at h
  dsimp only at h
  split at h
  · cases h
  · rename_i hvalid
    split at h
    · cases h
    · rename_i hreserved
      rw [Bool.not_eq_true, Bool.not_eq_false'] at hvalid
      simp only [Bool.and_eq_true, decide_eq_true_eq] at hvalid
      have habsolute : mount_path.head? = some '/' := hvalid.1.1.1
      refine ⟨habsolute, fun reserved hmem => ?_⟩
      rw [List.any_eq_true, not_exists] at hreserved
      have hnot := hreserved reserved
      rw [not_and, Bool.or_eq_true, not_or, decide_eq_true_eq,
        starts_with_iff (absolute_of_reserved reserved hmem) habsolute] at hnot
      exact hnot hmem

variable {resources : List SkillVolumeResource}

/-- The volumes of a skill are those it declares, with different mount paths. -/
theorem declared_resources_ok {declarations : List SkillVolumeDeclaration}
    {resource_ids mount_paths : List Text}
    (h : declared_resources debug skill_id resource_ids mount_paths declarations = .ok resources) :
    resources.map (·.mount_path) = declarations.map (·.mount_path)
      ∧ ∀ resource ∈ resources, Accepted resource.mount_path := by
  induction declarations generalizing resource_ids mount_paths resources with
  | nil =>
    obtain rfl := Except.ok.inj h
    exact ⟨rfl, by simp⟩
  | cons declaration rest ih =>
    rw [declared_resources] at h
    split at h
    · cases h
    split at h
    · cases h
    cases hvalid : validate_skill_mount_path debug skill_id declaration.mount_path with
    | error e =>
      rw [hvalid] at h
      cases h
    | ok u =>
      rw [hvalid] at h
      simp only [bind, Except.bind] at h
      split at h
      · cases h
      cases hrest : declared_resources debug skill_id (declaration.id :: resource_ids)
          (declaration.mount_path :: mount_paths) rest with
      | error e =>
        rw [hrest] at h
        cases h
      | ok later =>
        rw [hrest] at h
        obtain rfl := Except.ok.inj h
        obtain ⟨hpaths, haccepted⟩ := ih hrest
        refine ⟨by rw [List.map_cons, List.map_cons, hpaths], ?_⟩
        rw [List.forall_mem_cons]
        exact ⟨accepted_of_validate hvalid, haccepted⟩

theorem skill_volume_resources_ok (hbuiltin : service.is_builtin skill_id = true)
    (h : skill_volume_resources debug from_str t skill_id = .ok resources) :
    resources.map (·.mount_path) = declared_mount_paths from_str t service [skill_id]
      ∧ ∀ resource ∈ resources, Accepted resource.mount_path := by
  unfold skill_volume_resources at h
  unfold declared_mount_paths
  rw [List.flatMap_cons, List.flatMap_nil, List.append_nil, if_pos hbuiltin]
  cases hmetadata : skill_metadata from_str t skill_id with
  | error e =>
    rw [hmetadata] at h
    cases h
  | ok metadata =>
    rw [hmetadata] at h
    cases metadata with
    | none =>
      obtain rfl := Except.ok.inj h
      exact ⟨rfl, by simp⟩
    | some metadata =>
      simp only [bind, Except.bind] at h
      split at h
      · cases h
      · exact declared_resources_ok h

/-- The mount paths of a skill differ from each other and from those before. -/
theorem claim_mount_paths_ok {mount_paths after : List Text}
    (h : claim_mount_paths debug skill_id mount_paths resources = .ok after) :
    (resources.map (·.mount_path)).Nodup
      ∧ (∀ path ∈ resources.map (·.mount_path), path ∉ mount_paths)
      ∧ ∀ path, path ∈ after ↔ path ∈ resources.map (·.mount_path) ∨ path ∈ mount_paths := by
  induction resources generalizing mount_paths with
  | nil =>
    obtain rfl := Except.ok.inj h
    simp
  | cons resource rest ih =>
    rw [claim_mount_paths] at h
    split at h
    · cases h
    · rename_i hnew
      obtain ⟨hnodup, hfresh, hafter⟩ := ih h
      refine ⟨?_, ?_, fun path => ?_⟩
      · rw [List.map_cons, List.nodup_cons]
        exact ⟨fun hmem => hfresh _ hmem (List.mem_cons_self ..), hnodup⟩
      · rw [List.map_cons, List.forall_mem_cons]
        exact ⟨hnew, fun path hpath hmem => hfresh path hpath (List.mem_cons_of_mem _ hmem)⟩
      · rw [hafter, List.map_cons, List.mem_cons, List.mem_cons]
        tauto

/-- The mount paths that are resolved are those declared by the skills of the host, all
different and each accepted. -/
theorem resolve_from_ok {skill_ids mount_paths : List Text}
    (h : resolve_from debug from_str t service mount_paths skill_ids = .ok resources) :
    resources.map (·.mount_path) = declared_mount_paths from_str t service skill_ids
      ∧ (∀ resource ∈ resources, Accepted resource.mount_path)
      ∧ (resources.map (·.mount_path)).Nodup
      ∧ ∀ path ∈ resources.map (·.mount_path), path ∉ mount_paths := by
  induction skill_ids generalizing mount_paths resources with
  | nil =>
    obtain rfl := Except.ok.inj h
    exact ⟨rfl, by simp, List.nodup_nil, by simp⟩
  | cons skill_id rest ih =>
    have hdeclared : declared_mount_paths from_str t service (skill_id :: rest)
        = declared_mount_paths from_str t service [skill_id]
          ++ declared_mount_paths from_str t service rest := by
      unfold declared_mount_paths
      rw [List.flatMap_cons, List.flatMap_cons, List.flatMap_nil, List.append_nil]
    rw [resolve_from] at h
    split at h
    · cases h
    cases hbuiltin : service.is_builtin skill_id with
    | false =>
      rw [hbuiltin] at h
      have hnone : declared_mount_paths from_str t service [skill_id] = [] := by
        unfold declared_mount_paths
        rw [List.flatMap_cons, List.flatMap_nil, hbuiltin]
        rfl
      rw [hdeclared, hnone, List.nil_append]
      exact ih h
    | true =>
      rw [hbuiltin] at h
      simp only [Bool.not_true, Bool.false_eq_true, if_false, bind, Except.bind] at h
      cases hvolumes : skill_volume_resources debug from_str t skill_id with
      | error e =>
        rw [hvolumes] at h
        cases h
      | ok own =>
        rw [hvolumes] at h
        dsimp only at h
        cases hclaim : claim_mount_paths debug skill_id mount_paths own with
        | error e =>
          rw [hclaim] at h
          cases h
        | ok after =>
          rw [hclaim] at h
          dsimp only at h
          cases hlater : resolve_from debug from_str t service after rest with
          | error e =>
            rw [hlater] at h
            cases h
          | ok later =>
            rw [hlater] at h
            obtain rfl := Except.ok.inj h
            obtain ⟨hown, hown_accepted⟩ := skill_volume_resources_ok hbuiltin hvolumes
            obtain ⟨hnodup, hfresh, hafter⟩ := claim_mount_paths_ok hclaim
            obtain ⟨hpaths, haccepted, hlater_nodup, hlater_fresh⟩ := ih hlater
            refine ⟨?_, ?_, ?_, ?_⟩
            · rw [List.map_append, hown, hpaths, hdeclared]
            · exact List.forall_mem_append.2 ⟨hown_accepted, haccepted⟩
            · rw [List.map_append, List.nodup_append]
              refine ⟨hnodup, hlater_nodup, fun a ha b hb heq => ?_⟩
              exact hlater_fresh b hb ((hafter b).2 (Or.inl (heq ▸ ha)))
            · rw [List.map_append]
              refine List.forall_mem_append.2 ⟨hfresh, fun path hpath hmem => ?_⟩
              exact hlater_fresh path hpath ((hafter path).2 (Or.inr hmem))

/-- Accepted mount paths that differ shadow nothing exactly if none is above a reserved
path or another of them. -/
theorem noShadow_iff {mount_paths : List Text} (haccepted : ∀ path ∈ mount_paths, Accepted path)
    (hnodup : mount_paths.Nodup) : NoShadow mount_paths ↔ NoneAbove mount_paths := by
  constructor
  · intro h
    refine ⟨fun path hpath reserved hmem habove => ?_, fun a ha b hb habove => ?_⟩
    · exact h.reserved path hpath reserved hmem (Or.inl habove.1)
    · have hne : a ≠ b := by
        rintro rfl
        exact habove.2 rfl
      have hsymm : Std.Symm fun a b => ¬Overlap a b := ⟨fun _ _ hnot hover => hnot hover.symm⟩
      exact h.mounts.forall ha hb hne (Or.inl habove.1)
  · intro h
    refine ⟨fun path hpath reserved hmem hover => ?_, ?_⟩
    · have hpath_ok := haccepted path hpath
      rcases (overlap_iff hpath_ok.absolute
        (absolute_of_reserved reserved hmem)).1 hover with heq | habove | hbelow
      · exact (hpath_ok.reserved reserved hmem).1 heq
      · exact h.reserved path hpath reserved hmem habove
      · exact (hpath_ok.reserved reserved hmem).2 hbelow
    · refine List.Pairwise.imp_of_mem (fun {a b} ha hb hne hover => ?_) hnodup
      rcases (overlap_iff (haccepted a ha).absolute
        (haccepted b hb).absolute).1 hover with heq | habove | hbelow
      · exact hne heq
      · exact h.mounts a ha b hb habove
      · exact h.mounts b hb a ha hbelow

end Spec

/-- **The volumes of enabled skills** shadow neither each other nor a reserved path exactly
if no mount path that is declared is above a reserved path or above another. -/
theorem resolved_mounts_iff (debug : Text → Text) (from_str : Text → Except String SkillMetadata)
    (t : Tree) (service : SkillsService) (skill_ids : List Text) (resources : List SkillVolumeResource)
    (h : service.resolve_volume_resources debug from_str t skill_ids = .ok resources) :
    NoShadow (resources.map (·.mount_path))
      ↔ NoneAbove (declared_mount_paths from_str t service skill_ids) := by
  obtain ⟨hpaths, haccepted, hnodup, -⟩ := resolve_from_ok h
  rw [← hpaths]
  refine noShadow_iff (fun path hpath => ?_) hnodup
  obtain ⟨resource, hmem, rfl⟩ := List.mem_map.1 hpath
  exact haccepted resource hmem

/-! ## A mount above a reserved path -/

/-- The metadata of a skill with one volume. -/
def volume_json (mount_path : String) : Text :=
  ("\x7b\"schema_version\":1,\"resources\":\x7b\"volumes\":[\x7b\"id\":\"data\","
    ++ "\"scope\":\"installation\",\"mount_path\":\"" ++ mount_path
    ++ "\",\"mode\":\"rw\"\x7d]\x7d\x7d").toList

/-- It is read as this. -/
def one_volume (mount_path : String) (content : Text) : Except String SkillMetadata :=
  if content = volume_json mount_path then
    .ok ⟨1, ⟨[⟨"data".toList, .Installation, mount_path.toList, false, .Rw⟩]⟩⟩
  else .error "expected value at line 1 column 1"

/-- The skills directory with the skill `memory` that declares the volume. -/
def memory_skill (mount_path : String) : Tree :=
  (no_skills.put (fun _ => true) ["memory".toList, SKILL_METADATA_FILE]
    (volume_json mount_path)).toOption.getD no_skills

/-- A host that comes with the skill `memory`. -/
def with_memory : SkillsService := ⟨["memory".toList]⟩

/-- The volume it gets. -/
def memory_volume (mount_path : String) : SkillVolumeResource :=
  ⟨"memory".toList, "data".toList, mount_path.toList, false, .Rw⟩

theorem resolve_memory_volume {mount_path : String}
    (h : (with_memory.resolve_volume_resources id (one_volume mount_path) (memory_skill mount_path)
      ["memory".toList]).toOption = some [memory_volume mount_path]) :
    with_memory.resolve_volume_resources id (one_volume mount_path) (memory_skill mount_path)
      ["memory".toList] = .ok [memory_volume mount_path] := by
  generalize with_memory.resolve_volume_resources id (one_volume mount_path) (memory_skill mount_path)
    ["memory".toList] = result at h ⊢
  cases result with
  | error e => cases h
  | ok resources => exact congrArg Except.ok (Option.some.inj h)

theorem resolved_mounts_memory :
    NoShadow [("/var/lib/memory".toList : Text)]
      ↔ NoneAbove (declared_mount_paths (one_volume "/var/lib/memory") (memory_skill "/var/lib/memory")
          with_memory ["memory".toList]) :=
  resolved_mounts_iff id (one_volume "/var/lib/memory") (memory_skill "/var/lib/memory") with_memory
    ["memory".toList] _ (resolve_memory_volume (by decide +kernel))

/-- **A mount at `/root`** is accepted, and hides `/root/.copilot`. -/
theorem mount_above_reserved_path :
    with_memory.resolve_volume_resources id (one_volume "/root") (memory_skill "/root") ["memory".toList]
        = .ok [memory_volume "/root"]
      ∧ place "/root".toList <+: place "/root/.copilot".toList
      ∧ ¬NoShadow [("/root".toList : Text)] :=
  ⟨resolve_memory_volume (by decide +kernel), by decide,
    fun h => h.reserved _ (List.mem_cons_self ..) "/root/.copilot".toList (by decide) (Or.inl (by decide))⟩

end AgentSpace.Skills
