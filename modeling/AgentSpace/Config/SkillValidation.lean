/-
The checks of a skill's content: `client_service_rs/src/config/skill_validation.rs`.

They are meant to mirror the checks of the agent host. What they accept has file paths
that the host accepts too, so creating the skill there can fail only when the files are
written.
-/
import AgentSpace.Config.Document
import AgentSpace.Skills.Creation

set_option autoImplicit false

namespace AgentSpace.Config

open Text Lib

/-! ## Data -/

/-- `SKILL_MARKDOWN_FILE`. -/
def SKILL_MARKDOWN_FILE : Text := "SKILL.md".toList

/-- `SKILL_METADATA_FILE`. -/
def SKILL_METADATA_FILE : Text := "agentspace.json".toList

/-- `RESERVED_MOUNT_PATHS`. -/
def RESERVED_MOUNT_PATHS : List Text :=
  ["/workspace".toList, "/root/.copilot".toList, "/mnt/all-skills".toList, "/skills".toList,
    "/root/.config/opencode/skills".toList]

/-- `SkillContentIssue`. -/
structure SkillContentIssue where
  code : Text
  message : Text
  field : Option Text
  deriving DecidableEq

/-- `SkillVolumeScope`. -/
inductive SkillVolumeScope where
  | Installation

/-- `SkillVolumeMode`. -/
inductive SkillVolumeMode where
  | Ro
  | Rw

/-- `SkillVolumeDeclaration`. -/
structure SkillVolumeDeclaration where
  id : Text
  scope : SkillVolumeScope
  mount_path : Text
  advertise : Bool
  mode : SkillVolumeMode

/-- `SkillResources`. -/
structure SkillResources where
  volumes : List SkillVolumeDeclaration

/-- `SkillMetadata`. -/
structure SkillMetadata where
  schema_version : UInt32
  resources : SkillResources

/-! ## Paths -/

/-- The loop of `is_safe_relative_path`. -/
def safe_components (has_file_component : Bool) : List Text → Bool
  | [] => has_file_component
  | component :: rest =>
    if component = "..".toList then false
    else if component = [] ∨ component = ".".toList then safe_components has_file_component rest
    else safe_components true rest

/-- The drive form of an absolute path, such as `C:foo`. -/
def is_drive_absolute (path : Text) : Bool :=
  match split_once ':' path with
  | some (drive, _) => utf8_len drive = 1 && drive.all Char.isAlpha
  | none => false

/-- `is_safe_relative_path`; an absolute path is one that starts with a slash. -/
def is_safe_relative_path (path : Text) : Bool :=
  if path = [] ∨ path.head? = some '/' ∨ '\\' ∈ path then false
  else if is_drive_absolute path then false
  else safe_components false (split '/' path)

/-- `is_valid_mount_path`. -/
def is_valid_mount_path (mount_path : Text) : Bool :=
  let normalized := mount_path.head? = some '/' && mount_path ≠ "/".toList
    && mount_path.getLast? ≠ some '/'
    && ((split '/' mount_path).drop 1).all fun component =>
      component ≠ [] && component ≠ ".".toList && component ≠ "..".toList
  if !normalized then false
  else !RESERVED_MOUNT_PATHS.any fun reserved =>
    mount_path = reserved || (reserved ++ "/".toList).isPrefixOf mount_path

/-! ## Content -/

section Content

variable (debug : Text → Text) (from_str : Text → Except Text SkillMetadata) (skill_id : Text)

/-- The field of an issue with the metadata. -/
def metadata_field : Option Text :=
  some ("skills/".toList ++ skill_id ++ "/files/".toList ++ SKILL_METADATA_FILE)

/-- The loop over the volumes of `validate_skill_content`. -/
def validate_volumes (resource_ids : List Text) (issues : List SkillContentIssue)
    (mount_paths : TextMap) : List SkillVolumeDeclaration → List SkillContentIssue × TextMap
  | [] => (issues, mount_paths)
  | volume :: rest =>
    let issues := if volume.id ∈ resource_ids then
        issues ++ [⟨"invalid_skill_metadata".toList, "skill ".toList ++ debug skill_id
          ++ " declares duplicate volume resource id ".toList ++ debug volume.id,
          metadata_field skill_id⟩]
      else issues
    let resource_ids := volume.id :: resource_ids
    if !is_valid_mount_path volume.mount_path then
      validate_volumes resource_ids (issues ++ [⟨"invalid_skill_mount_path".toList,
        "skill ".toList ++ debug skill_id ++ " volume mount path ".toList
          ++ debug volume.mount_path
          ++ " must be a normalized absolute path that does not overlap a reserved kernel path".toList,
        metadata_field skill_id⟩]) mount_paths rest
    else
      let issues := match mount_paths[volume.mount_path]? with
        | some previous => issues ++ [⟨"skill_mount_path_collision".toList,
            "skill ".toList ++ debug skill_id ++ " volume mount path ".toList
              ++ debug volume.mount_path ++ " collides with skill ".toList ++ debug previous,
            metadata_field skill_id⟩]
        | none => issues
      validate_volumes resource_ids issues (mount_paths.insert volume.mount_path skill_id) rest

/-- `validate_skill_content`: the issues and the mount paths after it. -/
def validate_skill_content (issues : List SkillContentIssue) (files : TextMap)
    (mount_paths : TextMap) : List SkillContentIssue × TextMap :=
  let issues := if SKILL_MARKDOWN_FILE ∉ files then
      issues ++ [⟨"missing_skill_markdown".toList, "skill ".toList ++ debug skill_id
        ++ " must contain a ".toList ++ SKILL_MARKDOWN_FILE ++ " document".toList,
        some ("skills/".toList ++ skill_id ++ "/files/".toList ++ SKILL_MARKDOWN_FILE)⟩]
    else issues
  let issues := files.keys.foldl (fun issues path =>
    if !is_safe_relative_path path then
      issues ++ [⟨"invalid_skill_file_path".toList, "skill ".toList ++ debug skill_id
        ++ " file path ".toList ++ debug path ++ " is not a safe relative path".toList,
        some ("skills/".toList ++ skill_id ++ "/files".toList)⟩]
    else issues) issues
  match files[SKILL_METADATA_FILE]? with
  | none => (issues, mount_paths)
  | some metadata_content =>
    match from_str metadata_content with
    | .error error =>
      (issues ++ [⟨"invalid_skill_metadata".toList, "skill ".toList ++ debug skill_id
        ++ " ".toList ++ SKILL_METADATA_FILE ++ " is invalid: ".toList ++ error,
        metadata_field skill_id⟩], mount_paths)
    | .ok metadata =>
      if metadata.schema_version ≠ 1 then
        (issues ++ [⟨"invalid_skill_metadata".toList, "skill ".toList ++ debug skill_id
          ++ " ".toList ++ SKILL_METADATA_FILE ++ " has unsupported schemaVersion ".toList
          ++ decimal metadata.schema_version.toNat ++ "; expected 1".toList,
          metadata_field skill_id⟩], mount_paths)
      else validate_volumes debug skill_id [] issues mount_paths metadata.resources.volumes

end Content

/-! ## What is accepted -/

section Accepted

variable {debug : Text → Text} {from_str : Text → Except Text SkillMetadata} {skill_id : Text}

theorem safe_components_iff (has_file_component : Bool) (parts : List Text) :
    safe_components has_file_component parts = true ↔ "..".toList ∉ parts
      ∧ (has_file_component = true ∨ ∃ component ∈ parts, component ≠ [] ∧ component ≠ ".".toList) := by
  induction parts generalizing has_file_component with
  | nil => simp [safe_components]
  | cons component rest ih =>
    rw [safe_components, List.mem_cons, List.exists_mem_cons_iff]
    by_cases hup : component = "..".toList
    · simp [hup]
    · have hup' : ¬"..".toList = component := fun h => hup h.symm
      rw [if_neg hup]
      by_cases hempty : component = [] ∨ component = ".".toList
      · have hnot : ¬(component ≠ [] ∧ component ≠ ".".toList) := fun h => hempty.elim h.1 h.2
        simp only [if_pos hempty, ih, hup', hnot, false_or]
      · have hfile : component ≠ [] ∧ component ≠ ".".toList := not_or.1 hempty
        rw [if_neg hempty, ih]
        simp only [hup', hfile, false_or, true_or, or_true, and_true, ne_eq, not_false_eq_true]

theorem is_valid_file_path_of_safe {path : Text} (h : is_safe_relative_path path = true) :
    Skills.is_valid_file_path path = true := by
  unfold is_safe_relative_path at h
  split_ifs at h with hrefused hdrive
  obtain ⟨hup, hfound⟩ := (safe_components_iff false (split '/' path)).1 h
  have hfile : ∃ component ∈ split '/' path, component ≠ [] ∧ component ≠ ".".toList :=
    hfound.resolve_left Bool.false_ne_true
  rw [Skills.is_valid_file_path_iff]
  refine ⟨fun hhead => hrefused (Or.inr (Or.inl hhead)), hup, ?_⟩
  obtain ⟨component, hmem, hkeep⟩ := hfile
  refine List.ne_nil_of_mem (List.mem_filter.2 ⟨hmem, ?_⟩)
  simpa using hkeep

theorem prefix_validate_volumes (resource_ids : List Text) (issues : List SkillContentIssue)
    (mount_paths : TextMap) (volumes : List SkillVolumeDeclaration) :
    issues <+: (validate_volumes debug skill_id resource_ids issues mount_paths volumes).1 := by
  induction volumes generalizing resource_ids issues mount_paths with
  | nil => exact List.prefix_refl _
  | cons volume rest ih =>
    rw [validate_volumes]
    dsimp only
    split_ifs <;> refine List.IsPrefix.trans ?_ (ih _ _ _)
    · rw [List.append_assoc]
      exact List.prefix_append _ _
    · exact List.prefix_append _ _
    · split
      · rw [List.append_assoc]
        exact List.prefix_append _ _
      · exact List.prefix_append _ _
    · split
      · exact List.prefix_append _ _
      · exact List.prefix_refl _

theorem foldl_issues_eq_nil {α : Type} {issue : α → SkillContentIssue} {refused : α → Bool}
    {items : List α} {issues : List SkillContentIssue}
    (h : items.foldl (fun issues a => if refused a then issues ++ [issue a] else issues) issues = []) :
    issues = [] ∧ ∀ a ∈ items, refused a = false := by
  induction items generalizing issues with
  | nil => exact ⟨h, by simp⟩
  | cons a rest ih =>
    obtain ⟨hhead, hrest⟩ := ih h
    cases hrefused : refused a with
    | true => simp [hrefused] at hhead
    | false =>
      dsimp only at hhead
      rw [hrefused] at hhead
      exact ⟨hhead, List.forall_mem_cons.2 ⟨hrefused, hrest⟩⟩

/-- **What is accepted** has a `SKILL.md`, and only file paths that the agent host takes as
valid. -/
theorem valid_of_accepted {files mount_paths : TextMap}
    (h : (validate_skill_content debug from_str skill_id [] files mount_paths).1 = []) :
    SKILL_MARKDOWN_FILE ∈ files ∧ ∀ path ∈ files, Skills.is_valid_file_path path = true := by
  unfold validate_skill_content at h
  dsimp only at h
  generalize hissues : files.keys.foldl _ _ = issues at h
  -- an issue that is found is not taken back
  have hnone : issues = [] := by
    split at h
    · exact h
    · split at h
      · exact (List.append_eq_nil_iff.1 h).1
      · split_ifs at h
        · exact (List.append_eq_nil_iff.1 h).1
        · refine List.prefix_nil.1 ?_
          rw [← h]
          exact prefix_validate_volumes _ _ _ _
  obtain ⟨hmarkdown, hpaths⟩ := foldl_issues_eq_nil (hissues.trans hnone)
  refine ⟨?_, fun path hpath => is_valid_file_path_of_safe ?_⟩
  · by_contra hmissing
    rw [if_pos hmissing] at hmarkdown
    cases hmarkdown
  · simpa using hpaths path (Std.ExtTreeMap.mem_keys.2 hpath)

end Accepted

/-! ## A file below a file -/

/-- A reader of metadata that takes no document. -/
def no_metadata : Text → Except Text SkillMetadata := fun _ => .error "EOF while parsing".toList

/-- A file, and another whose path goes through it. -/
def file_below_a_file : TextMap :=
  Std.ExtTreeMap.ofList [("SKILL.md".toList, "# Notes".toList), ("SKILL.md/more".toList, [])] compare

theorem ready_no_skills (skill_id : Text) : Skills.Ready Skills.no_skills skill_id := by
  refine ⟨Skills.fresh_no_skills skill_id, fun q _ content hfile => ?_⟩
  cases q with
  | nil => cases hfile
  | cons name rest => simp [Skills.no_skills, FileTree.get, Nodes.get] at hfile

end AgentSpace.Config
