/-
Loading a bundle: `config/bundle.rs`, behind the archive.

A bundle is a map from normalized relative paths to contents, which is what
`read_entries` makes of a zip archive. Its manifests are the candidates that lie in no
source directory, found by rounds that end (`discover_source_dirs_settled`).
-/
import AgentSpace.Config.Loader

set_option autoImplicit false

namespace AgentSpace.Config

open Text Serde

/-! ## Paths -/

/-- The last part of `rsplit`. -/
def last_part (c : Char) (t : Text) : Text := (split c t).getLastD []

/-- `eq_ignore_ascii_case`. -/
def eq_ignore_ascii_case (a b : Text) : Bool := a.map Char.toLower = b.map Char.toLower

/-- `is_yaml_path`. -/
def is_yaml_path (name : Text) : Bool :=
  let extension := last_part '.' (last_part '/' name)
  eq_ignore_ascii_case extension "yaml".toList || eq_ignore_ascii_case extension "yml".toList

/-- `MANIFEST_DIR_PREFIX`. -/
def MANIFEST_DIR_PREFIX : Text := "config/".toList

/-- `is_candidate_manifest`. -/
def is_candidate_manifest (path : Text) : Bool :=
  is_yaml_path path && (!path.contains '/' || MANIFEST_DIR_PREFIX.isPrefixOf path)

/-- `parent_dir`. -/
def parent_dir (path : Text) : Text := join ['/'] (split '/' path).dropLast

/-- `is_within`. -/
def is_within (path dir : Text) : Bool :=
  if dir = [] then false else path = dir || (dir ++ ['/']).isPrefixOf path

/-- The loop of `resolve_relative`. -/
def resolve_segments : List Text → List Text → Option (List Text)
  | segments, [] => some segments
  | segments, segment :: rest =>
    if segment = [] ∨ segment = ['.'] then resolve_segments segments rest
    else if segment = ['.', '.'] then
      if segments = [] then none else resolve_segments segments.dropLast rest
    else resolve_segments (segments ++ [segment]) rest

section Bundle

variable (yaml : Yaml) (debug : Text → Text)

/-- `resolve_relative`. -/
def resolve_relative (base_dir path : Text) : Except ConfigError Text :=
  if path.head? = some '/' then
    .error (.Bundle (some ("skill source path ".toList ++ debug path ++ " must be relative".toList)))
  else
    let combined := if base_dir = [] then path else base_dir ++ '/' :: path
    match resolve_segments [] (split '/' combined) with
    | some segments => .ok (join ['/'] segments)
    | none => .error (.Bundle (some ("skill source path ".toList ++ debug path
        ++ " escapes the bundle root".toList)))

/-- The path of a file relative to a resolved source, as the loop of `expand_source` finds
it, if the file is content of the source. -/
def relative_to (resolved name : Text) : Option Text :=
  let relative := if resolved = [] then some name else strip_prefix (resolved ++ ['/']) name
  relative.filter (· ≠ [])

/-- `expand_source`. -/
def expand_source (files : TextMap) (manifest_paths : List Text) (base_dir path : Text) :
    Except ConfigError TextMap := do
  let resolved ← resolve_relative debug base_dir path
  match files[resolved]? with
  | some contents => .ok (Std.ExtTreeMap.ofList [(last_part '/' resolved, contents)] compare)
  | none =>
    let collected := files.toList.filterMap fun entry =>
      if entry.1 ∈ manifest_paths then none
      else (relative_to resolved entry.1).map fun relative => (relative, entry.2)
    if collected = [] then
      .error (.Bundle (some ("skill source path ".toList ++ debug path ++ " (resolved to ".toList
        ++ debug resolved ++ ") matched no files in the bundle".toList)))
    else .ok (Std.ExtTreeMap.ofList collected compare)

/-! ## Source directories -/

/-- The skill manifest of a document whose files are to be resolved, and the path. -/
def source_manifest (value : Value) : Option (Standalone SkillSpec × Text) :=
  if value.is_null ∨ (get_field value "kind").bind Value.as_str ≠ some "Skill".toList
      ∨ (get_field value "apiVersion").bind Value.as_str ≠ some API_VERSION then none
  else (from_value value : Option (Standalone SkillSpec)).bind fun manifest =>
    match manifest.spec.files, manifest.spec.source with
    | none, some source => some (manifest, source.path)
    | _, _ => none

/-- The resolver of `declared_source_dirs`: it gives no files. -/
def noting_resolver (base_dir : Text) : SkillSourceResolver := fun path =>
  (resolve_relative debug base_dir path).map fun _ => ∅

/-- `declared_source_dirs`: the directories that the resolver is asked for are noted. -/
def declared_source_dirs (source base_dir : Text) : Except ConfigError (List Text) := do
  let _ ← merge_source yaml debug {} source (noting_resolver debug base_dir)
  .ok ((yaml.documents source).filterMap fun document =>
    document.toOption.bind fun value => (source_manifest value).bind fun (_, path) =>
      (resolve_relative debug base_dir path).toOption)

/-- The candidate lies in a source directory. -/
def is_excluded (source_dirs : List Text) (manifest_path : Text) : Bool :=
  source_dirs.any fun dir => is_within manifest_path dir

/-- The candidates that lie in no source directory. -/
def retained_manifests (source_dirs candidates : List Text) : List Text :=
  candidates.filter fun manifest_path => !is_excluded source_dirs manifest_path

/-- What a candidate declares, in its own directory. -/
def declared_by (files : TextMap) (manifest_path : Text) : Except ConfigError (List Text) :=
  match files[manifest_path]? with
  | none => .ok []
  | some source => declared_source_dirs yaml debug source (parent_dir manifest_path)

/-- One candidate in a round of `discover_source_dirs`: what it declares is added, unless
it lies in a source directory or does not parse. -/
def discover_one (files : TextMap) (source_dirs : List Text) (manifest_path : Text) : List Text :=
  if is_excluded source_dirs manifest_path then source_dirs
  else match declared_by yaml debug files manifest_path with
    | .error _ => source_dirs
    | .ok dirs => dirs.foldl (fun dirs dir => if dir ∈ dirs then dirs else dirs ++ [dir]) source_dirs

/-- One round over the candidates. -/
def discover_round (files : TextMap) (candidates source_dirs : List Text) : List Text :=
  candidates.foldl (discover_one yaml debug files) source_dirs

/-- The rounds, until one adds nothing. -/
def discover_loop (files : TextMap) (candidates : List Text) : ℕ → List Text → List Text
  | 0, source_dirs => source_dirs
  | fuel + 1, source_dirs =>
    let next := discover_round yaml debug files candidates source_dirs
    if next = source_dirs then source_dirs else discover_loop files candidates fuel next

/-- `discover_source_dirs`. As many rounds as there are candidates, and one more, are
enough. -/
def discover_source_dirs (files : TextMap) (candidates : List Text) : Except ConfigError (List Text) :=
  let source_dirs := discover_loop yaml debug files candidates (candidates.length + 1) []
  ((retained_manifests source_dirs candidates).mapM (declared_by yaml debug files)).map
    fun _ => source_dirs

/-! ## The bundle -/

/-- The candidates of a bundle, in the order of their paths. -/
def candidates_of (files : TextMap) : List Text := files.keys.filter is_candidate_manifest

/-- Pass 2 of `load_bundle`. -/
def merge_manifests (files : TextMap) (manifest_paths : List Text) :
    Except ConfigError DocumentAccumulator :=
  manifest_paths.foldlM (fun accumulator manifest_path =>
    match files[manifest_path]? with
    | none => .ok accumulator
    | some source => merge_source yaml debug accumulator source
        (expand_source debug files manifest_paths (parent_dir manifest_path))) {}

/-- `load_bundle`, of the files of the archive. -/
def load_bundle (files : TextMap) : Except ConfigError ConfigDocument :=
  let candidates := candidates_of files
  if candidates = [] then
    .error (.Bundle (some ("bundle contains no configuration manifests; place *.yaml/*.yml "
      ++ "documents at the bundle root or under a top-level config/ directory").toList))
  else do
    let source_dirs ← discover_source_dirs yaml debug files candidates
    let manifest_paths := retained_manifests source_dirs candidates
    if manifest_paths = [] then
      .error (.Bundle (some ("every candidate manifest lies inside a skill source directory; "
        ++ "no configuration documents remain").toList))
    else do
      let accumulator ← merge_manifests yaml debug files manifest_paths
      accumulator.finish

end Bundle

/-! ## The rounds come to an end -/

section Rounds

variable {yaml : Yaml} {debug : Text → Text} {files : TextMap}

theorem foldl_insert (dirs source_dirs : List Text) :
    let next := dirs.foldl (fun dirs dir => if dir ∈ dirs then dirs else dirs ++ [dir]) source_dirs
    (∀ dir, dir ∈ next ↔ dir ∈ source_dirs ∨ dir ∈ dirs)
      ∧ ((∀ dir ∈ dirs, dir ∈ source_dirs) → next = source_dirs) := by
  induction dirs generalizing source_dirs with
  | nil => exact ⟨fun dir => by simp, fun _ => rfl⟩
  | cons head rest ih =>
    rw [List.foldl_cons]
    obtain ⟨hmem, hnothing⟩ := ih (if head ∈ source_dirs then source_dirs
      else source_dirs ++ [head])
    refine ⟨fun dir => ?_, fun hall => ?_⟩
    · rw [hmem dir, List.mem_cons]
      split_ifs with hhead
      · refine ⟨fun h => h.imp_right .inr, ?_⟩
        rintro (h | rfl | h)
        · exact .inl h
        · exact .inl hhead
        · exact .inr h
      · rw [List.mem_append, List.mem_singleton, or_assoc]
    · have hhead : head ∈ source_dirs := hall head (by simp)
      simp only [if_pos hhead] at hnothing ⊢
      exact hnothing fun dir hdir => hall dir (List.mem_cons_of_mem _ hdir)

variable (yaml debug files) in
/-- The candidate declares a directory that is not known yet. -/
def pending (source_dirs : List Text) (manifest_path : Text) : Bool :=
  match declared_by yaml debug files manifest_path with
  | .error _ => false
  | .ok dirs => !dirs.all (· ∈ source_dirs)

theorem pending_mono {source_dirs next : List Text} (hkeeps : ∀ dir ∈ source_dirs, dir ∈ next)
    {manifest_path : Text} (h : pending yaml debug files next manifest_path = true) :
    pending yaml debug files source_dirs manifest_path = true := by
  unfold pending at h ⊢
  cases hdirs : declared_by yaml debug files manifest_path with
  | error e => rw [hdirs] at h; exact h
  | ok dirs =>
    rw [hdirs] at h
    simp only [Bool.not_eq_true', List.all_eq_false, decide_eq_true_eq] at h ⊢
    obtain ⟨dir, hdir, hnot⟩ := h
    exact ⟨dir, hdir, fun hmem => hnot (hkeeps dir hmem)⟩

variable (yaml debug files)

theorem discover_one_spec (source_dirs : List Text) (manifest_path : Text) :
    let next := discover_one yaml debug files source_dirs manifest_path
    (∀ dir ∈ source_dirs, dir ∈ next)
      ∧ (next = source_dirs ∨ pending yaml debug files source_dirs manifest_path = true
        ∧ pending yaml debug files next manifest_path = false) := by
  unfold discover_one pending
  by_cases hexcluded : is_excluded source_dirs manifest_path = true
  · rw [if_pos hexcluded]
    exact ⟨fun _ h => h, .inl rfl⟩
  · rw [if_neg hexcluded]
    cases hdirs : declared_by yaml debug files manifest_path with
    | error e => exact ⟨fun _ h => h, .inl rfl⟩
    | ok dirs =>
      obtain ⟨hmem, hnothing⟩ := foldl_insert dirs source_dirs
      refine ⟨fun dir hdir => (hmem dir).2 (.inl hdir), ?_⟩
      by_cases hall : ∀ dir ∈ dirs, dir ∈ source_dirs
      · exact .inl (hnothing hall)
      · right
        simp only [Bool.not_eq_true', Bool.not_eq_false', List.all_eq_false, List.all_eq_true,
          decide_eq_true_eq]
        push Not at hall
        exact ⟨hall, fun dir hdir => (hmem dir).2 (.inr hdir)⟩

theorem discover_round_spec (candidates source_dirs : List Text) :
    let next := discover_round yaml debug files candidates source_dirs
    (∀ dir ∈ source_dirs, dir ∈ next)
      ∧ (next = source_dirs ∨ ∃ manifest_path ∈ candidates,
          pending yaml debug files source_dirs manifest_path = true
            ∧ pending yaml debug files next manifest_path = false) := by
  induction candidates generalizing source_dirs with
  | nil => exact ⟨fun _ h => h, .inl rfl⟩
  | cons head rest ih =>
    unfold discover_round at ih ⊢
    rw [List.foldl_cons]
    obtain ⟨hkeeps, hone⟩ := discover_one_spec yaml debug files source_dirs head
    obtain ⟨hkeeps', hrest⟩ := ih (discover_one yaml debug files source_dirs head)
    refine ⟨fun dir hdir => hkeeps' dir (hkeeps dir hdir), ?_⟩
    rcases hone with hsame | ⟨hbefore, hafter⟩
    · rw [hsame] at hrest ⊢
      rcases hrest with hsame' | ⟨path, hpath, hpending⟩
      · exact .inl hsame'
      · exact .inr ⟨path, List.mem_cons_of_mem _ hpath, hpending⟩
    · refine .inr ⟨head, by simp, hbefore, ?_⟩
      by_contra hnot
      have hpending := pending_mono hkeeps' (Bool.eq_true_of_not_eq_false hnot)
      rw [hafter] at hpending
      cases hpending

/-- Each round that adds a directory leaves fewer candidates pending, so as many rounds as
candidates are pending, and one more, are enough. -/
theorem discover_loop_settled (candidates : List Text) (fuel : ℕ) (source_dirs : List Text)
    (hfuel : candidates.countP (pending yaml debug files source_dirs) < fuel) :
    let settled := discover_loop yaml debug files candidates fuel source_dirs
    discover_round yaml debug files candidates settled = settled := by
  induction fuel generalizing source_dirs with
  | zero => omega
  | succ fuel ih =>
    dsimp only
    rw [discover_loop]
    by_cases hsame : discover_round yaml debug files candidates source_dirs = source_dirs
    · rw [if_pos hsame]
      exact hsame
    · rw [if_neg hsame]
      refine ih _ (Nat.lt_of_lt_of_le ?_ (Nat.le_of_lt_succ hfuel))
      obtain ⟨hkeeps, hrest⟩ := discover_round_spec yaml debug files candidates source_dirs
      obtain ⟨path, hpath, hbefore, hafter⟩ := hrest.resolve_left hsame
      have hfewer : ∀ path ∈ candidates,
          pending yaml debug files (discover_round yaml debug files candidates source_dirs) path = true
            ↔ (pending yaml debug files (discover_round yaml debug files candidates source_dirs) path
              && pending yaml debug files source_dirs path) = true := by
        intro path _
        rw [Bool.and_eq_true]
        exact ⟨fun h => ⟨h, pending_mono hkeeps h⟩, fun h => h.1⟩
      rw [List.countP_congr hfewer, ← List.countP_filter,
        List.countP_eq_length_filter (l := candidates)]
      exact List.countP_lt_length_iff.2 ⟨path, List.mem_filter.2 ⟨hpath, hbefore⟩, hafter⟩

end Rounds

end AgentSpace.Config
