/-
Which manifests of a bundle are retained.

The rounds of `discover_source_dirs` come down to one pass over the candidates in the
order of their names, in which a candidate counts unless one that counts before it covers
it. Where candidates cover only later ones, this is the one consistent reading.
-/
import AgentSpace.Lib.Covering
import AgentSpace.Config.AnyOrder

set_option autoImplicit false

namespace AgentSpace.Config

open Text Serde Lib

section Discovery

variable (yaml : Yaml) (debug : Text → Text) (files : TextMap)

/-- The candidate lies in a directory that the manifest declares. -/
def covers (manifest_path candidate : Text) : Bool :=
  match declared_by yaml debug files manifest_path with
  | .ok dirs => is_excluded dirs candidate
  | .error _ => false

/-- The candidates that count: read, in the order of their names, before a directory that
they lie in is known. -/
def counting : List Text := first_come (covers yaml debug files) [] (candidates_of files)

variable {yaml debug files}

/-- The directories are those that the manifests declare. -/
def DeclaredBy (yaml : Yaml) (debug : Text → Text) (files : TextMap)
    (source_dirs known : List Text) : Prop :=
  ∀ dir, dir ∈ source_dirs ↔ ∃ manifest_path ∈ known, ∃ dirs,
    declared_by yaml debug files manifest_path = .ok dirs ∧ dir ∈ dirs

variable {source_dirs known : List Text}

theorem DeclaredBy.is_excluded (h : DeclaredBy yaml debug files source_dirs known) (candidate : Text) :
    is_excluded source_dirs candidate = is_covered (covers yaml debug files) known candidate := by
  rw [Bool.eq_iff_iff, is_covered_iff]
  unfold Config.is_excluded
  rw [List.any_eq_true]
  constructor
  · rintro ⟨dir, hdir, hwithin⟩
    obtain ⟨manifest_path, hknown, dirs, hdirs, hmem⟩ := (h dir).1 hdir
    refine ⟨manifest_path, hknown, ?_⟩
    unfold covers
    rw [hdirs]
    exact List.any_eq_true.2 ⟨dir, hmem, hwithin⟩
  · rintro ⟨manifest_path, hknown, hcovers⟩
    unfold covers at hcovers
    cases hdirs : declared_by yaml debug files manifest_path with
    | error e => rw [hdirs] at hcovers; cases hcovers
    | ok dirs =>
      rw [hdirs] at hcovers
      obtain ⟨dir, hmem, hwithin⟩ := List.any_eq_true.1 hcovers
      exact ⟨dir, (h dir).2 ⟨manifest_path, hknown, dirs, hdirs, hmem⟩, hwithin⟩

/-- One candidate of a round: it counts unless it is covered. -/
theorem DeclaredBy.discover_one (h : DeclaredBy yaml debug files source_dirs known) (candidate : Text) :
    DeclaredBy yaml debug files (discover_one yaml debug files source_dirs candidate)
      (if is_covered (covers yaml debug files) known candidate then known
        else known ++ [candidate]) := by
  unfold Config.discover_one
  rw [h.is_excluded candidate]
  split_ifs with hcovered
  · exact h
  · intro dir
    have hlast : (∃ manifest_path ∈ known ++ [candidate], ∃ dirs,
          declared_by yaml debug files manifest_path = .ok dirs ∧ dir ∈ dirs)
        ↔ dir ∈ source_dirs
          ∨ ∃ dirs, declared_by yaml debug files candidate = .ok dirs ∧ dir ∈ dirs := by
      rw [h dir]
      constructor
      · rintro ⟨manifest_path, hmem, hdirs⟩
        rcases List.mem_append.1 hmem with hmem | hmem
        · exact .inl ⟨manifest_path, hmem, hdirs⟩
        · rw [List.mem_singleton.1 hmem] at hdirs
          exact .inr hdirs
      · rintro (⟨manifest_path, hmem, hdirs⟩ | hdirs)
        · exact ⟨manifest_path, List.mem_append_left _ hmem, hdirs⟩
        · exact ⟨candidate, List.mem_append_right _ (List.mem_singleton_self _), hdirs⟩
    rw [hlast]
    cases hdirs : declared_by yaml debug files candidate with
    | error e =>
      refine ⟨.inl, ?_⟩
      rintro (h | ⟨dirs, ⟨⟩, -⟩)
      exact h
    | ok dirs =>
      dsimp only
      rw [(foldl_insert dirs source_dirs).1 dir]
      refine or_congr_right ⟨fun hmem => ⟨dirs, rfl, hmem⟩, ?_⟩
      rintro ⟨dirs', hdirs', hmem⟩
      rw [Except.ok.inj hdirs']
      exact hmem

/-- A round finds the directories of the candidates that count. -/
theorem DeclaredBy.discover_round
    (h : DeclaredBy yaml debug files source_dirs known) (candidates : List Text) :
    DeclaredBy yaml debug files (discover_round yaml debug files candidates source_dirs)
      (first_come (covers yaml debug files) known candidates) := by
  unfold Config.discover_round
  induction candidates generalizing source_dirs known with
  | nil => exact h
  | cons candidate rest ih =>
    rw [List.foldl_cons, first_come]
    exact ih (h.discover_one candidate)

/-- **One pass is enough**: what a candidate declares is known after the first round, unless
it is excluded. -/
theorem discover_round_idem (candidates : List Text) :
    let source_dirs := discover_round yaml debug files candidates []
    discover_round yaml debug files candidates source_dirs = source_dirs := by
  intro source_dirs
  have hstart : DeclaredBy yaml debug files [] [] := fun dir => by simp
  have hdirs := hstart.discover_round candidates
  have hone : ∀ candidate ∈ candidates,
      discover_one yaml debug files source_dirs candidate = source_dirs := by
    intro candidate hcandidate
    unfold discover_one
    by_cases hexcluded : is_excluded source_dirs candidate = true
    · rw [if_pos hexcluded]
    · rw [if_neg hexcluded]
      cases hdeclared : declared_by yaml debug files candidate with
      | error e => rfl
      | ok dirs =>
        refine (foldl_insert dirs source_dirs).2 fun dir hdir => ?_
        rw [hdirs.is_excluded candidate, Bool.not_eq_true] at hexcluded
        exact (hdirs dir).2 ⟨candidate, mem_first_come hcandidate hexcluded, dirs, hdeclared, hdir⟩
  have hgeneral : ∀ paths : List Text, (∀ path ∈ paths, path ∈ candidates) →
      paths.foldl (discover_one yaml debug files) source_dirs = source_dirs := by
    intro paths
    induction paths with
    | nil => exact fun _ => rfl
    | cons path rest ih =>
      intro hpaths
      rw [List.foldl_cons, hone path (hpaths path (by simp))]
      exact ih fun path hpath => hpaths path (List.mem_cons_of_mem _ hpath)
  exact hgeneral candidates fun _ h => h

theorem discovered {source_dirs : List Text}
    (h : discover_source_dirs yaml debug files (candidates_of files) = .ok source_dirs) :
    DeclaredBy yaml debug files source_dirs (counting yaml debug files) := by
  have hstart : DeclaredBy yaml debug files [] [] := fun dir => by simp
  have hloop : ∀ fuel, discover_loop yaml debug files (candidates_of files) (fuel + 1) []
      = discover_round yaml debug files (candidates_of files) [] := by
    intro fuel
    rw [discover_loop]
    split_ifs with hnothing
    · exact hnothing.symm
    · cases fuel with
      | zero => rfl
      | succ fuel => rw [discover_loop, if_pos (discover_round_idem _)]
  unfold discover_source_dirs at h
  dsimp only at h
  rw [hloop] at h
  cases hall : (retained_manifests (discover_round yaml debug files (candidates_of files) [])
      (candidates_of files)).mapM (declared_by yaml debug files) with
  | error e => rw [hall] at h; cases h
  | ok all =>
    rw [hall] at h
    rw [← Except.ok.inj h]
    exact hstart.discover_round _

end Discovery

/-- A skill manifest with a source. -/
def skill_text (name path : String) : Text :=
  manifest_text ("metadata:\n  name: " ++ name) "\nkind: Skill" ("\nspec:\n  source:\n    path: " ++ path)

@[inherit_doc skill_text]
def skill_value (name path : String) : Value := manifest_value "Skill" name
  (.Mapping [(.String "source".toList, .Mapping [(.String "path".toList, .String path.toList)])])

/-- The library, cut down to two skills and an aggregate. -/
def two_skills : Yaml where
  from_str _ := .error "unsupported"
  documents s :=
    if s = skill_text "m" "../b" then [.ok (skill_value "m" "../b")]
    else if s = skill_text "z" "config/a" then [.ok (skill_value "z" "config/a")]
    else if s = dev_text then [.ok (manifest_value "AgentSpaceConfig" "dev" (.Mapping []))]
    else [.error "unsupported"]
  to_string _ := .error "unsupported"

/-- A manifest in the directory of a skill, which declares the directory of another one. -/
def nested_files (path : String) : TextMap := Std.ExtTreeMap.ofList
  [("config/a/m.yaml".toList, skill_text "m" "../b"), ("config/b/n.yaml".toList, dev_text),
    (path.toList, skill_text "z" "config/a")] compare

/-- What is retained of a bundle. -/
def retained_of (yaml : Yaml) (files : TextMap) : Option (List Text) :=
  (discover_source_dirs yaml id files (candidates_of files)).toOption.map fun source_dirs =>
    retained_manifests source_dirs (candidates_of files)

end AgentSpace.Config
