/-
What a request leaves to be read.

A request that succeeds has written its files into an empty directory, each at its
normalized path. Two keys that name one path are written one over the other.
-/
import AgentSpace.Skills.Creation

set_option autoImplicit false

namespace AgentSpace.Skills

open Text Lib

/-! ## Tasks with any outcome -/

namespace Task

variable {α β : Type} {t t' : Tree}

/-- A task ends in its first part that fails, or with the rest. -/
theorem run_bind_cases {x : Task α} {f : α → Task β} {r : Except SkillError β}
    (h : (x >>= f).run t = (r, t')) : (∃ a t₁, x.run t = (.ok a, t₁) ∧ (f a).run t₁ = (r, t'))
      ∨ ∃ e, x.run t = (.error e, t') ∧ r = .error e := by
  rcases hx : x.run t with ⟨e | a, t₁⟩
  · rw [run_bind_of_error hx] at h
    obtain ⟨rfl, rfl⟩ := Prod.mk.inj h
    exact Or.inr ⟨e, rfl, rfl⟩
  · rw [run_bind_of_ok hx] at h
    exact Or.inl ⟨a, t₁, rfl, h⟩

theorem run_io_error {operation : String} {path : Path} {f : Tree → Except FileError Tree} {e : SkillError}
    (h : (io operation path f).run t = (.error e, t')) : (¬∃ t₁, f t = .ok t₁) ∧ t' = t := by
  rw [io, ExceptT.run_mk] at h
  cases hf : f t with
  | error source =>
    rw [hf] at h
    exact ⟨by simp, (congrArg Prod.snd h).symm⟩
  | ok t₁ =>
    rw [hf] at h
    cases h

theorem run_return_error_if_error {condition : Prop} [Decidable condition] {error e : SkillError}
    (h : (return_error_if condition error).run t = (.error e, t')) : condition ∧ t' = t := by
  unfold return_error_if at h
  by_cases hc : condition
  · rw [if_pos hc] at h
    exact ⟨hc, (congrArg Prod.snd h).symm⟩
  · rw [if_neg hc] at h
    cases h

end Task

/-! ## Where versions are saved -/

section Frame

variable {ext : Externals} {t t' : Tree} {skill_id now : Text} {files : Files}

/-- Saving a version, whether it succeeds or not, touches the versions only. -/
theorem save_skill_version_frame {r : Except SkillError SkillVersion}
    (hrun : (SkillsService.save_skill_version ext now skill_id files).run t = (r, t')) {q : Path}
    (hup : ¬q <+: skill_versions_dir skill_id) (hdown : ¬skill_versions_dir skill_id <+: q) :
    t'.get q = t.get q := by
  unfold SkillsService.save_skill_version at hrun
  rcases Task.run_bind_cases hrun with ⟨⟨⟩, t₁, hcreate, hrun⟩ | ⟨e, hfail, -⟩
  · rw [Task.run_io_ok_iff] at hcreate
    have hcreated : t₁.get q = t.get q := by
      rw [FileTree.get_create_dir_all hcreate, if_neg hup]
    rcases Task.run_bind_cases hrun with ⟨version, t₂, hlook, hrun⟩ | ⟨e, hfail, -⟩
    · obtain ⟨-, ht₂⟩ := Task.run_look_ok hlook
      rcases Task.run_bind_cases hrun with ⟨content, t₃, hlook, hrun⟩ | ⟨e, hfail, -⟩
      · obtain ⟨-, ht₃⟩ := Task.run_look_ok hlook
        rcases Task.run_bind_cases hrun with ⟨⟨⟩, t₄, hwrite, hrun⟩ | ⟨e, hfail, -⟩
        · rw [Task.run_io_ok_iff, ht₃, ht₂] at hwrite
          obtain rfl : t₄ = t' := congrArg Prod.snd hrun
          rw [FileTree.get_write hwrite, if_neg, hcreated]
          rintro rfl
          exact hdown (List.prefix_append _ _)
        · rw [(Task.run_io_error hfail).2, ht₃, ht₂, hcreated]
      · have ht' : t₂ = t' := congrArg Prod.snd hfail
        rw [← ht', ht₂, hcreated]
    · have ht' : t₁ = t' := congrArg Prod.snd hfail
      rw [← ht', hcreated]
  · rw [(Task.run_io_error hfail).2]

/-- What is read after files are written into an empty directory and saved. -/
theorem reads_of_written {service : SkillsService} {v : SkillVersion} {t₁ : Tree}
    (hclear : Clear t (skill_path skill_id)) (hvalid : is_valid_skill_id skill_id = true)
    (hwrite : (write_skill_files ext (skill_path skill_id) files.toList).run t = (.ok (), t₁))
    (hsave : (SkillsService.save_skill_version ext now skill_id files).run t₁ = (.ok v, t')) :
    (∀ path ∈ files, normalize_posix_relative_path path ≠ [])
      ∧ service.get_skill t' skill_id = .ok ⟨skill_id, stored files, service.source_for skill_id⟩ := by
  have hput := (run_write_skill_files _ _).1 hwrite
  rw [← writes_in_eq] at hput
  obtain ⟨hlaid, hne, -⟩ := laid_out_of_put_all hclear hput
  have hlaid' : ∀ q, t'.get (skill_path skill_id ++ q) = laid_out files q := by
    intro q
    obtain ⟨hup, hdown⟩ := apart_from_versions hvalid q
    rw [save_skill_version_frame hsave hup hdown, hlaid]
  refine ⟨fun path hpath => ?_, ?_⟩
  · obtain ⟨content, hmem⟩ := exists_mem_toList hpath
    exact hne (normalize_posix_relative_path path, content) (List.mem_map.2 ⟨_, hmem, rfl⟩)
  · have hread := read_skill_files_of_laid_out hlaid' hne
    have hdir : t'.is_dir (skill_path skill_id) = true := by
      unfold read_skill_files at hread
      by_contra hnot
      rw [if_neg hnot] at hread
      cases hread
    unfold SkillsService.get_skill
    rw [if_neg (not_not.2 hvalid), hdir, hread]
    rfl

end Frame

/-! ## Runs that succeed -/

section Runs

variable {ext : Externals} {service : SkillsService} {t t' : Tree} {skill_id now : Text}
  {files : Files} {skill : Skill}

/-- **What is read of a skill that was created**, whatever was there before. -/
theorem reads_of_create (hrun : (service.create_skill ext now skill_id files).run t = (.ok skill, t')) :
    (∀ path ∈ files, normalize_posix_relative_path path ≠ [])
      ∧ service.get_skill t' skill_id = .ok ⟨skill_id, stored files, service.source_for skill_id⟩ := by
  obtain ⟨hvalid, -, -, -, v, t₁, t₂, hcreate, hwrite, hsave⟩ := create_skill_ok hrun
  exact reads_of_written (clear_of_create_dir hcreate) hvalid hwrite hsave

/-- **What is read of a skill that was updated**, whatever was there before. -/
theorem reads_of_update (hrun : (service.update_skill ext now skill_id files).run t = (.ok skill, t')) :
    (∀ path ∈ files, normalize_posix_relative_path path ≠ [])
      ∧ service.get_skill t' skill_id = .ok ⟨skill_id, stored files, service.source_for skill_id⟩ := by
  obtain ⟨hvalid, -, -, listed, v, t₀, t₁, t₂, t₃, -, -, hremove, hcreate, hwrite, hsave⟩ :=
    update_skill_ok hrun
  exact reads_of_written (clear_of_remade hremove hcreate) hvalid hwrite hsave

end Runs

/-! ## Two names for one path -/

/-- Each file of a request is read once, at its normalized path and with its content, and
nothing else is. -/
def NormalizedOnce (files read : Files) : Prop :=
  read.toList.Perm (files.toList.map fun f => (join ['/'] (normalize_posix_relative_path f.1), f.2))

/-- No two keys of a request have one normalized path. -/
def NoAliases (files : Files) : Prop :=
  ∀ path ∈ files, ∀ other ∈ files,
    normalize_posix_relative_path path = normalize_posix_relative_path other → path = other

theorem nodup_keys (files : Files) : (files.toList.map Prod.fst).Nodup := by
  refine List.pairwise_map.2 (Std.ExtTreeMap.distinct_keys_toList.imp fun hne heq => hne ?_)
  rw [heq]
  exact Std.ReflCmp.compare_self

theorem nodup_toList (files : Files) : files.toList.Nodup := List.Nodup.of_map _ (nodup_keys files)

/-- **What is stored** is what was given, path by path, exactly if no two keys have one
normalized path. -/
theorem stored_normalizedOnce_iff {files : Files}
    (hne : ∀ path ∈ files, normalize_posix_relative_path path ≠ []) :
    NormalizedOnce files (stored files) ↔ NoAliases files := by
  constructor
  · intro hperm path hpath other hother hsame
    have hkeys : (files.toList.map fun f => join ['/'] (normalize_posix_relative_path f.1)).Nodup := by
      have hmapped := (hperm.map Prod.fst).nodup_iff.1 (nodup_keys (stored files))
      rwa [List.map_map] at hmapped
    obtain ⟨content, hmem⟩ := exists_mem_toList hpath
    obtain ⟨content', hmem'⟩ := exists_mem_toList hother
    have heq := List.inj_on_of_nodup_map hkeys hmem hmem' (congrArg (join ['/']) hsame)
    exact congrArg Prod.fst heq
  · intro haliases
    have hinj : ∀ f ∈ files.toList, ∀ g ∈ files.toList,
        join ['/'] (normalize_posix_relative_path f.1) = join ['/'] (normalize_posix_relative_path g.1) →
        f = g := by
      intro f hf g hg hjoin
      have hpath := haliases f.1 (mem_of_mem_toList hf) g.1 (mem_of_mem_toList hg)
        (join_injective (names_normalize _) (names_normalize _) (hne _ (mem_of_mem_toList hf))
          (hne _ (mem_of_mem_toList hg)) hjoin)
      exact List.inj_on_of_nodup_map (nodup_keys files) hf hg hpath
    have hnodup : (files.toList.map fun f =>
        (join ['/'] (normalize_posix_relative_path f.1), f.2)).Nodup :=
      (nodup_toList files).map_on fun f hf g hg heq => hinj f hf g hg (congrArg Prod.fst heq)
    refine (List.perm_ext_iff_of_nodup (nodup_toList _) hnodup).2 fun entry => ?_
    rw [Std.ExtTreeMap.mem_toList_iff_getElem?_eq_some, stored, getElem?_foldl_insert, List.mem_map]
    constructor
    · intro hget
      cases hfind : (writes files).reverse.find? fun w => join ['/'] w.1 = entry.1 with
      | none => simp [hfind] at hget
      | some w =>
        rw [hfind] at hget
        have hkey : join ['/'] w.1 = entry.1 := by simpa using List.find?_some hfind
        obtain ⟨f, hf, hpath, hcontent⟩ :=
          mem_writes (List.mem_reverse.1 (List.mem_of_find?_eq_some hfind))
        refine ⟨f, hf, Prod.ext ?_ ?_⟩
        · rw [← hkey, hpath]
        · rw [← hcontent]
          exact Option.some.inj hget
    · rintro ⟨f, hf, rfl⟩
      cases hfind : (writes files).reverse.find? fun w =>
          join ['/'] w.1 = join ['/'] (normalize_posix_relative_path f.1) with
      | none =>
        have hmem : (normalize_posix_relative_path f.1, f.2) ∈ (writes files).reverse :=
          List.mem_reverse.2 (List.mem_map.2 ⟨f, hf, rfl⟩)
        have := List.find?_eq_none.1 hfind _ hmem
        simp at this
      | some w =>
        have hkey : join ['/'] w.1 = join ['/'] (normalize_posix_relative_path f.1) := by
          simpa using List.find?_some hfind
        obtain ⟨g, hg, hpath, hcontent⟩ :=
          mem_writes (List.mem_reverse.1 (List.mem_of_find?_eq_some hfind))
        rw [hpath] at hkey
        obtain rfl := hinj g hg f hf hkey
        exact congrArg some hcontent

/-- **The files of a skill are read back** as they were given exactly if no two keys of the
request have one normalized path. -/
theorem read_back_iff (ext : Externals) (service : SkillsService) (t t' : Tree)
    (now skill_id : Text) (files : Files) (skill : Skill)
    (hrun : (service.create_skill ext now skill_id files).run t = (.ok skill, t')
      ∨ (service.update_skill ext now skill_id files).run t = (.ok skill, t')) :
    (∃ current, service.get_skill t' skill_id = .ok current ∧ NormalizedOnce files current.files)
      ↔ NoAliases files := by
  obtain ⟨hne, hread⟩ := hrun.elim reads_of_create reads_of_update
  rw [← stored_normalizedOnce_iff hne, hread]
  constructor
  · rintro ⟨current, hcurrent, honce⟩
    rw [← Except.ok.inj hcurrent] at honce
    exact honce
  · exact fun honce => ⟨_, rfl, honce⟩

/-! ## A file that silently wins -/

/-- Two keys for one path. -/
def aliased_files : Files :=
  Std.ExtTreeMap.ofList [("./SKILL.md".toList, "# One".toList), ("SKILL.md".toList, "# Two".toList)] compare

/-- The JSON of a first version with them. -/
def aliased_json : Text :=
  ("\x7b\n  \"skill_id\": \"notes\",\n  \"version\": 1,\n"
    ++ "  \"created_at\": \"2026-01-01T00:00:00.000000Z\",\n"
    ++ "  \"files\": \x7b\n    \"./SKILL.md\": \"# One\",\n    \"SKILL.md\": \"# Two\"\n  \x7d\n\x7d").toList

@[inherit_doc aliased_json]
def aliased_versions : Externals := known_externals [(first_version aliased_files, aliased_json)]

/-- Creating a skill with these files on a host without skills. -/
def create_first (ext : Externals) (files : Files) : Except SkillError Skill × Tree :=
  (user_skills.create_skill ext "2026-01-01T00:00:00.000000Z".toList "notes".toList files).run no_skills

theorem create_first_ok {ext : Externals} {files : Files} (h : (create_first ext files).1.isOk = true) :
    ∃ skill, create_first ext files = (.ok skill, (create_first ext files).2) := by
  generalize create_first ext files = result at h ⊢
  obtain ⟨answer, t⟩ := result
  cases answer with
  | error e => cases h
  | ok skill => exact ⟨skill, rfl⟩

theorem read_back_plain :
    (∃ current, user_skills.get_skill (create_first known_versions plain_files).2 "notes".toList
          = .ok current
        ∧ NormalizedOnce plain_files current.files) ↔ NoAliases plain_files := by
  have hok : (create_first known_versions plain_files).1.isOk = true := by decide +kernel
  obtain ⟨skill, hrun⟩ := create_first_ok hok
  exact read_back_iff known_versions user_skills no_skills _ _ _ _ skill (Or.inl hrun)

/-- **One of two files is lost** without an error when they are given as `./SKILL.md` and
`SKILL.md`. -/
theorem aliased_file_is_lost : (create_first aliased_versions aliased_files).1.isOk = true
      ∧ ((user_skills.get_skill (create_first aliased_versions aliased_files).2 "notes".toList).toOption.map
          fun current => current.files.toList) = some [("SKILL.md".toList, "# Two".toList)]
      ∧ ¬∃ current, user_skills.get_skill (create_first aliased_versions aliased_files).2 "notes".toList
            = .ok current
          ∧ NormalizedOnce aliased_files current.files := by
  have hread : ((user_skills.get_skill (create_first aliased_versions aliased_files).2
      "notes".toList).toOption.map fun current => current.files.toList)
        = some [("SKILL.md".toList, "# Two".toList)] := by
    decide +kernel
  refine ⟨by decide +kernel, hread, ?_⟩
  rintro ⟨current, hget, honce⟩
  rw [hget] at hread
  have hfiles : current.files.toList = [("SKILL.md".toList, "# Two".toList)] := Option.some.inj hread
  have hlength := honce.length_eq
  rw [hfiles, List.length_map] at hlength
  revert hlength
  decide +kernel

end AgentSpace.Skills
