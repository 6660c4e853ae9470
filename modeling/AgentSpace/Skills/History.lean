/-
The history of a skill over runs.

What the operations mean is a list of file maps that grows by one with each of them
(`History`). What is read back is the last of these maps with normalized paths.
-/
import AgentSpace.Lib.Transition
import AgentSpace.Skills.Versions

set_option autoImplicit false

namespace AgentSpace.Skills

open Text Lib

/-! ## Where a task writes -/

/-- The paths of a skill: its files and its versions, with the directories above. -/
def Region (skill_id : Text) (q : Path) : Prop :=
  skill_path skill_id <+: q ∨ q <+: skill_versions_dir skill_id ∨ skill_versions_dir skill_id <+: q

/-- Everything but the paths of a skill is the same in both trees. -/
def SameOutside (skill_id : Text) (t t' : Tree) : Prop :=
  ∀ q, ¬Region skill_id q → t'.get q = t.get q

/-- A task that succeeds writes only to the paths of a skill. -/
def Keeps (skill_id : Text) {α : Type} (task : Task α) : Prop :=
  ∀ t a t', task.run t = (.ok a, t') → SameOutside skill_id t t'

theorem run_validate_file_paths_iff {paths : List Text} {t t' : Tree} :
    (validate_file_paths paths).run t = (.ok (), t') ↔
      (∀ path ∈ paths, is_valid_file_path path = true) ∧ t' = t := by
  induction paths with
  | nil =>
    constructor
    · intro h
      exact ⟨by simp, (congrArg Prod.snd h).symm⟩
    · rintro ⟨-, rfl⟩
      rfl
  | cons path rest ih =>
    rw [validate_file_paths, List.forall_mem_cons, and_assoc, ← ih]
    constructor
    · intro h
      obtain ⟨⟨⟩, t₁, hcheck, hrest⟩ := Task.run_bind_ok h
      obtain ⟨hvalid, rfl⟩ := Task.run_return_error_if_ok hcheck
      exact ⟨not_not.1 hvalid, hrest⟩
    · rintro ⟨hvalid, hrest⟩
      rw [Task.run_bind_of_ok (Task.run_return_error_if _ (not_not.2 hvalid))]
      exact hrest

section Keeps

variable {ext : Externals} {skill_id : Text} {α β : Type}

theorem keeps_bind {x : Task α} {f : α → Task β} (hx : Keeps skill_id x)
    (hf : ∀ a, Keeps skill_id (f a)) : Keeps skill_id (x >>= f) := by
  intro t b t' h q hq
  obtain ⟨a, t₁, hrun, hrest⟩ := Task.run_bind_ok h
  exact (hf a t₁ b t' hrest q hq).trans (hx t a t₁ hrun q hq)

theorem keeps_look (f : Tree → Except SkillError α) : Keeps skill_id (Task.look f) := by
  intro t a t' h q _
  rw [(Task.run_look_ok h).2]

theorem keeps_pure (a : α) : Keeps skill_id (pure a : Task α) := by
  intro t b t' h q _
  have ht : t = t' := congrArg Prod.snd h
  rw [ht]

theorem keeps_return_error_if (condition : Prop) [Decidable condition] (error : SkillError) :
    Keeps skill_id (Task.return_error_if condition error) := by
  intro t a t' h q _
  rw [(Task.run_return_error_if_ok h).2]

theorem keeps_io {operation : String} {path : Path} {f : Tree → Except FileError Tree}
    (h : ∀ t t', f t = .ok t' → SameOutside skill_id t t') : Keeps skill_id (Task.io operation path f) := by
  intro t a t' hrun
  exact h t t' (Task.run_io_ok_iff.1 hrun)

theorem keeps_validate_file_paths (paths : List Text) : Keeps skill_id (validate_file_paths paths) := by
  intro t a t' h q _
  rw [(run_validate_file_paths_iff.1 h).2]

theorem keeps_write_skill_files (files : List (Text × Text)) :
    Keeps skill_id (write_skill_files ext (skill_path skill_id) files) := by
  intro t a t' h q hq
  have hput := (run_write_skill_files _ files).1 h
  rw [FileTree.get_put_all hput]
  have hnone : FileTree.last_write (files.map fun f =>
      (skill_path skill_id ++ normalize_posix_relative_path f.1, f.2)) q = none := by
    rw [FileTree.last_write_eq_none]
    rintro w hw rfl
    obtain ⟨f, -, rfl⟩ := List.mem_map.1 hw
    exact hq (Or.inl (List.prefix_append _ _))
  rw [hnone]
  dsimp only
  rw [if_neg]
  rintro ⟨w, hw, hpre⟩
  obtain ⟨f, -, rfl⟩ := List.mem_map.1 hw
  cases q with
  | nil => exact hq (Or.inr (Or.inl List.nil_prefix))
  | cons name rest =>
    obtain ⟨hname, -⟩ := List.cons_prefix_cons.1 hpre
    exact hq (Or.inl (by rw [hname]; exact List.prefix_append [skill_id] rest))

theorem keeps_save_skill_version (now : Text) (files : Files) :
    Keeps skill_id (SkillsService.save_skill_version ext now skill_id files) := by
  unfold SkillsService.save_skill_version
  refine keeps_bind (keeps_io fun t t' h q hq => ?_) fun _ => ?_
  · rw [FileTree.get_create_dir_all h, if_neg fun hpre => hq (Or.inr (Or.inl hpre))]
  refine keeps_bind (keeps_look _) fun version => keeps_bind (keeps_look _) fun content => ?_
  refine keeps_bind (keeps_io fun t t' h q hq => ?_) fun _ => keeps_pure _
  rw [FileTree.get_write h, if_neg]
  rintro rfl
  exact hq (Or.inr (Or.inr (List.prefix_append _ _)))

variable (service : SkillsService)

theorem keeps_create_skill (now : Text) (files : Files) :
    Keeps skill_id (SkillsService.create_skill ext service now skill_id files) := by
  unfold SkillsService.create_skill
  refine keeps_bind (keeps_return_error_if _ _) fun _ => ?_
  refine keeps_bind (keeps_return_error_if _ _) fun _ => ?_
  refine keeps_bind (keeps_look _) fun _ => ?_
  refine keeps_bind (keeps_return_error_if _ _) fun _ => ?_
  refine keeps_bind (keeps_validate_file_paths _) fun _ => ?_
  refine keeps_bind (keeps_io fun t t' h q hq => ?_) fun _ => ?_
  · rw [FileTree.get_create_dir h, if_neg]
    rintro rfl
    exact hq (Or.inl (List.prefix_refl _))
  refine keeps_bind (keeps_write_skill_files _) fun _ => ?_
  exact keeps_bind (keeps_save_skill_version now files) fun _ => keeps_look _

theorem keeps_update_skill (now : Text) (files : Files) :
    Keeps skill_id (SkillsService.update_skill ext service now skill_id files) := by
  unfold SkillsService.update_skill
  refine keeps_bind (keeps_return_error_if _ _) fun _ => ?_
  refine keeps_bind (keeps_look _) fun _ => ?_
  refine keeps_bind (keeps_validate_file_paths _) fun _ => ?_
  refine keeps_bind (keeps_look _) fun versions => ?_
  refine keeps_bind ?_ fun _ => ?_
  · unfold SkillsService.save_existing_files
    split
    · exact keeps_bind (keeps_look _) fun files => keeps_bind (keeps_save_skill_version now files)
        fun _ => keeps_pure _
    · exact keeps_pure _
  refine keeps_bind (keeps_io fun t t' h q hq => ?_) fun _ => ?_
  · rw [FileTree.get_remove_dir_all h, if_neg fun hpre => hq (Or.inl hpre)]
  refine keeps_bind (keeps_io fun t t' h q hq => ?_) fun _ => ?_
  · rw [FileTree.get_create_dir_all h, if_neg]
    intro hpre
    cases q with
    | nil => exact hq (Or.inr (Or.inl List.nil_prefix))
    | cons name rest =>
      obtain ⟨hname, hrest⟩ := List.cons_prefix_cons.1 hpre
      rw [hname, List.prefix_nil.1 hrest] at hq
      exact hq (Or.inl (List.prefix_refl _))
  refine keeps_bind (keeps_write_skill_files _) fun _ => ?_
  exact keeps_bind (keeps_save_skill_version now files) fun _ => keeps_look _

theorem keeps_rollback_skill_version (now : Text) (version : UInt64) :
    Keeps skill_id (SkillsService.rollback_skill_version ext service now skill_id version) := by
  unfold SkillsService.rollback_skill_version
  refine keeps_bind (keeps_return_error_if _ _) fun _ => ?_
  refine keeps_bind (keeps_look _) fun _ => ?_
  refine keeps_bind (keeps_look _) fun _ => ?_
  refine keeps_bind (keeps_return_error_if _ _) fun _ => ?_
  exact keeps_bind (keeps_look _) fun snapshot => keeps_update_skill service now snapshot.files

end Keeps

/-! ## The history on disk -/

/-- The history of a skill on disk: its recorded versions, with the files of the last
one laid out in its directory. -/
structure History (ext : Externals) (t : Tree) (skill_id : Text) (versions : List SkillVersion) :
    Prop where
  recorded : Recorded ext t skill_id versions
  current : ∃ v, versions.getLast? = some v
    ∧ (∀ q, t.get (skill_path skill_id ++ q) = laid_out v.files q) ∧ ∀ w ∈ writes v.files, w.1 ≠ []

/-- There is no such skill, and no version of it. -/
structure Fresh (t : Tree) (skill_id : Text) : Prop where
  no_skill : t.get (skill_path skill_id) = none
  no_version : ∀ name, t.get (skill_versions_dir skill_id ++ [name]) = none

theorem ne_versions_dir {skill_id : Text} (hvalid : is_valid_skill_id skill_id = true) :
    skill_id ≠ SKILL_VERSIONS_DIR := by
  rintro rfl
  revert hvalid
  decide

theorem not_region_of_ne {skill_id other : Text} (hne : other ≠ skill_id)
    (hskill : is_valid_skill_id skill_id = true) (hother : is_valid_skill_id other = true) {q : Path}
    (h : skill_path skill_id <+: q ∨ ∃ name, q = skill_versions_dir skill_id ++ [name]) :
    ¬Region other q := by
  have hskill := ne_versions_dir hskill
  have hother := ne_versions_dir hother
  unfold Region
  rcases h with ⟨rest, rfl⟩ | ⟨name, rfl⟩
  · rintro (h | h | h)
    · exact hne (List.cons_prefix_cons.1 h).1
    · exact hskill (List.cons_prefix_cons.1 h).1
    · exact hskill (List.cons_prefix_cons.1 h).1.symm
  · rintro (h | h | h)
    · exact hother (List.cons_prefix_cons.1 h).1
    · have := h.length_le
      simp [skill_versions_dir] at this
    · exact hne (List.cons_prefix_cons.1 (List.cons_prefix_cons.1 h).2).1

namespace History

variable {ext : Externals} {t t' : Tree} {skill_id : Text} {versions : List SkillVersion}

theorem ne_nil (h : History ext t skill_id versions) : versions ≠ [] := by
  obtain ⟨v, hv, -⟩ := h.current
  rintro rfl
  cases hv

theorem dir (h : History ext t skill_id versions) : t.get (skill_path skill_id) = some .dir := by
  obtain ⟨v, -, hget, hne⟩ := h.current
  have hroot := hget []
  rw [List.append_nil] at hroot
  have hlast : FileTree.last_write (writes v.files) [] = none := FileTree.last_write_eq_none.2 hne
  rw [hroot, laid_out, hlast]
  exact if_pos (Or.inl rfl)

theorem of_sameOutside {other : Text} (h : History ext t skill_id versions)
    (hsame : SameOutside other t t') (hne : other ≠ skill_id)
    (hskill : is_valid_skill_id skill_id = true) (hother : is_valid_skill_id other = true) :
    History ext t' skill_id versions := by
  refine ⟨h.recorded.of_get_eq fun name => hsame _ ?_, ?_⟩
  · exact not_region_of_ne hne hskill hother (Or.inr ⟨name, rfl⟩)
  · obtain ⟨v, hv, hget, hnil⟩ := h.current
    refine ⟨v, hv, fun q => ?_, hnil⟩
    rw [← hget]
    exact hsame _ (not_region_of_ne hne hskill hother (Or.inl (List.prefix_append _ _)))

/-- What is read of a skill with a history: the recorded versions, and the files of
the last one with normalized paths. -/
theorem reads (h : History ext t skill_id versions) (hext : ext.Lawful) (service : SkillsService)
    (hvalid : is_valid_skill_id skill_id = true) (hbuiltin : service.is_builtin skill_id = false) :
    service.list_skill_versions ext t skill_id = .ok versions
      ∧ ∃ v, versions.getLast? = some v
        ∧ service.get_skill t skill_id = .ok ⟨skill_id, stored v.files, .User⟩ := by
  refine ⟨list_skill_versions_of_recorded hext service hvalid hbuiltin h.dir h.recorded, ?_⟩
  obtain ⟨v, hv, hget, hne⟩ := h.current
  refine ⟨v, hv, ?_⟩
  unfold SkillsService.get_skill SkillsService.source_for
  rw [if_neg (by simpa using hvalid), if_neg (by simp [FileTree.is_dir_iff.2 h.dir]),
    read_skill_files_of_laid_out hget hne, hbuiltin]
  rfl

end History

theorem Fresh.of_sameOutside {t t' : Tree} {skill_id other : Text} (h : Fresh t skill_id)
    (hsame : SameOutside other t t') (hne : other ≠ skill_id)
    (hskill : is_valid_skill_id skill_id = true) (hother : is_valid_skill_id other = true) :
    Fresh t' skill_id := by
  refine ⟨?_, fun name => ?_⟩
  · rw [← h.no_skill]
    exact hsame _ (not_region_of_ne hne hskill hother (Or.inl (List.prefix_refl _)))
  · rw [← h.no_version name]
    exact hsame _ (not_region_of_ne hne hskill hother (Or.inr ⟨name, rfl⟩))

theorem Fresh.recorded {t : Tree} {skill_id : Text} (h : Fresh t skill_id) (ext : Externals) :
    Recorded ext t skill_id [] := by
  refine ⟨rfl, fun name hname => ?_, by simp⟩
  rw [h.no_version name] at hname
  cases hname

/-! ## What the operations do to it -/

section Operations

variable {ext : Externals} {t t' : Tree} {skill_id now : Text} {versions : List SkillVersion}
  {files : Files}

/-- **Saving a version** records it after the others, and changes no file. -/
theorem run_save_skill_version {v : SkillVersion} (h : Recorded ext t skill_id versions)
    (hbound : versions.length + 1 < 2 ^ 64)
    (hrun : (SkillsService.save_skill_version ext now skill_id files).run t = (.ok v, t')) :
    v.files = files ∧ v.version.toNat = versions.length + 1
      ∧ Recorded ext t' skill_id (versions ++ [v])
      ∧ ∀ q, ¬q <+: skill_versions_dir skill_id → ¬skill_versions_dir skill_id <+: q →
        t'.get q = t.get q := by
  unfold SkillsService.save_skill_version at hrun
  obtain ⟨⟨⟩, t₁, hcreate, hrun⟩ := Task.run_bind_ok hrun
  obtain ⟨version, t₂, hlook, hrun⟩ := Task.run_bind_ok hrun
  obtain ⟨hversion, ht₂⟩ := Task.run_look_ok hlook
  obtain ⟨content, t₃, hlook, hrun⟩ := Task.run_bind_ok hrun
  obtain ⟨hcontent, ht₃⟩ := Task.run_look_ok hlook
  obtain ⟨⟨⟩, t₄, hwrite, hreturn⟩ := Task.run_bind_ok hrun
  rw [Task.run_io_ok_iff] at hcreate hwrite
  rw [ht₃, ht₂] at hwrite
  obtain ⟨rfl, rfl⟩ : (⟨skill_id, version, now, files⟩ : SkillVersion) = v ∧ t₄ = t' :=
    ⟨Except.ok.inj (congrArg Prod.fst hreturn), congrArg Prod.snd hreturn⟩
  have hcreated : ∀ q, ¬q <+: skill_versions_dir skill_id → t₁.get q = t.get q := fun q hq => by
    rw [FileTree.get_create_dir_all hcreate, if_neg hq]
  have hbelow : ∀ name, ¬skill_versions_dir skill_id ++ [name] <+: skill_versions_dir skill_id := by
    intro name hpre
    have := hpre.length_le
    simp at this
  have h₁ : Recorded ext t₁ skill_id versions := h.of_get_eq fun name => hcreated _ (hbelow name)
  have hnumber : version.toNat = versions.length + 1 := by
    rw [← Except.ok.inj hversion]
    exact h₁.next_skill_version hbound
  have hwritten : ∀ q, t₄.get q = if q = skill_version_path skill_id version then
      some (.file content) else t₁.get q := FileTree.get_write hwrite
  have hother : ∀ v ∈ versions, v.version ≠ version := by
    rintro v hv rfl
    have := (h.version_le hv).2
    omega
  refine ⟨rfl, hnumber, ⟨?_, fun name hname => ?_, fun v hv => ?_⟩, fun q hq hq' => ?_⟩
  · rw [List.map_append, h.numbered, List.length_append, List.map_singleton, hnumber,
      List.length_singleton, List.range'_concat, Nat.one_mul, Nat.add_comm 1]
  · rw [hwritten] at hname
    by_cases hnew : skill_versions_dir skill_id ++ [name] = skill_version_path skill_id version
    · refine ⟨_, List.mem_append_right _ (List.mem_singleton_self _), ?_⟩
      simpa [skill_version_path] using hnew
    · rw [if_neg hnew] at hname
      obtain ⟨v, hv, rfl⟩ := h₁.named name hname
      exact ⟨v, List.mem_append_left _ hv, rfl⟩
  · rcases List.mem_append.1 hv with hv | hv
    · obtain ⟨c, hjson, hget⟩ := h₁.document v hv
      refine ⟨c, hjson, ?_⟩
      rw [hwritten, if_neg]
      · exact hget
      · intro heq
        have hname : version_name v.version = version_name version := by
          simpa [skill_version_path] using heq
        exact hother v hv (version_name_injective hname)
    · rw [List.mem_singleton.1 hv]
      refine ⟨content, ?_, ?_⟩
      · cases hjson : ext.to_vec_pretty ⟨skill_id, version, now, files⟩ with
        | error e => rw [hjson] at hcontent; cases hcontent
        | ok c =>
          rw [hjson] at hcontent
          exact congrArg Except.ok (Except.ok.inj hcontent)
      · rw [hwritten, if_pos rfl]
  · rw [hwritten, if_neg, hcreated q hq]
    rintro rfl
    exact hq' (List.prefix_append _ _)

/-- The paths of a skill's files are not on the way to its versions. -/
theorem apart_from_versions (hvalid : is_valid_skill_id skill_id = true) (q : Path) :
    ¬skill_path skill_id ++ q <+: skill_versions_dir skill_id
      ∧ ¬skill_versions_dir skill_id <+: skill_path skill_id ++ q := by
  have hdir := ne_versions_dir hvalid
  exact ⟨fun h => hdir (List.cons_prefix_cons.1 h).1, fun h => hdir (List.cons_prefix_cons.1 h).1.symm⟩

theorem clear_of_create_dir (hcreate : t.create_dir ext.accepts (skill_path skill_id) = .ok t') :
    Clear t' (skill_path skill_id) := by
  have hnone := (FileTree.create_dir_ok_iff.1 ⟨t', hcreate⟩).2.1
  refine ⟨by rw [FileTree.get_create_dir hcreate, if_pos rfl], fun q hq => ?_⟩
  rw [FileTree.get_create_dir hcreate, if_neg (by simpa using hq)]
  by_contra hsome
  have hdir := t.get_of_prefix (List.prefix_append (skill_path skill_id) q) (by simpa using hq)
    (Option.isSome_iff_ne_none.2 hsome)
  rw [hnone] at hdir
  cases hdir

theorem clear_of_remade {t₁ : Tree} (hremove : t.remove_dir_all (skill_path skill_id) = .ok t₁)
    (hcreate : t₁.create_dir_all ext.accepts (skill_path skill_id) = .ok t') :
    Clear t' (skill_path skill_id) := by
  refine ⟨by rw [FileTree.get_create_dir_all hcreate, if_pos (List.prefix_refl _)], fun q hq => ?_⟩
  rw [FileTree.get_create_dir_all hcreate, if_neg, FileTree.get_remove_dir_all hremove,
    if_pos (List.prefix_append _ _)]
  intro hpre
  have := hpre.length_le
  have := List.length_pos_of_ne_nil hq
  rw [List.length_append] at *
  omega

/-- **Writing and saving** files into an empty directory of a skill. -/
theorem history_of_written {v : SkillVersion} {t₁ : Tree} (h : Recorded ext t skill_id versions)
    (hclear : Clear t (skill_path skill_id)) (hvalid : is_valid_skill_id skill_id = true)
    (hbound : versions.length + 1 < 2 ^ 64)
    (hwrite : (write_skill_files ext (skill_path skill_id) files.toList).run t = (.ok (), t₁))
    (hsave : (SkillsService.save_skill_version ext now skill_id files).run t₁ = (.ok v, t')) :
    v.files = files ∧ History ext t' skill_id (versions ++ [v]) := by
  have hput := (run_write_skill_files _ _).1 hwrite
  rw [← writes_in_eq] at hput
  obtain ⟨hlaid, hne, hrest⟩ := laid_out_of_put_all hclear hput
  have h₁ : Recorded ext t₁ skill_id versions := h.of_get_eq fun name => hrest _ fun ⟨q, hq⟩ =>
    (apart_from_versions hvalid q).2 (hq ▸ List.prefix_append _ _)
  obtain ⟨rfl, -, hrecorded, hkept⟩ := run_save_skill_version h₁ hbound hsave
  refine ⟨rfl, hrecorded, v, by simp, fun q => ?_, hne⟩
  obtain ⟨hup, hdown⟩ := apart_from_versions hvalid q
  rw [hkept _ hup hdown]
  exact hlaid q

variable {service : SkillsService} {skill : Skill}

/-- What a creation that succeeds has done. -/
theorem create_skill_ok (hrun : (service.create_skill ext now skill_id files).run t = (.ok skill, t')) :
    is_valid_skill_id skill_id = true ∧ service.is_builtin skill_id = false
      ∧ t.exists (skill_path skill_id) = false ∧ (∀ path ∈ files, is_valid_file_path path = true)
      ∧ ∃ v t₁ t₂, t.create_dir ext.accepts (skill_path skill_id) = .ok t₁
        ∧ (write_skill_files ext (skill_path skill_id) files.toList).run t₁ = (.ok (), t₂)
        ∧ (SkillsService.save_skill_version ext now skill_id files).run t₂ = (.ok v, t') := by
  unfold SkillsService.create_skill at hrun
  obtain ⟨⟨⟩, t₁, hcheck, hrun⟩ := Task.run_bind_ok hrun
  obtain ⟨hvalid, ht₁⟩ := Task.run_return_error_if_ok hcheck
  obtain ⟨⟨⟩, t₂, hcheck, hrun⟩ := Task.run_bind_ok hrun
  obtain ⟨hbuiltin, ht₂⟩ := Task.run_return_error_if_ok hcheck
  obtain ⟨already_there, t₃, hlook, hrun⟩ := Task.run_bind_ok hrun
  obtain ⟨hthere, ht₃⟩ := Task.run_look_ok hlook
  obtain ⟨⟨⟩, t₄, hcheck, hrun⟩ := Task.run_bind_ok hrun
  obtain ⟨hnot, ht₄⟩ := Task.run_return_error_if_ok hcheck
  obtain ⟨⟨⟩, t₅, hpaths, hrun⟩ := Task.run_bind_ok hrun
  obtain ⟨⟨⟩, t₆, hcreate, hrun⟩ := Task.run_bind_ok hrun
  obtain ⟨⟨⟩, t₇, hwrite, hrun⟩ := Task.run_bind_ok hrun
  obtain ⟨v, t₈, hsave, hreturn⟩ := Task.run_bind_ok hrun
  obtain ⟨-, ht₈⟩ := Task.run_look_ok hreturn
  obtain ⟨hpaths, ht₅⟩ := run_validate_file_paths_iff.1 hpaths
  rw [ht₂, ht₁] at hthere
  rw [Task.run_io_ok_iff, ht₅, ht₄, ht₃, ht₂, ht₁] at hcreate
  rw [← Except.ok.inj hthere, Bool.not_eq_true] at hnot
  exact ⟨not_not.1 hvalid, by simpa using hbuiltin, hnot,
    fun path hpath => hpaths path (Std.ExtTreeMap.mem_keys.2 hpath), v, t₆, t₇, hcreate, hwrite, ht₈ ▸ hsave⟩

/-- **Creating** a skill that is not there gives it its first version. -/
theorem run_create_skill (h : Fresh t skill_id)
    (hrun : (service.create_skill ext now skill_id files).run t = (.ok skill, t')) :
    is_valid_skill_id skill_id = true ∧ service.is_builtin skill_id = false
      ∧ ∃ v, v.files = files ∧ History ext t' skill_id [v] := by
  obtain ⟨hvalid, hbuiltin, -, -, v, t₁, t₂, hcreate, hwrite, hsave⟩ := create_skill_ok hrun
  have hfresh : Recorded ext t₁ skill_id [] := (h.recorded ext).of_get_eq fun name => by
    rw [FileTree.get_create_dir hcreate, if_neg]
    intro heq
    have := congrArg List.length heq
    simp [skill_versions_dir, skill_path] at this
  obtain ⟨hfiles, hhistory⟩ :=
    history_of_written hfresh (clear_of_create_dir hcreate) hvalid (by decide) hwrite hsave
  exact ⟨hvalid, hbuiltin, v, hfiles, hhistory⟩

/-- What an update that succeeds has done. -/
theorem update_skill_ok (hrun : (service.update_skill ext now skill_id files).run t = (.ok skill, t')) :
    is_valid_skill_id skill_id = true ∧ service.is_builtin skill_id = false
      ∧ t.get (skill_path skill_id) = some .dir
      ∧ ∃ versions v t₀ t₁ t₂ t₃, service.list_skill_versions ext t skill_id = .ok versions
        ∧ (SkillsService.save_existing_files ext now skill_id versions).run t = (.ok (), t₀)
        ∧ t₀.remove_dir_all (skill_path skill_id) = .ok t₁
        ∧ t₁.create_dir_all ext.accepts (skill_path skill_id) = .ok t₂
        ∧ (write_skill_files ext (skill_path skill_id) files.toList).run t₂ = (.ok (), t₃)
        ∧ (SkillsService.save_skill_version ext now skill_id files).run t₃ = (.ok v, t') := by
  unfold SkillsService.update_skill at hrun
  obtain ⟨⟨⟩, t₁, hcheck, hrun⟩ := Task.run_bind_ok hrun
  obtain ⟨hvalid, ht₁⟩ := Task.run_return_error_if_ok hcheck
  obtain ⟨⟨⟩, t₂, hlook, hrun⟩ := Task.run_bind_ok hrun
  obtain ⟨hensure, ht₂⟩ := Task.run_look_ok hlook
  rw [ht₁] at hensure
  unfold SkillsService.ensure_user_skill_exists at hensure
  split_ifs at hensure with hbuiltin hdir
  obtain ⟨⟨⟩, t₃, hpaths, hrun⟩ := Task.run_bind_ok hrun
  obtain ⟨listed, t₄, hlook, hrun⟩ := Task.run_bind_ok hrun
  obtain ⟨hlist, ht₄⟩ := Task.run_look_ok hlook
  have hthere : t₃ = t := by rw [(run_validate_file_paths_iff.1 hpaths).2, ht₂, ht₁]
  rw [hthere] at hlist ht₄
  obtain ⟨⟨⟩, t₅, hexisting, hrun⟩ := Task.run_bind_ok hrun
  obtain ⟨⟨⟩, t₆, hremove, hrun⟩ := Task.run_bind_ok hrun
  obtain ⟨⟨⟩, t₇, hcreate, hrun⟩ := Task.run_bind_ok hrun
  obtain ⟨⟨⟩, t₈, hwrite, hrun⟩ := Task.run_bind_ok hrun
  obtain ⟨v, t₉, hsave, hreturn⟩ := Task.run_bind_ok hrun
  obtain ⟨-, ht₉⟩ := Task.run_look_ok hreturn
  rw [ht₄] at hexisting
  rw [Task.run_io_ok_iff] at hremove hcreate
  exact ⟨not_not.1 hvalid, by simpa using hbuiltin, FileTree.is_dir_iff.1 (by simpa using hdir), listed, v,
    t₅, t₆, t₇, t₈, hlist, hexisting, hremove, hcreate, hwrite, ht₉ ▸ hsave⟩

/-- **Updating** a skill appends one version with the files that are given. -/
theorem run_update_skill (hext : ext.Lawful)
    (h : History ext t skill_id versions) (hbound : versions.length + 1 < 2 ^ 64)
    (hrun : (service.update_skill ext now skill_id files).run t = (.ok skill, t')) :
    is_valid_skill_id skill_id = true ∧ service.is_builtin skill_id = false
      ∧ ∃ v, v.files = files ∧ History ext t' skill_id (versions ++ [v]) := by
  obtain ⟨hvalid, hbuiltin, -, listed, v, t₀, t₁, t₂, t₃, hlist, hexisting, hremove, hcreate, hwrite, hsave⟩ :=
    update_skill_ok hrun
  rw [(h.reads hext service hvalid hbuiltin).1] at hlist
  obtain rfl : t = t₀ := by
    unfold SkillsService.save_existing_files at hexisting
    rw [← Except.ok.inj hlist, if_neg h.ne_nil] at hexisting
    exact congrArg Prod.snd hexisting
  have hrecorded : Recorded ext t₂ skill_id versions := h.recorded.of_get_eq fun name => by
    have hne := ne_versions_dir hvalid
    rw [FileTree.get_create_dir_all hcreate, if_neg, FileTree.get_remove_dir_all hremove, if_neg]
    · exact fun hpre => hne (List.cons_prefix_cons.1 hpre).1
    · exact fun hpre => hne (List.cons_prefix_cons.1 hpre).1.symm
  obtain ⟨hfiles, hhistory⟩ :=
    history_of_written hrecorded (clear_of_remade hremove hcreate) hvalid hbound hwrite hsave
  exact ⟨hvalid, hbuiltin, v, hfiles, hhistory⟩

/-- **Rolling back** appends one version with the files of the recorded one. -/
theorem run_rollback_skill_version {version : UInt64}
    (hext : ext.Lawful) (h : History ext t skill_id versions) (hbound : versions.length + 1 < 2 ^ 64)
    (hrun : (service.rollback_skill_version ext now skill_id version).run t = (.ok skill, t')) :
    is_valid_skill_id skill_id = true ∧ service.is_builtin skill_id = false
      ∧ ∃ w ∈ versions, w.version = version
        ∧ ∃ v, v.files = w.files ∧ History ext t' skill_id (versions ++ [v]) := by
  unfold SkillsService.rollback_skill_version at hrun
  obtain ⟨⟨⟩, t₁, hcheck, hrun⟩ := Task.run_bind_ok hrun
  obtain ⟨-, ht₁⟩ := Task.run_return_error_if_ok hcheck
  obtain ⟨⟨⟩, t₂, hlook, hrun⟩ := Task.run_bind_ok hrun
  obtain ⟨-, ht₂⟩ := Task.run_look_ok hlook
  obtain ⟨snapshot_exists, t₃, hlook, hrun⟩ := Task.run_bind_ok hrun
  obtain ⟨hexists, ht₃⟩ := Task.run_look_ok hlook
  obtain ⟨⟨⟩, t₄, hcheck, hrun⟩ := Task.run_bind_ok hrun
  obtain ⟨hfile, ht₄⟩ := Task.run_return_error_if_ok hcheck
  obtain ⟨snapshot, t₅, hlook, hrun⟩ := Task.run_bind_ok hrun
  obtain ⟨hread, ht₅⟩ := Task.run_look_ok hlook
  have hthere : t₅ = t := by rw [ht₅, ht₄, ht₃, ht₂, ht₁]
  rw [← ht₅, hthere] at hread
  rw [← Except.ok.inj hexists, not_not, ht₂, ht₁, FileTree.is_file_iff] at hfile
  obtain ⟨content, hget⟩ := hfile
  obtain ⟨w, hw, hname⟩ := h.recorded.named (version_name version) (by
    rw [← skill_version_path, hget]
    rfl)
  have hversion : w.version = version := (version_name_injective hname).symm
  obtain ⟨json, hjson, hdoc⟩ := h.recorded.document w hw
  have hsnapshot : snapshot = w := by
    unfold read_skill_version at hread
    rw [← hversion, FileTree.read_ok_iff.2 hdoc] at hread
    dsimp only at hread
    rw [hext.round_trip w json hjson] at hread
    exact (Except.ok.inj hread).symm
  rw [hthere, hsnapshot] at hrun
  obtain ⟨hvalid, hbuiltin, hupdated⟩ := run_update_skill hext h hbound hrun
  exact ⟨hvalid, hbuiltin, w, hw, hversion, hupdated⟩

theorem run_present_skill (h : t.get (skill_path skill_id) = some .dir) :
    (service.create_skill ext now skill_id files).run t ≠ (.ok skill, t') := by
  intro hrun
  have hnot := (create_skill_ok hrun).2.2.1
  unfold FileTree.exists at hnot
  rw [h] at hnot
  cases hnot

theorem run_missing_skill (h : Fresh t skill_id) :
    (service.update_skill ext now skill_id files).run t ≠ (.ok skill, t') := by
  intro hrun
  have hdir := (update_skill_ok hrun).2.2.1
  rw [h.no_skill] at hdir
  cases hdir

theorem run_missing_version {version : UInt64} (h : Fresh t skill_id) :
    (service.rollback_skill_version ext now skill_id version).run t ≠ (.ok skill, t') := by
  intro hrun
  unfold SkillsService.rollback_skill_version at hrun
  obtain ⟨⟨⟩, t₁, hcheck, hrun⟩ := Task.run_bind_ok hrun
  obtain ⟨-, ht₁⟩ := Task.run_return_error_if_ok hcheck
  obtain ⟨⟨⟩, t₂, hlook, hrun⟩ := Task.run_bind_ok hrun
  obtain ⟨-, ht₂⟩ := Task.run_look_ok hlook
  obtain ⟨snapshot_exists, t₃, hlook, hrun⟩ := Task.run_bind_ok hrun
  obtain ⟨-, ht₃⟩ := Task.run_look_ok hlook
  obtain ⟨⟨⟩, t₄, hcheck, hrun⟩ := Task.run_bind_ok hrun
  obtain ⟨-, ht₄⟩ := Task.run_return_error_if_ok hcheck
  obtain ⟨snapshot, t₅, hlook, hrun⟩ := Task.run_bind_ok hrun
  obtain ⟨-, ht₅⟩ := Task.run_look_ok hlook
  rw [ht₅, ht₄, ht₃, ht₂, ht₁] at hrun
  exact run_missing_skill h hrun

end Operations

/-! ## Runs -/

/-- The operations that record a version. -/
inductive Operation where
  | create (files : Files)
  | update (files : Files)
  | rollback (version : UInt64)

/-- A request to the registry, with the time at which it is served. -/
structure Call where
  skill_id : Text
  now : Text
  operation : Operation

/-- The task of a request. -/
def perform (ext : Externals) (service : SkillsService) (call : Call) : Task Skill :=
  match call.operation with
  | .create files => service.create_skill ext call.now call.skill_id files
  | .update files => service.update_skill ext call.now call.skill_id files
  | .rollback version => service.rollback_skill_version ext call.now call.skill_id version

/-- A request succeeds. -/
def Performed (ext : Externals) (service : SkillsService) (t : Tree) (call : Call) (t' : Tree) : Prop :=
  ∃ skill, (perform ext service call).run t = (.ok skill, t')

/-- The file paths of a request are in normal form. -/
def Operation.Normal : Operation → Prop
  | .create files | .update files => ∀ path ∈ files, Skills.Normal path
  | .rollback _ => True

/-- The versions that are listed; of a skill that is not there, none. -/
def versions_of (ext : Externals) (service : SkillsService) (t : Tree) (skill_id : Text) :
    List SkillVersion :=
  match service.list_skill_versions ext t skill_id with
  | .ok versions => versions
  | .error _ => []

/-- A request keeps the history of a skill. One to another skill changes neither its
versions nor its files. One to the skill itself leaves the versions as they are and
appends one, so that they are numbered from 1; the files of the new version are the
current ones; and these are the files of the version that was asked for, if one
was. -/
structure Kept (ext : Externals) (service : SkillsService) (skill_id : Text) (t : Tree) (call : Call)
    (t' : Tree) : Prop where
  other : call.skill_id ≠ skill_id →
    versions_of ext service t' skill_id = versions_of ext service t skill_id
      ∧ service.get_skill t' skill_id = service.get_skill t skill_id
  own : call.skill_id = skill_id → ∃ v,
    service.list_skill_versions ext t' skill_id = .ok (versions_of ext service t skill_id ++ [v])
      ∧ (versions_of ext service t skill_id ++ [v]).map (fun v => v.version.toNat)
        = List.range' 1 ((versions_of ext service t skill_id).length + 1)
      ∧ (∃ skill, service.get_skill t' skill_id = .ok skill ∧ skill.files = v.files)
      ∧ ∀ version, call.operation = .rollback version →
        ∃ w ∈ versions_of ext service t skill_id, w.version = version
          ∧ ∃ skill, service.get_skill t' skill_id = .ok skill ∧ skill.files = w.files

/-- What holds of a skill after some requests to it: it is not there, or it has a
history of as many versions. -/
def HasHistory (ext : Externals) (service : SkillsService) (skill_id : Text) (n : ℕ) (t : Tree) : Prop :=
  (n = 0 ∧ (is_valid_skill_id skill_id = true → Fresh t skill_id)) ∨ ∃ versions, versions.length = n
    ∧ is_valid_skill_id skill_id = true
    ∧ service.is_builtin skill_id = false ∧ History ext t skill_id versions

/-- The requests to a skill. -/
def requests_to (skill_id : Text) (calls : List Call) : List Call :=
  calls.filter fun call => call.skill_id = skill_id

section Runs

variable {ext : Externals} {service : SkillsService} {skill_id : Text} {t t' : Tree}

variable {call : Call}

theorem run_perform_valid {skill : Skill} (hrun : (perform ext service call).run t = (.ok skill, t')) :
    is_valid_skill_id call.skill_id = true := by
  obtain ⟨id, now, operation⟩ := call
  have hfirst : ∀ {α : Type} {rest : Unit → Task α} {a : α} {t t' : Tree},
      (validate_skill_id id >>= rest).run t = (.ok a, t') → is_valid_skill_id id = true := by
    intro α rest a t t' hrun
    obtain ⟨⟨⟩, t₁, hcheck, -⟩ := Task.run_bind_ok hrun
    exact not_not.1 (Task.run_return_error_if_ok hcheck).1
  cases operation <;> exact hfirst hrun

theorem keeps_perform (call : Call) : Keeps call.skill_id (perform ext service call) := by
  obtain ⟨id, now, operation⟩ := call
  cases operation with
  | create files => exact keeps_create_skill service now files
  | update files => exact keeps_update_skill service now files
  | rollback version => exact keeps_rollback_skill_version service now version

theorem Performed.unique {t₁ t₂ : Tree} (h₁ : Performed ext service t call t₁)
    (h₂ : Performed ext service t call t₂) : t₁ = t₂ := by
  obtain ⟨skill₁, h₁⟩ := h₁
  obtain ⟨skill₂, h₂⟩ := h₂
  rw [h₁] at h₂
  exact congrArg Prod.snd h₂

theorem is_dir_eq_false (h : Fresh t skill_id) : t.is_dir (skill_path skill_id) = false := by
  unfold FileTree.is_dir
  rw [h.no_skill]

/-- Of a skill that is not there, nothing is read. -/
theorem reads_of_missing (h : is_valid_skill_id skill_id = true → Fresh t skill_id) :
    versions_of ext service t skill_id = []
      ∧ service.get_skill t skill_id = if is_valid_skill_id skill_id = true then
          .error (.SkillNotFound skill_id) else .error (.InvalidSkillId skill_id) := by
  unfold versions_of SkillsService.list_skill_versions SkillsService.skill_version_paths
    SkillsService.ensure_user_skill_exists SkillsService.get_skill
  by_cases hvalid : is_valid_skill_id skill_id = true
  · have hdir := is_dir_eq_false (h hvalid)
    refine ⟨?_, by simp [hvalid, hdir]⟩
    by_cases hbuiltin : service.is_builtin skill_id = true
    · simp [hvalid, hbuiltin, bind, Except.bind]
    · simp [hvalid, hbuiltin, hdir, bind, Except.bind]
  · exact ⟨by simp [hvalid, bind, Except.bind], by simp [hvalid]⟩

theorem History.versions_of {versions : List SkillVersion} (h : History ext t skill_id versions)
    (hext : ext.Lawful) (hvalid : is_valid_skill_id skill_id = true)
    (hbuiltin : service.is_builtin skill_id = false) : versions_of ext service t skill_id = versions := by
  unfold Skills.versions_of
  rw [(h.reads hext service hvalid hbuiltin).1]

variable {n : ℕ}

/-- **One request.** It appends one version to the history of its skill, which has the
files that are written. -/
theorem performed_own (hext : ext.Lawful) (hown : call.skill_id = skill_id)
    (h : HasHistory ext service skill_id n t) (hbound : n + 1 < 2 ^ 64)
    (hrun : Performed ext service t call t') :
    is_valid_skill_id skill_id = true ∧ service.is_builtin skill_id = false
      ∧ ∃ v, History ext t' skill_id (versions_of ext service t skill_id ++ [v])
        ∧ (versions_of ext service t skill_id).length = n
        ∧ match call.operation with
          | .create files | .update files => v.files = files
          | .rollback version => ∃ w ∈ versions_of ext service t skill_id,
              w.version = version ∧ v.files = w.files := by
  obtain ⟨id, now, operation⟩ := call
  obtain rfl : id = skill_id := hown
  obtain ⟨skill, hrun⟩ := hrun
  rcases h with ⟨rfl, hmissing⟩ | ⟨versions, rfl, hvalid, hbuiltin, hhistory⟩
  · rw [(reads_of_missing hmissing).1]
    have hfresh := hmissing (run_perform_valid hrun)
    cases operation with
    | create files =>
      obtain ⟨hvalid, hbuiltin, v, hfiles, hhistory⟩ := run_create_skill hfresh hrun
      exact ⟨hvalid, hbuiltin, v, hhistory, rfl, hfiles⟩
    | update files => exact absurd hrun (run_missing_skill hfresh)
    | rollback version => exact absurd hrun (run_missing_version hfresh)
  · rw [hhistory.versions_of hext hvalid hbuiltin]
    cases operation with
    | create files => exact absurd hrun (run_present_skill hhistory.dir)
    | update files =>
      obtain ⟨-, -, v, hfiles, hafter⟩ := run_update_skill hext hhistory hbound hrun
      exact ⟨hvalid, hbuiltin, v, hafter, rfl, hfiles⟩
    | rollback version =>
      obtain ⟨-, -, w, hw, hversion, v, hfiles, hafter⟩ :=
        run_rollback_skill_version hext hhistory hbound hrun
      exact ⟨hvalid, hbuiltin, v, hafter, rfl, w, hw, hversion, hfiles⟩

/-- A request to another skill leaves a history as it is. -/
theorem performed_other (hext : ext.Lawful) (hother : call.skill_id ≠ skill_id)
    (h : HasHistory ext service skill_id n t) (hrun : Performed ext service t call t') :
    HasHistory ext service skill_id n t'
      ∧ versions_of ext service t' skill_id = versions_of ext service t skill_id
      ∧ service.get_skill t' skill_id = service.get_skill t skill_id := by
  obtain ⟨skill, hrun⟩ := hrun
  have hcall := run_perform_valid hrun
  have hsame : SameOutside call.skill_id t t' := keeps_perform call t skill t' hrun
  rcases h with ⟨rfl, hmissing⟩ | ⟨versions, rfl, hvalid, hbuiltin, hhistory⟩
  · have hmissing' : is_valid_skill_id skill_id = true → Fresh t' skill_id := fun hvalid =>
      (hmissing hvalid).of_sameOutside hsame hother hvalid hcall
    obtain ⟨hlist, hget⟩ : versions_of ext service t skill_id = [] ∧ _ := reads_of_missing hmissing
    obtain ⟨hlist', hget'⟩ : versions_of ext service t' skill_id = [] ∧ _ := reads_of_missing hmissing'
    exact ⟨Or.inl ⟨rfl, hmissing'⟩, hlist'.trans hlist.symm, hget'.trans hget.symm⟩
  · have hhistory' := hhistory.of_sameOutside hsame hother hvalid hcall
    obtain ⟨-, v, hv, hget⟩ := hhistory.reads hext service hvalid hbuiltin
    obtain ⟨-, v', hv', hget'⟩ := hhistory'.reads hext service hvalid hbuiltin
    obtain rfl : v = v' := Option.some.inj (hv.symm.trans hv')
    refine ⟨Or.inr ⟨versions, rfl, hvalid, hbuiltin, hhistory'⟩, ?_, hget'.trans hget.symm⟩
    rw [hhistory.versions_of hext hvalid hbuiltin, hhistory'.versions_of hext hvalid hbuiltin]

/-- **A request keeps the history of its skill** exactly if its files are read back as
they were given. -/
theorem kept_own_iff (hext : ext.Lawful) (hown : call.skill_id = skill_id)
    (h : HasHistory ext service skill_id n t) (hbound : n + 1 < 2 ^ 64)
    (hsettled : ∀ v ∈ versions_of ext service t skill_id, stored v.files = v.files)
    (hrun : Performed ext service t call t') : (Kept ext service skill_id t call t' ↔ call.operation.Normal)
      ∧ HasHistory ext service skill_id (n + 1) t'
      ∧ (call.operation.Normal →
        ∀ v ∈ versions_of ext service t' skill_id, stored v.files = v.files) := by
  obtain ⟨hvalid, hbuiltin, v, hhistory, hlength, hfiles⟩ := performed_own hext hown h hbound hrun
  obtain ⟨hlist, last, hlast, hget⟩ := hhistory.reads hext service hvalid hbuiltin
  obtain rfl : last = v := by simpa using hlast.symm
  have hnormal : stored last.files = last.files ↔ call.operation.Normal := by
    cases hop : call.operation with
    | create files | update files =>
      rw [hop] at hfiles
      rw [stored_eq_self_iff, hfiles]
      rfl
    | rollback version =>
      rw [hop] at hfiles
      obtain ⟨w, hw, -, hfiles⟩ := hfiles
      rw [hfiles]
      exact iff_of_true (hsettled w hw) trivial
  refine ⟨⟨fun hkept => ?_, fun hop => ⟨absurd hown, fun _ => ?_⟩⟩, ?_, fun hop v hv => ?_⟩
  · obtain ⟨v, hv, -, ⟨skill, hskill, hsame⟩, -⟩ := hkept.own hown
    rw [hlist] at hv
    obtain rfl : last = v := by simpa using hv
    rw [hget] at hskill
    rw [← Except.ok.inj hskill] at hsame
    exact hnormal.1 hsame
  · have hget : service.get_skill t' skill_id = .ok ⟨skill_id, last.files, .User⟩ := by
      rw [hget, hnormal.2 hop]
    refine ⟨last, hlist, ?_, ⟨_, hget, rfl⟩, fun version hversion => ?_⟩
    · simpa using hhistory.recorded.numbered
    · rw [hversion] at hfiles
      obtain ⟨w, hw, hnumber, hsame⟩ := hfiles
      exact ⟨w, hw, hnumber, _, hget, hsame⟩
  · exact Or.inr ⟨_, by simp [hlength], hvalid, hbuiltin, hhistory⟩
  · rw [hhistory.versions_of hext hvalid hbuiltin] at hv
    rcases List.mem_append.1 hv with hv | hv
    · exact hsettled v hv
    · rw [List.mem_singleton.1 hv]
      exact hnormal.2 hop

theorem not_kept_own (hext : ext.Lawful) (hown : call.skill_id = skill_id)
    (h : HasHistory ext service skill_id n t) (hbound : n + 1 = 2 ^ 64) :
    ¬Kept ext service skill_id t call t' := by
  intro hkept
  obtain ⟨v, -, hnumbered, -⟩ := hkept.own hown
  have hlength : (versions_of ext service t skill_id).length = n := by
    rcases h with ⟨rfl, hmissing⟩ | ⟨versions, rfl, hvalid, hbuiltin, hhistory⟩
    · rw [(reads_of_missing hmissing).1]
      rfl
    · rw [hhistory.versions_of hext hvalid hbuiltin]
  have hlast : v.version.toNat = n + 1 := by
    have := congrArg List.getLast? hnumbered
    rw [hlength, List.range'_concat] at this
    simp only [List.map_append, List.map_cons, List.map_nil, List.getLast?_append,
      List.getLast?_singleton, Option.some_or, Option.some.injEq] at this
    omega
  have := v.version.toNat_lt
  omega

/-- **The history of a skill.** Over every run of requests that succeed, to this skill and to
others, every request keeps its history exactly if the file paths that are given for it
are in normal form and there are fewer than 2⁶⁴ requests to it. -/
theorem history_kept_iff {calls : List Call} {init last : Tree} (hext : ext.Lawful)
    (hfresh : Fresh init skill_id) (hrun : Run (Performed ext service) init calls last) :
    Run (Guarded (Performed ext service) (Kept ext service skill_id)) init calls last
      ↔ (∀ call ∈ calls, call.skill_id = skill_id → call.operation.Normal)
        ∧ (requests_to skill_id calls).length < 2 ^ 64 := by
  suffices hgeneral : ∀ n, HasHistory ext service skill_id n init → n < 2 ^ 64 →
      (∀ v ∈ versions_of ext service init skill_id, stored v.files = v.files) →
      (Run (Guarded (Performed ext service) (Kept ext service skill_id)) init calls last
        ↔ (∀ call ∈ calls, call.skill_id = skill_id → call.operation.Normal)
          ∧ n + (requests_to skill_id calls).length < 2 ^ 64) by
    have := hgeneral 0 (Or.inl ⟨rfl, fun _ => hfresh⟩) (by decide) (by
      rw [(reads_of_missing fun _ => hfresh).1]
      simp)
    simpa using this
  clear hfresh
  induction hrun with
  | nil t =>
    intro n _ hn _
    exact iff_of_true (.nil t) ⟨by simp, by simpa [requests_to] using hn⟩
  | @cons t t₁ last call calls hstep _ ih =>
    intro n h hn hsettled
    rw [Run.guarded_cons_iff hstep fun _ h => h.unique hstep]
    simp only [List.forall_mem_cons]
    by_cases hown : call.skill_id = skill_id
    · have hcount : (requests_to skill_id (call :: calls)).length
          = (requests_to skill_id calls).length + 1 := by
        simp [requests_to, hown]
      rw [hcount]
      by_cases hbound : n + 1 < 2 ^ 64
      · obtain ⟨hkept, hafter, hsettled'⟩ := kept_own_iff hext hown h hbound hsettled hstep
        rw [hkept]
        constructor
        · rintro ⟨hop, hrest⟩
          obtain ⟨hnormal, hlength⟩ := (ih (n + 1) hafter hbound (hsettled' hop)).1 hrest
          exact ⟨⟨fun _ => hop, hnormal⟩, by omega⟩
        · rintro ⟨⟨hop, hnormal⟩, hlength⟩
          exact ⟨hop hown, (ih (n + 1) hafter hbound (hsettled' (hop hown))).2 ⟨hnormal, by omega⟩⟩
      · refine iff_of_false (fun hkept => ?_) (by omega)
        exact not_kept_own hext hown h (by omega) hkept.1
    · have hcount : requests_to skill_id (call :: calls) = requests_to skill_id calls := by
        simp [requests_to, hown]
      obtain ⟨hafter, hlist, hget⟩ := performed_other hext hown h hstep
      rw [hcount, ih n hafter hn (by rwa [hlist])]
      exact ⟨fun ⟨_, hnormal, hlength⟩ => ⟨⟨fun h => absurd h hown, hnormal⟩, hlength⟩,
        fun ⟨⟨_, hnormal⟩, hlength⟩ => ⟨⟨fun _ => ⟨hlist, hget⟩, fun h => absurd h hown⟩, hnormal,
          hlength⟩⟩

end Runs

/-! ## A path that is not in normal form -/

instance : DecidableEq SkillVersion := fun _ _ => decidable_of_iff _ SkillVersion.ext_iff.symm

/-- JSON for known versions. -/
def known_externals (known : List (SkillVersion × Text)) : Externals where
  accepts _ := true
  to_vec_pretty v :=
    match known.find? fun k => k.1 = v with
    | some k => .ok k.2
    | none => .error "unsupported"
  from_str content :=
    match known.find? fun k => k.2 = content with
    | some k => .ok k.1
    | none => .error "unsupported"

theorem known_externals_lawful {known : List (SkillVersion × Text)}
    (hinj : ∀ k ∈ known, ∀ l ∈ known, k.2 = l.2 → k.1 = l.1) : (known_externals known).Lawful := by
  refine ⟨fun _ _ => rfl, fun v content h => ?_⟩
  unfold known_externals at h ⊢
  dsimp only at h ⊢
  cases hv : known.find? fun k => k.1 = v with
  | none =>
    rw [hv] at h
    cases h
  | some k =>
    rw [hv] at h
    obtain rfl : k.2 = content := Except.ok.inj h
    obtain ⟨hk, rfl⟩ : k ∈ known ∧ k.1 = v :=
      ⟨List.mem_of_find?_eq_some hv, by simpa using List.find?_some hv⟩
    cases hl : known.find? fun l => l.2 = k.2 with
    | none =>
      have hne := List.find?_eq_none.1 hl k hk
      simp at hne
    | some l =>
      have hcontent : l.2 = k.2 := by simpa using List.find?_some hl
      exact congrArg Except.ok (hinj l (List.mem_of_find?_eq_some hl) k hk hcontent)

/-- A host without skills. -/
def no_skills : Tree := ⟨∅, by
  intro path name h
  cases path <;> simp [Nodes.get] at h⟩

theorem fresh_no_skills (skill_id : Text) : Fresh no_skills skill_id :=
  ⟨by simp [no_skills, FileTree.get, Nodes.get, skill_path],
    fun name => by simp [no_skills, FileTree.get, Nodes.get, skill_versions_dir]⟩

/-- A file, and a file whose path starts at the directory. -/
def plain_files : Files := Std.ExtTreeMap.ofList [("SKILL.md".toList, "# Notes".toList)] compare

@[inherit_doc plain_files]
def dotted_files : Files := Std.ExtTreeMap.ofList [("./SKILL.md".toList, "# Notes".toList)] compare

/-- The first version of a skill with these files. -/
def first_version (files : Files) : SkillVersion :=
  ⟨"notes".toList, 1, "2026-01-01T00:00:00.000000Z".toList, files⟩

/-- Its JSON. -/
def first_version_json (path : String) : Text :=
  ("\x7b\n  \"skill_id\": \"notes\",\n  \"version\": 1,\n"
    ++ "  \"created_at\": \"2026-01-01T00:00:00.000000Z\",\n"
    ++ "  \"files\": \x7b\n    \"" ++ path ++ "\": \"# Notes\"\n  \x7d\n\x7d").toList

/-- The JSON of both first versions. -/
def known_versions : Externals :=
  known_externals [(first_version plain_files, first_version_json "SKILL.md"),
    (first_version dotted_files, first_version_json "./SKILL.md")]

theorem known_versions_lawful : known_versions.Lawful :=
  known_externals_lawful (by decide +kernel)

/-- A host without built-in skills. -/
def user_skills : SkillsService := ⟨[]⟩

/-- The request that creates a skill with these files. -/
def create_notes (files : Files) : Call :=
  ⟨"notes".toList, "2026-01-01T00:00:00.000000Z".toList, .create files⟩

/-- The tree after it. -/
def created (files : Files) : Tree := ((perform known_versions user_skills
    (create_notes files)).run no_skills).2

theorem performed_create_notes {files : Files}
    (h : ((perform known_versions user_skills (create_notes files)).run no_skills).1.isOk = true) :
    Performed known_versions user_skills no_skills (create_notes files) (created files) := by
  unfold created Performed
  generalize (perform known_versions user_skills (create_notes files)).run no_skills = result at h ⊢
  obtain ⟨answer, t⟩ := result
  cases answer with
  | error e => cases h
  | ok skill => exact ⟨skill, rfl⟩

theorem performed_plain :
    Performed known_versions user_skills no_skills (create_notes plain_files) (created plain_files) :=
  performed_create_notes (by decide +kernel)

theorem performed_dotted :
    Performed known_versions user_skills no_skills (create_notes dotted_files) (created dotted_files) :=
  performed_create_notes (by decide +kernel)

theorem history_kept_plain : (Fresh no_skills "notes".toList
        ∧ Run (Performed known_versions user_skills) no_skills [create_notes plain_files]
          (created plain_files))
      ∧ (Run (Guarded (Performed known_versions user_skills)
            (Kept known_versions user_skills "notes".toList)) no_skills [create_notes plain_files]
            (created plain_files)
          ↔ (∀ call ∈ [create_notes plain_files], call.skill_id = "notes".toList →
              call.operation.Normal)
            ∧ (requests_to "notes".toList [create_notes plain_files]).length < 2 ^ 64) :=
  ⟨⟨fresh_no_skills _, .single performed_plain⟩,
    history_kept_iff known_versions_lawful (fresh_no_skills _) (.single performed_plain)⟩

/-- **The recorded files are not the current ones** of a skill that is created with
`./SKILL.md`. -/
theorem dotted_path_is_not_recorded :
    Run (Performed known_versions user_skills) no_skills [create_notes dotted_files] (created dotted_files)
      ∧ ¬Run (Guarded (Performed known_versions user_skills)
          (Kept known_versions user_skills "notes".toList)) no_skills [create_notes dotted_files]
          (created dotted_files) := by
  refine ⟨.single performed_dotted, fun hrun => ?_⟩
  rw [Run.guarded_cons_iff performed_dotted fun _ h => h.unique performed_dotted] at hrun
  have hsettled : ∀ v ∈ versions_of known_versions user_skills no_skills "notes".toList,
      stored v.files = v.files := by
    rw [(reads_of_missing fun _ => fresh_no_skills _).1]
    simp
  have hnormal := (kept_own_iff known_versions_lawful rfl (Or.inl ⟨rfl, fun _ => fresh_no_skills _⟩)
    (by decide) hsettled performed_dotted).1.1 hrun.1
  have hdotted : ¬Skills.Normal "./SKILL.md".toList := by decide
  exact hdotted (hnormal "./SKILL.md".toList (by decide +kernel))

end AgentSpace.Skills
