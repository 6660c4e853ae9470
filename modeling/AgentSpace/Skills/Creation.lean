/-
When a skill is created.

Creating a skill checks its id and its file paths, and then writes; each write can
fail. It succeeds exactly if the operating system takes every path that is written and no
file is to become a directory for another.
-/
import AgentSpace.Skills.History

set_option autoImplicit false

namespace AgentSpace.Skills

open Text Lib

/-! ## The paths of files -/

/-- No file is a directory of another, when their paths are normalized. -/
def NoFileBelowAFile (files : Files) : Prop :=
  ∀ path ∈ files, ∀ other ∈ files,
    ¬FileTree.Above (normalize_posix_relative_path path) (normalize_posix_relative_path other)

/-- The operating system takes the paths that are written for a new skill. -/
structure Taken (ext : Externals) (skill_id : Text) (files : Files) : Prop where
  skill_dir : ext.accepts (skill_path skill_id) = true
  file : ∀ path ∈ files, ext.accepts (skill_path skill_id ++ normalize_posix_relative_path path) = true
  version : ext.accepts (skill_version_path skill_id 1) = true

/-- There is no such skill and no version of it, and no file where its versions go. -/
structure Ready (t : Tree) (skill_id : Text) : Prop extends Fresh t skill_id where
  no_file : ∀ q, q <+: skill_versions_dir skill_id → ∀ content, t.get q ≠ some (.file content)

theorem foldlM_file_component (parts : List Text) (found : Bool) :
    (parts.foldlM (fun has_file_component component =>
        if component = "..".toList then none
        else some (has_file_component || !(component = [] || component = ".".toList))) found).getD false
      = (decide ("..".toList ∉ parts)
        && (found || parts.any fun component => component ≠ [] && component ≠ ".".toList)) := by
  induction parts generalizing found with
  | nil => simp
  | cons component rest ih =>
    rw [List.foldlM_cons]
    by_cases hup : component = "..".toList
    · simp [hup]
    · have hup' : ¬"..".toList = component := fun h => hup h.symm
      simp only [if_neg hup, Option.bind_eq_bind, Option.bind_some, ih, List.mem_cons, hup',
        false_or, List.any_cons, Bool.or_assoc]
      congr 3
      by_cases hempty : component = [] <;> simp [hempty]

theorem is_valid_file_path_iff (path : Text) :
    is_valid_file_path path = true ↔
      path.head? ≠ some '/' ∧ "..".toList ∉ split '/' path
        ∧ normalize_posix_relative_path path ≠ [] := by
  have hnames : normalize_posix_relative_path path ≠ []
      ↔ (split '/' path).any (fun component => component ≠ [] && component ≠ ".".toList) = true := by
    unfold normalize_posix_relative_path
    rw [List.any_eq_true, Ne, List.filter_eq_nil_iff]
    push Not
    rfl
  have hempty : normalize_posix_relative_path path ≠ [] → path ≠ [] := by
    rintro hne rfl
    exact hne (by decide)
  unfold is_valid_file_path has_file_component
  rw [foldlM_file_component, hnames]
  simp only [Bool.and_eq_true, decide_eq_true_eq, Bool.false_or]
  constructor
  · rintro ⟨⟨-, hhead⟩, hup, hany⟩
    exact ⟨hhead, hup, hany⟩
  · rintro ⟨hhead, hup, hany⟩
    exact ⟨⟨hempty (hnames.2 hany), hhead⟩, hup, hany⟩

/-! ## Runs that succeed -/

section Runs

variable {ext : Externals} {service : SkillsService} {t t' : Tree} {skill_id now : Text} {files : Files}

theorem mem_of_mem_toList {f : Text × Text} (h : f ∈ files.toList) : f.1 ∈ files := by
  rw [Std.ExtTreeMap.mem_iff_isSome_getElem?, Std.ExtTreeMap.mem_toList_iff_getElem?_eq_some.1 h]
  rfl

theorem exists_mem_toList {path : Text} (h : path ∈ files) : ∃ content, (path, content) ∈ files.toList := by
  rw [Std.ExtTreeMap.mem_iff_isSome_getElem?, Option.isSome_iff_exists] at h
  obtain ⟨content, h⟩ := h
  exact ⟨content, Std.ExtTreeMap.mem_toList_iff_getElem?_eq_some.2 h⟩

/-- **The files of a skill can be written** into an empty directory exactly if each has a
path that is taken, and none is a directory of another. -/
theorem put_all_writes_iff (hext : ext.Lawful) (hclear : Clear t (skill_path skill_id)) :
    (∃ t', t.put_all ext.accepts (writes_in (skill_path skill_id) files) = .ok t') ↔
      (∀ path ∈ files, normalize_posix_relative_path path ≠ []
        ∧ ext.accepts (skill_path skill_id ++ normalize_posix_relative_path path) = true)
      ∧ NoFileBelowAFile files := by
  have habove : ∀ p q : Path, FileTree.Above (skill_path skill_id ++ p) (skill_path skill_id ++ q)
      ↔ FileTree.Above p q := by
    intro p q
    unfold FileTree.Above
    rw [List.prefix_append_right_inj, Ne, List.append_cancel_left_eq]
  have hfits : ∀ p : Path, FileTree.Fits ext.accepts t (skill_path skill_id ++ p)
      ↔ p ≠ [] ∧ ext.accepts (skill_path skill_id ++ p) = true := by
    intro p
    constructor
    · intro h
      refine ⟨?_, h.accepted⟩
      rintro rfl
      exact h.no_dir (by rw [List.append_nil]; exact hclear.1)
    · rintro ⟨hne, haccepts⟩
      refine ⟨hext.accepts_dropLast _ haccepts, haccepts, fun q hq content hfile => ?_, ?_⟩
      · rcases List.prefix_or_prefix_of_prefix hq.1 (List.prefix_append (skill_path skill_id) p) with h | h
        · have hdir : t.get q = some .dir := by
            by_cases heq : q = skill_path skill_id
            · rw [heq, hclear.1]
            · exact t.get_of_prefix h heq (by rw [hclear.1]; rfl)
          rw [hdir] at hfile
          cases hfile
        · obtain ⟨rest, rfl⟩ := h
          by_cases hrest : rest = []
          · rw [hrest, List.append_nil, hclear.1] at hfile
            cases hfile
          · rw [hclear.2 rest hrest] at hfile
            cases hfile
      · rw [hclear.2 p hne]
        exact Option.some_ne_none _ ∘ Eq.symm
  rw [FileTree.put_all_ok_iff, writes_in_eq, List.pairwise_map]
  refine and_congr ⟨fun h path hpath => ?_, fun h w hw => ?_⟩ ⟨fun h => ?_, fun h => ?_⟩
  · obtain ⟨content, hmem⟩ := exists_mem_toList hpath
    exact (hfits _).1 (h _ (List.mem_map.2 ⟨_, hmem, rfl⟩))
  · obtain ⟨f, hf, rfl⟩ := List.mem_map.1 hw
    exact (hfits _).2 (h f.1 (mem_of_mem_toList hf))
  · intro path hpath other hother hbelow
    obtain ⟨content, hmem⟩ := exists_mem_toList hpath
    obtain ⟨content', hmem'⟩ := exists_mem_toList hother
    have hsymm : Std.Symm fun f g : Text × Text => FileTree.Apart
        (skill_path skill_id ++ normalize_posix_relative_path f.1)
        (skill_path skill_id ++ normalize_posix_relative_path g.1) := ⟨fun _ _ h => h.symm⟩
    have hne : (path, content) ≠ (other, content') := by
      intro heq
      rw [(Prod.mk.inj heq).1] at hbelow
      exact hbelow.2 rfl
    exact (h.forall hmem hmem' hne).1 ((habove _ _).2 hbelow)
  · refine List.Pairwise.imp_of_mem (R := fun _ _ => True) (fun hf hg _ => ?_)
      (List.pairwise_of_forall fun _ _ => trivial)
    rw [FileTree.Apart, habove, habove]
    exact ⟨h _ (mem_of_mem_toList hf) _ (mem_of_mem_toList hg),
      h _ (mem_of_mem_toList hg) _ (mem_of_mem_toList hf)⟩

theorem Ready.first_version (h : Ready t skill_id) (ext : Externals)
    (hsame : ∀ q, q <+: skill_versions_dir skill_id ∨ skill_versions_dir skill_id <+: q → t'.get q = t.get q) :
    Recorded ext t' skill_id []
      ∧ ∀ q, q <+: skill_versions_dir skill_id → ∀ content, t'.get q ≠ some (.file content) := by
  refine ⟨(h.recorded ext).of_get_eq fun name => hsame _ (Or.inr (List.prefix_append _ _)), fun q hq => ?_⟩
  rw [hsame q (Or.inl hq)]
  exact h.no_file q hq

/-- **The first version** is saved exactly if the path of its document is taken. -/
theorem save_first_version_iff (hext : ext.Lawful) (hrecorded : Recorded ext t skill_id [])
    (hno_file : ∀ q, q <+: skill_versions_dir skill_id → ∀ content, t.get q ≠ some (.file content))
    (hjson : ∃ content, ext.to_vec_pretty ⟨skill_id, 1, now, files⟩ = .ok content) :
    (∃ v t', (SkillsService.save_skill_version ext now skill_id files).run t = (.ok v, t')) ↔
      ext.accepts (skill_version_path skill_id 1) = true := by
  have hnumber : ∀ {t₁ : Tree}, t.create_dir_all ext.accepts (skill_versions_dir skill_id) = .ok t₁ →
      next_skill_version t₁ (skill_versions_dir skill_id) = 1 := by
    intro t₁ hcreate
    have h₁ : Recorded ext t₁ skill_id [] := hrecorded.of_get_eq fun name => by
      rw [FileTree.get_create_dir_all hcreate, if_neg]
      intro hpre
      have := hpre.length_le
      simp at this
    exact UInt64.toNat.inj (h₁.next_skill_version (by decide))
  obtain ⟨content, hjson⟩ := hjson
  constructor
  · rintro ⟨v, t', hrun⟩
    unfold SkillsService.save_skill_version at hrun
    obtain ⟨⟨⟩, t₁, hcreate, hrun⟩ := Task.run_bind_ok hrun
    obtain ⟨version, t₂, hlook, hrun⟩ := Task.run_bind_ok hrun
    obtain ⟨hversion, ht₂⟩ := Task.run_look_ok hlook
    obtain ⟨json, t₃, -, hrun⟩ := Task.run_bind_ok hrun
    obtain ⟨⟨⟩, t₄, hwrite, -⟩ := Task.run_bind_ok hrun
    rw [Task.run_io_ok_iff] at hcreate hwrite
    rw [← Except.ok.inj hversion, hnumber hcreate] at hwrite
    exact (FileTree.write_ok_iff.1 ⟨t₄, hwrite⟩).1
  · intro haccepts
    have hparent : (skill_version_path skill_id 1).dropLast = skill_versions_dir skill_id :=
      List.dropLast_concat
    have hdir := hext.accepts_dropLast _ haccepts
    rw [hparent] at hdir
    obtain ⟨t₁, hcreate⟩ := FileTree.create_dir_all_ok_iff.2 ⟨hdir, hno_file⟩
    have hnone : t₁.get (skill_version_path skill_id 1) = none := by
      rw [FileTree.get_create_dir_all hcreate, if_neg]
      · by_contra hsome
        obtain ⟨v, hv, -⟩ := hrecorded.named _ (Option.isSome_iff_ne_none.2 hsome)
        cases hv
      · intro hpre
        have := hpre.length_le
        simp [skill_version_path] at this
    have hno_dir : t₁.get (skill_version_path skill_id 1) ≠ some .dir := by
      rw [hnone]
      exact Option.some_ne_none _ ∘ Eq.symm
    have hthere : t₁.get (skill_version_path skill_id 1).dropLast = some .dir := by
      rw [hparent, FileTree.get_create_dir_all hcreate, if_pos (List.prefix_refl _)]
    obtain ⟨t₂, hwrite⟩ : ∃ t₂, t₁.write ext.accepts (skill_version_path skill_id 1) content = .ok t₂ :=
      FileTree.write_ok_iff.2 ⟨haccepts, hno_dir, hthere⟩
    have hlook : (Task.look fun t => .ok (next_skill_version t (skill_versions_dir skill_id))).run t₁
        = (.ok 1, t₁) := by
      rw [Task.run_look, hnumber hcreate]
    have hserialized : (Task.look fun _ => (ext.to_vec_pretty ⟨skill_id, 1, now, files⟩).mapError
        (.Json "serialize skill version" (skill_version_path skill_id 1))).run t₁ = (.ok content, t₁) := by
      rw [Task.run_look, hjson]
      rfl
    refine ⟨⟨skill_id, 1, now, files⟩, t₂, ?_⟩
    unfold SkillsService.save_skill_version
    rw [Task.run_bind_of_ok (Task.run_io_ok_iff.2 hcreate), Task.run_bind_of_ok hlook]
    dsimp only
    rw [Task.run_bind_of_ok hserialized, Task.run_bind_of_ok (Task.run_io_ok_iff.2 hwrite)]
    rfl

/-- **A skill is created** exactly if its id is one of a user's skill, its file paths are
valid, the operating system takes them, and no file is a directory of another. -/
theorem create_skill_iff (hext : ext.Lawful) (hready : Ready t skill_id)
    (hjson : ∃ content, ext.to_vec_pretty ⟨skill_id, 1, now, files⟩ = .ok content) :
    (∃ skill t', (service.create_skill ext now skill_id files).run t = (.ok skill, t')) ↔
      is_valid_skill_id skill_id = true ∧ service.is_builtin skill_id = false
        ∧ (∀ path ∈ files, is_valid_file_path path = true) ∧ Taken ext skill_id files
        ∧ NoFileBelowAFile files := by
  -- where the versions of the skill go, after it is created
  have hwritten : is_valid_skill_id skill_id = true → ∀ {t₁ t₂ : Tree},
      t.create_dir ext.accepts (skill_path skill_id) = .ok t₁ →
      (write_skill_files ext (skill_path skill_id) files.toList).run t₁ = (.ok (), t₂) →
      ∀ q, q <+: skill_versions_dir skill_id ∨ skill_versions_dir skill_id <+: q → t₂.get q = t.get q := by
    intro hvalid t₁ t₂ hcreate hwrite q hq
    have hput := (run_write_skill_files _ _).1 hwrite
    rw [← writes_in_eq] at hput
    have hdir := ne_versions_dir hvalid
    have hapart : ¬skill_path skill_id <+: q := by
      rintro ⟨rest, rfl⟩
      rcases hq with hq | hq
      · exact hdir (List.cons_prefix_cons.1 hq).1
      · exact hdir (List.cons_prefix_cons.1 hq).1.symm
    rw [(laid_out_of_put_all (clear_of_create_dir hcreate) hput).2.2 q hapart, FileTree.get_create_dir hcreate, if_neg]
    rintro rfl
    exact hapart (List.prefix_refl _)
  constructor
  · rintro ⟨skill, t', hrun⟩
    obtain ⟨hvalid, hbuiltin, -, hpaths, v, t₁, t₂, hcreate, hwrite, hsave⟩ := create_skill_ok hrun
    have hput := (run_write_skill_files _ _).1 hwrite
    rw [← writes_in_eq] at hput
    obtain ⟨hfiles, hbelow⟩ := (put_all_writes_iff hext (clear_of_create_dir hcreate)).1 ⟨t₂, hput⟩
    obtain ⟨hrecorded, hno_file⟩ := hready.first_version ext (hwritten hvalid hcreate hwrite)
    refine ⟨hvalid, hbuiltin, hpaths, ⟨(FileTree.create_dir_ok_iff.1 ⟨t₁, hcreate⟩).1,
      fun path hpath => (hfiles path hpath).2, ?_⟩, hbelow⟩
    exact (save_first_version_iff hext hrecorded hno_file hjson).1 ⟨v, t', hsave⟩
  · rintro ⟨hvalid, hbuiltin, hpaths, htaken, hbelow⟩
    have hroot : t.get (skill_path skill_id).dropLast = some .dir := FileTree.get_root t
    obtain ⟨t₁, hcreate⟩ := FileTree.create_dir_ok_iff.2 ⟨htaken.skill_dir, hready.no_skill, hroot⟩
    obtain ⟨t₂, hput⟩ := (put_all_writes_iff hext (clear_of_create_dir hcreate)).2
      ⟨fun path hpath => ⟨((is_valid_file_path_iff path).1 (hpaths path hpath)).2.2, htaken.file path hpath⟩,
        hbelow⟩
    rw [writes_in_eq] at hput
    have hwrite := (run_write_skill_files _ _).2 hput
    have hsame := hwritten hvalid hcreate hwrite
    obtain ⟨hrecorded, hno_file⟩ := hready.first_version ext hsame
    obtain ⟨v, t₃, hsave⟩ := (save_first_version_iff hext hrecorded hno_file hjson).2 htaken.version
    have hfresh : Recorded ext t₁ skill_id [] := (hready.recorded ext).of_get_eq fun name => by
      rw [FileTree.get_create_dir hcreate, if_neg]
      intro heq
      have := congrArg List.length heq
      simp [skill_versions_dir, skill_path] at this
    obtain ⟨-, hhistory⟩ := history_of_written hfresh (clear_of_create_dir hcreate) hvalid (by decide) hwrite hsave
    have hexists : t.exists (skill_path skill_id) = false := by
      unfold FileTree.exists
      rw [hready.no_skill]
      rfl
    have hlook : (Task.look fun t => .ok (t.exists (skill_path skill_id))).run t = (.ok false, t) := by
      rw [Task.run_look, hexists]
    have hkeys : (validate_file_paths files.keys).run t = (.ok (), t) :=
      run_validate_file_paths_iff.2 ⟨fun path hpath => hpaths path (Std.ExtTreeMap.mem_keys.1 hpath), rfl⟩
    obtain ⟨skill, hread⟩ : ∃ skill,
        (Task.look fun t => SkillsService.user_skill t skill_id).run t₃ = (.ok skill, t₃) := by
      simp only [Task.run_look]
      unfold SkillsService.user_skill read_skill_files
      rw [if_pos (FileTree.is_dir_iff.2 hhistory.dir)]
      exact ⟨_, rfl⟩
    refine ⟨skill, t₃, ?_⟩
    unfold SkillsService.create_skill validate_skill_id
    rw [Task.run_bind_of_ok (Task.run_return_error_if _ (not_not.2 hvalid)),
      Task.run_bind_of_ok (Task.run_return_error_if _ (by simp [hbuiltin])),
      Task.run_bind_of_ok hlook, Task.run_bind_of_ok (Task.run_return_error_if _ (by simp)),
      Task.run_bind_of_ok hkeys, Task.run_bind_of_ok (Task.run_io_ok_iff.2 hcreate),
      Task.run_bind_of_ok hwrite, Task.run_bind_of_ok hsave]
    exact hread

end Runs

end AgentSpace.Skills
