/-
What the files of a skill become on disk, and what is read back.

The paths a caller gives are normalized when the files are written, and what is
read back has the normalized paths. Where two given paths have one normal form,
the later file replaces the earlier.
-/
import AgentSpace.Skills.Service

set_option autoImplicit false

namespace AgentSpace.Skills

open Text Lib

/-! ## Normalized paths -/

/-- The names of a path below a skill: not empty, and without a slash. -/
def Names (path : Path) : Prop := ∀ name ∈ path, name ≠ [] ∧ '/' ∉ name

theorem names_normalize (relative_path : Text) : Names (normalize_posix_relative_path relative_path) := by
  intro name hname
  unfold normalize_posix_relative_path at hname
  obtain ⟨hmem, hkeep⟩ := List.mem_filter.1 hname
  simp only [Bool.and_eq_true, decide_eq_true_eq] at hkeep
  exact ⟨hkeep.1, not_mem_of_mem_split hmem⟩

theorem split_join_names {path : Path} (hne : path ≠ []) (h : Names path) :
    split '/' (join ['/'] path) = path :=
  split_join hne fun name hname => (h name hname).2

theorem normalize_join_normalize (relative_path : Text) :
    normalize_posix_relative_path (join ['/'] (normalize_posix_relative_path relative_path))
      = normalize_posix_relative_path relative_path := by
  by_cases hne : normalize_posix_relative_path relative_path = []
  · rw [hne]
    rfl
  · have hsplit := split_join_names hne (names_normalize relative_path)
    unfold normalize_posix_relative_path at hsplit ⊢
    rw [hsplit, List.filter_filter]
    exact List.filter_congr fun _ _ => by simp

theorem join_injective {p q : Path} (hp : Names p) (hq : Names q) (hpne : p ≠ []) (hqne : q ≠ [])
    (h : join ['/'] p = join ['/'] q) : p = q := by
  rw [← split_join_names hpne hp, ← split_join_names hqne hq, h]

/-- The file paths that are read back as they are given. -/
def Normal (relative_path : Text) : Prop :=
  join ['/'] (normalize_posix_relative_path relative_path) = relative_path

instance (relative_path : Text) : Decidable (Normal relative_path) :=
  inferInstanceAs (Decidable (_ = _))

/-! ## Maps that are filled in a loop -/

/-- A loop that inserts: each key has what was inserted last. -/
theorem getElem?_foldl_insert {α : Type} (key value : α → Text) (items : List α) (files : Files)
    (k : Text) : (items.foldl (fun files a => files.insert (key a) (value a)) files)[k]?
      = match items.reverse.find? fun a => key a = k with
        | some a => some (value a)
        | none => files[k]? := by
  induction items generalizing files with
  | nil => rfl
  | cons a rest ih =>
    rw [List.foldl_cons, ih, List.reverse_cons, List.find?_append]
    cases rest.reverse.find? fun a => key a = k with
    | some b => rfl
    | none =>
      rw [Option.none_or, Std.ExtTreeMap.getElem?_insert]
      simp only [Std.LawfulEqCmp.compare_eq_iff_eq]
      by_cases h : key a = k <;> simp [h]

/-! ## Files as they are written -/

/-- The files of a skill with their normalized paths, in the order they are written. -/
def writes (files : Files) : List (Path × Text) :=
  files.toList.map fun f => (normalize_posix_relative_path f.1, f.2)

/-- The files as they are read back. -/
def stored (files : Files) : Files :=
  (writes files).foldl (fun files w => files.insert (join ['/'] w.1) w.2) ∅

variable {files : Files}

theorem mem_writes {w : Path × Text} (h : w ∈ writes files) :
    ∃ f ∈ files.toList, w.1 = normalize_posix_relative_path f.1 ∧ w.2 = f.2 := by
  unfold writes at h
  obtain ⟨f, hf, rfl⟩ := List.mem_map.1 h
  exact ⟨f, hf, rfl, rfl⟩

/-- **What is read back.** It is what was given exactly if all paths are in normal
form. -/
theorem stored_eq_self_iff (files : Files) : stored files = files ↔ ∀ path ∈ files, Normal path := by
  constructor
  · intro h path hpath
    rw [← h, stored, Std.ExtTreeMap.mem_iff_isSome_getElem?, getElem?_foldl_insert] at hpath
    cases hfind : (writes files).reverse.find? fun w => join ['/'] w.1 = path with
    | none => simp [hfind] at hpath
    | some w =>
      have hw : join ['/'] w.1 = path := by simpa using List.find?_some hfind
      obtain ⟨f, -, hf, -⟩ := mem_writes (List.mem_reverse.1 (List.mem_of_find?_eq_some hfind))
      unfold Normal
      rw [← hw, hf, normalize_join_normalize]
  · intro h
    have hkeys : ∀ f ∈ files.toList, join ['/'] (normalize_posix_relative_path f.1) = f.1 := by
      intro f hf
      refine h f.1 ?_
      rw [Std.ExtTreeMap.mem_iff_isSome_getElem?,
        Std.ExtTreeMap.mem_toList_iff_getElem?_eq_some.1 hf]
      rfl
    refine Std.ExtTreeMap.ext_getElem? fun k => ?_
    unfold stored
    rw [getElem?_foldl_insert]
    cases hfind : (writes files).reverse.find? fun w => join ['/'] w.1 = k with
    | some w =>
      have hw : join ['/'] w.1 = k := by simpa using List.find?_some hfind
      obtain ⟨f, hf, hpath, hcontent⟩ :=
        mem_writes (List.mem_reverse.1 (List.mem_of_find?_eq_some hfind))
      rw [hpath, hkeys f hf] at hw
      dsimp only
      rw [← hw, hcontent, Std.ExtTreeMap.mem_toList_iff_getElem?_eq_some.1 hf]
    | none =>
      cases hk : files[k]? with
      | none => simp
      | some content =>
        have hmem : (k, content) ∈ files.toList :=
          Std.ExtTreeMap.mem_toList_iff_getElem?_eq_some.2 hk
        have hwrite : (normalize_posix_relative_path k, content) ∈ writes files := by
          unfold writes
          exact List.mem_map.2 ⟨(k, content), hmem, rfl⟩
        have hnone := List.find?_eq_none.1 hfind _ (List.mem_reverse.2 hwrite)
        simp [hkeys _ hmem] at hnone

/-- What lies at a path below the directory of a skill with these files. -/
def laid_out (files : Files) (path : Path) : Option (Node Text) :=
  match FileTree.last_write (writes files) path with
  | some w => some (.file w.2)
  | none => if path = [] ∨ ∃ w ∈ writes files, path <+: w.1 then some .dir else none

section Writing

variable {ext : Externals} {t t' : Tree}

variable (skill_dir : Path)

/-- The loop that writes the files is the writing of many files. -/
theorem run_write_skill_files (files : List (Text × Text)) :
    (write_skill_files ext skill_dir files).run t = (.ok (), t') ↔
      t.put_all ext.accepts (files.map fun f =>
        (skill_dir ++ normalize_posix_relative_path f.1, f.2)) = .ok t' := by
  induction files generalizing t with
  | nil =>
    rw [write_skill_files, List.map_nil, FileTree.put_all]
    constructor
    · intro h
      exact congrArg Except.ok (congrArg Prod.snd h)
    · intro h
      rw [← Except.ok.inj h]
      rfl
  | cons f rest ih =>
    rw [write_skill_files, List.map_cons, FileTree.put_all_cons_eq_ok]
    simp only [FileTree.put_eq_ok]
    constructor
    · intro h
      obtain ⟨⟨⟩, t₁, hcreate, h⟩ := Task.run_bind_ok h
      obtain ⟨⟨⟩, t₂, hwrite, h⟩ := Task.run_bind_ok h
      rw [Task.run_io_ok_iff] at hcreate hwrite
      exact ⟨t₂, ⟨t₁, hcreate, hwrite⟩, ih.1 h⟩
    · rintro ⟨t₂, ⟨t₁, hcreate, hwrite⟩, hrest⟩
      rw [Task.run_bind_of_ok (Task.run_io_ok_iff.2 hcreate),
        Task.run_bind_of_ok (Task.run_io_ok_iff.2 hwrite)]
      exact ih.2 hrest

/-- The writes of a skill's files, in its directory. -/
def writes_in (skill_dir : Path) (files : Files) : List (Path × Text) :=
  (writes files).map fun w => (skill_dir ++ w.1, w.2)

theorem writes_in_eq (files : Files) :
    writes_in skill_dir files = files.toList.map fun f =>
      (skill_dir ++ normalize_posix_relative_path f.1, f.2) := by
  unfold writes_in writes
  rw [List.map_map]
  rfl

theorem last_write_writes_in (files : Files) (q : Path) :
    FileTree.last_write (writes_in skill_dir files) (skill_dir ++ q)
      = (FileTree.last_write (writes files) q).map fun w => (skill_dir ++ w.1, w.2) := by
  unfold FileTree.last_write writes_in
  rw [← List.map_reverse, List.find?_map]
  congr 2
  funext w
  simp

/-- A directory with nothing in it. -/
def Clear (t : Tree) (dir : Path) : Prop :=
  t.get dir = some .dir ∧ ∀ q, q ≠ [] → t.get (dir ++ q) = none

/-- **Writing the files of a skill** into an empty directory lays them out. -/
theorem laid_out_of_put_all {skill_dir : Path} {files : Files} (hclear : Clear t skill_dir)
    (h : t.put_all ext.accepts (writes_in skill_dir files) = .ok t') :
    (∀ q, t'.get (skill_dir ++ q) = laid_out files q) ∧ (∀ w ∈ writes files, w.1 ≠ [])
      ∧ ∀ q, ¬skill_dir <+: q → t'.get q = t.get q := by
  refine ⟨fun q => ?_, fun w hw hnil => ?_, fun q hq => ?_⟩
  · rw [FileTree.get_put_all h, last_write_writes_in]
    unfold laid_out
    cases FileTree.last_write (writes files) q with
    | some w => rfl
    | none =>
      have hiff : (∃ w ∈ writes_in skill_dir files, skill_dir ++ q <+: w.1)
          ↔ ∃ w ∈ writes files, q <+: w.1 := by
        constructor
        · rintro ⟨v, hv, hpre⟩
          obtain ⟨w, hw, rfl⟩ := List.mem_map.1 hv
          exact ⟨w, hw, (List.prefix_append_right_inj skill_dir).1 hpre⟩
        · rintro ⟨w, hw, hpre⟩
          exact ⟨_, List.mem_map.2 ⟨w, hw, rfl⟩, (List.prefix_append_right_inj skill_dir).2 hpre⟩
      simp only [Option.map_none, hiff]
      by_cases hroot : q = []
      · subst hroot
        rw [if_pos (Or.inl rfl), List.append_nil, hclear.1]
        split <;> rfl
      · simp only [hroot, false_or, hclear.2 q hroot]
  · have hfits := (FileTree.put_all_ok_iff.1 ⟨t', h⟩).1 (skill_dir ++ w.1, w.2)
      (List.mem_map.2 ⟨w, hw, rfl⟩)
    rw [hnil, List.append_nil] at hfits
    exact hfits.no_dir hclear.1
  · have hnone : FileTree.last_write (writes_in skill_dir files) q = none := by
      rw [FileTree.last_write_eq_none]
      rintro w hw rfl
      unfold writes_in at hw
      obtain ⟨v, -, rfl⟩ := List.mem_map.1 hw
      exact hq (List.prefix_append _ _)
    rw [FileTree.get_put_all h, hnone]
    dsimp only
    split_ifs with hbelow
    · -- above the directory there are directories
      obtain ⟨w, hw, hpre⟩ := hbelow
      unfold writes_in at hw
      obtain ⟨v, -, rfl⟩ := List.mem_map.1 hw
      have hdir : q <+: skill_dir := by
        rcases List.prefix_or_prefix_of_prefix hpre (List.prefix_append skill_dir v.1) with h | h
        · exact h
        · exact absurd h hq
      have hne : q ≠ skill_dir := by
        rintro rfl
        exact hq (List.prefix_refl _)
      exact (t.get_of_prefix hdir hne (by rw [hclear.1]; rfl)).symm
    · rfl

end Writing

/-! ## Files as they are read -/

/-- Collecting files is inserting those that a walk meets. -/
theorem collect_skill_files_eq (t : Tree) (base_dir : Path) (fuel : ℕ) (current_dir : Path)
    (files : Files) :
    collect_skill_files t base_dir fuel current_dir files
      = (t.walk fuel current_dir).foldl (fun files w =>
          files.insert (posix_relative_path base_dir w.1) w.2) files := by
  induction fuel generalizing current_dir files with
  | zero => rfl
  | succ fuel ih =>
    rw [collect_skill_files, FileTree.walk, List.foldl_flatMap]
    congr 1
    funext files item
    obtain ⟨name, node⟩ := item
    cases node with
    | file content => rfl
    | dir => exact ih _ _

theorem last_write_of_find {k : Text} {w : Path × Text} (hne : ∀ w ∈ writes files, w.1 ≠ [])
    (h : ((writes files).reverse.find? fun w => join ['/'] w.1 = k) = some w) :
    FileTree.last_write (writes files) w.1 = some w := by
  have hnames : ∀ v ∈ writes files, Names v.1 := by
    intro v hv
    obtain ⟨f, -, hf, -⟩ := mem_writes hv
    rw [hf]
    exact names_normalize f.1
  have hw : w ∈ writes files := List.mem_reverse.1 (List.mem_of_find?_eq_some h)
  have hk : join ['/'] w.1 = k := by simpa using List.find?_some h
  unfold FileTree.last_write
  rw [← h]
  refine List.find?_congr fun v hv => ?_
  have hv := List.mem_reverse.1 hv
  have hiff : v.1 = w.1 ↔ join ['/'] v.1 = k := by
    rw [← hk]
    exact ⟨fun h => by rw [h], join_injective (hnames v hv) (hnames w hw) (hne v hv) (hne w hw)⟩
  simp only [hiff]

/-- A file below a directory in which files are laid out is one of them. -/
theorem file_of_laid_out {q : Path} {content : Text} (h : laid_out files q = some (.file content)) :
    ∃ w, FileTree.last_write (writes files) q = some w ∧ w ∈ writes files ∧ w.1 = q
      ∧ w.2 = content := by
  unfold laid_out at h
  cases hlast : FileTree.last_write (writes files) q with
  | none =>
    rw [hlast] at h
    dsimp only at h
    split at h <;> cases h
  | some w =>
    rw [hlast] at h
    refine ⟨w, rfl, ?_, ?_, by simpa using h⟩
    · exact List.mem_reverse.1 (List.mem_of_find?_eq_some hlast)
    · simpa using List.find?_some hlast

/-- **Reading a skill** whose files are laid out gives them with their normalized
paths. -/
theorem read_skill_files_of_laid_out {t : Tree} {skill_dir : Path}
    (h : ∀ q, t.get (skill_dir ++ q) = laid_out files q) (hne : ∀ w ∈ writes files, w.1 ≠ []) :
    read_skill_files t skill_dir = .ok (stored files) := by
  have hnames : ∀ w ∈ writes files, Names w.1 := by
    intro w hw
    obtain ⟨f, -, hf, -⟩ := mem_writes hw
    rw [hf]
    exact names_normalize f.1
  have hroot : t.get skill_dir = some .dir := by
    have hlast : FileTree.last_write (writes files) [] = none :=
      FileTree.last_write_eq_none.2 hne
    have := h []
    rw [List.append_nil, laid_out, hlast] at this
    rw [this]
    exact if_pos (Or.inl rfl)
  -- a file that is met below the directory is one of those written
  have hmet : ∀ a ∈ t.walk (t.depth + 1) skill_dir, ∃ w,
      FileTree.last_write (writes files) w.1 = some w ∧ w ∈ writes files
        ∧ posix_relative_path skill_dir a.1 = join ['/'] w.1 ∧ a.2 = w.2 := by
    rintro ⟨path, content⟩ ha
    obtain ⟨hfile, ⟨q, rfl⟩, -⟩ := (FileTree.mem_walk (by omega)).1 ha
    rw [h q] at hfile
    obtain ⟨w, hlast, hw, rfl, hcontent⟩ := file_of_laid_out hfile
    exact ⟨w, hlast, hw, by simp [posix_relative_path], hcontent.symm⟩
  unfold read_skill_files
  rw [if_pos (FileTree.is_dir_iff.2 hroot), collect_skill_files_eq]
  refine congrArg Except.ok (Std.ExtTreeMap.ext_getElem? fun k => ?_)
  unfold stored
  rw [getElem?_foldl_insert, getElem?_foldl_insert]
  cases hfind : (writes files).reverse.find? fun w => join ['/'] w.1 = k with
  | none =>
    have hnone : (t.walk (t.depth + 1) skill_dir).reverse.find?
        (fun a => posix_relative_path skill_dir a.1 = k) = none := by
      rw [List.find?_eq_none]
      intro a ha hk
      obtain ⟨w, -, hw, hpath, -⟩ := hmet a (List.mem_reverse.1 ha)
      have hne := List.find?_eq_none.1 hfind w (List.mem_reverse.2 hw)
      rw [← hpath] at hne
      exact hne hk
    rw [hnone]
  | some w =>
    have hw : w ∈ writes files := List.mem_reverse.1 (List.mem_of_find?_eq_some hfind)
    have hk : join ['/'] w.1 = k := by simpa using List.find?_some hfind
    have hlast := last_write_of_find hne hfind
    have hwalk : (skill_dir ++ w.1, w.2) ∈ t.walk (t.depth + 1) skill_dir := by
      rw [FileTree.mem_walk (by omega), h, laid_out, hlast]
      exact ⟨rfl, List.prefix_append _ _, by simpa using hne w hw⟩
    cases hfound : (t.walk (t.depth + 1) skill_dir).reverse.find?
        fun a => posix_relative_path skill_dir a.1 = k with
    | none =>
      have hcontra := List.find?_eq_none.1 hfound _ (List.mem_reverse.2 hwalk)
      simp [posix_relative_path, hk] at hcontra
    | some a =>
      have ha : posix_relative_path skill_dir a.1 = k := by simpa using List.find?_some hfound
      obtain ⟨v, hvlast, hv, hpath, hcontent⟩ :=
        hmet a (List.mem_reverse.1 (List.mem_of_find?_eq_some hfound))
      have hvw : v.1 = w.1 := join_injective (hnames v hv) (hnames w hw) (hne v hv) (hne w hw)
        (hpath.symm.trans (ha.trans hk.symm))
      rw [hvw, hlast] at hvlast
      dsimp only
      rw [hcontent, Option.some.inj hvlast]

end AgentSpace.Skills
