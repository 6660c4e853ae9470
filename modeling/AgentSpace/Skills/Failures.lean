/-
What a request that fails leaves.

A request is checked first, and then writes. Nothing that is written is taken back, so a
request leaves the skill as it was exactly if it is refused before its first write, or the
files it has written are the same.
-/
import AgentSpace.Skills.ReadBack

set_option autoImplicit false

namespace AgentSpace.Skills

open Text Lib

/-! ## Files up to the first that is not written -/

section Parts

variable (ext : Externals) (skill_dir : Path)

/-- A file can be written below the directory after others. -/
def Writable (before : List (Path × Text)) (path : Path) : Prop :=
  path ≠ [] ∧ ext.accepts (skill_dir ++ path) = true ∧ ∀ w ∈ before, FileTree.Apart w.1 path

instance (p q : Path) : Decidable (FileTree.Apart p q) :=
  inferInstanceAs (Decidable (¬(p <+: q ∧ p ≠ q) ∧ ¬(q <+: p ∧ q ≠ p)))

instance (before : List (Path × Text)) (path : Path) : Decidable (Writable ext skill_dir before path) :=
  inferInstanceAs (Decidable (_ ∧ _ ∧ ∀ w ∈ before, FileTree.Apart w.1 path))

/-- What is written of some files after others: what comes before the first that cannot be. -/
def written_part (before : List (Path × Text)) : List (Path × Text) → List (Path × Text)
  | [] => before
  | w :: rest => if Writable ext skill_dir before w.1 then written_part (before ++ [w]) rest else before

end Parts

/-- The directory has these files, and what directories they need. -/
structure Filled (t : Tree) (skill_dir : Path) (written : List (Path × Text)) : Prop where
  dir : t.get skill_dir = some .dir
  file : ∀ q content, t.get (skill_dir ++ q) = some (.file content)
    ↔ FileTree.last_write written q = some (q, content)
  made : ∀ q, t.get (skill_dir ++ q) = some .dir → q = [] ∨ ∃ w ∈ written, FileTree.Above q w.1

section Writing

variable {ext : Externals} {t t' : Tree} {skill_dir : Path} {written : List (Path × Text)}

theorem Clear.filled (h : Clear t skill_dir) : Filled t skill_dir [] := by
  have hroot : ∀ q, q = [] ∨ t.get (skill_dir ++ q) = none := fun q =>
    (eq_or_ne q []).imp_right (h.2 q)
  refine ⟨h.1, fun q content => ?_, fun q hdir => ?_⟩
  · refine iff_of_false (fun hfile => ?_) (nomatch ·)
    rcases hroot q with rfl | hnone
    · rw [List.append_nil, h.1] at hfile
      cases hfile
    · rw [hnone] at hfile
      cases hfile
  · refine (hroot q).imp_right fun hnone => ?_
    rw [hnone] at hdir
    cases hdir

theorem above_append (skill_dir p q : Path) :
    FileTree.Above (skill_dir ++ p) (skill_dir ++ q) ↔ FileTree.Above p q := by
  unfold FileTree.Above
  rw [List.prefix_append_right_inj, Ne, List.append_cancel_left_eq]

theorem Filled.file_of_mem (h : Filled t skill_dir written) {w : Path × Text} (hw : w ∈ written) :
    ∃ content, t.get (skill_dir ++ w.1) = some (.file content) := by
  cases hlast : FileTree.last_write written w.1 with
  | none => exact absurd rfl (FileTree.last_write_eq_none.1 hlast w hw)
  | some v =>
    have hv : v.1 = w.1 := by
      unfold FileTree.last_write at hlast
      simpa using List.find?_some hlast
    refine ⟨v.2, (h.file w.1 v.2).2 ?_⟩
    rw [hlast, ← hv]

theorem mem_of_last_write {q : Path} {content : Text}
    (h : FileTree.last_write written q = some (q, content)) : (q, content) ∈ written :=
  List.mem_reverse.1 (List.mem_of_find?_eq_some h)

theorem Filled.fits_iff (h : Filled t skill_dir written) (hext : ext.Lawful) (p : Path) :
    FileTree.Fits ext.accepts t (skill_dir ++ p) ↔ Writable ext skill_dir written p := by
  constructor
  · intro hfits
    refine ⟨?_, hfits.accepted, fun w hw => ⟨fun habove => ?_, fun habove => ?_⟩⟩
    · rintro rfl
      exact hfits.no_dir (by rw [List.append_nil]; exact h.dir)
    · obtain ⟨content, hfile⟩ := h.file_of_mem hw
      exact hfits.above _ ((above_append _ _ _).2 habove) content hfile
    · obtain ⟨content, hfile⟩ := h.file_of_mem hw
      have hlong := (above_append skill_dir p w.1).2 habove
      exact hfits.no_dir (t.get_of_prefix hlong.1 hlong.2 (by rw [hfile]; rfl))
  · rintro ⟨hne, haccepts, hapart⟩
    refine ⟨hext.accepts_dropLast _ haccepts, haccepts, fun q hq content hfile => ?_, fun hdir => ?_⟩
    · rcases List.prefix_or_prefix_of_prefix hq.1 (List.prefix_append skill_dir p) with hup | ⟨q', rfl⟩
      · have hdir : t.get q = some .dir := by
          by_cases heq : q = skill_dir
          · rw [heq, h.dir]
          · exact t.get_of_prefix hup heq (by rw [h.dir]; rfl)
        rw [hdir] at hfile
        cases hfile
      · have hw := mem_of_last_write ((h.file q' content).1 hfile)
        exact (hapart _ hw).1 ((above_append _ _ _).1 hq)
    · rcases h.made p hdir with hnil | ⟨w, hw, habove⟩
      · exact hne hnil
      · exact (hapart w hw).2 habove

theorem last_write_concat (w : Path × Text) (q : Path) :
    FileTree.last_write (written ++ [w]) q
      = if w.1 = q then some w else FileTree.last_write written q := by
  unfold FileTree.last_write
  rw [List.reverse_append, List.reverse_singleton, List.singleton_append, List.find?_cons]
  by_cases h : w.1 = q <;> simp [h]

/-- **Writing one more file.** -/
theorem Filled.put (h : Filled t skill_dir written) (hext : ext.Lawful) {p : Path} {content : Text}
    (hput : t.put ext.accepts (skill_dir ++ p) content = .ok t') :
    Filled t' skill_dir (written ++ [(p, content)])
      ∧ ∀ q, ¬skill_dir <+: q → t'.get q = t.get q := by
  have hfits := FileTree.put_ok_iff.1 ⟨t', hput⟩
  have hne : p ≠ [] := ((h.fits_iff hext p).1 hfits).1
  have hget : ∀ q, t'.get (skill_dir ++ q) = if q = p then some (.file content)
      else if q <+: p then some .dir else t.get (skill_dir ++ q) := by
    intro q
    rw [FileTree.get_put hput]
    simp only [List.append_cancel_left_eq, List.prefix_append_right_inj]
  refine ⟨⟨?_, fun q c => ?_, fun q hdir => ?_⟩, fun q hq => ?_⟩
  · have hroot := hget []
    rwa [List.append_nil, if_neg hne.symm, if_pos List.nil_prefix] at hroot
  · rw [hget, last_write_concat]
    by_cases hqp : q = p
    · rw [if_pos hqp, if_pos hqp.symm, hqp]
      simp
    · rw [if_neg hqp, if_neg (Ne.symm hqp)]
      by_cases hpre : q <+: p
      · rw [if_pos hpre]
        refine iff_of_false (nomatch ·) fun hlast => ?_
        exact hfits.above _ ((above_append _ _ _).2 ⟨hpre, hqp⟩) c ((h.file q c).2 hlast)
      · rw [if_neg hpre]
        exact h.file q c
  · rw [hget] at hdir
    by_cases hqp : q = p
    · rw [if_pos hqp] at hdir
      cases hdir
    · rw [if_neg hqp] at hdir
      by_cases hpre : q <+: p
      · exact Or.inr ⟨_, List.mem_append_right _ (List.mem_singleton_self _), hpre, hqp⟩
      · rw [if_neg hpre] at hdir
        exact (h.made q hdir).imp_right fun ⟨w, hw, habove⟩ => ⟨w, List.mem_append_left _ hw, habove⟩
  · rw [FileTree.get_put hput, if_neg]
    · split_ifs with hpre
      · have hup : q <+: skill_dir :=
          (List.prefix_or_prefix_of_prefix hpre (List.prefix_append skill_dir p)).resolve_right hq
        have hqne : q ≠ skill_dir := fun heq => hq (heq ▸ List.prefix_refl _)
        exact (t.get_of_prefix hup hqne (by rw [h.dir]; rfl)).symm
      · rfl
    · rintro rfl
      exact hq (List.prefix_append _ _)

/-- Making directories on the way to a file changes no file. -/
theorem Filled.create_dir_all (h : Filled t skill_dir written) {p : Path} (hne : p ≠ [])
    (hcreate : t.create_dir_all ext.accepts (skill_dir ++ p).dropLast = .ok t') :
    t'.get skill_dir = some .dir
      ∧ (∀ q content, t'.get (skill_dir ++ q) = some (.file content)
          ↔ t.get (skill_dir ++ q) = some (.file content))
      ∧ ∀ q, ¬skill_dir <+: q → t'.get q = t.get q := by
  have hparent : (skill_dir ++ p).dropLast = skill_dir ++ p.dropLast := List.dropLast_append_of_ne_nil hne
  rw [hparent] at hcreate
  have hfree := (FileTree.create_dir_all_ok_iff.1 ⟨t', hcreate⟩).2
  refine ⟨?_, fun q content => ?_, fun q hq => ?_⟩
  · rw [FileTree.get_create_dir_all hcreate, if_pos (List.prefix_append _ _)]
  · rw [FileTree.get_create_dir_all hcreate]
    split_ifs with hpre
    · exact iff_of_false (nomatch ·) (hfree _ hpre content)
    · rfl
  · rw [FileTree.get_create_dir_all hcreate]
    split_ifs with hpre
    · have hup : q <+: skill_dir :=
        (List.prefix_or_prefix_of_prefix hpre (List.prefix_append _ _)).resolve_right hq
      have hqne : q ≠ skill_dir := fun heq => hq (heq ▸ List.prefix_refl _)
      exact (t.get_of_prefix hup hqne (by rw [h.dir]; rfl)).symm
    · rfl

/-- **Writing the files of a skill**, whether it succeeds or not: those before the first
that cannot be written are there, and no others. -/
theorem run_write_part (hext : ext.Lawful) {files : List (Text × Text)} {r : Except SkillError Unit}
    (h : Filled t skill_dir written) (hrun : (write_skill_files ext skill_dir files).run t = (r, t')) :
    t'.get skill_dir = some .dir
      ∧ (∀ q content, t'.get (skill_dir ++ q) = some (.file content)
          ↔ FileTree.last_write (written_part ext skill_dir written
              (files.map fun f => (normalize_posix_relative_path f.1, f.2))) q = some (q, content))
      ∧ ∀ q, ¬skill_dir <+: q → t'.get q = t.get q := by
  induction files generalizing t written with
  | nil =>
    obtain rfl : t = t' := congrArg Prod.snd hrun
    exact ⟨h.dir, h.file, fun q _ => rfl⟩
  | cons f rest ih =>
    rw [write_skill_files] at hrun
    rw [List.map_cons, written_part]
    -- what is not written is what does not fit
    have hrefused : (¬∃ t₁, t.put ext.accepts (skill_dir ++ normalize_posix_relative_path f.1) f.2 = .ok t₁) →
        ¬Writable ext skill_dir written (normalize_posix_relative_path f.1) := by
      rw [FileTree.put_ok_iff, h.fits_iff hext]
      exact id
    rcases Task.run_bind_cases hrun with ⟨⟨⟩, t₁, hcreate, hrun⟩ | ⟨e, hfail, -⟩
    · rw [Task.run_io_ok_iff] at hcreate
      rcases Task.run_bind_cases hrun with ⟨⟨⟩, t₂, hwrite, hrun⟩ | ⟨e, hfail, -⟩
      · rw [Task.run_io_ok_iff] at hwrite
        have hput := FileTree.put_eq_ok.2 ⟨t₁, hcreate, hwrite⟩
        have hwritable := (h.fits_iff hext _).1 (FileTree.put_ok_iff.1 ⟨t₂, hput⟩)
        obtain ⟨hfilled, hframe⟩ := h.put hext hput
        obtain ⟨hdir, hfile, hrest⟩ := ih hfilled hrun
        rw [if_pos hwritable]
        exact ⟨hdir, hfile, fun q hq => (hrest q hq).trans (hframe q hq)⟩
      · obtain ⟨hnot, rfl⟩ := Task.run_io_error hfail
        rw [if_neg]
        · by_cases hne : normalize_posix_relative_path f.1 = []
          · rw [hne, List.append_nil] at hcreate
            have hsame : ∀ q, t'.get q = t.get q := by
              intro q
              rw [FileTree.get_create_dir_all hcreate]
              split_ifs with hpre
              · have hup : q <+: skill_dir := hpre.trans (List.dropLast_prefix _)
                by_cases heq : q = skill_dir
                · rw [heq, h.dir]
                · exact (t.get_of_prefix hup heq (by rw [h.dir]; rfl)).symm
              · rfl
            simp only [hsame]
            exact ⟨h.dir, h.file, fun q _ => trivial⟩
          · obtain ⟨hdir, hfile, hrest⟩ := h.create_dir_all hne hcreate
            exact ⟨hdir, fun q content => (hfile q content).trans (h.file q content), hrest⟩
        · refine hrefused ?_
          rintro ⟨t₂, hput⟩
          obtain ⟨t₃, hcreate', hwrite⟩ := FileTree.put_eq_ok.1 hput
          rw [hcreate] at hcreate'
          rw [← Except.ok.inj hcreate'] at hwrite
          exact hnot ⟨t₂, hwrite⟩
    · obtain ⟨hnot, rfl⟩ := Task.run_io_error hfail
      rw [if_neg]
      · exact ⟨h.dir, h.file, fun q _ => rfl⟩
      · refine hrefused ?_
        rintro ⟨t₂, hput⟩
        obtain ⟨t₁, hcreate, -⟩ := FileTree.put_eq_ok.1 hput
        exact hnot ⟨t₁, hcreate⟩

end Writing

/-! ## Versions that are saved or not -/

section Saving

variable {ext : Externals} {t t' : Tree} {skill_id now : Text} {files : Files}

/-- A version with these files can be saved. -/
structure Savable (ext : Externals) (t : Tree) (skill_id now : Text) (files : Files) : Prop where
  dir : ext.accepts (skill_versions_dir skill_id) = true
  no_file : ∀ q, q <+: skill_versions_dir skill_id → ∀ content, t.get q ≠ some (.file content)
  json : ∃ content, ext.to_vec_pretty
    ⟨skill_id, next_skill_version t (skill_versions_dir skill_id), now, files⟩ = .ok content
  path : ext.accepts (skill_version_path skill_id
    (next_skill_version t (skill_versions_dir skill_id))) = true
  no_dir : t.get (skill_version_path skill_id
    (next_skill_version t (skill_versions_dir skill_id))) ≠ some .dir

theorem later_version_comm (latest : UInt64) (a b : Text × Node Text) :
    later_version (later_version latest a) b = later_version (later_version latest b) a := by
  have hmax : ∀ u v w : UInt64, max (max u v) w = max (max u w) v := by
    intro u v w
    rw [← UInt64.toNat_inj]
    have htoNat : ∀ x y : UInt64, (max x y).toNat = max x.toNat y.toNat := by
      intro x y
      by_cases h : x ≤ y
      · rw [max_eq_of_le h]
        exact (max_eq_right (UInt64.le_iff_toNat_le.1 h)).symm
      · have hge : y.toNat ≤ x.toNat := by
          have := mt UInt64.le_iff_toNat_le.2 h
          omega
        rw [max_eq_of_ge (UInt64.le_iff_toNat_le.2 hge)]
        exact (max_eq_left hge).symm
    rw [htoNat, htoNat, htoNat, htoNat]
    exact max_right_comm _ _ _
  obtain ⟨name, node⟩ := a
  obtain ⟨name', node'⟩ := b
  cases node with
  | dir => rfl
  | file c =>
    cases node' with
    | dir => rfl
    | file c' =>
      unfold later_version
      dsimp only
      cases parse_usize (stem_and_extension name).1 with
      | none => rfl
      | some v =>
        cases parse_usize (stem_and_extension name').1 with
        | none => rfl
        | some w => exact hmax latest v w

theorem next_skill_version_congr {dir : Path} (h : ∀ name, t'.get (dir ++ [name]) = t.get (dir ++ [name])) :
    next_skill_version t' dir = next_skill_version t dir := by
  have hnodup : ∀ u : Tree, (u.read_dir dir).Nodup := fun u => List.Nodup.of_map _ FileTree.nodup_read_dir
  have hperm : (t'.read_dir dir).Perm (t.read_dir dir) := by
    refine (List.perm_ext_iff_of_nodup (hnodup t') (hnodup t)).2 fun item => ?_
    obtain ⟨name, node⟩ := item
    rw [FileTree.mem_read_dir, FileTree.mem_read_dir, h]
  unfold next_skill_version
  have : RightCommutative later_version := ⟨later_version_comm⟩
  rw [hperm.foldl_eq]

theorem not_prefix_of_version (name : Text) :
    ¬skill_versions_dir skill_id ++ [name] <+: skill_versions_dir skill_id := by
  intro hpre
  have := hpre.length_le
  simp at this

/-- **A version is saved** exactly if it can be; if it is not, the versions are as they
were, and if it is, its document is there. -/
theorem run_save_skill_version_cases {r : Except SkillError SkillVersion}
    (hrun : (SkillsService.save_skill_version ext now skill_id files).run t = (r, t')) :
    (Savable ext t skill_id now files ∧ (∃ v, r = .ok v)
        ∧ ∃ content, t'.get (skill_version_path skill_id
            (next_skill_version t (skill_versions_dir skill_id))) = some (.file content))
      ∨ (¬Savable ext t skill_id now files ∧ (∃ e, r = .error e)
        ∧ ∀ name, t'.get (skill_versions_dir skill_id ++ [name])
            = t.get (skill_versions_dir skill_id ++ [name])) := by
  unfold SkillsService.save_skill_version at hrun
  rcases Task.run_bind_cases hrun with ⟨⟨⟩, t₁, hcreate, hrun⟩ | ⟨e, hfail, hr⟩
  · rw [Task.run_io_ok_iff] at hcreate
    obtain ⟨hdir, hno_file⟩ := FileTree.create_dir_all_ok_iff.1 ⟨t₁, hcreate⟩
    have hnames : ∀ name, t₁.get (skill_versions_dir skill_id ++ [name])
        = t.get (skill_versions_dir skill_id ++ [name]) := fun name => by
      rw [FileTree.get_create_dir_all hcreate, if_neg (not_prefix_of_version name)]
    have hnext := next_skill_version_congr hnames
    have hpath := hnames (version_name (next_skill_version t (skill_versions_dir skill_id)))
    rcases Task.run_bind_cases hrun with ⟨version, t₂, hlook, hrun⟩ | ⟨e, hfail, -⟩
    · obtain ⟨hversion, ht₂⟩ := Task.run_look_ok hlook
      obtain rfl : next_skill_version t (skill_versions_dir skill_id) = version :=
        hnext.symm.trans (Except.ok.inj hversion)
      rcases Task.run_bind_cases hrun with ⟨json, t₃, hlook, hrun⟩ | ⟨e, hfail, hr⟩
      · obtain ⟨hjson, ht₃⟩ := Task.run_look_ok hlook
        have hjson : ∃ content, ext.to_vec_pretty
            ⟨skill_id, next_skill_version t (skill_versions_dir skill_id), now, files⟩ = .ok content := by
          cases hto : ext.to_vec_pretty
              ⟨skill_id, next_skill_version t (skill_versions_dir skill_id), now, files⟩ with
          | error e =>
            rw [hto] at hjson
            cases hjson
          | ok content => exact ⟨content, rfl⟩
        have hparent : t₁.get (skill_version_path skill_id
            (next_skill_version t (skill_versions_dir skill_id))).dropLast = some .dir := by
          rw [skill_version_path, List.dropLast_concat, FileTree.get_create_dir_all hcreate,
            if_pos (List.prefix_refl _)]
        have hsavable : (∃ t₄, t₁.write ext.accepts (skill_version_path skill_id
              (next_skill_version t (skill_versions_dir skill_id))) json = .ok t₄)
            ↔ Savable ext t skill_id now files := by
          rw [FileTree.write_ok_iff]
          constructor
          · rintro ⟨haccepts, hnot, -⟩
            rw [skill_version_path, hpath] at hnot
            exact ⟨hdir, hno_file, hjson, haccepts, hnot⟩
          · intro h
            refine ⟨h.path, ?_, hparent⟩
            rw [skill_version_path, hpath]
            exact h.no_dir
        rcases Task.run_bind_cases hrun with ⟨⟨⟩, t₄, hwrite, hrun⟩ | ⟨e, hfail, hr⟩
        · rw [Task.run_io_ok_iff, ht₃, ht₂] at hwrite
          obtain ⟨hr, ht₄⟩ := Prod.mk.inj hrun
          refine Or.inl ⟨hsavable.1 ⟨t₄, hwrite⟩, ⟨_, hr.symm⟩, json, ?_⟩
          have hgot := FileTree.get_write hwrite (skill_version_path skill_id
            (next_skill_version t (skill_versions_dir skill_id)))
          rw [if_pos rfl] at hgot
          rw [← hgot]
          exact congrArg (fun u : Tree => u.get _) ht₄.symm
        · obtain ⟨hnot, ht'⟩ := Task.run_io_error hfail
          rw [ht₃, ht₂] at hnot ht'
          refine Or.inr ⟨fun h => hnot (hsavable.2 h), ⟨e, hr⟩, fun name => ?_⟩
          rw [ht', hnames]
      · have ht' : t₂ = t' := congrArg Prod.snd hfail
        refine Or.inr ⟨fun h => ?_, ⟨e, hr⟩, fun name => ?_⟩
        · obtain ⟨content, hcontent⟩ := h.json
          have herror := congrArg Prod.fst hfail
          rw [Task.run_look, hcontent] at herror
          cases herror
        · rw [← ht', ht₂, hnames]
    · cases hfail
  · obtain ⟨hnot, ht'⟩ := Task.run_io_error hfail
    refine Or.inr ⟨fun h => hnot (FileTree.create_dir_all_ok_iff.2 ⟨h.dir, h.no_file⟩), ⟨e, hr⟩,
      fun name => ?_⟩
    rw [ht']

end Saving

/-! ## Requests that fail -/

/-- A skill is as it was: whether it exists, its files, and its versions. -/
structure SameSkill (skill_id : Text) (t t' : Tree) : Prop where
  existence : t'.exists (skill_path skill_id) = t.exists (skill_path skill_id)
  files : ∀ q content, t'.get (skill_path skill_id ++ q) = some (.file content)
    ↔ t.get (skill_path skill_id ++ q) = some (.file content)
  versions : ∀ name, t'.get (skill_versions_dir skill_id ++ [name])
    = t.get (skill_versions_dir skill_id ++ [name])

theorem SameSkill.refl (skill_id : Text) (t : Tree) : SameSkill skill_id t t :=
  ⟨rfl, fun _ _ => Iff.rfl, fun _ => rfl⟩

/-- A request to create a skill is refused before anything is written. -/
def CreateRefused (ext : Externals) (service : SkillsService) (t : Tree) (skill_id : Text)
    (files : Files) : Prop :=
  is_valid_skill_id skill_id = false ∨ service.is_builtin skill_id = true
    ∨ t.exists (skill_path skill_id) = true ∨ (∃ path ∈ files, is_valid_file_path path = false)
    ∨ ext.accepts (skill_path skill_id) = false

/-- A request to update a skill is refused before anything is written: by a check, by its
versions that cannot be read, or because its present files cannot be saved as the first. -/
def UpdateRefused (ext : Externals) (service : SkillsService) (t : Tree) (now skill_id : Text)
    (files : Files) : Prop :=
  is_valid_skill_id skill_id = false
    ∨ (∃ e, service.ensure_user_skill_exists t skill_id = .error e)
    ∨ (∃ path ∈ files, is_valid_file_path path = false)
    ∨ (∃ e, service.list_skill_versions ext t skill_id = .error e)
    ∨ service.list_skill_versions ext t skill_id = .ok []
      ∧ ∃ present, read_skill_files t (skill_path skill_id) = .ok present
        ∧ ¬Savable ext t skill_id now present

/-- What an update writes of its files is what is there: the skill has versions, its
directory can be made again, and the files up to the first that cannot be written are the
present ones. -/
def WritesPresent (ext : Externals) (service : SkillsService) (t : Tree) (skill_id : Text)
    (files : Files) : Prop :=
  (∃ v versions, service.list_skill_versions ext t skill_id = .ok (v :: versions))
    ∧ ext.accepts (skill_path skill_id) = true
    ∧ ∀ q content, t.get (skill_path skill_id ++ q) = some (.file content)
      ↔ FileTree.last_write (written_part ext (skill_path skill_id) [] (writes files)) q
        = some (q, content)

section Requests

variable {ext : Externals} {service : SkillsService} {t t' : Tree} {skill_id now : Text}
  {files : Files}

theorem run_validate_file_paths_cases {paths : List Text} {r : Except SkillError Unit}
    (hrun : (validate_file_paths paths).run t = (r, t')) :
    t' = t ∧ ((∃ e, r = .error e) ↔ ∃ path ∈ paths, is_valid_file_path path = false) := by
  induction paths with
  | nil =>
    obtain ⟨rfl, rfl⟩ := Prod.mk.inj hrun
    exact ⟨rfl, iff_of_false (fun ⟨e, he⟩ => nomatch he) (by simp)⟩
  | cons path rest ih =>
    rw [validate_file_paths] at hrun
    rw [List.exists_mem_cons_iff]
    rcases Task.run_bind_cases hrun with ⟨⟨⟩, t₁, hcheck, hrun⟩ | ⟨e, hfail, hr⟩
    · obtain ⟨hvalid, ht₁⟩ := Task.run_return_error_if_ok hcheck
      rw [ht₁] at hrun
      obtain ⟨ht', hiff⟩ := ih hrun
      have hnot : ¬is_valid_file_path path = false := by simpa using hvalid
      exact ⟨ht', hiff.trans (or_iff_right hnot).symm⟩
    · obtain ⟨hinvalid, ht'⟩ := Task.run_return_error_if_error hfail
      exact ⟨ht', iff_of_true ⟨e, hr⟩ (Or.inl (by simpa using hinvalid))⟩

theorem exists_keys_iff {p : Text → Prop} : (∃ path ∈ files.keys, p path) ↔ ∃ path ∈ files, p path := by
  simp only [Std.ExtTreeMap.mem_keys]

theorem exists_of_get {path : Path} {node : Node Text} (h : t.get path = some node) :
    t.exists path = true := by
  unfold FileTree.exists
  rw [h]
  rfl

/-- A file or directory of the skill is where saving a version leaves it. -/
theorem get_after_save {r : Except SkillError SkillVersion} (hvalid : is_valid_skill_id skill_id = true)
    (hrun : (SkillsService.save_skill_version ext now skill_id files).run t = (r, t')) (q : Path) :
    t'.get (skill_path skill_id ++ q) = t.get (skill_path skill_id ++ q) := by
  obtain ⟨hup, hdown⟩ := apart_from_versions hvalid q
  exact save_skill_version_frame hrun hup hdown

variable {e : SkillError}

/-- **A request to create a skill that fails** leaves the skill as it was exactly if it is
refused. -/
theorem failed_create_iff (hext : ext.Lawful)
    (hrun : (service.create_skill ext now skill_id files).run t = (.error e, t')) :
    SameSkill skill_id t t' ↔ CreateRefused ext service t skill_id files := by
  have hrefused : t' = t → CreateRefused ext service t skill_id files →
      (SameSkill skill_id t t' ↔ CreateRefused ext service t skill_id files) := by
    intro ht' hrefused
    rw [ht']
    exact iff_of_true (SameSkill.refl skill_id t) hrefused
  unfold SkillsService.create_skill at hrun
  rcases Task.run_bind_cases hrun with ⟨⟨⟩, t₁, hcheck, hrun⟩ | ⟨e, hfail, -⟩
  swap
  · obtain ⟨hinvalid, ht'⟩ := Task.run_return_error_if_error hfail
    exact hrefused ht' (Or.inl (by simpa using hinvalid))
  obtain ⟨hvalid, ht₁⟩ := Task.run_return_error_if_ok hcheck
  have hvalid : is_valid_skill_id skill_id = true := not_not.1 hvalid
  rw [ht₁] at hrun
  rcases Task.run_bind_cases hrun with ⟨⟨⟩, t₂, hcheck, hrun⟩ | ⟨e, hfail, -⟩
  swap
  · obtain ⟨hbuiltin, ht'⟩ := Task.run_return_error_if_error hfail
    exact hrefused ht' (Or.inr (Or.inl hbuiltin))
  obtain ⟨hbuiltin, ht₂⟩ := Task.run_return_error_if_ok hcheck
  rw [ht₂] at hrun
  rcases Task.run_bind_cases hrun with ⟨already_there, t₃, hlook, hrun⟩ | ⟨e, hfail, -⟩
  swap
  · cases hfail
  obtain ⟨hthere, ht₃⟩ := Task.run_look_ok hlook
  rw [ht₃, ← Except.ok.inj hthere] at hrun
  rcases Task.run_bind_cases hrun with ⟨⟨⟩, t₄, hcheck, hrun⟩ | ⟨e, hfail, -⟩
  swap
  · obtain ⟨hthere, ht'⟩ := Task.run_return_error_if_error hfail
    exact hrefused ht' (Or.inr (Or.inr (Or.inl hthere)))
  obtain ⟨hnone, ht₄⟩ := Task.run_return_error_if_ok hcheck
  rw [ht₄] at hrun
  rcases Task.run_bind_cases hrun with ⟨⟨⟩, t₅, hpaths, hrun⟩ | ⟨e, hfail, -⟩
  swap
  · obtain ⟨ht', hiff⟩ := run_validate_file_paths_cases hfail
    exact hrefused ht' (Or.inr (Or.inr (Or.inr (Or.inl (exists_keys_iff.1 (hiff.1 ⟨e, rfl⟩))))))
  obtain ⟨ht₅, hiff⟩ := run_validate_file_paths_cases hpaths
  rw [ht₅] at hrun
  have hpaths : ¬∃ path ∈ files, is_valid_file_path path = false := fun h => by
    obtain ⟨e, he⟩ := hiff.2 (exists_keys_iff.2 h)
    cases he
  have hget : t.get (skill_path skill_id) = none := by
    unfold FileTree.exists at hnone
    simpa using hnone
  rcases Task.run_bind_cases hrun with ⟨⟨⟩, t₆, hcreate, hrun⟩ | ⟨e, hfail, -⟩
  swap
  · obtain ⟨hnot, ht'⟩ := Task.run_io_error hfail
    refine hrefused ht' (Or.inr (Or.inr (Or.inr (Or.inr ?_))))
    rw [FileTree.create_dir_ok_iff] at hnot
    by_contra haccepts
    exact hnot ⟨by simpa using haccepts, hget, FileTree.get_root t⟩
  rw [Task.run_io_ok_iff] at hcreate
  -- from here on the directory is there
  have haccepts := (FileTree.create_dir_ok_iff.1 ⟨t₆, hcreate⟩).1
  have hdir : t'.get (skill_path skill_id) = some .dir := by
    have hfilled := (clear_of_create_dir hcreate).filled
    rcases Task.run_bind_cases hrun with ⟨⟨⟩, t₇, hwrite, hrun⟩ | ⟨e, hfail, -⟩
    · have hwritten := (run_write_part hext hfilled hwrite).1
      rcases Task.run_bind_cases hrun with ⟨v, t₈, hsave, hrun⟩ | ⟨e, hfail, -⟩
      · have hsaved := get_after_save hvalid hsave []
        rw [List.append_nil] at hsaved
        have ht₈ : t₈ = t' := congrArg Prod.snd hrun
        rw [← ht₈, hsaved, hwritten]
      · have hsaved := get_after_save hvalid hfail []
        rw [List.append_nil] at hsaved
        rw [hsaved, hwritten]
    · exact (run_write_part hext hfilled hfail).1
  refine iff_of_false (fun hsame => ?_) ?_
  · have hexists := hsame.existence
    rw [exists_of_get hdir] at hexists
    exact hnone hexists.symm
  · rintro (h | h | h | h | h)
    · rw [hvalid] at h
      cases h
    · exact hbuiltin h
    · exact hnone h
    · exact hpaths h
    · rw [haccepts] at h
      cases h

/-- What is written into an empty directory and not saved, or only in part: the versions
are as they were. -/
theorem failed_after_clear (hext : ext.Lawful) (hvalid : is_valid_skill_id skill_id = true)
    (hclear : Clear t (skill_path skill_id)) (hrun : (do
      write_skill_files ext (skill_path skill_id) files.toList
      let _ ← SkillsService.save_skill_version ext now skill_id files
      Task.look fun t => SkillsService.user_skill t skill_id : Task Skill).run t = (.error e, t')) :
    t'.get (skill_path skill_id) = some .dir
      ∧ (∀ q content, t'.get (skill_path skill_id ++ q) = some (.file content)
          ↔ FileTree.last_write (written_part ext (skill_path skill_id) [] (writes files)) q
            = some (q, content))
      ∧ ∀ name, t'.get (skill_versions_dir skill_id ++ [name])
          = t.get (skill_versions_dir skill_id ++ [name]) := by
  have hversions : ∀ name, ¬skill_path skill_id <+: skill_versions_dir skill_id ++ [name] := by
    rintro name ⟨rest, hrest⟩
    refine (apart_from_versions hvalid rest).2 ?_
    rw [hrest]
    exact List.prefix_append _ _
  rcases Task.run_bind_cases hrun with ⟨⟨⟩, t₁, hwrite, hrun⟩ | ⟨e, hfail, -⟩
  swap
  · obtain ⟨hdir, hfile, hframe⟩ := run_write_part hext hclear.filled hfail
    exact ⟨hdir, hfile, fun name => hframe _ (hversions name)⟩
  obtain ⟨hdir, hfile, hframe⟩ := run_write_part hext hclear.filled hwrite
  rcases Task.run_bind_cases hrun with ⟨v, t₂, hsave, hrun⟩ | ⟨e, hfail, -⟩
  · -- once the version is saved, what was written is read
    have hsaved := get_after_save hvalid hsave []
    rw [List.append_nil, hdir] at hsaved
    have herror := congrArg Prod.fst hrun
    rw [Task.run_look] at herror
    unfold SkillsService.user_skill read_skill_files at herror
    rw [if_pos (FileTree.is_dir_iff.2 hsaved)] at herror
    cases herror
  · rcases run_save_skill_version_cases hfail with ⟨-, ⟨v, hv⟩, -⟩ | ⟨-, -, hkept⟩
    · cases hv
    refine ⟨?_, fun q content => ?_, fun name => ?_⟩
    · have hsaved := get_after_save hvalid hfail []
      rwa [List.append_nil, hdir] at hsaved
    · rw [get_after_save hvalid hfail, hfile]
      rfl
    · rw [hkept, hframe _ (hversions name)]

/-- The directory of a skill, removed and written again: the versions are as they were,
and the directory is gone or has what could be written. -/
theorem failed_rewrite (hext : ext.Lawful) (hvalid : is_valid_skill_id skill_id = true)
    (hdir : t.get (skill_path skill_id) = some .dir) (hrun : (do
      Task.io "remove skill dir" (skill_path skill_id) fun t => t.remove_dir_all (skill_path skill_id)
      Task.io "create skill dir" (skill_path skill_id) fun t =>
        t.create_dir_all ext.accepts (skill_path skill_id)
      write_skill_files ext (skill_path skill_id) files.toList
      let _ ← SkillsService.save_skill_version ext now skill_id files
      Task.look fun t => SkillsService.user_skill t skill_id : Task Skill).run t = (.error e, t')) :
    (∀ name, t'.get (skill_versions_dir skill_id ++ [name])
        = t.get (skill_versions_dir skill_id ++ [name]))
      ∧ (ext.accepts (skill_path skill_id) = false ∧ t'.get (skill_path skill_id) = none
        ∨ ext.accepts (skill_path skill_id) = true ∧ t'.get (skill_path skill_id) = some .dir
          ∧ ∀ q content, t'.get (skill_path skill_id ++ q) = some (.file content)
            ↔ FileTree.last_write (written_part ext (skill_path skill_id) [] (writes files)) q
              = some (q, content)) := by
  have hne : skill_path skill_id ≠ [] := List.cons_ne_nil _ _
  have hversions : ∀ name, ¬skill_path skill_id <+: skill_versions_dir skill_id ++ [name] := by
    rintro name ⟨rest, hrest⟩
    refine (apart_from_versions hvalid rest).2 ?_
    rw [hrest]
    exact List.prefix_append _ _
  rcases Task.run_bind_cases hrun with ⟨⟨⟩, t₁, hremove, hrun⟩ | ⟨e, hfail, -⟩
  swap
  · exact absurd ((FileTree.remove_dir_all_ok_iff hne).2 hdir) (Task.run_io_error hfail).1
  rw [Task.run_io_ok_iff] at hremove
  have hremoved : ∀ name, t₁.get (skill_versions_dir skill_id ++ [name])
      = t.get (skill_versions_dir skill_id ++ [name]) := fun name => by
    rw [FileTree.get_remove_dir_all hremove, if_neg (hversions name)]
  have hgone : t₁.get (skill_path skill_id) = none := by
    rw [FileTree.get_remove_dir_all hremove, if_pos (List.prefix_refl _)]
  rcases Task.run_bind_cases hrun with ⟨⟨⟩, t₂, hcreate, hrun⟩ | ⟨e, hfail, -⟩
  · rw [Task.run_io_ok_iff] at hcreate
    obtain ⟨hthere, hfile, hkept⟩ := failed_after_clear hext hvalid (clear_of_remade hremove hcreate) hrun
    refine ⟨fun name => ?_, Or.inr ⟨(FileTree.create_dir_all_ok_iff.1 ⟨t₂, hcreate⟩).1, hthere, hfile⟩⟩
    rw [hkept, FileTree.get_create_dir_all hcreate, if_neg, hremoved]
    intro hpre
    have := hpre.length_le
    simp [skill_versions_dir, skill_path] at this
  · obtain ⟨hnot, ht'⟩ := Task.run_io_error hfail
    rw [ht']
    refine ⟨hremoved, Or.inl ⟨?_, hgone⟩⟩
    rw [FileTree.create_dir_all_ok_iff] at hnot
    by_contra haccepts
    refine hnot ⟨by simpa using haccepts, fun q hq content hfile => ?_⟩
    rcases List.prefix_cons_iff.1 hq with rfl | ⟨rest, rfl, hrest⟩
    · rw [FileTree.get_root] at hfile
      cases hfile
    · rw [List.prefix_nil.1 hrest] at hfile
      change t₁.get (skill_path skill_id) = _ at hfile
      rw [hgone] at hfile
      cases hfile

theorem no_version_of_none_listed (h : service.list_skill_versions ext t skill_id = .ok [])
    (version : UInt64) (content : Text) :
    t.get (skill_version_path skill_id version) ≠ some (.file content) := by
  intro hfile
  unfold SkillsService.list_skill_versions at h
  cases hpaths : service.skill_version_paths t skill_id with
  | error e =>
    rw [hpaths] at h
    cases h
  | ok paths =>
    rw [hpaths] at h
    change (do
      let versions ← paths.mapM (read_skill_version ext t)
      return versions.insertionSort SkillsService.version_le) = .ok [] at h
    have hempty : paths = [] := by
      cases hread : paths.mapM (read_skill_version ext t) with
      | error e =>
        rw [hread] at h
        cases h
      | ok versions =>
        rw [hread] at h
        have hsorted : versions.insertionSort SkillsService.version_le = [] := Except.ok.inj h
        have hlength := congrArg List.length hsorted
        rw [List.length_insertionSort] at hlength
        obtain rfl : versions = [] := List.eq_nil_of_length_eq_zero hlength
        cases paths with
        | nil => rfl
        | cons path rest =>
          rw [List.mapM_cons] at hread
          cases hone : read_skill_version ext t path with
          | error e =>
            rw [hone] at hread
            cases hread
          | ok v =>
            rw [hone] at hread
            cases hrest : rest.mapM (read_skill_version ext t) with
            | error e | ok vs =>
              rw [hrest] at hread
              cases hread
    unfold SkillsService.skill_version_paths at hpaths
    split at hpaths
    · cases hpaths
    split at hpaths
    · cases hpaths
    have hlisted := Except.ok.inj hpaths
    rw [hempty, List.filterMap_eq_nil_iff] at hlisted
    have hmem := hlisted (version_name version, .file content) (FileTree.mem_read_dir.2 hfile)
    dsimp only at hmem
    rw [if_pos (by rw [stem_and_extension_version_name])] at hmem
    cases hmem

/-- **A request to update a skill that fails** leaves the skill as it was exactly if it is
refused, or if what it writes is what was there. -/
theorem failed_update_iff (hext : ext.Lawful)
    (hrun : (service.update_skill ext now skill_id files).run t = (.error e, t')) :
    SameSkill skill_id t t' ↔
      UpdateRefused ext service t now skill_id files ∨ WritesPresent ext service t skill_id files := by
  have hrefused : t' = t → UpdateRefused ext service t now skill_id files →
      (SameSkill skill_id t t' ↔ UpdateRefused ext service t now skill_id files
        ∨ WritesPresent ext service t skill_id files) := by
    intro ht' hrefused
    rw [ht']
    exact iff_of_true (SameSkill.refl skill_id t) (Or.inl hrefused)
  unfold SkillsService.update_skill at hrun
  rcases Task.run_bind_cases hrun with ⟨⟨⟩, t₁, hcheck, hrun⟩ | ⟨e, hfail, -⟩
  swap
  · obtain ⟨hinvalid, ht'⟩ := Task.run_return_error_if_error hfail
    exact hrefused ht' (Or.inl (by simpa using hinvalid))
  obtain ⟨hvalid, ht₁⟩ := Task.run_return_error_if_ok hcheck
  have hvalid : is_valid_skill_id skill_id = true := not_not.1 hvalid
  rw [ht₁] at hrun
  rcases Task.run_bind_cases hrun with ⟨⟨⟩, t₂, hlook, hrun⟩ | ⟨e, hfail, -⟩
  swap
  · exact hrefused (congrArg Prod.snd hfail).symm (Or.inr (Or.inl ⟨e, congrArg Prod.fst hfail⟩))
  obtain ⟨hensure, ht₂⟩ := Task.run_look_ok hlook
  rw [ht₂] at hrun
  have hdir : t.get (skill_path skill_id) = some .dir := by
    unfold SkillsService.ensure_user_skill_exists at hensure
    split_ifs at hensure with hbuiltin hdir
    exact FileTree.is_dir_iff.1 (by simpa using hdir)
  rcases Task.run_bind_cases hrun with ⟨⟨⟩, t₃, hpaths, hrun⟩ | ⟨e, hfail, -⟩
  swap
  · obtain ⟨ht', hiff⟩ := run_validate_file_paths_cases hfail
    exact hrefused ht' (Or.inr (Or.inr (Or.inl (exists_keys_iff.1 (hiff.1 ⟨e, rfl⟩)))))
  obtain ⟨ht₃, hiff⟩ := run_validate_file_paths_cases hpaths
  rw [ht₃] at hrun
  have hpaths : ¬∃ path ∈ files, is_valid_file_path path = false := fun h => by
    obtain ⟨e, he⟩ := hiff.2 (exists_keys_iff.2 h)
    cases he
  rcases Task.run_bind_cases hrun with ⟨versions, t₄, hlook, hrun⟩ | ⟨e, hfail, -⟩
  swap
  · exact hrefused (congrArg Prod.snd hfail).symm
      (Or.inr (Or.inr (Or.inr (Or.inl ⟨e, congrArg Prod.fst hfail⟩))))
  obtain ⟨hlist, ht₄⟩ := Task.run_look_ok hlook
  rw [ht₄] at hrun
  -- no check refuses it
  have hchecked : UpdateRefused ext service t now skill_id files →
      versions = [] ∧ ∃ present, read_skill_files t (skill_path skill_id) = .ok present
        ∧ ¬Savable ext t skill_id now present := by
    rintro (h | ⟨e, h⟩ | h | ⟨e, h⟩ | ⟨h, hpresent⟩)
    · rw [hvalid] at h
      cases h
    · rw [hensure] at h
      cases h
    · exact absurd h hpaths
    · rw [hlist] at h
      cases h
    · rw [hlist] at h
      exact ⟨Except.ok.inj h, hpresent⟩
  cases versions with
  | nil =>
    have hnot_present : ¬WritesPresent ext service t skill_id files := by
      rintro ⟨⟨v, versions, h⟩, -⟩
      rw [hlist] at h
      cases h
    rw [or_iff_left hnot_present]
    obtain ⟨present, hpresent⟩ : ∃ present, read_skill_files t (skill_path skill_id) = .ok present := by
      unfold read_skill_files
      rw [if_pos (FileTree.is_dir_iff.2 hdir)]
      exact ⟨_, rfl⟩
    have hlook : (Task.look fun t => read_skill_files t (skill_path skill_id)).run t
        = (.ok present, t) := by
      rw [Task.run_look, hpresent]
    rcases Task.run_bind_cases hrun with ⟨⟨⟩, t₅, hexisting, hrun⟩ | ⟨e, hfail, -⟩
    · unfold SkillsService.save_existing_files at hexisting
      rw [if_pos rfl, Task.run_bind_of_ok hlook] at hexisting
      obtain ⟨v, t₆, hsave, hpure⟩ := Task.run_bind_ok hexisting
      have ht₆ : t₆ = t₅ := congrArg Prod.snd hpure
      rw [ht₆] at hsave
      rcases run_save_skill_version_cases hsave with ⟨hsavable, -, content, hdocument⟩ | ⟨-, ⟨e, he⟩, -⟩
      swap
      · cases he
      have hdir₅ := get_after_save hvalid hsave []
      rw [List.append_nil, hdir] at hdir₅
      obtain ⟨hkept, -⟩ := failed_rewrite hext hvalid hdir₅ hrun
      -- the present files have become a version
      refine iff_of_false (fun hsame => ?_) fun h => ?_
      · have hversion := hsame.versions (version_name (next_skill_version t (skill_versions_dir skill_id)))
        rw [hkept] at hversion
        exact no_version_of_none_listed hlist _ content (hversion.symm.trans hdocument)
      · obtain ⟨-, present', hpresent', hnot⟩ := hchecked h
        rw [hpresent] at hpresent'
        rw [← Except.ok.inj hpresent'] at hnot
        exact hnot hsavable
    · unfold SkillsService.save_existing_files at hfail
      rw [if_pos rfl, Task.run_bind_of_ok hlook] at hfail
      rcases Task.run_bind_cases hfail with ⟨v, t₆, -, hpure⟩ | ⟨e, hsave, -⟩
      · cases hpure
      rcases run_save_skill_version_cases hsave with ⟨-, ⟨v, hv⟩, -⟩ | ⟨hnot, -, hkept⟩
      · cases hv
      refine iff_of_true ⟨?_, fun q content => ?_, hkept⟩ ?_
      · have hdir' := get_after_save hvalid hsave []
        rw [List.append_nil, hdir] at hdir'
        rw [exists_of_get hdir', exists_of_get hdir]
      · rw [get_after_save hvalid hsave]
      · exact Or.inr (Or.inr (Or.inr (Or.inr ⟨hlist, present, hpresent, hnot⟩)))
  | cons v versions =>
    have hnot_refused : ¬UpdateRefused ext service t now skill_id files :=
      fun h => List.cons_ne_nil _ _ (hchecked h).1
    rw [or_iff_right hnot_refused]
    have hnothing : (SkillsService.save_existing_files ext now skill_id (v :: versions)).run t
        = (.ok (), t) := rfl
    rw [Task.run_bind_of_ok hnothing] at hrun
    obtain ⟨hkept, ⟨haccepts, hgone⟩ | ⟨haccepts, hthere, hfile⟩⟩ := failed_rewrite hext hvalid hdir hrun
    · refine iff_of_false (fun hsame => ?_) fun h => ?_
      · have hexists := hsame.existence
        rw [exists_of_get hdir] at hexists
        unfold FileTree.exists at hexists
        rw [hgone] at hexists
        cases hexists
      · have := h.2.1
        rw [haccepts] at this
        cases this
    · constructor
      · intro hsame
        exact ⟨⟨v, versions, hlist⟩, haccepts, fun q content =>
          (hsame.files q content).symm.trans (hfile q content)⟩
      · rintro ⟨-, -, hpresent⟩
        refine ⟨?_, fun q content => (hfile q content).trans (hpresent q content).symm, hkept⟩
        rw [exists_of_get hthere, exists_of_get hdir]

/-- **A request that fails** leaves the skill as it was exactly if it is refused before its
first write, or if the files of an update, as far as they are written, are those that were
there. -/
theorem failed_request_iff (ext : Externals) (hext : ext.Lawful) (service : SkillsService)
    (t t' : Tree) (now skill_id : Text) (files : Files) (e : SkillError) :
    ((service.create_skill ext now skill_id files).run t = (.error e, t') →
        (SameSkill skill_id t t' ↔ CreateRefused ext service t skill_id files))
      ∧ ((service.update_skill ext now skill_id files).run t = (.error e, t') → (SameSkill skill_id t t' ↔
          UpdateRefused ext service t now skill_id files ∨ WritesPresent ext service t skill_id files)) :=
  ⟨failed_create_iff hext, failed_update_iff hext⟩

end Requests

/-! ## A file that would be a directory -/

/-- A file, and a file below it. -/
def nested_files : Files :=
  Std.ExtTreeMap.ofList [("a".toList, "# One".toList), ("a/b".toList, "# Two".toList)] compare

/-- A file outside of the skill. -/
def escaping_files : Files := Std.ExtTreeMap.ofList [("../a".toList, "# One".toList)] compare

theorem failed_run {result : Except SkillError Skill × Tree} (h : result.1.isOk = false) :
    ∃ e, result = (.error e, result.2) := by
  obtain ⟨answer, t⟩ := result
  cases answer with
  | error e => exact ⟨e, rfl⟩
  | ok skill => cases h

theorem failed_request_escaping :
    SameSkill "notes".toList no_skills (create_first known_versions escaping_files).2
      ↔ CreateRefused known_versions user_skills no_skills "notes".toList escaping_files := by
  have hfails : (create_first known_versions escaping_files).1.isOk = false := by decide +kernel
  obtain ⟨e, hrun⟩ := failed_run hfails
  exact (failed_request_iff known_versions known_versions_lawful user_skills no_skills _ _ _ _ e).1 hrun

/-- An update of the skill that was created with `SKILL.md`. -/
def update_first (files : Files) : Except SkillError Skill × Tree :=
  (user_skills.update_skill known_versions "2026-01-02T00:00:00.000000Z".toList "notes".toList files).run
    (created plain_files)

/-- **A skill that could not be created is there**, and an update that failed has removed
the files. -/
theorem failed_requests_leave_files : ((create_first known_versions nested_files).1.isOk = false
        ∧ (create_first known_versions nested_files).2.exists (skill_path "notes".toList) = true
        ∧ ¬SameSkill "notes".toList no_skills (create_first known_versions nested_files).2)
      ∧ (update_first nested_files).1.isOk = false
      ∧ (created plain_files).is_file ["notes".toList, "SKILL.md".toList] = true
      ∧ (update_first nested_files).2.is_file ["notes".toList, "SKILL.md".toList] = false
      ∧ ¬SameSkill "notes".toList (created plain_files) (update_first nested_files).2 := by
  have hthere : (create_first known_versions nested_files).2.exists (skill_path "notes".toList) = true := by
    decide +kernel
  have hfile : (created plain_files).is_file ["notes".toList, "SKILL.md".toList] = true := by decide +kernel
  have hlost : (update_first nested_files).2.is_file ["notes".toList, "SKILL.md".toList] = false := by
    decide +kernel
  refine ⟨⟨by decide +kernel, hthere, fun hsame => ?_⟩, by decide +kernel, hfile, hlost, fun hsame => ?_⟩
  · have hexists := hsame.existence
    rw [hthere] at hexists
    revert hexists
    decide +kernel
  · obtain ⟨content, hget⟩ := FileTree.is_file_iff.1 hfile
    have hkept := (hsame.files ["SKILL.md".toList] content).2 hget
    have := FileTree.is_file_iff.2 ⟨content, hkept⟩
    exact Bool.false_ne_true (hlost.symm.trans this)

end AgentSpace.Skills
