/-
The recorded versions of a skill, each a document named by its number. The number of the
next one and the list of all are both computed from the names in the directory, so both
rest on nothing else being there (`Recorded`).
-/
import AgentSpace.Skills.Files

set_option autoImplicit false

namespace AgentSpace.Skills

open Text Lib

/-! ## Names of versions -/

theorem stem_and_extension_version_name (version : UInt64) :
    stem_and_extension (version_name version)
      = (decimal_padded 20 version.toNat, some "json".toList) := by
  have hreverse : (version_name version).reverse
      = "nosj".toList ++ '.' :: (decimal_padded 20 version.toNat).reverse := by
    unfold version_name
    rw [List.reverse_append]
    rfl
  have hne : (decimal_padded 20 version.toNat).reverse ≠ [] := by
    rw [Ne, List.reverse_eq_nil_iff]
    exact List.append_ne_nil_of_right_ne_nil _ (decimal_ne_nil _)
  unfold stem_and_extension
  rw [hreverse, split_once_append (by decide)]
  dsimp only
  rw [if_neg hne, List.reverse_reverse]
  rfl

theorem parse_version_name (version : UInt64) :
    parse_usize (stem_and_extension (version_name version)).1 = some version := by
  rw [stem_and_extension_version_name]
  exact parse_usize_decimal_padded 20 version

theorem version_name_injective : Function.Injective version_name := by
  intro v w h
  have hv := parse_version_name v
  rw [h, parse_version_name] at hv
  exact (Option.some.inj hv).symm

/-! ## Recorded versions -/

/-- The versions of a skill on disk: numbered from 1, each in its document, and
nothing else in the directory. -/
structure Recorded (ext : Externals) (t : Tree) (skill_id : Text) (versions : List SkillVersion) :
    Prop where
  numbered : versions.map (fun v => v.version.toNat) = List.range' 1 versions.length
  named : ∀ name, (t.get (skill_versions_dir skill_id ++ [name])).isSome →
    ∃ v ∈ versions, name = version_name v.version
  document : ∀ v ∈ versions, ∃ content, ext.to_vec_pretty v = .ok content ∧
    t.get (skill_version_path skill_id v.version) = some (.file content)

namespace Recorded

variable {ext : Externals} {t t' : Tree} {skill_id : Text} {versions : List SkillVersion}

/-- It depends on what is in the directory of the versions only. -/
theorem of_get_eq (h : Recorded ext t skill_id versions)
    (heq : ∀ name, t'.get (skill_versions_dir skill_id ++ [name])
      = t.get (skill_versions_dir skill_id ++ [name])) : Recorded ext t' skill_id versions := by
  refine ⟨h.numbered, fun name hname => ?_, fun v hv => ?_⟩
  · rw [heq] at hname
    exact h.named name hname
  · obtain ⟨content, hjson, hget⟩ := h.document v hv
    refine ⟨content, hjson, ?_⟩
    rw [skill_version_path, heq]
    exact hget

theorem version_le (h : Recorded ext t skill_id versions) {v : SkillVersion} (hv : v ∈ versions) :
    1 ≤ v.version.toNat ∧ v.version.toNat ≤ versions.length := by
  have hmem : v.version.toNat ∈ versions.map fun v => v.version.toNat :=
    List.mem_map_of_mem hv
  rw [h.numbered, List.mem_range'_1] at hmem
  omega

theorem exists_latest (h : Recorded ext t skill_id versions) (hne : versions ≠ []) :
    ∃ v ∈ versions, v.version.toNat = versions.length := by
  have hpos : 0 < versions.length := List.length_pos_of_ne_nil hne
  have hmem : versions.length ∈ List.range' 1 versions.length := by
    rw [List.mem_range'_1]
    omega
  rw [← h.numbered] at hmem
  obtain ⟨v, hv, hlen⟩ := List.mem_map.1 hmem
  exact ⟨v, hv, hlen⟩

theorem version_injective (h : Recorded ext t skill_id versions) {v w : SkillVersion}
    (hv : v ∈ versions) (hw : w ∈ versions) (heq : v.version = w.version) : v = w := by
  have hnodup : (versions.map fun v => v.version.toNat).Nodup := by
    rw [h.numbered]
    exact List.nodup_range'
  exact List.inj_on_of_nodup_map hnodup hv hw (by rw [heq])

end Recorded

/-! ## The next version -/

theorem max_eq_of_le {v w : UInt64} (h : v ≤ w) : max v w = w := if_pos h

theorem max_eq_of_ge {v w : UInt64} (h : w ≤ v) : max v w = v := by
  show (if v ≤ w then w else v) = v
  split_ifs with hle
  · exact UInt64.le_antisymm h hle
  · rfl

theorem le_max (v w : UInt64) : v ≤ max v w ∧ w ≤ max v w := by
  rcases UInt64.le_total v w with h | h
  · rw [max_eq_of_le h]
    exact ⟨h, UInt64.le_refl w⟩
  · rw [max_eq_of_ge h]
    exact ⟨UInt64.le_refl v, h⟩

/-- The loop of `next_skill_version` finds the largest number. -/
theorem foldl_later_version (items : List (Text × Node Text)) (init : UInt64)
    (hitems : ∀ item ∈ items, ∃ version content, item = (version_name version, .file content)) :
    init ≤ items.foldl later_version init
      ∧ (∀ version content, (version_name version, .file content) ∈ items →
        version ≤ items.foldl later_version init)
      ∧ (items.foldl later_version init = init ∨ ∃ content,
        (version_name (items.foldl later_version init), .file content) ∈ items) := by
  induction items generalizing init with
  | nil => simp
  | cons item rest ih =>
    obtain ⟨⟨version, content, rfl⟩, hrest⟩ := List.forall_mem_cons.1 hitems
    have hstep : later_version init (version_name version, .file content) = max init version := by
      rw [later_version, parse_version_name]
    obtain ⟨hinit, hall, hfound⟩ := ih (max init version) hrest
    rw [List.foldl_cons, hstep]
    refine ⟨UInt64.le_trans (le_max _ _).1 hinit, fun v c hmem => ?_, ?_⟩
    · rcases List.mem_cons.1 hmem with heq | hmem
      · rw [version_name_injective (Prod.mk.inj heq).1]
        exact UInt64.le_trans (le_max _ _).2 hinit
      · exact hall v c hmem
    · rcases hfound with heq | ⟨c, hmem⟩
      · rcases UInt64.le_total version init with hle | hle
        · left
          rw [heq, max_eq_of_ge hle]
        · right
          rw [heq, max_eq_of_le hle]
          exact ⟨content, List.mem_cons_self⟩
      · exact Or.inr ⟨c, List.mem_cons_of_mem _ hmem⟩

namespace Recorded

variable {ext : Externals} {t t' : Tree} {skill_id : Text} {versions : List SkillVersion}

theorem mem_read_dir (h : Recorded ext t skill_id versions) {name : Text} {node : Node Text} :
    (name, node) ∈ t.read_dir (skill_versions_dir skill_id) ↔ ∃ v ∈ versions, ∃ content,
      ext.to_vec_pretty v = .ok content ∧ name = version_name v.version ∧ node = .file content := by
  rw [FileTree.mem_read_dir]
  constructor
  · intro hget
    obtain ⟨v, hv, rfl⟩ := h.named name (by rw [hget]; rfl)
    obtain ⟨content, hjson, hdoc⟩ := h.document v hv
    rw [skill_version_path, hget] at hdoc
    exact ⟨v, hv, content, hjson, rfl, Option.some.inj hdoc⟩
  · rintro ⟨v, hv, content, hjson, rfl, rfl⟩
    obtain ⟨content', hjson', hdoc⟩ := h.document v hv
    rw [hjson] at hjson'
    rw [Except.ok.inj hjson']
    exact hdoc

/-- **The next version** has the next number, as long as there is one. -/
theorem next_skill_version (h : Recorded ext t skill_id versions) (hbound : versions.length + 1 < 2 ^ 64) :
    (next_skill_version t (skill_versions_dir skill_id)).toNat = versions.length + 1 := by
  have hitems : ∀ item ∈ t.read_dir (skill_versions_dir skill_id), ∃ version content,
      item = (version_name version, .file content) := by
    rintro ⟨name, node⟩ hitem
    obtain ⟨v, -, content, -, rfl, rfl⟩ := h.mem_read_dir.1 hitem
    exact ⟨v.version, content, rfl⟩
  obtain ⟨-, hall, hfound⟩ := foldl_later_version _ 0 hitems
  have hlatest : ((t.read_dir (skill_versions_dir skill_id)).foldl later_version 0).toNat
      = versions.length := by
    refine le_antisymm ?_ ?_
    · rcases hfound with hzero | ⟨content, hmem⟩
      · rw [hzero]
        exact Nat.zero_le _
      · obtain ⟨v, hv, -, -, hname, -⟩ := h.mem_read_dir.1 hmem
        rw [version_name_injective hname]
        exact (h.version_le hv).2
    · by_cases hne : versions = []
      · rw [hne]
        exact Nat.zero_le _
      · obtain ⟨v, hv, hlen⟩ := h.exists_latest hne
        obtain ⟨content, hjson, -⟩ := h.document v hv
        rw [← hlen]
        exact UInt64.le_iff_toNat_le.1
          (hall v.version content (h.mem_read_dir.2 ⟨v, hv, content, hjson, rfl, rfl⟩))
  unfold Skills.next_skill_version
  rw [UInt64.toNat_add, hlatest]
  exact Nat.mod_eq_of_lt hbound

end Recorded

/-! ## The list of versions -/

section Listing

variable {ext : Externals} {t : Tree} {skill_id : Text} {versions : List SkillVersion}

/-- Reading each of the documents of versions gives the versions. -/
theorem mapM_read_skill_version (hext : ext.Lawful) {listed : List SkillVersion}
    (h : ∀ v ∈ listed, ∃ content, ext.to_vec_pretty v = .ok content ∧
      t.get (skill_version_path skill_id v.version) = some (.file content)) :
    (listed.map fun v => skill_version_path skill_id v.version).mapM (read_skill_version ext t)
      = .ok listed := by
  induction listed with
  | nil => rfl
  | cons v rest ih =>
    obtain ⟨⟨content, hjson, hget⟩, hrest⟩ := List.forall_mem_cons.1 h
    have hread : read_skill_version ext t (skill_version_path skill_id v.version) = .ok v := by
      unfold read_skill_version
      rw [FileTree.read_ok_iff.2 hget]
      dsimp only
      rw [hext.round_trip v content hjson]
    rw [List.map_cons, List.mapM_cons, hread, ih hrest]
    rfl

instance : Std.Total SkillsService.version_le := ⟨fun v w => UInt64.le_total v.version w.version⟩

instance : IsTrans SkillVersion SkillsService.version_le := ⟨fun _ _ _ h h' => UInt64.le_trans h h'⟩

theorem insertionSort_of_perm (h : Recorded ext t skill_id versions) {listed : List SkillVersion}
    (hperm : listed.Perm versions) : listed.insertionSort SkillsService.version_le = versions := by
  have hincreasing : versions.Pairwise SkillsService.version_le := by
    have hnumbers : (versions.map fun v => v.version.toNat).Pairwise (· < ·) := by
      rw [h.numbered]
      exact List.pairwise_lt_range'
    rw [List.pairwise_map] at hnumbers
    exact hnumbers.imp fun hlt => UInt64.le_iff_toNat_le.2 (le_of_lt hlt)
  refine ((List.perm_insertionSort _ listed).trans hperm).eq_of_pairwise (fun v w hv hw hle hle' => ?_)
    (List.pairwise_insertionSort _ listed) hincreasing
  have hmem : v ∈ versions := hperm.mem_iff.1 ((List.mem_insertionSort _).1 hv)
  exact h.version_injective hmem hw (UInt64.le_antisymm hle hle')

/-- The paths of versions, in the order of the directory. -/
theorem skill_version_paths_of_recorded (service : SkillsService)
    (hvalid : is_valid_skill_id skill_id = true) (hbuiltin : service.is_builtin skill_id = false)
    (hdir : t.get (skill_path skill_id) = some .dir) (h : Recorded ext t skill_id versions) :
    ∃ listed : List SkillVersion, listed.Perm versions ∧ service.skill_version_paths t skill_id
      = .ok (listed.map fun v => skill_version_path skill_id v.version) := by
  have hpaths : service.skill_version_paths t skill_id
      = .ok ((t.read_dir (skill_versions_dir skill_id)).map fun item =>
        skill_versions_dir skill_id ++ [item.1]) := by
    unfold SkillsService.skill_version_paths SkillsService.ensure_user_skill_exists
    rw [if_neg (by simpa using hvalid), hbuiltin, if_neg (by simp),
      if_neg (by simp [FileTree.is_dir_iff.2 hdir])]
    refine congrArg Except.ok ?_
    rw [← List.filterMap_eq_map]
    refine List.filterMap_congr fun ⟨name, node⟩ hitem => ?_
    obtain ⟨v, -, content, -, rfl, rfl⟩ := h.mem_read_dir.1 hitem
    simp [stem_and_extension_version_name]
  have hperm : ((t.read_dir (skill_versions_dir skill_id)).map Prod.fst).Perm
      (versions.map fun v => version_name v.version) := by
    have hnodup : (versions.map fun v => version_name v.version).Nodup := by
      have hnumbers : (versions.map fun v => v.version.toNat).Nodup := by
        rw [h.numbered]
        exact List.nodup_range'
      rw [List.Nodup, List.pairwise_map] at hnumbers ⊢
      exact hnumbers.imp fun hne heq => hne (by rw [version_name_injective heq])
    rw [List.perm_ext_iff_of_nodup FileTree.nodup_read_dir hnodup]
    intro name
    constructor
    · intro hname
      obtain ⟨⟨_, node⟩, hitem, rfl⟩ := List.mem_map.1 hname
      obtain ⟨v, hv, -, -, heq, -⟩ := h.mem_read_dir.1 hitem
      exact List.mem_map.2 ⟨v, hv, heq.symm⟩
    · intro hname
      obtain ⟨v, hv, rfl⟩ := List.mem_map.1 hname
      obtain ⟨content, hjson, -⟩ := h.document v hv
      exact List.mem_map.2 ⟨(_, .file content), h.mem_read_dir.2 ⟨v, hv, content, hjson, rfl, rfl⟩, rfl⟩
  have hcomp := List.eq_map_comp_perm fun v : SkillVersion => version_name v.version
  rw [← congrFun (congrFun hcomp _) _] at hperm
  obtain ⟨listed, hlisted, hperm⟩ := hperm
  refine ⟨listed, hperm, ?_⟩
  rw [hpaths]
  refine congrArg Except.ok ?_
  have hmap := congrArg (List.map fun name => skill_versions_dir skill_id ++ [name]) hlisted
  rw [List.map_map, List.map_map] at hmap
  exact hmap

/-- **Listing** gives the recorded versions, in the order of their numbers. -/
theorem list_skill_versions_of_recorded (hext : ext.Lawful) (service : SkillsService)
    (hvalid : is_valid_skill_id skill_id = true) (hbuiltin : service.is_builtin skill_id = false)
    (hdir : t.get (skill_path skill_id) = some .dir) (h : Recorded ext t skill_id versions) :
    service.list_skill_versions ext t skill_id = .ok versions := by
  obtain ⟨listed, hperm, hpaths⟩ := skill_version_paths_of_recorded service hvalid hbuiltin hdir h
  have hread : (listed.map fun v => skill_version_path skill_id v.version).mapM
      (read_skill_version ext t) = .ok listed :=
    mapM_read_skill_version hext fun v hv => h.document v (hperm.mem_iff.1 hv)
  have hlist : service.list_skill_versions ext t skill_id
      = ((listed.map fun v => skill_version_path skill_id v.version).mapM
        (read_skill_version ext t)).bind fun versions =>
          .ok (versions.insertionSort SkillsService.version_le) := by
    unfold SkillsService.list_skill_versions
    rw [hpaths]
    rfl
  rw [hlist, hread]
  exact congrArg Except.ok (insertionSort_of_perm h hperm)

end Listing

end AgentSpace.Skills
