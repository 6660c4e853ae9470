/-
A snapshot is an overlay.

What the saved workspace holds after the script is said path by path (`Overlay`), which
determines the whole of it, so that a second run changes nothing (`snapshot_again`).
-/
import AgentSpace.Artifacts.ExcludePaths
import AgentSpace.Artifacts.Saved

set_option autoImplicit false

namespace AgentSpace.Artifacts

open Lib Files
open Telemetry (Str str)

/-! ## The law -/

/-- What the script looks at to see whether a path is excluded. -/
def candidate (source dest : Volume) (path : List Str) : Volume :=
  if (source.get path).exists then source.get path else dest.get path

/-- The path, or one above it, is excluded. -/
def HasExcluded (exclude : List (List Str)) (source dest : Volume) (path : List Str) : Prop :=
  ∃ part, part ≠ [] ∧ part <+: path ∧ should_exclude exclude (candidate source dest part) part = true

/-- No operation at the path leads through a link. -/
def Inside (dest : Volume) (path : List Str) : Prop :=
  ∀ part, part <+: path → part ≠ path → part ≠ [] → (dest.get part).is_link = false

/-- The saved workspace is the workspace laid over what was there. -/
structure Overlay (exclude : List (List Str)) (source dest copy : Volume) : Prop where
  excluded : ∀ path, HasExcluded exclude source dest path → copy.get path = .nothing
  copied : ∀ path, path ≠ [] → ¬HasExcluded exclude source dest path → (source.get path).exists = true →
    (copy.get path).node = (source.get path).node
  kept : ∀ path, path ≠ [] → ¬HasExcluded exclude source dest path → (source.get path).exists = false →
    (∀ part, part <+: path → part ≠ path → (dest.get part).is_dir = true → (copy.get part).is_dir = true) →
    (copy.get path).node = (dest.get path).node

/-! ## Copies -/

section Copies

variable {exclude : List (List Str)}

/-- What is excluded of the entry is nowhere in the copy. -/
theorem copy_excluded {entry : Volume} {path : List Str} (h : (entry.get path).exists = true) (target : Volume)
    (relative : List Str) (hexcluded : should_exclude exclude (entry.get path) (relative ++ path) = true) :
    (copy_entry exclude entry target relative).get path = .nothing := by
  induction path generalizing entry target relative with
  | nil =>
    rw [List.append_nil] at hexcluded
    cases entry with
    | nothing => cases h
    | _ =>
      unfold copy_entry
      exact if_pos hexcluded
  | cons name path ih =>
    cases entry with
    | dir child =>
      unfold copy_entry
      by_cases hentry : should_exclude exclude (.dir child) relative = true
      · rw [if_pos hentry, get_nothing]
      · rw [if_neg hentry]
        rw [List.append_cons] at hexcluded
        exact ih h (target.child name) (relative ++ [name]) hexcluded
    | _ =>
      rw [get_cons_of_not_dir rfl] at h
      cases h

/-- Where the entry has nothing, the target stays, if the entry has directories above. -/
theorem copy_kept {entry : Volume} {path : List Str} (h : entry.get path = .nothing) (target : Volume)
    (relative : List Str) (habove : ∀ part, part <+: path → (entry.get part).exists = true →
      (entry.get part).is_dir = true ∧ should_exclude exclude (entry.get part) (relative ++ part) = false) :
    (copy_entry exclude entry target relative).get path = target.get path := by
  induction path generalizing entry target relative with
  | nil =>
    obtain rfl : entry = .nothing := h
    unfold copy_entry
    rfl
  | cons name path ih =>
    cases entry with
    | nothing =>
      unfold copy_entry
      rfl
    | dir child =>
      have hentry : should_exclude exclude (.dir child) relative = false := by
        have hself := (habove [] List.nil_prefix rfl).2
        rwa [List.append_nil] at hself
      unfold copy_entry
      rw [hentry]
      refine ih h (target.child name) (relative ++ [name]) ?_
      intro part hpart hthere
      have hbelow := habove (name :: part) ((List.prefix_cons_inj name).2 hpart) hthere
      rwa [List.append_cons] at hbelow
    | file data | link link => cases (habove [] List.nil_prefix rfl).1

end Copies

/-! ## What is removed before the copy -/

section Removals

variable {exclude : List (List Str)} {source : Volume}

theorem is_owned_artifact_of_node {t u : Volume} (h : t.node = u.node) (relative : List Str) :
    is_owned_artifact t relative = is_owned_artifact u relative := by
  unfold is_owned_artifact
  cases t with
  | _ => cases u with
    | _ => simp_all [Files.node]

theorem should_exclude_of_node {t u : Volume} (h : t.node = u.node) (path : List Str) :
    should_exclude exclude t path = should_exclude exclude u path := by
  unfold should_exclude
  rw [is_owned_artifact_of_node h]

/-- There is an artifact of the platform at the path. -/
def owned_at (root : Volume) (path : List Str) : Bool :=
  is_managed_artifact_path path && is_owned_artifact (root.get path) path

theorem not_owned_of_not_leaf {t : Volume} (h : t.leaf = none) (path : List Str) :
    is_owned_artifact t path = false := by
  unfold is_owned_artifact
  cases t with
  | file data => cases h
  | link link => cases h
  | _ =>
    dsimp only
    split
    · rfl
    · split <;> rfl

/-- Removing artifacts leaves what is not one, nor below one. -/
theorem remove_owned_from_eq (relative_dir : List Str) (root : Volume) (path : List Str)
    (h : ∀ name, relative_dir ++ [name] <+: path → owned_at root (relative_dir ++ [name]) = false) :
    ((remove_owned_from relative_dir root).get path).node = (root.get path).node := by
  unfold remove_owned_from
  cases hdir : root.get relative_dir with
  | dir child =>
    dsimp only
    by_cases hstart : relative_dir <+: path
    · obtain ⟨rest, rfl⟩ := hstart
      have hthere : (root.get relative_dir).exists = true := by rw [hdir]; rfl
      rw [get_append, get_put_of_exists hthere, get_append, hdir]
      cases rest with
      | nil => rfl
      | cons name rest =>
        have hname := h name (by
          rw [List.append_cons relative_dir name rest]
          exact List.prefix_append _ _)
        have hchild : root.get (relative_dir ++ [name]) = child name := by
          rw [get_append, hdir]
          rfl
        rw [owned_at, hchild] at hname
        rw [get_cons, child_dir, hname, if_neg Bool.false_ne_true]
        rfl
    · exact node_get_put_elsewhere hstart root _
  | _ => rfl

variable {root : Volume}

/-- An artifact is removed. -/
theorem remove_owned_from_owned {relative_dir : List Str} {name : Str}
    (h : owned_at root (relative_dir ++ [name]) = true) :
    (remove_owned_from relative_dir root).get (relative_dir ++ [name]) = .nothing := by
  unfold remove_owned_from
  cases hdir : root.get relative_dir with
  | dir child =>
    have hthere : (root.get relative_dir).exists = true := by rw [hdir]; rfl
    have hchild : root.get (relative_dir ++ [name]) = child name := by
      rw [get_append, hdir]
      rfl
    rw [owned_at, hchild] at h
    dsimp only
    rw [get_append, get_put_of_exists hthere, get_cons, child_dir, h, if_pos rfl]
    rfl
  | _ =>
    dsimp only
    rw [get_append, hdir]
    exact get_nothing _

theorem profile_dir_ne_skills_dir : profile_dir ≠ skills_dir := by decide +kernel

theorem not_prefix_apart (name other : Str) : ¬profile_dir ++ [other] <+: skills_dir ++ [name]
    ∧ ¬skills_dir ++ [other] <+: profile_dir ++ [name] := by
  have hlength : ∀ a b : Str, (profile_dir ++ [a]).length = (skills_dir ++ [b]).length := by
    intro a b
    rw [List.length_append, List.length_append]
    rfl
  constructor
  · intro h
    exact profile_dir_ne_skills_dir (List.append_inj' (h.eq_of_length (hlength other name)) rfl).1
  · intro h
    exact profile_dir_ne_skills_dir (List.append_inj' (h.eq_of_length (hlength name other).symm) rfl).1.symm

theorem owned_at_remove_profiles (name : Str) :
    owned_at (remove_owned_from profile_dir root) (skills_dir ++ [name])
      = owned_at root (skills_dir ++ [name]) := by
  have hnode := remove_owned_from_eq profile_dir root (skills_dir ++ [name])
    fun other h => absurd h (not_prefix_apart name other).1
  unfold owned_at
  rw [is_owned_artifact_of_node hnode]

variable {path : List Str}

theorem remove_owned_artifacts_eq (h : ∀ part, part <+: path → owned_at root part = false) :
    ((remove_owned_artifacts root).get path).node = (root.get path).node := by
  have hskills := remove_owned_from_eq skills_dir (remove_owned_from profile_dir root) path
    fun name hname => (owned_at_remove_profiles name).trans (h _ hname)
  exact hskills.trans (remove_owned_from_eq profile_dir root path fun name hname => h _ hname)

theorem remove_owned_artifacts_owned (h : owned_at root path = true) :
    (remove_owned_artifacts root).get path = .nothing := by
  obtain ⟨name, rfl | rfl⟩ := managed_path (Bool.and_eq_true_iff.1 h).1
  · have hprofile := remove_owned_from_owned h
    refine node_eq_none_iff.1 ((remove_owned_from_eq skills_dir _ _ fun other hother => ?_).trans
      (node_eq_none_iff.2 hprofile))
    exact absurd hother (not_prefix_apart name other).2
  · exact remove_owned_from_owned ((owned_at_remove_profiles name).trans h)

/-- Nothing has been made. -/
def Fewer (t u : Volume) : Prop := ∀ path, u.get path = .nothing → t.get path = .nothing

theorem Fewer.trans {t u v : Volume} (h : Fewer t u) (h' : Fewer u v) : Fewer t v := fun path hpath =>
  h path (h' path hpath)

theorem fewer_put_nothing (t : Volume) (path : List Str) : Fewer (t.put path .nothing) t := by
  intro other hother
  by_cases h : path <+: other
  · exact get_of_prefix_nothing h (get_put_nothing t path)
  · exact node_eq_none_iff.1 ((node_get_put_elsewhere h t .nothing).trans (node_eq_none_iff.2 hother))

theorem fewer_remove_owned_from (relative_dir : List Str) (root : Volume) :
    Fewer (remove_owned_from relative_dir root) root := by
  intro path h
  by_cases hbelow : ∃ name, relative_dir ++ [name] <+: path ∧ owned_at root (relative_dir ++ [name]) = true
  · obtain ⟨name, hname, howned⟩ := hbelow
    exact get_of_prefix_nothing hname (remove_owned_from_owned howned)
  · refine node_eq_none_iff.1 ((remove_owned_from_eq relative_dir _ _ fun name hname => ?_).trans
      (node_eq_none_iff.2 h))
    rw [← Bool.not_eq_true]
    exact fun howned => hbelow ⟨name, hname, howned⟩

theorem fewer_remove_owned_artifacts (root : Volume) : Fewer (remove_owned_artifacts root) root :=
  (fewer_remove_owned_from skills_dir _).trans (fewer_remove_owned_from profile_dir root)

variable {paths : List (List Str)} {dest dest' : Volume}

/-- One turn of the loop over the excluded paths. -/
theorem remove_excluded_cons {first : List Str}
    (h : remove_excluded exclude source (first :: paths) dest = some dest') :
    has_symlink_ancestor source first = false ∧ has_symlink_ancestor dest first = false
      ∧ remove_excluded exclude source paths (if should_exclude exclude (candidate source dest first) first
        then dest.put first .nothing else dest) = some dest' := by
  unfold remove_excluded at h
  obtain ⟨hlinks, h⟩ := Option.ite_none_left_eq_some.1 h
  rw [Bool.not_eq_true, Bool.or_eq_false_iff] at hlinks
  exact ⟨hlinks.1, hlinks.2, h⟩

theorem fewer_remove_excluded
    (h : remove_excluded exclude source paths dest = some dest') : Fewer dest' dest := by
  induction paths generalizing dest with
  | nil =>
    obtain rfl := Option.some.inj h
    exact fun _ hpath => hpath
  | cons first paths ih =>
    obtain ⟨-, -, h⟩ := remove_excluded_cons h
    refine (ih h).trans ?_
    split
    · exact fewer_put_nothing dest first
    · exact fun _ hpath => hpath

/-- The paths that are excluded wherever they are, are removed. -/
theorem remove_excluded_removes
    (h : remove_excluded exclude source paths dest = some dest') (hmem : path ∈ paths)
    (hexcluded : ∀ entry : Volume, should_exclude exclude entry path = true) : dest'.get path = .nothing := by
  induction paths generalizing dest with
  | nil => cases hmem
  | cons first paths ih =>
    obtain ⟨-, -, h⟩ := remove_excluded_cons h
    rcases List.mem_cons.1 hmem with rfl | hmem
    · refine fewer_remove_excluded h path ?_
      rw [if_pos (hexcluded _)]
      exact get_put_nothing dest path
    · exact ih h hmem

theorem candidate_of_node (h : (dest.get path).node = (dest'.get path).node) :
    should_exclude exclude (candidate source dest path) path
      = should_exclude exclude (candidate source dest' path) path := by
  unfold candidate
  split
  · rfl
  · exact should_exclude_of_node h path

/-- **What stays** in one turn: a path at which, and above which, nothing is excluded. -/
theorem turn_keeps {first path : List Str} {dest : Volume} (hne : first ≠ [])
    (hkept : ¬HasExcluded exclude source dest path) {part : List Str} (hpart : part <+: path) :
    ((if should_exclude exclude (candidate source dest first) first then dest.put first .nothing
      else dest).get part).node = (dest.get part).node := by
  split
  · rename_i hexcluded
    exact node_get_put_elsewhere (fun h => hkept ⟨first, hne, h.trans hpart, hexcluded⟩) dest .nothing
  · rfl

theorem hasExcluded_of_nodes (h : ∀ part, part <+: path → (dest.get part).node = (dest'.get part).node) :
    HasExcluded exclude source dest path ↔ HasExcluded exclude source dest' path := by
  unfold HasExcluded
  refine exists_congr fun part => and_congr_right fun _ => and_congr_right fun hpart => ?_
  rw [candidate_of_node (h part hpart)]

theorem remove_excluded_keeps
    (h : remove_excluded exclude source paths dest = some dest') (hne : [] ∉ paths)
    (hkept : ¬HasExcluded exclude source dest path) :
    ∀ part, part <+: path → (dest'.get part).node = (dest.get part).node := by
  induction paths generalizing dest with
  | nil =>
    obtain rfl := Option.some.inj h
    exact fun _ _ => rfl
  | cons first paths ih =>
    obtain ⟨-, -, h⟩ := remove_excluded_cons h
    obtain ⟨hfirst, hrest⟩ := List.ne_and_not_mem_of_not_mem_cons hne
    have hturn := fun part (hpart : part <+: path) => turn_keeps (Ne.symm hfirst) hkept hpart
    have hkept' := (hasExcluded_of_nodes hturn).not.2 hkept
    exact fun part hpart => (ih h hrest hkept' part hpart).trans (hturn part hpart)

/-- A path above an excluded one. -/
def AboveExcluded (paths : List (List Str)) (part : List Str) : Prop :=
  part ≠ [] ∧ ∃ path ∈ paths, part <+: path ∧ part ≠ path

theorem inside_iff {base : Volume} : has_symlink_ancestor base path = false ↔ Inside base path := by
  have hmem : ∀ part, part ∈ path.dropLast.inits.tail ↔ part <+: path ∧ part ≠ path ∧ part ≠ [] := by
    intro part
    have htail : part ∈ path.dropLast.inits.tail ↔ part ≠ [] ∧ part ∈ path.dropLast.inits := by
      cases hdrop : path.dropLast with
      | nil => simp
      | cons first others =>
        rw [List.inits_cons, List.tail_cons, List.mem_cons]
        refine ⟨fun h => ⟨?_, Or.inr h⟩, fun h => h.2.resolve_left h.1⟩
        obtain ⟨other, -, rfl⟩ := List.mem_map.1 h
        exact List.cons_ne_nil _ _
    rw [htail, List.mem_inits]
    constructor
    · rintro ⟨hne, hbelow⟩
      refine ⟨hbelow.trans (List.dropLast_prefix path), ?_, hne⟩
      rintro rfl
      have hlength := hbelow.length_le
      rw [List.length_dropLast] at hlength
      have hpos := List.length_pos_iff.2 hne
      omega
    · rintro ⟨⟨rest, rfl⟩, hproper, hne⟩
      refine ⟨hne, ?_⟩
      rw [List.dropLast_append_of_ne_nil fun hrest => hproper (by rw [hrest, List.append_nil])]
      exact List.prefix_append _ _
  unfold has_symlink_ancestor Inside
  rw [List.any_eq_false]
  constructor
  · intro h part hbelow hproper hne
    exact Bool.eq_false_of_not_eq_true (h part ((hmem part).2 ⟨hbelow, hproper, hne⟩))
  · intro h part hpart
    obtain ⟨hbelow, hproper, hne⟩ := (hmem part).1 hpart
    rw [h part hbelow hproper hne]
    exact Bool.false_ne_true

/-- Above an excluded path there was no link, unless it is excluded itself. -/
theorem no_link_above_excluded
    (h : remove_excluded exclude source paths dest = some dest') (hne : [] ∉ paths) {part : List Str}
    (habove : AboveExcluded paths part) : (source.get part).is_link = false
      ∧ (¬HasExcluded exclude source dest part → (dest.get part).is_link = false) := by
  obtain ⟨hpart, path, hmem, hbelow, hproper⟩ := habove
  induction paths generalizing dest with
  | nil => cases hmem
  | cons first paths ih =>
    obtain ⟨hsource, hdest, h⟩ := remove_excluded_cons h
    obtain ⟨hfirst, hrest⟩ := List.ne_and_not_mem_of_not_mem_cons hne
    rcases List.mem_cons.1 hmem with rfl | hmem
    · exact ⟨inside_iff.1 hsource part hbelow hproper hpart,
        fun _ => inside_iff.1 hdest part hbelow hproper hpart⟩
    · obtain ⟨hnone, hlater⟩ := ih h hrest hmem
      refine ⟨hnone, fun hkept => ?_⟩
      have hturn := fun other (hother : other <+: part) => turn_keeps (Ne.symm hfirst) hkept hother
      rw [← is_link_of_node (hturn part (List.prefix_refl part))]
      exact hlater ((hasExcluded_of_nodes hturn).not.2 hkept)

end Removals

/-! ## The whole script -/

section Script

variable {exclude : List (List Str)} {source dest dest' : Volume}

/-- Where neither has anything, the copy has nothing. -/
theorem copy_nothing {entry target : Volume} {path relative : List Str} (hentry : entry.get path = .nothing)
    (htarget : target.get path = .nothing) : (copy_entry exclude entry target relative).get path
      = .nothing := by
  induction path generalizing entry target relative with
  | nil =>
    obtain rfl : entry = .nothing := hentry
    unfold copy_entry
    exact htarget
  | cons name path ih =>
    unfold copy_entry
    cases entry with
    | nothing => exact htarget
    | dir child =>
      dsimp only
      split
      · exact get_nothing _
      · exact ih hentry htarget
    | _ =>
      dsimp only
      split
      · exact get_nothing _
      · exact get_cons_of_not_dir rfl name path

theorem name_below (name : Str) {path part : List Str} (h : part <+: path) :
    name :: part ≠ [] ∧ name :: part <+: name :: path :=
  ⟨List.cons_ne_nil _ _, (List.prefix_cons_inj name).2 h⟩

variable {path : List Str}

theorem candidate_of_exists (h : (source.get path).exists = true) :
    candidate source dest path = source.get path := if_pos h

theorem candidate_of_nothing (h : source.get path = .nothing) :
    candidate source dest path = dest.get path := by
  rw [candidate, h]
  rfl

/-- What the workspace has is copied, if nothing above is excluded. -/
theorem copy_entries_copied (hne : path ≠ []) (h : (source.get path).exists = true)
    (hkept : ¬HasExcluded exclude source dest path) :
    ((copy_entries exclude source dest').get path).node = (source.get path).node := by
  cases path with
  | nil => exact absurd rfl hne
  | cons name path =>
    have hchild : ((source.child name).get path).exists = true := h
    have habove : ∀ part, part <+: path →
        should_exclude exclude ((source.child name).get part) ([name] ++ part) = false := by
      intro part hpart
      have hthere : (source.get (name :: part)).exists = true := exists_above (name_below name hpart).2 h
      rw [← Bool.not_eq_true]
      intro hexcluded
      refine hkept ⟨name :: part, (name_below name hpart).1, (name_below name hpart).2, ?_⟩
      rw [candidate_of_exists hthere]
      exact hexcluded
    obtain ⟨hleaf, hdir⟩ := copied hchild (dest'.child name) [name] habove
    exact node_eq_of_leaf hleaf hdir

/-- What the workspace has is not copied, if it is excluded. -/
theorem copy_entries_excluded (hne : path ≠ []) (h : (source.get path).exists = true)
    (hexcluded : should_exclude exclude (source.get path) path = true) :
    (copy_entries exclude source dest').get path = .nothing := by
  cases path with
  | nil => exact absurd rfl hne
  | cons name path =>
    have hchild : ((source.child name).get path).exists = true := h
    exact copy_excluded hchild (dest'.child name) [name] hexcluded

theorem copy_entries_nothing (hne : path ≠ []) (hsource : source.get path = .nothing)
    (hdest : dest'.get path = .nothing) : (copy_entries exclude source dest').get path = .nothing := by
  cases path with
  | nil => exact absurd rfl hne
  | cons name path =>
    have hchild : (source.child name).get path = .nothing := hsource
    exact copy_nothing hchild hdest

/-- What an excluded path stands for is removed before the copy, if the workspace has nothing there. -/
theorem removed_before (h : remove_excluded exclude source exclude (remove_owned_artifacts dest)
    = some dest') (hexcluded : should_exclude exclude (dest.get path) path = true) :
    dest'.get path = .nothing := by
  by_cases hmanaged : is_managed_artifact_path path = true
  · refine fewer_remove_excluded h path (remove_owned_artifacts_owned ?_)
    unfold should_exclude at hexcluded
    rw [if_pos hmanaged] at hexcluded
    rw [owned_at, hmanaged, hexcluded]
    rfl
  · have hmem : exclude.contains path = true := by
      unfold should_exclude at hexcluded
      rwa [if_neg hmanaged] at hexcluded
    refine remove_excluded_removes h (List.contains_iff_mem.1 hmem) fun entry => ?_
    unfold should_exclude
    rw [if_neg hmanaged]
    exact hmem

theorem hasExcluded_mono {part path : List Str} (h : part <+: path)
    (hpart : HasExcluded exclude source dest part) : HasExcluded exclude source dest path := by
  obtain ⟨first, hne, hfirst, hexcluded⟩ := hpart
  exact ⟨first, hne, hfirst.trans h, hexcluded⟩

/-- What is there, and not excluded, is no artifact, nor is anything above it. -/
theorem kept_without_artifacts (hsource : source.get path = .nothing)
    (hkept : ¬HasExcluded exclude source dest path) (hthere : dest.get path ≠ .nothing) :
    ∀ part, part <+: path → ((remove_owned_artifacts dest).get part).node = (dest.get part).node := by
  have howned : ∀ part, part <+: path → owned_at dest part = false := by
    intro part hpart
    by_cases hproper : part = path
    · subst hproper
      by_contra hyes
      obtain ⟨hmanaged, howned⟩ := Bool.and_eq_true_iff.1 (Bool.eq_true_of_not_eq_false hyes)
      have hpath : part ≠ [] := by
        rintro rfl
        cases hmanaged
      refine hkept ⟨part, hpath, List.prefix_refl part, ?_⟩
      rw [candidate_of_nothing hsource, should_exclude, if_pos hmanaged]
      exact howned
    · rw [owned_at, not_owned_of_not_leaf (leaf_of_is_dir (is_dir_above hpart hproper hthere)), Bool.and_false]
  exact fun part hpart => remove_owned_artifacts_eq fun other hother => howned other (hother.trans hpart)

/-- What is there, and not excluded, is there before the copy. -/
theorem kept_before (hne : [] ∉ exclude)
    (h : remove_excluded exclude source exclude (remove_owned_artifacts dest) = some dest')
    (hsource : source.get path = .nothing) (hkept : ¬HasExcluded exclude source dest path)
    (hthere : dest.get path ≠ .nothing) : (dest'.get path).node = (dest.get path).node := by
  have hnodes := kept_without_artifacts hsource hkept hthere
  exact (remove_excluded_keeps h hne ((hasExcluded_of_nodes hnodes).not.2 hkept) path
    (List.prefix_refl path)).trans (hnodes path (List.prefix_refl path))

/-- **The script lays the workspace over what was there.** -/
theorem overlay_of_run (hne : [] ∉ exclude)
    (h : remove_excluded exclude source exclude (remove_owned_artifacts dest) = some dest') :
    Overlay exclude source dest (copy_entries exclude source dest') := by
  refine ⟨?_, fun path hpath hkept hthere => copy_entries_copied hpath hthere hkept, ?_⟩
  · rintro path ⟨part, hpart, hbelow, hexcluded⟩
    refine get_of_prefix_nothing hbelow ?_
    by_cases hthere : (source.get part).exists = true
    · rw [candidate_of_exists hthere] at hexcluded
      exact copy_entries_excluded hpart hthere hexcluded
    · have hnothing := exists_eq_false_iff.1 (Bool.eq_false_of_not_eq_true hthere)
      rw [candidate_of_nothing hnothing] at hexcluded
      exact copy_entries_nothing hpart hnothing (removed_before h hexcluded)
  · intro path hpath hkept hmissing habove
    have hsource := exists_eq_false_iff.1 hmissing
    by_cases hthere : dest.get path = .nothing
    · have hbefore := fewer_remove_excluded h path (fewer_remove_owned_artifacts dest path hthere)
      rw [copy_entries_nothing hpath hsource hbefore, hthere]
    · rw [← kept_before hne h hsource hkept hthere]
      cases path with
      | nil => exact absurd rfl hpath
      | cons name path =>
        have hchild : (source.child name).get path = .nothing := hsource
        refine congrArg Files.node (copy_kept hchild (dest'.child name) [name] ?_)
        intro part hpart hpartthere
        obtain ⟨hnonempty, hbelow⟩ := name_below name hpart
        have hpartthere : (source.get (name :: part)).exists = true := hpartthere
        have hproper : name :: part ≠ name :: path := by
          intro heq
          rw [heq, hsource] at hpartthere
          cases hpartthere
        have hkeptpart : ¬HasExcluded exclude source dest (name :: part) := fun hyes =>
          hkept (hasExcluded_mono hbelow hyes)
        constructor
        · have hdir := habove _ hbelow hproper (is_dir_above hbelow hproper hthere)
          rw [is_dir_iff_node, copy_entries_copied hnonempty hpartthere hkeptpart] at hdir
          exact is_dir_iff_node.2 hdir
        · rw [← Bool.not_eq_true]
          intro hexcluded
          refine hkeptpart ⟨_, hnonempty, List.prefix_refl _, ?_⟩
          rw [candidate_of_exists hpartthere]
          exact hexcluded

/-- Above an excluded path the copy has no link. -/
theorem no_link_in_copy (hne : [] ∉ exclude)
    (h : remove_excluded exclude source exclude (remove_owned_artifacts dest) = some dest') {part : List Str}
    (habove : AboveExcluded exclude part) : ((copy_entries exclude source dest').get part).is_link = false := by
  have hoverlay := overlay_of_run hne h
  obtain ⟨hsource, hdest⟩ := no_link_above_excluded h hne habove
  by_cases hexcluded : HasExcluded exclude source dest part
  · rw [hoverlay.excluded part hexcluded]
    rfl
  · by_cases hthere : (source.get part).exists = true
    · rw [is_link_of_node (hoverlay.copied part habove.1 hexcluded hthere)]
      exact hsource
    · rw [Bool.not_eq_true] at hthere
      by_contra hlink
      have hsome : (copy_entries exclude source dest').get part ≠ .nothing := by
        intro hnothing
        rw [hnothing] at hlink
        exact hlink rfl
      have hnode := hoverlay.kept part habove.1 hexcluded hthere fun other hother hproper _ =>
        is_dir_above hother hproper hsome
      have hdestthere : dest.get part ≠ .nothing := fun hnothing => hsome
        (node_eq_none_iff.1 (hnode.trans (node_eq_none_iff.2 hnothing)))
      have hnodes := kept_without_artifacts (exists_eq_false_iff.1 hthere) hexcluded hdestthere
      rw [is_link_of_node hnode, ← is_link_of_node (hnodes part (List.prefix_refl part))] at hlink
      exact hlink (hdest ((hasExcluded_of_nodes hnodes).not.2 hexcluded))

/-- **A second run** of the law on what it has made changes nothing. -/
theorem overlay_again {copy copy' : Volume} (h : Overlay exclude source dest copy)
    (h' : Overlay exclude source copy copy') (hroot : copy'.node = copy.node)
    (hclean : ∀ path, owned_at copy path = false) : copy' = copy := by
  have hexcluded : ∀ part, should_exclude exclude (candidate source copy part) part = true →
      should_exclude exclude (candidate source dest part) part = true := by
    intro part hpart
    by_cases hthere : (source.get part).exists = true
    · rwa [candidate_of_exists hthere] at hpart ⊢
    · have hnothing := exists_eq_false_iff.1 (Bool.eq_false_of_not_eq_true hthere)
      rw [candidate_of_nothing hnothing] at hpart ⊢
      unfold should_exclude at hpart ⊢
      split at hpart
      · rename_i hmanaged
        have hclean' := hclean part
        rw [owned_at, hmanaged, hpart] at hclean'
        cases hclean'
      · rename_i hmanaged
        rw [if_neg hmanaged]
        exact hpart
  refine eq_of_node fun path => ?_
  induction hlength : path.length using Nat.strong_induction_on generalizing path with
  | _ n ih =>
    subst hlength
    by_cases hpath : path = []
    · subst hpath
      exact hroot
    · by_cases hnew : HasExcluded exclude source copy path
      · have hold : HasExcluded exclude source dest path := by
          obtain ⟨part, hne, hbelow, hpart⟩ := hnew
          exact ⟨part, hne, hbelow, hexcluded part hpart⟩
        rw [h'.excluded path hnew, h.excluded path hold]
      · by_cases hthere : (source.get path).exists = true
        · have hold : ¬HasExcluded exclude source dest path := by
            rintro ⟨part, hne, hbelow, hpart⟩
            have hpartthere : (source.get part).exists = true := exists_above hbelow hthere
            refine hnew ⟨part, hne, hbelow, ?_⟩
            rwa [candidate_of_exists hpartthere] at hpart ⊢
          rw [h'.copied path hpath hnew hthere, h.copied path hpath hold hthere]
        · refine h'.kept path hpath hnew (Bool.eq_false_of_not_eq_true hthere) fun part hpart hproper hdir => ?_
          have hshorter : part.length < path.length := by
            refine Nat.lt_of_le_of_ne hpart.length_le fun heq => ?_
            exact hproper (hpart.eq_of_length heq)
          exact is_dir_iff_node.2 ((ih part.length hshorter part rfl).trans (is_dir_iff_node.1 hdir))

/-! ## Runs of the script -/

/-- No link is above what the script removes or writes: above the artifacts, above the excluded paths
when it comes to them, and above what it copies, where it has made the directories before. -/
structure Confined (exclude : List (List Str)) (source dest copy : Volume) : Prop where
  owned : ∀ path, owned_at dest path = true → Inside dest path
  removed : ∀ before path after current, exclude = before ++ path :: after →
    remove_excluded exclude source before (remove_owned_artifacts dest) = some current → Inside current path
  copied : ∀ path, (source.get path).exists = true →
    (∀ part, part ≠ [] → part <+: path → part ≠ path → should_exclude exclude (source.get part) part = false) →
    Inside copy path

/-- The loop over the excluded paths, in two parts. -/
theorem remove_excluded_append {before after : List (List Str)} {current : Volume}
    (h : remove_excluded exclude source (before ++ after) dest = some dest')
    (hbefore : remove_excluded exclude source before dest = some current) :
    remove_excluded exclude source after current = some dest' := by
  induction before generalizing dest with
  | nil =>
    obtain rfl := Option.some.inj hbefore
    exact h
  | cons first before ih =>
    obtain ⟨-, -, hrest⟩ := remove_excluded_cons h
    obtain ⟨-, -, hrest'⟩ := remove_excluded_cons hbefore
    exact ih hrest hrest'

theorem inside_of_there {t : Volume} (h : t.get path ≠ .nothing) : Inside t path := by
  intro part hpart hproper _
  have hdir := is_dir_above hpart hproper h
  cases hget : t.get part with
  | link target =>
    rw [hget] at hdir
    cases hdir
  | _ => rfl

theorem confined_of_run (hne : [] ∉ exclude)
    (h : remove_excluded exclude source exclude (remove_owned_artifacts dest) = some dest') :
    Confined exclude source dest (copy_entries exclude source dest') := by
  have hoverlay := overlay_of_run hne h
  refine ⟨?_, ?_, ?_⟩
  · intro path howned
    refine inside_of_there fun hnothing => ?_
    rw [owned_at, hnothing, not_owned_of_not_leaf rfl, Bool.and_false] at howned
    cases howned
  · intro before path after current hsplit hbefore
    have hwhole : remove_excluded exclude source (before ++ path :: after) (remove_owned_artifacts dest)
        = some dest' := by
      rw [← hsplit]
      exact h
    exact inside_iff.1 (remove_excluded_cons (remove_excluded_append hwhole hbefore)).2.1
  · intro path hthere hkept part hpart hproper hpartne
    have hparts : ∀ other, other <+: part → (source.get other).exists = true :=
      fun other hother => exists_above (hother.trans hpart) hthere
    have hnone : ¬HasExcluded exclude source dest part := by
      rintro ⟨other, hne', hother, hexcluded⟩
      rw [candidate_of_exists (hparts other hother)] at hexcluded
      have hproper' : other ≠ path := by
        rintro rfl
        exact hproper (hpart.eq_of_length (Nat.le_antisymm hpart.length_le hother.length_le))
      rw [hkept other hne' (hother.trans hpart) hproper'] at hexcluded
      cases hexcluded
    have hnode := hoverlay.copied part hpartne hnone (hparts part (List.prefix_refl part))
    rw [is_link_of_node hnode]
    have hsource : source.get path ≠ .nothing := by
      intro hnothing
      rw [hnothing] at hthere
      cases hthere
    exact inside_of_there hsource part hpart hproper hpartne

theorem validated_ne_nil {raw : Str} (h : validated_relative_path raw = some path) : path ≠ [] := by
  unfold validated_relative_path at h
  obtain ⟨-, h⟩ := Option.ite_none_left_eq_some.1 h
  rw [← Option.some.inj h]
  exact List.splitOn_ne_nil _ _

theorem mem_of_mapM {α β : Type} {f : α → Option β} {items : List α} {results : List β}
    (h : items.mapM f = some results) (b : β) : b ∈ results ↔ ∃ a ∈ items, f a = some b := by
  induction items generalizing results with
  | nil =>
    obtain rfl := Option.some.inj h
    simp
  | cons a items ih =>
    rw [List.mapM_cons] at h
    obtain ⟨first, hfirst, h⟩ := Option.bind_eq_some_iff.1 h
    obtain ⟨rest, hrest, h⟩ := Option.bind_eq_some_iff.1 h
    obtain rfl := Option.some.inj h
    rw [List.mem_cons, ih hrest, List.exists_mem_cons_iff, hfirst, Option.some.injEq, eq_comm]

theorem validated_of_mem {exclude_paths : List Str}
    (h : exclude_paths.mapM validated_relative_path = some exclude)
    {raw : Str} (hraw : raw ∈ exclude_paths) : ∃ path, validated_relative_path raw = some path := by
  induction exclude_paths generalizing exclude with
  | nil => cases hraw
  | cons first rest ih =>
    rw [List.mapM_cons] at h
    obtain ⟨path, hpath, h⟩ := Option.bind_eq_some_iff.1 h
    obtain ⟨paths, hpaths, -⟩ := Option.bind_eq_some_iff.1 h
    rcases List.mem_cons.1 hraw with rfl | hraw
    · exact ⟨path, hpath⟩
    · exact ih hpaths hraw

theorem owned_at_eq_false_of_copy {copy : Volume} {exclude_paths : List Str}
    (h : snapshot exclude_paths source dest = some copy) (path : List Str) : owned_at copy path = false := by
  rw [← Bool.not_eq_true]
  intro howned
  obtain ⟨hmanaged, howned⟩ := Bool.and_eq_true_iff.1 howned
  cases hleaf : (copy.get path).leaf with
  | none =>
    rw [not_owned_of_not_leaf hleaf] at howned
    cases howned
  | some leaf =>
    refine no_artifact_in_copy h hleaf ⟨hmanaged, ?_⟩
    rwa [← leaf_eq_some_iff.1 hleaf]

theorem overlay_of_same {other : List (List Str)} {copy : Volume}
    (hsame : ∀ path, path ∈ other ↔ path ∈ exclude) (h : Overlay exclude source dest copy) :
    Overlay other source dest copy := by
  have hexcluded : ∀ path, HasExcluded other source dest path ↔ HasExcluded exclude source dest path := by
    intro path
    have hcontains : ∀ part, other.contains part = exclude.contains part := by
      intro part
      rw [Bool.eq_iff_iff, List.contains_iff_mem, List.contains_iff_mem, hsame]
    unfold HasExcluded should_exclude
    simp only [hcontains]
  exact ⟨fun path hpath => h.excluded path ((hexcluded path).1 hpath),
    fun path hne hkept => h.copied path hne fun hyes => hkept ((hexcluded path).2 hyes),
    fun path hne hkept => h.kept path hne fun hyes => hkept ((hexcluded path).2 hyes)⟩

end Script

end AgentSpace.Artifacts
