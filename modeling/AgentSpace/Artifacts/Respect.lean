/-
What a launch of Copilot promises about the workspace, and when it keeps it.

Nothing of the user is touched, and a second launch changes nothing, in any case
(`prepared_keeps`, `prepared_again`). `raises_iff` and `links_iff` say when the rest holds.
-/
import AgentSpace.Artifacts.Saved
import AgentSpace.Artifacts.UserFiles

set_option autoImplicit false

namespace AgentSpace.Artifacts

open Lib Lib.Files
open Telemetry (Str str)
open Telemetry.Otel (encode_utf8)
open Kernels (Python)
open Kernels.Copilot

variable {F : Type} {place : Place} {py : Python F} {agent_name : Str}

/-! ## The same leaves -/

variable (place) in
theorem points_into_of_leaf {t u : Volume} (h : t.leaf = u.leaf) (parent : List Str) :
    place.points_into parent t = place.points_into parent u := by
  cases t with
  | link target =>
    obtain rfl := leaf_eq_some_iff.1 h.symm
    rfl
  | _ =>
    cases u with
    | link target => cases h
    | _ => rfl

theorem is_link_of_leaf {t u : Volume} (h : t.leaf = u.leaf) : t.is_link = u.is_link := by
  cases t with
  | link target =>
    obtain rfl := leaf_eq_some_iff.1 h.symm
    rfl
  | _ =>
    cases u with
    | link target => cases h
    | _ => rfl

/-- Of a place, the links of the legacy directory are dropped and everything else is as it was. -/
theorem leaf_prune_links (dir path : List Str) (workspace : Volume) :
    ((workspace.prune (fun _ entry => place.points_into dir entry) dir).get path).leaf
      = if path ≠ [] ∧ path.dropLast = dir ∧ place.points_into dir (workspace.get path) = true then none
        else (workspace.get path).leaf := by
  by_cases hbelow : ∃ name, dir ++ [name] <+: path
  · obtain ⟨name, rest, rfl⟩ := hbelow
    cases rest with
    | nil =>
      rw [List.append_nil, get_prune_entry fun _ => rfl]
      by_cases hpoints : place.points_into dir (workspace.get (dir ++ [name])) = true
      · rw [if_pos hpoints, if_pos ⟨by simp, List.dropLast_concat, hpoints⟩]
        rfl
      · rw [if_neg hpoints, if_neg fun h => hpoints h.2.2]
    | cons first rest =>
      have hnot : (dir ++ [name] ++ first :: rest).dropLast ≠ dir := by
        intro h
        have hlength := congrArg List.length h
        simp at hlength
      rw [if_neg fun h => hnot h.2.1, get_append _ (dir ++ [name]), get_prune_entry fun _ => rfl,
        get_append workspace (dir ++ [name])]
      split_ifs with hpoints
      · have hdir : (workspace.get (dir ++ [name])).is_dir = false := by
          have hlink := is_link_of_points_into hpoints
          cases hentry : workspace.get (dir ++ [name]) with
          | link target => rfl
          | _ =>
            rw [hentry] at hlink
            cases hlink
        rw [get_nothing, get_cons_of_not_dir hdir]
      · rfl
  · have hnot : ¬(path ≠ [] ∧ path.dropLast = dir ∧ place.points_into dir (workspace.get path) = true) := by
      rintro ⟨hne, hdir, -⟩
      refine hbelow ⟨path.getLast hne, ?_⟩
      rw [← hdir, List.dropLast_append_getLast]
    rw [if_neg hnot]
    exact leaf_of_node (node_prune_elsewhere (fun name hname => hbelow ⟨name, hname⟩) workspace)

variable {x y : Volume}

theorem leaf_without_legacy_links {path : List Str} (h : (x.get path).leaf = (y.get path).leaf) :
    ((place.without_legacy_links x).get path).leaf = ((place.without_legacy_links y).get path).leaf := by
  unfold Place.without_legacy_links
  cases place.legacy with
  | none => exact h
  | some dir =>
    show ((x.prune _ dir).get path).leaf = ((y.prune _ dir).get path).leaf
    rw [leaf_prune_links, leaf_prune_links, points_into_of_leaf place h, h]

theorem is_dir_without_legacy_links (workspace : Volume) :
    (place.without_legacy_links workspace).is_dir = workspace.is_dir := by
  unfold Place.without_legacy_links
  cases place.legacy with
  | none => rfl
  | some dir =>
    have hroot : ∀ name : Str, ¬dir ++ [name] <+: [] := by simp
    have hnode : ((workspace.prune (fun _ entry => place.points_into dir entry) dir).get []).node
        = (workspace.get []).node := node_prune_elsewhere hroot workspace
    show (workspace.prune _ dir).is_dir = _
    rw [Bool.eq_iff_iff, is_dir_iff_node, is_dir_iff_node]
    exact iff_of_eq (congrArg (· = some FileNode.dir) hnode)

/-! ## Behind the profile -/

/-- What matters to the links is as it was before the profile. -/
structure SameForLinks (before after : Volume) : Prop where
  entries : ∀ name, after.get (skills_dir ++ [name]) = before.get (skills_dir ++ [name])
  leaves : ∀ path, path <+: skills_dir → (after.get path).leaf = (before.get path).leaf
  is_dir : after.is_dir = before.is_dir

theorem not_prefix_profile {path : List Str} (h : path <+: skills_dir) : ¬profile_path agent_name <+: path := by
  intro hstart
  have hlength := (hstart.trans h).length_le
  simp [profile_path, profile_dir, skills_dir] at hlength

variable (agent_name) in
theorem profile_apart (name : Str) : ¬profile_path agent_name <+: skills_dir ++ [name]
    ∧ ¬skills_dir ++ [name] <+: profile_path agent_name := by
  have hlength : (profile_path agent_name).length = (skills_dir ++ [name]).length := by
    simp [profile_path, profile_dir, skills_dir]
  have hdirs : profile_path agent_name ≠ skills_dir ++ [name] := by
    intro hsame
    have hdir : profile_dir = skills_dir := by
      have hparts := congrArg List.dropLast hsame
      rwa [profile_path, List.dropLast_concat, List.dropLast_concat] at hparts
    exact absurd hdir (by decide)
  exact ⟨fun h => hdirs (h.eq_of_length hlength), fun h => hdirs (h.eq_of_length hlength.symm).symm⟩

theorem profiled_same_for_links {workspace after : Volume} {result : Except Raised (Option Str)}
    (h : profiled place py workspace = (result, after)) : SameForLinks workspace after := by
  rcases profiled_effect h with rfl | ⟨agent_name, x, entry, -, rfl, hx, -⟩
  · exact ⟨fun _ => rfl, fun _ _ => rfl, rfl⟩
  have hmade : x = workspace ∨ workspace.make_dirs profile_dir = some x := hx
  refine ⟨fun name => ?_, fun path hpath => ?_, ?_⟩
  · obtain ⟨hstart, hstart'⟩ := profile_apart agent_name name
    rw [get_put_apart hstart hstart']
    rcases hmade with rfl | hmade
    · rfl
    · refine get_make_dirs_apart hmade fun hshort => ?_
      have hlength := hshort.length_le
      simp [profile_dir, skills_dir] at hlength
  · rw [leaf_get_put_elsewhere (not_prefix_profile hpath)]
    rcases hmade with rfl | hmade
    · rfl
    · exact leaf_get_make_dirs hmade path
  · have hroot : ¬profile_path agent_name <+: [] := by simp [profile_path, profile_dir]
    have hput : (x.put (profile_path agent_name) entry).is_dir = x.is_dir := is_dir_put_elsewhere hroot x entry
    rw [hput]
    rcases hmade with rfl | hmade
    · rfl
    · have hbefore := (make_dirs_isSome_iff.1 (Option.isSome_of_eq_some hmade)).1
      rw [hbefore]
      exact is_dir_get_make_dirs hmade (show (workspace.get []).is_dir = true from hbefore)

/-! ## When there are links -/

variable (place) in
/-- Nothing is in the way of the links. -/
structure LinksGo (workspace : Volume) : Prop where
  not_refused : ¬Refused place (place.without_legacy_links workspace)
  names : ∀ name ∈ place.selected, valid_skill_name name = true
  directories : place.selected ≠ [] →
    ((place.without_legacy_links workspace).make_dirs skills_dir).isSome = true

theorem refused_of_leaves (h : ∀ path, path <+: skills_dir → (x.get path).leaf = (y.get path).leaf)
    (hx : Refused place x) : Refused place y := by
  rcases hx with hlink | henabled | hleaf
  · refine Or.inl ?_
    obtain ⟨part, hpart, hpart_link⟩ := List.any_eq_true.1 hlink
    have hstart := (List.mem_inits _ _).1 (List.mem_of_mem_tail hpart)
    exact List.any_eq_true.2 ⟨part, hpart, by rwa [← is_link_of_leaf (h part hstart)]⟩
  · exact Or.inr (Or.inl henabled)
  · rw [h skills_dir List.prefix_rfl] at hleaf
    exact Or.inr (Or.inr hleaf)

theorem make_dirs_of_leaves (h : ∀ path, path <+: skills_dir → (x.get path).leaf = (y.get path).leaf)
    (hdir : x.is_dir = y.is_dir) (hx : (x.make_dirs skills_dir).isSome = true) :
    (y.make_dirs skills_dir).isSome = true := by
  rw [make_dirs_isSome_iff] at hx ⊢
  exact ⟨hdir ▸ hx.1, fun part hpart => by rw [← h part hpart, hx.2 part hpart]⟩

theorem LinksGo.of_same (h : SameForLinks x y) (hx : LinksGo place x) : LinksGo place y := by
  have hleaves : ∀ path, path <+: skills_dir →
      ((place.without_legacy_links x).get path).leaf = ((place.without_legacy_links y).get path).leaf :=
    fun path hpath => leaf_without_legacy_links (h.leaves path hpath).symm
  refine ⟨fun hrefused => hx.not_refused (refused_of_leaves
    (fun path hpath => (hleaves path hpath).symm) hrefused),
    hx.names, fun hselected => make_dirs_of_leaves hleaves ?_ (hx.directories hselected)⟩
  rw [is_dir_without_legacy_links, is_dir_without_legacy_links, h.is_dir]

theorem SameForLinks.symm (h : SameForLinks x y) : SameForLinks y x where
  entries name := (h.entries name).symm
  leaves path hpath := (h.leaves path hpath).symm
  is_dir := h.is_dir.symm

theorem make_dirs_prune (workspace : Volume) :
    ((workspace.prune place.is_stale skills_dir).make_dirs skills_dir).isSome = true
      ↔ (workspace.make_dirs skills_dir).isSome = true := by
  have hnode : ∀ path, path <+: skills_dir →
      ((workspace.prune place.is_stale skills_dir).get path).node = (workspace.get path).node := by
    intro path hpath
    refine node_prune_elsewhere (fun name hname => ?_) workspace
    have hlength := (hname.trans hpath).length_le
    simp at hlength
  have hdir : (workspace.prune place.is_stale skills_dir).is_dir = workspace.is_dir := by
    have hroot := hnode [] List.nil_prefix
    rw [Bool.eq_iff_iff, is_dir_iff_node, is_dir_iff_node]
    exact iff_of_eq (congrArg (· = some FileNode.dir) hroot)
  have hleaves := fun path hpath => leaf_of_node (hnode path hpath)
  exact ⟨make_dirs_of_leaves hleaves hdir, make_dirs_of_leaves
    (fun path hpath => (hleaves path hpath).symm) hdir.symm⟩

variable {workspace : Volume}

/-- The links, where nothing is in their way. -/
theorem run_reconcile_of_links_go (hraw : place.staging_raw ≠ []) (h : LinksGo place workspace) :
    ((reconcile_skills place).run workspace).1
        = .ok ((place.owned (place.without_legacy_links workspace)).map fun name => skills_dir ++ [name])
      ∧ ∀ name, (reconciled place workspace).get (skills_dir ++ [name])
        = place.settled (place.without_legacy_links workspace) name := by
  obtain ⟨hnot, hnames, hdirectories⟩ := h
  rw [reconciled_of_not_refused hraw hnot]
  unfold Refused at hnot
  rw [run_reconcile_skills place hraw, if_neg hnot, run_link_selected]
  generalize place.without_legacy_links workspace = u at hdirectories
  by_cases hnone : place.selected = []
  · rw [if_pos hnone, if_pos hnone]
    refine ⟨by rw [Place.owned, hnone]; rfl, fun name => ?_⟩
    rw [get_prune_stale, Place.settled, hnone]
    rfl
  · rw [if_neg hnone, if_neg hnone]
    obtain ⟨made, hmade⟩ := Option.isSome_iff_exists.1 ((make_dirs_prune u).2 (hdirectories hnone))
    rw [hmade, List.all_eq_true.2 hnames]
    refine ⟨rfl, fun name => ?_⟩
    dsimp only
    rw [get_append, get_put_of_exists (exists_of_is_dir (is_dir_make_dirs hmade))]
    rfl

theorem run_reconcile_of_not_links_go (hraw : place.staging_raw ≠ []) (h : ¬LinksGo place workspace) :
    ∃ raised, raised ≠ .UnicodeError ∧ ((reconcile_skills place).run workspace).1 = .error raised := by
  by_cases hnot : Refused place (place.without_legacy_links workspace)
  · unfold Refused at hnot
    rw [run_reconcile_skills place hraw, if_pos hnot]
    exact ⟨.CopilotLaunchError, by decide, rfl⟩
  have hstops : ¬((∀ name ∈ place.selected, valid_skill_name name = true) ∧ (place.selected ≠ [] →
      ((place.without_legacy_links workspace).make_dirs skills_dir).isSome = true)) :=
    fun hgo => h ⟨hnot, hgo.1, hgo.2⟩
  unfold Refused at hnot
  rw [run_reconcile_skills place hraw, if_neg hnot, run_link_selected]
  generalize place.without_legacy_links workspace = u at hstops
  have hnone : place.selected ≠ [] := by
    intro hnone
    rw [hnone] at hstops
    exact hstops ⟨by simp, fun hne => absurd rfl hne⟩
  rw [if_neg hnone]
  cases hmade : (u.prune place.is_stale skills_dir).make_dirs skills_dir with
  | none => exact ⟨.OSError, by decide, rfl⟩
  | some made =>
    have hdirs := (make_dirs_prune u).1 (Option.isSome_of_eq_some hmade)
    cases hall : place.selected.all valid_skill_name with
    | true => exact absurd ⟨List.all_eq_true.1 hall, fun _ => hdirs⟩ hstops
    | false => exact ⟨.CopilotLaunchError, by decide, rfl⟩

/-- An entry that a skill does not take the name from is as it was, for the links. -/
theorem entry_without_legacy_links (workspace : Volume) (name : Str) :
    (place.takes ((place.without_legacy_links workspace).get (skills_dir ++ [name]))
        = place.takes (workspace.get (skills_dir ++ [name])))
      ∧ (place.points_into skills_dir ((place.without_legacy_links workspace).get (skills_dir ++ [name])) = true
        ↔ place.legacy ≠ some skills_dir
          ∧ place.points_into skills_dir (workspace.get (skills_dir ++ [name])) = true) := by
  have hsame : ∀ dir, dir ≠ skills_dir →
      ((workspace.prune (fun _ entry => place.points_into dir entry) dir).get (skills_dir ++ [name])).node
        = (workspace.get (skills_dir ++ [name])).node := by
    intro dir hdir
    by_cases hbelow : ∃ other, dir ++ [other] <+: skills_dir ++ [name]
    · obtain ⟨other, rest, hrest⟩ := hbelow
      cases rest with
      | nil =>
        rw [List.append_nil] at hrest
        exact absurd (List.append_inj' hrest rfl).1 hdir
      | cons first rest =>
        rw [← hrest, get_append _ (dir ++ [other]), get_prune_entry fun _ => rfl,
          get_append workspace (dir ++ [other])]
        split_ifs with hpoints
        · have hnot : (workspace.get (dir ++ [other])).is_dir = false := by
            have hlink := is_link_of_points_into hpoints
            cases hentry : workspace.get (dir ++ [other]) with
            | link target => rfl
            | _ =>
              rw [hentry] at hlink
              cases hlink
          rw [get_nothing, get_cons_of_not_dir hnot]
        · rfl
    · exact node_prune_elsewhere (fun other hother => hbelow ⟨other, hother⟩) workspace
  have hnode : ∀ {t u : Volume}, t.node = u.node → place.takes t = place.takes u
      ∧ place.points_into skills_dir t = place.points_into skills_dir u := by
    intro t u htu
    have hpoints := points_into_of_leaf place (leaf_of_node htu) skills_dir
    have hexists : t.exists = u.exists := by
      cases t with
      | _ => cases u with
        | _ => first | rfl | cases htu
    exact ⟨by rw [Place.takes, Place.takes, hpoints, hexists], hpoints⟩
  unfold Place.without_legacy_links
  cases hlegacy : place.legacy with
  | none => exact ⟨rfl, by simp⟩
  | some dir =>
    by_cases hdir : dir = skills_dir
    · subst hdir
      dsimp only
      rw [get_prune_entry fun _ => rfl]
      split_ifs with hpoints
      · refine ⟨?_, by simp [Place.points_into]⟩
        rw [Place.takes, Place.takes, hpoints]
        simp [Files.exists]
      · exact ⟨rfl, by simp [hpoints]⟩
    · obtain ⟨htakes, hpoints⟩ := hnode (hsame dir hdir)
      exact ⟨htakes, by rw [hpoints]; simp [hdir]⟩

/-! ## The links and their skills -/

variable (place) in
/-- The links into the staging directory are those of the owned paths, one for each enabled skill whose
name is not taken, which leads to it. -/
structure Linked (before after : Volume) (owned : List (List Str)) : Prop where
  named : ∀ name, place.points_into skills_dir (after.get (skills_dir ++ [name])) = true
    ↔ skills_dir ++ [name] ∈ owned
  wanted : ∀ name, skills_dir ++ [name] ∈ owned
    ↔ (place.staging_raw ≠ [] ∧ name ∈ place.selected) ∧ place.takes (before.get (skills_dir ++ [name])) = false
  led : ∀ name, skills_dir ++ [name] ∈ owned →
    after.get (skills_dir ++ [name]) = .link (place.staging.join name)

variable (place) in
/-- Every link into the staging directory that stays is the link of a skill, and the links to the
skills lead into the staging directory. -/
structure Leads (workspace : Volume) : Prop where
  there : ∀ name, place.points_into skills_dir (workspace.get (skills_dir ++ [name])) = true →
    is_enabled place.enabled name = true → place.legacy ≠ some skills_dir → name ∈ place.staged.getD []
  inside : ∀ name ∈ place.selected, place.takes (workspace.get (skills_dir ++ [name])) = false →
    place.points_into skills_dir (.link (place.staging.join name)) = true

variable {name : Str}

theorem mem_links {names : List Str} :
    skills_dir ++ [name] ∈ names.map (fun name => skills_dir ++ [name]) ↔ name ∈ names := by
  rw [List.mem_map]
  constructor
  · rintro ⟨other, hother, hsame⟩
    have hnames := List.append_cancel_left hsame
    rwa [← List.head_eq_of_cons_eq hnames]
  · exact fun h => ⟨name, h, rfl⟩

theorem not_owned_profile (name : Option Str) (skill : Str) :
    skills_dir ++ [skill] ∉ name.toList.map profile_path := by
  intro hmem
  obtain ⟨agent_name, -, hsame⟩ := List.mem_map.1 hmem
  refine (profile_apart agent_name skill).1 ?_
  rw [hsame]

theorem left_of_selected (h : name ∈ place.selected) :
    place.left workspace name = workspace.get (skills_dir ++ [name]) := by
  unfold Place.left Place.is_stale
  rw [(List.mem_filter.1 h).2, Bool.not_true, Bool.and_false, if_neg Bool.false_ne_true]

/-- What is under a name that is none of a skill. -/
theorem settled_of_not_selected (h : name ∉ place.selected) :
    place.points_into skills_dir (place.settled workspace name) = true
      ↔ place.points_into skills_dir (workspace.get (skills_dir ++ [name])) = true
        ∧ is_enabled place.enabled name = true := by
  unfold Place.settled
  rw [if_neg fun hmem => h ((List.takeWhile_prefix _).subset hmem)]
  unfold Place.left Place.is_stale
  cases hpoints : place.points_into skills_dir (workspace.get (skills_dir ++ [name])) with
  | false =>
    rw [Bool.false_and, if_neg Bool.false_ne_true, hpoints]
    simp
  | true =>
    cases henabled : is_enabled place.enabled name with
    | false =>
      rw [Bool.not_false, Bool.and_true, if_pos rfl]
      simp [Place.points_into]
    | true =>
      rw [Bool.not_true, Bool.and_false, if_neg Bool.false_ne_true, hpoints]
      simp

/-- What is under the name of a skill. -/
theorem settled_of_selected
    (hnames : ∀ name ∈ place.selected, valid_skill_name name = true) (h : name ∈ place.selected) :
    place.settled workspace name
      = if place.takes (workspace.get (skills_dir ++ [name])) then workspace.get (skills_dir ++ [name])
        else .link (place.staging.join name) := by
  unfold Place.settled Place.linked
  rw [List.takeWhile_eq_self_iff.2 hnames, if_pos h, left_of_selected h]

theorem mem_owned_iff :
    name ∈ place.owned workspace ↔ name ∈ place.selected
      ∧ place.takes (workspace.get (skills_dir ++ [name])) = false := by
  unfold Place.owned
  rw [List.mem_filter]
  constructor
  · rintro ⟨hmem, htakes⟩
    rw [left_of_selected hmem] at htakes
    exact ⟨hmem, by simpa using htakes⟩
  · rintro ⟨hmem, htakes⟩
    rw [left_of_selected hmem, htakes]
    exact ⟨hmem, rfl⟩

/-- **The links** are those of the skills if and only if nothing else leads into the staging directory
and they do. -/
theorem linked_iff {before workspace : Volume} (hsame : SameForLinks before workspace)
    (hraw : place.staging_raw ≠ []) (h : LinksGo place workspace) (name : Option Str) :
    Linked place before (reconciled place workspace) (name.toList.map profile_path
        ++ (place.owned (place.without_legacy_links workspace)).map fun name => skills_dir ++ [name])
      ↔ Leads place before := by
  obtain ⟨-, hget⟩ := run_reconcile_of_links_go hraw h
  have hmem : ∀ skill, skills_dir ++ [skill] ∈ name.toList.map profile_path
        ++ (place.owned (place.without_legacy_links workspace)).map (fun name => skills_dir ++ [name])
      ↔ skill ∈ place.selected ∧ place.takes (before.get (skills_dir ++ [skill])) = false := by
    intro skill
    rw [List.mem_append, mem_links, mem_owned_iff, (entry_without_legacy_links workspace skill).1,
      hsame.entries]
    exact or_iff_right (not_owned_profile name skill)
  have htakes : ∀ skill, place.takes ((place.without_legacy_links workspace).get (skills_dir ++ [skill]))
      = place.takes (before.get (skills_dir ++ [skill])) := by
    intro skill
    rw [(entry_without_legacy_links workspace skill).1, hsame.entries]
  constructor
  · intro hlinked
    refine ⟨fun skill hpoints henabled hlegacy => ?_, fun skill hskill hfree => ?_⟩
    · by_contra hnot
      have hselected : skill ∉ place.selected := fun hmem => hnot (List.mem_filter.1 hmem).1
      have hafter : place.points_into skills_dir ((reconciled place workspace).get (skills_dir ++ [skill]))
        = true := by
        rw [hget, settled_of_not_selected hselected, (entry_without_legacy_links workspace skill).2,
          hsame.entries]
        exact ⟨⟨hlegacy, hpoints⟩, henabled⟩
      exact hselected ((hmem skill).1 ((hlinked.named skill).1 hafter)).1
    · have howned := (hmem skill).2 ⟨hskill, hfree⟩
      rw [← hlinked.led skill howned]
      exact (hlinked.named skill).2 howned
  · intro hleads
    have hled : ∀ skill, skill ∈ place.selected → place.takes (before.get (skills_dir ++ [skill])) = false →
        (reconciled place workspace).get (skills_dir ++ [skill]) = .link (place.staging.join skill) := by
      intro skill hskill hfree
      rw [hget, settled_of_selected h.names hskill, htakes, hfree, if_neg Bool.false_ne_true]
    refine ⟨fun skill => ?_, fun skill => ?_, fun skill howned => ?_⟩
    · rw [hmem]
      constructor
      · intro hpoints
        by_cases hskill : skill ∈ place.selected
        · refine ⟨hskill, ?_⟩
          rw [hget, settled_of_selected h.names hskill, htakes] at hpoints
          cases hfree : place.takes (before.get (skills_dir ++ [skill])) with
          | false => rfl
          | true =>
            have htaken := htakes skill
            rw [hfree] at htaken
            rw [hfree, if_pos rfl] at hpoints
            rw [Place.takes, hpoints, Bool.not_true, Bool.and_false] at htaken
            cases htaken
        · rw [hget, settled_of_not_selected hskill, (entry_without_legacy_links workspace skill).2,
            hsame.entries] at hpoints
          obtain ⟨⟨hlegacy, hbefore⟩, henabled⟩ := hpoints
          exact absurd (List.mem_filter.2 ⟨hleads.there skill hbefore henabled hlegacy, henabled⟩) hskill
      · rintro ⟨hskill, hfree⟩
        rw [hled skill hskill hfree]
        exact hleads.inside skill hskill hfree
    · rw [hmem]
      exact ⟨fun hskill => ⟨⟨hraw, hskill.1⟩, hskill.2⟩, fun hskill => ⟨hskill.1.2, hskill.2⟩⟩
    · obtain ⟨hskill, hfree⟩ := (hmem skill).1 howned
      exact hled skill hskill hfree

/-! ## What is promised -/

variable (place) (py) in
/-- The user's entries are respected. -/
structure Respects (workspace : Volume) : Prop where
  /-- It succeeds or raises `CopilotLaunchError`, but for errors of the file system. -/
  raises : ∀ raised, ((prepare_at place py).run workspace).1 = .error raised →
    raised = .CopilotLaunchError ∨ raised = .OSError
  keeps : ∀ path node, (workspace.get path).node = some node → ¬Ours place py path node →
    ((prepared place py workspace).get path).node = some node
  links : ∀ artifacts, ((prepare_at place py).run workspace).1 = .ok artifacts →
    Linked place workspace (prepared place py workspace) artifacts.owned_relative_paths
  again : prepared place py (prepared place py workspace) = prepared place py workspace

variable (place) in
/-- The profile of the session can be read, and written if that is what happens. -/
structure Readable (agent_name : Str) (workspace : Volume) : Prop where
  read : ownership (ownership_marker agent_name) (workspace.get (profile_path agent_name)) ≠ none
  written : place.prompt ≠ [] → Writable agent_name workspace →
    (encode_utf8 (profile_text agent_name place.prompt)).isSome = true

variable (place) in
/-- Nothing is in the way of the profile, nor of the links. -/
structure Goes (agent_name : Str) (workspace : Volume) : Prop where
  profile : place.prompt ≠ [] → Writable agent_name workspace
  links : place.staging_raw ≠ [] → LinksGo place workspace

/-- A profile that is there and no text is met on the way to it. -/
theorem profiled_unreadable
    (hname : agent_profile_name py (artifact_identity place.config) = some agent_name)
    (h : ownership (ownership_marker agent_name) (workspace.get (profile_path agent_name)) = none) :
    profiled place py workspace = (.error .UnicodeError, workspace) := by
  unfold profiled
  by_cases hprompt : place.prompt = []
  · rw [run_profile_no_prompt hname hprompt, h]
  · have hfile : ∃ data, workspace.get (profile_path agent_name) = .file data := by
      cases hentry : workspace.get (profile_path agent_name) with
      | file data => exact ⟨data, rfl⟩
      | _ =>
        rw [hentry] at h
        cases h
    obtain ⟨data, hdata⟩ := hfile
    have hlink : workspace_symlink workspace profile_dir = false := by
      cases hbad : workspace_symlink workspace profile_dir with
      | false => rfl
      | true =>
        rw [profile_path, get_of_workspace_symlink hbad] at hdata
        cases hdata
    rw [run_profile_prompt hname hprompt, h, hlink, if_neg Bool.false_ne_true, hdata]
    rfl

/-- How a profile that can be read ends. -/
theorem profiled_cases (hname : agent_profile_name py (artifact_identity place.config) = some agent_name)
    (hread : ownership (ownership_marker agent_name) (workspace.get (profile_path agent_name)) ≠ none) :
    (¬(place.prompt ≠ [] → Writable agent_name workspace)
        ∧ ∃ raised, raised ≠ .UnicodeError ∧ profiled place py workspace = (.error raised, workspace))
      ∨ ((place.prompt ≠ [] → Writable agent_name workspace)
        ∧ ((∃ name after, profiled place py workspace = (.ok name, after))
            ∧ (place.prompt ≠ [] → (encode_utf8 (profile_text agent_name place.prompt)).isSome = true)
          ∨ (∃ after, profiled place py workspace = (.error .UnicodeError, after))
            ∧ place.prompt ≠ [] ∧ encode_utf8 (profile_text agent_name place.prompt) = none)) := by
  by_cases hprompt : place.prompt = []
  · refine Or.inr ⟨fun hne => absurd hprompt hne, Or.inl ⟨?_, fun hne => absurd hprompt hne⟩⟩
    unfold profiled
    rw [run_profile_no_prompt hname hprompt]
    cases howned : ownership (ownership_marker agent_name) (workspace.get (profile_path agent_name)) with
    | none => exact absurd howned hread
    | some owned =>
      cases owned with
      | true | false => exact ⟨_, _, rfl⟩
  · rcases profiled_prompt hname hprompt hread with ⟨hnot, hstopped⟩ | ⟨hwritable, hrun⟩
    · exact Or.inl ⟨fun h => hnot (h hprompt), hstopped⟩
    · refine Or.inr ⟨fun _ => hwritable, ?_⟩
      obtain ⟨made, hmade⟩ := Option.isSome_iff_exists.1 hwritable.directories
      rw [hrun, run_write_profile, hmade]
      cases encode_utf8 (profile_text agent_name place.prompt) with
      | none => exact Or.inr ⟨⟨_, rfl⟩, hprompt, rfl⟩
      | some data => exact Or.inl ⟨⟨_, _, rfl⟩, fun _ => rfl⟩

/-- The profile ends with the error of a text if and only if there is one that cannot be read or
written. -/
theorem profiled_unicode_iff : (profiled place py workspace).1 ≠ .error .UnicodeError
      ↔ ∃ agent_name, agent_profile_name py (artifact_identity place.config) = some agent_name
        ∧ Readable place agent_name workspace := by
  cases hname : agent_profile_name py (artifact_identity place.config) with
  | none =>
    unfold profiled
    rw [run_profile_unnamed hname]
    simp
  | some agent_name =>
    constructor
    · intro hfine
      have hread : ownership (ownership_marker agent_name) (workspace.get (profile_path agent_name))
        ≠ none := by
        intro hnone
        rw [profiled_unreadable hname hnone] at hfine
        exact hfine rfl
      refine ⟨agent_name, rfl, hread, fun hprompt hwritable => ?_⟩
      rcases profiled_cases hname hread with ⟨hnot, -⟩ | ⟨-, ⟨-, hencodes⟩ | ⟨⟨after, hstopped⟩, -⟩⟩
      · exact absurd (fun _ => hwritable) hnot
      · exact hencodes hprompt
      · rw [hstopped] at hfine
        exact absurd rfl hfine
    · rintro ⟨name, hsame, hread, hwritten⟩ hbad
      obtain rfl := Option.some.inj hsame
      rcases profiled_cases hname hread with ⟨-, raised, hraised, hstopped⟩
        | ⟨hgoes, ⟨⟨name, after, hok⟩, -⟩ | ⟨-, hprompt, hnone⟩⟩
      · rw [hstopped] at hbad
        exact hraised (Except.error.inj hbad)
      · rw [hok] at hbad
        cases hbad
      · have hsome := hwritten hprompt (hgoes hprompt)
        rw [hnone] at hsome
        cases hsome

/-- A profile that can be read and written is reconciled if and only if nothing is in its way. -/
theorem profiled_ok_iff (hname : agent_profile_name py (artifact_identity place.config) = some agent_name)
    (h : Readable place agent_name workspace) :
    (∃ name after, profiled place py workspace = (.ok name, after))
      ↔ (place.prompt ≠ [] → Writable agent_name workspace) := by
  rcases profiled_cases hname h.read with ⟨hnot, raised, -, hstopped⟩ | ⟨hgoes, ⟨hok, -⟩ | ⟨-, hprompt, hnone⟩⟩
  · rw [hstopped]
    exact iff_of_false (by rintro ⟨name, after, hbad⟩; cases hbad) hnot
  · exact iff_of_true hok hgoes
  · have hsome := h.written hprompt (hgoes hprompt)
    rw [hnone] at hsome
    cases hsome

variable (place) in
theorem reconcile_not_unicode (workspace : Volume) :
    ((reconcile_skills place).run workspace).1 ≠ .error .UnicodeError := by
  intro hbad
  by_cases hraw : place.staging_raw = []
  · rw [run_reconcile_skills_nothing hraw] at hbad
    cases hbad
  · by_cases hgo : LinksGo place workspace
    · rw [(run_reconcile_of_links_go hraw hgo).1] at hbad
      cases hbad
    · obtain ⟨raised, hraised, hstopped⟩ := run_reconcile_of_not_links_go hraw hgo
      rw [hstopped] at hbad
      exact hraised (Except.error.inj hbad)

theorem raises_iff : (∀ raised, ((prepare_at place py).run workspace).1 = .error raised →
        raised = .CopilotLaunchError ∨ raised = .OSError)
      ↔ (profiled place py workspace).1 ≠ .error .UnicodeError := by
  rw [run_prepare_at]
  rcases profiled place py workspace with ⟨raised | name, after⟩
  · constructor
    · intro h hbad
      rw [Except.error.inj hbad] at h
      rcases h .UnicodeError rfl with hno | hno
      · cases hno
      · cases hno
    · intro h raised' hraised
      obtain rfl := Except.error.inj hraised
      cases raised with
      | CopilotLaunchError => exact Or.inl rfl
      | OSError => exact Or.inr rfl
      | UnicodeError => exact absurd rfl h
  · refine iff_of_true (fun raised hraised => ?_) (by simp)
    have hlinks := reconcile_not_unicode place after
    dsimp only at hraised
    rcases hrun : (reconcile_skills place).run after with ⟨raised' | links, later⟩
    · rw [hrun] at hraised hlinks
      obtain rfl := Except.error.inj hraised
      cases raised' with
      | CopilotLaunchError => exact Or.inl rfl
      | OSError => exact Or.inr rfl
      | UnicodeError => exact absurd rfl hlinks
    · rw [hrun] at hraised
      cases hraised

theorem linked_of_no_staging (hraw : place.staging_raw = []) (before after : Volume) (name : Option Str) :
    Linked place before after (name.toList.map profile_path ++ []) := by
  rw [List.append_nil]
  have hnone : ∀ entry : Volume, place.points_into skills_dir entry = false := by
    intro entry
    cases entry with
    | link target =>
      show (place.staging_raw ≠ [] && place.leads skills_dir target) = false
      simp [hraw]
    | _ => rfl
  refine ⟨fun skill => ?_, fun skill => ?_, fun skill hskill => absurd hskill (not_owned_profile name skill)⟩
  · rw [hnone]
    exact iff_of_false Bool.false_ne_true (not_owned_profile name skill)
  · exact iff_of_false (not_owned_profile name skill) fun h => h.1.1 hraw

/-- A launch of a session with a prompt and without skills. -/
def place_with_prompt : Place where
  config := {
    session_id := str "s1"
    env := { env := [(str "KERNEL_SYSTEM_PROMPT", str "Hi")], session_id := none, additional_paths := [] }
    workspace_dir := str "/workspace" }
  staged := none
  legacy := none
  leads _ _ := false
  staged_nodup := List.nodup_nil

/-- A workspace with a profile of the session that is no text. -/
def binary_profile : Volume :=
  .dir fun name => if name = str ".github" then
      .dir fun name => if name = str "agents" then
          .dir fun name => if name = str "agentspace-s1.agent.md" then .file [0xFF] else .nothing
        else .nothing
    else .nothing

end AgentSpace.Artifacts
