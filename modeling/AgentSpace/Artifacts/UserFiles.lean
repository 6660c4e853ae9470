/-
A launch of Copilot and the entries of the user.

The links are reconciled without touching anything else (`spared_reconcile_skills`), and doing
it again changes nothing (`reconcile_again`). What is promised beyond that depends on what is
there (`respects_iff`).
-/
import AgentSpace.Artifacts.Reconcile
import AgentSpace.PyText

set_option autoImplicit false

namespace AgentSpace.Artifacts

open Lib Lib.Files
open Telemetry (Str str)
open Telemetry.Otel (encode_utf8)
open Kernels (Python)
open Kernels.Copilot

variable {F : Type} {place : Place}

/-! ## What the links leave alone -/

variable (place) in
/-- Directories and files are as they were, links into the staging directory may be gone, and there
are new links in the directory of the skills only. -/
structure Spared (before after : Volume) : Prop where
  dirs : ∀ path, (before.get path).is_dir = true → (after.get path).is_dir = true
  files : ∀ path data, after.get path = .file data ↔ before.get path = .file data
  links : ∀ path target, before.get path = .link target →
    after.get path = .link target ∨ place.points_into path.dropLast (.link target) = true
  origin : ∀ path target, after.get path = .link target →
    before.get path = .link target ∨ ∃ name, path = skills_dir ++ [name]

theorem Spared.refl (workspace : Volume) : Spared place workspace workspace where
  dirs _ h := h
  files _ _ := Iff.rfl
  links _ _ h := Or.inl h
  origin _ _ h := Or.inl h

theorem Spared.trans {s t u : Volume} (h : Spared place s t) (h' : Spared place t u) : Spared place s u where
  dirs path hdir := h'.dirs path (h.dirs path hdir)
  files path data := (h'.files path data).trans (h.files path data)
  links path target hlink := (h.links path target hlink).elim (h'.links path target) Or.inr
  origin path target hlink := (h'.origin path target hlink).elim (h.origin path target) Or.inr

variable {before after : Volume}

/-- The same nodes, but for some that are links into the staging directory or new. -/
theorem Spared.of_node (h : ∀ path, (after.get path).node = (before.get path).node
      ∨ ((∃ target, before.get path = .link target ∧ place.points_into path.dropLast (.link target) = true)
          ∨ before.get path = .nothing)
        ∧ (after.get path = .nothing ∨ (after.get path).is_dir = true
          ∨ ∃ target name, after.get path = .link target ∧ path = skills_dir ++ [name])) :
    Spared place before after where
  dirs path hdir := by
    rcases h path with hsame | ⟨⟨target, hlink, -⟩ | hnone, -⟩
    · rw [is_dir_iff_node, hsame, ← is_dir_iff_node]
      exact hdir
    · rw [hlink] at hdir
      cases hdir
    · rw [hnone] at hdir
      cases hdir
  files path data := by
    rcases h path with hsame | ⟨hbefore, hafter⟩
    · rw [← node_eq_some_file, ← node_eq_some_file, hsame]
    · constructor
      · intro hfile
        rcases hafter with hnone | hdir | ⟨target, -, hlink, -⟩
        · rw [hnone] at hfile
          cases hfile
        · rw [hfile] at hdir
          cases hdir
        · rw [hlink] at hfile
          cases hfile
      · intro hfile
        rcases hbefore with ⟨target, hlink, -⟩ | hnone
        · rw [hlink] at hfile
          cases hfile
        · rw [hnone] at hfile
          cases hfile
  links path target hlink := by
    rcases h path with hsame | ⟨⟨target', hlink', hpoints⟩ | hnone, -⟩
    · rw [← node_eq_some_link, hsame, node_eq_some_link]
      exact Or.inl hlink
    · rw [hlink] at hlink'
      obtain rfl : target = target' := by injection hlink'
      exact Or.inr hpoints
    · rw [hlink] at hnone
      cases hnone
  origin path target hlink := by
    rcases h path with hsame | ⟨-, hnone | hdir | ⟨target', name, -, hpath⟩⟩
    · rw [← node_eq_some_link, ← hsame, node_eq_some_link]
      exact Or.inl hlink
    · rw [hnone] at hlink
      cases hlink
    · rw [hlink] at hdir
      cases hdir
    · exact Or.inr ⟨name, hpath⟩

variable {path : List Str}

/-- Links into the staging directory are dropped. -/
theorem Spared.prune {drop : Str → Volume → Bool}
    (h : ∀ name entry, drop name entry = true → place.points_into path entry = true) (workspace : Volume) :
    Spared place workspace (workspace.prune drop path) := by
  have hnothing : ∀ name, drop name .nothing = false := by
    intro name
    cases hdrop : drop name .nothing with
    | false => rfl
    | true => cases h name .nothing hdrop
  refine Spared.of_node fun other => ?_
  by_cases hbelow : ∃ name, path ++ [name] <+: other
  · obtain ⟨name, rest, rfl⟩ := hbelow
    have hafter : (workspace.prune drop path).get (path ++ [name] ++ rest)
        = (if drop name (workspace.get (path ++ [name])) then .nothing
          else workspace.get (path ++ [name])).get rest := by
      rw [get_append _ (path ++ [name]) rest, get_prune_entry hnothing]
    rw [hafter, get_append workspace (path ++ [name]) rest]
    cases hdrop : drop name (workspace.get (path ++ [name])) with
    | false => exact Or.inl rfl
    | true =>
      have hpoints := h name _ hdrop
      rw [if_pos rfl, get_nothing]
      refine Or.inr ⟨?_, Or.inl rfl⟩
      cases hentry : workspace.get (path ++ [name]) with
      | link target =>
        rw [hentry] at hpoints
        cases rest with
        | nil =>
          refine Or.inl ⟨target, rfl, ?_⟩
          rwa [List.append_nil, List.dropLast_concat]
        | cons first rest => exact Or.inr (get_cons_of_not_dir rfl first rest)
      | _ =>
        rw [hentry] at hpoints
        cases hpoints
  · exact Or.inl (node_prune_elsewhere (fun name hname => hbelow ⟨name, hname⟩) workspace)

variable {workspace made : Volume}

theorem Spared.make_dirs (h : workspace.make_dirs path = some made) : Spared place workspace made := by
  refine Spared.of_node fun other => ?_
  have hleaf := leaf_get_make_dirs h other
  cases hother : workspace.get other with
  | nothing =>
    rw [hother] at hleaf
    rcases leaf_eq_none_iff.1 hleaf with hnone | hdir
    · exact Or.inl (by rw [hnone])
    · exact Or.inr ⟨Or.inr rfl, Or.inr (Or.inl hdir)⟩
  | dir child =>
    have hdir : (workspace.get other).is_dir = true := by
      rw [hother]
      rfl
    exact Or.inl (is_dir_iff_node.1 (is_dir_get_make_dirs h hdir))
  | file data | link target =>
    rw [hother] at hleaf
    exact Or.inl (by rw [leaf_eq_some_iff.1 hleaf]; rfl)

theorem takes_eq_false_iff {entry : Volume} :
    place.takes entry = false ↔ entry = .nothing ∨ place.points_into skills_dir entry = true := by
  unfold Place.takes
  rw [Bool.and_eq_false_iff, exists_eq_false_iff, Bool.not_eq_false']

/-- Links are made where nothing of the user is. -/
theorem Spared.settled (h : ∀ name, made.get (skills_dir ++ [name]) = place.left workspace name)
    (hdir : (made.get skills_dir).is_dir = true) :
    Spared place made (made.put skills_dir (.dir (place.settled workspace))) := by
  refine Spared.of_node fun other => ?_
  by_cases hstart : skills_dir <+: other
  · obtain ⟨rest, rfl⟩ := hstart
    rw [get_append (made.put _ _), get_put_of_exists (exists_of_is_dir hdir)]
    cases rest with
    | nil =>
      rw [List.append_nil, is_dir_iff_node.1 hdir]
      exact Or.inl rfl
    | cons name rest =>
      have hsplit : skills_dir ++ name :: rest = skills_dir ++ [name] ++ rest := by simp
      rw [get_cons, child_dir, hsplit, get_append made, h]
      have hcases : place.settled workspace name = place.left workspace name
          ∨ place.takes (place.left workspace name) = false
            ∧ place.settled workspace name = .link (place.staging.join name) := by
        unfold Place.settled Place.linked
        split_ifs with hmem htakes
        · exact Or.inl rfl
        · exact Or.inr ⟨by simpa using htakes, rfl⟩
        · exact Or.inl rfl
      rcases hcases with hsame | ⟨htakes, hlinked⟩
      · rw [hsame]
        exact Or.inl rfl
      · rw [hlinked]
        cases rest with
        | nil =>
          refine Or.inr ⟨?_, Or.inr (Or.inr ⟨_, name, rfl, by simp⟩)⟩
          rcases takes_eq_false_iff.1 htakes with hnone | hpoints
          · exact Or.inr (by rw [hnone]; rfl)
          · obtain ⟨target, htarget⟩ : ∃ target, place.left workspace name = .link target := by
              have hlink := is_link_of_points_into hpoints
              cases hentry : place.left workspace name with
              | link target => exact ⟨target, rfl⟩
              | _ =>
                rw [hentry] at hlink
                cases hlink
            rw [htarget] at hpoints ⊢
            refine Or.inl ⟨target, rfl, ?_⟩
            rwa [List.append_nil, List.dropLast_concat]
        | cons first rest =>
          have hbelow : (place.left workspace name).get (first :: rest) = .nothing := by
            rcases takes_eq_false_iff.1 htakes with hnone | hpoints
            · rw [hnone, get_nothing]
            · refine get_cons_of_not_dir ?_ first rest
              have hlink := is_link_of_points_into hpoints
              cases hentry : place.left workspace name with
              | dir child =>
                rw [hentry] at hlink
                cases hlink
              | _ => rfl
          rw [hbelow, get_cons_of_not_dir rfl]
          exact Or.inl rfl
  · exact Or.inl (node_get_put_elsewhere hstart made _)

variable (place) in
theorem Spared.without_legacy_links (workspace : Volume) :
    Spared place workspace (place.without_legacy_links workspace) := by
  unfold Place.without_legacy_links
  cases place.legacy with
  | none => exact Spared.refl workspace
  | some path => exact Spared.prune (fun _ _ h => h) workspace

variable (place) in
theorem Spared.prune_stale (workspace : Volume) :
    Spared place workspace (workspace.prune place.is_stale skills_dir) :=
  Spared.prune (fun _ _ h => (Bool.and_eq_true_iff.1 h).1) workspace

/-- **The links** are reconciled, and nothing else is touched. -/
theorem spared_reconcile_skills (workspace : Volume) :
    Spared place workspace ((reconcile_skills place).run workspace).2 := by
  by_cases hraw : place.staging_raw = []
  · rw [run_reconcile_skills_nothing hraw]
    exact Spared.refl workspace
  · have hlegacy := Spared.without_legacy_links place workspace
    rw [run_reconcile_skills place hraw]
    generalize place.without_legacy_links workspace = u at hlegacy ⊢
    split_ifs
    · exact hlegacy
    · have hstale := hlegacy.trans (Spared.prune_stale place u)
      rw [run_link_selected]
      by_cases hnone : place.selected = []
      · rw [if_pos hnone]
        exact hstale
      · rw [if_neg hnone]
        cases hmade : (u.prune place.is_stale skills_dir).make_dirs skills_dir with
        | none => exact hstale
        | some made =>
          refine (hstale.trans (Spared.make_dirs hmade)).trans (Spared.settled (fun name => ?_) ?_)
          · rw [get_make_dirs_apart hmade (not_prefix_of_concat skills_dir name), get_prune_stale]
          · exact is_dir_make_dirs hmade

/-! ## The links again -/

variable (place) in
/-- No link of the legacy directory leads into the staging directory. -/
def Cleared (workspace : Volume) : Prop :=
  ∀ path, place.legacy = some path → ∀ name, place.points_into path (workspace.get (path ++ [name])) = false

variable (place) in
/-- The skills directory is refused, or the names of the skills are. -/
def Refused (workspace : Volume) : Prop :=
  workspace_symlink workspace skills_dir = true ∨ place.enabled_valid = false
    ∨ (workspace.get skills_dir).leaf.isSome = true

variable (place) in
theorem cleared_without_legacy_links (workspace : Volume) :
    Cleared place (place.without_legacy_links workspace) := by
  intro path hpath name
  unfold Place.without_legacy_links
  rw [hpath]
  show place.points_into path ((workspace.prune (fun _ entry => place.points_into path entry) path).get
    (path ++ [name])) = false
  rw [get_prune_entry fun _ => rfl]
  split_ifs with hpoints
  · rfl
  · simpa using hpoints

theorem without_legacy_links_eq_self {workspace : Volume} (h : Cleared place workspace) :
    place.without_legacy_links workspace = workspace := by
  unfold Place.without_legacy_links
  cases hpath : place.legacy with
  | none => rfl
  | some path =>
    refine prune_eq_self fun name hdrop => ?_
    have hentry := h path hpath name
    rw [get_append] at hentry
    rw [show (workspace.get path).child name = (workspace.get path).get [name] from rfl, hentry] at hdrop
    cases hdrop

theorem is_stale_left (workspace : Volume) (name : Str) :
    place.is_stale name (place.left workspace name) = false := by
  unfold Place.left
  split_ifs with hstale
  · rfl
  · simpa using hstale

theorem prune_stale_eq_self {workspace : Volume}
    (h : ∀ name, place.is_stale name (workspace.get (skills_dir ++ [name])) = false) :
    workspace.prune place.is_stale skills_dir = workspace := by
  refine prune_eq_self fun name hdrop => ?_
  have hentry := h name
  rw [get_append] at hentry
  rw [show (workspace.get skills_dir).child name = (workspace.get skills_dir).get [name] from rfl,
    hentry] at hdrop
  cases hdrop

/-- Links are where they were, but for those to skills. -/
theorem Cleared.of_origin (h : Cleared place before)
    (horigin : ∀ path target, after.get path = .link target →
      before.get path = .link target ∨ (∃ name, path = skills_dir ++ [name]) ∧ place.legacy ≠ some skills_dir) :
    Cleared place after := by
  intro path hpath name
  cases hpoints : place.points_into path (after.get (path ++ [name])) with
  | false => rfl
  | true =>
    have hlink := is_link_of_points_into hpoints
    cases hentry : after.get (path ++ [name]) with
    | link target =>
      rw [hentry] at hpoints
      rcases horigin _ _ hentry with hbefore | ⟨⟨name', hname⟩, hother⟩
      · have hclear := h path hpath name
        rw [hbefore, hpoints] at hclear
        cases hclear
      · obtain ⟨rfl, -⟩ := List.append_inj' hname rfl
        exact absurd hpath hother
    | _ =>
      rw [hentry] at hlink
      cases hlink

theorem mem_inits_skills_dir (h : path ∈ skills_dir.inits.tail) :
    path = [str ".github"] ∨ path = skills_dir := by
  have hinits : skills_dir.inits.tail = [[str ".github"], skills_dir] := rfl
  rw [hinits] at h
  simpa using h

theorem no_symlink_of_origin (h : workspace_symlink before skills_dir = false)
    (horigin : ∀ path target, after.get path = .link target →
      before.get path = .link target ∨ ∃ name, path = skills_dir ++ [name]) :
    workspace_symlink after skills_dir = false := by
  unfold workspace_symlink at h ⊢
  rw [List.any_eq_false] at h ⊢
  intro path hpath hlink
  cases hentry : after.get path with
  | link target =>
    rcases horigin path target hentry with hbefore | ⟨name, hname⟩
    · refine h path hpath ?_
      rw [hbefore]
      rfl
    · rcases mem_inits_skills_dir hpath with rfl | rfl
      · simp [skills_dir] at hname
      · simp at hname
  | _ =>
    rw [hentry] at hlink
    cases hlink

theorem linked_linked (name : Str) (entry : Volume) :
    place.linked name (place.linked name entry) = place.linked name entry := by
  unfold Place.linked
  split_ifs with htakes htakes'
  · rfl
  · rfl
  · rfl

variable (place) in
/-- The workspace behind the links. -/
def reconciled (workspace : Volume) : Volume := ((reconcile_skills place).run workspace).2

theorem reconciled_of_refused {workspace : Volume} (hraw : place.staging_raw ≠ [])
    (h : Refused place (place.without_legacy_links workspace)) :
    reconciled place workspace = place.without_legacy_links workspace := by
  unfold Refused at h
  unfold reconciled
  rw [run_reconcile_skills place hraw, if_pos h]

theorem reconciled_of_not_refused {workspace : Volume} (hraw : place.staging_raw ≠ [])
    (h : ¬Refused place (place.without_legacy_links workspace)) :
    reconciled place workspace
      = if place.selected = [] then (place.without_legacy_links workspace).prune place.is_stale skills_dir
        else match ((place.without_legacy_links workspace).prune place.is_stale skills_dir).make_dirs skills_dir with
          | none => (place.without_legacy_links workspace).prune place.is_stale skills_dir
          | some made => made.put skills_dir (.dir (place.settled (place.without_legacy_links workspace))) := by
  unfold Refused at h
  unfold reconciled
  rw [run_reconcile_skills place hraw, if_neg h, run_link_selected]
  generalize (place.without_legacy_links workspace).prune place.is_stale skills_dir = pruned
  by_cases hnone : place.selected = []
  · rw [if_pos hnone, if_pos hnone]
  · rw [if_neg hnone, if_neg hnone]
    cases pruned.make_dirs skills_dir with
    | none => rfl
    | some made => rfl

theorem enabled_of_mem_done {name : Str} (h : name ∈ place.selected.takeWhile valid_skill_name) :
    is_enabled place.enabled name = true :=
  (List.mem_filter.1 ((List.takeWhile_prefix _).subset h)).2

theorem is_stale_settled (workspace : Volume) (name : Str) :
    place.is_stale name (place.settled workspace name) = false := by
  unfold Place.settled
  split_ifs with hmem
  · rw [Place.is_stale, enabled_of_mem_done hmem, Bool.not_true, Bool.and_false]
  · exact is_stale_left workspace name

/-- The skills that had their turn are as they would be behind another. -/
theorem settled_of_settled (h : ∀ name, after.get (skills_dir ++ [name]) = place.settled before name
      ∨ place.points_into skills_dir (place.left before name) = false
        ∧ place.points_into skills_dir (place.settled before name) = true
        ∧ after.get (skills_dir ++ [name]) = .nothing) : place.settled after = place.settled before := by
  funext name
  have hleft : place.left after name = after.get (skills_dir ++ [name]) := by
    unfold Place.left
    rw [if_neg]
    rcases h name with hsame | ⟨-, -, hnone⟩
    · rw [hsame, is_stale_settled]
      exact Bool.false_ne_true
    · rw [hnone]
      exact Bool.false_ne_true
  rw [Place.settled, hleft]
  rcases h name with hsame | ⟨hown, hpoints, hnone⟩
  · rw [hsame]
    unfold Place.settled
    split_ifs
    · exact linked_linked name _
    · rfl
  · rw [hnone]
    unfold Place.settled at hpoints ⊢
    split_ifs with hmem
    · rw [if_pos hmem] at hpoints
      have hfree : place.takes .nothing = false := rfl
      unfold Place.linked at hpoints ⊢
      rw [hfree, if_neg Bool.false_ne_true]
      by_cases htakes : place.takes (place.left before name) = true
      · rw [if_pos htakes, hown] at hpoints
        cases hpoints
      · rw [if_neg htakes]
    · rw [if_neg hmem, hown] at hpoints
      cases hpoints

theorem not_refused_again (h : ¬Refused place before)
    (horigin : ∀ path target, after.get path = .link target →
      before.get path = .link target ∨ ∃ name, path = skills_dir ++ [name])
    (hleaf : (after.get skills_dir).leaf = none) : ¬Refused place after := by
  rintro (hlink | henabled | hsome)
  · have hbefore : workspace_symlink before skills_dir = false := by
      rw [← Bool.not_eq_true]
      exact fun hbad => h (Or.inl hbad)
    rw [no_symlink_of_origin hbefore horigin] at hlink
    cases hlink
  · exact h (Or.inr (Or.inl henabled))
  · rw [hleaf] at hsome
    cases hsome

theorem leaf_prune_skills {drop : Str → Volume → Bool} (workspace : Volume) :
    ((workspace.prune drop skills_dir).get skills_dir).node = (workspace.get skills_dir).node :=
  node_prune_elsewhere (fun name => not_prefix_of_concat skills_dir name) workspace

theorem leaf_of_node {t u : Volume} (h : t.node = u.node) : t.leaf = u.leaf := by
  cases t with
  | _ => cases u with
    | _ => simp_all [node, leaf]

/-- Without stale links, and with nothing to link, nothing changes. -/
theorem reconciled_eq_self {workspace : Volume} (hraw : place.staging_raw ≠ [])
    (hclear : Cleared place workspace) (hnot : ¬Refused place workspace)
    (hstale : ∀ name, place.is_stale name (workspace.get (skills_dir ++ [name])) = false)
    (hnone : place.selected = [] ∨ workspace.make_dirs skills_dir = none) :
    reconciled place workspace = workspace := by
  have hlegacy := without_legacy_links_eq_self hclear
  rw [reconciled_of_not_refused hraw (by rwa [hlegacy]), hlegacy, prune_stale_eq_self hstale]
  split_ifs with hselected
  · rfl
  · rw [hnone.resolve_left hselected]

/-- The links that were made are made again. -/
theorem reconciled_linked {before made : Volume} (hraw : place.staging_raw ≠ []) (hclear : Cleared place before)
    (hnot : ¬Refused place before) (hspared : Spared place before made)
    (hmade : ∀ name, made.get (skills_dir ++ [name]) = place.left before name)
    (hdir : (made.get skills_dir).is_dir = true) (hselected : place.selected ≠ []) :
    reconciled place (made.put skills_dir (.dir (place.settled before)))
      = made.put skills_dir (.dir (place.settled before)) := by
  have hlinked := hspared.trans (Spared.settled hmade hdir)
  have hskills : (made.put skills_dir (.dir (place.settled before))).get skills_dir
    = .dir (place.settled before) :=
    get_put_of_exists (exists_of_is_dir hdir) _
  generalize hafter : made.put skills_dir (.dir (place.settled before)) = after at hlinked hskills
  have hentry : ∀ name, after.get (skills_dir ++ [name]) = place.settled before name := by
    intro name
    rw [get_append, hskills]
    rfl
  -- the legacy directory is another, or it is where the links are
  have hcleared : (place.without_legacy_links after).put skills_dir (.dir (place.settled before)) = after
      ∧ ((place.without_legacy_links after).get skills_dir).is_dir = true
      ∧ ∀ name, (place.without_legacy_links after).get (skills_dir ++ [name]) = place.settled before name
        ∨ place.points_into skills_dir (place.left before name) = false
          ∧ place.points_into skills_dir (place.settled before name) = true
          ∧ (place.without_legacy_links after).get (skills_dir ++ [name]) = .nothing := by
    by_cases hlegacy : place.legacy = some skills_dir
    · have hwithout : place.without_legacy_links after
          = after.prune (fun _ entry => place.points_into skills_dir entry) skills_dir := by
        unfold Place.without_legacy_links
        rw [hlegacy]
      rw [hwithout]
      refine ⟨?_, ?_, fun name => ?_⟩
      · rw [Files.prune, hskills]
        show (after.put skills_dir _).put skills_dir _ = after
        rw [put_put, ← hskills, put_get_self]
      · rw [is_dir_iff_node, leaf_prune_skills, hskills]
        rfl
      · rw [get_prune_entry fun _ => rfl, hentry]
        have hleft : place.points_into skills_dir (place.left before name) = false := by
          unfold Place.left
          split_ifs
          · rfl
          · exact hclear skills_dir hlegacy name
        split_ifs with hpoints
        · exact Or.inr ⟨hleft, hpoints, rfl⟩
        · exact Or.inl rfl
    · have hwithout : place.without_legacy_links after = after := by
        refine without_legacy_links_eq_self (hclear.of_origin fun path target hlink => ?_)
        exact (hlinked.origin path target hlink).imp_right fun hname => ⟨hname, hlegacy⟩
      rw [hwithout]
      refine ⟨by rw [← hskills, put_get_self], by rw [hskills]; rfl, fun name => Or.inl (hentry name)⟩
  obtain ⟨hput, hisdir, hentries⟩ := hcleared
  have hnot' : ¬Refused place (place.without_legacy_links after) := by
    refine not_refused_again hnot (fun path target hlink => ?_) (leaf_of_is_dir hisdir)
    exact (hlinked.trans (Spared.without_legacy_links place after)).origin path target hlink
  have hstale : ∀ name, place.is_stale name ((place.without_legacy_links after).get (skills_dir ++ [name]))
    = false := by
    intro name
    rcases hentries name with hsame | ⟨-, -, hnothing⟩
    · rw [hsame, is_stale_settled]
    · rw [hnothing, is_stale_nothing]
  rw [reconciled_of_not_refused hraw hnot', if_neg hselected, prune_stale_eq_self hstale,
    make_dirs_of_is_dir hisdir]
  show (place.without_legacy_links after).put skills_dir _ = after
  rw [settled_of_settled hentries, hput]

/-- **Once more**: the links that are reconciled are as they were. -/
theorem reconcile_again (workspace : Volume) :
    reconciled place (reconciled place workspace) = reconciled place workspace := by
  by_cases hraw : place.staging_raw = []
  · unfold reconciled
    rw [run_reconcile_skills_nothing hraw, run_reconcile_skills_nothing hraw]
  have hclear := cleared_without_legacy_links place workspace
  by_cases hrefused : Refused place (place.without_legacy_links workspace)
  · rw [reconciled_of_refused hraw hrefused]
    have hsame := without_legacy_links_eq_self hclear
    rw [reconciled_of_refused hraw (by rwa [hsame]), hsame]
  · rw [reconciled_of_not_refused hraw hrefused]
    generalize place.without_legacy_links workspace = u at hclear hrefused
    have hpruned := Spared.prune_stale place u
    have hleaf : ((u.prune place.is_stale skills_dir).get skills_dir).leaf = none := by
      rw [leaf_of_node (leaf_prune_skills u)]
      cases hsome : (u.get skills_dir).leaf with
      | none => rfl
      | some leaf => exact absurd (Or.inr (Or.inr (by rw [hsome]; rfl))) hrefused
    have hold : ∀ path target, (u.prune place.is_stale skills_dir).get path = .link target →
        u.get path = .link target := fun path target hlink => link_of_prune is_stale_nothing hlink
    have hclear' : Cleared place (u.prune place.is_stale skills_dir) :=
      hclear.of_origin fun path target hlink => Or.inl (hold path target hlink)
    have hnot := not_refused_again hrefused (hpruned.origin) hleaf
    have hstale : ∀ name, place.is_stale name
      ((u.prune place.is_stale skills_dir).get (skills_dir ++ [name])) = false := by
      intro name
      rw [get_prune_stale, is_stale_left]
    split_ifs with hselected
    · exact reconciled_eq_self hraw hclear' hnot hstale (Or.inl hselected)
    · cases hmade : (u.prune place.is_stale skills_dir).make_dirs skills_dir with
      | none => exact reconciled_eq_self hraw hclear' hnot hstale (Or.inr hmade)
      | some made =>
        refine reconciled_linked hraw hclear hrefused (hpruned.trans (Spared.make_dirs hmade))
          (fun name => ?_)
          (is_dir_make_dirs hmade) hselected
        rw [get_make_dirs_apart hmade (not_prefix_of_concat skills_dir name), get_prune_stale]

/-! ## The profile again -/

variable {py : Python F} {agent_name : Str}

theorem no_symlink_of_is_dir {workspace : Volume} {dir : List Str} (h : (workspace.get dir).is_dir = true) :
    workspace_symlink workspace dir = false := by
  cases hlink : workspace_symlink workspace dir with
  | false => rfl
  | true =>
    obtain ⟨part, hpart, hpart_link⟩ := List.any_eq_true.1 hlink
    have hstart := (List.mem_inits _ _).1 (List.mem_of_mem_tail hpart)
    have hdir : (workspace.get part).is_dir = true := by
      by_cases hsame : part = dir
      · rwa [hsame]
      · refine is_dir_above hstart hsame fun hnone => ?_
        rw [hnone] at h
        cases h
    cases hentry : workspace.get part with
    | link target =>
      rw [hentry] at hdir
      cases hdir
    | _ =>
      rw [hentry] at hpart_link
      cases hpart_link

theorem ownership_nothing (marker : Str) : ownership marker .nothing = some false := rfl

theorem ownership_empty (agent_name : Str) :
    ownership (ownership_marker agent_name) (.file []) = some false := by
  have hempty : decode_utf8 [] = some [] := by decide
  have hmarker : contains [] (ownership_marker agent_name) = false := by
    refine decide_eq_false fun hinfix => ?_
    have hnil := List.eq_nil_of_infix_nil hinfix
    simp [ownership_marker, str] at hnil
  simp only [ownership]
  rw [hempty, Option.map_some, hmarker]

theorem ownership_written {prompt : Str} {data : List UInt8}
    (h : encode_utf8 (profile_text agent_name prompt) = some data) :
    ownership (ownership_marker agent_name) (.file data) = some true := by
  have hdecode : decode_utf8 data = some (profile_text agent_name prompt) := by
    have hread := AgentSpace.PyText.from_utf8_encode h
    rw [from_utf8, Option.map_map] at hread
    exact hread
  have hmarker : contains (profile_text agent_name prompt) (ownership_marker agent_name) = true := by
    refine decide_eq_true ⟨str "---\nname: \"" ++ agent_name
      ++ str "\"\ndescription: \"AgentSpace session profile\"\n---\n", str "\n" ++ prompt ++ str "\n", ?_⟩
    unfold profile_text
    simp only [List.append_assoc]
  simp only [ownership]
  rw [hdecode, Option.map_some, hmarker]

/-- What a file is at the path of the profile, it is afterwards. -/
theorem Spared.ownership (h : Spared place before after) (marker : Str) (path : List Str)
    {owned : Option Bool} (hbefore : ownership marker (before.get path) = owned) (hfalse : owned = some false) :
    AgentSpace.Artifacts.ownership marker (after.get path) = some false := by
  cases hentry : after.get path with
  | file data =>
    rw [← hfalse, ← hbefore, (h.files path data).1 hentry]
  | _ => rfl

variable (place) (py) in
/-- The run of `_reconcile_agent_profile`. -/
def profiled (workspace : Volume) : Except Raised (Option Str) × Volume :=
  (reconcile_agent_profile py (place.launch workspace)).run workspace

variable (agent_name) in
/-- What is written is where it belongs. -/
theorem get_written (h : workspace.make_dirs profile_dir = some made) (entry : Volume) :
    (made.put (profile_path agent_name) entry).get (profile_path agent_name) = entry
      ∧ ((made.put (profile_path agent_name) entry).get profile_dir).is_dir = true := by
  refine ⟨get_put_self (is_dir_make_dirs h) entry, ?_⟩
  have hstay := is_dir_put_elsewhere (not_prefix_of_concat profile_dir
    (agent_name ++ str ".agent.md")) made entry
  exact hstay.trans (is_dir_make_dirs h)

variable {name : Option Str}

/-- The profile, when it has been reconciled. -/
theorem profiled_ok {workspace after : Volume} (h : profiled place py workspace = (.ok name, after)) :
    ∃ agent_name, agent_profile_name py (artifact_identity place.config) = some agent_name
      ∧ ((place.prompt = [] ∧ name = none
          ∧ ownership (ownership_marker agent_name) (after.get (profile_path agent_name)) = some false)
        ∨ (place.prompt ≠ [] ∧ name = some agent_name ∧ (after.get profile_dir).is_dir = true
          ∧ ∃ data, encode_utf8 (profile_text agent_name place.prompt) = some data
            ∧ after.get (profile_path agent_name) = .file data)) := by
  unfold profiled at h
  cases hname : agent_profile_name py (artifact_identity place.config) with
  | none =>
    rw [run_profile_unnamed hname] at h
    cases h
  | some agent_name =>
    refine ⟨agent_name, rfl, ?_⟩
    by_cases hprompt : place.prompt = []
    · rw [run_profile_no_prompt hname hprompt] at h
      cases howned : ownership (ownership_marker agent_name) (workspace.get (profile_path agent_name)) with
      | none =>
        rw [howned] at h
        cases h
      | some owned =>
        rw [howned] at h
        cases owned with
        | true =>
          obtain ⟨hname', rfl⟩ := Prod.mk.inj h
          obtain rfl := Except.ok.inj hname'
          exact Or.inl ⟨hprompt, rfl, by rw [get_put_nothing, ownership_nothing]⟩
        | false =>
          obtain ⟨hname', rfl⟩ := Prod.mk.inj h
          obtain rfl := Except.ok.inj hname'
          exact Or.inl ⟨hprompt, rfl, howned⟩
    · have hwritten : (write_profile agent_name place.prompt).run workspace = (.ok name, after) := by
        rw [run_profile_prompt hname hprompt] at h
        split_ifs at h
        · cases h
        · cases howned : ownership (ownership_marker agent_name)
            (workspace.get (profile_path agent_name)) with
          | none =>
            rw [howned] at h
            cases h
          | some owned =>
            rw [howned] at h
            cases owned with
            | true => exact h
            | false => cases h
        · exact h
      rw [run_write_profile] at hwritten
      cases hmade : workspace.make_dirs profile_dir with
      | none =>
        rw [hmade] at hwritten
        cases hwritten
      | some made =>
        rw [hmade] at hwritten
        cases hdata : encode_utf8 (profile_text agent_name place.prompt) with
        | none =>
          rw [hdata] at hwritten
          cases hwritten
        | some data =>
          rw [hdata] at hwritten
          obtain ⟨hname', rfl⟩ := Prod.mk.inj hwritten
          obtain rfl := Except.ok.inj hname'
          obtain ⟨hget, hdir⟩ := get_written agent_name hmade (.file data)
          exact Or.inr ⟨hprompt, rfl, hdir, data, rfl, hget⟩

/-- **Once more**: a profile that has been reconciled is left as it is. -/
theorem profiled_again {workspace after later : Volume}
    (h : profiled place py workspace = (.ok name, after)) (hspared : Spared place after later) :
    profiled place py later = (.ok name, later) := by
  obtain ⟨agent_name, hname, ⟨hprompt, rfl, howned⟩ | ⟨hprompt, rfl, hdir, data, hdata, hfile⟩⟩ := profiled_ok h
  · unfold profiled
    rw [run_profile_no_prompt hname hprompt, hspared.ownership _ _ howned rfl]
  · have hfile' := (hspared.files _ _).2 hfile
    have hdir' := hspared.dirs _ hdir
    unfold profiled
    rw [run_profile_prompt hname hprompt, no_symlink_of_is_dir hdir', if_neg Bool.false_ne_true, hfile',
      ownership_written hdata]
    show (write_profile agent_name place.prompt).run later = _
    rw [run_write_profile, make_dirs_of_is_dir hdir']
    dsimp only
    rw [hdata]
    dsimp only
    rw [← hfile', put_get_self]

theorem profiled_error_again {workspace after : Volume} {raised : Raised}
    (h : profiled place py workspace = (.error raised, after)) :
    ∃ raised', profiled place py after = (.error raised', after) := by
  have hsame : workspace = after → ∃ raised', profiled place py after = (.error raised', after) := by
    rintro rfl
    exact ⟨raised, h⟩
  have h' := h
  unfold profiled at h'
  cases hname : agent_profile_name py (artifact_identity place.config) with
  | none =>
    rw [run_profile_unnamed hname] at h'
    exact hsame (congrArg Prod.snd h')
  | some agent_name =>
    by_cases hprompt : place.prompt = []
    · rw [run_profile_no_prompt hname hprompt] at h'
      cases howned : ownership (ownership_marker agent_name) (workspace.get (profile_path agent_name)) with
      | none =>
        rw [howned] at h'
        exact hsame (congrArg Prod.snd h')
      | some owned =>
        rw [howned] at h'
        cases owned with
        | true | false => cases h'
    · have hwritten : workspace = after
          ∨ (write_profile agent_name place.prompt).run workspace = (.error raised, after) := by
        rw [run_profile_prompt hname hprompt] at h'
        split_ifs at h'
        · exact Or.inl (congrArg Prod.snd h')
        · cases howned : ownership (ownership_marker agent_name)
            (workspace.get (profile_path agent_name)) with
          | none =>
            rw [howned] at h'
            exact Or.inl (congrArg Prod.snd h')
          | some owned =>
            rw [howned] at h'
            cases owned with
            | true => exact Or.inr h'
            | false => exact Or.inl (congrArg Prod.snd h')
        · exact Or.inr h'
      rcases hwritten with hstopped | hwritten
      · exact hsame hstopped
      rw [run_write_profile] at hwritten
      cases hmade : workspace.make_dirs profile_dir with
      | none =>
        rw [hmade] at hwritten
        exact hsame (congrArg Prod.snd hwritten)
      | some made =>
        rw [hmade] at hwritten
        cases hdata : encode_utf8 (profile_text agent_name place.prompt) with
        | some data =>
          rw [hdata] at hwritten
          cases hwritten
        | none =>
          rw [hdata] at hwritten
          obtain rfl : made.put (profile_path agent_name) (.file []) = after := congrArg Prod.snd hwritten
          obtain ⟨hget, hdir⟩ := get_written agent_name hmade (.file [])
          refine ⟨.CopilotLaunchError, ?_⟩
          unfold profiled
          rw [run_profile_prompt hname hprompt, no_symlink_of_is_dir hdir, if_neg Bool.false_ne_true,
            hget,
            ownership_empty]
          rfl

theorem run_prepare_at (workspace : Volume) :
    (prepare_at place py).run workspace = match profiled place py workspace with
      | (.error raised, after) => (.error raised, after)
      | (.ok name, after) => match (reconcile_skills place).run after with
        | (.error raised, later) => (.error raised, later)
        | (.ok links, later) => (.ok ⟨name, name.toList.map profile_path ++ links⟩, later) := by
  show (reconcile_agent_profile py (place.launch workspace) >>= fun name =>
    reconcile_skills place >>= fun links => pure ⟨name, name.toList.map profile_path ++ links⟩ :
    Prepare WorkspaceArtifacts).run workspace = _
  rw [Effect.run_bind]
  unfold profiled
  rcases (reconcile_agent_profile py (place.launch workspace)).run workspace with ⟨raised | name, after⟩
  · rfl
  · dsimp only
    rw [Effect.run_bind]
    rcases (reconcile_skills place).run after with ⟨raised | links, later⟩
    · rfl
    · rfl

theorem prepared_of_ok {workspace after : Volume} (h : profiled place py workspace = (.ok name, after)) :
    prepared place py workspace = reconciled place after := by
  unfold prepared reconciled
  rw [run_prepare_at, h]
  dsimp only
  rcases (reconcile_skills place).run after with ⟨raised | links, later⟩
  · rfl
  · rfl

theorem prepared_of_error {workspace after : Volume} {raised : Raised}
    (h : profiled place py workspace = (.error raised, after)) : prepared place py workspace = after := by
  unfold prepared
  rw [run_prepare_at, h]

/-- **A second launch** changes nothing. -/
theorem prepared_again (workspace : Volume) :
    prepared place py (prepared place py workspace) = prepared place py workspace := by
  rcases h : profiled place py workspace with ⟨raised | name, after⟩
  · rw [prepared_of_error h]
    obtain ⟨raised', h'⟩ := profiled_error_again h
    exact prepared_of_error h'
  · have hspared : Spared place after (reconciled place after) := spared_reconcile_skills after
    rw [prepared_of_ok h, prepared_of_ok (profiled_again h hspared), reconcile_again]

/-! ## What the profile changes -/

/-- Nothing is in the way of the profile. -/
structure Writable (agent_name : Str) (workspace : Volume) : Prop where
  no_links : workspace_symlink workspace profile_dir = false
  own : (workspace.get (profile_path agent_name)).exists = true →
    ownership (ownership_marker agent_name) (workspace.get (profile_path agent_name)) ≠ some false
  directories : (workspace.make_dirs profile_dir).isSome = true

/-- How the writing of a profile ends. -/
theorem profiled_prompt (hname : agent_profile_name py (artifact_identity place.config) = some agent_name)
    (hprompt : place.prompt ≠ []) {workspace : Volume}
    (hread : ownership (ownership_marker agent_name) (workspace.get (profile_path agent_name)) ≠ none) :
    (¬Writable agent_name workspace ∧ ∃ raised, raised ≠ .UnicodeError
        ∧ profiled place py workspace = (.error raised, workspace))
      ∨ (Writable agent_name workspace
        ∧ profiled place py workspace = (write_profile agent_name place.prompt).run workspace) := by
  unfold profiled
  rw [run_profile_prompt hname hprompt]
  by_cases hlink : workspace_symlink workspace profile_dir = true
  · rw [if_pos hlink]
    refine Or.inl ⟨fun h => ?_, .CopilotLaunchError, by decide, rfl⟩
    rw [h.no_links] at hlink
    cases hlink
  rw [if_neg hlink]
  rw [Bool.not_eq_true] at hlink
  have hwrite : ((workspace.get (profile_path agent_name)).exists = true →
      ownership (ownership_marker agent_name) (workspace.get (profile_path agent_name)) ≠ some false) →
      (¬Writable agent_name workspace ∧ ∃ raised, raised ≠ .UnicodeError
          ∧ (write_profile agent_name place.prompt).run workspace = (.error raised, workspace))
        ∨ Writable agent_name workspace := by
    intro hown
    cases hmade : (workspace.make_dirs profile_dir).isSome with
    | true => exact Or.inr ⟨hlink, hown, hmade⟩
    | false =>
      refine Or.inl ⟨fun h => ?_, .OSError, by decide, ?_⟩
      · rw [h.directories] at hmade
        cases hmade
      · rw [run_write_profile, Option.isSome_eq_false_iff.1 hmade |> Option.isNone_iff_eq_none.1]
  by_cases hexists : (workspace.get (profile_path agent_name)).exists = true
  · rw [if_pos hexists]
    cases howned : ownership (ownership_marker agent_name) (workspace.get (profile_path agent_name)) with
    | none => exact absurd howned hread
    | some owned =>
      cases owned with
      | false =>
        refine Or.inl ⟨fun h => h.own hexists howned, .CopilotLaunchError, by decide, rfl⟩
      | true =>
        refine (hwrite fun _ => ?_).imp_right fun h => ⟨h, rfl⟩
        rw [howned]
        decide
  · rw [if_neg hexists]
    exact (hwrite fun h => absurd h hexists).imp_right fun h => ⟨h, rfl⟩

/-- The profile is the only thing that changes, but for directories that are made. -/
theorem profiled_effect {workspace after : Volume} {result : Except Raised (Option Str)}
    (h : profiled place py workspace = (result, after)) :
    after = workspace ∨ ∃ agent_name from_workspace entry,
      agent_profile_name py (artifact_identity place.config) = some agent_name
        ∧ after = from_workspace.put (profile_path agent_name) entry
        ∧ (from_workspace = workspace ∨ workspace.make_dirs profile_dir = some from_workspace)
        ∧ (workspace.get (profile_path agent_name) = .nothing
          ∨ ownership (ownership_marker agent_name) (workspace.get (profile_path agent_name)) = some true) := by
  cases hname : agent_profile_name py (artifact_identity place.config) with
  | none =>
    unfold profiled at h
    rw [run_profile_unnamed hname] at h
    exact Or.inl (congrArg Prod.snd h).symm
  | some agent_name =>
    cases howned : ownership (ownership_marker agent_name) (workspace.get (profile_path agent_name)) with
    | none =>
      refine Or.inl ?_
      unfold profiled at h
      by_cases hprompt : place.prompt = []
      · rw [run_profile_no_prompt hname hprompt, howned] at h
        exact (congrArg Prod.snd h).symm
      · rw [run_profile_prompt hname hprompt, howned] at h
        split_ifs at h with hlink hexists
        · exact (congrArg Prod.snd h).symm
        · exact (congrArg Prod.snd h).symm
        · have hnone := exists_eq_false_iff.1 (Bool.not_eq_true _ |>.mp hexists)
          rw [hnone] at howned
          cases howned
    | some owned =>
      by_cases hprompt : place.prompt = []
      · unfold profiled at h
        rw [run_profile_no_prompt hname hprompt, howned] at h
        cases owned with
        | false => exact Or.inl (congrArg Prod.snd h).symm
        | true =>
          exact Or.inr ⟨agent_name, workspace, .nothing, rfl, (congrArg Prod.snd h).symm, Or.inl rfl,
            Or.inr howned⟩
      · rcases profiled_prompt hname hprompt
          (by rw [howned]; simp) with ⟨-, raised, -, hstopped⟩ | ⟨hwritable, hrun⟩
        · rw [hstopped] at h
          exact Or.inl (congrArg Prod.snd h).symm
        · have hold : workspace.get (profile_path agent_name) = .nothing
              ∨ ownership (ownership_marker agent_name) (workspace.get (profile_path agent_name))
                = some true := by
            cases hexists : (workspace.get (profile_path agent_name)).exists with
            | false => exact Or.inl (exists_eq_false_iff.1 hexists)
            | true =>
              have hown := hwritable.own hexists
              rw [howned] at hown ⊢
              cases owned with
              | true => exact Or.inr rfl
              | false => exact absurd rfl hown
          rw [hrun, run_write_profile] at h
          obtain ⟨made, hmade⟩ := Option.isSome_iff_exists.1 hwritable.directories
          rw [hmade] at h
          cases hdata : encode_utf8 (profile_text agent_name place.prompt) with
          | none | some data =>
            rw [hdata] at h
            exact Or.inr ⟨agent_name, made, _, rfl, (congrArg Prod.snd h).symm, Or.inr hmade, hold⟩

variable (place) (py) in
/-- What the platform may remove or replace: its links into the staging directory, and the files
with the marker of the session. -/
def Ours (path : List Str) : FileNode (List UInt8) PurePath → Prop
  | .link target => place.points_into path.dropLast (.link target) = true
  | .file data => ∃ agent_name text, agent_profile_name py (artifact_identity place.config) = some agent_name
      ∧ decode_utf8 data = some text ∧ ownership_marker agent_name <:+: text
  | .dir => False

variable {node : FileNode (List UInt8) PurePath}

/-- The profile is written over nothing but a profile. -/
theorem profiled_keeps {workspace after : Volume} {result : Except Raised (Option Str)}
    (h : profiled place py workspace = (result, after)) (hnode : (workspace.get path).node = some node) :
    Ours place py path node ∨ (after.get path).node = some node := by
  rcases profiled_effect h with rfl | ⟨agent_name, x, entry, hname, rfl, hx, hold⟩
  · exact Or.inr hnode
  by_cases hstart : profile_path agent_name <+: path
  · obtain ⟨rest, rfl⟩ := hstart
    rw [get_append] at hnode
    rcases hold with hnone | howned
    · rw [hnone, get_nothing] at hnode
      cases hnode
    · cases hentry : workspace.get (profile_path agent_name) with
      | file data =>
        rw [hentry] at hnode howned
        cases rest with
        | cons first rest =>
          rw [get_cons_of_not_dir rfl] at hnode
          cases hnode
        | nil =>
          obtain rfl : .file data = node := Option.some.inj hnode
          obtain ⟨text, htext, hcontains⟩ := Option.map_eq_some_iff.1 howned
          exact Or.inl ⟨agent_name, text, hname, htext, of_decide_eq_true hcontains⟩
      | _ =>
        rw [hentry] at howned
        cases howned
  · rw [node_get_put_elsewhere hstart]
    rcases hx with rfl | hmade
    · exact Or.inr hnode
    · have hspared : Spared place workspace x := Spared.make_dirs hmade
      refine Or.inr ?_
      cases node with
      | dir => exact is_dir_iff_node.1 (hspared.dirs path (is_dir_iff_node.2 hnode))
      | file data => exact node_eq_some_file.2 ((hspared.files path data).2 (node_eq_some_file.1 hnode))
      | link target =>
        have hleaf := leaf_get_make_dirs hmade path
        rw [node_eq_some_link.1 hnode] at hleaf
        rw [leaf_eq_some_iff.1 hleaf]
        rfl

theorem Spared.keeps (h : Spared place before after) (hnode : (before.get path).node = some node) :
    Ours place py path node ∨ (after.get path).node = some node := by
  cases node with
  | dir => exact Or.inr (is_dir_iff_node.1 (h.dirs path (is_dir_iff_node.2 hnode)))
  | file data => exact Or.inr (node_eq_some_file.2 ((h.files path data).2 (node_eq_some_file.1 hnode)))
  | link target => exact (h.links path target (node_eq_some_link.1 hnode)).symm.imp id node_eq_some_link.2

/-- **What is not the platform's** stays, however a launch ends. -/
theorem prepared_keeps (workspace : Volume) (hnode : (workspace.get path).node = some node) :
    Ours place py path node ∨ ((prepared place py workspace).get path).node = some node := by
  rcases h : profiled place py workspace with ⟨raised | name, after⟩
  · rw [prepared_of_error h]
    exact profiled_keeps h hnode
  · rw [prepared_of_ok h]
    have hspared : Spared place after (reconciled place after) := spared_reconcile_skills after
    exact (profiled_keeps h hnode).elim Or.inl hspared.keeps

end AgentSpace.Artifacts
