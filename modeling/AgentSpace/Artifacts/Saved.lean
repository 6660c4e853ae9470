/-
No artifact of the platform is saved, and nothing of the user is left out.

A launch whose profile can be encoded puts only artifacts into the workspace
(`launched_adds`), no saved copy has one (`no_artifact_in_copy`), and everything else below
`.github` is copied (`leaf_copied`).
-/
import AgentSpace.Artifacts.Snapshot
import AgentSpace.Lib.Effect

set_option autoImplicit false

namespace AgentSpace.Artifacts

open Lib Lib.Files
open Telemetry (Str str)
open Telemetry.Otel (encode_utf8 has_surrogate)
open Kernels (Python KernelConfig)
open Kernels.Copilot

variable {F : Type} {py : Python F}

/-! ## What is added -/

/-- An artifact of the platform, as the script knows it. -/
def Artifact (path : List Str) (leaf : Leaf (List UInt8) PurePath) : Prop :=
  is_managed_artifact_path path = true ∧ is_owned_artifact (of_leaf leaf) path = true

/-- The leaves of a volume are artifacts, or were there. -/
def OnlyAdds (before after : Volume) : Prop :=
  ∀ path leaf, (after.get path).leaf = some leaf → Artifact path leaf ∨ (before.get path).leaf = some leaf

variable (workspace : Volume)

theorem OnlyAdds.refl : OnlyAdds workspace workspace := fun _ _ h => Or.inr h

theorem OnlyAdds.trans {s t u : Volume} (h : OnlyAdds s t) (h' : OnlyAdds t u) : OnlyAdds s u := by
  intro path leaf hleaf
  rcases h' path leaf hleaf with hartifact | hbefore
  · exact Or.inl hartifact
  · exact h path leaf hbefore

theorem OnlyAdds.unlink (path : List Str) : OnlyAdds workspace (workspace.put path .nothing) := by
  intro other leaf hleaf
  rcases leaf_get_put rfl hleaf with ⟨-, hnothing⟩ | hbefore
  · cases hnothing
  · exact Or.inr hbefore

variable {path : List Str} {leaf : Leaf (List UInt8) PurePath}

theorem OnlyAdds.put (h : Artifact path leaf) : OnlyAdds workspace (workspace.put path (of_leaf leaf)) := by
  intro other leaf' hleaf
  have hdir : (of_leaf leaf : Volume).is_dir = false := by
    cases leaf with
    | _ => rfl
  rcases leaf_get_put hdir hleaf with ⟨rfl, hput⟩ | hbefore
  · have hsame : leaf = leaf' := by
      rw [leaf_eq_some_iff] at hput
      cases leaf <;> cases leaf' <;> simp_all [of_leaf]
    rw [← hsame]
    exact Or.inl h
  · exact Or.inr hbefore

/-- A part of a launch only adds artifacts, however it ends. -/
def Only {α : Type} (m : Prepare α) : Prop := ∀ workspace, OnlyAdds workspace (m.run workspace).2

section Rules

variable {α β : Type}

theorem Only.pure (a : α) : Only (pure a) := OnlyAdds.refl

theorem Only.throw (raised : Raised) : Only (throw raised : Prepare α) := OnlyAdds.refl

theorem Only.modify {f : Volume → Volume} (h : ∀ workspace, OnlyAdds workspace (f workspace)) :
    Only (modify f : Prepare PUnit) := h

theorem Only.bind {m : Prepare α} {f : α → Prepare β} (hm : Only m) (hf : ∀ a, Only (f a)) :
    Only (m >>= f) := by
  intro workspace
  have hfirst := hm workspace
  show OnlyAdds workspace ((ExceptT.bindCont f (m.run workspace).1).run (m.run workspace).2).2
  cases hresult : (m.run workspace).1 with
  | ok a => exact hfirst.trans (hf a _)
  | error raised => exact hfirst

theorem Only.get {f : Volume → Prepare β} (hf : ∀ workspace, Only (f workspace)) :
    Only (get >>= f : Prepare β) :=
  fun workspace => hf workspace workspace

theorem Only.or_raise (raised : Raised) (a : Option α) : Only (or_raise raised a) := by
  cases a with
  | none => exact Only.throw raised
  | some a => exact Only.pure a

end Rules

/-! ## The parts of a launch -/

theorem Only.ite {α : Type} {p : Prop} [Decidable p] {m m' : Prepare α} (h : p → Only m) (h' : ¬p → Only m') :
    Only (if p then m else m') := by
  by_cases hp : p
  · rw [if_pos hp]
    exact h hp
  · rw [if_neg hp]
    exact h' hp

theorem only_unlink (path : List Str) : Only (unlink path) :=
  Only.modify fun workspace => OnlyAdds.unlink workspace path

theorem only_mkdir (path : List Str) : Only (mkdir path) := by
  intro workspace
  have hget : (get : Prepare Volume).run workspace = (.ok workspace, workspace) := rfl
  rw [mkdir, Lib.Effect.run_bind, hget]
  dsimp only
  cases hmade : workspace.make_dirs path with
  | none => exact OnlyAdds.refl workspace
  | some made =>
    intro other leaf hleaf
    have hsame : ((made.get other).leaf) = some leaf := hleaf
    rw [leaf_get_make_dirs hmade] at hsame
    exact Or.inr hsame

theorem only_reject_workspace_symlinks (relative_dir : List Str) :
    Only (reject_workspace_symlinks relative_dir) := by
  refine Only.get fun workspace => ?_
  exact Only.ite (fun _ => Only.throw _) fun _ => Only.pure _

theorem only_profile_is_owned (path : List Str) (marker : Str) : Only (profile_is_owned path marker) := by
  refine Only.get fun workspace => ?_
  cases workspace.get path with
  | file data => exact Only.bind (Only.or_raise _ _) fun _ => Only.pure _
  | _ => exact Only.pure _

theorem only_remove_stale_profile (agent_name : Str) : Only (remove_stale_profile agent_name) := by
  refine Only.get fun workspace => ?_
  refine Only.ite (fun _ => Only.pure _) fun _ => ?_
  refine Only.bind (only_profile_is_owned _ _) fun owned => ?_
  exact Only.ite (fun _ => only_unlink _) fun _ => Only.pure _

theorem only_reject_user_profile (agent_name : Str) : Only (reject_user_profile agent_name) := by
  refine Only.get fun workspace => ?_
  refine Only.ite (fun _ => ?_) fun _ => Only.pure _
  refine Only.bind (only_profile_is_owned _ _) fun owned => ?_
  exact Only.ite (fun _ => Only.pure _) fun _ => Only.throw _

/-! ## The profile -/

variable {data : List UInt8}

theorem encode_utf8_append {text text' : Str} (h : encode_utf8 (text ++ text') = some data) :
    ∃ first second, encode_utf8 text = some first ∧ encode_utf8 text' = some second
      ∧ data = first ++ second := by
  unfold encode_utf8 at h ⊢
  rw [AgentSpace.Telemetry.Otel.has_surrogate_append] at h
  cases hfirst : has_surrogate text with
  | true => simp [hfirst] at h
  | false =>
    cases hsecond : has_surrogate text' with
    | true => simp [hsecond] at h
    | false =>
      simp only [hfirst, hsecond, Bool.or_false, Bool.false_eq_true, if_false, Option.some.injEq,
        List.flatMap_append] at h
      exact ⟨_, _, rfl, rfl, h.symm⟩

theorem encode_profile_marker :
    encode_utf8 (str "<!-- agentspace-owned-profile:") = some profile_marker := by
  decide

theorem encode_utf8_part {part text : Str} {bytes data : List UInt8} (h : encode_utf8 text = some data)
    (hpart : part <:+: text) (hbytes : encode_utf8 part = some bytes) : bytes <:+: data := by
  obtain ⟨before, after, rfl⟩ := hpart
  obtain ⟨_, last, hfirst, -, rfl⟩ := encode_utf8_append h
  obtain ⟨first, middle, -, hmiddle, rfl⟩ := encode_utf8_append hfirst
  obtain rfl : bytes = middle := Option.some.inj (hbytes.symm.trans hmiddle)
  exact ⟨first, last, rfl⟩

variable {agent_name prompt : Str}

theorem marker_in_profile
    (h : encode_utf8 (profile_text agent_name prompt) = some data) : contains data profile_marker = true := by
  have hpart : str "<!-- agentspace-owned-profile:" <:+: profile_text agent_name prompt := by
    refine ⟨str "---\nname: \"" ++ agent_name
      ++ str "\"\ndescription: \"AgentSpace session profile\"\n---\n",
      agent_name ++ str " -->" ++ str "\n" ++ prompt ++ str "\n", ?_⟩
    unfold profile_text ownership_marker
    simp only [List.append_assoc]
  exact decide_eq_true (encode_utf8_part h hpart encode_profile_marker)

theorem agent_profile_name_starts {session_id agent_name : Str}
    (h : agent_profile_name py session_id = some agent_name) : str "agentspace-" <+: agent_name := by
  unfold agent_profile_name at h
  by_cases hsafe : safe_session_id (py.lower session_id) = true
  · rw [if_pos hsafe] at h
    obtain rfl := Option.some.inj h
    exact List.prefix_append _ _
  · rw [if_neg hsafe] at h
    obtain ⟨data, -, rfl⟩ := Option.map_eq_some_iff.1 h
    exact List.prefix_append _ _

theorem is_managed_profile {agent_name : Str} (hname : str "agentspace-" <+: agent_name) :
    is_managed_artifact_path (profile_path agent_name) = true := by
  have hstart : (str "agentspace-").isPrefixOf (agent_name ++ str ".agent.md") = true :=
    List.isPrefixOf_iff_prefix.2 (hname.trans (List.prefix_append _ _))
  have hsuffix : (str ".agent.md").isSuffixOf (agent_name ++ str ".agent.md") = true :=
    List.isSuffixOf_iff_suffix.2 (List.suffix_append _ _)
  unfold is_managed_artifact_path profile_path profile_dir
  simp [hstart, hsuffix]

theorem artifact_profile (hname : str "agentspace-" <+: agent_name)
    (h : encode_utf8 (profile_text agent_name prompt) = some data) :
    Artifact (profile_path agent_name) (.file data) := by
  refine ⟨is_managed_profile hname, ?_⟩
  · have hskills : ¬(profile_path agent_name).take 2 = skills_dir := by
      show ¬profile_dir = skills_dir
      decide
    have hprofile : (profile_path agent_name).take 2 = profile_dir := rfl
    unfold is_owned_artifact
    rw [if_neg hskills, if_pos hprofile]
    exact marker_in_profile h

/-- The profile is written, and its text can be encoded. -/
theorem only_write_text (hname : str "agentspace-" <+: agent_name)
    (h : (encode_utf8 (profile_text agent_name prompt)).isSome) :
    Only (write_text (profile_path agent_name) (profile_text agent_name prompt)) := by
  obtain ⟨data, hdata⟩ := Option.isSome_iff_exists.1 h
  intro workspace
  unfold write_text
  rw [hdata]
  intro other leaf hleaf
  have hput : (((workspace.put (profile_path agent_name) (.file [])).put (profile_path agent_name)
      (.file data)).get other).leaf = some leaf := hleaf
  by_cases hother : other = profile_path agent_name
  · subst hother
    rw [← List.append_nil (profile_path agent_name)] at hput
    obtain rfl := Option.some.inj (leaf_get_put_append hput)
    exact Or.inl (artifact_profile hname hdata)
  · rcases leaf_get_put rfl hput with ⟨hsame, -⟩ | hopened
    · exact absurd hsame hother
    rcases leaf_get_put rfl hopened with ⟨hsame, -⟩ | hbefore
    · exact absurd hsame hother
    · exact Or.inr hbefore

/-! ## The links -/

theorem only_validate_skill_name (name : Str) : Only (validate_skill_name name) :=
  Only.ite (fun _ => Only.throw _) fun _ => Only.pure _

theorem only_enabled_skills (launch : Launch) : Only (enabled_skills launch) := by
  unfold enabled_skills
  cases launch.config.env.env_get "KERNEL_ENABLED_SKILLS" with
  | none => exact Only.pure _
  | some raw =>
    refine Only.bind ?_ fun _ => Only.pure _
    generalize (raw.splitOn 44).filter (fun name => !name.isEmpty) = names
    induction names with
    | nil => exact Only.pure _
    | cons name names ih => exact Only.bind (only_validate_skill_name name) fun _ => ih

theorem onlyAdds_remove_stale_skill_links (launch : Launch) (enabled : Option (List Str)) (workspace : Volume) :
    OnlyAdds workspace (remove_stale_skill_links launch enabled workspace) := by
  intro path leaf hleaf
  refine Or.inr ?_
  unfold remove_stale_skill_links at hleaf
  by_cases hstart : skills_dir <+: path
  · obtain ⟨rest, rfl⟩ := hstart
    have hput := leaf_get_put_append hleaf
    cases rest with
    | nil => cases hput
    | cons name rest =>
      rw [get_cons, child_dir] at hput
      rw [get_append, get_cons]
      split at hput
      · rw [get_nothing] at hput
        cases hput
      · exact hput
  · rw [leaf_get_put_elsewhere hstart] at hleaf
    exact hleaf

theorem only_look_through_links (launch : Launch) (enabled : Option (List Str)) :
    Only (look_through_links launch enabled) := by
  refine Only.get fun workspace => ?_
  refine Only.ite (fun _ => Only.throw _) fun _ => ?_
  refine Only.ite (fun _ => ?_) fun _ => Only.pure _
  exact Only.modify (onlyAdds_remove_stale_skill_links launch enabled)

theorem is_managed_link (name : Str) : is_managed_artifact_path (skills_dir ++ [name]) = true := by
  have hskills : (skills_dir ++ [name]).take 2 = skills_dir := rfl
  unfold is_managed_artifact_path
  rw [hskills]
  rfl

variable {staging : PurePath}

theorem artifact_link (h : staging.at_or_below skills_staging = true) (name : Str) :
    Artifact (skills_dir ++ [name]) (.link (staging.join name)) := by
  unfold PurePath.at_or_below at h
  obtain ⟨hroot, hparts⟩ := Bool.and_eq_true_iff.1 h
  have hsingle : staging.root = .single := of_decide_eq_true hroot
  have hbelow : (staging.join name).at_or_below skills_staging = true := by
    unfold PurePath.at_or_below PurePath.join
    refine Bool.and_eq_true_iff.2 ⟨hroot, ?_⟩
    exact List.isPrefixOf_iff_prefix.2 ((List.isPrefixOf_iff_prefix.1 hparts).trans (List.prefix_append _ _))
  have hskills : (skills_dir ++ [name]).take 2 = skills_dir := rfl
  refine ⟨is_managed_link name, ?_⟩
  · unfold is_owned_artifact
    rw [if_pos hskills]
    show ((staging.join name).root ≠ .relative && (staging.join name).at_or_below skills_staging) = true
    rw [hbelow]
    simp [PurePath.join, hsingle]

theorem only_link_skill (launch : Launch) (h : staging.at_or_below skills_staging = true)
    (name : Str) : Only (link_skill launch staging name) := by
  have hlink : Only (symlink_to (skills_dir ++ [name]) (staging.join name)) :=
    Only.modify fun workspace => OnlyAdds.put workspace (artifact_link h name)
  refine Only.bind (only_validate_skill_name name) fun _ => ?_
  refine Only.get fun workspace => ?_
  refine Only.ite (fun _ => ?_) fun _ => ?_
  · refine Only.bind (only_unlink _) fun _ => ?_
    exact Only.bind hlink fun _ => Only.pure _
  · refine Only.ite (fun _ => Only.pure _) fun _ => ?_
    exact Only.bind hlink fun _ => Only.pure _

theorem only_link_skills (launch : Launch) (h : staging.at_or_below skills_staging = true)
    (names : List Str) : Only (link_skills launch staging names) := by
  induction names with
  | nil => exact Only.pure _
  | cons name names ih =>
    refine Only.bind (only_link_skill launch h name) fun _ => ?_
    exact Only.bind ih fun _ => Only.pure _

variable {launch : Launch}

theorem only_reconcile_skill_links
    (h : staging_raw launch ≠ [] → (pure_path (staging_raw launch)).at_or_below skills_staging = true) :
    Only (reconcile_skill_links launch) := by
  refine Only.ite (fun _ => Only.pure _) fun hraw => ?_
  refine Only.bind (only_reject_workspace_symlinks _) fun _ => ?_
  refine Only.bind (only_enabled_skills launch) fun enabled => ?_
  refine Only.bind (only_look_through_links launch enabled) fun _ => ?_
  refine Only.ite (fun _ => Only.pure _) fun _ => ?_
  exact Only.bind (only_mkdir _) fun _ => only_link_skills launch (h hraw) _

/-! ## Launches -/

/-- The text of the profile can be encoded. -/
def Encodable (py : Python F) (launch : Launch) : Prop :=
  system_prompt launch ≠ [] → ∀ agent_name,
    agent_profile_name py (artifact_identity launch.config) = some agent_name →
    (encode_utf8 (profile_text agent_name (system_prompt launch))).isSome

/-- The staging directory, if there is one, is `/mnt/all-skills` or below it. -/
def Staged (launch : Launch) : Prop :=
  staging_raw launch ≠ [] → (pure_path (staging_raw launch)).at_or_below skills_staging = true

theorem only_reconcile_agent_profile (h : Encodable py launch) :
    Only (reconcile_agent_profile py launch) := by
  unfold reconcile_agent_profile
  cases hname : agent_profile_name py (artifact_identity launch.config) with
  | none => exact OnlyAdds.refl
  | some agent_name =>
    show Only (if system_prompt launch = [] then _ else _)
    refine Only.ite (fun _ => ?_) fun hprompt => ?_
    · exact Only.bind (only_remove_stale_profile _) fun _ => Only.pure _
    · refine Only.bind (only_reject_workspace_symlinks _) fun _ => ?_
      refine Only.bind (only_reject_user_profile _) fun _ => ?_
      refine Only.bind (only_mkdir _) fun _ => ?_
      refine Only.bind ?_ fun _ => Only.pure _
      exact only_write_text (agent_profile_name_starts hname) (h hprompt agent_name hname)

/-- **One launch.** A launch adds artifacts only, whether it raises or not. -/
theorem launched_adds (h : Encodable py launch) (hstaged : Staged launch)
    (workspace : Volume) : OnlyAdds workspace (launched py workspace launch) := by
  have honly : Only (prepare_workspace_artifacts py launch) := by
    refine Only.bind (only_reconcile_agent_profile h) fun _ => ?_
    exact Only.bind (only_reconcile_skill_links hstaged) fun _ => Only.pure _
  exact honly workspace

theorem launches_add {launches : List Launch}
    (h : ∀ launch ∈ launches, Encodable py launch ∧ Staged launch) (workspace : Volume) :
    OnlyAdds workspace (launches.foldl (launched py) workspace) := by
  induction launches generalizing workspace with
  | nil => exact OnlyAdds.refl workspace
  | cons launch launches ih =>
    obtain ⟨hencodable, hstaged⟩ := h launch List.mem_cons_self
    refine (launched_adds hencodable hstaged workspace).trans (ih ?_ _)
    intro other hother
    exact h other (List.mem_cons_of_mem launch hother)

/-! ## The copy of an entry -/

section Copy

variable {exclude : List (List Str)}

/-- **What is copied.** An entry is copied if neither it nor a directory above it is excluded. -/
theorem copied {entry : Volume} {path : List Str} (h : (entry.get path).exists = true) (target : Volume)
    (relative : List Str)
    (hkept : ∀ part, part <+: path → should_exclude exclude (entry.get part) (relative ++ part) = false) :
    ((copy_entry exclude entry target relative).get path).leaf = (entry.get path).leaf
      ∧ ((copy_entry exclude entry target relative).get path).is_dir = (entry.get path).is_dir := by
  induction path generalizing entry target relative with
  | nil =>
    have hentry : should_exclude exclude entry relative = false := by
      have hself := hkept [] List.nil_prefix
      rwa [List.append_nil] at hself
    cases entry with
    | nothing => cases h
    | file data | link link | dir child =>
      unfold copy_entry
      rw [hentry]
      exact ⟨rfl, rfl⟩
  | cons name path ih =>
    cases entry with
    | dir child =>
      have hentry : should_exclude exclude (.dir child) relative = false := by
        have hself := hkept [] List.nil_prefix
        rwa [List.append_nil] at hself
      unfold copy_entry
      rw [hentry]
      refine ih h (target.child name) (relative ++ [name]) ?_
      intro part hpart
      have hbelow := hkept (name :: part) ((List.prefix_cons_inj name).2 hpart)
      rwa [List.append_cons] at hbelow
    | _ =>
      rw [get_cons_of_not_dir rfl] at h
      cases h

/-- **What is absent.** A leaf that is excluded is not copied, and what the copy had in its place is
removed. -/
theorem absent {entry : Volume} {path : List Str} {leaf : Leaf (List UInt8) PurePath}
    (h : (entry.get path).leaf = some leaf) (target : Volume) (relative : List Str)
    (hexcluded : should_exclude exclude (of_leaf leaf) (relative ++ path) = true) :
    (copy_entry exclude entry target relative).get path = .nothing := by
  induction path generalizing entry target relative with
  | nil =>
    rw [List.append_nil] at hexcluded
    obtain rfl : entry = of_leaf leaf := leaf_eq_some_iff.1 h
    cases leaf with
    | file data =>
      show copy_entry exclude (.file data) target relative = .nothing
      unfold copy_entry
      exact if_pos hexcluded
    | link link =>
      show copy_entry exclude (.link link) target relative = .nothing
      unfold copy_entry
      exact if_pos hexcluded
  | cons name path ih =>
    cases entry with
    | dir child =>
      unfold copy_entry
      by_cases hentry : should_exclude exclude (.dir child) relative = true
      · rw [if_pos hentry, get_nothing]
      · rw [if_neg hentry]
        rw [List.append_cons] at hexcluded
        exact ih h (target.child name) (relative ++ [name]) hexcluded
    | _ =>
      rw [get_cons_of_not_dir rfl] at h
      cases h

/-- **Where leaves come from.** A leaf of the copy is one of the entry that is not excluded, or was
there. -/
theorem leaf_of_copy {entry target : Volume} {path relative : List Str} {leaf : Leaf (List UInt8) PurePath}
    (h : ((copy_entry exclude entry target relative).get path).leaf = some leaf) :
    should_exclude exclude (of_leaf leaf) (relative ++ path) = false ∨ (target.get path).leaf = some leaf := by
  induction path generalizing entry target relative with
  | nil =>
    rw [List.append_nil]
    have hcopy : copy_entry exclude entry target relative = of_leaf leaf := leaf_eq_some_iff.1 h
    unfold copy_entry at hcopy
    cases entry with
    | nothing => exact Or.inr (leaf_eq_some_iff.2 hcopy)
    | file data =>
      by_cases hexcluded : should_exclude exclude (.file data) relative = true
      · simp only [hexcluded, if_true] at hcopy
        cases leaf <;> cases hcopy
      · simp only [hexcluded] at hcopy
        rw [← hcopy]
        exact Or.inl (by simpa using hexcluded)
    | link link =>
      by_cases hexcluded : should_exclude exclude (.link link) relative = true
      · simp only [hexcluded, if_true] at hcopy
        cases leaf <;> cases hcopy
      · simp only [hexcluded] at hcopy
        rw [← hcopy]
        exact Or.inl (by simpa using hexcluded)
    | dir child =>
      by_cases hexcluded : should_exclude exclude (.dir child) relative = true
      · simp only [hexcluded, if_true] at hcopy
        cases leaf <;> cases hcopy
      · simp only [hexcluded] at hcopy
        cases leaf <;> cases hcopy
  | cons name path ih =>
    cases entry with
    | nothing => exact Or.inr h
    | file data | link link =>
      rw [get_cons_of_not_dir] at h
      · cases h
      · unfold copy_entry
        split <;> rfl
    | dir child =>
      unfold copy_entry at h
      by_cases hexcluded : should_exclude exclude (.dir child) relative = true
      · rw [if_pos hexcluded, get_nothing] at h
        cases h
      · rw [if_neg hexcluded] at h
        rw [List.append_cons]
        exact ih h

end Copy

/-! ## The saved workspace before the copy -/

theorem excluded_of_artifact (exclude : List (List Str)) (h : Artifact path leaf) :
    should_exclude exclude (of_leaf leaf) path = true := by
  unfold should_exclude
  rw [if_pos h.1]
  exact h.2

theorem managed_path (h : is_managed_artifact_path path = true) :
    ∃ name, path = profile_dir ++ [name] ∨ path = skills_dir ++ [name] := by
  unfold is_managed_artifact_path at h
  simp only [Bool.and_eq_true, Bool.or_eq_true, beq_iff_eq] at h
  obtain ⟨hlength, hdir⟩ := h
  obtain ⟨a, b, name, rfl⟩ := List.length_eq_three.1 hlength
  refine ⟨name, ?_⟩
  rcases hdir with hskills | ⟨hprofile, -⟩
  · refine Or.inr ?_
    rw [← hskills]
    rfl
  · refine Or.inl ?_
    rw [← hprofile]
    rfl

/-- What is left of a directory of artifacts: what was there, without the artifacts in it. -/
theorem leaf_remove_owned_from {relative_dir path : List Str} {root : Volume}
    (h : ((remove_owned_from relative_dir root).get path).leaf = some leaf) :
    (root.get path).leaf = some leaf
      ∧ ∀ name, path = relative_dir ++ [name] → ¬Artifact path leaf := by
  unfold remove_owned_from at h
  cases hdir : root.get relative_dir with
  | dir child =>
    simp only [hdir] at h
    by_cases hstart : relative_dir <+: path
    · obtain ⟨rest, rfl⟩ := hstart
      have hput := leaf_get_put_append h
      cases rest with
      | nil => cases hput
      | cons first rest =>
        rw [get_cons, child_dir] at hput
        have hbefore : root.get (relative_dir ++ first :: rest) = (child first).get rest := by
          rw [get_append, hdir]
          rfl
        split at hput
        · rw [get_nothing] at hput
          cases hput
        · next hkept =>
            refine ⟨by rw [hbefore]; exact hput, ?_⟩
            intro name heq hartifact
            obtain ⟨rfl, rfl⟩ := List.cons.inj (List.append_cancel_left heq)
            have hchild : child first = of_leaf leaf := leaf_eq_some_iff.1 hput
            refine hkept ?_
            rw [hchild]
            exact Bool.and_eq_true_iff.2 hartifact
    · rw [leaf_get_put_elsewhere hstart] at h
      refine ⟨h, ?_⟩
      intro name heq
      exact absurd ⟨[name], heq.symm⟩ hstart
  | _ =>
    simp only [hdir] at h
    refine ⟨h, ?_⟩
    rintro name rfl
    rw [get_append, hdir, get_cons_of_not_dir rfl] at h
    cases h

theorem leaf_remove_owned_artifacts {root : Volume}
    (h : ((remove_owned_artifacts root).get path).leaf = some leaf) :
    (root.get path).leaf = some leaf ∧ ¬Artifact path leaf := by
  obtain ⟨hprofile, hskills⟩ := leaf_remove_owned_from h
  obtain ⟨hbefore, hprofiles⟩ := leaf_remove_owned_from hprofile
  refine ⟨hbefore, ?_⟩
  intro hartifact
  obtain ⟨name, hpath | hpath⟩ := managed_path hartifact.1
  · exact hprofiles name hpath hartifact
  · exact hskills name hpath hartifact

/-- What is left when something may have been removed was there. -/
theorem leaf_of_removed {p : Prop} [Decidable p] {dest : Volume} {first path : List Str}
    (h : ((if p then dest.put first .nothing else dest).get path).leaf = some leaf) :
    (dest.get path).leaf = some leaf := by
  split at h
  · rcases leaf_get_put rfl h with ⟨-, hnothing⟩ | hbefore
    · cases hnothing
    · exact hbefore
  · exact h

theorem leaf_remove_excluded {exclude paths : List (List Str)} {source dest dest' : Volume}
    (h : remove_excluded exclude source paths dest = some dest') (hleaf : (dest'.get path).leaf = some leaf) :
    (dest.get path).leaf = some leaf := by
  induction paths generalizing dest with
  | nil =>
    obtain rfl := Option.some.inj h
    exact hleaf
  | cons first paths ih =>
    unfold remove_excluded at h
    obtain ⟨-, h⟩ := Option.ite_none_left_eq_some.1 h
    exact leaf_of_removed (ih h)

/-- **No artifact is saved**: not one of the workspace, and not one that the saved workspace had. -/
theorem no_artifact_in_copy {exclude_paths : List Str} {source dest copy : Volume}
    (h : snapshot exclude_paths source dest = some copy) (hleaf : (copy.get path).leaf = some leaf) :
      ¬Artifact path leaf := by
  unfold snapshot at h
  obtain ⟨exclude, -, h⟩ := Option.bind_eq_some_iff.1 h
  obtain ⟨dest', hremoved, h⟩ := Option.bind_eq_some_iff.1 h
  obtain rfl := Option.some.inj h
  cases path with
  | nil => cases hleaf
  | cons name path =>
    rcases leaf_of_copy hleaf with hkept | hbefore
    · intro hartifact
      have hexcluded := excluded_of_artifact exclude hartifact
      rw [show [name] ++ path = name :: path from rfl, hexcluded] at hkept
      cases hkept
    · have hsaved : (dest'.get (name :: path)).leaf = some leaf := hbefore
      exact (leaf_remove_owned_artifacts (leaf_remove_excluded hremoved hsaved)).2

/-! ## The script ends -/

/-- A volume has no link that another does not have. -/
def NoNewLinks (s t : Volume) : Prop := ∀ path, (t.get path).is_link = true → (s.get path).is_link = true

theorem no_symlink_ancestor {s t : Volume} (h : NoNewLinks s t)
    (hpath : has_symlink_ancestor s path = false) : has_symlink_ancestor t path = false := by
  unfold has_symlink_ancestor at hpath ⊢
  rw [List.any_eq_false] at hpath ⊢
  intro part hpart hlink
  exact hpath part hpart (h part hlink)

theorem is_link_iff {t : Volume} : t.is_link = true ↔ ∃ link, t.leaf = some (.link link) := by
  cases t with
  | link link => simp [Files.is_link, Files.leaf]
  | _ => simp [Files.is_link, Files.leaf]

theorem noNewLinks_of_leaves {s t : Volume}
    (h : ∀ path leaf, (t.get path).leaf = some leaf → (s.get path).leaf = some leaf) : NoNewLinks s t := by
  intro path hlink
  obtain ⟨link, hleaf⟩ := is_link_iff.1 hlink
  exact is_link_iff.2 ⟨link, h path _ hleaf⟩

theorem remove_excluded_isSome (exclude : List (List Str)) {paths : List (List Str)} {source dest : Volume}
    (hsource : ∀ path ∈ paths, has_symlink_ancestor source path = false)
    (hdest : ∀ path ∈ paths, has_symlink_ancestor dest path = false) :
    ∃ dest', remove_excluded exclude source paths dest = some dest' := by
  induction paths generalizing dest with
  | nil => exact ⟨dest, rfl⟩
  | cons first paths ih =>
    have hfirst : ¬(has_symlink_ancestor source first || has_symlink_ancestor dest first) = true := by
      rw [hsource first List.mem_cons_self, hdest first List.mem_cons_self]
      decide
    unfold remove_excluded
    rw [if_neg hfirst]
    refine ih (fun path hpath => hsource path (List.mem_cons_of_mem first hpath)) ?_
    intro path hpath
    refine no_symlink_ancestor (noNewLinks_of_leaves ?_) (hdest path (List.mem_cons_of_mem first hpath))
    intro other leaf hleaf
    exact leaf_of_removed hleaf

/-! ## The excluded paths of the service -/

/-- The name of one entry of a directory. -/
structure IsName (name : Str) : Prop where
  nonempty : name ≠ []
  no_dot : name ≠ str "."
  no_dots : name ≠ str ".."
  no_slash : slash ∉ name
  no_backslash : (92 : Fin 0x110000) ∉ name

/-- The ids that the service writes into excluded paths. -/
structure ValidIds (mounts skills : List Str) (session_id : Option Str) : Prop where
  mounts : ∀ mount ∈ mounts, IsName mount ∧ mount ≠ str ".github"
  skills : ∀ skill ∈ skills, IsName skill
  session : ∀ id, session_id = some id → IsName id

/-- The paths that these are. -/
def excluded (mounts skills : List Str) (session_id : Option Str) : List (List Str) :=
  (mounts ++ [str ".agents"]).map (fun mount => [mount])
    ++ (session_id.map fun id => profile_dir ++ [str "agentspace-" ++ id ++ str ".agent.md"]).toList
    ++ skills.map fun skill => skills_dir ++ [skill]

theorem isName_append {first last : Str} (hfirst : first ≠ [] ∧ first.head? ≠ (str ".").head?)
    (hslash : slash ∉ first ++ last) (hbackslash : (92 : Fin 0x110000) ∉ first ++ last) :
    IsName (first ++ last) := by
  have hhead : (first ++ last).head? = first.head? := by
    cases first with
    | nil => exact absurd rfl hfirst.1
    | cons c first => rfl
  refine ⟨?_, ?_, ?_, hslash, hbackslash⟩
  · intro hnil
    exact hfirst.1 (List.append_eq_nil_iff.1 hnil).1
  · intro hdot
    exact hfirst.2 (by rw [← hhead, hdot])
  · intro hdots
    exact hfirst.2 (by rw [← hhead, hdots]; rfl)

theorem mem_intercalate {c : Fin 0x110000} {parts : List Str} (h : c ∈ [slash].intercalate parts) :
    c = slash ∨ ∃ part ∈ parts, c ∈ part := by
  induction parts with
  | nil => cases h
  | cons part parts ih =>
    cases parts with
    | nil =>
      rw [List.intercalate_singleton] at h
      exact Or.inr ⟨part, List.mem_cons_self, h⟩
    | cons second parts =>
      rw [List.intercalate_cons_cons] at h
      simp only [List.mem_append, List.mem_singleton] at h
      rcases h with (hpart | hslash) | hrest
      · exact Or.inr ⟨part, List.mem_cons_self, hpart⟩
      · exact Or.inl hslash
      · rcases ih hrest with hslash | ⟨other, hother, hmem⟩
        · exact Or.inl hslash
        · exact Or.inr ⟨other, List.mem_cons_of_mem part hother, hmem⟩

theorem intercalate_three (a b c : Str) :
    [slash].intercalate ([a, b] ++ [c]) = a ++ [slash] ++ (b ++ [slash] ++ c) := by
  show [slash].intercalate [a, b, c] = _
  rw [List.intercalate_cons_cons, List.intercalate_cons_cons, List.intercalate_singleton]

theorem validated_of_names {parts : List Str} (hne : parts ≠ []) (h : ∀ part ∈ parts, IsName part) :
    validated_relative_path ([slash].intercalate parts) = some parts := by
  have hparts : ([slash].intercalate parts).splitOn slash = parts :=
    List.splitOn_intercalate slash (fun part hpart => (h part hpart).no_slash) hne
  unfold validated_relative_path
  simp only [hparts]
  rw [if_neg]
  rintro (hnil | hbackslash | hbad)
  · rw [hnil] at hparts
    exact (h [] (by rw [← hparts]; exact List.mem_singleton_self [])).nonempty rfl
  · rcases mem_intercalate hbackslash with hslash | ⟨part, hpart, hmem⟩
    · exact absurd hslash (by decide)
    · exact (h part hpart).no_backslash hmem
  · obtain ⟨part, hpart, hwrong⟩ := List.any_eq_true.1 hbad
    simp only [Bool.or_eq_true, List.isEmpty_iff, beq_iff_eq] at hwrong
    rcases hwrong with (hempty | hdot) | hdots
    · exact (h part hpart).nonempty hempty
    · exact (h part hpart).no_dot hdot
    · exact (h part hpart).no_dots hdots

theorem mapM_validated {paths : List (List Str)} (h : ∀ path ∈ paths, path ≠ [] ∧ ∀ part ∈ path, IsName part) :
    (paths.map [slash].intercalate).mapM validated_relative_path = some paths := by
  induction paths with
  | nil => rfl
  | cons path paths ih =>
    obtain ⟨hne, hnames⟩ := h path List.mem_cons_self
    have hrest := ih fun other hother => h other (List.mem_cons_of_mem path hother)
    rw [List.map_cons, List.mapM_cons, validated_of_names hne hnames, hrest]
    rfl

theorem isName_literal {name : Str} (h : name ≠ [] ∧ name ≠ str "." ∧ name ≠ str ".." ∧ slash ∉ name
    ∧ (92 : Fin 0x110000) ∉ name) : IsName name :=
  ⟨h.1, h.2.1, h.2.2.1, h.2.2.2.1, h.2.2.2.2⟩

section Excluded

variable {mounts skills : List Str} {session_id : Option Str}

theorem names_of_excluded (h : ValidIds mounts skills session_id) :
    ∀ path ∈ excluded mounts skills session_id, path ≠ [] ∧ ∀ part ∈ path, IsName part := by
  have hgithub : IsName (str ".github") := isName_literal (by decide)
  intro path hpath
  rcases List.mem_append.1 hpath with hpath | hskill
  · rcases List.mem_append.1 hpath with hmount | hprofile
    · obtain ⟨mount, hmem, rfl⟩ := List.mem_map.1 hmount
      refine ⟨List.cons_ne_nil _ _, ?_⟩
      intro part hpart
      obtain rfl := List.mem_singleton.1 hpart
      rcases List.mem_append.1 hmem with hmem | hagents
      · exact (h.mounts part hmem).1
      · obtain rfl := List.mem_singleton.1 hagents
        exact isName_literal (by decide)
    · obtain ⟨id, hid, rfl⟩ := Option.map_eq_some_iff.1 (Option.mem_toList.1 hprofile)
      refine ⟨List.cons_ne_nil _ _, ?_⟩
      intro part hpart
      simp only [profile_dir, List.cons_append, List.nil_append, List.mem_cons, List.not_mem_nil,
        or_false] at hpart
      rcases hpart with rfl | rfl | rfl
      · exact hgithub
      · exact isName_literal (by decide)
      · have hid' := h.session id hid
        rw [List.append_assoc]
        refine isName_append (by decide) ?_ ?_
        · simp only [List.mem_append, not_or]
          exact ⟨by decide, hid'.no_slash, by decide⟩
        · simp only [List.mem_append, not_or]
          exact ⟨by decide, hid'.no_backslash, by decide⟩
  · obtain ⟨skill, hmem, rfl⟩ := List.mem_map.1 hskill
    refine ⟨List.cons_ne_nil _ _, ?_⟩
    intro part hpart
    simp only [skills_dir, List.cons_append, List.nil_append, List.mem_cons, List.not_mem_nil,
      or_false] at hpart
    rcases hpart with rfl | rfl | rfl
    · exact hgithub
    · exact isName_literal (by decide)
    · exact h.skills _ hmem

/-- The script accepts the paths of the service. -/
theorem mapM_session_workspace_exclude_paths (h : ValidIds mounts skills session_id) :
    (session_workspace_exclude_paths mounts skills session_id).mapM validated_relative_path
      = some (excluded mounts skills session_id) := by
  have hpaths : session_workspace_exclude_paths mounts skills session_id
      = (excluded mounts skills session_id).map [slash].intercalate := by
    unfold session_workspace_exclude_paths excluded
    rw [List.map_append, List.map_append, List.map_map, List.map_map]
    congr 1
    · congr 1
      · refine ((List.map_id _).symm.trans ?_)
        refine List.map_congr_left fun mount _ => ?_
        exact (List.intercalate_singleton).symm
      · cases session_id with
        | none => rfl
        | some id =>
          show [_] = [[slash].intercalate (profile_dir ++ [str "agentspace-" ++ id ++ str ".agent.md"])]
          unfold profile_dir
          rw [intercalate_three]
          rfl
    · refine List.map_congr_left fun skill _ => ?_
      show _ = [slash].intercalate (skills_dir ++ [skill])
      unfold skills_dir
      rw [intercalate_three]
      rfl
  rw [hpaths, mapM_validated (names_of_excluded h)]

/-- Below `.github`, the service excludes artifacts only. -/
theorem managed_of_excluded (h : ValidIds mounts skills session_id) {path : List Str}
    (hpath : path ∈ excluded mounts skills session_id) (hgithub : path.head? = some (str ".github")) :
    is_managed_artifact_path path = true := by
  rcases List.mem_append.1 hpath with hpath | hskill
  · rcases List.mem_append.1 hpath with hmount | hprofile
    · obtain ⟨mount, hmem, rfl⟩ := List.mem_map.1 hmount
      obtain rfl : mount = str ".github" := Option.some.inj hgithub
      rcases List.mem_append.1 hmem with hmem | hagents
      · exact absurd rfl (h.mounts _ hmem).2
      · exact absurd (List.mem_singleton.1 hagents) (by decide)
    · obtain ⟨id, -, rfl⟩ := Option.map_eq_some_iff.1 (Option.mem_toList.1 hprofile)
      exact is_managed_profile (List.prefix_append _ _)
  · obtain ⟨skill, -, rfl⟩ := List.mem_map.1 hskill
    exact is_managed_link skill

/-- **What is kept.** An entry below `.github` that is no artifact is not excluded. -/
theorem not_excluded (h : ValidIds mounts skills session_id) {entry : Volume} {path : List Str}
    (hgithub : path.head? = some (str ".github"))
    (hentry : ∀ leaf, entry.leaf = some leaf → ¬Artifact path leaf) :
    should_exclude (excluded mounts skills session_id) entry path = false := by
  unfold should_exclude
  cases hmanaged : is_managed_artifact_path path with
  | true =>
    rw [if_pos rfl]
    cases hleaf : entry.leaf with
    | none =>
      unfold is_owned_artifact
      cases entry with
      | file data | link link => cases hleaf
      | nothing | dir child => split <;> [rfl; split <;> rfl]
    | some leaf =>
      by_contra howned
      refine hentry leaf hleaf ⟨hmanaged, ?_⟩
      rw [← leaf_eq_some_iff.1 hleaf]
      simpa using howned
  | false =>
    rw [if_neg Bool.false_ne_true]
    by_contra hcontains
    have hmem : path ∈ excluded mounts skills session_id := by simpa using hcontains
    rw [managed_of_excluded h hmem hgithub] at hmanaged
    cases hmanaged

end Excluded

/-! ## Saving a workspace -/

/-- What is expected of a saved copy of a workspace that launches have worked on. -/
structure Saved (exclude : List (List Str)) (before workspace copy : Volume) : Prop where
  /-- What the launches have put there is recognised, and not saved. -/
  absent : ∀ path leaf, (workspace.get path).leaf = some leaf → (before.get path).leaf ≠ some leaf →
    should_exclude exclude (of_leaf leaf) path = true ∧ copy.get path = .nothing
  /-- No artifact of an earlier copy is left. -/
  clean : ∀ path leaf, (copy.get path).leaf = some leaf → ¬Artifact path leaf
  /-- What is below `.github` otherwise is saved as it is. -/
  copied : ∀ path, path.head? = some (str ".github") → (workspace.get path).exists = true →
    (∀ leaf, (workspace.get path).leaf = some leaf → ¬Artifact path leaf) →
    (copy.get path).leaf = (workspace.get path).leaf ∧ (copy.get path).is_dir = (workspace.get path).is_dir

/-- **Saving.** Behind any launches whose profiles can be encoded, the workspace is saved without
their artifacts, and with everything else below `.github`; the script refuses only where an excluded
path leads through a link. -/
theorem saved_workspace {launches : List Launch} {mounts skills : List Str} {session_id : Option Str}
    {before dest : Volume} (hlaunches : ∀ launch ∈ launches, Encodable py launch ∧ Staged launch)
    (hids : ValidIds mounts skills session_id) (hsource : ∀ path ∈ excluded mounts skills session_id,
      has_symlink_ancestor (launches.foldl (launched py) before) path = false)
    (hdest : ∀ path ∈ excluded mounts skills session_id, has_symlink_ancestor dest path = false) :
    ∃ copy, snapshot (session_workspace_exclude_paths mounts skills session_id)
        (launches.foldl (launched py) before) dest = some copy
      ∧ Saved (excluded mounts skills session_id) before (launches.foldl (launched py) before) copy := by
  have hclean : ∀ path ∈ excluded mounts skills session_id,
      has_symlink_ancestor (remove_owned_artifacts dest) path = false := by
    intro path hpath
    refine no_symlink_ancestor (noNewLinks_of_leaves ?_) (hdest path hpath)
    intro other leaf hleaf
    exact (leaf_remove_owned_artifacts hleaf).1
  have hadded := launches_add hlaunches before
  generalize launches.foldl (launched py) before = workspace at hsource hadded ⊢
  obtain ⟨dest', hremoved⟩ := remove_excluded_isSome (excluded mounts skills session_id) hsource hclean
  have hsnapshot : snapshot (session_workspace_exclude_paths mounts skills session_id) workspace dest
      = some (copy_entries (excluded mounts skills session_id) workspace dest') := by
    unfold snapshot
    rw [mapM_session_workspace_exclude_paths hids]
    show (remove_excluded _ workspace _ (remove_owned_artifacts dest)).bind _ = _
    rw [hremoved]
    rfl
  refine ⟨_, hsnapshot, ?_, fun path leaf => no_artifact_in_copy hsnapshot, ?_⟩
  · intro path leaf hleaf hnew
    rcases hadded path leaf hleaf with hartifact | hold
    · refine ⟨excluded_of_artifact _ hartifact, ?_⟩
      cases path with
      | nil => cases hartifact.1
      | cons name path =>
        have hchild : ((workspace.child name).get path).leaf = some leaf := hleaf
        exact absent hchild (dest'.child name) [name] (excluded_of_artifact _ hartifact)
    · exact absurd hold hnew
  · intro path hgithub hexists hkept
    cases path with
    | nil => cases hgithub
    | cons name path =>
      have hchild : ((workspace.child name).get path).exists = true := hexists
      refine copied hchild (dest'.child name) [name] ?_
      intro part hpart
      refine not_excluded hids hgithub ?_
      intro leaf hleaf
      obtain ⟨rest, rfl⟩ := hpart
      cases rest with
      | nil =>
        rw [List.append_nil] at hkept
        exact hkept leaf hleaf
      | cons next rest =>
        -- nothing lies below a leaf
        rw [get_append, get_cons_of_not_dir (not_dir_of_leaf hleaf)] at hchild
        cases hchild

/-! ## Two launches -/

/-- A library that is asked for a text in small letters. -/
def small_letters : Python Unit where
  loads _ := .malformed
  dumps _ := []
  dumps_compact _ := []
  str_of _ := []
  is_zero _ := false
  is_uuid _ := true
  lower text := text
  sha256_hexdigest _ := []

/-- A launch of a session with a prompt. -/
def launch_with (prompt : Str) : Launch where
  config := {
    session_id := str "s1"
    env := { env := [(str "KERNEL_SYSTEM_PROMPT", prompt),
      (str "KERNEL_SKILLS_STAGING_DIR", str "/mnt/all-skills")],
             session_id := none, additional_paths := [] }
    workspace_dir := str "/workspace" }
  staged := some [str "alpha"]
  stale_points_into _ := true
  link_points_into _ := true

/-- What a launch with a prompt has made is not saved. -/
theorem prompt_is_not_saved : ∃ copy,
    snapshot (session_workspace_exclude_paths [] [str "alpha"] (some (str "s1")))
        ([launch_with (str "Hi")].foldl (launched small_letters) Files.empty) Files.empty = some copy
      ∧ Saved (excluded [] [str "alpha"] (some (str "s1"))) Files.empty
        ([launch_with (str "Hi")].foldl (launched small_letters) Files.empty) copy := by
  refine saved_workspace ?_ ⟨?_, ?_, ?_⟩ (by decide) (by decide)
  · intro launch hlaunch
    obtain rfl := List.mem_singleton.1 hlaunch
    refine ⟨?_, fun _ => by decide⟩
    intro _ agent_name hname
    obtain rfl : str "agentspace-s1" = agent_name := Option.some.inj hname
    decide
  · intro mount hmount
    cases hmount
  · intro skill hskill
    obtain rfl := List.mem_singleton.1 hskill
    exact isName_literal (by decide)
  · intro id hid
    obtain rfl : str "s1" = id := Option.some.inj hid
    exact isName_literal (by decide)

/-- A prompt with a byte that was no UTF-8 leaves an empty profile, which is saved. -/
theorem unencodable_prompt_is_saved : Staged (launch_with [0xDCE9]) ∧ ∃ copy,
    snapshot (session_workspace_exclude_paths [] [] (some (str "s1")))
        ([launch_with [0xDCE9]].foldl (launched small_letters) Files.empty) Files.empty = some copy
      ∧ ¬Saved (excluded [] [] (some (str "s1"))) Files.empty
        ([launch_with [0xDCE9]].foldl (launched small_letters) Files.empty) copy := by
  refine ⟨fun _ => by decide, _, rfl, ?_⟩
  intro hsaved
  have habsent := hsaved.absent (profile_path (str "agentspace-s1")) (.file []) (by decide) (by decide)
  exact absurd habsent.1 (by decide)

end AgentSpace.Artifacts
