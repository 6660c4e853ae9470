/-
The two validators of excluded paths: that of the service, and that of the snapshot script.

The service looks at the components of a path, as `std::path` takes it apart, where a `.`
counts only at the beginning; the script looks at the pieces between the slashes.
-/
import AgentSpace.Artifacts.Snapshot

set_option autoImplicit false

namespace AgentSpace.Artifacts

open Telemetry (Str str)

/-! ## The validator of the service -/

/-- `std::path::Component`. -/
inductive Component where
  | RootDir
  | CurDir
  | ParentDir
  | Normal (name : Str)
  deriving DecidableEq

/-- `is_absolute`. -/
def is_absolute (path : Str) : Bool := path.head? = some slash

/-- What the first component is, if it is not a name. -/
def first_component (path : Str) : List Component :=
  if is_absolute path then [.RootDir]
  else if (path.splitOn slash).head? = some (str ".") then [.CurDir]
  else []

/-- `components`. -/
def components (path : Str) : List Component :=
  first_component path
    ++ ((path.splitOn slash).filter fun part => !part.isEmpty && part != str ".").map fun part =>
      if part = str ".." then .ParentDir else .Normal part

/-- `matches!(component, Component::Normal(_))`. -/
def Component.is_normal : Component → Bool
  | .Normal _ => true
  | _ => false

/-- `valid`. -/
def valid_exclude_path (path : Str) : Bool :=
  !path.isEmpty && !path.contains 92 && !path.contains 0 && !is_absolute path
    && (components path).all Component.is_normal && (path.splitOn slash).all fun component => !component.isEmpty

/-- The loop of `validate_relative_exclude_paths`, with the paths it has seen. `debug` is how a path
is written. -/
def validate_from (debug : Str → Str) : List Str → List Str → Except Str (List Str)
  | validated, [] => .ok validated
  | validated, path :: paths =>
    if valid_exclude_path path then
      validate_from debug (if path ∈ validated then validated else validated ++ [path]) paths
    else
      .error (str "exclude_paths entries must be normalized relative paths without traversal: " ++ debug path)

/-- `validate_relative_exclude_paths`. -/
def validate_relative_exclude_paths (debug : Str → Str) (paths : List Str) : Except Str (List Str) :=
  validate_from debug [] paths

/-! ## What each of them accepts -/

/-- What both of them ask of a path. -/
structure Proper (path : Str) : Prop where
  nonempty : path ≠ []
  no_backslash : 92 ∉ path
  pieces : ∀ part ∈ path.splitOn slash, part ≠ [] ∧ part ≠ str ".."
  begins : (path.splitOn slash).head? ≠ some (str ".")

variable {path : Str}

theorem nil_mem_of_absolute (h : is_absolute path = true) : [] ∈ path.splitOn slash := by
  obtain ⟨rest, rfl⟩ := List.head?_eq_some_iff.1 (of_decide_eq_true h)
  have hsplit := List.splitOn_append_cons_self_of_not_mem (List.not_mem_nil : slash ∉ ([] : Str)) rest
  rw [List.nil_append] at hsplit
  rw [hsplit]
  exact List.mem_cons_self

theorem normal_components_iff (habsolute : is_absolute path = false) :
    (components path).all Component.is_normal = true
      ↔ str ".." ∉ path.splitOn slash ∧ (path.splitOn slash).head? ≠ some (str ".") := by
  have hfirst : (first_component path).all Component.is_normal = true
      ↔ (path.splitOn slash).head? ≠ some (str ".") := by
    rw [first_component, habsolute, if_neg Bool.false_ne_true]
    split
    · rename_i h
      simp [h, Component.is_normal]
    · rename_i h
      simp [h]
  have hrest : (((path.splitOn slash).filter fun part => !part.isEmpty && part != str ".").map fun part =>
      if part = str ".." then Component.ParentDir else .Normal part).all Component.is_normal = true
      ↔ str ".." ∉ path.splitOn slash := by
    rw [List.all_eq_true, List.forall_mem_map]
    constructor
    · intro h hmem
      have hwrong := h (str "..") (List.mem_filter.2 ⟨hmem, by decide⟩)
      rw [if_pos rfl] at hwrong
      cases hwrong
    · intro h part hpart
      have hne : part ≠ str ".." := by
        rintro rfl
        exact h (List.mem_filter.1 hpart).1
      rw [if_neg hne]
      rfl
  rw [components, List.all_append, Bool.and_eq_true, hfirst, hrest, and_comm]

theorem valid_exclude_path_iff : valid_exclude_path path = true ↔ Proper path ∧ 0 ∉ path := by
  unfold valid_exclude_path
  simp only [Bool.and_eq_true, Bool.not_eq_true', List.isEmpty_eq_false_iff, List.all_eq_true,
    List.contains_eq_mem, decide_eq_false_iff_not]
  constructor
  · rintro ⟨⟨⟨⟨⟨hne, hback⟩, hnul⟩, habsolute⟩, hnormal⟩, hparts⟩
    obtain ⟨hup, hbegin⟩ := (normal_components_iff habsolute).1 (List.all_eq_true.2 hnormal)
    exact ⟨⟨hne, hback, fun part hpart => ⟨hparts part hpart, fun heq => hup (heq ▸ hpart)⟩, hbegin⟩, hnul⟩
  · rintro ⟨⟨hne, hback, hparts, hbegin⟩, hnul⟩
    have habsolute : is_absolute path = false := by
      rw [← Bool.not_eq_true]
      exact fun h => (hparts [] (nil_mem_of_absolute h)).1 rfl
    exact ⟨⟨⟨⟨⟨hne, hback⟩, hnul⟩, habsolute⟩, List.all_eq_true.1 ((normal_components_iff habsolute).2
      ⟨fun hup => (hparts _ hup).2 rfl, hbegin⟩)⟩, fun part hpart => (hparts part hpart).1⟩

theorem validated_relative_path_iff :
    (validated_relative_path path).isSome = true ↔ Proper path ∧ str "." ∉ path.splitOn slash := by
  have hany : (path.splitOn slash).any (fun part => part.isEmpty || part == str "." || part == str "..") = true
      ↔ ∃ part ∈ path.splitOn slash, part = [] ∨ part = str "." ∨ part = str ".." := by
    simp only [List.any_eq_true, Bool.or_eq_true, List.isEmpty_iff, beq_iff_eq, or_assoc]
  unfold validated_relative_path
  simp only [hany]
  constructor
  · intro h
    split at h
    · cases h
    · rename_i hgood
      rw [not_or, not_or] at hgood
      obtain ⟨hne, hback, hparts⟩ := hgood
      have hpart : ∀ part ∈ path.splitOn slash, part ≠ [] ∧ part ≠ str "." ∧ part ≠ str ".." := by
        intro part hmem
        refine ⟨fun heq => hparts ⟨part, hmem, Or.inl heq⟩, fun heq => hparts ⟨part, hmem, Or.inr (Or.inl heq)⟩,
          fun heq => hparts ⟨part, hmem, Or.inr (Or.inr heq)⟩⟩
      exact ⟨⟨hne, hback, fun part hmem => ⟨(hpart part hmem).1, (hpart part hmem).2.2⟩,
        fun hhead => (hpart _ (List.mem_of_mem_head? hhead)).2.1 rfl⟩, fun hdot => (hpart _ hdot).2.1 rfl⟩
  · rintro ⟨⟨hne, hback, hparts, -⟩, hdot⟩
    rw [if_neg]
    · rfl
    · rintro (hnil | hmem | ⟨part, hpart, hempty | hone | htwo⟩)
      · exact hne hnil
      · exact hback hmem
      · exact (hparts part hpart).1 hempty
      · exact hdot (hone ▸ hpart)
      · exact (hparts part hpart).2 htwo

/-! ## Requests -/

/-- The service accepts the path. -/
def Accepts (debug : Str → Str) (path : Str) : Prop :=
  ∃ validated, validate_relative_exclude_paths debug [path] = .ok validated

/-- The two validators agree on the paths of a request, so that the script accepts what the service
passes on. -/
structure Agreeing (debug : Str → Str) (paths : List Str) : Prop where
  same : ∀ path ∈ paths, Accepts debug path ↔ (validated_relative_path path).isSome
  passes : ∀ validated, validate_relative_exclude_paths debug paths = .ok validated →
    (validated.mapM validated_relative_path).isSome

theorem accepts_iff {debug : Str → Str} : Accepts debug path ↔ valid_exclude_path path = true := by
  unfold Accepts validate_relative_exclude_paths
  rw [validate_from]
  by_cases h : valid_exclude_path path = true
  · rw [if_pos h]
    exact iff_of_true ⟨_, rfl⟩ h
  · rw [if_neg h]
    refine iff_of_false ?_ h
    rintro ⟨validated, ⟨⟩⟩

/-- What the service passes on is what it was given, and valid. -/
theorem validated_of_validate {debug : Str → Str} {paths validated result : List Str}
    (h : validate_from debug validated paths = .ok result) :
    ∀ path ∈ result, path ∈ validated ∨ (path ∈ paths ∧ valid_exclude_path path = true) := by
  induction paths generalizing validated with
  | nil =>
    obtain rfl := Except.ok.inj h
    exact fun path hpath => Or.inl hpath
  | cons first paths ih =>
    rw [validate_from] at h
    split at h
    · rename_i hvalid
      intro path hpath
      rcases ih h path hpath with hseen | ⟨hmem, hpath⟩
      · split at hseen
        · exact Or.inl hseen
        · rcases List.mem_append.1 hseen with hseen | hnew
          · exact Or.inl hseen
          · obtain rfl := List.mem_singleton.1 hnew
            exact Or.inr ⟨List.mem_cons_self, hvalid⟩
      · exact Or.inr ⟨List.mem_cons_of_mem _ hmem, hpath⟩
    · cases h

theorem mapM_isSome {α β : Type} {f : α → Option β} {items : List α} (h : ∀ a ∈ items, (f a).isSome) :
    (items.mapM f).isSome := by
  induction items with
  | nil => rfl
  | cons a items ih =>
    obtain ⟨hfirst, hrest⟩ := List.forall_mem_cons.1 h
    obtain ⟨b, hb⟩ := Option.isSome_iff_exists.1 hfirst
    obtain ⟨bs, hbs⟩ := Option.isSome_iff_exists.1 (ih hrest)
    rw [List.mapM_cons, hb, hbs]
    rfl

/-- **The two validators agree** on the paths of a request if and only if each of them that both could
accept holds a NUL exactly when one of its pieces is `.`. -/
theorem validators_agree_iff (debug : Str → Str) (paths : List Str) :
    Agreeing debug paths
      ↔ ∀ path ∈ paths, Proper path → (0 ∈ path ↔ str "." ∈ path.splitOn slash) := by
  have hsame : ∀ path, (Accepts debug path ↔ (validated_relative_path path).isSome = true)
      ↔ (Proper path → (0 ∈ path ↔ str "." ∈ path.splitOn slash)) := by
    intro path
    rw [accepts_iff, valid_exclude_path_iff, validated_relative_path_iff, and_congr_right_iff, not_iff_not]
  constructor
  · exact fun h path hpath => (hsame path).1 (h.same path hpath)
  · intro h
    refine ⟨fun path hpath => (hsame path).2 (h path hpath), fun validated hvalidated => mapM_isSome ?_⟩
    intro path hpath
    rcases validated_of_validate hvalidated path hpath with hseen | ⟨hmem, hvalid⟩
    · cases hseen
    · exact ((hsame path).2 (h path hmem)).1 (accepts_iff.2 hvalid)

/-- The service passes on a path that ends the script. -/
theorem final_dot_is_passed_on : ¬∀ (debug : Str → Str) (paths : List Str), Agreeing debug paths := by
  intro h
  have hpasses := (h id [str "a/."]).passes [str "a/."] (by decide +kernel)
  revert hpasses
  decide +kernel

end AgentSpace.Artifacts
