/-
A tree of files and directories, and the operations on it.

A path is the list of its names below the root. What the operating system takes as
a path is a parameter (`accepts`): it refuses names that are too long or have a
null byte, whatever the tree. The tree carries that everything in it lies in a
directory, so an operation that would break this cannot be defined.
-/
import Mathlib.Data.List.Infix
import Std.Data.ExtTreeMap

set_option autoImplicit false
set_option linter.unusedSectionVars false

namespace AgentSpace.Lib

/-- What is at a path. -/
inductive Node (C : Type) where
  | file (content : C)
  | dir
  deriving DecidableEq

/-- Why an operation fails. -/
inductive FileError where
  | Refused
  | NotFound
  | AlreadyExists
  | NotADirectory
  | IsADirectory
  deriving DecidableEq

variable {N C : Type} [Ord N] [Std.TransOrd N] [Std.LawfulEqOrd N] [DecidableEq N]

/-- What is below the root, by the paths. -/
abbrev Nodes (N C : Type) [Ord N] := Std.ExtTreeMap (List N) (Node C) compare

/-- What is at a path; the root is a directory. -/
def Nodes.get (nodes : Nodes N C) : List N → Option (Node C)
  | [] => some .dir
  | name :: path => nodes[name :: path]?

/-- Everything lies in a directory. -/
def Nodes.Closed (nodes : Nodes N C) : Prop :=
  ∀ path name, (nodes.get (path ++ [name])).isSome → nodes.get path = some .dir

/-- A tree of files and directories. -/
structure FileTree (N C : Type) [Ord N] [Std.TransOrd N] where
  nodes : Nodes N C
  closed : nodes.Closed

namespace FileTree

/-- What is at a path. -/
def get (t : FileTree N C) (path : List N) : Option (Node C) := t.nodes.get path

/-- There is a directory at a path. -/
def is_dir (t : FileTree N C) (path : List N) : Bool :=
  match t.get path with
  | some .dir => true
  | _ => false

/-- There is a file at a path. -/
def is_file (t : FileTree N C) (path : List N) : Bool :=
  match t.get path with
  | some (.file _) => true
  | _ => false

/-- There is something at a path. -/
def «exists» (t : FileTree N C) (path : List N) : Bool := (t.get path).isSome

@[simp] theorem get_root (t : FileTree N C) : t.get [] = some .dir := rfl

variable {t : FileTree N C} {path : List N}

theorem is_dir_iff : t.is_dir path = true ↔ t.get path = some .dir := by
  unfold is_dir
  cases h : t.get path with
  | none => simp
  | some node => cases node <;> simp

theorem is_file_iff : t.is_file path = true ↔ ∃ content, t.get path = some (.file content) := by
  unfold is_file
  cases h : t.get path with
  | none => simp
  | some node => cases node <;> simp

/-- What lies below a path lies in directories. -/
theorem get_of_prefix (t : FileTree N C) {p q : List N} (hpq : p <+: q) (hne : p ≠ q)
    (h : (t.get q).isSome) : t.get p = some .dir := by
  obtain ⟨rest, rfl⟩ := hpq
  induction rest using List.reverseRecOn with
  | nil => simp at hne
  | append_singleton rest name ih =>
    rw [← List.append_assoc] at h
    have hparent : t.get (p ++ rest) = some .dir := t.closed _ _ h
    by_cases hrest : rest = []
    · rwa [hrest, List.append_nil] at hparent
    · exact ih (by simpa using hrest) (by rw [hparent]; rfl)

/-! ## Lookups -/

variable (nodes : Nodes N C)

theorem get_insert (hpath : path ≠ []) (node : Node C) (q : List N) :
    Nodes.get (nodes.insert path node) q = if q = path then some node else nodes.get q := by
  cases q with
  | nil => rw [if_neg fun h => hpath h.symm]; rfl
  | cons name q =>
    unfold Nodes.get
    dsimp only
    rw [Std.ExtTreeMap.getElem?_insert]
    simp only [Std.LawfulEqCmp.compare_eq_iff_eq, eq_comm (a := path)]

theorem get_filter (keep : List N → Bool) (hroot : keep [] = true) (q : List N) :
    Nodes.get (nodes.filter fun path _ => keep path) q
      = if keep q then nodes.get q else none := by
  cases q with
  | nil => rw [if_pos hroot]; rfl
  | cons name q =>
    unfold Nodes.get
    dsimp only
    rw [Std.ExtTreeMap.getElem?_filter']
    cases nodes[name :: q]? with
    | none => simp
    | some node => by_cases hk : keep (name :: q) <;> simp [hk, Option.filter]

/-- A path and all above it made directories. -/
def with_dirs (nodes : Nodes N C) (path : List N) : Nodes N C :=
  path.inits.tail.foldl (fun nodes q => nodes.insert q .dir) nodes

theorem get_foldl_insert_dir (paths : List (List N)) (hpaths : [] ∉ paths) (nodes : Nodes N C)
    (q : List N) : (paths.foldl (fun nodes q => Std.ExtTreeMap.insert nodes q .dir) nodes : Nodes N C).get q
      = if q ∈ paths then some .dir else nodes.get q := by
  induction paths generalizing nodes with
  | nil => simp
  | cons path rest ih =>
    rw [List.mem_cons, not_or] at hpaths
    rw [List.foldl_cons, ih hpaths.2, get_insert _ fun h => hpaths.1 h.symm]
    by_cases hrest : q ∈ rest
    · simp [hrest]
    · by_cases hq : q = path <;> simp [hrest, hq]

theorem get_with_dirs (path q : List N) :
    (with_dirs nodes path).get q = if q <+: path then some .dir else nodes.get q := by
  have htail : path.inits = [] :: path.inits.tail := by
    cases path <;> simp [List.inits]
  have hnil : [] ∉ path.inits.tail := by
    cases path <;> simp [List.inits]
  unfold with_dirs
  rw [get_foldl_insert_dir _ hnil]
  by_cases hq : q = []
  · subst hq
    rw [if_neg hnil, if_pos List.nil_prefix]
    rfl
  · have hmem : q ∈ path.inits.tail ↔ q <+: path := by
      rw [← List.mem_inits, htail, List.mem_cons, or_iff_right hq, List.tail_cons]
    simp only [hmem]

theorem closed_with_dirs (t : FileTree N C) (path : List N) : (with_dirs t.nodes path).Closed := by
  intro p name hsome
  rw [get_with_dirs] at hsome ⊢
  by_cases hp : p <+: path
  · rw [if_pos hp]
  · rw [if_neg hp]
    rw [if_neg fun hname => hp ((List.prefix_append p [name]).trans hname)] at hsome
    exact t.closed p name hsome

theorem closed_insert (t : FileTree N C) {node : Node C} (hpath : path ≠ [])
    (hparent : t.get path.dropLast = some .dir) (hdir : t.get path ≠ some .dir) :
    Nodes.Closed (t.nodes.insert path node) := by
  intro p name hsome
  rw [get_insert _ hpath] at hsome ⊢
  have hold : t.get p = some .dir := by
    by_cases hname : p ++ [name] = path
    · rw [← hname, List.dropLast_concat] at hparent
      exact hparent
    · rw [if_neg hname] at hsome
      exact t.closed p name hsome
  have hne : p ≠ path := by
    rintro rfl
    exact hdir hold
  rw [if_neg hne]
  exact hold

theorem closed_filter (t : FileTree N C) (path : List N) (hpath : path ≠ []) :
    Nodes.Closed (t.nodes.filter fun q _ => !decide (path <+: q)) := by
  have hroot : (!decide (path <+: ([] : List N))) = true := by
    simpa using hpath
  intro p name hsome
  rw [get_filter _ (fun q => !decide (path <+: q)) hroot] at hsome ⊢
  by_cases hp : path <+: p
  · have hname : path <+: p ++ [name] := hp.trans (List.prefix_append p [name])
    simp [hname] at hsome
  · rw [if_pos (by simpa using hp)]
    refine t.closed p name ?_
    by_cases hname : path <+: p ++ [name]
    · simp [hname] at hsome
    · rwa [if_pos (by simpa using hname)] at hsome

/-! ## Operations -/

section Operations

variable (accepts : List N → Bool)

/-- The directories above and including a path, made where they are missing. -/
def create_dir_all (t : FileTree N C) (path : List N) : Except FileError (FileTree N C) :=
  if !accepts path then .error .Refused
  else if path.inits.any t.is_file then .error .NotADirectory
  else .ok ⟨with_dirs t.nodes path, closed_with_dirs t path⟩

/-- A directory in a directory that exists. -/
def create_dir (t : FileTree N C) (path : List N) : Except FileError (FileTree N C) :=
  if !accepts path then .error .Refused
  else if hexists : t.exists path = true then .error .AlreadyExists
  else if hparent : t.is_dir path.dropLast = true then
    .ok ⟨t.nodes.insert path .dir, closed_insert t (fun h => hexists (by rw [h]; rfl))
      (is_dir_iff.1 hparent) fun h => hexists (by rw [«exists», h]; rfl)⟩
  else .error .NotFound

/-- A file in a directory that exists, created or replaced. -/
def write (t : FileTree N C) (path : List N) (content : C) : Except FileError (FileTree N C) :=
  if !accepts path then .error .Refused
  else if hdir : t.is_dir path = true then .error .IsADirectory
  else if hparent : t.is_dir path.dropLast = true then
    .ok ⟨t.nodes.insert path (.file content), closed_insert t (fun h => hdir (by rw [h]; rfl))
      (is_dir_iff.1 hparent) fun h => hdir (is_dir_iff.2 h)⟩
  else .error .NotFound

end Operations

/-- A directory with everything below it removed. The root stays. -/
def remove_dir_all (t : FileTree N C) (path : List N) : Except FileError (FileTree N C) :=
  if hroot : path = [] then .error .Refused
  else if t.is_dir path then
    .ok ⟨t.nodes.filter fun q _ => !decide (path <+: q), closed_filter t path hroot⟩
  else if t.exists path then .error .NotADirectory
  else .error .NotFound

/-- The content of a file. -/
def read (t : FileTree N C) (path : List N) : Except FileError C :=
  match t.get path with
  | some (.file content) => .ok content
  | some .dir => .error .IsADirectory
  | none => .error .NotFound

/-- What is in a directory, in the order of the names. -/
def read_dir (t : FileTree N C) (path : List N) : List (N × Node C) :=
  t.nodes.toList.filterMap fun (q, node) =>
    match q.getLast? with
    | some name => if q.dropLast = path then some (name, node) else none
    | none => none

/-- No path is longer. -/
def depth (t : FileTree N C) : ℕ := (t.nodes.keys.map List.length).foldr max 0

/-! ## What the operations do -/

section Specs

variable {accepts : List N → Bool} {t t' : FileTree N C} {path : List N} {content : C}

theorem create_dir_all_ok_iff : (∃ t', t.create_dir_all accepts path = .ok t') ↔
      accepts path = true ∧ ∀ q, q <+: path → ∀ content, t.get q ≠ some (.file content) := by
  unfold create_dir_all
  cases haccepts : accepts path with
  | false => simp
  | true =>
    simp only [Bool.not_true, Bool.false_eq_true, if_false, true_and]
    split_ifs with h
    · obtain ⟨q, hq, hfile⟩ := List.any_eq_true.1 h
      obtain ⟨content, hcontent⟩ := is_file_iff.1 hfile
      simp only [exists_false, false_iff, not_forall]
      exact ⟨q, (List.mem_inits q path).1 hq, content, fun hne => hne hcontent⟩
    · simp only [Except.ok.injEq, exists_eq', true_iff]
      intro q hq content hfile
      exact h (List.any_eq_true.2 ⟨q, (List.mem_inits q path).2 hq, is_file_iff.2 ⟨content, hfile⟩⟩)

theorem get_create_dir_all (h : t.create_dir_all accepts path = .ok t') (q : List N) :
    t'.get q = if q <+: path then some .dir else t.get q := by
  unfold create_dir_all at h
  split_ifs at h
  rw [← Except.ok.inj h]
  exact get_with_dirs t.nodes path q

theorem create_dir_ok_iff : (∃ t', t.create_dir accepts path = .ok t') ↔
      accepts path = true ∧ t.get path = none ∧ t.get path.dropLast = some .dir := by
  unfold create_dir
  cases haccepts : accepts path with
  | false => simp
  | true =>
    simp only [Bool.not_true, Bool.false_eq_true, if_false, true_and]
    have hexists : t.exists path = true ↔ t.get path ≠ none := by
      simp [«exists», Option.isSome_iff_ne_none]
    split_ifs with h hparent
    · simp [hexists.1 h]
    · simp [is_dir_iff.1 hparent, not_not.1 (mt hexists.2 h)]
    · simp [mt is_dir_iff.2 hparent]

theorem get_create_dir (h : t.create_dir accepts path = .ok t') (q : List N) :
    t'.get q = if q = path then some .dir else t.get q := by
  unfold create_dir at h
  split_ifs at h with _ hexists
  rw [← Except.ok.inj h]
  exact get_insert t.nodes (fun hroot => hexists (by rw [hroot]; rfl)) _ q

theorem write_ok_iff : (∃ t', t.write accepts path content = .ok t') ↔
      accepts path = true ∧ t.get path ≠ some .dir ∧ t.get path.dropLast = some .dir := by
  unfold write
  cases haccepts : accepts path with
  | false => simp
  | true =>
    simp only [Bool.not_true, Bool.false_eq_true, if_false, true_and]
    split_ifs with h hparent
    · simp [is_dir_iff.1 h]
    · simp [is_dir_iff.1 hparent, mt is_dir_iff.2 h]
    · simp [mt is_dir_iff.2 hparent]

theorem get_write (h : t.write accepts path content = .ok t') (q : List N) :
    t'.get q = if q = path then some (.file content) else t.get q := by
  unfold write at h
  split_ifs at h with _ hdir
  rw [← Except.ok.inj h]
  exact get_insert t.nodes (fun hroot => hdir (by rw [hroot]; rfl)) _ q

theorem remove_dir_all_ok_iff (hpath : path ≠ []) :
    (∃ t', t.remove_dir_all path = .ok t') ↔ t.get path = some .dir := by
  unfold remove_dir_all
  rw [dif_neg hpath, ← is_dir_iff]
  split_ifs with h <;> simp [h]

theorem get_remove_dir_all (h : t.remove_dir_all path = .ok t') (q : List N) :
    t'.get q = if path <+: q then none else t.get q := by
  unfold remove_dir_all at h
  split_ifs at h with hroot
  have hkeep : (!decide (path <+: ([] : List N))) = true := by
    simpa using hroot
  rw [← Except.ok.inj h]
  refine (get_filter t.nodes (fun q => !decide (path <+: q)) hkeep q).trans ?_
  by_cases hq : path <+: q
  · simp [hq]
  · rw [if_pos (by simpa using hq), if_neg hq]
    rfl

theorem read_ok_iff : t.read path = .ok content ↔ t.get path = some (.file content) := by
  unfold read
  cases t.get path with
  | none => simp
  | some node => cases node <;> simp

theorem mem_read_dir {name : N} {node : Node C} :
    (name, node) ∈ t.read_dir path ↔ t.get (path ++ [name]) = some node := by
  have hget : t.get (path ++ [name]) = t.nodes[path ++ [name]]? := by
    cases path <;> rfl
  unfold read_dir
  rw [hget, List.mem_filterMap]
  constructor
  · rintro ⟨⟨q, e⟩, hmem, h⟩
    cases hlast : q.getLast? with
    | none => simp [hlast] at h
    | some last =>
      simp only [hlast, Option.ite_none_right_eq_some, Option.some.injEq, Prod.mk.injEq] at h
      obtain ⟨rfl, rfl, rfl⟩ := h
      rw [List.dropLast_append_getLast? last hlast]
      exact Std.ExtTreeMap.mem_toList_iff_getElem?_eq_some.1 hmem
  · intro h
    exact ⟨(path ++ [name], node), Std.ExtTreeMap.mem_toList_iff_getElem?_eq_some.2 h, by simp⟩

/-- No name is twice in a directory. -/
theorem nodup_read_dir : ((t.read_dir path).map Prod.fst).Nodup := by
  have hnodup : (t.nodes.toList.map Prod.fst).Nodup := by
    rw [Std.ExtTreeMap.map_fst_toList_eq_keys]
    exact Std.ExtTreeMap.nodup_keys
  unfold read_dir
  rw [List.map_filterMap]
  rw [List.Nodup, List.pairwise_map] at hnodup
  rw [List.Nodup, List.pairwise_filterMap]
  refine hnodup.imp fun {a b} hne name hname name' hname' => ?_
  rintro rfl
  refine hne ?_
  obtain ⟨q, node⟩ := a
  obtain ⟨q', node'⟩ := b
  have hpath : ∀ (q : List N) (node : Node C), (Option.map Prod.fst
      (match q.getLast? with
        | some name => if q.dropLast = path then some (name, node) else none
        | none => none)) = some name → q = path ++ [name] := by
    intro q node h
    cases hlast : q.getLast? with
    | none => simp [hlast] at h
    | some last =>
      simp only [hlast, Option.map_eq_some_iff, Option.ite_none_right_eq_some, Option.some.injEq,
        Prod.exists, Prod.mk.injEq] at h
      obtain ⟨name, node, ⟨rfl, rfl, rfl⟩, rfl⟩ := h
      exact (List.dropLast_append_getLast? last hlast).symm
  exact (hpath q node hname).trans (hpath q' node' hname').symm

theorem length_le_depth (h : (t.get path).isSome) : path.length ≤ t.depth := by
  cases path with
  | nil => simp
  | cons name path =>
    have hmem : name :: path ∈ t.nodes.keys := by
      rw [Std.ExtTreeMap.mem_keys, Std.ExtTreeMap.mem_iff_isSome_getElem?]
      exact h
    have hle : ∀ (l : List ℕ) (n : ℕ), n ∈ l → n ≤ l.foldr max 0 := by
      intro l n hn
      induction l with
      | nil => simp at hn
      | cons m l ih =>
        rw [List.foldr_cons]
        rcases List.mem_cons.1 hn with rfl | hn
        · exact le_max_left _ _
        · exact (ih hn).trans (le_max_right _ _)
    exact hle _ _ (List.mem_map_of_mem hmem)

end Specs

/-! ## Walking -/

/-- The files below a directory, as a recursive walk meets them; the fuel bounds how
deep it goes. -/
def walk (t : FileTree N C) : ℕ → List N → List (List N × C)
  | 0, _ => []
  | fuel + 1, dir => (t.read_dir dir).flatMap fun (name, node) =>
    match node with
    | .file content => [(dir ++ [name], content)]
    | .dir => walk t fuel (dir ++ [name])

/-- **A walk meets every file** below its directory, and nothing else. -/
theorem mem_walk {fuel : ℕ} {dir q : List N} {content : C} (hfuel : t.depth < dir.length + fuel) :
    (q, content) ∈ t.walk fuel dir ↔ t.get q = some (.file content) ∧ dir <+: q ∧ dir ≠ q := by
  induction fuel generalizing dir with
  | zero =>
    rw [walk, iff_false_left (by simp)]
    rintro ⟨hget, hpre, -⟩
    have hsome : (t.get q).isSome := by rw [hget]; rfl
    have hdepth := length_le_depth hsome
    have := hpre.length_le
    omega
  | succ fuel ih =>
    rw [walk, List.mem_flatMap]
    constructor
    · rintro ⟨⟨name, node⟩, hnode, h⟩
      rw [mem_read_dir] at hnode
      cases node with
      | file c =>
        obtain ⟨rfl, rfl⟩ := Prod.mk.inj (List.mem_singleton.1 h)
        exact ⟨hnode, List.prefix_append _ _, by simp⟩
      | dir =>
        obtain ⟨hget, hpre, -⟩ := (ih (by simp; omega)).1 h
        refine ⟨hget, (List.prefix_append _ _).trans hpre, ?_⟩
        rintro rfl
        have := hpre.length_le
        rw [List.length_append, List.length_singleton] at this
        omega
    · rintro ⟨hget, ⟨rest, rfl⟩, hne⟩
      cases rest with
      | nil => simp at hne
      | cons name rest =>
        have happend : dir ++ name :: rest = dir ++ [name] ++ rest := by simp
        cases rest with
        | nil => exact ⟨(name, .file content), mem_read_dir.2 hget, by simp⟩
        | cons next rest =>
          have hpre : dir ++ [name] <+: dir ++ name :: next :: rest := by
            rw [happend]
            exact List.prefix_append _ _
          have hdir : t.get (dir ++ [name]) = some .dir :=
            t.get_of_prefix hpre (by simp) (by rw [hget]; rfl)
          exact ⟨(name, .dir), mem_read_dir.2 hdir,
            (ih (by simp; omega)).2 ⟨hget, hpre, by simp⟩⟩

/-! ## Writing many files -/

section Puts

variable (accepts : List N → Bool)

/-- A file written, with the directories above it made. -/
def put (t : FileTree N C) (path : List N) (content : C) : Except FileError (FileTree N C) :=
  (t.create_dir_all accepts path.dropLast).bind fun t => t.write accepts path content

/-- Files written one after another. -/
def put_all (t : FileTree N C) : List (List N × C) → Except FileError (FileTree N C)
  | [] => .ok t
  | w :: rest => (t.put accepts w.1 w.2).bind fun t => put_all t rest

end Puts

/-- A path strictly above another. -/
def Above (p q : List N) : Prop := p <+: q ∧ p ≠ q

theorem above_iff_prefix_dropLast {p q : List N} (hq : q ≠ []) : Above p q ↔ p <+: q.dropLast := by
  obtain ⟨init, last, rfl⟩ := (List.eq_nil_or_concat q).resolve_left hq
  rw [List.concat_eq_append, List.dropLast_concat, Above, List.prefix_concat_iff]
  constructor
  · rintro ⟨rfl | h, hne⟩
    · exact absurd rfl hne
    · exact h
  · intro h
    refine ⟨Or.inr h, ?_⟩
    rintro rfl
    have := h.length_le
    rw [List.length_append, List.length_singleton] at this
    omega

/-- A file can go to a path: the system takes the path, no file is above it, and it
is no directory. -/
structure Fits (accepts : List N → Bool) (t : FileTree N C) (path : List N) : Prop where
  parent_accepted : accepts path.dropLast = true
  accepted : accepts path = true
  above : ∀ q, Above q path → ∀ content, t.get q ≠ some (.file content)
  no_dir : t.get path ≠ some .dir

theorem Fits.ne_nil {accepts : List N → Bool} (h : Fits accepts t path) : path ≠ [] := by
  rintro rfl
  exact h.no_dir rfl

section PutSpecs

variable {accepts : List N → Bool} {t t' : FileTree N C} {path : List N} {content : C}

theorem put_eq_ok {t₂ : FileTree N C} : t.put accepts path content = .ok t₂ ↔
    ∃ t₁, t.create_dir_all accepts path.dropLast = .ok t₁ ∧ t₁.write accepts path content = .ok t₂ := by
  unfold put
  cases t.create_dir_all accepts path.dropLast <;> simp [Except.bind]

theorem put_all_cons_eq_ok {w : List N × C} {rest : List (List N × C)} :
    t.put_all accepts (w :: rest) = .ok t' ↔
      ∃ t₁, t.put accepts w.1 w.2 = .ok t₁ ∧ t₁.put_all accepts rest = .ok t' := by
  rw [put_all]
  cases t.put accepts w.1 w.2 <;> simp [Except.bind]

theorem put_ok_iff : (∃ t', t.put accepts path content = .ok t') ↔ Fits accepts t path := by
  simp only [put_eq_ok]
  by_cases hpath : path = []
  · subst hpath
    refine iff_of_false ?_ fun h => h.ne_nil rfl
    rintro ⟨t', t₁, -, hwrite⟩
    exact (write_ok_iff.1 ⟨t', hwrite⟩).2.1 rfl
  · have hself : ¬path <+: path.dropLast := fun h => ((above_iff_prefix_dropLast hpath).2 h).2 rfl
    constructor
    · rintro ⟨t', t₁, hcreate, hwrite⟩
      obtain ⟨hparent, habove⟩ := create_dir_all_ok_iff.1 ⟨t₁, hcreate⟩
      obtain ⟨haccepted, hdir, -⟩ := write_ok_iff.1 ⟨t', hwrite⟩
      rw [get_create_dir_all hcreate, if_neg hself] at hdir
      exact ⟨hparent, haccepted, fun q hq => habove q ((above_iff_prefix_dropLast hpath).1 hq), hdir⟩
    · intro h
      obtain ⟨t₁, hcreate⟩ := create_dir_all_ok_iff.2 ⟨h.parent_accepted, fun q hq =>
        h.above q ((above_iff_prefix_dropLast hpath).2 hq)⟩
      have hwrite : ∃ t', t₁.write accepts path content = .ok t' := write_ok_iff.2 ⟨h.accepted, by
        rw [get_create_dir_all hcreate, if_neg hself]
        exact h.no_dir, by
        rw [get_create_dir_all hcreate, if_pos (List.prefix_refl _)]⟩
      obtain ⟨t', hwrite⟩ := hwrite
      exact ⟨t', t₁, hcreate, hwrite⟩

theorem get_put (h : t.put accepts path content = .ok t') (q : List N) :
    t'.get q = if q = path then some (.file content) else if q <+: path then some .dir
      else t.get q := by
  have hpath := (put_ok_iff.1 ⟨t', h⟩).ne_nil
  obtain ⟨t₁, hcreate, hwrite⟩ := put_eq_ok.1 h
  rw [get_write hwrite, get_create_dir_all hcreate]
  by_cases hq : q = path
  · rw [if_pos hq, if_pos hq]
  · have hiff : q <+: path ↔ q <+: path.dropLast := by
      rw [← above_iff_prefix_dropLast hpath]
      exact ⟨fun h => ⟨h, hq⟩, fun h => h.1⟩
    rw [if_neg hq, if_neg hq]
    simp only [hiff]

/-- Neither path is above the other. -/
def Apart (p q : List N) : Prop := ¬Above p q ∧ ¬Above q p

/-- What still fits after a file is written. -/
theorem fits_put_iff (h : t.put accepts path content = .ok t') {q : List N} :
    Fits accepts t' q ↔ Fits accepts t q ∧ Apart path q := by
  have hfits := put_ok_iff.1 ⟨t', h⟩
  constructor
  · intro hq
    refine ⟨⟨hq.parent_accepted, hq.accepted, fun p hp c hfile => ?_, fun hdir => ?_⟩,
      fun habove => ?_, fun habove => ?_⟩
    · -- a file above `q` is still there: it is not above what was written
      by_cases hpath : p = path
      · exact hq.above p hp content (by rw [get_put h, if_pos hpath])
      · refine hq.above p hp c ?_
        rw [get_put h, if_neg hpath, if_neg fun hpre => hfits.above p ⟨hpre, hpath⟩ c hfile]
        exact hfile
    · refine hq.no_dir ?_
      rw [get_put h, if_neg]
      · split_ifs
        · rfl
        · exact hdir
      · rintro rfl
        exact hfits.no_dir hdir
    · exact hq.above path habove content (by rw [get_put h, if_pos rfl])
    · exact hq.no_dir (by rw [get_put h, if_neg habove.2, if_pos habove.1])
  · rintro ⟨hq, hapart⟩
    refine ⟨hq.parent_accepted, hq.accepted, fun p hp c hfile => ?_, fun hdir => ?_⟩
    · rw [get_put h] at hfile
      by_cases hpath : p = path
      · exact hapart.1 (hpath ▸ hp)
      · rw [if_neg hpath] at hfile
        by_cases hpre : p <+: path
        · rw [if_pos hpre] at hfile
          cases hfile
        · rw [if_neg hpre] at hfile
          exact hq.above p hp c hfile
    · rw [get_put h] at hdir
      by_cases hpath : q = path
      · rw [if_pos hpath] at hdir
        cases hdir
      · rw [if_neg hpath] at hdir
        by_cases hpre : q <+: path
        · exact hapart.2 ⟨hpre, hpath⟩
        · rw [if_neg hpre] at hdir
          exact hq.no_dir hdir

variable {writes : List (List N × C)}

/-- **Writing many files** succeeds if each of them fits, and they are apart from each
other. -/
theorem put_all_ok_iff : (∃ t', t.put_all accepts writes = .ok t') ↔
      (∀ w ∈ writes, Fits accepts t w.1) ∧ writes.Pairwise fun v w => Apart v.1 w.1 := by
  induction writes generalizing t with
  | nil => simp [put_all]
  | cons w rest ih =>
    simp only [put_all_cons_eq_ok]
    rw [List.forall_mem_cons, List.pairwise_cons]
    constructor
    · rintro ⟨t', t₁, hput, hrest⟩
      obtain ⟨hfits, hpairwise⟩ := ih.1 ⟨t', hrest⟩
      exact ⟨⟨put_ok_iff.1 ⟨t₁, hput⟩, fun v hv => ((fits_put_iff hput).1 (hfits v hv)).1⟩,
        fun v hv => ((fits_put_iff hput).1 (hfits v hv)).2, hpairwise⟩
    · rintro ⟨⟨hw, hfits⟩, hapart, hpairwise⟩
      obtain ⟨t₁, hput⟩ := put_ok_iff.2 hw
      obtain ⟨t', hrest⟩ := ih.2 ⟨fun v hv => (fits_put_iff hput).2 ⟨hfits v hv, hapart v hv⟩,
        hpairwise⟩
      exact ⟨t', t₁, hput, hrest⟩

/-- The last of the files written to a path. -/
def last_write (writes : List (List N × C)) (q : List N) : Option (List N × C) :=
  writes.reverse.find? fun w => w.1 = q

theorem last_write_cons (w : List N × C) (rest : List (List N × C)) (q : List N) :
    last_write (w :: rest) q = (last_write rest q).or (if w.1 = q then some w else none) := by
  unfold last_write
  rw [List.reverse_cons, List.find?_append]
  by_cases h : w.1 = q <;> simp [h]

theorem last_write_eq_none {q : List N} : last_write writes q = none ↔ ∀ w ∈ writes, w.1 ≠ q := by
  unfold last_write
  rw [List.find?_eq_none]
  simp

/-- **After writing many files** each path has what was written to it last, what is
above them are directories, and the rest is as it was. -/
theorem get_put_all (h : t.put_all accepts writes = .ok t') (q : List N) :
    t'.get q = match last_write writes q with
      | some w => some (.file w.2)
      | none => if ∃ w ∈ writes, q <+: w.1 then some .dir else t.get q := by
  induction writes generalizing t with
  | nil =>
    rw [put_all] at h
    rw [← Except.ok.inj h]
    simp [last_write]
  | cons w rest ih =>
    obtain ⟨-, hpairwise⟩ := put_all_ok_iff.1 ⟨t', h⟩
    have hapart := (List.pairwise_cons.1 hpairwise).1
    obtain ⟨t₁, hput, hrest⟩ := put_all_cons_eq_ok.1 h
    rw [ih hrest, last_write_cons]
    cases hlast : last_write rest q with
    | some v => rfl
    | none =>
      rw [Option.none_or]
      dsimp only
      by_cases hw : w.1 = q
      · -- nothing is written below a file
        have hnone : ¬∃ v ∈ rest, q <+: v.1 := by
          rintro ⟨v, hv, hpre⟩
          have hne : w.1 ≠ v.1 := fun heq =>
            last_write_eq_none.1 hlast v hv (heq.symm.trans hw)
          exact (hapart v hv).1 ⟨hw ▸ hpre, hne⟩
        rw [if_neg hnone, if_pos hw, get_put hput, if_pos hw.symm]
      · rw [if_neg hw]
        dsimp only
        have hiff : (∃ v ∈ w :: rest, q <+: v.1) ↔ (q <+: w.1 ∨ ∃ v ∈ rest, q <+: v.1) := by
          simp
        by_cases hbelow : ∃ v ∈ rest, q <+: v.1
        · rw [if_pos hbelow, if_pos (hiff.2 (Or.inr hbelow))]
        · rw [if_neg hbelow, get_put hput, if_neg fun heq => hw heq.symm]
          by_cases hpre : q <+: w.1
          · rw [if_pos hpre, if_pos (hiff.2 (Or.inl hpre))]
          · rw [if_neg hpre, if_neg fun hc => (hiff.1 hc).elim hpre hbelow]

end PutSpecs

end FileTree

end AgentSpace.Lib
