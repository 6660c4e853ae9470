/-
Files, links and directories, with what is at each path.

A directory is the map from names to what it holds. No operation goes through a link: what lies
below a link, or below a file, is nothing. What a path stands for that leads through a link is the
user's affair. The leaves of a tree are its files and links; the operations that make and change
directories leave them as they are.
-/
import Mathlib.Logic.Function.Basic
import Mathlib.Data.List.Infix

set_option autoImplicit false

namespace AgentSpace.Lib

/-- What is at a path, if anything. -/
inductive Files (N D T : Type) where
  | nothing
  | file (data : D)
  | link (target : T)
  | dir (child : N → Files N D T)

/-- A file or a link. -/
inductive Leaf (D T : Type) where
  | file (data : D)
  | link (target : T)
  deriving DecidableEq

namespace Files

variable {N D T : Type}

/-- A directory without anything in it. -/
def empty : Files N D T := .dir fun _ => .nothing

/-- What is in a directory under a name. -/
def child : Files N D T → N → Files N D T
  | .dir child, name => child name
  | _, _ => .nothing

/-- What is at a path. -/
def get (t : Files N D T) : List N → Files N D T
  | [] => t
  | name :: path => (t.child name).get path

/-- The file or the link, if it is one. -/
def leaf : Files N D T → Option (Leaf D T)
  | .file data => some (.file data)
  | .link target => some (.link target)
  | _ => none

/-- A leaf, as what is at a path. -/
def of_leaf : Leaf D T → Files N D T
  | .file data => .file data
  | .link target => .link target

/-- There is something. -/
def «exists» : Files N D T → Bool
  | .nothing => false
  | _ => true

/-- It is a directory. -/
def is_dir : Files N D T → Bool
  | .dir _ => true
  | _ => false

/-- It is a link. -/
def is_link : Files N D T → Bool
  | .link _ => true
  | _ => false

@[simp] theorem get_nil (t : Files N D T) : t.get [] = t := rfl

@[simp] theorem get_cons (t : Files N D T) (name : N) (path : List N) :
    t.get (name :: path) = (t.child name).get path := rfl

@[simp] theorem child_dir (child : N → Files N D T) (name : N) : (Files.dir child).child name = child name :=
  rfl

variable {t : Files N D T}

theorem child_of_not_dir (h : t.is_dir = false) (name : N) : t.child name = .nothing := by
  cases t with
  | dir child => cases h
  | _ => rfl

@[simp] theorem get_nothing (path : List N) : (nothing : Files N D T).get path = .nothing := by
  induction path with
  | nil => rfl
  | cons name path ih => exact ih

theorem get_append (t : Files N D T) (p q : List N) : t.get (p ++ q) = (t.get p).get q := by
  induction p generalizing t with
  | nil => rfl
  | cons name p ih => exact ih (t.child name)

/-- Nothing lies below what is no directory. -/
theorem get_cons_of_not_dir (h : t.is_dir = false) (name : N) (path : List N) :
    t.get (name :: path) = .nothing := by
  rw [get_cons, child_of_not_dir h, get_nothing]

variable {leaf : Leaf D T}

theorem leaf_eq_some_iff : t.leaf = some leaf ↔ t = of_leaf leaf := by
  cases t with
  | file data => cases leaf <;> simp [Files.leaf, of_leaf]
  | link target => cases leaf <;> simp [Files.leaf, of_leaf]
  | _ => cases leaf <;> simp [Files.leaf, of_leaf]

theorem leaf_of_is_dir (h : t.is_dir = true) : t.leaf = none := by
  cases t with
  | dir child => rfl
  | _ => cases h

theorem not_dir_of_leaf (h : t.leaf = some leaf) : t.is_dir = false := by
  cases t with
  | dir child => cases h
  | _ => rfl

/-! ## Changes -/

variable [DecidableEq N]

/-- What a directory holds under a name is replaced. -/
def set_child (t : Files N D T) (name : N) (entry : Files N D T) : Files N D T :=
  match t with
  | .dir child => .dir (Function.update child name entry)
  | other => other

/-- What is at a path is replaced. -/
def put (t : Files N D T) : List N → Files N D T → Files N D T
  | [], entry => entry
  | name :: path, entry => t.set_child name ((t.child name).put path entry)

theorem is_dir_set_child (t : Files N D T) (name : N) (entry : Files N D T) :
    (t.set_child name entry).is_dir = t.is_dir := by
  cases t with
  | _ => rfl

theorem child_set_child_self (h : t.is_dir = true) (name : N) (entry : Files N D T) :
    (t.set_child name entry).child name = entry := by
  cases t with
  | dir child => exact Function.update_self name entry child
  | _ => cases h

theorem child_set_child_of_ne {name other : N} (h : other ≠ name) (t entry : Files N D T) :
    (t.set_child name entry).child other = t.child other := by
  cases t with
  | dir child => exact Function.update_of_ne h entry child
  | _ => rfl

variable {path : List N}

/-- What is put into a directory is there. -/
theorem get_put_self {name : N} (h : (t.get path).is_dir = true)
    (entry : Files N D T) : (t.put (path ++ [name]) entry).get (path ++ [name]) = entry := by
  induction path generalizing t with
  | nil => exact child_set_child_self h name entry
  | cons first path ih =>
    have hdir : t.is_dir = true := by
      by_contra hnot
      rw [get_cons_of_not_dir (by simpa using hnot)] at h
      cases h
    show ((t.set_child first _).child first).get _ = entry
    rw [child_set_child_self hdir]
    exact ih h

/-- What is replaced is gone. -/
theorem get_put_of_exists (h : (t.get path).exists = true)
    (entry : Files N D T) : (t.put path entry).get path = entry := by
  induction path generalizing t with
  | nil => rfl
  | cons first path ih =>
    have hdir : t.is_dir = true := by
      by_contra hnot
      rw [get_cons_of_not_dir (by simpa using hnot)] at h
      cases h
    show ((t.set_child first _).child first).get path = entry
    rw [child_set_child_self hdir]
    exact ih h

/-- What can be seen of a place that is not at the path, nor below it, stays, if it can be seen of
a directory on the way whatever that holds. -/
theorem see_get_put {β : Type} (see : Files N D T → β) {path other : List N} (h : ¬path <+: other)
    (hsee : other <+: path → ∀ t name entry, see (t.set_child name entry) = see t) (t entry : Files N D T) :
    see ((t.put path entry).get other) = see (t.get other) := by
  induction path generalizing t other with
  | nil => exact absurd List.nil_prefix h
  | cons name path ih =>
    cases other with
    | nil => exact hsee List.nil_prefix t name _
    | cons first other =>
      show see (((t.set_child name _).child first).get other) = see ((t.child first).get other)
      by_cases hfirst : first = name
      · subst hfirst
        cases hdir : t.is_dir with
        | true =>
          rw [child_set_child_self hdir]
          exact ih (fun hstart => h ((List.prefix_cons_inj first).2 hstart))
            (fun hstart => hsee ((List.prefix_cons_inj first).2 hstart)) (t.child first)
        | false =>
          have hsame : (t.set_child first ((t.child first).put path entry)).is_dir = false := by
            rw [is_dir_set_child, hdir]
          rw [child_of_not_dir hsame, child_of_not_dir hdir]
      · rw [child_set_child_of_ne hfirst]

/-- A leaf that is not at the path, nor below it, stays. -/
theorem leaf_get_put_elsewhere {path other : List N} (h : ¬path <+: other) (t entry : Files N D T) :
    ((t.put path entry).get other).leaf = (t.get other).leaf :=
  see_get_put leaf h (fun _ t _ _ => by cases t <;> rfl) t entry

/-- At the path there is what was put, or nothing if that was not possible. -/
theorem get_put_same (t entry : Files N D T) (path : List N) :
    (t.put path entry).get path = entry ∨ (t.put path entry).get path = .nothing := by
  induction path generalizing t with
  | nil => exact Or.inl rfl
  | cons first path ih =>
    show ((t.set_child first _).child first).get path = entry
      ∨ ((t.set_child first _).child first).get path = .nothing
    cases hdir : t.is_dir with
    | true =>
      rw [child_set_child_self hdir]
      exact ih (t.child first)
    | false =>
      have hsame : (t.set_child first ((t.child first).put path entry)).is_dir = false := by
        rw [is_dir_set_child, hdir]
      rw [child_of_not_dir hsame]
      exact Or.inr (get_nothing path)

/-- A leaf at the path, or below it, is one of what was put. -/
theorem leaf_get_put_append {t entry : Files N D T} {path rest : List N}
    (h : ((t.put path entry).get (path ++ rest)).leaf = some leaf) : (entry.get rest).leaf = some leaf := by
  rw [get_append] at h
  rcases get_put_same t entry path with hput | hnothing
  · rw [hput] at h
    exact h
  · rw [hnothing, get_nothing] at h
    cases h

/-- **Leaves.** The leaves behind a change are the one that was put and those that were there. -/
theorem leaf_get_put {path other : List N} {entry : Files N D T} (hentry : entry.is_dir = false)
    (h : ((t.put path entry).get other).leaf = some leaf) :
    other = path ∧ entry.leaf = some leaf ∨ (t.get other).leaf = some leaf := by
  by_cases hstart : path <+: other
  · obtain ⟨rest, rfl⟩ := hstart
    have hput := leaf_get_put_append h
    cases rest with
    | nil => exact Or.inl ⟨List.append_nil path, hput⟩
    | cons name rest =>
      rw [get_cons_of_not_dir hentry] at hput
      cases hput
  · rw [leaf_get_put_elsewhere hstart] at h
    exact Or.inr h

/-- A path is made a directory, with all above it; what is in the way is an error. -/
def make_dirs : Files N D T → List N → Option (Files N D T)
  | .dir child, [] => some (.dir child)
  | .dir child, name :: path =>
    let below := match child name with
      | .nothing => empty
      | other => other
    (make_dirs below path).map fun entry => .dir (Function.update child name entry)
  | _, _ => none

theorem is_dir_make_dirs {t t' : Files N D T} (h : t.make_dirs path = some t') :
    (t'.get path).is_dir = true := by
  induction path generalizing t t' with
  | nil =>
    cases t with
    | dir child =>
      obtain rfl := Option.some.inj h
      rfl
    | _ => cases h
  | cons name path ih =>
    cases t with
    | dir child =>
      obtain ⟨entry, hentry, rfl⟩ := Option.map_eq_some_iff.1 h
      show ((Function.update child name entry name).get path).is_dir = true
      rw [Function.update_self]
      exact ih hentry
    | _ => cases h

/-- Making directories makes some on the way to the last, where there was no leaf, and leaves the
rest as it is. -/
theorem get_make_dirs {t t' : Files N D T} (h : t.make_dirs path = some t') (other : List N) :
    t'.get other = t.get other
      ∨ other <+: path ∧ (t.get other).leaf = none ∧ (t'.get other).is_dir = true := by
  induction path generalizing t t' other with
  | nil =>
    cases t with
    | dir child =>
      obtain rfl := Option.some.inj h
      exact Or.inl rfl
    | _ => cases h
  | cons name path ih =>
    cases t with
    | dir child =>
      obtain ⟨entry, hentry, rfl⟩ := Option.map_eq_some_iff.1 h
      cases other with
      | nil => exact Or.inr ⟨List.nil_prefix, rfl, rfl⟩
      | cons first other =>
        show (Function.update child name entry first).get other = (child first).get other
          ∨ first :: other <+: name :: path ∧ ((child first).get other).leaf = none
            ∧ ((Function.update child name entry first).get other).is_dir = true
        by_cases hfirst : first = name
        · subst hfirst
          rw [Function.update_self, List.prefix_cons_inj]
          have hbelow := ih hentry other
          cases hname : child first with
          | nothing =>
            rw [hname] at hbelow
            cases other with
            | nil => exact Or.inr ⟨List.nil_prefix, rfl, hbelow.elim (congrArg is_dir) (·.2.2)⟩
            | cons second other => exact hbelow
          | _ => rwa [hname] at hbelow
        · rw [Function.update_of_ne hfirst]
          exact Or.inl rfl
    | _ => cases h

/-- Making directories leaves the leaves as they are. -/
theorem leaf_get_make_dirs {t t' : Files N D T} (h : t.make_dirs path = some t')
    (other : List N) : (t'.get other).leaf = (t.get other).leaf := by
  rcases get_make_dirs h other with hsame | ⟨-, hleaf, hdir⟩
  · rw [hsame]
  · rw [hleaf, leaf_of_is_dir hdir]

/-! ## Nodes -/

end Files

/-- What kind of thing is at a path, with what it holds itself. -/
inductive FileNode (D T : Type) where
  | file (data : D)
  | link (target : T)
  | dir
  deriving DecidableEq

namespace Files

variable {N D T : Type}

/-- What is at the root of a tree. -/
def node : Files N D T → Option (FileNode D T)
  | .nothing => none
  | .file data => some (.file data)
  | .link target => some (.link target)
  | .dir _ => some .dir

variable {t : Files N D T}

theorem node_eq_none_iff : t.node = none ↔ t = .nothing := by
  cases t with
  | _ => simp [node]

theorem exists_eq_false_iff : t.exists = false ↔ t = .nothing := by
  cases t with
  | _ => simp [Files.exists]

theorem is_dir_iff_node : t.is_dir = true ↔ t.node = some .dir := by
  cases t with
  | _ => simp [is_dir, node]

theorem is_link_iff_node : t.is_link = true ↔ ∃ target, t.node = some (.link target) := by
  cases t with
  | _ => simp [is_link, node]

theorem node_eq_of_leaf {t u : Files N D T} (hleaf : t.leaf = u.leaf) (hdir : t.is_dir = u.is_dir) :
    t.node = u.node := by
  cases t with
  | _ => cases u with
    | _ => simp_all [node, leaf, is_dir]

theorem is_link_of_node {t u : Files N D T} (h : t.node = u.node) : t.is_link = u.is_link := by
  rw [Bool.eq_iff_iff, is_link_iff_node, is_link_iff_node, h]

variable {part path : List N}

/-- Nothing is below nothing. -/
theorem get_of_prefix_nothing (h : part <+: path)
    (hpart : t.get part = .nothing) : t.get path = .nothing := by
  obtain ⟨rest, rfl⟩ := h
  rw [get_append, hpart, get_nothing]

/-- What is above something is there. -/
theorem exists_above (h : part <+: path)
    (hpath : (t.get path).exists = true) : (t.get part).exists = true := by
  by_contra hnot
  rw [Bool.not_eq_true] at hnot
  rw [get_of_prefix_nothing h (exists_eq_false_iff.1 hnot)] at hpath
  cases hpath

/-- What is above something is a directory. -/
theorem is_dir_above (h : part <+: path) (hne : part ≠ path)
    (hpath : t.get path ≠ .nothing) : (t.get part).is_dir = true := by
  obtain ⟨rest, rfl⟩ := h
  cases rest with
  | nil => exact absurd (List.append_nil part).symm hne
  | cons name rest =>
    by_contra hnot
    rw [get_append, get_cons_of_not_dir (by simpa using hnot)] at hpath
    exact hpath rfl

/-- Two trees with the same nodes are one. -/
theorem eq_of_node {t u : Files N D T} (h : ∀ path, (t.get path).node = (u.get path).node) : t = u := by
  induction t generalizing u with
  | nothing => exact (node_eq_none_iff.1 (h []).symm).symm
  | file data =>
    cases u with
    | file other =>
      obtain rfl : data = other := by simpa [node] using h []
      rfl
    | _ => exact absurd (h []) (by simp [node])
  | link target =>
    cases u with
    | link other =>
      obtain rfl : target = other := by simpa [node] using h []
      rfl
    | _ => exact absurd (h []) (by simp [node])
  | dir child ih =>
    cases u with
    | dir other => exact congrArg Files.dir (funext fun name => ih name fun path => h (name :: path))
    | _ => exact absurd (h []) (by simp [node])

theorem node_eq_some_link {target : T} : t.node = some (.link target) ↔ t = .link target := by
  cases t with
  | _ => simp [node]

theorem node_eq_some_file {data : D} : t.node = some (.file data) ↔ t = .file data := by
  cases t with
  | _ => simp [node]

theorem leaf_eq_none_iff : t.leaf = none ↔ t = .nothing ∨ t.is_dir = true := by
  cases t with
  | _ => simp [leaf, is_dir]

theorem exists_of_is_dir (h : t.is_dir = true) : t.exists = true := by
  cases t with
  | dir child => rfl
  | _ => cases h

variable [DecidableEq N]

/-- A node that is not at the path, nor below it, stays. -/
theorem node_get_put_elsewhere {path other : List N} (h : ¬path <+: other) (t entry : Files N D T) :
    ((t.put path entry).get other).node = (t.get other).node :=
  see_get_put node h (fun _ t _ _ => by cases t <;> rfl) t entry

/-- What is removed is gone. -/
theorem get_put_nothing (t : Files N D T) (path : List N) : (t.put path .nothing).get path = .nothing := by
  rcases get_put_same t .nothing path with h | h
  · exact h
  · exact h

/-! ## Changes, one behind another -/

theorem set_child_child (t : Files N D T) (name : N) : t.set_child name (t.child name) = t := by
  cases t with
  | dir child => exact congrArg Files.dir (Function.update_eq_self name child)
  | _ => rfl

theorem set_child_set_child (t : Files N D T) (name : N) (a b : Files N D T) :
    (t.set_child name a).set_child name b = t.set_child name b := by
  cases t with
  | dir child => exact congrArg Files.dir (@Function.update_idem _ _ _ name a b child)
  | _ => rfl

/-- What is there may be put there. -/
theorem put_get_self (t : Files N D T) (path : List N) : t.put path (t.get path) = t := by
  induction path generalizing t with
  | nil => rfl
  | cons name path ih =>
    show t.set_child name ((t.child name).put path ((t.child name).get path)) = t
    rw [ih, set_child_child]

/-- What is put last counts. -/
theorem put_put (t a b : Files N D T) (path : List N) : (t.put path a).put path b = t.put path b := by
  induction path generalizing t with
  | nil => rfl
  | cons name path ih =>
    show (t.set_child name _).set_child name (((t.set_child name _).child name).put path b)
      = t.set_child name _
    rw [set_child_set_child]
    cases hdir : t.is_dir with
    | true => rw [child_set_child_self hdir, ih]
    | false =>
      cases t with
      | dir child => cases hdir
      | _ => rfl

/-- What is put into a directory that was put. -/
theorem put_dir_put (t : Files N D T) (path : List N) (child : N → Files N D T) (name : N)
    (entry : Files N D T) : (t.put path (.dir child)).put (path ++ [name]) entry
      = t.put path (.dir (Function.update child name entry)) := by
  induction path generalizing t with
  | nil => rfl
  | cons first path ih =>
    show (t.set_child first _).set_child first
      (((t.set_child first _).child first).put (path ++ [name]) entry)
      = t.set_child first _
    rw [set_child_set_child]
    cases hdir : t.is_dir with
    | true => rw [child_set_child_self hdir, ih]
    | false =>
      cases t with
      | dir child => cases hdir
      | _ => rfl

/-- A change is not seen from a path that parts from it. -/
theorem get_put_apart {path other : List N} (h : ¬path <+: other) (h' : ¬other <+: path)
    (t entry : Files N D T) : (t.put path entry).get other = t.get other :=
  see_get_put id h (fun hstart => absurd hstart h') t entry

/-- A directory that is not at the path, nor below it, stays one. -/
theorem is_dir_put_elsewhere {path other : List N} (h : ¬path <+: other) (t entry : Files N D T) :
    ((t.put path entry).get other).is_dir = (t.get other).is_dir := by
  rw [Bool.eq_iff_iff, is_dir_iff_node, is_dir_iff_node, node_get_put_elsewhere h]

/-! ## Directories that are made -/

/-- Making a directory that is there changes nothing. -/
theorem make_dirs_of_is_dir {path : List N} (h : (t.get path).is_dir = true) :
    t.make_dirs path = some t := by
  induction path generalizing t with
  | nil =>
    cases t with
    | dir child => rfl
    | _ => cases h
  | cons name path ih =>
    cases t with
    | dir child =>
      have hchild : ((child name).get path).is_dir = true := h
      have hbelow : (match child name with
          | .nothing => empty
          | other => other) = child name := by
        cases hname : child name with
        | nothing =>
          rw [hname, get_nothing] at hchild
          cases hchild
        | _ => rfl
      rw [make_dirs, hbelow, ih hchild]
      exact congrArg some (congrArg Files.dir (Function.update_eq_self name child))
    | _ =>
      rw [get_cons_of_not_dir rfl] at h
      cases h

/-- A directory can be made if nothing is in the way. -/
theorem make_dirs_isSome_iff {path : List N} :
    (t.make_dirs path).isSome = true ↔ t.is_dir = true ∧ ∀ part, part <+: path → (t.get part).leaf = none := by
  induction path generalizing t with
  | nil =>
    cases t with
    | dir child => simp [make_dirs, is_dir, leaf]
    | _ => simp [make_dirs, is_dir]
  | cons name path ih =>
    cases t with
    | dir child =>
      rw [make_dirs, Option.isSome_map, ih]
      constructor
      · rintro ⟨hdir, hparts⟩
        refine ⟨rfl, fun part hpart => ?_⟩
        cases part with
        | nil => rfl
        | cons first part =>
          obtain ⟨rfl, hbelow⟩ := List.cons_prefix_cons.1 hpart
          have hleaf := hparts part hbelow
          show ((child first).get part).leaf = none
          cases hchild : child first with
          | nothing => rw [get_nothing]; rfl
          | _ => rwa [hchild] at hleaf
      · rintro ⟨-, hparts⟩
        have hname : (child name).leaf = none := hparts [name] (by simp)
        cases hchild : child name with
        | nothing =>
          refine ⟨rfl, fun part hpart => ?_⟩
          cases part with
          | nil => rfl
          | cons second part => exact congrArg leaf (get_nothing part)
        | dir below =>
          refine ⟨rfl, fun part hpart => ?_⟩
          have hleaf := hparts (name :: part) (List.cons_prefix_cons.2 ⟨rfl, hpart⟩)
          rwa [get_cons, child_dir, hchild] at hleaf
        | file data | link target => rw [hchild] at hname; cases hname
    | _ => simp [make_dirs, is_dir]

/-- Directories stay when others are made. -/
theorem is_dir_get_make_dirs {t t' : Files N D T} {path : List N} (h : t.make_dirs path = some t')
    {other : List N} (hother : (t.get other).is_dir = true) : (t'.get other).is_dir = true := by
  rcases get_make_dirs h other with hsame | ⟨-, -, hdir⟩
  · rw [hsame, hother]
  · exact hdir

/-- What is not on the way to the directory stays. -/
theorem get_make_dirs_apart {t t' : Files N D T} {path : List N} (h : t.make_dirs path = some t')
    {other : List N} (hother : ¬other <+: path) : t'.get other = t.get other :=
  (get_make_dirs h other).resolve_right fun hon => hother hon.1

/-! ## Entries that are dropped -/

/-- The entries of a directory that are to be dropped are gone. -/
def prune (drop : N → Files N D T → Bool) (path : List N) (t : Files N D T) : Files N D T :=
  if (t.get path).is_dir then
    t.put path (.dir fun name =>
      if drop name ((t.get path).child name) then .nothing else (t.get path).child name)
  else t

variable {drop : N → Files N D T → Bool}

/-- An entry of the directory. -/
theorem get_prune_entry (h : ∀ name, drop name .nothing = false) (path : List N) (t : Files N D T) (name : N) :
    (t.prune drop path).get (path ++ [name])
      = if drop name (t.get (path ++ [name])) then .nothing else t.get (path ++ [name]) := by
  have hentry : t.get (path ++ [name]) = (t.get path).child name := by
    rw [get_append, get_cons, get_nil]
  rw [hentry]
  unfold prune
  cases hdir : (t.get path).is_dir with
  | true =>
    rw [if_pos rfl, get_append, get_put_of_exists (exists_of_is_dir hdir)]
    rfl
  | false => rw [if_neg Bool.false_ne_true, child_of_not_dir hdir, h, if_neg Bool.false_ne_true, hentry,
      child_of_not_dir hdir]

/-- What is not in the directory stays. -/
theorem node_prune_elsewhere {path other : List N} (h : ∀ name, ¬path ++ [name] <+: other) (t : Files N D T) :
    ((t.prune drop path).get other).node = (t.get other).node := by
  unfold prune
  cases hdir : (t.get path).is_dir with
  | false => rfl
  | true =>
    rw [if_pos rfl]
    by_cases hstart : path <+: other
    · obtain ⟨rest, rfl⟩ := hstart
      cases rest with
      | nil =>
        rw [List.append_nil, get_put_of_exists (exists_of_is_dir hdir), is_dir_iff_node.1 hdir]
        rfl
      | cons name rest => exact absurd ⟨rest, by simp⟩ (h name)
    · exact node_get_put_elsewhere hstart t _

/-- What is left was there. -/
theorem link_of_prune (h : ∀ name, drop name .nothing = false) {path other : List N} {target : T}
    (hlink : (t.prune drop path).get other = .link target) : t.get other = .link target := by
  by_cases hbelow : ∃ name, path ++ [name] <+: other
  · obtain ⟨name, rest, rfl⟩ := hbelow
    rw [get_append _ (path ++ [name]) rest, get_prune_entry h] at hlink
    rw [get_append _ (path ++ [name]) rest]
    split_ifs at hlink
    · rw [get_nothing] at hlink
      cases hlink
    · exact hlink
  · have hnode : ((t.prune drop path).get other).node = (t.get other).node :=
      node_prune_elsewhere (fun name hname => hbelow ⟨name, hname⟩) t
    rw [hlink] at hnode
    exact node_eq_some_link.1 hnode.symm

/-- Nothing is dropped, so nothing changes. -/
theorem prune_eq_self {path : List N}
    (h : ∀ name, drop name ((t.get path).child name) = true → (t.get path).child name = .nothing) :
    t.prune drop path = t := by
  unfold prune
  cases hdir : (t.get path).is_dir with
  | false => rfl
  | true =>
    have hsame : (Files.dir fun name =>
        if drop name ((t.get path).child name) then .nothing else (t.get path).child name) = t.get path := by
      cases hentry : t.get path with
      | dir child =>
        refine congrArg Files.dir (funext fun name => ?_)
        rw [hentry] at h
        split_ifs with hdrop
        · exact (h name hdrop).symm
        · rfl
      | _ =>
        rw [hentry] at hdir
        cases hdir
    rw [if_pos rfl, hsame, put_get_self]

end Files

end AgentSpace.Lib
