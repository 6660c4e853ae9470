/-
Lists whose items are told apart by a key.

A list in which no key occurs twice stands for a set of items. Sorting it by key is a
normal form of that set (`sort_by_key_eq_iff`), the map of its items by key is another
(`ofList_eq_iff`), and an item is found under its key (`find_key_eq_some`).
-/
import Mathlib

set_option autoImplicit false

namespace AgentSpace.Lib

section Keyed

variable {α β κ : Type} (key : α → κ)

/-- No key occurs twice. -/
def Keyed (l : List α) : Prop := (l.map key).Nodup

variable {key} {l m : List α}

theorem Keyed.perm (h : Keyed key l) (hperm : l.Perm m) : Keyed key m :=
  (hperm.map key).nodup_iff.1 h

theorem Keyed.nodup (h : Keyed key l) : l.Nodup := List.Nodup.of_map key h

/-- Items with the same key are the same item. -/
theorem Keyed.eq_of_key_eq (h : Keyed key l) {a b : α} (ha : a ∈ l) (hb : b ∈ l)
    (hkey : key a = key b) : a = b := List.inj_on_of_nodup_map h ha hb hkey

/-- Lists with the same items are the same up to order. -/
theorem Keyed.perm_of_mem_iff (h : Keyed key l) (h' : Keyed key m) (hmem : ∀ a, a ∈ l ↔ a ∈ m) : l.Perm m :=
  (List.perm_ext_iff_of_nodup h.nodup h'.nodup).2 hmem

theorem Keyed.append (h : Keyed key l) (h' : Keyed key m)
    (hdisjoint : ∀ a ∈ l, ∀ b ∈ m, key a ≠ key b) : Keyed key (l ++ m) := by
  unfold Keyed
  rw [List.map_append, List.nodup_append]
  refine ⟨h, h', fun k hk k' hk' => ?_⟩
  obtain ⟨a, ha, rfl⟩ := List.mem_map.1 hk
  obtain ⟨b, hb, rfl⟩ := List.mem_map.1 hk'
  exact hdisjoint a ha b hb

/-! ## Finding an item -/

section Find

variable [DecidableEq κ]

variable (key) in
/-- The item under a key. -/
def find_key (l : List α) (k : κ) : Option α := l.find? fun a => key a = k

theorem key_of_find_key {k : κ} {a : α} (h : find_key key l k = some a) : a ∈ l ∧ key a = k :=
  ⟨List.mem_of_find?_eq_some h, by simpa using List.find?_some h⟩

theorem find_key_eq_none {k : κ} : find_key key l k = none ↔ k ∉ l.map key := by
  simp [find_key]

theorem find_key_eq_some (h : Keyed key l) {k : κ} {a : α} :
    find_key key l k = some a ↔ a ∈ l ∧ key a = k := by
  refine ⟨key_of_find_key, fun ⟨hmem, hkey⟩ => ?_⟩
  cases hfind : find_key key l k with
  | none => exact absurd (List.mem_map.2 ⟨a, hmem, hkey⟩) (find_key_eq_none.1 hfind)
  | some b =>
    obtain ⟨hb, hkb⟩ := key_of_find_key hfind
    rw [h.eq_of_key_eq hb hmem (hkb.trans hkey.symm)]

/-- Two keyed lists are the same up to order if they have the same item under every key. -/
theorem perm_iff_find_key (h : Keyed key l) (h' : Keyed key m) :
    l.Perm m ↔ ∀ k, find_key key l k = find_key key m k := by
  constructor
  · intro hperm k
    refine Option.ext fun a => ?_
    rw [find_key_eq_some h, find_key_eq_some h', hperm.mem_iff]
  · intro hfind
    refine h.perm_of_mem_iff h' fun a => ?_
    have hiff : a ∈ l ∧ key a = key a ↔ a ∈ m ∧ key a = key a := by
      rw [← find_key_eq_some h, ← find_key_eq_some h', hfind]
    simpa using hiff

end Find

/-! ## Sorting by key -/

section ByKey

variable [Ord κ]

variable (key) in
/-- The order of the keys. -/
def key_le (a b : α) : Prop := (compare (key a) (key b)).isLE = true

instance (a b : α) : Decidable (key_le key a b) := inferInstanceAs (Decidable (_ = true))

variable (key) in
/-- `sort_by` on a key. -/
def sort_by_key (l : List α) : List α := l.insertionSort (key_le key)

theorem perm_sort_by_key : (sort_by_key key l).Perm l := List.perm_insertionSort _ _

variable [Std.TransOrd κ]

theorem pairwise_sort_by_key : (sort_by_key key l).Pairwise (key_le key) := by
  have htotal : Std.Total (key_le key) := by
    refine ⟨fun a b => ?_⟩
    unfold key_le
    have hswap : compare (key b) (key a) = (compare (key a) (key b)).swap :=
      Std.OrientedCmp.eq_swap
    rw [hswap]
    cases compare (key a) (key b) <;> simp
  have htrans : IsTrans α (key_le key) := ⟨fun _ _ _ => Std.TransCmp.isLE_trans⟩
  exact List.pairwise_insertionSort _ _

/-- Sorting twice is sorting once. -/
theorem sort_by_key_idem : sort_by_key key (sort_by_key key l) = sort_by_key key l :=
  pairwise_sort_by_key.insertionSort_eq

variable [Std.LawfulEqOrd κ]

/-- The order of a keyed list is lost when it is sorted. -/
theorem sort_by_key_eq_of_perm (h : Keyed key l) (hperm : l.Perm m) :
    sort_by_key key l = sort_by_key key m := by
  refine ((perm_sort_by_key.trans hperm).trans perm_sort_by_key.symm).eq_of_pairwise
    (fun a b ha hb hle hle' => ?_) pairwise_sort_by_key pairwise_sort_by_key
  exact h.eq_of_key_eq (perm_sort_by_key.mem_iff.1 ha)
    (hperm.mem_iff.2 (perm_sort_by_key.mem_iff.1 hb))
    (Std.LawfulEqCmp.eq_of_compare (Std.OrientedCmp.isLE_antisymm hle hle'))

/-- **Normal form.** Keyed lists are the same up to order if they are sorted to the same
list. -/
theorem sort_by_key_eq_iff (h : Keyed key l) : sort_by_key key l = sort_by_key key m ↔ l.Perm m := by
  refine ⟨fun heq => ?_, sort_by_key_eq_of_perm h⟩
  have hm : (sort_by_key key m).Perm m := perm_sort_by_key
  rw [← heq] at hm
  exact perm_sort_by_key.symm.trans hm

end ByKey

/-! ## The map of the items -/

section Map

variable [Ord κ] [Std.TransOrd κ] [Std.LawfulEqOrd κ] [DecidableEq κ]

variable (key) in
/-- The items' values by key, as a map that is collected from a list has them. -/
def collect (f : α → β) (l : List α) : Std.ExtTreeMap κ β compare :=
  Std.ExtTreeMap.ofList (l.map fun a => (key a, f a)) compare

/-- Under a key there is the value of the item with the key. -/
theorem getElem?_collect (f : α → β) (h : Keyed key l) (k : κ) :
    (collect key f l)[k]? = (find_key key l k).map f := by
  unfold collect
  cases hfind : find_key key l k with
  | none =>
    have hnot := find_key_eq_none.1 hfind
    refine Std.ExtTreeMap.getElem?_ofList_of_contains_eq_false ?_
    simpa [List.map_map, Function.comp_def] using hnot
  | some a =>
    obtain ⟨hmem, hkey⟩ := key_of_find_key hfind
    refine Std.ExtTreeMap.getElem?_ofList_of_mem (k := key a) ?_ ?_ ?_
    · rw [hkey]
      exact Std.ReflCmp.compare_self
    · have hdistinct : l.Pairwise fun a b => key a ≠ key b := List.pairwise_map.1 h
      refine List.pairwise_map.2 (hdistinct.imp fun hne => ?_)
      exact fun heq => hne (Std.LawfulEqCmp.eq_of_compare heq)
    · exact List.mem_map.2 ⟨a, hmem, rfl⟩

/-- A map that is made of keyed entries has exactly these. -/
theorem getElem?_ofList_eq_some {entries : List (κ × β)} (h : Keyed Prod.fst entries) {k : κ}
    {b : β} : (Std.ExtTreeMap.ofList entries compare)[k]? = some b ↔ (k, b) ∈ entries := by
  have hcollect : Std.ExtTreeMap.ofList entries compare = collect Prod.fst Prod.snd entries := by
    unfold collect
    rw [List.map_id' entries]
  rw [hcollect, getElem?_collect Prod.snd h, Option.map_eq_some_iff]
  constructor
  · rintro ⟨entry, hfind, rfl⟩
    obtain ⟨hmem, rfl⟩ := (find_key_eq_some h).1 hfind
    exact hmem
  · exact fun hmem => ⟨_, (find_key_eq_some h).2 ⟨hmem, rfl⟩, rfl⟩

/-- The keys of the map are those of the items. -/
theorem mem_collect (f : α → β) (h : Keyed key l) (k : κ) : k ∈ collect key f l ↔ k ∈ l.map key := by
  rw [Std.ExtTreeMap.mem_iff_isSome_getElem?, getElem?_collect f h, Option.isSome_map,
    Option.isSome_iff_ne_none, Ne, find_key_eq_none, not_not]

end Map

end Keyed

end AgentSpace.Lib
