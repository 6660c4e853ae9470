/-
Tables of rows that carry their own key, in the order in which the keys came.

Putting a row whose key is there changes that row in place; another row goes to the
end.
-/
import Mathlib.Data.List.Nodup
import Mathlib.Data.List.Perm.Basic

set_option autoImplicit false

namespace AgentSpace.Lib

/-- A table: its rows in order, no two of them with one key. -/
structure Table {κ α : Type} (key : α → κ) where
  rows : List α
  nodup : (rows.map key).Nodup

namespace Table

variable {κ α : Type} {key : α → κ}

/-- No rows. -/
def empty : Table key := ⟨[], List.nodup_nil⟩

@[simp] theorem rows_empty : (empty : Table key).rows = [] := rfl

theorem ext {t t' : Table key} (h : t.rows = t'.rows) : t = t' := by
  cases t
  cases t'
  cases h
  rfl

variable {t : Table key}

/-- A key stands for one row. -/
theorem eq_of_key {a b : α} (ha : a ∈ t.rows) (hb : b ∈ t.rows) (h : key a = key b) : a = b :=
  List.inj_on_of_nodup_map t.nodup ha hb h

variable [DecidableEq κ]

/-- The row of a key. -/
def get (t : Table key) (k : κ) : Option α := t.rows.find? fun a => key a = k

/-- The rows with the one of the key changed. -/
def replace (key : α → κ) (a : α) (rows : List α) : List α :=
  rows.map fun b => if key b = key a then a else b

theorem map_key_replace (a : α) (rows : List α) : (replace key a rows).map key = rows.map key := by
  rw [replace, List.map_map]
  refine List.map_congr_left fun b _ => ?_
  by_cases h : key b = key a
  · simp [h]
  · simp [h]

/-- The table with the row. -/
def put (t : Table key) (a : α) : Table key :=
  if h : key a ∈ t.rows.map key then ⟨replace key a t.rows, by
    rw [map_key_replace]
    exact t.nodup⟩
  else ⟨t.rows ++ [a], by
    rw [List.map_append, List.map_singleton, List.nodup_append]
    refine ⟨t.nodup, List.nodup_singleton _, ?_⟩
    intro x hx y hy hxy
    rw [List.mem_singleton.1 hy] at hxy
    subst hxy
    exact h hx⟩

@[simp] theorem get_empty (k : κ) : (empty : Table key).get k = none := rfl

variable {a : α}

theorem get_eq_some_iff {k : κ} : t.get k = some a ↔ a ∈ t.rows ∧ key a = k := by
  constructor
  · intro h
    have hkey := List.find?_some h
    exact ⟨List.mem_of_find?_eq_some h, of_decide_eq_true hkey⟩
  · rintro ⟨hmem, rfl⟩
    cases hfind : t.get (key a) with
    | none =>
      have hno := List.find?_eq_none.1 hfind a hmem
      simp at hno
    | some b =>
      have hb : b ∈ t.rows := List.mem_of_find?_eq_some hfind
      have hfound := List.find?_some hfind
      have hkey : key b = key a := of_decide_eq_true hfound
      rw [eq_of_key hb hmem hkey]

theorem mem_rows_iff : a ∈ t.rows ↔ t.get (key a) = some a := by
  rw [get_eq_some_iff]
  exact ⟨fun h => ⟨h, rfl⟩, fun h => h.1⟩

theorem get_put (t : Table key) (a : α) (k : κ) :
    (t.put a).get k = if k = key a then some a else t.get k := by
  refine Option.ext fun b => ?_
  rw [get_eq_some_iff, put]
  by_cases hmem : key a ∈ t.rows.map key
  · rw [dif_pos hmem]
    show b ∈ replace key a t.rows ∧ key b = k ↔ _
    rw [replace, List.mem_map]
    constructor
    · rintro ⟨⟨c, hc, hb⟩, rfl⟩
      by_cases hca : key c = key a
      · rw [if_pos hca] at hb
        rw [← hb, if_pos rfl]
      · rw [if_neg hca] at hb
        subst hb
        rw [if_neg hca]
        exact mem_rows_iff.1 hc
    · intro h
      by_cases hk : k = key a
      · rw [if_pos hk] at h
        obtain rfl := Option.some.inj h
        obtain ⟨c, hc, hca⟩ := List.mem_map.1 hmem
        exact ⟨⟨c, hc, if_pos hca⟩, hk.symm⟩
      · rw [if_neg hk] at h
        obtain ⟨hb, hkey⟩ := get_eq_some_iff.1 h
        exact ⟨⟨b, hb, if_neg (by rwa [hkey])⟩, hkey⟩
  · rw [dif_neg hmem]
    show b ∈ t.rows ++ [a] ∧ key b = k ↔ _
    rw [List.mem_append, List.mem_singleton]
    by_cases hk : k = key a
    · rw [if_pos hk]
      constructor
      · rintro ⟨hb | rfl, hkey⟩
        · exact absurd (List.mem_map.2 ⟨b, hb, hkey.trans hk⟩) hmem
        · rfl
      · intro h
        obtain rfl := Option.some.inj h
        exact ⟨Or.inr rfl, hk.symm⟩
    · rw [if_neg hk, get_eq_some_iff]
      constructor
      · rintro ⟨hb | rfl, hkey⟩
        · exact ⟨hb, hkey⟩
        · exact absurd hkey.symm hk
      · rintro ⟨hb, hkey⟩
        exact ⟨Or.inl hb, hkey⟩

@[simp] theorem get_put_self (t : Table key) (a : α) : (t.put a).get (key a) = some a := by
  rw [get_put, if_pos rfl]

theorem get_put_of_ne (t : Table key) {k : κ} (h : k ≠ key a) : (t.put a).get k = t.get k := by
  rw [get_put, if_neg h]

theorem mem_rows_put {a b : α} (h : b ∈ (t.put a).rows) : b = a ∨ b ∈ t.rows := by
  rw [mem_rows_iff, get_put] at h
  by_cases hk : key b = key a
  · rw [if_pos hk] at h
    exact Or.inl (Option.some.inj h).symm
  · rw [if_neg hk] at h
    exact Or.inr (mem_rows_iff.2 h)

/-- The rows whose key is to stay. -/
def retain (t : Table key) (keep : κ → Bool) : Table key :=
  ⟨t.rows.filter fun a => keep (key a), (List.filter_sublist.map key).nodup t.nodup⟩

omit [DecidableEq κ] in
theorem mem_rows_retain {keep : κ → Bool} :
    a ∈ (t.retain keep).rows ↔ a ∈ t.rows ∧ keep (key a) = true := List.mem_filter

theorem get_retain (t : Table key) (keep : κ → Bool) (k : κ) :
    (t.retain keep).get k = if keep k = true then t.get k else none := by
  refine Option.ext fun a => ?_
  rw [get_eq_some_iff, mem_rows_retain]
  by_cases hk : keep k = true
  · rw [if_pos hk, get_eq_some_iff]
    constructor
    · rintro ⟨⟨ha, -⟩, hkey⟩
      exact ⟨ha, hkey⟩
    · rintro ⟨ha, hkey⟩
      exact ⟨⟨ha, hkey ▸ hk⟩, hkey⟩
  · rw [if_neg hk]
    constructor
    · rintro ⟨⟨-, hkeep⟩, rfl⟩
      exact absurd hkeep hk
    · intro h
      cases h

end Table

end AgentSpace.Lib
