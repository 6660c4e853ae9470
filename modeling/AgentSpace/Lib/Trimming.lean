/-
Trimming a list: what is left without the blanks at its two ends.

What a beginning is trimmed to is a beginning of what the whole is trimmed to (`trim_prefix`). And
leaving items out before trimming leaves the length as it is if and only if they would have been
trimmed anyway (`length_trim_filter`).
-/
import Mathlib.Data.List.DropRight

set_option autoImplicit false

namespace AgentSpace.Lib

variable {α β : Type} (blank : α → Bool)

/-- The list without the blanks at its ends. -/
def trimmed (l : List α) : List α := (l.dropWhile blank).rdropWhile blank

variable {blank}

variable {l : List α}

theorem dropWhile_eq_nil_of_blank (h : ∀ a ∈ l, blank a = true) : l.dropWhile blank = [] :=
  List.dropWhile_eq_nil_iff.2 h

/-- A list with no blank at its ends is what it is trimmed to. -/
theorem trimmed_eq_self (hhead : ∀ a ∈ l.head?, blank a = false)
    (hlast : ∀ a ∈ l.getLast?, blank a = false) : trimmed blank l = l := by
  have hstart : l.dropWhile blank = l := by
    cases l with
    | nil => rfl
    | cons a l => exact List.dropWhile_cons_of_neg (ne_true_of_eq_false (hhead a rfl))
  rw [trimmed, hstart, List.rdropWhile_eq_self_iff]
  intro hne
  exact ne_true_of_eq_false (hlast _ (List.getLast?_eq_some_getLast hne))

/-- Blanks in front do not matter. -/
theorem trimmed_append_left {lead : List α} (h : ∀ a ∈ lead, blank a = true) (l : List α) :
    trimmed blank (lead ++ l) = trimmed blank l := by
  rw [trimmed, List.dropWhile_append_of_pos h, trimmed]

theorem rdropWhile_append_blank {tail : List α} (h : ∀ a ∈ tail, blank a = true) (l : List α) :
    (l ++ tail).rdropWhile blank = l.rdropWhile blank := by
  induction tail using List.reverseRecOn with
  | nil => rw [List.append_nil]
  | append_singleton tail a ih =>
    rw [← List.append_assoc, List.rdropWhile_concat_pos _ _ _ (h a (by simp))]
    exact ih fun b hb => h b (List.mem_append_left _ hb)

/-- Nor do blanks behind. -/
theorem trimmed_append_right {tail : List α} (h : ∀ a ∈ tail, blank a = true) (l : List α) :
    trimmed blank (l ++ tail) = trimmed blank l := by
  rw [trimmed, trimmed, List.dropWhile_append]
  split
  · rename_i hempty
    rw [List.isEmpty_iff.1 hempty, dropWhile_eq_nil_of_blank h]
  · exact rdropWhile_append_blank h _

/-- What is left has no blank at its end, so that more behind it comes after it. -/
theorem prefix_rdropWhile (h : l.rdropWhile blank = l) (more : List α) :
    l <+: (l ++ more).rdropWhile blank := by
  induction more using List.reverseRecOn with
  | nil =>
    exact ⟨[], by rw [List.append_nil, h]⟩
  | append_singleton more a ih =>
    rw [← List.append_assoc, List.rdropWhile_concat]
    split
    · exact ih
    · rw [List.append_assoc]
      exact List.prefix_append _ _

/-- **A beginning** is trimmed to a beginning. -/
theorem trim_prefix (l more : List α) : trimmed blank l <+: trimmed blank (l ++ more) := by
  rw [trimmed, trimmed, List.dropWhile_append]
  split
  · rename_i hempty
    rw [List.isEmpty_iff.1 hempty, List.rdropWhile_nil]
    exact List.nil_prefix
  · have hsplit : (l.dropWhile blank).rdropWhile blank ++ (l.dropWhile blank).rtakeWhile blank
        = l.dropWhile blank := List.rdropWhile_append_rtakeWhile
    have hself : ((l.dropWhile blank).rdropWhile blank).rdropWhile blank
        = (l.dropWhile blank).rdropWhile blank := List.rdropWhile_idempotent _ _
    have hprefix := prefix_rdropWhile hself ((l.dropWhile blank).rtakeWhile blank ++ more)
    rwa [← List.append_assoc, hsplit] at hprefix

variable (blank) in
/-- A list is blanks, what it is trimmed to, and blanks. -/
theorem trimmed_split (l : List α) : ∃ lead tail : List α, l = lead ++ trimmed blank l ++ tail
    ∧ (∀ a ∈ lead, blank a = true) ∧ ∀ a ∈ tail, blank a = true := by
  have hend : (l.dropWhile blank).rdropWhile blank ++ (l.dropWhile blank).rtakeWhile blank
      = l.dropWhile blank := List.rdropWhile_append_rtakeWhile
  refine ⟨l.takeWhile blank, (l.dropWhile blank).rtakeWhile blank, ?_, fun a ha => List.mem_takeWhile_imp ha,
    fun a ha => List.mem_rtakeWhile_imp ha⟩
  rw [trimmed, List.append_assoc, hend, List.takeWhile_append_dropWhile]

variable (blank) in
theorem trimmed_sublist (l : List α) : (trimmed blank l).Sublist l :=
  (List.rdropWhile_prefix _ _).sublist.trans (List.dropWhile_sublist _)

theorem trimmed_trimmed (l : List α) : trimmed blank (trimmed blank l) = trimmed blank l := by
  obtain ⟨lead, tail, hsplit, hlead, htail⟩ := trimmed_split blank l
  have h := congrArg (trimmed blank) hsplit
  rw [trimmed_append_right htail, trimmed_append_left hlead] at h
  exact h.symm

/-- **Leaving items out** keeps the length of what is left if and only if none of them is in it. -/
theorem length_trim_filter (keep : α → Bool) (l : List α) :
    (trimmed blank (l.filter keep)).length = (trimmed blank l).length
      ↔ ∀ a ∈ trimmed blank l, keep a = true := by
  obtain ⟨lead, tail, hsplit, hlead, htail⟩ := trimmed_split blank l
  have hfilter : trimmed blank (l.filter keep) = trimmed blank ((trimmed blank l).filter keep) := by
    conv_lhs => rw [hsplit]
    rw [List.filter_append, List.filter_append,
      trimmed_append_right fun a ha => htail a (List.mem_filter.1 ha).1,
      trimmed_append_left fun a ha => hlead a (List.mem_filter.1 ha).1]
  rw [hfilter]
  constructor
  · intro hlength
    have hle := (trimmed_sublist blank ((trimmed blank l).filter keep)).length_le
    have hle' := List.length_filter_le keep (trimmed blank l)
    exact List.length_filter_eq_length_iff.1 (by omega)
  · intro h
    rw [List.filter_eq_self.2 h, trimmed_trimmed]

/-- Trimming what a map makes of a list. -/
theorem trimmed_map (f : α → β) (blank : β → Bool) (l : List α) :
    trimmed blank (l.map f) = (trimmed (fun a => blank (f a)) l).map f := by
  rw [trimmed, trimmed, List.dropWhile_map]
  have hr : ∀ m : List α, (m.map f).rdropWhile blank = (m.rdropWhile (blank ∘ f)).map f := by
    intro m
    rw [List.rdropWhile, List.rdropWhile, ← List.map_reverse, List.dropWhile_map, List.map_reverse]
  exact hr _

end AgentSpace.Lib
