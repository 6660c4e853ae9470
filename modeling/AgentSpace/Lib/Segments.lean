/-
Lists split at separators.

A list is free of separators, or it is two lists around one, which is the induction of this
file (`separators_induction`; from the front, `lines_induction`). A function that keeps the separators and works on the parts
between them commutes with splitting (`splitOnP_flatMap`, `splitOnP_map`).
-/
import Mathlib.Data.List.Basic
import Mathlib.Data.Nat.Basic

set_option autoImplicit false

namespace AgentSpace.Lib

variable {α β : Type}

variable (p : α → Bool)

/-- **Induction over separators.** -/
theorem separators_induction {C : List α → Prop} (hfree : ∀ l, (∀ x ∈ l, p x = false) → C l)
    (hsplit : ∀ a x b, p x = true → C a → C b → C (a ++ x :: b)) (l : List α) : C l := by
  induction hn : l.length using Nat.strong_induction_on generalizing l with
  | _ n ih =>
    by_cases hsep : ∃ x ∈ l, p x = true
    · obtain ⟨x, hmem, hx⟩ := hsep
      obtain ⟨a, b, rfl⟩ := List.append_of_mem hmem
      rw [List.length_append, List.length_cons] at hn
      exact hsplit a x b hx (ih a.length (by omega) a rfl) (ih b.length (by omega) b rfl)
    · exact hfree l fun x hx => eq_false_of_ne_true fun hp => hsep ⟨x, hx, hp⟩

/-- **Induction over lines**: a list without the separator, or what comes before the first one and
what comes behind it. -/
theorem lines_induction {C : List α → Prop} (x : α) (hlast : ∀ l, x ∉ l → C l)
    (hline : ∀ a b, x ∉ a → C b → C (a ++ x :: b)) (l : List α) : C l := by
  induction hn : l.length using Nat.strong_induction_on generalizing l with
  | _ n ih =>
    by_cases hmem : x ∈ l
    · obtain ⟨a, b, rfl, ha⟩ := List.eq_append_cons_of_mem hmem
      rw [List.length_append, List.length_cons] at hn
      exact hline a b ha (ih b.length (by omega) b rfl)
    · exact hlast l hmem

/-- **The parts of an image** of a list are those of the images of its parts. -/
theorem splitOnP_flatMap (q : β → Bool) (f : List α → List β)
    (hf : ∀ a x b, p x = true → ∃ y, q y = true ∧ f (a ++ x :: b) = f a ++ y :: f b) (l : List α) :
    (f l).splitOnP q = (l.splitOnP p).flatMap fun part => (f part).splitOnP q := by
  induction l using separators_induction p with
  | hfree l h =>
    rw [List.splitOnP_eq_singleton h, List.flatMap_singleton]
  | hsplit a x b hx iha ihb =>
    obtain ⟨y, hy, heq⟩ := hf a x b hx
    rw [heq, List.splitOnP_append_cons _ _ hy, iha, ihb, List.splitOnP_append_cons _ _ hx,
      List.flatMap_append]

/-- A function that makes no separator maps the parts. -/
theorem splitOnP_map (q : β → Bool) (f : List α → List β)
    (hf : ∀ a x b, p x = true → ∃ y, q y = true ∧ f (a ++ x :: b) = f a ++ y :: f b)
    (hfree : ∀ l, (∀ x ∈ l, p x = false) → ∀ y ∈ f l, q y = false) (l : List α) :
    (f l).splitOnP q = (l.splitOnP p).map f := by
  induction l using separators_induction p with
  | hfree l h =>
    rw [List.splitOnP_eq_singleton h, List.splitOnP_eq_singleton (hfree l h), List.map_singleton]
  | hsplit a x b hx iha ihb =>
    obtain ⟨y, hy, heq⟩ := hf a x b hx
    rw [heq, List.splitOnP_append_cons _ _ hy, iha, ihb, List.splitOnP_append_cons _ _ hx,
      List.map_append]

end AgentSpace.Lib
