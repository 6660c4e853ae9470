/-
Chains of pointers.

Every element of a type points to at most one other (`next`). Where all pointers lead into
a finite set, following them goes on for ever exactly if it comes to an element that leads
back to itself (`ends_iff_not_cycles`).
-/
import Mathlib.Order.Preorder.Finite
import Mathlib.Data.Set.Finite.List

set_option autoImplicit false

namespace AgentSpace.Lib

universe u

variable {α : Type u} {next : α → Option α} {a b : α}

/-- The element `n` pointers ahead. -/
def follow (next : α → Option α) : ℕ → α → Option α
  | 0, a => some a
  | n + 1, a => (next a).bind (follow next n)

/-- The chain from `a` ends. -/
def Ends (next : α → Option α) (a : α) : Prop := ∃ n, follow next n a = none

/-- The chain from `a` comes to `b`. -/
def Leads (next : α → Option α) (a b : α) : Prop := ∃ n, follow next n a = some b

/-- The chain from `b` comes back to `b`. -/
def Cycles (next : α → Option α) (b : α) : Prop := ∃ n, follow next (n + 1) b = some b

/-- Following in two stages. -/
theorem follow_add (next : α → Option α) (m n : ℕ) (a : α) :
    follow next (m + n) a = (follow next m a).bind (follow next n) := by
  induction m generalizing a with
  | zero => rw [Nat.zero_add, follow, Option.bind_some]
  | succ m ih =>
    rw [Nat.succ_add, follow, follow]
    cases next a with
    | none => rfl
    | some b => exact ih b

/-- Behind the end there is nothing. -/
theorem follow_eq_none_of_le {m n : ℕ} (hle : m ≤ n) (h : follow next m a = none) :
    follow next n a = none := by
  obtain ⟨k, rfl⟩ := Nat.exists_eq_add_of_le hle
  rw [follow_add, h, Option.bind_none]

/-- A cycle is gone through any number of times. -/
theorem follow_mul_of_cycle {k : ℕ} (h : follow next k b = some b) (n : ℕ) :
    follow next (n * k) b = some b := by
  induction n with
  | zero => rw [Nat.zero_mul, follow]
  | succ n ih => rw [Nat.succ_mul, follow_add, ih, Option.bind_some, h]

theorem Cycles.not_ends (h : Cycles next b) : ¬Ends next b := by
  rintro ⟨n, hn⟩
  obtain ⟨k, hk⟩ := h
  have hround := follow_mul_of_cycle hk n
  have hle : n ≤ n * (k + 1) := Nat.le_mul_of_pos_right n (Nat.succ_pos k)
  rw [follow_eq_none_of_le hle hn] at hround
  cases hround

theorem Ends.of_leads (h : Ends next a) (hab : Leads next a b) : Ends next b := by
  obtain ⟨n, hn⟩ := h
  obtain ⟨m, hm⟩ := hab
  refine ⟨n, ?_⟩
  have hsum := follow_eq_none_of_le (Nat.le_add_left n m) hn
  rwa [follow_add, hm, Option.bind_some] at hsum

/-- **Chains in a finite set.** A chain ends if and only if it does not come to an
element that leads back to itself. -/
theorem ends_iff_not_cycles {targets : List α} (hfinite : ∀ a b, next a = some b → b ∈ targets) :
    Ends next a ↔ ¬∃ b, Leads next a b ∧ Cycles next b := by
  constructor
  · rintro hends ⟨b, hab, hb⟩
    exact hb.not_ends (hends.of_leads hab)
  · intro hno
    by_contra hends
    -- the elements of a chain that does not end are infinitely many steps in a finite set
    have hsome : ∀ n, ∃ b, follow next (n + 1) a = some b := fun n =>
      Option.ne_none_iff_exists'.1 fun h => hends ⟨n + 1, h⟩
    choose f hf using hsome
    have hmem : ∀ n, f n ∈ {b | b ∈ targets} := by
      intro n
      have hstep := hf n
      rw [follow_add] at hstep
      obtain ⟨c, -, hc⟩ := Option.bind_eq_some_iff.1 hstep
      rw [follow] at hc
      obtain ⟨d, hd, hdb⟩ := Option.bind_eq_some_iff.1 hc
      rw [follow, Option.some.injEq] at hdb
      exact hfinite c _ (hdb ▸ hd)
    have hset : {b | b ∈ targets}.Finite := targets.finite_toSet
    obtain ⟨m, n, hne, heq⟩ := Set.Finite.exists_lt_map_eq_of_forall_mem hmem hset
    obtain ⟨k, rfl⟩ := Nat.exists_eq_add_of_lt hne
    refine hno ⟨f m, ⟨m + 1, hf m⟩, k, ?_⟩
    have hlater := hf (m + k + 1)
    rw [show m + k + 1 + 1 = m + 1 + (k + 1) from by omega, follow_add, hf m,
      Option.bind_some] at hlater
    rw [hlater, heq]

end AgentSpace.Lib
