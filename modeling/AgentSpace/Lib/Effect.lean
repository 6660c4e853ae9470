/-
Computations with a state that may fail.

`Effect ε σ` is a computation over a state in `σ` that ends with a result or with an error;
an error leaves the state as it is when it is raised. A run of a sequence is a run of its
first part and, behind a success, a run of the rest (`run_bind`), which a proof about a run
that is given takes apart by its two endings (`run_bind_cases`). Of a list whose items are
checked and taken one by one, the run has taken those before the first that is refused
(`run_take_in`).
-/
import Mathlib.Data.List.Basic

set_option autoImplicit false

namespace AgentSpace.Lib

/-- A computation over a state in `σ` that may fail with an error in `ε`. -/
abbrev Effect (ε σ α : Type) := ExceptT ε (StateM σ) α

namespace Effect

variable {ε σ α β : Type}

/-- What is read of the state. -/
def read (f : σ → α) : Effect ε σ α := ExceptT.mk fun s => (.ok (f s), s)

/-- A change of the state. -/
def change (f : σ → σ) : Effect ε σ Unit := ExceptT.mk fun s => (.ok (), f s)

/-- A result that is there, whatever the state. -/
def given (r : Except ε α) : Effect ε σ α := ExceptT.mk fun s => (r, s)

/-- A part of the state is asked, which answers and changes. -/
def ask {κ : Type} (part : σ → κ) (put : σ → κ → σ) (f : κ → Except ε α × κ) : Effect ε σ α :=
  ExceptT.mk fun s => ((f (part s)).1, put s (f (part s)).2)

/-- A computation whose error is a result. -/
def attempt (x : Effect ε σ α) : Effect ε σ (Except ε α) :=
  ExceptT.mk fun s => (.ok (x.run s).1, (x.run s).2)

theorem run_read (f : σ → α) (s : σ) : (read f : Effect ε σ α).run s = (.ok (f s), s) := rfl

theorem run_change (f : σ → σ) (s : σ) : (change f : Effect ε σ Unit).run s = (.ok (), f s) := rfl

theorem run_given (r : Except ε α) (s : σ) : (given r : Effect ε σ α).run s = (r, s) := rfl

theorem run_attempt (x : Effect ε σ α) (s : σ) : (attempt x).run s = (.ok (x.run s).1, (x.run s).2) := rfl

/-- The run of a sequence. -/
theorem run_bind (x : Effect ε σ α) (f : α → Effect ε σ β) (s : σ) : (x >>= f).run s = match x.run s with
      | (.ok a, s₁) => (f a).run s₁
      | (.error e, s₁) => (.error e, s₁) := by
  show (do let a ← x.run; ExceptT.bindCont f a) s = _
  show ExceptT.bindCont f (x.run s).1 (x.run s).2 = _
  rcases x.run s with ⟨e | a, s₁⟩ <;> rfl

variable {x : Effect ε σ α} {f : α → Effect ε σ β}

theorem run_bind_of_ok {s s₁ : σ} {a : α} (h : x.run s = (.ok a, s₁)) : (x >>= f).run s = (f a).run s₁ := by
  rw [run_bind, h]

theorem run_bind_of_error {s s₁ : σ} {e : ε}
    (h : x.run s = (.error e, s₁)) : (x >>= f).run s = (.error e, s₁) := by
  rw [run_bind, h]

/-- **A sequence** ends in its first part, with the error of it, or with the rest. -/
theorem run_bind_cases {s s' : σ} {r : Except ε β} (h : (x >>= f).run s = (r, s')) :
    (∃ a s₁, x.run s = (.ok a, s₁) ∧ (f a).run s₁ = (r, s'))
      ∨ ∃ e, x.run s = (.error e, s') ∧ r = .error e := by
  rcases hx : x.run s with ⟨e | a, s₁⟩
  · rw [run_bind_of_error hx] at h
    obtain ⟨rfl, rfl⟩ := Prod.mk.inj h
    exact Or.inr ⟨e, rfl, rfl⟩
  · rw [run_bind_of_ok hx] at h
    exact Or.inl ⟨a, s₁, rfl, h⟩

/-- A sequence that succeeds went through its parts. -/
theorem run_bind_ok {s s' : σ} {b : β} (h : (x >>= f).run s = (.ok b, s')) :
    ∃ a s₁, x.run s = (.ok a, s₁) ∧ (f a).run s₁ = (.ok b, s') := by
  rcases run_bind_cases h with h | ⟨e, -, he⟩
  · exact h
  · cases he

/-! ## Lists taken item by item -/

/-- What a check lets pass of a list up to the first item it refuses, and how it ends. -/
def intake (check : α → Except ε β) : List α → List β × Except ε Unit
  | [] => ([], .ok ())
  | a :: items =>
    match check a with
    | .error e => ([], .error e)
    | .ok b => (b :: (intake check items).1, (intake check items).2)

/-- The items of a list are checked and taken, one after another. -/
def take_in (check : α → Except ε β) (take : σ → β → σ) : List α → Effect ε σ Unit
  | [] => pure ()
  | a :: items => do
    let b ← given (check a)
    change fun s => take s b
    take_in check take items

/-- What was taken before an item is refused stays. -/
theorem run_take_in (check : α → Except ε β) (take : σ → β → σ) (items : List α) (s : σ) :
    (take_in check take items).run s
      = ((intake check items).2, (intake check items).1.foldl take s) := by
  induction items generalizing s with
  | nil => rfl
  | cons a items ih =>
    rw [take_in, run_bind, run_given, intake]
    cases check a with
    | error e => rfl
    | ok b =>
      dsimp only
      rw [run_bind, run_change]
      exact ih (take s b)

end Effect

end AgentSpace.Lib
