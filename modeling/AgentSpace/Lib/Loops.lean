/-
Loops whose body turns again or is done.

`LoopEnds body s a` says that the loop that starts in `s` ends with `a`. A measure that falls at
each turn makes a loop end (`LoopEnds.of_measure`), and states that only turn into each other make
it spin (`not_loopEnds`). `loop` runs the body for so many turns.
-/
import Mathlib.Data.Nat.Basic
import Mathlib.Logic.Function.Iterate
import Mathlib.Tactic.SplitIfs

set_option autoImplicit false

namespace AgentSpace.Lib

variable {σ α : Type}

/-- What a body of a loop comes to: `continue`, or the result of the loop. -/
inductive Turn (σ α : Type) where
  | again (s : σ)
  | done (a : α)

/-- The loop that starts in a state ends with a result. -/
inductive LoopEnds (body : σ → Turn σ α) : σ → α → Prop
  | done {s : σ} {a : α} : body s = .done a → LoopEnds body s a
  | again {s t : σ} {a : α} : body s = .again t → LoopEnds body t a → LoopEnds body s a

/-- The loop, for so many turns. -/
def loop (body : σ → Turn σ α) : ℕ → σ → Option α
  | 0, _ => none
  | turns + 1, s =>
    match body s with
    | .done a => some a
    | .again t => loop body turns t

variable {body : σ → Turn σ α} {s t : σ} {a b : α}

theorem loopEnds_done_iff (h : body s = .done b) : LoopEnds body s a ↔ a = b := by
  constructor
  · intro hends
    cases hends with
    | done h' => exact Turn.done.inj (h'.symm.trans h)
    | again h' _ => cases h'.symm.trans h
  · rintro rfl
    exact .done h

theorem loopEnds_again_iff (h : body s = .again t) : LoopEnds body s a ↔ LoopEnds body t a := by
  refine ⟨fun hends => ?_, .again h⟩
  cases hends with
  | done h' => cases h'.symm.trans h
  | again h' hrest => rwa [Turn.again.inj (h.symm.trans h')]

/-- A loop ends with one result. -/
theorem LoopEnds.unique (h : LoopEnds body s a) (h' : LoopEnds body s b) : a = b := by
  induction h with
  | done hdone => exact ((loopEnds_done_iff hdone).1 h').symm
  | again hagain _ ih => exact ih ((loopEnds_again_iff hagain).1 h')

/-- What the loop that is run for so many turns tells, it ends with. -/
theorem LoopEnds.of_loop (turns : ℕ) (h : loop body turns s = some a) : LoopEnds body s a := by
  induction turns generalizing s with
  | zero => cases h
  | succ turns ih =>
    rw [loop] at h
    cases hbody : body s with
    | done b =>
      rw [hbody] at h
      exact .done (hbody.trans (congrArg Turn.done (Option.some.inj h)))
    | again t =>
      rw [hbody] at h
      exact .again hbody (ih h)

/-- A loop that ends does so in so many turns. -/
theorem LoopEnds.exists_loop (h : LoopEnds body s a) : ∃ turns, loop body turns s = some a := by
  induction h with
  | done hdone => exact ⟨1, by rw [loop, hdone]⟩
  | again hagain _ ih =>
    obtain ⟨turns, hturns⟩ := ih
    refine ⟨turns + 1, ?_⟩
    rw [loop, hagain]
    exact hturns

/-- **A measure that falls** at each turn, in states with an invariant. -/
theorem LoopEnds.of_measure (I : σ → Prop) (μ : σ → ℕ)
    (hturn : ∀ s t, I s → body s = .again t → I t ∧ μ t < μ s) (hs : I s) : ∃ a, LoopEnds body s a := by
  induction hμ : μ s using Nat.strong_induction_on generalizing s with
  | _ n ih =>
    cases hbody : body s with
    | done a => exact ⟨a, .done hbody⟩
    | again t =>
      obtain ⟨ht, hfalls⟩ := hturn s t hs hbody
      obtain ⟨a, hends⟩ := ih (μ t) (hμ ▸ hfalls) ht rfl
      exact ⟨a, .again hbody hends⟩

/-- What the body keeps holds in the turn that ends the loop. -/
theorem LoopEnds.last {I : σ → Prop} (hturn : ∀ s t, I s → body s = .again t → I t) (hs : I s)
    (h : LoopEnds body s a) : ∃ t, I t ∧ body t = .done a := by
  induction h with
  | done hdone => exact ⟨_, hs, hdone⟩
  | again hagain _ ih => exact ih (hturn _ _ hs hagain)

/-- **States that turn into each other** only make no loop that ends. -/
theorem not_loopEnds {I : σ → Prop} (hturn : ∀ s, I s → ∃ t, body s = .again t ∧ I t) (hs : I s) :
    ¬LoopEnds body s a := by
  intro h
  induction h with
  | done hdone =>
    obtain ⟨t, hagain, -⟩ := hturn _ hs
    cases hdone.symm.trans hagain
  | again hagain _ ih =>
    obtain ⟨t, hagain', ht⟩ := hturn _ hs
    rw [Turn.again.inj (hagain.symm.trans hagain')] at ih
    exact ih ht

/-! ## Loops to a fixpoint -/

section Fixpoint

variable [DecidableEq σ] {f : σ → σ}

/-- The body of a loop that applies a function until nothing changes. -/
def fixpoint_turn (f : σ → σ) (s : σ) : Turn σ σ := if f s = s then .done s else .again (f s)

/-- **A loop to a fixpoint** ends if a measure falls whenever the function changes something. -/
theorem exists_fixpoint (μ : σ → ℕ) (hfalls : ∀ s, f s = s ∨ μ (f s) < μ s) (s : σ) :
    ∃ a, LoopEnds (fixpoint_turn f) s a := by
  refine LoopEnds.of_measure (fun _ => True) μ (fun s t _ hturn => ⟨trivial, ?_⟩) trivial
  unfold fixpoint_turn at hturn
  split_ifs at hturn with hfix
  rw [← Turn.again.inj hturn]
  exact (hfalls s).resolve_left hfix

/-- What it ends with is a fixpoint that is reached by so many applications. -/
theorem LoopEnds.fixpoint {s a : σ} (h : LoopEnds (fixpoint_turn f) s a) : f a = a ∧ ∃ n, f^[n] s = a := by
  induction h with
  | done hdone =>
    unfold fixpoint_turn at hdone
    split_ifs at hdone with hfix
    rw [← Turn.done.inj hdone]
    exact ⟨hfix, 0, rfl⟩
  | again hagain _ ih =>
    unfold fixpoint_turn at hagain
    split_ifs at hagain
    obtain ⟨hfix, n, hn⟩ := ih
    rw [← Turn.again.inj hagain] at hn
    exact ⟨hfix, n + 1, hn⟩

end Fixpoint

end AgentSpace.Lib
