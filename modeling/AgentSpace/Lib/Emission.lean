/-
Actions that may raise, and what they write.

An action changes a state, and then returns or raises. Some part `out` of the state is a log.
`Writes out P m` says that the action returns from every state, `Breaks out P m` that it raises
from every state; either way it has only appended to the log, and only items that satisfy `P`.
The rules follow the shape of the action, so a long chain of branches is gone through branch by
branch in the order of its source.
-/
import Mathlib.Init

set_option autoImplicit false

namespace AgentSpace.Lib

variable {ε σ α β ι : Type}

/-- An action on a state, which returns or raises. -/
abbrev Raising (ε σ α : Type) := ExceptT ε (StateM σ) α

/-- The result, and the state that is left. -/
def Raising.exec (m : Raising ε σ α) (s : σ) : Except ε α × σ := m.run s

@[simp] theorem exec_pure (a : α) (s : σ) : (pure a : Raising ε σ α).exec s = (.ok a, s) := rfl

@[simp] theorem exec_throw (e : ε) (s : σ) : (throw e : Raising ε σ α).exec s = (.error e, s) := rfl

@[simp] theorem exec_modify (f : σ → σ) (s : σ) :
    (modify f : Raising ε σ PUnit).exec s = (.ok ⟨⟩, f s) := rfl

/-- What comes behind a part that raises is not run. -/
theorem exec_bind (m : Raising ε σ α) (f : α → Raising ε σ β) (s : σ) :
    (m >>= f).exec s = match m.exec s with
      | (.ok a, s') => (f a).exec s'
      | (.error e, s') => (.error e, s') := by
  change (match m.run s with
    | (r, s') => (ExceptT.bindCont f r).run s') = _
  unfold Raising.exec
  rcases m.run s with ⟨_ | _, s'⟩ <;> rfl

theorem exec_bind_of_ok {m : Raising ε σ α} {f : α → Raising ε σ β} {s : σ} {a : α}
    (ha : (m.exec s).1 = .ok a) : (m >>= f).exec s = (f a).exec (m.exec s).2 := by
  rw [exec_bind]
  generalize m.exec s = outcome at ha
  obtain ⟨result, s'⟩ := outcome
  cases ha
  rfl

theorem exec_bind_of_error {m : Raising ε σ α} {f : α → Raising ε σ β} {s : σ} {e : ε}
    (he : (m.exec s).1 = .error e) : (m >>= f).exec s = (.error e, (m.exec s).2) := by
  rw [exec_bind]
  generalize m.exec s = outcome at he
  obtain ⟨result, s'⟩ := outcome
  cases he
  rfl

/-! ## What is appended -/

/-- The log has grown by items that satisfy `P`. -/
def Appends (out : σ → List ι) (P : ι → Prop) (s s' : σ) : Prop :=
  ∃ items, out s' = out s ++ items ∧ ∀ x ∈ items, P x

namespace Appends

variable {out : σ → List ι} {P : ι → Prop} {s s' s'' : σ}

theorem of_eq (h : out s' = out s) : Appends out P s s' :=
  ⟨[], by simp [h], by simp⟩

theorem one {x : ι} (h : out s' = out s ++ [x]) (hx : P x) : Appends out P s s' :=
  ⟨[x], h, by simpa using hx⟩

theorem trans (h : Appends out P s s') (h' : Appends out P s' s'') : Appends out P s s'' := by
  obtain ⟨items, hitems, hP⟩ := h
  obtain ⟨more, hmore, hP'⟩ := h'
  refine ⟨items ++ more, by rw [hmore, hitems, List.append_assoc], ?_⟩
  intro x hx
  rcases List.mem_append.1 hx with hx | hx
  · exact hP x hx
  · exact hP' x hx

end Appends

/-! ## The rules -/

/-- It returns, and only appends. -/
def Writes (out : σ → List ι) (P : ι → Prop) (m : Raising ε σ α) : Prop :=
  ∀ s, (∃ a, (m.exec s).1 = .ok a) ∧ Appends out P s (m.exec s).2

/-- It raises, and has only appended. -/
def Breaks (out : σ → List ι) (P : ι → Prop) (m : Raising ε σ α) : Prop :=
  ∀ s, (∃ e, (m.exec s).1 = .error e) ∧ Appends out P s (m.exec s).2

section Rules

variable {out : σ → List ι} {P : ι → Prop} {m : Raising ε σ α} {f : α → Raising ε σ β}

theorem Writes.ret (a : α) : Writes out P (pure a : Raising ε σ α) :=
  fun _ => ⟨⟨a, rfl⟩, .of_eq rfl⟩

theorem Writes.update {g : σ → σ} (h : ∀ s, Appends out P s (g s)) :
    Writes out P (modify g : Raising ε σ PUnit) :=
  fun s => ⟨⟨⟨⟩, rfl⟩, h s⟩

theorem Writes.update_get {g : σ → α × σ} (h : ∀ s, Appends out P s (g s).2) :
    Writes out P (modifyGet g : Raising ε σ α) :=
  fun s => ⟨⟨_, rfl⟩, h s⟩

theorem Writes.read : Writes out P (get : Raising ε σ σ) :=
  fun _ => ⟨⟨_, rfl⟩, .of_eq rfl⟩

theorem Writes.bind (hm : Writes out P m) (hf : ∀ a, Writes out P (f a)) : Writes out P (m >>= f) := by
  intro s
  obtain ⟨⟨a, ha⟩, happends⟩ := hm s
  rw [exec_bind_of_ok ha]
  exact ⟨(hf a _).1, happends.trans (hf a _).2⟩

theorem Writes.ite {c : Prop} [Decidable c] {m m' : Raising ε σ α} (h : c → Writes out P m)
    (h' : ¬c → Writes out P m') : Writes out P (if c then m else m') := by
  by_cases hc : c
  · rw [if_pos hc]
    exact h hc
  · rw [if_neg hc]
    exact h' hc

theorem Breaks.raise (e : ε) : Breaks out P (throw e : Raising ε σ α) :=
  fun _ => ⟨⟨e, rfl⟩, .of_eq rfl⟩

theorem Writes.bind_breaks (hm : Writes out P m) (hf : ∀ a, Breaks out P (f a)) : Breaks out P (m >>= f) := by
  intro s
  obtain ⟨⟨a, ha⟩, happends⟩ := hm s
  rw [exec_bind_of_ok ha]
  exact ⟨(hf a _).1, happends.trans (hf a _).2⟩

theorem Breaks.bind_left (hm : Breaks out P m) : Breaks out P (m >>= f) := by
  intro s
  obtain ⟨⟨e, he⟩, happends⟩ := hm s
  rw [exec_bind_of_error he]
  exact ⟨⟨e, rfl⟩, happends⟩

end Rules

end AgentSpace.Lib
