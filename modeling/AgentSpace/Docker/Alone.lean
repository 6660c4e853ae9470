/-
An operation that has Docker for itself: what it can come to, whatever Docker chooses
(`Yields`), and the run of its calls when nothing exits and nothing fails (`Quietly`).
-/
import AgentSpace.Docker.Runtime

set_option autoImplicit false

namespace AgentSpace.Docker

open Lib Operation

/-- The calls of the threads, one at a time. -/
def calls {ι : Type} : Exec ι Call Choice Engine Call.Answer := fun _ c choice s =>
  some (Engine.exec c choice s)

/-! ## Whatever Docker chooses -/

section Yields

variable {α β : Type}

/-- One thread, of which nothing is assumed. -/
def alone : Rules Unit Call Choice Engine Call.Answer where
  exec := calls
  allow := fun _ _ _ _ => True
  invariant := fun _ => True
  guarantee := fun _ _ _ => True

theorem alone_stable (P : Engine → Prop) : alone.Stable () P := fun _ hj => absurd rfl hj

/-- The error is none of an identity. -/
def NoCollision (e : AgentHostError) : Prop :=
  ∀ resource_kind resource_name session_id, e ≠ .identity_collision resource_kind resource_name session_id

/-- From `P` the operation comes to `Q`, or to an error that is none of an identity. -/
def Yields (P : Engine → Prop) (operation : Operation α) (Q : α → Engine → Prop) : Prop :=
  alone.Ensures () P operation Q fun e _ => NoCollision e

namespace Yields

variable {P P' : Engine → Prop}

variable {p : Operation α} {Q : α → Engine → Prop}

theorem bind {f : α → Operation β} {Q' : β → Engine → Prop}
    (h : Yields P p Q) (hf : ∀ a, Yields (Q a) (f a) Q') : Yields P (p >>= f) Q' :=
  Rules.Ensures.bind h hf

theorem pure {a : α} (h : ∀ s, P s → Q a s) : Yields P (Pure.pure a) Q :=
  Rules.Ensures.pure fun s _ hP => h s hP

variable {e : AgentHostError}

theorem throw (h : NoCollision e) : Yields P (MonadExcept.throw e : Operation α) Q :=
  Rules.Ensures.throw fun _ _ _ => h

theorem mono {Q Q' : α → Engine → Prop} (h : Yields P p Q) (hP : ∀ s, P' s → P s)
    (hQ : ∀ a s, Q a s → Q' a s) : Yields P' p Q' :=
  (Rules.Ensures.mono h fun s _ => hP s).weaken fun a s _ => hQ a s

theorem map {f : α → β} {Q : Engine → Prop} (h : Yields P p fun _ => Q) : Yields P (f <$> p) fun _ => Q :=
  Rules.Outline.bind h fun answer => by
    cases answer with
    | ok a => exact fun _ _ hQ => hQ
    | error e => exact fun _ _ he => he

variable {c : Call}

theorem exec_error {choice : Choice} {s : Engine}
    (h : (Engine.exec c choice s).1 = .error e) : NoCollision e := by
  have hupstream : ∃ detail, e = .upstream detail := by
    unfold Engine.exec at h
    dsimp only at h
    cases hfails : choice.fails with
    | some detail =>
      rw [hfails] at h
      exact ⟨detail, (Except.error.inj h).symm⟩
    | none =>
      rw [hfails] at h
      dsimp only at h
      cases c with
      | create_container spec | start_container name =>
        simp only [Engine.answer] at h
        split at h
        · exact ⟨_, (Except.error.inj h).symm⟩
        · cases h
      | _ => cases h
  obtain ⟨detail, rfl⟩ := hupstream
  intro resource_kind resource_name session_id hcollision
  cases hcollision

theorem call {Q : c.Value → Engine → Prop}
    (h : ∀ s choice value, P s → (Engine.exec c choice s).1 = .ok value →
      Q value (Engine.exec c choice s).2) : Yields P (Operation.call c) Q := by
  refine Rules.Outline.lift (fun _ => alone_stable _) fun s choice answer t _ hP _ hexec => ?_
  have hcall : Engine.exec c choice s = (answer, t) := Option.some.inj hexec
  refine ⟨trivial, trivial, ?_⟩
  cases answer with
  | ok value =>
    have hvalue := h s choice value hP
    rw [hcall] at hvalue
    exact hvalue rfl
  | error e => exact exec_error (congrArg Prod.fst hcall)

theorem call_keep (h : ∀ s choice, P s → P (Engine.exec c choice s).2) :
    Yields P (Operation.call c) fun _ => P :=
  call fun s choice _ hP _ => h s choice hP

theorem fail_if {condition : Prop} [Decidable condition] {error : AgentHostError}
    (h : ∀ s, P s → condition → NoCollision error) :
    Yields P (Operation.fail_if condition error) fun _ => P := by
  unfold Operation.fail_if
  by_cases hcondition : condition
  · rw [if_pos hcondition]
    exact Rules.Ensures.throw fun s _ hP => h s hP hcondition
  · rw [if_neg hcondition]
    exact pure fun _ hP => hP

theorem not_collision (h : Yields P p Q) {choices : List Choice} {s t : Engine} (hP : P s)
    (hfollow : solo calls () choices p.run s = some (.ret (.error e), t)) : NoCollision e :=
  Rules.Outline.solo h (fun _ _ _ => trivial) trivial hP hfollow

end Yields

end Yields

/-! ## When nothing exits and nothing fails -/

section Quietly

variable {ι α β : Type} {i : ι}

/-- Nothing exits and nothing fails. -/
def quiet : Choice where
  exited := fun _ => false
  fails := none
  id := "0".toList
  port := none

theorem exec_quiet (c : Call) (s : Engine) : Engine.exec c quiet s = s.answer quiet c := by
  have hexited : s.without_exited quiet.exited = s := by
    have hcontainers : s.containers.retain (fun name => !quiet.exited name) = s.containers :=
      Table.ext (List.filter_eq_self.2 fun _ _ => rfl)
    rw [Engine.without_exited, hcontainers]
  unfold Engine.exec
  rw [hexited]
  rfl

/-- What the operation does then: what it returns, and the Docker it leaves. -/
def Quietly (i : ι) (operation : Operation α) (s : Engine) (result : Except AgentHostError α)
    (t : Engine) : Prop :=
  ∃ choices, solo calls i choices operation.run s = some (.ret result, t)

namespace Quietly

variable {p : Operation α} {f : α → Operation β} {a : α} {e : AgentHostError} {s t u : Engine}

theorem call {c : Call} {result : Except AgentHostError c.Value} (h : s.answer quiet c = (result, t)) :
    Quietly i (Operation.call c) s result t := by
  refine ⟨[quiet], ?_⟩
  show (calls i c quiet s).bind _ = _
  rw [calls, exec_quiet, h]
  rfl

theorem pure : Quietly i (Pure.pure a : Operation α) s (.ok a) s := ⟨[], rfl⟩

theorem throw : Quietly i (MonadExcept.throw e : Operation α) s (.error e) s := ⟨[], rfl⟩

theorem bind {result : Except AgentHostError β} (h : Quietly i p s (.ok a) t)
    (hf : Quietly i (f a) t result u) : Quietly i (p >>= f) s result u := by
  obtain ⟨choices, hchoices⟩ := h
  obtain ⟨choices', hchoices'⟩ := hf
  exact ⟨choices ++ choices', (solo_append (solo_bind _ hchoices)).trans hchoices'⟩

theorem bind_error (h : Quietly i p s (.error e) t) : Quietly i (p >>= f) s (.error e) t := by
  obtain ⟨choices, hchoices⟩ := h
  exact ⟨choices, solo_bind _ hchoices⟩

theorem fail_if {condition : Prop} [Decidable condition] (h : condition) :
    Quietly i (Operation.fail_if condition e) s (.error e) s := by
  rw [Operation.fail_if, if_pos h]
  exact throw

theorem not_fail_if {condition : Prop} [Decidable condition] (h : ¬condition) :
    Quietly i (Operation.fail_if condition e) s (.ok ()) s := by
  rw [Operation.fail_if, if_neg h]
  exact pure

end Quietly

end Quietly

end AgentSpace.Docker
