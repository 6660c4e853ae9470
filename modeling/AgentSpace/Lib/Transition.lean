/-
Runs of a labelled transition relation.

A run is a finite sequence of labelled steps. The rules below are the only
inductions over runs in this development: what every step preserves holds
wherever a run ends (`Run.invariant`), also when only the runs whose steps all
meet a condition are considered (`Guarded`), and a property that every step
establishes for its own label holds for every step of a run
(`Run.forall_step`).
-/
import Mathlib

set_option autoImplicit false

namespace AgentSpace.Lib

universe u v

variable {σ : Type u} {ℓ : Type v}

/-- `Run step s ls t`: the steps labelled `ls`, in this order, lead from `s` to
`t`. -/
inductive Run (step : σ → ℓ → σ → Prop) : σ → List ℓ → σ → Prop
  | nil (s : σ) : Run step s [] s
  | cons {s t u : σ} {l : ℓ} {ls : List ℓ} :
      step s l t → Run step t ls u → Run step s (l :: ls) u

/-- The steps of a relation that also meet a condition. -/
def Guarded (step P : σ → ℓ → σ → Prop) (s : σ) (l : ℓ) (t : σ) : Prop :=
  step s l t ∧ P s l t

namespace Run

variable {step step' : σ → ℓ → σ → Prop} {s t u : σ} {l : ℓ} {ls ms : List ℓ}

theorem append (h : Run step s ls t) (h' : Run step t ms u) : Run step s (ls ++ ms) u := by
  induction h with
  | nil s => exact h'
  | cons hstep _ ih => exact cons hstep (ih h')

theorem single (h : step s l t) : Run step s [l] t := cons h (nil t)

theorem snoc (h : Run step s ls t) (h' : step t l u) : Run step s (ls ++ [l]) u :=
  h.append (single h')

/-- A run splits wherever its labels split. -/
theorem split (h : Run step s (ls ++ ms) u) : ∃ t, Run step s ls t ∧ Run step t ms u := by
  induction ls generalizing s with
  | nil => exact ⟨s, nil s, h⟩
  | cons l ls ih =>
    cases h with
    | cons hstep hrest =>
      obtain ⟨t, h1, h2⟩ := ih hrest
      exact ⟨t, cons hstep h1, h2⟩

theorem mono (hsub : ∀ s l t, step s l t → step' s l t) (h : Run step s ls t) : Run step' s ls t := by
  induction h with
  | nil s => exact nil s
  | cons hstep _ ih => exact cons (hsub _ _ _ hstep) ih

/-- **The invariant rule.** -/
theorem invariant {I : σ → Prop} (hstep : ∀ s l t, I s → step s l t → I t)
    (h : Run step s ls t) (hs : I s) : I t := by
  induction h with
  | nil s => exact hs
  | cons hst _ ih => exact ih (hstep _ _ _ hs hst)

/-- What holds of every step that starts in an invariant state holds of every
step of a run that starts in one. -/
theorem forall_step {I : σ → Prop} {Q : σ → ℓ → σ → Prop}
    (hI : ∀ s l t, I s → step s l t → I t) (hQ : ∀ s l t, I s → step s l t → Q s l t)
    (h : Run step s ls t) (hs : I s) : Run (Guarded step Q) s ls t := by
  induction h with
  | nil s => exact nil s
  | cons hst _ ih => exact cons ⟨hst, hQ _ _ _ hs hst⟩ (ih (hI _ _ _ hs hst))

variable {P : σ → ℓ → σ → Prop}

/-- A guarded run is a run. -/
theorem of_guarded (h : Run (Guarded step P) s ls t) : Run step s ls t :=
  h.mono fun _ _ _ hst => hst.1

/-- Steps that lead to one state only make runs that do. -/
theorem unique (hstep : ∀ s l t t', step s l t → step s l t' → t = t') (h : Run step s ls t)
    (h' : Run step s ls u) : t = u := by
  induction h with
  | nil s =>
    cases h'
    rfl
  | cons hfirst _ ih =>
    cases h' with
    | cons hfirst' hrest' =>
      obtain rfl := hstep _ _ _ _ hfirst hfirst'
      exact ih hrest'

/-- Where a step leads to one state only, a guarded run that starts with it is the guard
and a guarded run from that state. -/
theorem guarded_cons_iff (hstep : step s l t) (hunique : ∀ t', step s l t' → t' = t) :
    Run (Guarded step P) s (l :: ls) u ↔ P s l t ∧ Run (Guarded step P) t ls u := by
  constructor
  · intro h
    cases h with
    | @cons _ t' _ _ _ hfirst hrest =>
      obtain rfl := hunique t' hfirst.1
      exact ⟨hfirst.2, hrest⟩
  · rintro ⟨hP, hrest⟩
    exact cons ⟨hstep, hP⟩ hrest

/-- **An exact guard.** Where each step has one outcome, and keeps a property exactly if it
meets a condition, the property holds wherever a run passes exactly if all of its steps meet
the condition. -/
theorem guarded_iff {I Good : σ → Prop} (hunique : ∀ s l t t', step s l t → step s l t' → t = t')
    (hI : ∀ s l t, I s → step s l t → I t) (hP : ∀ s l t, I s → Good s → step s l t → (P s l t ↔ Good t))
    (h : Run step s ls t) (hs : I s) (hgood : Good s) :
    Run (Guarded step P) s ls t ↔ ∀ ms u, ms <+: ls → Run step s ms u → Good u := by
  induction h with
  | nil s =>
    constructor
    · intro _ ms u hprefix hrun
      obtain rfl := List.prefix_nil.1 hprefix
      cases hrun
      exact hgood
    · intro _
      exact nil s
  | @cons s t' t l ls hfirst hrest ih =>
    have hmeets := hP _ _ _ hs hgood hfirst
    rw [guarded_cons_iff hfirst fun t'' h'' => hunique _ _ _ _ h'' hfirst]
    constructor
    · rintro ⟨hfirstP, hrestP⟩ ms u hprefix hrun
      have hgood' := hmeets.1 hfirstP
      cases hrun with
      | nil => exact hgood
      | cons hstep' hrun' =>
        obtain ⟨rfl, hprefix'⟩ := List.cons_prefix_cons.1 hprefix
        obtain rfl := hunique _ _ _ _ hfirst hstep'
        exact (ih (hI _ _ _ hs hfirst) hgood').1 hrestP _ _ hprefix' hrun'
    · intro hall
      have hgood' : Good t' := hall [l] t' (by simp) (single hfirst)
      refine ⟨hmeets.2 hgood', (ih (hI _ _ _ hs hfirst) hgood').2 ?_⟩
      intro ms u hprefix hrun
      exact hall (l :: ms) u (List.cons_prefix_cons.2 ⟨rfl, hprefix⟩) (cons hfirst hrun)

/-- One step of a run is of a kind, and all others, before it and behind it, are quiet. -/
def Once (step quiet kind : σ → ℓ → σ → Prop) (s : σ) (ls : List ℓ) (t : σ) : Prop :=
  ∃ ls₁ l ls₂ u v, ls = ls₁ ++ l :: ls₂ ∧ Run (Guarded step quiet) s ls₁ u
    ∧ Guarded step kind u l v ∧ Run (Guarded step quiet) v ls₂ t

/-- **Two phases.** Where a step of the first phase is quiet, or is of the kind that ends it,
and the steps of the second phase are quiet, a run has at most one step of that kind: none
while it is in the first phase, and one in the second. What the step ends with is kept. -/
theorem once_of_phases {κ : Type*} {Before : σ → Prop} {After : κ → σ → Prop}
    {quiet : σ → ℓ → σ → Prop} {kind : κ → σ → ℓ → σ → Prop}
    (hbefore : ∀ s l t, Before s → step s l t → quiet s l t ∧ Before t ∨ ∃ k, kind k s l t ∧ After k t)
    (hafter : ∀ k s l t, After k s → step s l t → quiet s l t ∧ After k t)
    (h : Run step s ls t) (hs : Before s) :
    Before t ∧ Run (Guarded step quiet) s ls t ∨ ∃ k, After k t ∧ Once step quiet (kind k) s ls t := by
  induction h with
  | nil s => exact Or.inl ⟨hs, nil s⟩
  | @cons s u t l ls hstep hrest ih =>
    rcases hbefore _ _ _ hs hstep with ⟨hquiet, hu⟩ | ⟨k, hkind, hu⟩
    · rcases ih hu with ⟨ht, hrun⟩ | ⟨k, ht, ls₁, l', ls₂, v, v', rfl, hrun, honce, hrun'⟩
      · exact Or.inl ⟨ht, cons ⟨hstep, hquiet⟩ hrun⟩
      · exact Or.inr ⟨k, ht, l :: ls₁, l', ls₂, v, v', rfl, cons ⟨hstep, hquiet⟩ hrun, honce, hrun'⟩
    · have hkept : ∀ s l t, After k s → step s l t → After k t :=
        fun _ _ _ hI hst => (hafter _ _ _ _ hI hst).2
      have hrun' : Run (Guarded step quiet) u ls t :=
        hrest.forall_step hkept (fun _ _ _ hI hst => (hafter _ _ _ _ hI hst).1) hu
      exact Or.inr ⟨k, hrest.invariant hkept hu, [], l, ls, s, u, rfl, nil s, ⟨hstep, hkind⟩, hrun'⟩

/-- Where the labels determine the steps, they can be played. -/
theorem of_foldlM {next : σ → ℓ → Option σ} (h : ls.foldlM next s = some t) :
    Run (fun s l t => next s l = some t) s ls t := by
  induction ls generalizing s with
  | nil =>
    obtain rfl : s = t := Option.some.inj h
    exact nil s
  | cons l ls ih =>
    rw [List.foldlM_cons] at h
    obtain ⟨s', hfirst, hrest⟩ := Option.bind_eq_some_iff.1 h
    exact cons hfirst (ih hrest)

/-- A run that is played to a state of which something is observed. -/
theorem exists_of_foldlM (next : σ → ℓ → Option σ) (s : σ) (ls : List ℓ) (observe : σ → Bool)
    (h : (ls.foldlM next s).any observe = true) :
    ∃ t, Run (fun s l t => next s l = some t) s ls t ∧ observe t = true := by
  obtain ⟨t, hplay, hobserve⟩ := (Option.any_eq_true observe _).1 h
  exact ⟨t, of_foldlM hplay, hobserve⟩

end Run

end AgentSpace.Lib
