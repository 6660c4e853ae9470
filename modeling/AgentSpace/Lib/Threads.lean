/-
Threads over a shared state, and proof outlines for them.

Any number of threads run programs over atomic calls (`Prog`); a scheduler picks
the thread that makes its next call, and an environment picks what the call
answers among what it can answer there. A history variable may record what the
state does not (`with_history`).

A proof outline (`Outline`) gives each thread assertions at the calls of its
program. What the other threads may do to the state is a relation they all
guarantee, and an assertion has to survive it (`Stable`). Outlines of all threads
make an invariant of every run (`Outlined.run`).
-/
import AgentSpace.Lib.Critical
import AgentSpace.Lib.Transition

set_option autoImplicit false
set_option linter.unusedSectionVars false

namespace AgentSpace.Lib

/-! ## The calls of a program -/

namespace Prog

variable {C α β ε : Type} {R : C → Type} {p q : C → Prop}

/-- Every call that a program can come to is of a kind. -/
def Only (p : C → Prop) : Prog C R α → Prop
  | .ret _ => True
  | .call c k => p c ∧ ∀ r, (k r).Only p

theorem Only.bind {x : Prog C R α} {f : α → Prog C R β} (h : x.Only p) (hf : ∀ a, (f a).Only p) :
    (x >>= f).Only p := by
  induction x with
  | ret a => exact hf a
  | call c k ih => exact ⟨h.1, fun r => ih r (h.2 r)⟩

theorem Only.lift {c : C} (h : p c) : (Prog.lift c : Prog C R (R c)).Only p := ⟨h, fun _ => trivial⟩

/-- `Only`, of a program that may fail. -/
def OnlyE (p : C → Prop) (x : ExceptT ε (Prog C R) α) : Prop := x.run.Only p

theorem OnlyE.bind {x : ExceptT ε (Prog C R) α} {f : α → ExceptT ε (Prog C R) β} (h : OnlyE p x)
    (hf : ∀ a, OnlyE p (f a)) : OnlyE p (x >>= f) :=
  Only.bind h fun answer => by
    cases answer with
    | ok a => exact hf a
    | error e => trivial

theorem OnlyE.pure {a : α} : OnlyE p (Pure.pure a : ExceptT ε (Prog C R) α) := trivial

theorem OnlyE.throw {e : ε} : OnlyE p (MonadExcept.throw e : ExceptT ε (Prog C R) α) := trivial

/-- The program over other calls, each of which stands for one of its own. -/
def hoist {C' : Type} {R' : C' → Type} (f : C → C') (g : (c : C) → R' (f c) → R c) :
    Prog C R α → Prog C' R' α
  | .ret a => .ret a
  | .call c k => .call (f c) fun r => (k (g c r)).hoist f g

theorem hoist_bind {C' : Type} {R' : C' → Type} (f : C → C') (g : (c : C) → R' (f c) → R c)
    (x : Prog C R α) (h : α → Prog C R β) :
    (x >>= h).hoist f g = x.hoist f g >>= fun a => (h a).hoist f g := by
  induction x with
  | ret a => rfl
  | call c k ih =>
    show Prog.call (f c) (fun r => (k (g c r) >>= h).hoist f g)
      = Prog.call (f c) (fun r => (k (g c r)).hoist f g >>= fun a => (h a).hoist f g)
    simp only [ih]

/-- As long as calls are answered as they should be, every call that a program comes to
is of a kind, and so is its result. -/
def Sound (answers : (c : C) → R c → Prop) (p : C → Prop) (results : α → Prop) : Prog C R α → Prop
  | .ret a => results a
  | .call c k => p c ∧ ∀ r, answers c r → (k r).Sound answers p results

section Sound

variable {answers : (c : C) → R c → Prop} {results : α → Prop} {results' : β → Prop}

theorem Sound.bind {x : Prog C R α} {f : α → Prog C R β} (h : x.Sound answers p results)
    (hf : ∀ a, results a → (f a).Sound answers p results') : (x >>= f).Sound answers p results' := by
  induction x with
  | ret a => exact hf a h
  | call c k ih => exact ⟨h.1, fun r hr => ih r (h.2 r hr)⟩

theorem Sound.mono {x : Prog C R α} {results' : α → Prop} (h : x.Sound answers p results)
    (hresults : ∀ a, results a → results' a) : x.Sound answers p results' := by
  induction x with
  | ret a => exact hresults a h
  | call c k ih => exact ⟨h.1, fun r hr => ih r (h.2 r hr)⟩

/-- `Sound`, of a program that may fail. -/
def SoundE (answers : (c : C) → R c → Prop) (p : C → Prop) (results : α → Prop)
    (x : ExceptT ε (Prog C R) α) : Prop :=
  x.run.Sound answers p fun
    | .ok a => results a
    | .error _ => True

theorem SoundE.bind {x : ExceptT ε (Prog C R) α} {f : α → ExceptT ε (Prog C R) β}
    (h : SoundE answers p results x) (hf : ∀ a, results a → SoundE answers p results' (f a)) :
    SoundE answers p results' (x >>= f) :=
  Sound.bind h fun answer hanswer => by
    cases answer with
    | ok a => exact hf a hanswer
    | error e => trivial

theorem SoundE.pure {a : α} (h : results a) :
    SoundE answers p results (Pure.pure a : ExceptT ε (Prog C R) α) := h

theorem SoundE.throw {e : ε} :
    SoundE answers p results (MonadExcept.throw e : ExceptT ε (Prog C R) α) := trivial

theorem SoundE.map {x : ExceptT ε (Prog C R) α} {f : α → β} (h : SoundE answers p results x)
    (hf : ∀ a, results a → results' (f a)) : SoundE answers p results' (f <$> x) :=
  Sound.bind h fun answer hanswer => by
    cases answer with
    | ok a => exact hf a hanswer
    | error e => trivial

end Sound

end Prog

/-! ## Threads -/

section Threads

variable {ι C A α β γ σ : Type} {R : C → Type}

/-- The shared state, and what is left of each thread. -/
structure Threads (ι C α σ : Type) (R : C → Type) where
  state : σ
  rest : ι → Prog C R α

/-- A choice of the scheduler and of the environment. -/
structure Move (ι A : Type) where
  thread : ι
  choice : A

/-- What a call answers and leaves, for a choice that is possible there. -/
abbrev Exec (ι C A σ : Type) (R : C → Type) := ι → (c : C) → A → σ → Option (R c × σ)

section Advance

variable [DecidableEq ι]

/-- The next call of a thread. -/
def advance (exec : Exec ι C A σ R) (s : Threads ι C α σ R) (move : Move ι A) :
    Option (Threads ι C α σ R) :=
  match s.rest move.thread with
  | .ret _ => none
  | .call c k =>
    (exec move.thread c move.choice s.state).map fun answer =>
      ⟨answer.2, Function.update s.rest move.thread (k answer.1)⟩

/-- One call of one thread. -/
def Advance (exec : Exec ι C A σ R) (s : Threads ι C α σ R) (move : Move ι A)
    (t : Threads ι C α σ R) : Prop :=
  advance exec s move = some t

/-- The calls of a list of choices, as long as each passes a check. -/
def play (exec : Exec ι C A σ R) (check : Threads ι C α σ R → Move ι A → Bool) (s : Threads ι C α σ R)
    (moves : List (Move ι A)) : Option (Threads ι C α σ R) :=
  moves.foldlM (fun s move => if check s move then advance exec s move else none) s

variable {exec : Exec ι C A σ R} {s t : Threads ι C α σ R}

/-- What is played is a run. -/
theorem run_of_play {check : Threads ι C α σ R → Move ι A → Bool}
    {P : Threads ι C α σ R → Move ι A → Threads ι C α σ R → Prop}
    (hP : ∀ s move t, check s move = true → Advance exec s move t → P s move t) {moves : List (Move ι A)}
      (h : play exec check s moves = some t) : Run (Guarded (Advance exec) P) s moves t := by
  induction moves generalizing s with
  | nil =>
    obtain rfl : s = t := Option.some.inj h
    exact .nil s
  | cons move moves ih =>
    cases hcheck : check s move with
    | false => simp [play, hcheck] at h
    | true =>
      cases hstep : advance exec s move with
      | none => simp [play, hcheck, hstep] at h
      | some s' =>
        have hrest : play exec check s' moves = some t := by
          simpa [play, hcheck, hstep] using h
        exact .cons ⟨hstep, hP s move s' hcheck hstep⟩ (ih hrest)

/-- A run to a state of which something is observed. -/
theorem exists_run_of_play (exec : Exec ι C A σ R) (check : Threads ι C α σ R → Move ι A → Bool)
    {P : Threads ι C α σ R → Move ι A → Threads ι C α σ R → Prop}
    (hP : ∀ s move t, check s move = true → Advance exec s move t → P s move t)
    (s : Threads ι C α σ R) (moves : List (Move ι A)) (observe : Threads ι C α σ R → Bool)
    (h : (play exec check s moves).any observe = true) :
    ∃ t, Run (Guarded (Advance exec) P) s moves t ∧ observe t = true := by
  obtain ⟨t, hplay, hobserve⟩ := (Option.any_eq_true observe _).1 h
  exact ⟨t, run_of_play hP hplay, hobserve⟩

variable {move : Move ι A}

/-- The call a thread makes, and what it answers and leaves. -/
theorem Advance.elim (h : Advance exec s move t) :
    ∃ c k r state, s.rest move.thread = .call c k
      ∧ exec move.thread c move.choice s.state = some (r, state)
      ∧ t = ⟨state, Function.update s.rest move.thread (k r)⟩ := by
  unfold Advance advance at h
  cases hrest : s.rest move.thread with
  | ret a => simp [hrest] at h
  | call c k =>
    rw [hrest] at h
    obtain ⟨⟨r, state⟩, hexec, rfl⟩ := Option.map_eq_some_iff.1 h
    exact ⟨c, k, r, state, rfl, hexec, rfl⟩

theorem Advance.unique {s t t' : Threads ι C α σ R}
    (h : Advance exec s move t) (h' : Advance exec s move t') : t = t' :=
  Option.some.inj (h.symm.trans h')

/-- A thread can make its next call. -/
theorem Advance.of_exec {s : Threads ι C α σ R} {c : C}
    {k : R c → Prog C R α} {r : R c} {state : σ} (hrest : s.rest move.thread = .call c k)
    (h : exec move.thread c move.choice s.state = some (r, state)) :
    Advance exec s move ⟨state, Function.update s.rest move.thread (k r)⟩ := by
  unfold Advance advance
  rw [hrest]
  show (exec move.thread c move.choice s.state).map _ = _
  rw [h]
  rfl

/-- A thread alone: some of its calls, one after another. -/
def solo (exec : Exec ι C A σ R) (i : ι) : List A → Prog C R α → σ → Option (Prog C R α × σ)
  | [], p, s => some (p, s)
  | _ :: _, .ret _, _ => none
  | choice :: choices, .call c k, s =>
    (exec i c choice s).bind fun answer => solo exec i choices (k answer.1) answer.2

variable {p q : Prog C R α}

omit [DecidableEq ι] in
/-- One call of a thread that has not ended. -/
theorem solo_cons {i : ι} {choice : A} {choices : List A} {s t : σ}
    (h : solo exec i (choice :: choices) p s = some (q, t)) :
    ∃ c k r s', p = .call c k ∧ exec i c choice s = some (r, s')
      ∧ solo exec i choices (k r) s' = some (q, t) := by
  cases p with
  | ret a => cases h
  | call c k =>
    obtain ⟨⟨r, s'⟩, hanswer, hrest⟩ := Option.bind_eq_some_iff.1 h
    exact ⟨c, k, r, s', rfl, hanswer, hrest⟩

omit [DecidableEq ι] in
theorem solo_append {i : ι} {choices choices' : List A} {s t : σ} (h : solo exec i choices p s = some (q, t)) :
    solo exec i (choices ++ choices') p s = solo exec i choices' q t := by
  induction choices generalizing p s with
  | nil =>
    obtain ⟨rfl, rfl⟩ : p = q ∧ s = t := Prod.mk.inj (Option.some.inj h)
    rfl
  | cons choice choices ih =>
    obtain ⟨c, k, r, s', rfl, hanswer, hrest⟩ := solo_cons h
    show ((exec i c choice s).bind fun answer => _) = _
    rw [hanswer]
    exact ih hrest

omit [DecidableEq ι] in
theorem solo_bind {i : ι} {choices : List A}
    (f : α → Prog C R β) {s t : σ} (h : solo exec i choices p s = some (q, t)) :
    solo exec i choices (p >>= f) s = some (q >>= f, t) := by
  induction choices generalizing p s with
  | nil =>
    obtain ⟨rfl, rfl⟩ : p = q ∧ s = t := Prod.mk.inj (Option.some.inj h)
    rfl
  | cons choice choices ih =>
    obtain ⟨c, k, r, s', rfl, hanswer, hrest⟩ := solo_cons h
    show ((exec i c choice s).bind fun answer => _) = _
    rw [hanswer]
    exact ih hrest

/-- What a thread does alone is a run. -/
theorem run_of_solo {i : ι} {choices : List A} {s : Threads ι C α σ R} {t : σ} (hrest : s.rest i = p)
    (h : solo exec i choices p s.state = some (q, t)) :
    Run (Advance exec) s (choices.map (Move.mk i)) ⟨t, Function.update s.rest i q⟩ := by
  induction choices generalizing p s with
  | nil =>
    obtain ⟨rfl, rfl⟩ : p = q ∧ s.state = t := Prod.mk.inj (Option.some.inj h)
    rw [← hrest, Function.update_eq_self]
    exact .nil s
  | cons choice choices ih =>
    obtain ⟨c, k, r, state, rfl, hanswer, hfollow⟩ := solo_cons h
    have hstep : Advance exec s ⟨i, choice⟩ ⟨state, Function.update s.rest i (k r)⟩ :=
      Advance.of_exec hrest hanswer
    have hrun := @ih (k r) ⟨state, Function.update s.rest i (k r)⟩
      (Function.update_self i (k r) s.rest) hfollow
    rw [Function.update_idem] at hrun
    exact .cons hstep hrun

/-- **Sound programs.** If every call of the kind of its thread keeps an invariant and is
answered as it should be, then all calls of a run are of the kind of their threads. -/
theorem run_sound {I : σ → Prop} {answers : ι → (c : C) → R c → Prop}
    {p : ι → C → Prop} {results : ι → α → Prop} {moves : List (Move ι A)}
    (hexec : ∀ i c a s r t, I s → p i c → exec i c a s = some (r, t) → I t ∧ answers i c r)
    (hI : I s.state) (hrest : ∀ i, (s.rest i).Sound (answers i) (p i) (results i))
    (hrun : Run (Advance exec) s moves t) :
    Run (Guarded (Advance exec) fun s move t => I s.state ∧ I t.state
        ∧ (∀ c k, s.rest move.thread = .call c k → p move.thread c)
        ∧ ∀ i, (t.rest i).Sound (answers i) (p i) (results i)) s moves t := by
  have hstep : ∀ s move t, (I s.state ∧ ∀ i, (s.rest i).Sound (answers i) (p i) (results i)) →
      Advance exec s move t →
      (I t.state ∧ ∀ i, (t.rest i).Sound (answers i) (p i) (results i))
        ∧ ∀ c k, s.rest move.thread = .call c k → p move.thread c := by
    rintro s move t ⟨hI, hsound⟩ hstep
    obtain ⟨c, k, r, state, hcall, hanswer, rfl⟩ := hstep.elim
    have hown := hsound move.thread
    rw [hcall] at hown
    obtain ⟨hkind, hnext⟩ := hown
    obtain ⟨hI', hvalid⟩ := hexec _ _ _ _ _ _ hI hkind hanswer
    refine ⟨⟨hI', fun i => ?_⟩, fun c' k' hcall' => ?_⟩
    · by_cases hi : i = move.thread
      · subst hi
        simpa using hnext r hvalid
      · simpa [Function.update_of_ne hi] using hsound i
    · rw [hcall] at hcall'
      obtain ⟨rfl, -⟩ := Prog.call.inj hcall'
      exact hkind
  refine hrun.forall_step (I := fun s => I s.state ∧ ∀ i, (s.rest i).Sound (answers i) (p i) (results i))
    (fun s move t hs h => (hstep s move t hs h).1) (fun s move t hs h => ?_) ⟨hI, hrest⟩
  obtain ⟨hafter, hkind⟩ := hstep s move t hs h
  exact ⟨hs.1, hafter.1, hkind, hafter.2⟩

end Advance

/-- A call that also records what it does. -/
def with_history (exec : Exec ι C A σ R) (record : ι → (c : C) → R c → σ → γ → γ) : Exec ι C A (σ × γ) R :=
  fun i c a s => (exec i c a s.1).map fun answer =>
    (answer.1, answer.2, record i c answer.1 s.1 s.2)

theorem with_history_eq_some {exec : Exec ι C A σ R} {record : ι → (c : C) → R c → σ → γ → γ}
    {i : ι} {c : C} {a : A} {s t : σ × γ} {r : R c} (h : with_history exec record i c a s = some (r, t)) :
    exec i c a s.1 = some (r, t.1) ∧ t.2 = record i c r s.1 s.2 := by
  obtain ⟨⟨r', t'⟩, hexec, heq⟩ := Option.map_eq_some_iff.1 h
  obtain ⟨rfl, rfl⟩ := Prod.mk.inj heq
  exact ⟨hexec, rfl⟩

theorem with_history_of_eq_some {exec : Exec ι C A σ R} (record : ι → (c : C) → R c → σ → γ → γ)
    {i : ι} {c : C} {a : A} {s : σ × γ} {r : R c} {t : σ} (h : exec i c a s.1 = some (r, t)) :
    with_history exec record i c a s = some (r, t, record i c r s.1 s.2) := by
  unfold with_history
  rw [h]
  rfl

end Threads

/-! ## Proof outlines -/

section Outlines

variable {ι C A α β σ : Type} {R : C → Type}

/-- What a proof about threads assumes and shows: the calls that are considered, an
invariant of the state, and what a thread guarantees to the others. -/
structure Rules (ι C A σ : Type) (R : C → Type) where
  exec : Exec ι C A σ R
  allow : ι → C → A → σ → Prop
  invariant : σ → Prop
  guarantee : ι → σ → σ → Prop

namespace Rules

variable (rules : Rules ι C A σ R)

/-- An assertion that the other threads leave true. -/
def Stable (i : ι) (P : σ → Prop) : Prop :=
  ∀ j, j ≠ i → ∀ s t, rules.invariant s → rules.invariant t → P s → rules.guarantee j s t → P t

/-- The calls of a program lead from assertion to assertion, keep the invariant and
what is guaranteed. -/
def Outline (i : ι) : (σ → Prop) → Prog C R β → (β → σ → Prop) → Prop
  | P, .ret b, Q => ∀ s, rules.invariant s → P s → Q b s
  | P, .call c k, Q => ∃ P' : R c → σ → Prop, (∀ r, rules.Stable i (P' r))
      ∧ (∀ s a r t, rules.invariant s → P s → rules.allow i c a s →
          rules.exec i c a s = some (r, t) →
          rules.invariant t ∧ rules.guarantee i s t ∧ P' r t)
      ∧ ∀ r, Outline i (P' r) (k r) Q

/-- The calls of a run that are considered. -/
def Allowed (s : Threads ι C α σ R) (move : Move ι A) (_ : Threads ι C α σ R) : Prop :=
  ∀ c k, s.rest move.thread = .call c k → rules.allow move.thread c move.choice s.state

variable {rules} {i : ι}

theorem Stable.and {P P' : σ → Prop} (h : rules.Stable i P) (h' : rules.Stable i P') :
    rules.Stable i fun s => P s ∧ P' s :=
  fun j hj s t hs ht hP hguarantee =>
    ⟨h j hj s t hs ht hP.1 hguarantee, h' j hj s t hs ht hP.2 hguarantee⟩

variable {p : Prog C R β} {Q : β → σ → Prop}

theorem Outline.mono {P P' : σ → Prop}
    (h : rules.Outline i P p Q) (hP : ∀ s, rules.invariant s → P' s → P s) : rules.Outline i P' p Q := by
  cases p with
  | ret b => exact fun s hs hP' => h s hs (hP s hs hP')
  | call c k =>
    obtain ⟨P₁, hstable, hcall, hrest⟩ := h
    exact ⟨P₁, hstable, fun s a r t hs hP' => hcall s a r t hs (hP s hs hP'), hrest⟩

variable {P : σ → Prop}

theorem Outline.weaken {Q Q' : β → σ → Prop}
    (h : rules.Outline i P p Q) (hQ : ∀ b s, rules.invariant s → Q b s → Q' b s) :
    rules.Outline i P p Q' := by
  induction p generalizing P with
  | ret b => exact fun s hs hP => hQ b s hs (h s hs hP)
  | call c k ih =>
    obtain ⟨P₁, hstable, hcall, hrest⟩ := h
    exact ⟨P₁, hstable, hcall, fun r => ih r (hrest r)⟩

/-- **Sequences.** -/
theorem Outline.bind {p : Prog C R α} {f : α → Prog C R β} {Q : α → σ → Prop}
    {Q' : β → σ → Prop} (h : rules.Outline i P p Q) (hf : ∀ a, rules.Outline i (Q a) (f a) Q') :
    rules.Outline i P (p >>= f) Q' := by
  induction p generalizing P with
  | ret a => exact (hf a).mono fun s hs hP => h s hs hP
  | call c k ih =>
    obtain ⟨P₁, hstable, hcall, hrest⟩ := h
    exact ⟨P₁, hstable, hcall, fun r => ih r (hrest r)⟩

/-- **One call.** -/
theorem Outline.lift {c : C} {Q : R c → σ → Prop} (hstable : ∀ r, rules.Stable i (Q r))
    (hcall : ∀ s a r t, rules.invariant s → P s → rules.allow i c a s →
      rules.exec i c a s = some (r, t) → rules.invariant t ∧ rules.guarantee i s t ∧ Q r t) :
    rules.Outline i P (Prog.lift c) Q :=
  ⟨Q, hstable, hcall, fun _ _ _ h => h⟩

/-- An assertion that all calls of a kind keep is kept by a program with such calls only. -/
theorem Outline.of_only {p : C → Prop} {x : Prog C R β} (h : x.Only p) (hstable : rules.Stable i P)
    (hcall : ∀ c s a r t, p c → rules.invariant s → P s → rules.allow i c a s →
      rules.exec i c a s = some (r, t) → rules.invariant t ∧ rules.guarantee i s t ∧ P t) :
    rules.Outline i P x fun _ => P := by
  induction x with
  | ret b => exact fun s _ hP => hP
  | call c k ih =>
    exact ⟨fun _ => P, fun _ => hstable, fun s a r t => hcall c s a r t h.1, fun r => ih r (h.2 r)⟩

theorem Outline.ret {b : β} (h : ∀ s, rules.invariant s → P s → Q b s) : rules.Outline i P (.ret b) Q := h

/-- A thread alone ends where its outline ends. -/
theorem Outline.solo (h : rules.Outline i P p Q)
    (hallow : ∀ c a s, rules.allow i c a s) {choices : List A} {s t : σ} {b : β}
    (hs : rules.invariant s) (hP : P s)
    (hfollow : AgentSpace.Lib.solo rules.exec i choices p s = some (.ret b, t)) : Q b t := by
  induction choices generalizing p s P with
  | nil =>
    obtain ⟨rfl, rfl⟩ : p = .ret b ∧ s = t := Prod.mk.inj (Option.some.inj hfollow)
    exact h s hs hP
  | cons choice choices ih =>
    cases p with
    | ret a => cases hfollow
    | call c k =>
      obtain ⟨⟨r, s'⟩, hexec, hrest⟩ := Option.bind_eq_some_iff.1 hfollow
      obtain ⟨P', -, hcall, hnext⟩ := h
      obtain ⟨hs', -, hP'⟩ := hcall s choice r s' hs hP (hallow c choice s) hexec
      exact ih (hnext r) hs' hP' hrest

/-- Where nothing can be, everything follows. -/
theorem Outline.of_false (h : ∀ s, rules.invariant s → ¬P s) : rules.Outline i P p Q := by
  induction p generalizing P with
  | ret b => exact fun s hs hP => absurd hP (h s hs)
  | call c k ih =>
    exact ⟨fun _ _ => False, fun _ _ _ _ _ _ _ hP _ => hP,
      fun s _ _ _ hs hP => absurd hP (h s hs), fun r => ih r fun _ _ hP => hP⟩

/-- Every thread is at an assertion of an outline. -/
structure Outlined (rules : Rules ι C A σ R) (Q : ι → α → σ → Prop) (s : Threads ι C α σ R) : Prop where
  invariant : rules.invariant s.state
  thread : ∀ i, ∃ P, rules.Stable i P ∧ P s.state ∧ rules.Outline i P (s.rest i) (Q i)

namespace Outlined

variable [DecidableEq ι] {Q : ι → α → σ → Prop} {s t : Threads ι C α σ R}

/-- One call keeps what is outlined, and what the thread guarantees. -/
theorem step (h : rules.Outlined Q s) {move : Move ι A} (hstep : Advance rules.exec s move t)
    (hallow : rules.Allowed s move t) :
    rules.Outlined Q t ∧ rules.guarantee move.thread s.state t.state := by
  obtain ⟨c, k, r, state, hrest, hexec, rfl⟩ := hstep.elim
  obtain ⟨P, -, hP, houtline⟩ := h.thread move.thread
  rw [hrest] at houtline
  obtain ⟨P', hstable, hcall, hnext⟩ := houtline
  obtain ⟨hinvariant, hguarantee, hP'⟩ := hcall _ _ _ _ h.invariant hP (hallow c k hrest) hexec
  refine ⟨⟨hinvariant, fun j => ?_⟩, hguarantee⟩
  by_cases hj : j = move.thread
  · subst hj
    exact ⟨P' r, hstable r, hP', by simpa using hnext r⟩
  · obtain ⟨Pj, hstablej, hPj, houtlinej⟩ := h.thread j
    refine ⟨Pj, hstablej, ?_, by simpa [Function.update_of_ne hj] using houtlinej⟩
    exact hstablej _ (Ne.symm hj) _ _ h.invariant hinvariant hPj hguarantee

/-- **Runs.** What is outlined stays outlined, and every call keeps its guarantee. -/
theorem run {moves : List (Move ι A)} (h : rules.Outlined Q s)
    (hrun : Run (Guarded (Advance rules.exec) rules.Allowed) s moves t) :
    rules.Outlined Q t
      ∧ Run (Guarded (Guarded (Advance rules.exec) rules.Allowed)
          fun s move t => rules.guarantee move.thread s.state t.state) s moves t :=
  ⟨hrun.invariant (fun _ _ _ hs hstep => (hs.step hstep.1 hstep.2).1) h,
    hrun.forall_step (fun _ _ _ hs hstep => (hs.step hstep.1 hstep.2).1)
      (fun _ _ _ hs hstep => (hs.step hstep.1 hstep.2).2) h⟩

/-- A thread that has not moved is where it was. -/
theorem unmoved {moves : List (Move ι A)} (h : rules.Outlined Q s)
    (hrun : Run (Guarded (Advance rules.exec) rules.Allowed) s moves t) {P : σ → Prop}
    (hstable : rules.Stable i P) (hP : P s.state) (hmoves : ∀ move ∈ moves, move.thread ≠ i) :
    P t.state := by
  induction hrun with
  | nil s => exact hP
  | cons hstep hrest ih =>
    obtain ⟨hnext, hguarantee⟩ := h.step hstep.1 hstep.2
    have hfirst := hmoves _ List.mem_cons_self
    have hstill := hstable _ hfirst _ _ h.invariant hnext.invariant hP hguarantee
    exact ih hnext hstill fun move hmem => hmoves move (List.mem_cons_of_mem _ hmem)

/-- A thread that has finished is where its outline ends. -/
theorem finished (h : rules.Outlined Q s) {a : α} (hrest : s.rest i = .ret a) : Q i a s.state := by
  obtain ⟨P, -, hP, houtline⟩ := h.thread i
  rw [hrest] at houtline
  exact houtline _ h.invariant hP

end Outlined

end Rules

end Outlines

/-! ## Programs that may fail -/

section Failing

variable {ι C A α β ε σ : Type} {R : C → Type} {rules : Rules ι C A σ R} {i : ι}

/-- An outline of a program that returns or fails. -/
def Rules.Ensures (rules : Rules ι C A σ R) (i : ι) (P : σ → Prop) (p : ExceptT ε (Prog C R) β)
    (Q : β → σ → Prop) (E : ε → σ → Prop) : Prop :=
  rules.Outline i P p.run fun
    | .ok b => Q b
    | .error e => E e

namespace Rules.Ensures

variable {P P' : σ → Prop} {E : ε → σ → Prop}

theorem bind {p : ExceptT ε (Prog C R) α} {f : α → ExceptT ε (Prog C R) β} {Q : α → σ → Prop}
    {Q' : β → σ → Prop} (h : rules.Ensures i P p Q E) (hf : ∀ a, rules.Ensures i (Q a) (f a) Q' E) :
    rules.Ensures i P (p >>= f) Q' E := by
  refine Rules.Outline.bind h fun answer => ?_
  cases answer with
  | ok a => exact hf a
  | error e => exact fun s _ he => he

variable {Q : β → σ → Prop}

theorem pure {b : β} (h : ∀ s, rules.invariant s → P s → Q b s) :
    rules.Ensures i P (Pure.pure b) Q E := h

theorem throw {e : ε} (h : ∀ s, rules.invariant s → P s → E e s) :
    rules.Ensures i P (MonadExcept.throw e : ExceptT ε (Prog C R) β) Q E := h

/-- A program that does not fail. -/
theorem lift {p : Prog C R β} (h : rules.Outline i P p Q) : rules.Ensures i P (ExceptT.lift p) Q E :=
  Rules.Outline.bind h fun _ => .ret fun _ _ hQ => hQ

variable {p : ExceptT ε (Prog C R) β}

theorem mono (h : rules.Ensures i P p Q E)
    (hP : ∀ s, rules.invariant s → P' s → P s) : rules.Ensures i P' p Q E :=
  Rules.Outline.mono h hP

theorem weaken {Q Q' : β → σ → Prop} (h : rules.Ensures i P p Q E)
    (hQ : ∀ b s, rules.invariant s → Q b s → Q' b s) : rules.Ensures i P p Q' E :=
  Rules.Outline.weaken h fun answer s hs => by
    cases answer with
    | ok b => exact hQ b s hs
    | error e => exact fun he => he

theorem weaken_error {E' : ε → σ → Prop}
    (h : rules.Ensures i P p Q E) (hE : ∀ e s, rules.invariant s → E e s → E' e s) :
    rules.Ensures i P p Q E' :=
  Rules.Outline.weaken h fun answer s hs => by
    cases answer with
    | ok b => exact fun hQ => hQ
    | error e => exact hE e s hs

end Rules.Ensures

end Failing

end AgentSpace.Lib
