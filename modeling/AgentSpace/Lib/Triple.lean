/-
Triples for sections.

`Triple exec guard pre p post` says of a program over atomic calls: run without
interruption from a store that satisfies `pre`, every call it makes is made on a
store that satisfies `guard` for it, and it ends with a result and a store that
satisfy `post`. The rules follow the shape of a program, so a section is
verified call by call in the order of its source.
-/
import AgentSpace.Lib.Critical

set_option autoImplicit false

namespace AgentSpace.Lib

variable {C : Type} {R : C → Type} {α β ε σ : Type}

/-- From every store that satisfies `pre`, the calls of `p` satisfy `guard` and
its outcome satisfies `post`. -/
def Triple (exec : (c : C) → σ → R c × σ) (guard : σ → C → Prop) (pre : σ → Prop)
    (p : Prog C R α) (post : α → σ → Prop) : Prop :=
  ∀ s, pre s → (∀ x ∈ p.calls exec s, guard x.1 x.2) ∧ post (p.run exec s).1 (p.run exec s).2

namespace Triple

variable {exec : (c : C) → σ → R c × σ} {guard : σ → C → Prop} {pre pre' : σ → Prop}

theorem ret {a : α} {post : α → σ → Prop} (h : ∀ s, pre s → post a s) :
    Triple exec guard pre (.ret a) post :=
  fun s hs => ⟨by simp, h s hs⟩

/-- The rule for one call. -/
theorem lift {c : C} {post : R c → σ → Prop} (hguard : ∀ s, pre s → guard s c)
    (hpost : ∀ s, pre s → post (exec c s).1 (exec c s).2) : Triple exec guard pre (Prog.lift c) post := by
  intro s hs
  refine ⟨fun x hx => ?_, hpost s hs⟩
  obtain rfl : x = (s, c) := by simpa using hx
  exact hguard s hs

variable {p : Prog C R α}

/-- The rule for sequencing. -/
theorem bind {f : α → Prog C R β} {mid : α → σ → Prop} {post : β → σ → Prop}
    (hp : Triple exec guard pre p mid) (hf : ∀ a, Triple exec guard (mid a) (f a) post) :
    Triple exec guard pre (p >>= f) post := by
  intro s hs
  obtain ⟨hcalls, hmid⟩ := hp s hs
  obtain ⟨hcalls', hpost⟩ := hf _ _ hmid
  refine ⟨fun x hx => ?_, ?_⟩
  · rw [Prog.calls_bind] at hx
    rcases List.mem_append.1 hx with hx | hx
    · exact hcalls x hx
    · exact hcalls' x hx
  · rw [Prog.run_bind]
    exact hpost

/-- The rule of consequence. -/
theorem mono {post post' : α → σ → Prop} (h : Triple exec guard pre p post)
    (hpre : ∀ s, pre' s → pre s) (hpost : ∀ a s, post a s → post' a s) : Triple exec guard pre' p post' :=
  fun s hs => ⟨(h s (hpre s hs)).1, hpost _ _ (h s (hpre s hs)).2⟩

/-- A precondition that fixes a value may be used for each value. -/
theorem of_forall {post : α → σ → Prop}
    (h : ∀ s₀, pre s₀ → Triple exec guard (· = s₀) p post) : Triple exec guard pre p post :=
  fun s hs => h s hs s rfl

end Triple

/-! ## Programs that may fail -/

/-- A section whose result may be an error, which ends it. -/
abbrev Fallible (C : Type) (R : C → Type) (ε α : Type) := ExceptT ε (Prog C R) α

/-- The run of a sequence goes on only behind a success. -/
theorem Fallible.run_bind (exec : (c : C) → σ → R c × σ) (p : Prog C R (Except ε α))
    (f : α → Fallible C R ε β) (s : σ) : (ExceptT.mk p >>= f).run.run exec s = match p.run exec s with
      | (.ok a, s') => (f a).run.run exec s'
      | (.error e, s') => (.error e, s') := by
  refine (Prog.run_bind exec p _ s).trans ?_
  rcases p.run exec s with ⟨_ | _, s'⟩ <;> rfl

theorem Fallible.run_bind_of_ok {exec : (c : C) → σ → R c × σ} {p : Fallible C R ε α}
    {f : α → Fallible C R ε β} {s s' : σ} {a : α} (h : p.run.run exec s = (.ok a, s')) :
    (p >>= f).run.run exec s = (f a).run.run exec s' := by
  have hbind := Fallible.run_bind exec p.run f s
  rw [h] at hbind
  exact hbind

theorem Fallible.run_bind_of_error {exec : (c : C) → σ → R c × σ} {p : Fallible C R ε α}
    {f : α → Fallible C R ε β} {s s' : σ} {e : ε} (h : p.run.run exec s = (.error e, s')) :
    (p >>= f).run.run exec s = (.error e, s') := by
  have hbind := Fallible.run_bind exec p.run f s
  rw [h] at hbind
  exact hbind

namespace Triple

variable {exec : (c : C) → σ → R c × σ} {guard : σ → C → Prop} {pre : σ → Prop}

variable {post : Except ε α → σ → Prop}

theorem pure {a : α} (h : ∀ s, pre s → post (.ok a) s) :
    Triple exec guard pre (pure a : Fallible C R ε α).run post :=
  ret h

theorem throw {e : ε} (h : ∀ s, pre s → post (.error e) s) :
    Triple exec guard pre (throw e : Fallible C R ε α).run post :=
  ret h

theorem of_except {x : Except ε α} (h : ∀ s, pre s → post x s) :
    Triple exec guard pre (ExceptT.mk (Prog.ret x) : Fallible C R ε α).run post :=
  ret h

/-- Sequencing: an error of the first part is the error of the whole. -/
theorem fallible_bind {p : Fallible C R ε α} {f : α → Fallible C R ε β}
    {post : Except ε β → σ → Prop} (mid : α → σ → Prop) (hp : Triple exec guard pre p.run fun r s =>
      (∀ a, r = .ok a → mid a s) ∧ ∀ e, r = .error e → post (.error e) s)
    (hf : ∀ a, Triple exec guard (mid a) (f a).run post) : Triple exec guard pre (p >>= f).run post := by
  refine bind hp fun r => ?_
  cases r with
  | ok a => exact (hf a).mono (fun s hs => hs.1 a rfl) fun _ _ h => h
  | error e => exact ret fun s hs => hs.2 e rfl

/-- Mapping the result of a program. -/
theorem fallible_map {p : Fallible C R ε α} {f : α → β} (hp : Triple exec guard pre p.run post) :
    Triple exec guard pre (f <$> p).run fun r s => ∃ r', r = r'.map f ∧ post r' s := by
  refine bind hp fun r => ?_
  cases r with
  | ok a => exact ret fun s hs => ⟨.ok a, rfl, hs⟩
  | error e => exact ret fun s hs => ⟨.error e, rfl, hs⟩

end Triple

end AgentSpace.Lib
