/-
Critical sections under one exclusive lock.

A section is a program over the atomic calls of a shared store (`Prog`), run while its
client holds the lock. `Step` does not forbid two clients to be inside at once: that they
never are is part of the invariant. By `serializable` the finished sections are, in the
order in which they left the lock, a sequential execution, so that a property of
interleaved executions is one of `Prog.run` and `Prog.calls`.
-/
import Mathlib

set_option autoImplicit false

namespace AgentSpace.Lib

/-! ## Programs over atomic calls -/

/-- A program that makes calls `c : C`, each answered by an `R c`. -/
inductive Prog (C : Type) (R : C → Type) (α : Type) : Type where
  | ret (a : α)
  | call (c : C) (k : R c → Prog C R α)

namespace Prog

variable {C : Type} {R : C → Type} {α β γ σ : Type}

protected def bind : Prog C R α → (α → Prog C R β) → Prog C R β
  | ret a, f => f a
  | call c k, f => call c fun r => (k r).bind f

instance : Monad (Prog C R) where
  pure := ret
  bind := Prog.bind

/-- One call. -/
def lift (c : C) : Prog C R (R c) := call c ret

@[simp] theorem pure_eq (a : α) : (pure a : Prog C R α) = ret a := rfl
@[simp] theorem ret_bind (a : α) (f : α → Prog C R β) : ret a >>= f = f a := rfl
@[simp] theorem call_bind (c : C) (k : R c → Prog C R α) (f : α → Prog C R β) :
    call c k >>= f = call c fun r => k r >>= f := rfl

section Run

variable (exec : (c : C) → σ → R c × σ)

/-- The uninterrupted run of a program: its result and the store it leaves. -/
def run : Prog C R α → σ → α × σ
  | ret a, s => (a, s)
  | call c k, s => (k (exec c s).1).run (exec c s).2

/-- The calls of the uninterrupted run, each with the store it is made on. -/
def calls : Prog C R α → σ → List (σ × C)
  | ret _, _ => []
  | call c k, s => (s, c) :: (k (exec c s).1).calls (exec c s).2

@[simp] theorem run_ret (a : α) (s : σ) : (ret a : Prog C R α).run exec s = (a, s) := rfl
variable (c : C)

@[simp] theorem run_call (k : R c → Prog C R α) (s : σ) :
    (call c k).run exec s = (k (exec c s).1).run exec (exec c s).2 := rfl
@[simp] theorem calls_ret (a : α) (s : σ) : (ret a : Prog C R α).calls exec s = [] := rfl
@[simp] theorem calls_call (k : R c → Prog C R α) (s : σ) :
    (call c k).calls exec s = (s, c) :: (k (exec c s).1).calls exec (exec c s).2 := rfl

@[simp] theorem run_lift (s : σ) : (lift c).run exec s = exec c s := rfl
@[simp] theorem calls_lift (s : σ) : (lift c : Prog C R (R c)).calls exec s = [(s, c)] := rfl

theorem run_bind (p : Prog C R α) (f : α → Prog C R β) (s : σ) :
    (p >>= f).run exec s = (f (p.run exec s).1).run exec (p.run exec s).2 := by
  induction p generalizing s with
  | ret a => rfl
  | call c k ih => exact ih _ _

theorem calls_bind (p : Prog C R α) (f : α → Prog C R β) (s : σ) : (p >>= f).calls exec s
      = p.calls exec s ++ (f (p.run exec s).1).calls exec (p.run exec s).2 := by
  induction p generalizing s with
  | ret a => rfl
  | call c k ih =>
    rw [call_bind, calls_call, calls_call, run_call, ih]
    rfl

end Run

end Prog

/-! ## Clients, the lock and the log -/

section Critical

variable {ι Q C α σ : Type} {R : C → Type}

/-- A finished section: who ran it for which request, the store it found, what
it returned, the store it left, and the calls it made with the store each was
made on. -/
structure Entry (ι Q C α σ : Type) where
  client : ι
  request : Q
  before : σ
  result : α
  after : σ
  calls : List (σ × C)

/-- Where a client stands. Inside its section it carries the store it found
there, the calls it has made and the program that is left. -/
inductive Phase (Q C α σ : Type) (R : C → Type) where
  | idle
  | waiting (q : Q)
  | inside (q : Q) (before : σ) (done : List (σ × C)) (p : Prog C R α)

/-- The store, the lock, the clients, the finished sections and the requests
answered before the lock was taken. -/
structure Config (ι Q C α σ : Type) (R : C → Type) where
  store : σ
  lock : Option ι
  phase : ι → Phase Q C α σ R
  log : List (Entry ι Q C α σ)
  early : List (ι × Q × α)

/-- A client that is inside its section. -/
def Phase.IsInside : Phase Q C α σ R → Prop
  | .inside .. => True
  | _ => False

/-- The configuration before any request. -/
def Config.init (s : σ) : Config ι Q C α σ R := ⟨s, none, fun _ => .idle, [], []⟩

variable [DecidableEq ι] (exec : (c : C) → σ → R c × σ) (body : Q → Prog C R α)
  (early : Q → α → Prop)

/-- One step of one client: it sends a request, has it answered without the lock
(`early` says which answers are possible), enters its section when the lock is
free, makes one call, or leaves. -/
inductive Step : Config ι Q C α σ R → Config ι Q C α σ R → Prop
  | request (c : Config ι Q C α σ R) (i : ι) (q : Q) (h : c.phase i = .idle) :
      Step c { c with phase := Function.update c.phase i (.waiting q) }
  | reject (c : Config ι Q C α σ R) (i : ι) (q : Q) (a : α) (h : c.phase i = .waiting q)
      (ha : early q a) :
      Step c { c with
        phase := Function.update c.phase i .idle
        early := c.early ++ [(i, q, a)] }
  | enter (c : Config ι Q C α σ R) (i : ι) (q : Q) (h : c.phase i = .waiting q)
      (hfree : c.lock = none) :
      Step c { c with
        lock := some i
        phase := Function.update c.phase i (.inside q c.store [] (body q)) }
  | call (c : Config ι Q C α σ R) (i : ι) (q : Q) (before : σ) (done : List (σ × C)) (cl : C)
      (k : R cl → Prog C R α) (h : c.phase i = .inside q before done (.call cl k)) :
      Step c { c with
        store := (exec cl c.store).2
        phase := Function.update c.phase i
          (.inside q before (done ++ [(c.store, cl)]) (k (exec cl c.store).1)) }
  | leave (c : Config ι Q C α σ R) (i : ι) (q : Q) (before : σ) (done : List (σ × C)) (a : α)
      (h : c.phase i = .inside q before done (.ret a)) :
      Step c { c with
        lock := none
        phase := Function.update c.phase i .idle
        log := c.log ++ [⟨i, q, before, a, c.store, done⟩] }

/-! ## Serializability -/

/-- The entries follow one another from `s` to `t`: each finds the store the one
before it left. -/
def Chained (s : σ) : List (Entry ι Q C α σ) → σ → Prop
  | [], t => s = t
  | e :: es, t => e.before = s ∧ Chained e.after es t

omit [DecidableEq ι] in
theorem Chained.snoc {s t : σ} {es : List (Entry ι Q C α σ)} (h : Chained s es t)
    {e : Entry ι Q C α σ} (he : e.before = t) : Chained s (es ++ [e]) e.after := by
  induction es generalizing s with
  | nil => exact ⟨he.trans h.symm, rfl⟩
  | cons e' es ih => exact ⟨h.1, ih h.2⟩

/-- The entry is an uninterrupted run of its section. -/
structure Entry.Atomic (e : Entry ι Q C α σ) : Prop where
  run : (body e.request).run exec e.before = (e.result, e.after)
  calls : (body e.request).calls exec e.before = e.calls

/-- What a reachable configuration looks like: `last` is the store the finished
sections left. Either the lock is free and nobody has touched the store since,
or one client is inside, and what it has done and has left to do is the run of
its section from `last`. -/
structure Serial (init : σ) (c : Config ι Q C α σ R) (last : σ) : Prop where
  chained : Chained init c.log last
  atomic : ∀ e ∈ c.log, e.Atomic exec body
  free : c.lock = none → c.store = last ∧ ∀ i, ¬(c.phase i).IsInside
  held : ∀ i, c.lock = some i → (∀ j, j ≠ i → ¬(c.phase j).IsInside) ∧
    ∃ q done p, c.phase i = .inside q last done p
      ∧ p.run exec c.store = (body q).run exec last
      ∧ done ++ p.calls exec c.store = (body q).calls exec last

variable {exec body early}

omit [DecidableEq ι] in
/-- Only the holder of the lock is inside. -/
theorem Serial.lock_of_inside {init last : σ} {c : Config ι Q C α σ R} {i : ι}
    (h : Serial exec body init c last) (hi : (c.phase i).IsInside) : c.lock = some i := by
  cases hlock : c.lock with
  | none => exact absurd hi ((h.free hlock).2 i)
  | some j =>
    by_cases hij : i = j
    · rw [hij]
    · exact absurd hi ((h.held j hlock).1 i hij)

/-- A client that is not inside before and after a step that only moves it leaves
the others as they were. -/
theorem update_not_inside {phase : ι → Phase Q C α σ R} {i j : ι} {x : Phase Q C α σ R}
    (hx : ¬x.IsInside) (h : ¬(phase j).IsInside) : ¬(Function.update phase i x j).IsInside := by
  by_cases hij : j = i
  · subst hij; rwa [Function.update_self]
  · rwa [Function.update_of_ne hij]

theorem Serial.step {init last : σ} {c c' : Config ι Q C α σ R}
    (h : Serial exec body init c last) (hstep : Step exec body early c c') :
    ∃ last', Serial exec body init c' last' := by
  cases hstep with
  | request i q hphase | reject i q a hphase ha =>
    refine ⟨last, h.chained, h.atomic, fun hlock => ?_, fun j hlock => ?_⟩
    · exact ⟨(h.free hlock).1, fun k => update_not_inside (by simp [Phase.IsInside])
        ((h.free hlock).2 k)⟩
    · obtain ⟨hothers, q', done, p, hj, hrun, hcalls⟩ := h.held j hlock
      have hne : j ≠ i := by
        rintro rfl
        simp [hphase] at hj
      exact ⟨fun k hk => update_not_inside (by simp [Phase.IsInside]) (hothers k hk),
        q', done, p, by simpa [Function.update_of_ne hne] using hj, hrun, hcalls⟩
  | enter i q hphase hfree =>
    obtain ⟨hstore, hnone⟩ := h.free hfree
    refine ⟨last, h.chained, h.atomic, fun hlock => by simp at hlock, fun j hlock => ?_⟩
    obtain rfl : i = j := by simpa using hlock
    refine ⟨fun k hk => by simpa [Function.update_of_ne hk] using hnone k,
      q, [], body q, ?_, ?_, ?_⟩
    · simp [hstore]
    · simp [hstore]
    · simp [hstore]
  | call i q before done cl k hphase =>
    have hlock := h.lock_of_inside (i := i) (by simp [hphase, Phase.IsInside])
    obtain ⟨hothers, q', done', p', hi, hrun, hcalls⟩ := h.held i hlock
    obtain ⟨rfl, rfl, rfl, rfl⟩ :
        q = q' ∧ before = last ∧ done = done' ∧ Prog.call cl k = p' := by
      simpa [hphase] using hi
    refine ⟨before, h.chained, h.atomic, fun hfree => ?_, fun j hj => ?_⟩
    · simp [hlock] at hfree
    obtain rfl : i = j := by simpa [hlock] using hj
    refine ⟨fun m hm => by simpa [Function.update_of_ne hm] using hothers m hm,
      q, done ++ [(c.store, cl)], k (exec cl c.store).1, by simp, ?_, ?_⟩
    · simpa using hrun
    · simpa using hcalls
  | leave i q before done a hphase =>
    have hlock := h.lock_of_inside (i := i) (by simp [hphase, Phase.IsInside])
    obtain ⟨hothers, q', done', p', hi, hrun, hcalls⟩ := h.held i hlock
    obtain ⟨rfl, rfl, rfl, rfl⟩ :
        q = q' ∧ before = last ∧ done = done' ∧ Prog.ret a = p' := by
      simpa [hphase] using hi
    refine ⟨c.store, h.chained.snoc rfl, ?_, fun _ => ⟨rfl, fun j => ?_⟩, fun j hj => ?_⟩
    · intro e he
      rcases List.mem_append.1 he with he | he
      · exact h.atomic e he
      · obtain rfl := List.mem_singleton.1 he
        exact ⟨by simpa using hrun.symm, by simpa using hcalls.symm⟩
    · by_cases hij : j = i
      · subst hij; simp [Phase.IsInside]
      · simpa [Function.update_of_ne hij] using hothers j hij
    · simp at hj

/-- **Serializability.** In every reachable configuration the finished sections
are a sequential execution from the initial store. -/
theorem serializable {init : σ} {c : Config ι Q C α σ R}
    (h : Relation.ReflTransGen (Step exec body early) (Config.init init) c) :
    ∃ last, Serial exec body init c last := by
  induction h with
  | refl =>
    exact ⟨init, rfl, by simp [Config.init], fun _ => ⟨rfl, fun i => by simp [Config.init,
      Phase.IsInside]⟩, fun i hi => by simp [Config.init] at hi⟩
  | tail _ hstep ih =>
    obtain ⟨last, hserial⟩ := ih
    exact hserial.step hstep

/-! ## Sequential executions -/

/-- The rest of a section can be run without interruption. -/
theorem reach_leave (exec : (c : C) → σ → R c × σ) (body : Q → Prog C R α)
    (early : Q → α → Prop) (q : Q) (before : σ) (i : ι) (p : Prog C R α) (done : List (σ × C))
    (c : Config ι Q C α σ R) (h : c.phase i = .inside q before done p) :
    Relation.ReflTransGen (Step exec body early) c { c with
        store := (p.run exec c.store).2
        lock := none
        phase := Function.update c.phase i .idle
        log := c.log ++ [⟨i, q, before, (p.run exec c.store).1, (p.run exec c.store).2,
          done ++ p.calls exec c.store⟩] } := by
  induction p generalizing c done with
  | ret a =>
    refine Relation.ReflTransGen.single ?_
    simpa using Step.leave c i q before done a h
  | call cl k ih =>
    refine Relation.ReflTransGen.head (Step.call c i q before done cl k h) ?_
    simpa using ih (exec cl c.store).1 (done ++ [(c.store, cl)])
      { c with
        store := (exec cl c.store).2
        phase := Function.update c.phase i
          (.inside q before (done ++ [(c.store, cl)]) (k (exec cl c.store).1)) } (by simp)

/-- A client that is idle can have a request of its own carried out at once, when
the lock is free. -/
theorem reach_entry (i : ι) (q : Q) (c : Config ι Q C α σ R) (hidle : c.phase i = .idle)
    (hfree : c.lock = none) :
    Relation.ReflTransGen (Step exec body early) c { c with
        store := ((body q).run exec c.store).2
        log := c.log ++ [⟨i, q, c.store, ((body q).run exec c.store).1,
          ((body q).run exec c.store).2, (body q).calls exec c.store⟩] } := by
  refine Relation.ReflTransGen.head (Step.request c i q hidle) ?_
  refine Relation.ReflTransGen.head (Step.enter _ i q (by simp) hfree) ?_
  have hphase : Function.update c.phase i .idle = c.phase := by
    rw [← hidle, Function.update_eq_self]
  simpa [hphase, hfree] using reach_leave exec body early q c.store i
    (body q) []
    { c with
      lock := some i
      phase := Function.update c.phase i (.inside q c.store [] (body q)) } (by simp)

end Critical

end AgentSpace.Lib
