/-
Resets and stops of a session service as barriers, under any interleaving with its turns.

A history counts the resets that have returned, and keeps which kernels were created before a reset
or a stop that has returned. `shutdowns_are_barriers` is about runs in which no reset or stop is
in progress while a turn holds the stream lock or another one is; `reset_during_turn` is a run in
which a turn adds to the history behind a reset.
-/
import AgentSpace.KernelHost.Service

set_option autoImplicit false

namespace AgentSpace.KernelHost

open Lib
open Kernels (KernelStatus)

variable {E : Type}

/-! ## Requests -/

/-- A call of the service; the number of rounds is one that the kernel of a turn does not exceed. -/
inductive Request where
  | stream_message (rounds : ℕ)
  | shutdown (kind : Shutdown)

/-- What a call comes to. -/
abbrev Outcome (E : Type) := Ended E ⊕ Option Failure

/-- The program of a call. -/
def Request.program : Request → Service E (Outcome E)
  | .stream_message rounds => do
    let ended ← KernelHost.stream_message rounds
    pure (.inl ended)
  | .shutdown kind => do
    let failed ← shutdown_service kind
    pure (.inr failed)

def Request.is_turn : Request → Prop
  | .stream_message _ => True
  | .shutdown _ => False

/-! ## The history -/

/-- What the service does not keep. -/
structure History where
  /-- How many resets have returned. -/
  resets : ℕ
  /-- How many resets had returned when a turn took the lock. -/
  since : ℕ → Option ℕ
  /-- The resets and stops that wait for their kernel. -/
  stopping : List ℕ
  /-- How many kernels had been created when a reset or a stop began. -/
  begun : ℕ → ℕ
  /-- The kernels below were created before a reset or a stop that has returned. -/
  barrier : ℕ
  /-- The kernels that were handed to turns, with the barrier of that moment. -/
  handed : List (ℕ × ℕ)

namespace History

def new : History := ⟨0, fun _ => none, [], fun _ => 0, 0, []⟩

/-- A reset or a stop returns. -/
def returned (shutdown : Shutdown) (created : ℕ) (h : History) : History :=
  { h with
    resets := match shutdown with
      | .reset => h.resets + 1
      | .stop => h.resets
    barrier := max h.barrier created }

def hand (k : ℕ) (h : History) : History := { h with handed := h.handed ++ [(k, h.barrier)] }

def begin (i created : ℕ) (h : History) : History :=
  { h with stopping := h.stopping ++ [i], begun := Function.update h.begun i created }

def finish (i : ℕ) (h : History) : History := { h with stopping := h.stopping.erase i }

end History

/-- A service with its history. -/
abbrev Watched (E : Type) := World ℕ E × History

/-- What a step changes of the history. -/
def record_history (i : ℕ) (c : Call E) (r : c.Answer) (w : World ℕ E) (h : History) : History :=
  match c, r with
  | .acquire, _ => { h with since := Function.update h.since i (some h.resets) }
  | .kernel_for_message, (k, none) => h.hand k
  | .start _ _, .ok (some k) => h.hand k
  | .begin_shutdown shutdown, none => h.returned shutdown w.created
  | .begin_shutdown _, some _ => h.begin i w.created
  | .finish_shutdown shutdown _, none => (h.finish i).returned shutdown (h.begun i)
  | .finish_shutdown _ _, some _ => h.finish i
  | _, _ => h

/-- The condition on a step: resets and stops do not overlap with turns or with one another, and
kernels can be stopped. -/
def Apart (_i : ℕ) (c : Call E) (choice : Choice E) (s : Watched E) : Prop :=
  match c with
  | .acquire => s.2.stopping = []
  | .begin_shutdown _ => s.1.stream_lock = none ∧ s.2.stopping = []
  | .await_stop _ => choice.raises = none
  | .finish_shutdown _ _ => choice.raises = none
  | _ => True

/-! ## What is expected -/

/-- A turn took the lock before a reset that has returned. -/
def Stale (i : ℕ) (s : Watched E) : Prop := ∃ n, s.2.since i = some n ∧ n < s.2.resets

/-- What a reset has made is left. -/
structure Unchanged (s t : Watched E) : Prop where
  history : t.1.history = s.1.history
  log : t.1.log = s.1.log
  session_id : t.1.session_id = s.1.session_id
  status : t.1.status = s.1.status

/-- No kernel that was created before a reset or a stop that has returned is running, or was handed
to a turn since. -/
structure Fenced (s : Watched E) : Prop where
  stopped : ∀ k, k < s.2.barrier → (s.1.kernels k).running = false
  handed : ∀ entry ∈ s.2.handed, entry.2 ≤ entry.1

/-! ## The invariant -/

/-- A call is in the part that excludes the others. -/
def Inside (i : ℕ) (s : Watched E) : Prop := s.1.stream_lock = some i ∨ s.2.stopping = [i]

/-- What holds of a service when calls stay apart. -/
structure Orderly (s : Watched E) : Prop where
  fenced : Fenced s
  barrier : s.2.barrier ≤ s.1.created
  kernel : ∀ k, s.1.kernel = some k → s.2.barrier ≤ k ∧ k < s.1.created
  apart : s.1.stream_lock ≠ none → s.2.stopping = []
  since : ∀ i, s.1.stream_lock = some i → s.2.since i = some s.2.resets
  /-- Between calls, no kernel runs but the one of the service. -/
  stopped : s.1.stream_lock = none → s.2.stopping = [] → StoppedBut s.1.kernel s.1

theorem Orderly.inside_unique {s : Watched E} (h : Orderly s) {i j : ℕ}
    (hi : Inside i s) (hj : Inside j s) : i = j := by
  rcases hi with hi | hi
  · rcases hj with hj | hj
    · exact Option.some.inj (hi.symm.trans hj)
    · have hnone := h.apart (by simp [hi])
      rw [hnone] at hj
      cases hj
  · rcases hj with hj | hj
    · have hnone := h.apart (by simp [hj])
      rw [hnone] at hi
      cases hi
    · exact (List.cons.inj (hi.symm.trans hj)).1

/-- The fields that the invariant is about are the same. -/
structure Alike (w t : World ℕ E) : Prop where
  created : t.created = w.created
  kernel : t.kernel = w.kernel
  lock : t.stream_lock = w.stream_lock
  running : ∀ k, (t.kernels k).running = (w.kernels k).running

theorem alike_wait (w : World ℕ E) (choice : Choice E) : Alike w (w.wait choice) :=
  ⟨rfl, rfl, rfl, wait_running w choice⟩

theorem Alike.stopped {w t : World ℕ E} (h : Alike w t) {kernel : Option ℕ}
    (hstopped : StoppedBut kernel w) : StoppedBut kernel t := by
  intro k hk hne
  rw [h.created] at hk
  rw [h.running]
  exact hstopped k hk hne

theorem Alike.orderly {w t : World ℕ E} (h : Alike w t) {history : History}
    (horderly : Orderly (w, history)) : Orderly (t, history) := by
  obtain ⟨⟨hfenced, hhanded⟩, hbarrier, hkernel, hapart, hsince, hstopped⟩ := horderly
  refine ⟨⟨?_, hhanded⟩, ?_, ?_, ?_, ?_, ?_⟩
  · intro k hk
    show (t.kernels k).running = false
    rw [h.running]
    exact hfenced k hk
  · show history.barrier ≤ t.created
    rw [h.created]
    exact hbarrier
  · intro k hk
    have hk' : w.kernel = some k := h.kernel.symm.trans hk
    show history.barrier ≤ k ∧ k < t.created
    rw [h.created]
    exact hkernel k hk'
  · intro hlock
    exact hapart fun hnone => hlock (h.lock.trans hnone)
  · intro i hi
    exact hsince i (h.lock.symm.trans hi)
  · intro hlock hstopping
    show StoppedBut t.kernel t
    rw [h.kernel]
    exact h.stopped (hstopped (h.lock.symm.trans hlock) hstopping)

theorem orderly_new (session_id : Option String) :
    Orderly ((World.new session_id, History.new) : Watched E) := by
  refine ⟨⟨?_, ?_⟩, le_refl _, ?_, fun h => absurd rfl h, ?_, ?_⟩
  · intro k hk
    exact absurd hk (Nat.not_lt_zero k)
  · intro entry hentry
    cases hentry
  · intro k hk
    cases hk
  · intro i hi
    cases hi
  · intro _ _ k hk
    exact absurd hk (Nat.not_lt_zero k)

/-! ## The steps of a turn -/

section Steps

variable (status_of : E → Option KernelStatus) (initial_session_id : Option String)
  (is_turn : ℕ → Prop)

/-- What a call leaves to the others: it does nothing while another one excludes it, and a turn
does not change what a later reset has made. -/
structure Leaves (i : ℕ) (s t : Watched E) : Prop where
  inside : ∀ j, Inside j s → j = i
  fresh : is_turn i → Stale i s → Unchanged s t

/-- The steps of calls that stay apart. -/
def barrier_rules : Rules ℕ (Call E) (Choice E) (Watched E) Call.Answer where
  exec := with_history (exec status_of initial_session_id) record_history
  allow := Apart
  invariant := Orderly
  guarantee := Leaves is_turn

variable {status_of initial_session_id is_turn} {i : ℕ}

theorem stable_inside {P : Watched E → Prop} (hP : ∀ s, P s → Inside i s) :
    (barrier_rules status_of initial_session_id is_turn).Stable i P := by
  intro j hj s t _ _ hs hleaves
  exact absurd (hleaves.inside i (hP s hs)) hj.symm

theorem stable_true : (barrier_rules status_of initial_session_id is_turn).Stable i
    fun _ : Watched E => True :=
  fun _ _ _ _ _ _ _ _ => trivial

/-- A turn has the lock, and no kernel runs but the one of the service. -/
structure Turning (i : ℕ) (s : Watched E) : Prop where
  lock : s.1.stream_lock = some i
  stopped : StoppedBut s.1.kernel s.1

/-- A turn has taken a kernel from the service, to stop it. -/
structure Taken (i k : ℕ) (s : Watched E) : Prop where
  lock : s.1.stream_lock = some i
  kernel : s.1.kernel = none
  stopped : StoppedBut (some k) s.1

theorem leaves_of_lock {s t : Watched E} (h : Orderly s) (hlock : s.1.stream_lock = some i) :
    Leaves is_turn i s t := by
  refine ⟨fun j hj => h.inside_unique hj (Or.inl hlock), fun _ hstale => ?_⟩
  obtain ⟨n, hsince, hn⟩ := hstale
  rw [h.since i hlock] at hsince
  obtain rfl := Option.some.inj hsince
  exact absurd hn (Nat.lt_irrefl _)

/-- **One step of a turn** that has the lock. -/
theorem outline_turn_step {c : Call E} {P : Watched E → Prop} {Q : c.Answer → Watched E → Prop}
    (hP : ∀ s, P s → s.1.stream_lock = some i) (hQ : ∀ r s, Q r s → Inside i s)
    (h : ∀ w history choice r t, Orderly (w, history) → P (w, history) → Apart i c choice (w, history) →
      exec status_of initial_session_id i c choice w = some (r, t) →
      Orderly (t, record_history i c r w history) ∧ Q r (t, record_history i c r w history)) :
    (barrier_rules status_of initial_session_id is_turn).Outline i P (Prog.lift c) Q := by
  refine .lift (fun r => stable_inside (hQ r)) ?_
  intro s choice r t horderly hs hapart hexec
  obtain ⟨w, history⟩ := s
  obtain ⟨hstep, hhistory⟩ := with_history_eq_some hexec
  obtain ⟨t, history'⟩ := t
  obtain rfl : history' = record_history i c r w history := hhistory
  have hlock := hP _ hs
  obtain ⟨horderly', hr⟩ := h w history choice r t horderly hs hapart hstep
  exact ⟨horderly', leaves_of_lock horderly hlock, hr⟩

/-- The calls that change nothing that the invariant is about. -/
def Passive : Call E → Prop
  | .recv _ _ => True
  | .yield _ => True
  | .await_send _ => True
  | .should_stop_after_message _ => True
  | .hang => True
  | _ => False

variable {w t : World ℕ E}

theorem passive_alike {c : Call E} (hc : Passive c) {choice : Choice E} {r : c.Answer}
    (hexec : exec status_of initial_session_id i c choice w = some (r, t)) :
    Alike w t ∧ ∀ history, record_history i c r w history = history := by
  cases c with
  | recv k late =>
    refine ⟨?_, fun _ => rfl⟩
    change recv k w choice = some (r, t) at hexec
    unfold recv at hexec
    cases hraises : choice.raises with
    | some failure =>
      simp only [hraises, Option.some.injEq, Prod.mk.injEq] at hexec
      obtain ⟨-, rfl⟩ := hexec
      exact alike_wait w choice
    | none =>
      cases hqueue : ((w.wait choice).kernels k).queue with
      | nil => simp [hraises, hqueue] at hexec
      | cons item queue =>
        simp only [hraises, hqueue, Option.some.injEq, Prod.mk.injEq] at hexec
        obtain ⟨-, rfl⟩ := hexec
        refine ⟨rfl, rfl, rfl, fun j => ?_⟩
        by_cases hj : j = k
        · subst hj
          simp [World.set_kernel]
        · simp [World.set_kernel, Function.update_of_ne hj]
  | yield event | await_send k =>
    obtain ⟨-, rfl⟩ := Prod.mk.inj (Option.some.inj hexec)
    exact ⟨alike_wait w choice, fun _ => rfl⟩
  | should_stop_after_message k =>
    obtain ⟨-, rfl⟩ := Prod.mk.inj (Option.some.inj hexec)
    exact ⟨⟨rfl, rfl, rfl, fun _ => rfl⟩, fun _ => rfl⟩
  | hang => cases hexec
  | _ => exact hc.elim

variable {history : History}

theorem Alike.turning (h : Alike w t) (hs : Turning i (w, history)) : Turning i (t, history) := by
  refine ⟨h.lock.trans hs.lock, ?_⟩
  show StoppedBut t.kernel t
  rw [h.kernel]
  exact h.stopped hs.stopped

theorem outline_passive {α : Type} {x : Service E α} (hx : x.Only Passive) :
    (barrier_rules status_of initial_session_id is_turn).Outline i (Turning i) x fun _ => Turning i := by
  refine .of_only hx (stable_inside fun s hs => Or.inl hs.lock) ?_
  intro c s choice r t hc horderly hs _ hexec
  obtain ⟨w, history⟩ := s
  obtain ⟨hstep, hhistory⟩ := with_history_eq_some hexec
  obtain ⟨t, history'⟩ := t
  obtain ⟨halike, hsame⟩ := passive_alike hc hstep
  obtain rfl : history' = history := hhistory.trans (hsame history)
  exact ⟨halike.orderly horderly, leaves_of_lock horderly hs.lock, halike.turning hs⟩

theorem only_consume (late : Bool) (event : E) : (consume late event).Only Passive := by
  cases late with
  | true => trivial
  | false => exact .lift trivial

theorem only_recv_all (kernel : ℕ) (late : Bool) (rounds : ℕ) (events : List E) :
    (recv_all kernel late rounds events).Only Passive := by
  induction rounds generalizing events with
  | zero => exact ⟨trivial, fun r => nomatch r⟩
  | succ rounds ih =>
    refine .bind (Prog.Only.lift trivial) fun answer => ?_
    cases answer with
    | sentinel => trivial
    | raised failure => trivial
    | event event =>
      refine .bind (only_consume late event) fun consumed => ?_
      cases consumed with
      | none => exact ih (events ++ [event])
      | some raised => trivial

theorem only_drain (kernel : ℕ) (stream_completed : Bool) (rounds : ℕ) :
    (drain kernel stream_completed rounds : Service E _).Only Passive := by
  refine .bind (Prog.Only.lift trivial) fun should_stop => ?_
  by_cases hskip : (stream_completed || should_stop) = true
  · rw [if_pos hskip]
    trivial
  · rw [if_neg hskip]
    refine .bind (only_recv_all kernel true rounds []) fun result => ?_
    obtain ⟨late, failed⟩ := result
    cases failed with
    | none => trivial
    | some raised => trivial

/-! ### The lock -/

theorem outline_lock : (barrier_rules status_of initial_session_id is_turn).Outline i (fun _ => True)
      (Prog.lift Call.acquire) fun _ => Turning i := by
  refine .lift (fun r => stable_inside fun s hs => Or.inl hs.lock) ?_
  intro s choice r t horderly _ hapart hexec
  obtain ⟨w, history⟩ := s
  obtain ⟨hstep, hhistory⟩ := with_history_eq_some hexec
  obtain ⟨t, history'⟩ := t
  have hstopping : history.stopping = [] := hapart
  unfold exec at hstep
  by_cases hlock : w.stream_lock = none
  · simp only [hlock, if_true, Option.some.injEq, Prod.mk.injEq] at hstep
    obtain ⟨-, rfl⟩ := hstep
    obtain rfl : history' = { history with since := Function.update history.since i (some history.resets) } :=
      hhistory
    have hwait := (alike_wait w choice).orderly horderly
    have hstopped : StoppedBut w.kernel (w.wait choice) := hwait.stopped hlock hstopping
    refine ⟨⟨⟨hwait.fenced.stopped, hwait.fenced.handed⟩, hwait.barrier, hwait.kernel, fun _ => hstopping,
      ?_, ?_⟩, ⟨?_, ?_⟩, rfl, hstopped⟩
    · intro j hj
      obtain rfl : i = j := Option.some.inj hj
      exact Function.update_self i (some history.resets) history.since
    · intro hnone
      cases hnone
    · rintro j (hj | hj)
      · exact absurd (hlock.symm.trans hj) (by simp)
      · exact absurd (hstopping.symm.trans hj) (by simp)
    · intro _ _
      exact ⟨rfl, rfl, rfl, rfl⟩
  · simp [hlock] at hstep

theorem outline_unlock : (barrier_rules status_of initial_session_id is_turn).Outline i (Turning i)
      (Prog.lift Call.release) fun _ _ => True := by
  refine .lift (fun _ => stable_true) ?_
  intro s choice r t horderly hs _ hexec
  obtain ⟨w, history⟩ := s
  have hexec' : with_history (exec status_of initial_session_id) record_history i Call.release choice
      (w, history) = some (r, t) := hexec
  obtain ⟨hstep, hhistory⟩ := with_history_eq_some hexec'
  obtain ⟨t, history'⟩ := t
  have hstep' : some ((), { w with stream_lock := none }) = some (r, t) := hstep
  obtain ⟨-, rfl⟩ := Prod.mk.inj (Option.some.inj hstep')
  obtain rfl : history' = history := hhistory
  refine ⟨⟨⟨horderly.fenced.stopped, horderly.fenced.handed⟩, horderly.barrier, horderly.kernel, fun h =>
    absurd rfl h, ?_, fun _ _ => ?_⟩,
    leaves_of_lock horderly hs.lock, trivial⟩
  · intro j hj
    cases hj
  · exact hs.stopped

/-! ### The kernel of a turn -/

/-- What does not touch a kernel below the barrier, nor the lock, keeps the invariant while the
lock is held. -/
theorem Orderly.of_lock {history history' : History}
    (h : Orderly (w, history)) (hlock : w.stream_lock = some i) (hlock' : t.stream_lock = some i)
    (hcreated : w.created ≤ t.created) (hkernel : ∀ k, t.kernel = some k → history.barrier ≤ k ∧ k < t.created)
    (hrunning : ∀ k, k < history.barrier → (t.kernels k).running = (w.kernels k).running)
    (hhistory : history' = history ∨ ∃ k, t.kernel = some k ∧ history' = history.hand k) :
    Orderly (t, history') := by
  have hsame : history'.barrier = history.barrier ∧ history'.stopping = history.stopping
      ∧ history'.since = history.since ∧ history'.resets = history.resets := by
    rcases hhistory with rfl | ⟨k, -, rfl⟩
    · exact ⟨rfl, rfl, rfl, rfl⟩
    · exact ⟨rfl, rfl, rfl, rfl⟩
  obtain ⟨hbarrier, hstopping, hsince, hresets⟩ := hsame
  refine ⟨⟨?_, ?_⟩, ?_, ?_, ?_, ?_, ?_⟩
  · intro k hk
    have hk' : k < history.barrier := by
      rw [← hbarrier]
      exact hk
    show (t.kernels k).running = false
    rw [hrunning k hk']
    exact h.fenced.stopped k hk'
  · rcases hhistory with rfl | ⟨k, hk, rfl⟩
    · exact h.fenced.handed
    · intro entry hentry
      rcases List.mem_append.1 hentry with hold | hnew
      · exact h.fenced.handed entry hold
      · obtain rfl := List.mem_singleton.1 hnew
        exact (hkernel k hk).1
  · show history'.barrier ≤ t.created
    rw [hbarrier]
    exact le_trans h.barrier hcreated
  · intro k hk
    show history'.barrier ≤ k ∧ k < t.created
    rw [hbarrier]
    exact hkernel k hk
  · intro _
    show history'.stopping = []
    rw [hstopping]
    exact h.apart (by simp [hlock])
  · intro j hj
    obtain rfl : i = j := Option.some.inj (hlock'.symm.trans hj)
    show history'.since i = some history'.resets
    rw [hsince, hresets]
    exact h.since i hlock
  · intro hnone
    exact absurd (hlock'.symm.trans hnone) (by simp)

theorem outline_hand_kernel : (barrier_rules status_of initial_session_id is_turn).Outline i (Turning i)
      (Prog.lift Call.kernel_for_message) fun answer s => Turning i s
        ∧ (answer.2 ≠ none → s.1.kernel = some answer.1) := by
  refine outline_turn_step (fun s hs => hs.lock) (fun r s hs => Or.inl hs.1.lock) ?_
  intro w history choice r t horderly hs _ hexec
  have heq : kernel_for_message w choice = (r, t) := Option.some.inj hexec
  unfold kernel_for_message at heq
  cases hkernel : w.kernel with
  | none =>
    rw [hkernel] at heq
    obtain ⟨rfl, rfl⟩ := Prod.mk.inj heq
    have hothers : ∀ k, k ≠ w.created →
        (((w.create_kernel choice.persistent).call_start w.created).kernels k) = w.kernels k := by
      intro k hk
      simp [World.call_start, World.set_kernel, World.create_kernel, Function.update_of_ne hk]
    refine ⟨horderly.of_lock hs.lock hs.lock (Nat.le_succ _) ?_ ?_ (Or.inl rfl), ⟨hs.lock, ?_⟩, fun _ => rfl⟩
    · intro k hk
      obtain rfl : w.created = k := Option.some.inj hk
      exact ⟨horderly.barrier, Nat.lt_succ_self _⟩
    · intro k hk
      have hbarrier : history.barrier ≤ w.created := horderly.barrier
      have hne : k ≠ w.created := by omega
      rw [hothers k hne]
    · intro k hk hne
      have hk' : k < w.created + 1 := hk
      have hne' : k ≠ w.created := fun heq => hne (congrArg some heq.symm)
      show ((((w.create_kernel choice.persistent).call_start w.created).kernels k)).running = false
      rw [hothers k hne']
      have hlt : k < w.created := by omega
      refine hs.stopped k hlt ?_
      show w.kernel ≠ some k
      rw [hkernel]
      exact fun h => by cases h
  | some k =>
    rw [hkernel] at heq
    by_cases hstarted : w.kernel_started = true
    · simp only [hstarted, if_true] at heq
      obtain ⟨rfl, rfl⟩ := Prod.mk.inj heq
      refine ⟨horderly.of_lock hs.lock hs.lock le_rfl horderly.kernel (fun _ _ => rfl)
        (Or.inr ⟨k, hkernel, rfl⟩), ⟨hs.lock, hs.stopped⟩, fun h => absurd rfl h⟩
    · simp only [hstarted] at heq
      obtain ⟨rfl, rfl⟩ := Prod.mk.inj heq
      have hown : history.barrier ≤ k ∧ k < w.created := horderly.kernel k hkernel
      have hothers : ∀ j, j ≠ k → ((w.call_start k).kernels j) = w.kernels j := by
        intro j hj
        simp [World.call_start, World.set_kernel, Function.update_of_ne hj]
      refine ⟨horderly.of_lock hs.lock hs.lock le_rfl horderly.kernel ?_ (Or.inl rfl), ⟨hs.lock, ?_⟩,
        fun _ => hkernel⟩
      · intro j hj
        have hne : j ≠ k := by omega
        rw [hothers j hne]
      · intro j hj hne
        have hne' : j ≠ k := fun heq => hne (hkernel.trans (congrArg some heq.symm))
        show ((w.call_start k).kernels j).running = false
        rw [hothers j hne']
        exact hs.stopped j hj hne

variable {k : ℕ}

/-- A kernel that is taken is above the barrier. -/
theorem taken_of_turning (hs : Turning i (w, history))
    (hkernel : w.kernel = some k) (hlock : t.stream_lock = some i) (hnone : t.kernel = none)
    (hcreated : t.created = w.created)
    (hothers : ∀ j, j ≠ k → (t.kernels j).running = (w.kernels j).running) : Taken i k (t, history) := by
  refine ⟨hlock, hnone, fun j hj hne => ?_⟩
  have hne' : j ≠ k := fun heq => hne (congrArg some heq.symm)
  show (t.kernels j).running = false
  rw [hothers j hne']
  refine hs.stopped j (by rw [← hcreated]; exact hj) ?_
  intro heq
  exact hne (hkernel.symm.trans heq)

/-- What a step leaves: the kernel of the service, or one that was taken from it to be stopped. -/
def TakenOr (i : ℕ) (taken : Option ℕ) (s : Watched E) : Prop :=
  match taken with
  | none => Turning i s
  | some k => Taken i k s

theorem TakenOr.lock {taken : Option ℕ} {s : Watched E} (h : TakenOr i taken s) :
    s.1.stream_lock = some i := by
  cases taken with
  | none => exact Turning.lock h
  | some k => exact Taken.lock h

theorem outline_start_kernel {session_id : Option String} :
    (barrier_rules status_of initial_session_id is_turn).Outline i
      (fun s => Turning i s ∧ s.1.kernel = some k) (Prog.lift (Call.start k session_id))
      fun answer => match answer with
        | .ok _ => Turning i
        | .error (_, taken) => TakenOr i taken := by
  refine outline_turn_step (fun s hs => hs.1.lock) ?_ ?_
  · intro r s hs
    match r with
    | .ok _ => exact Or.inl (Turning.lock hs)
    | .error (_, taken) => exact Or.inl (TakenOr.lock hs)
  · intro w history choice r t horderly hs _ hexec
    obtain ⟨hs, hkernel⟩ := hs
    have halike := alike_wait w choice
    have horderly' := halike.orderly horderly
    have hs' := halike.turning hs
    have hown : history.barrier ≤ k ∧ k < w.created := horderly.kernel k hkernel
    have heq : start k w choice = (r, t) := Option.some.inj hexec
    unfold start at heq
    cases hraises : choice.raises with
    | none =>
      rw [hraises] at heq
      obtain ⟨rfl, rfl⟩ := Prod.mk.inj heq
      have hothers : ∀ j, j ≠ k → (Function.update (w.wait choice).kernels k
          { (w.wait choice).kernels k with started := true, running := true } j)
          = (w.wait choice).kernels j := fun j hj => Function.update_of_ne hj _ _
      have hkernel' : (w.wait choice).kernel = some k := hkernel
      have hhand : record_history i (Call.start k session_id) (.ok (w.wait choice).kernel) w history
          = history.hand k := by
        rw [hkernel']
        rfl
      rw [hhand]
      refine ⟨horderly'.of_lock hs'.lock hs'.lock le_rfl horderly'.kernel ?_
        (Or.inr ⟨k, hkernel, rfl⟩), hs'.lock, ?_⟩
      · intro j hj
        have hne : j ≠ k := by omega
        exact congrArg (·.running) (hothers j hne)
      · intro j hj hne
        have hne' : j ≠ k := fun heq => hne (hkernel.trans (congrArg some heq.symm))
        exact (congrArg (·.running) (hothers j hne')).trans (hs'.stopped j hj hne)
    | some failure =>
      rw [hraises] at heq
      obtain ⟨rfl, rfl⟩ := Prod.mk.inj heq
      have hothers : ∀ j, j ≠ k → ((w.wait choice).call_start k).kernels j = (w.wait choice).kernels j := by
        intro j hj
        simp [World.call_start, World.set_kernel, Function.update_of_ne hj]
      have hkernel' : (w.wait choice).kernel = some k := hkernel
      refine ⟨horderly'.of_lock hs'.lock hs'.lock le_rfl (fun j hj => by cases hj) ?_ (Or.inl rfl), ?_⟩
      · intro j hj
        have hne : j ≠ k := by omega
        exact congrArg (·.running) (hothers j hne)
      · show TakenOr i (w.wait choice).kernel _
        rw [hkernel']
        exact taken_of_turning hs' hkernel' hs'.lock rfl rfl fun j hj =>
          congrArg (·.running) (hothers j hj)

/-- A turn that was recorded, or whose log file could not be written. -/
def RecordedOr (i : ℕ) : Except Failure (Option ℕ) → Watched E → Prop
  | .ok taken, s => TakenOr i taken s
  | .error _, s => Turning i s

theorem outline_record_turn {events : List E} :
    (barrier_rules status_of initial_session_id is_turn).Outline i (Turning i)
      (Prog.lift (Call.record k events)) (RecordedOr i) := by
  refine outline_turn_step (fun s hs => hs.lock) ?_ ?_
  · intro r s hs
    match r with
    | .ok taken => exact Or.inl (TakenOr.lock hs)
    | .error _ => exact Or.inl (Turning.lock hs)
  · intro w history choice r t horderly hs _ hexec
    -- whatever is recorded, the kernel stays, or is taken
    have hrecorded : ∀ w' : World ℕ E, w'.kernels = w.kernels → w'.created = w.created →
        w'.stream_lock = w.stream_lock → w'.kernel = w.kernel →
        record.recorded status_of events (w.kernels k) w' = (r, t) →
        Orderly (t, record_history i (Call.record k events) r w history)
          ∧ RecordedOr i r (t, record_history i (Call.record k events) r w history) := by
      intro w' hkernels hcreated hlock hkernel heq
      unfold record.recorded at heq
      by_cases hstop : (w.kernels k).should_stop_after_message = true ∨ (w.kernels k).status = .error
      · simp only [hstop, if_true] at heq
        obtain ⟨rfl, rfl⟩ := Prod.mk.inj heq
        refine ⟨horderly.of_lock hs.lock (hlock.trans hs.lock) (le_of_eq hcreated.symm)
          (fun j hj => by cases hj) (fun j _ => ?_) (Or.inl rfl), ?_⟩
        · show (w'.kernels j).running = _
          rw [hkernels]
        · show TakenOr i w'.kernel _
          cases hown : w.kernel with
          | none =>
            rw [hkernel, hown]
            refine ⟨hlock.trans hs.lock, fun j hj _ => ?_⟩
            show (w'.kernels j).running = false
            rw [hkernels]
            refine hs.stopped j (by rw [← hcreated]; exact hj) ?_
            show w.kernel ≠ some j
            rw [hown]
            exact fun h => by cases h
          | some j =>
            rw [hkernel, hown]
            refine taken_of_turning hs hown (hlock.trans hs.lock) rfl hcreated fun j' _ => ?_
            show (w'.kernels j').running = _
            rw [hkernels]
      · simp only [hstop, if_false] at heq
        obtain ⟨rfl, rfl⟩ := Prod.mk.inj heq
        have halike : Alike w { w' with status := derive_status status_of events (w.kernels k).status } :=
          ⟨hcreated, hkernel, hlock, fun j => by
            show (w'.kernels j).running = _
            rw [hkernels]⟩
        exact ⟨halike.orderly horderly, halike.turning hs⟩
    have heq : record status_of k events w choice = (r, t) := Option.some.inj hexec
    unfold record at heq
    cases hraises : choice.raises with
    | none =>
      simp only [hraises] at heq
      refine hrecorded _ ?_ ?_ ?_ ?_ heq
      all_goals rfl
    | some failure =>
      by_cases hnothing : (w.kernels k).raw_logs.drop w.raw_log_offset = []
      · simp only [hraises, hnothing, if_true] at heq
        refine hrecorded _ ?_ ?_ ?_ ?_ heq
        all_goals rfl
      · simp only [hraises, hnothing, if_false] at heq
        obtain ⟨rfl, rfl⟩ := Prod.mk.inj heq
        have halike : Alike w { w with
            session_id := (w.kernels k).resume_token.or w.session_id
            history := w.history ++ [events]
            log := w.log ++ ((w.kernels k).raw_logs.drop w.raw_log_offset).take choice.written
            raw_log_offset := if (w.kernels k).raw_logs = [] then w.raw_log_offset
              else (w.kernels k).raw_logs.length } := ⟨rfl, rfl, rfl, fun _ => rfl⟩
        exact ⟨halike.orderly horderly, halike.turning hs⟩

theorem stopped_set_kernel {w : World ℕ E} (h : StoppedBut (some k) w) :
    StoppedBut none (w.set_kernel k { w.kernels k with running := false }) := by
  intro j hj _
  by_cases heq : j = k
  · subst heq
    simp [World.set_kernel]
  · have hstopped := h j hj fun h => heq (Option.some.inj h).symm
    simpa [World.set_kernel, Function.update_of_ne heq] using hstopped

theorem outline_stop_kernel : (barrier_rules status_of initial_session_id is_turn).Outline i (Taken i k)
      (Prog.lift (Call.await_stop k)) fun _ => Turning i := by
  refine outline_turn_step (fun s hs => hs.lock) (fun r s hs => Or.inl hs.lock) ?_
  intro w history choice r t horderly hs hraises hexec
  have heq : await_stop k w choice = (r, t) := Option.some.inj hexec
  have hraises' : choice.raises = none := hraises
  unfold await_stop at heq
  rw [hraises'] at heq
  obtain ⟨rfl, rfl⟩ := Prod.mk.inj heq
  have halike := alike_wait w choice
  have horderly' := halike.orderly horderly
  have hkernel : (w.wait choice).kernel = none := hs.kernel
  refine ⟨horderly'.of_lock hs.lock hs.lock le_rfl ?_ ?_ (Or.inl rfl), hs.lock, ?_⟩
  · intro j hj
    exact absurd (hkernel.symm.trans hj) (by simp)
  · intro j hj
    by_cases hne : j = k
    · subst hne
      have hstopped := horderly'.fenced.stopped j hj
      show (((w.wait choice).set_kernel j _).kernels j).running = _
      rw [hstopped]
      simp [World.set_kernel]
    · simp [World.set_kernel, Function.update_of_ne hne]
  · show StoppedBut (w.wait choice).kernel _
    rw [hkernel]
    exact stopped_set_kernel (halike.stopped hs.stopped)

/-! ### Turns -/

theorem outline_turn_kernel :
    (barrier_rules status_of initial_session_id is_turn).Outline i (Turning i) kernel_of_message
      fun _ => Turning i := by
  refine .bind outline_hand_kernel fun answer => ?_
  obtain ⟨k, session_id⟩ := answer
  cases session_id with
  | none => exact .ret fun s _ hs => hs.1
  | some session_id =>
    have hstart : (barrier_rules status_of initial_session_id is_turn).Outline i
        (fun s => Turning i s ∧ ((some session_id : Option (Option String)) ≠ none → s.1.kernel = some k))
        (Prog.lift (Call.start k session_id)) _ :=
      outline_start_kernel.mono fun s _ hs => ⟨hs.1, hs.2 (by simp)⟩
    refine .bind hstart fun started => ?_
    match started with
    | .ok kernel => exact .ret fun s _ hs => hs
    | .error (failure, none) => exact .ret fun s _ hs => hs
    | .error (failure, some taken) =>
      refine .bind (outline_stop_kernel.mono fun s _ hs => hs) fun stopped => ?_
      exact .ret fun s _ hs => hs

theorem outline_turn_finally (k : ℕ) (events : List E) (completed : Bool) (rounds : ℕ) :
    (barrier_rules status_of initial_session_id is_turn).Outline i (Turning i)
      (finally_block k events completed rounds) fun _ => Turning i := by
  refine .bind (outline_passive (only_drain k completed rounds)) fun answer => ?_
  cases answer with
  | error raised => exact .ret fun s _ hs => hs
  | ok late =>
    refine .bind outline_record_turn fun recorded => ?_
    match recorded with
    | .error failure => exact .ret fun s _ hs => hs
    | .ok none => exact .ret fun s _ hs => hs
    | .ok (some taken) =>
      refine .bind (outline_stop_kernel.mono fun s _ hs => hs) fun stopped => ?_
      exact .ret fun s _ hs => hs

theorem outline_turn (rounds : ℕ) :
    (barrier_rules status_of initial_session_id is_turn).Outline i (Turning i) (stream rounds)
      fun (_ : Ended E) => Turning i := by
  refine .bind outline_turn_kernel fun answer => ?_
  match answer with
  | .error failure => exact .ret fun s _ hs => hs
  | .ok none => exact .ret fun s _ hs => hs
  | .ok (some k) =>
    refine .bind (outline_passive (only_recv_all k false rounds [])) fun result => ?_
    obtain ⟨events, raised⟩ := result
    refine .bind (outline_passive (Prog.Only.lift trivial)) fun sent => ?_
    have hfinally : ∀ sent : Option Failure, (barrier_rules status_of initial_session_id is_turn).Outline i
        (Turning i) (finally_block k events raised.isNone rounds >>= fun failed =>
          pure ⟨some k, events, failed.or (raised.or (sent.map .failure)), raised.isNone⟩)
        fun (_ : Ended E) => Turning i := by
      intro sent
      refine .bind (outline_turn_finally k events raised.isNone rounds) fun failed => ?_
      exact .ret fun s _ hs => hs
    match sent with
    | none => exact hfinally none
    | some .cancelled_error => exact hfinally (some .cancelled_error)
    | some .exception => exact .ret fun s _ hs => hs

theorem outline_turn_message (rounds : ℕ) :
    (barrier_rules status_of initial_session_id is_turn).Outline i (fun _ => True) (stream_message rounds)
      fun (_ : Ended E) _ => True := by
  refine .bind outline_lock fun _ => ?_
  refine .bind (outline_turn rounds) fun ended => ?_
  refine .bind outline_unlock fun _ => ?_
  exact .ret fun s _ _ => trivial

/-! ### Resets and stops -/

/-- A reset or a stop waits for the kernel that it has taken. -/
structure Stopping (i k : ℕ) (s : Watched E) : Prop where
  stopping : s.2.stopping = [i]
  lock : s.1.stream_lock = none
  kernel : s.1.kernel = none
  stopped : StoppedBut (some k) s.1
  begun : s.2.begun i ≤ s.1.created
  created : k < s.1.created

/-- A reset or a stop returns when no kernel is running. -/
theorem orderly_returned (kind : Shutdown) {created : ℕ}
    (hhanded : ∀ entry ∈ history.handed, entry.2 ≤ entry.1) (hbarrier : history.barrier ≤ w.created)
    (hcreated : created ≤ w.created) (hsame : t.created = w.created) (hlock : t.stream_lock = none)
    (hkernel : t.kernel = none) (hstopped : StoppedBut none t) :
    Orderly (t, history.returned kind created) := by
  refine ⟨⟨?_, hhanded⟩, ?_, ?_, fun h => absurd hlock h, ?_, ?_⟩
  · intro k hk
    have hk' : k < max history.barrier created := hk
    refine hstopped k ?_ (by simp)
    have hlt : k < w.created := lt_of_lt_of_le hk' (max_le hbarrier hcreated)
    rw [hsame]
    exact hlt
  · show max history.barrier created ≤ t.created
    rw [hsame]
    exact max_le hbarrier hcreated
  · intro k hk
    exact absurd (hkernel.symm.trans hk) (by simp)
  · intro j hj
    exact absurd (hlock.symm.trans hj) (by simp)
  · intro _ _
    show StoppedBut t.kernel t
    rw [hkernel]
    exact hstopped

variable (initial_session_id) in
theorem alike_shut_down (w : World ℕ E) (kind : Shutdown) :
    Alike w (shut_down initial_session_id w kind) := by
  cases kind with
  | reset | stop => exact ⟨rfl, rfl, rfl, fun _ => rfl⟩

theorem outline_begin (hturn : ¬is_turn i) (kind : Shutdown) :
    (barrier_rules status_of initial_session_id is_turn).Outline i (fun _ => True)
      (Prog.lift (Call.begin_shutdown kind)) fun answer => match answer with
        | none => fun _ => True
        | some k => Stopping i k := by
  refine .lift ?_ ?_
  · intro r
    match r with
    | none => exact stable_true
    | some k => exact stable_inside fun s hs => Or.inr hs.stopping
  · intro s choice r t horderly _ hapart hexec
    obtain ⟨w, history⟩ := s
    have hlock' : w.stream_lock = none := hapart.1
    have hstopping' : history.stopping = [] := hapart.2
    have hexec' : with_history (exec status_of initial_session_id) record_history i
        (Call.begin_shutdown kind) choice (w, history) = some (r, t) := hexec
    obtain ⟨hstep, hhistory⟩ := with_history_eq_some hexec'
    obtain ⟨t, history'⟩ := t
    have hleaves : Leaves is_turn i (w, history) (t, history') := by
      refine ⟨?_, fun h => absurd h hturn⟩
      rintro j (hj | hj)
      · exact absurd (hlock'.symm.trans hj) (by simp)
      · exact absurd (hstopping'.symm.trans hj) (by simp)
    have heq : begin_shutdown initial_session_id kind w = (r, t) := Option.some.inj hstep
    have hbetween : StoppedBut w.kernel w := horderly.stopped hlock' hstopping'
    unfold begin_shutdown at heq
    cases hkernel : w.kernel with
    | none =>
      rw [hkernel] at heq hbetween
      obtain ⟨rfl, rfl⟩ := Prod.mk.inj heq
      obtain rfl : history' = history.returned kind w.created := hhistory
      have halike := alike_shut_down initial_session_id w.take_kernel kind
      refine ⟨?_, hleaves, trivial⟩
      exact orderly_returned (w := w) kind horderly.fenced.handed horderly.barrier le_rfl halike.created
        (halike.lock.trans hlock') halike.kernel (halike.stopped hbetween)
    | some k =>
      rw [hkernel] at heq hbetween
      obtain ⟨rfl, rfl⟩ := Prod.mk.inj heq
      obtain rfl : history' = history.begin i w.created := hhistory
      have hin : history.stopping ++ [i] = [i] := by rw [hstopping', List.nil_append]
      refine ⟨⟨⟨horderly.fenced.stopped, horderly.fenced.handed⟩, horderly.barrier, ?_, ?_, ?_, ?_⟩, hleaves,
        ⟨hin, hlock', rfl, hbetween, ?_, (horderly.kernel k hkernel).2⟩⟩
      · intro j hj
        cases hj
      · intro h
        exact absurd hlock' h
      · intro j hj
        exact absurd (hlock'.symm.trans hj) (by simp)
      · intro _ hnone
        exact absurd (hin.symm.trans hnone) (by simp)
      · show Function.update history.begun i w.created i ≤ w.created
        rw [Function.update_self]

theorem outline_finish (hturn : ¬is_turn i) (kind : Shutdown) (k : ℕ) :
    (barrier_rules status_of initial_session_id is_turn).Outline i (Stopping i k)
      (Prog.lift (Call.finish_shutdown kind k)) fun _ _ => True := by
  refine .lift (fun _ => stable_true) ?_
  intro s choice r t horderly hs hraises hexec
  obtain ⟨w, history⟩ := s
  have hexec' : with_history (exec status_of initial_session_id) record_history i
      (Call.finish_shutdown kind k) choice (w, history) = some (r, t) := hexec
  obtain ⟨hstep, hhistory⟩ := with_history_eq_some hexec'
  obtain ⟨t, history'⟩ := t
  have hraises' : choice.raises = none := hraises
  have hleaves : Leaves is_turn i (w, history) (t, history') :=
    ⟨fun j hj => horderly.inside_unique hj (Or.inr hs.stopping), fun h => absurd h hturn⟩
  have heq : finish_shutdown initial_session_id kind k w choice = (r, t) := Option.some.inj hstep
  unfold finish_shutdown await_stop at heq
  rw [hraises'] at heq
  obtain ⟨rfl, rfl⟩ := Prod.mk.inj heq
  obtain rfl : history' = (history.finish i).returned kind (history.begun i) := hhistory
  have hwait := alike_wait w choice
  have halike := alike_shut_down initial_session_id
    ((w.wait choice).set_kernel k { (w.wait choice).kernels k with running := false }) kind
  refine ⟨?_, hleaves, trivial⟩
  exact orderly_returned (w := w) kind horderly.fenced.handed horderly.barrier hs.begun halike.created
    (halike.lock.trans hs.lock) (halike.kernel.trans hs.kernel)
    (halike.stopped (stopped_set_kernel (hwait.stopped hs.stopped)))

theorem outline_shutdown (hturn : ¬is_turn i) (kind : Shutdown) :
    (barrier_rules status_of initial_session_id is_turn).Outline i (fun _ : Watched E => True)
      (shutdown_service kind) fun _ _ => True := by
  refine .bind (outline_begin hturn kind) fun answer => ?_
  cases answer with
  | none => exact .ret fun s _ _ => trivial
  | some k => exact outline_finish hturn kind k

end Steps

/-! ## Runs -/

section Runs

variable (status_of : E → Option KernelStatus) (initial_session_id : Option String)
  (requests : ℕ → Request)

/-- The calls of a service, with their history. -/
abbrev Calls (E : Type) := Threads ℕ (Call E) (Outcome E) (Watched E) Call.Answer

/-- A service at the start, and the calls that are made of it. -/
def start_calls : Calls E where
  state := (World.new initial_session_id, History.new)
  rest := fun i => (requests i).program

/-- The condition on a step of a run. -/
def ApartStep (s : Calls E) (move : Move ℕ (Choice E)) (_ : Calls E) : Prop :=
  ∀ c k, s.rest move.thread = .call c k → Apart move.thread c move.choice s.state

variable {status_of initial_session_id requests}

theorem outline_request {i : ℕ} :
    (barrier_rules status_of initial_session_id fun i => (requests i).is_turn).Outline i
      (fun _ : Watched E => True) (requests i).program fun _ _ => True := by
  unfold Request.program
  cases hrequest : requests i with
  | stream_message rounds =>
    refine .bind (outline_turn_message rounds) fun ended => ?_
    exact .ret fun s _ _ => trivial
  | shutdown kind =>
    have hturn : ¬(requests i).is_turn := by
      rw [hrequest]
      exact fun h => h
    refine .bind (outline_shutdown hturn kind) fun failed => ?_
    exact .ret fun s _ _ => trivial

/-- **Barriers.** In every run whose calls stay apart, a turn that took the lock before a reset that
has returned changes nothing that the reset has made, and no kernel that was created before a reset
or a stop that has returned is running, or is handed to a turn. -/
theorem shutdowns_are_barriers {moves : List (Move ℕ (Choice E))} {t : Calls E}
    (hrun : Run (Guarded (Advance (with_history (exec status_of initial_session_id) record_history))
      ApartStep) (start_calls initial_session_id requests) moves t) :
    Run (Guarded (Guarded (Advance (with_history (exec status_of initial_session_id) record_history))
        ApartStep) fun s move t => (requests move.thread).is_turn → Stale move.thread s.state →
          Unchanged s.state t.state) (start_calls initial_session_id requests) moves t
    ∧ Fenced t.state := by
  have houtlined : (barrier_rules status_of initial_session_id fun i => (requests i).is_turn).Outlined
      (fun _ (_ : Outcome E) _ => True) (start_calls initial_session_id requests) := by
    refine ⟨orderly_new initial_session_id, fun i => ⟨fun _ => True, stable_true, trivial, ?_⟩⟩
    exact outline_request
  obtain ⟨hend, hguaranteed⟩ := houtlined.run hrun
  exact ⟨hguaranteed.mono fun s move t h => ⟨h.1, h.2.fresh⟩, hend.invariant.fenced⟩

end Runs

/-! ## Two runs -/

/-- A turn, and resets. -/
def turn_and_resets : ℕ → Request
  | 0 => .stream_message 2
  | _ => .shutdown .reset

instance (i : ℕ) (c : Call Unit) (choice : Choice Unit) (s : Watched Unit) :
    Decidable (Apart i c choice s) :=
  match c with
  | .acquire => decidable_of_iff (s.2.stopping = []) Iff.rfl
  | .begin_shutdown _ => instDecidableAnd
  | .await_stop _ => decidable_of_iff (choice.raises = none) Iff.rfl
  | .finish_shutdown _ _ => decidable_of_iff (choice.raises = none) Iff.rfl
  | .release => instDecidableTrue
  | .kernel_for_message => instDecidableTrue
  | .start _ _ => instDecidableTrue
  | .recv _ _ => instDecidableTrue
  | .yield _ => instDecidableTrue
  | .await_send _ => instDecidableTrue
  | .should_stop_after_message _ => instDecidableTrue
  | .record _ _ => instDecidableTrue
  | .hang => instDecidableTrue

/-- The check that a step stays apart from the other calls. -/
def apart_check (s : Calls Unit) (move : Move ℕ (Choice Unit)) : Bool :=
  match s.rest move.thread with
  | .ret _ => true
  | .call c _ => decide (Apart move.thread c move.choice s.state)

/-- A kernel that is kept does nothing. -/
def lies : Choice Unit := ⟨fun _ => ⟨.idle, none, [], []⟩, true, none, 0, none⟩

/-- A kernel that puts an event and the sentinel. -/
def replies : Choice Unit := ⟨fun _ => ⟨.idle, none, [], [some (), none]⟩, true, none, 0, none⟩

/-- A turn that keeps its kernel, and a reset behind it. -/
def reset_behind_turn : List (Move ℕ (Choice Unit)) :=
  [lies, lies, replies, lies, lies, lies, lies, lies, lies, lies].map (Move.mk 0)
    ++ [lies, lies].map (Move.mk 1)

/-- The kernel that a turn has kept is stopped by a reset. -/
theorem reset_behind_turn_fences : ∃ t,
    Run (Guarded (Advance (with_history (exec (fun _ : Unit => none) none) record_history)) ApartStep)
        (start_calls none turn_and_resets) reset_behind_turn t
      ∧ t.state.2.barrier = 1 ∧ Fenced t.state := by
  obtain ⟨t, hrun, hbarrier⟩ := exists_run_of_play
    (with_history (exec (fun _ : Unit => none) none) record_history) apart_check (P := ApartStep)
    (by
      intro s move t hcheck _ c k hcall
      unfold apart_check at hcheck
      rw [hcall] at hcheck
      exact of_decide_eq_true hcheck)
    (start_calls none turn_and_resets) reset_behind_turn
    (fun t => decide (t.state.2.barrier = 1)) (by decide)
  exact ⟨t, hrun, of_decide_eq_true hbarrier, (shutdowns_are_barriers hrun).2⟩

/-- A turn has its first event when a reset begins and returns; the turn is then about to be
recorded. -/
def reset_within_turn : List (Move ℕ (Choice Unit)) :=
  [lies, lies, replies, lies].map (Move.mk 0) ++ [lies, lies].map (Move.mk 1)
    ++ [lies, lies, lies, lies].map (Move.mk 0)

/-- A turn that a reset has overtaken adds to the history. -/
theorem reset_during_turn : ∃ s t,
    Run (Advance (with_history (exec (fun _ : Unit => none) none) record_history))
        (start_calls none turn_and_resets) reset_within_turn s
      ∧ Advance (with_history (exec (fun _ : Unit => none) none) record_history) s ⟨0, lies⟩ t
      ∧ (turn_and_resets 0).is_turn ∧ Stale 0 s.state ∧ ¬Unchanged s.state t.state := by
  let step := advance (with_history (exec (fun _ : Unit => none) none) record_history)
    (α := Outcome Unit)
  obtain ⟨s, hrun, hobserved⟩ := exists_run_of_play
    (with_history (exec (fun _ : Unit => none) none) record_history) (fun _ _ => true)
    (P := fun _ _ _ => True) (fun _ _ _ _ _ => trivial)
    (start_calls none turn_and_resets) reset_within_turn
    (fun s => decide (s.state.2.since 0 = some 0 ∧ s.state.2.resets = 1 ∧ s.state.1.history = []
      ∧ (step s ⟨0, lies⟩).map (·.state.1.history) = some [[()]])) (by decide)
  obtain ⟨hsince, hresets, hbefore, hafter⟩ := of_decide_eq_true hobserved
  obtain ⟨t, hstep, hhistory⟩ := Option.map_eq_some_iff.1 hafter
  refine ⟨s, t, Run.of_guarded hrun, hstep, trivial, ⟨0, hsince, ?_⟩, fun hunchanged => ?_⟩
  · rw [hresets]
    exact Nat.zero_lt_one
  · have hsame := hunchanged.history
    rw [hhistory, hbefore] at hsame
    cases hsame

end AgentSpace.KernelHost
