/-
The accounts of a session service: what its turns leave in its history and in its log.

Turns follow one another. `turns_accounted` says that careful turns are accounted for, and
`failed_send_is_unrecorded` is a turn that is not.
-/
import AgentSpace.KernelHost.Service

set_option autoImplicit false

namespace AgentSpace.KernelHost

open Lib
open Kernels (KernelStatus)

variable {E : Type}

/-! ## What is expected of a turn -/

/-- The raw lines of the service's kernel that are not in the log file yet. -/
def unlogged {ι : Type} (w : World ι E) : List String :=
  match w.kernel with
  | none => []
  | some k => (w.kernels k).raw_logs.drop w.raw_log_offset

/-- Each raw line of each kernel is once in the log file, or else yet to be appended to it. -/
def Logged {ι : Type} (w : World ι E) : Prop :=
  w.log ++ unlogged w = (List.range w.created).flatMap fun k => (w.kernels k).raw_logs

/-- What a turn adds to the history: one entry if its kernel was started. The entry is what the
kernel has put since the turn began, in order, all of it if the events were exhausted or the kernel
can be kept. -/
def Recorded (s : World Unit E) (ended : Ended E) (t : World Unit E) : Prop :=
  match ended.kernel with
  | none => t.history = s.history ∧ s.kernel = none
      ∧ ∀ k, s.created ≤ k → (t.kernels k).started = false
  | some k => (t.kernels k).started = true ∧ ∃ entry rest, t.history = s.history ++ [entry]
      ∧ ended.yielded <+: entry
      ∧ (t.kernels k).items = (s.kernels k).items ++ entry.map some ++ rest
      ∧ (ended.stream_completed = true ∨ (t.kernels k).persistent = true → rest.head? = some none)

/-- A turn is accounted for. -/
structure Accounted (s : World Unit E) (ended : Ended E) (t : World Unit E) : Prop where
  lock : t.stream_lock = none
  recorded : Recorded s ended t
  logged : Logged t
  /-- A kernel that is not persistent or has failed has been stopped, and so has every other kernel
  that is not the one of the service. -/
  stopped : ∀ k, k < t.created → (t.kernels k).running = false
    ∨ t.kernel = some k ∧ (t.kernels k).persistent = true ∧ (t.kernels k).status ≠ .error

/-! ## Careful turns -/

/-- Only the kernel of the service writes raw lines. -/
def Quiet (choice : Choice E) (w : World Unit E) : Prop :=
  ∀ k, k < w.created → w.kernel ≠ some k → (choice.activity k).raw_logs = []

/-- The condition on a step of a turn. -/
def Careful (c : Call E) (choice : Choice E) (w : World Unit E) : Prop :=
  match c with
  | .acquire => Quiet choice w ∧ ∀ k, w.kernel = some k → (choice.activity k).queue = []
  | .start k _ => Quiet choice w
      ∧ (choice.raises ≠ none → ((w.wait choice).kernels k).raw_logs = [])
  | .recv _ late => Quiet choice w ∧ (late = true → choice.raises = none)
  | .yield _ => Quiet choice w
  | .await_send _ => Quiet choice w ∧ choice.raises ≠ some .exception
  | .record k _ => choice.raises = none
      ∧ ((w.kernels k).persistent = true → (w.kernels k).status ≠ .error → (w.kernels k).queue = [])
  | .await_stop _ => Quiet choice w ∧ choice.raises = none
  | _ => True

/-- The condition on a step of a run. -/
def CarefulStep (s : Threads Unit (Call E) (Ended E) (World Unit E) Call.Answer)
    (move : Move Unit (Choice E)) (_ : Threads Unit (Call E) (Ended E) (World Unit E) Call.Answer) : Prop :=
  ∀ c k, s.rest move.thread = .call c k → Careful c move.choice s.state

/-- A turn of careful steps. -/
def Turn (status_of : E → Option KernelStatus) (initial_session_id : Option String)
    (s : World Unit E) (ended : Ended E) (t : World Unit E) : Prop :=
  ∃ rounds moves, Run (Guarded (Advance (exec status_of initial_session_id)) CarefulStep)
    ⟨s, fun _ => stream_message rounds⟩ moves ⟨t, fun _ => .ret ended⟩

/-! ## The invariant -/

/-- What holds at every step of careful turns. -/
structure Core (w : World Unit E) : Prop where
  future : ∀ k, w.created ≤ k → w.kernels k = KernelState.new false
  latest : ∀ k, w.kernel = some k → k + 1 = w.created
  offset : ∀ k, w.kernel = some k → w.raw_log_offset ≤ (w.kernels k).raw_logs.length
  logged : Logged w

theorem Core.congr {w t : World Unit E} (h : Core w) (hcreated : t.created = w.created)
    (hkernel : t.kernel = w.kernel) (hoffset : t.raw_log_offset = w.raw_log_offset)
    (hlog : t.log = w.log) (hraw : ∀ k, (t.kernels k).raw_logs = (w.kernels k).raw_logs)
    (hfuture : ∀ k, w.created ≤ k → t.kernels k = w.kernels k) : Core t := by
  refine ⟨?_, ?_, ?_, ?_⟩
  · intro k hk
    rw [hcreated] at hk
    rw [hfuture k hk]
    exact h.future k hk
  · intro k hk
    rw [hkernel] at hk
    rw [hcreated]
    exact h.latest k hk
  · intro k hk
    rw [hkernel] at hk
    rw [hoffset, hraw]
    exact h.offset k hk
  · have hlogged := h.logged
    unfold Logged unlogged at hlogged ⊢
    simp only [hcreated, hkernel, hoffset, hlog, hraw]
    exact hlogged

variable {w : World Unit E}

theorem Core.set_kernel (h : Core w) {k : ℕ} {kernel : KernelState E}
    (hk : k < w.created) (hraw : kernel.raw_logs = (w.kernels k).raw_logs) :
    Core (w.set_kernel k kernel) := by
  refine h.congr rfl rfl rfl rfl ?_ ?_
  · intro j
    by_cases hj : j = k
    · subst hj
      simpa [World.set_kernel] using hraw
    · simp [World.set_kernel, Function.update_of_ne hj]
  · intro j hj
    have hne : j ≠ k := by omega
    simp [World.set_kernel, Function.update_of_ne hne]

theorem exists_wait_items (w : World Unit E) (choice : Choice E) (k : ℕ) :
    ∃ more, ((w.wait choice).kernels k).items = (w.kernels k).items ++ more := by
  unfold World.wait
  by_cases hk : k < w.created
  · exact ⟨(choice.activity k).queue, by simp [hk, KernelState.act, KernelState.items]⟩
  · exact ⟨[], by simp [hk]⟩

theorem wait_raw_logs {choice : Choice E} (hquiet : Quiet choice w) {k : ℕ}
    (hk : w.kernel ≠ some k) : ((w.wait choice).kernels k).raw_logs = (w.kernels k).raw_logs := by
  unfold World.wait
  by_cases hcreated : k < w.created
  · simp [hcreated, KernelState.act, hquiet k hcreated hk]
  · simp [hcreated]

theorem Core.wait (h : Core w) {choice : Choice E} (hquiet : Quiet choice w) : Core (w.wait choice) := by
  have hfuture : ∀ k, w.created ≤ k → (w.wait choice).kernels k = w.kernels k := by
    intro k hk
    have hnot : ¬k < w.created := by omega
    simp [World.wait, hnot]
  cases hkernel : w.kernel with
  | none =>
    refine h.congr rfl rfl rfl rfl (fun k => ?_) hfuture
    exact wait_raw_logs hquiet (by simp [hkernel])
  | some k =>
    have hlatest := h.latest k hkernel
    have hk : k < w.created := by omega
    have hown : ((w.wait choice).kernels k).raw_logs
        = (w.kernels k).raw_logs ++ (choice.activity k).raw_logs := by
      simp [World.wait, hk, KernelState.act]
    have hothers : ∀ j, j ∈ List.range k →
        ((w.wait choice).kernels j).raw_logs = (w.kernels j).raw_logs := by
      intro j hj
      have hlt := List.mem_range.1 hj
      refine wait_raw_logs hquiet ?_
      rw [hkernel]
      intro heq
      have heq' := Option.some.inj heq
      omega
    have hoffset := h.offset k hkernel
    refine ⟨fun j hj => (hfuture j hj).trans (h.future j hj), h.latest, ?_, ?_⟩
    · intro j hj
      obtain rfl : k = j := Option.some.inj (hkernel.symm.trans hj)
      show w.raw_log_offset ≤ _
      rw [hown, List.length_append]
      omega
    · have hlogged := h.logged
      unfold Logged unlogged at hlogged ⊢
      show w.log ++ (match w.kernel with
          | none => []
          | some k => ((w.wait choice).kernels k).raw_logs.drop w.raw_log_offset)
        = (List.range w.created).flatMap fun k => ((w.wait choice).kernels k).raw_logs
      rw [hkernel] at hlogged ⊢
      -- the kernel of the service is the last, and so are its lines
      rw [← hlatest, List.range_succ, List.flatMap_append] at hlogged ⊢
      simp only [List.flatMap_singleton] at hlogged ⊢
      rw [hown, List.drop_append_of_le_length hoffset, List.flatMap_congr hothers,
        ← List.append_assoc, hlogged, List.append_assoc]

/-- The kernel that a service keeps. -/
structure Kept (w : World Unit E) (k : ℕ) : Prop where
  persistent : (w.kernels k).persistent = true
  status : (w.kernels k).status ≠ .error
  started : (w.kernels k).started = true
  kernel_started : w.kernel_started = true
  queue : (w.kernels k).queue = []

/-- What holds between turns. -/
structure Settled (w : World Unit E) : Prop where
  core : Core w
  lock : w.stream_lock = none
  stopped : StoppedBut w.kernel w
  kernel : ∀ k, w.kernel = some k → Kept w k

theorem settled_new (session_id : Option String) : Settled (World.new session_id : World Unit E) := by
  refine ⟨⟨fun k _ => rfl, ?_, ?_, rfl⟩, rfl, ?_, ?_⟩
  · intro k hk
    cases hk
  · intro k hk
    cases hk
  · intro k hk _
    exact absurd hk (Nat.not_lt_zero k)
  · intro k hk
    cases hk

/-! ## A turn -/

section Phases

variable (s : World Unit E)

/-- A turn has the lock, and no kernel yet. -/
structure Locked (w : World Unit E) : Prop where
  lock : w.stream_lock = some ()
  kernel : w.kernel = s.kernel
  created : w.created = s.created
  history : w.history = s.history
  received : ∀ k, w.kernel = some k → (w.kernels k).received = (s.kernels k).items
  stopped : StoppedBut w.kernel w
  kept : ∀ k, w.kernel = some k → (w.kernels k).started = true ∧ w.kernel_started = true

/-- A turn has a kernel that is being started. -/
structure Starting (k : ℕ) (w : World Unit E) : Prop where
  lock : w.stream_lock = some ()
  kernel : w.kernel = some k
  history : w.history = s.history
  received : (w.kernels k).received = (s.kernels k).items
  stopped : StoppedBut (some k) w
  without : s.kernel = none
  created : s.created = k
  unstarted : (w.kernels k).started = false

/-- A turn has a kernel, and has taken something from its queue. -/
structure Holding (k : ℕ) (taken : List (Option E)) (w : World Unit E) : Prop where
  lock : w.stream_lock = some ()
  kernel : w.kernel = some k
  history : w.history = s.history
  received : (w.kernels k).received = (s.kernels k).items ++ taken
  stopped : StoppedBut (some k) w
  started : (w.kernels k).started = true
  kernel_started : w.kernel_started = true

/-- A turn has come to its end, but for a kernel that is to be stopped, and still has the lock. -/
structure Closing (ended : Ended E) (taken : Option ℕ) (w : World Unit E) : Prop where
  lock : w.stream_lock = some ()
  recorded : Recorded s ended w
  kernel : ∀ k, taken = some k → w.kernel = none ∧ k < w.created
  stopped : ∀ k, k < w.created → taken ≠ some k → w.kernel ≠ some k → (w.kernels k).running = false
  kept : ∀ k, w.kernel = some k → Kept w k

variable {s}

theorem Starting.wait {k : ℕ} {w : World Unit E} (h : Starting s k w) (choice : Choice E) :
    Starting s k (w.wait choice) := by
  refine ⟨h.lock, h.kernel, h.history, ?_, h.stopped.wait choice, h.without, h.created, ?_⟩
  · rw [wait_received]
    exact h.received
  · rw [wait_started]
    exact h.unstarted

theorem Holding.wait {k : ℕ} {taken : List (Option E)} {w : World Unit E} (h : Holding s k taken w)
    (choice : Choice E) : Holding s k taken (w.wait choice) := by
  refine ⟨h.lock, h.kernel, h.history, ?_, h.stopped.wait choice, ?_, h.kernel_started⟩
  · rw [wait_received]
    exact h.received
  · rw [wait_started]
    exact h.started

/-- What was recorded depends on few fields only. -/
theorem Recorded.congr {ended : Ended E} {w t : World Unit E} (h : Recorded s ended w)
    (hhistory : t.history = w.history) (hstarted : ∀ k, (t.kernels k).started = (w.kernels k).started)
    (hpersistent : ∀ k, (t.kernels k).persistent = (w.kernels k).persistent)
    (hitems : ∀ k, (t.kernels k).items = (w.kernels k).items) : Recorded s ended t := by
  unfold Recorded at h ⊢
  simp only [hhistory, hstarted, hpersistent, hitems]
  exact h

/-- What is raised is not recorded. -/
theorem Closing.raised {kernel taken : Option ℕ} {yielded : List E} {raised raised' : Option Raised}
    {completed : Bool} {w : World Unit E} (h : Closing s ⟨kernel, yielded, raised, completed⟩ taken w) :
    Closing s ⟨kernel, yielded, raised', completed⟩ taken w :=
  ⟨h.lock, h.recorded, h.kernel, h.stopped, h.kept⟩

theorem Recorded.wait {ended : Ended E} {w : World Unit E} (h : Recorded s ended w)
    (choice : Choice E) : Recorded s ended (w.wait choice) := by
  unfold Recorded at h ⊢
  cases hkernel : ended.kernel with
  | none =>
    rw [hkernel] at h
    refine ⟨h.1, h.2.1, fun k hk => ?_⟩
    rw [wait_started]
    exact h.2.2 k hk
  | some k =>
    rw [hkernel] at h
    obtain ⟨hstarted, entry, rest, hhistory, hyielded, hitems, hrest⟩ := h
    obtain ⟨more, hmore⟩ := exists_wait_items w choice k
    refine ⟨by rw [wait_started]; exact hstarted, entry, rest ++ more, hhistory, hyielded, ?_, ?_⟩
    · rw [hmore, hitems, List.append_assoc]
    · intro hwhole
      rw [wait_persistent] at hwhole
      rw [List.head?_append, hrest hwhole]
      rfl

end Phases

/-! ## Steps -/

section Steps

variable (status_of : E → Option KernelStatus) (initial_session_id : Option String)

/-- The steps of careful turns. -/
def rules : Rules Unit (Call E) (Choice E) (World Unit E) Call.Answer where
  exec := exec status_of initial_session_id
  allow := fun _ c choice w => Careful c choice w
  invariant := Core
  guarantee := fun _ _ _ => True

variable {status_of initial_session_id} {s : World Unit E} {k : ℕ}

theorem stable (P : World Unit E → Prop) : (rules status_of initial_session_id).Stable () P :=
  fun j hj => absurd (Subsingleton.elim j ()) hj

/-- **One step.** -/
theorem outline_call {c : Call E} {P : World Unit E → Prop} {Q : c.Answer → World Unit E → Prop}
    (h : ∀ w choice r t, Core w → P w → Careful c choice w →
      exec status_of initial_session_id () c choice w = some (r, t) → Core t ∧ Q r t) :
    (rules status_of initial_session_id).Outline () P (Prog.lift c) Q := by
  refine .lift (fun r => stable (Q r)) ?_
  intro w choice r t hcore hP hcareful hexec
  obtain ⟨hcore', hQ⟩ := h w choice r t hcore hP hcareful hexec
  exact ⟨hcore', trivial, hQ⟩

/-- One step that is always possible. -/
theorem outline_step {c : Call E} {P : World Unit E → Prop} {Q : c.Answer → World Unit E → Prop}
    (step : World Unit E → Choice E → c.Answer × World Unit E)
    (hstep : ∀ w choice, exec status_of initial_session_id () c choice w = some (step w choice))
    (h : ∀ w choice, Core w → P w → Careful c choice w →
      Core (step w choice).2 ∧ Q (step w choice).1 (step w choice).2) :
    (rules status_of initial_session_id).Outline () P (Prog.lift c) Q := by
  refine outline_call fun w choice r t hcore hP hcareful hexec => ?_
  rw [hstep] at hexec
  have heq : step w choice = (r, t) := Option.some.inj hexec
  have hholds := h w choice hcore hP hcareful
  rwa [heq] at hholds

theorem outline_acquire (hs : Settled s) :
    (rules status_of initial_session_id).Outline () (fun w => w = s) (Prog.lift Call.acquire)
      fun _ => Locked s := by
  refine outline_call fun w choice r t hcore hw hcareful hexec => ?_
  subst hw
  obtain ⟨hquiet, hqueue⟩ := hcareful
  unfold exec at hexec
  simp only [hs.lock, if_true, Option.some.injEq, Prod.mk.injEq] at hexec
  obtain ⟨-, rfl⟩ := hexec
  have hwait := hcore.wait hquiet
  refine ⟨hwait.congr rfl rfl rfl rfl (fun _ => rfl) (fun _ _ => rfl), ?_⟩
  refine ⟨rfl, rfl, rfl, rfl, ?_, hs.stopped.wait choice, ?_⟩
  · intro k hk
    have hkept := (hs.kernel k hk).queue
    show ((w.wait choice).kernels k).received = _
    rw [wait_received, KernelState.items, hkept, List.append_nil]
  · intro k hk
    have hkept := hs.kernel k hk
    refine ⟨?_, hkept.kernel_started⟩
    show ((w.wait choice).kernels k).started = true
    rw [wait_started]
    exact hkept.started

theorem core_create {w : World Unit E} (h : Core w) (hkernel : w.kernel = none) (persistent : Bool) :
    Core (w.create_kernel persistent) := by
  refine ⟨?_, ?_, ?_, ?_⟩
  · intro j hj
    have hj' : w.created + 1 ≤ j := hj
    have hne : j ≠ w.created := by omega
    simp only [World.create_kernel, Function.update_of_ne hne]
    exact h.future j (by omega)
  · intro j hj
    obtain rfl : w.created = j := Option.some.inj hj
    rfl
  · intro j hj
    exact Nat.zero_le _
  · have hlogged := h.logged
    unfold Logged unlogged at hlogged ⊢
    rw [hkernel] at hlogged
    have hothers : ∀ j, j ∈ List.range w.created →
        ((w.create_kernel persistent).kernels j).raw_logs = (w.kernels j).raw_logs := by
      intro j hj
      have hlt := List.mem_range.1 hj
      have hne : j ≠ w.created := by omega
      simp [World.create_kernel, Function.update_of_ne hne]
    have hown : ((w.create_kernel persistent).kernels w.created).raw_logs = [] := by
      simp [World.create_kernel, KernelState.new]
    show w.log ++ ((w.create_kernel persistent).kernels w.created).raw_logs.drop 0
      = (List.range (w.created + 1)).flatMap fun j => ((w.create_kernel persistent).kernels j).raw_logs
    rw [List.range_succ, List.flatMap_append, List.flatMap_congr hothers, List.flatMap_singleton, hown,
      List.drop_nil]
    rw [← hlogged, List.append_nil, List.append_nil]

theorem core_call_start {w : World Unit E} (h : Core w) (hk : k < w.created) : Core (w.call_start k) :=
  h.set_kernel hk rfl

theorem outline_kernel_for_message (hs : Settled s) :
    (rules status_of initial_session_id).Outline () (Locked s) (Prog.lift Call.kernel_for_message)
      fun answer => match answer with
        | (k, none) => Holding s k []
        | (k, some _) => Starting s k := by
  refine outline_step kernel_for_message (fun _ _ => rfl) fun w choice hcore hw _ => ?_
  unfold kernel_for_message
  cases hkernel : w.kernel with
  | none =>
    have hcreated : w.created < (w.create_kernel choice.persistent).created := Nat.lt_succ_self _
    have hfresh : s.kernels w.created = KernelState.new false := by
      refine hs.core.future w.created ?_
      rw [hw.created]
    refine ⟨core_call_start (core_create hcore hkernel _) hcreated, hw.lock, rfl, hw.history, ?_, ?_,
      hw.kernel.symm.trans hkernel, hw.created.symm, ?_⟩
    · simp [World.call_start, World.set_kernel, World.create_kernel, hfresh, KernelState.new,
        KernelState.items]
    · intro j hj hne
      have hj' : j < w.created + 1 := hj
      have hne' : j ≠ w.created := fun heq => hne (congrArg some heq.symm)
      simp only [World.call_start, World.set_kernel, World.create_kernel, Function.update_of_ne hne']
      refine hw.stopped j (by omega) ?_
      rw [hkernel]
      exact fun h => by cases h
    · simp [World.call_start, World.set_kernel, World.create_kernel, KernelState.new]
  | some k =>
    obtain ⟨hstarted, hkernel_started⟩ := hw.kept k hkernel
    simp only [hkernel_started, if_true]
    refine ⟨hcore, hw.lock, hkernel, hw.history, ?_, ?_, hstarted, hkernel_started⟩
    · rw [hw.received k hkernel, List.append_nil]
    · have hstopped := hw.stopped
      rwa [hkernel] at hstopped

theorem core_take {w : World Unit E} (h : Core w) (hunlogged : unlogged w = []) : Core w.take_kernel := by
  refine ⟨h.future, ?_, ?_, ?_⟩
  · intro j hj
    cases hj
  · intro j hj
    cases hj
  · have hlogged := h.logged
    unfold Logged at hlogged ⊢
    rw [hunlogged] at hlogged
    exact hlogged

theorem outline_start {session_id : Option String} :
    (rules status_of initial_session_id).Outline () (Starting s k) (Prog.lift (Call.start k session_id))
      fun answer => match answer with
        | .ok answer => fun w => answer = some k ∧ Holding s k [] w
        | .error (_, taken) => fun w => taken = some k
            ∧ Closing s ⟨none, [], none, false⟩ (some k) w := by
  refine outline_step (start k) (fun _ _ => rfl) fun w choice hcore hw hcareful => ?_
  obtain ⟨hquiet, hnothing⟩ := hcareful
  have hwait := hw.wait choice
  have hcore' := hcore.wait hquiet
  have hk : k < (w.wait choice).created := by
    have hlatest := hcore'.latest k hwait.kernel
    omega
  unfold start
  cases hraises : choice.raises with
  | none =>
    have hset : Core ((w.wait choice).set_kernel k
        { (w.wait choice).kernels k with started := true, running := true }) :=
      hcore'.set_kernel hk rfl
    refine ⟨hset.congr rfl rfl rfl rfl (fun _ => rfl) (fun _ _ => rfl), hwait.kernel, ?_⟩
    refine ⟨hwait.lock, hwait.kernel, hwait.history, ?_, ?_, ?_, rfl⟩
    · simpa [World.set_kernel] using hw.received
    · intro j hj hne
      have hne' : j ≠ k := fun heq => hne (congrArg some heq.symm)
      have hstopped := hwait.stopped j hj hne
      simpa [World.set_kernel, Function.update_of_ne hne'] using hstopped
    · simp [World.set_kernel]
  | some failure =>
    have hempty : ((w.wait choice).kernels k).raw_logs = [] := hnothing (by simp [hraises])
    have hunlogged : unlogged ((w.wait choice).call_start k) = [] := by
      unfold unlogged
      show (match (w.wait choice).kernel with
          | none => []
          | some j => (((w.wait choice).call_start k).kernels j).raw_logs.drop _) = []
      rw [hwait.kernel]
      simp [World.call_start, World.set_kernel, hempty]
    refine ⟨core_take (core_call_start hcore' hk) hunlogged, hwait.kernel, ?_⟩
    refine ⟨hwait.lock, ⟨hwait.history, hwait.without, ?_⟩, ?_, ?_, ?_⟩
    · intro j hj
      by_cases heq : j = k
      · subst heq
        simpa [World.take_kernel, World.call_start, World.set_kernel] using hw.unstarted
      · have hcreated := hwait.created
        have hlatest := hcore'.latest k hwait.kernel
        have hfuture := hcore'.future j (by omega)
        simp [World.take_kernel, World.call_start, World.set_kernel, Function.update_of_ne heq, hfuture,
          KernelState.new]
    · intro j hj
      obtain rfl : k = j := Option.some.inj hj
      exact ⟨rfl, hk⟩
    · intro j hj hne _
      have hne' : j ≠ k := fun heq => hne (congrArg some heq.symm)
      have hstopped := hwait.stopped j hj hne
      simpa [World.take_kernel, World.call_start, World.set_kernel, Function.update_of_ne hne']
        using hstopped
    · intro j hj
      cases hj

/-- The kernel is stopped, and the turn has come to its end. -/
theorem outline_await_stop {ended : Ended E} :
    (rules status_of initial_session_id).Outline () (Closing s ended (some k))
      (Prog.lift (Call.await_stop k)) fun answer w => answer = none ∧ Closing s ended none w := by
  refine outline_step (await_stop k) (fun _ _ => rfl) fun w choice hcore hw hcareful => ?_
  obtain ⟨hquiet, hraises⟩ := hcareful
  have hcore' := hcore.wait hquiet
  obtain ⟨hnone, hk⟩ := hw.kernel k rfl
  have hsame : ∀ {α : Type} (f : KernelState E → α),
      (∀ kernel running, f { kernel with running := running } = f kernel) → ∀ j,
      f (((w.wait choice).set_kernel k { (w.wait choice).kernels k with running := false }).kernels j)
        = f ((w.wait choice).kernels j) := by
    intro α f hf j
    by_cases hj : j = k
    · subst hj
      simp only [World.set_kernel, Function.update_self]
      exact hf _ _
    · simp only [World.set_kernel, Function.update_of_ne hj]
  unfold await_stop
  rw [hraises]
  refine ⟨hcore'.set_kernel hk rfl, rfl, hw.lock, ?_, ?_, ?_, ?_⟩
  · exact (hw.recorded.wait choice).congr rfl (hsame (·.started) fun _ _ => rfl)
      (hsame (·.persistent) fun _ _ => rfl) (hsame (·.items) fun _ _ => rfl)
  · intro j hj
    cases hj
  · intro j hj _ hne
    by_cases heq : j = k
    · subst heq
      simp [World.set_kernel]
    · have hstopped := hw.stopped j hj (fun h => heq (Option.some.inj h).symm) hne
      simp only [World.set_kernel, Function.update_of_ne heq, wait_running]
      exact hstopped
  · intro j hj
    exact absurd (hnone.symm.trans hj) (by simp)

/-! ### The events of a turn -/

variable {late : Bool}

theorem outline_recv {taken : List (Option E)} :
    (rules status_of initial_session_id).Outline () (Holding s k taken) (Prog.lift (Call.recv k late))
      fun answer => match answer with
        | .event event => Holding s k (taken ++ [some event])
        | .sentinel => Holding s k (taken ++ [none])
        | .raised _ => fun w => late = false ∧ Holding s k taken w := by
  refine outline_call fun w choice r t hcore hw hcareful hexec => ?_
  obtain ⟨hquiet, hlate⟩ := hcareful
  have hwait := hw.wait choice
  have hcore' := hcore.wait hquiet
  have hk : k < (w.wait choice).created := by
    have hlatest := hcore'.latest k hwait.kernel
    omega
  -- an item that is taken from the queue goes to what was received
  have htaken : ∀ item queue, Holding s k (taken ++ [item]) ((w.wait choice).set_kernel k
      { (w.wait choice).kernels k with
        received := ((w.wait choice).kernels k).received ++ [item], queue := queue }) := by
    intro item queue
    refine ⟨hwait.lock, hwait.kernel, hwait.history, ?_, ?_, ?_, hwait.kernel_started⟩
    · simp [World.set_kernel, hw.received]
    · intro j hj hne
      have hne' : j ≠ k := fun heq => hne (congrArg some heq.symm)
      have hstopped := hwait.stopped j hj hne
      simpa [World.set_kernel, Function.update_of_ne hne'] using hstopped
    · simpa [World.set_kernel] using hw.started
  change recv k w choice = some (r, t) at hexec
  unfold recv at hexec
  cases hraises : choice.raises with
  | some failure =>
    simp only [hraises, Option.some.injEq, Prod.mk.injEq] at hexec
    obtain ⟨rfl, rfl⟩ := hexec
    refine ⟨hcore', ?_, hwait⟩
    cases late with
    | false => rfl
    | true =>
      rw [hlate rfl] at hraises
      cases hraises
  | none =>
    cases hqueue : ((w.wait choice).kernels k).queue with
    | nil => simp [hraises, hqueue] at hexec
    | cons item queue =>
      simp only [hraises, hqueue, Option.some.injEq, Prod.mk.injEq] at hexec
      obtain ⟨rfl, rfl⟩ := hexec
      refine ⟨hcore'.set_kernel hk rfl, ?_⟩
      cases item with
      | none => exact htaken none queue
      | some event => exact htaken (some event) queue

theorem outline_consume {event : E} {taken : List (Option E)} :
    (rules status_of initial_session_id).Outline () (Holding s k taken) (consume late event)
      fun answer w => (late = true → answer = none) ∧ Holding s k taken w := by
  unfold consume
  cases late with
  | true => exact .ret fun w _ hw => ⟨fun _ => rfl, hw⟩
  | false =>
    refine outline_step (fun w choice => (choice.consumer, w.wait choice)) (fun _ _ => rfl) ?_
    intro w choice hcore hw hquiet
    exact ⟨hcore.wait hquiet, fun h => absurd h (by simp), hw.wait choice⟩

/-- What a turn has received, at the end of a loop. -/
def received_of (result : List E × Option Raised) : List (Option E) :=
  result.1.map some ++ if result.2.isNone then [none] else []

theorem outline_recv_all (before : List (Option E)) (rounds : ℕ) (events : List E) :
    (rules status_of initial_session_id).Outline () (Holding s k (before ++ events.map some))
      (recv_all k late rounds events) fun result w =>
        (late = true → result.2 = none) ∧ Holding s k (before ++ received_of result) w := by
  induction rounds generalizing events with
  | zero =>
    -- nothing answers
    refine ⟨fun _ _ => True, fun r => ?_, fun w choice r => ?_, fun r => ?_⟩
    all_goals exact nomatch r
  | succ rounds ih =>
    refine .bind outline_recv fun answer => ?_
    cases answer with
    | sentinel =>
      refine .ret fun w _ hw => ⟨fun _ => rfl, ?_⟩
      simpa [received_of] using hw
    | raised failure =>
      refine .ret fun w _ hw => ⟨?_, ?_⟩
      · intro hlate
        exact absurd (hw.1.symm.trans hlate) (by simp)
      · simpa [received_of] using hw.2
    | event event =>
      refine .bind outline_consume fun consumed => ?_
      cases consumed with
      | none =>
        refine (ih (events ++ [event])).mono fun w _ hw => ?_
        simpa using hw.2
      | some raised =>
        refine .ret fun w _ hw => ⟨?_, ?_⟩
        · intro hlate
          exact absurd (hw.1 hlate) (by simp)
        · simpa [received_of] using hw.2

/-! ### The end of a turn -/

/-- A turn is about to be recorded. -/
def Recording (s : World Unit E) (k : ℕ) (entry : List E) (completed : Bool) (w : World Unit E) : Prop :=
  ∃ tail, Holding s k (entry.map some ++ tail) w
    ∧ (completed = true ∨ (w.kernels k).persistent = true → tail.head? = some none)

variable (rounds : ℕ)

theorem outline_drain {events : List E} {raised : Option Raised} :
    (rules status_of initial_session_id).Outline () (Holding s k (received_of (events, raised)))
      (drain k raised.isNone rounds) fun answer => match answer with
        | .ok late => Recording s k (events ++ late) raised.isNone
        | .error _ => fun _ => False := by
  unfold drain
  refine .bind (Q := fun answer w =>
    answer = !(w.kernels k).persistent ∧ Holding s k (received_of (events, raised)) w) ?_ ?_
  · refine outline_step (fun w _ => ((w.kernels k).should_stop_after_message, w)) (fun _ _ => rfl) ?_
    intro w choice hcore hw _
    exact ⟨hcore, rfl, hw⟩
  · intro should_stop
    cases raised with
    | none =>
      refine .ret fun w _ hw => ⟨[none], ?_, fun _ => rfl⟩
      simpa [received_of] using hw.2
    | some raised =>
      cases should_stop with
      | true =>
        refine .ret fun w _ hw => ⟨[], ?_, ?_⟩
        · simpa [received_of] using hw.2
        · intro hpersistent
          have hnot := hw.1
          simp_all
      | false =>
        refine .bind (Q := fun result w => (true = true → result.2 = none)
          ∧ Holding s k (events.map some ++ received_of result) w) ?_ fun result => ?_
        · refine (outline_recv_all (events.map some) rounds []).mono fun w _ hw => ?_
          simpa [received_of] using hw.2
        · obtain ⟨late, failed⟩ := result
          cases failed with
          | none =>
            refine .ret fun w _ hw => ⟨[none], ?_, fun _ => rfl⟩
            simpa [received_of] using hw.2
          | some failed =>
            refine .ret fun w _ hw => ?_
            exact absurd (hw.1 rfl) (by simp)

/-- A turn is recorded, and its kernel is kept or is to be stopped. -/
def AfterRecord (s : World Unit E) (k : ℕ) (yielded : List E) (completed : Bool) :
    Except Failure (Option ℕ) → World Unit E → Prop
  | .error _, _ => False
  | .ok none, w => Closing s ⟨some k, yielded, none, completed⟩ none w
  | .ok (some taken), w => taken = k ∧ Closing s ⟨some k, yielded, none, completed⟩ (some k) w

theorem outline_record {yielded entry : List E} {completed : Bool} (hyielded : yielded <+: entry) :
    (rules status_of initial_session_id).Outline () (Recording s k entry completed)
      (Prog.lift (Call.record k entry)) (AfterRecord s k yielded completed) := by
  refine outline_step (record status_of k entry) (fun _ _ => rfl) fun w choice hcore hw hcareful => ?_
  obtain ⟨tail, hw, htail⟩ := hw
  obtain ⟨hraises, hqueue⟩ := hcareful
  have hlatest := hcore.latest k hw.kernel
  -- the fields of the service after the turn is recorded, but for the kernel it may lose
  let written : World Unit E := { w with
    session_id := (w.kernels k).resume_token.or w.session_id
    history := w.history ++ [entry]
    raw_log_offset := if (w.kernels k).raw_logs = [] then w.raw_log_offset
      else (w.kernels k).raw_logs.length
    log := w.log ++ (w.kernels k).raw_logs.drop w.raw_log_offset
    status := derive_status status_of entry (w.kernels k).status }
  have hnothing : (w.kernels k).raw_logs.drop written.raw_log_offset = [] := by
    show (w.kernels k).raw_logs.drop (if _ then _ else _) = []
    by_cases hempty : (w.kernels k).raw_logs = []
    · rw [hempty, List.drop_nil]
    · rw [if_neg hempty, List.drop_length]
  have hunlogged : unlogged written = [] := by
    unfold unlogged
    show (match w.kernel with
        | none => []
        | some j => (w.kernels j).raw_logs.drop written.raw_log_offset) = []
    rw [hw.kernel]
    exact hnothing
  have hcore' : Core written := by
    refine ⟨hcore.future, hcore.latest, ?_, ?_⟩
    · intro j hj
      obtain rfl : k = j := Option.some.inj (hw.kernel.symm.trans hj)
      by_cases hempty : (w.kernels k).raw_logs = []
      · have hbefore := hcore.offset k hw.kernel
        show (if _ then _ else _) ≤ _
        rw [if_pos hempty]
        exact hbefore
      · show (if _ then _ else _) ≤ _
        rw [if_neg hempty]
    · have hlogged := hcore.logged
      unfold Logged at hlogged ⊢
      rw [hunlogged, List.append_nil]
      unfold unlogged at hlogged
      rw [hw.kernel] at hlogged
      exact hlogged
  have hrecorded : Recorded s ⟨some k, yielded, none, completed⟩ written := by
    refine ⟨hw.started, entry, tail ++ (w.kernels k).queue, ?_, hyielded, ?_, ?_⟩
    · show w.history ++ [entry] = _
      rw [hw.history]
    · show (w.kernels k).received ++ (w.kernels k).queue = _
      rw [hw.received]
      simp only [List.append_assoc]
    · intro hwhole
      rw [List.head?_append, htail hwhole]
      rfl
  show Core (record status_of k entry w choice).2 ∧ _
  unfold record
  simp only [hraises]
  show Core (record.recorded status_of entry (w.kernels k) _).2 ∧ _
  unfold record.recorded
  by_cases hstop : (w.kernels k).should_stop_after_message = true ∨ (w.kernels k).status = .error
  · simp only [hstop, if_true]
    refine ⟨core_take hcore' hunlogged, ?_⟩
    show AfterRecord s k yielded completed (.ok w.kernel) written.take_kernel
    rw [hw.kernel]
    refine ⟨rfl, hw.lock, hrecorded.congr rfl (fun _ => rfl) (fun _ => rfl) (fun _ => rfl), ?_, ?_, ?_⟩
    · intro j hj
      obtain rfl : k = j := Option.some.inj hj
      refine ⟨rfl, ?_⟩
      show k < w.created
      omega
    · intro j hj hne _
      exact hw.stopped j hj hne
    · intro j hj
      cases hj
  · simp only [hstop, if_false]
    obtain ⟨hpersistent, hstatus⟩ := not_or.1 hstop
    have hpersistent' : (w.kernels k).persistent = true := by
      simpa [KernelState.should_stop_after_message] using hpersistent
    refine ⟨hcore', hw.lock, hrecorded, ?_, ?_, ?_⟩
    · intro j hj
      cases hj
    · intro j hj _ hne
      refine hw.stopped j hj ?_
      intro heq
      exact hne (hw.kernel.trans heq)
    · intro j hj
      obtain rfl : k = j := Option.some.inj (hw.kernel.symm.trans hj)
      exact ⟨hpersistent', hstatus, hw.started, hw.kernel_started, hqueue hpersistent' hstatus⟩

theorem outline_finally_block {events : List E} {raised : Option Raised} :
    (rules status_of initial_session_id).Outline () (Holding s k (received_of (events, raised)))
      (finally_block k events raised.isNone rounds) fun answer w =>
        answer = none ∧ Closing s ⟨some k, events, none, raised.isNone⟩ none w := by
  refine .bind (outline_drain rounds) fun answer => ?_
  cases answer with
  | error _ => exact .ret fun _ _ hw => hw.elim
  | ok late =>
    refine .bind (outline_record (List.prefix_append events late)) fun recorded => ?_
    match recorded with
    | .error _ => exact .ret fun _ _ hw => hw.elim
    | .ok none => exact .ret fun _ _ hw => ⟨rfl, hw⟩
    | .ok (some taken) =>
      by_cases htaken : taken = k
      · subst htaken
        refine .bind (outline_await_stop.mono fun w _ hw => hw.2) fun stopped => ?_
        refine .ret fun w _ hw => ⟨?_, hw.2⟩
        rw [hw.1]
        rfl
      · refine .of_false fun w _ hw => htaken hw.1

theorem outline_stream_kernel :
    (rules status_of initial_session_id).Outline () (Holding s k []) (stream_kernel k rounds)
      fun ended w => Closing s ended none w := by
  refine .bind (Q := fun result w => Holding s k (received_of result) w) ?_ fun result => ?_
  · have hloop : (rules status_of initial_session_id).Outline () (Holding s k [])
        (recv_all k false rounds []) _ := outline_recv_all [] rounds []
    refine hloop.weaken fun result w _ hw => ?_
    simpa using hw.2
  · obtain ⟨events, raised⟩ := result
    refine .bind (Q := fun sent w => sent ≠ some .exception
      ∧ Holding s k (received_of (events, raised)) w) ?_ fun sent => ?_
    · refine outline_step (fun w choice => (choice.raises, w.wait choice)) (fun _ _ => rfl) ?_
      intro w choice hcore hw hcareful
      exact ⟨hcore.wait hcareful.1, hcareful.2, hw.wait choice⟩
    · have hfinally : ∀ sent : Option Failure, (rules status_of initial_session_id).Outline ()
          (fun w => sent ≠ some .exception ∧ Holding s k (received_of (events, raised)) w)
          (finally_block k events raised.isNone rounds >>= fun failed =>
            pure ⟨some k, events, failed.or (raised.or (sent.map .failure)), raised.isNone⟩)
          fun ended w => Closing s ended none w := by
        intro sent
        refine .bind ((outline_finally_block rounds).mono fun w _ hw => hw.2) fun failed => ?_
        exact .ret fun w _ hw => hw.2.raised
      match sent with
      | none => exact hfinally none
      | some .cancelled_error => exact hfinally (some .cancelled_error)
      | some .exception => exact .ret fun w _ hw => absurd rfl hw.1

theorem outline_kernel_of_message (hs : Settled s) :
    (rules status_of initial_session_id).Outline () (Locked s) kernel_of_message fun answer =>
      match answer with
        | .error _ => Closing s ⟨none, [], none, false⟩ none
        | .ok none => fun _ => False
        | .ok (some k) => Holding s k [] := by
  refine .bind (outline_kernel_for_message hs) fun answer => ?_
  obtain ⟨k, session_id⟩ := answer
  cases session_id with
  | none => exact .ret fun w _ hw => hw
  | some session_id =>
    refine .bind outline_start fun started => ?_
    match started with
    | .ok none => exact .ret fun w _ hw => absurd hw.1 (by simp)
    | .ok (some j) =>
      refine .ret fun w _ hw => ?_
      obtain rfl : j = k := Option.some.inj hw.1
      exact hw.2
    | .error (failure, none) => exact .ret fun w _ hw => absurd hw.1 (by simp)
    | .error (failure, some taken) =>
      by_cases htaken : taken = k
      · subst htaken
        refine .bind (outline_await_stop.mono fun w _ hw => hw.2) fun stopped => ?_
        exact .ret fun w _ hw => hw.2
      · exact .of_false fun w _ hw => htaken (Option.some.inj hw.1)

theorem outline_stream (hs : Settled s) (rounds : ℕ) :
    (rules status_of initial_session_id).Outline () (Locked s) (stream rounds)
      fun ended w => Closing s ended none w := by
  refine .bind (outline_kernel_of_message hs) fun answer => ?_
  match answer with
  | .error failure => exact .ret fun w _ hw => hw.raised
  | .ok none => exact .ret fun w _ hw => hw.elim
  | .ok (some k) => exact outline_stream_kernel rounds

theorem outline_release {ended : Ended E} :
    (rules status_of initial_session_id).Outline () (Closing s ended none) (Prog.lift Call.release)
      fun _ t => Accounted s ended t ∧ Settled t := by
  refine outline_step (fun w _ => ((), { w with stream_lock := none })) (fun _ _ => rfl) ?_
  intro w choice hcore hw _
  have hcore' : Core { w with stream_lock := none } :=
    hcore.congr rfl rfl rfl rfl (fun _ => rfl) (fun _ _ => rfl)
  refine ⟨hcore', ⟨rfl, ?_, hcore'.logged, ?_⟩, hcore', rfl, ?_, ?_⟩
  · exact hw.recorded.congr rfl (fun _ => rfl) (fun _ => rfl) (fun _ => rfl)
  · intro k hk
    by_cases hkernel : w.kernel = some k
    · exact Or.inr ⟨hkernel, (hw.kept k hkernel).persistent, (hw.kept k hkernel).status⟩
    · exact Or.inl (hw.stopped k hk (by simp) hkernel)
  · intro k hk hne
    exact hw.stopped k hk (by simp) hne
  · intro k hk
    have hkept := hw.kept k hk
    exact ⟨hkept.persistent, hkept.status, hkept.started, hkept.kernel_started, hkept.queue⟩

theorem outline_stream_message (hs : Settled s) (rounds : ℕ) :
    (rules status_of initial_session_id).Outline () (fun w => w = s) (stream_message rounds)
      fun ended t => Accounted s ended t ∧ Settled t := by
  refine .bind (outline_acquire hs) fun _ => ?_
  refine .bind (outline_stream hs rounds) fun ended => ?_
  refine .bind outline_release fun _ => ?_
  exact .ret fun w _ hw => hw

end Steps

/-! ## Runs of turns -/

section Runs

variable {status_of : E → Option KernelStatus} {initial_session_id : Option String}

theorem turn_accounted {s t : World Unit E} {ended : Ended E} (hs : Settled s)
    (h : Turn status_of initial_session_id s ended t) : Accounted s ended t ∧ Settled t := by
  obtain ⟨rounds, moves, hrun⟩ := h
  have houtlined : (rules status_of initial_session_id).Outlined
      (fun _ ended t => Accounted s ended t ∧ Settled t) ⟨s, fun _ => stream_message rounds⟩ :=
    ⟨hs.core, fun () => ⟨fun w => w = s, stable _, rfl, outline_stream_message hs rounds⟩⟩
  exact (houtlined.run hrun).1.finished (i := ()) rfl

/-- **Turns.** In every run of careful turns, each turn is accounted for. -/
theorem turns_accounted {t : World Unit E} {turns : List (Ended E)}
    (hrun : Run (Turn status_of initial_session_id) (World.new initial_session_id) turns t) :
    Run (Guarded (Turn status_of initial_session_id) Accounted) (World.new initial_session_id) turns t :=
  hrun.forall_step (fun _ _ _ hs h => (turn_accounted hs h).2) (fun _ _ _ hs h => (turn_accounted hs h).1)
    (settled_new initial_session_id)

end Runs

/-! ## Two turns -/

instance (choice : Choice E) (w : World Unit E) : Decidable (Quiet choice w) := by
  unfold Quiet
  infer_instance

instance (c : Call Unit) (choice : Choice Unit) (w : World Unit Unit) :
    Decidable (Careful c choice w) :=
  match c with
  | .acquire => decidable_of_iff (Quiet choice w ∧ ∀ k ∈ w.kernel, (choice.activity k).queue = []) Iff.rfl
  | .start _ _ => instDecidableAnd
  | .recv _ _ => instDecidableAnd
  | .yield _ => inferInstanceAs (Decidable (Quiet choice w))
  | .await_send _ => instDecidableAnd
  | .record _ _ => instDecidableAnd
  | .await_stop _ => instDecidableAnd
  | .release => instDecidableTrue
  | .kernel_for_message => instDecidableTrue
  | .should_stop_after_message _ => instDecidableTrue
  | .begin_shutdown _ => instDecidableTrue
  | .finish_shutdown _ _ => instDecidableTrue
  | .hang => instDecidableTrue

/-- The check that a step is careful. -/
def careful_check (s : Threads Unit (Call Unit) (Ended Unit) (World Unit Unit) Call.Answer)
    (move : Move Unit (Choice Unit)) : Bool :=
  match s.rest move.thread with
  | .ret _ => true
  | .call c _ => decide (Careful c move.choice s.state)

/-- A turn that has ended, with a history. -/
def ended_with (ended : Ended Unit) (history : List (List Unit))
    (s : Threads Unit (Call Unit) (Ended Unit) (World Unit Unit) Call.Answer) : Bool :=
  match s.rest () with
  | .ret ended' => decide (ended' = ended ∧ s.state.history = history)
  | .call _ _ => false

theorem of_ended_with {ended : Ended Unit} {history : List (List Unit)}
    {s : Threads Unit (Call Unit) (Ended Unit) (World Unit Unit) Call.Answer}
    (h : ended_with ended history s = true) :
    s = ⟨s.state, fun _ => .ret ended⟩ ∧ s.state.history = history := by
  obtain ⟨w, rest⟩ := s
  unfold ended_with at h
  cases hrest : rest () with
  | call c k => simp [hrest] at h
  | ret ended' =>
    obtain ⟨rfl, hhistory⟩ : ended' = ended ∧ w.history = history := by
      simpa [hrest] using h
    have hfun : rest = fun _ => .ret ended' := funext fun () => hrest
    exact ⟨by rw [hfun], hhistory⟩

/-- Kernels that do nothing. -/
def idles : Choice Unit := ⟨fun _ => ⟨.idle, none, [], []⟩, false, none, 0, none⟩

/-- A kernel that writes a line, and puts an event and the sentinel. -/
def answers : Choice Unit := ⟨fun _ => ⟨.busy, some "token", ["line"], [some (), none]⟩, false, none, 0, none⟩

/-- The steps of a turn that is exhausted. -/
def exhausted_turn : List (Move Unit (Choice Unit)) :=
  [idles, idles, answers, idles, idles, idles, idles, idles, idles, idles, idles].map (Move.mk ())

/-- A turn whose kernel puts one event is accounted for. -/
theorem exhausted_turn_accounted : ∃ t,
    Run (Guarded (Turn (fun _ : Unit => none) none) Accounted) (World.new none)
      [⟨some 0, [()], none, true⟩] t := by
  obtain ⟨t, hrun, hended⟩ := exists_run_of_play (exec (fun _ : Unit => none) none) careful_check
    (P := CarefulStep)
    (by
      intro s move t hcheck _ c k hcall
      unfold careful_check at hcheck
      rw [hcall] at hcheck
      exact of_decide_eq_true hcheck)
    ⟨World.new none, fun _ => stream_message 2⟩ exhausted_turn
    (ended_with ⟨some 0, [()], none, true⟩ [[()]]) (by decide)
  rw [(of_ended_with hended).1] at hrun
  exact ⟨t.state, turns_accounted (.single ⟨2, exhausted_turn, hrun⟩)⟩

/-- The consumer closes the turn at its first event. -/
def closes : Choice Unit := { idles with consumer := some .generator_exit }

/-- The kernel's `send` raises an exception. -/
def raises_exception : Choice Unit := { idles with raises := some .exception }

/-- The steps of a turn that is closed, and whose kernel's `send` has raised an exception. -/
def failed_turn : List (Move Unit (Choice Unit)) :=
  [idles, idles, answers, idles, closes, raises_exception, idles].map (Move.mk ())

/-- A turn whose kernel's `send` has raised an exception is not recorded. -/
theorem failed_send_is_unrecorded : ∃ t,
    Run (Advance (exec (fun _ : Unit => none) none)) ⟨World.new none, fun _ => stream_message 2⟩
        failed_turn ⟨t, fun _ => .ret ⟨some 0, [()], some (.failure .exception), false⟩⟩
      ∧ ¬Accounted (World.new none) ⟨some 0, [()], some (.failure .exception), false⟩ t := by
  obtain ⟨t, hrun, hended⟩ := exists_run_of_play (exec (fun _ : Unit => none) none) (fun _ _ => true)
    (P := fun _ _ _ => True) (fun _ _ _ _ _ => trivial) ⟨World.new none, fun _ => stream_message 2⟩
    failed_turn (ended_with ⟨some 0, [()], some (.failure .exception), false⟩ []) (by decide)
  obtain ⟨hrest, hhistory⟩ := of_ended_with hended
  rw [hrest] at hrun
  refine ⟨t.state, Run.of_guarded hrun, fun haccounted => ?_⟩
  obtain ⟨-, entry, -, hentry, -⟩ := haccounted.recorded
  rw [hhistory] at hentry
  cases hentry

end AgentSpace.KernelHost
