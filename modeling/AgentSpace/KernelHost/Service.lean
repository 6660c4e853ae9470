/-
The session service of a kernel host: `KernelSessionService`.

The service keeps one kernel, its history and its log. A turn of `stream_message` takes the stream
lock; `reset` and `stop` take none. What the service does between two points at which it may wait
is one step. What a kernel does by itself, what fails, and when the consumer of a turn closes it,
is chosen by the environment; a kernel acts only where the service waits.
-/
import AgentSpace.Kernels.Events
import AgentSpace.Lib.Threads

set_option autoImplicit false

namespace AgentSpace.KernelHost

open Lib
open Kernels (KernelStatus)

/-! ## Kernels -/

/-- How an awaited call fails. -/
inductive Failure where
  | cancelled_error
  | exception
  deriving DecidableEq

/-- What ends an iterator before its end: a failure, or its consumer closes it at an event. -/
inductive Raised where
  | failure (failure : Failure)
  | generator_exit
  deriving DecidableEq

/-- A kernel. What `recv` has taken from its queue is kept. -/
structure KernelState (E : Type) where
  /-- `supports_persistent_process`. -/
  persistent : Bool
  status : KernelStatus
  resume_token : Option String
  raw_logs : List String
  received : List (Option E)
  queue : List (Option E)
  /-- `start` has returned. -/
  started : Bool
  /-- The process may be running: `start` was called, and `stop` has not returned since. -/
  running : Bool

/-- What a kernel does while the service waits. -/
structure Activity (E : Type) where
  status : KernelStatus
  resume_token : Option String
  raw_logs : List String
  queue : List (Option E)

namespace KernelState

variable {E : Type}

/-- `get_kernel`. -/
def new (persistent : Bool) : KernelState E := ⟨persistent, .idle, none, [], [], [], false, false⟩

def act (kernel : KernelState E) (activity : Activity E) : KernelState E :=
  { kernel with
    status := activity.status
    resume_token := activity.resume_token
    raw_logs := kernel.raw_logs ++ activity.raw_logs
    queue := kernel.queue ++ activity.queue }

/-- All that the kernel has put in its queue. -/
def items (kernel : KernelState E) : List (Option E) := kernel.received ++ kernel.queue

/-- `_should_stop_after_message`. -/
def should_stop_after_message (kernel : KernelState E) : Bool := !kernel.persistent

end KernelState

/-! ## The service -/

/-- The kernels that were created, and the fields of the service; `kernel` is the number of
`self._kernel`. -/
structure World (ι E : Type) where
  kernels : ℕ → KernelState E
  created : ℕ
  stream_lock : Option ι
  session_id : Option String
  history : List (List E)
  log : List String
  status : KernelStatus
  kernel : Option ℕ
  kernel_started : Bool
  raw_log_offset : ℕ

/-- What the steps do not decide. -/
structure Choice (E : Type) where
  activity : ℕ → Activity E
  /-- Of a kernel that is created. -/
  persistent : Bool
  /-- What the awaited call raises, or the log file. -/
  raises : Option Failure
  /-- How many lines a write that fails has written. -/
  written : ℕ
  /-- What the consumer does at an event. -/
  consumer : Option Raised

namespace World

variable {ι E : Type}

/-- `KernelSessionService.__init__`. -/
def new (session_id : Option String) : World ι E where
  kernels := fun _ => KernelState.new false
  created := 0
  stream_lock := none
  session_id := session_id
  history := []
  log := []
  status := .idle
  kernel := none
  kernel_started := false
  raw_log_offset := 0

/-- The service waits, and kernels act. -/
def wait (w : World ι E) (choice : Choice E) : World ι E :=
  { w with kernels := fun k =>
      if k < w.created then (w.kernels k).act (choice.activity k) else w.kernels k }

def set_kernel (w : World ι E) (k : ℕ) (kernel : KernelState E) : World ι E :=
  { w with kernels := Function.update w.kernels k kernel }

/-- `_stop_kernel`, up to the kernel's `stop`: the kernel is taken from the service. -/
def take_kernel (w : World ι E) : World ι E :=
  { w with kernel := none, kernel_started := false, raw_log_offset := 0 }

/-- `kernel.start` is called. -/
def call_start (w : World ι E) (k : ℕ) : World ι E :=
  w.set_kernel k { w.kernels k with running := true }

/-- `_kernel_for_message`, the creation of a kernel. -/
def create_kernel (w : World ι E) (persistent : Bool) : World ι E :=
  { w with
    kernels := Function.update w.kernels w.created (.new persistent)
    created := w.created + 1
    kernel := some w.created
    kernel_started := false
    raw_log_offset := 0 }

end World

/-- `_derive_status`; `status_of` is the status of an event of type `SESSION_STATUS`. -/
def derive_status {E : Type} (status_of : E → Option KernelStatus) (events : List E)
    (fallback_status : KernelStatus) : KernelStatus :=
  (events.reverse.findSome? status_of).getD fallback_status

/-! ## Steps -/

/-- The two calls that end what the service has. -/
inductive Shutdown where
  | reset
  | stop
  deriving DecidableEq

/-- A step of a turn, of a reset or of a stop. -/
inductive Call (E : Type) where
  | acquire
  | release
  /-- `_kernel_for_message`, up to the kernel's `start`. -/
  | kernel_for_message
  /-- `await kernel.start(config)`, and what follows it. -/
  | start (kernel : ℕ) (session_id : Option String)
  /-- The next event of `kernel.recv()`; it is late in the `finally` block. -/
  | recv (kernel : ℕ) (late : Bool)
  /-- `yield event`. -/
  | yield (event : E)
  /-- `await send_task`. -/
  | await_send (kernel : ℕ)
  | should_stop_after_message (kernel : ℕ)
  /-- The `finally` block, from `kernel.resume_token` on, up to the kernel's `stop`. -/
  | record (kernel : ℕ) (events : List E)
  /-- `await kernel.stop()`. -/
  | await_stop (kernel : ℕ)
  /-- `reset` or `stop`, up to the kernel's `stop`. -/
  | begin_shutdown (shutdown : Shutdown)
  /-- `await kernel.stop()`, and what follows it. -/
  | finish_shutdown (shutdown : Shutdown) (kernel : ℕ)
  /-- Nothing follows. -/
  | hang

/-- What `recv` comes to. -/
inductive Received (E : Type) where
  | event (event : E)
  | sentinel
  | raised (failure : Failure)

/-- What a step answers. -/
abbrev Call.Answer {E : Type} : Call E → Type
  | kernel_for_message => ℕ × Option (Option String)
  | start _ _ => Except (Failure × Option ℕ) (Option ℕ)
  | recv _ _ => Received E
  | yield _ => Option Raised
  | await_send _ => Option Failure
  | should_stop_after_message _ => Bool
  | record _ _ => Except Failure (Option ℕ)
  | await_stop _ => Option Failure
  | begin_shutdown _ => Option ℕ
  | finish_shutdown _ _ => Option Failure
  | hang => Empty
  | acquire => Unit
  | release => Unit

section Steps

variable {ι E : Type}

/-- `_kernel_for_message`, up to the kernel's `start`: the kernel, and the session id it is to be
started with if it is not started. -/
def kernel_for_message (w : World ι E) (choice : Choice E) : (ℕ × Option (Option String)) × World ι E :=
  match w.kernel with
  | none => ((w.created, some w.session_id), (w.create_kernel choice.persistent).call_start w.created)
  | some k =>
    if w.kernel_started then ((k, none), w)
    else ((k, some w.session_id), w.call_start k)

/-- `await self._kernel.start(config)`, and what follows it. A kernel that is not started is taken
from the service, to be stopped. -/
def start (k : ℕ) (w : World ι E) (choice : Choice E) :
    Except (Failure × Option ℕ) (Option ℕ) × World ι E :=
  let w := w.wait choice
  match choice.raises with
  | some failure => (.error (failure, w.kernel), (w.call_start k).take_kernel)
  | none =>
    (.ok w.kernel, { w.set_kernel k { w.kernels k with started := true, running := true } with
      kernel_started := true })

/-- `await self._queue.get()`, if there is something in the queue. -/
def recv (k : ℕ) (w : World ι E) (choice : Choice E) : Option (Received E × World ι E) :=
  let w := w.wait choice
  match choice.raises, (w.kernels k).queue with
  | some failure, _ => some (.raised failure, w)
  | none, [] => none
  | none, item :: queue =>
    some (match item with
      | some event => .event event
      | none => .sentinel,
      w.set_kernel k
        { w.kernels k with received := (w.kernels k).received ++ [item], queue := queue })

/-- `await kernel.stop()`. -/
def await_stop (k : ℕ) (w : World ι E) (choice : Choice E) : Option Failure × World ι E :=
  let w := w.wait choice
  match choice.raises with
  | some failure => (some failure, w)
  | none => (none, w.set_kernel k { w.kernels k with running := false })

variable (status_of : E → Option KernelStatus)

/-- The `finally` block of a turn, from `kernel.resume_token` on, up to the kernel's `stop`. -/
def record (k : ℕ) (events : List E) (w : World ι E) (choice : Choice E) :
    Except Failure (Option ℕ) × World ι E :=
  let kernel := w.kernels k
  let new_logs := kernel.raw_logs.drop w.raw_log_offset
  let w := { w with
    session_id := kernel.resume_token.or w.session_id
    history := w.history ++ [events]
    raw_log_offset := if kernel.raw_logs = [] then w.raw_log_offset else kernel.raw_logs.length }
  match choice.raises with
  | some failure =>
    if new_logs = [] then recorded kernel w
    else (.error failure, { w with log := w.log ++ new_logs.take choice.written })
  | none => recorded kernel { w with log := w.log ++ new_logs }
where
  /-- What follows `_append_raw_logs`. -/
  recorded (kernel : KernelState E) (w : World ι E) : Except Failure (Option ℕ) × World ι E :=
    let w := { w with status := derive_status status_of events kernel.status }
    if kernel.should_stop_after_message ∨ kernel.status = .error then (.ok w.kernel, w.take_kernel)
    else (.ok none, w)

variable (initial_session_id : Option String)

/-- What `reset` and `stop` do once the kernel is stopped. -/
def shut_down (w : World ι E) : Shutdown → World ι E
  | .reset => { w with session_id := initial_session_id, history := [], log := [], status := .idle }
  | .stop => { w with status := .done }

/-- `reset` or `stop`, up to the kernel's `stop`. -/
def begin_shutdown (shutdown : Shutdown) (w : World ι E) : Option ℕ × World ι E :=
  match w.kernel with
  | none => (none, shut_down initial_session_id w.take_kernel shutdown)
  | some k => (some k, w.take_kernel)

/-- `await kernel.stop()` of a `reset` or of a `stop`, and what follows it. -/
def finish_shutdown (shutdown : Shutdown) (k : ℕ) (w : World ι E) (choice : Choice E) :
    Option Failure × World ι E :=
  match await_stop k w choice with
  | (some failure, w) => (some failure, w)
  | (none, w) => (none, shut_down initial_session_id w shutdown)

/-- A step. The lock cannot be taken while it is held. -/
def exec : Exec ι (Call E) (Choice E) (World ι E) Call.Answer := fun i c choice w =>
  match c with
  | .acquire => if w.stream_lock = none then some ((), { w.wait choice with stream_lock := some i })
      else none
  | .release => some ((), { w with stream_lock := none })
  | .kernel_for_message => some (kernel_for_message w choice)
  | .start k _ => some (start k w choice)
  | .recv k _ => recv k w choice
  | .yield _ => some (choice.consumer, w.wait choice)
  | .await_send _ => some (choice.raises, w.wait choice)
  | .should_stop_after_message k => some ((w.kernels k).should_stop_after_message, w)
  | .record k events => some (record status_of k events w choice)
  | .await_stop k => some (await_stop k w choice)
  | .begin_shutdown shutdown => some (begin_shutdown initial_session_id shutdown w)
  | .finish_shutdown shutdown k => some (finish_shutdown initial_session_id shutdown k w choice)
  | .hang => none

end Steps

/-! ## What a wait leaves -/

section Waits

variable {ι E : Type}

variable (w : World ι E)

@[simp] theorem wait_received (choice : Choice E) (k : ℕ) :
    ((w.wait choice).kernels k).received = (w.kernels k).received := by
  unfold World.wait
  by_cases hk : k < w.created <;> simp [hk, KernelState.act]

@[simp] theorem wait_running (choice : Choice E) (k : ℕ) :
    ((w.wait choice).kernels k).running = (w.kernels k).running := by
  unfold World.wait
  by_cases hk : k < w.created <;> simp [hk, KernelState.act]

@[simp] theorem wait_started (choice : Choice E) (k : ℕ) :
    ((w.wait choice).kernels k).started = (w.kernels k).started := by
  unfold World.wait
  by_cases hk : k < w.created <;> simp [hk, KernelState.act]

@[simp] theorem wait_persistent (choice : Choice E) (k : ℕ) :
    ((w.wait choice).kernels k).persistent = (w.kernels k).persistent := by
  unfold World.wait
  by_cases hk : k < w.created <;> simp [hk, KernelState.act]

/-- Every kernel but one is stopped. -/
def StoppedBut (kernel : Option ℕ) (w : World ι E) : Prop :=
  ∀ k, k < w.created → kernel ≠ some k → (w.kernels k).running = false

theorem StoppedBut.wait {kernel : Option ℕ} {w : World ι E} (h : StoppedBut kernel w)
    (choice : Choice E) : StoppedBut kernel (w.wait choice) := by
  intro k hk hne
  rw [wait_running]
  exact h k hk hne

end Waits

/-! ## Turns -/

section Turns

variable {E : Type}

/-- How a turn has ended: the kernel it had, if one was started, what it has yielded, what is
raised, and whether the kernel's events were exhausted. -/
structure Ended (E : Type) where
  kernel : Option ℕ
  yielded : List E
  raised : Option Raised
  stream_completed : Bool
  deriving DecidableEq

/-- A part of a turn. -/
abbrev Service (E : Type) := Prog (Call E) Call.Answer

/-- `yield event`, if the event is not late. -/
def consume (late : Bool) (event : E) : Service E (Option Raised) :=
  if late then pure none else Prog.lift (Call.yield event)

/-- `async for event in kernel.recv()`, for a number of rounds that the kernel does not exceed: the
events, and what is raised. -/
def recv_all (kernel : ℕ) (late : Bool) : ℕ → List E → Service E (List E × Option Raised)
  | 0, _ => .call .hang fun answer => nomatch answer
  | rounds + 1, events => do
    match ← Prog.lift (Call.recv kernel late) with
    | .sentinel => pure (events, none)
    | .raised failure => pure (events, some (.failure failure))
    | .event event =>
      match ← consume late event with
      | none => recv_all kernel late rounds (events ++ [event])
      | some raised => pure (events ++ [event], some raised)

/-- `_kernel_for_message`. -/
def kernel_of_message : Service E (Except Failure (Option ℕ)) := do
  match ← Prog.lift Call.kernel_for_message with
  | (kernel, none) => pure (.ok (some kernel))
  | (kernel, some session_id) =>
    match ← Prog.lift (Call.start kernel session_id) with
    | .ok kernel => pure (.ok kernel)
    | .error (failure, none) => pure (.error failure)
    | .error (failure, some taken) =>
      -- an exception of `stop` takes the place of the exception of `start`
      let stopped ← Prog.lift (Call.await_stop taken)
      pure (.error (stopped.getD failure))

/-- The events that the `finally` block takes from a kernel that is kept. -/
def drain (kernel : ℕ) (stream_completed : Bool) (rounds : ℕ) : Service E (Except Raised (List E)) := do
  let should_stop ← Prog.lift (Call.should_stop_after_message kernel)
  if stream_completed || should_stop then pure (.ok [])
  else
    match ← recv_all kernel true rounds [] with
    | (late, none) => pure (.ok late)
    | (_, some raised) => pure (.error raised)

/-- The `finally` block behind `await send_task`: what it raises, if it does. -/
def finally_block (kernel : ℕ) (events : List E) (stream_completed : Bool) (rounds : ℕ) :
    Service E (Option Raised) := do
  match ← drain kernel stream_completed rounds with
  | .error raised => pure (some raised)
  | .ok late =>
    match ← Prog.lift (Call.record kernel (events ++ late)) with
    | .error failure => pure (some (.failure failure))
    | .ok none => pure none
    | .ok (some taken) => do
      let stopped ← Prog.lift (Call.await_stop taken)
      pure (stopped.map .failure)

/-- A turn that has its kernel. What `await send_task` raises at the end of the stream is raised
again by the one of the `finally` block, which suppresses a cancellation only. -/
def stream_kernel (kernel rounds : ℕ) : Service E (Ended E) := do
  let (events, raised) ← recv_all kernel false rounds []
  match ← Prog.lift (Call.await_send kernel) with
  | some .exception => pure ⟨some kernel, events, some (.failure .exception), raised.isNone⟩
  | sent =>
    let failed ← finally_block kernel events raised.isNone rounds
    pure ⟨some kernel, events, failed.or (raised.or (sent.map .failure)), raised.isNone⟩

/-- `stream_message`, under the lock. -/
def stream (rounds : ℕ) : Service E (Ended E) := do
  match ← kernel_of_message with
  | .error failure => pure ⟨none, [], some (.failure failure), false⟩
  -- the service has no kernel any more, and `kernel.name` raises
  | .ok none => pure ⟨none, [], some (.failure .exception), false⟩
  | .ok (some kernel) => stream_kernel kernel rounds

/-- `stream_message`. -/
def stream_message (rounds : ℕ) : Service E (Ended E) := do
  Prog.lift Call.acquire
  let ended ← stream rounds
  Prog.lift Call.release
  pure ended

/-- `reset` or `stop`: what it raises, if it does. -/
def shutdown_service (shutdown : Shutdown) : Service E (Option Failure) := do
  match ← Prog.lift (Call.begin_shutdown shutdown) with
  | none => pure none
  | some kernel => Prog.lift (Call.finish_shutdown shutdown kernel)

end Turns

end AgentSpace.KernelHost
