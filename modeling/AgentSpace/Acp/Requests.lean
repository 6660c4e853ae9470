/-
The requests of the ACP kernel to its server.

`_request` enters a future under a fresh number and waits for it. The reader completes the
future whose number a response bears, and `_stop_process` fails all that wait; the end of
the reader fails none. And `True` is an `int` to Python, equal to `1`: a response with the
id `true` completes request 1.
-/
import AgentSpace.Lib.Transition
import AgentSpace.Telemetry.Python

set_option autoImplicit false

namespace AgentSpace.Acp

open Lib
open Telemetry (Str str)
open Telemetry.Otel (Value get contains mapping_or_empty)

variable {F : Type}

/-! ## The kernel -/

/-- What completes a future. -/
inductive Completion (F : Type) where
  /-- `_handle_response`, of a line with this id. -/
  | response (id : Value F) (outcome : Except Str (Value F))
  /-- `RuntimeError("ACP server stopped")`. -/
  | stopped

/-- An `asyncio.Future`: what it was completed with, in order. -/
structure Future (F : Type) where
  completions : List (Completion F)

/-- `future.done()`. -/
def Future.done (future : Future F) : Bool := !future.completions.isEmpty

/-- `loop.create_future()`. -/
def create_future : Future F := ⟨[]⟩

/-- What of an `AcpKernel` its requests depend on, once the server has been spawned. -/
structure Kernel (F : Type) where
  next_request_id : ℕ
  /-- `_pending`: the number of a request, and its future. -/
  pending : List (ℕ × ℕ)
  /-- Every future that was made. -/
  futures : List (Future F)
  /-- `_read_stdout` has not ended. -/
  reading : Bool
  /-- `_process.returncode is not None`. -/
  exited : Bool

/-- The kernel when the server has just been spawned. -/
def Kernel.spawned : Kernel F := ⟨0, [], [], true, false⟩

/-- The future of this index. -/
def Kernel.future (kernel : Kernel F) (i : ℕ) : Future F := kernel.futures.getD i create_future

/-- `future.set_result` and `future.set_exception`. -/
def Kernel.complete (kernel : Kernel F) (i : ℕ) (completion : Completion F) : Kernel F :=
  { kernel with
    futures := kernel.futures.modify i fun future => ⟨future.completions ++ [completion]⟩ }

/-! ## The operations -/

/-- `_request`, up to `await future`: whatever becomes of the write in between, the future
stays in the table. -/
def request (kernel : Kernel F) : Kernel F :=
  let request_id := kernel.next_request_id
  { kernel with
    next_request_id := request_id + 1
    futures := kernel.futures ++ [create_future]
    pending := (kernel.pending.filter fun entry => entry.1 ≠ request_id)
      ++ [(request_id, kernel.futures.length)] }

/-- `isinstance(value, int)`, and the key that the value is in a `dict[int, ...]`. -/
def int_key : Value F → Option ℤ
  | .int n => some n
  | .bool b => some (if b then 1 else 0)
  | _ => none

/-- What a response says: its result, or the text of the exception. `dumps` is
`json.dumps`. -/
def outcome (dumps : List (Str × Value F) → Str) (obj : List (Str × Value F)) : Except Str (Value F) :=
  let error_obj := mapping_or_empty (get obj "error")
  if error_obj.isEmpty then
    .ok (get obj "result")
  else
    let detail := match get error_obj "message" with
      | .string message => message
      | _ => dumps error_obj
    .error (str "ACP request failed: " ++ detail)

/-- `_handle_response`. -/
def handle_response (dumps : List (Str × Value F) → Str) (obj : List (Str × Value F))
    (kernel : Kernel F) : Kernel F :=
  match int_key (get obj "id") with
  | none => kernel
  | some request_id =>
    match kernel.pending.find? fun entry => (entry.1 : ℤ) = request_id with
    | none => kernel
    | some (_, future) =>
      let kernel := { kernel with
        pending := kernel.pending.filter fun entry => (entry.1 : ℤ) ≠ request_id }
      if (kernel.future future).done then kernel
      else kernel.complete future (.response (get obj "id") (outcome dumps obj))

/-- `"result" in obj or "error" in obj`. -/
def is_response (obj : List (Str × Value F)) : Bool :=
  contains obj "result" || contains obj "error"

/-- `_handle_message`: no other message touches the table. -/
def handle_message (dumps : List (Str × Value F) → Str) (obj : List (Str × Value F))
    (kernel : Kernel F) : Kernel F :=
  if is_response obj then handle_response dumps obj kernel else kernel

/-- The loop of `_stop_process` over the futures that wait. -/
def fail_all (entries : List (ℕ × ℕ)) (kernel : Kernel F) : Kernel F :=
  entries.foldl
    (fun kernel entry =>
      if (kernel.future entry.2).done then kernel else kernel.complete entry.2 .stopped)
    kernel

/-- `_stop_process`, up to the first `await`. -/
def stop_process (kernel : Kernel F) : Kernel F :=
  { fail_all kernel.pending kernel with pending := [] }

/-! ## Runs -/

/-- What can happen to a kernel. -/
inductive Event (F : Type) where
  /-- `send`. -/
  | send
  /-- A request of `_initialize` or `_setup_session`. -/
  | setup
  /-- The reader takes a line that holds an object. -/
  | message (obj : List (Str × Value F))
  /-- The reader ends: the output is closed, or an exception ended it. -/
  | reader_ends
  /-- The process is found to have exited. -/
  | exits
  /-- `stop`, or a turn that ends with an error. -/
  | stop

/-- One event; `none` where it cannot happen. -/
def step (dumps : List (Str × Value F) → Str) (kernel : Kernel F) : Event F → Option (Kernel F)
  | .send => some (if kernel.exited then stop_process kernel else request kernel)
  | .setup => some (request kernel)
  | .message obj => if kernel.reading then some (handle_message dumps obj kernel) else none
  | .reader_ends => if kernel.reading then some { kernel with reading := false } else none
  | .exits => if kernel.exited then none else some { kernel with exited := true }
  | .stop => some (stop_process kernel)

/-- The step relation. -/
def Steps (dumps : List (Str × Value F) → Str) (kernel : Kernel F) (event : Event F)
    (kernel' : Kernel F) : Prop :=
  step dumps kernel event = some kernel'

/-! ## What is kept -/

/-- The request with this number waits. -/
def Waits (kernel : Kernel F) (i : ℕ) : Prop :=
  i < kernel.futures.length ∧ (kernel.future i).done = false

/-- Each request is completed at most once, by the response with its own number or by
shutdown, and none waits for a reader that has ended. -/
structure Settled (kernel : Kernel F) : Prop where
  once : ∀ i, (kernel.future i).completions.length ≤ 1
  own : ∀ i, ∀ completion ∈ (kernel.future i).completions,
    completion = .stopped ∨ ∃ outcome, completion = .response (.int i) outcome
  answered : kernel.reading = false → ∀ i, ¬Waits kernel i

/-- A response whose id is a boolean that stands for the number of a request that waits. -/
def Mistaken (kernel : Kernel F) (obj : List (Str × Value F)) : Prop :=
  is_response obj ∧ ∃ b, get obj "id" = .bool b ∧ Waits kernel (if b then 1 else 0)

/-- The condition on an event: the reader ends only while no request waits, no request is
made once it has ended, and no response with a boolean id is taken for another's. -/
def Careful (kernel : Kernel F) (event : Event F) (_ : Kernel F) : Prop :=
  match event with
  | .send => kernel.exited = true ∨ kernel.reading = true
  | .setup => kernel.reading = true
  | .message obj => ¬Mistaken kernel obj
  | .reader_ends => ∀ i, ¬Waits kernel i
  | .exits => True
  | .stop => True

/-- The table holds the requests that wait, each under its own number. -/
structure Tabled (kernel : Kernel F) : Prop where
  ids : kernel.next_request_id = kernel.futures.length
  entries : ∀ request_id future, (request_id, future) ∈ kernel.pending ↔
    future = request_id ∧ Waits kernel request_id

/-! ## Futures -/

theorem done_iff {future : Future F} : future.done = false ↔ future.completions = [] := by
  unfold Future.done
  cases future.completions <;> simp

variable {kernel : Kernel F} {i : ℕ}

theorem future_of_waits (h : Waits kernel i) : kernel.future i = create_future := by
  have hnone : (kernel.future i).completions = [] := done_iff.1 h.2
  unfold create_future
  rw [← hnone]

theorem future_complete (kernel : Kernel F) (completion : Completion F) (j : ℕ)
    (hi : i < kernel.futures.length) : (kernel.complete i completion).future j
      = if j = i then ⟨(kernel.future i).completions ++ [completion]⟩ else kernel.future j := by
  unfold Kernel.future Kernel.complete
  simp only [List.getD_eq_getElem?_getD, List.getElem?_modify]
  by_cases hj : j = i
  · subst hj
    simp [hi]
  · have hne : i ≠ j := fun h => hj h.symm
    simp [hj, hne]

theorem length_complete (kernel : Kernel F) (i : ℕ) (completion : Completion F) :
    (kernel.complete i completion).futures.length = kernel.futures.length :=
  List.length_modify ..

theorem future_request (kernel : Kernel F) (i : ℕ) : (request kernel).future i = kernel.future i := by
  unfold Kernel.future request
  simp only [List.getD_eq_getElem?_getD]
  by_cases hlt : i < kernel.futures.length
  · rw [List.getElem?_append_left hlt]
  · -- past the end both are a future that nothing has completed
    have hnone : kernel.futures[i]? = none := List.getElem?_eq_none (by omega)
    rw [List.getElem?_append_right (by omega), hnone]
    by_cases hlast : i - kernel.futures.length = 0
    · simp [hlast]
    · rw [List.getElem?_eq_none (by simp; omega)]

theorem length_request (kernel : Kernel F) :
    (request kernel).futures.length = kernel.futures.length + 1 := by
  simp [request]

theorem waits_request_iff : Waits (request kernel) i ↔ Waits kernel i ∨ i = kernel.futures.length := by
  unfold Waits
  rw [future_request, length_request]
  constructor
  · rintro ⟨hlt, hdone⟩
    by_cases hi : i < kernel.futures.length
    · exact Or.inl ⟨hi, hdone⟩
    · exact Or.inr (by omega)
  · rintro (⟨hlt, hdone⟩ | rfl)
    · exact ⟨by omega, hdone⟩
    · refine ⟨by omega, ?_⟩
      unfold Kernel.future
      simp [create_future, Future.done]

/-! ## The loop of shutdown -/

theorem fail_all_cons (entry : ℕ × ℕ) (entries : List (ℕ × ℕ)) (kernel : Kernel F) :
    fail_all (entry :: entries) kernel
      = fail_all entries (if (kernel.future entry.2).done then kernel
          else kernel.complete entry.2 .stopped) := rfl

theorem fail_all_frame (entries : List (ℕ × ℕ)) (kernel : Kernel F) :
    (fail_all entries kernel).futures.length = kernel.futures.length
      ∧ (fail_all entries kernel).next_request_id = kernel.next_request_id
      ∧ (fail_all entries kernel).reading = kernel.reading
      ∧ (fail_all entries kernel).exited = kernel.exited := by
  induction entries generalizing kernel with
  | nil => exact ⟨rfl, rfl, rfl, rfl⟩
  | cons entry entries ih =>
    rw [fail_all_cons]
    by_cases hdone : (kernel.future entry.2).done = true
    · rw [if_pos hdone]
      exact ih kernel
    · rw [if_neg hdone]
      obtain ⟨hlength, hid, hreading, hexited⟩ := ih (kernel.complete entry.2 .stopped)
      exact ⟨hlength.trans (length_complete ..), hid, hreading, hexited⟩

/-- The loop fails the futures of its entries that wait, and leaves all others. -/
theorem future_fail_all (entries : List (ℕ × ℕ)) (kernel : Kernel F)
    (hentries : ∀ entry ∈ entries, entry.2 < kernel.futures.length) (i : ℕ) :
    (fail_all entries kernel).future i
      = if i ∈ entries.map Prod.snd ∧ (kernel.future i).done = false then ⟨[.stopped]⟩
        else kernel.future i := by
  induction entries generalizing kernel with
  | nil => simp [fail_all]
  | cons entry entries ih =>
    have hentry : entry.2 < kernel.futures.length := hentries entry List.mem_cons_self
    have hrest : ∀ e ∈ entries, e.2 < kernel.futures.length := fun e he =>
      hentries e (List.mem_cons_of_mem _ he)
    rw [fail_all_cons]
    by_cases hdone : (kernel.future entry.2).done = true
    · rw [if_pos hdone, ih kernel hrest]
      by_cases hi : i = entry.2
      · subst hi
        simp [hdone]
      · simp only [List.map_cons, List.mem_cons, hi, false_or]
    · rw [if_neg hdone, ih _ (by simpa only [length_complete] using hrest),
        future_complete _ _ _ hentry]
      have hempty : (kernel.future entry.2).completions = [] := done_iff.1 (by simpa using hdone)
      by_cases hi : i = entry.2
      · -- now that it is done, the rest of the loop leaves it
        subst hi
        simp [hempty, Future.done]
      · simp only [hi, if_false, List.map_cons, List.mem_cons, false_or]

/-! ## The table -/

variable (dumps : List (Str × Value F) → Str)

/-- **Responses.** A response completes the request whose number Python takes its id for, if
that request waits, and takes it out of the table; any other leaves the kernel as it is. -/
theorem handle_response_cases (obj : List (Str × Value F))
    (htable : Tabled kernel) : (∃ i : ℕ, int_key (get obj "id") = some (i : ℤ) ∧ Waits kernel i
      ∧ handle_response dumps obj kernel
        = { kernel.complete i (.response (get obj "id") (outcome dumps obj)) with
            pending := kernel.pending.filter fun entry => entry.1 ≠ i })
    ∨ (∀ i : ℕ, int_key (get obj "id") = some (i : ℤ) → ¬Waits kernel i)
      ∧ handle_response dumps obj kernel = kernel := by
  unfold handle_response
  cases hkey : int_key (get obj "id") with
  | none => exact Or.inr ⟨by simp, rfl⟩
  | some request_id =>
    cases hfind : kernel.pending.find? fun entry => (entry.1 : ℤ) = request_id with
    | none =>
      refine Or.inr ⟨?_, by simp only [hfind]⟩
      intro i hi hwaits
      have hmem : (i, i) ∈ kernel.pending := (htable.entries i i).2 ⟨rfl, hwaits⟩
      have hne := List.find?_eq_none.1 hfind (i, i) hmem
      obtain rfl : request_id = i := Option.some.inj hi
      simp at hne
    | some entry =>
      obtain ⟨i, future⟩ := entry
      have hnumber : (i : ℤ) = request_id := by simpa using List.find?_some hfind
      obtain ⟨rfl, hwaits⟩ := (htable.entries i future).1 (List.mem_of_find?_eq_some hfind)
      refine Or.inl ⟨future, by rw [hnumber], hwaits, ?_⟩
      subst hnumber
      have hdone : (Kernel.future { kernel with
          pending := kernel.pending.filter fun entry => (entry.1 : ℤ) ≠ (future : ℤ) }
          future).done = false := hwaits.2
      simp only [hfind, hdone, Bool.false_eq_true, if_false]
      unfold Kernel.complete
      simp only [ne_eq, Nat.cast_inj]

theorem tabled_request (h : Tabled kernel) : Tabled (request kernel) := by
  refine ⟨?_, ?_⟩
  · rw [length_request, ← h.ids]
    rfl
  · intro request_id future
    rw [waits_request_iff]
    have hfresh : ∀ entry ∈ kernel.pending, entry.1 ≠ kernel.next_request_id := by
      rintro ⟨i, j⟩ hentry
      have hlt := ((h.entries i j).1 hentry).2.1
      have hids := h.ids
      show i ≠ _
      omega
    have hpending : (request kernel).pending
        = kernel.pending ++ [(kernel.next_request_id, kernel.futures.length)] := by
      unfold request
      simp only [List.append_cancel_right_eq]
      exact List.filter_eq_self.2 fun entry hentry => by simpa using hfresh entry hentry
    rw [hpending, List.mem_append, h.entries, List.mem_singleton, Prod.mk.injEq, h.ids]
    constructor
    · rintro (⟨rfl, hwaits⟩ | ⟨rfl, rfl⟩)
      · exact ⟨rfl, Or.inl hwaits⟩
      · exact ⟨rfl, Or.inr rfl⟩
    · rintro ⟨rfl, hwaits | rfl⟩
      · exact Or.inl ⟨rfl, hwaits⟩
      · exact Or.inr ⟨rfl, rfl⟩

theorem future_stop_process (h : Tabled kernel) (i : ℕ) [Decidable (Waits kernel i)] :
    (stop_process kernel).future i
      = if Waits kernel i then ⟨[.stopped]⟩ else kernel.future i := by
  have hentries : ∀ entry ∈ kernel.pending, entry.2 < kernel.futures.length := by
    rintro ⟨i, j⟩ hentry
    obtain ⟨rfl, hwaits⟩ := (h.entries i j).1 hentry
    exact hwaits.1
  have hloop := future_fail_all kernel.pending kernel hentries i
  have hiff : (i ∈ kernel.pending.map Prod.snd ∧ (kernel.future i).done = false) ↔ Waits kernel i := by
    constructor
    · rintro ⟨hmem, hdone⟩
      obtain ⟨⟨j, future⟩, hentry, rfl⟩ := List.mem_map.1 hmem
      exact ⟨hentries _ hentry, hdone⟩
    · intro hwaits
      exact ⟨List.mem_map.2 ⟨(i, i), (h.entries i i).2 ⟨rfl, hwaits⟩, rfl⟩, hwaits.2⟩
  show (fail_all kernel.pending kernel).future i = _
  rw [hloop]
  simp only [hiff]

theorem not_waits_stop_process (h : Tabled kernel) (i : ℕ) : ¬Waits (stop_process kernel) i := by
  classical
  rintro ⟨hlt, hdone⟩
  rw [future_stop_process h] at hdone
  have hlength : (stop_process kernel).futures.length = kernel.futures.length :=
    (fail_all_frame kernel.pending kernel).1
  by_cases hwaits : Waits kernel i
  · rw [if_pos hwaits] at hdone
    cases hdone
  · rw [if_neg hwaits] at hdone
    exact hwaits ⟨hlength ▸ hlt, hdone⟩

theorem tabled_stop_process (h : Tabled kernel) : Tabled (stop_process kernel) := by
  obtain ⟨hlength, hid, -, -⟩ := fail_all_frame kernel.pending kernel
  refine ⟨?_, ?_⟩
  · show (fail_all kernel.pending kernel).next_request_id
      = (fail_all kernel.pending kernel).futures.length
    rw [hlength, hid, h.ids]
  · intro request_id future
    have hnone := not_waits_stop_process h request_id
    constructor
    · intro hmem
      exact absurd hmem List.not_mem_nil
    · rintro ⟨-, hwaits⟩
      exact absurd hwaits hnone

theorem waits_complete_iff (hwaits : Waits kernel i) (completion : Completion F) (j : ℕ) :
    Waits (kernel.complete i completion) j ↔ j ≠ i ∧ Waits kernel j := by
  unfold Waits
  rw [future_complete _ _ _ hwaits.1, length_complete]
  by_cases hj : j = i
  · subst hj
    simp [Future.done]
  · simp [hj]

theorem tabled_handle_response (obj : List (Str × Value F))
    (h : Tabled kernel) : Tabled (handle_response dumps obj kernel) := by
  rcases handle_response_cases dumps obj h with ⟨i, -, hwaits, heq⟩ | ⟨-, heq⟩
  · rw [heq]
    refine ⟨?_, ?_⟩
    · exact h.ids.trans (length_complete ..).symm
    · intro request_id future
      rw [List.mem_filter, h.entries]
      have hiff := waits_complete_iff hwaits (.response (get obj "id") (outcome dumps obj)) request_id
      constructor
      · rintro ⟨⟨rfl, hw⟩, hne⟩
        exact ⟨rfl, hiff.2 ⟨by simpa using hne, hw⟩⟩
      · rintro ⟨rfl, hw⟩
        obtain ⟨hne, hw⟩ := hiff.1 hw
        exact ⟨⟨rfl, hw⟩, by simpa using hne⟩
  · rw [heq]
    exact h

/-- **One event** keeps the table. -/
theorem tabled_step {kernel kernel' : Kernel F}
    {event : Event F} (h : Tabled kernel) (hstep : Steps dumps kernel event kernel') : Tabled kernel' := by
  cases event with
  | send =>
    obtain rfl := Option.some.inj hstep
    by_cases hexited : kernel.exited = true
    · rw [if_pos hexited]
      exact tabled_stop_process h
    · rw [if_neg hexited]
      exact tabled_request h
  | setup =>
    obtain rfl := Option.some.inj hstep
    exact tabled_request h
  | message obj =>
    obtain ⟨-, hnext⟩ := Option.ite_none_right_eq_some.1 hstep
    obtain rfl := Option.some.inj hnext
    unfold handle_message
    by_cases hresponse : is_response obj = true
    · rw [if_pos hresponse]
      exact tabled_handle_response dumps obj h
    · rw [if_neg hresponse]
      exact h
  | reader_ends =>
    obtain ⟨-, hnext⟩ := Option.ite_none_right_eq_some.1 hstep
    obtain rfl := Option.some.inj hnext
    exact ⟨h.ids, h.entries⟩
  | exits =>
    obtain ⟨-, hnext⟩ := Option.ite_none_left_eq_some.1 hstep
    obtain rfl := Option.some.inj hnext
    exact ⟨h.ids, h.entries⟩
  | stop =>
    obtain rfl := Option.some.inj hstep
    exact tabled_stop_process h

/-! ## The condition is exact -/

theorem settled_request_iff (h : Settled kernel) : kernel.reading = true ↔ Settled (request kernel) := by
  constructor
  · intro hreading
    refine ⟨fun i => ?_, fun i => ?_, fun hended => ?_⟩
    · rw [future_request]
      exact h.once i
    · rw [future_request]
      exact h.own i
    · have hboth : kernel.reading = false := hended
      rw [hreading] at hboth
      cases hboth
  · intro hsettled
    by_contra hended
    have hended : kernel.reading = false := by simpa using hended
    exact hsettled.answered hended kernel.futures.length (waits_request_iff.2 (Or.inr rfl))

theorem settled_stop_process (htable : Tabled kernel) (h : Settled kernel) :
    Settled (stop_process kernel) := by
  classical
  refine ⟨fun i => ?_, fun i => ?_, fun _ => not_waits_stop_process htable⟩
  · rw [future_stop_process htable]
    by_cases hwaits : Waits kernel i
    · rw [if_pos hwaits]
      exact le_refl 1
    · rw [if_neg hwaits]
      exact h.once i
  · rw [future_stop_process htable]
    by_cases hwaits : Waits kernel i
    · rw [if_pos hwaits]
      intro completion hmem
      exact Or.inl (List.mem_singleton.1 hmem)
    · rw [if_neg hwaits]
      exact h.own i

theorem eq_of_int_key {value : Value F} (h : int_key value = some (i : ℤ)) :
    value = .int i ∨ ∃ b, value = .bool b ∧ (if b then 1 else 0) = i := by
  cases value with
  | int n =>
    obtain rfl := Option.some.inj h
    exact Or.inl rfl
  | bool b =>
    refine Or.inr ⟨b, rfl, ?_⟩
    have hnumber : (if b then 1 else 0 : ℤ) = i := Option.some.inj h
    cases b
    · simp only [Bool.false_eq_true, if_false] at hnumber ⊢
      omega
    · simp only [if_true] at hnumber ⊢
      omega
  | null | float x | string s | array items | object entries => cases h

theorem settled_handle_response_iff {obj : List (Str × Value F)} (hresponse : is_response obj = true)
    (htable : Tabled kernel) (h : Settled kernel) (hreading : kernel.reading = true) :
    ¬Mistaken kernel obj ↔ Settled (handle_response dumps obj kernel) := by
  rcases handle_response_cases dumps obj htable with ⟨i, hkey, hwaits, heq⟩ | ⟨hnone, heq⟩
  · -- the request `i` is completed, and its future now holds the id of the line
    rw [heq]
    have hfuture : ∀ j, (Kernel.future
        { kernel.complete i (.response (get obj "id") (outcome dumps obj)) with
          pending := kernel.pending.filter fun entry => entry.1 ≠ i } j)
        = if j = i then ⟨[.response (get obj "id") (outcome dumps obj)]⟩ else kernel.future j := by
      intro j
      have hcomplete := future_complete kernel (.response (get obj "id") (outcome dumps obj)) j hwaits.1
      rw [future_of_waits hwaits] at hcomplete
      exact hcomplete
    constructor
    · intro hmistaken
      have hid : get obj "id" = .int i := by
        rcases eq_of_int_key hkey with hid | ⟨b, hid, rfl⟩
        · exact hid
        · exact absurd ⟨hresponse, b, hid, hwaits⟩ hmistaken
      refine ⟨fun j => ?_, fun j => ?_, fun hended => ?_⟩
      · rw [hfuture]
        by_cases hj : j = i
        · rw [if_pos hj]
          exact le_refl 1
        · rw [if_neg hj]
          exact h.once j
      · rw [hfuture]
        by_cases hj : j = i
        · rw [if_pos hj, hid, hj]
          intro completion hmem
          exact Or.inr ⟨_, List.mem_singleton.1 hmem⟩
        · rw [if_neg hj]
          exact h.own j
      · have hboth : kernel.reading = false := hended
        rw [hreading] at hboth
        cases hboth
    · rintro hsettled ⟨-, b, hid, hwaits'⟩
      have hown := hsettled.own i (.response (get obj "id") (outcome dumps obj))
      rw [hfuture, if_pos rfl, hid] at hown
      rcases hown List.mem_cons_self with hstopped | ⟨_, hsame⟩
      · cases hstopped
      · cases hsame
  · rw [heq]
    constructor
    · intro _
      exact h
    · rintro - ⟨-, b, hid, hwaits⟩
      refine hnone _ ?_ hwaits
      rw [hid]
      cases b <;> rfl

/-- **One event** keeps what is claimed exactly if the condition holds of it. -/
theorem careful_iff {kernel kernel' : Kernel F}
    {event : Event F} (htable : Tabled kernel) (h : Settled kernel)
    (hstep : Steps dumps kernel event kernel') : Careful kernel event kernel' ↔ Settled kernel' := by
  cases event with
  | send =>
    obtain rfl := Option.some.inj hstep
    show kernel.exited = true ∨ kernel.reading = true ↔ _
    by_cases hexited : kernel.exited = true
    · rw [if_pos hexited]
      exact ⟨fun _ => settled_stop_process htable h, fun _ => Or.inl hexited⟩
    · rw [if_neg hexited, ← settled_request_iff h]
      simp [hexited]
  | setup =>
    obtain rfl := Option.some.inj hstep
    exact settled_request_iff h
  | message obj =>
    obtain ⟨hreading, hnext⟩ := Option.ite_none_right_eq_some.1 hstep
    obtain rfl := Option.some.inj hnext
    show ¬Mistaken kernel obj ↔ _
    unfold handle_message
    by_cases hresponse : is_response obj = true
    · rw [if_pos hresponse]
      exact settled_handle_response_iff dumps hresponse htable h hreading
    · rw [if_neg hresponse]
      exact ⟨fun _ => h, fun _ hmistaken => hresponse hmistaken.1⟩
  | reader_ends =>
    obtain ⟨-, hnext⟩ := Option.ite_none_right_eq_some.1 hstep
    obtain rfl := Option.some.inj hnext
    constructor
    · intro hnone
      exact ⟨h.once, h.own, fun _ => hnone⟩
    · intro hsettled
      exact hsettled.answered rfl
  | exits =>
    obtain ⟨-, hnext⟩ := Option.ite_none_left_eq_some.1 hstep
    obtain rfl := Option.some.inj hnext
    exact ⟨fun _ => ⟨h.once, h.own, h.answered⟩, fun _ => trivial⟩
  | stop =>
    obtain rfl := Option.some.inj hstep
    exact ⟨fun _ => settled_stop_process htable h, fun _ => trivial⟩

theorem tabled_spawned : Tabled (Kernel.spawned : Kernel F) := by
  refine ⟨rfl, fun request_id future => ⟨fun h => absurd h List.not_mem_nil, ?_⟩⟩
  rintro ⟨-, hlt, -⟩
  exact absurd hlt (Nat.not_lt_zero _)

theorem settled_spawned : Settled (Kernel.spawned : Kernel F) := by
  refine ⟨fun i => Nat.zero_le 1, fun i completion h => absurd h List.not_mem_nil, ?_⟩
  rintro - i ⟨hlt, -⟩
  exact absurd hlt (Nat.not_lt_zero _)

/-- **Request bookkeeping.** In every state of a run each request is completed at most once,
by the response with its own number or by shutdown, and none waits for a reader that has
ended, exactly if every event of the run meets the condition. -/
theorem settled_iff_careful (dumps : List (Str × Value F) → Str) {events : List (Event F)}
    {last : Kernel F} (hrun : Run (Steps dumps) .spawned events last) :
    (∀ before kernel, before <+: events → Run (Steps dumps) .spawned before kernel → Settled kernel)
      ↔ Run (Guarded (Steps dumps) Careful) .spawned events last := by
  have hunique : ∀ (s : Kernel F) l t t', Steps dumps s l t → Steps dumps s l t' → t = t' := by
    intro s l t t' h h'
    exact Option.some.inj (h.symm.trans h')
  have hiff := Run.guarded_iff (P := Careful) hunique
    (fun _ _ _ h hstep => tabled_step dumps h hstep)
    (fun _ _ _ htable h hstep => careful_iff dumps htable h hstep) hrun tabled_spawned settled_spawned
  exact hiff.symm

/-- A prompt whose response comes before the output ends. -/
def answered_prompt : List (Event Unit) :=
  [.send, .message [(str "id", .int 0), (str "result", .null)], .reader_ends, .exits, .stop]

theorem answered_prompt_settled : ∃ last,
    Run (Steps fun _ => []) (Kernel.spawned : Kernel Unit) answered_prompt last
      ∧ ∀ before kernel, before <+: answered_prompt →
        Run (Steps fun _ => []) Kernel.spawned before kernel → Settled kernel := by
  let completed : Future Unit := ⟨[.response (.int 0) (.ok .null)]⟩
  have hnone : ∀ i, ¬Waits (⟨1, [], [completed], true, false⟩ : Kernel Unit) i := by
    rintro i ⟨hlt, hdone⟩
    obtain rfl : i = 0 := Nat.lt_one_iff.1 hlt
    cases hdone
  have hsend : Guarded (Steps fun _ => []) Careful (Kernel.spawned : Kernel Unit) .send
      ⟨1, [(0, 0)], [create_future], true, false⟩ := ⟨rfl, Or.inr rfl⟩
  have hmessage : Guarded (Steps fun _ => []) Careful
      (⟨1, [(0, 0)], [create_future], true, false⟩ : Kernel Unit)
      (.message [(str "id", .int 0), (str "result", .null)])
      ⟨1, [], [completed], true, false⟩ := by
    refine ⟨rfl, ?_⟩
    rintro ⟨-, b, hid, -⟩
    cases hid
  have hends : Guarded (Steps fun _ => []) Careful
      (⟨1, [], [completed], true, false⟩ : Kernel Unit) .reader_ends
      ⟨1, [], [completed], false, false⟩ := ⟨rfl, hnone⟩
  have hexits : Guarded (Steps fun _ => []) Careful
      (⟨1, [], [completed], false, false⟩ : Kernel Unit) .exits
      ⟨1, [], [completed], false, true⟩ := ⟨rfl, trivial⟩
  have hstop : Guarded (Steps fun _ => []) Careful
      (⟨1, [], [completed], false, true⟩ : Kernel Unit) .stop
      ⟨1, [], [completed], false, true⟩ := ⟨rfl, trivial⟩
  have hguarded : Run (Guarded (Steps fun _ => []) Careful) (Kernel.spawned : Kernel Unit)
      answered_prompt ⟨1, [], [completed], false, true⟩ :=
    .cons hsend (.cons hmessage (.cons hends (.cons hexits (.single hstop))))
  have hrun := Run.of_guarded hguarded
  exact ⟨_, hrun, (settled_iff_careful _ hrun).2 hguarded⟩

/-- The output ends while a prompt waits, and the prompt goes on waiting. -/
theorem prompt_waits_for_ended_reader : ∃ kernel : Kernel Unit,
    Run (Steps fun _ => []) Kernel.spawned [.send, .reader_ends] kernel
      ∧ kernel.reading = false ∧ Waits kernel 0 ∧ ¬Settled kernel := by
  have hwaits : Waits (⟨1, [(0, 0)], [create_future], false, false⟩ : Kernel Unit) 0 :=
    ⟨Nat.one_pos, rfl⟩
  have hsend : Steps (fun _ => []) (Kernel.spawned : Kernel Unit) .send
      ⟨1, [(0, 0)], [create_future], true, false⟩ := rfl
  have hends : Steps (fun _ => []) (⟨1, [(0, 0)], [create_future], true, false⟩ : Kernel Unit)
      .reader_ends ⟨1, [(0, 0)], [create_future], false, false⟩ := rfl
  refine ⟨_, .cons hsend (.single hends), rfl, hwaits, ?_⟩
  intro hsettled
  exact hsettled.answered rfl 0 hwaits

end AgentSpace.Acp
