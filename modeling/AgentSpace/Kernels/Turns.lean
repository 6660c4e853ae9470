/-
A turn of a command line agent: `start`, `send`, and the reading of what the process writes.

A kernel is a `Harness`: how it launches the agent and maps what it prints. Two readers take the
lines of the two pipes; if one of them raises, `asyncio.gather` raises and nothing ends the turn
(`turn_ended_iff`).
-/
import AgentSpace.Acp.Reader
import AgentSpace.Kernels.Commands
import AgentSpace.Kernels.Mapping

set_option autoImplicit false

namespace AgentSpace.Kernels

open Acp (decode decode_line_of line_of strip_line)
open Lib PyText
open Telemetry (Str str)
open Telemetry.Otel (Value Loads int_repr)

variable {F : Type}

/-! ## The kernels -/

/-- A kernel of a command line agent. -/
structure Harness (F : Type) where
  /-- The word for it in messages. -/
  label : String
  /-- `start`, apart from the event that it puts. -/
  begun : Surroundings → KernelConfig → Kernel F → Kernel F
  /-- `name`. -/
  name : String
  /-- `send`, as far as the process to spawn. -/
  launch : Surroundings → Str → KernelConfig → Str → Launch
  /-- What is done with a value that the agent prints. -/
  map_value : Value F → Action F Unit
  /-- The values for which that does not raise. -/
  Mappable : Value F → Prop
  begun_queue : ∀ around config kernel, (begun around config kernel).queue = kernel.queue
  puts_map_value : ∀ value, Mappable value → Puts (map_value value)
  raises_map_value : ∀ value, ¬Mappable value → Raises (map_value value)

/-- `start`: the session that is taken up, or a new one. -/
def begin_session (session_id : Option Str) (around : Surroundings) (config : KernelConfig)
    (kernel : Kernel F) : Kernel F :=
  { kernel with
    config := config
    session_id := (or_else session_id (some around.fresh_id)).getD []
    status := .idle
    raw_lines := [] }

/-- `_map_event` takes an object; of another value there is no `get`. -/
def map_object (map_event : Dict F → Action F Unit) : Value F → Action F Unit
  | .object obj => map_event obj
  | _ => throw ()

/-- The values that are mapped by it. -/
def ObjectMappable (Mappable : Dict F → Prop) : Value F → Prop
  | .object obj => Mappable obj
  | _ => False

theorem puts_map_object {map_event : Dict F → Action F Unit} {Mappable : Dict F → Prop}
    (h : ∀ obj, Mappable obj → Puts (map_event obj)) (value : Value F)
    (hvalue : ObjectMappable Mappable value) : Puts (map_object map_event value) := by
  cases value with
  | object obj => exact h obj hvalue
  | _ => exact hvalue.elim

theorem raises_map_object {map_event : Dict F → Action F Unit} {Mappable : Dict F → Prop}
    (h : ∀ obj, ¬Mappable obj → Raises (map_event obj)) (value : Value F)
    (hvalue : ¬ObjectMappable Mappable value) : Raises (map_object map_event value) := by
  cases value with
  | object obj => exact h obj hvalue
  | _ => exact Breaks.raise ()

section Harnesses

variable (py : Python F)

/-- `CopilotKernel`. -/
def copilot : Harness F where
  label := "copilot"
  name := "copilot-cli"
  begun around config kernel :=
    begin_session (or_else config.session_id (config.env_get "COPILOT_SESSION_ID")) around config kernel
  launch := Copilot.launch py
  map_value := map_object (Copilot.map_event py)
  Mappable := ObjectMappable Copilot.Mappable
  begun_queue _ _ _ := rfl
  puts_map_value := puts_map_object fun _ => Copilot.puts_map_event py
  raises_map_value := raises_map_object fun _ => Copilot.raises_map_event py

/-- `OpenCodeKernel`. -/
def opencode : Harness F where
  label := "opencode"
  name := "opencode"
  begun around config kernel := begin_session config.session_id around config kernel
  launch around _ config message := OpenCode.launch around config message
  map_value := map_object (OpenCode.map_event py)
  Mappable := ObjectMappable fun _ => True
  begun_queue _ _ _ := rfl
  puts_map_value := puts_map_object fun obj _ => OpenCode.puts_map_event py obj
  raises_map_value := raises_map_object fun _ h => (h trivial).elim

/-- `CodexKernel`. -/
def codex : Harness F where
  label := "codex"
  name := "codex"
  begun around config kernel := begin_session config.session_id around config kernel
  launch around _ config message := Codex.launch around config message
  map_value := map_object (Codex.map_event py)
  Mappable := ObjectMappable (Codex.Mappable py)
  begun_queue _ _ _ := rfl
  puts_map_value := puts_map_object fun _ => Codex.puts_map_event
  raises_map_value := raises_map_object fun _ => Codex.raises_map_event

/-- What Claude Code's kernel does with a value. -/
def ClaudeCode.map_value : Value F → Action F Unit
  | .object obj => ClaudeCode.map_event py obj
  | value => put (.text_delta (py.dumps value ++ [newline]))

/-- The values that it maps. -/
def ClaudeCode.ValueMappable : Value F → Prop
  | .object obj => ClaudeCode.Mappable obj
  | _ => True

/-- `ClaudeCodeKernel`. -/
def claude_code : Harness F where
  label := "claude"
  name := "claude-code"
  begun around config kernel := { begin_session config.session_id around config kernel with
    resume_session_id := config.session_id
    tool_call_names := [] }
  launch around _ config message := ClaudeCode.launch around config message
  map_value := ClaudeCode.map_value py
  Mappable := ClaudeCode.ValueMappable
  begun_queue _ _ _ := rfl
  puts_map_value value h := by
    cases value with
    | object obj => exact ClaudeCode.puts_map_event py h
    | _ => exact puts_put _
  raises_map_value value h := by
    cases value with
    | object obj => exact ClaudeCode.raises_map_event py h
    | _ => exact (h trivial).elim

/-- The command line agents. -/
inductive Agent where
  | copilot
  | claude_code
  | opencode
  | codex

/-- The kernel of an agent. -/
def harness_of : Agent → Harness F
  | .copilot => copilot py
  | .claude_code => claude_code py
  | .opencode => opencode py
  | .codex => codex py

end Harnesses

section Turns

variable (harness : Harness F) (py : Python F) (around : Surroundings) (config : KernelConfig)
  (message : Str)

/-! ## Reading -/

/-- One line of `_read_stdout`. -/
def read_stdout_line (raw_line : List UInt8) : Action F Unit :=
  match decode raw_line with
  | none => throw ()
  | some text =>
    if (strip_line text).isEmpty then pure ()
    else do
      log_line (strip_line text)
      match py.loads (strip_line text) with
      | .malformed => put (.text_delta (strip_line text ++ [newline]))
      | .raises => throw ()
      | .value value => harness.map_value value

/-- One line of `_read_stderr`. -/
def read_stderr_line (raw_line : List UInt8) : Action F Unit :=
  match decode raw_line with
  | none => throw ()
  | some text =>
    if (strip_line text).isEmpty then pure ()
    else do
      log_line (str "[stderr] " ++ strip_line text)
      put (.error (strip_line text))

/-- The line of one of the pipes. -/
def read_stream_line : Stream → List UInt8 → Action F Unit
  | .stdout, raw_line => read_stdout_line harness py raw_line
  | .stderr, raw_line => read_stderr_line raw_line

/-- The two readers: whether they have raised nothing so far. -/
structure Readers where
  stdout : Bool
  stderr : Bool

/-- The reader of a pipe. -/
def Readers.get (readers : Readers) : Stream → Bool
  | .stdout => readers.stdout
  | .stderr => readers.stderr

/-- A reader has raised. -/
def Readers.end_of (readers : Readers) : Stream → Readers
  | .stdout => { readers with stdout := false }
  | .stderr => { readers with stderr := false }

/-- `_read_output`, of one line: the reader of its pipe takes it, unless it has raised. -/
def read_line (state : Kernel F × Readers) (line : Stream × List UInt8) : Kernel F × Readers :=
  if state.2.get line.1 then
    match (read_stream_line harness py line.1 line.2).exec state.1 with
    | (.ok _, kernel) => (kernel, state.2)
    | (.error _, kernel) => (kernel, state.2.end_of line.1)
  else state

/-! ## The turn -/

/-- The last statuses. -/
def terminal_statuses : KernelStatus → List KernelStatus
  | .error => [.error, .done]
  | _ => [.done]

/-- `_finish`. -/
def finish (status : KernelStatus) : Action F Unit :=
  modify fun kernel => { kernel with
    status := status
    queue := kernel.queue
      ++ (terminal_statuses status).map (fun status => some (.status_event status))
      ++ [some .session_end, none] }

/-- An error that ends the turn. -/
def fail (message : Str) : Action F Unit := do
  put (.error message)
  finish .error

/-- `_read_output`, when the process has exited. -/
def exited (returncode : ℤ) : Action F Unit :=
  if returncode ≠ 0 then
    fail (str harness.label ++ str " exited with code " ++ int_repr returncode)
  else finish .done

/-- `_read_output`: `asyncio.gather` raises if one of the readers has. -/
def read_output (kernel : Kernel F) : Kernel F :=
  let (kernel, readers) := around.lines.foldl (read_line harness py) (kernel, ⟨true, true⟩)
  if readers.stdout && readers.stderr then ((exited harness around.returncode).exec kernel).2
  else kernel

/-- `start`. -/
def start : Action F Unit := do
  modify (harness.begun around config)
  let kernel ← get
  put (.session_start kernel.session_id (str harness.name))

/-- `send`, from the launch on: whether there is a process. -/
def spawn : Launch → Action F Bool
  | .raised => throw ()
  | .failed message => do
    fail message
    pure false
  | .ready argv environment cwd =>
    match create_subprocess_exec around argv environment cwd with
    | .value_error => throw ()
    | .not_found => do
      fail (str harness.label ++ str " CLI not found; is it installed?")
      pure false
    | .os_error message => do
      fail (str "failed to start " ++ str harness.label ++ str " CLI: " ++ message)
      pure false
    | .process => pure true

/-- `send`. -/
def send : Action F Bool := do
  set_status .busy
  put (.status_event .busy)
  let kernel ← get
  spawn harness around (harness.launch around kernel.session_id kernel.config message)

/-- A kernel that is started. -/
def started : Kernel F := ((start harness around config).exec .new).2

/-- A turn of a new kernel, to its end: `send` has returned or raised, and the process, if there
is one, has exited with both pipes drained. -/
def turn : Kernel F :=
  match (send harness around message).exec (started harness around config) with
  | (.ok true, kernel) => read_output harness py around kernel
  | (_, kernel) => kernel

/-! ## What is expected -/

/-- The queue has received its end, and once: the terminal statuses, the end of the session and
the sentinel, behind events. -/
def TurnEnded (queue : List (Option (KernelEvent F))) : Prop :=
  ∃ (events : List (KernelEvent F)) (status : KernelStatus),
    queue = events.map some ++ (terminal_statuses status).map (fun status => some (.status_event status))
      ++ [some .session_end, none]

/-- The line can be read: it is UTF-8, and on stdout it is blank, or no JSON, or a value that the
kernel maps. -/
def Readable : Stream × List UInt8 → Prop
  | (.stderr, raw_line) => (decode raw_line).isSome
  | (.stdout, raw_line) => ∃ text, decode raw_line = some text ∧
      ((strip_line text).isEmpty = false → match py.loads (strip_line text) with
        | .malformed => True
        | .raises => False
        | .value value => harness.Mappable value)

/-- No exception escapes from the launch, nor from the spawning of a process; and if there is
one, all its lines can be read. -/
def Contained : Launch → Prop
  | .raised => False
  | .failed _ => True
  | .ready argv environment cwd =>
    match create_subprocess_exec around argv environment cwd with
    | .value_error => False
    | .process => ∀ line ∈ around.lines, Readable harness py line
    | _ => True

/-- The launch of the turn: what the kernel makes of its configuration and the message. -/
def launched : Launch :=
  let kernel : Kernel F := started harness around config
  harness.launch around kernel.session_id kernel.config message

/-! ## Lines -/

variable {harness py around config message}

theorem puts_read_stream_line {line : Stream × List UInt8} (h : Readable harness py line) :
    Puts (read_stream_line harness py line.1 line.2) := by
  obtain ⟨stream, raw_line⟩ := line
  cases stream with
  | stderr =>
    obtain ⟨text, htext⟩ := Option.isSome_iff_exists.1 h
    simp only [read_stream_line, read_stderr_line, htext]
    refine .ite (fun _ => .ret _) fun _ => ?_
    exact (puts_log_line _).bind fun _ => puts_put _
  | stdout =>
    obtain ⟨text, htext, hread⟩ := h
    simp only [read_stream_line, read_stdout_line, htext]
    refine .ite (fun _ => .ret _) fun hblank => ?_
    refine (puts_log_line _).bind fun _ => ?_
    have hread := hread (by simpa using hblank)
    cases hloads : py.loads (strip_line text) with
    | malformed => exact puts_put _
    | raises => simp [hloads] at hread
    | value value =>
      simp only [hloads] at hread
      exact harness.puts_map_value value hread

theorem raises_read_stream_line {line : Stream × List UInt8} (h : ¬Readable harness py line) :
    Raises (read_stream_line harness py line.1 line.2) := by
  obtain ⟨stream, raw_line⟩ := line
  cases hdecode : decode raw_line with
  | none =>
    cases stream with
    | stderr =>
      simp only [read_stream_line, read_stderr_line, hdecode]
      exact Breaks.raise ()
    | stdout =>
      simp only [read_stream_line, read_stdout_line, hdecode]
      exact Breaks.raise ()
  | some text =>
    cases stream with
    | stderr => exact absurd (by simp [Readable, hdecode]) h
    | stdout =>
      by_cases hblank : (strip_line text).isEmpty = true
      · exact absurd ⟨text, hdecode, fun hne => absurd (hblank.symm.trans hne) (by simp)⟩ h
      simp only [read_stream_line, read_stdout_line, hdecode, if_neg hblank]
      refine (puts_log_line _).bind_breaks fun _ => ?_
      cases hloads : py.loads (strip_line text) with
      | malformed => exact absurd ⟨text, hdecode, fun _ => by simp [hloads]⟩ h
      | raises => exact Breaks.raise ()
      | value value =>
        refine harness.raises_map_value value fun hvalue => h ⟨text, hdecode, fun _ => ?_⟩
        simpa [hloads] using hvalue

/-- There is no sentinel in the queue. -/
def Open (kernel : Kernel F) : Prop := none ∉ kernel.queue

theorem Open.of_appends {kernel kernel' : Kernel F} (h : Open kernel)
    (happends : Appends Kernel.queue (fun x => x.isSome) kernel kernel') : Open kernel' := by
  obtain ⟨items, hitems, hsome⟩ := happends
  unfold Open
  rw [hitems, List.mem_append]
  rintro (hnone | hnone)
  · exact h hnone
  · exact absurd (hsome _ hnone) (by simp)

variable {kernel : Kernel F}

variable (harness py) in
/-- The readers as a whole: no line puts a sentinel, and both are still reading exactly if they
were before and the lines can be read. -/
theorem read_lines (lines : List (Stream × List UInt8)) (readers : Readers) (h : Open kernel) :
    Open (lines.foldl (read_line harness py) (kernel, readers)).1
      ∧ (((lines.foldl (read_line harness py) (kernel, readers)).2 = ⟨true, true⟩)
        ↔ readers = ⟨true, true⟩ ∧ ∀ line ∈ lines, Readable harness py line) := by
  induction lines generalizing kernel readers with
  | nil => exact ⟨h, by simp⟩
  | cons line lines ih =>
    rw [List.foldl_cons]
    by_cases hreading : readers.get line.1 = true
    · by_cases hreadable : Readable harness py line
      · obtain ⟨⟨result, hresult⟩, happends⟩ := puts_read_stream_line hreadable kernel
        have hline : read_line harness py (kernel, readers) line
            = (((read_stream_line harness py line.1 line.2).exec kernel).2, readers) := by
          unfold read_line
          rw [if_pos hreading]
          generalize (read_stream_line harness py line.1 line.2).exec kernel = outcome at hresult
          obtain ⟨_, _⟩ := outcome
          cases hresult
          rfl
        rw [hline]
        refine ⟨(ih _ (h.of_appends happends)).1, (ih _ (h.of_appends happends)).2.trans ?_⟩
        simp [hreadable]
      · obtain ⟨⟨raised, hraised⟩, happends⟩ := raises_read_stream_line hreadable kernel
        have hline : read_line harness py (kernel, readers) line
            = (((read_stream_line harness py line.1 line.2).exec kernel).2, readers.end_of line.1) := by
          unfold read_line
          rw [if_pos hreading]
          generalize (read_stream_line harness py line.1 line.2).exec kernel = outcome at hraised
          obtain ⟨_, _⟩ := outcome
          cases hraised
          rfl
        have hended : readers.end_of line.1 ≠ ⟨true, true⟩ := by
          obtain ⟨stream, raw_line⟩ := line
          cases stream <;> simp [Readers.end_of]
        rw [hline]
        refine ⟨(ih _ (h.of_appends happends)).1, (ih _ (h.of_appends happends)).2.trans ?_⟩
        simp [hreadable, hended]
    · have hline : read_line harness py (kernel, readers) line = (kernel, readers) := by
        unfold read_line
        rw [if_neg hreading]
      have hended : readers ≠ ⟨true, true⟩ := by
        rintro rfl
        obtain ⟨stream, raw_line⟩ := line
        cases stream <;> exact hreading rfl
      rw [hline]
      refine ⟨(ih _ h).1, (ih _ h).2.trans ?_⟩
      simp [hended]

/-! ## The end of a turn -/

theorem not_open_of_turn_ended (h : TurnEnded kernel.queue) : ¬Open kernel := by
  obtain ⟨events, status, hqueue⟩ := h
  intro hopen
  refine hopen ?_
  rw [hqueue]
  simp

theorem turn_ended_finish (h : Open kernel) (status : KernelStatus) :
    TurnEnded ((finish status).exec kernel).2.queue := by
  have hevents : kernel.queue = (kernel.queue.filterMap id).map some := by
    have hall : ∀ queue : List (Option (KernelEvent F)), none ∉ queue →
        queue = (queue.filterMap id).map some := by
      intro queue
      induction queue with
      | nil => exact fun _ => rfl
      | cons event queue ih =>
        intro hnone
        rw [List.mem_cons, not_or] at hnone
        cases event with
        | none => exact absurd rfl hnone.1
        | some event => simpa using ih hnone.2
    exact hall _ h
  refine ⟨kernel.queue.filterMap id, status, ?_⟩
  rw [← hevents]
  rfl

theorem turn_ended_fail (h : Open kernel) (message : Str) :
    TurnEnded ((fail message).exec kernel).2.queue := by
  have hput := puts_put (KernelEvent.error message) kernel
  have hexec := exec_bind_of_ok (m := put (.error message)) (f := fun _ => finish .error) (s := kernel) rfl
  change TurnEnded ((put (.error message) >>= fun _ => finish .error).exec kernel).2.queue
  rw [hexec]
  exact turn_ended_finish (h.of_appends hput.2) .error

theorem turn_ended_exited (h : Open kernel) (returncode : ℤ) :
    TurnEnded ((exited harness returncode).exec kernel).2.queue := by
  unfold exited
  by_cases hcode : returncode ≠ 0
  · rw [if_pos hcode]
    exact turn_ended_fail h _
  · rw [if_neg hcode]
    exact turn_ended_finish h .done

theorem turn_ended_read_output (h : Open kernel) :
    TurnEnded (read_output harness py around kernel).queue
      ↔ ∀ line ∈ around.lines, Readable harness py line := by
  obtain ⟨hopen, hboth⟩ := read_lines harness py around.lines ⟨true, true⟩ h
  unfold read_output
  generalize around.lines.foldl (read_line harness py) (kernel, ⟨true, true⟩) = state at hopen hboth
  obtain ⟨kernel', readers⟩ := state
  by_cases hreading : readers = ⟨true, true⟩
  · subst hreading
    exact iff_of_true (turn_ended_exited hopen _) (hboth.1 rfl).2
  · have hstopped : (readers.stdout && readers.stderr) = false := by
      by_contra hboth
      refine hreading ?_
      obtain ⟨stdout, stderr⟩ := readers
      simpa using hboth
    simp only [hstopped, Bool.false_eq_true, if_false]
    refine iff_of_false (fun hended => not_open_of_turn_ended hended hopen) ?_
    exact fun hall => hreading (hboth.2 ⟨rfl, hall⟩)

variable (harness around config) in
theorem open_started : Open (started harness around config) := by
  have hnew : Open (Kernel.new : Kernel F) := List.not_mem_nil
  have hbegun : Puts (start harness around config) := by
    refine .bind (Writes.update fun kernel => .of_eq (harness.begun_queue _ _ kernel)) fun _ => ?_
    exact .bind Writes.read fun _ => puts_put _
  exact hnew.of_appends (hbegun .new).2

/-- What comes of the launch. -/
theorem turn_ended_spawn (h : Open kernel) (launch : Launch) :
    TurnEnded (match (spawn harness around launch).exec kernel with
      | (.ok true, kernel) => read_output harness py around kernel
      | (_, kernel) => kernel).queue ↔ Contained harness py around launch := by
  have hfailed : ∀ message : Str, TurnEnded ((do fail message; pure false :
    Action F Bool).exec kernel).2.queue :=
    fun message => turn_ended_fail h message
  cases launch with
  | raised => exact iff_of_false (fun hended => not_open_of_turn_ended hended h) id
  | failed message => exact iff_of_true (hfailed message) trivial
  | ready argv environment cwd =>
    simp only [spawn, Contained]
    cases create_subprocess_exec around argv environment cwd with
    | value_error => exact iff_of_false (fun hended => not_open_of_turn_ended hended h) id
    | not_found | os_error message => exact iff_of_true (hfailed _) trivial
    | process => exact turn_ended_read_output h

variable (harness py around config message) in
theorem turn_ended_iff_contained :
    TurnEnded (turn harness py around config message).queue
      ↔ Contained harness py around (launched harness around config message) := by
  have hbusy : Puts (do set_status .busy; put (.status_event .busy) : Action F Unit) :=
    (puts_set_status _).bind fun _ => puts_put _
  have hopen := open_started harness around config
  exact turn_ended_spawn (hopen.of_appends (hbusy _).2) _

end Turns

/-- **Turns end.** A turn of any of the agents ends exactly if no exception escapes from its
launch, and all that the process has written can be read. -/
theorem turn_ended_iff (agent : Agent) (py : Python F) (around : Surroundings) (config : KernelConfig)
    (message : Str) :
    TurnEnded (turn (harness_of py agent) py around config message).queue
      ↔ Contained (harness_of py agent) py around (launched (harness_of py agent) around config message) :=
  turn_ended_iff_contained (harness_of py agent) py around config message

/-- The library, reading one text only. -/
def Python.reading (text : String) (value : Value Unit) : Python Unit where
  loads t := if t = str text then .value value else .malformed
  dumps _ := []
  dumps_compact _ := []
  str_of _ := []
  is_zero _ := false
  is_uuid _ := false
  lower text := text
  sha256_hexdigest _ := []

/-- A process that prints one line and exits. -/
def printing (text : String) : Surroundings where
  environ := []
  fresh_id := str "0123456789ab"
  mkdir := none
  value_error := []
  artifacts := .ok none
  config_written := none
  prompt_written := none
  prompt_readable := true
  spawn := .started
  lines := [(.stdout, line_of text)]
  returncode := 0

/-- A JSON value that is no object leaves a turn of Codex open. -/
theorem printed_array_ends_no_turn :
    ¬TurnEnded (turn (harness_of (Python.reading "[]" (.array [])) .codex)
      (Python.reading "[]" (.array [])) (printing "[]") ⟨[], none, []⟩ (str "hello")).queue := by
  intro hended
  have hcontained := (turn_ended_iff_contained _ _ _ _ _).1 hended
  have hreadable : ∀ line ∈ (printing "[]").lines,
    Readable (harness_of (Python.reading "[]" (.array [])) .codex)
      (Python.reading "[]" (.array [])) line := hcontained
  obtain ⟨text, htext, hvalue⟩ := hreadable (.stdout, line_of "[]") (List.mem_singleton.2 rfl)
  obtain rfl : str "[]" = text := Option.some.inj ((decode_line_of "[]").symm.trans htext)
  exact hvalue (by decide)

end AgentSpace.Kernels
