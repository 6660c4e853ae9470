/-
What the kernels of the command line agents share: their events, their configuration, and the
state of one kernel.

`recv` empties the queue until it meets the sentinel `None`. The queue here keeps all that was
ever put. Of an exception of Python only that it is raised is kept.
-/
import AgentSpace.Lib.Emission
import AgentSpace.PyText

set_option autoImplicit false

namespace AgentSpace.Kernels

open Lib PyText
open Telemetry (Str str)
open Telemetry.Otel (Value Loads get)

variable {F : Type}

/-! ## Events -/

/-- `KernelStatus`. -/
inductive KernelStatus where
  | idle
  | busy
  | error
  | done
deriving DecidableEq

/-- `KernelEvent`, as the functions of `kernel/events.py` make it. -/
inductive KernelEvent (F : Type) where
  | session_start (session_id kernel : Str)
  | status_event (status : KernelStatus)
  | text_delta (content : Str)
  | reasoning_delta (content : Str)
  | tool_call (tool : Str) (input : Dict F)
  | tool_result (tool output : Str)
  | error (message : Str)
  | session_end

/-! ## The library -/

/-- What the kernels use of the library of Python. -/
structure Python (F : Type) where
  loads : Str → Loads F
  /-- `json.dumps(value)`; what `json.loads` has returned can be written. -/
  dumps : Value F → Str
  /-- `json.dumps(value, separators=(",", ":"))`. -/
  dumps_compact : Value F → Str
  /-- `str(value)`, of a value that is no text. -/
  str_of : Value F → Str
  /-- `x == 0.0`. -/
  is_zero : F → Bool
  /-- `uuid.UUID(text)` does not raise. -/
  is_uuid : Str → Bool
  /-- `text.lower()`. -/
  lower : Str → Str
  /-- `hashlib.sha256(data).hexdigest()`. -/
  sha256_hexdigest : List UInt8 → Str

namespace Python

variable (py : Python F)

/-- `bool(value)`. -/
def truthy : Value F → Bool
  | .null => false
  | .bool b => b
  | .int n => n != 0
  | .float x => !py.is_zero x
  | .string s => !s.isEmpty
  | .array items => !items.isEmpty
  | .object entries => !entries.isEmpty

/-- `str(value)`. -/
def to_str : Value F → Str
  | .string s => s
  | value => py.str_of value

end Python

/-- `dict.get` with a default. -/
def get_or (entries : Dict F) (key : String) (default : Value F) : Value F :=
  (entries.lookup (str key)).getD default

/-- A value that `hash` raises `TypeError` for. -/
def unhashable : Value F → Bool
  | .array _ => true
  | .object _ => true
  | _ => false

/-- `value or other`, of texts that may be missing. -/
def or_else (value other : Option Str) : Option Str :=
  match value with
  | some text => if text.isEmpty then other else some text
  | none => other

/-! ## A kernel -/

/-- `KernelConfig`. -/
structure KernelConfig where
  env : List (Str × Str)
  session_id : Option Str
  additional_paths : List Str

/-- `config.env.get(name)`. -/
def KernelConfig.env_get (config : KernelConfig) (name : String) : Option Str :=
  config.env.lookup (str name)

/-- `value = config.env.get(name); if value`. -/
def KernelConfig.env_text (config : KernelConfig) (name : String) : Option Str :=
  or_else (config.env_get name) none

/-- What a kernel keeps. -/
structure Kernel (F : Type) where
  status : KernelStatus
  session_id : Str
  /-- `_resume_session_id`, of Claude Code. -/
  resume_session_id : Option Str
  config : KernelConfig
  raw_lines : List Str
  /-- `_tool_call_names`, of Copilot and of Claude Code. -/
  tool_call_names : List (Str × Str)
  /-- All that was put in the queue. -/
  queue : List (Option (KernelEvent F))

/-- `__init__`. -/
def Kernel.new : Kernel F := ⟨.idle, [], none, ⟨[], none, []⟩, [], [], []⟩

/-- What a kernel does; it may raise an exception. -/
abbrev Action (F α : Type) := Raising Unit (Kernel F) α

/-- `await self._queue.put(event)`. -/
def put (event : KernelEvent F) : Action F Unit :=
  modify fun kernel => { kernel with queue := kernel.queue ++ [some event] }

/-- `self._status = status`. -/
def set_status (status : KernelStatus) : Action F Unit :=
  modify fun kernel => { kernel with status := status }

/-- `self._raw_lines.append(line)`. -/
def log_line (line : Str) : Action F Unit :=
  modify fun kernel => { kernel with raw_lines := kernel.raw_lines ++ [line] }

/-- `event_type in {...}`, which hashes the value first. -/
def in_set (value : Value F) (names : List String) : Action F Bool :=
  if unhashable value then throw () else pure (names.any fun name => is_string value name)

/-! ## Puts of events -/

/-- It returns, and puts events only. -/
abbrev Puts {α : Type} (m : Action F α) : Prop := Writes Kernel.queue (fun x => x.isSome) m

/-- It raises, and has put events only. -/
abbrev Raises {α : Type} (m : Action F α) : Prop := Breaks Kernel.queue (fun x => x.isSome) m

theorem puts_put (event : KernelEvent F) : Puts (put event) :=
  Writes.update fun _ => .one rfl rfl

theorem puts_set_status (status : KernelStatus) : Puts (set_status status : Action F Unit) :=
  Writes.update fun _ => .of_eq rfl

theorem puts_log_line (line : Str) : Puts (log_line line : Action F Unit) :=
  Writes.update fun _ => .of_eq rfl

variable {value : Value F}

theorem puts_in_set (names : List String) (h : unhashable value = false) : Puts (in_set value names) := by
  unfold in_set
  rw [h]
  exact .ret _

theorem raises_in_set (names : List String) (h : unhashable value = true) :
    Raises (in_set value names) := by
  unfold in_set
  rw [h]
  exact Breaks.raise ()

theorem is_string_of_unhashable (name : String) (h : unhashable value = true) :
    is_string value name = false := by
  cases value with
  | array items => rfl
  | object entries => rfl
  | _ => cases h

end AgentSpace.Kernels
