/-
`_map_event` of the four kernels: from an object that an agent prints to the events of the
kernel.

What is asked about a field with `==` never raises; `in {...}` hashes the field first, and
`json.loads` of a text in a field may raise more than `JSONDecodeError`. `Mappable` says of which
objects a kernel's does not.
-/
import AgentSpace.Kernels.Events

set_option autoImplicit false

namespace AgentSpace.Kernels

open Lib PyText
open Telemetry (Str str)
open Telemetry.Otel (Value Loads get mapping_or_empty)

variable {F : Type}

/-! ## Parts -/

/-- `if isinstance(value, str) and value`, and an event with it. -/
def put_text (event : Str → KernelEvent F) : Value F → Action F Unit
  | .string text => if text.isEmpty then pure () else put (event text)
  | _ => pure ()

/-- `_first_string`. -/
def first_string : List (Value F) → Option Str
  | [] => none
  | .string text :: values => if text.isEmpty then first_string values else some text
  | _ :: values => first_string values

/-- An event with the first text, if there is one; whether there was one. -/
def put_first (event : Str → KernelEvent F) (values : List (Value F)) : Action F Bool :=
  match first_string values with
  | some text => do
    put (event text)
    pure true
  | none => pure false

/-- `self._config = replace(self._config, session_id=session_id)`. -/
def replace_session_id (session_id : Str) : Action F Unit :=
  modify fun kernel => { kernel with config := { kernel.config with session_id := some session_id } }

/-- `self._session_id = session_id`. -/
def set_session_id (session_id : Str) : Action F Unit :=
  modify fun kernel => { kernel with session_id := session_id }

/-- `self._tool_call_names[call_id] = tool_name`. -/
def name_tool_call (call_id tool_name : Str) : Action F Unit :=
  modify fun kernel => { kernel with
    tool_call_names := (call_id, tool_name) :: kernel.tool_call_names.filter fun entry => entry.1 ≠ call_id }

/-- `self._tool_call_names.pop(call_id, None)`. -/
def pop_tool_call (call_id : Str) : Action F (Option Str) :=
  modifyGet fun kernel => (kernel.tool_call_names.lookup call_id, { kernel with
    tool_call_names := kernel.tool_call_names.filter fun entry => entry.1 ≠ call_id })

/-- The tool of a payload: `payload.get("name", payload.get("tool"))`. -/
def tool_of (payload : Dict F) : Option Str :=
  match get_or payload "name" (get payload "tool") with
  | .string tool_name => some tool_name
  | _ => none

/-- `_extract_tool_payload`: the tool and its input. -/
def extract_tool_payload (payload : Dict F) : Option (Str × Dict F) :=
  match tool_of payload, get_or payload "input" (get_or payload "arguments" (.object [])) with
  | some tool_name, .object tool_input => some (tool_name, tool_input)
  | _, _ => none

theorem puts_put_text (event : Str → KernelEvent F) (value : Value F) : Puts (put_text event value) := by
  unfold put_text
  cases value with
  | string text => exact .ite (fun _ => .ret _) fun _ => puts_put _
  | _ => exact .ret _

theorem puts_put_first (event : Str → KernelEvent F) (values : List (Value F)) :
    Puts (put_first event values) := by
  unfold put_first
  cases first_string values with
  | none => exact .ret _
  | some text => exact (puts_put _).bind fun _ => .ret _

theorem puts_replace_session_id (session_id : Str) : Puts (replace_session_id session_id : Action F Unit) :=
  Writes.update fun _ => .of_eq rfl

theorem puts_set_session_id (session_id : Str) : Puts (set_session_id session_id : Action F Unit) :=
  Writes.update fun _ => .of_eq rfl

theorem puts_name_tool_call (call_id tool_name : Str) :
    Puts (name_tool_call call_id tool_name : Action F Unit) :=
  Writes.update fun _ => .of_eq rfl

theorem puts_pop_tool_call (call_id : Str) : Puts (pop_tool_call call_id : Action F (Option Str)) :=
  Writes.update_get fun _ => .of_eq rfl

/-! ## Copilot -/

namespace Copilot

/-- `_emit_tool_calls`, of one request. -/
def emit_request : Value F → Action F Unit
  | .object payload =>
    match extract_tool_payload payload with
    | some (tool_name, tool_input) => put (.tool_call tool_name tool_input)
    | none => pure ()
  | _ => pure ()

/-- `_emit_tool_calls`, of the requests of a list. -/
def emit_requests : List (Value F) → Action F Unit
  | [] => pure ()
  | request :: requests => do
    emit_request request
    emit_requests requests

/-- `_emit_tool_calls`. -/
def emit_tool_calls : Value F → Action F Unit
  | .array requests => emit_requests requests
  | _ => pure ()

/-- `_extract_tool_result`. -/
def extract_tool_result (py : Python F) (payload : Dict F) : Option (Str × Str) :=
  (tool_of payload).map fun tool_name =>
    match get_or payload "output" (get payload "result") with
    | .string tool_output => (tool_name, tool_output)
    | .null => (tool_name, [])
    | tool_output => (tool_name, py.dumps_compact tool_output)

/-- The output of `tool.execution_complete`. -/
def execution_output (py : Python F) : Value F → Str
  | .object result =>
    if py.truthy (get result "detailedContent") then py.to_str (get result "detailedContent")
    else if py.truthy (get result "content") then py.to_str (get result "content")
    else []
  | result => if py.truthy result then py.to_str result else []

/-- `_map_event`, of `tool.execution_complete`. -/
def execution_complete (py : Python F) (data : Dict F) : Action F Unit :=
  match get data "toolCallId" with
  | .string call_id => do
    match ← pop_tool_call call_id with
    | some tool_name => put (.tool_result tool_name (execution_output py (get data "result")))
    | none => pure ()
  | _ => pure ()

/-- `_map_event`, of `result`. -/
def result (obj : Dict F) : Action F Unit :=
  match get obj "sessionId" with
  | .string session_id => do
    set_session_id session_id
    replace_session_id session_id
  | _ => pure ()

/-- `_map_event`. -/
def map_event (py : Python F) (obj : Dict F) : Action F Unit := do
  let event_type := get_or obj "type" (.string [])
  let data := mapping_or_empty (get obj "data")
  if is_string event_type "assistant.message_delta" then
    put_text .text_delta (get_or data "deltaContent" (.string []))
  else if is_string event_type "assistant.reasoning_delta" then
    put_text .reasoning_delta (get_or data "deltaContent" (.string []))
  else if is_string event_type "assistant.turn_start" then
    pure ()
  else if is_string event_type "assistant.turn_end" then
    set_status .idle
    put (.status_event .idle)
  else if is_string event_type "assistant.message" then
    emit_tool_calls (get data "toolRequests")
  else if ← in_set event_type ["tool.call", "tool_call", "assistant.tool_call"] then
    match extract_tool_payload data with
    | some (tool_name, tool_input) => put (.tool_call tool_name tool_input)
    | none => pure ()
  else if ← in_set event_type ["tool.result", "tool_result", "assistant.tool_result"] then
    match extract_tool_result py data with
    | some (tool_name, tool_output) => put (.tool_result tool_name tool_output)
    | none => pure ()
  else if is_string event_type "tool.execution_start" then
    match get data "toolCallId", get data "toolName" with
    | .string call_id, .string tool_name => name_tool_call call_id tool_name
    | _, _ => pure ()
  else if is_string event_type "tool.execution_complete" then
    execution_complete py data
  else if is_string event_type "result" then
    result obj

/-- The objects that are mapped: those whose type can be hashed. -/
def Mappable (obj : Dict F) : Prop := unhashable (get_or obj "type" (.string [])) = false

theorem puts_emit_request (request : Value F) : Puts (emit_request request) := by
  unfold emit_request
  cases request with
  | object payload =>
    simp only
    cases extract_tool_payload payload with
    | none => exact .ret _
    | some call => exact puts_put _
  | _ => exact .ret _

theorem puts_emit_requests (requests : List (Value F)) : Puts (emit_requests requests) := by
  induction requests with
  | nil => exact .ret _
  | cons request requests ih => exact (puts_emit_request request).bind fun _ => ih

theorem puts_emit_tool_calls (value : Value F) : Puts (emit_tool_calls value) := by
  unfold emit_tool_calls
  cases value with
  | array requests => exact puts_emit_requests requests
  | _ => exact .ret _

variable (py : Python F)

theorem puts_execution_complete (data : Dict F) : Puts (execution_complete py data) := by
  unfold execution_complete
  cases get data "toolCallId" with
  | string call_id =>
    refine (puts_pop_tool_call call_id).bind fun tool_name => ?_
    cases tool_name with
    | none => exact .ret _
    | some tool_name => exact puts_put _
  | _ => exact .ret _

theorem puts_result (obj : Dict F) : Puts (result obj) := by
  unfold result
  cases get obj "sessionId" with
  | string session_id => exact (puts_set_session_id _).bind fun _ => puts_replace_session_id _
  | _ => exact .ret _

theorem puts_map_event {obj : Dict F} (h : Mappable obj) : Puts (map_event py obj) := by
  unfold map_event
  refine .ite (fun _ => puts_put_text _ _) fun _ => ?_
  refine .ite (fun _ => puts_put_text _ _) fun _ => ?_
  refine .ite (fun _ => .ret _) fun _ => ?_
  refine .ite (fun _ => (puts_set_status _).bind fun _ => puts_put _) fun _ => ?_
  refine .ite (fun _ => puts_emit_tool_calls _) fun _ => ?_
  refine (puts_in_set _ h).bind fun is_call => .ite (fun _ => ?_) fun _ => ?_
  · cases extract_tool_payload (mapping_or_empty (get obj "data")) with
    | none => exact .ret _
    | some call => exact puts_put _
  refine (puts_in_set _ h).bind fun is_result => .ite (fun _ => ?_) fun _ => ?_
  · cases extract_tool_result py (mapping_or_empty (get obj "data")) with
    | none => exact .ret _
    | some call => exact puts_put _
  refine .ite (fun _ => ?_) fun _ => ?_
  · split
    · exact puts_name_tool_call _ _
    · exact .ret _
  refine .ite (fun _ => puts_execution_complete py _) fun _ => ?_
  exact .ite (fun _ => puts_result obj) fun _ => .ret _

theorem raises_map_event {obj : Dict F} (h : ¬Mappable obj) : Raises (map_event py obj) := by
  have hraises : unhashable (get_or obj "type" (.string [])) = true := by
    simpa [Mappable] using h
  unfold map_event
  simp only [is_string_of_unhashable _ hraises, Bool.false_eq_true, if_false]
  exact (raises_in_set _ hraises).bind_left

end Copilot

/-! ## OpenCode -/

namespace OpenCode

/-- `_map_tool_use`. -/
def map_tool_use (py : Python F) (part : Dict F) : Action F Unit :=
  match get part "tool" with
  | .string tool_name => do
    let state := mapping_or_empty (get part "state")
    put (.tool_call tool_name (mapping_or_empty (get state "input")))
    if is_string (get state "status") "completed" then
      match get_or state "output" (.string []) with
      | .string output => put (.tool_result tool_name output)
      | output => put (.tool_result tool_name (py.dumps_compact output))
  | _ => pure ()

/-- `_map_event`, as far as the session goes. -/
def capture_session_id (obj : Dict F) : Action F Unit :=
  match get obj "sessionID" with
  | .string session_id =>
    if session_id.isEmpty then pure ()
    else do
      set_session_id session_id
      replace_session_id session_id
  | _ => pure ()

/-- `_map_event`. -/
def map_event (py : Python F) (obj : Dict F) : Action F Unit := do
  let event_type := get_or obj "type" (.string [])
  let part := mapping_or_empty (get obj "part")
  capture_session_id obj
  if is_string event_type "step_start" then
    pure ()
  else if is_string event_type "text" then
    put_text .text_delta (get_or part "text" (.string []))
  else if is_string event_type "reasoning" then
    put_text .reasoning_delta (get_or part "text" (.string []))
  else if is_string event_type "tool_use" then
    map_tool_use py part
  else if is_string event_type "step_finish" then
    if is_string (get_or part "reason" (.string [])) "stop" then
      set_status .idle
      put (.status_event .idle)

theorem puts_map_tool_use (py : Python F) (part : Dict F) : Puts (map_tool_use py part) := by
  unfold map_tool_use
  cases get part "tool" with
  | string tool_name =>
    refine (puts_put _).bind fun _ => .ite (fun _ => ?_) fun _ => .ret _
    split
    · exact puts_put _
    · exact puts_put _
  | _ => exact .ret _

theorem puts_capture_session_id (obj : Dict F) : Puts (capture_session_id obj) := by
  unfold capture_session_id
  cases get obj "sessionID" with
  | string session_id =>
    refine .ite (fun _ => .ret _) fun _ => ?_
    exact (puts_set_session_id _).bind fun _ => puts_replace_session_id _
  | _ => exact .ret _

theorem puts_map_event (py : Python F) (obj : Dict F) : Puts (map_event py obj) := by
  unfold map_event
  refine (puts_capture_session_id obj).bind fun _ => ?_
  refine .ite (fun _ => .ret _) fun _ => ?_
  refine .ite (fun _ => puts_put_text _ _) fun _ => ?_
  refine .ite (fun _ => puts_put_text _ _) fun _ => ?_
  refine .ite (fun _ => puts_map_tool_use py _) fun _ => ?_
  refine .ite (fun _ => ?_) fun _ => .ret _
  exact .ite (fun _ => (puts_set_status _).bind fun _ => puts_put _) fun _ => .ret _

end OpenCode

/-! ## Codex -/

namespace Codex

/-- `_map_item_started`. -/
def map_item_started (item : Dict F) : Action F Unit :=
  if is_string (get_or item "type" (.string [])) "command_execution" then
    put_text (fun command => .tool_call (str "shell") [(str "cmd", .string command)])
      (get_or item "command" (.string []))
  else pure ()

/-- The result of a command: its output, and its exit code if there is one. -/
def command_result (py : Python F) (output exit_code : Value F) : Str :=
  let shown := match output with
    | .string text => if text.isEmpty then [] else [text]
    | _ => []
  let code := match exit_code with
    | .null => []
    | exit_code => [str "[exit_code: " ++ py.to_str exit_code ++ str "]"]
  (str "\n").intercalate (shown ++ code)

/-- The input of a tool call; `json.loads` of a text may raise. -/
def tool_input (py : Python F) : Value F → Action F (Dict F)
  | .object arguments => pure arguments
  | .string arguments =>
    match py.loads arguments with
    | .value (.object parsed) => pure parsed
    | .value _ => pure []
    | .malformed => pure [(str "raw", .string arguments)]
    | .raises => throw ()
  | _ => pure []

/-- `_map_item_completed`, of `tool_call`. -/
def completed_tool_call (py : Python F) (item : Dict F) : Action F Unit :=
  match get item "name" with
  | .string name => do
    let tool_input ← tool_input py (get item "arguments")
    put (.tool_call name tool_input)
  | _ => pure ()

/-- `_map_item_completed`, of `tool_result`. -/
def completed_tool_result (py : Python F) (item : Dict F) : Action F Unit :=
  match tool_of item with
  | some name =>
    match get_or item "output" (get_or item "result" (.string [])) with
    | .string output => put (.tool_result name output)
    | output => put (.tool_result name (py.dumps_compact output))
  | none => pure ()

/-- `_map_item_completed`. -/
def map_item_completed (py : Python F) (item : Dict F) : Action F Unit :=
  let item_type := get_or item "type" (.string [])
  if is_string item_type "agent_message" then
    put_text .text_delta (get_or item "text" (.string []))
  else if is_string item_type "command_execution" then
    let result := command_result py (get_or item "aggregated_output" (.string [])) (get item "exit_code")
    put_text (fun _ => .tool_result (str "shell") result) (get_or item "command" (.string []))
  else if is_string item_type "tool_call" then
    completed_tool_call py item
  else if is_string item_type "tool_result" then
    completed_tool_result py item
  else pure ()

/-- `_map_item_delta`. -/
def map_item_delta (item : Dict F) : Action F Unit :=
  if is_string (get_or item "type" (.string [])) "agent_message" then
    put_text .text_delta (get_or item "text" (.string []))
  else pure ()

/-- `item = obj.get("item")`, if it is an object. -/
def map_item (obj : Dict F) (map : Dict F → Action F Unit) : Action F Unit :=
  match get obj "item" with
  | .object item => map item
  | _ => pure ()

/-- `_map_event`. -/
def map_event (py : Python F) (obj : Dict F) : Action F Unit := do
  let event_type := get_or obj "type" (.string [])
  if is_string event_type "thread.started" then
    match get obj "thread_id" with
    | .string thread_id =>
      set_session_id thread_id
      replace_session_id thread_id
    | _ => pure ()
  else if is_string event_type "turn.started" then
    pure ()
  else if is_string event_type "turn.completed" then
    set_status .idle
    put (.status_event .idle)
  else if is_string event_type "item.started" then
    map_item obj map_item_started
  else if is_string event_type "item.completed" then
    map_item obj (map_item_completed py)
  else if is_string event_type "item.streaming_delta" then
    map_item obj map_item_delta

/-- The arguments of a tool call that are read again: a text of a completed call with a name. -/
def arguments_of (obj : Dict F) : Option Str :=
  match get obj "item" with
  | .object item =>
    if is_string (get_or obj "type" (.string [])) "item.completed"
        && is_string (get_or item "type" (.string [])) "tool_call" then
      match get item "name", get item "arguments" with
      | .string _, .string arguments => some arguments
      | _, _ => none
    else none
  | _ => none

/-- The objects that are mapped: those whose arguments `json.loads` reads, or says are no
JSON. -/
def Mappable (py : Python F) (obj : Dict F) : Prop :=
  ∀ arguments, arguments_of obj = some arguments → py.loads arguments ≠ .raises

theorem puts_map_item_started (item : Dict F) : Puts (map_item_started item) :=
  Writes.ite (fun _ => puts_put_text _ _) fun _ => .ret _

theorem puts_map_item_delta (item : Dict F) : Puts (map_item_delta item) :=
  Writes.ite (fun _ => puts_put_text _ _) fun _ => .ret _

variable {py : Python F}

theorem puts_tool_input {value : Value F}
    (h : ∀ arguments, value = .string arguments → py.loads arguments ≠ .raises) :
    Puts (tool_input py value) := by
  unfold tool_input
  cases value with
  | string arguments =>
    have hloads := h arguments rfl
    simp only
    split
    · exact .ret _
    · exact .ret _
    · exact .ret _
    · contradiction
  | _ => exact .ret _

theorem puts_completed_tool_call {item : Dict F}
    (h : ∀ name arguments, get item "name" = .string name → get item "arguments" = .string arguments →
      py.loads arguments ≠ .raises) : Puts (completed_tool_call py item) := by
  unfold completed_tool_call
  cases hname : get item "name" with
  | string name => exact (puts_tool_input fun arguments => h name arguments hname).bind fun _ => puts_put _
  | _ => exact .ret _

theorem puts_completed_tool_result (py : Python F) (item : Dict F) :
    Puts (completed_tool_result py item) := by
  unfold completed_tool_result
  cases tool_of item with
  | none => exact .ret _
  | some name =>
    simp only
    split
    · exact puts_put _
    · exact puts_put _

theorem puts_map_item_completed {item : Dict F}
    (h : is_string (get_or item "type" (.string [])) "tool_call" = true →
      ∀ name arguments, get item "name" = .string name → get item "arguments" = .string arguments →
      py.loads arguments ≠ .raises) : Puts (map_item_completed py item) := by
  unfold map_item_completed
  refine .ite (fun _ => puts_put_text _ _) fun _ => ?_
  refine .ite (fun _ => puts_put_text _ _) fun _ => ?_
  refine .ite (fun hcall => puts_completed_tool_call (h hcall)) fun _ => ?_
  exact .ite (fun _ => puts_completed_tool_result py item) fun _ => .ret _

variable {obj : Dict F}

theorem puts_map_item {map : Dict F → Action F Unit}
    (h : ∀ item, get obj "item" = .object item → Puts (map item)) : Puts (map_item obj map) := by
  unfold map_item
  cases hitem : get obj "item" with
  | object item => exact h item hitem
  | _ => exact .ret _

theorem puts_map_event (h : Mappable py obj) : Puts (map_event py obj) := by
  unfold map_event
  refine .ite (fun _ => ?_) fun _ => ?_
  · split
    · exact (puts_set_session_id _).bind fun _ => puts_replace_session_id _
    · exact .ret _
  refine .ite (fun _ => .ret _) fun _ => ?_
  refine .ite (fun _ => (puts_set_status _).bind fun _ => puts_put _) fun _ => ?_
  refine .ite (fun _ => puts_map_item fun item _ => puts_map_item_started item) fun _ => ?_
  refine .ite (fun hcompleted => ?_) fun _ => ?_
  · refine puts_map_item fun item hitem =>
      puts_map_item_completed fun hcall name arguments hname harguments => ?_
    refine h arguments ?_
    unfold arguments_of
    rw [hitem, hcompleted]
    simp only [hcall, hname, harguments]
    rfl
  exact .ite (fun _ => puts_map_item fun item _ => puts_map_item_delta item) fun _ => .ret _

/-- An object with arguments is a completed tool call. -/
theorem of_arguments_of {arguments : Str} (h : arguments_of obj = some arguments) :
    ∃ item name, is_string (get_or obj "type" (.string [])) "item.completed" = true
      ∧ get obj "item" = .object item
      ∧ is_string (get_or item "type" (.string [])) "tool_call" = true
      ∧ get item "name" = .string name ∧ get item "arguments" = .string arguments := by
  unfold arguments_of at h
  split at h
  · rename_i item hitem
    split at h
    · rename_i hcall
      rw [Bool.and_eq_true] at hcall
      split at h
      · rename_i name text hname htext
        cases h
        exact ⟨item, name, hcall.1, hitem, hcall.2, hname, htext⟩
      · cases h
    · cases h
  · cases h

theorem raises_map_event (h : ¬Mappable py obj) : Raises (map_event py obj) := by
  unfold Mappable at h
  push Not at h
  obtain ⟨arguments, hof, hloads⟩ := h
  obtain ⟨item, name, hevent, hitem, hcall, hname, harguments⟩ := of_arguments_of hof
  have hother : ∀ other : String, str "item.completed" ≠ str other →
      is_string (get_or obj "type" (.string [])) other = false := fun other => is_string_ne hevent
  have hother_item : ∀ other : String, str "tool_call" ≠ str other →
      is_string (get_or item "type" (.string [])) other = false := fun other => is_string_ne hcall
  have hinput : Raises (tool_input py (get item "arguments")) := by
    unfold tool_input
    rw [harguments]
    simp only [hloads]
    exact Breaks.raise ()
  have hcompleted : Raises (map_item_completed py item) := by
    unfold map_item_completed completed_tool_call
    simp only [hother_item "agent_message" (by decide), hother_item "command_execution" (by decide), hcall,
      hname, Bool.false_eq_true, if_false, if_true]
    exact hinput.bind_left
  unfold map_event map_item
  simp only [hother "thread.started" (by decide), hother "turn.started" (by decide),
    hother "turn.completed" (by decide), hother "item.started" (by decide), hevent, hitem,
    Bool.false_eq_true, if_false, if_true]
  exact hcompleted

end Codex

/-! ## Claude Code -/

namespace ClaudeCode

/-- `_emit_tool_call`. -/
def emit_tool_call (payload : Dict F) : Action F Bool :=
  match extract_tool_payload payload with
  | some (tool_name, tool_input) => do
    match get_or payload "id" (get payload "tool_use_id") with
    | .string tool_use_id =>
      name_tool_call tool_use_id tool_name
      put (.tool_call tool_name tool_input)
      pure true
    | _ =>
      put (.tool_call tool_name tool_input)
      pure true
  | none => pure false

/-- `_stringify_output`, of one item of a list. -/
def stringify_item (py : Python F) : Value F → Str
  | .object item =>
    (first_string [get item "text", get item "content"]).getD (py.dumps_compact (.object item))
  | item => py.to_str item

/-- `_stringify_output`. -/
def stringify_output (py : Python F) : Value F → Str
  | .string output => output
  | .null => []
  | .array items => (items.map (stringify_item py)).flatten
  | output => py.dumps_compact output

/-- The name of the tool of a result: its own, or that of the call that it names. -/
def tool_of_result (payload : Dict F) : Action F (Option Str) :=
  match tool_of payload with
  | some tool_name => pure (some tool_name)
  | none => match get payload "tool_use_id" with
    | .string tool_use_id => pop_tool_call tool_use_id
    | _ => pure none

/-- `_emit_tool_result`. -/
def emit_tool_result (py : Python F) (payload : Dict F) : Action F Bool := do
  match ← tool_of_result payload with
  | none => pure false
  | some tool_name =>
    put (.tool_result tool_name (stringify_output py
      (get_or payload "output" (get_or payload "result" (get_or payload "content" (.string []))))))
    pure true

/-- `_emit_content_item`. -/
def emit_content_item (py : Python F) (item : Dict F) : Action F Bool :=
  match first_string [get item "type"] with
  | none => pure false
  | some item_type =>
    if item_type = str "text" then
      put_first .text_delta [get item "text", get item "content"]
    else if item_type = str "thinking" ∨ item_type = str "reasoning" then
      put_first .reasoning_delta [get item "thinking", get item "text", get item "content"]
    else if item_type = str "tool_use" then emit_tool_call item
    else if item_type = str "tool_result" then emit_tool_result py item
    else pure false

/-- `_emit_content_items`, of the items of a list. -/
def emit_items (py : Python F) : List (Value F) → Action F Bool
  | [] => pure false
  | .object item :: items => do
    let emitted ← emit_content_item py item
    let others ← emit_items py items
    pure (emitted || others)
  | _ :: items => emit_items py items

/-- `_emit_content_items`. -/
def emit_content_items (py : Python F) : Value F → Action F Bool
  | .array items => emit_items py items
  | _ => pure false

/-- `_capture_session_id`. -/
def capture_session_id (obj data : Dict F) : Action F Unit :=
  match first_string [get obj "session_id", get obj "sessionId", get data "session_id",
      get data "sessionId"] with
  | some session_id => do
    modify fun kernel => { kernel with resume_session_id := some session_id }
    replace_session_id session_id
  | none => pure ()

/-- Some of the words is in the event type. -/
def looks_like (event_type : Value F) (words : List String) : Bool :=
  match event_type with
  | .string text => words.any fun word => decide (str word <:+: text)
  | _ => false

/-- `_map_event`, behind the content: texts, then the status. -/
def map_rest (event_type : Value F) (obj data message : Dict F) : Action F Unit := do
  let direct_text := first_string [get data "text", get data "delta", get data "content",
    get data "message", get message "text", get message "content", get obj "text", get obj "content"]
  if direct_text.isSome && looks_like event_type ["text", "message", "assistant"] then
    put (.text_delta (direct_text.getD []))
  else
    let status := first_string [get data "status", get obj "status"]
    if status = some (str "busy") ∨ status = some (str "in_progress") then
      set_status .busy
      put (.status_event .busy)
    else if status = some (str "completed") ∨ status = some (str "done") ∨ status = some (str "idle") then
      set_status .idle
      put (.status_event .idle)
    else if ← in_set event_type ["assistant.turn_end", "message_stop", "result"] then
      set_status .idle
      put (.status_event .idle)

/-- `_map_event`, of `content_block_delta`. -/
def map_delta (delta : Dict F) : Action F Unit := do
  if is_string (get delta "type") "text_delta" then
    let _ ← put_first .text_delta [get delta "text", get delta "delta"]
  else if ← in_set (get delta "type") ["thinking_delta", "reasoning_delta"] then
    let _ ← put_first .reasoning_delta [get delta "text", get delta "thinking"]

/-- `_map_event`, of what is known by its content. -/
def map_content (py : Python F) (event_type : Value F) (obj data message delta : Dict F) :
    Action F Unit := do
  if ← emit_content_items py (get message "content") then
    pure ()
  else if ← emit_content_items py (get data "content") then
    pure ()
  else if looks_like event_type ["reasoning", "thinking"] then
    if ← put_first .reasoning_delta [get data "thinking", get data "text", get data "content",
        get delta "text"] then
      pure ()
    else
      map_rest event_type obj data message
  else
    map_rest event_type obj data message

/-- `_map_event`. -/
def map_event (py : Python F) (obj : Dict F) : Action F Unit := do
  let event_type := get_or obj "type" (.string [])
  let data := mapping_or_empty (get obj "data")
  let message := mapping_or_empty (get obj "message")
  let delta := mapping_or_empty (get obj "delta")
  capture_session_id obj data
  if is_string event_type "content_block_delta" then
    map_delta delta
  else if is_string event_type "content_block_start" then
    let content_block := mapping_or_empty (get_or data "content_block" (get obj "content_block"))
    if content_block.isEmpty then
      pure ()
    else
      let _ ← emit_content_item py content_block
  else if ← in_set event_type ["tool_use", "tool_call", "tool_request"] then
    let _ ← emit_tool_call (if data.isEmpty then obj else data)
  else if ← in_set event_type ["tool_result", "tool_response"] then
    let _ ← emit_tool_result py (if data.isEmpty then obj else data)
  else
    map_content py event_type obj data message delta

/-- The objects that are mapped: those whose type, and of a delta the type of it, can be
hashed. -/
def Mappable (obj : Dict F) : Prop :=
  unhashable (get_or obj "type" (.string [])) = false
    ∧ (is_string (get_or obj "type" (.string [])) "content_block_delta" = true →
      unhashable (get (mapping_or_empty (get obj "delta")) "type") = false)

theorem puts_emit_tool_call (payload : Dict F) : Puts (emit_tool_call payload) := by
  unfold emit_tool_call
  cases extract_tool_payload payload with
  | none => exact .ret _
  | some call =>
    simp only
    split
    · refine (puts_name_tool_call _ _).bind fun _ => ?_
      exact (puts_put _).bind fun _ => .ret _
    · exact (puts_put _).bind fun _ => .ret _

theorem puts_tool_of_result (payload : Dict F) : Puts (tool_of_result payload) := by
  unfold tool_of_result
  cases tool_of payload with
  | some tool_name => exact .ret _
  | none =>
    simp only
    split
    · exact puts_pop_tool_call _
    · exact .ret _

variable (py : Python F)

theorem puts_emit_tool_result (payload : Dict F) : Puts (emit_tool_result py payload) := by
  refine (puts_tool_of_result payload).bind fun tool_name => ?_
  cases tool_name with
  | none => exact .ret _
  | some tool_name => exact (puts_put _).bind fun _ => .ret _

theorem puts_emit_content_item (item : Dict F) : Puts (emit_content_item py item) := by
  unfold emit_content_item
  cases first_string [get item "type"] with
  | none => exact .ret _
  | some item_type =>
    refine .ite (fun _ => puts_put_first _ _) fun _ => ?_
    refine .ite (fun _ => puts_put_first _ _) fun _ => ?_
    refine .ite (fun _ => puts_emit_tool_call item) fun _ => ?_
    exact .ite (fun _ => puts_emit_tool_result py item) fun _ => .ret _

theorem puts_emit_items (items : List (Value F)) : Puts (emit_items py items) := by
  induction items with
  | nil => exact .ret _
  | cons item items ih =>
    cases item with
    | object item =>
      refine (puts_emit_content_item py item).bind fun _ => ?_
      exact ih.bind fun _ => .ret _
    | _ => exact ih

theorem puts_emit_content_items (content : Value F) : Puts (emit_content_items py content) := by
  unfold emit_content_items
  cases content with
  | array items => exact puts_emit_items py items
  | _ => exact .ret _

theorem puts_capture_session_id (obj data : Dict F) : Puts (capture_session_id obj data) := by
  unfold capture_session_id
  split
  · exact .bind (Writes.update fun _ => .of_eq rfl) fun _ => puts_replace_session_id _
  · exact .ret _

theorem puts_map_rest {event_type : Value F} (obj data message : Dict F)
    (h : unhashable event_type = false) : Puts (map_rest event_type obj data message) := by
  have hbusy : ∀ status : KernelStatus, Puts (do set_status status; put (.status_event status) :
      Action F Unit) := fun status => (puts_set_status _).bind fun _ => puts_put _
  unfold map_rest
  refine .ite (fun _ => puts_put _) fun _ => ?_
  refine .ite (fun _ => hbusy .busy) fun _ => ?_
  refine .ite (fun _ => hbusy .idle) fun _ => ?_
  exact (puts_in_set _ h).bind fun _ => .ite (fun _ => hbusy .idle) fun _ => .ret _

theorem puts_map_delta {delta : Dict F} (h : unhashable (get delta "type") = false) :
    Puts (map_delta delta) := by
  unfold map_delta
  refine .ite (fun _ => ?_) fun _ => ?_
  · exact (puts_put_first _ _).bind fun _ => .ret _
  refine (puts_in_set _ h).bind fun _ => .ite (fun _ => ?_) fun _ => .ret _
  exact (puts_put_first _ _).bind fun _ => .ret _

theorem puts_map_content {event_type : Value F} (obj data message delta : Dict F)
    (h : unhashable event_type = false) : Puts (map_content py event_type obj data message delta) := by
  unfold map_content
  refine (puts_emit_content_items py _).bind fun _ => .ite (fun _ => .ret _) fun _ => ?_
  refine (puts_emit_content_items py _).bind fun _ => .ite (fun _ => .ret _) fun _ => ?_
  refine .ite (fun _ => ?_) fun _ => puts_map_rest obj data message h
  refine (puts_put_first _ _).bind fun _ => .ite (fun _ => .ret _) fun _ => ?_
  exact puts_map_rest obj data message h

theorem puts_map_event {obj : Dict F} (h : Mappable obj) : Puts (map_event py obj) := by
  unfold map_event
  refine (puts_capture_session_id obj _).bind fun _ => ?_
  refine .ite (fun hdelta => puts_map_delta (h.2 hdelta)) fun _ => ?_
  refine .ite (fun _ => ?_) fun _ => ?_
  · refine .ite (fun _ => .ret _) fun _ => ?_
    exact (puts_emit_content_item py _).bind fun _ => .ret _
  refine (puts_in_set _ h.1).bind fun _ => .ite (fun _ => ?_) fun _ => ?_
  · exact (puts_emit_tool_call _).bind fun _ => .ret _
  refine (puts_in_set _ h.1).bind fun _ => .ite (fun _ => ?_) fun _ => ?_
  · exact (puts_emit_tool_result py _).bind fun _ => .ret _
  exact puts_map_content py obj _ _ _ h.1

theorem raises_map_event {obj : Dict F} (h : ¬Mappable obj) : Raises (map_event py obj) := by
  unfold map_event
  refine (puts_capture_session_id obj _).bind_breaks fun _ => ?_
  by_cases hraises : unhashable (get_or obj "type" (.string [])) = true
  · simp only [is_string_of_unhashable _ hraises, Bool.false_eq_true, if_false]
    exact (raises_in_set _ hraises).bind_left
  · -- the type can be hashed, so it is the type of the delta that cannot
    have hdelta : is_string (get_or obj "type" (.string [])) "content_block_delta" = true
        ∧ unhashable (get (mapping_or_empty (get obj "delta")) "type") = true := by
      by_contra hdelta
      refine h ⟨by simpa using hraises, fun hevent => ?_⟩
      by_contra hunhashable
      exact hdelta ⟨hevent, by simpa using hunhashable⟩
    rw [if_pos hdelta.1]
    unfold map_delta
    simp only [is_string_of_unhashable _ hdelta.2, Bool.false_eq_true, if_false]
    exact (raises_in_set _ hdelta.2).bind_left

end ClaudeCode

end AgentSpace.Kernels
