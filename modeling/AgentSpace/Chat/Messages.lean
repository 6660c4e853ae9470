/-
The assistant message of a turn, as the chat service computes it and as the web client follows it.

`assistant_message_from_events` reads the whole list of events, in one pass for each of its
parts; `applyEventToAssistant` changes a message by one event.
-/
import AgentSpace.Chat.Json

set_option autoImplicit false

namespace AgentSpace.Chat

open Text

variable {N : Type}

/-! ## Events and messages -/

/-- What the two sides read of a kernel event. -/
structure KernelEvent (N : Type) where
  type : Text
  content : Option Text
  tool : Option Text
  input : Option (JsonObject N)
  output : Option Text
  message : Option Text
  error : Option (JsonObject N)
  update : Option (JsonObject N)

/-- An event of a type, with nothing else. -/
def KernelEvent.of_type (type : String) : KernelEvent N :=
  ⟨lit type, none, none, none, none, none, none, none⟩

/-- The update of an event, if it is of a kind. -/
def KernelEvent.update_of (event : KernelEvent N) (kind : String) : Option (JsonObject N) :=
  event.update.filter fun update => get_str update "sessionUpdate" = some (lit kind)

/-- `ToolCallRecord`, and `ToolCall` of the client. -/
structure ToolCall where
  tool : Text
  tool_call_id : Option Text
  status : Option Text
  kind : Option Text
  input : Option Text
  output : Option Text
  content_offset : Option ℕ
  deriving DecidableEq

/-- `ToolCallRecord::new`. -/
def ToolCall.new (tool : Text) : ToolCall := ⟨tool, none, none, none, none, none, none⟩

/-- A call has its output. -/
def ToolCall.with_output (output : Text) (call : ToolCall) : ToolCall := { call with output := some output }

/-- `MessageRecord`, what is computed from events. -/
structure MessageRecord where
  content : Text
  reasoning : Text
  tool_calls : List ToolCall
  deriving DecidableEq

/-- `ChatMessage`; what is missing is `undefined`. -/
structure ChatMessage where
  content : Text
  reasoning : Option Text
  tool_calls : Option (List ToolCall)
  deriving DecidableEq

/-- An assistant message with nothing in it. -/
def ChatMessage.empty : ChatMessage := ⟨[], none, none⟩

/-! ## The service -/

namespace Service

variable (style : Style N)

/-- `session_update`. -/
def session_update (event : KernelEvent N) : Option (JsonObject N) :=
  if event.type = lit "session/update" then event.update else none

/-- `optional_non_empty_string`. -/
def optional_non_empty_string (object : JsonObject N) (key : String) : Option Text :=
  (get_str object key).filter fun value => value ≠ []

/-- `trimmed_char_count`. -/
def trimmed_char_count (value : Text) : ℕ := (trim value).length

/-- `terminal_output_delta`. -/
def terminal_output_delta (update : JsonObject N) : Option Text := do
  let fields ← (← get update "_meta").as_object
  let terminal_output ← (← get fields "terminal_output").as_object
  optional_non_empty_string terminal_output "data"

/-- `tool_output`. -/
def tool_output (update : JsonObject N) : Option Text :=
  match get update "rawOutput" with
  | some raw_output => style.json_text raw_output
  | none =>
    let content := style.content_text_of (get update "content")
    if content = [] then none else some content

/-- The chunk of an event in `flatten_text`. -/
def text_chunk (event : KernelEvent N) : Option Text :=
  if event.type = lit "text_delta" then event.content
  else
    match event.update_of "agent_message_chunk" with
    | some update => some (style.content_text_of (get update "content"))
    | none =>
      if event.type = lit "session/error" then
        (event.message.or (event.error.bind fun error => get_str error "message")).map
          fun message => lit "Error: " ++ message
      else none

/-- `flatten_text`. -/
def flatten_text (events : List (KernelEvent N)) : Text :=
  trim (events.filterMap (text_chunk style)).flatten

/-- The chunk of an event in `flatten_reasoning`. -/
def reasoning_chunk (event : KernelEvent N) : Option Text :=
  if event.type = lit "reasoning_delta" then event.content
  else
    (event.update_of "agent_thought_chunk").map fun update =>
      style.content_text_of (get update "content")

/-- `flatten_reasoning`. -/
def flatten_reasoning (events : List (KernelEvent N)) : Text :=
  trim (events.filterMap (reasoning_chunk style)).flatten

/-- The local variables of `extract_tool_calls`. -/
structure Extracted where
  calls : List ToolCall
  by_id : Text → Option ℕ
  content : Text

/-- `apply_legacy_tool_result`. -/
def apply_legacy_tool_result (calls : List ToolCall) (tool : Text) (output : Option Text) : List ToolCall :=
  match output, calls.findIdx? fun call => call.tool = tool ∧ call.output = none with
  | some output, some index => calls.modify index (ToolCall.with_output output)
  | _, _ => calls

/-- `upsert_tool_call`, of a call that is there. -/
def update_tool_call (update : JsonObject N) (call : ToolCall) : ToolCall :=
  let call := { call with
    tool := (optional_non_empty_string update "title").getD call.tool
    status := (optional_non_empty_string update "status").or call.status
    kind := (optional_non_empty_string update "kind").or call.kind
    input := (get update "rawInput").elim call.input style.json_text
    output := (tool_output style update).or call.output }
  match terminal_output_delta update with
  | some chunk => { call with output := some (call.output.getD [] ++ chunk) }
  | none => call

/-- `upsert_tool_call`. -/
def upsert_tool_call (update : JsonObject N) (content_offset : ℕ) (calls : List ToolCall)
    (by_id : Text → Option ℕ) : List ToolCall × (Text → Option ℕ) :=
  let tool_call_id := get_str update "toolCallId"
  match tool_call_id.bind by_id with
  | some index => (calls.modify index (update_tool_call style update), by_id)
  | none =>
    let title := ((optional_non_empty_string update "title").or
      (tool_call_id.filter fun value => value ≠ [])).getD (lit "tool")
    let call := { ToolCall.new title with
      tool_call_id := tool_call_id
      content_offset := some content_offset }
    ((calls ++ [call]).modify calls.length (update_tool_call style update),
      match tool_call_id with
      | some tool_call_id => Function.update by_id tool_call_id (some calls.length)
      | none => by_id)

/-- The round of `extract_tool_calls` for an update of the protocol. -/
def extract_update (update : JsonObject N) (s : Extracted) : Extracted :=
  if get_str update "sessionUpdate" = some (lit "agent_message_chunk") then
    { s with content := s.content ++ style.content_text_of (get update "content") }
  else if get_str update "sessionUpdate" = some (lit "tool_call")
      ∨ get_str update "sessionUpdate" = some (lit "tool_call_update") then
    let upserted := upsert_tool_call style update (trimmed_char_count s.content) s.calls s.by_id
    { s with calls := upserted.1, by_id := upserted.2 }
  else s

/-- The round of `extract_tool_calls` for an event. -/
def extract (event : KernelEvent N) (s : Extracted) : Extracted :=
  if event.type = lit "text_delta" then { s with content := s.content ++ event.content.getD [] }
  else if event.type = lit "tool_call" then
    event.tool.elim s fun tool => { s with calls := s.calls ++ [{ ToolCall.new tool with
      input := event.input.bind fun input => style.json_text (.object input)
      content_offset := some (trimmed_char_count s.content) }] }
  else if event.type = lit "tool_result" then
    event.tool.elim s fun tool => { s with calls := apply_legacy_tool_result s.calls tool event.output }
  else
    (session_update event).elim s fun update => extract_update style update s

/-- `extract_tool_calls`, with its local variables. -/
def extracted (events : List (KernelEvent N)) : Extracted :=
  events.foldl (fun s event => extract style event s) ⟨[], fun _ => none, []⟩

/-- `extract_tool_calls`. -/
def extract_tool_calls (events : List (KernelEvent N)) : List ToolCall := (extracted style events).calls

/-- `assistant_message_from_events`. -/
def assistant_message_from_events (events : List (KernelEvent N)) : MessageRecord where
  content := flatten_text style events
  reasoning := flatten_reasoning style events
  tool_calls := extract_tool_calls style events

end Service

/-! ## The client -/

namespace Client

variable (style : Style N)

/-- `WhiteSpace` and `LineTerminator` of JavaScript. -/
def is_js_space (c : Char) : Bool := (is_whitespace c && c.toNat != 0x85) || c.toNat == 0xFEFF

/-- `value.trim()`. -/
def js_trim (value : Text) : Text := (value.dropWhile is_js_space).rdropWhile is_js_space

/-- `characterLength(value.trim())`. -/
def trimmed_length (value : Text) : ℕ := (js_trim value).length

/-- A text that is not empty, in a condition. -/
def truthy (value : Option Text) : Option Text := value.filter fun value => value ≠ []

/-- `typeof update.title === "string" && update.title ? update.title : other`. -/
def title_or (update : JsonObject N) (other : Text) : Text := (truthy (get_str update "title")).getD other

/-- `terminalOutputDelta`. -/
def terminal_output_delta (update : JsonObject N) : Option Text := do
  let fields ← (← get update "_meta").as_object
  let terminal_output ← (← get fields "terminal_output").as_object
  truthy (get_str terminal_output "data")

/-- `toolOutput`. -/
def tool_output (update : JsonObject N) : Option Text :=
  match get update "rawOutput" with
  | some raw_output => style.json_text raw_output
  | none => truthy (some (style.content_text_of (get update "content")))

/-- `upsertToolCall`, of the call at the index. -/
def patch_tool_call (update : JsonObject N) (current : ToolCall) : ToolCall :=
  let terminal_chunk := terminal_output_delta update
  let output := (tool_output style update).or current.output
  { current with
    tool := title_or update current.tool
    status := (get_str update "status").or current.status
    kind := (get_str update "kind").or current.kind
    input := (get update "rawInput").elim current.input style.json_text
    output := match terminal_chunk with
      | none => output
      | some terminal_chunk => some (output.getD [] ++ terminal_chunk) }

/-- `upsertToolCall`. -/
def upsert_tool_call (message : ChatMessage) (update : JsonObject N) : ChatMessage :=
  let tool_call_id := get_str update "toolCallId"
  let tool_calls := message.tool_calls.getD []
  let found := (truthy tool_call_id).bind fun id =>
    tool_calls.findIdx? fun tool_call => tool_call.tool_call_id = some id
  match found with
  | some tool_index =>
    { message with tool_calls := some (tool_calls.modify tool_index (patch_tool_call style update)) }
  | none =>
    let tool_call := { ToolCall.new (title_or update (tool_call_id.getD (lit "tool"))) with
      tool_call_id := tool_call_id
      content_offset := some (trimmed_length message.content) }
    { message with
      tool_calls := some ((tool_calls ++ [tool_call]).modify tool_calls.length
        (patch_tool_call style update)) }

/-- `{ plan: update.entries }`. -/
def plan (update : JsonObject N) : Json N :=
  .object (match get update "entries" with
    | some entries => [(lit "plan", entries)]
    | none => [])

/-- `applyAcpUpdateToAssistant`. -/
def apply_acp_update_to_assistant (message : ChatMessage) (update : JsonObject N) : ChatMessage :=
  let session_update := get_str update "sessionUpdate"
  if session_update = some (lit "agent_message_chunk") then
    { message with content := message.content ++ style.content_text_of (get update "content") }
  else if session_update = some (lit "agent_thought_chunk") then
    { message with
      reasoning := some (message.reasoning.getD [] ++ style.content_text_of (get update "content")) }
  else if session_update = some (lit "plan") then
    { message with
      reasoning := some (message.reasoning.getD [] ++ style.stringify (some 0) (plan update)) }
  else if session_update = some (lit "tool_call") ∨ session_update = some (lit "tool_call_update") then
    upsert_tool_call style message update
  else message

/-- The result of a tool, for the first of its calls that has none. -/
def apply_tool_result (message : ChatMessage) (tool output : Text) : ChatMessage :=
  let tool_calls := message.tool_calls.getD []
  match tool_calls.findIdx? fun tool_call => tool_call.tool = tool ∧ tool_call.output = none with
  | some tool_index =>
    { message with tool_calls := some (tool_calls.modify tool_index (ToolCall.with_output output)) }
  | none => message

/-- `applyEventToAssistant`. -/
def apply_event_to_assistant (message : ChatMessage) (event : KernelEvent N) : ChatMessage :=
  if event.type = lit "session/update" ∧ event.update.isSome then
    apply_acp_update_to_assistant style message (event.update.getD [])
  else if event.type = lit "text_delta" ∧ (truthy event.content).isSome then
    { message with content := message.content ++ event.content.getD [] }
  else if event.type = lit "reasoning_delta" ∧ (truthy event.content).isSome then
    { message with reasoning := some (message.reasoning.getD [] ++ event.content.getD []) }
  else if event.type = lit "tool_call" ∧ (truthy event.tool).isSome then
    { message with tool_calls := some (message.tool_calls.getD [] ++
        [{ ToolCall.new (event.tool.getD []) with
            input := event.input.map fun input => style.stringify (some 0) (.object input)
            content_offset := some (trimmed_length message.content) }]) }
  else if event.type = lit "tool_result" ∧ (truthy event.tool).isSome ∧ event.output.isSome then
    apply_tool_result message (event.tool.getD []) (event.output.getD [])
  else message

end Client

end AgentSpace.Chat
