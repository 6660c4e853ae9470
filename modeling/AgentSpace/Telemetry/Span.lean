/-
The spans of the telemetry log: `kernel_host/telemetry.py`, as far as they form the graph
of calls.

A record becomes a span (`normalize_span`), which is kept under its encoded key unless one
is kept there already (`SpanTable.ingest`). Nothing is asked of the parent a record names.
-/
import Mathlib.Data.List.Nodup
import Mathlib.Data.Int.Notation

set_option autoImplicit false

namespace AgentSpace.Telemetry

/-! ## Values -/

/-- A Python `str`: its code points, surrogates included. -/
abbrev Str := List (Fin 0x110000)

instance neZero_points : @NeZero ℕ Zero.ofOfNat0 0x110000 := ⟨by decide⟩

instance lawfulBEq_point : LawfulBEq (Fin 0x110000) := inferInstance

instance lawfulBEq_str : LawfulBEq Str := inferInstance

/-- A literal. -/
def str (s : String) : Str := s.toList.map fun c => Fin.ofNat 0x110000 c.toNat

/-- What `json.loads` returns. Of a float it is only kept whether it is an integer,
and which one. -/
inductive Json where
  | null
  | bool (b : Bool)
  | int (n : ℤ)
  | float (integral : Option ℤ)
  | string (s : Str)
  | array (items : List Json)
  | object (entries : List (Str × Json))

/-- `int(value)` for a string, which is Python's own. -/
structure Python where
  int_of_str : Str → Option ℤ

/-- `dict.get`. -/
def get (entries : List (Str × Json)) (key : String) : Json :=
  (entries.lookup (str key)).getD .null

/-- `_parse_string`. -/
def parse_string : Json → Option Str
  | .string s => some s
  | _ => none

/-- `_mapping`. -/
def mapping : Json → Option (List (Str × Json))
  | .object entries => some entries
  | _ => none

/-- `_parse_int`. -/
def parse_int (py : Python) : Json → Option ℤ
  | .int n => some n
  | .float integral => integral
  | .string s => py.int_of_str s
  | _ => none

/-- `_parse_timestamp_ns`. -/
def parse_timestamp_ns (py : Python) : Json → Option ℤ
  | .array [seconds, nanos] =>
    match parse_int py seconds, parse_int py nanos with
    | some seconds, some nanos =>
      if nanos < 0 ∨ nanos ≥ 1000000000 then none else some (seconds * 1000000000 + nanos)
    | _, _ => none
  | _ => none

/-- `_bounded_string`, without its warning. -/
def bounded_string (max_string_length : ℕ) (value : Json) : Option Str :=
  (parse_string value).map (List.take max_string_length)

/-- Python's `or` between strings: an empty string counts for nothing. -/
def str_or (a b : Option Str) : Option Str :=
  match a with
  | some [] | none => b
  | some s => some s

/-! ## Spans -/

/-- `_SpanKind`. -/
inductive SpanKind where
  | AGENT
  | MODEL_CALL
  | TOOL_CALL
  | OTHER
  deriving DecidableEq

/-- `_SpanKey`. -/
structure SpanKey where
  trace_id : Str
  span_id : Str
  deriving DecidableEq

/-- The lookup key of a span of a trace. -/
def encode (trace_id span_id : Str) : Str := trace_id ++ str ":" ++ span_id

/-- `_SpanKey.encoded`. -/
def SpanKey.encoded (key : SpanKey) : Str := encode key.trace_id key.span_id

/-- `_TelemetrySpan`. Whether there is a usage is all that is kept of it. -/
structure TelemetrySpan where
  key : SpanKey
  parent_span_id : Option Str
  kind : SpanKind
  name : Str
  started_at_ns : ℤ
  ended_at_ns : ℤ
  model : Option Str
  requested_model : Option Str
  conversation_id : Option Str
  agent_id : Option Str
  agent_name : Option Str
  has_usage : Bool
  deriving DecidableEq

/-- `name == prefix or name.startswith(f"{prefix} ")`. -/
def names (name word : Str) : Bool := name = word || (word ++ str " ").isPrefixOf name

/-- `_classify_span`. -/
def classify_span (name : Str) : SpanKind :=
  if names name (str "invoke_agent") then .AGENT
  else if names name (str "chat") then .MODEL_CALL
  else if names name (str "execute_tool") then .TOOL_CALL
  else .OTHER

/-- `_span_suffix`. -/
def span_suffix (name word : Str) : Option Str :=
  if name = word then none
  else if (word ++ str " ").isPrefixOf name then some (name.drop (word.length + 1))
  else none

/-- `_normalize_span`. -/
def normalize_span (py : Python) (max_string_length : ℕ) (record : List (Str × Json)) :
    Option TelemetrySpan := do
  let bounded := bounded_string max_string_length
  let trace_id ← bounded (get record "traceId")
  let span_id ← bounded (get record "spanId")
  let started_at_ns ← parse_timestamp_ns py (get record "startTime")
  let ended_at_ns ← parse_timestamp_ns py (get record "endTime")
  if ended_at_ns < started_at_ns then none
  let name ← bounded (get record "name")
  let attributes := (mapping (get record "attributes")).getD []
  let kind := classify_span name
  some {
    key := ⟨trace_id, span_id⟩
    parent_span_id := bounded (get record "parentSpanId")
    kind := kind
    name := name
    started_at_ns := started_at_ns
    ended_at_ns := ended_at_ns
    model := str_or (str_or (bounded (get attributes "gen_ai.response.model"))
      (bounded (get attributes "gen_ai.request.model"))) (span_suffix name (str "chat"))
    requested_model := bounded (get attributes "gen_ai.request.model")
    conversation_id := bounded (get attributes "gen_ai.conversation.id")
    agent_id := bounded (get attributes "gen_ai.agent.id")
    agent_name := str_or (bounded (get attributes "gen_ai.agent.name"))
      (span_suffix name (str "invoke_agent"))
    has_usage := kind = .MODEL_CALL }

/-! ## The spans kept -/

/-- `_spans`, and the `span_index` made of it: the spans in the order they came, no
two under one encoded key. -/
structure SpanTable where
  spans : List TelemetrySpan
  nodup : (spans.map fun span => span.key.encoded).Nodup

namespace SpanTable

/-- No spans. -/
def empty : SpanTable := ⟨[], List.nodup_nil⟩

/-- `span_index.get`. -/
def get (table : SpanTable) (key : Str) : Option TelemetrySpan :=
  table.spans.find? fun span => span.key.encoded = key

/-- The span is kept, if there is room and none is kept under its key. -/
def ingest (max_distinct_spans : ℕ) (table : SpanTable) (span : TelemetrySpan) : SpanTable :=
  if h : span.key.encoded ∈ table.spans.map (fun s => s.key.encoded) then table
  else if table.spans.length ≥ max_distinct_spans then table
  else ⟨table.spans ++ [span], by
    rw [List.map_append, List.map_singleton, List.nodup_append]
    refine ⟨table.nodup, List.nodup_singleton _, ?_⟩
    intro a ha b hb hab
    rw [List.mem_singleton.1 hb] at hab
    exact h (hab ▸ ha)⟩

theorem mem_of_get {table : SpanTable} {key : Str} {span : TelemetrySpan}
    (h : table.get key = some span) : span ∈ table.spans :=
  List.mem_of_find?_eq_some h

theorem eq_of_encoded {table : SpanTable} {a b : TelemetrySpan} (ha : a ∈ table.spans)
    (hb : b ∈ table.spans) (h : a.key.encoded = b.key.encoded) : a = b :=
  List.inj_on_of_nodup_map table.nodup ha hb h

end SpanTable

end AgentSpace.Telemetry
