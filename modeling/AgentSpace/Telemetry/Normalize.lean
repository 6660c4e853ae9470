/-
What the telemetry reader makes of a record: `_normalize_span` and what it calls.

A computation of the reader records warnings on its way, may find that content was
captured, and may end in an exception (`Noted`). Apart from these notes it depends on
the record and the limits only.
-/
import AgentSpace.Telemetry.Python

set_option autoImplicit false

namespace AgentSpace.Telemetry.Otel

/-! ## Enumerations -/

/-- `TelemetryContentMode`. -/
inductive TelemetryContentMode where
  | METADATA
  | CONTENT
  | POLICY_CONFLICT
  deriving DecidableEq

/-- `CacheReportingState`. -/
inductive CacheReportingState where
  | REPORTED
  | UNREPORTED
  deriving DecidableEq

/-- `TokenAccountingConvention`. -/
inductive TokenAccountingConvention where
  | INCLUSIVE
  | ADDITIVE
  | UNKNOWN
  deriving DecidableEq

/-- `TelemetryWarningCode`. -/
inductive TelemetryWarningCode where
  | CHECKPOINT_CORRUPT
  | CHECKPOINT_NEWER_VERSION
  | CONTENT_POLICY_CONFLICT
  | DUPLICATE_CONFLICT
  | FIELD_TRUNCATED
  | FILE_LIMIT_EXCEEDED
  | INVALID_USAGE_SHAPE
  | LINE_TOO_LONG
  | MALFORMED_RECORD
  | PARTIAL_RECORD_DISCARDED
  | SIZE_LIMIT_EXCEEDED
  | SOURCE_FILE_CHANGED
  | SPAN_LIMIT_EXCEEDED
  | UNKNOWN_RECORD
  deriving DecidableEq

def TelemetryContentMode.value : TelemetryContentMode → String
  | METADATA => "metadata"
  | CONTENT => "content"
  | POLICY_CONFLICT => "policy_conflict"

def CacheReportingState.value : CacheReportingState → String
  | REPORTED => "reported"
  | UNREPORTED => "unreported"

def TokenAccountingConvention.value : TokenAccountingConvention → String
  | INCLUSIVE => "inclusive"
  | ADDITIVE => "additive"
  | UNKNOWN => "unknown"

def TelemetryWarningCode.value : TelemetryWarningCode → String
  | CHECKPOINT_CORRUPT => "checkpoint_corrupt"
  | CHECKPOINT_NEWER_VERSION => "checkpoint_newer_version"
  | CONTENT_POLICY_CONFLICT => "content_policy_conflict"
  | DUPLICATE_CONFLICT => "duplicate_conflict"
  | FIELD_TRUNCATED => "field_truncated"
  | FILE_LIMIT_EXCEEDED => "file_limit_exceeded"
  | INVALID_USAGE_SHAPE => "invalid_usage_shape"
  | LINE_TOO_LONG => "line_too_long"
  | MALFORMED_RECORD => "malformed_record"
  | PARTIAL_RECORD_DISCARDED => "partial_record_discarded"
  | SIZE_LIMIT_EXCEEDED => "size_limit_exceeded"
  | SOURCE_FILE_CHANGED => "source_file_changed"
  | SPAN_LIMIT_EXCEEDED => "span_limit_exceeded"
  | UNKNOWN_RECORD => "unknown_record"

/-- The value of a `_SpanKind`. -/
def span_kind_value : SpanKind → String
  | .AGENT => "agent"
  | .MODEL_CALL => "model_call"
  | .TOOL_CALL => "tool_call"
  | .OTHER => "other"

/-! ## Settings -/

/-- `TelemetryReaderLimits`. -/
structure TelemetryReaderLimits where
  max_files : ℕ := 256
  max_total_bytes : ℕ := 64 * 1024 * 1024
  max_line_bytes : ℕ := 512 * 1024
  max_distinct_spans : ℕ := 50000
  max_checkpoint_bytes : ℕ := 8 * 1024 * 1024
  max_checkpoint_uncompressed_bytes : ℕ := 64 * 1024 * 1024
  max_string_length : ℕ := 256
  max_tool_definitions : ℕ := 64

/-- What a reader is made with, and the library it runs on. -/
structure Settings (F : Type) where
  py : Python F
  limits : TelemetryReaderLimits
  default_token_accounting_convention : Option TokenAccountingConvention

/-! ## Records of the reader -/

/-- `UsageBreakdown`. -/
structure UsageBreakdown (F : Type) where
  raw_input_tokens : Option ℤ := none
  effective_input_tokens : Option ℤ := none
  output_tokens : Option ℤ := none
  total_tokens : Option ℤ := none
  reasoning_output_tokens : Option ℤ := none
  cache_read_input_tokens : Option ℤ := none
  cache_write_input_tokens : Option ℤ := none
  other_input_tokens : Option ℤ := none
  fresh_input_tokens : Option ℤ := none
  cache_reuse_percent : Option F := none
  nano_aiu : Option ℤ := none
  opaque_cost : Option F := none
  deriving DecidableEq

/-- `ContextUsage`. -/
structure ContextUsage where
  tokens : Option ℤ := none
  limit : Option ℤ := none
  message_count : Option ℤ := none
  observed_at : Option Str := none
  deriving DecidableEq

/-- `_ModelUsageDetails`. -/
structure ModelUsageDetails (F : Type) where
  usage : UsageBreakdown F
  cache_reporting : CacheReportingState
  token_accounting_convention : TokenAccountingConvention
  deriving DecidableEq

/-- `_SpanProvenance`. -/
structure SpanProvenance where
  file_name : Str
  offset : ℕ
  deriving DecidableEq

/-- The fields of a `_TelemetrySpan` that snapshots are made of. -/
structure SpanFacts (F : Type) where
  key : SpanKey
  parent_span_id : Option Str
  kind : SpanKind
  started_at_ns : ℤ
  ended_at_ns : ℤ
  started_at : Str
  ended_at : Str
  is_error : Bool
  model : Option Str
  requested_model : Option Str
  provider : Option Str
  conversation_id : Option Str
  agent_id : Option Str
  agent_name : Option Str
  usage : Option (ModelUsageDetails F)
  context : Option ContextUsage
  has_compaction_or_truncation : Bool
  deriving DecidableEq

/-- `_TelemetrySpan`. -/
structure TelemetrySpan (F : Type) extends SpanFacts F where
  name : Option Str
  interaction_id : Option Str
  turn_id : Option Str
  response_id : Option Str
  previous_response_id : Option Str
  tool_name : Option Str
  tool_type : Option Str
  tool_call_id : Option Str
  source_version : Option Str
  provenance : SpanProvenance
  digest : Str
  deriving DecidableEq

/-! ## Computations that note something -/

/-- What is left on the reader by a computation. -/
inductive Note where
  /-- `_record_warning`. -/
  | warning (code : TelemetryWarningCode)
  /-- `self._content_mode = TelemetryContentMode.POLICY_CONFLICT`. -/
  | policy_conflict
  deriving DecidableEq

/-- A computation: what it notes, in order, and its result; `none` is an exception
that nothing catches. -/
structure Noted (α : Type) where
  notes : List Note
  result : Option α

namespace Noted

variable {α β : Type}

/-- A computation that notes something. -/
def note (n : Note) : Noted Unit := ⟨[n], some ()⟩

/-- `_record_warning`. -/
def warn (code : TelemetryWarningCode) : Noted Unit := note (.warning code)

/-- A function that notes nothing; `none` is an exception. -/
def lift (result : Option α) : Noted α := ⟨[], result⟩

/-- One computation after another. -/
def andThen (x : Noted α) (f : α → Noted β) : Noted β :=
  match x.result with
  | none => ⟨x.notes, none⟩
  | some a => ⟨x.notes ++ (f a).notes, (f a).result⟩

instance : Monad Noted where
  pure a := ⟨[], some a⟩
  bind := andThen

@[simp] theorem result_pure (a : α) : (pure a : Noted α).result = some a := rfl

@[simp] theorem notes_pure (a : α) : (pure a : Noted α).notes = [] := rfl

@[simp] theorem result_lift (r : Option α) : (lift r).result = r := rfl

@[simp] theorem notes_lift (r : Option α) : (lift r).notes = [] := rfl

@[simp] theorem result_warn (code : TelemetryWarningCode) : (warn code).result = some () := rfl

@[simp] theorem notes_warn (code : TelemetryWarningCode) : (warn code).notes = [.warning code] := rfl

theorem result_bind (x : Noted α) (f : α → Noted β) :
    (x >>= f).result = x.result.bind fun a => (f a).result := by
  show (andThen x f).result = _
  unfold andThen
  cases x.result <;> rfl

/-- Python's `or` between texts: the second is computed if the first is empty or `None`. -/
def or_else (a : Option Str) (b : Noted (Option Str)) : Noted (Option Str) :=
  match a with
  | some [] | none => b
  | some s => pure (some s)

/-- Only warnings are noted. -/
def OnlyWarns (x : Noted α) : Prop := ∀ n ∈ x.notes, ∃ code, n = .warning code

end Noted

open Noted

/-! ## Bounded fields -/

/-- `_U64_MAX`. -/
def U64_MAX : ℤ := 2 ^ 64 - 1

section Fields

variable {F : Type} (settings : Settings F)

/-- `_bounded_string`. -/
def bounded_string (value : Value F) : Noted (Option Str) :=
  match parse_string value with
  | none => pure none
  | some parsed =>
    if parsed.length ≤ settings.limits.max_string_length then pure (some parsed)
    else do
      warn .FIELD_TRUNCATED
      pure (some (parsed.take settings.limits.max_string_length))

/-- `_bounded_u64`. -/
def bounded_u64 (value : Value F) : Noted (Option ℤ) :=
  match value with
  | .null => pure none
  | value =>
    match parse_int settings.py value with
    | some parsed =>
      if parsed < 0 ∨ parsed > U64_MAX then do
        warn .INVALID_USAGE_SHAPE
        pure none
      else pure (some parsed)
    | none => do
      warn .INVALID_USAGE_SHAPE
      pure none

/-- `float(value)`; an integer too large for a float raises. -/
def float_value (py : Python F) : Value F → Noted (Option F)
  | .int n => lift ((py.float_of_int n).map some)
  | .float x => pure (some x)
  | .string s => pure (py.float_of_str s)
  | _ => pure none

/-- `_parse_float`. -/
def parse_float (py : Python F) (value : Value F) : Noted (Option F) := do
  let parsed ← float_value py value
  pure (parsed.filter py.isfinite)

/-- `_bounded_finite_float`. -/
def bounded_finite_float (value : Value F) : Noted (Option F) :=
  match value with
  | .null => pure none
  | value => do
    match ← parse_float settings.py value with
    | some parsed => pure (some parsed)
    | none => do
      warn .INVALID_USAGE_SHAPE
      pure none

/-- `_first_present_bounded_u64`. -/
def first_present_bounded_u64 (attributes : List (Str × Value F)) :
    List String → Noted (Option ℤ)
  | [] => pure none
  | key :: keys =>
    if contains attributes key then bounded_u64 settings (get attributes key)
    else first_present_bounded_u64 attributes keys

/-- `_sanitize_optional_u64`. -/
def sanitize_optional_u64 : Option ℤ → Noted (Option ℤ)
  | none => pure none
  | some value =>
    if value < 0 ∨ value > U64_MAX then do
      warn .INVALID_USAGE_SHAPE
      pure none
    else pure (some value)

/-- `_sanitize_optional_float`. -/
def sanitize_optional_float : Option F → Noted (Option F)
  | none => pure none
  | some value =>
    if settings.py.isfinite value then pure (some value)
    else do
      warn .INVALID_USAGE_SHAPE
      pure none

/-- `_sanitize_usage_breakdown`. -/
def sanitize_usage_breakdown (usage : UsageBreakdown F) : Noted (UsageBreakdown F) := do
  let raw_input_tokens ← sanitize_optional_u64 usage.raw_input_tokens
  let effective_input_tokens ← sanitize_optional_u64 usage.effective_input_tokens
  let output_tokens ← sanitize_optional_u64 usage.output_tokens
  let total_tokens ← sanitize_optional_u64 usage.total_tokens
  let reasoning_output_tokens ← sanitize_optional_u64 usage.reasoning_output_tokens
  let cache_read_input_tokens ← sanitize_optional_u64 usage.cache_read_input_tokens
  let cache_write_input_tokens ← sanitize_optional_u64 usage.cache_write_input_tokens
  let other_input_tokens ← sanitize_optional_u64 usage.other_input_tokens
  let fresh_input_tokens ← sanitize_optional_u64 usage.fresh_input_tokens
  let cache_reuse_percent ← sanitize_optional_float settings usage.cache_reuse_percent
  let nano_aiu ← sanitize_optional_u64 usage.nano_aiu
  let opaque_cost ← sanitize_optional_float settings usage.opaque_cost
  pure {
    raw_input_tokens, effective_input_tokens, output_tokens, total_tokens, reasoning_output_tokens,
    cache_read_input_tokens, cache_write_input_tokens, other_input_tokens, fresh_input_tokens,
    cache_reuse_percent, nano_aiu, opaque_cost }

/-- `_sanitize_context_usage`. -/
def sanitize_context_usage : Option ContextUsage → Noted (Option ContextUsage)
  | none => pure none
  | some context => do
    let tokens ← sanitize_optional_u64 context.tokens
    let limit ← sanitize_optional_u64 context.limit
    let message_count ← sanitize_optional_u64 context.message_count
    pure (some { tokens, limit, message_count, observed_at := context.observed_at })

end Fields

/-! ## Times -/

section Times

variable {F : Type} (py : Python F)

/-- The nine digits of a fraction of a second. -/
def nine_digits (nanos : ℤ) : Str :=
  (Text.decimal_padded 9 nanos.toNat).map point

/-- `_isoformat_ns`; `none` is an exception. -/
def isoformat_ns (value : ℤ) : Option Str :=
  let seconds := value / 1000000000
  let nanos := value % 1000000000
  (py.strftime seconds).map fun base =>
    if nanos ≠ 0 then base ++ str "." ++ nine_digits nanos ++ str "Z" else base ++ str "Z"

end Times

/-! ## Content -/

/-- `_CONTENT_ATTRIBUTE_KEYS`. -/
def CONTENT_ATTRIBUTE_KEYS : List Str :=
  [str "gen_ai.input.messages", str "gen_ai.output.messages", str "gen_ai.system_instructions",
    str "gen_ai.tool.description", str "gen_ai.tool.call.arguments", str "gen_ai.tool.call.result"]

/-- `_ALLOWED_TOOL_DEFINITION_KEYS`. -/
def ALLOWED_TOOL_DEFINITION_KEYS : List Str := [str "name", str "type"]

section Content

variable {F : Type} (settings : Settings F)

/-- An item of the tool definitions: an object with a name and a type at most. -/
def tool_definition_is_safe : Value F → Bool
  | .object entries =>
    entries.all fun entry => ALLOWED_TOOL_DEFINITION_KEYS.contains entry.1
      && match entry.2 with
        | .null | .string _ => true
        | _ => false
  | _ => false

/-- `_tool_definitions_are_safe`, once the definitions are parsed. -/
def parsed_definitions_are_safe (max_items : ℕ) : Value F → Bool
  | .array items => decide (items.length ≤ max_items) && items.all tool_definition_is_safe
  | _ => false

/-- `_tool_definitions_are_safe`; `none` is an exception of `json.loads` that it does not
catch. -/
def tool_definitions_are_safe (py : Python F) (max_items : ℕ) : Value F → Option Bool
  | .null => some true
  | .string s =>
    match py.loads_str s with
    | .value parsed => some (parsed_definitions_are_safe max_items parsed)
    | .malformed => some false
    | .raises => none
  | value => some (parsed_definitions_are_safe max_items value)

/-- The loop of `_content_conflict` over the attributes. -/
def attributes_conflict : List (Str × Value F) → Option Bool
  | [] => some false
  | (key, value) :: attributes =>
    if key ∈ CONTENT_ATTRIBUTE_KEYS then some true
    else if key = str "gen_ai.tool.definitions" then
      match tool_definitions_are_safe settings.py settings.limits.max_tool_definitions value with
      | none => none
      | some false => some true
      | some true => attributes_conflict attributes
    else attributes_conflict attributes

/-- The loop of `_content_conflict` over the events. -/
def events_conflict : List (List (Str × Value F)) → Option Bool
  | [] => some false
  | event :: events =>
    match attributes_conflict settings (mapping_or_empty (get event "attributes")) with
    | none => none
    | some true => some true
    | some false => events_conflict events

/-- `_content_conflict`. -/
def content_conflict (attributes : List (Str × Value F)) (events : List (List (Str × Value F))) :
    Option Bool :=
  match attributes_conflict settings attributes with
  | none => none
  | some true => some true
  | some false => events_conflict settings events

end Content

/-! ## Usage -/

/-- `_CACHE_WRITE_ALIASES`. -/
def CACHE_WRITE_ALIASES : List String :=
  ["gen_ai.usage.cache_creation.input_tokens", "gen_ai.usage.cache_write.input_tokens"]

/-- `_EXPLICIT_ACCOUNTING_KEYS`. -/
def EXPLICIT_ACCOUNTING_KEYS : List String :=
  ["github.copilot.token_accounting_convention", "gen_ai.usage.token_accounting_convention"]

/-- `TokenAccountingConvention(raw)`; `none` is a `ValueError`. -/
def TokenAccountingConvention.of_value (raw : Str) : Option TokenAccountingConvention :=
  [TokenAccountingConvention.INCLUSIVE, .ADDITIVE, .UNKNOWN].find? fun c => raw = str c.value

section Usage

variable {F : Type} (settings : Settings F)

/-- `_explicit_accounting_convention`. -/
def explicit_accounting_convention (attributes : List (Str × Value F)) : Option TokenAccountingConvention :=
  EXPLICIT_ACCOUNTING_KEYS.findSome? fun key =>
    (parse_string (get attributes key)).bind TokenAccountingConvention.of_value

/-- `_resolve_accounting_convention`. -/
def resolve_accounting_convention (attributes : List (Str × Value F)) (raw_input_tokens : Option ℤ)
    (cache_reporting : CacheReportingState) (cache_read_tokens cache_write_tokens : Option ℤ) :
    TokenAccountingConvention :=
  let candidate :=
    (explicit_accounting_convention attributes).or settings.default_token_accounting_convention
  match raw_input_tokens, cache_reporting, cache_read_tokens, cache_write_tokens with
  | some raw, .REPORTED, some read, some write =>
    if read + write > raw then .ADDITIVE else candidate.getD .UNKNOWN
  | _, _, _, _ => candidate.getD .UNKNOWN

/-- The effective, the other and the fresh input tokens of `_normalize_model_usage`. -/
def input_tokens (convention : TokenAccountingConvention) (cache_reporting : CacheReportingState)
    (raw_input_tokens cache_read_tokens cache_write_tokens : Option ℤ) :
    Noted (Option ℤ × Option ℤ × Option ℤ) :=
  match raw_input_tokens, convention with
  | some raw, .INCLUSIVE =>
    match cache_reporting, cache_read_tokens, cache_write_tokens with
    | .REPORTED, some read, some write =>
      let other := raw - read - write
      if other < 0 then do
        warn .INVALID_USAGE_SHAPE
        pure (some raw, none, none)
      else pure (some raw, some other, some (other + write))
    | _, _, _ => pure (some raw, none, none)
  | some raw, .ADDITIVE =>
    match cache_reporting, cache_read_tokens, cache_write_tokens with
    | .REPORTED, some read, some write =>
      pure (some (raw + read + write), some raw, some (raw + write))
    | _, _, _ => pure (none, none, none)
  | _, _ => pure (none, none, none)

/-- `(a / b) * 100.0`. -/
def percent (py : Python F) (a b : ℤ) : F := py.mul (py.div a b) (py.lit 100)

/-- The share of the cache in the input of a call. -/
def call_reuse_percent (py : Python F) (cache_reporting : CacheReportingState)
    (effective_input_tokens cache_read_tokens : Option ℤ) : Option F :=
  match cache_reporting, effective_input_tokens, cache_read_tokens with
  | .REPORTED, some effective, some read =>
    if effective > 0 then some (percent py read effective) else none
  | _, _, _ => none

/-- `_normalize_model_usage`. -/
def normalize_model_usage (attributes : List (Str × Value F)) : Noted (ModelUsageDetails F) := do
  let raw_input_tokens ← bounded_u64 settings (get attributes "gen_ai.usage.input_tokens")
  let output_tokens ← bounded_u64 settings (get attributes "gen_ai.usage.output_tokens")
  let reasoning_output_tokens ←
    bounded_u64 settings (get attributes "gen_ai.usage.reasoning.output_tokens")
  let cache_read_tokens ← bounded_u64 settings (get attributes "gen_ai.usage.cache_read.input_tokens")
  let cache_write_tokens ← first_present_bounded_u64 settings attributes CACHE_WRITE_ALIASES
  let cache_reporting : CacheReportingState :=
    if cache_read_tokens.isSome ∨ cache_write_tokens.isSome then .REPORTED else .UNREPORTED
  -- once one of the two is reported, the other counts as nought
  let cache_read_tokens :=
    if cache_reporting = .REPORTED then some (cache_read_tokens.getD 0) else cache_read_tokens
  let cache_write_tokens :=
    if cache_reporting = .REPORTED then some (cache_write_tokens.getD 0) else cache_write_tokens
  let convention := resolve_accounting_convention settings attributes raw_input_tokens
    cache_reporting cache_read_tokens cache_write_tokens
  let (effective_input_tokens, other_input_tokens, fresh_input_tokens) ←
    input_tokens convention cache_reporting raw_input_tokens cache_read_tokens cache_write_tokens
  let total_tokens := effective_input_tokens.bind fun effective =>
    output_tokens.map fun output => effective + output
  let cache_reuse_percent ← sanitize_optional_float settings
    (call_reuse_percent settings.py cache_reporting effective_input_tokens cache_read_tokens)
  let nano_aiu ← bounded_u64 settings (get attributes "github.copilot.nano_aiu")
  let opaque_cost ← bounded_finite_float settings (get attributes "github.copilot.cost")
  let usage ← sanitize_usage_breakdown settings {
    raw_input_tokens := raw_input_tokens
    effective_input_tokens := effective_input_tokens
    output_tokens := output_tokens
    total_tokens := total_tokens
    reasoning_output_tokens := reasoning_output_tokens
    cache_read_input_tokens := if cache_reporting = .REPORTED then cache_read_tokens else none
    cache_write_input_tokens := if cache_reporting = .REPORTED then cache_write_tokens else none
    other_input_tokens := other_input_tokens
    fresh_input_tokens := fresh_input_tokens
    cache_reuse_percent := cache_reuse_percent
    nano_aiu := nano_aiu
    opaque_cost := opaque_cost }
  pure ⟨usage, cache_reporting, convention⟩

end Usage

/-! ## Context, version and status -/

section Context

variable {F : Type} (settings : Settings F)

/-- `_contains_any_context_key`. -/
def contains_any_context_key (attributes : List (Str × Value F)) : Bool :=
  contains attributes "github.copilot.current_tokens"
    || contains attributes "github.copilot.token_limit"
    || contains attributes "github.copilot.messages_length"

/-- When an event was observed. -/
def observed_ns (event : List (Str × Value F)) (fallback_time_ns : ℤ) : ℤ :=
  (int_or (parse_timestamp_ns settings.py (get event "time"))
    (int_or (parse_timestamp_ns settings.py (get event "timestamp")) (some fallback_time_ns))).getD 0

/-- The context an event reports. -/
def event_context (attributes : List (Str × Value F)) (observed_ns : ℤ) : Noted ContextUsage := do
  let tokens ← bounded_u64 settings (get attributes "github.copilot.current_tokens")
  let limit ← bounded_u64 settings (get attributes "github.copilot.token_limit")
  let message_count ← bounded_u64 settings (get attributes "github.copilot.messages_length")
  let observed_at ← lift (isoformat_ns settings.py observed_ns)
  pure { tokens, limit, message_count, observed_at := some observed_at }

/-- The loop of `_extract_context`. -/
def best_context (fallback_time_ns : ℤ) :
    List (List (Str × Value F)) → Option (ℤ × ContextUsage) → Noted (Option (ℤ × ContextUsage))
  | [], best => pure best
  | event :: events, best =>
    let attributes := mapping_or_empty (get event "attributes")
    if contains_any_context_key attributes then do
      let observed := observed_ns settings event fallback_time_ns
      let context ← event_context settings attributes observed
      let later := match best with
        | none => some (observed, context)
        | some (ns, kept) => if observed ≥ ns then some (observed, context) else some (ns, kept)
      best_context fallback_time_ns events later
    else best_context fallback_time_ns events best

/-- `_extract_context`. -/
def extract_context (events : List (List (Str × Value F))) (fallback_time_ns : ℤ) :
    Noted (Option ContextUsage) := do
  let best ← best_context settings fallback_time_ns events none
  sanitize_context_usage (best.map Prod.snd)

/-- `_extract_source_version`. -/
def extract_source_version (record : List (Str × Value F)) : Noted (Option Str) := do
  let version ← bounded_string settings
    (get (mapping_or_empty (get record "instrumentationScope")) "version")
  match version with
  | some version => pure (some version)
  | none => do
    let attributes := mapping_or_empty (get (mapping_or_empty (get record "resource")) "attributes")
    let version ← bounded_string settings (get attributes "service.version")
    or_else version (bounded_string settings (get attributes "github.copilot.version"))

/-- `_TRUNCATION_EVENT_TOKENS`. -/
def TRUNCATION_EVENT_TOKENS : List Str := [str "compaction", str "truncate", str "truncation"]

/-- `any(token in text.lower() for token in _TRUNCATION_EVENT_TOKENS)`. -/
def mentions_truncation (text : Str) : Bool :=
  TRUNCATION_EVENT_TOKENS.any fun token => decide (token <:+: settings.py.lower text)

/-- `_events_contain_compaction`. -/
def events_contain_compaction (events : List (List (Str × Value F))) : Bool :=
  events.any fun event =>
    (parse_string (get event "name")).any (mentions_truncation settings)
      || (mapping_or_empty (get event "attributes")).any fun entry =>
        mentions_truncation settings entry.1

/-- `_status_is_error`. -/
def status_is_error (value : Value F) : Bool :=
  match (mapping value).map fun status => get status "code" with
  | some (.string code) => settings.py.upper code = str "ERROR"
  | some (.int code) => code = 2
  | _ => false

end Context

/-! ## The digest of a span -/

section Digest

variable {F : Type}

/-- A text that may be missing. -/
def of_text : Option Str → Value F
  | none => .null
  | some s => .string s

/-- A number that may be missing. -/
def of_number : Option ℤ → Value F
  | none => .null
  | some n => .int n

/-- A float that may be missing. -/
def of_float : Option F → Value F
  | none => .null
  | some x => .float x

/-- `asdict` of a `UsageBreakdown`. -/
def UsageBreakdown.asdict (usage : UsageBreakdown F) : Value F :=
  .object [(str "raw_input_tokens", of_number usage.raw_input_tokens),
    (str "effective_input_tokens", of_number usage.effective_input_tokens),
    (str "output_tokens", of_number usage.output_tokens),
    (str "total_tokens", of_number usage.total_tokens),
    (str "reasoning_output_tokens", of_number usage.reasoning_output_tokens),
    (str "cache_read_input_tokens", of_number usage.cache_read_input_tokens),
    (str "cache_write_input_tokens", of_number usage.cache_write_input_tokens),
    (str "other_input_tokens", of_number usage.other_input_tokens),
    (str "fresh_input_tokens", of_number usage.fresh_input_tokens),
    (str "cache_reuse_percent", of_float usage.cache_reuse_percent),
    (str "nano_aiu", of_number usage.nano_aiu),
    (str "opaque_cost", of_float usage.opaque_cost)]

/-- `asdict` of a `ContextUsage`. -/
def ContextUsage.asdict (context : ContextUsage) : Value F :=
  .object [(str "tokens", of_number context.tokens), (str "limit", of_number context.limit),
    (str "message_count", of_number context.message_count),
    (str "observed_at", of_text context.observed_at)]

/-- The usage of a span as `_serialize_span` writes it. -/
def ModelUsageDetails.serialize (details : ModelUsageDetails F) : Value F :=
  .object [(str "usage", details.usage.asdict),
    (str "cache_reporting", .string (str details.cache_reporting.value)),
    (str "token_accounting_convention", .string (str details.token_accounting_convention.value))]

/-- `_serialize_span`, without the digest and the provenance. -/
def serialize_span (span : TelemetrySpan F) : Value F :=
  .object [(str "key", .object [(str "trace_id", .string span.key.trace_id),
      (str "span_id", .string span.key.span_id)]),
    (str "parent_span_id", of_text span.parent_span_id),
    (str "kind", .string (str (span_kind_value span.kind))),
    (str "name", of_text span.name),
    (str "started_at_ns", .int span.started_at_ns),
    (str "ended_at_ns", .int span.ended_at_ns),
    (str "started_at", .string span.started_at),
    (str "ended_at", .string span.ended_at),
    (str "is_error", .bool span.is_error),
    (str "model", of_text span.model),
    (str "requested_model", of_text span.requested_model),
    (str "provider", of_text span.provider),
    (str "conversation_id", of_text span.conversation_id),
    (str "interaction_id", of_text span.interaction_id),
    (str "turn_id", of_text span.turn_id),
    (str "response_id", of_text span.response_id),
    (str "previous_response_id", of_text span.previous_response_id),
    (str "agent_id", of_text span.agent_id),
    (str "agent_name", of_text span.agent_name),
    (str "tool_name", of_text span.tool_name),
    (str "tool_type", of_text span.tool_type),
    (str "tool_call_id", of_text span.tool_call_id),
    (str "usage", (span.usage.map ModelUsageDetails.serialize).getD .null),
    (str "context", (span.context.map ContextUsage.asdict).getD .null),
    (str "has_compaction_or_truncation", .bool span.has_compaction_or_truncation),
    (str "source_version", of_text span.source_version)]

/-- `bytes.hex`. -/
def hex (data : List UInt8) : Str :=
  data.flatMap fun b =>
    [point (Nat.digitChar (b.toNat / 16)), point (Nat.digitChar (b.toNat % 16))]

/-- `_hash_span`; `none` is a `UnicodeEncodeError`. -/
def hash_span (py : Python F) (span : TelemetrySpan F) : Option Str :=
  (encode_utf8 (dumps py (serialize_span span))).map fun encoded => hex (py.sha256 encoded)

end Digest

/-! ## Spans -/

section Normalize

variable {F : Type} (settings : Settings F)

/-- `_span_suffix`. -/
def name_suffix (name : Str) (word : String) : Option Str := Telemetry.span_suffix name (str word)

/-- The model of a span: the one that responded, the one that was asked for, or the one in
the name. -/
def model_of (attributes : List (Str × Value F)) (name : Str) : Noted (Option Str) := do
  let response ← bounded_string settings (get attributes "gen_ai.response.model")
  or_else response do
    let request ← bounded_string settings (get attributes "gen_ai.request.model")
    or_else request (pure (name_suffix name "chat"))

/-- A name in the attributes, or the one in the name of the span. -/
def name_of (attributes : List (Str × Value F)) (key : String) (name : Str) (word : String) :
    Noted (Option Str) := do
  let own ← bounded_string settings (get attributes key)
  or_else own (pure (name_suffix name word))

/-- The usage and the context, which only a model call has. -/
def usage_and_context (kind : SpanKind) (attributes : List (Str × Value F))
    (events : List (List (Str × Value F))) (ended_at_ns : ℤ) :
    Noted (Option (ModelUsageDetails F) × Option ContextUsage) :=
  if kind = .MODEL_CALL then do
    let usage ← normalize_model_usage settings attributes
    let context ← extract_context settings events ended_at_ns
    pure (some usage, context)
  else pure (none, none)

/-- What is recorded of captured content. -/
def note_conflict (conflict : Bool) : Noted Unit :=
  if conflict then do
    warn .CONTENT_POLICY_CONFLICT
    note .policy_conflict
  else pure ()

/-- `_normalize_span`, from the point on where the record is known to be a span. -/
def span_of_record (record : List (Str × Value F)) (provenance : SpanProvenance)
    (trace_id span_id : Str) (started_at_ns ended_at_ns : ℤ) (name : Str) :
    Noted (TelemetrySpan F) := do
  let attributes := mapping_or_empty (get record "attributes")
  let events := sequence_of_mappings (get record "events")
  let conflict ← lift (content_conflict settings attributes events)
  note_conflict conflict
  let kind := Telemetry.classify_span name
  let bounded (key : String) := bounded_string settings (get attributes key)
  let source_version ← extract_source_version settings record
  let model ← model_of settings attributes name
  let requested_model ← bounded "gen_ai.request.model"
  let provider ← bounded "gen_ai.system"
  let conversation_id ← bounded "gen_ai.conversation.id"
  let interaction_id ← bounded "github.copilot.interaction_id"
  let turn_id ← bounded "github.copilot.turn_id"
  let response_id ← bounded "gen_ai.response.id"
  let previous_response_id ← bounded "gen_ai.request.previous_response.id"
  let agent_id ← bounded "gen_ai.agent.id"
  let agent_name ← name_of settings attributes "gen_ai.agent.name" name "invoke_agent"
  let tool_name ← name_of settings attributes "gen_ai.tool.name" name "execute_tool"
  let tool_type ← bounded "gen_ai.tool.type"
  let tool_call_id ← bounded "gen_ai.tool.call.id"
  let (usage, context) ← usage_and_context settings kind attributes events ended_at_ns
  let parent_span_id ← bounded_string settings (get record "parentSpanId")
  let started_at ← lift (isoformat_ns settings.py started_at_ns)
  let ended_at ← lift (isoformat_ns settings.py ended_at_ns)
  let span : TelemetrySpan F := {
    key := ⟨trace_id, span_id⟩
    parent_span_id, kind
    name := some name
    started_at_ns, ended_at_ns, started_at, ended_at
    is_error := status_is_error settings (get record "status")
    model, requested_model, provider, conversation_id, interaction_id, turn_id, response_id,
    previous_response_id, agent_id, agent_name, tool_name, tool_type, tool_call_id, usage, context
    has_compaction_or_truncation := events_contain_compaction settings events
    source_version, provenance
    digest := [] }
  let digest ← lift (hash_span settings.py span)
  pure { span with digest := digest }

/-- `_normalize_span`. -/
def normalize_span (record : List (Str × Value F)) (provenance : SpanProvenance) :
    Noted (Option (TelemetrySpan F)) := do
  let trace_id ← bounded_string settings (get record "traceId")
  let span_id ← bounded_string settings (get record "spanId")
  match trace_id, span_id with
  | some trace_id, some span_id =>
    match parse_timestamp_ns settings.py (get record "startTime"),
        parse_timestamp_ns settings.py (get record "endTime") with
    | some started_at_ns, some ended_at_ns =>
      if ended_at_ns < started_at_ns then do
        warn .MALFORMED_RECORD
        pure none
      else do
        match ← bounded_string settings (get record "name") with
        | none => do
          warn .MALFORMED_RECORD
          pure none
        | some name => do
          let span ← span_of_record settings record provenance trace_id span_id started_at_ns
            ended_at_ns name
          pure (some span)
    | _, _ => do
      warn .MALFORMED_RECORD
      pure none
  | _, _ => do
    warn .MALFORMED_RECORD
    pure none

end Normalize

end AgentSpace.Telemetry.Otel
