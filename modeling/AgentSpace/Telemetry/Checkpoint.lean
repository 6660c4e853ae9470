/-
Checkpoints of the telemetry reader: how one is taken apart and taken over.

`restore_checkpoint` assigns the attributes of the reader one after another as it goes through
the parts of any value at all, so a part that is refused leaves those assigned before it. A
number too large for a float, or a time outside the years of a `datetime`, raises.
-/
import AgentSpace.Lib.Effect
import AgentSpace.Telemetry.Reader
import Mathlib.Data.Int.Bitwise
import Mathlib.Data.Finset.Basic

set_option autoImplicit false

namespace AgentSpace.Telemetry.Otel

open Lib

/-- `TELEMETRY_CHECKPOINT_SCHEMA_VERSION`. -/
def TELEMETRY_CHECKPOINT_SCHEMA_VERSION : ℤ := 2

/-! ## Enumerations by their values -/

/-- `TelemetryContentMode(raw)`; `none` is a `ValueError`. -/
def TelemetryContentMode.of_value (raw : Str) : Option TelemetryContentMode :=
  [TelemetryContentMode.METADATA, .CONTENT, .POLICY_CONFLICT].find? fun mode => raw = str mode.value

/-- `CacheReportingState(raw)`; `none` is a `ValueError`. -/
def CacheReportingState.of_value (raw : Str) : Option CacheReportingState :=
  [CacheReportingState.REPORTED, .UNREPORTED].find? fun state => raw = str state.value

/-- `_SpanKind(raw)`; `none` is a `ValueError`. -/
def span_kind_of_value (raw : Str) : Option SpanKind :=
  [SpanKind.AGENT, .MODEL_CALL, .TOOL_CALL, .OTHER].find? fun kind => raw = str (span_kind_value kind)

/-- `TelemetryWarningCode._value2member_map_.get(raw)`. -/
def TelemetryWarningCode.of_value (raw : Str) : Option TelemetryWarningCode :=
  [TelemetryWarningCode.CHECKPOINT_CORRUPT, .CHECKPOINT_NEWER_VERSION, .CONTENT_POLICY_CONFLICT,
    .DUPLICATE_CONFLICT, .FIELD_TRUNCATED, .FILE_LIMIT_EXCEEDED, .INVALID_USAGE_SHAPE, .LINE_TOO_LONG,
    .MALFORMED_RECORD, .PARTIAL_RECORD_DISCARDED, .SIZE_LIMIT_EXCEEDED, .SOURCE_FILE_CHANGED,
    .SPAN_LIMIT_EXCEEDED, .UNKNOWN_RECORD].find? fun code => raw = str code.value

/-! ## What a checkpoint holds -/

/-- A `_FileCursor` out of a checkpoint, whose offset is any integer. -/
structure RestoredCursor where
  path : Str
  device : ℤ
  inode : ℤ
  offset : ℤ
  sealed : Bool
  deriving DecidableEq

/-- A `_SpanProvenance` out of a checkpoint. -/
structure RestoredProvenance where
  file_name : Str
  offset : ℤ
  deriving DecidableEq

/-- A `_DuplicateConflict` out of a checkpoint. -/
structure RestoredConflict where
  key : SpanKey
  first : RestoredProvenance
  second : RestoredProvenance
  deriving DecidableEq

/-- A `_TelemetrySpan` out of a checkpoint. -/
structure RestoredSpan (F : Type) extends SpanFacts F where
  name : Option Str
  interaction_id : Option Str := none
  turn_id : Option Str := none
  response_id : Option Str := none
  previous_response_id : Option Str := none
  tool_name : Option Str := none
  tool_type : Option Str := none
  tool_call_id : Option Str := none
  source_version : Option Str
  provenance : RestoredProvenance
  digest : Str

/-- Why a part of a checkpoint is not taken over. -/
inductive Refusal where
  /-- `None` or `False` is returned. -/
  | rejected
  /-- An exception that nothing catches. -/
  | raised
  deriving DecidableEq

/-- What has to be there. -/
def demand {α : Type} (found : Option α) : Except Refusal α :=
  match found with
  | some a => .ok a
  | none => .error .rejected

/-- What a function of the library returns, unless it raises. -/
def computed {α : Type} (result : Option α) : Except Refusal α :=
  match result with
  | some a => .ok a
  | none => .error .raised

/-! ## Digests -/

section Digests

/-- The value of a digit of `base64`, in either of its alphabets. -/
def base64_digit (c : Fin 0x110000) : Option ℕ :=
  if 65 ≤ c.val ∧ c.val ≤ 90 then some (c.val - 65)
  else if 97 ≤ c.val ∧ c.val ≤ 122 then some (c.val - 71)
  else if 48 ≤ c.val ∧ c.val ≤ 57 then some (c.val + 4)
  else if c = point '+' ∨ c = point '-' then some 62
  else if c = point '/' ∨ c = point '_' then some 63
  else none

/-- The bytes of a group of up to four digits. -/
def group_bytes : List ℕ → List UInt8
  | [a, b] => [UInt8.ofNat (a * 4 + b / 16)]
  | [a, b, c] => [UInt8.ofNat (a * 4 + b / 16), UInt8.ofNat (b % 16 * 16 + c / 4)]
  | [a, b, c, d] =>
    [UInt8.ofNat (a * 4 + b / 16), UInt8.ofNat (b % 16 * 16 + c / 4), UInt8.ofNat (c % 4 * 64 + d)]
  | _ => []

/-- The loop of `binascii.a2b_base64`, with the digits of the group read so far and the
padding behind them; `none` is a `binascii.Error`. What is neither a digit nor padding is
passed over, and nothing is read behind a group that the padding completes. -/
def a2b_base64 : List ℕ → ℕ → Str → Option (List UInt8)
  | [], _, [] => some []
  | _ :: _, _, [] => none
  | group, pads, c :: rest =>
    if c = point '=' then
      if group.length ≥ 2 ∧ group.length + (pads + 1) ≥ 4 then some (group_bytes group)
      else a2b_base64 group (if group.length ≥ 2 then pads + 1 else pads) rest
    else
      match base64_digit c with
      | none => a2b_base64 group pads rest
      | some digit =>
        if group.length = 3 then
          (a2b_base64 [] 0 rest).map fun bytes => group_bytes (group ++ [digit]) ++ bytes
        else a2b_base64 (group ++ [digit]) 0 rest

/-- `base64.urlsafe_b64decode(text)`; `none` is a `ValueError`. -/
def urlsafe_b64decode (text : Str) : Option (List UInt8) :=
  if text.all fun c => c.val < 128 then a2b_base64 [] 0 text else none

/-- `raw.decode("utf-8")`; `none` is a `UnicodeDecodeError`. -/
def decode_utf8 (raw : List UInt8) : Option Str := (String.fromUTF8? raw.toByteArray).map str

variable {F : Type}

/-- `_decode_digest`. -/
def decode_digest (value : Value F) : Option Str :=
  match parse_string value with
  | none => none
  | some parsed =>
    let padding := List.replicate ((4 - parsed.length % 4) % 4) (point '=')
    match urlsafe_b64decode (parsed ++ padding) with
    | none => none
    | some raw => if raw.length = 32 then some (hex raw) else decode_utf8 raw

end Digests

/-! ## Parts of a checkpoint -/

section Parts

variable {F : Type} (py : Python F)

/-- `isinstance(value, bool)`, with the value. -/
def parse_bool : Value F → Option Bool
  | .bool b => some b
  | _ => none

/-- `bool(value)`. -/
def truthy : Value F → Bool
  | .null => false
  | .bool b => b
  | .int n => n ≠ 0
  | .float x => !(py.le x (py.lit 0) && py.le (py.lit 0) x)
  | .string s => !s.isEmpty
  | .array items => !items.isEmpty
  | .object entries => !entries.isEmpty

/-- The items of a sequence of two. -/
def pair (value : Value F) : Option (Value F × Value F) :=
  match sequence value with
  | some [a, b] => some (a, b)
  | _ => none

/-- A part that may be missing. -/
def optional {α : Type} (deserialize : Value F → Except Refusal α) : Value F → Except Refusal (Option α)
  | .null => .ok none
  | value => (deserialize value).map some

/-- `_parse_float`. -/
def float_part (value : Value F) : Except Refusal (Option F) := computed (parse_float py value).result

/-- `_decode_span_kind`. -/
def decode_span_kind (value : Value F) : Option SpanKind :=
  (parse_string value).bind fun parsed =>
    if parsed = str "a" then some .AGENT
    else if parsed = str "m" then some .MODEL_CALL
    else if parsed = str "t" then some .TOOL_CALL
    else if parsed = str "o" then some .OTHER
    else none

/-- `_decode_cache_reporting`. -/
def decode_cache_reporting (value : Value F) : Option CacheReportingState :=
  (parse_string value).bind fun parsed =>
    if parsed = str "r" then some .REPORTED
    else if parsed = str "u" then some .UNREPORTED
    else none

/-- `_decode_accounting_convention`. -/
def decode_accounting_convention (value : Value F) : Option TokenAccountingConvention :=
  (parse_string value).bind fun parsed =>
    if parsed = str "i" then some .INCLUSIVE
    else if parsed = str "a" then some .ADDITIVE
    else if parsed = str "u" then some .UNKNOWN
    else none

/-- `_deserialize_file_cursor`. -/
def deserialize_file_cursor (value : List (Str × Value F)) : Except Refusal RestoredCursor := do
  let path ← demand (parse_string (get value "path"))
  let device ← demand (parse_int py (get value "device"))
  let inode ← demand (parse_int py (get value "inode"))
  let offset ← demand (parse_int py (get value "offset"))
  let «sealed» ← demand (parse_bool (get value "sealed"))
  pure ⟨path, device, inode, offset, «sealed»⟩

/-- `_deserialize_span_key`. -/
def deserialize_span_key (value : List (Str × Value F)) : Except Refusal SpanKey := do
  let trace_id ← demand (parse_string (get value "trace_id"))
  let span_id ← demand (parse_string (get value "span_id"))
  pure ⟨trace_id, span_id⟩

/-- `_deserialize_span_provenance`. -/
def deserialize_span_provenance (value : List (Str × Value F)) : Except Refusal RestoredProvenance := do
  let file_name ← demand (parse_string (get value "file_name"))
  let offset ← demand (parse_int py (get value "offset"))
  pure ⟨file_name, offset⟩

/-- `_deserialize_duplicate_conflict`. -/
def deserialize_duplicate_conflict (value : List (Str × Value F)) : Except Refusal RestoredConflict := do
  let key ← demand (mapping (get value "key"))
  let first ← demand (mapping (get value "first"))
  let second ← demand (mapping (get value "second"))
  pure {
    key := ← deserialize_span_key key
    first := ← deserialize_span_provenance py first
    second := ← deserialize_span_provenance py second }

/-- `_deserialize_usage`. -/
def deserialize_usage (value : List (Str × Value F)) : Except Refusal (UsageBreakdown F) := do
  let cache_reuse_percent ← float_part py (get value "cache_reuse_percent")
  let opaque_cost ← float_part py (get value "opaque_cost")
  pure {
    raw_input_tokens := parse_int py (get value "raw_input_tokens")
    effective_input_tokens := parse_int py (get value "effective_input_tokens")
    output_tokens := parse_int py (get value "output_tokens")
    total_tokens := parse_int py (get value "total_tokens")
    reasoning_output_tokens := parse_int py (get value "reasoning_output_tokens")
    cache_read_input_tokens := parse_int py (get value "cache_read_input_tokens")
    cache_write_input_tokens := parse_int py (get value "cache_write_input_tokens")
    other_input_tokens := parse_int py (get value "other_input_tokens")
    fresh_input_tokens := parse_int py (get value "fresh_input_tokens")
    cache_reuse_percent
    nano_aiu := parse_int py (get value "nano_aiu")
    opaque_cost }

/-- `_deserialize_model_usage`. The numbers are read before the two states are looked up. -/
def deserialize_model_usage (value : List (Str × Value F)) : Except Refusal (ModelUsageDetails F) := do
  let usage_mapping ← demand (mapping (get value "usage"))
  let cache_reporting ← demand (parse_string (get value "cache_reporting"))
  let convention ← demand (parse_string (get value "token_accounting_convention"))
  let usage ← deserialize_usage py usage_mapping
  pure {
    usage
    cache_reporting := ← demand (CacheReportingState.of_value cache_reporting)
    token_accounting_convention := ← demand (TokenAccountingConvention.of_value convention) }

/-- The time a context was observed at: a text, or nothing. -/
def observed_at_part : Value F → Except Refusal (Option Str)
  | .null => .ok none
  | .string s => .ok (some s)
  | _ => .error .rejected

/-- `_deserialize_context`. -/
def deserialize_context (value : List (Str × Value F)) : Except Refusal ContextUsage := do
  let observed_at ← observed_at_part (get value "observed_at")
  pure {
    tokens := parse_int py (get value "tokens")
    limit := parse_int py (get value "limit")
    message_count := parse_int py (get value "message_count")
    observed_at }

/-- `_deserialize_compact_usage`. -/
def deserialize_compact_usage (value : Value F) : Except Refusal (ModelUsageDetails F) :=
  match sequence value with
  | some [raw_input, effective_input, output, total, reasoning_output, cache_read, cache_write,
      other_input, fresh_input, cache_reuse, nano_aiu, opaque_cost, reporting, convention] => do
      let cache_reporting ← demand (decode_cache_reporting reporting)
      let token_accounting_convention ← demand (decode_accounting_convention convention)
      let cache_reuse_percent ← float_part py cache_reuse
      let opaque_cost ← float_part py opaque_cost
      pure {
        usage := {
          raw_input_tokens := parse_int py raw_input
          effective_input_tokens := parse_int py effective_input
          output_tokens := parse_int py output
          total_tokens := parse_int py total
          reasoning_output_tokens := parse_int py reasoning_output
          cache_read_input_tokens := parse_int py cache_read
          cache_write_input_tokens := parse_int py cache_write
          other_input_tokens := parse_int py other_input
          fresh_input_tokens := parse_int py fresh_input
          cache_reuse_percent
          nano_aiu := parse_int py nano_aiu
          opaque_cost }
        cache_reporting
        token_accounting_convention }
  | _ => .error .rejected

/-- `_deserialize_compact_context`. -/
def deserialize_compact_context (value : Value F) : Except Refusal ContextUsage :=
  match sequence value with
  | some [tokens, limit, message_count, observed_at] => do
    let observed_at ← observed_at_part observed_at
    pure {
      tokens := parse_int py tokens
      limit := parse_int py limit
      message_count := parse_int py message_count
      observed_at }
  | _ => .error .rejected

/-- `_deserialize_span`. -/
def deserialize_span (value : List (Str × Value F)) : Except Refusal (RestoredSpan F) := do
  let key ← deserialize_span_key (mapping_or_empty (get value "key"))
  let provenance ← deserialize_span_provenance py (mapping_or_empty (get value "provenance"))
  let kind ← demand ((parse_string (get value "kind")).bind span_kind_of_value)
  let started_at_ns ← demand (parse_int py (get value "started_at_ns"))
  let ended_at_ns ← demand (parse_int py (get value "ended_at_ns"))
  let started_at ← demand (parse_string (get value "started_at"))
  let ended_at ← demand (parse_string (get value "ended_at"))
  let is_error ← demand (parse_bool (get value "is_error"))
  let digest ← demand (parse_string (get value "digest"))
  let usage ← optional (fun payload => do
    deserialize_model_usage py (← demand (mapping payload))) (get value "usage")
  let context ← optional (fun payload => do
    deserialize_context py (← demand (mapping payload))) (get value "context")
  let has_compaction_or_truncation ← demand (parse_bool (get value "has_compaction_or_truncation"))
  pure {
    key
    parent_span_id := parse_string (get value "parent_span_id")
    kind
    name := parse_string (get value "name")
    started_at_ns
    ended_at_ns
    started_at
    ended_at
    is_error
    model := parse_string (get value "model")
    requested_model := parse_string (get value "requested_model")
    provider := parse_string (get value "provider")
    conversation_id := parse_string (get value "conversation_id")
    interaction_id := parse_string (get value "interaction_id")
    turn_id := parse_string (get value "turn_id")
    response_id := parse_string (get value "response_id")
    previous_response_id := parse_string (get value "previous_response_id")
    agent_id := parse_string (get value "agent_id")
    agent_name := parse_string (get value "agent_name")
    tool_name := parse_string (get value "tool_name")
    tool_type := parse_string (get value "tool_type")
    tool_call_id := parse_string (get value "tool_call_id")
    usage
    context
    has_compaction_or_truncation
    source_version := parse_string (get value "source_version")
    provenance
    digest }

/-- The agent of a compact span: its id and its name, if there is one. -/
def agent_pair (value : Value F) : Except Refusal (Option Str × Option Str) :=
  match sequence value with
  | none => .ok (none, none)
  | some [agent_id, agent_name] => .ok (parse_string agent_id, parse_string agent_name)
  | some _ => .error .rejected

/-- `_deserialize_compact_span`. -/
def deserialize_compact_span (source_files : List Str) (value : List (Str × Value F)) :
    Except Refusal (RestoredSpan F) := do
  let (trace_id, span_id) ← demand (pair (get value "k"))
  let (provenance_file_index, provenance_offset) ← demand (pair (get value "r"))
  let kind ← demand (decode_span_kind (get value "t"))
  let digest ← demand (decode_digest (get value "d"))
  let started_at_ns ← demand (parse_int py (get value "s"))
  let ended_at_ns ← demand (parse_int py (get value "e"))
  let trace_id ← demand (parse_string trace_id)
  let span_id ← demand (parse_string span_id)
  let provenance_file_index ← demand (parse_int py provenance_file_index)
  let offset ← demand (parse_int py provenance_offset)
  let file_name ← demand
    (if provenance_file_index < 0 then none else source_files[provenance_file_index.toNat]?)
  let usage ← optional (deserialize_compact_usage py) (get value "u")
  let context ← optional (deserialize_compact_context py) (get value "x")
  let flags := (parse_int py (get value "f")).getD 0
  let (agent_id, agent_name) ← agent_pair (get value "a")
  let started_at ← computed (isoformat_ns py started_at_ns)
  let ended_at ← computed (isoformat_ns py ended_at_ns)
  pure {
    key := ⟨trace_id, span_id⟩
    parent_span_id := parse_string (get value "p")
    kind
    name := none
    started_at_ns
    ended_at_ns
    started_at
    ended_at
    is_error := flags.testBit 0
    model := parse_string (get value "m")
    requested_model := parse_string (get value "q")
    provider := parse_string (get value "v")
    conversation_id := parse_string (get value "c")
    agent_id
    agent_name
    usage
    context
    has_compaction_or_truncation := flags.testBit 1
    source_version := parse_string (get value "o")
    provenance := ⟨file_name, offset⟩
    digest }

end Parts

/-! ## The restore -/

/-- The attributes of the reader that a restore assigns. -/
structure Restored (F : Type) where
  warning_counts : WarningCounts := fun _ => none
  degraded_reasons : Finset Str := ∅
  content_mode : TelemetryContentMode := .METADATA
  source_version : Option Str := none
  received_at : Option Str := none
  observed_at_ns : Option ℤ := none
  has_source_files : Bool := false
  file_cursors : Table RestoredCursor.path := Table.empty
  duplicate_conflicts : List RestoredConflict := []
  spans : Table fun span : RestoredSpan F => span.encoded := Table.empty

namespace Restored

variable {F : Type}

/-- The body of the loop over the warnings; a code that is not known is passed over. -/
def take_count (r : Restored F) : Option (TelemetryWarningCode × ℕ) → Restored F
  | none => r
  | some (code, count) =>
    { r with warning_counts := fun c => if c = code then some count else r.warning_counts c }

/-- The body of the loop over the files. -/
def take_cursor (r : Restored F) (cursor : RestoredCursor) : Restored F :=
  { r with file_cursors := r.file_cursors.put cursor }

/-- The body of the loop over the conflicts. -/
def take_conflict (r : Restored F) (conflict : RestoredConflict) : Restored F :=
  { r with duplicate_conflicts := r.duplicate_conflicts ++ [conflict] }

/-- The body of the loop over the spans, with `_observe_source_time`. -/
def take_span (r : Restored F) (span : RestoredSpan F) : Restored F :=
  { r with
    spans := r.spans.put span
    source_version := span.source_version.or r.source_version
    observed_at_ns :=
      match r.observed_at_ns with
      | none => some span.ended_at_ns
      | some observed => if span.ended_at_ns > observed then some span.ended_at_ns else some observed }

end Restored

/-- A computation of the restore. -/
abbrev Restore (F α : Type) := Effect Refusal (Restored F) α

section Restoring

variable {F : Type} (py : Python F)

/-- An entry of the warnings: nothing, if the code is not known. -/
def check_count : Str × Value F → Except Refusal (Option (TelemetryWarningCode × ℕ))
  | (raw_code, raw_count) =>
    match TelemetryWarningCode.of_value raw_code with
    | none => .ok none
    | some code =>
      match parse_int py raw_count with
      | none => .error .rejected
      | some count => if count < 0 then .error .rejected else .ok (some (code, count.toNat))

/-- An item that has to be a mapping of some form. -/
def check_item {α : Type} (deserialize : List (Str × Value F) → Except Refusal α) (item : Value F) :
    Except Refusal α := do
  let item_mapping ← demand (mapping item)
  deserialize item_mapping

/-- A list in the checkpoint is taken over: an attribute is reset, and the items are added. -/
def restore_list {α : Type} (key : String) (deserialize : List (Str × Value F) → Except Refusal α)
    (reset : Restored F → Restored F) (take : Restored F → α → Restored F)
    (payload : List (Str × Value F)) : Restore F Unit := do
  let items ← Effect.given (demand (sequence (get payload key)))
  Effect.change reset
  Effect.take_in (check_item deserialize) take items

/-- The files of a checkpoint. -/
def restore_files (payload : List (Str × Value F)) : Restore F Unit :=
  restore_list "files" (deserialize_file_cursor py)
    (fun r => { r with file_cursors := Table.empty }) Restored.take_cursor payload

/-- The conflicts of a checkpoint. -/
def restore_conflicts (payload : List (Str × Value F)) : Restore F Unit :=
  restore_list "duplicate_conflicts" (deserialize_duplicate_conflict py)
    (fun r => { r with duplicate_conflicts := [] }) Restored.take_conflict payload

/-- The spans of a checkpoint. -/
def restore_spans (deserialize : List (Str × Value F) → Except Refusal (RestoredSpan F))
    (payload : List (Str × Value F)) : Restore F Unit :=
  restore_list "spans" deserialize (fun r => { r with spans := Table.empty }) Restored.take_span payload

/-- The mode in a checkpoint. -/
def content_mode_part (payload : List (Str × Value F)) : Option TelemetryContentMode :=
  (parse_string (get payload "content_mode")).bind TelemetryContentMode.of_value

/-- `_restore_checkpoint_metadata`. -/
def restore_checkpoint_metadata (payload : List (Str × Value F)) : Restore F Unit := do
  let warnings ← Effect.given (demand (mapping (get payload "warnings")))
  Effect.change fun r => { r with warning_counts := fun _ => none }
  Effect.take_in (check_count py) Restored.take_count warnings
  let degraded_list ← Effect.given (demand (string_sequence (get payload "degraded_reasons")))
  Effect.change fun r => { r with degraded_reasons := degraded_list.toFinset }
  let content_mode ← Effect.given (demand (content_mode_part payload))
  Effect.change fun r => { r with content_mode := content_mode }
  Effect.change fun r => { r with
    source_version := parse_string (get payload "source_version")
    received_at := parse_string (get payload "received_at")
    observed_at_ns := parse_int py (get payload "observed_at_ns")
    has_source_files := truthy py (get payload "has_source_files") }
  restore_files py payload
  restore_conflicts py payload

/-- `_restore_checkpoint`. -/
def restore_checkpoint (payload : List (Str × Value F)) : Restore F Unit := do
  restore_checkpoint_metadata py payload
  restore_spans (deserialize_span py) payload

/-- `_restore_compact_checkpoint`. -/
def restore_compact_checkpoint (payload : List (Str × Value F)) : Restore F Unit := do
  restore_checkpoint_metadata py payload
  let source_files ← Effect.given (demand (string_sequence (get payload "source_files")))
  restore_spans (deserialize_compact_span py source_files) payload

end Restoring

/-! ## The start of a reader -/

/-- A checkpoint file. -/
structure CheckpointFile (F : Type) where
  /-- `stat().st_size`; `none` is an `OSError`. -/
  size : Option ℕ
  /-- What comes of reading it; malformed is also what cannot be read or decompressed. -/
  content : Loads F

/-- The checkpoint files there are. -/
structure CheckpointFiles (F : Type) where
  checkpoint : Option (CheckpointFile F)
  legacy_checkpoint : Option (CheckpointFile F)

/-- What is found of a checkpoint before it is restored. -/
inductive CheckpointFound (F : Type) where
  | missing
  | corrupt
  | newer
  /-- An exception that is not caught. -/
  | raises
  | holds (version : ℤ) (payload : List (Str × Value F))

/-- What comes of `_load_or_replay`. -/
inductive Loaded (F : Type) where
  /-- The files are read from their beginnings. -/
  | replayed (ran : Ran F)
  /-- The checkpoint is taken over, and perhaps to be written again. -/
  | restored (attributes : Restored F) (dirty : Bool)
  /-- An exception. -/
  | raised

section Loading

variable {F : Type} (settings : Settings F)

/-- A version of checkpoints there is a restore for. -/
def is_known_version (version : ℤ) : Bool := version = 1 || version = TELEMETRY_CHECKPOINT_SCHEMA_VERSION

/-- `_load_or_replay`, up to the restore. -/
def find_checkpoint (files : CheckpointFiles F) : CheckpointFound F :=
  match files.checkpoint.or files.legacy_checkpoint with
  | none => .missing
  | some file =>
    match file.size with
    | none => .corrupt
    | some size =>
      if size > settings.limits.max_checkpoint_bytes then .corrupt
      else
        match file.content with
        | .raises => .raises
        | .malformed => .corrupt
        | .value payload =>
          match mapping payload with
          | none => .corrupt
          | some data =>
            match parse_int settings.py (get data "checkpoint_version") with
            | none => .corrupt
            | some version =>
              if version > TELEMETRY_CHECKPOINT_SCHEMA_VERSION then .newer
              else if is_known_version version then .holds version data
              else .corrupt

/-- The restore of a known version. -/
def restore (py : Python F) (version : ℤ) (payload : List (Str × Value F)) : Restore F Unit :=
  if version = 1 then restore_checkpoint py payload else restore_compact_checkpoint py payload

/-- A new reader with the attributes a restore has left. Those are not set that
`_replay_all_files` sets again before it looks at them. -/
def Restored.reader (left : Restored F) : Provider F :=
  { Provider.init with
    warning_counts := left.warning_counts
    degraded_reasons := left.degraded_reasons
    content_mode := left.content_mode
    source_version := left.source_version
    received_at := left.received_at }

variable (around : Surroundings)

/-- `_load_or_replay`, of a new reader. -/
def load_or_replay (files : CheckpointFiles F) : Loaded F :=
  let replay p := Loaded.replayed (replay_all_files settings around p)
  match find_checkpoint settings files with
  | .missing => replay Provider.init
  | .corrupt => replay (Provider.init.record_warning .CHECKPOINT_CORRUPT)
  | .newer =>
    replay { Provider.init.record_warning .CHECKPOINT_NEWER_VERSION with
      checkpoint_write_disabled := true }
  | .raises => .raised
  | .holds version payload =>
    match (restore settings.py version payload).run {} with
    | (.ok (), attributes) => .restored attributes files.checkpoint.isNone
    | (.error .rejected, left) => replay (left.reader.record_warning .CHECKPOINT_CORRUPT)
    | (.error .raised, _) => .raised

end Loading

end AgentSpace.Telemetry.Otel
