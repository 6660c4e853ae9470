/-
The telemetry reader: its state, and how it reads the managed files.

`ingest_incremental` reads what has been added to each file since the last time. An
exception on the way leaves the reader as it is then, and the cursor of the file where it
was.
-/
import AgentSpace.Lib.Table
import AgentSpace.Telemetry.Normalize
import Mathlib.Data.Finset.Sort

set_option autoImplicit false

namespace AgentSpace.Telemetry.Otel

open Lib

/-! ## State -/

/-- `_FileCursor`. -/
structure FileCursor where
  path : Str
  device : ℤ
  inode : ℤ
  offset : ℕ
  sealed : Bool := false
  deriving DecidableEq

/-- `_DuplicateConflict`. -/
structure DuplicateConflict where
  key : SpanKey
  first : SpanProvenance
  second : SpanProvenance
  deriving DecidableEq

/-- `TelemetryRuntimeState`. -/
inductive TelemetryRuntimeState where
  | RUNNING
  | IDLE
  | UNAVAILABLE
  deriving DecidableEq

/-- `TelemetryRuntimeInfo`. -/
structure TelemetryRuntimeInfo where
  state : TelemetryRuntimeState
  active_launch_path : Option Str
  reason : Option Str

/-- The key of a span in `_spans`. -/
def SpanFacts.encoded {F : Type} (span : SpanFacts F) : Str := span.key.encoded

/-- `_spans`. -/
abbrev Spans (F : Type) := Table fun span : TelemetrySpan F => span.encoded

/-- `_file_cursors`. -/
abbrev FileCursors := Table FileCursor.path

/-- A `Counter` of warnings: `none` is a code that is not there. -/
abbrev WarningCounts := TelemetryWarningCode → Option ℕ

/-- `CopilotOtelTelemetryProvider`: what its polls change. -/
structure Provider (F : Type) where
  loaded : Bool
  checkpoint_write_disabled : Bool
  dirty : Bool
  has_source_files : Bool
  spans : Spans F
  file_cursors : FileCursors
  warning_counts : WarningCounts
  duplicate_conflicts : List DuplicateConflict
  degraded_reasons : Finset Str
  content_mode : TelemetryContentMode
  source_version : Option Str
  observed_at_ns : Option ℤ
  received_at : Option Str

/-- `_DEGRADED_WARNING_CODES`. -/
def DEGRADED_WARNING_CODES : List TelemetryWarningCode :=
  [.CHECKPOINT_CORRUPT, .CHECKPOINT_NEWER_VERSION, .CONTENT_POLICY_CONFLICT, .DUPLICATE_CONFLICT,
    .FIELD_TRUNCATED, .FILE_LIMIT_EXCEEDED, .INVALID_USAGE_SHAPE, .LINE_TOO_LONG, .MALFORMED_RECORD,
    .PARTIAL_RECORD_DISCARDED, .SIZE_LIMIT_EXCEEDED, .SOURCE_FILE_CHANGED, .SPAN_LIMIT_EXCEEDED]

/-- `counts[code] += 1`. -/
def WarningCounts.increment (counts : WarningCounts) (code : TelemetryWarningCode) : WarningCounts :=
  fun c => if c = code then some ((counts code).getD 0 + 1) else counts c

namespace Provider

variable {F : Type}

/-- `__init__`. -/
def init : Provider F where
  loaded := false
  checkpoint_write_disabled := false
  dirty := false
  has_source_files := false
  spans := Table.empty
  file_cursors := Table.empty
  warning_counts := fun _ => none
  duplicate_conflicts := []
  degraded_reasons := ∅
  content_mode := .METADATA
  source_version := none
  observed_at_ns := none
  received_at := none

/-- `_record_warning`. -/
def record_warning (p : Provider F) (code : TelemetryWarningCode) : Provider F :=
  { p with
    warning_counts := p.warning_counts.increment code
    degraded_reasons :=
      if code ∈ DEGRADED_WARNING_CODES then insert (str code.value) p.degraded_reasons
      else p.degraded_reasons
    dirty := true }

/-- What a computation notes, left on the reader. -/
def take_note (p : Provider F) : Note → Provider F
  | .warning code => p.record_warning code
  | .policy_conflict => { p with content_mode := .POLICY_CONFLICT }

/-- `_observe_source_time`. -/
def observe_source_time (p : Provider F) (candidate_ns : ℤ) : Provider F :=
  match p.observed_at_ns with
  | none => { p with observed_at_ns := some candidate_ns }
  | some observed =>
    if candidate_ns > observed then { p with observed_at_ns := some candidate_ns } else p

/-- The end of `_process_line`: the span is kept, unless one with its key is. -/
def keep_span (limits : TelemetryReaderLimits) (p : Provider F) (span : TelemetrySpan F) : Provider F :=
  match p.spans.get span.encoded with
  | none =>
    if p.spans.rows.length ≥ limits.max_distinct_spans then p.record_warning .SPAN_LIMIT_EXCEEDED
    else
      let p := { p with
        spans := p.spans.put span
        source_version := span.source_version.or p.source_version }
      { p.observe_source_time span.ended_at_ns with dirty := true }
  | some existing =>
    if existing.digest = span.digest then p
    else
      let conflict : DuplicateConflict := ⟨span.key, existing.provenance, span.provenance⟩
      { p with duplicate_conflicts := p.duplicate_conflicts ++ [conflict] }.record_warning
        .DUPLICATE_CONFLICT

end Provider

/-- A reader, and whether the computation on it was left by an exception. -/
structure Ran (F : Type) where
  provider : Provider F
  raised : Bool

/-! ## Lines -/

section Lines

variable {F : Type} (settings : Settings F)

/-- The span in a line, if there is one. -/
def span_of_line (provenance : SpanProvenance) (raw_line : List UInt8) : Noted (Option (TelemetrySpan F)) :=
  match settings.py.loads raw_line with
  | .raises => .lift none
  | .malformed => do
    .warn .MALFORMED_RECORD
    pure none
  | .value payload =>
    match mapping payload with
    | none => do
      .warn .MALFORMED_RECORD
      pure none
    | some record =>
      match parse_string (get record "type") with
      | none => do
        .warn .MALFORMED_RECORD
        pure none
      | some record_type =>
        if record_type = str "span" then normalize_span settings record provenance
        else if record_type = str "metric" then pure none
        else do
          .warn .UNKNOWN_RECORD
          pure none

/-- `_process_line`, at the time `now`. -/
def process_line (now : Str) (provenance : SpanProvenance) (raw_line : List UInt8)
    (p : Provider F) : Ran F :=
  let line := span_of_line settings provenance raw_line
  let p := line.notes.foldl Provider.take_note { p with received_at := some now }
  match line.result with
  | none => ⟨p, true⟩
  | some none => ⟨p, false⟩
  | some (some span) => ⟨p.keep_span settings.limits span, false⟩

end Lines

/-! ## The bytes of a file -/

/-- What is done with a piece of a file. -/
inductive Event where
  /-- `_record_warning`. -/
  | warning (code : TelemetryWarningCode)
  /-- `_process_line`. -/
  | line (offset : ℕ) (raw_line : List UInt8)
  deriving DecidableEq

/-- `bytes.splitlines`, with the line read so far. -/
def splitlines_from : List UInt8 → List UInt8 → List (List UInt8)
  | current, [] => if current = [] then [] else [current]
  | current, 13 :: 10 :: rest => current :: splitlines_from [] rest
  | current, 13 :: rest => current :: splitlines_from [] rest
  | current, 10 :: rest => current :: splitlines_from [] rest
  | current, b :: rest => splitlines_from (current ++ [b]) rest

/-- `bytes.splitlines`. -/
def splitlines (data : List UInt8) : List (List UInt8) := splitlines_from [] data

/-- The bytes up to and with the last line break: `raw_bytes[: newline_index + 1]`. -/
def complete (raw_bytes : List UInt8) : List UInt8 := raw_bytes.rdropWhile (· ≠ 10)

/-- The bytes after it: `raw_bytes[newline_index + 1 :]`. -/
def trailing (raw_bytes : List UInt8) : List UInt8 := raw_bytes.rtakeWhile (· ≠ 10)

/-- The loop over the complete lines, the first of them at the offset. -/
def line_events (limits : TelemetryReaderLimits) : ℕ → List (List UInt8) → List Event
  | _, [] => []
  | offset, raw_line :: lines =>
    (if raw_line.length > limits.max_line_bytes then Event.warning .LINE_TOO_LONG
      else Event.line offset raw_line)
      :: line_events limits (offset + (raw_line.length + 1)) lines

/-- `processed_bytes`. -/
def processed_bytes (lines : List (List UInt8)) : ℕ := (lines.map fun line => line.length + 1).sum

/-- `can_discard_partial`. -/
def can_discard_partial (info : TelemetryRuntimeInfo) (path : Str) : Bool :=
  info.state = .IDLE || (info.state = .RUNNING && info.active_launch_path ≠ some path)

/-- What becomes of an unfinished line at the end of what was read: a warning, and the
offset to go on from; `none` leaves it for the next time. -/
def discard_trailing (limits : TelemetryReaderLimits) (info : TelemetryRuntimeInfo) (path : Str)
    (trailing : List UInt8) (read_end_offset file_size : ℕ) : Option (TelemetryWarningCode × ℕ) :=
  let reached_file_end : Bool := read_end_offset ≥ file_size
  if trailing = [] then none
  else if trailing.length > limits.max_line_bytes then
    some (.LINE_TOO_LONG, if reached_file_end then file_size else read_end_offset)
  else if reached_file_end && can_discard_partial info path then
    some (.PARTIAL_RECORD_DISCARDED, file_size)
  else none

/-- `_consume_complete_records`: what is done, in order, and the offset to go on from. -/
def consume_complete_records (limits : TelemetryReaderLimits) (info : TelemetryRuntimeInfo)
    (path : Str) (raw_bytes : List UInt8) (start_offset read_end_offset file_size : ℕ) : List Event × ℕ :=
  if raw_bytes = [] then ([], start_offset)
  else
    let lines := splitlines (complete raw_bytes)
    match discard_trailing limits info path (trailing raw_bytes) read_end_offset file_size with
    | some (code, offset) => (line_events limits start_offset lines ++ [.warning code], offset)
    | none => (line_events limits start_offset lines, start_offset + processed_bytes lines)

/-! ## Files -/

/-- An entry of the telemetry directory. -/
structure DirEntry where
  path : Str
  is_file : Bool
  device : ℤ
  inode : ℤ
  content : List UInt8

/-- A directory: no two of its entries have one path. -/
abbrev Directory := Table DirEntry.path

/-- What a poll finds: the directory, if there is one, what is known of the runtime,
and the time. -/
structure Surroundings where
  directory : Option Directory
  info : TelemetryRuntimeInfo
  now : Str

/-- `path.name`. -/
def file_name (path : Str) : Str := path.rtakeWhile (· ≠ point '/')

/-- A lower-case hexadecimal digit. -/
def is_hex_digit (c : Fin 0x110000) : Bool :=
  (48 ≤ c.val && c.val ≤ 57) || (97 ≤ c.val && c.val ≤ 102)

/-- The text is `str` of a `uuid.UUID`. -/
def is_uuid (text : Str) : Bool :=
  decide (text.length = 36) && text.zipIdx.all fun (c, i) =>
    if i = 8 ∨ i = 13 ∨ i = 18 ∨ i = 23 then c = point '-' else is_hex_digit c

/-- `_is_managed_jsonl_path`, for an entry of the directory: the name is that of a UUID. -/
def is_managed_jsonl_path (entry : DirEntry) : Bool :=
  let name := file_name entry.path
  entry.is_file && decide (name.drop 36 = str ".jsonl") && is_uuid (name.take 36)

/-- `_IngestReadResult`, with the reader. -/
structure IngestReadResult (F : Type) where
  ran : Ran F
  bytes_read : ℕ := 0
  deferred_due_to_budget : Bool := false

section Files

variable {F : Type} (settings : Settings F) (around : Surroundings)

/-- What is to be done with the pieces of a file is done. -/
def run_events (file_name : Str) : List Event → Provider F → Ran F
  | [], p => ⟨p, false⟩
  | .warning code :: events, p => run_events file_name events (p.record_warning code)
  | .line offset raw_line :: events, p =>
    let ran := process_line settings around.now ⟨file_name, offset⟩ raw_line p
    if ran.raised then ran else run_events file_name events ran.provider

/-- A cursor that is never moved again. -/
def seal_file (file : DirEntry) (device inode : ℤ) (p : Provider F) : Provider F :=
  let p := p.record_warning .SOURCE_FILE_CHANGED
  { p with file_cursors := p.file_cursors.put ⟨file.path, device, inode, file.content.length, true⟩ }

/-- `_ingest_file`, once it is known where to start. -/
def read_file (file : DirEntry) (start_offset max_bytes : ℕ) (p : Provider F) : IngestReadResult F :=
  if max_bytes = 0 then { ran := ⟨p, false⟩, deferred_due_to_budget := true }
  else
    let file_size := file.content.length
    let raw_bytes := (file.content.drop start_offset).take (min (file_size - start_offset) max_bytes)
    let read_end_offset := start_offset + raw_bytes.length
    let (events, end_offset) := consume_complete_records settings.limits around.info file.path
      raw_bytes start_offset read_end_offset file_size
    let ran := run_events settings around (file_name file.path) events p
    if ran.raised then { ran := ran }
    else
      { ran := ⟨{ ran.provider with
          file_cursors :=
            ran.provider.file_cursors.put ⟨file.path, file.device, file.inode, end_offset, false⟩
          dirty := true }, false⟩
        bytes_read := raw_bytes.length
        deferred_due_to_budget := read_end_offset < file_size }

/-- `_ingest_file`. -/
def ingest_file (file : DirEntry) (max_bytes : ℕ) (p : Provider F) : IngestReadResult F :=
  match p.file_cursors.get file.path with
  | none =>
    if file.content.length = 0 then
      { ran := ⟨{ p with
          file_cursors := p.file_cursors.put ⟨file.path, file.device, file.inode, 0, false⟩
          dirty := true }, false⟩ }
    else read_file settings around file 0 max_bytes p
  | some cursor =>
    if cursor.sealed then { ran := ⟨p, false⟩ }
    else if file.inode ≠ cursor.inode ∨ file.device ≠ cursor.device then
      { ran := ⟨seal_file file file.device file.inode p, false⟩ }
    else if file.content.length < cursor.offset then
      { ran := ⟨seal_file file cursor.device cursor.inode p, false⟩ }
    else if file.content.length = cursor.offset then { ran := ⟨p, false⟩ }
    else read_file settings around file cursor.offset max_bytes p

/-- The loop of `_ingest_selected_files`. -/
def ingest_selected_files : List DirEntry → ℕ → Bool → Provider F → Ran F
  | [], _, size_limited, p => ⟨if size_limited then p.record_warning .SIZE_LIMIT_EXCEEDED else p, false⟩
  | file :: files, remaining_bytes, size_limited, p =>
    let result := ingest_file settings around file remaining_bytes p
    if result.ran.raised then result.ran
    else
      ingest_selected_files files (remaining_bytes - result.bytes_read)
        (size_limited || result.deferred_due_to_budget) result.ran.provider

/-- `priority_rank`. -/
def priority_rank (p : Provider F) (path : Str) : ℕ × Str :=
  if around.info.active_launch_path = some path then (0, path)
  else if (p.file_cursors.get path).isSome then (1, path)
  else (2, path)

/-- The order in which files are read. -/
def priority_le (p : Provider F) (a b : DirEntry) : Prop :=
  (priority_rank around p a.path).1 < (priority_rank around p b.path).1
    ∨ ((priority_rank around p a.path).1 = (priority_rank around p b.path).1
      ∧ (priority_rank around p a.path).2 ≤ (priority_rank around p b.path).2)

instance (p : Provider F) (a b : DirEntry) : Decidable (priority_le around p a b) :=
  inferInstanceAs (Decidable (_ ∨ _))

/-- `_discover_selected_files`: the files to read, and the reader. -/
def discover_selected_files (p : Provider F) : List DirEntry × Provider F :=
  match around.directory with
  | none => ([], { p with has_source_files := false })
  | some directory =>
    let discovered := directory.rows.filter is_managed_jsonl_path
    let ordered := discovered.insertionSort (priority_le around p)
    let p := { p with has_source_files := !discovered.isEmpty }
    if ordered.length > settings.limits.max_files then
      (ordered.take settings.limits.max_files, p.record_warning .FILE_LIMIT_EXCEEDED)
    else (ordered, p)

/-- The cursors of files that are no longer there. -/
def missing_paths (selected_files : List DirEntry) (p : Provider F) : List FileCursor :=
  p.file_cursors.rows.filter fun cursor =>
    !(selected_files.map DirEntry.path).contains cursor.path && !cursor.sealed

/-- `_ingest_incremental`. -/
def ingest_incremental (p : Provider F) : Ran F :=
  let discovered := discover_selected_files settings around p
  let ran := ingest_selected_files settings around discovered.1 settings.limits.max_total_bytes false
    discovered.2
  if ran.raised then ran
  else if (missing_paths discovered.1 ran.provider).isEmpty then ran
  else ⟨{ ran.provider with dirty := true }, false⟩

/-- `_replay_all_files`. -/
def replay_all_files (p : Provider F) : Ran F :=
  let p := { p with
    spans := Table.empty
    file_cursors := Table.empty
    duplicate_conflicts := []
    observed_at_ns := none
    has_source_files := false }
  let discovered := discover_selected_files settings around p
  ingest_selected_files settings around discovered.1 settings.limits.max_total_bytes false discovered.2

end Files

end AgentSpace.Telemetry.Otel
