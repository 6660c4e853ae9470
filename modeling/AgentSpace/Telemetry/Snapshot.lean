/-
The snapshot a telemetry reader builds: `_build_snapshot`.

The figures of a snapshot are made of the facts about the spans that are kept, in the
order of their times (`figures_of`); everything else is copied from the reader. A walk to
the agents above a call may not come to an end, and is given a number of turns.
-/
import AgentSpace.Telemetry.Reader
import Mathlib.Data.Finset.Sort

set_option autoImplicit false

namespace AgentSpace.Telemetry.Otel

open Lib

/-! ## Snapshots -/

/-- `CacheSignalState`. -/
inductive CacheSignalState where
  | HEALTHY
  | CACHE_RESET_SUSPECTED
  | EXPECTED_BOUNDARY
  | UNKNOWN
  deriving DecidableEq

/-- `CacheSignalConfidence`. -/
inductive CacheSignalConfidence where
  | LOW
  | MEDIUM
  deriving DecidableEq

/-- `CacheSignalReason`. -/
inductive CacheSignalReason where
  | REUSE_COLLAPSED
  | CONTEXT_DISCONTINUITY
  | COMPACTION_OR_TRUNCATION
  | MODEL_CHANGED
  deriving DecidableEq

/-- `ModelCallSummary`. -/
structure ModelCallSummary (F : Type) where
  started_at : Option Str
  ended_at : Option Str
  duration_ms : Option ℤ
  model : Option Str
  requested_model : Option Str
  provider : Option Str
  agent_id : Option Str
  agent_name : Option Str
  is_subagent : Bool
  cache_reporting : CacheReportingState
  token_accounting_convention : TokenAccountingConvention
  usage : UsageBreakdown F
  deriving DecidableEq

/-- `ActivityCounts`. -/
structure ActivityCounts where
  interactions : ℕ
  model_calls : ℕ
  tool_calls : ℕ
  subagent_invocations : ℕ
  subagent_model_calls : ℕ
  errors : ℕ
  deriving DecidableEq

/-- `ReportingCoverage`. -/
structure ReportingCoverage where
  model_calls : ℕ
  cache_reported_calls : ℕ
  convention_resolved_calls : ℕ
  effective_input_covered_calls : ℕ
  context_reported : Bool
  deriving DecidableEq

/-- `SubagentBreakdown`. -/
structure SubagentBreakdown where
  invocations : ℕ
  model_calls : ℕ
  effective_input_tokens : Option ℤ
  output_tokens : Option ℤ
  cache_read_input_tokens : Option ℤ
  cache_write_input_tokens : Option ℤ
  duration_ms : Option ℤ
  deriving DecidableEq

/-- `CacheSignal`. -/
structure CacheSignal where
  state : CacheSignalState
  confidence : Option CacheSignalConfidence := none
  reason : Option CacheSignalReason := none
  deriving DecidableEq

/-- The part of a `TelemetrySnapshot` that is worked out from the spans. -/
structure Figures (F : Type) where
  session : UsageBreakdown F
  latest_call : Option (ModelCallSummary F)
  context : Option ContextUsage
  counts : ActivityCounts
  subagents : SubagentBreakdown
  cache_signal : Option CacheSignal
  reporting : ReportingCoverage
  deriving DecidableEq

/-! ## Sums -/

section Sums

variable {F : Type}

/-- The loop of `_sum_all`. -/
def sum_all_from : ℤ → List (Option ℤ) → Option ℤ
  | total, [] => some total
  | _, none :: _ => none
  | total, some value :: values => sum_all_from (total + value) values

/-- `_sum_all`. -/
def sum_all (values : List (Option ℤ)) : Option ℤ := sum_all_from 0 values

/-- The loop of `_sum_all_float`. -/
def sum_all_float_from (py : Python F) : F → List (Option F) → Option F
  | total, [] => some total
  | _, none :: _ => none
  | total, some value :: values => sum_all_float_from py (py.add total value) values

/-- `_sum_all_float`. -/
def sum_all_float (py : Python F) (values : List (Option F)) : Option F :=
  sum_all_float_from py (py.lit 0) values

/-- The share of the cache in the input of all the calls. -/
def aggregate_reuse_percent (py : Python F) (usages : List (ModelUsageDetails F))
    (effective_sum cache_read_sum : Option ℤ) : Option F :=
  match effective_sum, cache_read_sum with
  | some effective, some read =>
    if effective > 0 ∧ usages.all (fun usage => usage.cache_reporting = .REPORTED) then
      some (percent py read effective)
    else none
  | _, _ => none

/-- `_aggregate_usage`. -/
def aggregate_usage (py : Python F) (usages : List (ModelUsageDetails F)) : UsageBreakdown F :=
  if usages = [] then {}
  else
    let sum (field : UsageBreakdown F → Option ℤ) := sum_all (usages.map fun u => field u.usage)
    let effective_sum := sum UsageBreakdown.effective_input_tokens
    let cache_read_sum := sum UsageBreakdown.cache_read_input_tokens
    { raw_input_tokens := sum UsageBreakdown.raw_input_tokens
      effective_input_tokens := effective_sum
      output_tokens := sum UsageBreakdown.output_tokens
      total_tokens := sum UsageBreakdown.total_tokens
      reasoning_output_tokens := sum UsageBreakdown.reasoning_output_tokens
      cache_read_input_tokens := cache_read_sum
      cache_write_input_tokens := sum UsageBreakdown.cache_write_input_tokens
      other_input_tokens := sum UsageBreakdown.other_input_tokens
      fresh_input_tokens := sum UsageBreakdown.fresh_input_tokens
      cache_reuse_percent := aggregate_reuse_percent py usages effective_sum cache_read_sum
      nano_aiu := sum UsageBreakdown.nano_aiu
      opaque_cost := sum_all_float py (usages.map fun u => u.usage.opaque_cost) }

/-- `_duration_ms`. -/
def duration_ms (started_at_ns ended_at_ns : ℤ) : ℤ :=
  max 0 ((ended_at_ns - started_at_ns) / 1000000)

end Sums

/-! ## Times of contexts -/

section Times

variable {F : Type} (py : Python F)

/-- `_parse_isoformat_ns`; a fraction has the digits `_isoformat_ns` writes. -/
def parse_isoformat_ns (value : Str) : Option ℤ :=
  if value.getLast? = some (point 'Z') then
    let trimmed := value.dropLast
    let base := trimmed.takeWhile (· ≠ point '.')
    if point '.' ∈ trimmed then
      let fraction := trimmed.drop (base.length + 1)
      if fraction.length > 9 ∨ number_of_digits fraction = none then none
      else do
        let fraction_ns ← number_of_digits (fraction ++ List.replicate (9 - fraction.length) (point '0'))
        let seconds ← py.fromisoformat base
        some (seconds * 1000000000 + fraction_ns)
    else (py.fromisoformat base).map fun seconds => seconds * 1000000000
  else none

/-- The loop over the contexts of the model calls. -/
def latest_context_from :
    Option ContextUsage × ℤ → List (Option ContextUsage) → Option ContextUsage × ℤ
  | latest, [] => latest
  | latest, context :: contexts =>
    match context, (context.bind ContextUsage.observed_at).bind (parse_isoformat_ns py) with
    | some context, some context_ns =>
      latest_context_from (if context_ns ≥ latest.2 then (some context, context_ns) else latest)
        contexts
    | _, _ => latest_context_from latest contexts

end Times

/-! ## The graph of calls -/

section Graph

variable {F : Type} (turns : ℕ) (index : List (SpanFacts F))

/-- `span_index.get`. -/
def index_get (key : Str) : Option (SpanFacts F) := index.find? fun span => span.encoded = key

/-- The `while current_parent_id is not None` loop of `nearest_agent`. -/
def climb (trace_id : Str) : ℕ → Option Str → Option (Option (SpanFacts F))
  | 0, _ => none
  | _ + 1, none => some none
  | turns + 1, some current_parent_id =>
    match index_get index (Telemetry.encode trace_id current_parent_id) with
    | none => some none
    | some parent =>
      if parent.kind = .AGENT then some (some parent)
      else climb trace_id turns parent.parent_span_id

/-- `nearest_agent`. What it remembers in `ancestor_cache` is what it would find again. -/
def nearest_agent (span : SpanFacts F) : Option (Option (SpanFacts F)) :=
  climb index span.key.trace_id turns span.parent_span_id

/-- The order in which the model calls are sorted. -/
def tuple_le (a b : SpanFacts F) : Prop :=
  (compareLex (compareOn fun s => s.started_at_ns) (compareLex (compareOn fun s => s.ended_at_ns)
    (compareLex (compareOn fun s => s.key.trace_id) (compareOn fun s => s.key.span_id))) a b).isLE

instance (a b : SpanFacts F) : Decidable (tuple_le a b) := inferInstanceAs (Decidable (_ = true))

/-- `model_spans`. -/
def model_spans : List (SpanFacts F) :=
  (index.filter fun span => span.kind = .MODEL_CALL).insertionSort tuple_le

/-- `latest_call_span`: the first of the greatest. -/
def latest_call_span : List (SpanFacts F) → Option (SpanFacts F)
  | [] => none
  | span :: rest => some (rest.foldl (fun best s => if tuple_le s best then best else s) span)

/-- `agent_spans`. -/
def agent_spans : List (SpanFacts F) := index.filter fun span => span.kind = .AGENT

/-- `subagent_ids`. -/
def subagent_ids : Finset Str :=
  (((agent_spans index).filter fun span => span.parent_span_id ≠ none).map SpanFacts.encoded).toFinset

/-- The agent is a subagent. -/
def is_subagent (agent : Option (SpanFacts F)) : Bool :=
  agent.any fun a => decide (a.encoded ∈ subagent_ids index)

/-- The spans of the list that belong to a subagent. -/
def subagent_model_spans : List (SpanFacts F) → Option (List (SpanFacts F))
  | [] => some []
  | span :: rest => do
    let agent ← nearest_agent turns index span
    let others ← subagent_model_spans rest
    if is_subagent index agent then some (span :: others) else some others

/-- `_call_lane`. -/
def call_lane (span : SpanFacts F) (latest_agent : Option (SpanFacts F)) :
    Option Str × Option Str × Option Str :=
  (str_or span.conversation_id (some span.key.trace_id),
    latest_agent.bind fun agent =>
      str_or (str_or agent.agent_id agent.agent_name) (some agent.encoded),
    str_or span.model span.requested_model)

/-- The `comparable` calls of `_build_cache_signal`: those in the lane. -/
def comparable_calls (latest_lane : Option Str × Option Str × Option Str) :
    List (SpanFacts F) → Option (List (SpanFacts F))
  | [] => some []
  | span :: rest =>
    if span.usage.isSome then do
      let agent ← nearest_agent turns index span
      let others ← comparable_calls latest_lane rest
      if call_lane span agent = latest_lane then some (span :: others) else some others
    else comparable_calls latest_lane rest

/-- What is learnt on the walks to the agents. -/
structure Walks (F : Type) where
  subagent_model_spans : List (SpanFacts F)
  latest_agent : Option (SpanFacts F)
  «comparable» : List (SpanFacts F)
  deriving DecidableEq

/-- The walks of `_build_snapshot`: for every model call, for the latest call, and for
the calls of its lane. -/
def walks : Option (Walks F) := do
  let spans := model_spans index
  let subagents ← subagent_model_spans turns index spans
  match latest_call_span spans with
  | none => some ⟨subagents, none, []⟩
  | some latest =>
    if latest.usage.isSome then do
      let latest_agent ← nearest_agent turns index latest
      let calls ← comparable_calls turns index (call_lane latest latest_agent) spans
      some ⟨subagents, latest_agent, calls⟩
    else some ⟨subagents, none, []⟩

end Graph

/-! ## The cache signal -/

section Signal

variable {F : Type} (py : Python F)

/-- The context of the calls has been cut to half of it or less. -/
def context_discontinuity (current previous : SpanFacts F) : Bool :=
  match current.context.bind ContextUsage.tokens, previous.context.bind ContextUsage.tokens with
  | some now, some before => decide (before > 0) && decide (now ≤ before / 2)
  | _, _ => false

/-- `_build_cache_signal`, for the last two calls of the lane. -/
def signal_of (current previous : SpanFacts F) : CacheSignal :=
  let current_model := str_or current.model current.requested_model
  let previous_model := str_or previous.model previous.requested_model
  match current.usage, previous.usage with
  | some current_details, some previous_details =>
    if current_model ≠ previous_model then
      { state := .EXPECTED_BOUNDARY, confidence := some .LOW, reason := some .MODEL_CHANGED }
    else
      match current_details.usage.cache_reuse_percent, previous_details.usage.cache_reuse_percent,
        current_details.usage.fresh_input_tokens, current_details.usage.effective_input_tokens with
      | some current_reuse, some previous_reuse, some fresh, some effective =>
        if current.has_compaction_or_truncation then
          { state := .CACHE_RESET_SUSPECTED, confidence := some .MEDIUM,
            reason := some .COMPACTION_OR_TRUNCATION }
        else
          let current_fresh_share := if effective > 0 then py.div fresh effective else py.lit 0
          if py.le (py.lit 50) previous_reuse && py.lt current_reuse (py.lit 10)
              && py.le (py.lit (1 / 2)) current_fresh_share then
            if context_discontinuity current previous then
              { state := .CACHE_RESET_SUSPECTED, confidence := some .MEDIUM,
                reason := some .CONTEXT_DISCONTINUITY }
            else
              { state := .CACHE_RESET_SUSPECTED, confidence := some .LOW,
                reason := some .REUSE_COLLAPSED }
          else { state := .HEALTHY }
      | _, _, _, _ => { state := .UNKNOWN }
  | _, _ => { state := .UNKNOWN }

/-- `_build_cache_signal`. -/
def build_cache_signal (latest : Option (SpanFacts F)) («comparable» : List (SpanFacts F)) :
    Option CacheSignal :=
  match latest.bind SpanFacts.usage with
  | none => none
  | some _ =>
    match «comparable».reverse with
    | current :: previous :: _ => some (signal_of py current previous)
    | _ => some { state := .UNKNOWN }

end Signal

/-! ## Building -/

section Building

variable {F : Type} (settings : Settings F)

/-- `interactions`. -/
def interactions (index : List (SpanFacts F)) : ℕ :=
  let interaction_roots := (agent_spans index).filter fun span => span.parent_span_id = none
  let traces_with_spans := (index.map fun span => span.key.trace_id).toFinset
  let traces_with_root := (interaction_roots.map fun span => span.key.trace_id).toFinset
  interaction_roots.length + (traces_with_spans \ traces_with_root).card

/-- `ReportingCoverage` of the model calls. -/
def reporting_coverage (spans : List (SpanFacts F)) (latest_context : Option ContextUsage) :
    ReportingCoverage where
  model_calls := spans.length
  cache_reported_calls := spans.countP fun span =>
    span.usage.any fun usage => usage.cache_reporting = .REPORTED
  convention_resolved_calls := spans.countP fun span =>
    span.usage.any fun usage => usage.token_accounting_convention ≠ .UNKNOWN
  effective_input_covered_calls := spans.countP fun span =>
    span.usage.any fun usage => usage.usage.effective_input_tokens.isSome
  context_reported := latest_context.isSome

/-- `latest_call`. -/
def latest_call_summary (index : List (SpanFacts F)) (latest_agent : Option (SpanFacts F)) :
    Option (SpanFacts F) → Noted (Option (ModelCallSummary F))
  | none => pure none
  | some latest =>
    match latest.usage with
    | none => pure none
    | some details => do
      let latest_usage ← sanitize_usage_breakdown settings details.usage
      let duration_ms ← sanitize_optional_u64
        (some (duration_ms latest.started_at_ns latest.ended_at_ns))
      pure (some {
        started_at := some latest.started_at
        ended_at := some latest.ended_at
        duration_ms := duration_ms
        model := latest.model
        requested_model := latest.requested_model
        provider := latest.provider
        agent_id := latest_agent.bind SpanFacts.agent_id
        agent_name := latest_agent.bind SpanFacts.agent_name
        is_subagent := is_subagent index latest_agent
        cache_reporting := details.cache_reporting
        token_accounting_convention := details.token_accounting_convention
        usage := latest_usage })

/-- The facts about the spans that are kept. -/
def Provider.index (p : Provider F) : List (SpanFacts F) := p.spans.rows.map TelemetrySpan.toSpanFacts

/-- The figures, once the walks have ended. -/
def figures_of (index : List (SpanFacts F)) (walks : Walks F) : Noted (Figures F) := do
  let spans := model_spans index
  let subagents := subagent_ids index
  let latest_context ← sanitize_context_usage
    (latest_context_from settings.py (none, -1) (spans.map SpanFacts.context)).1
  let session_usage ← sanitize_usage_breakdown settings
    (aggregate_usage settings.py (spans.filterMap SpanFacts.usage))
  let subagent_usage ← sanitize_usage_breakdown settings
    (aggregate_usage settings.py (walks.subagent_model_spans.filterMap SpanFacts.usage))
  let subagent_duration_ms ← sanitize_optional_u64 (sum_all
    (((agent_spans index).filter fun span => span.encoded ∈ subagents).map fun span =>
      some (duration_ms span.started_at_ns span.ended_at_ns)))
  let latest_call ← latest_call_summary settings index walks.latest_agent (latest_call_span spans)
  pure {
    session := session_usage
    latest_call := latest_call
    context := latest_context
    counts := {
      interactions := interactions index
      model_calls := spans.length
      tool_calls := index.countP fun span => span.kind = .TOOL_CALL
      subagent_invocations := subagents.card
      subagent_model_calls := walks.subagent_model_spans.length
      errors := index.countP SpanFacts.is_error }
    subagents := {
      invocations := subagents.card
      model_calls := walks.subagent_model_spans.length
      effective_input_tokens := subagent_usage.effective_input_tokens
      output_tokens := subagent_usage.output_tokens
      cache_read_input_tokens := subagent_usage.cache_read_input_tokens
      cache_write_input_tokens := subagent_usage.cache_write_input_tokens
      duration_ms := subagent_duration_ms }
    cache_signal := build_cache_signal settings.py (latest_call_span spans) walks.comparable
    reporting := reporting_coverage spans latest_context }

end Building

end AgentSpace.Telemetry.Otel
