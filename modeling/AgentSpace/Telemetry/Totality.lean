/-
Which lines of a telemetry file a poll survives.

Most of what a record holds is only looked at. A few things are converted: a text that
`json.loads` gives up on, a time beyond the years of a `datetime`, an integer too large for
a float, a text with a lone surrogate. A line without these is `Harmless`
(`poll_returns_iff`).
-/
import AgentSpace.Telemetry.Lines
import AgentSpace.Telemetry.Polls

set_option autoImplicit false

namespace AgentSpace.Telemetry.Otel

open Lib Noted

/-! ## Results without their notes -/

section Results

variable {F : Type} (settings : Settings F)

/-- The text of a field, cut to its limit. -/
def bounded (value : Value F) : Option Str :=
  (parse_string value).map (List.take settings.limits.max_string_length)

variable (value : Value F)

theorem result_bounded_string : (bounded_string settings value).result = some (bounded settings value) := by
  unfold bounded_string bounded
  cases parse_string value with
  | none => rfl
  | some parsed =>
    dsimp only
    split
    · rename_i hle
      rw [Option.map_some, List.take_of_length_le hle]
      rfl
    · rfl

theorem result_or_else_pure (a b : Option Str) : (or_else a (pure b)).result = some (str_or a b) := by
  unfold or_else str_or
  rcases a with _ | _ | ⟨c, s⟩ <;> rfl

/-- The model of a span. -/
def model_text (attributes : List (Str × Value F)) (name : Str) : Option Str :=
  str_or (bounded settings (get attributes "gen_ai.response.model"))
    (str_or (bounded settings (get attributes "gen_ai.request.model")) (name_suffix name "chat"))

variable (attributes : List (Str × Value F))

theorem result_model_of (name : Str) :
    (model_of settings attributes name).result = some (model_text settings attributes name) := by
  unfold model_of model_text
  rw [result_bind, result_bounded_string, Option.bind_some]
  rcases bounded settings (get attributes "gen_ai.response.model") with _ | _ | ⟨c, s⟩
  · show (Noted.result (_ >>= _)) = _
    rw [result_bind, result_bounded_string, Option.bind_some, result_or_else_pure]
    rfl
  · show (Noted.result (_ >>= _)) = _
    rw [result_bind, result_bounded_string, Option.bind_some, result_or_else_pure]
    rfl
  · rfl

theorem result_name_of (key : String) (name : Str) (word : String) :
    (name_of settings attributes key name word).result
      = some (str_or (bounded settings (get attributes key)) (name_suffix name word)) := by
  rw [name_of, result_bind, result_bounded_string, Option.bind_some, result_or_else_pure]

/-- The version of the source. -/
def version_text (record : List (Str × Value F)) : Option Str :=
  let attributes := mapping_or_empty (get (mapping_or_empty (get record "resource")) "attributes")
  (bounded settings (get (mapping_or_empty (get record "instrumentationScope")) "version")).or
    (str_or (bounded settings (get attributes "service.version"))
      (bounded settings (get attributes "github.copilot.version")))

theorem result_extract_source_version (record : List (Str × Value F)) :
    (extract_source_version settings record).result = some (version_text settings record) := by
  unfold extract_source_version version_text
  rw [result_bind, result_bounded_string, Option.bind_some]
  cases bounded settings (get (mapping_or_empty (get record "instrumentationScope")) "version") with
  | some version => rfl
  | none =>
    dsimp only
    rw [result_bind, result_bounded_string, Option.bind_some, Option.none_or]
    unfold or_else str_or
    rcases bounded settings (get (mapping_or_empty (get (mapping_or_empty
        (get record "resource")) "attributes")) "service.version") with _ | _ | ⟨c, s⟩
    · exact result_bounded_string ..
    · exact result_bounded_string ..
    · rfl

theorem result_note_conflict (conflict : Bool) : (note_conflict conflict).result = some () := by
  cases conflict <;> rfl

/-- The computation has a result, whatever it notes. -/
def Returns {α : Type} (x : Noted α) : Prop := x.result.isSome

variable {α β : Type}

theorem returns_bind {x : Noted α} {f : α → Noted β} :
    Returns (x >>= f) ↔ ∃ a, x.result = some a ∧ Returns (f a) := by
  unfold Returns
  rw [result_bind]
  cases x.result <;> simp

theorem returns_bind_of_returns {x : Noted α} {f : α → Noted β} {P : Prop}
    (hx : Returns x) (hf : ∀ a, Returns (f a) ↔ P) : Returns (x >>= f) ↔ P := by
  obtain ⟨a, ha⟩ := Option.isSome_iff_exists.1 hx
  rw [returns_bind]
  constructor
  · rintro ⟨b, -, hb⟩
    exact (hf b).1 hb
  · intro hP
    exact ⟨a, ha, (hf a).2 hP⟩

theorem returns_bind_always {x : Noted α} {f : α → Noted β} (hx : Returns x)
    (hf : ∀ a, Returns (f a)) : Returns (x >>= f) :=
  (returns_bind_of_returns hx fun a => iff_true_intro (hf a)).2 trivial

theorem returns_pure {α : Type} (a : α) : Returns (pure a : Noted α) := rfl

theorem returns_bounded_u64 : Returns (bounded_u64 settings value) := by
  unfold bounded_u64
  split
  · rfl
  · split
    · split <;> rfl
    · rfl

theorem returns_first_present (keys : List String) :
    Returns (first_present_bounded_u64 settings attributes keys) := by
  induction keys with
  | nil => rfl
  | cons key keys ih =>
    rw [first_present_bounded_u64]
    split
    · exact returns_bounded_u64 ..
    · exact ih

theorem returns_sanitize_u64 (value : Option ℤ) : Returns (sanitize_optional_u64 value) := by
  unfold sanitize_optional_u64
  split
  · rfl
  · split <;> rfl

theorem returns_sanitize_float (value : Option F) : Returns (sanitize_optional_float settings value) := by
  unfold sanitize_optional_float
  split
  · rfl
  · split <;> rfl

theorem returns_sanitize_usage (usage : UsageBreakdown F) :
    Returns (sanitize_usage_breakdown settings usage) := by
  unfold sanitize_usage_breakdown
  iterate 9 refine returns_bind_always (returns_sanitize_u64 _) fun _ => ?_
  refine returns_bind_always (returns_sanitize_float settings _) fun _ => ?_
  refine returns_bind_always (returns_sanitize_u64 _) fun _ => ?_
  refine returns_bind_always (returns_sanitize_float settings _) fun _ => ?_
  exact returns_pure _

theorem returns_sanitize_context (context : Option ContextUsage) :
    Returns (sanitize_context_usage context) := by
  cases context with
  | none => rfl
  | some context =>
    rw [sanitize_context_usage]
    iterate 3 refine returns_bind_always (returns_sanitize_u64 _) fun _ => ?_
    exact returns_pure _

/-! ## Costs and contexts -/

/-- The cost, if it is an integer, is not too large for a float. -/
def Convertible (cost : Value F) : Prop :=
  ∀ n, cost = .int n → (settings.py.float_of_int n).isSome

theorem returns_float_value : Returns (float_value settings.py value) ↔ Convertible settings value := by
  cases value with
  | int n =>
    rw [float_value, Returns, result_lift, Option.isSome_map]
    simp [Convertible]
  | null | bool _ | float _ | string _ | array _ | object _ =>
    simp [float_value, Convertible, returns_pure]

theorem returns_parse_float : Returns (parse_float settings.py value) ↔ Convertible settings value := by
  rw [parse_float, returns_bind, ← returns_float_value, Returns, Option.isSome_iff_exists]
  simp [returns_pure]

theorem returns_bounded_finite_float :
    Returns (bounded_finite_float settings value) ↔ Convertible settings value := by
  unfold bounded_finite_float
  split
  · simp [Convertible, returns_pure]
  · rw [← returns_parse_float, returns_bind]
    constructor
    · rintro ⟨parsed, hparsed, -⟩
      rw [Returns, hparsed]
      rfl
    · intro h
      obtain ⟨parsed, hparsed⟩ := Option.isSome_iff_exists.1 h
      refine ⟨parsed, hparsed, ?_⟩
      cases parsed <;> rfl

theorem returns_input_tokens (convention : TokenAccountingConvention)
    (cache_reporting : CacheReportingState) (raw read write : Option ℤ) :
    Returns (input_tokens convention cache_reporting raw read write) := by
  unfold input_tokens
  split
  · split
    · dsimp only
      split <;> rfl
    · rfl
  · split <;> rfl
  · rfl

theorem returns_normalize_model_usage :
    Returns (normalize_model_usage settings attributes)
      ↔ Convertible settings (get attributes "github.copilot.cost") := by
  unfold normalize_model_usage
  iterate 4 refine returns_bind_of_returns (returns_bounded_u64 settings _) fun _ => ?_
  refine returns_bind_of_returns (returns_first_present settings _ _) fun _ => ?_
  refine returns_bind_of_returns (returns_input_tokens _ _ _ _ _) fun _ => ?_
  refine returns_bind_of_returns (returns_sanitize_float settings _) fun _ => ?_
  refine returns_bind_of_returns (returns_bounded_u64 settings _) fun _ => ?_
  rw [← returns_bounded_finite_float, returns_bind]
  constructor
  · rintro ⟨cost, hcost, -⟩
    rw [Returns, hcost]
    rfl
  · intro h
    obtain ⟨cost, hcost⟩ := Option.isSome_iff_exists.1 h
    exact ⟨cost, hcost, returns_bind_always (returns_sanitize_usage settings _) fun _ => returns_pure _⟩

/-- The event reports no context, or its time is one that can be written. -/
def Datable (ended_at_ns : ℤ) (event : List (Str × Value F)) : Prop :=
  contains_any_context_key (mapping_or_empty (get event "attributes")) = true →
    (isoformat_ns settings.py (observed_ns settings event ended_at_ns)).isSome

theorem returns_event_context (ns : ℤ) :
    Returns (event_context settings attributes ns) ↔ (isoformat_ns settings.py ns).isSome := by
  unfold event_context
  iterate 3 refine returns_bind_of_returns (returns_bounded_u64 settings _) fun _ => ?_
  rw [returns_bind, result_lift]
  simp [Option.isSome_iff_exists, returns_pure]

theorem returns_best_context (ended_at_ns : ℤ) (events : List (List (Str × Value F))) :
    ∀ best, Returns (best_context settings ended_at_ns events best)
      ↔ ∀ event ∈ events, Datable settings ended_at_ns event := by
  induction events with
  | nil => simp [best_context, returns_pure]
  | cons event events ih =>
    intro best
    rw [best_context, List.forall_mem_cons]
    dsimp only
    by_cases hcontext : contains_any_context_key (mapping_or_empty (get event "attributes")) = true
    · rw [if_pos hcontext, Datable, returns_bind]
      simp only [hcontext, forall_const]
      rw [← returns_event_context settings (mapping_or_empty (get event "attributes"))]
      constructor
      · rintro ⟨context, hresult, hrest⟩
        refine ⟨?_, (ih _).1 hrest⟩
        rw [Returns, hresult]
        rfl
      · rintro ⟨hcontext, hrest⟩
        obtain ⟨context, hresult⟩ := Option.isSome_iff_exists.1 hcontext
        exact ⟨context, hresult, (ih _).2 hrest⟩
    · rw [if_neg hcontext, ih, Datable]
      simp [hcontext]

theorem returns_extract_context (ended_at_ns : ℤ) (events : List (List (Str × Value F))) :
    Returns (extract_context settings events ended_at_ns)
      ↔ ∀ event ∈ events, Datable settings ended_at_ns event := by
  rw [extract_context, returns_bind, ← returns_best_context settings ended_at_ns events none]
  constructor
  · rintro ⟨best, hbest, -⟩
    rw [Returns, hbest]
    rfl
  · intro h
    obtain ⟨best, hbest⟩ := Option.isSome_iff_exists.1 h
    exact ⟨best, hbest, returns_sanitize_context _⟩

theorem returns_usage_and_context (kind : SpanKind) (attributes : List (Str × Value F))
    (events : List (List (Str × Value F))) (ended_at_ns : ℤ) :
    Returns (usage_and_context settings kind attributes events ended_at_ns)
      ↔ (kind = .MODEL_CALL → Convertible settings (get attributes "github.copilot.cost")
        ∧ ∀ event ∈ events, Datable settings ended_at_ns event) := by
  unfold usage_and_context
  by_cases hkind : kind = .MODEL_CALL
  · rw [if_pos hkind, returns_bind, ← returns_normalize_model_usage, ← returns_extract_context]
    simp only [hkind, forall_const]
    constructor
    · rintro ⟨usage, husage, hrest⟩
      obtain ⟨context, hcontext, -⟩ := returns_bind.1 hrest
      refine ⟨?_, ?_⟩
      · rw [Returns, husage]
        rfl
      · rw [Returns, hcontext]
        rfl
    · rintro ⟨husage, hcontext⟩
      obtain ⟨usage, husage⟩ := Option.isSome_iff_exists.1 husage
      obtain ⟨context, hcontext⟩ := Option.isSome_iff_exists.1 hcontext
      exact ⟨usage, husage, returns_bind.2 ⟨context, hcontext, returns_pure _⟩⟩
  · rw [if_neg hkind]
    simp [hkind, returns_pure]

end Results

/-! ## Spans -/

section Spans

variable {F : Type} (settings : Settings F)

/-- The span of a record, before its digest. -/
def raw_span (record : List (Str × Value F)) (provenance : SpanProvenance) (trace_id span_id : Str)
    (started_at_ns ended_at_ns : ℤ) (name : Str)
    (found : Option (ModelUsageDetails F) × Option ContextUsage) (started_at ended_at : Str) :
    TelemetrySpan F :=
  let attributes := mapping_or_empty (get record "attributes")
  let events := sequence_of_mappings (get record "events")
  let text (key : String) := bounded settings (get attributes key)
  { key := ⟨trace_id, span_id⟩
    parent_span_id := bounded settings (get record "parentSpanId")
    kind := Telemetry.classify_span name
    name := some name
    started_at_ns := started_at_ns
    ended_at_ns := ended_at_ns
    started_at := started_at
    ended_at := ended_at
    is_error := status_is_error settings (get record "status")
    model := model_text settings attributes name
    requested_model := text "gen_ai.request.model"
    provider := text "gen_ai.system"
    conversation_id := text "gen_ai.conversation.id"
    interaction_id := text "github.copilot.interaction_id"
    turn_id := text "github.copilot.turn_id"
    response_id := text "gen_ai.response.id"
    previous_response_id := text "gen_ai.request.previous_response.id"
    agent_id := text "gen_ai.agent.id"
    agent_name := str_or (text "gen_ai.agent.name") (name_suffix name "invoke_agent")
    tool_name := str_or (text "gen_ai.tool.name") (name_suffix name "execute_tool")
    tool_type := text "gen_ai.tool.type"
    tool_call_id := text "gen_ai.tool.call.id"
    usage := found.1
    context := found.2
    has_compaction_or_truncation := events_contain_compaction settings events
    source_version := version_text settings record
    provenance := provenance
    digest := [] }

variable (record : List (Str × Value F))

theorem result_span_of_record (provenance : SpanProvenance)
    (trace_id span_id : Str) (started_at_ns ended_at_ns : ℤ) (name : Str) :
    (span_of_record settings record provenance trace_id span_id started_at_ns ended_at_ns name).result
      = (content_conflict settings (mapping_or_empty (get record "attributes"))
            (sequence_of_mappings (get record "events"))).bind fun _ =>
          (usage_and_context settings (Telemetry.classify_span name)
              (mapping_or_empty (get record "attributes"))
              (sequence_of_mappings (get record "events")) ended_at_ns).result.bind fun found =>
            (isoformat_ns settings.py started_at_ns).bind fun started_at =>
              (isoformat_ns settings.py ended_at_ns).bind fun ended_at =>
                (hash_span settings.py (raw_span settings record provenance trace_id span_id
                    started_at_ns ended_at_ns name found started_at ended_at)).map fun digest =>
                  { raw_span settings record provenance trace_id span_id started_at_ns ended_at_ns
                      name found started_at ended_at with digest := digest } := by
  unfold span_of_record
  simp only [result_bind, result_lift, result_bounded_string, result_extract_source_version,
    result_model_of, result_name_of, result_note_conflict, result_pure, Option.bind_some,
    Option.map_eq_bind, Function.comp_def]
  rfl

/-- The text is missing, or has no lone surrogate. -/
def Clean (text : Option Str) : Prop := ∀ s ∈ text, has_surrogate s = false

theorem encodes_of_text (text : Option Str) : Encodes (of_text (F := F) text) ↔ Clean text := by
  cases text <;> simp [of_text, Encodes, Clean]

theorem encodes_of_number (n : Option ℤ) : Encodes (of_number (F := F) n) := by
  cases n <;> trivial

theorem encodes_of_float (x : Option F) : Encodes (of_float x) := by
  cases x <;> trivial

theorem encodes_usage (details : ModelUsageDetails F) : Encodes details.serialize := by
  simp only [ModelUsageDetails.serialize, UsageBreakdown.asdict, Encodes, EncodesEntries,
    has_surrogate_str, encodes_of_number, encodes_of_float, and_self]

theorem encodes_context (context : ContextUsage) :
    Encodes (context.asdict (F := F)) ↔ Clean context.observed_at := by
  simp only [ContextUsage.asdict, Encodes, EncodesEntries, has_surrogate_str, encodes_of_number,
    encodes_of_text, true_and, and_true]

/-- The texts of a span. -/
def TelemetrySpan.texts (span : TelemetrySpan F) : List (Option Str) :=
  [some span.key.trace_id, some span.key.span_id, span.parent_span_id, span.name,
    some span.started_at, some span.ended_at, span.model, span.requested_model, span.provider,
    span.conversation_id, span.interaction_id, span.turn_id, span.response_id,
    span.previous_response_id, span.agent_id, span.agent_name, span.tool_name, span.tool_type,
    span.tool_call_id, span.context.bind ContextUsage.observed_at, span.source_version]

theorem encodes_serialize_span (span : TelemetrySpan F) :
    Encodes (serialize_span span) ↔ ∀ text ∈ span.texts, Clean text := by
  have husage : Encodes ((span.usage.map ModelUsageDetails.serialize).getD .null) := by
    cases span.usage with
    | none => trivial
    | some details => exact encodes_usage details
  have hcontext : Encodes ((span.context.map (ContextUsage.asdict (F := F))).getD .null)
      ↔ Clean (span.context.bind ContextUsage.observed_at) := by
    cases span.context with
    | none => simp [Encodes, Clean]
    | some context => exact encodes_context context
  have hsome : ∀ s : Str, Clean (some s) ↔ has_surrogate s = false := fun s => by simp [Clean]
  simp only [serialize_span, TelemetrySpan.texts, Encodes, EncodesEntries, has_surrogate_str,
    encodes_of_text, husage, hcontext, hsome, true_and, and_true, List.forall_mem_cons,
    List.not_mem_nil, false_imp_iff, implies_true, and_assoc]

theorem hash_span_isSome_iff (span : TelemetrySpan F) :
    (hash_span settings.py span).isSome ↔ ∀ text ∈ span.texts, Clean text := by
  rw [hash_span, Option.isSome_map, encodes_dumps_iff, encodes_serialize_span]

theorem clean_isoformat_ns {ns : ℤ} {text : Str} (h : isoformat_ns settings.py ns = some text) :
    has_surrogate text = false := by
  obtain ⟨base, hbase, rfl⟩ := Option.map_eq_some_iff.1 h
  have hplain := has_surrogate_of_plain (settings.py.strftime_plain _ _ hbase)
  have hdigits : has_surrogate (nine_digits (ns % 1000000000)) = false := by
    refine has_surrogate_of_plain fun c hc => ?_
    obtain ⟨d, hd, rfl⟩ := List.mem_map.1 hc
    have hdigit := Text.decimal_padded_digits hd
    simp only [Char.isDigit, Bool.and_eq_true, decide_eq_true_eq] at hdigit
    have hle : d.toNat ≤ 57 := UInt32.le_iff_toNat_le.1 hdigit.2
    exact point_plain (by omega)
  split
  · simp [hplain, hdigits]
  · simp [hplain]

/-- The time of a context is plain text. -/
theorem clean_best_context (ended_at_ns : ℤ) (events : List (List (Str × Value F))) :
    ∀ {best found : Option (ℤ × ContextUsage)}, (∀ b ∈ best, Clean b.2.observed_at) →
      (best_context settings ended_at_ns events best).result = some found →
      ∀ b ∈ found, Clean b.2.observed_at := by
  induction events with
  | nil =>
    intro best found hbest h
    rw [best_context, result_pure] at h
    exact Option.some.inj h ▸ hbest
  | cons event events ih =>
    intro best found hbest h
    rw [best_context] at h
    dsimp only at h
    split at h
    · rw [result_bind] at h
      obtain ⟨context, hcontext, hrest⟩ := Option.bind_eq_some_iff.1 h
      have hclean : Clean context.observed_at := by
        simp only [event_context, result_bind, result_lift] at hcontext
        obtain ⟨_, -, hcontext⟩ := Option.bind_eq_some_iff.1 hcontext
        obtain ⟨_, -, hcontext⟩ := Option.bind_eq_some_iff.1 hcontext
        obtain ⟨_, -, hcontext⟩ := Option.bind_eq_some_iff.1 hcontext
        obtain ⟨text, htext, hcontext⟩ := Option.bind_eq_some_iff.1 hcontext
        rw [result_pure, Option.some.injEq] at hcontext
        rw [← hcontext]
        intro s hs
        rw [← Option.some.inj hs]
        exact clean_isoformat_ns settings htext
      refine ih (fun b hb => ?_) hrest
      split at hb
      · rw [← Option.some.inj hb]
        exact hclean
      · rename_i ns kept
        split at hb
        · rw [← Option.some.inj hb]
          exact hclean
        · exact hbest b hb
    · exact ih hbest h

theorem clean_usage_and_context {kind : SpanKind} {attributes : List (Str × Value F)}
    {events : List (List (Str × Value F))} {ended_at_ns : ℤ}
    {found : Option (ModelUsageDetails F) × Option ContextUsage}
    (h : (usage_and_context settings kind attributes events ended_at_ns).result = some found) :
    Clean (found.2.bind ContextUsage.observed_at) := by
  unfold usage_and_context at h
  split at h
  · rw [result_bind] at h
    obtain ⟨usage, -, h⟩ := Option.bind_eq_some_iff.1 h
    rw [result_bind] at h
    obtain ⟨context, hcontext, h⟩ := Option.bind_eq_some_iff.1 h
    rw [result_pure, Option.some.injEq] at h
    rw [← h]
    rw [extract_context, result_bind] at hcontext
    obtain ⟨best, hbest, hcontext⟩ := Option.bind_eq_some_iff.1 hcontext
    have hclean := clean_best_context settings ended_at_ns events (fun b hb => by cases hb) hbest
    cases best with
    | none =>
      obtain rfl : none = context := Option.some.inj hcontext
      exact fun s hs => by cases hs
    | some best =>
      rw [Option.map_some, sanitize_context_usage] at hcontext
      simp only [result_bind] at hcontext
      obtain ⟨_, -, hcontext⟩ := Option.bind_eq_some_iff.1 hcontext
      obtain ⟨_, -, hcontext⟩ := Option.bind_eq_some_iff.1 hcontext
      obtain ⟨_, -, hcontext⟩ := Option.bind_eq_some_iff.1 hcontext
      rw [result_pure, Option.some.injEq] at hcontext
      rw [← hcontext]
      exact hclean best rfl
  · rw [result_pure, Option.some.injEq] at h
    rw [← h]
    exact fun s hs => by cases hs

/-- The texts of a record that are kept, apart from its times. -/
def record_texts (record : List (Str × Value F)) (trace_id span_id name : Str) : List (Option Str) :=
  let attributes := mapping_or_empty (get record "attributes")
  let text (key : String) := bounded settings (get attributes key)
  [some trace_id, some span_id, bounded settings (get record "parentSpanId"), some name,
    model_text settings attributes name, text "gen_ai.request.model", text "gen_ai.system",
    text "gen_ai.conversation.id", text "github.copilot.interaction_id",
    text "github.copilot.turn_id", text "gen_ai.response.id",
    text "gen_ai.request.previous_response.id", text "gen_ai.agent.id",
    str_or (text "gen_ai.agent.name") (name_suffix name "invoke_agent"),
    str_or (text "gen_ai.tool.name") (name_suffix name "execute_tool"), text "gen_ai.tool.type",
    text "gen_ai.tool.call.id", version_text settings record]

/-- A record whose ids, times and name make it a span holds nothing that cannot be
converted. -/
structure HarmlessSpan (record : List (Str × Value F)) (trace_id span_id : Str)
    (started_at_ns ended_at_ns : ℤ) (name : Str) : Prop where
  content : (content_conflict settings (mapping_or_empty (get record "attributes"))
    (sequence_of_mappings (get record "events"))).isSome
  started : (isoformat_ns settings.py started_at_ns).isSome
  ended : (isoformat_ns settings.py ended_at_ns).isSome
  call : Telemetry.classify_span name = .MODEL_CALL →
    Convertible settings (get (mapping_or_empty (get record "attributes")) "github.copilot.cost")
      ∧ ∀ event ∈ sequence_of_mappings (get record "events"), Datable settings ended_at_ns event
  texts : ∀ text ∈ record_texts settings record trace_id span_id name, Clean text

theorem clean_raw_span (provenance : SpanProvenance)
    (trace_id span_id : Str) (started_at_ns ended_at_ns : ℤ) (name : Str)
    (found : Option (ModelUsageDetails F) × Option ContextUsage) {started_at ended_at : Str}
    (hstarted : has_surrogate started_at = false) (hended : has_surrogate ended_at = false)
    (hfound : Clean (found.2.bind ContextUsage.observed_at)) :
    (∀ text ∈ (raw_span settings record provenance trace_id span_id started_at_ns ended_at_ns name
        found started_at ended_at).texts, Clean text)
      ↔ ∀ text ∈ record_texts settings record trace_id span_id name, Clean text := by
  have hstarted : Clean (some started_at) := fun s hs => Option.some.inj hs ▸ hstarted
  have hended : Clean (some ended_at) := fun s hs => Option.some.inj hs ▸ hended
  simp only [TelemetrySpan.texts, record_texts, raw_span, List.forall_mem_cons, hstarted, hended,
    hfound, true_and, List.not_mem_nil, false_imp_iff, implies_true, and_true]

/-- A record that is a span is normalized if and only if it is harmless. -/
theorem returns_span_of_record (provenance : SpanProvenance)
    (trace_id span_id : Str) (started_at_ns ended_at_ns : ℤ) (name : Str) :
    Returns (span_of_record settings record provenance trace_id span_id started_at_ns ended_at_ns
        name)
      ↔ HarmlessSpan settings record trace_id span_id started_at_ns ended_at_ns name := by
  have hcall := returns_usage_and_context settings (Telemetry.classify_span name)
    (mapping_or_empty (get record "attributes")) (sequence_of_mappings (get record "events"))
    ended_at_ns
  rw [Returns, result_span_of_record]
  constructor
  · intro h
    obtain ⟨span, hspan⟩ := Option.isSome_iff_exists.1 h
    obtain ⟨conflict, hconflict, hspan⟩ := Option.bind_eq_some_iff.1 hspan
    obtain ⟨found, hfound, hspan⟩ := Option.bind_eq_some_iff.1 hspan
    obtain ⟨started_at, hstarted, hspan⟩ := Option.bind_eq_some_iff.1 hspan
    obtain ⟨ended_at, hended, hspan⟩ := Option.bind_eq_some_iff.1 hspan
    obtain ⟨digest, hdigest, -⟩ := Option.map_eq_some_iff.1 hspan
    have htexts := (hash_span_isSome_iff settings _).1 (Option.isSome_iff_exists.2 ⟨digest, hdigest⟩)
    exact
      { content := Option.isSome_iff_exists.2 ⟨conflict, hconflict⟩
        started := Option.isSome_iff_exists.2 ⟨started_at, hstarted⟩
        ended := Option.isSome_iff_exists.2 ⟨ended_at, hended⟩
        call := hcall.1 (Option.isSome_iff_exists.2 ⟨found, hfound⟩)
        texts := (clean_raw_span settings record provenance trace_id span_id started_at_ns
          ended_at_ns name found (clean_isoformat_ns settings hstarted)
          (clean_isoformat_ns settings hended) (clean_usage_and_context settings hfound)).1 htexts }
  · intro h
    obtain ⟨conflict, hconflict⟩ := Option.isSome_iff_exists.1 h.content
    obtain ⟨started_at, hstarted⟩ := Option.isSome_iff_exists.1 h.started
    obtain ⟨ended_at, hended⟩ := Option.isSome_iff_exists.1 h.ended
    obtain ⟨found, hfound⟩ := Option.isSome_iff_exists.1 (hcall.2 h.call)
    have htexts := (clean_raw_span settings record provenance trace_id span_id started_at_ns
      ended_at_ns name found (clean_isoformat_ns settings hstarted)
      (clean_isoformat_ns settings hended) (clean_usage_and_context settings hfound)).2 h.texts
    have hdigest := (hash_span_isSome_iff settings _).2 htexts
    rw [hconflict, hfound, hstarted, hended, Option.bind_some, Option.bind_some, Option.bind_some,
      Option.bind_some, Option.isSome_map]
    exact hdigest

/-! ## Lines -/

/-- A record whose type is that of a span holds nothing that cannot be converted. -/
def HarmlessRecord (record : List (Str × Value F)) : Prop :=
  ∀ trace_id ∈ bounded settings (get record "traceId"),
    ∀ span_id ∈ bounded settings (get record "spanId"),
      ∀ started_at_ns ∈ parse_timestamp_ns settings.py (get record "startTime"),
        ∀ ended_at_ns ∈ parse_timestamp_ns settings.py (get record "endTime"),
          started_at_ns ≤ ended_at_ns → ∀ name ∈ bounded settings (get record "name"),
            HarmlessSpan settings record trace_id span_id started_at_ns ended_at_ns name

/-- A line that holds nothing that cannot be converted. -/
def Harmless (raw_line : List UInt8) : Prop :=
  match settings.py.loads raw_line with
  | .raises => False
  | .malformed => True
  | .value payload =>
    ∀ record ∈ mapping payload, parse_string (get record "type") = some (str "span") →
      HarmlessRecord settings record

variable {α : Type}

theorem returns_malformed :
    Returns (do warn .MALFORMED_RECORD; pure (none : Option α)) := rfl

theorem returns_normalize_span (provenance : SpanProvenance) :
    Returns (normalize_span settings record provenance) ↔ HarmlessRecord settings record := by
  unfold normalize_span HarmlessRecord
  rw [returns_bind]
  simp only [result_bounded_string, Option.some.injEq, exists_eq_left', returns_bind]
  cases bounded settings (get record "traceId") with
  | none => simp [returns_malformed]
  | some trace_id =>
  cases bounded settings (get record "spanId") with
  | none => simp [returns_malformed]
  | some span_id =>
  cases parse_timestamp_ns settings.py (get record "startTime") with
  | none => simp [returns_malformed]
  | some started_at_ns =>
  cases parse_timestamp_ns settings.py (get record "endTime") with
  | none => simp [returns_malformed]
  | some ended_at_ns =>
  dsimp only
  by_cases htimes : ended_at_ns < started_at_ns
  · rw [if_pos htimes]
    simp [returns_malformed, htimes]
  · rw [if_neg htimes, returns_bind, result_bounded_string]
    cases bounded settings (get record "name") with
    | none => simp [returns_malformed]
    | some name =>
      have hspan := returns_span_of_record settings record provenance trace_id span_id
        started_at_ns ended_at_ns name
      have hpure : Returns (do
            let span ← span_of_record settings record provenance trace_id span_id started_at_ns
              ended_at_ns name
            pure (some span))
          ↔ Returns (span_of_record settings record provenance trace_id span_id started_at_ns
            ended_at_ns name) := by
        rw [returns_bind, Returns, Option.isSome_iff_exists]
        simp [returns_pure]
      simp [hpure, hspan, not_lt.1 htimes]

theorem returns_span_of_line (provenance : SpanProvenance) (raw_line : List UInt8) :
    Returns (span_of_line settings provenance raw_line) ↔ Harmless settings raw_line := by
  unfold span_of_line Harmless
  cases settings.py.loads raw_line with
  | raises => simp [Returns]
  | malformed => simp [returns_malformed]
  | value payload =>
    dsimp only
    cases mapping payload with
    | none => simp [returns_malformed]
    | some record =>
      dsimp only
      cases htype : parse_string (get record "type") with
      | none => simp [returns_malformed, htype]
      | some record_type =>
        dsimp only
        by_cases hspan : record_type = str "span"
        · rw [if_pos hspan, returns_normalize_span]
          simp [htype, hspan]
        · rw [if_neg hspan]
          have hreturns : Returns (if record_type = str "metric" then pure none
              else do warn .UNKNOWN_RECORD; pure none : Noted (Option (TelemetrySpan F))) := by
            split <;> rfl
          simp [hreturns, htype, hspan]

/-! ## Lines without a span -/

theorem onlyWarns_pure (a : α) : OnlyWarns (pure a : Noted α) := fun _ h => by cases h

theorem onlyWarns_warn (code : TelemetryWarningCode) : OnlyWarns (warn code) := by
  intro n hn
  exact ⟨code, List.mem_singleton.1 hn⟩

theorem onlyWarns_bind {α β : Type} {x : Noted α} {f : α → Noted β} (hx : OnlyWarns x)
    (hf : ∀ a, x.result = some a → OnlyWarns (f a)) : OnlyWarns (x >>= f) := by
  show OnlyWarns (andThen x f)
  unfold andThen
  cases hresult : x.result with
  | none => exact hx
  | some a =>
    intro n hn
    rcases List.mem_append.1 hn with hn | hn
    · exact hx n hn
    · exact hf a hresult n hn

theorem onlyWarns_malformed : OnlyWarns (do warn .MALFORMED_RECORD; pure (none : Option α)) :=
  onlyWarns_bind (onlyWarns_warn _) fun _ _ => onlyWarns_pure _

theorem onlyWarns_bounded_string (value : Value F) : OnlyWarns (bounded_string settings value) := by
  unfold bounded_string
  split
  · exact onlyWarns_pure _
  · split
    · exact onlyWarns_pure _
    · exact onlyWarns_bind (onlyWarns_warn _) fun _ _ => onlyWarns_pure _

theorem onlyWarns_normalize_span (provenance : SpanProvenance)
    (h : (normalize_span settings record provenance).result = some none) :
    OnlyWarns (normalize_span settings record provenance) := by
  have hbounded := onlyWarns_bounded_string settings
  unfold normalize_span at h ⊢
  refine onlyWarns_bind (hbounded _) fun trace_id htrace => ?_
  rw [result_bind, htrace, Option.bind_some] at h
  refine onlyWarns_bind (hbounded _) fun span_id hspan => ?_
  rw [result_bind, hspan, Option.bind_some] at h
  split
  · split
    · split
      · exact onlyWarns_malformed
      · refine onlyWarns_bind (hbounded _) fun name hname => ?_
        rename_i hstarted hended htimes
        dsimp only at h
        rw [hstarted, hended] at h
        dsimp only at h
        rw [if_neg htimes, result_bind, hname, Option.bind_some] at h
        cases name with
        | none => exact onlyWarns_malformed
        | some name =>
          dsimp only at h
          rw [result_bind] at h
          obtain ⟨span, -, hspan⟩ := Option.bind_eq_some_iff.1 h
          cases hspan
    · exact onlyWarns_malformed
  · exact onlyWarns_malformed

/-- A line that turns out to hold no span leaves warnings only. -/
theorem onlyWarns_span_of_line (provenance : SpanProvenance) (raw_line : List UInt8)
    (h : (span_of_line settings provenance raw_line).result = some none) :
    OnlyWarns (span_of_line settings provenance raw_line) := by
  unfold span_of_line at h ⊢
  cases hloads : settings.py.loads raw_line with
  | raises =>
    rw [hloads] at h
    cases h
  | malformed => exact onlyWarns_malformed
  | value payload =>
    rw [hloads] at h
    dsimp only at h ⊢
    cases hmapping : mapping payload with
    | none => exact onlyWarns_malformed
    | some record =>
      rw [hmapping] at h
      dsimp only at h ⊢
      cases htype : parse_string (get record "type") with
      | none => exact onlyWarns_malformed
      | some record_type =>
        rw [htype] at h
        dsimp only at h ⊢
        by_cases hspan : record_type = str "span"
        · rw [if_pos hspan] at h ⊢
          exact onlyWarns_normalize_span settings record provenance h
        · rw [if_neg hspan]
          split
          · exact onlyWarns_pure _
          · exact onlyWarns_bind (onlyWarns_warn _) fun _ _ => onlyWarns_pure _

end Spans

/-! ## Polls -/

section Polls

variable {F : Type} (settings : Settings F) (around : Surroundings)

/-- Everything that is only counted is hidden. -/
def warnings_hidden (_code : TelemetryWarningCode) : Bool := true

/-- The line holds a span. -/
def HoldsSpan : Str × Event → Prop
  | (_, .warning _) => False
  | (name, .line offset raw_line) =>
    ∃ span, (span_of_line settings ⟨name, offset⟩ raw_line).result = some (some span)

instance : DecidablePred (HoldsSpan settings) := by
  rintro ⟨name, event⟩
  match event with
  | .warning _ => exact isFalse id
  | .line offset raw_line =>
    exact match h : (span_of_line settings ⟨name, offset⟩ raw_line).result with
      | none => isFalse fun ⟨_, hspan⟩ => by rw [h] at hspan; cases hspan
      | some none => isFalse fun ⟨_, hspan⟩ => by rw [h] at hspan; cases hspan
      | some (some span) => isTrue ⟨span, h⟩

/-- A poll gets through everything it reads. -/
structure Survives (p : Provider F) : Prop where
  /-- No exception leaves the poll. -/
  returns : (ingest_incremental settings around p).raised = false
  /-- The cursor of a file is past every line that was read from it. -/
  moves : ∀ plan ∈ poll_plans settings around p, ∀ offset raw_line,
    Event.line offset raw_line ∈ plan.2.events →
      ∃ cursor, (ingest_incremental settings around p).provider.file_cursors.get plan.1 = some cursor
        ∧ offset + raw_line.length < cursor.offset
  /-- The lines with a span contribute as if the others were not there. -/
  contributes : (ingest_incremental settings around p).provider.findings warnings_hidden
    = (run_pieces settings around
        ((pieces (poll_plans settings around p)).filter fun piece => HoldsSpan settings piece)
        p).provider.findings warnings_hidden
  /-- The others contribute warnings at most. -/
  warns : ∀ name offset raw_line, (name, Event.line offset raw_line) ∈ pieces (poll_plans settings around p) →
    ¬HoldsSpan settings (name, .line offset raw_line) →
      OnlyWarns (span_of_line settings ⟨name, offset⟩ raw_line)

theorem findings_only_warns {p : Provider F} {notes : List Note} :
    (∀ n ∈ notes, ∃ code, n = .warning code) →
      ∀ q : Provider F, q.findings warnings_hidden = p.findings warnings_hidden →
        (notes.foldl Provider.take_note q).findings warnings_hidden = p.findings warnings_hidden := by
  induction notes with
  | nil => exact fun _ _ h => h
  | cons n notes ih =>
    intro hnotes q hq
    obtain ⟨code, rfl⟩ := hnotes n List.mem_cons_self
    refine ih (fun n hn => hnotes n (List.mem_cons_of_mem _ hn)) _ ?_
    rw [← hq]
    exact findings_of_hidden rfl q

/-- A line that holds no span and does not raise is not noticed, but for its warnings. -/
theorem findings_run_piece (piece : Str × Event) (hspan : ¬HoldsSpan settings piece)
    (hraises : ¬Raises settings piece.1 piece.2) (p : Provider F) :
    (run_events settings around piece.1 [piece.2] p).raised = false
      ∧ (run_events settings around piece.1 [piece.2] p).provider.findings warnings_hidden
        = p.findings warnings_hidden := by
  obtain ⟨name, event⟩ := piece
  cases event with
  | warning code => exact ⟨rfl, findings_of_hidden rfl p⟩
  | line offset raw_line =>
    cases hresult : (span_of_line settings ⟨name, offset⟩ raw_line).result with
    | none => exact absurd hresult hraises
    | some found =>
      cases found with
      | some span => exact absurd ⟨span, hresult⟩ hspan
      | none =>
        have hnotes := findings_only_warns (p := p)
          (onlyWarns_span_of_line settings ⟨name, offset⟩ raw_line hresult)
          { p with received_at := some around.now } rfl
        have hline : process_line settings around.now ⟨name, offset⟩ raw_line p
            = ⟨(span_of_line settings ⟨name, offset⟩ raw_line).notes.foldl Provider.take_note
                { p with received_at := some around.now }, false⟩ := by
          unfold process_line
          dsimp only
          rw [hresult]
        simp only [run_events, hline, Bool.false_eq_true, if_false]
        exact ⟨trivial, hnotes⟩

/-- Pieces without a span can be left out. -/
theorem findings_run_pieces_filter (rest : List (Str × Event)) :
    ∀ {p q : Provider F}, (∀ piece ∈ rest, ¬Raises settings piece.1 piece.2) →
      p.findings warnings_hidden = q.findings warnings_hidden →
      (run_pieces settings around rest p).provider.findings warnings_hidden
        = (run_pieces settings around (rest.filter fun piece => HoldsSpan settings piece)
            q).provider.findings warnings_hidden := by
  induction rest with
  | nil => exact fun _ h => h
  | cons piece rest ih =>
    intro p q hraises h
    have hrest := fun other hother => hraises other (List.mem_cons_of_mem piece hother)
    by_cases hspan : HoldsSpan settings piece
    · rw [List.filter_cons_of_pos (by simpa using hspan)]
      obtain ⟨hraised, hfound⟩ := findings_run_events settings around around piece.1 [piece.2] h
      simp only [run_pieces]
      rw [hraised]
      split
      · exact hfound
      · exact ih hrest hfound
    · rw [List.filter_cons_of_neg (by simpa using hspan)]
      obtain ⟨hraised, hfound⟩ := findings_run_piece settings around piece hspan
        (hraises piece List.mem_cons_self) p
      simp only [run_pieces]
      rw [if_neg (by rw [hraised]; exact Bool.false_ne_true)]
      exact ih hrest (hfound.trans h)

theorem raises_iff (name : Str) (offset : ℕ) (raw_line : List UInt8) :
    Raises settings name (.line offset raw_line) ↔ ¬Harmless settings raw_line := by
  rw [← returns_span_of_line settings ⟨name, offset⟩ raw_line, Returns, Raises]
  cases (span_of_line settings ⟨name, offset⟩ raw_line).result <;> simp

theorem ingest_incremental_ran (hidden : TelemetryWarningCode → Bool)
    (hbudget : hidden .SIZE_LIMIT_EXCEEDED = true) (p : Provider F) :
    let ran := run_plans settings around (poll_plans settings around p)
      (discover_selected_files settings around p).2
    (ingest_incremental settings around p).raised = ran.raised
      ∧ (ingest_incremental settings around p).provider.findings hidden = ran.provider.findings hidden
      ∧ (ingest_incremental settings around p).provider.file_cursors = ran.provider.file_cursors := by
  rw [ingest_incremental_eq]
  dsimp only
  split
  · exact ⟨rfl, rfl, rfl⟩
  · rename_i hno
    have hraised := (Bool.eq_false_of_not_eq_true hno).symm
    have hcounted := findings_of_hidden hbudget (run_plans settings around
      (poll_plans settings around p) (discover_selected_files settings around p).2).provider
    by_cases hdeferred : ((poll_plans settings around p).any
        fun plan => plan.2.deferred_due_to_budget) = true
    · rw [if_pos hdeferred]
      split
      · exact ⟨hraised, hcounted, rfl⟩
      · exact ⟨hraised, hcounted, rfl⟩
    · rw [if_neg hdeferred]
      split
      · exact ⟨hraised, rfl, rfl⟩
      · exact ⟨hraised, rfl, rfl⟩

theorem findings_discover {hidden : TelemetryWarningCode → Bool}
    (hfiles : hidden .FILE_LIMIT_EXCEEDED = true) (p : Provider F) :
    (discover_selected_files settings around p).2.findings hidden = p.findings hidden := by
  unfold discover_selected_files
  split
  · rfl
  · dsimp only
    split
    · exact findings_of_hidden hfiles _
    · rfl

/-- The cursor a plan leaves is past the lines of the plan. -/
theorem file_plan_moves {file : DirEntry} {max_bytes : ℕ} {before : Option FileCursor}
    {offset : ℕ} {raw_line : List UInt8}
    (h : Event.line offset raw_line ∈ (file_plan settings around file max_bytes before).events) :
    ∃ cursor, (file_plan settings around file max_bytes before).cursor = some cursor
      ∧ offset + raw_line.length < cursor.offset := by
  have hread : ∀ start, Event.line offset raw_line ∈ (read_plan settings around file start max_bytes).events →
      ∃ cursor, (read_plan settings around file start max_bytes).cursor = some cursor
        ∧ offset + raw_line.length < cursor.offset := by
    intro start h
    unfold read_plan at h ⊢
    split at h
    · cases h
    · rename_i hbudget
      rw [if_neg hbudget]
      dsimp only at h ⊢
      refine ⟨_, rfl, ?_⟩
      by_cases hsize : start + ((file.content.drop start).take
          (min (file.content.length - start) max_bytes)).length ≤ file.content.length
      · exact lt_of_mem_consume hsize h
      · have hnil : (file.content.drop start).take (min (file.content.length - start) max_bytes) = [] := by
          rw [List.length_take, List.length_drop] at hsize
          rw [List.drop_eq_nil_of_le (by omega), List.take_nil]
        rw [hnil, consume_complete_records, if_pos rfl] at h
        cases h
  unfold file_plan at h ⊢
  cases before with
  | none =>
    dsimp only at h ⊢
    split at h
    · cases h
    · rename_i hempty
      rw [if_neg hempty]
      exact hread 0 h
  | some cursor =>
    dsimp only at h ⊢
    split at h
    · cases h
    · rename_i hsealed
      rw [if_neg hsealed]
      split at h
      · simp at h
      · rename_i hidentity
        rw [if_neg hidentity]
        split at h
        · simp at h
        · rename_i hshorter
          rw [if_neg hshorter]
          split at h
          · cases h
          · rename_i hsame
            rw [if_neg hsame]
            exact hread cursor.offset h

theorem file_plans_moves (cursors : FileCursors) (files : List DirEntry) :
    ∀ remaining_bytes, ∀ plan ∈ file_plans settings around cursors files remaining_bytes,
      ∀ offset raw_line, Event.line offset raw_line ∈ plan.2.events →
        ∃ cursor, plan.2.cursor = some cursor ∧ offset + raw_line.length < cursor.offset := by
  induction files with
  | nil => exact fun _ _ h => by cases h
  | cons file files ih =>
    intro remaining_bytes plan hplan offset raw_line hline
    rw [file_plans] at hplan
    rcases List.mem_cons.1 hplan with rfl | hplan
    · exact file_plan_moves settings around hline
    · exact ih _ plan hplan offset raw_line hline

theorem lookup_of_mem {α : Type} {plans : List (Str × α)} (hnodup : (plans.map Prod.fst).Nodup)
    {plan : Str × α} (h : plan ∈ plans) : plans.lookup plan.1 = some plan.2 := by
  induction plans with
  | nil => cases h
  | cons other plans ih =>
    rw [List.map_cons, List.nodup_cons] at hnodup
    rw [List.lookup_cons]
    rcases List.mem_cons.1 h with rfl | h
    · rw [beq_self_eq_true]
    · have hne : plan.1 ≠ other.1 := fun heq => hnodup.1 (heq ▸ List.mem_map_of_mem h)
      rw [beq_false_of_ne hne]
      exact ih hnodup.2 h

/-- **What a poll survives.** For every directory of files and every state of the reader:
a poll returns, moves the cursors past what it has read, and takes from the lines that
hold a span what it would take without the others, if and only if every line it reads is
harmless. -/
theorem poll_survives_iff (p : Provider F) :
    Survives settings around p ↔
      ∀ name offset raw_line, (name, Event.line offset raw_line) ∈ pieces (poll_plans settings around p) →
        Harmless settings raw_line := by
  obtain ⟨hraised, hfound, hcursors⟩ := ingest_incremental_ran settings around warnings_hidden rfl p
  have hiff := run_plans_raised_iff settings around (poll_plans settings around p)
    (discover_selected_files settings around p).2
  constructor
  · intro h name offset raw_line hmem
    by_contra hharm
    have hraises := (raises_iff settings name offset raw_line).2 hharm
    have hyes := hiff.2 ⟨_, hmem, hraises⟩
    rw [← hraised, h.returns] at hyes
    cases hyes
  · intro h
    have hquiet : ∀ piece ∈ pieces (poll_plans settings around p), ¬Raises settings piece.1 piece.2 := by
      rintro ⟨name, event⟩ hmem hraises
      cases event with
      | warning code => exact hraises
      | line offset raw_line =>
        exact (raises_iff settings name offset raw_line).1 hraises (h name offset raw_line hmem)
    have hno : (run_plans settings around (poll_plans settings around p)
        (discover_selected_files settings around p).2).raised = false := by
      rw [Bool.eq_false_iff]
      intro hyes
      obtain ⟨piece, hmem, hraises⟩ := hiff.1 hyes
      exact hquiet piece hmem hraises
    have hnodup : ((poll_plans settings around p).map Prod.fst).Nodup := by
      rw [poll_plans, map_fst_file_plans]
      exact nodup_discovered settings around p
    refine
      { returns := hraised.trans hno
        moves := ?_
        contributes := ?_
        warns := ?_ }
    · intro plan hplan offset raw_line hline
      obtain ⟨cursor, hcursor, hlt⟩ := file_plans_moves settings around _ _ _ plan hplan offset
        raw_line hline
      refine ⟨cursor, ?_, hlt⟩
      rw [hcursors, run_plans_file_cursors settings around plan.1 _ _ hno hnodup
        (path_of_file_plans settings around _ _ _), lookup_of_mem hnodup hplan, Option.bind_some,
        hcursor]
      rfl
    · rw [hfound, run_plans_findings settings around _ _ hno]
      exact findings_run_pieces_filter settings around _ hquiet
        (findings_discover settings around rfl p)
    · intro name offset raw_line hmem hspan
      have hreturns := (returns_span_of_line settings ⟨name, offset⟩ raw_line).2
        (h name offset raw_line hmem)
      obtain ⟨found, hresult⟩ := Option.isSome_iff_exists.1 hreturns
      cases found with
      | some span => exact absurd ⟨span, hresult⟩ hspan
      | none => exact onlyWarns_span_of_line settings _ _ hresult

end Polls

/-! ## A time beyond all years -/

/-- A line of ASCII. -/
def ascii_line (s : String) : List UInt8 := (str s).map fun c => UInt8.ofNat c.val

/-- A span that took place in the year 33658. -/
def far_future_line : List UInt8 :=
  ascii_line "\x7b\"type\":\"span\",\"traceId\":\"t\",\"spanId\":\"s\",\"name\":\"chat\",\"startTime\":[1000000000000,0],\"endTime\":[1000000000000,0]\x7d"

/-- Its record. -/
def far_future_record : Value ℚ :=
  .object [(str "type", .string (str "span")), (str "traceId", .string (str "t")),
    (str "spanId", .string (str "s")), (str "name", .string (str "chat")),
    (str "startTime", .array [.int 1000000000000, .int 0]),
    (str "endTime", .array [.int 1000000000000, .int 0])]

/-- A reader that can read this line. -/
def far_future : Settings ℚ :=
  ⟨Python.small fun raw_line => if raw_line = far_future_line then .value far_future_record else .malformed,
    {}, none⟩

/-- A directory with one managed file. -/
def one_file (content : List UInt8) : Surroundings :=
  ⟨some ⟨[⟨str "00000000-0000-0000-0000-000000000000.jsonl", true, 0, 0, content⟩],
    List.nodup_singleton _⟩, ⟨.IDLE, none, none⟩, str "1970-01-01T00:00:00Z"⟩

/-- A record of that year ends every poll in an exception. -/
theorem far_future_is_not_survived :
    ¬∀ (settings : Settings ℚ) (around : Surroundings) (p : Provider ℚ), Survives settings around p := by
  intro h
  have hraised : (ingest_incremental far_future (one_file (far_future_line ++ [10])) .init).raised
      = true := by decide +kernel
  rw [(h far_future (one_file (far_future_line ++ [10])) .init).returns] at hraised
  cases hraised

end AgentSpace.Telemetry.Otel
