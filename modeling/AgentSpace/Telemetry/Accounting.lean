/-
The identities between the token counts of a call, of the session and of the subagents.

Each holds where the fields in it are there. Both conventions of counting give them
(`identities_of_normalized`), and they add up (`identities_aggregate_usage`). The sum over a
part of the calls is at most the sum over all of them (`sum_all_le`).
-/
import AgentSpace.Telemetry.Snapshot
import AgentSpace.Telemetry.Totality
import Mathlib.Algebra.Order.BigOperators.Group.List

set_option autoImplicit false

namespace AgentSpace.Telemetry.Otel

open Lib Noted

/-! ## Sums -/

section Sums

variable {α : Type} {f : α → Option ℤ}

theorem sum_all_from_map {total sum : ℤ} {items : List α} (h : sum_all_from total (items.map f) = some sum) :
    (∀ a ∈ items, f a = some ((f a).getD 0)) ∧ sum = total + (items.map fun a => (f a).getD 0).sum := by
  induction items generalizing total with
  | nil =>
    rw [List.map_nil, sum_all_from] at h
    exact ⟨by simp, by simpa using (Option.some.inj h).symm⟩
  | cons a items ih =>
    rw [List.map_cons] at h
    cases hvalue : f a with
    | none =>
      rw [hvalue, sum_all_from] at h
      cases h
    | some value =>
      rw [hvalue, sum_all_from] at h
      obtain ⟨hthere, hsum⟩ := ih h
      refine ⟨List.forall_mem_cons.2 ⟨by rw [hvalue, Option.getD_some], hthere⟩, ?_⟩
      rw [List.map_cons, List.sum_cons, hvalue, Option.getD_some, hsum, Int.add_assoc]

theorem sum_all_map {sum : ℤ} {items : List α} (h : sum_all (items.map f) = some sum) :
    (∀ a ∈ items, f a = some ((f a).getD 0)) ∧ sum = (items.map fun a => (f a).getD 0).sum := by
  obtain ⟨hthere, hsum⟩ := sum_all_from_map h
  exact ⟨hthere, by rw [hsum, Int.zero_add]⟩

/-- A sum over a part of the items is at most the sum over all of them. -/
theorem sum_all_le {part items : List α} (hpart : part.Sublist items)
    (hnonneg : ∀ a ∈ items, ∀ value ∈ f a, 0 ≤ value) {a b : ℤ} (ha : sum_all (part.map f) = some a)
    (hb : sum_all (items.map f) = some b) : a ≤ b := by
  obtain ⟨hthere, rfl⟩ := sum_all_map hb
  obtain ⟨-, rfl⟩ := sum_all_map ha
  refine (hpart.map _).sum_le_sum fun value hvalue => ?_
  obtain ⟨item, hitem, rfl⟩ := List.mem_map.1 hvalue
  exact hnonneg item hitem _ (hthere item hitem)

end Sums

/-! ## Identities -/

section Identities

variable {F : Type}

/-- The identities between the token counts of a breakdown, each where its fields are there. -/
structure Identities (u : UsageBreakdown F) : Prop where
  effective : ∀ effective ∈ u.effective_input_tokens, ∀ read ∈ u.cache_read_input_tokens,
    ∀ write ∈ u.cache_write_input_tokens, ∀ other ∈ u.other_input_tokens, effective = read + write + other
  fresh : ∀ fresh ∈ u.fresh_input_tokens, ∀ other ∈ u.other_input_tokens,
    ∀ write ∈ u.cache_write_input_tokens, fresh = other + write
  total : ∀ total ∈ u.total_tokens, ∀ effective ∈ u.effective_input_tokens, ∀ output ∈ u.output_tokens,
    total = effective + output

/-- The counts of a breakdown. -/
def UsageBreakdown.counts (u : UsageBreakdown F) : List (Option ℤ) :=
  [u.raw_input_tokens, u.effective_input_tokens, u.output_tokens, u.total_tokens, u.reasoning_output_tokens,
    u.cache_read_input_tokens, u.cache_write_input_tokens, u.other_input_tokens, u.fresh_input_tokens,
      u.nano_aiu]

/-- The identities hold, and no count is negative. -/
structure Balanced (u : UsageBreakdown F) : Prop extends Identities u where
  nonneg : ∀ field ∈ u.counts, ∀ count ∈ field, 0 ≤ count

variable (settings : Settings F)

/-- A count that can be reported. -/
def reportable (field : Option ℤ) : Option ℤ := field.filter fun count => decide (0 ≤ count ∧ count ≤ U64_MAX)

/-- What `_sanitize_usage_breakdown` leaves. -/
def UsageBreakdown.sanitized (u : UsageBreakdown F) : UsageBreakdown F where
  raw_input_tokens := reportable u.raw_input_tokens
  effective_input_tokens := reportable u.effective_input_tokens
  output_tokens := reportable u.output_tokens
  total_tokens := reportable u.total_tokens
  reasoning_output_tokens := reportable u.reasoning_output_tokens
  cache_read_input_tokens := reportable u.cache_read_input_tokens
  cache_write_input_tokens := reportable u.cache_write_input_tokens
  other_input_tokens := reportable u.other_input_tokens
  fresh_input_tokens := reportable u.fresh_input_tokens
  cache_reuse_percent := u.cache_reuse_percent.filter settings.py.isfinite
  nano_aiu := reportable u.nano_aiu
  opaque_cost := u.opaque_cost.filter settings.py.isfinite

theorem of_mem_reportable {field : Option ℤ} {count : ℤ} (h : count ∈ reportable field) :
    count ∈ field ∧ 0 ≤ count := by
  obtain ⟨hcount, hrange⟩ := Option.mem_filter_iff.1 h
  exact ⟨hcount, (of_decide_eq_true hrange).1⟩

theorem result_sanitize_optional_u64 (field : Option ℤ) :
    (sanitize_optional_u64 field).result = some (reportable field) := by
  unfold sanitize_optional_u64 reportable
  cases field with
  | none => rfl
  | some count =>
    by_cases h : 0 ≤ count ∧ count ≤ U64_MAX
    · rw [Option.filter_some, if_pos (decide_eq_true h)]
      dsimp only
      rw [if_neg (by omega)]
      rfl
    · rw [Option.filter_some, if_neg (by simpa using h)]
      dsimp only
      rw [if_pos (by omega)]
      rfl

theorem result_sanitize_optional_float (field : Option F) :
    (sanitize_optional_float settings field).result = some (field.filter settings.py.isfinite) := by
  unfold sanitize_optional_float
  cases field with
  | none => rfl
  | some x =>
    rw [Option.filter_some]
    dsimp only
    split <;> rfl

theorem result_sanitize_usage_breakdown (u : UsageBreakdown F) :
    (sanitize_usage_breakdown settings u).result = some (u.sanitized settings) := by
  unfold sanitize_usage_breakdown
  simp only [result_bind, result_sanitize_optional_u64, result_sanitize_optional_float, Option.bind_some,
    result_pure]
  rfl

theorem balanced_sanitized {u : UsageBreakdown F} (h : Identities u) : Balanced (u.sanitized settings) where
  effective := fun _ he _ hr _ hw _ ho => h.effective _ (of_mem_reportable he).1 _ (of_mem_reportable hr).1 _
    (of_mem_reportable hw).1 _ (of_mem_reportable ho).1
  fresh := fun _ hf _ ho _ hw => h.fresh _ (of_mem_reportable hf).1 _ (of_mem_reportable ho).1 _
    (of_mem_reportable hw).1
  total := fun _ ht _ he _ ho => h.total _ (of_mem_reportable ht).1 _ (of_mem_reportable he).1 _
    (of_mem_reportable ho).1
  nonneg := by
    simp only [UsageBreakdown.counts, UsageBreakdown.sanitized, List.forall_mem_cons]
    exact ⟨fun _ h => (of_mem_reportable h).2, fun _ h => (of_mem_reportable h).2,
      fun _ h => (of_mem_reportable h).2, fun _ h => (of_mem_reportable h).2,
      fun _ h => (of_mem_reportable h).2, fun _ h => (of_mem_reportable h).2,
      fun _ h => (of_mem_reportable h).2, fun _ h => (of_mem_reportable h).2,
      fun _ h => (of_mem_reportable h).2, fun _ h => (of_mem_reportable h).2, by simp⟩

end Identities

/-! ## Calls -/

section Calls

variable {F : Type} (settings : Settings F)

/-- Both conventions give the identities. -/
theorem identities_input_tokens {convention : TokenAccountingConvention} {reporting : CacheReportingState}
    {raw read write effective other fresh : Option ℤ}
    (h : (input_tokens convention reporting raw read write).result = some (effective, other, fresh)) :
    (∀ e ∈ effective, ∀ o ∈ other, ∃ r ∈ read, ∃ w ∈ write, e = r + w + o)
      ∧ ∀ f ∈ fresh, ∀ o ∈ other, ∃ w ∈ write, f = o + w := by
  unfold input_tokens at h
  split at h
  · split at h
    · dsimp only at h
      split at h
      · obtain ⟨rfl, rfl, rfl⟩ := h
        simp
      · obtain ⟨rfl, rfl, rfl⟩ := h
        refine ⟨fun e he o ho => ⟨_, rfl, _, rfl, ?_⟩, fun f hf o ho => ⟨_, rfl, ?_⟩⟩
        · cases he
          cases ho
          omega
        · cases hf
          cases ho
          rfl
    · obtain ⟨rfl, rfl, rfl⟩ := h
      simp
  · split at h
    · obtain ⟨rfl, rfl, rfl⟩ := h
      refine ⟨fun e he o ho => ⟨_, rfl, _, rfl, ?_⟩, fun f hf o ho => ⟨_, rfl, ?_⟩⟩
      · cases he
        cases ho
        omega
      · cases hf
        cases ho
        rfl
    · obtain ⟨rfl, rfl, rfl⟩ := h
      simp
  · obtain ⟨rfl, rfl, rfl⟩ := h
    simp

theorem mem_of_mem_ite {α : Type} {c : Prop} [Decidable c] {field : Option α} {a : α}
    (h : a ∈ if c then field else none) : a ∈ field := by
  split at h
  · exact h
  · cases h

theorem balanced_of_normalized {attributes : List (Str × Value F)} {details : ModelUsageDetails F}
    (h : (normalize_model_usage settings attributes).result = some details) : Balanced details.usage := by
  unfold normalize_model_usage at h
  simp only [result_bind, Option.bind_eq_some_iff, result_sanitize_usage_breakdown, Option.some.injEq,
    exists_eq_left', result_pure] at h
  obtain ⟨raw, -, output, -, reasoning, -, read, -, write, -, ⟨effective, other, fresh⟩, hinput, reuse, -,
    nano, -, cost, -, rfl⟩ := h
  obtain ⟨heffective, hfresh⟩ := identities_input_tokens hinput
  refine balanced_sanitized settings ⟨?_, ?_, ?_⟩
  · intro e he r hr w hw o ho
    obtain ⟨r', hr', w', hw', rfl⟩ := heffective e he o ho
    rw [Option.mem_unique (mem_of_mem_ite hr) hr', Option.mem_unique (mem_of_mem_ite hw) hw']
  · intro f hf o ho w hw
    obtain ⟨w', hw', rfl⟩ := hfresh f hf o ho
    rw [Option.mem_unique (mem_of_mem_ite hw) hw']
  · intro t ht e he o ho
    obtain ⟨e', he', ht⟩ := Option.bind_eq_some_iff.1 ht
    obtain ⟨o', ho', rfl⟩ := Option.map_eq_some_iff.1 ht
    rw [Option.mem_unique he he', Option.mem_unique ho ho']

/-- The span is one that a line was turned into. -/
def Ingested (facts : SpanFacts F) : Prop :=
  ∃ record provenance span, (normalize_span settings record provenance).result = some (some span)
    ∧ span.toSpanFacts = facts

theorem usage_of_usage_and_context {kind : SpanKind} {attributes : List (Str × Value F)}
    {events : List (List (Str × Value F))} {ended_at_ns : ℤ}
    {found : Option (ModelUsageDetails F) × Option ContextUsage}
    (h : (usage_and_context settings kind attributes events ended_at_ns).result = some found) :
    ∀ details ∈ found.1, ∃ attributes, (normalize_model_usage settings attributes).result = some details := by
  unfold usage_and_context at h
  split at h
  · simp only [result_bind, Option.bind_eq_some_iff, result_pure] at h
    obtain ⟨usage, husage, context, -, hfound⟩ := h
    obtain rfl := Option.some.inj hfound
    rintro details ⟨⟩
    exact ⟨attributes, husage⟩
  · obtain rfl := Option.some.inj h
    rintro details ⟨⟩

/-- The usage of a span is that of its attributes. -/
theorem usage_of_span {record : List (Str × Value F)} {provenance : SpanProvenance} {span : TelemetrySpan F}
    (h : (normalize_span settings record provenance).result = some (some span)) :
    ∀ details ∈ span.usage, ∃ attributes, (normalize_model_usage settings attributes).result
      = some details := by
  unfold normalize_span at h
  simp only [result_bind, Option.bind_eq_some_iff, result_bounded_string, Option.some.injEq,
    exists_eq_left'] at h
  split at h
  · split at h
    · split at h
      · simp [result_bind] at h
      · rw [result_bind, result_bounded_string, Option.bind_some] at h
        split at h
        · simp [result_bind] at h
        · rw [result_bind, result_span_of_record] at h
          simp only [Option.bind_eq_some_iff, Option.map_eq_some_iff, result_pure] at h
          obtain ⟨_, ⟨conflict, -, found, hfound, started_at, -, ended_at, -, digest, -, rfl⟩, hspan⟩ := h
          obtain rfl := Option.some.inj (Option.some.inj hspan)
          exact usage_of_usage_and_context settings hfound
    · simp [result_bind] at h
  · simp [result_bind] at h

theorem balanced_of_ingested {facts : SpanFacts F} (h : Ingested settings facts) :
    ∀ details ∈ facts.usage, Balanced details.usage := by
  obtain ⟨record, provenance, span, hspan, rfl⟩ := h
  intro details hdetails
  obtain ⟨attributes, hattributes⟩ := usage_of_span settings hspan details hdetails
  exact balanced_of_normalized settings hattributes

end Calls

/-! ## Sums of calls -/

section Aggregates

variable {F : Type} (settings : Settings F)

theorem identities_aggregate_usage {usages : List (ModelUsageDetails F)}
    (h : ∀ details ∈ usages, Identities details.usage) :
    Identities (aggregate_usage settings.py usages) := by
  unfold aggregate_usage
  by_cases hnil : usages = []
  · rw [if_pos hnil]
    exact ⟨by simp, by simp, by simp⟩
  · rw [if_neg hnil]
    refine ⟨?_, ?_, ?_⟩
    · intro e he r hr w hw o ho
      obtain ⟨hes, rfl⟩ := sum_all_map he
      obtain ⟨hrs, rfl⟩ := sum_all_map hr
      obtain ⟨hws, rfl⟩ := sum_all_map hw
      obtain ⟨hos, rfl⟩ := sum_all_map ho
      rw [← List.sum_map_add, ← List.sum_map_add]
      exact congrArg List.sum (List.map_congr_left fun details hdetails => (h details hdetails).effective _
        (hes details hdetails) _ (hrs details hdetails) _ (hws details hdetails) _ (hos details hdetails))
    · intro f hf o ho w hw
      obtain ⟨hfs, rfl⟩ := sum_all_map hf
      obtain ⟨hos, rfl⟩ := sum_all_map ho
      obtain ⟨hws, rfl⟩ := sum_all_map hw
      rw [← List.sum_map_add]
      exact congrArg List.sum (List.map_congr_left fun details hdetails => (h details hdetails).fresh _
        (hfs details hdetails) _ (hos details hdetails) _ (hws details hdetails))
    · intro t ht e he o ho
      obtain ⟨hts, rfl⟩ := sum_all_map ht
      obtain ⟨hes, rfl⟩ := sum_all_map he
      obtain ⟨hos, rfl⟩ := sum_all_map ho
      rw [← List.sum_map_add]
      exact congrArg List.sum (List.map_congr_left fun details hdetails => (h details hdetails).total _
        (hts details hdetails) _ (hes details hdetails) _ (hos details hdetails))

/-- The counts of one breakdown are at most those of another, where both are there. -/
def AtMost (u v : UsageBreakdown F) : Prop :=
  List.Forall₂ (fun a b => ∀ m ∈ a, ∀ n ∈ b, m ≤ n) u.counts v.counts

/-- The usage of the spans, as it is reported. -/
def usage_of_spans (spans : List (SpanFacts F)) : UsageBreakdown F :=
  (aggregate_usage settings.py (spans.filterMap SpanFacts.usage)).sanitized settings

variable {settings} {spans part : List (SpanFacts F)}

theorem details_of_spans (h : ∀ facts ∈ spans, Ingested settings facts) :
    ∀ details ∈ spans.filterMap SpanFacts.usage, Balanced details.usage := by
  intro details hdetails
  obtain ⟨facts, hfacts, husage⟩ := List.mem_filterMap.1 hdetails
  exact balanced_of_ingested settings (h facts hfacts) details husage

theorem balanced_usage_of_spans (h : ∀ facts ∈ spans, Ingested settings facts) :
    Balanced (usage_of_spans settings spans) :=
  balanced_sanitized settings (identities_aggregate_usage settings fun details hdetails =>
    (details_of_spans h details hdetails).toIdentities)

theorem atMost_usage_of_spans (h : ∀ facts ∈ spans, Ingested settings facts) (hpart : part.Sublist spans) :
    AtMost (usage_of_spans settings part) (usage_of_spans settings spans) := by
  have hdetails := details_of_spans h
  have husages : (part.filterMap SpanFacts.usage).Sublist (spans.filterMap SpanFacts.usage) :=
    hpart.filterMap _
  have hfield : ∀ field : UsageBreakdown F → Option ℤ, (∀ u, field u ∈ u.counts) →
      ∀ m ∈ reportable (sum_all ((part.filterMap SpanFacts.usage).map fun u => field u.usage)),
      ∀ n ∈ reportable (sum_all ((spans.filterMap SpanFacts.usage).map fun u => field u.usage)), m ≤ n := by
    intro field hmem m hm n hn
    refine sum_all_le husages ?_ (of_mem_reportable hm).1 (of_mem_reportable hn).1
    exact fun details hd value hvalue => (hdetails details hd).nonneg _ (hmem details.usage) value hvalue
  simp only [AtMost, UsageBreakdown.counts, usage_of_spans, UsageBreakdown.sanitized, List.forall₂_cons,
    List.Forall₂.nil, and_true]
  by_cases hnil : part.filterMap SpanFacts.usage = []
  · rw [hnil]
    simp [aggregate_usage, reportable]
  · have hnil' : spans.filterMap SpanFacts.usage ≠ [] := by
      intro h'
      rw [h', List.sublist_nil] at husages
      exact hnil husages
    rw [aggregate_usage, aggregate_usage, if_neg hnil, if_neg hnil']
    refine ⟨hfield _ ?_, hfield _ ?_, hfield _ ?_, hfield _ ?_, hfield _ ?_, hfield _ ?_, hfield _ ?_,
      hfield _ ?_, hfield _ ?_, hfield _ ?_⟩ <;> exact fun u => by simp [UsageBreakdown.counts]

end Aggregates

/-! ## Figures -/

section Snapshots

variable {F : Type} (settings : Settings F) {turns : ℕ} {index : List (SpanFacts F)}

theorem mem_of_mem_model_spans {span : SpanFacts F} (h : span ∈ model_spans index) : span ∈ index :=
  (List.mem_filter.1 ((List.perm_insertionSort tuple_le _).mem_iff.1 h)).1

theorem mem_of_latest_call_span {spans : List (SpanFacts F)} {latest : SpanFacts F}
    (h : latest_call_span spans = some latest) : latest ∈ spans := by
  have hfold : ∀ (rest : List (SpanFacts F)) (best : SpanFacts F),
      rest.foldl (fun best s => if tuple_le s best then best else s) best ∈ best :: rest := by
    intro rest
    induction rest with
    | nil => exact fun best => List.mem_singleton_self best
    | cons s rest ih =>
      intro best
      rw [List.foldl_cons]
      rcases List.mem_cons.1 (ih (if tuple_le s best then best else s)) with hbest | hrest
      · rw [hbest]
        split
        · exact List.mem_cons_self
        · exact List.mem_cons_of_mem _ List.mem_cons_self
      · exact List.mem_cons_of_mem _ (List.mem_cons_of_mem _ hrest)
  cases spans with
  | nil => cases h
  | cons span rest =>
    rw [← Option.some.inj h]
    exact hfold rest span

theorem sublist_of_subagent_model_spans {spans calls : List (SpanFacts F)}
    (h : subagent_model_spans turns index spans = some calls) : calls.Sublist spans := by
  induction spans generalizing calls with
  | nil =>
    obtain rfl := Option.some.inj h
    exact .slnil
  | cons span rest ih =>
    rw [subagent_model_spans] at h
    obtain ⟨agent, -, h⟩ := Option.bind_eq_some_iff.1 h
    obtain ⟨others, hothers, h⟩ := Option.bind_eq_some_iff.1 h
    split at h
    · obtain rfl := Option.some.inj h
      exact (ih hothers).cons_cons span
    · obtain rfl := Option.some.inj h
      exact (ih hothers).cons span

theorem subagents_of_walks {found : Walks F} (h : walks turns index = some found) :
    subagent_model_spans turns index (model_spans index) = some found.subagent_model_spans := by
  unfold walks at h
  obtain ⟨subagents, hsubagents, h⟩ := Option.bind_eq_some_iff.1 h
  rw [hsubagents]
  split at h
  · obtain rfl := Option.some.inj h
    rfl
  · split at h
    · obtain ⟨agent, -, h⟩ := Option.bind_eq_some_iff.1 h
      obtain ⟨calls, -, h⟩ := Option.bind_eq_some_iff.1 h
      obtain rfl := Option.some.inj h
      rfl
    · obtain rfl := Option.some.inj h
      rfl

/-- The usage of the last call is balanced. -/
theorem balanced_latest_call {spans : List (SpanFacts F)} (h : ∀ facts ∈ spans, Ingested settings facts)
    {agent : Option (SpanFacts F)} {summary : ModelCallSummary F}
    (hcall : (latest_call_summary settings index agent (latest_call_span spans)).result
      = some (some summary)) : Balanced summary.usage := by
  cases hlatest : latest_call_span spans with
  | none =>
    rw [hlatest] at hcall
    cases hcall
  | some latest =>
    rw [hlatest, latest_call_summary] at hcall
    cases husage : latest.usage with
    | none =>
      rw [husage] at hcall
      cases hcall
    | some details =>
      rw [husage] at hcall
      simp only [result_bind, result_sanitize_usage_breakdown, result_sanitize_optional_u64,
        Option.bind_some, result_pure, Option.some.injEq] at hcall
      subst hcall
      exact balanced_sanitized settings (balanced_of_ingested settings
        (h latest (mem_of_latest_call_span hlatest)) details husage).toIdentities

/-- What is reported of the usage of subagents. -/
def SubagentBreakdown.Reports (subagents : SubagentBreakdown) (usage : UsageBreakdown F) : Prop :=
  subagents.effective_input_tokens = usage.effective_input_tokens
    ∧ subagents.output_tokens = usage.output_tokens
    ∧ subagents.cache_read_input_tokens = usage.cache_read_input_tokens
    ∧ subagents.cache_write_input_tokens = usage.cache_write_input_tokens

/-- The figures account for the tokens: those of the session, those of the last call, and the usage
of the subagents, which is at most that of the session. -/
structure Accounted (figures : Figures F) (subagent_usage : UsageBreakdown F) : Prop where
  session : Balanced figures.session
  latest_call : ∀ call ∈ figures.latest_call, Balanced call.usage
  subagents : Balanced subagent_usage
  reported : figures.subagents.Reports subagent_usage
  at_most : AtMost subagent_usage figures.session
  calls_at_most : figures.subagents.model_calls ≤ figures.counts.model_calls

/-- **The accounts of a snapshot.** -/
theorem accounting_identities (h : ∀ facts ∈ index, Ingested settings facts) :
    (∀ facts ∈ index, ∀ details ∈ facts.usage, Balanced details.usage)
      ∧ ∀ walked ∈ walks turns index, ∀ figures ∈ (figures_of settings index walked).result,
        Accounted figures (usage_of_spans settings walked.subagent_model_spans) := by
  refine ⟨fun facts hfacts => balanced_of_ingested settings (h facts hfacts), ?_⟩
  intro walked hwalked figures hfigures
  have hspans : ∀ facts ∈ model_spans index, Ingested settings facts := fun facts hfacts =>
    h facts (mem_of_mem_model_spans hfacts)
  have hpart := sublist_of_subagent_model_spans (subagents_of_walks hwalked)
  unfold figures_of at hfigures
  simp only [Option.mem_def, result_bind, Option.bind_eq_some_iff, result_sanitize_usage_breakdown,
    Option.some.injEq, exists_eq_left', result_pure] at hfigures
  obtain ⟨context, -, duration, -, call, hcall, rfl⟩ := hfigures
  refine
    { session := balanced_usage_of_spans hspans
      latest_call := ?_
      subagents := balanced_usage_of_spans fun facts hfacts => hspans facts (hpart.subset hfacts)
      reported := ⟨rfl, rfl, rfl, rfl⟩
      at_most := atMost_usage_of_spans hspans hpart
      calls_at_most := hpart.length_le }
  exact fun summary hsummary => balanced_latest_call settings hspans (hcall.trans (congrArg some hsummary))

end Snapshots

/-! ## Polls -/

section Polls

variable {F : Type} {settings : Settings F}

/-- All the spans the reader keeps were ingested. -/
def AllIngested (settings : Settings F) (p : Provider F) : Prop :=
  ∀ span ∈ p.spans.rows, Ingested settings span.toSpanFacts

theorem allIngested_init : AllIngested settings .init := fun _ h => absurd h (by rintro ⟨⟩)

theorem allIngested_of_spans {p q : Provider F} (h : AllIngested settings p) (hspans : q.spans = p.spans) :
    AllIngested settings q := by
  unfold AllIngested
  rwa [hspans]

theorem spans_take_notes (notes : List Note) (p : Provider F) :
    (notes.foldl Provider.take_note p).spans = p.spans := by
  induction notes generalizing p with
  | nil => rfl
  | cons note notes ih =>
    rw [List.foldl_cons, ih]
    cases note <;> rfl

variable {p : Provider F}

theorem allIngested_keep_span {limits : TelemetryReaderLimits} {span : TelemetrySpan F}
    (h : AllIngested settings p) (hspan : Ingested settings span.toSpanFacts) :
    AllIngested settings (p.keep_span limits span) := by
  unfold Provider.keep_span
  split
  · split
    · exact h
    · intro kept hkept
      have hmem : kept ∈ (p.spans.put span).rows := by
        unfold Provider.observe_source_time at hkept
        dsimp only at hkept
        split at hkept
        · exact hkept
        · split at hkept <;> exact hkept
      rcases Table.mem_rows_put hmem with rfl | hmem
      · exact hspan
      · exact h kept hmem
  · split
    · exact h
    · exact h

/-- A span that a line has was made of a record. -/
theorem ingested_of_line {provenance : SpanProvenance} {raw_line : List UInt8} {span : TelemetrySpan F}
    (h : (span_of_line settings provenance raw_line).result = some (some span)) :
    Ingested settings span.toSpanFacts := by
  unfold span_of_line at h
  split at h
  · cases h
  · cases h
  · split at h
    · cases h
    · split at h
      · cases h
      · split at h
        · exact ⟨_, provenance, span, h, rfl⟩
        · split at h <;> cases h

theorem allIngested_process_line (now : Str) (provenance : SpanProvenance) (raw_line : List UInt8)
    (h : AllIngested settings p) :
    AllIngested settings (process_line settings now provenance raw_line p).provider := by
  have hnotes := allIngested_of_spans h (spans_take_notes (span_of_line settings provenance raw_line).notes
    { p with received_at := some now })
  unfold process_line
  dsimp only
  cases hline : (span_of_line settings provenance raw_line).result with
  | none => exact hnotes
  | some found =>
    cases found with
    | none => exact hnotes
    | some span => exact allIngested_keep_span hnotes (ingested_of_line hline)

variable (around : Surroundings)

theorem allIngested_run_events (name : Str) (events : List Event)
    (h : AllIngested settings p) : AllIngested settings
      (run_events settings around name events p).provider := by
  induction events generalizing p with
  | nil => exact h
  | cons event events ih =>
    cases event with
    | warning code => exact ih (p := p.record_warning code) h
    | line offset raw_line =>
      have hline := allIngested_process_line around.now ⟨name, offset⟩ raw_line h
      simp only [run_events]
      split
      · exact hline
      · exact ih hline

theorem allIngested_ingest_file (file : DirEntry) (max_bytes : ℕ) (h : AllIngested settings p) :
    AllIngested settings (ingest_file settings around file max_bytes p).ran.provider := by
  rw [ingest_file_eq, FilePlan.run]
  have hran := allIngested_run_events around (file_name file.path)
    (file_plan settings around file max_bytes (p.file_cursors.get file.path)).events h
  split
  · exact hran
  · exact hran

theorem allIngested_ingest_selected_files (files : List DirEntry) (budget : ℕ)
    (limited : Bool) (h : AllIngested settings p) :
    AllIngested settings (ingest_selected_files settings around files budget limited p).provider := by
  induction files generalizing budget limited p with
  | nil =>
    rw [ingest_selected_files]
    split <;> exact h
  | cons file files ih =>
    have hfile := allIngested_ingest_file around file budget h
    simp only [ingest_selected_files]
    split
    · exact hfile
    · exact ih _ _ hfile

variable (settings) in
theorem spans_discover_selected_files (p : Provider F) :
    (discover_selected_files settings around p).2.spans = p.spans := by
  unfold discover_selected_files
  split
  · rfl
  · dsimp only
    split <;> rfl

theorem allIngested_ingest_incremental (h : AllIngested settings p) :
    AllIngested settings (ingest_incremental settings around p).provider := by
  have hran := allIngested_ingest_selected_files around (discover_selected_files settings around p).1
    settings.limits.max_total_bytes false
    (allIngested_of_spans h (spans_discover_selected_files settings around p))
  unfold ingest_incremental
  dsimp only
  split
  · exact hran
  · split
    · exact hran
    · exact hran

/-- The reader after polls. -/
def polls (settings : Settings F) (arounds : List Surroundings) (p : Provider F) : Provider F :=
  arounds.foldl (fun p around => (ingest_incremental settings around p).provider) p

/-- **Every span of a reader was ingested**, however often it polls. -/
theorem allIngested_polls (arounds : List Surroundings) (h : AllIngested settings p) :
    AllIngested settings (polls settings arounds p) := by
  induction arounds generalizing p with
  | nil => exact h
  | cons around arounds ih => exact ih (allIngested_ingest_incremental around h)

theorem ingested_index (h : AllIngested settings p) :
    ∀ facts ∈ p.index, Ingested settings facts := by
  intro facts hfacts
  obtain ⟨span, hspan, rfl⟩ := List.mem_map.1 hfacts
  exact h span hspan

end Polls

/-! ## One call -/

/-- A call with an input of ten tokens, four of them from the cache. -/
def call_line : List UInt8 :=
  ascii_line "\x7b\"type\":\"span\",\"traceId\":\"t\",\"spanId\":\"s\",\"name\":\"chat\",\"startTime\":[0,0],\"endTime\":[1,0],\"attributes\":\x7b\"gen_ai.usage.input_tokens\":10,\"gen_ai.usage.cache_read.input_tokens\":4\x7d\x7d"

/-- Its record. -/
def call_record : Value ℚ :=
  .object [(str "type", .string (str "span")), (str "traceId", .string (str "t")),
    (str "spanId", .string (str "s")), (str "name", .string (str "chat")),
    (str "startTime", .array [.int 0, .int 0]), (str "endTime", .array [.int 1, .int 0]),
    (str "attributes", .object [(str "gen_ai.usage.input_tokens", .int 10),
      (str "gen_ai.usage.cache_read.input_tokens", .int 4)])]

/-- A reader that can read this line. -/
def reads_call : Settings ℚ :=
  ⟨Python.small fun raw_line => if raw_line = call_line then .value call_record else .malformed, {},
    some .INCLUSIVE⟩

/-- The reader after it has read it. -/
def read_call : Provider ℚ := polls reads_call [one_file (call_line ++ [10])] .init

/-- The call is accounted for. -/
theorem one_call_accounted : (∀ facts ∈ read_call.index, ∀ details ∈ facts.usage, Balanced details.usage)
      ∧ ∀ walked ∈ walks 1 read_call.index, ∀ figures ∈ (figures_of reads_call read_call.index walked).result,
        Accounted figures (usage_of_spans reads_call walked.subagent_model_spans) :=
  accounting_identities reads_call
    (ingested_index (allIngested_polls [one_file (call_line ++ [10])] allIngested_init))

end AgentSpace.Telemetry.Otel
