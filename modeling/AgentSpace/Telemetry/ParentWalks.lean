/-
The parent walks of `_build_snapshot`, and when they end.

`nearest_agent` climbs from a span to its parent, until it meets an agent, a span without
a parent, or a parent it does not know. Nothing stops it on a chain that comes back to one
of its spans (`Loops`). A walk is run with a number of turns; `none` is one that is still
under way when they are used up.
-/
import AgentSpace.Lib.Chain
import AgentSpace.Telemetry.Span
import Mathlib.Data.List.Sort

set_option autoImplicit false

namespace AgentSpace.Telemetry

open Lib

/-! ## The walks -/

section Walks

variable (turns : ℕ) (index : SpanTable)

/-- The `while current_parent_id is not None` loop of `nearest_agent`. -/
def climb (trace_id : Str) : ℕ → Option Str → Option (Option TelemetrySpan)
  | 0, _ => none
  | _ + 1, none => some none
  | turns + 1, some current_parent_id =>
    match index.get (encode trace_id current_parent_id) with
    | none => some none
    | some parent =>
      if parent.kind = .AGENT then some (some parent)
      else climb trace_id turns parent.parent_span_id

/-- `ancestor_cache`, the last entry first. -/
abbrev Cache := List (Str × Option TelemetrySpan)

/-- A computation with the cache that may not come to an end. -/
abbrev Walk := StateT Cache Option

/-- `nearest_agent`. -/
def nearest_agent (span : TelemetrySpan) : Walk (Option TelemetrySpan) := fun cache =>
  match cache.lookup span.key.encoded with
  | some cached => some (cached, cache)
  | none =>
    match climb index span.key.trace_id turns span.parent_span_id with
    | none => none
    | some agent => some (agent, (span.key.encoded, agent) :: cache)

/-- The order of tuples. -/
def tuple_le (a b : TelemetrySpan) : Prop :=
  (compareLex (compareOn fun s => s.started_at_ns) (compareLex (compareOn fun s => s.ended_at_ns)
    (compareLex (compareOn fun s => s.key.trace_id) (compareOn fun s => s.key.span_id))) a b).isLE

instance (a b : TelemetrySpan) : Decidable (tuple_le a b) := inferInstanceAs (Decidable (_ = true))

/-- `model_spans`. -/
def model_spans : List TelemetrySpan :=
  (index.spans.filter fun span => span.kind = .MODEL_CALL).insertionSort tuple_le

/-- `latest_call_span`: the first of the greatest. -/
def latest_call_span : List TelemetrySpan → Option TelemetrySpan
  | [] => none
  | span :: rest => some (rest.foldl (fun best s => if tuple_le s best then best else s) span)

/-- `subagent_ids`. -/
def subagent_ids : List Str :=
  (index.spans.filter fun span => span.kind = .AGENT ∧ span.parent_span_id ≠ none).map
    fun span => span.key.encoded

/-- The spans of the list whose nearest agent is a subagent. -/
def subagent_model_spans : List TelemetrySpan → Walk (List TelemetrySpan)
  | [] => pure []
  | span :: rest => do
    let agent ← nearest_agent turns index span
    let others ← subagent_model_spans rest
    if agent.any (fun a => (subagent_ids index).contains a.key.encoded) then
      pure (span :: others)
    else pure others

/-- `_call_lane`. -/
def call_lane (span : TelemetrySpan) (latest_agent : Option TelemetrySpan) :
    Option Str × Option Str × Option Str :=
  (str_or span.conversation_id (some span.key.trace_id),
    latest_agent.bind fun agent =>
      str_or (str_or agent.agent_id agent.agent_name) (some agent.key.encoded),
    str_or span.model span.requested_model)

/-- The `comparable` calls of `_build_cache_signal`: those in the lane. -/
def comparable_calls (latest_lane : Option Str × Option Str × Option Str) :
    List TelemetrySpan → Walk (List TelemetrySpan)
  | [] => pure []
  | span :: rest =>
    if span.has_usage then do
      let agent ← nearest_agent turns index span
      let others ← comparable_calls latest_lane rest
      if call_lane span agent = latest_lane then pure (span :: others) else pure others
    else comparable_calls latest_lane rest

/-- What `_build_snapshot` learns on its walks. -/
structure SnapshotWalks where
  subagent_model_spans : List TelemetrySpan
  latest_agent : Option TelemetrySpan
  «comparable» : List TelemetrySpan
  deriving DecidableEq

/-- `_build_snapshot`, as far as it walks to parents: for every model call, for the
latest call, and for the calls of its lane. -/
def build_snapshot : Walk SnapshotWalks := do
  let spans := model_spans index
  let subagents ← subagent_model_spans turns index spans
  match latest_call_span spans with
  | none => pure ⟨subagents, none, []⟩
  | some latest =>
    if latest.has_usage then do
      let latest_agent ← nearest_agent turns index latest
      let calls ← comparable_calls turns index (call_lane latest latest_agent) spans
      pure ⟨subagents, latest_agent, calls⟩
    else pure ⟨subagents, none, []⟩

end Walks

/-- Snapshot building ends. -/
def Terminates (index : SpanTable) : Prop := ∃ turns, (build_snapshot turns index []).isSome

/-! ## Chains of parents -/

/-- The span a walk goes on to: none from an agent, where it ends. -/
def parent_of (index : SpanTable) (trace_id : Str) (span : TelemetrySpan) : Option TelemetrySpan :=
  if span.kind = .AGENT then none
  else span.parent_span_id.bind fun id => index.get (encode trace_id id)

/-- The known parent of a span. -/
def known_parent (index : SpanTable) (span : TelemetrySpan) : Option TelemetrySpan :=
  span.parent_span_id.bind fun id => index.get (encode span.key.trace_id id)

/-- The chain of parents of a span, which ends at an agent, comes to a span that is
its own ancestor. -/
def Loops (index : SpanTable) (span : TelemetrySpan) : Prop :=
  ∃ first, known_parent index span = some first
    ∧ ∃ q, Leads (parent_of index span.key.trace_id) first q
      ∧ Cycles (parent_of index span.key.trace_id) q

section Climb

variable {index : SpanTable} {trace_id : Str}

variable {id : Option Str}

theorem ends_of_climb {turns : ℕ} {parent : TelemetrySpan} (h : (climb index trace_id turns id).isSome)
    (hparent : id.bind (fun id => index.get (encode trace_id id)) = some parent) :
    follow (parent_of index trace_id) turns parent = none := by
  induction turns generalizing id parent with
  | zero => cases h
  | succ turns ih =>
    cases id with
    | none => cases hparent
    | some id =>
      rw [Option.bind_some] at hparent
      rw [climb, hparent] at h
      dsimp only at h
      rw [follow]
      by_cases hagent : parent.kind = .AGENT
      · rw [parent_of, if_pos hagent, Option.bind_none]
      · rw [if_neg hagent] at h
        rw [parent_of, if_neg hagent]
        cases hnext : parent.parent_span_id.bind fun id => index.get (encode trace_id id) with
        | none => rfl
        | some q => exact ih h hnext

theorem climb_of_ends {turns : ℕ}
    (h : ∀ parent, id.bind (fun id => index.get (encode trace_id id)) = some parent →
      follow (parent_of index trace_id) turns parent = none) :
    (climb index trace_id (turns + 1) id).isSome := by
  induction turns generalizing id with
  | zero =>
    cases id with
    | none => rfl
    | some id =>
      rw [climb]
      cases hget : index.get (encode trace_id id) with
      | none => rfl
      | some parent => cases h parent hget
  | succ turns ih =>
    cases id with
    | none => rfl
    | some id =>
      rw [climb]
      cases hget : index.get (encode trace_id id) with
      | none => rfl
      | some parent =>
        dsimp only
        by_cases hagent : parent.kind = .AGENT
        · rw [if_pos hagent]
          rfl
        · rw [if_neg hagent]
          apply ih
          intro q hq
          have hfollow := h parent hget
          rwa [follow, parent_of, if_neg hagent, hq, Option.bind_some] at hfollow

theorem climb_mono {m n : ℕ} (hle : m ≤ n)
    (h : (climb index trace_id m id).isSome) : (climb index trace_id n id).isSome := by
  induction m generalizing n id with
  | zero => cases h
  | succ m ih =>
    obtain ⟨n, rfl⟩ : ∃ k, n = k + 1 := ⟨n - 1, by omega⟩
    cases id with
    | none => rfl
    | some id =>
      rw [climb] at h ⊢
      cases hget : index.get (encode trace_id id) with
      | none => rfl
      | some parent =>
        rw [hget] at h
        dsimp only at h ⊢
        by_cases hagent : parent.kind = .AGENT
        · rw [if_pos hagent]
          rfl
        · rw [if_neg hagent] at h ⊢
          exact ih (by omega) h

/-- **One walk.** It ends if and only if the chain of parents does not come back to
one of its spans. -/
theorem climb_terminates_iff (index : SpanTable) (span : TelemetrySpan) :
    (∃ turns, (climb index span.key.trace_id turns span.parent_span_id).isSome)
      ↔ ¬Loops index span := by
  have hfinite : ∀ a b, parent_of index span.key.trace_id a = some b → b ∈ index.spans := by
    intro a b h
    unfold parent_of at h
    split_ifs at h with hagent
    obtain ⟨id, -, hget⟩ := Option.bind_eq_some_iff.1 h
    exact SpanTable.mem_of_get hget
  constructor
  · rintro ⟨turns, hturns⟩ ⟨first, hfirst, hcycle⟩
    exact (ends_iff_not_cycles hfinite).1 ⟨turns, ends_of_climb hturns hfirst⟩ hcycle
  · intro hno
    cases hfirst : known_parent index span with
    | none =>
      refine ⟨1, climb_of_ends fun parent hparent => ?_⟩
      unfold known_parent at hfirst
      rw [hfirst] at hparent
      cases hparent
    | some first =>
      obtain ⟨turns, hturns⟩ := (ends_iff_not_cycles hfinite).2
        fun hcycle => hno ⟨first, hfirst, hcycle⟩
      refine ⟨turns + 1, climb_of_ends fun parent hparent => ?_⟩
      unfold known_parent at hfirst
      rw [hfirst] at hparent
      rwa [← Option.some.inj hparent]

end Climb

/-! ## Snapshots -/

/-- The walk from the span ends within the turns. -/
def Climbs (turns : ℕ) (index : SpanTable) (span : TelemetrySpan) : Prop :=
  (climb index span.key.trace_id turns span.parent_span_id).isSome

/-- The walks the cache remembers have ended. -/
def Remembers (turns : ℕ) (index : SpanTable) (cache : Cache) : Prop :=
  ∀ entry ∈ cache, ∀ span ∈ index.spans, span.key.encoded = entry.1 → Climbs turns index span

section Snapshots

variable {turns : ℕ} {index : SpanTable}

variable {span : TelemetrySpan}

theorem nearest_agent_ends (h : Climbs turns index span) (cache : Cache) :
    ∃ agent cache', nearest_agent turns index span cache = some (agent, cache') := by
  unfold nearest_agent
  cases cache.lookup span.key.encoded with
  | some cached => exact ⟨cached, cache, rfl⟩
  | none =>
    obtain ⟨agent, hagent⟩ := Option.isSome_iff_exists.1 h
    exact ⟨agent, _, by rw [hagent]⟩

/-- A walk that has ended, has ended now or before. -/
theorem climbs_of_nearest_agent (hspan : span ∈ index.spans) {cache : Cache}
    {agent : Option TelemetrySpan} {cache' : Cache} (hcache : Remembers turns index cache)
    (h : nearest_agent turns index span cache = some (agent, cache')) :
    Climbs turns index span ∧ Remembers turns index cache' := by
  unfold nearest_agent at h
  cases hlookup : cache.lookup span.key.encoded with
  | some cached =>
    rw [hlookup] at h
    obtain ⟨-, rfl⟩ := Prod.mk.inj (Option.some.inj h)
    obtain ⟨k, hk, hkey⟩ : ∃ k, (k, cached) ∈ cache ∧ k = span.key.encoded := by
      obtain ⟨before, after, rfl, -⟩ := List.lookup_eq_some_iff.1 hlookup
      exact ⟨_, by simp, rfl⟩
    exact ⟨hcache _ hk span hspan hkey.symm, hcache⟩
  | none =>
    rw [hlookup] at h
    dsimp only at h
    cases hclimb : climb index span.key.trace_id turns span.parent_span_id with
    | none => rw [hclimb] at h; cases h
    | some found =>
      rw [hclimb] at h
      obtain ⟨-, rfl⟩ := Prod.mk.inj (Option.some.inj h)
      have hclimbs : Climbs turns index span := by
        rw [Climbs, hclimb]
        rfl
      refine ⟨hclimbs, fun entry hentry other hother hkey => ?_⟩
      rcases List.mem_cons.1 hentry with rfl | hentry
      · rwa [SpanTable.eq_of_encoded hother hspan hkey]
      · exact hcache entry hentry other hother hkey

variable {spans : List TelemetrySpan}

theorem subagent_model_spans_ends (h : ∀ span ∈ spans, Climbs turns index span) (cache : Cache) :
    ∃ found cache', subagent_model_spans turns index spans cache = some (found, cache') := by
  induction spans generalizing cache with
  | nil => exact ⟨[], cache, rfl⟩
  | cons span rest ih =>
    obtain ⟨agent, cache₁, h₁⟩ := nearest_agent_ends (h span (by simp)) cache
    obtain ⟨others, cache₂, h₂⟩ := ih (fun s hs => h s (by simp [hs])) cache₁
    rw [subagent_model_spans]
    simp only [bind, StateT.bind, h₁, h₂, Option.bind_some]
    split
    · exact ⟨_, _, rfl⟩
    · exact ⟨_, _, rfl⟩

theorem climbs_of_subagent_model_spans (hspans : ∀ span ∈ spans, span ∈ index.spans) {cache : Cache}
    (hcache : Remembers turns index cache) (h : (subagent_model_spans turns index spans cache).isSome) :
    ∀ span ∈ spans, Climbs turns index span := by
  induction spans generalizing cache with
  | nil => simp
  | cons span rest ih =>
    rw [subagent_model_spans] at h
    simp only [bind, StateT.bind] at h
    cases hagent : nearest_agent turns index span cache with
    | none => rw [hagent] at h; cases h
    | some result =>
      obtain ⟨agent, cache'⟩ := result
      rw [hagent, Option.bind_some] at h
      obtain ⟨hclimbs, hcache'⟩ := climbs_of_nearest_agent (hspans span (by simp)) hcache hagent
      have hrest : (subagent_model_spans turns index rest cache').isSome := by
        cases hothers : subagent_model_spans turns index rest cache' with
        | none => rw [hothers] at h; cases h
        | some _ => rfl
      intro s hs
      rcases List.mem_cons.1 hs with rfl | hs
      · exact hclimbs
      · exact ih (fun t ht => hspans t (by simp [ht])) hcache' hrest s hs

theorem comparable_calls_ends (lane : Option Str × Option Str × Option Str)
    (h : ∀ span ∈ spans, Climbs turns index span) (cache : Cache) :
    ∃ found cache', comparable_calls turns index lane spans cache = some (found, cache') := by
  induction spans generalizing cache with
  | nil => exact ⟨[], cache, rfl⟩
  | cons span rest ih =>
    rw [comparable_calls]
    by_cases husage : span.has_usage = true
    · obtain ⟨agent, cache₁, h₁⟩ := nearest_agent_ends (h span (by simp)) cache
      obtain ⟨others, cache₂, h₂⟩ := ih (fun s hs => h s (by simp [hs])) cache₁
      rw [if_pos husage]
      simp only [bind, StateT.bind, h₁, h₂, Option.bind_some]
      split
      · exact ⟨_, _, rfl⟩
      · exact ⟨_, _, rfl⟩
    · rw [if_neg husage]
      exact ih (fun s hs => h s (by simp [hs])) cache

theorem mem_of_latest_call_span {latest : TelemetrySpan}
    (h : latest_call_span spans = some latest) : latest ∈ spans := by
  cases spans with
  | nil => cases h
  | cons span rest =>
    rw [latest_call_span, Option.some.injEq] at h
    have hfold : ∀ (rest : List TelemetrySpan) (best : TelemetrySpan),
        rest.foldl (fun best s => if tuple_le s best then best else s) best ∈ best :: rest := by
      intro rest
      induction rest with
      | nil => simp
      | cons s rest ih =>
        intro best
        rw [List.foldl_cons]
        have hmem := ih (if tuple_le s best then best else s)
        rcases List.mem_cons.1 hmem with heq | hmem
        · rw [heq]
          split <;> simp
        · simp [hmem]
    rw [← h]
    exact hfold rest span

theorem mem_model_spans : span ∈ model_spans index ↔ span ∈ index.spans ∧ span.kind = .MODEL_CALL := by
  rw [model_spans, List.mem_insertionSort, List.mem_filter]
  simp

theorem build_snapshot_isSome_iff :
    (build_snapshot turns index []).isSome ↔ ∀ span ∈ model_spans index, Climbs turns index span := by
  constructor
  · intro h
    refine climbs_of_subagent_model_spans (fun span hspan => (mem_model_spans.1 hspan).1)
      (show Remembers turns index [] from fun entry hentry => by simp at hentry) ?_
    unfold build_snapshot at h
    simp only [bind, StateT.bind] at h
    cases hsubagents : subagent_model_spans turns index (model_spans index) [] with
    | none => rw [hsubagents] at h; cases h
    | some _ => rfl
  · intro h
    obtain ⟨subagents, cache₁, h₁⟩ := subagent_model_spans_ends h []
    unfold build_snapshot
    simp only [bind, StateT.bind, h₁, Option.bind_some]
    cases hlatest : latest_call_span (model_spans index) with
    | none => rfl
    | some latest =>
      dsimp only
      by_cases husage : latest.has_usage = true
      · obtain ⟨agent, cache₂, h₂⟩ :=
          nearest_agent_ends (h latest (mem_of_latest_call_span hlatest)) cache₁
        obtain ⟨calls, cache₃, h₃⟩ := comparable_calls_ends (call_lane latest agent) h cache₂
        rw [if_pos husage]
        simp only [bind, StateT.bind, h₂, h₃, Option.bind_some]
        rfl
      · rw [if_neg husage]
        rfl

/-- **Snapshots that are finished.** For every set of ingested spans, the building of
a snapshot ends if and only if the chain of parents of no model call, followed up
to the first agent, comes to a span that is its own ancestor. -/
theorem build_snapshot_terminates_iff (index : SpanTable) :
    Terminates index ↔
      ∀ span ∈ index.spans, span.kind = .MODEL_CALL → ¬Loops index span := by
  constructor
  · rintro ⟨turns, h⟩ span hspan hkind
    exact (climb_terminates_iff index span).1
      ⟨turns, build_snapshot_isSome_iff.1 h span (mem_model_spans.2 ⟨hspan, hkind⟩)⟩
  · intro h
    -- as many turns as the longest walk takes
    have hall : ∀ spans : List TelemetrySpan, (∀ span ∈ spans, ¬Loops index span) →
        ∃ turns, ∀ span ∈ spans, Climbs turns index span := by
      intro spans
      induction spans with
      | nil => exact fun _ => ⟨0, by simp⟩
      | cons span rest ih =>
        intro hspans
        obtain ⟨m, hm⟩ := ih fun s hs => hspans s (by simp [hs])
        obtain ⟨n, hn⟩ := (climb_terminates_iff index span).2 (hspans span (by simp))
        refine ⟨max m n, fun s hs => ?_⟩
        rcases List.mem_cons.1 hs with rfl | hs
        · exact climb_mono (le_max_right m n) hn
        · exact climb_mono (le_max_left m n) (hm s hs)
    obtain ⟨turns, hturns⟩ := hall (model_spans index) fun span hspan =>
      h span (mem_model_spans.1 hspan).1 (mem_model_spans.1 hspan).2
    exact ⟨turns, build_snapshot_isSome_iff.2 hturns⟩

end Snapshots

/-! ## A span that is its own parent -/

/-- A record of a model call whose parent is itself. -/
def self_parent_record : List (Str × Json) :=
  [(str "type", .string (str "span")), (str "traceId", .string (str "t")),
    (str "spanId", .string (str "s")), (str "parentSpanId", .string (str "s")),
    (str "name", .string (str "chat")), (str "startTime", .array [.int 1, .int 0]),
    (str "endTime", .array [.int 2, .int 0])]

/-- The span it becomes. -/
def self_parent_span : TelemetrySpan :=
  ⟨⟨str "t", str "s"⟩, some (str "s"), .MODEL_CALL, str "chat", 1000000000, 2000000000, none, none,
    none, none, none, true⟩

theorem normalize_self_parent_record :
    normalize_span ⟨fun _ => none⟩ 256 self_parent_record = some self_parent_span := by
  decide

/-- Once the record is in the log, no snapshot is ever finished. -/
theorem self_parent_hangs :
    ¬∀ (py : Python) (max_string_length max_distinct_spans : ℕ) (records : List (List (Str × Json))),
      Terminates ((records.filterMap (normalize_span py max_string_length)).foldl
        (SpanTable.ingest max_distinct_spans) SpanTable.empty) := by
  intro h
  have hends := h ⟨fun _ => none⟩ 256 50000 [self_parent_record]
  rw [List.filterMap_cons, normalize_self_parent_record] at hends
  have hmem : self_parent_span
      ∈ (([self_parent_span].foldl (SpanTable.ingest 50000) SpanTable.empty).spans) := by
    decide
  refine (build_snapshot_terminates_iff _).1 hends self_parent_span hmem rfl
    ⟨self_parent_span, by decide, self_parent_span, ⟨0, rfl⟩, 0, by decide⟩

end AgentSpace.Telemetry
