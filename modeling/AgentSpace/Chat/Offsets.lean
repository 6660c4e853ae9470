/-
Where the tool calls of a message stand in its text.

The service reads an event twice: `flatten_text` for the text, and `extract_tool_calls` for the
calls, each with the number of characters in front of it. The offsets fit the text where the two
readings count the same characters (`consistent_iff`).
-/
import AgentSpace.Chat.LiveView
import AgentSpace.Lib.Trimming

set_option autoImplicit false

namespace AgentSpace.Chat.Events

open Lib Text
open Service (Extracted extract_update update_tool_call apply_legacy_tool_result trimmed_char_count)

variable {N : Type} (style : Style N)

/-! ## The two readings -/

/-- A member that is an object. -/
def get_object (object : JsonObject N) (key : String) : Option (JsonObject N) :=
  (get object key).bind Json.as_object

/-- The event is of the type. -/
def is_type (event : JsonObject N) (type : String) : Prop := get_str event "type" = some (lit type)

instance (event : JsonObject N) (type : String) : Decidable (is_type event type) :=
  inferInstanceAs (Decidable (_ = _))

/-- `session_update`. -/
def session_update (event : JsonObject N) : Option (JsonObject N) :=
  if is_type event "session/update" then get_object event "update" else none

/-- The message of an error. -/
def error_message (event : JsonObject N) : Option Text :=
  ((get event "message").or ((get_object event "error").bind fun error => get error "message")).bind Json.as_str

/-- The chunk of an event in `flatten_text`. -/
def text_chunk (event : JsonObject N) : Option Text :=
  if is_type event "text_delta" then get_str event "content"
  else
    match (get_object event "update").filter fun update => kind_of update
      = some (lit "agent_message_chunk") with
    | some update => some (style.content_text_of (get update "content"))
    | none =>
      if is_type event "session/error" then (error_message event).map fun message => lit "Error: " ++ message
      else none

/-- `flatten_text`, before it is trimmed. -/
def text_of (events : List (JsonObject N)) : Text := (events.filterMap (text_chunk style)).flatten

/-- `flatten_text`. -/
def flatten_text (events : List (JsonObject N)) : Text := trim (text_of style events)

/-- The round of `extract_tool_calls` for an event. -/
def extract (event : JsonObject N) (s : Extracted) : Extracted :=
  if is_type event "text_delta" then { s with content := s.content ++ (get_str event "content").getD [] }
  else if is_type event "tool_call" then
    (get_str event "tool").elim s fun tool => { s with calls := s.calls ++ [{ ToolCall.new tool with
      input := (get event "input").bind style.json_text
      content_offset := some (trimmed_char_count s.content) }] }
  else if is_type event "tool_result" then
    (get_str event "tool").elim s fun tool =>
      { s with calls := apply_legacy_tool_result s.calls tool (get_str event "output") }
  else
    (session_update event).elim s fun update => extract_update style update s

/-- `extract_tool_calls`, with its local variables. -/
def extracted (events : List (JsonObject N)) : Extracted :=
  events.foldl (fun s event => extract style event s) ⟨[], fun _ => none, []⟩

/-- `extract_tool_calls`. -/
def extract_tool_calls (events : List (JsonObject N)) : List ToolCall := (extracted style events).calls

/-! ## Events with typed fields -/

/-! ## First events of calls -/

/-- The tool call id of an update of a tool call. -/
def call_id (event : JsonObject N) : Option Text :=
  ((session_update event).filter fun update => is_tool_update update).bind fun update =>
    get_str update "toolCallId"

/-- The tool call ids of events. -/
def call_ids (events : List (JsonObject N)) : List Text := events.filterMap call_id

/-- The id of the call of which this is the first event, if it is one. -/
def first_of (before : List (JsonObject N)) (event : JsonObject N) : Option (Option Text) :=
  if is_type event "tool_call" then (get_str event "tool").map fun _ => none
  else
    match (session_update event).filter fun update => is_tool_update update with
    | none => none
    | some update =>
      match get_str update "toolCallId" with
      | none => some none
      | some id => if id ∈ call_ids before then none else some (some id)

/-- The first events of calls: what comes before each, and the id of the call. -/
def firsts_from : List (JsonObject N) → List (JsonObject N) → List (List (JsonObject N) × Option Text)
  | _, [] => []
  | before, event :: after =>
    ((first_of before event).map fun id => (before, id)).toList ++ firsts_from (before ++ [event]) after

/-- The first events of the calls in a list of events. -/
def firsts (events : List (JsonObject N)) : List (List (JsonObject N) × Option Text) := firsts_from [] events

/-- What stays of a call: its id, and its offset. -/
def mark (call : ToolCall) : Option Text × Option ℕ := (call.tool_call_id, call.content_offset)

theorem firsts_from_append (before events : List (JsonObject N)) (event : JsonObject N) :
    firsts_from before (events ++ [event])
      = firsts_from before events
        ++ ((first_of (before ++ events) event).map fun id => (before ++ events, id)).toList := by
  induction events generalizing before with
  | nil => simp [firsts_from]
  | cons first events ih =>
    rw [List.cons_append, firsts_from, ih, firsts_from, List.append_assoc, List.append_assoc]
    rfl

theorem firsts_append (events : List (JsonObject N)) (event : JsonObject N) :
    firsts (events ++ [event])
      = firsts events ++ ((first_of events event).map fun id => (events, id)).toList :=
  firsts_from_append [] events event

theorem prefix_of_mem_firsts {events : List (JsonObject N)} {first : List (JsonObject N) × Option Text}
    (h : first ∈ firsts events) : first.1 <+: events := by
  induction events using List.reverseRecOn with
  | nil => cases h
  | append_singleton events event ih =>
    rw [firsts_append] at h
    rcases List.mem_append.1 h with h | h
    · exact (ih h).trans (List.prefix_append _ _)
    · obtain ⟨id, -, rfl⟩ := Option.map_eq_some_iff.1 (Option.mem_toList.1 h)
      exact List.prefix_append _ _

/-! ## Calls -/

section Calls

theorem map_modify_of_eq {α β : Type} {f : α → α} {g : α → β} (h : ∀ a, g (f a) = g a) (l : List α) (i : ℕ) :
    (l.modify i f).map g = l.map g := by
  induction l generalizing i with
  | nil => simp
  | cons a l ih => cases i <;> simp [h, ih]

theorem mark_update_tool_call (update : JsonObject N) (call : ToolCall) :
    mark (update_tool_call style update call) = mark call := by
  unfold update_tool_call
  cases Service.terminal_output_delta update with
  | none => rfl
  | some chunk => rfl

theorem marks_legacy_tool_result (calls : List ToolCall) (tool : Text) (output : Option Text) :
    (apply_legacy_tool_result calls tool output).map mark = calls.map mark := by
  unfold apply_legacy_tool_result
  split
  · exact map_modify_of_eq (fun call => by rfl) calls _
  · rfl

/-- The ids that are known, and where. -/
def Knows (s : Extracted) (ids : List Text) : Prop := ∀ id, (s.by_id id).isSome ↔ id ∈ ids

/-- **What a tool update marks.** -/
theorem marks_upsert {s : Extracted} {ids : List Text} (hs : Knows s ids) (update : JsonObject N) (offset : ℕ) :
    let upserted := Service.upsert_tool_call style update offset s.calls s.by_id
    upserted.1.map mark
        = s.calls.map mark ++ (match get_str update "toolCallId" with
          | none => [(none, some offset)]
          | some id => if id ∈ ids then [] else [(some id, some offset)])
      ∧ Knows { s with calls := upserted.1, by_id := upserted.2 }
        (ids ++ (get_str update "toolCallId").toList) := by
  unfold Service.upsert_tool_call
  have hmark := mark_update_tool_call style update
  cases hid : get_str update "toolCallId" with
  | none =>
    refine ⟨?_, fun id => ?_⟩
    · show List.map mark (List.modify _ _ _) = _
      rw [map_modify_of_eq hmark, List.map_append]
      rfl
    · simpa using hs id
  | some id =>
    dsimp only [Option.bind_some]
    cases hknown : s.by_id id with
    | some index =>
      have hmem := (hs id).1 (by rw [hknown]; rfl)
      refine ⟨?_, fun other => ?_⟩
      · rw [if_pos hmem, List.append_nil]
        exact map_modify_of_eq hmark _ _
      · show (s.by_id other).isSome = true ↔ _
        rw [hs other]
        simp only [Option.toList_some, List.mem_append, List.mem_singleton]
        exact ⟨Or.inl, fun h => h.elim (fun h => h) fun h => h ▸ hmem⟩
    | none =>
      have hnot : id ∉ ids := fun hmem => by
        have hsome := (hs id).2 hmem
        rw [hknown] at hsome
        cases hsome
      refine ⟨?_, fun other => ?_⟩
      · rw [if_neg hnot]
        show List.map mark (List.modify _ _ _) = _
        rw [map_modify_of_eq hmark, List.map_append]
        rfl
      · show (Function.update s.by_id id (some s.calls.length) other).isSome = true ↔ _
        simp only [Option.toList_some, List.mem_append, List.mem_singleton]
        by_cases hother : other = id
        · subst hother
          rw [Function.update_self]
          exact iff_of_true rfl (Or.inr rfl)
        · rw [Function.update_of_ne hother, hs other]
          exact ⟨Or.inl, fun h => h.resolve_right hother⟩

end Calls

/-! ## Rounds -/

section Rounds

variable {event : JsonObject N} {before : List (JsonObject N)} {s : Extracted}

/-- `extract_tool_calls` counts the text of the event. -/
def speaks (event : JsonObject N) : Bool := is_type event "text_delta" || is_type event "session/update"

theorem not_is_type {type other : String} (h : is_type event type) (hne : type ≠ other) :
    ¬is_type event other := by
  intro hother
  rw [is_type, h] at hother
  exact hne (lit_inj.1 (Option.some.inj hother))

theorem session_update_of_other (h : ¬is_type event "session/update") : session_update event = none := if_neg h

theorem call_id_of_other (h : ¬is_type event "session/update") : call_id event = none := by
  rw [call_id, session_update_of_other h]
  rfl

theorem call_ids_append (before : List (JsonObject N)) (event : JsonObject N) :
    call_ids (before ++ [event]) = call_ids before ++ (call_id event).toList := by
  rw [call_ids, List.filterMap_append]
  cases h : call_id event <;> simp [call_ids, h]

/-- What a round does: it adds the mark of a first event, and its text if it speaks. -/
structure Round (before : List (JsonObject N)) (event : JsonObject N) (s s' : Extracted) : Prop where
  marks : s'.calls.map mark
    = s.calls.map mark ++ ((first_of before event).map fun id =>
      (id, some (trimmed_char_count s.content))).toList
  knows : Knows s' (call_ids (before ++ [event]))
  content : s'.content = s.content ++ (if speaks event then (text_chunk style event).getD [] else [])

theorem knows_of_other (hs : Knows s (call_ids before)) {s' : Extracted} (hby_id : s'.by_id = s.by_id)
    (h : call_id event = none) : Knows s' (call_ids (before ++ [event])) := by
  intro id
  rw [hby_id, hs id, call_ids_append, h, Option.toList_none, List.append_nil]

variable (before) in
theorem first_of_other (hcall : ¬is_type event "tool_call")
    (hupdate : (session_update event).filter (fun update => is_tool_update update) = none) :
    first_of before event = none := by
  rw [first_of, if_neg hcall, hupdate]

/-- An update that is none of a tool call adds what it says. -/
theorem round_speech (hs : Knows s (call_ids before)) (htype : is_type event "session/update")
    {update : JsonObject N} (hupdate : get_object event "update" = some update)
      (htool : ¬is_tool_update update) : Round style before event s (extract_update style update s) := by
  have hsession : session_update event = some update := (if_pos htype).trans hupdate
  have hfilter : (session_update event).filter (fun update => is_tool_update update) = none := by
    rw [hsession]
    simp [htool]
  have hid : call_id event = none := by rw [call_id, hfilter, Option.bind_none]
  have hspeaks : speaks event = true := by simp [speaks, htype]
  have hchunk : text_chunk style event = if kind_of update = some (lit "agent_message_chunk")
      then some (style.content_text_of (get update "content")) else none := by
    rw [text_chunk, if_neg (not_is_type htype (by decide)), hupdate, Option.filter_some]
    by_cases hkind : kind_of update = some (lit "agent_message_chunk")
    · rw [if_pos (decide_eq_true hkind), if_pos hkind]
    · rw [if_neg (by simpa using hkind), if_neg hkind]
      exact if_neg (not_is_type htype (by decide))
  have hmarks := first_of_other before (not_is_type htype (by decide)) hfilter
  have hextract : extract_update style update s
      = { s with content := s.content ++ (text_chunk style event).getD [] } := by
    rw [hchunk]
    by_cases hkind : kind_of update = some (lit "agent_message_chunk")
    · rw [if_pos hkind, Option.getD_some]
      exact if_pos hkind
    · rw [if_neg hkind, Option.getD_none, List.append_nil]
      exact (if_neg hkind).trans (if_neg htool)
  rw [hextract]
  refine ⟨?_, knows_of_other hs rfl hid, ?_⟩
  · rw [hmarks]
    exact (List.append_nil _).symm
  · rw [hspeaks, if_pos rfl]

/-- An update of a tool call adds its mark, if it is new. -/
theorem round_tool_update (hs : Knows s (call_ids before)) (htype : is_type event "session/update")
    {update : JsonObject N} (hupdate : get_object event "update" = some update)
      (htool : is_tool_update update) : Round style before event s (extract_update style update s) := by
  have hsession : session_update event = some update := (if_pos htype).trans hupdate
  have hfilter : (session_update event).filter (fun update => is_tool_update update) = some update := by
    rw [hsession]
    simp [htool]
  have hkind : kind_of update ≠ some (lit "agent_message_chunk") := by
    intro hkind
    rcases htool with h | h
    · rw [hkind] at h
      exact absurd (lit_inj.1 (Option.some.inj h)) (by decide)
    · rw [hkind] at h
      exact absurd (lit_inj.1 (Option.some.inj h)) (by decide)
  have hchunk : text_chunk style event = none := by
    rw [text_chunk, if_neg (not_is_type htype (by decide)), hupdate, Option.filter_some,
      if_neg (by simpa using hkind)]
    exact if_neg (not_is_type htype (by decide))
  obtain ⟨hmarks, hknows⟩ := marks_upsert style hs update (trimmed_char_count s.content)
  rw [show extract_update style update s = _ from (if_neg hkind).trans (if_pos htool)]
  refine ⟨hmarks.trans ?_, ?_, ?_⟩
  · rw [first_of, if_neg (not_is_type htype (by decide)), hfilter]
    dsimp only
    cases get_str update "toolCallId" with
    | none => rfl
    | some id =>
      dsimp only
      split <;> rfl
  · have hid : call_id event = get_str update "toolCallId" := by rw [call_id, hfilter, Option.bind_some]
    rw [call_ids_append, hid]
    exact hknows
  · rw [hchunk, Option.getD_none, ite_self, List.append_nil]

variable (event) in
/-- **A round.** -/
theorem round_extract (hs : Knows s (call_ids before)) :
    Round style before event s (extract style event s) := by
  by_cases hdelta : is_type event "text_delta"
  · have hother : ¬is_type event "session/update" := not_is_type hdelta (by decide)
    have hmarks := first_of_other before (not_is_type hdelta (by decide))
      (by rw [session_update_of_other hother]; rfl)
    rw [extract, if_pos hdelta]
    refine ⟨?_, knows_of_other hs rfl (call_id_of_other hother), ?_⟩
    · rw [hmarks]
      exact (List.append_nil _).symm
    · rw [speaks, decide_eq_true hdelta, Bool.true_or, if_pos rfl, text_chunk, if_pos hdelta]
  · by_cases hupdate : is_type event "session/update"
    · rw [extract, if_neg hdelta, if_neg (not_is_type hupdate (by decide)),
        if_neg (not_is_type hupdate (by decide)), session_update, if_pos hupdate]
      cases hget : get_object event "update" with
      | some update =>
        by_cases htool : is_tool_update update
        · exact round_tool_update style hs hupdate hget htool
        · exact round_speech style hs hupdate hget htool
      | none =>
        have hsession : session_update event = none := (if_pos hupdate).trans hget
        have hmarks := first_of_other before (not_is_type hupdate (by decide))
          (by rw [hsession]; rfl)
        refine ⟨?_, knows_of_other hs rfl (by rw [call_id, hsession]; rfl), ?_⟩
        · rw [hmarks]
          exact (List.append_nil _).symm
        · have hchunk : text_chunk style event = none := by
            rw [text_chunk, if_neg hdelta, hget]
            exact if_neg (not_is_type hupdate (by decide))
          rw [hchunk, Option.getD_none, ite_self]
          exact (List.append_nil _).symm
    · -- the older events, which add no text here
      have hid := call_id_of_other hupdate
      have hsession := session_update_of_other hupdate
      have hsilent : speaks event = false := by simp [speaks, hdelta, hupdate]
      have hquiet : ∀ s' : Extracted, s'.calls.map mark = s.calls.map mark → s'.by_id = s.by_id →
          s'.content = s.content → first_of before event = none → Round style before event s s' := by
        intro s' hcalls hby_id hcontent hfirst
        refine ⟨?_, knows_of_other hs hby_id hid, ?_⟩
        · rw [hfirst, hcalls]
          exact (List.append_nil _).symm
        · rw [hsilent, hcontent]
          exact (List.append_nil _).symm
      by_cases hcall : is_type event "tool_call"
      · rw [extract, if_neg hdelta, if_pos hcall]
        cases htool : get_str event "tool" with
        | none => exact hquiet s rfl rfl rfl (by rw [first_of, if_pos hcall, htool]; rfl)
        | some tool =>
          refine ⟨?_, knows_of_other hs rfl hid, ?_⟩
          · rw [first_of, if_pos hcall, htool]
            show List.map mark (_ ++ _) = _
            rw [List.map_append]
            rfl
          · rw [hsilent]
            exact (List.append_nil _).symm
      · have hfirst := first_of_other before hcall (by rw [hsession]; rfl)
        rw [extract, if_neg hdelta, if_neg hcall, hsession]
        split
        · cases get_str event "tool" with
          | none => exact hquiet s rfl rfl rfl hfirst
          | some tool => exact hquiet _ (marks_legacy_tool_result _ _ _) rfl rfl hfirst
        · exact hquiet s rfl rfl rfl hfirst

end Rounds

/-! ## Runs -/

section Runs

/-- The text that `extract_tool_calls` counts. -/
def spoken (events : List (JsonObject N)) : Text := text_of style (events.filter speaks)

/-- The mark of a call by its first event. -/
def first_mark (first : List (JsonObject N) × Option Text) : Option Text × Option ℕ :=
  (first.2, some (trimmed_char_count (spoken style first.1)))

theorem text_of_append (events : List (JsonObject N)) (event : JsonObject N) :
    text_of style (events ++ [event]) = text_of style events ++ (text_chunk style event).getD [] := by
  rw [text_of, List.filterMap_append, List.flatten_append]
  cases h : text_chunk style event <;> simp [text_of, h]

theorem spoken_append (events : List (JsonObject N)) (event : JsonObject N) :
    spoken style (events ++ [event])
      = spoken style events ++ (if speaks event then (text_chunk style event).getD [] else []) := by
  rw [spoken, List.filter_append, spoken]
  cases h : speaks event with
  | true => rw [List.filter_cons_of_pos h, List.filter_nil, text_of_append, if_pos rfl]
  | false =>
    rw [List.filter_cons_of_neg (by simp [h]), List.filter_nil, List.append_nil, if_neg Bool.false_ne_true,
      List.append_nil]

theorem extracted_append (events : List (JsonObject N)) (event : JsonObject N) :
    extracted style (events ++ [event]) = extract style event (extracted style events) := by
  rw [extracted, List.foldl_append]
  rfl

/-- **A run** has one mark for each first event, and has counted what was said. -/
theorem marks_extracted (events : List (JsonObject N)) :
    (extract_tool_calls style events).map mark = (firsts events).map (first_mark style)
      ∧ Knows (extracted style events) (call_ids events)
      ∧ (extracted style events).content = spoken style events := by
  induction events using List.reverseRecOn with
  | nil => exact ⟨rfl, fun id => iff_of_false (by simp [extracted]) (by simp [call_ids]), rfl⟩
  | append_singleton events event ih =>
    obtain ⟨hmarks, hknows, hcontent⟩ := ih
    have hround := round_extract style event hknows
    refine ⟨?_, ?_, ?_⟩
    · rw [extract_tool_calls, extracted_append, hround.marks, firsts_append, List.map_append]
      refine congrArg₂ (· ++ ·) hmarks ?_
      rw [hcontent]
      cases first_of events event <;> rfl
    · rw [extracted_append]
      exact hround.knows
    · rw [extracted_append, hround.content, hcontent, spoken_append]

/-- The characters of the text of events, and whether each is counted by `extract_tool_calls`. -/
def marked (events : List (JsonObject N)) : List (Char × Bool) :=
  events.flatMap fun event => ((text_chunk style event).getD []).map fun c => (c, speaks event)

theorem map_fst_marked (events : List (JsonObject N)) : (marked style events).map Prod.fst
    = text_of style events := by
  induction events using List.reverseRecOn with
  | nil => rfl
  | append_singleton events event ih =>
    rw [marked, List.flatMap_append, List.map_append, text_of_append]
    refine congrArg₂ (· ++ ·) ih ?_
    simp [Function.comp_def]

theorem map_fst_filter_marked (events : List (JsonObject N)) :
    ((marked style events).filter Prod.snd).map Prod.fst = spoken style events := by
  induction events using List.reverseRecOn with
  | nil => rfl
  | append_singleton events event ih =>
    rw [marked, List.flatMap_append, List.filter_append, List.map_append, spoken_append]
    refine congrArg₂ (· ++ ·) ih ?_
    cases h : speaks event <;> simp [h, List.filter_map, Function.comp_def]

/-- Of the text of the events, what trimming leaves is counted by `extract_tool_calls`. -/
def AllCounted (events : List (JsonObject N)) : Prop :=
  ∀ c ∈ trimmed (fun c : Char × Bool => is_whitespace c.1) (marked style events), c.2 = true

theorem length_spoken_iff (events : List (JsonObject N)) :
    trimmed_char_count (spoken style events) = (flatten_text style events).length
      ↔ AllCounted style events := by
  have hspoken : trim (spoken style events) = (trimmed (fun c : Char × Bool => is_whitespace c.1)
      ((marked style events).filter Prod.snd)).map Prod.fst := by
    rw [← trimmed_map, map_fst_filter_marked]
    rfl
  have htext : flatten_text style events = (trimmed (fun c : Char × Bool => is_whitespace c.1)
      (marked style events)).map Prod.fst := by
    rw [← trimmed_map, map_fst_marked]
    rfl
  rw [trimmed_char_count, hspoken, htext, List.length_map, List.length_map]
  exact length_trim_filter Prod.snd (marked style events)

variable {before events : List (JsonObject N)}

theorem prefix_flatten_text (h : before <+: events) :
    flatten_text style before <+: flatten_text style events := by
  obtain ⟨after, rfl⟩ := h
  have hsplit : text_of style (before ++ after) = text_of style before ++ text_of style after := by
    rw [text_of, List.filterMap_append, List.flatten_append]
    rfl
  rw [flatten_text, flatten_text, hsplit]
  exact trim_prefix _ _

/-! ## Consistency -/

/-- The offset of a call is in the text, which has there what the events before its first one say. -/
def Fits (events : List (JsonObject N)) (call : ToolCall) (first : List (JsonObject N) × Option Text) : Prop :=
  call.tool_call_id = first.2 ∧ ∃ offset, call.content_offset = some offset
    ∧ offset ≤ (flatten_text style events).length
    ∧ (flatten_text style events).take offset = flatten_text style first.1

/-- The calls of the events fit the text, are one for each id, and are those of every beginning of the
events, with more behind them. -/
structure Consistent (events : List (JsonObject N)) : Prop where
  offsets : List.Forall₂ (Fits style events) (extract_tool_calls style events) (firsts events)
  one : ∀ id ∈ call_ids events,
    ((extract_tool_calls style events).filter fun call => call.tool_call_id = some id).length = 1
  kept : ∀ before, before <+: events →
    (extract_tool_calls style before).map mark <+: (extract_tool_calls style events).map mark

theorem firsts_of_beginning (h : before <+: events) : firsts before <+: firsts events := by
  obtain ⟨after, rfl⟩ := h
  induction after using List.reverseRecOn with
  | nil =>
    rw [List.append_nil]
  | append_singleton after event ih =>
    rw [← List.append_assoc, firsts_append]
    exact ih.trans (List.prefix_append _ _)

theorem marks_prefix (h : before <+: events) :
    (extract_tool_calls style before).map mark <+: (extract_tool_calls style events).map mark := by
  rw [(marks_extracted style before).1, (marks_extracted style events).1]
  exact (firsts_of_beginning h).map _

theorem first_of_eq_some_some {before : List (JsonObject N)} {event : JsonObject N} {id : Text} :
    first_of before event = some (some id) ↔ call_id event = some id ∧ id ∉ call_ids before := by
  by_cases hcall : is_type event "tool_call"
  · have hother : ¬is_type event "session/update" := not_is_type hcall (by decide)
    have hid := call_id_of_other hother
    rw [first_of, if_pos hcall, hid]
    cases get_str event "tool" <;> simp
  · rw [first_of, if_neg hcall, call_id]
    cases (session_update event).filter fun update => is_tool_update update with
    | none => simp
    | some update =>
      dsimp only [Option.bind_some]
      cases get_str update "toolCallId" with
      | none => simp
      | some other =>
        dsimp only
        by_cases hmem : other ∈ call_ids before
        · rw [if_pos hmem]
          refine iff_of_false (by simp) ?_
          rintro ⟨heq, hnot⟩
          exact hnot (Option.some.inj heq ▸ hmem)
        · rw [if_neg hmem, Option.some.injEq]
          exact ⟨fun heq => ⟨heq, Option.some.inj heq ▸ hmem⟩, fun h => h.1⟩

theorem count_firsts (events : List (JsonObject N)) (id : Text) :
    (firsts events).countP (fun first => first.2 = some id) = if id ∈ call_ids events then 1 else 0 := by
  induction events using List.reverseRecOn with
  | nil => rfl
  | append_singleton events event ih =>
    have hnew : ((first_of events event).map fun id => (events, id)).toList.countP
        (fun first : List (JsonObject N) × Option Text => first.2 = some id)
        = if call_id event = some id ∧ id ∉ call_ids events then 1 else 0 := by
      rw [← if_congr (@first_of_eq_some_some N events event id) rfl rfl]
      cases first_of events event <;> simp [List.countP_singleton]
    rw [firsts_append, List.countP_append, ih, hnew]
    simp only [call_ids_append, List.mem_append, Option.mem_toList]
    by_cases hold : id ∈ call_ids events
    · simp [hold]
    · simp [hold]

/-- Where the pairs of two lists are as they should be, another relation is up to the second. -/
theorem forall₂_iff_of_forall₂ {α β : Type} {R S : α → β → Prop} {q : β → Prop}
    (h : ∀ a b, R a b → (S a b ↔ q b))
    {as : List α} {bs : List β} (hpairs : List.Forall₂ R as bs) : List.Forall₂ S as bs ↔ ∀ b ∈ bs, q b := by
  induction hpairs with
  | nil => simp
  | cons hfirst hrest ih => rw [List.forall₂_cons, List.forall_mem_cons, h _ _ hfirst, ih]

theorem one_call (events : List (JsonObject N)) {id : Text} (h : id ∈ call_ids events) :
    ((extract_tool_calls style events).filter fun call => call.tool_call_id = some id).length = 1 := by
  have hcount := count_firsts events id
  rw [if_pos h] at hcount
  have hcalls : (extract_tool_calls style events).countP (fun call => call.tool_call_id = some id)
      = ((extract_tool_calls style events).map mark).countP fun m => m.1 = some id := by
    rw [List.countP_map]
    rfl
  rw [← List.countP_eq_length_filter, hcalls, (marks_extracted style events).1, List.countP_map]
  exact hcount

/-- **The calls and the text** of events are consistent if and only if, before the first event of each
call, what trimming leaves of the text is counted by both readings. -/
theorem consistent_iff (events : List (JsonObject N)) :
    Consistent style events ↔ ∀ first ∈ firsts events, AllCounted style first.1 := by
  obtain ⟨hmarks, -, -⟩ := marks_extracted style events
  have hcounted : ∀ first ∈ firsts events, AllCounted style first.1
      ↔ trimmed_char_count (spoken style first.1) ≤ (flatten_text style events).length
        ∧ (flatten_text style events).take (trimmed_char_count (spoken style first.1))
          = flatten_text style first.1 := by
    intro first hfirst
    have hbeginning := prefix_flatten_text style (prefix_of_mem_firsts hfirst)
    rw [← length_spoken_iff]
    constructor
    · intro h
      rw [h]
      exact ⟨hbeginning.length_le, (List.prefix_iff_eq_take.1 hbeginning).symm⟩
    · rintro ⟨hle, htake⟩
      have hlength := congrArg List.length htake
      rwa [List.length_take, Nat.min_eq_left hle] at hlength
  have hpairs : List.Forall₂ (fun call first => mark call = first_mark style first)
      (extract_tool_calls style events) (firsts events) := by
    have heq : List.Forall₂ Eq ((extract_tool_calls style events).map mark)
        ((firsts events).map (first_mark style)) := by
      rw [List.forall₂_eq_eq_eq]
      exact hmarks
    exact List.forall₂_map_left_iff.1 (List.forall₂_map_right_iff.1 heq)
  have hfits : ∀ call first, mark call = first_mark style first → (Fits style events call first
      ↔ trimmed_char_count (spoken style first.1) ≤ (flatten_text style events).length
        ∧ (flatten_text style events).take (trimmed_char_count (spoken style first.1))
          = flatten_text style first.1) := by
    intro call first hmark
    obtain ⟨hid, hoffset⟩ := Prod.mk.inj hmark
    rw [Fits, hoffset, hid]
    simp
  have hoffsets := forall₂_iff_of_forall₂ hfits hpairs
  constructor
  · intro h first hfirst
    exact (hcounted first hfirst).2 (hoffsets.1 h.offsets first hfirst)
  · intro h
    exact ⟨hoffsets.2 fun first hfirst => (hcounted first hfirst).1 (h first hfirst),
      fun id hid => one_call style events hid, fun before hbefore => marks_prefix style hbefore⟩

end Runs

/-- An error, and a call after it. -/
def error_event : JsonObject Empty :=
  [(lit "type", .string (lit "session/error")), (lit "message", .string (lit "boom"))]

def call_event : JsonObject Empty := [(lit "type", .string (lit "tool_call")), (lit "tool", .string (lit "ls"))]

/-- The call stands in front of the error that came before it. -/
theorem error_is_not_counted : ¬∀ events : List (JsonObject Empty), Consistent (rust no_numbers) events := by
  intro h
  have hoffsets := (h [error_event, call_event]).offsets
  have hcalls : extract_tool_calls (rust no_numbers) [error_event, call_event]
      = [{ ToolCall.new (lit "ls") with content_offset := some 0 }] := by decide +kernel
  have hfirsts : firsts [error_event, call_event] = [([error_event], none)] := by rfl
  rw [hcalls, hfirsts] at hoffsets
  obtain ⟨⟨-, offset, hoffset, -, htake⟩, -⟩ := List.forall₂_cons.1 hoffsets
  obtain rfl := Option.some.inj hoffset
  have herror : flatten_text (rust no_numbers) [error_event] = lit "Error: boom" := by decide +kernel
  rw [herror, List.take_zero] at htake
  exact absurd htake (by decide)

end AgentSpace.Chat.Events
