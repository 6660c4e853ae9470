/-
The live view of a turn against the stored message.

The client follows a turn event by event; the service computes the message from all events. An
event is `Faithful` when both sides read it alike, and `live_view_eq_stored` says when the two
messages are then the same.
-/
import AgentSpace.Chat.Messages

set_option autoImplicit false

namespace AgentSpace.Chat

open Text Chat.Service Chat.Client

variable {N : Type} (numbers : Numbers N)

/-! ## Lists of calls -/

theorem findIdx?_modify {α : Type} {p : α → Bool} {f : α → α} (h : ∀ a, p (f a) = p a) (l : List α)
    (i : ℕ) : (l.modify i f).findIdx? p = l.findIdx? p := by
  induction l generalizing i with
  | nil => simp
  | cons a l ih =>
    cases i with
    | zero => simp [List.findIdx?_cons, h]
    | succ i => simp [List.findIdx?_cons, ih]

theorem forall_modify {α : Type} {p : α → Prop} {f : α → α} {l : List α} (hf : ∀ a, p a → p (f a))
    (h : ∀ a ∈ l, p a) (i : ℕ) : ∀ a ∈ l.modify i f, p a := by
  induction l generalizing i with
  | nil => simp
  | cons a l ih =>
    have ha := h a List.mem_cons_self
    have hl : ∀ b ∈ l, p b := fun b hb => h b (List.mem_cons_of_mem a hb)
    cases i with
    | zero =>
      intro b hb
      rcases List.mem_cons.1 hb with rfl | hb
      · exact hf a ha
      · exact hl b hb
    | succ i =>
      intro b hb
      rcases List.mem_cons.1 hb with rfl | hb
      · exact ha
      · exact ih hl i b hb

/-! ## What both sides read alike -/

/-- The kind of an update. -/
def kind_of (update : JsonObject N) : Option Text := get_str update "sessionUpdate"

/-- A `tool_call` or a `tool_call_update`. -/
def is_tool_update (update : JsonObject N) : Prop :=
  kind_of update = some (lit "tool_call") ∨ kind_of update = some (lit "tool_call_update")

instance (update : JsonObject N) : Decidable (is_tool_update update) := by
  unfold is_tool_update
  infer_instance

/-- An update whose content is read. -/
def reads_content (update : JsonObject N) : Prop :=
  kind_of update = some (lit "agent_message_chunk") ∨ kind_of update = some (lit "agent_thought_chunk")
    ∨ is_tool_update update ∧ get update "rawOutput" = none

/-- The tool call id of an event that is a `tool_call` or a `tool_call_update`. -/
def call_id (event : KernelEvent N) : Option Text :=
  ((session_update event).filter fun update => is_tool_update update).bind fun update =>
    get_str update "toolCallId"

/-- The tool call ids of events. -/
def call_ids (events : List (KernelEvent N)) : List Text := events.filterMap call_id

/-- A member of an object is portable, if it is there. -/
def PortableAt (object : JsonObject N) (key : String) : Prop :=
  ∀ value, get object key = some value → Portable numbers value

/-- An update that both sides read alike, behind other events. -/
structure FaithfulUpdate (before : List (KernelEvent N)) (update : JsonObject N) : Prop where
  no_plan : kind_of update ≠ some (lit "plan")
  content : reads_content update → PortableAt numbers update "content"
  raw_input : is_tool_update update → PortableAt numbers update "rawInput"
  raw_output : is_tool_update update → PortableAt numbers update "rawOutput"
  status : is_tool_update update → get_str update "status" ≠ some []
  kind : is_tool_update update → get_str update "kind" ≠ some []
  /-- An empty tool call id comes once, and with a title. -/
  tool_call_id : is_tool_update update → get_str update "toolCallId" = some [] →
    optional_non_empty_string update "title" ≠ none ∧ [] ∉ call_ids before

/-- An event that both sides read alike, behind other events. -/
structure Faithful (before : List (KernelEvent N)) (event : KernelEvent N) : Prop where
  no_error : event.type = lit "session/error" →
    event.message = none ∧ (event.error.bind fun error => get_str error "message") = none
  no_text : event.type ≠ lit "session/update" → event.type ≠ lit "text_delta" →
    ∀ update, event.update = some update → kind_of update ≠ some (lit "agent_message_chunk")
  no_thought : event.type ≠ lit "session/update" → event.type ≠ lit "reasoning_delta" →
    ∀ update, event.update = some update → kind_of update ≠ some (lit "agent_thought_chunk")
  tool : event.type = lit "tool_call" → event.tool ≠ some []
  input : event.type = lit "tool_call" → ∀ input, event.input = some input →
    Portable numbers (.object input)
  update : ∀ update, session_update event = some update → FaithfulUpdate numbers before update

/-- An event that adds a tool call. -/
def adds_call (before : List (KernelEvent N)) (event : KernelEvent N) : Prop :=
  event.type = lit "tool_call" ∧ event.tool ≠ none
    ∨ ∃ update, session_update event = some update ∧ is_tool_update update
      ∧ ∀ id, get_str update "toolCallId" = some id → id ∉ call_ids before

/-- The text that was streamed. -/
def streamed (events : List (KernelEvent N)) : Text :=
  (events.filterMap (text_chunk (rust numbers))).flatten

/-- The reasoning that was streamed. -/
def reasoned (events : List (KernelEvent N)) : Text :=
  (events.filterMap (reasoning_chunk (rust numbers))).flatten

/-! ## Tool calls -/

variable {numbers}

theorem content_text_of_portable {object : JsonObject N} {key : String}
    (h : PortableAt numbers object key) :
    (js numbers).content_text_of (get object key) = (rust numbers).content_text_of (get object key) := by
  unfold Style.content_text_of
  cases hvalue : get object key with
  | none => rfl
  | some value => exact content_text_portable value (h value hvalue)

/-- Both sides change a call alike. -/
theorem patch_tool_call_eq {before : List (KernelEvent N)} {update : JsonObject N}
    (h : FaithfulUpdate numbers before update) (htool : is_tool_update update) (call : ToolCall) :
    patch_tool_call (js numbers) update call = update_tool_call (rust numbers) update call := by
  have hnonempty : ∀ key : String, get_str update key ≠ some [] →
      optional_non_empty_string update key = get_str update key := by
    intro key hkey
    unfold optional_non_empty_string
    cases hvalue : get_str update key with
    | none => rfl
    | some value =>
      have hne : value ≠ [] := by
        rintro rfl
        exact hkey hvalue
      simp [hne]
  have hinput : (get update "rawInput").elim call.input (js numbers).json_text
      = (get update "rawInput").elim call.input (rust numbers).json_text := by
    cases hraw : get update "rawInput" with
    | none => rfl
    | some value => exact json_text_portable (h.raw_input htool value hraw)
  have houtput : Client.tool_output (js numbers) update = Service.tool_output (rust numbers) update := by
    unfold Client.tool_output Service.tool_output
    cases hraw : get update "rawOutput" with
    | some value => exact json_text_portable (h.raw_output htool value hraw)
    | none =>
      have hcontent := content_text_of_portable (h.content (Or.inr (Or.inr ⟨htool, hraw⟩)))
      simp only [hcontent]
      unfold truthy
      by_cases hempty : (rust numbers).content_text_of (get update "content") = []
      · simp [hempty]
      · simp [hempty]
  unfold patch_tool_call update_tool_call
  simp only [hinput, houtput, hnonempty "status" (h.status htool), hnonempty "kind" (h.kind htool)]
  have hdelta : Service.terminal_output_delta update = Client.terminal_output_delta update := rfl
  rw [hdelta]
  cases hchunk : Client.terminal_output_delta update with
  | none => rfl
  | some chunk => rfl

theorem update_tool_call_id (style : Style N) (update : JsonObject N) (call : ToolCall) :
    (update_tool_call style update call).tool_call_id = call.tool_call_id := by
  unfold update_tool_call
  cases Service.terminal_output_delta update with
  | none => rfl
  | some chunk => rfl

theorem update_tool_call_tool (style : Style N) (update : JsonObject N) (call : ToolCall)
    (h : call.tool ≠ []) : (update_tool_call style update call).tool ≠ [] := by
  have hname : (optional_non_empty_string update "title").getD call.tool ≠ [] := by
    unfold optional_non_empty_string
    cases htitle : (get_str update "title").filter fun value => value ≠ [] with
    | none => exact h
    | some title =>
      have hne := (Option.filter_eq_some_iff.1 htitle).2
      simpa using hne
  unfold update_tool_call
  cases Service.terminal_output_delta update with
  | none => exact hname
  | some chunk => exact hname

/-! ## The simulation -/

variable (numbers) in
/-- A message that follows the service: it has the text and the reasoning but for a part that
comes first, and the same calls. -/
structure Follows (before : List (KernelEvent N)) (text reasoning : Text) (message : ChatMessage)
    (s : Extracted) : Prop where
  content : s.content = text ++ message.content
  streamed : s.content = streamed numbers before
  reasoning : reasoned numbers before = reasoning ++ message.reasoning.getD []
  calls : message.tool_calls.getD [] = s.calls
  tools : ∀ call ∈ s.calls, call.tool ≠ []
  by_id : ∀ id, id ≠ [] → s.by_id id = s.calls.findIdx? fun call => call.tool_call_id = some id
  known : ∀ id, s.by_id id = none ↔ id ∉ call_ids before

variable (before : List (KernelEvent N))

theorem reasoned_append (event : KernelEvent N) :
    reasoned numbers (before ++ [event])
      = reasoned numbers before ++ (reasoning_chunk (rust numbers) event).getD [] := by
  unfold reasoned
  rw [List.filterMap_append, List.flatten_append]
  cases h : reasoning_chunk (rust numbers) event with
  | none => simp [h]
  | some chunk => simp [h]

theorem streamed_append (event : KernelEvent N) :
    streamed numbers (before ++ [event])
      = streamed numbers before ++ (text_chunk (rust numbers) event).getD [] := by
  unfold streamed
  rw [List.filterMap_append, List.flatten_append]
  cases h : text_chunk (rust numbers) event with
  | none => simp [h]
  | some chunk => simp [h]

theorem call_ids_append (event : KernelEvent N) :
    call_ids (before ++ [event]) = call_ids before ++ (call_id event).toList := by
  unfold call_ids
  rw [List.filterMap_append]
  cases h : call_id event with
  | none => simp [h]
  | some id => simp [h]

/-- Where a call with an id is, when a call is added. -/
theorem findIdx?_add (calls : List ToolCall) (call : ToolCall) (f : ToolCall → ToolCall)
    (hf : ∀ call, (f call).tool_call_id = call.tool_call_id) (id : Text) :
    ((calls ++ [call]).modify calls.length f).findIdx? (fun call => call.tool_call_id = some id)
      = (calls.findIdx? fun call => call.tool_call_id = some id).or
        (if call.tool_call_id = some id then some calls.length else none) := by
  rw [findIdx?_modify (fun call => by rw [hf]), List.findIdx?_append]
  congr 1
  by_cases hid : call.tool_call_id = some id
  · simp [hid]
  · simp [hid]

section Steps

variable {before : List (KernelEvent N)} {event : KernelEvent N} {text reasoning : Text}
  {message : ChatMessage} {s : Extracted}

/-- An event that is none of a tool call, and adds what it adds to the text and to the reasoning. -/
theorem Follows.say (h : Follows numbers before text reasoning message s)
    (hid : call_id event = none) (content thought : Text) (thoughts : Option Text)
    (hcontent : (text_chunk (rust numbers) event).getD [] = content)
    (hthought : (reasoning_chunk (rust numbers) event).getD [] = thought)
    (hthoughts : thoughts.getD [] = message.reasoning.getD [] ++ thought) :
    Follows numbers (before ++ [event]) text reasoning
      { message with content := message.content ++ content, reasoning := thoughts }
      { s with content := s.content ++ content } := by
  refine ⟨?_, ?_, ?_, h.calls, h.tools, h.by_id, fun id => ?_⟩
  · show s.content ++ content = text ++ (message.content ++ content)
    rw [h.content, List.append_assoc]
  · show s.content ++ content = _
    rw [streamed_append, hcontent, h.streamed]
  · show _ = reasoning ++ thoughts.getD []
    rw [reasoned_append, hthought, h.reasoning, hthoughts, List.append_assoc]
  · rw [call_ids_append, hid]
    simpa using h.known id

/-- An event that changes calls. -/
theorem Follows.change (h : Follows numbers before text reasoning message s)
    (hcontent : text_chunk (rust numbers) event = none)
    (hthought : reasoning_chunk (rust numbers) event = none) {calls : List ToolCall}
    {by_id : Text → Option ℕ} (htools : ∀ call ∈ calls, call.tool ≠ [])
    (hby_id : ∀ id, id ≠ [] → by_id id = calls.findIdx? fun call => call.tool_call_id = some id)
    (hknown : ∀ id, by_id id = none ↔ id ∉ call_ids before ∧ call_id event ≠ some id) :
    Follows numbers (before ++ [event]) text reasoning { message with tool_calls := some calls }
      { s with calls := calls, by_id := by_id } := by
  refine ⟨h.content, ?_, ?_, rfl, htools, hby_id, fun id => ?_⟩
  · rw [streamed_append, hcontent]
    simpa using h.streamed
  · rw [reasoned_append, hthought]
    simpa using h.reasoning
  · rw [call_ids_append]
    show by_id id = none ↔ _
    rw [hknown]
    cases hcall : call_id event with
    | none => simp
    | some id' => simp [eq_comm]

/-- A `tool_call` or a `tool_call_update` changes both sides alike. -/
theorem Follows.upsert (h : Follows numbers before text reasoning message s)
    {update : JsonObject N} (hf : FaithfulUpdate numbers before update) (htool : is_tool_update update)
    (hcontent : text_chunk (rust numbers) event = none)
    (hthought : reasoning_chunk (rust numbers) event = none)
    (hid : call_id event = get_str update "toolCallId")
    (hoffset : (∀ id, get_str update "toolCallId" = some id → id ∉ call_ids before) →
      trimmed_length message.content = trimmed_char_count s.content) :
    Follows numbers (before ++ [event]) text reasoning (Client.upsert_tool_call (js numbers) message update)
      { s with
        calls := (Service.upsert_tool_call (rust numbers) update (trimmed_char_count s.content)
          s.calls s.by_id).1
        by_id := (Service.upsert_tool_call (rust numbers) update (trimmed_char_count s.content)
          s.calls s.by_id).2 } := by
  have hpatch : patch_tool_call (js numbers) update = update_tool_call (rust numbers) update :=
    funext (patch_tool_call_eq hf htool)
  have hkeeps := update_tool_call_id (rust numbers) update
  have hnames := update_tool_call_tool (rust numbers) update
  -- the client finds a call where the service has its id
  have hfound : (truthy (get_str update "toolCallId")).bind (fun id =>
      s.calls.findIdx? fun tool_call => tool_call.tool_call_id = some id)
      = (get_str update "toolCallId").bind s.by_id := by
    cases hget : get_str update "toolCallId" with
    | none => rfl
    | some id =>
      by_cases hempty : id = []
      · subst hempty
        have hunknown := (h.known []).2 (hf.tool_call_id htool hget).2
        show _ = s.by_id []
        rw [hunknown]
        rfl
      · have htruthy : truthy (some id) = some id := by simp [truthy, hempty]
        rw [htruthy]
        exact (h.by_id id hempty).symm
  unfold Client.upsert_tool_call Service.upsert_tool_call
  simp only [h.calls, hfound, hpatch]
  cases hserver : (get_str update "toolCallId").bind s.by_id with
  | some index =>
    obtain ⟨id, hget, hindex⟩ := Option.bind_eq_some_iff.1 hserver
    have hmodified : ∀ id', ((s.calls.modify index (update_tool_call (rust numbers) update)).findIdx?
        fun call => call.tool_call_id = some id')
        = s.calls.findIdx? fun call => call.tool_call_id = some id' :=
      fun id' => findIdx?_modify (fun call => by rw [hkeeps]) _ _
    refine h.change hcontent hthought (forall_modify hnames h.tools index) ?_ ?_
    · intro id' hid'
      rw [hmodified]
      exact h.by_id id' hid'
    · intro id'
      rw [h.known, hid, hget]
      constructor
      · intro hnot
        refine ⟨hnot, ?_⟩
        rintro heq
        obtain rfl := Option.some.inj heq
        have hnone := (h.known id).2 hnot
        rw [hindex] at hnone
        cases hnone
      · exact fun hboth => hboth.1
  | none =>
    have hnew : ∀ id, get_str update "toolCallId" = some id → id ∉ call_ids before := by
      intro id hget
      rw [hget] at hserver
      exact (h.known id).1 hserver
    -- the name of a call that is added
    have hname : title_or update ((get_str update "toolCallId").getD (lit "tool"))
        = ((optional_non_empty_string update "title").or
          ((get_str update "toolCallId").filter fun value => value ≠ [])).getD (lit "tool") := by
      show (optional_non_empty_string update "title").getD _ = _
      cases htitle : optional_non_empty_string update "title" with
      | some title => rfl
      | none =>
        cases hget : get_str update "toolCallId" with
        | none => rfl
        | some id =>
          have hne : id ≠ [] := by
            rintro rfl
            exact (hf.tool_call_id htool hget).1 htitle
          have hfilter : (some id).filter (fun value => decide (value ≠ [])) = some id :=
            Option.filter_eq_some_iff.2 ⟨rfl, by simpa using hne⟩
          rw [hfilter]
          rfl
    have hnonempty : ((optional_non_empty_string update "title").or
          ((get_str update "toolCallId").filter fun value => value ≠ [])).getD (lit "tool") ≠ [] := by
      cases htitle : optional_non_empty_string update "title" with
      | some title =>
        have hne := (Option.filter_eq_some_iff.1 htitle).2
        simpa using hne
      | none =>
        cases hget : (get_str update "toolCallId").filter fun value => value ≠ [] with
        | none => simp [lit]
        | some id =>
          have hne := (Option.filter_eq_some_iff.1 hget).2
          simpa using hne
    simp only [hname, hoffset hnew]
    refine h.change hcontent hthought (forall_modify hnames ?_ s.calls.length) ?_ ?_
    · intro call hcall
      rcases List.mem_append.1 hcall with hold | hlast
      · exact h.tools call hold
      · obtain rfl := List.mem_singleton.1 hlast
        exact hnonempty
    · intro id' hid'
      rw [findIdx?_add _ _ _ hkeeps]
      cases hget : get_str update "toolCallId" with
      | none => simpa using h.by_id id' hid'
      | some id =>
        by_cases heq : id' = id
        · subst heq
          have hunknown : s.by_id id' = none := (h.known id').2 (hnew id' hget)
          rw [h.by_id id' hid'] at hunknown
          simp [hunknown]
        · simp [Function.update_of_ne heq, Ne.symm heq, h.by_id id' hid']
    · intro id'
      rw [hid]
      cases hget : get_str update "toolCallId" with
      | none => simpa using h.known id'
      | some id =>
        by_cases heq : id' = id
        · subst heq
          simp
        · simp [Function.update_of_ne heq, Ne.symm heq, h.known id']

/-- An event that changes nothing on either side. -/
theorem Follows.ignore (h : Follows numbers before text reasoning message s)
    (hid : call_id event = none) (hcontent : text_chunk (rust numbers) event = none)
    (hthought : reasoning_chunk (rust numbers) event = none) :
    Follows numbers (before ++ [event]) text reasoning message s := by
  have hno_text : (text_chunk (rust numbers) event).getD [] = [] := by
    rw [hcontent]
    rfl
  have hno_thought : (reasoning_chunk (rust numbers) event).getD [] = [] := by
    rw [hthought]
    rfl
  have hsaid := h.say hid [] [] message.reasoning hno_text hno_thought (List.append_nil _).symm
  simpa using hsaid

end Steps

/-! ### Updates of the protocol -/

section Updates

variable {before : List (KernelEvent N)} {event : KernelEvent N} {text reasoning : Text}
  {message : ChatMessage} {s : Extracted}

theorem update_of_some {update : JsonObject N} (h : event.update = some update) (kind : String) :
    event.update_of kind = if kind_of update = some (lit kind) then some update else none := by
  unfold KernelEvent.update_of
  rw [h, Option.filter_some]
  by_cases hkind : kind_of update = some (lit kind)
  · rw [if_pos hkind]
    exact if_pos (decide_eq_true hkind)
  · rw [if_neg hkind]
    exact if_neg fun h => hkind (of_decide_eq_true h)

theorem update_of_none (h : event.update = none) (kind : String) : event.update_of kind = none := by
  unfold KernelEvent.update_of
  rw [h]
  rfl

variable (htype : event.type = lit "session/update")

include htype

theorem type_ne_of_update {other : String} (h : other ≠ "session/update") : event.type ≠ lit other := by
  rw [htype]
  intro heq
  exact h (lit_inj.1 heq).symm

/-- The chunks of an update are its content, if it is of their kind. -/
theorem text_chunk_update {update : JsonObject N} (hupdate : event.update = some update) :
    text_chunk (rust numbers) event = if kind_of update = some (lit "agent_message_chunk") then
      some ((rust numbers).content_text_of (get update "content")) else none := by
  unfold text_chunk
  rw [if_neg (type_ne_of_update htype (by decide)), update_of_some hupdate]
  by_cases hkind : kind_of update = some (lit "agent_message_chunk")
  · rw [if_pos hkind, if_pos hkind]
  · rw [if_neg hkind, if_neg hkind]
    exact if_neg (type_ne_of_update htype (by decide))

theorem reasoning_chunk_update {update : JsonObject N} (hupdate : event.update = some update) :
    reasoning_chunk (rust numbers) event = if kind_of update = some (lit "agent_thought_chunk") then
      some ((rust numbers).content_text_of (get update "content")) else none := by
  unfold reasoning_chunk
  rw [if_neg (type_ne_of_update htype (by decide)), update_of_some hupdate]
  by_cases hkind : kind_of update = some (lit "agent_thought_chunk")
  · rw [if_pos hkind, if_pos hkind]
    rfl
  · rw [if_neg hkind, if_neg hkind]
    rfl

theorem call_id_update {update : JsonObject N} (hupdate : event.update = some update) :
    call_id event = if is_tool_update update then get_str update "toolCallId" else none := by
  unfold call_id session_update
  rw [if_pos htype, hupdate, Option.filter_some]
  by_cases htool : is_tool_update update
  · rw [if_pos (decide_eq_true htool), if_pos htool]
    rfl
  · rw [if_neg fun h => htool (of_decide_eq_true h), if_neg htool]
    rfl

theorem extract_of_update (s : Extracted) : extract (rust numbers) event s
    = event.update.elim s fun update => extract_update (rust numbers) update s := by
  unfold extract session_update
  rw [if_neg (type_ne_of_update htype (by decide)), if_neg (type_ne_of_update htype (by decide)),
    if_neg (type_ne_of_update htype (by decide)), if_pos htype]

theorem apply_of_update {update : JsonObject N} (hupdate : event.update = some update)
    (message : ChatMessage) : apply_event_to_assistant (js numbers) message event
      = apply_acp_update_to_assistant (js numbers) message update := by
  unfold apply_event_to_assistant
  rw [if_pos ⟨htype, by rw [hupdate]; rfl⟩, hupdate]
  rfl

theorem apply_of_no_update (hupdate : event.update = none) (message : ChatMessage) :
    apply_event_to_assistant (js numbers) message event = message := by
  have hother : ∀ {other : String} {p : Prop}, other ≠ "session/update" →
      ¬(event.type = lit other ∧ p) := fun hne h => type_ne_of_update htype hne h.1
  unfold apply_event_to_assistant
  rw [if_neg (by simp [hupdate]), if_neg (hother (by decide)), if_neg (hother (by decide)),
    if_neg (hother (by decide)), if_neg (hother (by decide))]

/-- **Updates.** The client follows an update that both sides read alike. -/
theorem Follows.update (h : Follows numbers before text reasoning message s)
    (hf : Faithful numbers before event)
    (hoffset : adds_call before event → trimmed_length message.content = trimmed_char_count s.content) :
    Follows numbers (before ++ [event]) text reasoning (apply_event_to_assistant (js numbers) message event)
      (extract (rust numbers) event s) := by
  rw [extract_of_update htype]
  cases hupdate : event.update with
  | none =>
    rw [apply_of_no_update htype hupdate]
    refine h.ignore ?_ ?_ ?_
    · unfold call_id session_update
      rw [if_pos htype, hupdate]
      rfl
    · unfold text_chunk
      rw [if_neg (type_ne_of_update htype (by decide)), update_of_none hupdate]
      exact if_neg (type_ne_of_update htype (by decide))
    · unfold reasoning_chunk
      rw [if_neg (type_ne_of_update htype (by decide)), update_of_none hupdate]
      rfl
  | some update =>
    have hsome : session_update event = some update := (if_pos htype).trans hupdate
    have hfaithful := hf.update update hsome
    have htext : text_chunk (rust numbers) event = _ := text_chunk_update htype hupdate
    have hthought : reasoning_chunk (rust numbers) event = _ := reasoning_chunk_update htype hupdate
    have hid := call_id_update htype hupdate
    rw [apply_of_update htype hupdate]
    show Follows _ _ _ _ _ (extract_update (rust numbers) update s)
    by_cases htool : is_tool_update update
    · -- a tool call is neither text nor reasoning
      have hkinds : ∀ other : String, other ≠ "tool_call" → other ≠ "tool_call_update" →
          kind_of update ≠ some (lit other) := by
        intro other hcall hupdated heq
        rcases htool with hkind | hkind
        · rw [heq] at hkind
          exact hcall (lit_inj.1 (Option.some.inj hkind))
        · rw [heq] at hkind
          exact hupdated (lit_inj.1 (Option.some.inj hkind))
      have hmessage := hkinds "agent_message_chunk" (by decide) (by decide)
      have hthinks := hkinds "agent_thought_chunk" (by decide) (by decide)
      rw [if_neg hmessage] at htext
      rw [if_neg hthinks] at hthought
      rw [if_pos htool] at hid
      have hclient : apply_acp_update_to_assistant (js numbers) message update
          = Client.upsert_tool_call (js numbers) message update := by
        unfold apply_acp_update_to_assistant
        exact (if_neg hmessage).trans ((if_neg hthinks).trans ((if_neg hfaithful.no_plan).trans (if_pos htool)))
      have hserver : extract_update (rust numbers) update s = { s with
          calls := (Service.upsert_tool_call (rust numbers) update (trimmed_char_count s.content)
            s.calls s.by_id).1
          by_id := (Service.upsert_tool_call (rust numbers) update (trimmed_char_count s.content)
            s.calls s.by_id).2 } := by
        unfold extract_update
        exact (if_neg hmessage).trans (if_pos htool)
      rw [hclient, hserver]
      refine h.upsert hfaithful htool htext hthought hid fun hnew => hoffset (Or.inr ?_)
      exact ⟨update, hsome, htool, hnew⟩
    · rw [if_neg htool] at hid
      have htools : ¬(get_str update "sessionUpdate" = some (lit "tool_call")
          ∨ get_str update "sessionUpdate" = some (lit "tool_call_update")) := htool
      by_cases hmessage : kind_of update = some (lit "agent_message_chunk")
      · have hcontent := content_text_of_portable (hfaithful.content (Or.inl hmessage))
        have hthinks : kind_of update ≠ some (lit "agent_thought_chunk") := by
          rw [hmessage]
          simp
        rw [if_pos hmessage] at htext
        rw [if_neg hthinks] at hthought
        have hclient : apply_acp_update_to_assistant (js numbers) message update = { message with
            content := message.content ++ (rust numbers).content_text_of (get update "content") } := by
          unfold apply_acp_update_to_assistant
          rw [← hcontent]
          exact if_pos hmessage
        have hserver : extract_update (rust numbers) update s = { s with
            content := s.content ++ (rust numbers).content_text_of (get update "content") } := by
          unfold extract_update
          exact if_pos hmessage
        rw [hclient, hserver]
        refine h.say hid _ [] message.reasoning ?_ ?_ (List.append_nil _).symm
        · rw [htext]
          rfl
        · rw [hthought]
          rfl
      · rw [if_neg hmessage] at htext
        have hserver : extract_update (rust numbers) update s = s := by
          unfold extract_update
          exact (if_neg hmessage).trans (if_neg htools)
        rw [hserver]
        by_cases hthinks : kind_of update = some (lit "agent_thought_chunk")
        · have hcontent := content_text_of_portable (hfaithful.content (Or.inr (Or.inl hthinks)))
          rw [if_pos hthinks] at hthought
          have hclient : apply_acp_update_to_assistant (js numbers) message update = { message with
              reasoning := some (message.reasoning.getD []
                ++ (rust numbers).content_text_of (get update "content")) } := by
            unfold apply_acp_update_to_assistant
            rw [← hcontent]
            exact (if_neg hmessage).trans (if_pos hthinks)
          rw [hclient]
          have hsaid := h.say hid [] _ (some (message.reasoning.getD []
            ++ (rust numbers).content_text_of (get update "content"))) (by rw [htext]; rfl)
            (by rw [hthought]; rfl) rfl
          simpa using hsaid
        · rw [if_neg hthinks] at hthought
          have hclient : apply_acp_update_to_assistant (js numbers) message update = message := by
            unfold apply_acp_update_to_assistant
            exact (if_neg hmessage).trans ((if_neg hthinks).trans
              ((if_neg hfaithful.no_plan).trans (if_neg htools)))
          rw [hclient]
          exact h.ignore hid htext hthought

end Updates

/-! ### Older events -/

section Older

variable {before : List (KernelEvent N)} {event : KernelEvent N} {text reasoning : Text}
  {message : ChatMessage} {s : Extracted}

theorem call_id_older (h : event.type ≠ lit "session/update") : call_id event = none := by
  unfold call_id session_update
  rw [if_neg h]
  rfl

theorem update_of_eq_none {kind : String} (h : ∀ update, event.update = some update →
    kind_of update ≠ some (lit kind)) : event.update_of kind = none := by
  cases hupdate : event.update with
  | none => exact update_of_none hupdate kind
  | some update =>
    rw [update_of_some hupdate]
    exact if_neg (h update hupdate)

theorem text_chunk_older (hf : Faithful numbers before event) (h : event.type ≠ lit "session/update")
    (hdelta : event.type ≠ lit "text_delta") : text_chunk (rust numbers) event = none := by
  unfold text_chunk
  rw [if_neg hdelta, update_of_eq_none (hf.no_text h hdelta)]
  by_cases herror : event.type = lit "session/error"
  · obtain ⟨hmessage, hinner⟩ := hf.no_error herror
    show (if _ then _ else _) = _
    rw [if_pos herror, hmessage, hinner]
    rfl
  · exact if_neg herror

theorem reasoning_chunk_older (hf : Faithful numbers before event)
    (h : event.type ≠ lit "session/update") (hdelta : event.type ≠ lit "reasoning_delta") :
    reasoning_chunk (rust numbers) event = none := by
  unfold reasoning_chunk
  rw [if_neg hdelta, update_of_eq_none (hf.no_thought h hdelta)]
  rfl

theorem getD_of_not_truthy {value : Option Text} (h : ¬(truthy value).isSome = true) :
    value.getD [] = [] := by
  unfold truthy at h
  cases hvalue : value with
  | none => rfl
  | some text =>
    rw [hvalue, Option.filter_some] at h
    by_cases hempty : text = []
    · exact hempty
    · simp [hempty] at h

theorem Follows.text_delta (h : Follows numbers before text reasoning message s)
    (hf : Faithful numbers before event) (htype : event.type = lit "text_delta") :
    Follows numbers (before ++ [event]) text reasoning (apply_event_to_assistant (js numbers) message event)
      (extract (rust numbers) event s) := by
  have hother : ∀ {other : String}, other ≠ "text_delta" → event.type ≠ lit other := by
    intro other hne heq
    exact hne (lit_inj.1 (htype.symm.trans heq)).symm
  have hclient : apply_event_to_assistant (js numbers) message event
      = { message with content := message.content ++ event.content.getD [] } := by
    unfold apply_event_to_assistant
    rw [if_neg fun h => hother (by decide) h.1]
    by_cases htruthy : (truthy event.content).isSome = true
    · exact if_pos ⟨htype, htruthy⟩
    · rw [if_neg fun h => htruthy h.2, if_neg fun h => hother (by decide) h.1,
        if_neg fun h => hother (by decide) h.1, if_neg fun h => hother (by decide) h.1,
        getD_of_not_truthy htruthy, List.append_nil]
  have hserver : extract (rust numbers) event s = { s with content := s.content ++ event.content.getD [] } :=
    if_pos htype
  rw [hclient, hserver]
  refine h.say (call_id_older (hother (by decide))) _ [] message.reasoning ?_ ?_ (List.append_nil _).symm
  · unfold text_chunk
    rw [if_pos htype]
  · rw [reasoning_chunk_older hf (hother (by decide)) (hother (by decide))]
    rfl

theorem Follows.reasoning_delta (h : Follows numbers before text reasoning message s)
    (hf : Faithful numbers before event) (htype : event.type = lit "reasoning_delta") :
    Follows numbers (before ++ [event]) text reasoning (apply_event_to_assistant (js numbers) message event)
      (extract (rust numbers) event s) := by
  have hother : ∀ {other : String}, other ≠ "reasoning_delta" → event.type ≠ lit other := by
    intro other hne heq
    exact hne (lit_inj.1 (htype.symm.trans heq)).symm
  have hserver : extract (rust numbers) event s = s := by
    unfold extract session_update
    rw [if_neg (hother (by decide)), if_neg (hother (by decide)), if_neg (hother (by decide)),
      if_neg (hother (by decide))]
    rfl
  have hno_text := text_chunk_older hf (hother (by decide)) (hother (by decide))
  have hthought : reasoning_chunk (rust numbers) event = event.content := if_pos htype
  have hid := call_id_older (hother (by decide) : event.type ≠ lit "session/update")
  rw [hserver]
  by_cases htruthy : (truthy event.content).isSome = true
  · have hclient : apply_event_to_assistant (js numbers) message event
        = { message with reasoning := some (message.reasoning.getD [] ++ event.content.getD []) } := by
      unfold apply_event_to_assistant
      rw [if_neg fun h => hother (by decide) h.1, if_neg fun h => hother (by decide) h.1]
      exact if_pos ⟨htype, htruthy⟩
    rw [hclient]
    have hsaid := h.say hid [] _ (some (message.reasoning.getD [] ++ event.content.getD []))
      (by rw [hno_text]; rfl) (by rw [hthought]) rfl
    simpa using hsaid
  · have hclient : apply_event_to_assistant (js numbers) message event = message := by
      unfold apply_event_to_assistant
      rw [if_neg fun h => hother (by decide) h.1, if_neg fun h => hother (by decide) h.1,
        if_neg fun h => htruthy h.2, if_neg fun h => hother (by decide) h.1,
        if_neg fun h => hother (by decide) h.1]
    rw [hclient]
    have hsaid := h.say hid [] [] message.reasoning (by rw [hno_text]; rfl)
      (by rw [hthought, getD_of_not_truthy htruthy]) (List.append_nil _).symm
    simpa using hsaid

theorem Follows.tool_call (h : Follows numbers before text reasoning message s)
    (hf : Faithful numbers before event) (htype : event.type = lit "tool_call")
    (hoffset : adds_call before event → trimmed_length message.content = trimmed_char_count s.content) :
    Follows numbers (before ++ [event]) text reasoning (apply_event_to_assistant (js numbers) message event)
      (extract (rust numbers) event s) := by
  have hother : ∀ {other : String}, other ≠ "tool_call" → event.type ≠ lit other := by
    intro other hne heq
    exact hne (lit_inj.1 (htype.symm.trans heq)).symm
  have hno_text := text_chunk_older hf (hother (by decide)) (hother (by decide))
  have hno_thought := reasoning_chunk_older hf (hother (by decide)) (hother (by decide))
  have hid := call_id_older (hother (by decide) : event.type ≠ lit "session/update")
  cases htool : event.tool with
  | none =>
    have hclient : apply_event_to_assistant (js numbers) message event = message := by
      unfold apply_event_to_assistant
      rw [if_neg fun h => hother (by decide) h.1, if_neg fun h => hother (by decide) h.1,
        if_neg fun h => hother (by decide) h.1, if_neg (by simp [htool, truthy]),
        if_neg fun h => hother (by decide) h.1]
    have hserver : extract (rust numbers) event s = s := by
      unfold extract
      rw [if_neg (hother (by decide)), if_pos htype, htool]
      rfl
    rw [hclient, hserver]
    exact h.ignore hid hno_text hno_thought
  | some tool =>
    have hne : tool ≠ [] := by
      rintro rfl
      exact hf.tool htype htool
    have hadds : adds_call before event := Or.inl ⟨htype, by simp [htool]⟩
    let call : ToolCall := { ToolCall.new tool with
      input := event.input.bind fun input => (rust numbers).json_text (.object input)
      content_offset := some (trimmed_char_count s.content) }
    have hinput : (event.input.map fun input => (js numbers).stringify (some 0) (.object input))
        = event.input.bind fun input => (rust numbers).json_text (.object input) := by
      cases hvalue : event.input with
      | none => rfl
      | some input => exact congrArg some (stringify_portable (some 0) (.object input)
        (hf.input htype input hvalue))
    have hclient : apply_event_to_assistant (js numbers) message event
        = { message with tool_calls := some (s.calls ++ [call]) } := by
      have htruthy : (truthy event.tool).isSome = true := by simp [htool, truthy, hne]
      unfold apply_event_to_assistant
      rw [if_neg fun h => hother (by decide) h.1, if_neg fun h => hother (by decide) h.1,
        if_neg fun h => hother (by decide) h.1, if_pos ⟨htype, htruthy⟩, htool, h.calls, hinput,
        hoffset hadds]
      rfl
    have hserver : extract (rust numbers) event s
      = { s with calls := s.calls ++ [call], by_id := s.by_id } := by
      unfold extract
      rw [if_neg (hother (by decide)), if_pos htype, htool]
      rfl
    rw [hclient, hserver]
    refine h.change hno_text hno_thought ?_ ?_ ?_
    · intro other hmem
      rcases List.mem_append.1 hmem with hold | hlast
      · exact h.tools other hold
      · obtain rfl := List.mem_singleton.1 hlast
        exact hne
    · intro id hid'
      rw [List.findIdx?_append, h.by_id id hid']
      simp [call, ToolCall.new]
    · intro id
      rw [hid, h.known]
      simp

/-- A result that no call waits for changes nothing. -/
theorem legacy_tool_result_unmatched {calls : List ToolCall} {tool : Text} (output : Option Text)
    (h : calls.findIdx? (fun call => call.tool = tool ∧ call.output = none) = none) :
    apply_legacy_tool_result calls tool output = calls := by
  unfold apply_legacy_tool_result
  rw [h]
  cases output with
  | none => rfl
  | some output => rfl

theorem Follows.tool_result (h : Follows numbers before text reasoning message s)
    (hf : Faithful numbers before event) (htype : event.type = lit "tool_result") :
    Follows numbers (before ++ [event]) text reasoning (apply_event_to_assistant (js numbers) message event)
      (extract (rust numbers) event s) := by
  have hother : ∀ {other : String}, other ≠ "tool_result" → event.type ≠ lit other := by
    intro other hne heq
    exact hne (lit_inj.1 (htype.symm.trans heq)).symm
  have hno_text := text_chunk_older hf (hother (by decide)) (hother (by decide))
  have hno_thought := reasoning_chunk_older hf (hother (by decide)) (hother (by decide))
  have hid := call_id_older (hother (by decide) : event.type ≠ lit "session/update")
  have hskip : ∀ {p : Prop} {other : String}, other ≠ "tool_result" → ¬(event.type = lit other ∧ p) :=
    fun hne h => hother hne h.1
  have hserver : extract (rust numbers) event s = event.tool.elim s fun tool =>
      { s with calls := apply_legacy_tool_result s.calls tool event.output } := by
    unfold extract
    rw [if_neg (hother (by decide)), if_neg (hother (by decide)), if_pos htype]
  by_cases hresult : (truthy event.tool).isSome = true ∧ event.output.isSome = true
  · obtain ⟨tool, htool⟩ := Option.isSome_iff_exists.1 hresult.1
    obtain ⟨output, houtput⟩ := Option.isSome_iff_exists.1 hresult.2
    have htool' : event.tool = some tool := (Option.filter_eq_some_iff.1 htool).1
    have hclient : apply_event_to_assistant (js numbers) message event
        = apply_tool_result message tool output := by
      unfold apply_event_to_assistant
      rw [if_neg (hskip (by decide)), if_neg (hskip (by decide)), if_neg (hskip (by decide)),
        if_neg (hskip (by decide)), if_pos ⟨htype, hresult⟩, htool', houtput]
      rfl
    rw [hclient, hserver, htool']
    show Follows _ _ _ _ _ { s with calls := apply_legacy_tool_result s.calls tool event.output }
    cases hindex : s.calls.findIdx? fun call => call.tool = tool ∧ call.output = none with
    | none =>
      have hunmatched : apply_tool_result message tool output = message := by
        unfold apply_tool_result
        simp only [h.calls, hindex]
      rw [hunmatched, legacy_tool_result_unmatched _ hindex]
      exact h.ignore hid hno_text hno_thought
    | some index =>
      have hmatched : apply_tool_result message tool output = { message with
          tool_calls := some (s.calls.modify index (ToolCall.with_output output)) } := by
        unfold apply_tool_result
        simp only [h.calls, hindex]
      have hchanged : apply_legacy_tool_result s.calls tool event.output
          = s.calls.modify index (ToolCall.with_output output) := by
        unfold apply_legacy_tool_result
        rw [houtput, hindex]
      have hnames : ∀ call : ToolCall, call.tool ≠ [] → (call.with_output output).tool ≠ [] :=
        fun call hcall => hcall
      rw [hmatched, hchanged]
      refine h.change hno_text hno_thought (forall_modify hnames h.tools index) ?_ ?_
      · intro id hid'
        have hsame : ∀ call : ToolCall, decide ((call.with_output output).tool_call_id = some id)
            = decide (call.tool_call_id = some id) := fun _ => rfl
        exact (h.by_id id hid').trans (findIdx?_modify hsame s.calls index).symm
      · intro id
        rw [hid, h.known]
        simp
  · have hclient : apply_event_to_assistant (js numbers) message event = message := by
      unfold apply_event_to_assistant
      rw [if_neg (hskip (by decide)), if_neg (hskip (by decide)), if_neg (hskip (by decide)),
        if_neg (hskip (by decide)), if_neg fun h => hresult h.2]
    have hsame : extract (rust numbers) event s = s := by
      rw [hserver]
      cases htool : event.tool with
      | none => rfl
      | some tool =>
        have hcalls : apply_legacy_tool_result s.calls tool event.output = s.calls := by
          by_cases hempty : tool = []
          · -- every call has a name
            refine legacy_tool_result_unmatched _ (List.findIdx?_eq_none_iff.2 fun call hcall => ?_)
            have hne := h.tools call hcall
            simp [hempty, hne]
          · have houtput : event.output = none := by
              by_contra hsome
              refine hresult ⟨?_, Option.isSome_iff_ne_none.2 hsome⟩
              simp [truthy, htool, hempty]
            unfold apply_legacy_tool_result
            rw [houtput]
        show { s with calls := apply_legacy_tool_result s.calls tool event.output } = s
        rw [hcalls]
    rw [hclient, hsame]
    exact h.ignore hid hno_text hno_thought

/-- An event of another type. -/
theorem Follows.other (h : Follows numbers before text reasoning message s)
    (hf : Faithful numbers before event) (hupdate : event.type ≠ lit "session/update")
    (htext : event.type ≠ lit "text_delta") (hthought : event.type ≠ lit "reasoning_delta")
    (hcall : event.type ≠ lit "tool_call") (hresult : event.type ≠ lit "tool_result") :
    Follows numbers (before ++ [event]) text reasoning (apply_event_to_assistant (js numbers) message event)
      (extract (rust numbers) event s) := by
  have hclient : apply_event_to_assistant (js numbers) message event = message := by
    unfold apply_event_to_assistant
    rw [if_neg fun h => hupdate h.1, if_neg fun h => htext h.1, if_neg fun h => hthought h.1,
      if_neg fun h => hcall h.1, if_neg fun h => hresult h.1]
  have hserver : extract (rust numbers) event s = s := by
    unfold extract session_update
    rw [if_neg htext, if_neg hcall, if_neg hresult, if_neg hupdate]
    rfl
  rw [hclient, hserver]
  exact h.ignore (call_id_older hupdate) (text_chunk_older hf hupdate htext)
    (reasoning_chunk_older hf hupdate hthought)

/-- **One event.** The client follows an event that both sides read alike. -/
theorem Follows.step (h : Follows numbers before text reasoning message s)
    (hf : Faithful numbers before event)
    (hoffset : adds_call before event → trimmed_length message.content = trimmed_char_count s.content) :
    Follows numbers (before ++ [event]) text reasoning (apply_event_to_assistant (js numbers) message event)
      (extract (rust numbers) event s) := by
  by_cases hupdate : event.type = lit "session/update"
  · exact h.update hupdate hf hoffset
  by_cases htext : event.type = lit "text_delta"
  · exact h.text_delta hf htext
  by_cases hthought : event.type = lit "reasoning_delta"
  · exact h.reasoning_delta hf hthought
  by_cases hcall : event.type = lit "tool_call"
  · exact h.tool_call hf hcall hoffset
  by_cases hresult : event.type = lit "tool_result"
  · exact h.tool_result hf hresult
  exact h.other hf hupdate htext hthought hcall hresult

end Older

/-! ## The live view -/

section LiveView

variable (numbers)

/-- The message that the client has after events. -/
def live_view (events : List (KernelEvent N)) : ChatMessage :=
  events.foldl (apply_event_to_assistant (js numbers)) ChatMessage.empty

/-- Both sides read all events alike, and trim alike what was streamed where a tool call begins. -/
def FaithfulEvents (events : List (KernelEvent N)) : Prop :=
  ∀ before event after, events = before ++ event :: after → Faithful numbers before event
    ∧ (adds_call before event →
      trimmed_length (streamed numbers before) = trimmed_char_count (streamed numbers before))

variable {numbers}

theorem follows_empty : Follows numbers [] [] [] ChatMessage.empty ⟨[], fun _ => none, []⟩ := by
  refine ⟨rfl, rfl, rfl, rfl, ?_, fun _ _ => rfl, ?_⟩
  · intro call hcall
    cases hcall
  · intro id
    simp [call_ids]

theorem follows_live_view {events : List (KernelEvent N)} (h : FaithfulEvents numbers events) :
    Follows numbers events [] [] (live_view numbers events) (extracted (rust numbers) events) := by
  induction events using List.reverseRecOn with
  | nil => exact follows_empty
  | append_singleton events event ih =>
    have hbefore : FaithfulEvents numbers events := by
      intro before other after heq
      refine h before other (after ++ [event]) ?_
      rw [heq, List.append_assoc]
      rfl
    have hfollows := ih hbefore
    obtain ⟨hfaithful, hoffset⟩ := h events event [] rfl
    have hstep := hfollows.step hfaithful fun hadds => by
      have hcontent : (live_view numbers events).content = streamed numbers events := by
        rw [← hfollows.streamed, hfollows.content]
        rfl
      rw [hcontent, hfollows.streamed]
      exact hoffset hadds
    unfold live_view extracted
    rw [List.foldl_append, List.foldl_append]
    exact hstep

end LiveView

/-! ## Two turns -/

/-- Numbers that are never written. -/
def no_numbers : Numbers Empty := ⟨nofun, nofun⟩

/-- A text, and a tool call behind it. -/
def hello : KernelEvent Empty := { KernelEvent.of_type "text_delta" with content := some (lit "Hello ") }

def lists : KernelEvent Empty := { KernelEvent.of_type "session/update" with
  update := some [(lit "sessionUpdate", .string (lit "tool_call")), (lit "toolCallId", .string (lit "1")),
    (lit "title", .string (lit "ls")), (lit "rawInput", .object [(lit "path", .string (lit "."))])] }

theorem faithful_append {events : List (KernelEvent N)} {event : KernelEvent N}
    (h : FaithfulEvents numbers events) (hf : Faithful numbers events event)
    (hoffset : trimmed_length (streamed numbers events) = trimmed_char_count (streamed numbers events)) :
    FaithfulEvents numbers (events ++ [event]) := by
  intro before other after heq
  induction after using List.reverseRecOn with
  | nil =>
    obtain ⟨rfl, hlast⟩ := List.append_inj' heq rfl
    obtain rfl : event = other := (List.cons.inj hlast).1
    exact ⟨hf, fun _ => hoffset⟩
  | append_singleton after last =>
    have hsplit : events ++ [event] = (before ++ other :: after) ++ [last] := by
      rw [heq, List.append_assoc, List.cons_append]
    obtain ⟨rfl, -⟩ := List.append_inj' hsplit rfl
    exact h before other after rfl

theorem faithful_hello : Faithful no_numbers [] hello := by
  refine ⟨?_, ?_, ?_, ?_, ?_, ?_⟩
  · intro htype
    exact absurd (lit_inj.1 htype) (by decide)
  · intro _ _ update hupdate
    cases hupdate
  · intro _ _ update hupdate
    cases hupdate
  · intro htype
    exact absurd (lit_inj.1 htype) (by decide)
  · intro htype
    exact absurd (lit_inj.1 htype) (by decide)
  · intro update hupdate
    cases hupdate

theorem faithful_lists : Faithful no_numbers [hello] lists := by
  refine ⟨?_, ?_, ?_, ?_, ?_, ?_⟩
  · intro htype
    exact absurd (lit_inj.1 htype) (by decide)
  · intro htype
    exact absurd rfl htype
  · intro htype
    exact absurd rfl htype
  · intro htype
    exact absurd (lit_inj.1 htype) (by decide)
  · intro htype
    exact absurd (lit_inj.1 htype) (by decide)
  · intro update hupdate
    obtain rfl := Option.some.inj hupdate
    refine ⟨by decide, ?_, ?_, ?_, fun _ => by decide, fun _ => by decide, fun _ hid => ?_⟩
    · intro _ value hvalue
      cases hvalue
    · intro _ value hvalue
      obtain rfl := Option.some.inj hvalue
      exact ⟨List.pairwise_singleton _ _, trivial, trivial⟩
    · intro _ value hvalue
      cases hvalue
    · exact absurd hid (by decide)

/-- An error of the session, which the service writes into the message. -/
def fails : KernelEvent Empty := { KernelEvent.of_type "session/error" with message := some (lit "boom") }

end AgentSpace.Chat
