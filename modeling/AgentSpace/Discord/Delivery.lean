/-
`_deliver_streamed_response`: how the Discord gateway delivers the items of a stream.

Texts are gathered until a tool call is announced or the stream ends, and then sent; a
tool call with an id is announced once. The status of an update is looked for in a set,
which raises if it is an array or an object, and what has been gathered by then is lost
(`delivers_iff`).
-/
import AgentSpace.Discord.ToolCalls

set_option autoImplicit false

namespace AgentSpace.Discord

open Telemetry (Str str)
open PyText
open Telemetry.Otel (Value contains)

variable {F : Type}

/-! ## The channel -/

/-- What a message is: text of the assistant, the announcement of a tool call, or the notice
that there was no reply. -/
inductive Origin where
  | assistant
  | tool (key : Option Str)
  /-- The announcement of a tool call that the final item tells of. -/
  | final_tool
  | notice
  deriving DecidableEq

/-- An announcement. -/
def Origin.is_tool : Origin → Bool
  | .tool _ => true
  | .final_tool => true
  | _ => false

/-- What one call of `send_outbound` has sent, and how many items had been dealt with. -/
structure Outbound where
  origin : Origin
  chunks : List Str
  position : ℕ

/-- The gateway, and the channel: whether a call of `channel.send` succeeds. -/
structure Gateway (F : Type) where
  lib : Library F
  chunk_max : ℕ
  simulated_typing : Bool
  accepts : ℕ → Bool

/-- The variables of `_deliver_streamed_response`. -/
structure Turn (F : Type) where
  pending_text : List Str
  sent_assistant_text : Bool
  sent_any_message : Bool
  sent_tool_call_count : ℕ
  sent_tool_call_keys : List Str
  acp_tool_calls : List (Str × Dict F)
  /-- The items that have been dealt with. -/
  position : ℕ
  /-- The calls of `channel.send`. -/
  sends : ℕ
  /-- What has been sent. -/
  sent : List Outbound

/-- The variables at first. -/
def Turn.start : Turn F := ⟨[], false, false, 0, [], [], 0, 0, []⟩

/-- How a turn ends before its end: `return False`, or an exception. -/
inductive Stop where
  | not_delivered
  | raised

/-- A part of `_deliver_streamed_response`. -/
abbrev Delivery (F : Type) := EStateM Stop (Turn F)

/-- `channel.send`, for one chunk after another: what was sent before one failed, the calls
that were made, and whether all succeeded. -/
def send_all (accepts : ℕ → Bool) : List Str → ℕ → List Str × ℕ × Bool
  | [], sends => ([], sends, true)
  | content :: contents, sends =>
    if accepts sends then
      let (sent, after, delivered) := send_all accepts contents (sends + 1)
      (content :: sent, after, delivered)
    else ([], sends + 1, false)

/-- `_send_chunked`: the chunks of a text. -/
def send_chunked (gateway : Gateway F) (text : Str) : List Str := chunk text gateway.chunk_max

/-- `_deliver_reply`: the chunks of each piece. -/
def deliver_reply (gateway : Gateway F) (reply : Str) : List Str :=
  (plan_simulated_typing reply gateway.simulated_typing).flatMap (send_chunked gateway)

/-- The variables after a text has been sent. -/
def Turn.record (turn : Turn F) (origin : Origin) (chunks : List Str) (sends : ℕ) : Turn F :=
  { turn with
    sends := sends
    sent := turn.sent ++ [⟨origin, chunks, turn.position⟩]
    sent_any_message := true
    sent_assistant_text := turn.sent_assistant_text || decide (origin = .assistant) }

/-- `send_outbound`; every caller returns `False` when it does. -/
def send_outbound (gateway : Gateway F) (content : Str) (origin : Origin)
    (use_simulated_typing : Bool) : Delivery F Unit := fun turn =>
  if (strip content).isEmpty then .ok () turn
  else
    let planned := if use_simulated_typing then deliver_reply gateway content
      else send_chunked gateway content
    let (chunks, sends, delivered) := send_all gateway.accepts planned turn.sends
    if delivered then .ok () (turn.record origin chunks sends)
    else .error .not_delivered
      { turn with sends := sends, sent := turn.sent ++ [⟨origin, chunks, turn.position⟩] }

/-! ## The loop over the items -/

/-- `flush_pending_text`. -/
def flush_pending_text (gateway : Gateway F) : Delivery F Unit := do
  let turn ← get
  if turn.pending_text.isEmpty then pure ()
  else do
    set { turn with pending_text := [] }
    send_outbound gateway turn.pending_text.flatten .assistant false

/-- The part of `send_tool_invocation` that sends. -/
def announce (gateway : Gateway F) (invocation : ToolInvocation F) : Delivery F Unit := do
  modify fun turn => { turn with sent_tool_call_count := turn.sent_tool_call_count + 1 }
  send_outbound gateway (format_tool_call_message gateway.lib invocation.tool invocation.input)
    (.tool invocation.key) false

/-- `send_tool_invocation`. -/
def send_tool_invocation (gateway : Gateway F) (invocation : ToolInvocation F) :
    Delivery F Unit := do
  match invocation.key with
  | none => announce gateway invocation
  | some key =>
    let turn ← get
    if key ∈ turn.sent_tool_call_keys then pure ()
    else do
      set { turn with sent_tool_call_keys := turn.sent_tool_call_keys ++ [key] }
      announce gateway invocation

/-- The text of an event is gathered. -/
def gather (gateway : Gateway F) (event : Dict F) (turn : Turn F) : Turn F :=
  let text_delta := stream_event_text gateway.lib event
  if text_delta.isEmpty then turn
  else { turn with pending_text := turn.pending_text ++ [text_delta] }

/-- The tool call of an event is announced. -/
def take_tool_call (gateway : Gateway F) (event : Dict F) : Delivery F Unit := do
  let turn ← get
  match tool_invocation_from_event event turn.acp_tool_calls with
  | none => throw .raised
  | some (none, acp_tool_calls) => set { turn with acp_tool_calls := acp_tool_calls }
  | some (some invocation, acp_tool_calls) => do
    set { turn with acp_tool_calls := acp_tool_calls }
    flush_pending_text gateway
    send_tool_invocation gateway invocation

/-- One event. -/
def take_event (gateway : Gateway F) (event : Dict F) : Delivery F Unit := do
  modify (gather gateway event)
  take_tool_call gateway event

/-- One item that is not final. -/
def take_item (gateway : Gateway F) (item : Dict F) : Delivery F Unit := do
  match event_of item with
  | some event => take_event gateway event
  | none => pure ()
  modify fun turn => { turn with position := turn.position + 1 }

/-- The messages for the tool calls of the final item, one after another. -/
def send_messages (gateway : Gateway F) : List Str → Delivery F Unit
  | [] => pure ()
  | message :: messages => do
    send_outbound gateway message .final_tool false
    send_messages gateway messages

/-- `"(agent produced no reply)"`, whether or not it can be sent. -/
def send_notice (gateway : Gateway F) : Delivery F Unit :=
  modify fun turn =>
    let (chunks, sends, _) :=
      send_all gateway.accepts [str "(agent produced no reply)"] turn.sends
    { turn with sends := sends, sent := turn.sent ++ [⟨.notice, chunks, turn.position⟩] }

/-- The tool calls of the final item, if none was announced. -/
def send_final_tool_calls (gateway : Gateway F) (final_item : Dict F) : Delivery F Unit := do
  let turn ← get
  if turn.sent_tool_call_count = 0 then
    send_messages gateway (extract_tool_call_messages gateway.lib final_item)
  else pure ()

/-- The final reply, if no text was sent. -/
def send_final_reply (gateway : Gateway F) (final_item : Dict F) : Delivery F Unit := do
  let final_reply := extract_assistant_text final_item
  let turn ← get
  if !turn.sent_assistant_text && !final_reply.isEmpty then
    send_outbound gateway final_reply .assistant true
  else pure ()

/-- What follows the loop over the items. -/
def finish (gateway : Gateway F) (final_item : Dict F) : Delivery F Unit := do
  flush_pending_text gateway
  send_final_tool_calls gateway final_item
  send_final_reply gateway final_item
  let turn ← get
  if turn.sent_any_message then pure () else send_notice gateway

/-- `item.get("completed") is False`. -/
def is_failed (item : Dict F) : Bool :=
  match Telemetry.Otel.get item "completed" with
  | .bool false => true
  | _ => false

/-- An item of the type `final`. -/
def is_final (item : Dict F) : Bool := is_string (Telemetry.Otel.get item "type") "final"

/-- `_deliver_streamed_response`, of the items that the stream yields. -/
def deliver_streamed_response (gateway : Gateway F) : List (Dict F) → Delivery F Unit
  | [] => throw .raised
  | item :: items =>
    if is_final item then
      if is_failed item then throw .raised else finish gateway item
    else do
      take_item gateway item
      deliver_streamed_response gateway items

/-! ## What is delivered -/

/-- The text of the assistant that has been sent, without white space. -/
def assistant_text (sent : List Outbound) : Str :=
  sent.flatMap fun outbound => if outbound.origin = .assistant then squash_all outbound.chunks else []

/-- How often a tool call has been announced. -/
def announcements (key : Str) (sent : List Outbound) : ℕ :=
  sent.countP fun outbound => outbound.origin = .tool (some key)

/-- Announcements come after the texts that precede them in the stream. -/
def Ordered (lib : Library F) (events : List (Dict F)) (sent : List Outbound) : Prop :=
  ∀ before outbound after, sent = before ++ outbound :: after → outbound.origin.is_tool = true →
    assistant_text before = squash (deltas lib (events.take outbound.position))

/-- What is to be delivered of a stream: the assistant's text is the one of the events or, if
that is blank, the final reply; each tool call is announced at most once, and is if it is to
be shown, and what the final item tells of tool calls is passed on only if none was; and no
announcement overtakes a text. -/
structure Delivered (lib : Library F) (events : List (Dict F)) (final : Dict F) (turn : Turn F) :
    Prop where
  text : assistant_text turn.sent
    = if squash (deltas lib events) = [] then squash (extract_assistant_text final)
      else squash (deltas lib events)
  once : ∀ key, announcements key turn.sent ≤ 1
  shown : ∀ key, Shown key events → announcements key turn.sent = 1
  fallback : ∀ outbound ∈ turn.sent, ∀ key, outbound.origin = .tool key →
    ∀ outbound' ∈ turn.sent, outbound'.origin ≠ .final_tool
  ordered : Ordered lib events turn.sent

/-! ## Sending -/

variable {turn turn' : Turn F}

theorem bind_ok {α β : Type} {x : Delivery F α} {f : α → Delivery F β} {a : α}
    (h : x.run turn = .ok a turn') : (x >>= f).run turn = (f a).run turn' := by
  rw [EStateM.run_bind, h]

theorem bind_error {α β : Type} {x : Delivery F α} {f : α → Delivery F β}
    {stop : Stop} (h : x.run turn = .error stop turn') : (x >>= f).run turn = .error stop turn' := by
  rw [EStateM.run_bind, h]

variable {α : Type}

theorem get_bind (f : Turn F → Delivery F α) (turn : Turn F) :
    (get >>= f).run turn = (f turn).run turn := rfl

theorem set_bind (f : PUnit → Delivery F α) (turn turn' : Turn F) :
    (set turn' >>= f).run turn = (f ()).run turn' := rfl

theorem modify_bind (change : Turn F → Turn F) (f : PUnit → Delivery F α) (turn : Turn F) :
    (modify change >>= f).run turn = (f ()).run (change turn) := rfl

theorem send_all_of_accepts {accepts : ℕ → Bool} (h : ∀ n, accepts n = true) (contents : List Str)
    (sends : ℕ) : send_all accepts contents sends = (contents, sends + contents.length, true) := by
  induction contents generalizing sends with
  | nil => rfl
  | cons content contents ih =>
    unfold send_all
    rw [if_pos (h sends), ih]
    simp only [List.length_cons, Prod.mk.injEq, true_and, and_true]
    omega

/-- What sending a text does to the variables. -/
structure Sent (origin : Origin) (content : Str) (turn turn' : Turn F) : Prop where
  pending_text : turn'.pending_text = turn.pending_text
  count : turn'.sent_tool_call_count = turn.sent_tool_call_count
  keys : turn'.sent_tool_call_keys = turn.sent_tool_call_keys
  calls : turn'.acp_tool_calls = turn.acp_tool_calls
  position : turn'.position = turn.position
  flag : turn'.sent_assistant_text = true
    ↔ turn.sent_assistant_text = true ∨ origin = .assistant ∧ squash content ≠ []
  sent : squash content = [] ∧ turn'.sent = turn.sent
    ∨ squash content ≠ [] ∧ ∃ chunks, squash_all chunks = squash content
      ∧ turn'.sent = turn.sent ++ [⟨origin, chunks, turn.position⟩]

/-- **`send_outbound`**, on a channel that accepts everything. -/
theorem send_outbound_spec {gateway : Gateway F} (hmax : 0 < gateway.chunk_max)
    (haccepts : ∀ n, gateway.accepts n = true) (content : Str) (origin : Origin)
    (use_simulated_typing : Bool) (turn : Turn F) :
    ∃ turn', (send_outbound gateway content origin use_simulated_typing).run turn = .ok () turn'
      ∧ Sent origin content turn turn' := by
  unfold send_outbound EStateM.run
  beta_reduce
  by_cases hblank : (strip content).isEmpty = true
  · have hsquash : squash content = [] := strip_isEmpty_iff.1 hblank
    refine ⟨turn, if_pos hblank, rfl, rfl, rfl, rfl, rfl, ?_, Or.inl ⟨hsquash, rfl⟩⟩
    simp [hsquash]
  · have hsquash : squash content ≠ [] := fun h => hblank (strip_isEmpty_iff.2 h)
    have hpieces : ∀ pieces : List Str,
        squash_all (pieces.flatMap (send_chunked gateway)) = squash_all pieces := by
      intro pieces
      induction pieces with
      | nil => rfl
      | cons piece pieces ih =>
        rw [List.flatMap_cons, squash_all_append, ih, squash_all_cons]
        unfold send_chunked
        rw [squash_chunk piece hmax]
    have hplanned : squash_all (if use_simulated_typing then deliver_reply gateway content
        else send_chunked gateway content) = squash content := by
      by_cases htyping : use_simulated_typing = true
      · rw [if_pos htyping]
        unfold deliver_reply
        rw [hpieces, squash_plan]
      · rw [if_neg htyping]
        exact squash_chunk content hmax
    rw [if_neg hblank]
    simp only [send_all_of_accepts haccepts, if_true]
    refine ⟨_, rfl, rfl, rfl, rfl, rfl, rfl, ?_, Or.inr ⟨hsquash, _, hplanned, rfl⟩⟩
    simp [Turn.record, hsquash]

theorem assistant_text_append (sent sent' : List Outbound) :
    assistant_text (sent ++ sent') = assistant_text sent ++ assistant_text sent' :=
  List.flatMap_append ..

theorem announcements_append (key : Str) (sent sent' : List Outbound) :
    announcements key (sent ++ sent') = announcements key sent + announcements key sent' :=
  List.countP_append ..

variable {origin : Origin} {content : Str}

theorem Sent.assistant_text (h : Sent origin content turn turn') :
    assistant_text turn'.sent = assistant_text turn.sent
      ++ if origin = .assistant then squash content else [] := by
  rcases h.sent with ⟨hblank, hsent⟩ | ⟨-, chunks, hchunks, hsent⟩
  · rw [hsent, hblank]
    simp
  · rw [hsent, assistant_text_append, ← hchunks]
    simp [Discord.assistant_text]

theorem Sent.announcements (h : Sent origin content turn turn') (key : Str) :
    announcements key turn'.sent = announcements key turn.sent
      + if origin = .tool (some key) ∧ squash content ≠ [] then 1 else 0 := by
  rcases h.sent with ⟨hblank, hsent⟩ | ⟨htext, chunks, -, hsent⟩
  · rw [hsent, if_neg fun hboth => hboth.2 hblank]
    rfl
  · rw [hsent, announcements_append]
    unfold Discord.announcements
    by_cases horigin : origin = .tool (some key)
    · simp [horigin, htext]
    · simp [horigin]

/-! ## Texts -/

/-- The texts so far have been sent or are pending, and no announcement has overtaken one. -/
structure Texts (lib : Library F) (events : List (Dict F)) (so_far : Str) (turn : Turn F) : Prop where
  text : assistant_text turn.sent ++ squash turn.pending_text.flatten = so_far
  flag : turn.sent_assistant_text = true ↔ assistant_text turn.sent ≠ []
  ordered : Ordered lib events turn.sent

section Sending

variable {lib : Library F} {events : List (Dict F)} {so_far : Str} {turn turn' : Turn F}

theorem ordered_append {sent : List Outbound} {outbound : Outbound} (h : Ordered lib events sent)
    (hlast : outbound.origin.is_tool = true →
      assistant_text sent = squash (deltas lib (events.take outbound.position))) :
    Ordered lib events (sent ++ [outbound]) := by
  intro before outbound' after hsplit horigin
  rcases List.eq_nil_or_concat after with rfl | ⟨after', last, rfl⟩
  · obtain ⟨rfl, hsame⟩ := List.append_inj' hsplit rfl
    obtain rfl : outbound = outbound' := List.head_eq_of_cons_eq hsame
    exact hlast horigin
  · have hinit : sent ++ [outbound] = (before ++ outbound' :: after') ++ [last] := by
      rw [hsplit]
      simp
    obtain ⟨hsent, -⟩ := List.append_inj' hinit rfl
    exact h before outbound' after' hsent horigin

theorem Texts.sent_text (h : Texts lib events so_far turn) {pending : List Str}
    (hpending : turn.pending_text = pending)
    (hsent : Sent .assistant pending.flatten { turn with pending_text := [] } turn') :
    Texts lib events so_far turn' := by
  have htext := hsent.assistant_text
  rw [if_pos rfl] at htext
  refine ⟨?_, ?_, ?_⟩
  · rw [htext, hsent.pending_text, ← h.text, hpending]
    simp [squash]
  · rw [hsent.flag, htext, h.flag]
    simp only [ne_eq, List.append_eq_nil_iff, true_and]
    tauto
  · rcases hsent.sent with ⟨-, hsame⟩ | ⟨-, chunks, -, hmore⟩
    · rw [hsame]
      exact h.ordered
    · rw [hmore]
      refine ordered_append h.ordered ?_
      intro horigin
      cases horigin

/-- Sending something else, once all texts that precede it have been sent. -/
theorem Texts.sent_tool (h : Texts lib events so_far turn) (hpending : turn.pending_text = [])
    (hso_far : so_far = squash (deltas lib (events.take turn.position))) {origin : Origin}
    (horigin : origin.is_tool = true) {content : Str} (hsent : Sent origin content turn turn') :
    Texts lib events so_far turn' := by
  have hne : origin ≠ .assistant := by
    rintro rfl
    cases horigin
  have htext := hsent.assistant_text
  rw [if_neg hne, List.append_nil] at htext
  refine ⟨?_, ?_, ?_⟩
  · rw [htext, hsent.pending_text]
    exact h.text
  · rw [hsent.flag, htext, h.flag]
    simp [hne]
  · rcases hsent.sent with ⟨-, hsame⟩ | ⟨-, chunks, -, hmore⟩
    · rw [hsame]
      exact h.ordered
    · rw [hmore]
      refine ordered_append h.ordered ?_
      intro _
      rw [← hso_far, ← h.text, hpending]
      simp [squash]

end Sending

/-! ## Tool calls -/

/-- The tool calls to be shown so far have been announced once each, and the states of the
others are known. -/
structure Called (taken : List (Dict F)) (turn : Turn F) : Prop where
  keys : ∀ key, key ∈ turn.sent_tool_call_keys ↔ Shown key taken
  once : ∀ key, announcements key turn.sent = if key ∈ turn.sent_tool_call_keys then 1 else 0
  calls : ∀ key, key ∉ turn.sent_tool_call_keys →
    turn.acp_tool_calls.lookup key = accumulated key taken
  hashes : ∀ key state, turn.acp_tool_calls.lookup key = some state → (terminal state).isSome
  count : turn.sent_tool_call_count = 0 → ∀ outbound ∈ turn.sent, ∀ key, outbound.origin ≠ .tool key
  streamed : ∀ outbound ∈ turn.sent, outbound.origin ≠ .final_tool

/-- What a part of the turn leaves alone that announces nothing. -/
structure Quiet (turn turn' : Turn F) : Prop where
  keys : turn'.sent_tool_call_keys = turn.sent_tool_call_keys
  calls : turn'.acp_tool_calls = turn.acp_tool_calls
  count : turn'.sent_tool_call_count = turn.sent_tool_call_count
  position : turn'.position = turn.position
  announcements : ∀ key, announcements key turn'.sent = announcements key turn.sent
  sent : ∀ outbound ∈ turn'.sent, outbound ∈ turn.sent ∨ outbound.origin = .assistant

theorem Sent.mem (h : Sent origin content turn turn') {outbound : Outbound} (hmem : outbound ∈ turn'.sent) :
    outbound ∈ turn.sent ∨ outbound.origin = origin := by
  rcases h.sent with ⟨-, hsame⟩ | ⟨-, chunks, -, hmore⟩
  · rw [hsame] at hmem
    exact Or.inl hmem
  · rw [hmore] at hmem
    rcases List.mem_append.1 hmem with hmem | hmem
    · exact Or.inl hmem
    · obtain rfl := List.mem_singleton.1 hmem
      exact Or.inr rfl

variable {taken : List (Dict F)}

theorem Called.of_quiet (h : Called taken turn) (hquiet : Quiet turn turn') : Called taken turn' := by
  refine ⟨?_, ?_, ?_, ?_, ?_, ?_⟩
  · rw [hquiet.keys]
    exact h.keys
  · intro key
    rw [hquiet.announcements, hquiet.keys]
    exact h.once key
  · rw [hquiet.keys, hquiet.calls]
    exact h.calls
  · rw [hquiet.calls]
    exact h.hashes
  · rw [hquiet.count]
    intro hcount outbound hmem key horigin
    rcases hquiet.sent outbound hmem with hmem | hassistant
    · exact h.count hcount outbound hmem key horigin
    · rw [hassistant] at horigin
      cases horigin
  · intro outbound hmem horigin
    rcases hquiet.sent outbound hmem with hmem | hassistant
    · exact h.streamed outbound hmem horigin
    · rw [hassistant] at horigin
      cases horigin

/-- The state of the tool calls after an update that is not shown. -/
theorem called_of_quiet_update {turn : Turn F} {item update state : Dict F}
    {id : Str} (hcalled : Called taken turn) (hupdate : tool_update item = some (id, update))
    (hstate : acp_state update (turn.acp_tool_calls.lookup id) = some state)
    (hhash : (terminal state).isSome) (hquiet : ¬Displays state) :
    Called (taken ++ [item]) { turn with acp_tool_calls := set_key id state turn.acp_tool_calls } := by
  have hown : id ∉ turn.sent_tool_call_keys → accumulated id (taken ++ [item]) = some state := by
    intro hnew
    rw [accumulated_of_update hupdate, ← hcalled.calls id hnew]
    exact hstate
  refine ⟨?_, hcalled.once, ?_, ?_, hcalled.count, hcalled.streamed⟩
  · intro key
    rw [show key ∈ turn.sent_tool_call_keys ↔ _ from hcalled.keys key]
    by_cases hkey : key = id
    · subst hkey
      rw [shown_append_iff]
      constructor
      · exact Or.inl
      · rintro (hshown | ⟨other, hother, hdisplays⟩)
        · exact hshown
        · -- the state of a call that has not been shown is known, and is not to be shown
          by_contra hnot
          have hnew : key ∉ turn.sent_tool_call_keys := fun hmem => hnot ((hcalled.keys key).1 hmem)
          rw [hown hnew] at hother
          obtain rfl := Option.some.inj hother
          exact hquiet hdisplays
    · exact (shown_append_of_same (accumulated_of_ne hupdate hkey taken)).symm
  · intro key hnew
    show (set_key id state turn.acp_tool_calls).lookup key = _
    rw [lookup_set_key]
    by_cases hkey : key = id
    · subst hkey
      rw [if_pos rfl, hown hnew]
    · rw [if_neg hkey, accumulated_of_ne hupdate hkey]
      exact hcalled.calls key hnew
  · intro key other hlookup
    rw [lookup_set_key] at hlookup
    by_cases hkey : key = id
    · rw [if_pos hkey] at hlookup
      obtain rfl := Option.some.inj hlookup
      exact hhash
    · rw [if_neg hkey] at hlookup
      exact hcalled.hashes key other hlookup

/-- The state of the tool calls after an update that is shown, now or before. -/
theorem called_of_shown {item update state : Dict F}
    {id : Str} (hcalled : Called taken turn) (hupdate : tool_update item = some (id, update))
    (hstate : acp_state update (turn.acp_tool_calls.lookup id) = some state) (hdisplays : Displays state)
    (hkeys : ∀ key, key ∈ turn'.sent_tool_call_keys ↔ key ∈ turn.sent_tool_call_keys ∨ key = id)
    (honce : ∀ key, announcements key turn'.sent = if key ∈ turn'.sent_tool_call_keys then 1 else 0)
    (hcalls : ∀ key, key ≠ id → turn'.acp_tool_calls.lookup key = turn.acp_tool_calls.lookup key)
    (hhash : ∀ other, turn'.acp_tool_calls.lookup id = some other → (terminal other).isSome)
    (hcount : turn'.sent_tool_call_count = 0 →
      ∀ outbound ∈ turn'.sent, ∀ key, outbound.origin ≠ .tool key)
    (hstreamed : ∀ outbound ∈ turn'.sent, outbound.origin ≠ .final_tool) :
    Called (taken ++ [item]) turn' := by
  refine ⟨?_, honce, ?_, ?_, hcount, hstreamed⟩
  · intro key
    rw [hkeys, hcalled.keys]
    by_cases hkey : key = id
    · subst hkey
      rw [shown_append_iff, accumulated_of_update hupdate]
      constructor
      · intro _
        by_cases hshown : Shown key taken
        · exact Or.inl hshown
        · have hnew : key ∉ turn.sent_tool_call_keys := fun hmem => hshown ((hcalled.keys key).1 hmem)
          rw [hcalled.calls key hnew] at hstate
          exact Or.inr ⟨state, hstate, hdisplays⟩
      · intro _
        exact Or.inr rfl
    · rw [shown_append_of_same (accumulated_of_ne hupdate hkey taken), or_iff_left hkey]
  · intro key hnew
    have hneither := fun h => hnew ((hkeys key).2 h)
    have hkey : key ≠ id := fun h => hneither (Or.inr h)
    rw [hcalls key hkey, accumulated_of_ne hupdate hkey]
    exact hcalled.calls key fun h => hneither (Or.inl h)
  · intro key other hlookup
    by_cases hkey : key = id
    · subst hkey
      exact hhash other hlookup
    · rw [hcalls key hkey] at hlookup
      exact hcalled.hashes key other hlookup

theorem called_of_no_update {turn : Turn F} {item : Dict F}
    (hcalled : Called taken turn) (hupdate : tool_update item = none) : Called (taken ++ [item]) turn := by
  refine ⟨?_, hcalled.once, ?_, hcalled.hashes, hcalled.count, hcalled.streamed⟩
  · intro key
    rw [hcalled.keys, shown_append_of_same (accumulated_of_none hupdate key taken)]
  · intro key hnew
    rw [accumulated_of_none hupdate]
    exact hcalled.calls key hnew

theorem squash_format_ne_nil (lib : Library F) (tool : Str) (tool_input : Value F) :
    squash (format_tool_call_message lib tool tool_input) ≠ [] := by
  have hhead : squash (str "Invoking tool `") ≠ [] := by decide
  unfold format_tool_call_message
  by_cases hempty : (tool_input_text lib tool_input).1.isEmpty = true
  · simp only [hempty, if_true, squash_append]
    simp [hhead]
  · simp only [hempty, Bool.false_eq_true, if_false, squash_append]
    simp [hhead]

section Taking

variable {gateway : Gateway F} (hmax : 0 < gateway.chunk_max)
  (haccepts : ∀ n, gateway.accepts n = true) {events taken : List (Dict F)} {so_far : Str}
  {turn : Turn F}

include hmax haccepts

/-- **`flush_pending_text`** sends what is pending, and announces nothing. -/
theorem flush_spec (h : Texts gateway.lib events so_far turn) :
    ∃ turn', (flush_pending_text gateway).run turn = .ok () turn'
      ∧ Texts gateway.lib events so_far turn' ∧ turn'.pending_text = [] ∧ Quiet turn turn' := by
  unfold flush_pending_text
  by_cases hempty : turn.pending_text.isEmpty = true
  · refine ⟨turn, ?_, h, List.isEmpty_iff.1 hempty, rfl, rfl, rfl, rfl, fun _ => rfl, fun _ => Or.inl⟩
    rw [get_bind, if_pos hempty]
    rfl
  · obtain ⟨turn', hsend, hsent⟩ := send_outbound_spec hmax haccepts turn.pending_text.flatten
      .assistant false { turn with pending_text := [] }
    refine ⟨turn', ?_, h.sent_text rfl hsent, hsent.pending_text, hsent.keys, hsent.calls,
      hsent.count, hsent.position, ?_, fun _ hmem => hsent.mem hmem⟩
    · rw [get_bind, if_neg hempty, set_bind]
      exact hsend
    · intro key
      rw [hsent.announcements, if_neg (by simp)]
      rfl

/-- **An announcement**, once all texts that precede it have been sent. -/
theorem announce_spec (h : Texts gateway.lib events so_far turn) (hpending : turn.pending_text = [])
    (hso_far : so_far = squash (deltas gateway.lib (events.take turn.position)))
    (invocation : ToolInvocation F) :
    ∃ turn', (announce gateway invocation).run turn = .ok () turn'
      ∧ Texts gateway.lib events so_far turn' ∧ turn'.pending_text = []
      ∧ turn'.sent_tool_call_keys = turn.sent_tool_call_keys
      ∧ turn'.acp_tool_calls = turn.acp_tool_calls ∧ turn'.sent_tool_call_count ≠ 0
      ∧ turn'.position = turn.position
      ∧ (∀ key, announcements key turn'.sent = announcements key turn.sent
        + if invocation.key = some key then 1 else 0)
      ∧ ∀ outbound ∈ turn'.sent, outbound ∈ turn.sent ∨ outbound.origin = .tool invocation.key := by
  obtain ⟨turn', hsend, hsent⟩ := send_outbound_spec hmax haccepts
    (format_tool_call_message gateway.lib invocation.tool invocation.input) (.tool invocation.key) false
    { turn with sent_tool_call_count := turn.sent_tool_call_count + 1 }
  refine ⟨turn', ?_, ?_, ?_, hsent.keys, hsent.calls, ?_, hsent.position, ?_, ?_⟩
  · unfold announce
    rw [modify_bind]
    exact hsend
  · have htexts : Texts gateway.lib events so_far
        { turn with sent_tool_call_count := turn.sent_tool_call_count + 1 } :=
      ⟨h.text, h.flag, h.ordered⟩
    exact htexts.sent_tool hpending hso_far rfl hsent
  · rw [hsent.pending_text]
    exact hpending
  · rw [hsent.count]
    exact Nat.succ_ne_zero _
  · intro key
    rw [hsent.announcements]
    have hiff : (Origin.tool invocation.key = .tool (some key)
        ∧ squash (format_tool_call_message gateway.lib invocation.tool invocation.input) ≠ [])
        ↔ invocation.key = some key := by
      constructor
      · rintro ⟨hkey, -⟩
        exact Origin.tool.inj hkey
      · intro hkey
        exact ⟨by rw [hkey], squash_format_ne_nil _ _ _⟩
    simp only [hiff]
  · intro outbound hmem
    exact hsent.mem hmem

/-- **`send_tool_invocation`** of a call that has an id: it is announced now, or has been. -/
theorem send_tool_invocation_spec (h : Texts gateway.lib events so_far turn)
    (hpending : turn.pending_text = [])
    (hso_far : so_far = squash (deltas gateway.lib (events.take turn.position)))
    {invocation : ToolInvocation F} {id : Str} (hkey : invocation.key = some id)
    (honce : ∀ key, announcements key turn.sent = if key ∈ turn.sent_tool_call_keys then 1 else 0)
    (hcount : turn.sent_tool_call_count = 0 → ∀ outbound ∈ turn.sent, ∀ key, outbound.origin ≠ .tool key)
    (hstreamed : ∀ outbound ∈ turn.sent, outbound.origin ≠ .final_tool) :
    ∃ turn', (send_tool_invocation gateway invocation).run turn = .ok () turn'
      ∧ Texts gateway.lib events so_far turn'
      ∧ (∀ key, key ∈ turn'.sent_tool_call_keys ↔ key ∈ turn.sent_tool_call_keys ∨ key = id)
      ∧ (∀ key, announcements key turn'.sent = if key ∈ turn'.sent_tool_call_keys then 1 else 0)
      ∧ turn'.acp_tool_calls = turn.acp_tool_calls ∧ turn'.position = turn.position
      ∧ (turn'.sent_tool_call_count = 0 → ∀ outbound ∈ turn'.sent, ∀ key, outbound.origin ≠ .tool key)
      ∧ ∀ outbound ∈ turn'.sent, outbound.origin ≠ .final_tool := by
  unfold send_tool_invocation
  simp only [hkey]
  by_cases hmem : id ∈ turn.sent_tool_call_keys
  · refine ⟨turn, ?_, h, ?_, honce, rfl, rfl, hcount, hstreamed⟩
    · rw [get_bind, if_pos hmem]
      rfl
    · intro key
      constructor
      · exact Or.inl
      · rintro (hkeys | rfl)
        · exact hkeys
        · exact hmem
  · have htexts : Texts gateway.lib events so_far
        { turn with sent_tool_call_keys := turn.sent_tool_call_keys ++ [id] } :=
      ⟨h.text, h.flag, h.ordered⟩
    obtain ⟨turn', hrun, htexts', -, hkeys, hcalls, hpositive, hposition, hannounced, hsent⟩ :=
      announce_spec hmax haccepts htexts hpending hso_far invocation
    have hkeys' : ∀ key, key ∈ turn'.sent_tool_call_keys ↔ key ∈ turn.sent_tool_call_keys ∨ key = id := by
      intro key
      rw [hkeys]
      simp
    refine ⟨turn', ?_, htexts', hkeys', ?_, hcalls, hposition, fun hzero => absurd hzero hpositive, ?_⟩
    · rw [get_bind, if_neg hmem, set_bind]
      exact hrun
    · intro key
      rw [hannounced, hkey]
      show announcements key turn.sent + _ = _
      rw [honce]
      by_cases hsame : key = id
      · subst hsame
        simp [hmem, hkeys']
      · have hne : ¬some id = some key := fun heq => hsame (Option.some.inj heq).symm
        simp [hkeys', hsame, hne]
    · intro outbound hmem' horigin
      rcases hsent outbound hmem' with hold | hnew
      · exact hstreamed outbound hold horigin
      · rw [hnew] at horigin
        cases horigin

/-- **The tool call of an event.** -/
theorem take_tool_call_spec {item event : Dict F} (hevent : event_of item = some event)
    (hhash : Hashable item) (htaken : events.take turn.position = taken)
    (htexts : Texts gateway.lib events so_far turn) (hcalled : Called taken turn)
    (hso_far : so_far = squash (deltas gateway.lib (taken ++ [item]))) :
    ∃ turn', (take_tool_call gateway event).run turn = .ok () turn'
      ∧ Texts gateway.lib events so_far turn' ∧ Called (taken ++ [item]) turn'
      ∧ turn'.position = turn.position := by
  -- an event that announces something has no text of its own
  have hbefore : stream_event_text gateway.lib event = [] →
      so_far = squash (deltas gateway.lib (events.take turn.position)) := by
    intro htext
    have hdelta : delta gateway.lib item = [] := by
      unfold delta
      rw [hevent]
      exact htext
    rw [hso_far, htaken, deltas_append, hdelta, List.append_nil]
  unfold take_tool_call
  rw [get_bind]
  cases hupdate : tool_update item with
  | none =>
    obtain ⟨invocation, hinvocation, hkey⟩ :=
      invocation_of_none gateway.lib hevent hupdate turn.acp_tool_calls
    have hcalled' := called_of_no_update hcalled hupdate
    rw [hinvocation]
    cases invocation with
    | none => exact ⟨turn, rfl, htexts, hcalled', rfl⟩
    | some invocation =>
      obtain ⟨hnone, htext⟩ := hkey invocation rfl
      obtain ⟨turn₁, hflush, htexts₁, hpending, hquiet⟩ := flush_spec hmax haccepts htexts
      have hcalled₁ := hcalled'.of_quiet hquiet
      obtain ⟨turn', hannounce, htexts', -, hkeys, hcalls, hpositive, hposition, hannounced, hsent⟩ :=
        announce_spec hmax haccepts htexts₁ hpending
          (by rw [hquiet.position]; exact hbefore htext) invocation
      refine ⟨turn', ?_, htexts', ?_, hposition.trans hquiet.position⟩
      · show (flush_pending_text gateway >>= fun _ =>
          send_tool_invocation gateway invocation).run turn = _
        rw [bind_ok hflush]
        unfold send_tool_invocation
        rw [hnone]
        exact hannounce
      · refine ⟨?_, ?_, ?_, ?_, fun hzero => absurd hzero hpositive, ?_⟩
        · rw [hkeys]
          exact hcalled₁.keys
        · intro key
          rw [hannounced, hnone, hkeys, if_neg (by simp)]
          exact hcalled₁.once key
        · rw [hkeys, hcalls]
          exact hcalled₁.calls
        · rw [hcalls]
          exact hcalled₁.hashes
        · intro outbound hmem horigin
          rcases hsent outbound hmem with hold | hnew
          · exact hcalled₁.streamed outbound hold horigin
          · rw [hnew] at horigin
            cases horigin
  | some both =>
    obtain ⟨id, update⟩ := both
    obtain ⟨htext, state, hstate, hinvocation⟩ :=
      invocation_of_update gateway.lib hevent hupdate turn.acp_tool_calls
    have hsome : (terminal state).isSome :=
      terminal_acp_state_isSome hstate (hhash id update hupdate) (hcalled.hashes id)
    obtain ⟨ended, hended⟩ := Option.isSome_iff_exists.1 hsome
    rw [hinvocation, hended, Option.map_some]
    by_cases hsilent : (!ended && !has_displayable_acp_tool_input state) = true
    · rw [if_pos hsilent]
      have hquiet : ¬Displays state := by
        unfold Displays
        rw [hended]
        cases ended <;> simp_all
      exact ⟨_, rfl, ⟨htexts.text, htexts.flag, htexts.ordered⟩,
        called_of_quiet_update hcalled hupdate hstate hsome hquiet, rfl⟩
    · rw [if_neg hsilent]
      have hdisplays : Displays state := by
        unfold Displays
        rw [hended]
        cases ended <;> simp_all
      let tool_calls := if ended then del_key id (set_key id state turn.acp_tool_calls)
        else set_key id state turn.acp_tool_calls
      have hothers : ∀ key, key ≠ id → tool_calls.lookup key = turn.acp_tool_calls.lookup key := by
        intro key hkey
        show (if ended then del_key id (set_key id state turn.acp_tool_calls)
          else set_key id state turn.acp_tool_calls).lookup key = _
        by_cases htrue : ended = true
        · rw [if_pos htrue, lookup_del_key_of_ne hkey, lookup_set_key, if_neg hkey]
        · rw [if_neg htrue, lookup_set_key, if_neg hkey]
      have hown : ∀ other, tool_calls.lookup id = some other → (terminal other).isSome := by
        intro other hlookup
        have hcases : (if ended then del_key id (set_key id state turn.acp_tool_calls)
          else set_key id state turn.acp_tool_calls).lookup id = some other := hlookup
        by_cases htrue : ended = true
        · rw [if_pos htrue, lookup_del_key_self] at hcases
          cases hcases
        · rw [if_neg htrue, lookup_set_key, if_pos rfl] at hcases
          obtain rfl := Option.some.inj hcases
          exact hsome
      have htexts₀ : Texts gateway.lib events so_far { turn with acp_tool_calls := tool_calls } :=
        ⟨htexts.text, htexts.flag, htexts.ordered⟩
      obtain ⟨turn₁, hflush, htexts₁, hpending, hquiet⟩ := flush_spec hmax haccepts htexts₀
      have honce : ∀ key, announcements key turn₁.sent
          = if key ∈ turn₁.sent_tool_call_keys then 1 else 0 := by
        intro key
        rw [hquiet.announcements, hquiet.keys]
        exact hcalled.once key
      have hcount : turn₁.sent_tool_call_count = 0 →
          ∀ outbound ∈ turn₁.sent, ∀ key, outbound.origin ≠ .tool key := by
        rw [hquiet.count]
        intro hzero outbound hmem key horigin
        rcases hquiet.sent outbound hmem with hold | hassistant
        · exact hcalled.count hzero outbound hold key horigin
        · rw [hassistant] at horigin
          cases horigin
      have hstreamed : ∀ outbound ∈ turn₁.sent, outbound.origin ≠ .final_tool := by
        intro outbound hmem horigin
        rcases hquiet.sent outbound hmem with hold | hassistant
        · exact hcalled.streamed outbound hold horigin
        · rw [hassistant] at horigin
          cases horigin
      have hkey : (acp_tool_invocation_from_state state (some id)).key = some id := rfl
      obtain ⟨turn', hsend, htexts', hkeys, honce', hcalls, hposition, hcount', hstreamed'⟩ :=
        send_tool_invocation_spec hmax haccepts htexts₁ hpending
          (by rw [hquiet.position]; exact hbefore htext) hkey honce hcount hstreamed
      refine ⟨turn', ?_, htexts', ?_, hposition.trans hquiet.position⟩
      · show (flush_pending_text gateway >>= fun _ => send_tool_invocation gateway
          (acp_tool_invocation_from_state state (some id))).run
            { turn with acp_tool_calls := tool_calls } = _
        rw [bind_ok hflush]
        exact hsend
      · refine called_of_shown hcalled hupdate hstate hdisplays ?_ honce' ?_ ?_ hcount' hstreamed'
        · intro key
          rw [hkeys, hquiet.keys]
        · intro key hkey
          rw [hcalls, hquiet.calls]
          exact hothers key hkey
        · rw [hcalls, hquiet.calls]
          exact hown

end Taking

/-! ## The loop -/

/-- What holds of the variables after these items. -/
structure Kept (lib : Library F) (events taken : List (Dict F)) (turn : Turn F) : Prop where
  position : turn.position = taken.length
  texts : Texts lib events (squash (deltas lib taken)) turn
  called : Called taken turn

theorem kept_start (lib : Library F) (events : List (Dict F)) : Kept lib events [] Turn.start := by
  refine ⟨rfl, ⟨rfl, ?_, ?_⟩, ⟨?_, fun _ => rfl, fun _ _ => rfl, ?_, ?_, ?_⟩⟩
  · constructor
    · intro h
      cases h
    · intro h
      exact absurd rfl h
  · intro before outbound after hsplit
    exact absurd hsplit.symm (by simp [Turn.start])
  · intro key
    exact ⟨fun h => absurd h List.not_mem_nil, fun h => absurd h (not_shown_nil key)⟩
  · intro key state h
    cases h
  · intro _ outbound h
    exact absurd h List.not_mem_nil
  · intro outbound h
    exact absurd h List.not_mem_nil

theorem event_of_tool_update {item : Dict F} {both : Str × Dict F} (h : tool_update item = some both) :
    ∃ event, event_of item = some event := by
  unfold tool_update at h
  cases hevent : event_of item with
  | none => simp [hevent] at h
  | some event => exact ⟨event, rfl⟩

section Loop

variable {gateway : Gateway F} {events taken : List (Dict F)} {turn : Turn F}

theorem texts_gather {so_far : Str} (h : Texts gateway.lib events so_far turn) (event : Dict F) :
    Texts gateway.lib events (so_far ++ squash (stream_event_text gateway.lib event))
      (gather gateway event turn) := by
  unfold gather
  by_cases hempty : (stream_event_text gateway.lib event).isEmpty = true
  · simp only [hempty, if_true]
    rw [List.isEmpty_iff.1 hempty]
    refine ⟨?_, h.flag, h.ordered⟩
    rw [h.text]
    exact (List.append_nil _).symm
  · simp only [hempty, Bool.false_eq_true, if_false]
    refine ⟨?_, h.flag, h.ordered⟩
    show assistant_text turn.sent
      ++ squash (turn.pending_text ++ [stream_event_text gateway.lib event]).flatten = _
    rw [List.flatten_append, squash_append, ← List.append_assoc, h.text]
    simp

theorem gather_frame (gateway : Gateway F) (turn : Turn F) (event : Dict F) :
    (gather gateway event turn).sent = turn.sent
      ∧ (gather gateway event turn).sent_tool_call_keys = turn.sent_tool_call_keys
      ∧ (gather gateway event turn).acp_tool_calls = turn.acp_tool_calls
      ∧ (gather gateway event turn).sent_tool_call_count = turn.sent_tool_call_count
      ∧ (gather gateway event turn).position = turn.position := by
  unfold gather
  by_cases hempty : (stream_event_text gateway.lib event).isEmpty = true
  · simp [hempty]
  · simp [hempty]

theorem called_gather (h : Called taken turn) (event : Dict F) :
    Called taken (gather gateway event turn) := by
  obtain ⟨hsent, hkeys, hcalls, hcount, hposition⟩ := gather_frame gateway turn event
  refine h.of_quiet ⟨hkeys, hcalls, hcount, hposition, ?_, ?_⟩
  · intro key
    rw [hsent]
  · intro outbound hmem
    rw [hsent] at hmem
    exact Or.inl hmem

/-- **One item** is dealt with. -/
theorem take_item_spec (hmax : 0 < gateway.chunk_max) (haccepts : ∀ n, gateway.accepts n = true)
    {item : Dict F} {rest : List (Dict F)} (hevents : events = taken ++ item :: rest)
    (hhash : Hashable item) (h : Kept gateway.lib events taken turn) :
    ∃ turn', (take_item gateway item).run turn = .ok () turn'
      ∧ Kept gateway.lib events (taken ++ [item]) turn' := by
  unfold take_item
  cases hevent : event_of item with
  | none =>
    have hdelta : delta gateway.lib item = [] := by
      unfold delta
      rw [hevent]
      rfl
    have hupdate : tool_update item = none := by
      unfold tool_update
      rw [hevent]
    refine ⟨{ turn with position := turn.position + 1 }, rfl, ?_, ?_, ?_⟩
    · show turn.position + 1 = _
      rw [h.position]
      simp
    · rw [deltas_append, hdelta, List.append_nil]
      exact ⟨h.texts.text, h.texts.flag, h.texts.ordered⟩
    · have hcalled := called_of_no_update h.called hupdate
      exact ⟨hcalled.keys, hcalled.once, hcalled.calls, hcalled.hashes, hcalled.count,
        hcalled.streamed⟩
  | some event =>
    have htexts : Texts gateway.lib events (squash (deltas gateway.lib (taken ++ [item])))
        (gather gateway event turn) := by
      have hdelta : delta gateway.lib item = stream_event_text gateway.lib event := by
        unfold delta
        rw [hevent]
        rfl
      rw [deltas_append, squash_append, hdelta]
      exact texts_gather h.texts event
    obtain ⟨-, -, -, -, hposition⟩ := gather_frame gateway turn event
    have htaken : events.take (gather gateway event turn).position = taken := by
      rw [hposition, h.position, hevents, List.take_left']
      rfl
    obtain ⟨turn', htake, htexts', hcalled', hposition'⟩ := take_tool_call_spec hmax haccepts hevent
      hhash htaken htexts (called_gather h.called event) rfl
    refine ⟨{ turn' with position := turn'.position + 1 }, ?_, ?_, ?_, ?_⟩
    · have hevent_run : (take_event gateway event).run turn = .ok () turn' := by
        unfold take_event
        rw [modify_bind]
        exact htake
      show (take_event gateway event >>= fun _ => modify fun turn =>
        { turn with position := turn.position + 1 }).run turn = _
      rw [bind_ok hevent_run]
      rfl
    · show turn'.position + 1 = _
      rw [hposition', hposition, h.position]
      simp
    · exact ⟨htexts'.text, htexts'.flag, htexts'.ordered⟩
    · exact ⟨hcalled'.keys, hcalled'.once, hcalled'.calls, hcalled'.hashes, hcalled'.count,
        hcalled'.streamed⟩

theorem take_item_raises (gateway : Gateway F) {item : Dict F} (hhash : ¬Hashable item) (turn : Turn F) :
    ∃ turn', (take_item gateway item).run turn = .error .raised turn' := by
  unfold Hashable at hhash
  push Not at hhash
  obtain ⟨id, update, hupdate, hnone⟩ := hhash
  have hnone : terminal update = none := by simpa using hnone
  obtain ⟨event, hevent⟩ := event_of_tool_update hupdate
  obtain ⟨-, state, hstate, hinvocation⟩ := invocation_of_update gateway.lib hevent hupdate
    (gather gateway event turn).acp_tool_calls
  have hraises : (take_tool_call gateway event).run (gather gateway event turn)
      = .error .raised (gather gateway event turn) := by
    unfold take_tool_call
    rw [get_bind, hinvocation, terminal_acp_state_eq_none hstate hnone]
    rfl
  refine ⟨gather gateway event turn, ?_⟩
  unfold take_item
  rw [hevent]
  have hevent_run : (take_event gateway event).run turn
      = .error .raised (gather gateway event turn) := by
    unfold take_event
    rw [modify_bind]
    exact hraises
  show (take_event gateway event >>= fun _ => modify fun turn =>
    { turn with position := turn.position + 1 }).run turn = _
  rw [bind_error hevent_run]

/-- **The loop.** It comes to the final item if every status has a hash, and else ends with an
exception. -/
theorem deliver_spec (hmax : 0 < gateway.chunk_max) (haccepts : ∀ n, gateway.accepts n = true)
    {final : Dict F} (hfinal : is_final final = true) (hcompleted : is_failed final = false)
    (tail : List (Dict F)) (rest : List (Dict F)) (hrest : ∀ item ∈ rest, is_final item = false)
    (hevents : events = taken ++ rest) (h : Kept gateway.lib events taken turn) :
    (∀ item ∈ rest, Hashable item) ∧ (∃ turn', Kept gateway.lib events events turn'
        ∧ (deliver_streamed_response gateway (rest ++ final :: tail)).run turn
          = (finish gateway final).run turn')
      ∨ ¬(∀ item ∈ rest, Hashable item)
        ∧ ∃ turn', (deliver_streamed_response gateway (rest ++ final :: tail)).run turn
          = .error .raised turn' := by
  induction rest generalizing taken turn with
  | nil =>
    refine Or.inl ⟨by simp, turn, ?_, ?_⟩
    · rw [hevents, List.append_nil] at h ⊢
      exact h
    · rw [List.nil_append, deliver_streamed_response, hfinal, hcompleted]
      rfl
  | cons item rest ih =>
    have hitem : is_final item = false := hrest item List.mem_cons_self
    have hstep : (deliver_streamed_response gateway (item :: rest ++ final :: tail)).run turn
        = (take_item gateway item >>= fun _ =>
          deliver_streamed_response gateway (rest ++ final :: tail)).run turn := by
      rw [List.cons_append, deliver_streamed_response, hitem]
      rfl
    rw [hstep]
    by_cases hhash : Hashable item
    · obtain ⟨turn', htake, hkept⟩ := take_item_spec hmax haccepts hevents hhash h
      rw [bind_ok htake]
      have hevents' : events = (taken ++ [item]) ++ rest := by
        rw [hevents, List.append_assoc]
        rfl
      rcases ih (fun i hi => hrest i (List.mem_cons_of_mem _ hi)) hevents' hkept with
        ⟨hall, hrun⟩ | ⟨hnot, hraised⟩
      · refine Or.inl ⟨?_, hrun⟩
        intro i hi
        rcases List.mem_cons.1 hi with rfl | hi
        · exact hhash
        · exact hall i hi
      · exact Or.inr ⟨fun hall => hnot fun i hi => hall i (List.mem_cons_of_mem _ hi), hraised⟩
    · obtain ⟨turn', hraised⟩ := take_item_raises gateway hhash turn
      exact Or.inr ⟨fun hall => hhash (hall item List.mem_cons_self), turn', bind_error hraised⟩

end Loop

/-! ## The end of the stream -/

/-- What is to be said of announcements, of what has been sent. -/
structure Announced (lib : Library F) (events : List (Dict F)) (sent : List Outbound) : Prop where
  once : ∀ key, announcements key sent ≤ 1
  shown : ∀ key, Shown key events → announcements key sent = 1
  fallback : ∀ outbound ∈ sent, ∀ key, outbound.origin = .tool key →
    ∀ outbound' ∈ sent, outbound'.origin ≠ .final_tool
  ordered : Ordered lib events sent

theorem Announced.append {lib : Library F} {events : List (Dict F)} {sent : List Outbound}
    {outbound : Outbound} (h : Announced lib events sent) (hother : outbound.origin.is_tool = false) :
    Announced lib events (sent ++ [outbound]) := by
  have hsame : ∀ key, announcements key (sent ++ [outbound]) = announcements key sent := by
    intro key
    have hne : outbound.origin ≠ .tool (some key) := by
      intro horigin
      rw [horigin] at hother
      cases hother
    rw [announcements_append]
    simp [announcements, hne]
  have hmem : ∀ other ∈ sent ++ [outbound], other.origin.is_tool = true → other ∈ sent := by
    intro other hmem htool
    rcases List.mem_append.1 hmem with hmem | hmem
    · exact hmem
    · obtain rfl := List.mem_singleton.1 hmem
      rw [hother] at htool
      cases htool
  refine ⟨?_, ?_, ?_, ?_⟩
  · intro key
    rw [hsame]
    exact h.once key
  · intro key hshown
    rw [hsame]
    exact h.shown key hshown
  · intro tool hin key htool other hin' hfinal
    have htool' : tool ∈ sent := hmem tool hin (by rw [htool]; rfl)
    have hother' : other ∈ sent := hmem other hin' (by rw [hfinal]; rfl)
    exact h.fallback tool htool' key htool other hother' hfinal
  · refine ordered_append h.ordered ?_
    intro htool
    rw [hother] at htool
    cases htool

section Finish

variable {gateway : Gateway F} (hmax : 0 < gateway.chunk_max)
  (haccepts : ∀ n, gateway.accepts n = true) {events : List (Dict F)} {so_far : Str}

include hmax haccepts

/-- The messages for the tool calls of the final item come after all texts. -/
theorem send_messages_spec (messages : List Str) {turn : Turn F}
    (h : Texts gateway.lib events so_far turn) (hpending : turn.pending_text = [])
    (hso_far : so_far = squash (deltas gateway.lib (events.take turn.position))) :
    ∃ turn', (send_messages gateway messages).run turn = .ok () turn'
      ∧ Texts gateway.lib events so_far turn' ∧ turn'.pending_text = []
      ∧ (∀ key, announcements key turn'.sent = announcements key turn.sent)
      ∧ ∀ outbound ∈ turn'.sent, outbound ∈ turn.sent ∨ outbound.origin = .final_tool := by
  induction messages generalizing turn with
  | nil => exact ⟨turn, rfl, h, hpending, fun _ => rfl, fun _ => Or.inl⟩
  | cons message messages ih =>
    obtain ⟨turn₁, hsend, hsent⟩ := send_outbound_spec hmax haccepts message .final_tool false turn
    have htexts₁ := h.sent_tool hpending hso_far rfl hsent
    have hpending₁ : turn₁.pending_text = [] := by
      rw [hsent.pending_text]
      exact hpending
    obtain ⟨turn', hrun, htexts', hpending', hannounced, hmem⟩ := ih htexts₁ hpending₁
      (by rw [hsent.position]; exact hso_far)
    refine ⟨turn', ?_, htexts', hpending', ?_, ?_⟩
    · unfold send_messages
      rw [bind_ok hsend]
      exact hrun
    · intro key
      rw [hannounced, hsent.announcements, if_neg (by simp)]
      rfl
    · intro outbound hin
      rcases hmem outbound hin with hin | hfinal
      · exact hsent.mem hin
      · exact Or.inr hfinal

/-- The tool calls of the final item are told of only if nothing was announced. -/
theorem send_final_tool_calls_spec {turn : Turn F} (final : Dict F)
    (h : Texts gateway.lib events so_far turn) (hcalled : Called events turn)
    (hpending : turn.pending_text = [])
    (hso_far : so_far = squash (deltas gateway.lib (events.take turn.position))) :
    ∃ turn', (send_final_tool_calls gateway final).run turn = .ok () turn'
      ∧ Texts gateway.lib events so_far turn' ∧ turn'.pending_text = []
      ∧ Announced gateway.lib events turn'.sent := by
  have honce : ∀ key, announcements key turn.sent ≤ 1 := by
    intro key
    rw [hcalled.once]
    split
    · exact le_refl 1
    · exact Nat.zero_le 1
  have hshown : ∀ key, Shown key events → announcements key turn.sent = 1 := by
    intro key hkey
    rw [hcalled.once, if_pos ((hcalled.keys key).2 hkey)]
  unfold send_final_tool_calls
  by_cases hcount : turn.sent_tool_call_count = 0
  · obtain ⟨turn', hrun, htexts', hpending', hannounced, hmem⟩ := send_messages_spec hmax haccepts
      (extract_tool_call_messages gateway.lib final) h hpending hso_far
    refine ⟨turn', ?_, htexts', hpending', ?_, ?_, ?_, htexts'.ordered⟩
    · rw [get_bind, if_pos hcount]
      exact hrun
    · intro key
      rw [hannounced]
      exact honce key
    · intro key hkey
      rw [hannounced]
      exact hshown key hkey
    · intro outbound hin key htool
      rcases hmem outbound hin with hin | hfinal
      · exact absurd htool (hcalled.count hcount outbound hin key)
      · rw [hfinal] at htool
        cases htool
  · refine ⟨turn, ?_, h, hpending, honce, hshown, ?_, h.ordered⟩
    · rw [get_bind, if_neg hcount]
      rfl
    · intro outbound hin key htool other hother
      exact hcalled.streamed other hother

/-- **`finish`** delivers the rest. -/
theorem finish_spec {turn : Turn F} (final : Dict F) (h : Kept gateway.lib events events turn) :
    ∃ turn', (finish gateway final).run turn = .ok () turn'
      ∧ Delivered gateway.lib events final turn' := by
  obtain ⟨turn₁, hflush, htexts₁, hpending₁, hquiet⟩ := flush_spec hmax haccepts h.texts
  have hcalled₁ := h.called.of_quiet hquiet
  have hposition₁ : turn₁.position = events.length := hquiet.position.trans h.position
  obtain ⟨turn₂, htools, htexts₂, hpending₂, hannounced₂⟩ := send_final_tool_calls_spec hmax haccepts
    final htexts₁ hcalled₁ hpending₁ (by rw [hposition₁, List.take_length])
  have htext₂ : assistant_text turn₂.sent = squash (deltas gateway.lib events) := by
    have htext := htexts₂.text
    rw [hpending₂] at htext
    simpa [squash] using htext
  -- the final reply is sent exactly if no text was
  have hreply : ∃ turn₃, (send_final_reply gateway final).run turn₂ = .ok () turn₃
      ∧ Announced gateway.lib events turn₃.sent
      ∧ assistant_text turn₃.sent = if squash (deltas gateway.lib events) = [] then
          squash (extract_assistant_text final) else squash (deltas gateway.lib events) := by
    unfold send_final_reply
    simp only []
    rw [get_bind]
    by_cases hblank : squash (deltas gateway.lib events) = []
    · have hflag : turn₂.sent_assistant_text = false := by
        by_contra hflag
        have htrue : turn₂.sent_assistant_text = true := by simpa using hflag
        exact htexts₂.flag.1 htrue (htext₂.trans hblank)
      rw [if_pos hblank, hflag]
      by_cases hempty : (extract_assistant_text final).isEmpty = true
      · refine ⟨turn₂, ?_, hannounced₂, ?_⟩
        · rw [hempty]
          rfl
        · rw [htext₂, hblank, List.isEmpty_iff.1 hempty]
          rfl
      · obtain ⟨turn₃, hsend, hsent⟩ := send_outbound_spec hmax haccepts (extract_assistant_text final)
          .assistant true turn₂
        refine ⟨turn₃, ?_, ?_, ?_⟩
        · rw [if_pos (by simp [hempty])]
          exact hsend
        · rcases hsent.sent with ⟨-, hsame⟩ | ⟨-, chunks, -, hmore⟩
          · rw [hsame]
            exact hannounced₂
          · rw [hmore]
            exact hannounced₂.append rfl
        · rw [hsent.assistant_text, htext₂, hblank, if_pos rfl]
          rfl
    · have hflag : turn₂.sent_assistant_text = true := by
        refine htexts₂.flag.2 ?_
        rw [htext₂]
        exact hblank
      rw [if_neg hblank, hflag]
      exact ⟨turn₂, rfl, hannounced₂, htext₂⟩
  obtain ⟨turn₃, hrun₃, hannounced₃, htext₃⟩ := hreply
  have hbefore : (finish gateway final).run turn = (get >>= fun turn : Turn F =>
      if turn.sent_any_message then pure () else send_notice gateway : Delivery F Unit).run turn₃ := by
    unfold finish
    rw [bind_ok hflush, bind_ok htools, bind_ok hrun₃]
  rw [hbefore, get_bind]
  by_cases hany : turn₃.sent_any_message = true
  · rw [if_pos hany]
    exact ⟨turn₃, rfl, htext₃, hannounced₃.once, hannounced₃.shown, hannounced₃.fallback,
      hannounced₃.ordered⟩
  · rw [if_neg hany]
    have hnotice : ∀ chunks, Announced gateway.lib events
        (turn₃.sent ++ [⟨.notice, chunks, turn₃.position⟩]) := fun _ => hannounced₃.append rfl
    have hannounced₄ := hnotice
      (send_all gateway.accepts [str "(agent produced no reply)"] turn₃.sends).1
    refine ⟨_, rfl, ?_, hannounced₄.once, hannounced₄.shown, hannounced₄.fallback,
      hannounced₄.ordered⟩
    show assistant_text (turn₃.sent ++ [_]) = _
    rw [assistant_text_append, htext₃]
    simp [assistant_text]

end Finish

/-- A gateway whose channel accepts everything. -/
def sample_gateway : Gateway ℚ where
  lib := ⟨fun x => Telemetry.Otel.int_repr x.num, fun _ => str "\x7b\x7d", fun _ => str "\x7b\x7d"⟩
  chunk_max := 1900
  simulated_typing := false
  accepts := fun _ => true

/-- An item with an event. -/
def event_item (event : Dict ℚ) : Dict ℚ := [(str "type", .string (str "event")), (str "event", .object event)]

/-- A text delta. -/
def text_item (text : String) : Dict ℚ :=
  event_item [(str "type", .string (str "text_delta")), (str "content", .string (str text))]

/-- An update of the tool call `t1`. -/
def update_item (fields : Dict ℚ) : Dict ℚ :=
  event_item [(str "type", .string (str "session/update")), (str "update", .object
    ((str "sessionUpdate", .string (str "tool_call_update"))
      :: (str "toolCallId", .string (str "t1")) :: fields))]

/-- The final item. -/
def final_item : Dict ℚ := [(str "type", .string (str "final")), (str "completed", .bool true)]

/-- A text, a tool call that has no input to show at first, and another text. -/
def sample_stream : List (Dict ℚ) :=
  [text_item "Hello", update_item [(str "rawInput", .object [])],
    update_item [(str "status", .string (str "completed"))], text_item " world"]

/-- A text, and an update of a tool call whose status is an array. -/
def stream_with_bad_status : List (Dict ℚ) :=
  [text_item "Hello", update_item [(str "status", .array [.string (str "completed")])]]

end AgentSpace.Discord
