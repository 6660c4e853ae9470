/-
Attaching to a running turn: the session that the client has fetched, and the stream of the turn.

The service stores the message of a turn after each event, and then sends the event. The client
shows the message it has fetched last, and applies each event that arrives to it.
`event_shown_twice` is a run in which the two do not fit together.
-/
import AgentSpace.Chat.LiveView
import AgentSpace.Lib.Transition

set_option autoImplicit false

namespace AgentSpace.Chat

open Lib Text Chat.Service Chat.Client

variable {N : Type} (numbers : Numbers N)

/-! ## The parties -/

/-- What `get_session` has read: the message, if the session has it, and of how many events it is,
and then whether the turn is active. -/
structure Fetched where
  message : Option MessageRecord
  count : ℕ
  active : Option Bool

/-- An item of the stream. -/
inductive Item (N : Type) where
  | event (event : KernelEvent N)
  | final (message : MessageRecord)

/-- A turn, a client that did not begin it, and what is between them. -/
structure Turn (N : Type) where
  /-- The message is in the session. -/
  appended : Bool
  /-- The events whose message is stored. -/
  events : List (KernelEvent N)
  /-- How many events were sent. -/
  sent : ℕ
  /-- `final_payload` is there. -/
  done : Bool
  /-- The turn is in `active_turns`. -/
  active : Bool
  /-- The fetches of the client that it has no answer to. -/
  fetched : List Fetched
  /-- The client has asked for the stream. -/
  requested : Bool
  /-- The items of the client's subscription that have not arrived. -/
  stream : Option (List (Item N))
  /-- `streamingTurnIdRef` is the turn. -/
  streaming : Bool
  /-- The turn is the `active_turn` of the session in the cache. -/
  offered : Bool
  /-- The message in the cache, and of how many events it is. -/
  view : Option ChatMessage
  position : ℕ

/-- A turn that is registered. -/
def Turn.begin : Turn N := ⟨false, [], 0, false, true, [], false, none, false, false, none, 0⟩

/-- `MessageRecord::summary`, as the client reads it. -/
def ChatMessage.of_record (message : MessageRecord) : ChatMessage where
  content := message.content
  reasoning := if message.reasoning = [] then none else some message.reasoning
  tool_calls := if message.tool_calls = [] then none else some message.tool_calls

/-- What happens. -/
inductive Action (N : Type) where
  /-- `start_streaming_turn` appends the message. -/
  | append
  /-- `run_streaming_turn` stores the message with an event. -/
  | store (event : KernelEvent N)
  /-- `send_stream_item`, of the event. -/
  | send
  /-- `send_stream_item`, of the final payload. -/
  | finish
  /-- The guard of the turn is dropped. -/
  | release
  /-- `get_session` reads the session. -/
  | fetch
  /-- It looks for the active turn. -/
  | look (index : ℕ)
  /-- Its answer arrives. -/
  | deliver (index : ℕ)
  /-- The effect asks for the stream. -/
  | attach
  /-- `subscribe_active_turn`. -/
  | subscribe
  /-- `subscribe_active_turn` does not find the turn. -/
  | refuse
  /-- An item of the stream arrives. -/
  | arrive
  /-- The stream ends early, or is aborted. -/
  | lose

/-- The message that is stored. -/
def Turn.stored (s : Turn N) : MessageRecord := assistant_message_from_events (rust numbers) s.events

/-- The final payload, if it is there. -/
def Turn.final_payload (s : Turn N) : List (Item N) := if s.done then [.final (s.stored numbers)] else []

/-- A fetched session is in the cache. -/
def Turn.show_fetched (s : Turn N) (fetched : Fetched) (active : Bool) : Turn N :=
  { s with
    view := fetched.message.map ChatMessage.of_record
    position := fetched.count
    offered := active }

/-- `onEvent`, and `onFinal`. -/
def Turn.apply_item (s : Turn N) : Item N → Turn N
  | .event event => { s with
      view := s.view.map fun message => apply_event_to_assistant (js numbers) message event
      position := s.position + 1 }
  | .final message => { s with
      view := some (ChatMessage.of_record message)
      position := s.events.length
      stream := none
      streaming := false }

/-- What follows an action, where it can happen. -/
def Turn.step (s : Turn N) : Action N → Option (Turn N)
  | .append => some { s with appended := true }
  | .store event =>
    if s.appended = true ∧ s.done = false ∧ s.sent = s.events.length then
      some { s with events := s.events ++ [event] }
    else none
  | .send =>
    match s.events[s.sent]? with
    | some event => some { s with
        sent := s.sent + 1
        stream := s.stream.map fun items => items ++ [.event event] }
    | none => none
  | .finish =>
    if s.appended = true ∧ s.done = false ∧ s.sent = s.events.length then some { s with
      done := true
      stream := s.stream.map fun items => items ++ [.final (s.stored numbers)] }
    else none
  | .release => if s.done then some { s with active := false } else none
  | .fetch => some { s with fetched := s.fetched ++
      [⟨if s.appended then some (s.stored numbers) else none, s.events.length, none⟩] }
  | .look index => some { s with
      fetched := s.fetched.modify index fun fetched => { fetched with active := some s.active } }
  | .deliver index => do
    let fetched ← s.fetched[index]?
    let active ← fetched.active
    some { s.show_fetched fetched active with fetched := s.fetched.eraseIdx index }
  | .attach =>
    if s.offered = true ∧ s.streaming = false then some { s with requested := true, streaming := true }
    else none
  | .subscribe =>
    if s.requested = true ∧ s.active = true then some { s with
      requested := false
      stream := some (s.final_payload numbers) }
    else none
  | .refuse =>
    if s.requested = true ∧ s.active = false then some { s with requested := false, streaming := false }
    else none
  | .arrive =>
    match s.stream with
    | some (item :: items) => some ({ s with stream := some items }.apply_item numbers item)
    | _ => none
  | .lose => some { s with requested := false, stream := none, streaming := false }

/-- A step. -/
def Step (s : Turn N) (action : Action N) (t : Turn N) : Prop := s.step numbers action = some t

/-! ## What is expected -/

/-- A message of the client is the service's message for events, but for blanks around its texts. -/
structure Matches (message : ChatMessage) (events : List (KernelEvent N)) : Prop where
  content : trim message.content = (assistant_message_from_events (rust numbers) events).content
  reasoning : trim (message.reasoning.getD []) = (assistant_message_from_events (rust numbers) events).reasoning
  tool_calls : message.tool_calls.getD [] = (assistant_message_from_events (rust numbers) events).tool_calls

/-- What is shown is the message of the events that it stands for. -/
def Shows (s : Turn N) : Prop :=
  s.position ≤ s.events.length ∧ ∀ message, s.view = some message →
    Matches numbers message (s.events.take s.position)

/-! ## Careful runs -/

/-- Nothing is trimmed at the end of the text and of the reasoning of events. -/
def Untrimmed (events : List (KernelEvent N)) : Prop :=
  trim (streamed numbers events) = trim_start (streamed numbers events)
    ∧ trim (reasoned numbers events) = trim_start (reasoned numbers events)

/-- The condition on a step. -/
def Careful (s : Turn N) (action : Action N) (_ : Turn N) : Prop :=
  match action with
  | .store event => Faithful numbers s.events event
      ∧ (adds_call s.events event → js_trim (streamed numbers s.events) = trim (streamed numbers s.events))
  | .deliver index => ∀ fetched, s.fetched[index]? = some fetched →
      s.position ≤ fetched.count ∧ (s.stream ≠ none → fetched.count = s.position)
        ∧ (s.streaming = true → Untrimmed numbers (s.events.take fetched.count))
  | .attach => Untrimmed numbers (s.events.take s.position)
  | .subscribe => s.done = false → s.position = s.sent
  | _ => True

variable {numbers}

/-! ## Blanks -/

/-- All characters are blanks. -/
def Blank (text : Text) : Prop := ∀ c ∈ text, is_whitespace c = true

theorem trim_start_blank_append {blanks : Text} (h : Blank blanks) (text : Text) :
    trim_start (blanks ++ text) = trim_start text :=
  List.dropWhile_append_of_pos h

theorem trim_blank_append {blanks : Text} (h : Blank blanks) (text : Text) :
    trim (blanks ++ text) = trim text := by
  unfold trim
  rw [trim_start_blank_append h]

theorem blanks_append_trim_start (text : Text) :
    ∃ blanks, Blank blanks ∧ text = blanks ++ trim_start text := by
  refine ⟨text.takeWhile is_whitespace, ?_, List.takeWhile_append_dropWhile.symm⟩
  intro c hc
  exact List.mem_takeWhile_imp hc

theorem js_trim_of_blank_append {blanks text : Text} (hblanks : Blank blanks)
    (h : js_trim (blanks ++ text) = trim (blanks ++ text)) : js_trim text = trim text := by
  induction blanks with
  | nil => exact h
  | cons c blanks ih =>
    have hc : is_whitespace c = true := hblanks c List.mem_cons_self
    have hrest : Blank blanks := fun d hd => hblanks d (List.mem_cons_of_mem c hd)
    have hfirst : Blank [c] := by simpa [Blank] using hc
    have htrim : trim (c :: (blanks ++ text)) = trim (blanks ++ text) :=
      trim_blank_append hfirst (blanks ++ text)
    refine ih hrest ?_
    rw [List.cons_append, htrim] at h
    rw [← h]
    cases hjs : is_js_space c with
    | true =>
      unfold js_trim
      rw [List.dropWhile_cons_of_pos hjs]
    | false =>
      -- then the trimmed text begins with a blank
      have hhead : (js_trim (c :: (blanks ++ text))).head? = some c := by
        unfold js_trim
        rw [List.dropWhile_cons_of_neg (by simp [hjs])]
        have hne : (c :: (blanks ++ text)).rdropWhile is_js_space ≠ [] := by
          intro hnil
          have hall := List.rdropWhile_eq_nil_iff.1 hnil c List.mem_cons_self
          rw [hjs] at hall
          cases hall
        obtain ⟨d, rest, hsplit⟩ := List.exists_cons_of_ne_nil hne
        obtain ⟨tail, htail⟩ := List.rdropWhile_prefix is_js_space (c :: (blanks ++ text))
        rw [hsplit, List.cons_append] at htail
        rw [hsplit, (List.cons.inj htail).1]
        rfl
      have hblank := head?_trim (blanks ++ text) c (by rw [← h, hhead]; rfl)
      rw [hc] at hblank
      cases hblank

/-! ## Messages to go on from -/

/-- A message to which events can be applied: it follows the service but for blanks. -/
def Resumable (numbers : Numbers N) (events : List (KernelEvent N)) (message : ChatMessage) : Prop :=
  ∃ text reasoning, Blank text ∧ Blank reasoning
    ∧ Follows numbers events text reasoning message (extracted (rust numbers) events)

/-- Both sides read all events alike, and trim alike where a tool call begins. -/
def ReadAlike (numbers : Numbers N) (events : List (KernelEvent N)) : Prop :=
  ∀ before event after, events = before ++ event :: after → Faithful numbers before event
    ∧ (adds_call before event → js_trim (streamed numbers before) = trim (streamed numbers before))

variable {events : List (KernelEvent N)}

theorem ReadAlike.faithful_events (h : ReadAlike numbers events) : FaithfulEvents numbers events := by
  intro before event after heq
  obtain ⟨hfaithful, htrim⟩ := h before event after heq
  exact ⟨hfaithful, fun hadds => congrArg List.length (htrim hadds)⟩

theorem ReadAlike.of_append {events more : List (KernelEvent N)} (h : ReadAlike numbers (events ++ more)) :
    ReadAlike numbers events := by
  intro before event after heq
  refine h before event (after ++ more) ?_
  rw [heq, List.append_assoc, List.cons_append]

theorem ReadAlike.take (h : ReadAlike numbers events) (k : ℕ) : ReadAlike numbers (events.take k) := by
  rw [← List.take_append_drop k events] at h
  exact h.of_append

theorem ReadAlike.snoc {event : KernelEvent N}
    (h : ReadAlike numbers events) (hf : Faithful numbers events event)
    (htrim : adds_call events event → js_trim (streamed numbers events) = trim (streamed numbers events)) :
    ReadAlike numbers (events ++ [event]) := by
  intro before other after heq
  induction after using List.reverseRecOn with
  | nil =>
    obtain ⟨rfl, hlast⟩ := List.append_inj' heq rfl
    obtain rfl : event = other := (List.cons.inj hlast).1
    exact ⟨hf, htrim⟩
  | append_singleton after last =>
    have hsplit : events ++ [event] = (before ++ other :: after) ++ [last] := by
      rw [heq, List.append_assoc, List.cons_append]
    obtain ⟨rfl, -⟩ := List.append_inj' hsplit rfl
    exact h before other after rfl

theorem Resumable.matches {message : ChatMessage}
    (h : Resumable numbers events message) : Matches numbers message events := by
  obtain ⟨text, reasoning, htext, hreasoning, hfollows⟩ := h
  refine ⟨?_, ?_, hfollows.calls⟩
  · show _ = trim (streamed numbers events)
    rw [← hfollows.streamed, hfollows.content, trim_blank_append htext]
  · show _ = trim (reasoned numbers events)
    rw [hfollows.reasoning, trim_blank_append hreasoning]

/-- The next event. -/
theorem Resumable.apply {event : KernelEvent N} {message : ChatMessage}
    (h : Resumable numbers events message) (hf : Faithful numbers events event)
    (htrim : adds_call events event → js_trim (streamed numbers events) = trim (streamed numbers events)) :
    Resumable numbers (events ++ [event]) (apply_event_to_assistant (js numbers) message event) := by
  obtain ⟨text, reasoning, htext, hreasoning, hfollows⟩ := h
  have hoffset : adds_call events event → trimmed_length message.content
      = trimmed_char_count (extracted (rust numbers) events).content := by
    intro hadds
    have hsame := htrim hadds
    rw [← hfollows.streamed, hfollows.content] at hsame
    unfold trimmed_length trimmed_char_count
    rw [js_trim_of_blank_append htext hsame, hfollows.content, trim_blank_append htext]
  refine ⟨text, reasoning, htext, hreasoning, ?_⟩
  have hstep := hfollows.step hf hoffset
  unfold extracted at hstep ⊢
  rw [List.foldl_append]
  exact hstep

theorem of_record_reasoning (message : MessageRecord) :
    (ChatMessage.of_record message).reasoning.getD [] = message.reasoning := by
  unfold ChatMessage.of_record
  by_cases h : message.reasoning = []
  · simp [h]
  · simp [h]

theorem of_record_tool_calls (message : MessageRecord) :
    (ChatMessage.of_record message).tool_calls.getD [] = message.tool_calls := by
  unfold ChatMessage.of_record
  by_cases h : message.tool_calls = []
  · simp [h]
  · simp [h]

theorem matches_of_record (events : List (KernelEvent N)) :
    Matches numbers (ChatMessage.of_record (assistant_message_from_events (rust numbers) events)) events := by
  refine ⟨trim_trim _, ?_, of_record_tool_calls _⟩
  rw [of_record_reasoning]
  exact trim_trim _

/-- Events can be applied to a stored message when nothing was trimmed at its ends. -/
theorem resumable_of_record (h : ReadAlike numbers events) (huntrimmed : Untrimmed numbers events) :
    Resumable numbers events
      (ChatMessage.of_record (assistant_message_from_events (rust numbers) events)) := by
  have hlive := follows_live_view h.faithful_events
  obtain ⟨text, htext, hcontent⟩ := blanks_append_trim_start (streamed numbers events)
  obtain ⟨reasoning, hreasoning, hreasoned⟩ := blanks_append_trim_start (reasoned numbers events)
  refine ⟨text, reasoning, htext, hreasoning, ?_, hlive.streamed, ?_, ?_, hlive.tools, hlive.by_id,
    hlive.known⟩
  · show _ = text ++ trim (streamed numbers events)
    rw [huntrimmed.1, ← hcontent]
    exact hlive.streamed
  · rw [of_record_reasoning]
    show _ = reasoning ++ trim (reasoned numbers events)
    rw [huntrimmed.2, ← hreasoned]
  · rw [of_record_tool_calls]
    rfl

/-! ## The invariant -/

/-- The items of a subscription: the events that were sent and are not in the message yet, or the
final payload only. -/
def Queued (numbers : Numbers N) (s : Turn N) (items : List (Item N)) : Prop :=
  ∃ pending : List (KernelEvent N), items = pending.map Item.event ++ s.final_payload numbers
    ∧ (s.done = true ∧ pending = []
      ∨ s.position ≤ s.sent ∧ pending = (s.events.take s.sent).drop s.position)

/-- What holds throughout careful runs. -/
structure Accounted (numbers : Numbers N) (s : Turn N) : Prop where
  alike : ReadAlike numbers s.events
  sent : s.sent ≤ s.events.length
  finished : s.done = true → s.sent = s.events.length
  fetched : ∀ r ∈ s.fetched, r.count ≤ s.events.length ∧ ∀ message, r.message = some message →
    message = assistant_message_from_events (rust numbers) (s.events.take r.count)
  position : s.position ≤ s.events.length
  view : ∀ message, s.view = some message → Resumable numbers (s.events.take s.position) message
    ∨ s.streaming = false ∧ message = ChatMessage.of_record
      (assistant_message_from_events (rust numbers) (s.events.take s.position))
  requested : s.requested = true → s.streaming = true ∧ s.stream = none
  subscribed : s.stream ≠ none → s.streaming = true
  stream : ∀ items, s.stream = some items → Queued numbers s items

theorem Accounted.shows {s : Turn N} (h : Accounted numbers s) : Shows numbers s := by
  refine ⟨h.position, ?_⟩
  intro message hview
  rcases h.view message hview with hresumable | ⟨-, rfl⟩
  · exact hresumable.matches
  · exact matches_of_record _

theorem accounted_begin : Accounted numbers Turn.begin := by
  refine ⟨?_, Nat.le_refl 0, fun _ => rfl, ?_, Nat.le_refl 0, ?_, ?_, ?_, ?_⟩
  · intro before event after heq
    simp [Turn.begin] at heq
  · intro r hr
    cases hr
  · intro message hview
    cases hview
  · intro hrequested
    cases hrequested
  · intro hstream
    exact absurd rfl hstream
  · intro items hitems
    cases hitems

section Steps

variable {s t : Turn N}

/-- One more event is stored. -/
theorem Accounted.store (h : Accounted numbers s) {event : KernelEvent N} (hdone : s.done = false)
    (hf : Faithful numbers s.events event)
    (htrim : adds_call s.events event → js_trim (streamed numbers s.events)
      = trim (streamed numbers s.events)) : Accounted numbers { s with events := s.events ++ [event] } := by
  have htake : ∀ {k : ℕ}, k ≤ s.events.length → (s.events ++ [event]).take k = s.events.take k :=
    fun hk => List.take_append_of_le_length hk
  have hlength : (s.events ++ [event]).length = s.events.length + 1 := List.length_append
  refine ⟨h.alike.snoc hf htrim, ?_, ?_, ?_, ?_, ?_, h.requested, h.subscribed, ?_⟩
  · show s.sent ≤ (s.events ++ [event]).length
    have hsent := h.sent
    omega
  · intro hover
    rw [show s.done = true from hover] at hdone
    cases hdone
  · intro r hr
    obtain ⟨hcount, hmessage⟩ := h.fetched r hr
    refine ⟨?_, ?_⟩
    · show r.count ≤ (s.events ++ [event]).length
      omega
    · show ∀ message, _ → message = assistant_message_from_events _ ((s.events ++ [event]).take r.count)
      rw [htake hcount]
      exact hmessage
  · show s.position ≤ (s.events ++ [event]).length
    have hposition := h.position
    omega
  · show ∀ message, _ → Resumable numbers ((s.events ++ [event]).take s.position) message ∨ _ ∧
      message = ChatMessage.of_record
        (assistant_message_from_events (rust numbers) ((s.events ++ [event]).take s.position))
    rw [htake h.position]
    exact h.view
  · intro items hitems
    obtain ⟨pending, hsplit, hpending⟩ := h.stream items hitems
    have hfinal : ∀ events, ({ s with events := events } : Turn N).final_payload numbers = [] := by
      intro events
      unfold Turn.final_payload
      simp [hdone]
    refine ⟨pending, ?_, ?_⟩
    · rw [hfinal]
      rw [show s.final_payload numbers = [] from hfinal s.events] at hsplit
      exact hsplit
    · show s.done = true ∧ _ ∨ s.position ≤ s.sent ∧ pending
        = ((s.events ++ [event]).take s.sent).drop s.position
      rw [htake h.sent]
      exact hpending

theorem Accounted.send (h : Accounted numbers s) {event : KernelEvent N}
    (hnext : s.events[s.sent]? = some event) :
    Accounted numbers { s with
      sent := s.sent + 1
      stream := s.stream.map fun items => items ++ [.event event] } := by
  obtain ⟨hlt, hget⟩ := List.getElem?_eq_some_iff.1 hnext
  have hdone : s.done = false := by
    by_contra hover
    have hall := h.finished (by simpa using hover)
    omega
  refine ⟨h.alike, hlt, ?_, h.fetched, h.position, h.view, ?_, ?_, ?_⟩
  · intro hover
    rw [show s.done = true from hover] at hdone
    cases hdone
  · intro hrequested
    obtain ⟨hstreaming, hnone⟩ := h.requested hrequested
    exact ⟨hstreaming, by rw [hnone]; rfl⟩
  · intro hstream
    exact h.subscribed fun hnone => hstream (by rw [hnone]; rfl)
  · intro items hitems
    obtain ⟨before, hbefore, rfl⟩ := Option.map_eq_some_iff.1 hitems
    obtain ⟨pending, hsplit, hpending⟩ := h.stream before hbefore
    have hfinal : s.final_payload numbers = [] := by
      unfold Turn.final_payload
      simp [hdone]
    rcases hpending with ⟨hover, -⟩ | ⟨hposition, rfl⟩
    · rw [hdone] at hover
      cases hover
    refine ⟨(s.events.take s.sent).drop s.position ++ [event], ?_, Or.inr ⟨Nat.le_succ_of_le hposition, ?_⟩⟩
    · show before ++ [Item.event event] = _ ++ s.final_payload numbers
      rw [hsplit, hfinal, List.append_nil, List.append_nil, List.map_append]
      rfl
    · show _ = (s.events.take (s.sent + 1)).drop s.position
      rw [List.take_add_one, hnext, List.drop_append_of_le_length]
      · rfl
      · rw [List.length_take]
        omega

theorem Accounted.finish (h : Accounted numbers s) (hdone : s.done = false)
    (hsent : s.sent = s.events.length) :
    Accounted numbers { s with
      done := true
      stream := s.stream.map fun items => items ++ [.final (s.stored numbers)] } := by
  refine ⟨h.alike, h.sent, fun _ => hsent, h.fetched, h.position, h.view, ?_, ?_, ?_⟩
  · intro hrequested
    obtain ⟨hstreaming, hnone⟩ := h.requested hrequested
    exact ⟨hstreaming, by rw [hnone]; rfl⟩
  · intro hstream
    exact h.subscribed fun hnone => hstream (by rw [hnone]; rfl)
  · intro items hitems
    obtain ⟨before, hbefore, rfl⟩ := Option.map_eq_some_iff.1 hitems
    obtain ⟨pending, hsplit, hpending⟩ := h.stream before hbefore
    have hfinal : s.final_payload numbers = [] := by
      unfold Turn.final_payload
      simp [hdone]
    rcases hpending with ⟨hover, -⟩ | hsent
    · rw [hdone] at hover
      cases hover
    refine ⟨pending, ?_, Or.inr hsent⟩
    rw [hsplit, hfinal, List.append_nil]
    rfl

theorem Accounted.fetch (h : Accounted numbers s) : Accounted numbers { s with fetched := s.fetched ++
    [⟨if s.appended then some (s.stored numbers) else none, s.events.length, none⟩] } := by
  refine ⟨h.alike, h.sent, h.finished, ?_, h.position, h.view, h.requested, h.subscribed, h.stream⟩
  intro r hr
  rcases List.mem_append.1 hr with hold | hnew
  · exact h.fetched r hold
  · obtain rfl := List.mem_singleton.1 hnew
    refine ⟨Nat.le_refl _, ?_⟩
    intro message hmessage
    show message = assistant_message_from_events (rust numbers) (s.events.take s.events.length)
    rw [List.take_length]
    by_cases happended : s.appended = true
    · simp only [happended, if_true] at hmessage
      exact (Option.some.inj hmessage).symm
    · simp [happended] at hmessage

theorem Accounted.look (h : Accounted numbers s) (index : ℕ) : Accounted numbers { s with
    fetched := s.fetched.modify index fun fetched => { fetched with active := some s.active } } :=
  ⟨h.alike, h.sent, h.finished,
    forall_modify (f := fun fetched : Fetched => { fetched with active := some s.active }) (fun _ hr => hr)
      h.fetched index,
    h.position, h.view, h.requested, h.subscribed, h.stream⟩

/-- A fetched session is shown. -/
theorem Accounted.deliver (h : Accounted numbers s) {index : ℕ} {fetched : Fetched} {active : Bool}
    (hfetched : s.fetched[index]? = some fetched) (hstream : s.stream ≠ none → fetched.count = s.position)
    (huntrimmed : s.streaming = true → Untrimmed numbers (s.events.take fetched.count)) :
    Accounted numbers { s.show_fetched fetched active with fetched := s.fetched.eraseIdx index } := by
  obtain ⟨hcount, hmessage⟩ := h.fetched fetched (List.mem_of_getElem? hfetched)
  refine ⟨h.alike, h.sent, h.finished, ?_, hcount, ?_, h.requested, h.subscribed, ?_⟩
  · intro r hr
    exact h.fetched r (List.mem_of_mem_eraseIdx hr)
  · intro message hview
    obtain ⟨record, hrecord, rfl⟩ := Option.map_eq_some_iff.1 hview
    rw [hmessage record hrecord]
    cases hstreaming : s.streaming with
    | true => exact Or.inl (resumable_of_record (h.alike.take _) (huntrimmed hstreaming))
    | false => exact Or.inr ⟨hstreaming, rfl⟩
  · intro items hitems
    have hposition := hstream (by
      intro hnone
      rw [show s.stream = some items from hitems] at hnone
      cases hnone)
    obtain ⟨pending, hsplit, hpending⟩ := h.stream items hitems
    refine ⟨pending, hsplit, ?_⟩
    show s.done = true ∧ _ ∨ fetched.count ≤ s.sent ∧ pending = (s.events.take s.sent).drop fetched.count
    rw [hposition]
    exact hpending

theorem Accounted.attach (h : Accounted numbers s) (hstreaming : s.streaming = false)
    (huntrimmed : Untrimmed numbers (s.events.take s.position)) :
    Accounted numbers { s with requested := true, streaming := true } := by
  refine ⟨h.alike, h.sent, h.finished, h.fetched, h.position, ?_, fun _ => ⟨rfl, ?_⟩, fun _ => rfl, h.stream⟩
  · intro message hview
    rcases h.view message hview with hresumable | ⟨-, rfl⟩
    · exact Or.inl hresumable
    · exact Or.inl (resumable_of_record (h.alike.take _) huntrimmed)
  · by_contra hsome
    have htrue := h.subscribed hsome
    rw [hstreaming] at htrue
    cases htrue

theorem Accounted.subscribe (h : Accounted numbers s) (hrequested : s.requested = true)
    (hposition : s.done = false → s.position = s.sent) :
    Accounted numbers { s with requested := false, stream := some (s.final_payload numbers) } := by
  refine ⟨h.alike, h.sent, h.finished, h.fetched, h.position, h.view, ?_, fun _ =>
    (h.requested hrequested).1, ?_⟩
  · intro hnot
    cases hnot
  · intro items hitems
    obtain rfl := Option.some.inj hitems
    refine ⟨[], rfl, ?_⟩
    cases hdone : s.done with
    | true => exact Or.inl ⟨rfl, rfl⟩
    | false =>
      refine Or.inr ⟨Nat.le_of_eq (hposition hdone), ?_⟩
      show [] = (s.events.take s.sent).drop s.position
      rw [hposition hdone]
      exact (List.drop_eq_nil_of_le (List.length_take_le _ _)).symm

theorem Accounted.lose (h : Accounted numbers s) :
    Accounted numbers { s with requested := false, stream := none, streaming := false } := by
  refine ⟨h.alike, h.sent, h.finished, h.fetched, h.position, ?_, ?_, ?_, ?_⟩
  · intro message hview
    rcases h.view message hview with hresumable | ⟨-, hstored⟩
    · exact Or.inl hresumable
    · exact Or.inr ⟨rfl, hstored⟩
  · intro hnot
    cases hnot
  · intro hnot
    exact absurd rfl hnot
  · intro items hitems
    cases hitems

theorem Accounted.arrive (h : Accounted numbers s) {item : Item N} {items : List (Item N)}
    (hstream : s.stream = some (item :: items)) :
    Accounted numbers ({ s with stream := some items }.apply_item numbers item)
      ∧ s.position ≤ ({ s with stream := some items }.apply_item numbers item).position := by
  obtain ⟨pending, hsplit, hpending⟩ := h.stream _ hstream
  have hstreaming := h.subscribed (by rw [hstream]; exact Option.some_ne_none _)
  cases pending with
  | nil =>
    -- the final payload
    have hdone : s.done = true := by
      by_contra hnot
      unfold Turn.final_payload at hsplit
      simp [hnot] at hsplit
    have hfinal : s.final_payload numbers = [.final (s.stored numbers)] := by
      unfold Turn.final_payload
      simp [hdone]
    rw [hfinal] at hsplit
    obtain ⟨rfl, rfl⟩ := List.cons.inj hsplit
    refine ⟨⟨h.alike, h.sent, h.finished, h.fetched, Nat.le_refl _, ?_, ?_, ?_, ?_⟩, h.position⟩
    · intro message hview
      obtain rfl := Option.some.inj hview
      refine Or.inr ⟨rfl, ?_⟩
      show _ = ChatMessage.of_record
        (assistant_message_from_events (rust numbers) (s.events.take s.events.length))
      rw [List.take_length]
      rfl
    · intro hrequested
      have hnone := (h.requested hrequested).2
      rw [hstream] at hnone
      cases hnone
    · intro hnot
      exact absurd rfl hnot
    · intro items hitems
      cases hitems
  | cons event pending =>
    obtain ⟨rfl, rfl⟩ := List.cons.inj hsplit
    rcases hpending with ⟨-, hnil⟩ | ⟨hposition, hdrop⟩
    · cases hnil
    have hlt : s.position < (s.events.take s.sent).length := by
      by_contra hge
      rw [List.drop_eq_nil_of_le (by omega)] at hdrop
      cases hdrop
    have hlt' : s.position < s.sent ∧ s.position < s.events.length := by
      rw [List.length_take] at hlt
      omega
    rw [List.drop_eq_getElem_cons hlt, List.getElem_take] at hdrop
    obtain ⟨hevent, hrest⟩ := List.cons.inj hdrop
    have htake : s.events.take (s.position + 1) = s.events.take s.position ++ [event] := by
      rw [List.take_add_one, List.getElem?_eq_getElem hlt'.2, hevent]
      rfl
    -- the event is read alike where the message stands
    obtain ⟨hfaithful, htrim⟩ := h.alike (s.events.take s.position) event (s.events.drop (s.position + 1)) (by
      rw [hevent, List.cons_getElem_drop_succ, List.take_append_drop])
    have hresumable : ∀ message, (s.view.map fun message =>
        apply_event_to_assistant (js numbers) message event) = some message →
        Resumable numbers (s.events.take (s.position + 1)) message := by
      intro message hview
      obtain ⟨before, hbefore, rfl⟩ := Option.map_eq_some_iff.1 hview
      rw [htake]
      rcases h.view before hbefore with hbefore | ⟨hidle, -⟩
      · exact hbefore.apply hfaithful htrim
      · rw [hidle] at hstreaming
        cases hstreaming
    refine ⟨⟨h.alike, h.sent, h.finished, h.fetched, hlt'.2,
      fun message hview => Or.inl (hresumable message hview), ?_, fun _ => hstreaming, ?_⟩,
      Nat.le_succ _⟩
    · intro hrequested
      have hnone := (h.requested hrequested).2
      rw [hstream] at hnone
      cases hnone
    · intro items hitems
      obtain rfl := Option.some.inj hitems
      exact ⟨pending, rfl, Or.inr ⟨hlt'.1, hrest⟩⟩

/-- **One step.** A careful step keeps the invariant, and what is shown does not shrink. -/
theorem Accounted.step (h : Accounted numbers s) {action : Action N}
    (hstep : Guarded (Step numbers) (Careful numbers) s action t) :
    Accounted numbers t ∧ s.position ≤ t.position := by
  obtain ⟨hstep, hcareful⟩ := hstep
  unfold Step at hstep
  cases action with
  | append =>
    obtain rfl := Option.some.inj hstep
    exact ⟨⟨h.alike, h.sent, h.finished, h.fetched, h.position, h.view, h.requested, h.subscribed, h.stream⟩,
      Nat.le_refl _⟩
  | store event =>
    obtain ⟨⟨-, hdone, -⟩, hstep⟩ := Option.ite_none_right_eq_some.1 hstep
    obtain rfl := Option.some.inj hstep
    exact ⟨h.store hdone hcareful.1 hcareful.2, Nat.le_refl _⟩
  | send =>
    simp only [Turn.step] at hstep
    split at hstep
    · next event hnext =>
        obtain rfl := Option.some.inj hstep
        exact ⟨h.send hnext, Nat.le_refl _⟩
    · cases hstep
  | finish =>
    obtain ⟨⟨-, hdone, hsent⟩, hstep⟩ := Option.ite_none_right_eq_some.1 hstep
    obtain rfl := Option.some.inj hstep
    exact ⟨h.finish hdone hsent, Nat.le_refl _⟩
  | release =>
    obtain ⟨-, hstep⟩ := Option.ite_none_right_eq_some.1 hstep
    obtain rfl := Option.some.inj hstep
    exact ⟨⟨h.alike, h.sent, h.finished, h.fetched, h.position, h.view, h.requested, h.subscribed, h.stream⟩,
      Nat.le_refl _⟩
  | fetch =>
    obtain rfl := Option.some.inj hstep
    exact ⟨h.fetch, Nat.le_refl _⟩
  | look index =>
    obtain rfl := Option.some.inj hstep
    exact ⟨h.look index, Nat.le_refl _⟩
  | deliver index =>
    obtain ⟨fetched, hfetched, hstep⟩ := Option.bind_eq_some_iff.1 hstep
    obtain ⟨active, -, hstep⟩ := Option.bind_eq_some_iff.1 hstep
    obtain rfl := Option.some.inj hstep
    obtain ⟨hposition, hstream, huntrimmed⟩ := hcareful fetched hfetched
    exact ⟨h.deliver hfetched hstream huntrimmed, hposition⟩
  | attach =>
    obtain ⟨⟨-, hstreaming⟩, hstep⟩ := Option.ite_none_right_eq_some.1 hstep
    obtain rfl := Option.some.inj hstep
    exact ⟨h.attach hstreaming hcareful, Nat.le_refl _⟩
  | subscribe =>
    obtain ⟨⟨hrequested, -⟩, hstep⟩ := Option.ite_none_right_eq_some.1 hstep
    obtain rfl := Option.some.inj hstep
    exact ⟨h.subscribe hrequested hcareful, Nat.le_refl _⟩
  | refuse =>
    obtain ⟨⟨hrequested, -⟩, hstep⟩ := Option.ite_none_right_eq_some.1 hstep
    obtain rfl := Option.some.inj hstep
    have hlost := h.lose
    rw [← (h.requested hrequested).2] at hlost
    exact ⟨hlost, Nat.le_refl _⟩
  | arrive =>
    simp only [Turn.step] at hstep
    split at hstep
    · next item items hstream =>
        obtain rfl := Option.some.inj hstep
        exact h.arrive hstream
    · cases hstep
  | lose =>
    obtain rfl := Option.some.inj hstep
    exact ⟨h.lose, Nat.le_refl _⟩

end Steps

/-! ## Runs -/

/-- **Attaching.** In a run whose steps are careful the client's message is, after each step, the
service's for the events that it stands for, and these do not become fewer. -/
theorem attach_shows_prefix {actions : List (Action N)} {t : Turn N}
    (h : Run (Guarded (Step numbers) (Careful numbers)) Turn.begin actions t) :
    Run (Guarded (Guarded (Step numbers) (Careful numbers)) fun s _ t =>
      s.position ≤ t.position ∧ Shows numbers t) Turn.begin actions t := by
  refine h.forall_step (I := Accounted numbers) ?_ ?_ accounted_begin
  · intro s action t hs hstep
    exact (hs.step hstep).1
  · intro s action t hs hstep
    have hkept := hs.step hstep
    exact ⟨hkept.2, hkept.1.shows⟩

/-- The run of a client that attaches before the first event. -/
def attached : List (Action Empty) :=
  [.append, .fetch, .look 0, .deliver 0, .attach, .subscribe, .store hello, .send, .arrive]

theorem attached_run : ∃ t, t.view = some ⟨lit "Hello ", none, none⟩
    ∧ Run (Guarded (Step no_numbers) (Careful no_numbers)) Turn.begin attached t := by
  refine ⟨_, ?_, .cons ⟨rfl, trivial⟩ <| .cons ⟨rfl, trivial⟩ <| .cons ⟨rfl, trivial⟩ <|
    .cons ⟨rfl, ?_⟩ <| .cons ⟨rfl, ?_⟩ <| .cons ⟨rfl, fun _ => rfl⟩ <| .cons ⟨rfl, ?_⟩ <|
    .cons ⟨rfl, trivial⟩ <| .cons ⟨rfl, trivial⟩ <| .nil _⟩
  · rfl
  · intro fetched hfetched
    obtain rfl := Option.some.inj hfetched
    exact ⟨Nat.le_refl 0, fun h => absurd rfl h, fun h => absurd h (by decide)⟩
  · exact ⟨rfl, rfl⟩
  · exact ⟨faithful_hello, fun _ => rfl⟩

/-- What the client shows after it. -/
theorem attached_shows : ∃ t, t.view = some ⟨lit "Hello ", none, none⟩
    ∧ Run (Guarded (Guarded (Step no_numbers) (Careful no_numbers)) fun s _ t =>
      s.position ≤ t.position ∧ Shows no_numbers t) Turn.begin attached t := by
  obtain ⟨t, hview, hrun⟩ := attached_run
  exact ⟨t, hview, attach_shows_prefix hrun⟩

/-- The session is fetched again with an event that is still in the stream: the event is shown
twice. -/
theorem event_shown_twice : ∃ actions t message,
    Run (Step no_numbers) Turn.begin actions t ∧ t.view = some message
      ∧ ∀ k, ¬Matches no_numbers message (t.events.take k) := by
  refine ⟨[.append, .fetch, .look 0, .deliver 0, .attach, .subscribe, .store hello, .send, .fetch,
    .look 0, .deliver 0, .arrive], _, ⟨lit "HelloHello ", none, none⟩,
    .cons rfl <| .cons rfl <| .cons rfl <| .cons rfl <| .cons rfl <| .cons rfl <| .cons rfl <|
    .cons rfl <| .cons rfl <| .cons rfl <| .cons rfl <| .cons rfl <| .nil _, rfl, ?_⟩
  intro k hmatches
  cases k with
  | zero => exact absurd hmatches.content (by decide)
  | succ k => exact absurd hmatches.content (by
    show _ ≠ (assistant_message_from_events (rust no_numbers) ([hello].take (k + 1))).content
    rw [List.take_succ_cons, List.take_nil]
    decide)

end AgentSpace.Chat
