/-
The items of a streaming turn and who receives them.

`send_stream_item` and `subscribe_stream_state` share the stream's lock; a subscriber has a
bounded channel of its own. The lock hands out the stream and takes it back; every `try_send`
and every read of a channel is an atomic step, and so is what is asked of `active_turns`. A
line is what `ndjson_line_bytes` makes of an item.
-/
import AgentSpace.Lib.Threads

set_option autoImplicit false

namespace AgentSpace.Sessions.Broadcast

open Lib

variable {ι Line : Type}

/-! ## The stream and its channels -/

/-- `STREAM_SUBSCRIBER_CHANNEL_CAPACITY`. -/
def STREAM_SUBSCRIBER_CHANNEL_CAPACITY : ℕ := 256

/-- `ActiveTurnStreamState`. -/
structure ActiveTurnStreamState (ι Line : Type) where
  subscribers : List ι
  final_payload : Option Line

/-- A bounded channel: what is in it, and whether its receiver is gone. -/
structure Channel (Line : Type) where
  queue : List Line
  closed : Bool

/-- The answers of `try_send`. -/
inductive TrySend where
  | Ok
  | Full
  | Closed
  deriving DecidableEq

/-- The calls. With the lock goes the line that is about to be sent, and with the unlock the
subscriber that was added. -/
inductive Call (ι Line : Type) where
  | begin_active_turn
  | drop_active_turn
  | active_turn
  | lock (sending : Option Line)
  | unlock (subscriber : Option ι) (stream : ActiveTurnStreamState ι Line)
  | try_send (subscriber : ι) (line : Line)
  | recv (subscriber : ι)
  | close (subscriber : ι)

/-- What is answered. -/
def Reply : Call ι Line → Type
  | .begin_active_turn | .drop_active_turn | .unlock .. | .close _ => Unit
  | .active_turn => Bool
  | .lock _ => ActiveTurnStreamState ι Line
  | .try_send .. => TrySend
  | .recv _ => Line

/-- Whether the turn is registered, the thread that holds the lock, and what it guards; a
channel for each subscriber. -/
structure State (ι Line : Type) where
  active_turn : Bool
  holder : Option (Option ι)
  stream : ActiveTurnStreamState ι Line
  channels : ι → Channel Line

section Exec

variable [DecidableEq ι]

/-- A channel is changed. -/
def State.set (s : State ι Line) (i : ι) (channel : Channel Line) : State ι Line :=
  { s with channels := Function.update s.channels i channel }

/-- `try_send`. -/
def try_send (i : ι) (line : Line) (s : State ι Line) : TrySend × State ι Line :=
  if (s.channels i).closed then (.Closed, s)
  else if (s.channels i).queue.length < STREAM_SUBSCRIBER_CHANNEL_CAPACITY then
    (.Ok, s.set i ⟨(s.channels i).queue ++ [line], false⟩)
  else (.Full, s)

/-- What a call answers and leaves. -/
def exec (thread : Option ι) : (c : Call ι Line) → Unit → State ι Line → Option (Reply c × State ι Line)
  | .begin_active_turn, _, s => some ((), { s with active_turn := true })
  | .drop_active_turn, _, s => some ((), { s with active_turn := false })
  | .active_turn, _, s => some (s.active_turn, s)
  | .lock _, _, s =>
    if s.holder.isNone then some (s.stream, { s with holder := some thread }) else none
  | .unlock _ stream, _, s => some ((), { s with
      holder := none
      stream := stream })
  | .try_send i line, _, s => some (try_send i line s)
  | .recv i, _, s =>
    match (s.channels i).queue with
    | [] => none
    | line :: queue => some (line, s.set i ⟨queue, (s.channels i).closed⟩)
  | .close i, _, s => some ((), s.set i ⟨(s.channels i).queue, true⟩)

end Exec

/-! ## Programs -/

/-- `stream.lock`. -/
def lock_stream (sending : Option Line) : Prog (Call ι Line) Reply (ActiveTurnStreamState ι Line) :=
  Prog.lift (Call.lock sending)

/-- `Sender::try_send`. -/
def sender_try_send (subscriber : ι) (line : Line) : Prog (Call ι Line) Reply TrySend :=
  Prog.lift (Call.try_send subscriber line)

/-- Whether the turn is in `active_turns`. -/
def is_active_turn : Prog (Call ι Line) Reply Bool := Prog.lift Call.active_turn

/-- The fan-out of a line: whether a subscriber has got it, and who is kept. -/
def retain (line : Line) (close : Bool) : List ι → Prog (Call ι Line) Reply (Bool × List ι)
  | [] => return (false, [])
  | subscriber :: rest => do
    let answer ← sender_try_send subscriber line
    let others ← retain line close rest
    return (answer = .Ok ∨ others.1,
      if answer = .Ok ∧ close = false then subscriber :: others.2 else others.2)

/-- `send_stream_item`. -/
def send_stream_item (line : Line) (close : Bool) : Prog (Call ι Line) Reply Bool := do
  let stream ← lock_stream (some line)
  let kept ← retain line close stream.subscribers
  let _ ← Prog.lift (.unlock none {
    subscribers := if close then [] else kept.2
    final_payload := if close then some line else stream.final_payload })
  return kept.1

/-- `subscribe_stream_state`: whether there is a receiver. -/
def subscribe_stream_state (i : ι) : Prog (Call ι Line) Reply Bool := do
  let stream ← lock_stream none
  match stream.final_payload with
  | some final_payload => do
    let _ ← Prog.lift (.unlock none stream)
    let answer ← sender_try_send i final_payload
    return answer = .Ok
  | none => do
    let _ ← Prog.lift (.unlock (some i)
      { stream with subscribers := stream.subscribers ++ [i] })
    return true

/-- The response of a subscriber reads so many lines, and is given up. -/
def respond (i : ι) : ℕ → Prog (Call ι Line) Reply Unit
  | 0 => do
    let _ ← Prog.lift (.close i)
    return ()
  | reads + 1 => do
    let _ ← Prog.lift (.recv i)
    respond i reads

/-- `subscribe_active_turn`. -/
def subscribe_active_turn (i : ι) : Prog (Call ι Line) Reply Bool := do
  let registered ← is_active_turn
  if registered then subscribe_stream_state i else return false

/-- `stream_turn`, with its response. -/
def stream_turn (i : ι) (reads : ℕ) : Prog (Call ι Line) Reply Unit := do
  let subscribed ← subscribe_active_turn i
  if subscribed then respond i reads else return ()

/-- The lines that `run_streaming_turn` sends before the last. -/
def send_events : List Line → Prog (Call ι Line) Reply Unit
  | [] => return ()
  | line :: lines => do
    let _ ← send_stream_item line false
    send_events lines

/-- `stream_message`: `start_streaming_turn` subscribes the first response, and then
`run_streaming_turn` sends. -/
def stream_message (first : ι) (events : List Line) (final_payload : Line) :
    Prog (Call ι Line) Reply Unit := do
  let _ ← Prog.lift .begin_active_turn
  let _ ← subscribe_stream_state first
  let _ ← send_events events
  let _ ← send_stream_item final_payload true
  let _ ← Prog.lift .drop_active_turn
  return ()

/-- The threads: the turn, and a response for each subscriber. -/
def party [DecidableEq ι] (first : ι) (events : List Line) (final_payload : Line) (reads : ι → ℕ) :
    Option ι → Prog (Call ι Line) Reply Unit
  | none => stream_message first events final_payload
  | some i => if i = first then respond i (reads i) else stream_turn i (reads i)

/-! ## What is sent and received -/

/-- What the run has done: the lines that have been sent, where each subscription starts among
them, what each response has read, and whom the sender found with a full channel. -/
structure History (ι Line : Type) where
  sent : List Line
  start : ι → Option ℕ
  received : ι → List Line
  lagged : ι → Bool

section Record

variable [DecidableEq ι]

/-- A subscription starts at the next line, or at the last one when all have been sent: that line
the subscriber sends to itself. -/
def record (thread : Option ι) :
    (c : Call ι Line) → Reply c → State ι Line → History ι Line → History ι Line
  | .lock (some line), _, _, history => { history with sent := history.sent ++ [line] }
  | .unlock (some i) _, _, _, history =>
    { history with start := Function.update history.start i (some history.sent.length) }
  | .try_send i _, TrySend.Ok, _, history =>
    match thread with
    | none => history
    | some _ =>
      { history with start := Function.update history.start i (some (history.sent.length - 1)) }
  | .try_send i _, TrySend.Full, _, history =>
    { history with lagged := Function.update history.lagged i true }
  | .recv i, (line : Line), _, history =>
    { history with received := Function.update history.received i (history.received i ++ [line]) }
  | _, _, _, history => history

/-- The turn and its responses, with the history. -/
abbrev recorded : Exec (Option ι) (Call ι Line) Unit (State ι Line × History ι Line) Reply :=
  with_history exec record

/-- Before anything is begun. -/
def initial : State ι Line × History ι Line :=
  (⟨false, none, ⟨[], none⟩, fun _ => ⟨[], false⟩⟩, ⟨[], fun _ => none, fun _ => [], fun _ => false⟩)

/-- The threads before they begin. -/
def parties (first : ι) (events : List Line) (final_payload : Line) (reads : ι → ℕ) :
    Threads (Option ι) (Call ι Line) Unit (State ι Line × History ι Line) Reply :=
  ⟨initial, party first events final_payload reads⟩

end Record

/-- What a subscriber has been sent: what its response has read, and what is in its channel. -/
def content (s : State ι Line × History ι Line) (i : ι) : List Line :=
  s.2.received i ++ (s.1.channels i).queue

/-- The line that was stored as the last one. -/
abbrev final_payload (s : State ι Line × History ι Line) : Option Line := s.1.stream.final_payload

/-! ## What holds in every state -/

section Rules

/-- A subscriber that is served has been sent every line since its subscription, and one that is
open and not behind is served, or has been sent the last line; not every line has been sent. -/
structure Current (items : List Line) (s : State ι Line × History ι Line) : Prop where
  served : ∀ i ∈ s.1.stream.subscribers, ∀ n, s.2.start i = some n → content s i = s.2.sent.drop n
  open_ : ∀ i n, s.2.start i = some n → (s.1.channels i).closed = false → s.2.lagged i = false →
    content s i = s.2.sent.drop n ∧ (i ∈ s.1.stream.subscribers ∨ (final_payload s).isSome)
  more : final_payload s = none → s.2.sent ≠ items

/-- The invariant, for a turn that sends `items`. -/
structure Kept (items : List Line) (s : State ι Line × History ι Line) : Prop where
  sent : s.2.sent <+: items
  start : ∀ i n, s.2.start i = some n → n ≤ s.2.sent.length ∧ content s i <+: s.2.sent.drop n
  before : ∀ i n, s.2.start i = some n → n < items.length
  fresh : ∀ i, s.2.start i = none → content s i = []
  nodup : s.1.stream.subscribers.Nodup
  subscribed : ∀ i ∈ s.1.stream.subscribers, ∃ n, s.2.start i = some n
  current : s.1.holder ≠ some none → Current items s
  last : ∀ line, final_payload s = some line →
    s.1.stream.subscribers = [] ∧ s.2.sent = items ∧ items.getLast? = some line
      ∧ s.1.holder ≠ some none

variable [DecidableEq ι]

/-- The thread that subscribes a response. -/
def owner (first i : ι) : Option ι := if i = first then none else some i

/-- What a thread leaves of the others. -/
structure Leaves (first : ι) (thread : Option ι) (s t : State ι Line × History ι Line) : Prop where
  holder : ∀ q, q ≠ thread → (t.1.holder = some q ↔ s.1.holder = some q)
  stream : ∀ q, q ≠ thread → s.1.holder = some q → t.1.stream = s.1.stream
  last : ∀ line, final_payload s = some line → final_payload t = some line
  fresh : ∀ i, owner first i ≠ thread → s.2.start i = none →
    t.2.start i = none ∧ (i ≠ first → t.1.channels i = s.1.channels i)
  sent : thread ≠ none → t.2.sent = s.2.sent ∧ final_payload t = final_payload s
  delivered : thread ≠ none ∨ (final_payload s).isSome → ∀ i n, s.2.start i = some n →
    t.2.start i = some n ∧ content t i = content s i
  locked : thread ≠ none → s.1.holder = some none → t.2.start = s.2.start ∧ t.2.lagged = s.2.lagged
  closed : thread ≠ none → ∀ i, (t.1.channels i).closed = false → (s.1.channels i).closed = false
  late : ∀ line, final_payload s = some line → ∀ i n, s.2.start i = none → t.2.start i = some n →
    n + 1 = s.2.sent.length ∧ content t i = [line]

/-- The rules of the threads. -/
def broadcast_rules (first : ι) (items : List Line) :
    Rules (Option ι) (Call ι Line) Unit (State ι Line × History ι Line) Reply where
  exec := recorded
  allow _ _ _ _ := True
  invariant := Kept items
  guarantee := Leaves first

end Rules

section Steps

variable [DecidableEq ι] {first i : ι} {thread : Option ι} {items : List Line}
  {s : State ι Line × History ι Line}

/-- Only the lock changes hands, or `active_turns`. -/
theorem leaves_control (first : ι) (thread : Option ι) (active : Bool) (holder : Option (Option ι))
    (h : Kept items s) (hholder : ∀ q, q ≠ thread → (holder = some q ↔ s.1.holder = some q))
    (hnone : holder ≠ some none → s.1.holder ≠ some none)
    (hlast : (final_payload s).isSome → holder ≠ some none) :
    Kept items ({ s.1 with active_turn := active, holder := holder }, s.2)
      ∧ Leaves first thread s ({ s.1 with active_turn := active, holder := holder }, s.2) := by
  refine ⟨⟨h.sent, h.start, h.before, h.fresh, h.nodup, h.subscribed, fun hne => ?_,
    fun line hline => ?_⟩, ?_⟩
  · obtain ⟨hserved, hopen, hmore⟩ := h.current (hnone hne)
    exact ⟨hserved, hopen, hmore⟩
  · obtain ⟨hsubscribers, hsent, hitems, -⟩ := h.last line hline
    exact ⟨hsubscribers, hsent, hitems, hlast (by rw [hline]; rfl)⟩
  · refine ⟨hholder, fun _ _ _ => rfl, fun _ h => h, fun _ _ h => ⟨h, fun _ => rfl⟩, fun _ => ⟨rfl, rfl⟩,
      fun _ _ _ h => ⟨h, rfl⟩, fun _ _ => ⟨rfl, rfl⟩, fun _ _ h => h, fun _ _ _ _ h h' => ?_⟩
    rw [h] at h'
    cases h'

/-- **A subscription** to a turn that is not over. -/
theorem leaves_subscribe (h : Kept items s) (hholder : s.1.holder = some thread)
    (howner : owner first i = thread) (hstart : s.2.start i = none) (hlast : final_payload s = none)
    (hcurrent : Current items s) : let t : State ι Line × History ι Line :=
      ({ s.1 with
          holder := none
          stream := { s.1.stream with subscribers := s.1.stream.subscribers ++ [i] } },
        { s.2 with start := Function.update s.2.start i (some s.2.sent.length) })
    Kept items t ∧ Leaves first thread s t := by
  intro t
  have hne : ∀ j n, s.2.start j = some n → j ≠ i := by
    rintro j n hj rfl
    cases hstart.symm.trans hj
  have hself : t.2.start i = some s.2.sent.length := Function.update_self ..
  have hother : ∀ j, j ≠ i → t.2.start j = s.2.start j := fun j hj => Function.update_of_ne hj _ _
  have hempty : content t i = s.2.sent.drop s.2.sent.length := by
    rw [List.drop_length]
    exact h.fresh i hstart
  have hnotin : i ∉ s.1.stream.subscribers := by
    intro hi
    obtain ⟨n, hn⟩ := h.subscribed i hi
    cases hstart.symm.trans hn
  refine ⟨⟨h.sent, fun j n hj => ?_, fun j n hj => ?_, fun j hj => ?_, ?_, fun j hj => ?_,
    fun _ => ⟨fun j hj n hn => ?_, fun j n hn hclosed hlagged => ?_, hcurrent.more⟩,
    fun line hline => ?_⟩, ?_⟩
  · by_cases hji : j = i
    · subst hji
      obtain rfl : s.2.sent.length = n := Option.some.inj (hself.symm.trans hj)
      exact ⟨Nat.le_refl _, hempty ▸ List.prefix_rfl⟩
    · exact h.start j n ((hother j hji).symm.trans hj)
  · by_cases hji : j = i
    · subst hji
      obtain rfl : s.2.sent.length = n := Option.some.inj (hself.symm.trans hj)
      exact lt_of_le_of_ne h.sent.length_le fun heq => hcurrent.more hlast (h.sent.eq_of_length heq)
    · exact h.before j n ((hother j hji).symm.trans hj)
  · by_cases hji : j = i
    · subst hji
      cases hself.symm.trans hj
    · exact h.fresh j ((hother j hji).symm.trans hj)
  · exact List.nodup_append.2 ⟨h.nodup, List.nodup_singleton i, fun a ha b hb hab => by
      rw [List.mem_singleton.1 hb] at hab
      exact hnotin (hab ▸ ha)⟩
  · rcases List.mem_append.1 hj with hj | hj
    · obtain ⟨n, hn⟩ := h.subscribed j hj
      exact ⟨n, (hother j (hne j n hn)).trans hn⟩
    · rw [List.mem_singleton.1 hj]
      exact ⟨_, hself⟩
  · by_cases hji : j = i
    · subst hji
      obtain rfl : s.2.sent.length = n := Option.some.inj (hself.symm.trans hn)
      exact hempty
    · rcases List.mem_append.1 hj with hj | hj
      · exact hcurrent.served j hj n ((hother j hji).symm.trans hn)
      · exact absurd (List.mem_singleton.1 hj) hji
  · by_cases hji : j = i
    · subst hji
      obtain rfl : s.2.sent.length = n := Option.some.inj (hself.symm.trans hn)
      exact ⟨hempty, Or.inl (List.mem_append_right _ (List.mem_singleton.2 rfl))⟩
    · obtain ⟨hcontent, hserved⟩ := hcurrent.open_ j n ((hother j hji).symm.trans hn) hclosed hlagged
      exact ⟨hcontent, hserved.imp_left (List.mem_append_left _)⟩
  · cases hlast.symm.trans hline
  · refine ⟨fun q hq => ?_, fun q hq hheld => ?_, fun line hline => ?_, fun j hj hnone => ?_,
      fun _ => ⟨rfl, rfl⟩, fun _ j n hj => ⟨(hother j (hne j n hj)).trans hj, rfl⟩, fun hthread hheld => ?_,
      fun _ _ h => h, fun line hline => ?_⟩
    · refine iff_of_false (fun h => by cases h) fun h => ?_
      exact hq (Option.some.inj (h.symm.trans hholder))
    · exact absurd (Option.some.inj (hheld.symm.trans hholder)) hq
    · cases hlast.symm.trans hline
    · have hji : j ≠ i := fun hji => hj (hji ▸ howner)
      exact ⟨(hother j hji).trans hnone, fun _ => rfl⟩
    · exact absurd (Option.some.inj (hholder.symm.trans hheld)) hthread
    · cases hlast.symm.trans hline

/-- **A subscription** to a turn that is over. -/
theorem leaves_late {line : Line} (h : Kept items s) (hi : i ≠ first) (hstart : s.2.start i = none)
    (hchannel : s.1.channels i = ⟨[], false⟩) (hlast : final_payload s = some line) :
    let t : State ι Line × History ι Line := (s.1.set i ⟨[line], false⟩,
      { s.2 with start := Function.update s.2.start i (some (s.2.sent.length - 1)) })
    Kept items t ∧ Leaves first (some i) s t := by
  intro t
  obtain ⟨hsubscribers, hsent, hitems, hnotheld⟩ := h.last line hlast
  have hne : ∀ j n, s.2.start j = some n → j ≠ i := by
    rintro j n hj rfl
    cases hstart.symm.trans hj
  have hself : t.2.start i = some (s.2.sent.length - 1) := Function.update_self ..
  have hother : ∀ j, j ≠ i → t.2.start j = s.2.start j := fun j hj => Function.update_of_ne hj _ _
  have hchannels : ∀ j, j ≠ i → t.1.channels j = s.1.channels j :=
    fun j hj => Function.update_of_ne hj _ _
  have hcontents : ∀ j, j ≠ i → content t j = content s j := by
    intro j hj
    unfold content
    rw [hchannels j hj]
  have hnil : s.2.received i = [] := (List.append_eq_nil_iff.1 (h.fresh i hstart)).1
  have hone : content t i = [line] := by
    have hqueue : (t.1.channels i) = ⟨[line], false⟩ := Function.update_self ..
    unfold content
    rw [hqueue]
    show s.2.received i ++ [line] = [line]
    rw [hnil]
    rfl
  have hsome : s.2.sent ≠ [] := by
    intro hnil
    rw [← hsent, hnil] at hitems
    cases hitems
  have hdrop : s.2.sent.drop (s.2.sent.length - 1) = [line] := by
    rw [List.drop_length_sub_one hsome]
    rw [← hsent, List.getLast?_eq_some_getLast hsome] at hitems
    rw [Option.some.inj hitems]
  have hlength : s.2.sent.length - 1 + 1 = s.2.sent.length :=
    Nat.succ_pred_eq_of_pos (List.length_pos_iff.2 hsome)
  have hcurrent := h.current hnotheld
  refine ⟨⟨h.sent, fun j n hj => ?_, fun j n hj => ?_, fun j hj => ?_, h.nodup, fun j hj => ?_,
    fun _ => ⟨fun j hj => ?_, fun j n hn hclosed hlagged => ?_, hcurrent.more⟩, fun line' hline => ?_⟩, ?_⟩
  · by_cases hji : j = i
    · subst hji
      obtain rfl : s.2.sent.length - 1 = n := Option.some.inj (hself.symm.trans hj)
      refine ⟨Nat.sub_le _ _, ?_⟩
      rw [hone]
      show [line] <+: s.2.sent.drop _
      rw [hdrop]
    · rw [hcontents j hji]
      exact h.start j n ((hother j hji).symm.trans hj)
  · by_cases hji : j = i
    · subst hji
      obtain rfl : s.2.sent.length - 1 = n := Option.some.inj (hself.symm.trans hj)
      rw [← hsent]
      omega
    · exact h.before j n ((hother j hji).symm.trans hj)
  · by_cases hji : j = i
    · subst hji
      cases hself.symm.trans hj
    · rw [hcontents j hji]
      exact h.fresh j ((hother j hji).symm.trans hj)
  · obtain ⟨n, hn⟩ := h.subscribed j hj
    exact ⟨n, (hother j (hne j n hn)).trans hn⟩
  · change j ∈ s.1.stream.subscribers at hj
    rw [hsubscribers] at hj
    cases hj
  · by_cases hji : j = i
    · subst hji
      obtain rfl : s.2.sent.length - 1 = n := Option.some.inj (hself.symm.trans hn)
      refine ⟨hone.trans hdrop.symm, Or.inr ?_⟩
      show (final_payload s).isSome
      rw [hlast]
      rfl
    · rw [hchannels j hji] at hclosed
      rw [hcontents j hji]
      exact hcurrent.open_ j n ((hother j hji).symm.trans hn) hclosed hlagged
  · exact h.last line' hline
  · refine ⟨fun _ _ => Iff.rfl, fun _ _ _ => rfl, fun _ h => h, fun j hj hnone => ?_, fun _ => ⟨rfl, rfl⟩,
      fun _ j n hj => ⟨(hother j (hne j n hj)).trans hj, hcontents j (hne j n hj)⟩,
      fun _ hheld => absurd hheld hnotheld, fun _ j hclosed => ?_, fun line' hline j n hnone hsome => ?_⟩
    · have hji : j ≠ i := by
        rintro rfl
        exact hj (if_neg hi)
      exact ⟨(hother j hji).trans hnone, fun _ => hchannels j hji⟩
    · by_cases hji : j = i
      · subst hji
        rw [hchannel]
      · rwa [hchannels j hji] at hclosed
    · by_cases hji : j = i
      · subst hji
        obtain rfl : s.2.sent.length - 1 = n := Option.some.inj (hself.symm.trans hsome)
        obtain rfl : line = line' := Option.some.inj (hlast.symm.trans hline)
        exact ⟨hlength, hone⟩
      · cases hnone.symm.trans ((hother j hji).symm.trans hsome)

/-- **Reading** from a channel, or giving it up. -/
theorem leaves_channel (first i : ι) (channel : Channel Line) (received : List Line) (h : Kept items s)
    (hcontent : received ++ channel.queue = content s i)
    (hclosed : channel.closed = false → (s.1.channels i).closed = false) :
    let t : State ι Line × History ι Line := (s.1.set i channel,
      { s.2 with received := Function.update s.2.received i received })
    Kept items t ∧ Leaves first (some i) s t := by
  intro t
  have hcontents : ∀ j, content t j = content s j := by
    intro j
    unfold content
    by_cases hji : j = i
    · subst hji
      have hchannel : t.1.channels j = channel := Function.update_self ..
      have hreceived : t.2.received j = received := Function.update_self ..
      rw [hchannel, hreceived]
      exact hcontent
    · have hchannel : t.1.channels j = s.1.channels j := Function.update_of_ne hji _ _
      have hreceived : t.2.received j = s.2.received j := Function.update_of_ne hji _ _
      rw [hchannel, hreceived]
  have hcloseds : ∀ j, (t.1.channels j).closed = false → (s.1.channels j).closed = false := by
    intro j hj
    by_cases hji : j = i
    · subst hji
      have hchannel : t.1.channels j = channel := Function.update_self ..
      rw [hchannel] at hj
      exact hclosed hj
    · have hchannel : t.1.channels j = s.1.channels j := Function.update_of_ne hji _ _
      rwa [hchannel] at hj
  refine ⟨⟨h.sent, fun j n hj => ?_, h.before, fun j hj => ?_, h.nodup, h.subscribed,
    fun hne => ⟨fun j hj n hn => ?_, fun j n hn hopen hlagged => ?_, (h.current hne).more⟩, h.last⟩, ?_⟩
  · rw [hcontents j]
    exact h.start j n hj
  · rw [hcontents j]
    exact h.fresh j hj
  · rw [hcontents j]
    exact (h.current hne).served j hj n hn
  · rw [hcontents j]
    exact (h.current hne).open_ j n hn (hcloseds j hopen) hlagged
  · refine ⟨fun _ _ => Iff.rfl, fun _ _ _ => rfl, fun _ h => h, fun j hj hnone => ⟨hnone, fun hfirst => ?_⟩,
      fun _ => ⟨rfl, rfl⟩, fun _ j n hj => ⟨hj, hcontents j⟩, fun _ _ => ⟨rfl, rfl⟩,
      fun _ j hj => hcloseds j hj, fun _ _ _ _ hnone hsome => ?_⟩
    · have hji : j ≠ i := by
        rintro rfl
        exact hj (if_neg hfirst)
      exact Function.update_of_ne hji _ _
    · cases hnone.symm.trans hsome

end Steps

/-! ## The fan-out -/

section Fan

/-- The sender has sent `done`, and stored the last line or not. -/
structure Between (done : List Line) (last : Option Line) (s : State ι Line × History ι Line) :
    Prop where
  holder : s.1.holder ≠ some none
  sent : s.2.sent = done
  last : final_payload s = last

/-- While a line is sent: who is still to get it, and who has got it and is kept. -/
structure Fan (done : List Line) (line : Line) (close : Bool) (pending reached : List ι)
    (s : State ι Line × History ι Line) : Prop where
  holder : s.1.holder = some none
  sent : s.2.sent = done ++ [line]
  last : final_payload s = none
  nodup : (reached ++ pending).Nodup
  todo : ∀ i ∈ pending, ∃ n, s.2.start i = some n ∧ n ≤ done.length ∧ content s i = done.drop n
  kept : ∀ i ∈ reached, ∃ n, s.2.start i = some n ∧ content s i = (done ++ [line]).drop n
  served : ∀ i n, s.2.start i = some n → (s.1.channels i).closed = false → s.2.lagged i = false →
    i ∉ pending → content s i = (done ++ [line]).drop n ∧ (close = false → i ∈ reached)

variable [DecidableEq ι] {first i : ι} {items done : List Line} {line : Line} {close : Bool}
  {s : State ι Line × History ι Line}

/-- What the sender leaves of the others while it holds the lock, or takes it. -/
theorem leaves_of_sender {t : State ι Line × History ι Line}
    (hheld : ∀ q, q ≠ none → s.1.holder ≠ some q) (hheld' : ∀ q, q ≠ none → t.1.holder ≠ some q)
    (hlast : final_payload s = none) (hstart : t.2.start = s.2.start)
    (hchannels : ∀ j, s.2.start j = none → t.1.channels j = s.1.channels j) : Leaves first none s t := by
  refine ⟨fun q hq => iff_of_false (hheld' q hq) (hheld q hq), fun q hq h => absurd h (hheld q hq),
    fun line h => ?_, fun j _ hj => ⟨by rw [hstart]; exact hj, fun _ => hchannels j hj⟩,
    fun h => absurd rfl h, fun h => ?_, fun h => absurd rfl h, fun h => absurd rfl h, fun line h => ?_⟩
  · cases hlast.symm.trans h
  · rcases h with h | h
    · exact absurd rfl h
    · rw [hlast] at h
      cases h
  · cases hlast.symm.trans h

/-- **The lock** of the sender. -/
theorem leaves_send_lock (close : Bool) (h : Kept items s) (hfree : s.1.holder = none)
    (hbetween : Between done none s) (hitems : done ++ [line] <+: items) :
    let t : State ι Line × History ι Line :=
      ({ s.1 with holder := some none }, { s.2 with sent := s.2.sent ++ [line] })
    Kept items t ∧ Leaves first none s t ∧ Fan done line close s.1.stream.subscribers [] t := by
  intro t
  have hcurrent := h.current hbetween.holder
  have hsent : s.2.sent = done := hbetween.sent
  refine ⟨⟨?_, fun j n hj => ?_, h.before, h.fresh, h.nodup, h.subscribed, fun hne => absurd rfl hne,
    fun line hline => ?_⟩, leaves_of_sender (fun q _ => ?_) (fun q hq => ?_) hbetween.last rfl fun _ _ => rfl,
    ⟨rfl, by rw [← hsent], hbetween.last, h.nodup, fun j hj => ?_, fun j hj => absurd hj List.not_mem_nil,
      fun j n hn hclosed hlagged hj => ?_⟩⟩
  · show s.2.sent ++ [line] <+: items
    rw [hsent]
    exact hitems
  · obtain ⟨hle, hprefix'⟩ := h.start j n hj
    refine ⟨le_trans hle (by simp [t]), hprefix'.trans ?_⟩
    show s.2.sent.drop n <+: (s.2.sent ++ [line]).drop n
    rw [List.drop_append_of_le_length hle]
    exact List.prefix_append ..
  · cases hbetween.last.symm.trans hline
  · rw [hfree]
    exact fun h => by cases h
  · exact fun h => hq (Option.some.inj h).symm
  · obtain ⟨n, hn⟩ := h.subscribed j hj
    refine ⟨n, hn, ?_, ?_⟩
    · rw [← hsent]
      exact (h.start j n hn).1
    · rw [← hsent]
      exact hcurrent.served j hj n hn
  · rcases (hcurrent.open_ j n hn hclosed hlagged).2 with hserved | hover
    · exact absurd hserved hj
    · rw [hbetween.last] at hover
      cases hover

/-- The three ways a `try_send` goes. -/
theorem try_send_cases (i : ι) (line : Line) (s : State ι Line) :
    ((s.channels i).closed = true ∧ try_send i line s = (.Closed, s))
      ∨ ((s.channels i).closed = false
        ∧ try_send i line s = (.Ok, s.set i ⟨(s.channels i).queue ++ [line], false⟩))
      ∨ try_send i line s = (.Full, s) := by
  unfold try_send
  by_cases hclosed : (s.channels i).closed = true
  · exact Or.inl ⟨hclosed, if_pos hclosed⟩
  rw [if_neg hclosed]
  by_cases hroom : (s.channels i).queue.length < STREAM_SUBSCRIBER_CHANNEL_CAPACITY
  · exact Or.inr (Or.inl ⟨by simpa using hclosed, if_pos hroom⟩)
  · exact Or.inr (Or.inr (if_neg hroom))

/-- **One subscriber** is sent a line. -/
theorem leaves_send_one {todo kept : List ι} (h : Kept items s)
    (hfan : Fan done line close (i :: todo) kept s) :
    let t : State ι Line × History ι Line := ((try_send i line s.1).2,
      record none (.try_send i line) (try_send i line s.1).1 s.1 s.2)
    Kept items t ∧ Leaves first none s t
      ∧ Fan done line close todo
        (if (try_send i line s.1).1 = .Ok ∧ close = false then kept ++ [i] else kept) t := by
  obtain ⟨n, hn, hle, hcontent⟩ := hfan.todo i (List.mem_cons_self ..)
  have hdrop : done.drop n ++ [line] = (done ++ [line]).drop n :=
    (List.drop_append_of_le_length hle).symm
  have hmoved : (kept ++ [i] ++ todo).Nodup := by
    rw [List.append_assoc]
    exact hfan.nodup
  have hskipped : (kept ++ todo).Nodup :=
    hfan.nodup.sublist ((List.sublist_cons_self i todo).append_left kept)
  have hnotin : i ∉ todo := (List.nodup_cons.1 (List.nodup_append.1 hfan.nodup).2.1).1
  have hheld : ∀ q, q ≠ none → s.1.holder ≠ some q := by
    intro q hq h
    exact hq (Option.some.inj (hfan.holder.symm.trans h)).symm
  have hmember : ∀ j, j ∉ todo → j ≠ i → j ∉ i :: todo := by
    intro j hj hji hmem
    rcases List.mem_cons.1 hmem with rfl | hmem
    · exact hji rfl
    · exact hj hmem
  rcases try_send_cases i line s.1 with ⟨hclosed, hsend⟩ | ⟨-, hsend⟩ | hsend <;> rw [hsend]
  · -- the receiver is gone
    refine ⟨h, leaves_of_sender hheld hheld hfan.last rfl fun _ _ => rfl, ?_⟩
    rw [if_neg fun h : TrySend.Closed = TrySend.Ok ∧ close = false => by cases h.1]
    refine ⟨hfan.holder, hfan.sent, hfan.last, hskipped,
      fun j hj => hfan.todo j (List.mem_cons_of_mem _ hj), hfan.kept, fun j m hm hopen hlagged hj => ?_⟩
    by_cases hji : j = i
    · subst hji
      change (s.1.channels j).closed = false at hopen
      rw [hclosed] at hopen
      cases hopen
    · exact hfan.served j m hm hopen hlagged (hmember j hj hji)
  · -- it is sent
    have hchannels : ∀ j, j ≠ i → (Function.update s.1.channels i
        ⟨(s.1.channels i).queue ++ [line], false⟩) j = s.1.channels j :=
      fun j hj => Function.update_of_ne hj _ _
    have hone : content (s.1.set i ⟨(s.1.channels i).queue ++ [line], false⟩, s.2) i
        = (done ++ [line]).drop n := by
      unfold content State.set
      dsimp only
      rw [Function.update_self, ← List.append_assoc, ← hdrop, ← hcontent]
      rfl
    have hothers : ∀ j, j ≠ i →
        content (s.1.set i ⟨(s.1.channels i).queue ++ [line], false⟩, s.2) j = content s j := by
      intro j hj
      unfold content State.set
      dsimp only
      rw [hchannels j hj]
    refine ⟨⟨h.sent, fun j m hm => ?_, h.before, fun j hj => ?_, h.nodup, h.subscribed,
      fun hne => absurd hfan.holder hne, fun line hline => ?_⟩,
      leaves_of_sender hheld hheld hfan.last rfl fun j hj => ?_, ?_⟩
    · by_cases hji : j = i
      · subst hji
        obtain rfl : n = m := Option.some.inj (hn.symm.trans hm)
        refine ⟨(h.start j n hn).1, ?_⟩
        show content (s.1.set j _, s.2) j <+: s.2.sent.drop n
        rw [hone, hfan.sent]
      · refine ⟨(h.start j m hm).1, ?_⟩
        show content (s.1.set i _, s.2) j <+: s.2.sent.drop m
        rw [hothers j hji]
        exact (h.start j m hm).2
    · have hji : j ≠ i := by
        rintro rfl
        cases hn.symm.trans hj
      exact (hothers j hji).trans (h.fresh j hj)
    · cases hfan.last.symm.trans hline
    · exact hchannels j (by
        rintro rfl
        cases hn.symm.trans hj)
    · have hnew : ∀ j ∈ (if TrySend.Ok = TrySend.Ok ∧ close = false then kept ++ [i] else kept),
          j ∈ kept ∨ j = i := by
        intro j hj
        split_ifs at hj
        · exact (List.mem_append.1 hj).imp_right List.mem_singleton.1
        · exact Or.inl hj
      refine ⟨hfan.holder, hfan.sent, hfan.last, ?_, fun j hj => ?_, fun j hj => ?_,
        fun j m hm hopen hlagged hj => ?_⟩
      · split_ifs
        · exact hmoved
        · exact hskipped
      · obtain ⟨m, hm, hle, hj'⟩ := hfan.todo j (List.mem_cons_of_mem _ hj)
        exact ⟨m, hm, hle, (hothers j fun hji => hnotin (hji ▸ hj)).trans hj'⟩
      · by_cases hji : j = i
        · subst hji
          exact ⟨n, hn, hone⟩
        · obtain ⟨m, hm, hj'⟩ := hfan.kept j ((hnew j hj).resolve_right hji)
          exact ⟨m, hm, (hothers j hji).trans hj'⟩
      · by_cases hji : j = i
        · subst hji
          obtain rfl : n = m := Option.some.inj (hn.symm.trans hm)
          refine ⟨hone, fun hclose => ?_⟩
          rw [if_pos ⟨rfl, hclose⟩]
          exact List.mem_append_right _ (List.mem_singleton.2 rfl)
        · have hopen' : (s.1.channels j).closed = false := by
            rw [← hchannels j hji]
            exact hopen
          obtain ⟨hcontent, hkept⟩ := hfan.served j m hm hopen' hlagged (hmember j hj hji)
          refine ⟨(hothers j hji).trans hcontent, fun hclose => ?_⟩
          rw [if_pos ⟨rfl, hclose⟩]
          exact List.mem_append_left _ (hkept hclose)
  · -- its channel is full
    have hlag : ∀ j, j ≠ i → (Function.update s.2.lagged i true) j = s.2.lagged j :=
      fun j hj => Function.update_of_ne hj _ _
    refine ⟨⟨h.sent, h.start, h.before, h.fresh, h.nodup, h.subscribed,
      fun hne => absurd hfan.holder hne, h.last⟩, leaves_of_sender hheld hheld hfan.last rfl fun _ _ => rfl, ?_⟩
    rw [if_neg fun h : TrySend.Full = TrySend.Ok ∧ close = false => by cases h.1]
    refine ⟨hfan.holder, hfan.sent, hfan.last, hskipped,
      fun j hj => hfan.todo j (List.mem_cons_of_mem _ hj), hfan.kept, fun j m hm hopen hlagged hj => ?_⟩
    by_cases hji : j = i
    · subst hji
      change Function.update s.2.lagged j true j = false at hlagged
      rw [Function.update_self] at hlagged
      cases hlagged
    · refine hfan.served j m hm hopen ?_ (hmember j hj hji)
      rw [← hlag j hji]
      exact hlagged

/-- **The unlock** of the sender. -/
theorem leaves_send_unlock (first : ι) {kept : List ι} (h : Kept items s) (hfan : Fan done line close [] kept s)
    (hitems : close = true → done ++ [line] = items) (hmore : close = false → done ++ [line] ≠ items) :
    let t : State ι Line × History ι Line := ({ s.1 with
      holder := none
      stream := {
        subscribers := if close then [] else kept
        final_payload := if close then some line else none } }, s.2)
    Kept items t ∧ Leaves first none s t := by
  intro t
  have hheld : ∀ q, q ≠ none → s.1.holder ≠ some q := by
    intro q hq h
    exact hq (Option.some.inj (hfan.holder.symm.trans h)).symm
  have hmember : ∀ j ∈ (if close then [] else kept), j ∈ kept := by
    intro j hj
    split_ifs at hj
    · cases hj
    · exact hj
  refine ⟨⟨h.sent, h.start, h.before, h.fresh, ?_, fun j hj => ?_, fun _ => ⟨fun j hj n hn => ?_,
    fun j n hn hopen hlagged => ?_, fun hlast => ?_⟩, fun line' hline => ?_⟩,
    leaves_of_sender hheld (fun _ _ h => by cases h) hfan.last rfl fun _ _ => rfl⟩
  · show (if close then [] else kept : List ι).Nodup
    split_ifs
    · exact List.nodup_nil
    · exact (List.nodup_append.1 hfan.nodup).1
  · obtain ⟨n, hn, -⟩ := hfan.kept j (hmember j hj)
    exact ⟨n, hn⟩
  · obtain ⟨m, hm, hcontent⟩ := hfan.kept j (hmember j hj)
    obtain rfl : m = n := Option.some.inj (hm.symm.trans hn)
    show content s j = s.2.sent.drop m
    rw [hfan.sent, hcontent]
  · obtain ⟨hcontent, hkept⟩ := hfan.served j n hn hopen hlagged List.not_mem_nil
    refine ⟨?_, ?_⟩
    · show content s j = s.2.sent.drop n
      rw [hfan.sent, hcontent]
    · cases close with
      | false => exact Or.inl (hkept rfl)
      | true => exact Or.inr rfl
  · cases close with
    | false =>
      show s.2.sent ≠ items
      rw [hfan.sent]
      exact hmore rfl
    | true => cases hlast
  · cases close with
    | false => cases hline
    | true =>
      obtain rfl : line = line' := Option.some.inj hline
      refine ⟨rfl, hfan.sent.trans (hitems rfl), ?_, fun h => by cases h⟩
      rw [← hitems rfl]
      exact List.getLast?_concat

end Fan

/-! ## The threads -/

section Outlines

variable [DecidableEq ι] {first i : ι} {thread : Option ι} {items done : List Line} {line : Line}
  {s t : State ι Line × History ι Line}

/-- A response that has not been subscribed. -/
structure Unsubscribed (first i : ι) (s : State ι Line × History ι Line) : Prop where
  start : s.2.start i = none
  channel : i ≠ first → s.1.channels i = ⟨[], false⟩

/-- While a thread subscribes a response: it holds the lock and has seen the stream. -/
structure Subscribing (items : List Line) (first i : ι) (stream : ActiveTurnStreamState ι Line)
    (s : State ι Line × History ι Line) : Prop where
  holder : s.1.holder = some (owner first i)
  stream : s.1.stream = stream
  unsubscribed : Unsubscribed first i s
  current : Current items s

theorem Leaves.current (h : Leaves first thread s t) (hthread : thread ≠ none)
    (hholder : s.1.holder = some none) (hcurrent : Current items s) (hstart : t.1.stream = s.1.stream) :
    Current items t := by
  obtain ⟨hstarts, hlagged⟩ := h.locked hthread hholder
  obtain ⟨hsent, hlast⟩ := h.sent hthread
  refine ⟨?_, ?_, fun hnone => ?_⟩
  · intro j hj n hn
    rw [hstarts] at hn
    rw [hstart] at hj
    rw [(h.delivered (Or.inl hthread) j n hn).2, hsent]
    exact hcurrent.served j hj n hn
  · intro j n hn hopen hlag
    rw [hstarts] at hn
    rw [hlagged] at hlag
    obtain ⟨hcontent, hserved⟩ := hcurrent.open_ j n hn (h.closed hthread j hopen) hlag
    rw [(h.delivered (Or.inl hthread) j n hn).2, hsent]
    rw [hstart, hlast]
    exact ⟨hcontent, hserved⟩
  · rw [hsent]
    exact hcurrent.more (hlast.symm.trans hnone)

theorem stable_between (done : List Line) (last : Option Line) :
    (broadcast_rules first items).Stable none (Between done last) := by
  intro q hq s t _ _ hP h
  obtain ⟨hsent, hlast⟩ := h.sent hq
  exact ⟨fun ht => hP.holder ((h.holder none (Ne.symm hq)).1 ht), hsent.trans hP.sent, hlast.trans hP.last⟩

theorem stable_fan (close : Bool) (todo kept : List ι) :
    (broadcast_rules first items).Stable none (Fan done line close todo kept) := by
  intro q hq s t _ _ hP h
  obtain ⟨hsent, hlast⟩ := h.sent hq
  obtain ⟨hstart, hlagged⟩ := h.locked hq hP.holder
  have hcontent : ∀ j n, s.2.start j = some n → content t j = content s j :=
    fun j n hn => (h.delivered (Or.inl hq) j n hn).2
  refine ⟨(h.holder none (Ne.symm hq)).2 hP.holder, hsent.trans hP.sent, hlast.trans hP.last, hP.nodup,
    fun j hj => ?_, fun j hj => ?_, fun j n hn hopen hlag hj => ?_⟩
  · obtain ⟨n, hn, hle, hj⟩ := hP.todo j hj
    exact ⟨n, by rw [hstart]; exact hn, hle, (hcontent j n hn).trans hj⟩
  · obtain ⟨n, hn, hj⟩ := hP.kept j hj
    exact ⟨n, by rw [hstart]; exact hn, (hcontent j n hn).trans hj⟩
  · rw [hstart] at hn
    rw [hlagged] at hlag
    rw [hcontent j n hn]
    exact hP.served j n hn (h.closed hq j hopen) hlag hj

theorem stable_unsubscribed (first i : ι) (items : List Line) :
    (broadcast_rules first items).Stable (owner first i) (Unsubscribed first i) := by
  intro q hq s t _ _ hP h
  obtain ⟨hstart, hchannel⟩ := h.fresh i (Ne.symm hq) hP.start
  exact ⟨hstart, fun hi => (hchannel hi).trans (hP.channel hi)⟩

theorem stable_subscribing (stream : ActiveTurnStreamState ι Line) :
    (broadcast_rules first items).Stable (owner first i) (Subscribing items first i stream) := by
  intro q hq s t hs ht hP h
  have hholder := (h.holder _ (Ne.symm hq)).2 hP.holder
  have hstream := h.stream _ (Ne.symm hq) hP.holder
  refine ⟨hholder, hstream.trans hP.stream,
    stable_unsubscribed first i items q hq s t hs ht hP.unsubscribed h, ?_⟩
  by_cases howner : owner first i = none
  · rw [howner] at hq
    exact h.current hq (by rw [hP.holder, howner]) hP.current hstream
  · refine ht.current fun h => howner ?_
    exact Option.some.inj (hholder.symm.trans h)

theorem stable_last (line : Line) :
    (broadcast_rules first items).Stable thread fun s => final_payload s = some line :=
  fun _ _ _ _ _ _ hP h => h.last line hP

/-- The lock is handed out to one thread. -/
theorem recorded_lock {sending : Option Line} {r : ActiveTurnStreamState ι Line}
    (h : recorded thread (.lock sending) () s = some (r, t)) :
    s.1.holder = none ∧ r = s.1.stream
      ∧ t = ({ s.1 with holder := some thread }, record thread (.lock sending) r s.1 s.2) := by
  obtain ⟨hexec, hhistory⟩ := with_history_eq_some h
  simp only [exec] at hexec
  split_ifs at hexec with hfree
  obtain ⟨rfl, hstate⟩ := Prod.mk.inj (Option.some.inj hexec)
  exact ⟨by simpa using hfree, rfl, Prod.ext hstate.symm hhistory⟩

variable {r : Unit}

theorem recorded_unlock {subscriber : Option ι} {stream : ActiveTurnStreamState ι Line}
    (h : recorded thread (.unlock subscriber stream) () s = some (r, t)) :
    t = ({ s.1 with
        holder := none
        stream := stream }, record thread (.unlock subscriber stream) r s.1 s.2) := by
  obtain ⟨hexec, hhistory⟩ := with_history_eq_some h
  exact Prod.ext (Prod.mk.inj (Option.some.inj hexec)).2.symm hhistory

theorem recorded_try_send {r : TrySend} (h : recorded thread (.try_send i line) () s = some (r, t)) :
    r = (try_send i line s.1).1
      ∧ t = ((try_send i line s.1).2, record thread (.try_send i line) r s.1 s.2) := by
  obtain ⟨hexec, hhistory⟩ := with_history_eq_some h
  have hexec := Option.some.inj hexec
  exact ⟨(congrArg Prod.fst hexec).symm, Prod.ext (congrArg Prod.snd hexec).symm hhistory⟩

theorem recorded_begin (h : recorded thread .begin_active_turn () s = some (r, t)) :
    t = ({ s.1 with active_turn := true }, s.2) := by
  obtain ⟨hexec, hhistory⟩ := with_history_eq_some h
  exact Prod.ext (congrArg Prod.snd (Option.some.inj hexec)).symm hhistory

theorem recorded_drop (h : recorded thread .drop_active_turn () s = some (r, t)) :
    t = ({ s.1 with active_turn := false }, s.2) := by
  obtain ⟨hexec, hhistory⟩ := with_history_eq_some h
  exact Prod.ext (congrArg Prod.snd (Option.some.inj hexec)).symm hhistory

theorem recorded_active_turn {r : Bool} (h : recorded thread .active_turn () s = some (r, t)) : t = s := by
  obtain ⟨hexec, hhistory⟩ := with_history_eq_some h
  exact Prod.ext (congrArg Prod.snd (Option.some.inj hexec)).symm hhistory

theorem recorded_close (h : recorded thread (.close i) () s = some (r, t)) :
    t = (s.1.set i ⟨(s.1.channels i).queue, true⟩, { s.2 with
      received := Function.update s.2.received i (s.2.received i) }) := by
  obtain ⟨hexec, hhistory⟩ := with_history_eq_some h
  rw [Function.update_eq_self]
  exact Prod.ext (congrArg Prod.snd (Option.some.inj hexec)).symm hhistory

theorem recorded_recv {r : Line} (h : recorded thread (.recv i) () s = some (r, t)) :
    ∃ queue, (s.1.channels i).queue = r :: queue
      ∧ t = (s.1.set i ⟨queue, (s.1.channels i).closed⟩, { s.2 with
        received := Function.update s.2.received i (s.2.received i ++ [r]) }) := by
  obtain ⟨hexec, hhistory⟩ := with_history_eq_some h
  simp only [exec] at hexec
  split at hexec
  · cases hexec
  · rename_i line queue hqueue
    obtain ⟨rfl, hstate⟩ := Prod.mk.inj (Option.some.inj hexec)
    exact ⟨queue, hqueue, Prod.ext hstate.symm hhistory⟩

/-- **`subscribe_stream_state`.** -/
theorem outline_subscribe (first i : ι) (items : List Line) (R : State ι Line × History ι Line → Prop)
    (hstable : (broadcast_rules first items).Stable (owner first i) R)
    (hframe : ∀ s t, R s → t.2.sent = s.2.sent → final_payload t = final_payload s → R t)
    (hfirst : i = first → ∀ s, R s → final_payload s = none) :
    (broadcast_rules first items).Outline (owner first i) (fun s => Unsubscribed first i s ∧ R s)
      (subscribe_stream_state i) fun _ s => s.1.holder ≠ some (owner first i) ∧ R s := by
  refine .bind (Q := fun stream s => Subscribing items first i stream s ∧ R s) ?_ fun stream => ?_
  · refine .lift (c := Call.lock none) (fun stream => (stable_subscribing stream).and hstable)
      fun s a r t hs hP _ h => ?_
    obtain ⟨hfree, rfl, rfl⟩ := recorded_lock h
    have hothers : ∀ q, q ≠ owner first i → (some (owner first i) = some q ↔ s.1.holder = some q) := by
      intro q hq
      rw [hfree]
      exact iff_of_false (fun h => hq (Option.some.inj h).symm) fun h => by cases h
    have hover : (final_payload s).isSome → some (owner first i) ≠ some none := by
      intro hsome hnone
      by_cases hi : i = first
      · rw [hfirst hi s hP.2] at hsome
        cases hsome
      · rw [owner, if_neg hi] at hnone
        cases hnone
    have hcurrent := hs.current (by rw [hfree]; exact fun h => by cases h)
    obtain ⟨hkept, hleaves⟩ := leaves_control first (owner first i) s.1.active_turn
      (some (owner first i)) hs hothers
      (fun _ => by rw [hfree]; exact fun h => by cases h) hover
    exact ⟨hkept, hleaves, ⟨rfl, rfl, ⟨hP.1.start, hP.1.channel⟩, hcurrent.served, hcurrent.open_,
      hcurrent.more⟩, hframe s _ hP.2 rfl rfl⟩
  · obtain ⟨subscribers, last⟩ := stream
    have hheld : ∀ q, q ≠ owner first i → ∀ s : State ι Line × History ι Line,
        s.1.holder = some (owner first i) → ((none : Option (Option ι)) = some q ↔ s.1.holder = some q) := by
      intro q hq s hs
      rw [hs]
      exact iff_of_false (fun h => by cases h) fun h => hq (Option.some.inj h).symm
    have hstable_holder : (broadcast_rules first items).Stable (owner first i)
        fun s => s.1.holder ≠ some (owner first i) :=
      fun q hq s t _ _ hP h ht => hP ((h.holder _ (Ne.symm hq)).1 ht)
    cases last with
    | none =>
      refine .bind (Rules.Outline.lift
        (c := Call.unlock (some i) ⟨subscribers ++ [i], none⟩) (fun _ => hstable_holder.and hstable)
        fun s a r t hs hP _ h => ?_) fun _ => .ret fun s _ h => h
      obtain ⟨hsubscribing, hR⟩ := hP
      have ht := recorded_unlock h
      have hlast : final_payload s = none := congrArg ActiveTurnStreamState.final_payload hsubscribing.stream
      obtain ⟨hkept, hleaves⟩ := leaves_subscribe hs hsubscribing.holder rfl hsubscribing.unsubscribed.start
        hlast hsubscribing.current
      rw [hsubscribing.stream] at hkept hleaves
      rw [ht]
      exact ⟨hkept, hleaves, fun h => (by cases h), hframe s _ hR rfl hlast.symm⟩
    | some final =>
      by_cases hi : i = first
      · refine .of_false fun s _ hP => ?_
        have hlast : final_payload s = some final :=
          congrArg ActiveTurnStreamState.final_payload hP.1.stream
        cases (hfirst hi s hP.2).symm.trans hlast
      have howner : owner first i = some i := if_neg hi
      refine .bind (Rules.Outline.lift (c := Call.unlock none ⟨subscribers, some final⟩)
        (Q := fun _ s => (s.1.holder ≠ some (owner first i) ∧ R s)
          ∧ Unsubscribed first i s ∧ final_payload s = some final)
        (fun _ => (hstable_holder.and hstable).and
          ((stable_unsubscribed first i items).and (stable_last final)))
        fun s a r t hs hP _ h => ?_) fun _ => ?_
      · obtain ⟨hsubscribing, hR⟩ := hP
        have ht := recorded_unlock h
        have hlast : final_payload s = some final :=
          congrArg ActiveTurnStreamState.final_payload hsubscribing.stream
        obtain ⟨hkept, hleaves⟩ := leaves_control first (owner first i) s.1.active_turn none hs
          (fun q hq => hheld q hq s hsubscribing.holder)
          (fun _ => by rw [hsubscribing.holder, howner]; exact fun h => by cases h)
          (fun _ h => by cases h)
        have hstate : t = ({ s.1 with holder := none }, s.2) := ht.trans (congrArg
          (fun stream => (({ s.1 with
            holder := none
            stream := stream } : State ι Line), s.2)) hsubscribing.stream.symm)
        rw [hstate]
        refine ⟨hkept, hleaves, ⟨fun h => (by cases h), hframe s _ hR rfl rfl⟩, ?_, hlast⟩
        exact ⟨hsubscribing.unsubscribed.start, hsubscribing.unsubscribed.channel⟩
      · refine .bind (Rules.Outline.lift (c := Call.try_send i final)
          (fun _ => hstable_holder.and hstable) fun s a r t hs hP _ h => ?_)
          fun _ => .ret fun s _ h => h
        obtain ⟨⟨hholder, hR⟩, hunsubscribed, hlast⟩ := hP
        have hchannel := hunsubscribed.channel hi
        have hsend : try_send i final s.1 = (.Ok, s.1.set i ⟨[final], false⟩) := by
          unfold try_send
          rw [hchannel]
          rfl
        obtain ⟨rfl, ht⟩ := recorded_try_send h
        rw [hsend, howner] at ht
        obtain ⟨hkept, hleaves⟩ := leaves_late hs hi hunsubscribed.start hchannel hlast
        rw [howner, ht]
        rw [howner] at hholder
        exact ⟨hkept, hleaves, hholder, hframe s _ hR rfl rfl⟩

/-- **The fan-out.** -/
theorem outline_retain {close : Bool} (todo kept : List ι) :
    (broadcast_rules first items).Outline none (Fan done line close todo kept) (retain line close todo)
      fun others => Fan done line close [] (kept ++ others.2) := by
  induction todo generalizing kept with
  | nil =>
    refine .ret fun s _ h => ?_
    rwa [List.append_nil]
  | cons i todo ih =>
    refine .bind (Rules.Outline.lift (c := Call.try_send i line)
      (Q := fun answer : TrySend => Fan done line close todo
        (if answer = .Ok ∧ close = false then kept ++ [i] else kept))
      (fun _ => stable_fan close todo _) fun s a r t hs hP _ h => ?_) fun answer => ?_
    · obtain ⟨rfl, ht⟩ := recorded_try_send h
      rw [ht]
      exact leaves_send_one hs hP
    · refine .bind (ih _) fun others => .ret fun s _ h => ?_
      change TrySend at answer
      by_cases hkept : answer = .Ok ∧ close = false
      · rw [if_pos hkept, List.append_assoc] at h
        rwa [if_pos hkept]
      · rw [if_neg hkept] at h
        rwa [if_neg hkept]

/-- **`send_stream_item`.** -/
theorem outline_send (close : Bool) (hitems : done ++ [line] <+: items)
    (hclose : close = true → done ++ [line] = items) (hmore : close = false → done ++ [line] ≠ items) :
    (broadcast_rules first items).Outline none (Between done none) (send_stream_item line close)
      fun _ => Between (done ++ [line]) (if close then some line else none) := by
  refine .bind (Rules.Outline.lift (c := Call.lock (some line))
    (Q := fun (stream : ActiveTurnStreamState ι Line) s => Fan done line close stream.subscribers [] s
      ∧ stream.final_payload = none)
    (fun stream => ?_) fun s a r t hs hP _ h => ?_) fun stream => ?_
  · intro q hq s t hs ht hP h
    exact ⟨stable_fan close _ _ q hq s t hs ht hP.1 h, hP.2⟩
  · obtain ⟨hfree, rfl, rfl⟩ := recorded_lock h
    obtain ⟨hkept, hleaves, hfan⟩ := leaves_send_lock close hs hfree hP hitems
    exact ⟨hkept, hleaves, hfan, hP.last⟩
  · by_cases hlast : stream.final_payload = none
    swap
    · exact .of_false fun s _ hP => hlast hP.2
    refine .bind ((outline_retain stream.subscribers []).mono fun s _ hP => hP.1) fun kept => ?_
    refine .bind (Rules.Outline.lift (c := Call.unlock none _)
      (Q := fun _ => Between (done ++ [line]) (if close then some line else none))
      (fun _ => stable_between _ _) fun s a r t hs hP _ h => ?_) fun _ => .ret fun s _ h => h
    have ht := recorded_unlock h
    obtain ⟨hkept, hleaves⟩ := leaves_send_unlock first hs hP hclose hmore
    rw [ht, hlast]
    exact ⟨hkept, hleaves, fun h => (by cases h), hP.sent, rfl⟩

/-- The lines before the last. -/
theorem outline_send_events (done lines : List Line) (hitems : done ++ lines <+: items)
    (hmore : done ++ lines ≠ items) :
    (broadcast_rules first items).Outline none (Between done none) (send_events lines)
      fun _ => Between (done ++ lines) none := by
  induction lines generalizing done with
  | nil =>
    refine .ret fun s _ h => ?_
    rwa [List.append_nil]
  | cons line lines ih =>
    have hsplit : done ++ line :: lines = done ++ [line] ++ lines := by simp
    rw [hsplit] at hitems hmore ⊢
    have hprefix' : done ++ [line] <+: items := (List.prefix_append _ _).trans hitems
    refine .bind (outline_send false hprefix' (fun h => by cases h) fun _ heq => ?_)
      fun _ => ih _ hitems hmore
    rw [heq] at hitems hmore
    have hnil : lines = [] := by simpa using hitems.length_le
    exact hmore (by rw [hnil, List.append_nil])

theorem leaves_active (first : ι) (thread : Option ι) (active : Bool) (h : Kept items s) :
    Kept items ({ s.1 with active_turn := active }, s.2)
      ∧ Leaves first thread s ({ s.1 with active_turn := active }, s.2) :=
  leaves_control first thread active s.1.holder h (fun _ _ => Iff.rfl) id fun hsome => by
    obtain ⟨line, hline⟩ := Option.isSome_iff_exists.1 hsome
    exact (h.last line hline).2.2.2

/-- **The turn.** -/
theorem outline_stream_message {events : List Line} {final : Line} :
    (broadcast_rules first (events ++ [final])).Outline none
      (fun s => Unsubscribed first first s ∧ s.2.sent = [] ∧ final_payload s = none)
      (stream_message first events final) fun _ => Between (events ++ [final]) (some final) := by
  have howner : owner first first = none := if_pos rfl
  have hstable : (broadcast_rules first (events ++ [final])).Stable none
      fun s => s.2.sent = [] ∧ final_payload s = none := by
    intro q hq s t _ _ hP h
    obtain ⟨hsent, hlast⟩ := h.sent hq
    exact ⟨hsent.trans hP.1, hlast.trans hP.2⟩
  have hunsubscribed := stable_unsubscribed first first (events ++ [final])
  have hsubscribe := outline_subscribe first first (events ++ [final])
    (fun s => s.2.sent = [] ∧ final_payload s = none) (by rw [howner]; exact hstable)
    (fun s t hs hsent hlast => ⟨hsent.trans hs.1, hlast.trans hs.2⟩) fun _ s hs => hs.2
  rw [howner] at hunsubscribed hsubscribe
  refine .bind (Rules.Outline.lift (c := Call.begin_active_turn)
    (fun _ => hunsubscribed.and hstable)
    fun s a r t hs hP _ h => ?_) fun _ => ?_
  · rw [recorded_begin h]
    obtain ⟨hkept, hleaves⟩ := leaves_active first none true hs
    exact ⟨hkept, hleaves, ⟨hP.1.start, hP.1.channel⟩, hP.2⟩
  refine .bind hsubscribe fun _ => ?_
  refine .bind (Rules.Outline.mono (outline_send_events [] events
    (List.prefix_append _ _) (by simp)) fun s _ h => ⟨h.1, h.2.1, h.2.2⟩) fun _ => ?_
  refine .bind (outline_send true List.prefix_rfl (fun _ => rfl) fun h => by cases h) fun _ => ?_
  refine .bind (Rules.Outline.lift (c := Call.drop_active_turn) (fun _ => stable_between _ _)
    fun s a r t hs hP _ h => ?_) fun _ => .ret fun s _ h => h
  rw [recorded_drop h]
  obtain ⟨hkept, hleaves⟩ := leaves_active first none false hs
  exact ⟨hkept, hleaves, hP.holder, hP.sent, hP.last⟩

theorem outline_respond (reads : ℕ) :
    (broadcast_rules first items).Outline (some i) (fun _ => True) (respond i reads)
      fun _ _ => True := by
  induction reads with
  | zero =>
    refine .bind (Rules.Outline.lift (c := Call.close i) (fun _ _ _ _ _ _ _ _ _ => trivial)
      fun s a r t hs _ _ h => ?_) fun _ => .ret fun _ _ _ => trivial
    rw [recorded_close h]
    obtain ⟨hkept, hleaves⟩ := leaves_channel first i ⟨(s.1.channels i).queue, true⟩
      (s.2.received i) hs rfl fun h => by cases h
    exact ⟨hkept, hleaves, trivial⟩
  | succ reads ih =>
    refine .bind (Rules.Outline.lift (c := Call.recv i) (fun _ _ _ _ _ _ _ _ _ => trivial)
      fun s a (r : Line) t hs _ _ h => ?_) fun _ => ih
    obtain ⟨queue, hqueue, ht⟩ := recorded_recv h
    have hcontent : s.2.received i ++ [r] ++ queue = content s i := by
      unfold content
      rw [hqueue, List.append_assoc]
      rfl
    obtain ⟨hkept, hleaves⟩ := leaves_channel first i ⟨queue, (s.1.channels i).closed⟩
      (s.2.received i ++ [r]) hs hcontent id
    rw [ht]
    exact ⟨hkept, hleaves, trivial⟩

/-- **A response that is attached.** -/
theorem outline_stream_turn (hi : i ≠ first) (reads : ℕ) :
    (broadcast_rules first items).Outline (some i) (Unsubscribed first i)
      (stream_turn i reads) fun _ _ => True := by
  have howner : owner first i = some i := if_neg hi
  have hunsubscribed := stable_unsubscribed first i items
  have hsubscribe := outline_subscribe first i items (fun _ => True) (fun _ _ _ _ _ _ _ _ => trivial)
    (fun _ _ _ _ _ => trivial)
    fun h => absurd h hi
  rw [howner] at hunsubscribed hsubscribe
  refine .bind (Q := fun _ _ => True) ?_ fun subscribed => ?_
  · refine .bind (Rules.Outline.lift (c := Call.active_turn) (fun _ => hunsubscribed)
      fun s a r t hs hP _ h => ?_) fun registered => ?_
    · rw [recorded_active_turn h]
      obtain ⟨hkept, hleaves⟩ := leaves_active first (some i) s.1.active_turn hs
      exact ⟨hkept, hleaves, hP⟩
    · cases registered with
      | false => exact .ret fun _ _ _ => trivial
      | true =>
        exact (hsubscribe.mono fun s _ h => ⟨h, trivial⟩).weaken fun _ _ _ _ => trivial
  · cases subscribed with
    | false => exact .ret fun _ _ _ => trivial
    | true => exact outline_respond reads

end Outlines

/-! ## The lock -/

section Brackets

variable {α β : Type}

/-- Where a call may be made: without the lock or, by the sender alone, with it; and whether the
lock is held after it. -/
def Call.held_after (sender held : Bool) : Call ι Line → Option Bool
  | .lock _ => if held then none else some true
  | .unlock .. => if held then some false else none
  | .try_send .. => if held && !sender then none else some held
  | .recv _ => if held || sender then none else some held
  | _ => if held then none else some held

/-- A program that takes the lock gives it back: at its next call, unless it is the sender. -/
def Bracketed (sender : Bool) : Bool → Prog (Call ι Line) Reply α → Bool → Prop
  | held, .ret _, last => held = last
  | held, .call c k, last =>
    ∃ held', c.held_after sender held = some held' ∧ ∀ r, Bracketed sender held' (k r) last

theorem Bracketed.bind {sender held last : Bool} (held' : Bool) {x : Prog (Call ι Line) Reply α}
    {f : α → Prog (Call ι Line) Reply β} (h : Bracketed sender held x held')
    (hf : ∀ a, Bracketed sender held' (f a) last) : Bracketed sender held (x >>= f) last := by
  induction x generalizing held with
  | ret a =>
    obtain rfl : held = held' := h
    exact hf a
  | call c k ih =>
    obtain ⟨held₁, hcall, hrest⟩ := h
    exact ⟨held₁, hcall, fun r => ih r (hrest r)⟩

variable {c : Call ι Line}

theorem Bracketed.call {sender held last : Bool} (held' : Bool)
    {f : Reply c → Prog (Call ι Line) Reply α} (h : c.held_after sender held = some held')
    (hf : ∀ r, Bracketed sender held' (f r) last) : Bracketed sender held (Prog.lift c >>= f) last :=
  ⟨held', h, hf⟩

theorem bracketed_retain (line : Line) (close : Bool) (subscribers : List ι) :
    Bracketed true true (retain line close subscribers) true := by
  induction subscribers with
  | nil => exact rfl
  | cons i rest ih =>
    exact Bracketed.call true rfl fun _ => Bracketed.bind _ ih fun _ => rfl

theorem bracketed_send (line : Line) (close : Bool) :
    Bracketed true false (send_stream_item line close : Prog (Call ι Line) Reply Bool) false :=
  Bracketed.call true rfl fun stream =>
    Bracketed.bind _ (bracketed_retain line close stream.subscribers) fun _ =>
      Bracketed.call false rfl fun _ => rfl

theorem bracketed_subscribe (sender : Bool) (i : ι) :
    Bracketed sender false (subscribe_stream_state i : Prog (Call ι Line) Reply Bool) false := by
  refine Bracketed.call true rfl fun stream => ?_
  obtain ⟨subscribers, last⟩ := stream
  cases last with
  | none => exact Bracketed.call false rfl fun _ => rfl
  | some final =>
    refine Bracketed.call false rfl fun _ => ?_
    exact Bracketed.call false rfl fun _ => rfl

theorem bracketed_send_events (lines : List Line) :
    Bracketed true false (send_events lines : Prog (Call ι Line) Reply Unit) false := by
  induction lines with
  | nil => exact rfl
  | cons line lines ih => exact Bracketed.bind _ (bracketed_send line false) fun _ => ih

theorem bracketed_respond (i : ι) (reads : ℕ) :
    Bracketed false false (respond i reads : Prog (Call ι Line) Reply Unit) false := by
  induction reads with
  | zero => exact Bracketed.call false rfl fun _ => rfl
  | succ reads ih => exact Bracketed.call false rfl fun _ => ih

theorem Bracketed.unlocks {held : Bool} {x : Prog (Call ι Line) Reply α} (h : Bracketed false held x false)
    (hheld : held = true) :
    ∃ subscriber stream k, x = .call (.unlock subscriber stream) k := by
  subst hheld
  cases x with
  | ret a => cases h
  | call c k =>
    obtain ⟨held', hcall, -⟩ := h
    cases c with
    | unlock subscriber stream => exact ⟨subscriber, stream, k, rfl⟩
    | _ => simp [Call.held_after] at hcall

variable [DecidableEq ι]

theorem bracketed_party (first : ι) (events : List Line) (final : Line) (reads : ι → ℕ) (q : Option ι) :
    Bracketed q.isNone false (party first events final reads q) false := by
  cases q with
  | none =>
    refine Bracketed.call false rfl fun _ => ?_
    refine Bracketed.bind _ (bracketed_subscribe true first) fun _ => ?_
    refine Bracketed.bind _ (bracketed_send_events events) fun _ => ?_
    refine Bracketed.bind _ (bracketed_send final true) fun _ => ?_
    exact Bracketed.call false rfl fun _ => rfl
  | some i =>
    show Bracketed false false (if i = first then _ else _) false
    split_ifs with hi
    · exact bracketed_respond i (reads i)
    · refine Bracketed.bind false ?_ fun subscribed => ?_
      · refine Bracketed.call false rfl fun registered => ?_
        cases registered with
        | false => exact rfl
        | true => exact bracketed_subscribe false i
      · cases subscribed with
        | false => exact rfl
        | true => exact bracketed_respond i (reads i)

/-- The thread that holds the lock is in its bracket, and no other is. -/
def Brackets (s : Threads (Option ι) (Call ι Line) Unit (State ι Line × History ι Line) Reply) : Prop :=
  ∀ q, Bracketed q.isNone (decide (s.state.1.holder = some q)) (s.rest q) false

/-- What a call does to the lock. -/
theorem holder_exec {thread : Option ι} {sender held held' : Bool} {r : Reply c}
    {s t : State ι Line} (h : exec thread c () s = some (r, t))
    (hheld : decide (s.holder = some thread) = held) (hcall : c.held_after sender held = some held') :
    decide (t.holder = some thread) = held' ∧ ∀ q, q ≠ thread → (t.holder = some q ↔ s.holder = some q) := by
  have hsame : t.holder = s.holder → held = held' →
      decide (t.holder = some thread) = held' ∧ ∀ q, q ≠ thread → (t.holder = some q ↔ s.holder = some q) := by
    intro hholder heq
    rw [hholder, hheld]
    exact ⟨heq, fun _ _ => Iff.rfl⟩
  have hnone : ∀ {last : Bool}, (if held then none else some last) = some held' → held = false ∧ last
    = held' := by
    intro last h
    cases held with
    | false => exact ⟨rfl, Option.some.inj h⟩
    | true => cases h
  cases c with
  | lock sending =>
    obtain ⟨hfalse, rfl⟩ := hnone hcall
    simp only [exec] at h
    split_ifs at h with hfree
    obtain rfl := (Prod.mk.inj (Option.some.inj h)).2
    refine ⟨by simp, fun q hq => ?_⟩
    rw [Option.isNone_iff_eq_none.1 hfree]
    exact iff_of_false (fun h => hq (Option.some.inj h).symm) fun h => by cases h
  | unlock subscriber stream =>
    obtain rfl := (Prod.mk.inj (Option.some.inj h)).2
    cases held with
    | false => cases hcall
    | true =>
      obtain rfl := Option.some.inj hcall
      refine ⟨by simp, fun q hq => ?_⟩
      rw [of_decide_eq_true hheld]
      exact iff_of_false (fun h => by cases h) fun h => hq (Option.some.inj h).symm
  | try_send i line =>
    have ht : (try_send i line s).2 = t := congrArg Prod.snd (Option.some.inj h)
    refine hsame ?_ ?_
    · rw [← ht]
      rcases try_send_cases i line s with ⟨-, hsend⟩ | ⟨-, hsend⟩ | hsend
      · rw [hsend]
      · rw [hsend]
        rfl
      · rw [hsend]
    · simp only [Call.held_after] at hcall
      split_ifs at hcall
      exact Option.some.inj hcall
  | recv i =>
    simp only [exec] at h
    split at h
    · cases h
    · obtain rfl := (Prod.mk.inj (Option.some.inj h)).2
      refine hsame rfl ?_
      simp only [Call.held_after] at hcall
      split_ifs at hcall
      exact Option.some.inj hcall
  | begin_active_turn | drop_active_turn | active_turn | close i =>
    obtain rfl := (Prod.mk.inj (Option.some.inj h)).2
    exact hsame rfl (hnone hcall).2

theorem exec_sender {held held' : Bool} (s : State ι Line)
    (hcall : c.held_after true held = some held') (hlock : ∀ sending, c = .lock sending → s.holder = none) :
    ∃ r t, exec none c () s = some (r, t) := by
  cases c with
  | lock sending =>
    refine ⟨s.stream, { s with holder := some none }, ?_⟩
    simp only [exec]
    rw [if_pos (Option.isNone_iff_eq_none.2 (hlock sending rfl))]
  | recv i => simp [Call.held_after] at hcall
  | _ => exact ⟨_, _, rfl⟩

/-- **One call** keeps the brackets. -/
theorem Brackets.step {s t : Threads (Option ι) (Call ι Line) Unit (State ι Line × History ι Line) Reply}
    {move : Move (Option ι) Unit} (h : Brackets s) (hstep : Advance recorded s move t) : Brackets t := by
  obtain ⟨c, k, r, state, hrest, hexec, rfl⟩ := hstep.elim
  have hmover := h move.thread
  rw [hrest] at hmover
  obtain ⟨held', hcall, hnext⟩ := hmover
  obtain ⟨hself, hothers⟩ := holder_exec (with_history_eq_some hexec).1 rfl hcall
  intro q
  by_cases hq : q = move.thread
  · subst hq
    show Bracketed _ (decide (state.1.holder = some move.thread)) (Function.update s.rest _ _ _) false
    rw [Function.update_self, hself]
    exact hnext r
  · show Bracketed _ (decide (state.1.holder = some q)) (Function.update s.rest _ _ q) false
    rw [Function.update_of_ne hq, decide_eq_decide.2 (hothers q hq)]
    exact h q

end Brackets

/-! ## Runs -/

section Runs

variable [DecidableEq ι] {first : ι} {events : List Line} {final : Line} {reads : ι → ℕ}

/-- Where the threads end: the sender has sent every line. -/
def Ended (items : List Line) (final : Line) :
    Option ι → Unit → State ι Line × History ι Line → Prop
  | none, _, s => Between items (some final) s
  | some _, _, _ => True

theorem outlined_parties (first : ι) (events : List Line) (final : Line) (reads : ι → ℕ) :
    (broadcast_rules first (events ++ [final])).Outlined (Ended (events ++ [final]) final)
      (parties first events final reads) := by
  have hunsubscribed : ∀ i, Unsubscribed first i (initial : State ι Line × History ι Line) :=
    fun i => ⟨rfl, fun _ => rfl⟩
  have hsome : [] ≠ events ++ [final] := by simp
  refine ⟨⟨List.nil_prefix, fun i n h => (by cases h), fun i n h => (by cases h), fun i _ => rfl,
    List.nodup_nil, fun i h => absurd h List.not_mem_nil, fun _ => ⟨fun i h => absurd h List.not_mem_nil,
    fun i n h => (by cases h), fun _ h => hsome h⟩, fun line h => by cases h⟩, fun q => ?_⟩
  cases q with
  | none =>
    refine ⟨_, ?_, ⟨hunsubscribed first, rfl, rfl⟩, outline_stream_message⟩
    have howner : owner first first = none := if_pos rfl
    refine Rules.Stable.and (howner ▸ stable_unsubscribed first first (events ++ [final])) ?_
    intro q hq s t _ _ hP h
    obtain ⟨hsent, hlast⟩ := h.sent hq
    exact ⟨hsent.trans hP.1, hlast.trans hP.2⟩
  | some i =>
    have hrest : (parties first events final reads).rest (some i)
        = if i = first then respond i (reads i) else stream_turn i (reads i) := rfl
    rw [hrest]
    split_ifs with hi
    · exact ⟨fun _ => True, fun _ _ _ _ _ _ _ _ => trivial, trivial, outline_respond (reads i)⟩
    · have howner : owner first i = some i := if_neg hi
      have hstable := stable_unsubscribed first i (events ++ [final])
      rw [howner] at hstable
      exact ⟨Unsubscribed first i, hstable, hunsubscribed i, outline_stream_turn hi (reads i)⟩

/-- What holds from the last line on, of a response that was not subscribed before. -/
def Attached (items : List Line) (final : Line) (i : ι) (s : State ι Line × History ι Line) : Prop :=
  final_payload s = some final
    ∧ (s.2.start i = none ∨ (s.2.start i = some (items.length - 1) ∧ content s i = [final]))

theorem Leaves.attached {thread : Option ι} {items : List Line} {i : ι} {s t : State ι Line × History ι Line}
    (h : Leaves first thread s t) (hs : Kept items s) (hattached : Attached items final i s) :
    Attached items final i t := by
  obtain ⟨hlast, hi⟩ := hattached
  refine ⟨h.last final hlast, ?_⟩
  rcases hi with hnone | ⟨hsome, hcontent⟩
  · cases hstart : t.2.start i with
    | none => exact Or.inl rfl
    | some n =>
      obtain ⟨hn, hcontent⟩ := h.late final hlast i n hnone hstart
      obtain ⟨-, hsent, -, -⟩ := hs.last final hlast
      refine Or.inr ⟨?_, hcontent⟩
      rw [← hsent, ← hn]
      rfl
  · obtain ⟨hstart, hsame⟩ := h.delivered (Or.inr (by rw [hlast]; rfl)) i _ hsome
    exact Or.inr ⟨hstart, hsame.trans hcontent⟩

end Runs

/-! ## One turn with three responses -/

/-- The turn, with the response of its request and two that may be attached. -/
def one_turn : Threads (Option (Fin 3)) (Call (Fin 3) ℕ) Unit (State (Fin 3) ℕ × History (Fin 3) ℕ) Reply :=
  parties 0 [1, 2] 9 fun _ => 1

/-- Calls of one thread. -/
def calls (thread : Option (Fin 3)) (n : ℕ) : List (Move (Option (Fin 3)) Unit) :=
  List.replicate n ⟨thread, ()⟩

/-- The first event is sent, a response is attached, and the other lines are sent. -/
def sending_calls : List (Move (Option (Fin 3)) Unit) :=
  calls none 6 ++ calls (some 1) 3 ++ calls none 8

/-- Another response is attached, and reads; then the turn ends. -/
def attaching_calls : List (Move (Option (Fin 3)) Unit) := calls (some 2) 5 ++ calls none 1

/-- A program that has ended. -/
def has_ended (p : Prog (Call (Fin 3) ℕ) Reply Unit) : Bool :=
  match p with
  | .ret _ => true
  | .call _ _ => false

theorem eq_ret_of_has_ended {p : Prog (Call (Fin 3) ℕ) Reply Unit} (h : has_ended p = true) :
    p = .ret () := by
  cases p with
  | ret a => rfl
  | call c k => cases h

end AgentSpace.Sessions.Broadcast
