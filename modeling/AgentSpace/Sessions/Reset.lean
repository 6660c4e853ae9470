/-
Resetting a session while its turns run.

`reset_session` clears the messages under the lifecycle lock, but a turn holds that lock only
while it makes sure of the runtime, and writes its messages by their identifiers whether they
are still there or not. In memory a record is stored with the messages that it had when it
was read, also by `reset_session` itself.
-/
import AgentSpace.Sessions.Handlers

set_option autoImplicit false

namespace AgentSpace.Sessions

open Text Lib

variable {ι Event : Type}

/-! ## What must not come back -/

/-- The turn of a request. -/
def Request.turn : Request → Option Turn
  | .stream_message turn | .send_message turn => some turn
  | _ => none

/-- The identifiers of the messages of a request. -/
def Request.message_ids (request : Request) : List Text :=
  match request.turn with
  | some turn => [turn.user_message_id, turn.assistant_message_id]
  | none => []

/-- The requests that a reset is to be a barrier for, and the reset. -/
def Request.IsChat : Request → Prop
  | .reset_session | .stream_message _ | .send_message _ => True
  | _ => False

/-- The turns that have begun, the messages of the turns that have begun so far, and those
of the turns that had begun when the messages were last cleared. -/
structure Barrier (ι : Type) where
  begun : List ι
  old : List Text
  barred : List Text

/-- Before the run: the messages that are there are of turns that have begun. -/
def Barrier.init (s : AppState ι) : Barrier ι where
  begun := []
  old := (s.sessions.elim [] SessionRecord.messages).map MessageRecord.message_id
  barred := []

/-- A turn begins when it is registered. -/
def record_barrier (requests : ι → Request) (i : ι) :
    (c : Call Event) → Reply c → AppState ι → Barrier ι → Barrier ι
  | .begin_active_turn _, (.ok () : Except Text Unit), _, barrier =>
    { barrier with begun := i :: barrier.begun, old := (requests i).message_ids ++ barrier.old }
  | .clear_messages, (.ok () : Except StoreError Unit), _, barrier =>
    { barrier with barred := barrier.old }
  | _, _, _, barrier => barrier

/-- The sessions with this history. -/
abbrev barred (store : SessionStore) (requests : ι → Request) :
    Exec ι (Call Event) (Choice Event) (AppState ι × Barrier ι) Reply :=
  with_history (exec store) (record_barrier requests)

/-- No message is written from here on. -/
def WritesNone {α : Type} (p : Prog (Call Event) Reply α) : Prop :=
  p.Only fun c => c.message = none

section Runs

variable [DecidableEq ι] {α : Type}

/-- What a step has to meet: when the messages are cleared, no turn that has begun has a
message to write; and in memory no record is stored that was read with messages of a turn
that had begun when they were cleared. -/
structure Settled (store : SessionStore) (s : Threads ι (Call Event) α (AppState ι × Barrier ι) Reply)
    (move : Move ι (Choice Event)) (_ : Threads ι (Call Event) α (AppState ι × Barrier ι) Reply) :
    Prop where
  clear : ∀ k, s.rest move.thread = .call .clear_messages k →
    ∀ i ∈ s.state.2.begun, WritesNone (s.rest i)
  update : store = .InMemory → ∀ applied session k,
    s.rest move.thread = .call (.update applied session) k →
      ∀ message ∈ session.messages, message.message_id ∉ s.state.2.barred

/-- The messages that were cleared are not there. -/
def StaysCleared (s : AppState ι × Barrier ι) : Prop :=
  ∀ session ∈ s.1.sessions, ∀ message ∈ session.messages, message.message_id ∉ s.2.barred

end Runs

/-! ## What the calls do to the messages -/

section Calls

variable {store : SessionStore} {i : ι} {s t : AppState ι}

theorem mem_upsert_message {message m : MessageRecord} {messages : List MessageRecord}
    (h : m ∈ SessionStore.upsert_message message messages) :
    m.message_id = message.message_id ∨ m ∈ messages := by
  induction messages with
  | nil => exact Or.inl (by rw [List.mem_singleton.1 h])
  | cons existing rest ih =>
    unfold SessionStore.upsert_message at h
    split_ifs at h with heq
    · rcases List.mem_cons.1 h with rfl | h
      · exact Or.inl rfl
      · exact Or.inr (List.mem_cons_of_mem _ h)
    · rcases List.mem_cons.1 h with rfl | h
      · exact Or.inr (List.mem_cons_self ..)
      · exact (ih h).imp_right (List.mem_cons_of_mem _)

theorem mem_replace_message {message m : MessageRecord} {messages : List MessageRecord}
    (h : m ∈ SessionStore.replace_message message messages) :
    m.message_id = message.message_id ∨ m ∈ messages := by
  induction messages with
  | nil => exact Or.inl (by rw [List.mem_singleton.1 h])
  | cons existing rest ih =>
    unfold SessionStore.replace_message at h
    split_ifs at h with heq
    · rcases List.mem_cons.1 h with rfl | h
      · exact Or.inl rfl
      · exact Or.inr (List.mem_cons_of_mem _ h)
    · rcases List.mem_cons.1 h with rfl | h
      · exact Or.inr (List.mem_cons_self ..)
      · exact (ih h).imp_right (List.mem_cons_of_mem _)

variable {choice : Choice Event} {session : SessionRecord}

/-- The messages after a call about one message. -/
theorem mem_messages_write (message : MessageRecord) {m : MessageRecord}
    {f : List MessageRecord → List MessageRecord} {result : Except StoreError SessionRecord}
    {r : Except StoreError Unit}
    (hresult : ∀ updated, result = .ok updated → ∃ existing, s.sessions = some existing
      ∧ updated.messages = f existing.messages)
    (hf : ∀ messages, m ∈ f messages → m.message_id = message.message_id ∨ m ∈ messages)
    (h : write s choice result = some (r, t)) (hsession : session ∈ t.sessions)
    (hm : m ∈ session.messages) :
    (∃ session ∈ s.sessions, m ∈ session.messages) ∨ m.message_id = message.message_id := by
  rcases write_eq_some h with ⟨updated, hok, -, rfl⟩ | ⟨-, rfl⟩
  · obtain rfl : updated = session := Option.some.inj hsession
    obtain ⟨existing, hstored, hmessages⟩ := hresult updated hok
    rw [hmessages] at hm
    rcases hf _ hm with hm | hm
    · exact Or.inr hm
    · exact Or.inl ⟨existing, hstored, hm⟩
  · exact Or.inl ⟨session, hsession, hm⟩

/-- The messages after `append_message`. -/
def appended (store : SessionStore) (message : MessageRecord) (messages : List MessageRecord) :
    List MessageRecord :=
  match store with
  | .InMemory => messages ++ [message]
  | .Sqlite => SessionStore.upsert_message message messages

/-- The messages after `update_message`. -/
def replaced (store : SessionStore) (message : MessageRecord) (messages : List MessageRecord) :
    List MessageRecord :=
  match store with
  | .InMemory => SessionStore.replace_message message messages
  | .Sqlite => SessionStore.upsert_message message messages

/-- Where a stored message comes from: it was stored, it is the one that is written, or it
is one of the record that is written, in memory. -/
theorem mem_messages_exec {c : Call Event} {r : Reply c}
    (h : exec store i c choice s = some (r, t)) (hsession : session ∈ t.sessions)
    {m : MessageRecord} (hm : m ∈ session.messages) : (∃ session ∈ s.sessions, m ∈ session.messages)
      ∨ (∃ message, c.message = some message ∧ m.message_id = message.message_id)
      ∨ (store = .InMemory ∧ ∃ applied session, c = .update applied session ∧ m ∈ session.messages) := by
  by_cases hc : c.IsWrite
  swap
  · obtain ⟨hsessions, -⟩ := exec_of_not_write hc h
    exact Or.inl ⟨session, hsessions ▸ hsession, hm⟩
  cases c with
  | update applied written =>
    rcases write_eq_some h with ⟨updated, hupdate, -, rfl⟩ | ⟨-, rfl⟩
    · obtain rfl : updated = session := Option.some.inj hsession
      unfold SessionStore.update at hupdate
      cases hstored : s.sessions with
      | none => rw [hstored] at hupdate; cases hupdate
      | some existing =>
        rw [hstored] at hupdate
        cases store with
        | InMemory =>
          obtain rfl : written = updated := Except.ok.inj hupdate
          exact Or.inr (Or.inr ⟨rfl, applied, written, rfl, hm⟩)
        | Sqlite =>
          dsimp only at hupdate
          cases hgeneration : optional_u64_to_i64 written.runtime_generation with
          | error e => rw [hgeneration] at hupdate; cases hupdate
          | ok value =>
            rw [hgeneration] at hupdate
            rw [← Except.ok.inj hupdate] at hm
            exact Or.inl ⟨existing, rfl, hm⟩
    · exact Or.inl ⟨session, hsession, hm⟩
  | append_message message =>
    have hmem := mem_messages_write message (f := appended store message)
      (fun updated happend => ?_) (fun messages hm => ?_) h hsession hm
    · exact hmem.imp_right fun hid => Or.inl ⟨message, rfl, hid⟩
    · unfold SessionStore.append_message at happend
      cases hstored : s.sessions with
      | none => rw [hstored] at happend; cases happend
      | some existing =>
        rw [hstored] at happend
        exact ⟨existing, rfl, by rw [← Except.ok.inj happend]; rfl⟩
    · cases store with
      | InMemory =>
        exact (List.mem_append.1 hm).symm.imp_left fun hm => by rw [List.mem_singleton.1 hm]
      | Sqlite => exact mem_upsert_message hm
  | update_message final message =>
    have hmem := mem_messages_write message (f := replaced store message)
      (fun updated hupdate => ?_) (fun messages hm => ?_) h hsession hm
    · exact hmem.imp_right fun hid => Or.inl ⟨message, rfl, hid⟩
    · unfold SessionStore.update_message at hupdate
      cases hstored : s.sessions with
      | none => rw [hstored] at hupdate; cases hupdate
      | some existing =>
        rw [hstored] at hupdate
        exact ⟨existing, rfl, by rw [← Except.ok.inj hupdate]; rfl⟩
    · cases store with
      | InMemory => exact mem_replace_message hm
      | Sqlite => exact mem_upsert_message hm
  | clear_messages =>
    rcases write_eq_some h with ⟨updated, hclear, -, rfl⟩ | ⟨-, rfl⟩
    · obtain rfl : updated = session := Option.some.inj hsession
      unfold SessionStore.clear_messages at hclear
      cases hstored : s.sessions with
      | none => rw [hstored] at hclear; cases hclear
      | some existing =>
        rw [hstored] at hclear
        rw [← Except.ok.inj hclear] at hm
        cases hm
    · exact Or.inl ⟨session, hsession, hm⟩
  | _ => exact absurd hc id

theorem messages_of_cleared (h : exec store i (.clear_messages : Call Event) choice s = some (.ok (), t))
    (hsession : session ∈ t.sessions) : session.messages = [] := by
  rcases write_eq_some h with ⟨updated, hclear, -, rfl⟩ | ⟨⟨e, he⟩, -⟩
  · obtain rfl : updated = session := Option.some.inj hsession
    unfold SessionStore.clear_messages at hclear
    cases hstored : s.sessions with
    | none => rw [hstored] at hclear; cases hclear
    | some existing =>
      rw [hstored] at hclear
      rw [← Except.ok.inj hclear]
  · cases he

end Calls

/-! ## Runs -/

section Invariant

variable {store : SessionStore} {requests : ι → Request} {α : Type}

/-- What holds in every state of a run: the cleared messages are not there; a request writes
only its own messages; and the requests whose messages were cleared have nothing left to
write. -/
structure Kept (requests : ι → Request)
    (s : Threads ι (Call Event) α (AppState ι × Barrier ι) Reply) : Prop where
  clear : StaysCleared s.state
  own : ∀ i, (s.rest i).Only fun c => ∀ message, c.message = some message →
    message.message_id ∈ (requests i).message_ids
  begun : ∀ i, ∀ id ∈ (requests i).message_ids, id ∈ s.state.2.old → i ∈ s.state.2.begun
  old : ∀ id ∈ s.state.2.barred, id ∈ s.state.2.old
  done : ∀ i, ∀ id ∈ (requests i).message_ids, id ∈ s.state.2.barred → WritesNone (s.rest i)

/-- What a call does to the history. -/
theorem record_barrier_cases (requests : ι → Request) (i : ι) (c : Call Event) (r : Reply c)
    (s : AppState ι) (barrier : Barrier ι) :
    record_barrier requests i c r s barrier = barrier
      ∨ record_barrier requests i c r s barrier
          = { barrier with begun := i :: barrier.begun, old := (requests i).message_ids ++ barrier.old }
      ∨ (c = .clear_messages ∧ HEq r (Except.ok () : Except StoreError Unit)
        ∧ record_barrier requests i c r s barrier = { barrier with barred := barrier.old }) := by
  cases c with
  | begin_active_turn turn_id =>
    cases r with
    | ok _ => exact Or.inr (Or.inl rfl)
    | error e => exact Or.inl rfl
  | clear_messages =>
    cases r with
    | ok _ => exact Or.inr (Or.inr ⟨rfl, HEq.rfl, rfl⟩)
    | error e => exact Or.inl rfl
  | _ => exact Or.inl rfl

variable [DecidableEq ι] {s t : Threads ι (Call Event) α (AppState ι × Barrier ι) Reply}
  {move : Move ι (Choice Event)}

/-- **One step** keeps it. -/
theorem Kept.step (hfresh : ∀ i j, ∀ id ∈ (requests i).message_ids, id ∈ (requests j).message_ids → i = j)
    (h : Kept requests s) (hstep : Advance (barred store requests) s move t)
    (hsettled : Settled store s move t) : Kept requests t := by
  obtain ⟨c, k, r, state, hrest, hexec, rfl⟩ := hstep.elim
  obtain ⟨hexec, hhistory⟩ := with_history_eq_some hexec
  have hown := h.own move.thread
  rw [hrest] at hown
  have honly : ∀ {p : Call Event → Prop} (i : ι), (s.rest i).Only p →
      (Function.update s.rest move.thread (k r) i).Only p := by
    intro p i hi
    by_cases hmove : i = move.thread
    · subst hmove
      rw [hrest] at hi
      rw [Function.update_self]
      exact hi.2 r
    · rwa [Function.update_of_ne hmove]
  have hmessages : ∀ session ∈ state.1.sessions, ∀ message ∈ session.messages,
      message.message_id ∉ s.state.2.barred := by
    intro session hsession m hm hbarred
    rcases mem_messages_exec hexec hsession hm with ⟨session, hstored, hm⟩
      | ⟨message, hwritten, hid⟩ | ⟨hstore, applied, session, rfl, hm⟩
    · exact h.clear session hstored m hm hbarred
    · rw [hid] at hbarred
      have hnone := h.done move.thread _ (hown.1 message hwritten) hbarred
      rw [hrest] at hnone
      rw [hnone.1] at hwritten
      cases hwritten
    · exact hsettled.update hstore applied session k hrest m hm hbarred
  rcases record_barrier_cases requests move.thread c r s.state.1 s.state.2 with hsame | hbegin | hclear
  · rw [hsame] at hhistory
    refine ⟨?_, fun i => honly i (h.own i), ?_, ?_, fun i id hid hbarred => honly i (h.done i id hid ?_)⟩
    · unfold StaysCleared
      rwa [hhistory]
    · rw [hhistory]
      exact h.begun
    · rw [hhistory]
      exact h.old
    · rwa [hhistory] at hbarred
  · rw [hbegin] at hhistory
    refine ⟨?_, fun i => honly i (h.own i), ?_, ?_, fun i id hid hbarred => honly i (h.done i id hid ?_)⟩
    · unfold StaysCleared
      rwa [hhistory]
    · rw [hhistory]
      intro i id hid hold
      rcases List.mem_append.1 hold with hnew | hold
      · rw [hfresh i move.thread id hid hnew]
        exact List.mem_cons_self ..
      · exact List.mem_cons_of_mem _ (h.begun i id hid hold)
    · rw [hhistory]
      exact fun id hid => List.mem_append_right _ (h.old id hid)
    · rwa [hhistory] at hbarred
  · obtain ⟨rfl, hr, hclear⟩ := hclear
    obtain rfl : r = (Except.ok () : Except StoreError Unit) := eq_of_heq hr
    rw [hclear] at hhistory
    refine ⟨?_, fun i => honly i (h.own i), ?_, ?_, fun i id hid hbarred => honly i ?_⟩
    · intro session hsession message hmessage
      rw [messages_of_cleared hexec hsession] at hmessage
      cases hmessage
    · rw [hhistory]
      exact h.begun
    · rw [hhistory]
      exact fun id hid => hid
    · rw [hhistory] at hbarred
      exact hsettled.clear k hrest i (h.begun i id hid hbarred)

end Invariant

/-! ## The barrier -/

section Theorem

variable {store : SessionStore} {requests : ι → Request}

theorem only_own_messages (externals : Externals Event) (hchat : ∀ i, (requests i).IsChat) (i : ι) :
    (handler externals (requests i)).Only fun c => ∀ message, c.message = some message →
      message.message_id ∈ (requests i).message_ids := by
  have hother : ∀ c : Call Event, ¬c.IsTurn → ∀ message, c.message = some message →
      message.message_id ∈ (requests i).message_ids := by
    intro c hc message hmessage
    cases c <;> first | exact absurd trivial hc | cases hmessage
  have hi := hchat i
  cases hrequest : requests i with
  | reset_session =>
    rw [hrequest] at hother
    exact Prog.OnlyE.bind (only_reset_session hother) fun _ => Prog.OnlyE.pure
  | stream_message turn =>
    rw [hrequest] at hother
    refine Prog.OnlyE.bind (only_stream_message hother ?_ ?_ ?_ ?_ ?_) fun _ => Prog.OnlyE.pure
    · exact fun message hmessage => by cases hmessage
    · exact fun message hmessage => by cases hmessage
    · rintro message ⟨⟩
      exact List.mem_cons_self ..
    · rintro message ⟨⟩
      exact List.mem_cons_of_mem _ (List.mem_cons_self ..)
    · rintro final events message ⟨⟩
      exact List.mem_cons_of_mem _ (List.mem_cons_self ..)
  | send_message turn =>
    rw [hrequest] at hother
    refine Prog.OnlyE.bind (only_run_turn hother ?_ ?_ ?_ ?_) fun _ => Prog.OnlyE.pure
    · exact fun message hmessage => by cases hmessage
    · exact fun message hmessage => by cases hmessage
    · rintro message ⟨⟩
      exact List.mem_cons_self ..
    · rintro events message ⟨⟩
      exact List.mem_cons_of_mem _ (List.mem_cons_self ..)
  | _ =>
    rw [hrequest] at hi
    exact absurd hi id

/-- **A reset is a barrier** in every run of any number of turns and resets, with both stores, as
long as no turn that has begun has a message to write when the messages are cleared, and in
memory no record is stored with messages that were cleared. -/
theorem reset_is_barrier [DecidableEq ι] (externals : Externals Event) {s : AppState ι}
    {moves : List (Move ι (Choice Event))}
    {last : Threads ι (Call Event) (Except ApiError Unit) (AppState ι × Barrier ι) Reply}
    (hchat : ∀ i, (requests i).IsChat)
    (hfresh : ∀ i j, ∀ id ∈ (requests i).message_ids, id ∈ (requests j).message_ids → i = j)
    (hnew : ∀ i, ∀ id ∈ (requests i).message_ids, id ∉ (Barrier.init s).old)
    (hrun : Run (Guarded (Advance (barred store requests)) (Settled store))
      (requested externals requests (s, Barrier.init s)) moves last) : StaysCleared last.state := by
  have hinit : Kept requests (requested externals requests (s, Barrier.init s)) := by
    refine ⟨?_, only_own_messages externals hchat, ?_, ?_, ?_⟩
    · exact fun _ _ _ _ h => List.not_mem_nil h
    · exact fun i id hid hold => absurd hold (hnew i id hid)
    · exact fun id hid => absurd hid List.not_mem_nil
    · exact fun i id _ hid => absurd hid List.not_mem_nil
  exact (hrun.invariant (fun _ _ _ hs hstep => hs.step hfresh hstep.1 hstep.2) hinit).clear

end Theorem

/-! ## A turn that runs through a reset -/

/-- Identifiers that are all taken, and messages without content. -/
def no_content : Externals Unit where
  is_uuid _ := true
  flatten_text _ := []
  flatten_reasoning _ := []
  extract_tool_calls _ := []

/-- A chat session with one message. -/
def chat_session : SessionRecord where
  session_id := "s".toList
  agent_host_session_id := "s".toList
  status := "idle".toList
  interaction_mode := .Chat
  has_cli_harness := false
  cli_connection_id := none
  harness_session_id := none
  runtime_generation := none
  runtime_status := some .Live
  workspace_volume_identity := some "s".toList
  launch_snapshot := none
  vscode_url := none
  free_port_url := none
  created_at := "2026-01-01T00:00:00Z".toList
  messages := [⟨"m0".toList, .User, "hello".toList, "2026-01-01T00:00:00Z".toList, [], []⟩]

/-- The session, and no request under way. -/
def chat_state : AppState Bool := ⟨some chat_session, none, none⟩

/-- A turn. -/
def some_turn : Turn where
  turn_id := "t1".toList
  user_message_id := "m1".toList
  user_created_at := "2026-01-01T00:00:01Z".toList
  assistant_message_id := "m2".toList
  assistant_created_at := "2026-01-01T00:00:01Z".toList
  message := "again".toList

/-- A streaming turn, and a reset. -/
def turn_and_reset : Bool → Request
  | false => .stream_message some_turn
  | true => .reset_session

/-- The agent host says that the session is idle. -/
def idle : Choice Unit := .upstream (.ok ⟨some "s".toList, some "idle".toList, none, none⟩)

/-- The calls of `ensure_chat_runtime_locked`. -/
def ensure_calls (i : Bool) : List (Move Bool (Choice Unit)) :=
  [⟨i, .configuration (.ok ())⟩, ⟨i, idle⟩, ⟨i, .proceed⟩]

/-- The calls of the turn up to its first event. -/
def turn_calls : List (Move Bool (Choice Unit)) :=
  [⟨false, .proceed⟩, ⟨false, .proceed⟩, ⟨false, .proceed⟩] ++ ensure_calls false
    ++ List.replicate 6 ⟨false, .proceed⟩ ++ [⟨false, .stream (.ok [.ok ()])⟩]

/-- The calls of the reset. -/
def reset_calls : List (Move Bool (Choice Unit)) :=
  [⟨true, .proceed⟩, ⟨true, .proceed⟩] ++ ensure_calls true
    ++ [⟨true, idle⟩, ⟨true, .proceed⟩, ⟨true, .proceed⟩, ⟨true, .proceed⟩]

/-- A stored message is one that was cleared. -/
def is_back (s : AppState Bool × Barrier Bool) : Bool :=
  s.1.sessions.any fun session => session.messages.any fun message => message.message_id ∈ s.2.barred

theorem not_staysCleared {s : AppState Bool × Barrier Bool} (h : is_back s = true) : ¬StaysCleared s := by
  intro hclear
  obtain ⟨session, hsession, h⟩ := (Option.any_eq_true _ _).1 h
  obtain ⟨message, hmessage, h⟩ := List.any_eq_true.1 h
  exact hclear session hsession message hmessage (by simpa using h)

theorem turn_and_reset_fresh : (∀ i, (turn_and_reset i).IsChat)
    ∧ (∀ i j, ∀ id ∈ (turn_and_reset i).message_ids, id ∈ (turn_and_reset j).message_ids → i = j)
    ∧ ∀ i, ∀ id ∈ (turn_and_reset i).message_ids, id ∉ (Barrier.init chat_state).old := by
  refine ⟨fun i => by cases i <;> trivial, fun i j id hi hj => ?_, fun i => by cases i <;> decide⟩
  cases i <;> cases j <;>
    first | rfl | exact absurd hi List.not_mem_nil | exact absurd hj List.not_mem_nil

/-- Messages are cleared while no turn has begun. -/
def clears_first (s : Threads Bool (Call Unit) (Except ApiError Unit) (AppState Bool × Barrier Bool) Reply)
    (move : Move Bool (Choice Unit)) : Bool :=
  match s.rest move.thread with
  | .call .clear_messages _ => s.state.2.begun.isEmpty
  | _ => true

/-- A reset, and a turn that begins after it. -/
theorem reset_before_turn : ∃ last,
    Run (Guarded (Advance (barred .Sqlite turn_and_reset)) (Settled .Sqlite))
        (requested no_content turn_and_reset (chat_state, Barrier.init chat_state))
        (reset_calls ++ turn_calls) last
      ∧ last.state.2.barred = ["m0".toList] ∧ StaysCleared last.state := by
  obtain ⟨last, hrun, hbarred⟩ := exists_run_of_play (barred .Sqlite turn_and_reset)
    clears_first
    (P := Settled .Sqlite) (fun s move t hcheck _ => by
      refine ⟨fun k hrest i hbegun => ?_, fun h => by cases h⟩
      rw [clears_first, hrest] at hcheck
      rw [List.isEmpty_iff.1 hcheck] at hbegun
      cases hbegun)
    (requested no_content turn_and_reset (chat_state, Barrier.init chat_state))
    (reset_calls ++ turn_calls) (fun last => last.state.2.barred = ["m0".toList]) (by decide +kernel)
  obtain ⟨hchat, hfresh, hnew⟩ := turn_and_reset_fresh
  exact ⟨last, hrun, by simpa using hbarred, reset_is_barrier no_content hchat hfresh hnew hrun⟩

/-- **A turn brings its message back**: it began before the reset, and writes it at its next
event. -/
theorem turn_outlives_reset : ∃ last,
    Run (Guarded (Advance (barred .Sqlite turn_and_reset)) fun _ _ _ => True)
        (requested no_content turn_and_reset (chat_state, Barrier.init chat_state))
        (turn_calls ++ reset_calls ++ [⟨false, .proceed⟩, ⟨false, .proceed⟩]) last
      ∧ ¬StaysCleared last.state := by
  obtain ⟨last, hrun, hback⟩ := exists_run_of_play (barred .Sqlite turn_and_reset) (fun _ _ => true)
    (P := fun _ _ _ => True) (fun _ _ _ _ _ => trivial)
    (requested no_content turn_and_reset (chat_state, Barrier.init chat_state))
    (turn_calls ++ reset_calls ++ [⟨false, .proceed⟩, ⟨false, .proceed⟩])
    (fun last => is_back last.state) (by decide +kernel)
  exact ⟨last, hrun, not_staysCleared hback⟩

/-- **In memory a reset keeps the messages**: it stores the record that it read before it
cleared them. -/
theorem reset_in_memory_keeps_messages : ∃ last,
    Run (Guarded (Advance (barred .InMemory turn_and_reset)) fun _ _ _ => True)
        (requested no_content turn_and_reset (chat_state, Barrier.init chat_state)) reset_calls last
      ∧ ¬StaysCleared last.state := by
  obtain ⟨last, hrun, hback⟩ := exists_run_of_play (barred .InMemory turn_and_reset) (fun _ _ => true)
    (P := fun _ _ _ => True) (fun _ _ _ _ _ => trivial)
    (requested no_content turn_and_reset (chat_state, Barrier.init chat_state)) reset_calls
    (fun last => is_back last.state) (by decide +kernel)
  exact ⟨last, hrun, not_staysCleared hback⟩

end AgentSpace.Sessions
