/-
The status of a session between its turns.

A turn stores "busy" when it has been registered, and another status before it returns, on
the path on which every call succeeds. On the others "busy" stays in the record.
-/
import AgentSpace.Sessions.Reset

set_option autoImplicit false

namespace AgentSpace.Sessions

open Text Lib

variable {ι Event : Type}

/-! ## Who wrote the status -/

/-- The identifier of the turn of a request. -/
def Request.turn_id : Request → Option Text
  | .stream_message turn | .send_message turn => some turn.turn_id
  | _ => none

/-- The registered turn is the one of request `i`. -/
def Registered (requests : ι → Request) (i : ι) (s : AppState ι) : Prop :=
  ∃ turn_id ∈ (requests i).turn_id, s.active_turns = some turn_id

instance (requests : ι → Request) (i : ι) (s : AppState ι) : Decidable (Registered requests i s) :=
  inferInstanceAs (Decidable (∃ _ ∈ _, _))

/-- What a run has done to the status: the registered turn that stored the record last, the
status that each request has last read, and the streams that ended in an error. -/
structure Watched (ι : Type) where
  writer : Option ι
  read : ι → Option Text
  failed : ι → Bool

/-- Before the run. -/
def Watched.init : Watched ι := ⟨none, fun _ => none, fun _ => false⟩

/-- A stream delivers an error. -/
def ends_in_error (stream : List (Except AgentHostError Event)) : Bool :=
  stream.any fun item => match item with
    | .ok _ => false
    | .error _ => true

section Record

variable [DecidableEq ι]

/-- The stream of request `i` has ended in an error, or has not. -/
def Watched.set_failed (watched : Watched ι) (i : ι) (failed : Bool) : Watched ι :=
  { watched with failed := Function.update watched.failed i failed }

/-- What is watched of the calls. -/
def record_status (requests : ι → Request) (i : ι) :
    (c : Call Event) → Reply c → AppState ι → Watched ι → Watched ι
  | .update _ _, (.ok () : Except StoreError Unit), s, watched =>
    { watched with writer := if Registered requests i s then some i else none }
  | .get, (.ok (some session) : Except StoreError (Option SessionRecord)), _, watched =>
    { watched with read := Function.update watched.read i (some session.status) }
  | .begin_active_turn _, (.ok () : Except Text Unit), _, watched => watched.set_failed i false
  | .stream_message, (.error _ : Except AgentHostError _), _, watched => watched.set_failed i true
  | .stream_message, (.ok stream : Except AgentHostError _), _, watched =>
    watched.set_failed i (ends_in_error stream)
  | .update_message _ _, (.error _ : Except StoreError Unit), _, watched =>
    watched.set_failed i true
  | _, _, _, watched => watched

/-- The sessions with what is watched. -/
abbrev watched (store : SessionStore) (requests : ι → Request) :
    Exec ι (Call Event) (Choice Event) (AppState ι × Watched ι) Reply :=
  with_history (exec store) (record_status requests)

end Record

/-- The stored status. -/
def AppState.status (s : AppState ι) : Option Text := s.sessions.map SessionRecord.status

/-- The stored status is the "busy" of the turn of request `i`. -/
def Owes (i : ι) (s : AppState ι × Watched ι) : Prop :=
  s.2.writer = some i ∧ s.1.status = some "busy".toList

/-- No turn that has ended has left the session busy. -/
def NotLeftBusy (s : AppState ι × Watched ι) : Prop :=
  s.1.active_turns = none → ∀ i, ¬Owes i s

/-- The answers after which a registered turn goes on to restore the status that it owes. -/
def Answered (i : ι) (s : AppState ι × Watched ι) : (c : Call Event) → Reply c → Prop
  | .append_message _, (answer : Except StoreError Unit) => Owes i s → answer = .ok ()
  | .update_message true _, (answer : Except StoreError Unit) => Owes i s → answer = .ok ()
  | .update _ _, (answer : Except StoreError Unit) => Owes i s → answer = .ok ()
  | .get, (answer : Except StoreError (Option SessionRecord)) =>
    Owes i s → ∃ session, answer = .ok (some session)
  | .send_message, (answer : Except AgentHostError (List Event)) =>
    Owes i s → ∃ events, answer = .ok events
  | .get_session, (.ok upstream : Except AgentHostError Upstream) =>
    ∀ status ∈ upstream.status.or (s.2.read i), status ≠ "busy".toList
  | .get_session, (.error _ : Except AgentHostError Upstream) =>
    s.2.failed i = true ∨ ∀ status ∈ s.2.read i, status ≠ "busy".toList
  | _, _ => True

/-- What a call of a registered turn has to meet: while the stored status is its "busy", no call
that the turn does not survive fails; and its status lookup answers with another status, or
fails after an error of the stream. -/
def Restores (store : SessionStore) (requests : ι → Request) (i : ι) (c : Call Event)
    (choice : Choice Event) (s : AppState ι × Watched ι) : Prop :=
  Registered requests i s.1 →
    ∀ r t, exec store i c choice s.1 = some (r, t) → Answered i s c r

/-! ## What the calls do -/

section Calls

variable {store : SessionStore} {i : ι} {s t : AppState ι} {c : Call Event} {choice : Choice Event}
  {r : Reply c}

/-- The calls that are about `active_turns`. -/
def Call.IsRegistration : Call Event → Prop
  | .begin_active_turn _ | .drop_active_turn _ => True
  | _ => False

/-- The updates of the record. -/
def Call.IsUpdate : Call Event → Prop
  | .update .. => True
  | _ => False

theorem active_turns_write {result : Except StoreError SessionRecord} {r : Except StoreError Unit}
    (h : write s choice result = some (r, t)) : t.active_turns = s.active_turns := by
  rcases write_eq_some h with ⟨session, -, -, rfl⟩ | ⟨-, rfl⟩ <;> rfl

theorem active_turns_exec (hc : ¬c.IsRegistration) (h : exec store i c choice s = some (r, t)) :
    t.active_turns = s.active_turns := by
  have hanswer : ∀ {α : Type} {answer : Option α} {r : α},
      (answer.map fun result => (result, s)) = some (r, t) → t.active_turns = s.active_turns := by
    intro α answer r h
    obtain ⟨result, -, heq⟩ := Option.map_eq_some_iff.1 h
    rw [← (Prod.mk.inj heq).2]
  cases c with
  | begin_active_turn turn_id | drop_active_turn turn_id => exact absurd trivial hc
  | update applied session | append_message message | update_message final message
  | clear_messages => exact active_turns_write h
  | get | list => rw [(read_eq_some h).1]
  | lock => rw [(exec_lock_eq_some h).2]
  | unlock => rw [exec_unlock_eq_some h]
  | next_event =>
    have ht : s = t := congrArg Prod.snd (Option.some.inj (proceed_eq_some h))
    rw [ht]
  | configuration => exact hanswer h
  | create_session => exact hanswer h
  | get_session => exact hanswer h
  | reset_session => exact hanswer h
  | destroy_session => exact hanswer h
  | list_sessions => exact hanswer h
  | terminal_status => exact hanswer h
  | terminal_ensure => exact hanswer h
  | terminal_stop => exact hanswer h
  | terminal_resume => exact hanswer h
  | connect_terminal_websocket => exact hanswer h
  | stream_message => exact hanswer h
  | send_message => exact hanswer h

theorem SameRecord.status_eq (h : SameRecord s t) : t.status = s.status := by
  unfold AppState.status
  rcases h with h | ⟨existing, messages, hs, ht⟩
  · rw [h]
  · rw [hs, ht]
    rfl

theorem status_exec (hc : ¬c.IsUpdate) (h : exec store i c choice s = some (r, t)) :
    t.status = s.status := by
  by_cases hquiet : c.IsQuiet
  · exact (exec_quiet hquiet h).1.status_eq
  · refine SameRecord.status_eq (Or.inl (exec_of_not_write ?_ h).1)
    cases c <;> first | exact absurd trivial hquiet | exact id | exact absurd trivial hc

theorem status_update {applied : Option Terminal} {session : SessionRecord} {r : Except StoreError Unit}
    (h : exec store i (.update applied session : Call Event) choice s = some (r, t)) :
    (r = .ok () ∧ t.status = some session.status) ∨ ((∃ e, r = .error e) ∧ t = s) := by
  rcases write_eq_some h with ⟨updated, hupdate, rfl, rfl⟩ | hfailed
  · obtain ⟨existing, messages, created_at, -, rfl⟩ := update_eq_ok hupdate
    exact Or.inl ⟨rfl, rfl⟩
  · exact Or.inr hfailed

theorem begin_active_turn_eq_some {turn_id : Text} {r : Except Text Unit}
    (h : exec store i (.begin_active_turn turn_id : Call Event) choice s = some (r, t)) :
    (r = .ok () ∧ s.active_turns = none ∧ t = { s with active_turns := some turn_id })
      ∨ ((∃ e, r = .error e) ∧ t = s) := by
  have h := Option.some.inj (proceed_eq_some h)
  unfold begin_active_turn at h
  cases hactive : s.active_turns with
  | none =>
    rw [hactive] at h
    obtain ⟨rfl, rfl⟩ := Prod.mk.inj h
    exact Or.inl ⟨rfl, rfl, rfl⟩
  | some existing =>
    rw [hactive] at h
    obtain ⟨rfl, rfl⟩ := Prod.mk.inj h
    exact Or.inr ⟨⟨existing, rfl⟩, rfl⟩

theorem drop_active_turn_eq_some {turn_id : Text} {r : Unit}
    (h : exec store i (.drop_active_turn turn_id : Call Event) choice s = some (r, t)) :
    t.sessions = s.sessions ∧ ((s.active_turns = some turn_id ∧ t.active_turns = none)
      ∨ (s.active_turns ≠ some turn_id ∧ t.active_turns = s.active_turns)) := by
  have h : drop_active_turn turn_id s = t :=
    congrArg Prod.snd (Option.some.inj (proceed_eq_some h))
  unfold drop_active_turn at h
  split_ifs at h with hactive
  · subst h
    exact ⟨rfl, Or.inl ⟨hactive, rfl⟩⟩
  · subst h
    exact ⟨rfl, Or.inr ⟨hactive, rfl⟩⟩

end Calls

/-! ## What the requests leave of each other -/

theorem registered_congr {requests : ι → Request} {s t : AppState ι}
    (h : t.active_turns = s.active_turns) (j : ι) : Registered requests j t ↔ Registered requests j s := by
  unfold Registered
  rw [h]

theorem owes_congr {s t : AppState ι × Watched ι} (hstatus : t.1.status = s.1.status)
    (hwriter : t.2.writer = s.2.writer) (j : ι) : Owes j t ↔ Owes j s := by
  unfold Owes
  rw [hstatus, hwriter]

theorem registered_unique {requests : ι → Request} {i j : ι} {s : AppState ι}
    (hids : ∀ i j turn_id, (requests i).turn_id = some turn_id →
      (requests j).turn_id = some turn_id → i = j)
    (hi : Registered requests i s) (hj : Registered requests j s) : i = j := by
  obtain ⟨turn_id, hturn, hactive⟩ := hi
  obtain ⟨turn_id', hturn', hactive'⟩ := hj
  obtain rfl : turn_id = turn_id' := Option.some.inj (hactive.symm.trans hactive')
  exact hids i j turn_id hturn hturn'

section Steps

variable [DecidableEq ι] {store : SessionStore} {requests : ι → Request}
  {i : ι} {s t : AppState ι × Watched ι} {c : Call Event} {choice : Choice Event} {r : Reply c}

/-- What is watched of the others. -/
theorem record_status_other (state : AppState ι) (watched : Watched ι) {j : ι} (hj : j ≠ i) :
    (record_status requests i c r state watched).read j = watched.read j
      ∧ (record_status requests i c r state watched).failed j = watched.failed j := by
  have hfailed : ∀ failed, (watched.set_failed i failed).read j = watched.read j
      ∧ (watched.set_failed i failed).failed j = watched.failed j :=
    fun failed => ⟨rfl, Function.update_of_ne hj _ _⟩
  cases c with
  | get =>
    cases r with
    | ok stored =>
      cases stored with
      | some session => exact ⟨Function.update_of_ne hj _ _, rfl⟩
      | none => exact ⟨rfl, rfl⟩
    | error e => exact ⟨rfl, rfl⟩
  | update applied session => cases r <;> exact ⟨rfl, rfl⟩
  | begin_active_turn turn_id =>
    cases r with
    | ok _ => exact hfailed false
    | error e => exact ⟨rfl, rfl⟩
  | stream_message =>
    cases r with
    | ok stream => exact hfailed (ends_in_error stream)
    | error e => exact hfailed true
  | update_message final message =>
    cases r with
    | ok _ => exact ⟨rfl, rfl⟩
    | error e => exact hfailed true
  | _ => exact ⟨rfl, rfl⟩

theorem record_status_writer (hc : ¬c.IsUpdate) (state : AppState ι) (watched : Watched ι) :
    (record_status requests i c r state watched).writer = watched.writer := by
  cases c with
  | update applied session => exact absurd trivial hc
  | get =>
    cases r with
    | ok stored => cases stored <;> rfl
    | error e => rfl
  | begin_active_turn turn_id | stream_message | update_message final message => cases r <;> rfl
  | _ => rfl

/-- What request `j` leaves of the others: whether they are registered, what is watched of
them, and that they owe nothing. -/
structure Leaves (requests : ι → Request) (j : ι) (s t : AppState ι × Watched ι) : Prop where
  registered : ∀ i, i ≠ j → (Registered requests i t.1 ↔ Registered requests i s.1)
  read : ∀ i, i ≠ j → t.2.read i = s.2.read i
  failed : ∀ i, i ≠ j → t.2.failed i = s.2.failed i
  writer : ∀ i, i ≠ j → t.2.writer = some i → s.2.writer = some i
  owes : ∀ i, i ≠ j → Owes i t → Owes i s

/-- The rules of the requests: only a registered turn owes a status. -/
def status_rules (Event : Type) (store : SessionStore) (requests : ι → Request) :
    Rules ι (Call Event) (Choice Event) (AppState ι × Watched ι) Reply where
  exec := watched store requests
  allow := Restores store requests
  invariant s := ∀ i, Owes i s → Registered requests i s.1
  guarantee := Leaves requests

/-- **The calls that are not about `active_turns`** keep what is guaranteed. -/
theorem leaves_call (hc : ¬c.IsRegistration) (hs : (status_rules Event store requests).invariant s)
    (h : watched store requests i c choice s = some (r, t)) :
    (status_rules Event store requests).invariant t ∧ Leaves requests i s t
      ∧ (Registered requests i t.1 ↔ Registered requests i s.1) := by
  obtain ⟨hexec, hhistory⟩ := with_history_eq_some h
  have hregistered : ∀ j, Registered requests j t.1 ↔ Registered requests j s.1 :=
    registered_congr (active_turns_exec hc hexec)
  have hother : ∀ j, j ≠ i → t.2.read j = s.2.read j ∧ t.2.failed j = s.2.failed j := by
    intro j hj
    rw [hhistory]
    exact record_status_other s.1 s.2 hj
  suffices howes : ∀ j, Owes j t → (Owes j s ∨ (j = i ∧ Registered requests i s.1)) by
    suffices hwriter : ∀ j, j ≠ i → t.2.writer = some j → s.2.writer = some j by
      refine ⟨fun j hj => (hregistered j).2 ?_, ?_, hregistered i⟩
      · rcases howes j hj with hj | ⟨rfl, hi⟩
        · exact hs j hj
        · exact hi
      · refine ⟨fun j _ => hregistered j, fun j hj => (hother j hj).1, fun j hj => (hother j hj).2,
          hwriter, fun j hj h => ?_⟩
        exact (howes j h).resolve_right fun h => hj h.1
    intro j hj hwriter
    by_cases hupdate : c.IsUpdate
    · cases c with
      | update applied session =>
        rw [hhistory] at hwriter
        cases r with
        | ok _ =>
          change (if Registered requests i s.1 then some i else none) = some j at hwriter
          split_ifs at hwriter
          exact absurd (Option.some.inj hwriter).symm hj
        | error e => exact hwriter
      | _ => exact absurd hupdate id
    · rwa [hhistory, record_status_writer hupdate] at hwriter
  intro j hj
  by_cases hupdate : c.IsUpdate
  · cases c with
    | update applied session =>
      rcases status_update hexec with ⟨rfl, -⟩ | ⟨⟨e, rfl⟩, hstate⟩
      · have hwriter := hj.1
        rw [hhistory] at hwriter
        change (if Registered requests i s.1 then some i else none) = some j at hwriter
        split_ifs at hwriter with hi
        exact Or.inr ⟨(Option.some.inj hwriter).symm, hi⟩
      · exact Or.inl ((owes_congr (by rw [hstate]) (by rw [hhistory]; rfl) j).1 hj)
    | _ => exact absurd hupdate id
  · refine Or.inl ((owes_congr (status_exec hupdate hexec) ?_ j).1 hj)
    rw [hhistory, record_status_writer hupdate]

variable (hids : ∀ i j turn_id, (requests i).turn_id = some turn_id →
  (requests j).turn_id = some turn_id → i = j)
include hids

/-- **Registering a turn.** -/
theorem leaves_begin {turn_id : Text} {r : Except Text Unit} (hi : (requests i).turn_id = some turn_id)
    (hs : (status_rules Event store requests).invariant s)
    (h : watched store requests i (.begin_active_turn turn_id : Call Event) choice s = some (r, t)) :
    (status_rules Event store requests).invariant t ∧ Leaves requests i s t
      ∧ ((r = .ok () ∧ Registered requests i t.1 ∧ t.2.failed i = false ∧ t.2.writer = s.2.writer)
        ∨ ((∃ e, r = .error e) ∧ t = s)) := by
  obtain ⟨hexec, hhistory⟩ := with_history_eq_some h
  rcases begin_active_turn_eq_some hexec with ⟨rfl, hactive, hstate⟩ | ⟨⟨e, rfl⟩, hstate⟩
  · have hregistered : Registered requests i t.1 := ⟨turn_id, hi, by rw [hstate]⟩
    have hnone : ∀ j, ¬Registered requests j s.1 := by
      rintro j ⟨turn_id, -, hj⟩
      rw [hactive] at hj
      cases hj
    have hwriter : t.2.writer = s.2.writer := by rw [hhistory]; rfl
    have howes : ∀ j, Owes j t ↔ Owes j s := owes_congr (by rw [hstate]; rfl) hwriter
    refine ⟨fun j hj => absurd (hs j ((howes j).1 hj)) (hnone j), ?_,
      Or.inl ⟨rfl, hregistered, ?_, hwriter⟩⟩
    · refine ⟨fun j hj => ?_, fun j hj => ?_, fun j hj => ?_, fun j _ h => ?_, fun j _ => (howes j).1⟩
      · exact iff_of_false (fun h => hj (registered_unique hids h hregistered)) (hnone j)
      · rw [hhistory]
        rfl
      · rw [hhistory]
        exact Function.update_of_ne hj _ _
      · rwa [hwriter] at h
    · rw [hhistory]
      exact Function.update_self ..
  · have hsame : t = s := Prod.ext hstate hhistory
    subst hsame
    refine ⟨hs, ⟨fun _ _ => Iff.rfl, fun _ _ => rfl, fun _ _ => rfl, fun _ _ h => h, fun _ _ h => h⟩, ?_⟩
    exact Or.inr ⟨⟨e, rfl⟩, rfl⟩

/-- **Clearing a turn** that owes nothing. -/
theorem leaves_drop {turn_id : Text} {r : Unit} (hi : (requests i).turn_id = some turn_id)
    (hs : (status_rules Event store requests).invariant s) (hnothing : ¬Owes i s)
    (h : watched store requests i (.drop_active_turn turn_id : Call Event) choice s = some (r, t)) :
    (status_rules Event store requests).invariant t ∧ Leaves requests i s t := by
  obtain ⟨hexec, hhistory⟩ := with_history_eq_some h
  obtain ⟨hsessions, hactive⟩ := drop_active_turn_eq_some hexec
  have hregistered : ∀ j, j ≠ i → (Registered requests j t.1 ↔ Registered requests j s.1) := by
    intro j hj
    rcases hactive with ⟨hbefore, hafter⟩ | ⟨-, hafter⟩
    · refine iff_of_false ?_ fun h => hj (registered_unique hids h ⟨turn_id, hi, hbefore⟩)
      rintro ⟨turn_id, -, h⟩
      rw [hafter] at h
      cases h
    · exact registered_congr hafter j
  have howes : ∀ j, Owes j t ↔ Owes j s :=
    owes_congr (by unfold AppState.status; rw [hsessions]) (by rw [hhistory]; rfl)
  refine ⟨fun j hj => ?_, hregistered, fun j _ => ?_, fun j _ => ?_, fun j _ h => ?_,
    fun j _ => (howes j).1⟩
  · have hj := (howes j).1 hj
    have hne : j ≠ i := fun h => hnothing (h ▸ hj)
    exact (hregistered j hne).2 (hs j hj)
  · rw [hhistory]
    rfl
  · rw [hhistory]
    rfl
  · rw [hhistory] at h
    exact h

end Steps

/-! ## Where a turn stands -/

section Outlines

variable [DecidableEq ι] {store : SessionStore} {requests : ι → Request} {i : ι}

/-- Before the turn is registered. -/
def Before (requests : ι → Request) (i : ι) (s : AppState ι × Watched ι) : Prop :=
  ¬Registered requests i s.1 ∧ s.2.writer ≠ some i

/-- While it is registered, with its stream in an error or not. -/
def During (requests : ι → Request) (i : ι) (failed : Bool) (s : AppState ι × Watched ι) : Prop :=
  Registered requests i s.1 ∧ s.2.failed i = failed

/-- It has read a status. -/
def HasRead (requests : ι → Request) (i : ι) (failed : Bool) (status : Text)
    (s : AppState ι × Watched ι) : Prop :=
  During requests i failed s ∧ s.2.read i = some status

/-- It is registered, and owes nothing. -/
def Restored (requests : ι → Request) (i : ι) (s : AppState ι × Watched ι) : Prop :=
  Registered requests i s.1 ∧ ¬Owes i s

theorem stable_before : (status_rules Event store requests).Stable i (Before requests i) := by
  rintro j hj s t _ _ ⟨hregistered, hwriter⟩ h
  exact ⟨fun ht => hregistered ((h.registered i (Ne.symm hj)).1 ht),
    fun ht => hwriter (h.writer i (Ne.symm hj) ht)⟩

theorem stable_during (failed : Bool) :
    (status_rules Event store requests).Stable i (During requests i failed) := by
  rintro j hj s t _ _ ⟨hregistered, hfailed⟩ h
  exact ⟨(h.registered i (Ne.symm hj)).2 hregistered, (h.failed i (Ne.symm hj)).trans hfailed⟩

theorem stable_hasRead (failed : Bool) (status : Text) :
    (status_rules Event store requests).Stable i (HasRead requests i failed status) := by
  rintro j hj s t hs ht ⟨hduring, hread⟩ h
  exact ⟨stable_during failed j hj s t hs ht hduring h, (h.read i (Ne.symm hj)).trans hread⟩

theorem stable_restored : (status_rules Event store requests).Stable i (Restored requests i) := by
  rintro j hj s t _ _ ⟨hregistered, howes⟩ h
  exact ⟨(h.registered i (Ne.symm hj)).2 hregistered, fun ht => howes (h.owes i (Ne.symm hj) ht)⟩

variable {α ε : Type} {P : AppState ι × Watched ι → Prop} {E : ApiError → AppState ι × Watched ι → Prop}

variable {c : Call Event}

/-- **A call of a registered turn.** -/
theorem ensures_call {Q : Reply c → AppState ι × Watched ι → Prop}
    (hc : ¬c.IsRegistration) (hstable : ∀ r, (status_rules Event store requests).Stable i (Q r))
    (hP : ∀ s, P s → Registered requests i s.1)
    (hcall : ∀ s choice r t, P s → watched store requests i c choice s = some (r, t) →
      Answered i s c r → Registered requests i t.1 → Q r t) :
    (status_rules Event store requests).Ensures i P (Handler.ask c) Q E := by
  refine Rules.Outline.bind (Q := Q) ?_ fun r => Rules.Outline.ret fun s _ h => h
  refine Rules.Outline.lift hstable fun s choice r t hs hPs hallow h => ?_
  obtain ⟨hinvariant, hguarantee, hregistered⟩ := leaves_call hc hs h
  have hanswered := hallow (hP s hPs) r t.1 (with_history_eq_some h).1
  exact ⟨hinvariant, hguarantee, hcall s choice r t hPs h hanswered (hregistered.2 (hP s hPs))⟩

/-- What a failing call leaves, if it fails only when nothing is owed. -/
theorem restored_of_answered {choice : Choice Event} {r : Reply c}
    {s t : AppState ι × Watched ι} (hupdate : ¬c.IsUpdate)
    (h : watched store requests i c choice s = some (r, t)) (hregistered : Registered requests i t.1)
    (hnothing : ¬Owes i s) : Restored requests i t := by
  obtain ⟨hexec, hhistory⟩ := with_history_eq_some h
  refine ⟨hregistered, fun howes => hnothing ?_⟩
  exact (owes_congr (status_exec hupdate hexec) (by rw [hhistory, record_status_writer hupdate]) i).1 howes

/-- After a call that the turn survives only when it is answered well. -/
def Survived (requests : ι → Request) (i : ι) (failed : Bool) (good : Prop)
    (s : AppState ι × Watched ι) : Prop :=
  (good → During requests i failed s) ∧ (¬good → Restored requests i s)

theorem stable_survived (failed : Bool) (good : Prop) :
    (status_rules Event store requests).Stable i (Survived requests i failed good) := by
  rintro j hj s t hs ht ⟨hduring, hrestored⟩ hguarantee
  exact ⟨fun hgood => stable_during failed j hj s t hs ht (hduring hgood) hguarantee,
    fun hgood => stable_restored j hj s t hs ht (hrestored hgood) hguarantee⟩

variable {failed : Bool}

/-- **A call that the turn survives** only when it is answered well. -/
theorem ensures_survived {G : Reply c → Prop} (hc : ¬c.IsRegistration) (hupdate : ¬c.IsUpdate)
    (hgood : ∀ s r, Answered i s c r → Owes i s → G r) (hfailed : ∀ r state watched, G r →
      (record_status requests i c r state watched).failed i = watched.failed i) :
    (status_rules Event store requests).Ensures i (During requests i failed) (Handler.ask c)
      (fun r => Survived requests i failed (G r)) E := by
  refine ensures_call hc (fun r => stable_survived failed (G r)) (fun s h => h.1)
    fun s choice r t hs h hanswered hregistered => ⟨fun hr => ⟨hregistered, ?_⟩, fun hr => ?_⟩
  · rw [(with_history_eq_some h).2, hfailed r s.1 s.2 hr, hs.2]
  · exact restored_of_answered hupdate h hregistered fun howes => hr (hgood s r hanswered howes)

/-- A call whose answer tells whether the stream ended in an error. -/
theorem ensures_tracked (after : Reply c → Bool) (hc : ¬c.IsRegistration)
    (hafter : ∀ r state watched, watched.failed i = failed →
      (record_status requests i c r state watched).failed i = after r) :
    (status_rules Event store requests).Ensures i (During requests i failed) (Handler.ask c)
      (fun r => During requests i (after r)) E := by
  refine ensures_call hc (fun r => stable_during (after r)) (fun s h => h.1)
    fun s choice r t hs h _ hregistered => ⟨hregistered, ?_⟩
  rw [(with_history_eq_some h).2]
  exact hafter r s.1 s.2 hs.2

/-- `require` of an answer that the turn survives only when it is well. -/
theorem ensures_require_answer {f : ε → ApiError} {answer : Except ε α} :
    (status_rules Event store requests).Ensures i (Survived requests i failed (∃ a, answer = .ok a))
      (Handler.require f answer) (fun _ => During requests i failed) (fun _ => Restored requests i) := by
  cases answer with
  | ok a => exact .pure fun s _ h => h.1 ⟨a, rfl⟩
  | error e =>
    refine .throw fun s _ h => h.2 ?_
    rintro ⟨a, h⟩
    cases h

variable {session : SessionRecord}

/-- The update of a registered turn that stores "busy". -/
theorem ensures_update_busy : (status_rules Event store requests).Ensures i
      (fun s => During requests i false s ∧ Restored requests i s) (sessions_update session)
      (fun _ => During requests i false) (fun _ => Restored requests i) := by
  refine .bind (Q := fun answer : Except StoreError Unit =>
    Survived requests i false (∃ a, answer = .ok a)) ?_ fun answer => ensures_require_answer
  refine ensures_call id (fun r => stable_survived false _) (fun s h => h.1.1)
    fun s choice r t hs h _ hregistered => ?_
  obtain ⟨hexec, hhistory⟩ := with_history_eq_some h
  rcases status_update hexec with ⟨rfl, -⟩ | ⟨⟨e, rfl⟩, hstate⟩
  · refine ⟨fun _ => ⟨hregistered, ?_⟩, fun hr => absurd ⟨(), rfl⟩ hr⟩
    rw [hhistory]
    exact hs.1.2
  · have hsame : t = s := Prod.ext hstate hhistory
    subst hsame
    exact ⟨fun ⟨a, ha⟩ => (by cases ha), fun _ => hs.2⟩

/-- The update that stores another status. -/
theorem ensures_update_restored : (status_rules Event store requests).Ensures i
      (fun s => Registered requests i s.1 ∧ session.status ≠ "busy".toList) (sessions_update session)
      (fun _ => Restored requests i) (fun _ => Restored requests i) := by
  refine .bind (Q := fun _ => Restored requests i) ?_ fun r => ?_
  · refine ensures_call id (fun _ => stable_restored) (fun s h => h.1)
      fun s choice r t hs h hanswered hregistered => ?_
    obtain ⟨hexec, hhistory⟩ := with_history_eq_some h
    rcases status_update hexec with ⟨rfl, hstatus⟩ | ⟨⟨e, rfl⟩, hstate⟩
    · refine ⟨hregistered, fun howes => hs.2 ?_⟩
      exact Option.some.inj (hstatus.symm.trans howes.2)
    · have hsame : t = s := Prod.ext hstate hhistory
      subst hsame
      exact ⟨hregistered, fun howes => by cases hanswered howes⟩
  · cases r with
    | ok _ => exact .pure fun s _ h => h
    | error e => exact .throw fun s _ h => h

/-- A message is appended. -/
theorem ensures_append {message : MessageRecord} :
    (status_rules Event store requests).Ensures i (During requests i failed)
      (Handler.ask (.append_message message))
      (fun answer : Except StoreError Unit => Survived requests i failed (∃ a, answer = .ok a)) E :=
  ensures_survived (c := .append_message message)
    (G := fun answer : Except StoreError Unit => ∃ a, answer = .ok a) id id
    (fun _ _ h howes => ⟨(), h howes⟩) fun _ _ _ _ => rfl

/-- The last update of the message. -/
theorem ensures_final_message {message : MessageRecord} :
    (status_rules Event store requests).Ensures i (During requests i failed)
      (Handler.ask (.update_message true message))
      (fun answer : Except StoreError Unit => Survived requests i failed (∃ a, answer = .ok a)) E := by
  refine ensures_survived (c := .update_message true message)
    (G := fun answer : Except StoreError Unit => ∃ a, answer = .ok a) id id
    (fun _ _ h howes => ⟨(), h howes⟩) ?_
  rintro r state watched ⟨a, rfl⟩
  rfl

/-- The agent host answers the message. -/
theorem ensures_send_message : (status_rules Event store requests).Ensures i (During requests i failed)
      (Handler.ask .send_message) (fun answer : Except AgentHostError (List Event) =>
        Survived requests i failed (∃ a, answer = .ok a)) E :=
  ensures_survived (c := .send_message)
    (G := fun answer : Except AgentHostError (List Event) => ∃ a, answer = .ok a) id id
    (fun _ _ h => h) fun _ _ _ _ => rfl

/-- What has been read. -/
def AfterRead (requests : ι → Request) (i : ι) (failed : Bool) :
    Except StoreError (Option SessionRecord) → AppState ι × Watched ι → Prop
  | .ok (some session) => HasRead requests i failed session.status
  | _ => Restored requests i

/-- A registered turn reads the record. -/
theorem ensures_read_session :
    (status_rules Event store requests).Ensures i (During requests i failed) require_session
      (fun session => HasRead requests i failed session.status) (fun _ => Restored requests i) := by
  refine .bind (Q := AfterRead requests i failed) ?_ fun r => ?_
  · refine ensures_call id (fun r => ?_) (fun s h => h.1)
      fun s choice r t hs h hanswered hregistered => ?_
    · match r with
      | .ok (some session) => exact stable_hasRead failed session.status
      | .ok none => exact stable_restored
      | .error e => exact stable_restored
    · have hhistory := (with_history_eq_some h).2
      match r with
      | .ok (some session) =>
        refine ⟨⟨hregistered, ?_⟩, ?_⟩
        · rw [hhistory]
          exact hs.2
        · rw [hhistory]
          exact Function.update_self ..
      | .ok none =>
        refine restored_of_answered (c := .get) id h hregistered fun howes => ?_
        obtain ⟨session, hsession⟩ := hanswered howes
        cases hsession
      | .error e =>
        refine restored_of_answered (c := .get) id h hregistered fun howes => ?_
        obtain ⟨session, hsession⟩ := hanswered howes
        cases hsession
  · match r with
    | .ok (some session) => exact .pure fun s _ h => h
    | .ok none => exact .throw fun s _ h => h
    | .error e => exact .throw fun s _ h => h

/-- The status that a turn stores in the end. -/
def restored_status (failed : Bool) (session : SessionRecord) :
    Except AgentHostError Upstream → Text
  | .ok upstream => upstream.status.getD session.status
  | .error _ => if failed then "error".toList else session.status

/-- **The end of a turn** restores the status. -/
theorem ensures_restore {f : SessionRecord → Except AgentHostError Upstream → SessionRecord}
    (hf : ∀ session upstream, (f session upstream).status = restored_status failed session upstream) :
    (status_rules Event store requests).Ensures i (During requests i failed) (do
        let session ← require_session
        let upstream ← Handler.ask .get_session
        sessions_update (f session upstream)
        pure (f session upstream) : Handler Event SessionRecord)
      (fun _ => Restored requests i) (fun _ => Restored requests i) := by
  refine .bind ensures_read_session fun session => ?_
  refine .bind (Q := fun upstream s => Registered requests i s.1
    ∧ (f session upstream).status ≠ "busy".toList) ?_ fun upstream => ?_
  · refine ensures_call id (fun r => ?_) (fun s h => h.1.1)
      fun s choice r t hs h hanswered hregistered => ⟨hregistered, ?_⟩
    · rintro j hj s t _ _ ⟨hregistered, hstatus⟩ hguarantee
      exact ⟨(hguarantee.registered i (Ne.symm hj)).2 hregistered, hstatus⟩
    · suffices hrestored : restored_status failed session r ≠ "busy".toList from
        fun hbusy => hrestored ((hf session r).symm.trans hbusy)
      obtain ⟨⟨-, hfailed⟩, hread⟩ := hs
      cases r with
      | ok upstream =>
        refine hanswered _ ?_
        rw [hread]
        show _ = some (upstream.status.getD session.status)
        cases upstream.status <;> rfl
      | error e =>
        change (if failed then _ else _) ≠ _
        split_ifs with h
        · decide
        · rcases hanswered with hfailed' | hstatus
          · exact absurd (hfailed.symm.trans hfailed') h
          · exact hstatus session.status (by rw [hread]; rfl)
  · exact .bind ensures_update_restored fun _ => .pure fun s _ h => h

/-! ## The two kinds of turns -/

variable (externals : Externals Event) {turn : Turn}

/-- **The loop over the stream** knows whether it has ended in an error. -/
theorem ensures_receive_events (stream : List (Except AgentHostError Event)) (events : List Event) :
    (status_rules Event store requests).Ensures i (During requests i (ends_in_error stream))
      (receive_events externals turn events stream)
      (fun received => During requests i received.error) E := by
  have hnext : ∀ failed, (status_rules Event store requests).Ensures i (During requests i failed)
      (Handler.ask .next_event) (fun _ => During requests i failed) E := fun failed =>
    ensures_tracked (fun _ => failed) id fun _ _ _ h => h
  induction stream generalizing events with
  | nil => exact .bind (hnext _) fun _ => .pure fun s _ h => h
  | cons item rest ih =>
    cases item with
    | error e => exact .bind (hnext _) fun _ => .pure fun s _ h => h
    | ok event =>
      refine .bind (hnext _) fun _ => ?_
      refine .bind (ensures_tracked (c := .update_message false _)
        (fun r : Except StoreError Unit => match r with
          | .ok _ => ends_in_error rest
          | .error _ => true) id ?_) fun answer => ?_
      · intro r state watched hfailed
        cases r with
        | ok _ => exact hfailed
        | error e => exact Function.update_self ..
      · cases answer with
        | ok _ => exact ih _
        | error e => exact .pure fun s _ h => h

/-- What a registered turn does. -/
theorem ensures_streaming_turn : (status_rules Event store requests).Ensures i
      (fun s => During requests i false s ∧ Restored requests i s) (do
        start_streaming_turn turn session
        run_streaming_turn externals turn : Handler Event SessionRecord)
      (fun _ => Restored requests i) (fun _ => Restored requests i) := by
  refine .bind (Q := fun _ => During requests i false) ?_ fun _ => ?_
  · refine .bind ensures_update_busy fun _ => ?_
    refine .bind ensures_append fun _ => .bind ensures_require_answer fun _ => ?_
    exact .bind ensures_append fun _ => ensures_require_answer
  · refine .bind (ensures_tracked (c := .stream_message)
      (fun r : Except AgentHostError (List (Except AgentHostError Event)) => match r with
        | .ok stream => ends_in_error stream
        | .error _ => true) id ?_) fun answer => ?_
    · intro r state watched _
      cases r <;> exact Function.update_self ..
    refine .bind (Q := fun received : Received Event => During requests i received.error)
      ?_ fun received => ?_
    · cases answer with
      | ok stream => exact ensures_receive_events externals stream []
      | error e => exact .pure fun s _ h => h
    · refine .bind ensures_final_message fun _ =>
        Rules.Ensures.bind ensures_require_answer fun _ => ?_
      refine ensures_restore fun session upstream => ?_
      cases upstream <;> rfl

@[inherit_doc ensures_streaming_turn]
theorem ensures_registered_turn : (status_rules Event store requests).Ensures i
      (fun s => During requests i false s ∧ Restored requests i s)
      (run_registered_turn externals turn session)
      (fun _ => Restored requests i) (fun _ => Restored requests i) := by
  refine .bind ensures_update_busy fun _ => ?_
  refine .bind ensures_append fun _ => .bind ensures_require_answer fun _ => ?_
  refine .bind ensures_send_message fun _ =>
    Rules.Ensures.bind ensures_require_answer fun events => ?_
  refine .bind ensures_append fun _ => .bind ensures_require_answer fun _ => ?_
  refine ensures_restore ?_
  intro session upstream
  cases upstream <;> rfl

/-- What a turn does before it is registered. -/
theorem ensures_before {x : Handler Event α} (h : Prog.OnlyE (fun c => ¬c.IsTurn) x) :
    (status_rules Event store requests).Ensures i (Before requests i) x
      (fun _ => Before requests i) (fun _ _ => True) := by
  have houtline : (status_rules Event store requests).Outline i (Before requests i) x.run
      fun _ => Before requests i := by
    refine Rules.Outline.of_only h stable_before fun c s choice r t hc hs hbefore _ h => ?_
    have hregistration : ¬c.IsRegistration := by
      intro hregistration
      cases c <;> first | exact hc trivial | exact hregistration
    obtain ⟨hinvariant, hguarantee, hregistered⟩ := leaves_call hregistration hs h
    refine ⟨hinvariant, hguarantee, fun hi => hbefore.1 (hregistered.1 hi), fun hwriter => hbefore.2 ?_⟩
    have hhistory := (with_history_eq_some h).2
    by_cases hupdate : c.IsUpdate
    · cases c with
      | update applied session =>
        rw [hhistory] at hwriter
        cases r with
        | ok _ =>
          change (if Registered requests i s.1 then some i else none) = some i at hwriter
          rw [if_neg hbefore.1] at hwriter
          cases hwriter
        | error e => exact hwriter
      | _ => exact absurd hupdate id
    · rwa [hhistory, record_status_writer hupdate] at hwriter
  refine houtline.weaken fun answer s _ h => ?_
  cases answer with
  | ok a => exact h
  | error e => trivial

variable (hids : ∀ i j turn_id, (requests i).turn_id = some turn_id →
  (requests j).turn_id = some turn_id → i = j)
include hids

/-- **The guard** around a turn that owes nothing in the end. -/
theorem ensures_with_active_turn {turn_id : Text} {body : Handler Event α}
    (hi : (requests i).turn_id = some turn_id) (h : (status_rules Event store requests).Ensures i
      (fun s => During requests i false s ∧ Restored requests i s) body
      (fun _ => Restored requests i) (fun _ => Restored requests i)) :
    (status_rules Event store requests).Ensures i (Before requests i)
      (Handler.with_active_turn turn_id body) (fun _ _ => True) (fun _ _ => True) := by
  have hstart : ∀ r : Except Text Unit, (status_rules Event store requests).Stable i fun s =>
      r = .ok () → During requests i false s ∧ Restored requests i s :=
    fun r j hj s t hs ht hP hguarantee hr =>
      ⟨stable_during false j hj s t hs ht (hP hr).1 hguarantee,
        stable_restored j hj s t hs ht (hP hr).2 hguarantee⟩
  refine .bind (Q := fun r s => r = .ok () → During requests i false s ∧ Restored requests i s)
    ?_ fun r => ?_
  · refine Rules.Outline.bind (Rules.Outline.lift hstart ?_) fun r => Rules.Outline.ret fun s _ h => h
    intro s choice r t hs hbefore _ h
    obtain ⟨hinvariant, hguarantee, hbegun⟩ := leaves_begin hids hi hs h
    refine ⟨hinvariant, hguarantee, fun hr => ?_⟩
    rcases hbegun with ⟨-, hregistered, hfailed, hwriter⟩ | ⟨⟨e, rfl⟩, -⟩
    · refine ⟨⟨hregistered, hfailed⟩, hregistered, fun howes => hbefore.2 ?_⟩
      rw [← hwriter]
      exact howes.1
    · cases hr
  · cases r with
    | error e => exact fun _ _ _ => trivial
    | ok _ =>
      have hbody : (status_rules Event store requests).Outline i
          (fun s => (Except.ok () : Except Text Unit) = .ok () →
            During requests i false s ∧ Restored requests i s) body.run
          fun _ => Restored requests i :=
        (Rules.Outline.weaken h fun answer s _ hs => by cases answer <;> exact hs).mono
          fun s _ hs => hs rfl
      refine .bind (Q := fun _ s => (Except.ok () : Except Text Unit) = .ok () →
        During requests i false s ∧ Restored requests i s) (Rules.Ensures.pure fun s _ h => h) fun _ => ?_
      refine Rules.Outline.bind hbody fun answer =>
        Rules.Outline.bind (Q := fun _ _ => True) ?_ fun _ => Rules.Outline.ret fun s _ _ => ?_
      · refine Rules.Outline.lift (fun _ _ _ _ _ _ _ _ _ => trivial) fun s choice r t hs hrestored _ h => ?_
        obtain ⟨hinvariant, hguarantee⟩ := leaves_drop hids hi hs hrestored.2 h
        exact ⟨hinvariant, hguarantee, trivial⟩
      · cases answer <;> trivial

/-! ## Requests -/

omit [DecidableEq ι] hids in
theorem only_handler {request : Request} (h : request.turn_id = none) :
    (handler externals request).Only fun c => ¬c.IsTurn := by
  have hp : ∀ c : Call Event, ¬c.IsTurn → ¬c.IsTurn := fun _ h => h
  have hruntime : Prog.OnlyE (fun c : Call Event => ¬c.IsTurn) (require_cli_runtime externals) :=
    only_require_cli_runtime externals id id
  have happly : ∀ session terminal, Prog.OnlyE (fun c : Call Event => ¬c.IsTurn)
      (apply_terminal_runtime_status session terminal) := only_apply_terminal_runtime_status hp
  cases request with
  | terminal_status =>
    refine Prog.OnlyE.bind ?_ fun _ => Prog.OnlyE.pure
    refine Prog.OnlyE.bind hruntime fun session => ?_
    refine Prog.OnlyE.bind (only_ask id) fun answer => ?_
    refine Prog.OnlyE.bind (only_require _ _) fun terminal => ?_
    exact Prog.OnlyE.bind (happly _ _) fun _ => only_require _ _
  | terminal_websocket =>
    refine Prog.OnlyE.bind hruntime fun session => ?_
    refine Prog.OnlyE.bind (only_ask id) fun answer => ?_
    refine Prog.OnlyE.bind (only_require _ _) fun terminal => ?_
    refine Prog.OnlyE.bind (happly _ _) fun _ => ?_
    refine Prog.OnlyE.bind (only_return_error_if _ _) fun _ => ?_
    exact Prog.OnlyE.bind (only_ask id) fun _ => only_require _ _
  | terminal_ensure =>
    refine Prog.OnlyE.bind ?_ fun _ => Prog.OnlyE.pure
    refine Prog.OnlyE.bind (only_require_cli_session externals id id) fun _ => ?_
    refine Prog.OnlyE.bind (only_with_lifecycle id id ?_) fun _ => only_require _ _
    exact Prog.OnlyE.bind (only_require_session id) fun session =>
      only_ensure_cli_runtime_locked hp externals session
  | terminal_resume | terminal_stop =>
    refine Prog.OnlyE.bind (only_with_lifecycle id id ?_) fun _ => Prog.OnlyE.pure
    refine Prog.OnlyE.bind hruntime fun session => ?_
    refine Prog.OnlyE.bind (only_ask id) fun answer => ?_
    refine Prog.OnlyE.bind (only_require _ _) fun terminal => ?_
    exact Prog.OnlyE.bind (happly _ _) fun _ => only_require _ _
  | get_session =>
    refine Prog.OnlyE.bind (Prog.OnlyE.bind (only_require_session id) fun session => ?_)
      fun _ => Prog.OnlyE.pure
    split_ifs
    · exact Prog.OnlyE.pure
    · exact only_ensure_chat_runtime hp
  | kill_kernel kernel_session_id =>
    refine Prog.OnlyE.bind (only_ask id) fun listed => ?_
    refine Prog.OnlyE.bind (only_require _ _) fun sessions => ?_
    refine Prog.OnlyE.bind (only_return_error_if _ _) fun _ => ?_
    refine Prog.OnlyE.bind (only_ask id) fun destroyed => ?_
    refine Prog.OnlyE.bind (only_require _ _) fun _ => ?_
    refine Prog.OnlyE.bind (only_ask id) fun stored => ?_
    refine Prog.OnlyE.bind (only_require _ _) fun session => ?_
    cases session with
    | none => exact Prog.OnlyE.pure
    | some session =>
      dsimp only
      split_ifs
      · exact only_sessions_update hp _
      · exact Prog.OnlyE.pure
  | reset_session => exact Prog.OnlyE.bind (only_reset_session hp) fun _ => Prog.OnlyE.pure
  | stream_message turn => cases h
  | send_message turn => cases h

/-- **Every request** keeps what is guaranteed. -/
theorem outline_request : (status_rules Event store requests).Outline i (Before requests i)
    (handler externals (requests i)) (fun _ _ => True) := by
  have hp : ∀ c : Call Event, ¬c.IsTurn → ¬c.IsTurn := fun _ h => h
  have hrun : ∀ {x : Handler Event Unit}, (status_rules Event store requests).Ensures i
      (Before requests i) x (fun _ _ => True) (fun _ _ => True) →
      (status_rules Event store requests).Outline i (Before requests i) x.run (fun _ _ => True) :=
    fun h => Rules.Outline.weaken h fun _ _ _ _ => trivial
  have hpure : ∀ {a : Unit} {P : AppState ι × Watched ι → Prop},
      (status_rules Event store requests).Ensures i P (pure a : Handler Event Unit)
        (fun _ _ => True) (fun _ _ => True) := .pure fun _ _ _ => trivial
  have hbefore : ∀ {β : Type} {x : Handler Event β}, Prog.OnlyE (fun c => ¬c.IsTurn) x →
      (status_rules Event store requests).Ensures i (Before requests i) x
        (fun _ => Before requests i) (fun _ _ => True) := fun h => ensures_before h
  have hchat := hbefore (only_require_chat_session id)
  have hruntime := hbefore (only_ensure_chat_runtime hp)
  have havailable := fun session : SessionRecord => hbefore
    (only_return_error_if (session.status = "legacy-unrecoverable".toList) .legacy_unrecoverable)
  cases hrequest : requests i with
  | stream_message turn =>
    refine hrun (Rules.Ensures.bind (Q := fun _ _ => True) ?_ fun _ => hpure)
    refine .bind hchat fun _ => .bind hruntime fun session => ?_
    refine .bind (havailable session) fun _ => .bind hchat fun session => ?_
    exact ensures_with_active_turn hids (by rw [hrequest]; rfl) (ensures_streaming_turn externals)
  | send_message turn =>
    refine hrun (Rules.Ensures.bind (Q := fun _ _ => True) ?_ fun _ => hpure)
    refine .bind hchat fun _ => .bind hruntime fun session => ?_
    refine .bind (havailable session) fun _ => ?_
    exact ensures_with_active_turn hids (by rw [hrequest]; rfl) (ensures_registered_turn externals)
  | _ =>
    rw [← hrequest]
    exact Rules.Outline.weaken (ensures_before (only_handler externals (by rw [hrequest]; rfl)))
      fun _ _ _ _ => trivial

end Outlines

/-! ## Runs -/

section Runs

/-- The calls of a run meet what `Restores` asks. -/
def Restoring {α : Type} (store : SessionStore) (requests : ι → Request)
    (s : Threads ι (Call Event) α (AppState ι × Watched ι) Reply) (move : Move ι (Choice Event))
    (_ : Threads ι (Call Event) α (AppState ι × Watched ι) Reply) : Prop :=
  ∀ c k, s.rest move.thread = .call c k → Restores store requests move.thread c move.choice s.state

variable [DecidableEq ι]

/-- **No session is left busy by a finished turn** in every run of any number of turns and other
requests, with both stores, as long as the calls of the registered turns meet `Restores`. -/
theorem status_is_restored {store : SessionStore} (externals : Externals Event)
    {requests : ι → Request} {s : AppState ι} {moves : List (Move ι (Choice Event))}
    {last : Threads ι (Call Event) (Except ApiError Unit) (AppState ι × Watched ι) Reply}
    (hids : ∀ i j turn_id, (requests i).turn_id = some turn_id →
      (requests j).turn_id = some turn_id → i = j) (hidle : s.active_turns = none)
    (hrun : Run (Guarded (Advance (watched store requests)) (Restoring store requests))
      (requested externals requests (s, Watched.init)) moves last) : NotLeftBusy last.state := by
  have hinit : (status_rules Event store requests).Outlined (fun _ _ _ => True)
      (requested externals requests (s, Watched.init)) := by
    refine ⟨fun i howes => ?_, fun i => ⟨Before requests i, stable_before, ⟨?_, ?_⟩,
      outline_request externals hids⟩⟩
    · cases howes.1
    · rintro ⟨turn_id, -, hactive⟩
      cases hidle.symm.trans hactive
    · exact fun h => by cases h
  intro hnone i howes
  obtain ⟨turn_id, -, hactive⟩ := (hinit.run hrun).1.invariant i howes
  cases hnone.symm.trans hactive

end Runs

/-! ## A turn that leaves the session busy -/

/-- Another turn. -/
def other_turn : Turn where
  turn_id := "t2".toList
  user_message_id := "m3".toList
  user_created_at := "2026-01-01T00:00:02Z".toList
  assistant_message_id := "m4".toList
  assistant_created_at := "2026-01-01T00:00:02Z".toList
  message := "more".toList

/-- A streaming turn, and a synchronous one. -/
def two_turns : Bool → Request
  | false => .stream_message some_turn
  | true => .send_message other_turn

/-- The calls of the synchronous turn up to the answer to its message. -/
def send_calls (answer : Except AgentHostError (List Unit)) : List (Move Bool (Choice Unit)) :=
  [⟨true, .proceed⟩, ⟨true, .proceed⟩, ⟨true, .proceed⟩] ++ ensure_calls true
    ++ List.replicate 4 ⟨true, .proceed⟩ ++ [⟨true, .events answer⟩]

/-- The calls of the streaming turn: its only event is an error, and so is the answer to its status
lookup. -/
def stream_calls : List (Move Bool (Choice Unit)) :=
  [⟨false, .proceed⟩, ⟨false, .proceed⟩, ⟨false, .proceed⟩] ++ ensure_calls false
    ++ List.replicate 6 ⟨false, .proceed⟩ ++ [⟨false, .stream (.ok [.error (.Other [])])⟩]
    ++ List.replicate 3 ⟨false, .proceed⟩ ++ [⟨false, .upstream (.error (.Other []))⟩]
    ++ List.replicate 2 ⟨false, .proceed⟩

/-- The calls of both turns, one after the other. -/
def both_calls : List (Move Bool (Choice Unit)) :=
  stream_calls ++ send_calls (.ok []) ++ List.replicate 2 ⟨true, .proceed⟩ ++ [⟨true, idle⟩]
    ++ List.replicate 2 ⟨true, .proceed⟩

/-- An answer with which every turn goes on. -/
def is_answer {i : ι} {s : AppState ι × Watched ι} : (c : Call Event) → Reply c → Bool
  | .append_message _, (answer : Except StoreError Unit) => answer.isOk
  | .update_message _ _, (answer : Except StoreError Unit) => answer.isOk
  | .update _ _, (answer : Except StoreError Unit) => answer.isOk
  | .get, (.ok (some _) : Except StoreError (Option SessionRecord)) => true
  | .get, _ => false
  | .send_message, (answer : Except AgentHostError (List Event)) => answer.isOk
  | .get_session, (.ok ⟨_, some status, _, _⟩ : Except AgentHostError Upstream) =>
    status ≠ "busy".toList
  | .get_session, (.ok ⟨_, none, _, _⟩ : Except AgentHostError Upstream) => false
  | .get_session, (.error _ : Except AgentHostError Upstream) => s.2.failed i
  | _, _ => true

theorem answered_of_is_answer {i : ι} {s : AppState ι × Watched ι} {c : Call Event} {r : Reply c}
    (h : is_answer (i := i) (s := s) c r = true) : Answered i s c r := by
  cases c with
  | append_message message | update applied session =>
    cases r with
    | ok _ => exact fun _ => rfl
    | error e => cases h
  | update_message final message =>
    cases final with
    | false => trivial
    | true =>
      cases r with
      | ok _ => exact fun _ => rfl
      | error e => cases h
  | get =>
    match r with
    | .ok (some session) => exact fun _ => ⟨session, rfl⟩
    | .ok none => cases h
    | .error e => cases h
  | send_message =>
    cases r with
    | ok events => exact fun _ => ⟨events, rfl⟩
    | error e => cases h
  | get_session =>
    match r with
    | .ok ⟨_, some status, _, _⟩ =>
      rintro status' hstatus
      obtain rfl : status = status' := Option.some.inj hstatus
      exact of_decide_eq_true h
    | .ok ⟨_, none, _, _⟩ => cases h
    | .error e => exact Or.inl h
  | _ => trivial

/-- A check of what `Restores` asks of a step. -/
def is_restoring (requests : Bool → Request)
    (s : Threads Bool (Call Unit) (Except ApiError Unit) (AppState Bool × Watched Bool) Reply)
    (move : Move Bool (Choice Unit)) : Bool :=
  match s.rest move.thread with
  | .call c _ =>
    ¬Registered requests move.thread s.state.1
      || (exec .Sqlite move.thread c move.choice s.state.1).all fun answer =>
        is_answer (i := move.thread) (s := s.state) c answer.1
  | .ret _ => true

theorem restoring_of_is_restoring {requests : Bool → Request}
    {s t : Threads Bool (Call Unit) (Except ApiError Unit) (AppState Bool × Watched Bool) Reply}
    {move : Move Bool (Choice Unit)} (h : is_restoring requests s move = true) :
    Restoring .Sqlite requests s move t := by
  intro c k hrest hregistered r state hexec
  unfold is_restoring at h
  rw [hrest] at h
  simp only [hregistered, not_true_eq_false, decide_false, Bool.false_or, hexec,
    Option.all_some] at h
  exact answered_of_is_answer h

theorem status_is_restored_after_two_turns : ∃ last,
    Run (Guarded (Advance (watched .Sqlite two_turns)) (Restoring .Sqlite two_turns))
        (requested no_content two_turns (chat_state, Watched.init)) both_calls last
      ∧ last.state.2.writer = some true ∧ NotLeftBusy last.state := by
  obtain ⟨last, hrun, hwriter⟩ := exists_run_of_play (watched .Sqlite two_turns)
    (is_restoring two_turns) (P := Restoring .Sqlite two_turns)
    (fun _ _ _ h _ => restoring_of_is_restoring h)
    (requested no_content two_turns (chat_state, Watched.init)) both_calls
    (fun last => last.state.2.writer = some true) (by decide +kernel)
  have hids : ∀ i j turn_id, (two_turns i).turn_id = some turn_id →
      (two_turns j).turn_id = some turn_id → i = j := by
    intro i j turn_id hi hj
    have hne : (two_turns false).turn_id ≠ (two_turns true).turn_id := by decide
    cases i with
    | false =>
      cases j with
      | false => rfl
      | true => exact absurd (hi.trans hj.symm) hne
    | true =>
      cases j with
      | false => exact absurd (hj.trans hi.symm) hne
      | true => rfl
  exact ⟨last, hrun, by simpa using hwriter, status_is_restored no_content hids rfl hrun⟩

/-- **A failed turn stays busy**: the agent host does not answer its message, and the turn is
cleared from `active_turns` without another update. -/
theorem failed_turn_stays_busy : ∃ last,
    Run (Guarded (Advance (watched .Sqlite two_turns)) fun _ _ _ => True)
        (requested no_content two_turns (chat_state, Watched.init))
        (send_calls (.error (.Other [])) ++ [⟨true, .proceed⟩]) last
      ∧ ¬NotLeftBusy last.state := by
  obtain ⟨last, hrun, hlast⟩ := exists_run_of_play (watched .Sqlite two_turns) (fun _ _ => true)
    (P := fun _ _ _ => True) (fun _ _ _ _ _ => trivial)
    (requested no_content two_turns (chat_state, Watched.init))
    (send_calls (.error (.Other [])) ++ [⟨true, .proceed⟩])
    (fun last => last.state.1.active_turns = none && last.state.2.writer = some true
      && last.state.1.status = some "busy".toList) (by decide +kernel)
  simp only [Bool.and_eq_true, decide_eq_true_eq] at hlast
  obtain ⟨⟨hnone, hwriter⟩, hstatus⟩ := hlast
  exact ⟨last, hrun, fun h => h hnone true ⟨hwriter, hstatus⟩⟩

end AgentSpace.Sessions
