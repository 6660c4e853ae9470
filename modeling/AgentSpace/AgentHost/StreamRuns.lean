/-
Runs of an event stream: what its consumer receives is recorded once, and which polls return.

What a live stream has passed on is in its events, or in the call of `finalize_stream` that
has begun. A closed stream is never live again, and a poll of it spins.
-/
import AgentSpace.AgentHost.EventStream

set_option autoImplicit false

namespace AgentSpace.AgentHost

open Text Lib

variable {ι ρ V ε : Type} {runtime : KernelRuntime ι ρ V ε}

@[simp] theorem yielded_pending : yielded (.Pending : Poll (Option (Except ε (KernelEvent V)))) = [] := rfl

@[simp] theorem yielded_error (error : ε) :
    yielded (.Ready (some (.error error)) : Poll (Option (Except ε (KernelEvent V)))) = [] := rfl

/-! ## A stream between two polls -/

namespace FinalizeStream

/-- A call of `finalize_stream` for a session, with these events. -/
structure Holds (session_id : Text) (received : List (KernelEvent V)) (call : FinalizeStream ρ V) : Prop where
  session : call.session_id = session_id
  events : call.events = received

/-- **A poll** of `finalize_stream` waits, or records the turn. -/
theorem Holds.poll {session_id : Text} {received : List (KernelEvent V)} {finalize rest : FinalizeStream ρ V}
    {sessions : Sessions V} {answer : Poll (Sessions V)} (h : finalize.Holds session_id received)
    (hpoll : finalize.poll runtime sessions = (answer, rest)) :
    (answer = .Pending ∧ rest.Holds session_id received)
      ∨ ∃ summary : Except ε RuntimeSessionSummary,
          answer = .Ready (record_turn session_id received summary sessions) := by
  unfold FinalizeStream.poll at hpoll
  rw [h.session, h.events] at hpoll
  split at hpoll
  · next summary _ _ =>
      exact Or.inr ⟨summary, (Prod.mk.inj hpoll).1.symm⟩
  · obtain ⟨hanswer, hrest⟩ := Prod.mk.inj hpoll
    rw [← hrest]
    exact Or.inl ⟨hanswer.symm, rfl, rfl⟩

end FinalizeStream

namespace AgentEventStream

/-- A stream that has not ended: what it has passed on is to be recorded. -/
structure Live (session_id : Text) (received : List (KernelEvent V)) (stream : AgentEventStream ι ρ V) :
    Prop where
  unfinished : stream.finalized = false
  session : stream.session_id = session_id
  events : stream.finalize = none → stream.events = received
  finalizing : ∀ finalize, stream.finalize = some finalize →
    finalize.Holds session_id received ∧ stream.inner = none

/-- A stream that has ended. -/
structure Closed (stream : AgentEventStream ι ρ V) : Prop where
  finalized : stream.finalized = true
  inner : stream.inner = none
  finalize : stream.finalize = none

section Live

variable {session_id : Text} {received : List (KernelEvent V)} {self : AgentEventStream ι ρ V}

theorem live_new (inner : ι) (session_id : Text) :
    Live session_id [] (new inner session_id : AgentEventStream ι ρ V) where
  unfinished := rfl
  session := rfl
  events _ := rfl
  finalizing _ h := nomatch h

theorem Live.finalize_stream (h : self.Live session_id received) (hfinalize : self.finalize = none) :
    (self.finalize_stream runtime).Holds session_id received :=
  ⟨h.session, h.events hfinalize⟩

/-- **Beginning to finalize** keeps a stream live. -/
theorem Live.begin_finalize (runtime : KernelRuntime ι ρ V ε) (h : self.Live session_id received) :
    (self.begin_finalize runtime).Live session_id received
      ∧ (self.begin_finalize runtime).finalize.isSome = true := by
  unfold AgentEventStream.begin_finalize
  cases hfinalize : self.finalize with
  | some finalize =>
    rw [Option.isSome_some, Bool.or_true, if_pos rfl, hfinalize]
    exact ⟨h, rfl⟩
  | none =>
    rw [h.unfinished, Option.isSome_none, Bool.or_false, if_neg Bool.false_ne_true]
    refine ⟨⟨rfl, h.session, nofun, ?_⟩, rfl⟩
    intro finalize heq
    rw [← Option.some.inj heq]
    exact ⟨h.finalize_stream hfinalize, rfl⟩

/-- The inner stream has moved on, and the stream has passed these events on. -/
theorem Live.pass_on (h : self.Live session_id received) (hfinalize : self.finalize = none)
    (inner : Option ι) (events : List (KernelEvent V)) : Live session_id (received ++ events)
      (⟨inner, self.session_id, self.events ++ events, none, self.finalized⟩ : AgentEventStream ι ρ V) where
  unfinished := h.unfinished
  session := h.session
  events _ := congrArg (· ++ events) (h.events hfinalize)
  finalizing _ heq := nomatch heq

theorem Live.wait (h : self.Live session_id received) (hfinalize : self.finalize = none)
    (inner : Option ι) : Live session_id received
      (⟨inner, self.session_id, self.events, none, self.finalized⟩ : AgentEventStream ι ρ V) := by
  have hpass := h.pass_on hfinalize inner []
  rw [List.append_nil, List.append_nil] at hpass
  exact hpass

/-- What a poll of a live stream comes to. -/
def Answers (session_id : Text) (received : List (KernelEvent V)) (sessions : Sessions V) :
    Poll (Option (Except ε (KernelEvent V))) × AgentEventStream ι ρ V × Sessions V → Prop
  | (answer, stream, sessions') =>
    (answer ≠ .Ready none ∧ stream.Live session_id (received ++ yielded answer) ∧ sessions' = sessions)
      ∨ (answer = .Ready none ∧ stream.Closed
        ∧ ∃ summary : Except ε RuntimeSessionSummary,
            sessions' = record_turn session_id received summary sessions)

/-- **The body of the loop**, of a live stream: it turns again only to finalize, and else
answers. -/
theorem Live.poll_body (runtime : KernelRuntime ι ρ V ε) (h : self.Live session_id received)
    (sessions : Sessions V) :
    match AgentEventStream.poll_body runtime (self, sessions) with
    | .again (stream, sessions') => self.finalize = none ∧ stream.Live session_id received
        ∧ stream.finalize.isSome = true ∧ sessions' = sessions
    | .done result => Answers session_id received sessions result := by
  unfold AgentEventStream.poll_body
  dsimp only
  cases hfinalize : self.finalize with
  | some finalize =>
    obtain ⟨hholds, hinner⟩ := h.finalizing finalize hfinalize
    dsimp only
    rcases hpoll : finalize.poll runtime sessions with ⟨answer, rest⟩
    rcases hholds.poll hpoll with ⟨rfl, hrest⟩ | ⟨summary, rfl⟩
    · refine Or.inl ⟨nofun, ?_, rfl⟩
      rw [yielded_pending, List.append_nil]
      refine ⟨h.unfinished, h.session, nofun, fun finalize heq => ?_⟩
      rw [← Option.some.inj heq]
      exact ⟨hrest, hinner⟩
    · exact Or.inr ⟨rfl, ⟨rfl, hinner, rfl⟩, summary, rfl⟩
  | none =>
    dsimp only
    cases self.inner with
    | none =>
      obtain ⟨hlive, hsome⟩ := h.begin_finalize runtime
      exact ⟨rfl, hlive, hsome, rfl⟩
    | some inner =>
      dsimp only
      rcases runtime.poll_next inner with ⟨(_ | error | event) | _, rest⟩
      · obtain ⟨hlive, hsome⟩ := (h.wait hfinalize rest).begin_finalize runtime
        exact ⟨rfl, hlive, hsome, rfl⟩
      · refine Or.inl ⟨nofun, ?_, rfl⟩
        rw [yielded_error, List.append_nil]
        exact ((h.wait hfinalize rest).begin_finalize runtime).1
      · exact Or.inl ⟨nofun, h.pass_on hfinalize rest [event], rfl⟩
      · refine Or.inl ⟨nofun, ?_, rfl⟩
        rw [yielded_pending, List.append_nil]
        exact h.wait hfinalize rest

theorem Live.poll_next (h : self.Live session_id received) (sessions : Sessions V) :
    ∃ result, LoopEnds (AgentEventStream.poll_body runtime) (self, sessions) result := by
  refine LoopEnds.of_measure (fun state => Live session_id received state.1)
    (fun state => if state.1.finalize.isSome then 0 else 1) ?_ h
  rintro ⟨self, sessions⟩ ⟨self', sessions'⟩ h hbody
  have hturn := Live.poll_body runtime h sessions
  rw [hbody] at hturn
  obtain ⟨hfinalize, hlive, hsome, -⟩ := hturn
  dsimp only
  rw [hfinalize, hsome]
  exact ⟨hlive, Nat.one_pos⟩

/-- What `poll_next` comes to, in a live stream. -/
theorem Live.answers (h : self.Live session_id received) {sessions : Sessions V}
    {result : Poll (Option (Except ε (KernelEvent V))) × AgentEventStream ι ρ V × Sessions V}
    (hends : LoopEnds (AgentEventStream.poll_body runtime) (self, sessions) result) :
    Answers session_id received sessions result := by
  have hturn : ∀ s t : AgentEventStream ι ρ V × Sessions V,
      s.1.Live session_id received ∧ s.2 = sessions → AgentEventStream.poll_body runtime s = .again t →
      t.1.Live session_id received ∧ t.2 = sessions := by
    rintro ⟨self, sessions'⟩ ⟨self', sessions''⟩ ⟨h, rfl⟩ hbody
    have hturn := Live.poll_body runtime h sessions'
    rw [hbody] at hturn
    exact ⟨hturn.2.1, hturn.2.2.2⟩
  obtain ⟨⟨self', sessions'⟩, ⟨h', rfl⟩, hlast⟩ := hends.last hturn ⟨h, rfl⟩
  have hanswers := Live.poll_body runtime h' sessions'
  rw [hlast] at hanswers
  exact hanswers

/-- **A poll of a closed stream** spins: the stream has no inner stream to poll, and does not
begin to finalize again. -/
theorem Closed.spins (h : self.Closed) (sessions : Sessions V)
    (result : Poll (Option (Except ε (KernelEvent V))) × AgentEventStream ι ρ V × Sessions V) :
    ¬LoopEnds (AgentEventStream.poll_body runtime) (self, sessions) result := by
  refine not_loopEnds (I := fun state => state.1.Closed) ?_ h
  rintro ⟨self, sessions⟩ h
  refine ⟨(self, sessions), ?_, h⟩
  have hagain : self.begin_finalize runtime = self := by
    unfold AgentEventStream.begin_finalize
    rw [h.finalized, Bool.true_or, if_pos rfl]
  unfold AgentEventStream.poll_body
  dsimp only
  rw [h.finalize, h.inner]
  dsimp only
  rw [hagain]

end Live

end AgentEventStream

/-! ## Runs -/

/-- The session of a stream is not finalized yet: the stream is live, or what was spawned for
it holds the turn. -/
def Unrecorded (session_id : Text) (w : World ι ρ V) : Prop :=
  match w.stream with
  | some self => self.Live session_id w.received ∧ w.spawned = none
  | none => ∃ call, w.spawned = some call ∧ call.Holds session_id w.received

/-- The session of a stream is finalized, and these events were received. -/
structure Finished (events : List (KernelEvent V)) (w : World ι ρ V) : Prop where
  closed : ∀ self, w.stream = some self → self.Closed
  spawned : w.spawned = none
  received : w.received = events

/-- A step that leaves the sessions, if it is one of the stream. -/
def Quiet (w : World ι ρ V) (l : Label V ε) (w' : World ι ρ V) : Prop :=
  l ≠ .others → w'.sessions = w.sessions

/-- A step of the stream that records a turn, if there are events: in the history of the
session, behind the turns there, if the session is still registered. -/
structure Records (session_id : Text) (events : List (KernelEvent V)) (w : World ι ρ V) (l : Label V ε)
    (w' : World ι ρ V) : Prop where
  label : l = .poll (.Ready none) ∨ l = .executor ∧ w'.stream = none
  turn : ∀ record, w.sessions[session_id]? = some record → ∃ record', w'.sessions[session_id]? = some record'
    ∧ record'.history = record.history ++ if events = [] then [] else [events]
  others : ∀ id : Text, id ≠ session_id → w'.sessions[id]? = w.sessions[id]?
  unregistered : w.sessions[session_id]? = none → w'.sessions = w.sessions

/-- An inner stream that answers so and then waits, of a runtime that is gone. -/
def replay : KernelRuntime (List (Poll (Option (Except Text (KernelEvent Unit))))) Unit Unit Text where
  poll_next
    | [] => (.Pending, [])
    | answer :: rest => (answer, rest)
  summary := ()
  poll_summary _ := (.Ready (.error "container is not running".toList), ())

section Runs

variable {session_id : Text} {events : List (KernelEvent V)} {w w' : World ι ρ V} {l : Label V ε}
  {ls : List (Label V ε)}

theorem history_push_turn (record : SessionRecord V) (events : List (KernelEvent V)) :
    (record.push_turn events).history = record.history ++ if events = [] then [] else [events] := by
  unfold SessionRecord.push_turn
  cases events with
  | nil => exact (List.append_nil _).symm
  | cons event events => rfl

/-- **Recording a turn** puts it in the history of the session. -/
theorem records_record_turn (summary : Except ε RuntimeSessionSummary)
    (hlabel : l = .poll (.Ready none) ∨ l = .executor ∧ w'.stream = none)
    (hsessions : w'.sessions = record_turn session_id events summary w.sessions) :
    Records session_id events w l w' := by
  unfold record_turn at hsessions
  cases hrecord : w.sessions[session_id]? with
  | none =>
    rw [hrecord] at hsessions
    refine ⟨hlabel, ?_, fun _ _ => by rw [hsessions], fun _ => hsessions⟩
    intro record heq
    rw [hrecord] at heq
    cases heq
  | some record =>
    rw [hrecord] at hsessions
    -- with a summary and without one, one record of the table is replaced
    obtain ⟨record', hinsert, hhistory⟩ : ∃ record' : SessionRecord V,
        w'.sessions = w.sessions.insert session_id record'
          ∧ record'.history = (record.push_turn events).history := by
      cases summary with
      | ok summary | error error => exact ⟨_, hsessions, rfl⟩
    refine ⟨hlabel, ?_, ?_, ?_⟩
    · intro found heq
      rw [hrecord] at heq
      rw [← Option.some.inj heq, hinsert, Std.ExtTreeMap.getElem?_insert_self]
      exact ⟨record', rfl, by rw [hhistory, history_push_turn]⟩
    · intro id hne
      rw [hinsert, Std.ExtTreeMap.getElem?_insert, if_neg]
      exact fun heq => hne (Std.LawfulEqCmp.eq_of_compare heq).symm
    · intro heq
      rw [hrecord] at heq
      cases heq

theorem Unrecorded.of_stream {self : AgentEventStream ι ρ V} (h : Unrecorded session_id w)
    (hstream : w.stream = some self) : self.Live session_id w.received ∧ w.spawned = none := by
  unfold Unrecorded at h
  rw [hstream] at h
  exact h

theorem Unrecorded.of_spawned {call : FinalizeStream ρ V} (h : Unrecorded session_id w)
    (hspawned : w.spawned = some call) : w.stream = none ∧ call.Holds session_id w.received := by
  unfold Unrecorded at h
  cases hstream : w.stream with
  | some self =>
    rw [hstream] at h
    rw [h.2] at hspawned
    cases hspawned
  | none =>
    rw [hstream] at h
    obtain ⟨call', hcall, hholds⟩ := h
    rw [hspawned] at hcall
    rw [← Option.some.inj hcall] at hholds
    exact ⟨rfl, hholds⟩

theorem not_over_of_unrecorded (h : Unrecorded session_id w) : ¬Over w := by
  unfold Over
  cases hstream : w.stream with
  | some self => simp [(h.of_stream hstream).1.unfinished]
  | none =>
    unfold Unrecorded at h
    rw [hstream] at h
    obtain ⟨call, hcall, -⟩ := h
    simp [hcall]

theorem over_of_finished (h : Finished events w) : Over w := by
  unfold Over
  cases hstream : w.stream with
  | some self => exact (h.closed self hstream).finalized
  | none => exact h.spawned

/-- **A step before** the session is finalized is quiet, or records the turn. -/
theorem step_unrecorded (hw : Unrecorded session_id w) (h : Step runtime w l w') :
    (Quiet w l w' ∧ l ≠ .poll (.Ready none)) ∧ Unrecorded session_id w'
      ∨ ∃ events, Records session_id events w l w' ∧ Finished events w' := by
  cases h with
  | poll hstream hends =>
    obtain ⟨hlive, hspawned⟩ := hw.of_stream hstream
    rcases hlive.answers hends with ⟨hanswer, hlive', rfl⟩ | ⟨rfl, hclosed, summary, rfl⟩
    · exact Or.inl ⟨⟨fun _ => rfl, fun heq => hanswer (Label.poll.inj heq)⟩, hlive', hspawned⟩
    · refine Or.inr ⟨w.received, records_record_turn summary (Or.inl rfl) rfl, ?_, hspawned, ?_⟩
      · intro self heq
        rw [← Option.some.inj heq]
        exact hclosed
      · exact List.append_nil _
  | @drop self hstream =>
    obtain ⟨hlive, -⟩ := hw.of_stream hstream
    refine Or.inl ⟨⟨fun _ => rfl, nofun⟩, ?_⟩
    unfold Unrecorded AgentEventStream.drop
    dsimp only
    rw [hlive.unfinished, if_neg Bool.false_ne_true]
    cases hfinalize : self.finalize with
    | some call => exact ⟨call, rfl, (hlive.finalizing call hfinalize).1⟩
    | none => exact ⟨_, rfl, hlive.finalize_stream hfinalize⟩
  | executor_ready hspawned hpoll =>
    obtain ⟨hstream, hholds⟩ := hw.of_spawned hspawned
    rcases hholds.poll hpoll with ⟨hpending, -⟩ | ⟨summary, hready⟩
    · cases hpending
    · refine Or.inr ⟨w.received, records_record_turn summary (Or.inr ⟨rfl, hstream⟩)
        (Poll.Ready.inj hready), ?_⟩
      refine ⟨fun self heq => ?_, rfl, rfl⟩
      rw [hstream] at heq
      cases heq
  | executor_pending hspawned hpoll =>
    obtain ⟨hstream, hholds⟩ := hw.of_spawned hspawned
    rcases hholds.poll hpoll with ⟨-, hrest⟩ | ⟨summary, hready⟩
    · refine Or.inl ⟨⟨fun _ => rfl, nofun⟩, ?_⟩
      unfold Unrecorded
      dsimp only
      rw [hstream]
      exact ⟨_, rfl, hrest⟩
    · cases hready
  | others sessions => exact Or.inl ⟨⟨fun hothers => absurd rfl hothers, nofun⟩, hw⟩

/-- **A step behind** that changes nothing more: no poll returns. -/
theorem step_finished (hw : Finished events w) (h : Step runtime w l w') :
    Quiet w l w' ∧ Finished events w' := by
  cases h with
  | poll hstream hends => exact absurd hends ((hw.closed _ hstream).spins _ _)
  | @drop self hstream =>
    have hnone : self.drop runtime = none := by
      unfold AgentEventStream.drop
      rw [(hw.closed self hstream).finalized, if_pos rfl]
    exact ⟨fun _ => rfl, nofun, hnone, hw.received⟩
  | executor_ready hspawned _ | executor_pending hspawned _ =>
    rw [hw.spawned] at hspawned
    cases hspawned
  | others sessions => exact ⟨fun hothers => absurd rfl hothers, hw.closed, hw.spawned, hw.received⟩

theorem unrecorded_opened (inner : ι) (session_id : Text) (sessions : Sessions V) :
    Unrecorded session_id (World.opened inner session_id sessions : World ι ρ V) :=
  ⟨AgentEventStream.live_new inner session_id, rfl⟩

/-- A run until the session is finalized is quiet, and one behind it has recorded once. -/
theorem recorded_once (h : Run (Step runtime) w ls w') (hw : Unrecorded session_id w) :
    Unrecorded session_id w' ∧ Run (Guarded (Step runtime) Quiet) w ls w'
      ∨ ∃ events, Finished events w' ∧ Run.Once (Step runtime) Quiet (Records session_id events) w ls w' := by
  refine h.once_of_phases (fun s l t hs hst => ?_) (fun events s l t hs hst => step_finished hs hst) hw
  exact (step_unrecorded hs hst).imp_left fun hquiet => ⟨hquiet.1.1, hquiet.2⟩

theorem stream_eq_none_of_step (hw : w.stream = none) (h : Step runtime w l w') : w'.stream = none := by
  cases h with
  | poll hstream _ =>
    rw [hw] at hstream
    cases hstream
  | drop _ => rfl
  | executor_ready _ _ | executor_pending _ _ | others _ => exact hw

theorem closed_iff {self : AgentEventStream ι ρ V} (h : Run (Step runtime) w ls w')
    (hw : Unrecorded session_id w) (hstream : w'.stream = some self) :
    self.Closed ↔ .poll (.Ready none) ∈ ls := by
  induction h with
  | nil w =>
    refine iff_of_false (fun hclosed => ?_) List.not_mem_nil
    have hfinalized := hclosed.finalized
    rw [(hw.of_stream hstream).1.unfinished] at hfinalized
    cases hfinalized
  | @cons w u w' l ls hstep hrest ih =>
    rcases step_unrecorded hw hstep with ⟨⟨-, hlabel⟩, hu⟩ | ⟨events, hrecords, hu⟩
    · rw [ih hu hstream, List.mem_cons, or_iff_right hlabel.symm]
    · have hend : Finished events w' := hrest.invariant (fun _ _ _ hI hst => (step_finished hI hst).2) hu
      refine iff_of_true (hend.closed self hstream) ?_
      rcases hrecords.label with rfl | ⟨-, hdropped⟩
      · exact List.mem_cons_self
      · have hnone := hrest.invariant (fun _ _ _ hI hst => stream_eq_none_of_step hI hst) hdropped
        rw [hstream] at hnone
        cases hnone

/-- **A poll returns** exactly if no poll has returned `None`, whatever the inner stream and
the summary answer, and wherever a run of the stream has come to. -/
theorem poll_returns_iff (runtime : KernelRuntime ι ρ V ε) (inner : ι) (session_id : Text)
    (sessions : Sessions V) (ls : List (Label V ε)) (w : World ι ρ V) (self : AgentEventStream ι ρ V)
    (hrun : Run (Step runtime) (.opened inner session_id sessions) ls w) (hstream : w.stream = some self) :
    (∃ result, LoopEnds (AgentEventStream.poll_body runtime) (self, w.sessions) result)
      ↔ .poll (.Ready none) ∉ ls := by
  have hclosed := closed_iff hrun (unrecorded_opened inner session_id sessions) hstream
  constructor
  · rintro ⟨result, hends⟩ hmem
    exact (hclosed.2 hmem).spins _ _ hends
  · intro hmem
    rcases recorded_once hrun (unrecorded_opened inner session_id sessions) with ⟨hw, -⟩ | ⟨events, hw, -⟩
    · exact (hw.of_stream hstream).1.poll_next _
    · exact absurd (hclosed.1 (hw.closed self hstream)) hmem

/-- The first poll returns. -/
theorem first_poll_returns :
    ∃ result, LoopEnds (AgentEventStream.poll_body replay) (.new [.Ready none] "a".toList, ∅) result :=
  (poll_returns_iff replay [.Ready none] "a".toList ∅ [] _ _ (.nil _) rfl).2 List.not_mem_nil

/-- The poll behind the one that returns `None` does not return. -/
theorem poll_spins : ¬∀ (inner : List (Poll (Option (Except Text (KernelEvent Unit))))) (session_id : Text)
    (sessions : Sessions Unit) (ls : List (Label Unit Text)) (w : World _ Unit Unit)
    (self : AgentEventStream _ Unit Unit),
    Run (Step replay) (.opened inner session_id sessions) ls w → w.stream = some self →
    ∃ result, LoopEnds (AgentEventStream.poll_body replay) (self, w.sessions) result := by
  intro h
  have hclosed : AgentEventStream.Closed (⟨none, "a".toList, [], none, true⟩ : AgentEventStream
      (List (Poll (Option (Except Text (KernelEvent Unit))))) Unit Unit) := ⟨rfl, rfl, rfl⟩
  obtain ⟨result, hends⟩ := h [.Ready none] "a".toList ∅ [.poll (.Ready none)]
    ⟨some ⟨none, "a".toList, [], none, true⟩, [], none, ∅⟩ _ (.single (.poll rfl (.of_loop 2 rfl))) rfl
  exact hclosed.spins _ _ hends

end Runs

end AgentSpace.AgentHost
