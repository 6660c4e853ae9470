/-
The terminal controller as a whole.

A call alone, from a state with a pane whose process has exited, ends as it should. Together with
the reports of all calls (`outline_program`) this makes `controller_correct`, for every run of
careful steps.
-/
import AgentSpace.Terminal.AttachKinds

set_option autoImplicit false

namespace AgentSpace.Terminal

open Lib

/-! ## A call alone -/

section Alone

variable {session : SessionName} {i : ℕ} {w w' : World} {choices : List Choice}

/-- A part of a program is followed by the rest. -/
theorem solo_then {α β : Type} {p : Prog Call Call.Answer α} (f : α → Prog Call Call.Answer β) {a : α}
    (h : solo (exec session) i choices p w = some (.ret a, w')) (rest : List Choice) :
    solo (exec session) i (choices ++ rest) (p >>= f) w = solo (exec session) i rest (f a) w' :=
  solo_append (solo_bind f h)

/-- A part of a handler that succeeds is followed by the rest. -/
theorem solo_handler_bind {α β : Type} {p : Handler α} {f : α → Handler β} {a : α}
    (h : solo (exec session) i choices p.run w = some (.ret (.ok a), w')) (rest : List Choice) :
    solo (exec session) i (choices ++ rest) (p >>= f).run w = solo (exec session) i rest (f a).run w' :=
  solo_then (fun answer : Except TerminalError α => ExceptT.bindCont f answer) h rest

theorem solo_access {c : Call} {choice : Choice} {r : c.Answer}
    (h : exec session i c choice w = some (r, w')) :
    solo (exec session) i [choice] (access c).run w = some (.ret (.ok r), w') := by
  show ((exec session i c choice w).bind fun answer => _) = _
  rw [h]
  rfl

/-- What a status shows of a pane. -/
def shown (pane : Pane) (clients : List TerminalClient) : TerminalStatus where
  state := if pane.ended = none then .running else .exited
  pane_id := some pane.pane_id
  pane_pid := some pane.pid
  exit_status := match pane.ended with
    | some (.status code) => some code
    | _ => none
  attach_kind := none
  clients := clients

variable {pane : Pane}

variable (session i) in
/-- A session is observed as it is, unless a signal has ended its process. -/
theorem solo_observe (hsession : w.server.session = some pane)
    (hended : pane.ended ≠ some .signal) (a b c : Choice) : ∃ clients,
    solo (exec session) i [a, b, c] observe.run w = some (.ret (.ok (shown pane clients)), w) := by
  obtain ⟨clients, hclients⟩ := parse_clients_lines session pane w.server.clients
  refine ⟨clients, ?_⟩
  have hthere : exec session i .has_session a w = some (true, w) := by
    show some (w.server.session.isSome, w) = _
    rw [hsession]
    rfl
  have hpanes : exec session i .list_panes b w = some (some [pane_line pane], w) := by
    show some (w.server.session.map _, w) = _
    rw [hsession]
    rfl
  have hlisted : exec session i .list_clients c w
      = some (some (w.server.clients.map (client_line session pane)), w) := by
    show some (w.server.session.map _, w) = _
    rw [hsession]
    rfl
  have hline : [pane_line pane].filter (fun line => line ≠ []) = [pane_line pane] := by
    simp [pane_line_ne_nil]
  have hview : ∃ view, parse_pane (pane_line pane) = .ok view ∧ shown pane clients
      = ⟨if view.dead then .exited else .running, some view.pane_id, some view.pane_pid,
        view.dead_status, none, clients⟩ := by
    cases hpane : pane.ended with
    | none =>
      refine ⟨_, parse_pane_running hpane, ?_⟩
      unfold shown
      rw [hpane]
      rfl
    | some ending =>
      cases ending with
      | status code =>
        refine ⟨_, parse_pane_status hpane, ?_⟩
        unfold shown
        rw [hpane]
        rfl
      | signal => exact absurd hpane hended
  obtain ⟨view, hview, hshown⟩ := hview
  refine (solo_handler_bind (solo_access hthere) [b, c]).trans ?_
  refine (solo_handler_bind (solo_access hpanes) [c]).trans ?_
  simp only [hline, hview]
  refine (solo_handler_bind (solo_access hlisted) []).trans ?_
  simp only [hclients, hshown]
  rfl

theorem solo_observe_missing (hsession : w.server.session = none) (a : Choice) :
    solo (exec session) i [a] observe.run w = some (.ret (.ok missing_status), w) := by
  have hthere : exec session i .has_session a w = some (false, w) := by
    show some (w.server.session.isSome, w) = _
    rw [hsession]
    rfl
  exact (solo_handler_bind (solo_access hthere) []).trans rfl

/-- A pane whose process has exited. -/
def Dead (pane : Pane) (w : World) : Prop := w.server.session = some pane ∧ pane.ended ≠ none

theorem shown_exited (h : pane.ended ≠ none) (clients : List TerminalClient) :
    (shown pane clients).state = .exited := if_neg h

theorem shown_running (h : pane.ended = none) (clients : List TerminalClient) :
    (shown pane clients).state = .running := if_pos h

/-- A call that is made with nothing else going on ends, after some number of steps, with a
status. -/
def Ends (session : SessionName) (i : ℕ) (request : Request) (ok : Choice → Prop) (w : World)
    (Q : TerminalStatus → World → Prop) : Prop :=
  ∃ n, ∀ choices : List Choice, choices.length = n → (∀ choice ∈ choices, ok choice) →
    ∃ status w', solo (exec session) i choices request.program w = some (.ret (.ok status), w')
      ∧ Q status w'

theorem status_exited (hdead : Dead pane w) (hended : pane.ended ≠ some .signal) :
    Ends session i .status (fun _ => True) w fun status _ => status.state = .exited := by
  refine ⟨3, fun choices hlength _ => ?_⟩
  obtain ⟨a, b, c, rfl⟩ := List.length_eq_three.1 hlength
  obtain ⟨clients, hobserve⟩ := solo_observe session i hdead.1 hended a b c
  exact ⟨_, w, hobserve, shown_exited hdead.2 clients⟩

theorem stop_missing (hdead : Dead pane w) (hended : pane.ended ≠ some .signal) :
    Ends session i .stop (fun _ => True) w fun status w' =>
      status.state = .missing ∧ w'.server.session = none := by
  refine ⟨6, fun choices hlength _ => ?_⟩
  match choices, hlength with
  | [a, b, c, d, e, f], _ =>
    obtain ⟨clients, hobserve⟩ := solo_observe session i hdead.1 hended a b c
    let killed : World := { w with server := { w.server with session := none, clients := [] } }
    have hkill : exec session i .kill_session d w = some (true, killed) := by
      unfold exec
      rw [hdead.1]
      rfl
    have hmissing : solo (exec session) i [e] observe.run killed
        = some (.ret (.ok missing_status), killed) := solo_observe_missing rfl e
    refine ⟨missing_status, { killed with resume_on_create := true }, ?_, rfl, rfl⟩
    have hpresent : (shown pane clients).state ≠ .missing := by
      rw [shown_exited hdead.2]
      exact fun h => by cases h
    refine (solo_handler_bind hobserve [d, e, f]).trans ?_
    rw [if_neg hpresent]
    refine (solo_handler_bind (solo_access hkill) [e, f]).trans ?_
    exact (solo_handler_bind hmissing [f]).trans rfl

/-- `resume` behind `join_resume`. -/
def after_join : Option ℕ → Prog Call Call.Answer Outcome
  | some task => Prog.lift (Call.await_resume task)
  | none => do
    let outcome ← resume_once.run
    Prog.lift (Call.finish_resume outcome)
    pure outcome

/-- `resume` leaves a process that runs, if it can be launched and no other resumption is in
progress. -/
theorem resume_running (hdead : Dead pane w) (hended : pane.ended ≠ some .signal)
    (htask : w.resume_task = none) :
    Ends session i .resume (fun choice => choice.unprepared = none) w fun status w' =>
      status.state = .running ∧ ∃ running, w'.server.session = some running ∧ running.ended = none := by
  refine ⟨11, fun choices hlength hprepared => ?_⟩
  match choices, hlength with
  | [a, b, c, d, e, f, g, h, k, l, m], _ =>
    let joined : World := { w with resume_task := some i }
    have hjoin : exec session i .join_resume a w = some (none, joined) := by
      unfold exec
      rw [htask]
    obtain ⟨clients, hobserve⟩ := solo_observe (w := joined) session i
      hdead.1 hended b c d
    have hlaunch : solo (exec session) i [e] (ExceptT.mk (Prog.lift Call.prepare_launch) : Handler Unit).run
        joined = some (.ret (.ok ()), joined) := by
      have hok : e.unprepared = none := hprepared e (by simp)
      show ((exec session i .prepare_launch e joined).bind fun answer => _) = _
      unfold exec
      simp only [hok]
      rfl
    let respawned : World := { joined with server := joined.server.start pane.number f.pid }
    have hrespawn : exec session i (.respawn_pane pane.pane_id) f joined = some (true, respawned) := by
      have hsession : joined.server.session = some pane := hdead.1
      unfold exec
      simp only [hsession]
      rw [if_pos ⟨trivial, Option.isSome_iff_ne_none.2 hdead.2⟩]
    have hrunning : respawned.server.session
        = some ⟨pane.number, f.pid, w.server.starts, none⟩ := rfl
    obtain ⟨clients', hagain⟩ := solo_observe (w := respawned) session i
      hrunning (fun h => by cases h) g h k
    let outcome : TerminalStatus :=
      { shown ⟨pane.number, f.pid, w.server.starts, none⟩ clients' with attach_kind := some .resumed }
    have honce : solo (exec session) i [b, c, d, e, f, g, h, k, l] resume_once.run joined
        = some (.ret (.ok outcome), { respawned with resume_on_create := false }) := by
      refine (solo_handler_bind hobserve [e, f, g, h, k, l]).trans ?_
      have hstate := shown_exited hdead.2 clients
      rw [hstate]
      refine (solo_handler_bind hlaunch [f, g, h, k, l]).trans ?_
      refine (solo_handler_bind (solo_access hrespawn) [g, h, k, l]).trans ?_
      exact (solo_handler_bind hagain [l]).trans rfl
    have hstart : solo (exec session) i [a] (Prog.lift Call.join_resume) w
        = some (.ret none, joined) := by
      show ((exec session i .join_resume a w).bind fun answer => _) = _
      rw [hjoin]
      rfl
    refine ⟨outcome, { respawned with
      resume_task := none
      results := Function.update w.results i (some (.ok outcome))
      resume_on_create := false }, ?_, ?_, _, rfl, rfl⟩
    swap
    · exact shown_running (rfl : (⟨pane.number, f.pid, w.server.starts, none⟩ : Pane).ended = none) clients'
    let finishing (outcome : Outcome) : Prog Call Call.Answer Outcome := do
      Prog.lift (Call.finish_resume outcome)
      pure outcome
    refine (solo_then after_join hstart [b, c, d, e, f, g, h, k, l, m]).trans ?_
    exact (solo_then finishing honce [m]).trans rfl

end Alone

/-! ## Runs -/

section Runs

variable (session : SessionName) (resume_on_create : Bool) (requests : ℕ → Request)

/-- The calls of a controller, with their history. -/
abbrev Controller := Threads ℕ Call Outcome Recorded Call.Answer

/-- A controller at the start, with no history. -/
def start_recorded : Controller where
  state := ((start resume_on_create requests).state, ⟨fun _ => none, none⟩)
  rest := (start resume_on_create requests).rest

/-- The condition on a step of a run. -/
def CarefulStep (s : Controller) (move : Move ℕ Choice) (_ : Controller) : Prop :=
  ∀ c k, s.rest move.thread = .call c k → Careful move.thread c move.choice s.state

variable {session resume_on_create requests}

theorem kept_start : Kept resume_on_create (start_recorded resume_on_create requests).state := by
  refine ⟨?_, fun _ => ⟨rfl, rfl⟩, fun _ h => absurd rfl h, ?_, ?_⟩
  · intro pane hpane
    cases hpane
  · intro i hi
    cases hi
  · intro i status hstatus
    cases hstatus

/-- **The controller.** In every run whose steps are careful, no call that may start a process ends
or replaces a live one; a pane whose process has exited is reported so, is resumed if no other
resumption is in progress, and is stopped; and what calls report of their starts is true. -/
theorem controller_correct {moves : List (Move ℕ Choice)} {t : Controller}
    (hrun : Run (Guarded (Advance (with_history (exec session) record)) CarefulStep)
      (start_recorded resume_on_create requests) moves t) :
    Run (Guarded (Guarded (Advance (with_history (exec session) record)) CarefulStep)
        fun s move t => (requests move.thread).starts → Spares s.state t.state)
      (start_recorded resume_on_create requests) moves t
    ∧ (∀ pane, Dead pane t.state.1 → ∀ i,
      Ends session i .status (fun _ => True) t.state.1 (fun status _ => status.state = .exited)
      ∧ (t.state.1.resume_task = none →
        Ends session i .resume (fun choice => choice.unprepared = none) t.state.1 fun status w =>
          status.state = .running
            ∧ ∃ running, w.server.session = some running ∧ running.ended = none)
      ∧ Ends session i .stop (fun _ => True) t.state.1 fun status w =>
          status.state = .missing ∧ w.server.session = none)
    ∧ ∀ i status, t.rest i = .ret (.ok status) →
      Truthful resume_on_create (t.state.2.started_by i) status := by
  let starter (i : ℕ) : Prop := (requests i).starts
  have houtlined : (rules resume_on_create starter session).Outlined (Reports resume_on_create)
      (start_recorded resume_on_create requests) := by
    refine ⟨kept_start, fun i => ⟨Fresh i, stable_fresh, ⟨rfl, fun section_ h => by cases h⟩, ?_⟩⟩
    exact outline_program (requests i) id
  obtain ⟨hend, hguaranteed⟩ := houtlined.run hrun
  refine ⟨?_, ?_, ?_⟩
  · exact hguaranteed.mono fun s move t h => ⟨h.1, fun hstarts => h.2.spares hstarts⟩
  · intro pane hdead i
    have hended := hend.invariant.unsignalled pane hdead.1
    exact ⟨status_exited hdead hended, resume_running hdead hended, stop_missing hdead hended⟩
  · intro i status hreturned
    exact hend.finished hreturned status rfl

end Runs

/-! ## Two runs -/

def sample_session : SessionName := ⟨"agentspace-main".toList, by decide⟩

/-- The terminal is started, its process ends, and it is resumed. -/
def ended_and_resumed : ℕ → Request
  | 0 => .ensure
  | 1 => .outside
  | _ => .resume

def exits : Choice := ⟨none, 0, 100, .exit (.status 0)⟩

def is_killed : Choice := ⟨none, 0, 100, .exit .signal⟩

/-- The check of a step at which no call is in a section, and no process ends by a signal. -/
def careful_check (s : Controller) (move : Move ℕ Choice) : Bool :=
  match s.rest move.thread with
  | .call .new_session _ => s.state.2.busy.isNone
  | .call (.respawn_pane _) _ => s.state.2.busy.isNone
  | .call .kill_session _ => s.state.2.busy.isNone
  | .call .happen _ => match move.choice.happening with
      | .exit .signal => false
      | _ => true
  | _ => true

theorem careful_of_check {A : Controller → Move ℕ Choice → Controller → Prop} (s : Controller)
    (move : Move ℕ Choice) (t : Controller) (h : careful_check s move = true) (_ : A s move t) :
    CarefulStep s move t := by
  intro c k hcall
  unfold careful_check at h
  rw [hcall] at h
  cases c with
  | new_session | kill_session => exact fun _ => Option.isNone_iff_eq_none.1 h
  | respawn_pane pane_id => exact Option.isNone_iff_eq_none.1 h
  | happen =>
    intro pane _ _ hsignal
    simp only [hsignal] at h
    cases h
  | _ => trivial

/-- A terminal that is resumed is running, and is reported as resumed. -/
theorem ended_terminal_resumed : ∃ t,
    Run (Guarded (Advance (with_history (exec sample_session) record)) CarefulStep)
        (start_recorded false ended_and_resumed)
        (List.replicate 8 ⟨0, exits⟩ ++ [⟨1, exits⟩] ++ List.replicate 11 ⟨2, exits⟩) t
      ∧ ∀ i status, t.rest i = .ret (.ok status) → Truthful false (t.state.2.started_by i) status := by
  obtain ⟨t, hrun, -⟩ := exists_run_of_play (with_history (exec sample_session) record) careful_check
    careful_of_check (start_recorded false ended_and_resumed)
    (List.replicate 8 ⟨0, exits⟩ ++ [⟨1, exits⟩] ++ List.replicate 11 ⟨2, exits⟩)
    (fun _ => true) (by decide)
  exact ⟨t, hrun, (controller_correct hrun).2.2⟩

/-- A pane whose process is ended by a signal is dead, and `status` raises. -/
theorem signalled_pane_is_lost : ∃ moves t pane,
    Run (Advance (exec sample_session)) (start false ended_and_resumed) moves t
      ∧ Dead pane t.state
      ∧ ∀ i a b, solo (exec sample_session) i [a, b] Request.status.program t.state
        = some (.ret (.error (.command "invalid tmux pane status")), t.state) := by
  obtain ⟨t, hrun, hobserved⟩ := exists_run_of_play (exec sample_session) (fun _ _ => true)
    (P := fun _ _ _ => True) (fun _ _ _ _ _ => trivial) (start false ended_and_resumed)
    (List.replicate 8 ⟨0, exits⟩ ++ [⟨1, is_killed⟩])
    (fun t => t.state.server.session = some ⟨0, 100, 0, some .signal⟩) (by decide)
  have hsession : t.state.server.session = some ⟨0, 100, 0, some .signal⟩ := by
    simpa using hobserved
  refine ⟨_, t, _, Run.of_guarded hrun, ⟨hsession, fun h => by cases h⟩, fun i a b => ?_⟩
  have hthere : exec sample_session i .has_session a t.state = some (true, t.state) := by
    show some (t.state.server.session.isSome, t.state) = _
    rw [hsession]
    rfl
  have hpanes : exec sample_session i .list_panes b t.state
      = some (some [pane_line ⟨0, 100, 0, some .signal⟩], t.state) := by
    show some (t.state.server.session.map _, t.state) = _
    rw [hsession]
    rfl
  have hline : [pane_line ⟨0, 100, 0, some .signal⟩].filter (fun line => line ≠ [])
      = [pane_line ⟨0, 100, 0, some .signal⟩] := by
    simp [pane_line_ne_nil]
  refine (solo_handler_bind (solo_access hthere) [b]).trans ?_
  refine (solo_handler_bind (solo_access hpanes) []).trans ?_
  simp only [hline, parse_pane_signal]
  rfl

end AgentSpace.Terminal
