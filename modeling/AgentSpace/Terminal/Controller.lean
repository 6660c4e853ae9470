/-
The terminal controller: `TerminalController` over a tmux server.

The server has at most one session, with one pane. Each command of tmux is one atomic step, and
so is each access to the fields of the controller; any number of calls run at once. What
`list-panes` prints is a line of text, which `_parse_pane` reads back: it cannot read the line of
a process that was ended by a signal.
-/
import AgentSpace.Lib.Threads
import AgentSpace.Text

set_option autoImplicit false

namespace AgentSpace.Terminal

open Lib Text

/-! ## Results -/

/-- `TerminalState`. -/
inductive TerminalState where
  | missing
  | running
  | exited
  deriving DecidableEq

/-- `AttachKind`. -/
inductive AttachKind where
  | started
  | attached
  | resumed
  deriving DecidableEq

/-- How a call of the controller fails. -/
inductive TerminalError where
  | command (operation : String)
  | state (observed : TerminalState)
  | client (id : Text)
  /-- An exception of `_prepare_launch`. -/
  | launch (message : Text)
  deriving DecidableEq

/-- `TerminalClient`. -/
structure TerminalClient where
  id : Text
  tty : Text
  pid : ℕ
  width : ℕ
  height : ℕ
  session_name : Text
  pane_id : Text
  deriving DecidableEq

/-- `TerminalStatus`, without what is the same for every status of a controller. -/
structure TerminalStatus where
  state : TerminalState
  pane_id : Option Text
  pane_pid : Option ℕ
  exit_status : Option ℕ
  attach_kind : Option AttachKind
  clients : List TerminalClient
  deriving DecidableEq

/-- `_missing_status`. -/
def missing_status : TerminalStatus := ⟨.missing, none, none, none, none, []⟩

/-! ## Names -/

/-- `_PANE_ID.fullmatch`. -/
def pane_id_match : Text → Bool
  | '%' :: digits => digits ≠ [] && digits.all Char.isDigit
  | _ => false

/-- `_CLIENT_ID.fullmatch`, and no `-` first. -/
def client_id_match (id : Text) : Bool :=
  id.head? ≠ some '-' && 1 ≤ id.length && id.length ≤ 256
    && id.all fun c => c.isAlphanum || "_./:@+-".toList.contains c

/-- `_SESSION_NAME.fullmatch`. -/
def session_name_match (name : Text) : Bool :=
  name.head?.any Char.isAlphanum && name.length ≤ 64
    && name.all fun c => c.isAlphanum || c = '_' || c = '-'

/-- The name of the session, which the controller has validated. -/
structure SessionName where
  name : Text
  valid : session_name_match name = true

/-! ## The server -/

/-- How a process has ended. -/
inductive Ending where
  | status (code : ℕ)
  | signal
  deriving DecidableEq

/-- A pane and its process, by its number among the processes of the server. -/
structure Pane where
  number : ℕ
  pid : ℕ
  process : ℕ
  ended : Option Ending
  deriving DecidableEq

/-- `#{pane_id}`. -/
def Pane.pane_id (pane : Pane) : Text := '%' :: decimal pane.number

/-- A client that is attached, under the name and the terminal that tmux gives it. -/
structure Client where
  id : Text
  tty : Text
  pid : ℕ
  width : ℕ
  height : ℕ
  valid : client_id_match id = true
  no_tab : '\t' ∉ tty

/-- The server: the session that it has, its clients, and how many processes it has started. -/
structure Server where
  session : Option Pane
  clients : List Client
  starts : ℕ

/-- `#{pane_dead}\t#{pane_dead_status}\t#{pane_pid}\t#{pane_id}`. -/
def pane_line (pane : Pane) : Text :=
  join ['\t'] [if pane.ended.isSome then ['1'] else ['0'],
    match pane.ended with
    | some (.status code) => decimal code
    | _ => [],
    decimal pane.pid, pane.pane_id]

/-- `_TMUX_CLIENT_FORMAT`. -/
def client_line (session : SessionName) (pane : Pane) (client : Client) : Text :=
  join ['\t'] [client.id, client.tty, decimal client.pid, decimal client.width, decimal client.height,
    session.name, pane.pane_id]

/-! ## Parsing -/

/-- `int(text)`, of digits or nothing. -/
def int_of (text : Text) : Option ℕ :=
  if text = [] ∨ ¬text.all Char.isDigit then none else some (Nat.ofDigitChars 10 text 0)

/-- What a pane shows. -/
structure PaneView where
  dead : Bool
  dead_status : Option ℕ
  pane_pid : ℕ
  pane_id : Text
  deriving DecidableEq

/-- `_parse_pane`. -/
def parse_pane (line : Text) : Except TerminalError PaneView :=
  let invalid := Except.error (.command "invalid tmux pane status")
  match split '\t' line with
  | [dead_raw, status_raw, pid_raw, pane_id] =>
    if dead_raw ≠ ['0'] ∧ dead_raw ≠ ['1'] ∨ ¬pane_id_match pane_id then invalid
    else match int_of pid_raw, decide (dead_raw = ['1']), int_of status_raw with
      | none, _, _ => invalid
      | some pane_pid, false, _ => .ok ⟨false, none, pane_pid, pane_id⟩
      | some _, true, none => invalid
      | some pane_pid, true, some dead_status => .ok ⟨true, some dead_status, pane_pid, pane_id⟩
  | _ => invalid

/-- `_parse_client`. -/
def parse_client (line : Text) : Except TerminalError TerminalClient :=
  match split '\t' line with
  | [client_id, tty, pid_raw, width_raw, height_raw, session_name, pane_id] =>
    if ¬client_id_match client_id then .error (.client client_id)
    else if ¬pane_id_match pane_id then .error (.command "invalid tmux client pane identifier")
    else match int_of pid_raw, int_of width_raw, int_of height_raw with
      | some pid, some width, some height =>
        .ok ⟨client_id, tty, pid, width, height, session_name, pane_id⟩
      | _, _, _ => .error (.command "invalid tmux client status")
  | _ => .error (.command "invalid tmux client status")

/-! ## The controller -/

/-- What a call of the controller comes to. -/
abbrev Outcome := Except TerminalError TerminalStatus

/-- The server, and the fields of the controller: who holds `_ensure_lock`, the call that runs
`_resume_task`, what the resume tasks have come to, and `_resume_on_create`. -/
structure World where
  server : Server
  ensure_lock : Option ℕ
  resume_task : Option ℕ
  results : ℕ → Option Outcome
  resume_on_create : Bool

/-- A step of a call. -/
inductive Call where
  | acquire
  | release
  | prepare_launch
  | new_session
  | has_session
  | list_panes
  | list_clients
  | kill_session
  | respawn_pane (pane_id : Text)
  | detach_client (id : Text)
  /-- The kind of a start, and `self._resume_on_create = False`. -/
  | take_resume_on_create
  /-- `self._resume_on_create = value`. -/
  | set_resume_on_create (value : Bool)
  /-- The task that is not done, if there is one, or else a new one. -/
  | join_resume
  /-- The task is done. -/
  | finish_resume (outcome : Outcome)
  /-- `await asyncio.shield(task)`. -/
  | await_resume (task : ℕ)
  /-- Something happens outside of the controller. -/
  | happen

/-- What a step answers: of a command of tmux whether it succeeds, or what it prints. -/
abbrev Call.Answer : Call → Type
  | prepare_launch => Except TerminalError Unit
  | new_session | has_session | kill_session | respawn_pane _ | detach_client _ => Bool
  | list_panes => Option (List Text)
  | list_clients => Option (List Text)
  | take_resume_on_create => AttachKind
  | join_resume => Option ℕ
  | await_resume _ => Outcome
  | _ => Unit

/-- What happens outside of the controller. -/
inductive Happening where
  | exit (ending : Ending)
  | attach (client : Client)
  | detach (id : Text)

/-- What the steps do not decide. -/
structure Choice where
  /-- `_prepare_launch` raises. -/
  unprepared : Option Text
  /-- The number of a new pane, and the process id of a new process. -/
  number : ℕ
  pid : ℕ
  happening : Happening

/-- The process that is started. -/
def Server.start (server : Server) (number pid : ℕ) : Server :=
  { server with session := some ⟨number, pid, server.starts, none⟩, starts := server.starts + 1 }

/-- What happens to the server. -/
def Server.happen (server : Server) : Happening → Server
  | .exit ending => { server with session := server.session.map fun pane =>
    if pane.ended = none then { pane with ended := some ending } else pane }
  | .attach client =>
    if server.session.isSome then { server with clients := server.clients ++ [client] } else server
  | .detach id => { server with clients := server.clients.filter fun client => client.id ≠ id }

/-- A step. The lock cannot be taken while it is held, and a task that is not done is waited
for. -/
def exec (session : SessionName) : Exec ℕ Call Choice World Call.Answer := fun i c choice s =>
  match c with
  | .acquire => if s.ensure_lock = none then some ((), { s with ensure_lock := some i }) else none
  | .release => some ((), { s with ensure_lock := none })
  | .prepare_launch =>
    match choice.unprepared with
    | some message => some (.error (.launch message), s)
    | none => some (.ok (), s)
  | .new_session =>
    if s.server.session.isSome then some (false, s)
    else some (true, { s with server := s.server.start choice.number choice.pid })
  | .has_session => some (s.server.session.isSome, s)
  | .list_panes => some (s.server.session.map fun pane => [pane_line pane], s)
  | .list_clients =>
    some (s.server.session.map fun pane => s.server.clients.map (client_line session pane), s)
  | .kill_session =>
    if s.server.session.isSome then
      some (true, { s with server := { s.server with session := none, clients := [] } })
    else some (false, s)
  | .respawn_pane pane_id =>
    match s.server.session with
    | some pane =>
      if pane.pane_id = pane_id ∧ pane.ended.isSome then
        some (true, { s with server := s.server.start pane.number choice.pid })
      else some (false, s)
    | none => some (false, s)
  | .detach_client id =>
    if s.server.clients.any fun client => client.id = id then
      some (true, { s with server := s.server.happen (.detach id) })
    else some (false, s)
  | .take_resume_on_create =>
    some (if s.resume_on_create then .resumed else .started, { s with resume_on_create := false })
  | .set_resume_on_create value => some ((), { s with resume_on_create := value })
  | .join_resume =>
    match s.resume_task with
    | some task => some (some task, s)
    | none => some (none, { s with resume_task := some i })
  | .finish_resume outcome =>
    some ((), { s with resume_task := none, results := Function.update s.results i (some outcome) })
  | .await_resume task => (s.results task).map fun outcome => (outcome, s)
  | .happen => some ((), { s with server := s.server.happen choice.happening })

/-! ## The calls -/

/-- A part of a call, which may fail. -/
abbrev Handler := ExceptT TerminalError (Prog Call Call.Answer)

/-- A step that does not fail. -/
def access (c : Call) : Handler c.Answer := ExceptT.lift (Prog.lift c)

/-- `_missing_or_error`. -/
def missing_or_error (operation : String) : Handler TerminalStatus := do
  if ← access .has_session then throw (.command operation)
  else pure missing_status

/-- The clients of what `list-clients` prints. -/
def parse_clients (lines : List Text) : Except TerminalError (List TerminalClient) :=
  (lines.filter fun line => line ≠ []).mapM parse_client

/-- `_status`, behind `list-panes`. -/
def status_of_pane (pane : PaneView) : Handler TerminalStatus := do
  match ← access .list_clients with
  | none => missing_or_error "inspect tmux clients"
  | some lines =>
    match parse_clients lines with
    | .error error => throw error
    | .ok clients =>
      pure ⟨if pane.dead then .exited else .running, some pane.pane_id, some pane.pane_pid,
        pane.dead_status, none, clients⟩

/-- `_status`, behind `has-session`. -/
def status_of_session : Handler TerminalStatus := do
  match ← access .list_panes with
  | none => missing_or_error "inspect tmux pane"
  | some lines =>
    match lines.filter fun line => line ≠ [] with
    | [line] =>
      match parse_pane line with
      | .error error => throw error
      | .ok pane => status_of_pane pane
    | _ => throw (.command "expected exactly one tmux pane")

/-- `_status`. -/
def observe : Handler TerminalStatus := do
  if ← access .has_session then status_of_session
  else pure missing_status

/-- `ensure`, behind a `new-session` that succeeds. -/
def created : Handler TerminalStatus := do
  let kind ← access .take_resume_on_create
  let status ← observe
  if status.state = .missing then
    throw (.command "tmux reported session creation success but no session exists")
  else pure { status with attach_kind := some kind }

/-- `ensure`, behind a `new-session` that fails. -/
def adopted : Handler TerminalStatus := do
  let status ← observe
  match status.state with
  | .running => pure { status with attach_kind := some .attached }
  | .exited => pure status
  | .missing => throw (.command "create tmux session")

/-- `ensure`, under the lock. -/
def ensure_session : Handler TerminalStatus := do
  ExceptT.mk (Prog.lift Call.prepare_launch)
  if ← access .new_session then created
  else adopted

/-- `ensure`. -/
def ensure : Handler TerminalStatus :=
  ExceptT.mk do
    Prog.lift Call.acquire
    let outcome ← ensure_session.run
    Prog.lift Call.release
    pure outcome

/-- `stop`, behind the first `_status`. -/
def stop_session : Handler TerminalStatus := do
  let killed ← access .kill_session
  let observed ← observe
  if !killed ∧ observed.state ≠ .missing then throw (.command "stop tmux session")
  else do
    access (.set_resume_on_create true)
    pure observed

/-- `stop`. -/
def stop : Handler TerminalStatus := do
  let status ← observe
  if status.state = .missing then pure status
  else stop_session

/-- `_resume_once`, of a pane that has exited. -/
def respawn (pane_id : Text) : Handler TerminalStatus := do
  ExceptT.mk (Prog.lift Call.prepare_launch)
  let respawned ← access (.respawn_pane pane_id)
  let observed ← observe
  if observed.state = .running then do
    access (.set_resume_on_create false)
    pure { observed with attach_kind := some .resumed }
  else if !respawned then throw (.command "respawn tmux pane")
  else throw (.command "tmux reported pane respawn success but the pane is not running")

/-- `_resume_once`. -/
def resume_once : Handler TerminalStatus := do
  let status ← observe
  match status.state, status.pane_id with
  | .exited, some pane_id => respawn pane_id
  | state, _ => throw (.state state)

/-- `resume`. -/
def resume : Handler TerminalStatus :=
  ExceptT.mk do
    match ← Prog.lift Call.join_resume with
    | some task => Prog.lift (Call.await_resume task)
    | none => do
      let outcome ← resume_once.run
      Prog.lift (Call.finish_resume outcome)
      pure outcome

/-- `_observed_client`. -/
def observed_client (status : TerminalStatus) (id : Text) : Except TerminalError TerminalClient :=
  if ¬client_id_match id then .error (.client id)
  else match status.clients.find? fun client => client.id = id with
    | some client => .ok client
    | none => .error (.client id)

/-- `detach_client`, of a client that is attached. -/
def detach (client : TerminalClient) : Handler TerminalStatus := do
  let detached ← access (.detach_client client.id)
  let observed ← observe
  if !detached ∧ observed.clients.any fun candidate => candidate.id = client.id then
    throw (.command "detach tmux client")
  else pure observed

/-- `detach_client`. -/
def detach_client (id : Text) : Handler TerminalStatus := do
  let status ← observe
  if status.state = .missing then pure status
  else match observed_client status id with
    | .error error => throw error
    | .ok client => detach client

/-- A call of the controller, or something that happens outside of it. -/
inductive Request where
  | ensure
  | status
  | stop
  | resume
  | detach_client (id : Text)
  | outside

/-- What a call does. -/
def Request.program : Request → Prog Call Call.Answer Outcome
  | ensure => Terminal.ensure.run
  | status => observe.run
  | stop => Terminal.stop.run
  | resume => Terminal.resume.run
  | detach_client id => (Terminal.detach_client id).run
  | outside => do
    Prog.lift Call.happen
    pure (.ok missing_status)

/-- A controller at the start, with its calls. -/
def start (resume_on_create : Bool) (requests : ℕ → Request) : Threads ℕ Call Outcome World Call.Answer where
  state := ⟨⟨none, [], 0⟩, none, none, fun _ => none, resume_on_create⟩
  rest i := (requests i).program

/-! ## Lines -/

theorem int_of_decimal (n : ℕ) : int_of (decimal n) = some n := by
  have hall : (decimal n).all Char.isDigit = true := List.all_eq_true.2 fun c hc => decimal_digits hc
  have hvalue : Nat.ofDigitChars 10 (decimal n) 0 = n := by
    unfold decimal
    exact Nat.ofDigitChars_ten_toDigits
  unfold int_of
  rw [if_neg (by simp [decimal_ne_nil, hall]), hvalue]

theorem tab_not_mem_decimal (n : ℕ) : '\t' ∉ decimal n := by
  intro h
  cases decimal_digits h

theorem pane_id_match_pane_id (pane : Pane) : pane_id_match pane.pane_id = true := by
  have hall : (decimal pane.number).all Char.isDigit = true :=
    List.all_eq_true.2 fun c hc => decimal_digits hc
  simp [Pane.pane_id, pane_id_match, decimal_ne_nil, hall]

theorem tab_not_mem_pane_id (pane : Pane) : '\t' ∉ pane.pane_id := by
  unfold Pane.pane_id
  rw [List.mem_cons, not_or]
  exact ⟨by decide, tab_not_mem_decimal _⟩

/-- The fields of a line. -/
theorem split_pane_line (pane : Pane) :
    split '\t' (pane_line pane) = [if pane.ended.isSome then ['1'] else ['0'],
      match pane.ended with
      | some (.status code) => decimal code
      | _ => [],
      decimal pane.pid, pane.pane_id] := by
  refine split_join (by simp) ?_
  intro field hfield
  simp only [List.mem_cons, List.not_mem_nil, or_false] at hfield
  rcases hfield with rfl | rfl | rfl | rfl
  · split <;> decide
  · split
    · exact tab_not_mem_decimal _
    · exact List.not_mem_nil
  · exact tab_not_mem_decimal _
  · exact tab_not_mem_pane_id pane

variable {pane : Pane}

theorem parse_pane_running (h : pane.ended = none) :
    parse_pane (pane_line pane) = .ok ⟨false, none, pane.pid, pane.pane_id⟩ := by
  unfold parse_pane
  rw [split_pane_line, h]
  simp [pane_id_match_pane_id, int_of_decimal]

theorem parse_pane_status {code : ℕ} (h : pane.ended = some (.status code)) :
    parse_pane (pane_line pane) = .ok ⟨true, some code, pane.pid, pane.pane_id⟩ := by
  unfold parse_pane
  rw [split_pane_line, h]
  simp [pane_id_match_pane_id, int_of_decimal]

theorem parse_pane_signal (h : pane.ended = some .signal) :
    parse_pane (pane_line pane) = .error (.command "invalid tmux pane status") := by
  have hnone : int_of [] = none := rfl
  unfold parse_pane
  rw [split_pane_line, h]
  simp [pane_id_match_pane_id, int_of_decimal, hnone]

theorem pane_line_ne_nil (pane : Pane) : pane_line pane ≠ [] := by
  intro h
  have hsplit := split_pane_line pane
  rw [h] at hsplit
  simp [split] at hsplit

theorem tab_not_mem_of_client_id_match {id : Text} (h : client_id_match id = true) : '\t' ∉ id := by
  intro htab
  unfold client_id_match at h
  rw [Bool.and_eq_true, List.all_eq_true] at h
  have hallowed := h.2 _ htab
  revert hallowed
  decide

variable (session : SessionName)

theorem tab_not_mem_session_name : '\t' ∉ session.name := by
  intro htab
  have h := session.valid
  unfold session_name_match at h
  rw [Bool.and_eq_true, List.all_eq_true] at h
  have hallowed := h.2 _ htab
  revert hallowed
  decide

/-- The clients that the server lists are read back. -/
theorem parse_client_line (pane : Pane) (client : Client) :
    parse_client (client_line session pane client) = .ok ⟨client.id, client.tty, client.pid,
      client.width, client.height, session.name, pane.pane_id⟩ := by
  have hsplit : split '\t' (client_line session pane client) = [client.id, client.tty,
      decimal client.pid, decimal client.width, decimal client.height, session.name, pane.pane_id] := by
    refine split_join (by simp) ?_
    intro field hfield
    simp only [List.mem_cons, List.not_mem_nil, or_false] at hfield
    rcases hfield with rfl | rfl | rfl | rfl | rfl | rfl | rfl
    · exact tab_not_mem_of_client_id_match client.valid
    · exact client.no_tab
    · exact tab_not_mem_decimal _
    · exact tab_not_mem_decimal _
    · exact tab_not_mem_decimal _
    · exact tab_not_mem_session_name session
    · exact tab_not_mem_pane_id pane
  unfold parse_client
  rw [hsplit]
  simp [client.valid, pane_id_match_pane_id, int_of_decimal]

theorem client_line_ne_nil (pane : Pane) (client : Client) : client_line session pane client ≠ [] := by
  intro h
  have hparse := parse_client_line session pane client
  rw [h] at hparse
  cases hparse

theorem filter_client_lines (pane : Pane) (clients : List Client) :
    (clients.map (client_line session pane)).filter (fun line => line ≠ [])
      = clients.map (client_line session pane) := by
  refine List.filter_eq_self.2 fun line hline => ?_
  obtain ⟨client, -, rfl⟩ := List.mem_map.1 hline
  simpa using client_line_ne_nil session pane client

theorem parse_clients_lines (pane : Pane) (clients : List Client) :
    ∃ views, parse_clients (clients.map (client_line session pane)) = .ok views := by
  unfold parse_clients
  rw [filter_client_lines]
  induction clients with
  | nil => exact ⟨[], rfl⟩
  | cons client clients ih =>
    obtain ⟨views, hviews⟩ := ih
    rw [List.map_cons, List.mapM_cons, parse_client_line, hviews]
    exact ⟨_, rfl⟩

end AgentSpace.Terminal
