/-
`_read_stdout`: the reader of what the ACP server writes.

It handles one line after another, and client requests inline: an exception other than
`AcpRequestError` ends it, and what a request waits for, all later lines wait for.
`read_on_iff` says of which lines it makes its way through to the end.
-/
import AgentSpace.Bytes
import AgentSpace.Acp.ClientRequests
import AgentSpace.Acp.Requests

set_option autoImplicit false

namespace AgentSpace.Acp

open Lib PyText
open Telemetry (Str str)
open Telemetry.Otel (Value Loads point get contains mapping_or_empty)

variable {F : Type}

/-! ## Lines -/

/-- `json.loads` and `json.dumps`. -/
structure Json (F : Type) where
  loads : Str → Loads F
  dumps : Dict F → Str

/-- `raw_line.decode()`; `none` is a `UnicodeDecodeError`. -/
def decode (raw_line : List UInt8) : Option Str :=
  (from_utf8 ⟨raw_line.toArray⟩).map fun text => text.map point

/-- `rstrip("\n").rstrip("\r").strip()`. -/
def strip_line (text : Str) : Str :=
  strip ((text.rdropWhile (· == newline)).rdropWhile (· == Fin.ofNat _ 13))

/-- What a line holds. -/
inductive LineContent (F : Type) where
  | not_utf8
  | blank
  | not_json
  /-- `json.loads` raises another exception than `JSONDecodeError`. -/
  | raises
  | message (obj : Dict F)
  | other

/-- What a line holds. -/
def content_of_line (json : Json F) (raw_line : List UInt8) : LineContent F :=
  match decode raw_line with
  | none => .not_utf8
  | some text =>
    if (strip_line text).isEmpty then .blank
    else match json.loads (strip_line text) with
      | .malformed => .not_json
      | .raises => .raises
      | .value (.object obj) => .message obj
      | .value _ => .other

/-! ## The reader -/

/-- What is sent back. -/
structure Response (F : Type) where
  id : Value F
  answer : Except (ℤ × Str) (Value F)

/-- What the reader keeps: the requests of the kernel, the session, the terminals, and what has
been sent back. -/
structure Session (F : Type) where
  requests : Kernel F
  session_id : Str
  terminals : List Str
  sent : List (Response F)

/-- Why the reader takes no more lines. -/
inductive Halt where
  | raised
  | blocked

/-- `_respond` and `_respond_error`. -/
def respond (env : Environment) (response : Response F) (session : Session F) : Except Halt (Session F) :=
  match env.response with
  | .written => .ok { session with sent := session.sent ++ [response] }
  | .raises => .error .raised
  | .blocks => .error .blocked

/-- The ids of the options of a permission request. -/
def option_ids (options : List (Value F)) : List Str :=
  options.filterMap fun option =>
    match get (mapping_or_empty option) "optionId" with
    | .string id => some id
    | _ => match get (mapping_or_empty option) "id" with
      | .string id => some id
      | _ => none

/-- `_select_permission_option`. -/
def select_permission_option (options : List (Value F)) (preferred : Option Str) : Option Str :=
  let ids := option_ids options
  match preferred.filter fun id => !id.isEmpty && ids.contains id with
  | some id => some id
  | none =>
    (ids.find? fun id => id == str "allow_once" || id == str "allow_always" || id == str "allow")
      <|> ids.head?

/-- `_permission_response`. -/
def permission_response (config : Config) (params : Dict F) : Value F :=
  let selected := match get params "options" with
    | .array options =>
      (select_permission_option options config.permission_option).filter fun id => !id.isEmpty
    | _ => none
  match selected with
  | some option_id => .object [(str "outcome", .object
      [(str "outcome", .string (str "selected")), (str "optionId", .string option_id)])]
  | none => .object [(str "outcome", .object [(str "outcome", .string (str "cancelled"))])]

/-- `_map_session_update`, as far as the session goes. -/
def map_session_update (params : Dict F) (session : Session F) : Session F :=
  match get params "sessionId" with
  | .string id => if id.isEmpty then session else { session with session_id := id }
  | _ => session

/-- The answer to a request. -/
def answer (config : Config) (env : Environment) (request_id : Value F) (method : Str) (params : Dict F)
    (session : Session F) : Except Halt (Session F) :=
  if method = str "session/request_permission" then
    respond env ⟨request_id, .ok (permission_response config params)⟩ session
  else
    let (result, terminals) := handle_client_request config env session.terminals method params
    let session := { session with terminals := terminals }
    match result with
    | .ok (some value) => respond env ⟨request_id, .ok value⟩ session
    | .ok none =>
      respond env ⟨request_id, .error (-32601, str "unsupported ACP method: " ++ method)⟩ session
    | .error (.request_error code message) => respond env ⟨request_id, .error (code, message)⟩ session
    | .error .raised => .error .raised
    | .error .blocked => .error .blocked

/-- `value is None`. -/
def is_none : Value F → Bool
  | .null => true
  | _ => false

/-- `_handle_message`. -/
def read_message (json : Json F) (config : Config) (env : Environment) (obj : Dict F)
    (session : Session F) : Except Halt (Session F) :=
  if is_response obj then
    .ok { session with requests := handle_response json.dumps obj session.requests }
  else match get obj "method" with
    | .string method =>
      if method = str "session/update" then
        .ok (map_session_update (mapping_or_empty (get obj "params")) session)
      else if is_none (get obj "id") then .ok session
      else answer config env (get obj "id") method (mapping_or_empty (get obj "params")) session
    | _ => .ok session

/-- One line of `_read_stdout`. -/
def read_line (json : Json F) (config : Config) (env : Environment) (raw_line : List UInt8)
    (session : Session F) : Except Halt (Session F) :=
  match content_of_line json raw_line with
  | .not_utf8 => .error .raised
  | .raises => .error .raised
  | .message obj => read_message json config env obj session
  | _ => .ok session

/-! ## What is expected -/

/-- The id of a request: of an object with a method and an id. -/
def request_id_of (obj : Dict F) : Option (Value F) :=
  match get obj "method" with
  | .string _ => if is_none (get obj "id") then none else some (get obj "id")
  | _ => none

/-- The request on a line. -/
def request_on (json : Json F) (raw_line : List UInt8) : Option (Value F) :=
  match content_of_line json raw_line with
  | .message obj => request_id_of obj
  | _ => none

/-- A request has been answered once, and nothing else has. -/
def Answered (json : Json F) (session : Session F) (input : Environment × List UInt8)
    (session' : Session F) : Prop :=
  match request_on json input.2 with
  | some id => ∃ response, response.id = id ∧ session'.sent = session.sent ++ [response]
  | none => session'.sent = session.sent

/-- The reader takes a line. -/
def Reads (json : Json F) (config : Config) (session : Session F) (input : Environment × List UInt8)
    (session' : Session F) : Prop :=
  read_line json config input.1 input.2 session = .ok session'

/-- The condition on a request: it is taken for none of the messages that are not answered, what
it asks for is harmless, and the answer can be written. -/
structure Answerable (config : Config) (env : Environment) (terminals : List Str) (obj : Dict F)
    (method : Str) : Prop where
  no_response : is_response obj = false
  no_update : method ≠ str "session/update"
  harmless : method ≠ str "session/request_permission" →
    Harmless config env terminals method (mapping_or_empty (get obj "params"))
  written : env.response = .written

/-- The condition on a line: it is UTF-8, `json.loads` raises nothing but `JSONDecodeError`, and
a request on it is answerable. -/
def CarefulLine (json : Json F) (config : Config) (session : Session F)
    (input : Environment × List UInt8) : Prop :=
  match content_of_line json input.2 with
  | .not_utf8 => False
  | .raises => False
  | .message obj => ∀ method, get obj "method" = .string method → is_none (get obj "id") = false →
      Answerable config input.1 session.terminals obj method
  | _ => True

/-! ## One line -/

/-- A response that is sent is the only one, and is sent only if it can be written. -/
theorem respond_answers_iff (env : Environment) (response : Response F) (session : Session F) :
    (∃ session', respond env response session = .ok session'
      ∧ ∃ r : Response F, r.id = response.id ∧ session'.sent = session.sent ++ [r])
      ↔ env.response = .written := by
  unfold respond
  cases env.response with
  | written => exact iff_of_true ⟨_, rfl, response, rfl, rfl⟩ rfl
  | raises | blocks => exact iff_of_false (by rintro ⟨_, h, -⟩; cases h) (by simp)

/-- **Answers.** A request is answered once exactly if it ends in an answer that can be
written. -/
theorem answer_iff (config : Config) (env : Environment) (request_id : Value F) (method : Str)
    (params : Dict F) (session : Session F) :
    (∃ session', answer config env request_id method params session = .ok session'
      ∧ ∃ r : Response F, r.id = request_id ∧ session'.sent = session.sent ++ [r])
      ↔ (method ≠ str "session/request_permission" →
          Harmless config env session.terminals method params) ∧ env.response = .written := by
  unfold answer
  by_cases hpermission : method = str "session/request_permission"
  · rw [if_pos hpermission]
    refine (respond_answers_iff env _ session).trans ?_
    exact ⟨fun h => ⟨fun hne => absurd hpermission hne, h⟩, fun h => h.2⟩
  · rw [if_neg hpermission, ← answers_iff]
    cases hresult : handle_client_request config env session.terminals method params with
    | mk result terminals =>
      have hwritten : ∀ reply : Except (ℤ × Str) (Value F),
          (∃ session', respond env ⟨request_id, reply⟩ { session with terminals := terminals }
              = .ok session'
            ∧ ∃ r : Response F, r.id = request_id ∧ session'.sent = session.sent ++ [r])
            ↔ env.response = .written := by
        intro reply
        exact respond_answers_iff env ⟨request_id, reply⟩ { session with terminals := terminals }
      cases result with
      | ok value =>
        cases value with
        | some value | none => exact (hwritten _).trans ⟨fun h => ⟨fun _ => trivial, h⟩, fun h => h.2⟩
      | error fault =>
        cases fault with
        | request_error code message =>
          exact (hwritten _).trans ⟨fun h => ⟨fun _ => trivial, h⟩, fun h => h.2⟩
        | raised | blocked =>
          refine iff_of_false (by rintro ⟨_, h, -⟩; cases h) ?_
          rintro ⟨h, -⟩
          exact h hpermission

variable {obj : Dict F} {method : Str}

theorem request_id_of_string (hmethod : get obj "method" = .string method) :
    request_id_of obj = if is_none (get obj "id") then none else some (get obj "id") := by
  unfold request_id_of
  rw [hmethod]

theorem request_id_of_other (hmethod : ∀ method, get obj "method" ≠ .string method) :
    request_id_of obj = none := by
  unfold request_id_of
  split
  · rename_i method hsame
    exact absurd hsame (hmethod method)
  · rfl

variable (json : Json F)

theorem read_message_string (config : Config) (env : Environment)
    (session : Session F) (hmethod : get obj "method" = .string method) :
    read_message json config env obj session =
      if is_response obj then
        .ok { session with requests := handle_response json.dumps obj session.requests }
      else if method = str "session/update" then
        .ok (map_session_update (mapping_or_empty (get obj "params")) session)
      else if is_none (get obj "id") then .ok session
      else answer config env (get obj "id") method (mapping_or_empty (get obj "params")) session := by
  unfold read_message
  rw [hmethod]

@[simp] theorem sent_map_session_update (params : Dict F) (session : Session F) :
    (map_session_update params session).sent = session.sent := by
  unfold map_session_update
  split
  · split <;> rfl
  · rfl

/-- A message that is no request is not answered. -/
theorem read_message_of_not_request (config : Config) (env : Environment)
    (session : Session F) (hrequest : request_id_of obj = none) :
    ∃ session', read_message json config env obj session = .ok session'
      ∧ session'.sent = session.sent := by
  by_cases hmethod : ∃ method, get obj "method" = .string method
  · obtain ⟨method, hmethod⟩ := hmethod
    rw [request_id_of_string hmethod] at hrequest
    rw [read_message_string json config env session hmethod]
    have hid : is_none (get obj "id") = true := by
      by_contra hid
      rw [if_neg hid] at hrequest
      cases hrequest
    by_cases hresponse : is_response obj = true
    · rw [if_pos hresponse]
      exact ⟨_, rfl, rfl⟩
    rw [if_neg hresponse]
    by_cases hupdate : method = str "session/update"
    · rw [if_pos hupdate]
      exact ⟨_, rfl, sent_map_session_update _ session⟩
    · rw [if_neg hupdate, if_pos hid]
      exact ⟨_, rfl, rfl⟩
  · unfold read_message
    by_cases hresponse : is_response obj = true
    · rw [if_pos hresponse]
      exact ⟨_, rfl, rfl⟩
    rw [if_neg hresponse]
    split
    · rename_i method hsame
      exact absurd ⟨method, hsame⟩ hmethod
    · exact ⟨_, rfl, rfl⟩

/-- A request is answered once exactly if it is answerable. -/
theorem read_message_of_request (config : Config) (env : Environment) (session : Session F)
    (hmethod : get obj "method" = .string method) (hid : is_none (get obj "id") = false) :
    (∃ session', read_message json config env obj session = .ok session'
      ∧ ∃ r : Response F, r.id = get obj "id" ∧ session'.sent = session.sent ++ [r])
      ↔ Answerable config env session.terminals obj method := by
  have hnot_sent : ∀ session' : Session F, session'.sent = session.sent →
      ¬ ∃ r : Response F, r.id = get obj "id" ∧ session'.sent = session.sent ++ [r] := by
    rintro session' hsame ⟨r, -, hsent⟩
    rw [hsame] at hsent
    simp at hsent
  rw [read_message_string json config env session hmethod]
  by_cases hresponse : is_response obj = true
  · -- taken for a response, it is not answered
    rw [if_pos hresponse]
    refine iff_of_false ?_ ?_
    · rintro ⟨session', hread, hanswered⟩
      obtain rfl := Except.ok.inj hread
      exact hnot_sent _ rfl hanswered
    · intro h
      have hno_response := h.no_response
      rw [hresponse] at hno_response
      cases hno_response
  rw [if_neg hresponse]
  by_cases hupdate : method = str "session/update"
  · -- taken for a notification, it is not answered
    rw [if_pos hupdate]
    refine iff_of_false ?_ ?_
    · rintro ⟨session', hread, hanswered⟩
      obtain rfl := Except.ok.inj hread
      exact hnot_sent _ (sent_map_session_update _ session) hanswered
    · intro h
      exact h.no_update hupdate
  rw [if_neg hupdate, if_neg (by simp [hid]), answer_iff]
  constructor
  · rintro ⟨hharmless, hwritten⟩
    exact ⟨by simpa using hresponse, hupdate, hharmless, hwritten⟩
  · intro h
    exact ⟨h.harmless, h.written⟩

/-- **One line** is taken, with one answer to a request on it, exactly if it meets the
condition. -/
theorem reads_iff (config : Config) (session : Session F) (input : Environment × List UInt8) :
    (∃ session', Reads json config session input session' ∧ Answered json session input session')
      ↔ CarefulLine json config session input := by
  unfold Reads Answered CarefulLine read_line request_on
  cases content_of_line json input.2 with
  | not_utf8 | raises => exact iff_of_false (by rintro ⟨_, h, -⟩; cases h) id
  | blank | not_json | other => exact iff_of_true ⟨session, rfl, rfl⟩ trivial
  | message obj =>
    simp only []
    by_cases hmethod : ∃ method, get obj "method" = .string method
    · obtain ⟨method, hmethod⟩ := hmethod
      by_cases hid : is_none (get obj "id") = true
      · have hrequest : request_id_of obj = none := by
          rw [request_id_of_string hmethod, if_pos hid]
        rw [hrequest]
        refine iff_of_true (read_message_of_not_request json config input.1 session hrequest) ?_
        intro _ _ hsome
        rw [hid] at hsome
        cases hsome
      · have hsome : is_none (get obj "id") = false := by simpa using hid
        have hrequest : request_id_of obj = some (get obj "id") := by
          rw [request_id_of_string hmethod, if_neg hid]
        rw [hrequest]
        refine (read_message_of_request json config input.1 session hmethod hsome).trans ?_
        constructor
        · intro h method' hsame _
          obtain rfl := Value.string.inj (hmethod.symm.trans hsame)
          exact h
        · intro h
          exact h method hmethod hsome
    · have hother : ∀ method, get obj "method" ≠ .string method := by
        intro method h
        exact hmethod ⟨method, h⟩
      have hrequest : request_id_of obj = none := request_id_of_other hother
      rw [hrequest]
      refine iff_of_true (read_message_of_not_request json config input.1 session hrequest) ?_
      intro method hsame _
      exact absurd hsame (hother method)

/-! ## All lines -/

/-- **The reader.** It takes all lines, and answers each request on them once and nothing else,
exactly if each line meets the condition in the state in which it is read. -/
theorem read_on_iff (json : Json F) (config : Config) (inputs : List (Environment × List UInt8))
    (session : Session F) : (∃ last, Run (Guarded (Reads json config) (Answered json)) session inputs last)
      ↔ ∀ before input after session', inputs = before ++ input :: after →
        Run (Reads json config) session before session' → CarefulLine json config session' input := by
  induction inputs generalizing session with
  | nil =>
    refine iff_of_true ⟨session, .nil session⟩ ?_
    intro before input after session' hsplit
    simp at hsplit
  | cons first rest ih =>
    constructor
    · rintro ⟨last, hrun⟩ before input after session' hsplit hbefore
      cases hrun with
      | cons hfirst hrest =>
        cases before with
        | nil =>
          obtain ⟨rfl, -⟩ := List.cons.inj hsplit
          cases hbefore
          exact (reads_iff json config _ _).1 ⟨_, hfirst⟩
        | cons head before =>
          obtain ⟨rfl, hsplit'⟩ := List.cons.inj hsplit
          cases hbefore with
          | cons hhead hbefore =>
            -- a line is read in one way only
            obtain rfl := Except.ok.inj (hfirst.1.symm.trans hhead)
            exact (ih _).1 ⟨last, hrest⟩ before input after session' hsplit' hbefore
    · intro h
      obtain ⟨next, hreads, hanswered⟩ := (reads_iff json config session first).2
        (h [] first rest session rfl (.nil session))
      obtain ⟨last, hrun⟩ := (ih next).2 fun before input after session' hsplit hbefore =>
        h (first :: before) input after session' (by rw [hsplit]; rfl) (.cons hreads hbefore)
      exact ⟨last, .cons ⟨hreads, hanswered⟩ hrun⟩

/-! ## Two sessions -/

/-- The line of a text. -/
def line_of (text : String) : List UInt8 := (into_bytes text.toList).data.toList

theorem decode_line_of (text : String) : decode (line_of text) = some (str text) := by
  have hbytes : (⟨(line_of text).toArray⟩ : Bytes) = into_bytes text.toList := by
    unfold line_of
    cases into_bytes text.toList
    simp
  unfold decode
  rw [hbytes, from_utf8_into_bytes]
  rfl

/-- `json.loads`, of the one text of a session. -/
def loads_only (text : String) (obj : Dict Unit) : Json Unit where
  loads t := if t = str text then .value (.object obj) else .malformed
  dumps _ := []

theorem content_of_line_of {text : String} {obj : Dict Unit} (hstrip : strip_line (str text) = str text)
    (hsome : (str text).isEmpty = false) :
    content_of_line (loads_only text obj) (line_of text) = .message obj := by
  unfold content_of_line
  rw [decode_line_of]
  simp only [hstrip, hsome, Bool.false_eq_true, if_false]
  unfold loads_only
  simp only [if_true]

def sample_config : Config where
  workspace_root := str "/workspace"
  env := []
  permission_option := none

/-- A world in which no process ends. -/
def sample_environment : Environment where
  resolve path := path
  read _ := .not_found
  open_for_writing _ := .os_error []
  spawn := .started
  terminal_id := str "term_1"
  terminal _ := ⟨[], false, none, .held⟩
  killed _ := .closed
  response := .written

def sample_session : Session Unit := ⟨.spawned, [], [str "term_1"], []⟩

def permission_text : String := "\x7b\"id\":1,\"method\":\"session/request_permission\"\x7d"

def permission_request : Dict Unit :=
  [(str "id", .int 1), (str "method", .string (str "session/request_permission"))]

/-- A permission request is answered. -/
theorem permission_answered : ∃ last,
    Run (Guarded (Reads (loads_only permission_text permission_request) sample_config)
        (Answered (loads_only permission_text permission_request)))
      sample_session [(sample_environment, line_of permission_text)] last := by
  refine (read_on_iff _ _ _ _).2 ?_
  intro before input after session' hsplit hbefore
  cases before with
  | nil =>
    obtain ⟨rfl, -⟩ := List.cons.inj hsplit
    cases hbefore
    unfold CarefulLine
    rw [content_of_line_of (by decide) (by decide)]
    intro method hmethod _
    obtain rfl : str "session/request_permission" = method := Value.string.inj hmethod
    exact ⟨rfl, by decide, fun h => absurd rfl h, rfl⟩
  | cons head before => simp at hsplit

def wait_text : String :=
  "\x7b\"id\":1,\"method\":\"terminal/wait_for_exit\",\"params\":\x7b\"terminalId\":\"term_1\"\x7d\x7d"

def wait_request : Dict Unit :=
  [(str "id", .int 1), (str "method", .string (str "terminal/wait_for_exit")),
    (str "params", .object [(str "terminalId", .string (str "term_1"))])]

/-- Waiting for a process that runs, the reader does not come to the next line. -/
theorem wait_stops_the_reader :
    read_line (loads_only wait_text wait_request) sample_config sample_environment (line_of wait_text)
        sample_session = .error .blocked
      ∧ ∀ later, ¬ ∃ last,
        Run (Guarded (Reads (loads_only wait_text wait_request) sample_config)
            (Answered (loads_only wait_text wait_request)))
          sample_session ((sample_environment, line_of wait_text) :: later) last := by
  have hblocked : read_line (loads_only wait_text wait_request) sample_config sample_environment
      (line_of wait_text) sample_session = .error .blocked := by
    unfold read_line
    rw [content_of_line_of (by decide) (by decide)]
    rfl
  refine ⟨hblocked, ?_⟩
  rintro later ⟨last, hrun⟩
  cases hrun with
  | cons hfirst hrest =>
    have hread := hfirst.1
    unfold Reads at hread
    rw [hblocked] at hread
    cases hread

end AgentSpace.Acp
