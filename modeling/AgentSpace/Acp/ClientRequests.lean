/-
The requests that an ACP server makes of the kernel: files of the workspace and terminals.

What the world outside answers is an `Environment`, one for each line that is read. A
request ends in a result or in an `AcpRequestError`, or it raises another exception or
waits for a process. `Harmless` says when it does neither (`answers_iff`).
-/
import AgentSpace.PyText

set_option autoImplicit false

namespace AgentSpace.Acp

open PyText
open Telemetry (Str str)
open Telemetry.Otel (Value get contains mapping_or_empty int_repr has_surrogate is_surrogate)

variable {F : Type}

/-! ## The world outside -/

/-- `path.read_text(encoding="utf-8")`. -/
inductive ReadResult where
  | content (text : Str)
  | not_found
  | not_utf8
  | os_error (message : Str)
  /-- The file is a pipe that no one writes to. -/
  | blocks

/-- `path.parent.mkdir` and the opening of the file; when it is open, what fails after the text
has been encoded. -/
inductive OpenResult where
  | opened (failure : Option Str)
  | os_error (message : Str)
  /-- The file is a pipe that no one reads. -/
  | blocks

/-- `asyncio.create_subprocess_exec`. -/
inductive SpawnResult where
  /-- Pipes cannot be made, before the arguments are looked at. -/
  | no_resources (message : Str)
  | not_found
  | os_error (message : Str)
  | started

/-- `await terminal.reader_task`: the output of a process. -/
inductive OutputState where
  | closed
  /-- Some process still holds it. -/
  | held
  /-- The reader of the output has ended with an exception. -/
  | failed

/-- A terminal, when it is looked at. -/
structure TerminalView where
  output : Str
  truncated : Bool
  returncode : Option ℤ
  output_state : OutputState

/-- `stdin.write` and `stdin.drain`. -/
inductive WriteResult where
  | written
  | raises
  | blocks

/-- What the world answers while a line is handled. -/
structure Environment where
  /-- `Path(...).resolve(strict=False)`, of what can be handed to the system. -/
  resolve : Str → Str
  read : Str → ReadResult
  open_for_writing : Str → OpenResult
  spawn : SpawnResult
  /-- `f"term_{uuid.uuid4().hex}"`. -/
  terminal_id : Str
  terminal : Str → TerminalView
  /-- The output of a terminal once its process has been killed. -/
  killed : Str → OutputState
  response : WriteResult

/-- The configuration of the kernel. -/
structure Config where
  /-- `_workspace_root`. -/
  workspace_root : Str
  /-- `_build_env()`. -/
  env : List (Str × Str)
  /-- `KERNEL_ACP_PERMISSION_OPTION`. -/
  permission_option : Option Str

/-- How a part of a request ends before its end. -/
inductive Fault where
  /-- `AcpRequestError`. -/
  | request_error (code : ℤ) (message : Str)
  /-- Another exception. -/
  | raised
  | blocked

/-- `AcpRequestError(-32602, message)`. -/
def invalid {α : Type} (message : String) : Except Fault α :=
  .error (.request_error (-32602) (str message))

/-- `AcpRequestError(-32000, message)`. -/
def failed {α : Type} (message : Str) : Except Fault α := .error (.request_error (-32000) message)

/-! ## Arguments -/

/-- `os.fsencode`, and no zero byte. -/
def fs_encodable (text : Str) : Bool :=
  text.all fun c => c.val != 0 && (!is_surrogate c || (0xDC80 ≤ c.val && c.val ≤ 0xDCFF))

/-- The names in a path. -/
def path_parts (path : Str) : List Str := (path.splitOn (Fin.ofNat _ 47)).filter fun part => !part.isEmpty

/-- `_workspace_path`, of a text. -/
def checked_path (config : Config) (env : Environment) (path : Str) : Except Fault Str :=
  if path.isEmpty then invalid "path must be a non-empty string"
  else if !(str "/").isPrefixOf path then invalid "path must be absolute"
  else if !fs_encodable path then .error .raised
  else if (path_parts config.workspace_root).isPrefixOf (path_parts (env.resolve path)) then
    .ok (env.resolve path)
  else .error (.request_error (-32602) (str "path is outside workspace: " ++ env.resolve path))

/-- `_workspace_path`. -/
def workspace_path (config : Config) (env : Environment) : Value F → Except Fault Str
  | .string path => checked_path config env path
  | _ => invalid "path must be a non-empty string"

/-- `_optional_int`. -/
def optional_int (value : Value F) (name : String) : Except Fault (Option ℤ) :=
  match value with
  | .null => .ok none
  | .int n => .ok (some n)
  | _ => invalid (name ++ " must be a number")

/-- The loop of `_string_list`. -/
def strings (name : String) : List (Value F) → Except Fault (List Str)
  | [] => .ok []
  | .string item :: items => (strings name items).map fun rest => item :: rest
  | _ :: _ => invalid (name ++ " entries must be strings")

/-- `_string_list`. -/
def string_list (value : Value F) (name : String) : Except Fault (List Str) :=
  match value with
  | .null => .ok []
  | .array items => strings name items
  | _ => invalid (name ++ " must be an array")

/-- `env[name] = value`. -/
def set_env (name value : Str) (env : List (Str × Str)) : List (Str × Str) :=
  if (env.lookup name).isSome then env.map fun entry => if entry.1 = name then (name, value) else entry
  else env ++ [(name, value)]

/-- The loop of `_terminal_env`. -/
def add_env : List (Value F) → List (Str × Str) → Except Fault (List (Str × Str))
  | [], env => .ok env
  | item :: items, env =>
    match get (mapping_or_empty item) "name", get (mapping_or_empty item) "value" with
    | .string name, .string value => add_env items (set_env name value env)
    | _, _ => invalid "env entries must contain string name and value"

/-- `_terminal_env`. -/
def terminal_env (config : Config) (value : Value F) : Except Fault (List (Str × Str)) :=
  match value with
  | .null => .ok config.env
  | .array items => add_env items config.env
  | _ => invalid "env must be an array"

/-- `_terminal_id`. -/
def terminal_id (params : Dict F) : Except Fault Str :=
  match get params "terminalId" with
  | .string id => if id.isEmpty then invalid "terminalId must be a non-empty string" else .ok id
  | _ => invalid "terminalId must be a non-empty string"

/-- `_terminal`: the id of a terminal that there is. -/
def known_terminal (terminals : List Str) (params : Dict F) : Except Fault Str :=
  (terminal_id params).bind fun id =>
    if id ∈ terminals then .ok id
    else .error (.request_error (-32602) (str "unknown terminalId: " ++ id))

/-! ## Files -/

/-- `content.splitlines(keepends=True)`. -/
def lines_with_ends : Str → List Str
  | [] => []
  | [c] => [[c]]
  | c :: d :: rest =>
    if is_line_end c && !(c.val == 13 && d.val == 10) then [c] :: lines_with_ends (d :: rest)
    else match lines_with_ends (d :: rest) with
      | [] => [[c]]
      | line :: lines => (c :: line) :: lines

/-- The lines that are asked for. -/
def select_lines (content : Str) (line limit : Option ℤ) : Str :=
  if line.isNone && limit.isNone then content
  else
    let rest := (lines_with_ends content).drop ((line.getD 1) - 1).toNat
    match limit with
    | none => rest.flatten
    | some n => (rest.take n.toNat).flatten

/-- What `_read_text_file` checks: the path, the first line and the number of lines. -/
def read_arguments (config : Config) (env : Environment) (params : Dict F) :
    Except Fault (Str × Option ℤ × Option ℤ) := do
  let path ← workspace_path config env (get params "path")
  let line ← optional_int (get params "line") "line"
  let limit ← optional_int (get params "limit") "limit"
  if line.any (· < 1) then invalid "line must be 1 or greater"
  else if limit.any (· < 0) then invalid "limit must be 0 or greater"
  else pure (path, line, limit)

/-- The content of a file. -/
def read_file (env : Environment) (path : Str) : Except Fault Str :=
  match env.read path with
  | .content text => .ok text
  | .not_found => failed (str "file not found: " ++ path)
  | .not_utf8 => failed (str "file is not valid UTF-8: " ++ path)
  | .os_error message => failed (str "failed to read file: " ++ message)
  | .blocks => .error .blocked

/-- `_read_text_file`. -/
def read_text_file (config : Config) (env : Environment) (params : Dict F) :
    Except Fault (Value F) := do
  let (path, line, limit) ← read_arguments config env params
  let content ← read_file env path
  pure (.object [(str "content", .string (select_lines content line limit))])

/-- What `_write_text_file` checks: the path and the content. -/
def write_arguments (config : Config) (env : Environment) (params : Dict F) :
    Except Fault (Str × Str) := do
  let path ← workspace_path config env (get params "path")
  match get params "content" with
  | .string content => pure (path, content)
  | _ => invalid "content must be a string"

/-- `path.write_text(content, encoding="utf-8")`: a lone surrogate is found when the file has
been opened. -/
def write_file (env : Environment) (path content : Str) : Except Fault Unit :=
  match env.open_for_writing path with
  | .os_error message => failed (str "failed to write file: " ++ message)
  | .blocks => .error .blocked
  | .opened failure =>
    if has_surrogate content then .error .raised
    else match failure with
      | some message => failed (str "failed to write file: " ++ message)
      | none => .ok ()

/-- `_write_text_file`. -/
def write_text_file (config : Config) (env : Environment) (params : Dict F) : Except Fault Unit := do
  let (path, content) ← write_arguments config env params
  write_file env path content

/-! ## Terminals -/

/-- The command and its arguments. -/
def create_command (params : Dict F) : Except Fault (Str × List Str) :=
  match get params "command" with
  | .string command =>
    if command.isEmpty then invalid "command must be a non-empty string"
    else (string_list (get params "args") "args").map fun args => (command, args)
  | _ => invalid "command must be a non-empty string"

/-- The directory of the process. -/
def create_cwd (config : Config) (env : Environment) (params : Dict F) : Except Fault Str :=
  match get params "cwd" with
  | .string cwd => if cwd.isEmpty then .ok config.workspace_root
      else workspace_path config env (get params "cwd")
  | _ => .ok config.workspace_root

/-- The limit of the output and the variables of the process. -/
def create_limits (config : Config) (params : Dict F) : Except Fault (ℤ × List (Str × Str)) := do
  let output_limit ← optional_int (get params "outputByteLimit") "outputByteLimit"
  if output_limit.getD (1024 * 1024) < 0 then invalid "outputByteLimit must be 0 or greater"
  else do
    let vars ← terminal_env config (get params "env")
    pure (output_limit.getD (1024 * 1024), vars)

/-- The arguments can be handed to the system. -/
def spawnable (command : Str) (args : List Str) (vars : List (Str × Str)) : Bool :=
  fs_encodable command && args.all fs_encodable
    && vars.all fun var => fs_encodable var.1 && !var.1.contains (Fin.ofNat _ 61) && fs_encodable var.2

/-- `asyncio.create_subprocess_exec`. -/
def create_subprocess_exec (env : Environment) (command : Str) (args : List Str)
    (vars : List (Str × Str)) : Except Fault Unit :=
  match env.spawn with
  | .no_resources message => failed (str "failed to start terminal: " ++ message)
  | result =>
    if !spawnable command args vars then .error .raised
    else match result with
      | .not_found => failed (str "terminal command not found: " ++ command)
      | .os_error message => failed (str "failed to start terminal: " ++ message)
      | _ => .ok ()

/-- `_terminal_create`. -/
def terminal_create (config : Config) (env : Environment) (params : Dict F) :
    Except Fault (Value F) := do
  let (command, args) ← create_command params
  let _ ← create_cwd config env params
  let (_, vars) ← create_limits config params
  create_subprocess_exec env command args vars
  pure (.object [(str "terminalId", .string env.terminal_id)])

/-- `_exit_status`. -/
def exit_status (returncode : ℤ) : Value F :=
  if returncode < 0 then
    .object [(str "exitCode", .null), (str "signal", .string (int_repr (-returncode)))]
  else .object [(str "exitCode", .int returncode), (str "signal", .null)]

/-- `_terminal_output`. -/
def terminal_output (env : Environment) (terminals : List Str) (params : Dict F) :
    Except Fault (Value F) := do
  let id ← known_terminal terminals params
  let terminal := env.terminal id
  pure (.object ([(str "output", .string terminal.output), (str "truncated", .bool terminal.truncated)]
    ++ (terminal.returncode.map fun returncode => (str "exitStatus", exit_status returncode)).toList))

/-- `await terminal.reader_task`. -/
def await_output : OutputState → Except Fault Unit
  | .closed => .ok ()
  | .held => .error .blocked
  | .failed => .error .raised

/-- `_terminal_wait_for_exit`. -/
def terminal_wait_for_exit (env : Environment) (terminals : List Str) (params : Dict F) :
    Except Fault (Value F) := do
  let id ← known_terminal terminals params
  match (env.terminal id).returncode with
  | none => .error .blocked
  | some returncode => do
    await_output (env.terminal id).output_state
    pure (exit_status returncode)

/-- `_terminate_terminal`: the process has ended after five seconds, or is killed. -/
def terminate_terminal (env : Environment) (id : Str) : Except Fault Unit := await_output (env.killed id)

/-- `_terminal_kill`. -/
def terminal_kill (env : Environment) (terminals : List Str) (params : Dict F) : Except Fault Unit := do
  let id ← known_terminal terminals params
  terminate_terminal env id

/-- `_handle_client_request`: its result, where `none` is `_UNHANDLED`, and the terminals that
there are after it. -/
def handle_client_request (config : Config) (env : Environment) (terminals : List Str) (method : Str)
    (params : Dict F) : Except Fault (Option (Value F)) × List Str :=
  if method = str "fs/read_text_file" then ((read_text_file config env params).map some, terminals)
  else if method = str "fs/write_text_file" then
    ((write_text_file config env params).map fun _ => some .null, terminals)
  else if method = str "terminal/create" then
    match terminal_create config env params with
    | .ok result => (.ok (some result), terminals ++ [env.terminal_id])
    | .error fault => (.error fault, terminals)
  else if method = str "terminal/output" then ((terminal_output env terminals params).map some, terminals)
  else if method = str "terminal/wait_for_exit" then
    ((terminal_wait_for_exit env terminals params).map some, terminals)
  else if method = str "terminal/kill" then
    ((terminal_kill env terminals params).map fun _ => some .null, terminals)
  else if method = str "terminal/release" then
    match known_terminal terminals params with
    | .ok id =>
      ((terminate_terminal env id).map fun _ => some .null, terminals.filter fun other => other ≠ id)
    | .error fault => (.error fault, terminals)
  else (.ok none, terminals)

/-! ## What is answered -/

/-- A result, or an error that is sent back. -/
def Answers {α : Type} : Except Fault α → Prop
  | .ok _ => True
  | .error (.request_error _ _) => True
  | .error .raised => False
  | .error .blocked => False

/-- A path that can be handed to the system, if it is absolute at all. -/
def PathSafe (value : Value F) : Prop :=
  ∀ path, value = .string path → (str "/").isPrefixOf path = true → fs_encodable path = true

/-- The condition on a request, by its method. -/
structure Harmless (config : Config) (env : Environment) (terminals : List Str) (method : Str)
    (params : Dict F) : Prop where
  /-- A file that is read is at a path of the system, and can be read at once. -/
  read : method = str "fs/read_text_file" → PathSafe (get params "path")
    ∧ ∀ path line limit, read_arguments config env params = .ok (path, line, limit) →
      env.read path ≠ .blocks
  /-- A file that is written is at a path of the system, can be opened at once, and its content
  is without lone surrogates. -/
  write : method = str "fs/write_text_file" → PathSafe (get params "path")
    ∧ ∀ path content, write_arguments config env params = .ok (path, content) →
      env.open_for_writing path ≠ .blocks
        ∧ ∀ failure, env.open_for_writing path = .opened failure → has_surrogate content = false
  /-- A process is started with arguments that can be handed to the system. -/
  create : method = str "terminal/create" →
    ∀ command args, create_command params = .ok (command, args) → PathSafe (get params "cwd")
      ∧ ∀ cwd limit vars, create_cwd config env params = .ok cwd →
        create_limits config params = .ok (limit, vars) →
        (∀ message, env.spawn ≠ .no_resources message) → spawnable command args vars = true
  /-- A process that is waited for has ended, and its output is closed. -/
  wait : method = str "terminal/wait_for_exit" →
    ∀ id, known_terminal terminals params = .ok id →
      (env.terminal id).returncode ≠ none ∧ (env.terminal id).output_state = .closed
  /-- The output of a process that is killed is closed then. -/
  kill : method = str "terminal/kill" ∨ method = str "terminal/release" →
    ∀ id, known_terminal terminals params = .ok id → env.killed id = .closed

variable {α β : Type}

theorem answers_error_iff (fault : Fault) :
    Answers (.error fault : Except Fault α) ↔ Answers (.error fault : Except Fault β) := by
  cases fault <;> exact Iff.rfl

variable (x : Except Fault α)

theorem answers_map (f : α → β) : Answers (x.map f) ↔ Answers x := by
  cases x with
  | ok a => exact Iff.rfl
  | error fault => exact answers_error_iff fault

theorem answers_bind_iff (f : α → Except Fault β) :
    Answers (x.bind f) ↔ Answers x ∧ ∀ a, x = .ok a → Answers (f a) := by
  cases x with
  | ok a =>
    constructor
    · intro h
      refine ⟨trivial, ?_⟩
      intro b hb
      obtain rfl := Except.ok.inj hb
      exact h
    · rintro ⟨-, h⟩
      exact h a rfl
  | error fault =>
    constructor
    · intro h
      refine ⟨(answers_error_iff fault).1 h, ?_⟩
      intro b hb
      cases hb
    · rintro ⟨h, -⟩
      exact (answers_error_iff fault).1 h

theorem answers_do_iff (f : α → Except Fault β) :
    Answers (x >>= f) ↔ Answers x ∧ ∀ a, x = .ok a → Answers (f a) := answers_bind_iff x f

theorem answers_optional_int (value : Value F) (name : String) : Answers (optional_int value name) := by
  unfold optional_int
  cases value <;> trivial

theorem answers_strings (name : String) (items : List (Value F)) : Answers (strings name items) := by
  induction items with
  | nil => trivial
  | cons item items ih =>
    unfold strings
    cases item with
    | string s => exact (answers_map _ _).2 ih
    | null | bool b | int n | float x | array items | object entries => trivial

theorem answers_string_list (value : Value F) (name : String) : Answers (string_list value name) := by
  unfold string_list
  cases value with
  | array items => exact answers_strings name items
  | null | bool b | int n | float x | string s | object entries => trivial

theorem answers_add_env (items : List (Value F)) (env : List (Str × Str)) : Answers (add_env items env) := by
  induction items generalizing env with
  | nil => trivial
  | cons item items ih =>
    unfold add_env
    split
    · exact ih _
    · trivial

variable (config : Config)

theorem answers_terminal_env (value : Value F) : Answers (terminal_env config value) := by
  unfold terminal_env
  cases value with
  | array items => exact answers_add_env items config.env
  | null | bool b | int n | float x | string s | object entries => trivial

theorem answers_known_terminal (terminals : List Str) (params : Dict F) :
    Answers (known_terminal terminals params) := by
  unfold known_terminal
  rw [answers_bind_iff]
  constructor
  · unfold terminal_id
    split
    · split <;> trivial
    · trivial
  · intro id _
    split <;> trivial

theorem answers_checked_path_iff (env : Environment) (path : Str) :
    Answers (checked_path config env path)
      ↔ ((str "/").isPrefixOf path = true → fs_encodable path = true) := by
  unfold checked_path
  by_cases hempty : path.isEmpty = true
  · -- an empty path is not absolute
    rw [if_pos hempty, List.isEmpty_iff.1 hempty]
    refine ⟨fun _ habsolute => ?_, fun _ => trivial⟩
    cases habsolute
  · rw [if_neg hempty]
    by_cases habsolute : (str "/").isPrefixOf path = true
    · rw [if_neg (by simp [habsolute])]
      by_cases hencodable : fs_encodable path = true
      · rw [if_neg (by simp [hencodable])]
        refine ⟨fun _ _ => hencodable, fun _ => ?_⟩
        split <;> trivial
      · rw [if_pos (by simpa using hencodable)]
        exact ⟨fun h => h.elim, fun h => hencodable (h habsolute)⟩
    · have hfalse : (str "/").isPrefixOf path = false := by
        rw [Bool.eq_false_iff]
        exact habsolute
      rw [if_pos (by rw [hfalse]; rfl)]
      exact ⟨fun _ h => absurd h habsolute, fun _ => trivial⟩

theorem answers_workspace_path_iff (env : Environment) (value : Value F) :
    Answers (workspace_path config env value) ↔ PathSafe value := by
  have hother : (∀ path, value ≠ .string path) → PathSafe value := by
    intro h path hpath
    exact absurd hpath (h path)
  cases value with
  | string path =>
    unfold workspace_path
    rw [answers_checked_path_iff]
    constructor
    · intro h path' hpath
      obtain rfl := Value.string.inj hpath
      exact h
    · intro h
      exact h path rfl
  | null | bool b | int n | float x | array items
  | object entries => exact ⟨fun _ => hother (by simp), fun _ => trivial⟩

/-! ## Each method -/

section Methods

variable (config : Config) (env : Environment) (terminals : List Str) (params : Dict F)

theorem answers_read_text_file_iff :
    Answers (read_text_file config env params) ↔ PathSafe (get params "path")
      ∧ ∀ path line limit, read_arguments config env params = .ok (path, line, limit) →
        env.read path ≠ .blocks := by
  have hfile : ∀ path, Answers (read_file env path) ↔ env.read path ≠ .blocks := by
    intro path
    unfold read_file
    cases env.read path <;> simp [Answers, failed]
  have harguments : Answers (read_arguments config env params) ↔ PathSafe (get params "path") := by
    unfold read_arguments
    rw [answers_do_iff, answers_workspace_path_iff]
    refine ⟨fun h => h.1, fun h => ⟨h, ?_⟩⟩
    intro path _
    rw [answers_do_iff]
    refine ⟨answers_optional_int _ _, fun line _ => ?_⟩
    rw [answers_do_iff]
    refine ⟨answers_optional_int _ _, fun limit _ => ?_⟩
    split
    · trivial
    · split <;> trivial
  unfold read_text_file
  rw [answers_do_iff, harguments]
  refine and_congr_right fun _ => ?_
  constructor
  · intro h path line limit harguments
    have hread := h (path, line, limit) harguments
    simp only [] at hread
    rw [answers_do_iff] at hread
    exact (hfile path).1 hread.1
  · rintro h ⟨path, line, limit⟩ harguments
    simp only []
    rw [answers_do_iff]
    exact ⟨(hfile path).2 (h path line limit harguments), fun _ _ => trivial⟩

theorem answers_write_text_file_iff :
    Answers (write_text_file config env params) ↔ PathSafe (get params "path")
      ∧ ∀ path content, write_arguments config env params = .ok (path, content) →
        env.open_for_writing path ≠ .blocks
          ∧ ∀ failure, env.open_for_writing path = .opened failure → has_surrogate content = false := by
  have hfile : ∀ path content, Answers (write_file env path content)
      ↔ env.open_for_writing path ≠ .blocks
        ∧ ∀ failure, env.open_for_writing path = .opened failure → has_surrogate content = false := by
    intro path content
    unfold write_file
    cases hopen : env.open_for_writing path with
    | os_error message => simp [Answers, failed]
    | blocks => simp [Answers]
    | opened failure =>
      by_cases hsurrogate : has_surrogate content = true
      · simp [hsurrogate, Answers]
      · cases failure <;> simp [hsurrogate, Answers, failed]
  have harguments : Answers (write_arguments config env params) ↔ PathSafe (get params "path") := by
    unfold write_arguments
    rw [answers_do_iff, answers_workspace_path_iff]
    refine ⟨fun h => h.1, fun h => ⟨h, ?_⟩⟩
    intro path _
    split <;> trivial
  unfold write_text_file
  rw [answers_do_iff, harguments]
  refine and_congr_right fun _ => ?_
  constructor
  · intro h path content harguments
    exact (hfile path content).1 (h (path, content) harguments)
  · rintro h ⟨path, content⟩ harguments
    exact (hfile path content).2 (h path content harguments)

theorem answers_create_command : Answers (create_command params) := by
  unfold create_command
  split
  · split
    · trivial
    · exact (answers_map _ _).2 (answers_string_list _ _)
  · trivial

theorem answers_create_cwd_iff : Answers (create_cwd config env params) ↔ PathSafe (get params "cwd") := by
  unfold create_cwd
  cases hcwd : get params "cwd" with
  | string cwd =>
    by_cases hempty : cwd.isEmpty = true
    · simp only [hempty, if_true]
      refine ⟨fun _ path hpath habsolute => ?_, fun _ => trivial⟩
      -- an empty path is not absolute
      obtain rfl := Value.string.inj hpath
      rw [List.isEmpty_iff.1 hempty] at habsolute
      cases habsolute
    · simp only [hempty, Bool.false_eq_true, if_false]
      exact answers_workspace_path_iff config env _
  | null | bool b | int n | float x | array items
  | object entries => exact ⟨fun _ => (answers_workspace_path_iff config env _).1 trivial, fun _ => trivial⟩

theorem answers_create_limits : Answers (create_limits config params) := by
  unfold create_limits
  rw [answers_do_iff]
  refine ⟨answers_optional_int _ _, fun output_limit _ => ?_⟩
  split
  · trivial
  · rw [answers_do_iff]
    exact ⟨answers_terminal_env _ _, fun _ _ => trivial⟩

theorem answers_create_subprocess_exec_iff (command : Str) (args : List Str) (vars : List (Str × Str)) :
    Answers (create_subprocess_exec env command args vars)
      ↔ ((∀ message, env.spawn ≠ .no_resources message) → spawnable command args vars = true) := by
  unfold create_subprocess_exec
  cases henv : env.spawn with
  | no_resources message => simp [Answers, failed]
  | not_found
  | os_error message => by_cases h : spawnable command args vars = true <;> simp [h, Answers, failed]
  | started => by_cases h : spawnable command args vars = true <;> simp [h, Answers]

theorem answers_terminal_create_iff :
    Answers (terminal_create config env params)
      ↔ ∀ command args, create_command params = .ok (command, args) → PathSafe (get params "cwd")
        ∧ ∀ cwd limit vars, create_cwd config env params = .ok cwd →
          create_limits config params = .ok (limit, vars) →
          (∀ message, env.spawn ≠ .no_resources message) → spawnable command args vars = true := by
  unfold terminal_create
  rw [answers_do_iff, and_iff_right (answers_create_command params)]
  constructor
  · intro h command args hcommand
    have hrest := h (command, args) hcommand
    simp only [] at hrest
    rw [answers_do_iff, answers_create_cwd_iff] at hrest
    refine ⟨hrest.1, ?_⟩
    intro cwd limit vars hcwd hlimits
    have hspawn := hrest.2 cwd hcwd
    rw [answers_do_iff] at hspawn
    have hexec := hspawn.2 (limit, vars) hlimits
    simp only [] at hexec
    rw [answers_do_iff, answers_create_subprocess_exec_iff] at hexec
    exact hexec.1
  · rintro h ⟨command, args⟩ hcommand
    obtain ⟨hsafe, hspawn⟩ := h command args hcommand
    simp only []
    rw [answers_do_iff, answers_create_cwd_iff]
    refine ⟨hsafe, fun cwd hcwd => ?_⟩
    rw [answers_do_iff]
    refine ⟨answers_create_limits config params, ?_⟩
    rintro ⟨limit, vars⟩ hlimits
    simp only []
    rw [answers_do_iff, answers_create_subprocess_exec_iff]
    exact ⟨hspawn cwd limit vars hcwd hlimits, fun _ _ => trivial⟩

theorem answers_await_output_iff (state : OutputState) : Answers (await_output state) ↔ state = .closed := by
  cases state <;> simp [await_output, Answers]

theorem answers_terminal_wait_for_exit_iff :
    Answers (terminal_wait_for_exit env terminals params)
      ↔ ∀ id, known_terminal terminals params = .ok id →
        (env.terminal id).returncode ≠ none ∧ (env.terminal id).output_state = .closed := by
  unfold terminal_wait_for_exit
  rw [answers_do_iff, and_iff_right (answers_known_terminal terminals params)]
  refine forall_congr' fun id => imp_congr_right fun _ => ?_
  cases hreturn : (env.terminal id).returncode with
  | none => simp [Answers]
  | some returncode =>
    simp only []
    rw [answers_do_iff, answers_await_output_iff]
    simp [Answers, pure, Except.pure]

theorem answers_terminal_kill_iff :
    Answers (terminal_kill env terminals params)
      ↔ ∀ id, known_terminal terminals params = .ok id → env.killed id = .closed := by
  unfold terminal_kill terminate_terminal
  rw [answers_do_iff, and_iff_right (answers_known_terminal terminals params)]
  exact forall_congr' fun id => imp_congr_right fun _ => answers_await_output_iff _

/-- The other methods have no condition. -/
theorem harmless_of_other {method : Str} (hread : method ≠ str "fs/read_text_file")
    (hwrite : method ≠ str "fs/write_text_file") (hcreate : method ≠ str "terminal/create")
    (hwait : method ≠ str "terminal/wait_for_exit") (hkill : method ≠ str "terminal/kill")
    (hrelease : method ≠ str "terminal/release") : Harmless config env terminals method params := by
  refine ⟨?_, ?_, ?_, ?_, ?_⟩
  · intro h
    exact absurd h hread
  · intro h
    exact absurd h hwrite
  · intro h
    exact absurd h hcreate
  · intro h
    exact absurd h hwait
  · rintro (h | h)
    · exact absurd h hkill
    · exact absurd h hrelease

/-- **Client requests** end in an answer exactly if they are harmless. -/
theorem answers_iff (method : Str) :
    Answers (handle_client_request config env terminals method params).1
      ↔ Harmless config env terminals method params := by
  unfold handle_client_request
  by_cases hread : method = str "fs/read_text_file"
  · subst hread
    rw [if_pos rfl, answers_map, answers_read_text_file_iff]
    constructor
    · intro h
      constructor <;> first | exact fun _ => h | exact fun h => absurd h (by decide)
    · intro h
      exact h.read rfl
  rw [if_neg hread]
  by_cases hwrite : method = str "fs/write_text_file"
  · subst hwrite
    rw [if_pos rfl, answers_map, answers_write_text_file_iff]
    constructor
    · intro h
      constructor <;> first | exact fun _ => h | exact fun h => absurd h (by decide)
    · intro h
      exact h.write rfl
  rw [if_neg hwrite]
  by_cases hcreate : method = str "terminal/create"
  · subst hcreate
    have hsame : Answers (match terminal_create config env params with
        | .ok result => ((.ok (some result), terminals ++ [env.terminal_id]) :
          Except Fault (Option (Value F)) × List Str)
        | .error fault => (.error fault, terminals)).1 ↔ Answers (terminal_create config env params) := by
      cases terminal_create config env params with
      | ok result => exact Iff.rfl
      | error fault => exact answers_error_iff fault
    rw [if_pos rfl, hsame, answers_terminal_create_iff]
    constructor
    · intro h
      constructor <;> first | exact fun _ => h | exact fun h => absurd h (by decide)
    · intro h
      exact h.create rfl
  rw [if_neg hcreate]
  by_cases houtput : method = str "terminal/output"
  · subst houtput
    rw [if_pos rfl, answers_map]
    refine iff_of_true ?_ (harmless_of_other config env terminals params (by decide) (by decide)
      (by decide) (by decide) (by decide) (by decide))
    unfold terminal_output
    rw [answers_do_iff]
    exact ⟨answers_known_terminal terminals params, fun _ _ => trivial⟩
  rw [if_neg houtput]
  by_cases hwait : method = str "terminal/wait_for_exit"
  · subst hwait
    rw [if_pos rfl, answers_map, answers_terminal_wait_for_exit_iff]
    constructor
    · intro h
      constructor <;> first | exact fun _ => h | exact fun h => absurd h (by decide)
    · intro h
      exact h.wait rfl
  rw [if_neg hwait]
  by_cases hkill : method = str "terminal/kill"
  · subst hkill
    rw [if_pos rfl, answers_map, answers_terminal_kill_iff]
    constructor
    · intro h
      constructor <;> first | exact fun _ => h | exact fun h => absurd h (by decide)
    · intro h
      exact h.kill (Or.inl rfl)
  rw [if_neg hkill]
  by_cases hrelease : method = str "terminal/release"
  · subst hrelease
    have hsame : Answers (match known_terminal terminals params with
        | .ok id => ((terminate_terminal env id).map fun _ => some (Value.null : Value F),
          terminals.filter fun other => other ≠ id)
        | .error fault => (.error fault, terminals)).1
        ↔ ∀ id, known_terminal terminals params = .ok id → env.killed id = .closed := by
      have hknown := answers_known_terminal terminals params
      cases hid : known_terminal terminals params with
      | ok id =>
        simp only [answers_map]
        unfold terminate_terminal
        rw [answers_await_output_iff]
        constructor
        · intro h other hother
          obtain rfl := Except.ok.inj hother
          exact h
        · intro h
          exact h id rfl
      | error fault =>
        rw [hid] at hknown
        refine iff_of_true ((answers_error_iff fault).1 hknown) ?_
        intro id h
        cases h
    rw [if_pos rfl, hsame]
    constructor
    · intro h
      constructor <;> first | exact fun _ => h | exact fun h => absurd h (by decide)
    · intro h
      exact h.kill (Or.inr rfl)
  rw [if_neg hrelease]
  exact iff_of_true trivial
    (harmless_of_other config env terminals params hread hwrite hcreate hwait hkill hrelease)

end Methods

end AgentSpace.Acp
