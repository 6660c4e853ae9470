/-
A file that is written and read again.

Python's text mode translates the ends of lines when a file is read, and on Linux not when
it is written. `round_trips_iff` says which contents come back as they were written.
-/
import AgentSpace.Acp.Reader

set_option autoImplicit false

namespace AgentSpace.Acp

open PyText
open Telemetry (Str str)
open Telemetry.Otel (Value get point is_surrogate has_surrogate encode_utf8
  encode_utf8_isSome_iff)

variable {F : Type}

/-! ## Text mode -/

/-- `"\r"`. -/
def carriage_return : Fin 0x110000 := 13

/-- The ends of lines become `"\n"`; whether a carriage return came before has to be known. -/
def translate_newlines : Bool → Str → Str
  | _, [] => []
  | after_return, c :: text =>
    if c = carriage_return then newline :: translate_newlines true text
    else if after_return && c = newline then translate_newlines false text
    else c :: translate_newlines false text

/-- What reading in text mode gives, with the default `newline=None`. -/
def universal_newlines (text : Str) : Str := translate_newlines false text

/-- `path.read_text(encoding="utf-8")`, of a file with some bytes. -/
def read_text (data : List UInt8) : ReadResult :=
  match decode data with
  | some text => .content (universal_newlines text)
  | none => .not_utf8

/-- The world after an accepted `_write_text_file`: the file has the encoded content, in which a
line ends as it does in the content (`os.linesep` is `"\n"`). -/
def written (config : Config) (env : Environment) (params : Dict F) : Environment :=
  match write_arguments config env params with
  | .ok (path, content) =>
    match encode_utf8 content with
    | some data => { env with read := Function.update env.read path (read_text data) }
    | none => env
  | .error _ => env

theorem carriage_return_not_mem (after_return : Bool) (text : Str) :
    carriage_return ∉ translate_newlines after_return text := by
  induction text generalizing after_return with
  | nil => exact List.not_mem_nil
  | cons c text ih =>
    rw [translate_newlines]
    split_ifs with hc hnewline
    · rw [List.mem_cons, not_or]
      exact ⟨by decide, ih true⟩
    · exact ih false
    · rw [List.mem_cons, not_or]
      exact ⟨Ne.symm hc, ih false⟩

/-- **Text mode.** A text is read as it is if and only if it has no carriage return. -/
theorem universal_newlines_eq_iff {text : Str} : universal_newlines text = text ↔ carriage_return ∉ text := by
  constructor
  · intro h
    rw [← h]
    exact carriage_return_not_mem false text
  · intro h
    unfold universal_newlines
    induction text with
    | nil => rfl
    | cons c text ih =>
      rw [List.mem_cons, not_or] at h
      rw [translate_newlines, if_neg (Ne.symm h.1), Bool.false_and, if_neg Bool.false_ne_true, ih h.2]

/-! ## Bytes -/

theorem decode_encode {content : Str} {data : List UInt8} (h : encode_utf8 content = some data) :
    decode data = some content := AgentSpace.PyText.from_utf8_encode h

/-! ## Requests -/

/-- The parameters of a request to read. -/
def read_params (path line limit : Value F) : Dict F :=
  [(str "path", path), (str "line", line), (str "limit", limit)]

/-- The result of a request to read. -/
def content_result (content : Str) : Value F := .object [(str "content", .string content)]

/-- What was written is read again: without a window, and window by window. -/
structure RoundTrips (config : Config) (env : Environment) (path : Value F) (content : Str) : Prop where
  whole : read_text_file config env (read_params path .null .null) = .ok (content_result content)
  windows : ∀ k n : ℕ, ∃ texts : List Str, texts.length = k + 1
    ∧ (∀ i (hi : i < texts.length), read_text_file config env (read_params path (.int (1 + i * n)) (.int n))
        = .ok (content_result texts[i]))
    ∧ texts.flatten = ((lines_with_ends content).take ((k + 1) * n)).flatten

section Reading

variable {config : Config} {env : Environment} {params : Dict F} {path : Value F} {file content : Str}

/-- A request to read gives the lines that it asks for. -/
theorem read_text_file_of_content {line limit : Value F} {first count : Option ℤ} {text : Str}
    (hpath : workspace_path config env path = .ok file) (hread : env.read file = .content text)
    (hline : optional_int line "line" = .ok first) (hlimit : optional_int limit "limit" = .ok count)
    (hfirst : first.any (· < 1) = false) (hcount : count.any (· < 0) = false) :
    read_text_file config env (read_params path line limit)
      = .ok (content_result (select_lines text first count)) := by
  have hget : get (read_params path line limit) "path" = path
      ∧ get (read_params path line limit) "line" = line ∧ get (read_params path line limit) "limit" = limit :=
    ⟨rfl, rfl, rfl⟩
  have hargs : read_arguments config env (read_params path line limit) = .ok (file, first, count) := by
    unfold read_arguments
    rw [hget.1, hget.2.1, hget.2.2, hpath, hline, hlimit]
    show (if first.any (· < 1) then invalid "line must be 1 or greater"
      else if count.any (· < 0) then invalid "limit must be 0 or greater"
      else pure (file, first, count) : Except Fault (Str × Option ℤ × Option ℤ)) = _
    rw [hfirst, hcount, if_neg Bool.false_ne_true, if_neg Bool.false_ne_true]
    rfl
  have hfile : read_file env file = .ok text := by
    unfold read_file
    rw [hread]
  unfold read_text_file
  rw [hargs]
  show (read_file env file).bind _ = _
  rw [hfile]
  rfl

/-- What an accepted request to write has checked. -/
theorem accepted (hcontent : get params "content" = .string content)
    (hwrite : write_text_file config env params = .ok ()) :
    ∃ file, workspace_path config env (get params "path") = .ok file ∧ has_surrogate content = false := by
  unfold write_text_file write_arguments at hwrite
  cases hpath : workspace_path config env (get params "path") with
  | error fault =>
    rw [hpath] at hwrite
    cases hwrite
  | ok file =>
    rw [hpath, hcontent] at hwrite
    have hfile : write_file env file content = .ok () := hwrite
    refine ⟨file, rfl, ?_⟩
    unfold write_file at hfile
    cases hopen : env.open_for_writing file with
    | os_error message | blocks =>
      rw [hopen] at hfile
      cases hfile
    | opened failure =>
      rw [hopen] at hfile
      by_contra hsurrogate
      dsimp only at hfile
      rw [if_pos (eq_true_of_ne_false hsurrogate)] at hfile
      cases hfile

/-- The file that was written has the content in text mode. -/
theorem read_written (hpath : workspace_path config env (get params "path") = .ok file)
    (hcontent : get params "content" = .string content) (hsurrogate : has_surrogate content = false) :
    (written config env params).read file = .content (universal_newlines content) := by
  obtain ⟨data, hdata⟩ := Option.isSome_iff_exists.1 (encode_utf8_isSome_iff.2 hsurrogate)
  have hargs : write_arguments config env params = .ok (file, content) := by
    unfold write_arguments
    rw [hpath, hcontent]
    rfl
  unfold written
  rw [hargs]
  dsimp only
  rw [hdata]
  show Function.update env.read file (read_text data) file = _
  rw [Function.update_self, read_text, decode_encode hdata]

theorem workspace_path_written (params : Dict F) (path : Value F) :
    workspace_path config (written config env params) path = workspace_path config env path := by
  have hresolve : (written config env params).resolve = env.resolve := by
    unfold written
    split
    · split
      · rfl
      · rfl
    · rfl
  cases path with
  | string text =>
    unfold workspace_path checked_path
    rw [hresolve]
  | _ => rfl

theorem select_window (text : Str) (i n : ℕ) : select_lines text (some (1 + i * n)) (some n)
    = (((lines_with_ends text).drop (i * n)).take n).flatten := by
  have hline : ((1 + i * n : ℤ) - 1).toNat = i * n := by
    rw [add_sub_cancel_left]
    exact Int.toNat_natCast (i * n)
  unfold select_lines
  rw [Option.isNone_some, Bool.false_and, if_neg Bool.false_ne_true, Option.getD_some]
  dsimp only
  rw [hline, Int.toNat_natCast]

/-- **Windows** one after another are the lines one after another. -/
theorem flatten_windows (lines : List Str) (n k : ℕ) :
    ((List.range k).map fun i => ((lines.drop (i * n)).take n).flatten).flatten
      = (lines.take (k * n)).flatten := by
  induction k with
  | zero => simp
  | succ k ih =>
    rw [List.range_succ, List.map_append, List.flatten_append, ih, List.map_singleton, List.flatten_singleton,
      Nat.succ_mul, List.take_add, List.flatten_append]

/-- **The whole file** comes back if and only if it has no carriage return. -/
theorem whole_iff (hcontent : get params "content" = .string content)
    (hwrite : write_text_file config env params = .ok ()) :
    read_text_file config (written config env params) (read_params (get params "path") .null .null)
      = .ok (content_result content) ↔ carriage_return ∉ content := by
  obtain ⟨file, hpath, hsurrogate⟩ := accepted hcontent hwrite
  have hread := read_written hpath hcontent hsurrogate
  have hpath' := (workspace_path_written params (get params "path")).trans hpath
  have hwhole : read_text_file config (written config env params) (read_params (get params "path") .null .null)
      = .ok (content_result (select_lines (universal_newlines content) none none)) :=
    read_text_file_of_content hpath' hread rfl rfl rfl rfl
  rw [hwhole, ← universal_newlines_eq_iff]
  constructor
  · intro h
    exact Value.string.inj (Prod.mk.inj (List.cons.inj (Value.object.inj (Except.ok.inj h))).1).2
  · intro h
    rw [h]
    rfl

/-- **Reading what was written.** For every configuration and world, every path and every content
that is accepted: it comes back as a whole, and window by window, if and only if it has no
carriage return. -/
theorem round_trips_iff (hcontent : get params "content" = .string content)
    (hwrite : write_text_file config env params = .ok ()) :
    RoundTrips config (written config env params) (get params "path") content ↔ carriage_return ∉ content := by
  refine ⟨fun h => (whole_iff hcontent hwrite).1 h.whole, fun h => ⟨(whole_iff hcontent hwrite).2 h, ?_⟩⟩
  intro k n
  obtain ⟨file, hpath, hsurrogate⟩ := accepted hcontent hwrite
  have hread := read_written hpath hcontent hsurrogate
  rw [universal_newlines_eq_iff.2 h] at hread
  have hpath' := (workspace_path_written params (get params "path")).trans hpath
  refine ⟨(List.range (k + 1)).map fun i => (((lines_with_ends content).drop (i * n)).take n).flatten,
    by simp, ?_, flatten_windows _ n (k + 1)⟩
  intro i hi
  rw [List.getElem_map, List.getElem_range, ← select_window]
  refine read_text_file_of_content hpath' hread rfl rfl ?_ ?_
  · rw [Option.any_some, decide_eq_false_iff_not]
    have hpos : (0 : ℤ) ≤ i * n := Int.mul_nonneg (Int.natCast_nonneg i) (Int.natCast_nonneg n)
    omega
  · rw [Option.any_some, decide_eq_false_iff_not]
    omega

end Reading

/-- A world in which files can be written. -/
def writable : Environment := { sample_environment with open_for_writing := fun _ => .opened none }

/-- Two lines, written to a file of the workspace. -/
def two_lines : Dict Unit :=
  [(str "path", .string (str "/workspace/a.txt")), (str "content", .string (str "a\nb\n"))]

theorem two_lines_come_back :
    RoundTrips sample_config (written sample_config writable two_lines) (get two_lines "path") (str "a\nb\n") :=
  (round_trips_iff rfl rfl).2 (by decide)

/-- Two lines that end in `"\r\n"`. -/
def crlf_lines : Dict Unit :=
  [(str "path", .string (str "/workspace/a.txt")), (str "content", .string (str "a\r\nb\r\n"))]

/-- The carriage returns do not come back. -/
theorem carriage_returns_are_lost : write_text_file sample_config writable crlf_lines = .ok ()
    ∧ ¬RoundTrips sample_config (written sample_config writable crlf_lines) (get crlf_lines "path")
        (str "a\r\nb\r\n") := by
  have hwrite : write_text_file sample_config writable crlf_lines = .ok () := rfl
  refine ⟨hwrite, fun h => ?_⟩
  exact absurd ((whole_iff rfl hwrite).1 h.whole) (by decide)

end AgentSpace.Acp
