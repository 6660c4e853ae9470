/-
What a terminal's command has written: `_read_terminal_output` keeps its last
`output_limit` bytes.

Each line that is read is cut from what was kept before, which is one cut of the whole
(`add_chunk_kept`). Reading stops at a line that is longer than the buffer of the stream.
-/
import AgentSpace.Lib.Lines
import AgentSpace.Lib.Utf8

set_option autoImplicit false

namespace AgentSpace.Acp

open Lib

/-- `_STREAM_BUFFER_LIMIT`. -/
def STREAM_BUFFER_LIMIT : ℕ := 16 * 1024 * 1024

/-- `TerminalSession`, without the process and the task. -/
structure TerminalSession where
  output_limit : ℕ
  output : List Char
  truncated : Bool

/-- `_truncate_terminal_output`. -/
def truncate_terminal_output (terminal : TerminalSession) : TerminalSession :=
  if terminal.output_limit = 0 then
    { terminal with truncated := terminal.truncated || !terminal.output.isEmpty, output := [] }
  else
    let data := utf8 terminal.output
    if data.length ≤ terminal.output_limit then terminal
    else { terminal with
      truncated := true
      output := from_utf8_ignore (data.drop (data.length - terminal.output_limit)) }

/-- What `_read_terminal_output` does with a chunk. -/
def add_chunk (session : TerminalSession) (chunk : List UInt8) : TerminalSession :=
  truncate_terminal_output { session with output := session.output ++ from_utf8_lossy chunk }

/-- `"\n"`. -/
def newline_byte : UInt8 := 10

/-- `asyncio.StreamReader`, read line by line: a `ValueError` is raised at a line that is longer than
the limit of its buffer, also before the end of the line has come. -/
def stdout : LineReader UInt8 TerminalSession Unit where
  newline := newline_byte
  take session line :=
    if STREAM_BUFFER_LIMIT < line.length then .error () else .ok (add_chunk session (line ++ [newline_byte]))
  refuse line := if STREAM_BUFFER_LIMIT < line.length then some () else none

/-- The session while the command runs: the lines of what has been read are in its output. -/
def running : Except (TerminalSession × Unit) (TerminalSession × List UInt8) → TerminalSession
  | .ok (session, _) => session
  | .error (session, _) => session

/-- The session at the end of the stream: its last line may have no end. -/
def finished : Except (TerminalSession × Unit) (TerminalSession × List UInt8) → TerminalSession
  | .ok (session, buffer) => if buffer.isEmpty then session else add_chunk session buffer
  | .error (session, _) => session

/-- `_read_terminal_output`, from the creation of the terminal: after some reads, and whether the
stream has come to its end then. -/
def read_terminal_output (output_limit : ℕ) (reads : List (List UInt8)) (at_eof : Bool) : TerminalSession :=
  let read := stdout.feed (⟨output_limit, [], false⟩, []) reads
  if at_eof then finished read else running read

/-! ## What is kept -/

/-- The session keeps the end of an output: as many of its last characters as the limit has room
for, and it says whether others have been dropped. -/
structure Keeps (output_limit : ℕ) (output : List Char) (session : TerminalSession) : Prop where
  suffix : session.output <:+ output
  fits : (utf8 session.output).length ≤ output_limit
  longest : ∀ other, other <:+ output → (utf8 other).length ≤ output_limit → other <:+ session.output
  truncated : session.truncated = true ↔ session.output ≠ output

/-- The session that keeps the end of an output. -/
def kept (output_limit : ℕ) (output : List Char) : TerminalSession where
  output_limit := output_limit
  output := last_bytes output_limit output
  truncated := decide (output_limit < (utf8 output).length)

/-- The lines that have come: without the end of the stream, one that is not whole has not. -/
def arrived (bytes : List UInt8) (at_eof : Bool) : List UInt8 :=
  if at_eof then bytes
  else (bytes.splitOn newline_byte).dropLast.flatMap fun line => line ++ [newline_byte]

/-- No line is longer than the buffer of the stream. -/
def LinesFit (bytes : List UInt8) : Prop := ∀ line ∈ bytes.splitOn newline_byte,
    line.length ≤ STREAM_BUFFER_LIMIT

instance (bytes : List UInt8) : Decidable (LinesFit bytes) :=
  inferInstanceAs (Decidable (∀ line ∈ bytes.splitOn newline_byte, line.length ≤ STREAM_BUFFER_LIMIT))

/-- The lines before one that is longer than the buffer of the stream. -/
def before_overrun (bytes : List UInt8) : List UInt8 :=
  ((bytes.splitOn newline_byte).takeWhile fun line => line.length ≤ STREAM_BUFFER_LIMIT).flatMap
    fun line => line ++ [newline_byte]

/-- More than the limit came before a line that is longer than the buffer of the stream, and its end
is the end of the whole output. -/
def SameEnd (output_limit : ℕ) (bytes : List UInt8) : Prop :=
  output_limit < (utf8 (from_utf8_lossy (before_overrun bytes))).length
    ∧ last_bytes output_limit (from_utf8_lossy (before_overrun bytes))
      = last_bytes output_limit (from_utf8_lossy bytes)

variable (output_limit : ℕ)

theorem keeps_kept (output : List Char) : Keeps output_limit output (kept output_limit output) := by
  refine ⟨last_bytes_suffix _ _, length_utf8_last_bytes _ _, fun other => suffix_last_bytes, ?_⟩
  show decide _ = true ↔ last_bytes output_limit output ≠ output
  rw [decide_eq_true_eq]
  constructor
  · intro hlong heq
    have hle := length_utf8_last_bytes output_limit output
    rw [heq] at hle
    omega
  · intro hne
    by_contra hlong
    exact hne (last_bytes_of_le (Nat.le_of_not_lt hlong))

theorem Keeps.output_eq {output_limit : ℕ} {output : List Char} {session : TerminalSession}
    (h : Keeps output_limit output session) : session.output = last_bytes output_limit output := by
  have hfewer := suffix_last_bytes h.suffix h.fits
  have hmore := h.longest _ (last_bytes_suffix _ _) (length_utf8_last_bytes output_limit output)
  exact hfewer.eq_of_length (Nat.le_antisymm hfewer.length_le hmore.length_le)

/-! ## Chunks -/

theorem truncate_eq (terminal : TerminalSession) : truncate_terminal_output terminal = { terminal with
      output := last_bytes terminal.output_limit terminal.output
      truncated := terminal.truncated || decide (terminal.output_limit < (utf8 terminal.output).length) } := by
  unfold truncate_terminal_output
  split_ifs with hzero
  · cases houtput : terminal.output with
    | nil => simp [last_bytes, utf8]
    | cons c t =>
      have hlong : 0 < (utf8 (c :: t)).length := by
        rw [utf8_cons, List.length_append, String.length_utf8EncodeChar]
        have hpos := c.utf8Size_pos
        omega
      have hlast := length_utf8_last_bytes 0 (c :: t)
      have hempty : last_bytes 0 (c :: t) = [] := by
        cases hrest : last_bytes 0 (c :: t) with
        | nil => rfl
        | cons c' rest =>
          rw [hrest, utf8_cons, List.length_append, String.length_utf8EncodeChar] at hlast
          have hpos := c'.utf8Size_pos
          omega
      rw [hzero, hempty, decide_eq_true hlong]
      rfl
  · dsimp only
    split_ifs with hle
    · rw [last_bytes_of_le hle, decide_eq_false (Nat.not_lt_of_le hle), Bool.or_false]
    · rw [from_utf8_ignore_drop (Nat.lt_of_not_le hle), decide_eq_true (Nat.lt_of_not_le hle), Bool.or_true]

/-- **A chunk** is cut from what was kept as it is from all of the output. -/
theorem add_chunk_kept (output : List Char) (chunk : List UInt8) :
    add_chunk (kept output_limit output) chunk = kept output_limit (output ++ from_utf8_lossy chunk) := by
  rw [add_chunk, truncate_eq]
  unfold kept
  dsimp only
  congr 1
  · exact last_bytes_append output_limit output _
  · rw [← Bool.decide_or, decide_eq_decide, utf8_append, utf8_append, List.length_append, List.length_append]
    by_cases hlong : output_limit < (utf8 output).length
    · exact iff_of_true (Or.inl hlong) (by omega)
    · rw [last_bytes_of_le (Nat.le_of_not_lt hlong)]
      exact or_iff_right hlong

/-! ## Lines -/

section Stdout

variable {line : List UInt8} {session : TerminalSession}

theorem refuse_long (h : STREAM_BUFFER_LIMIT < line.length) : stdout.refuse line = some () := if_pos h

theorem refuse_short (h : ¬STREAM_BUFFER_LIMIT < line.length) : stdout.refuse line = none := if_neg h

theorem take_long (h : STREAM_BUFFER_LIMIT < line.length) : stdout.take session line = .error () := if_pos h

theorem take_short (h : ¬STREAM_BUFFER_LIMIT < line.length) :
    stdout.take session line = .ok (add_chunk session (line ++ [newline_byte])) :=
  if_neg h

theorem drain_line (h : newline_byte ∉ line) (rest : List UInt8) :
    stdout.drain session (line ++ newline_byte :: rest) = match stdout.take session line with
      | .ok session' => stdout.drain session' rest
      | .error e => .error (session, e) := by
  have hdrain := LineReader.drain_line stdout h session rest
  cases htake : stdout.take session line with
  | ok session' | error e =>
    rw [htake] at hdrain
    exact hdrain

theorem long_of_refuse {e : Unit} (h : stdout.refuse line = some e) : STREAM_BUFFER_LIMIT < line.length := by
  by_contra hshort
  rw [refuse_short hshort] at h
  cases h

theorem steady_stdout : stdout.Steady where
  refuse := by
    intro line e more h
    have hlong := long_of_refuse h
    refine refuse_long ?_
    rw [List.length_append]
    omega
  take := by
    intro line e more s h
    have hlong := long_of_refuse h
    refine take_long ?_
    rw [List.length_append]
    omega

end Stdout

/-- What is taken of some lines. -/
def taken (bytes : List UInt8) : List UInt8 := if LinesFit bytes then bytes else before_overrun bytes

variable {line : List UInt8}

theorem splitOn_line (h : newline_byte ∉ line) (rest : List UInt8) :
    (line ++ newline_byte :: rest).splitOn newline_byte = line :: rest.splitOn newline_byte :=
  List.splitOn_append_cons_self_of_not_mem h rest

variable {rest : List UInt8}

theorem linesFit_rest (h : newline_byte ∉ rest) : LinesFit rest ↔ ¬STREAM_BUFFER_LIMIT < rest.length := by
  rw [LinesFit, List.splitOn_eq_singleton h, List.forall_mem_singleton, Nat.not_lt]

theorem linesFit_line (h : newline_byte ∉ line) (rest : List UInt8) :
    LinesFit (line ++ newline_byte :: rest) ↔ ¬STREAM_BUFFER_LIMIT < line.length ∧ LinesFit rest := by
  rw [LinesFit, splitOn_line h, List.forall_mem_cons, Nat.not_lt]
  rfl

theorem before_overrun_rest (h : newline_byte ∉ rest)
    (hlong : STREAM_BUFFER_LIMIT < rest.length) : before_overrun rest = [] := by
  rw [before_overrun, List.splitOn_eq_singleton h,
    List.takeWhile_cons_of_neg (by rw [decide_eq_true_eq, Nat.not_le]; exact hlong)]
  rfl

theorem before_overrun_line (h : newline_byte ∉ line) (rest : List UInt8) :
    before_overrun (line ++ newline_byte :: rest)
      = if STREAM_BUFFER_LIMIT < line.length then [] else line ++ newline_byte :: before_overrun rest := by
  rw [before_overrun, splitOn_line h]
  split_ifs with hlong
  · rw [List.takeWhile_cons_of_neg (by rw [decide_eq_true_eq, Nat.not_le]; exact hlong)]
    rfl
  · rw [List.takeWhile_cons_of_pos (by rw [decide_eq_true_eq, ← Nat.not_lt]; exact hlong), List.flatMap_cons,
      List.append_assoc]
    rfl

theorem taken_rest (h : newline_byte ∉ rest) :
    taken rest = if STREAM_BUFFER_LIMIT < rest.length then [] else rest := by
  unfold taken
  split_ifs with hfit hlong hlong
  · exact absurd hlong ((linesFit_rest h).1 hfit)
  · rfl
  · exact before_overrun_rest h hlong
  · exact absurd ((linesFit_rest h).2 hlong) hfit

theorem taken_line (h : newline_byte ∉ line) (rest : List UInt8) :
    taken (line ++ newline_byte :: rest)
      = if STREAM_BUFFER_LIMIT < line.length then [] else line ++ newline_byte :: taken rest := by
  unfold taken
  rw [before_overrun_line h]
  by_cases hlong : STREAM_BUFFER_LIMIT < line.length
  · rw [if_neg fun hfit => ((linesFit_line h rest).1 hfit).1 hlong, if_pos hlong, if_pos hlong]
  · rw [if_neg hlong, if_neg hlong]
    by_cases hfit : LinesFit rest
    · rw [if_pos ((linesFit_line h rest).2 ⟨hlong, hfit⟩), if_pos hfit]
    · rw [if_neg fun hall => hfit ((linesFit_line h rest).1 hall).2, if_neg hfit]

theorem is_ascii_newline : is_ascii newline_byte = true := by decide

/-- **The end of the stream.** What is kept then is the end of what was taken. -/
theorem finished_drain (output : List Char) (bytes : List UInt8) :
    finished (stdout.drain (kept output_limit output) bytes)
      = kept output_limit (output ++ from_utf8_lossy (taken bytes)) := by
  induction bytes using lines_induction newline_byte generalizing output with
  | hlast rest hrest =>
    rw [LineReader.drain_rest stdout hrest, taken_rest hrest]
    by_cases hlong : STREAM_BUFFER_LIMIT < rest.length
    · rw [refuse_long hlong, if_pos hlong, from_utf8_lossy_nil, List.append_nil]
      rfl
    · rw [refuse_short hlong, if_neg hlong]
      cases rest with
      | nil =>
        rw [from_utf8_lossy_nil, List.append_nil]
        rfl
      | cons b rest => exact add_chunk_kept output_limit output _
  | hline line rest hline ih =>
    rw [drain_line hline, taken_line hline]
    by_cases hlong : STREAM_BUFFER_LIMIT < line.length
    · rw [take_long hlong, if_pos hlong, from_utf8_lossy_nil, List.append_nil]
      rfl
    · rw [take_short hlong, add_chunk_kept, if_neg hlong,
        from_utf8_lossy_append_ascii is_ascii_newline line (taken rest), ← List.append_assoc]
      exact ih _

theorem running_drain (session : TerminalSession) (bytes : List UInt8) :
    running (stdout.drain session bytes) = finished (stdout.drain session (arrived bytes false)) := by
  induction bytes using lines_induction newline_byte generalizing session with
  | hlast rest hrest =>
    have harrived : arrived rest false = [] := by
      rw [arrived, List.splitOn_eq_singleton hrest]
      rfl
    rw [harrived, LineReader.drain_rest stdout hrest, LineReader.drain_rest stdout List.not_mem_nil]
    by_cases hlong : STREAM_BUFFER_LIMIT < rest.length
    · rw [refuse_long hlong]
      rfl
    · rw [refuse_short hlong]
      rfl
  | hline line rest hline ih =>
    have harrived : arrived (line ++ newline_byte :: rest) false
      = line ++ newline_byte :: arrived rest false := by
      rw [arrived, splitOn_line hline, List.dropLast_cons_of_ne_nil (List.splitOn_ne_nil _ _)]
      simp [arrived]
    rw [harrived, drain_line hline, drain_line hline]
    cases stdout.take session line with
    | ok session' => exact ih session'
    | error e => rfl

/-- **The reader.** What is kept is the end of what was taken, whatever the reads are. -/
theorem read_terminal_output_eq (reads : List (List UInt8)) (at_eof : Bool) :
    read_terminal_output output_limit reads at_eof
      = kept output_limit (from_utf8_lossy (taken (arrived reads.flatten at_eof))) := by
  have hempty : (⟨output_limit, [], false⟩ : TerminalSession) = kept output_limit [] := rfl
  have hend := finished_drain output_limit [] (arrived reads.flatten at_eof)
  rw [read_terminal_output, hempty, steady_stdout.feed_start (refuse_short (Nat.not_lt_zero _))]
  cases at_eof with
  | true => exact hend
  | false => exact (running_drain _ _).trans hend

/-! ## The end of the whole output -/

/-- A part of an output that was not taken cannot be kept. -/
theorem keeps_before_overrun {output_limit : ℕ} {before after : List Char} (hafter : after ≠ []) :
    Keeps output_limit (before ++ after) (kept output_limit before) ↔ output_limit < (utf8 before).length
      ∧ last_bytes output_limit before = last_bytes output_limit (before ++ after) := by
  constructor
  · intro h
    have hdropped : (kept output_limit before).output ≠ before ++ after := by
      intro heq
      have hle := (last_bytes_suffix output_limit before).length_le
      have hlength : (last_bytes output_limit before).length = (before ++ after).length :=
        congrArg List.length heq
      have hpos := List.length_pos_of_ne_nil hafter
      rw [List.length_append] at hlength
      omega
    exact ⟨of_decide_eq_true (h.truncated.2 hdropped), h.output_eq⟩
  · rintro ⟨hlong, hsame⟩
    have hwhole : output_limit < (utf8 (before ++ after)).length := by
      rw [utf8_append, List.length_append]
      omega
    have heq : kept output_limit before = kept output_limit (before ++ after) := by
      unfold kept
      rw [hsame, decide_eq_true hlong, decide_eq_true hwhole]
    rw [heq]
    exact keeps_kept output_limit _

theorem exists_overrun {bytes : List UInt8} (h : ¬LinesFit bytes) : ∃ after, after ≠ []
    ∧ from_utf8_lossy bytes = from_utf8_lossy (before_overrun bytes) ++ after := by
  have hne : ∀ {l : List UInt8}, l ≠ [] → from_utf8_lossy l ≠ [] := by
    intro l hl
    cases hchar : utf8_char l with
    | some c =>
      rw [from_utf8_lossy_char hchar]
      exact List.cons_ne_nil _ _
    | none =>
      rw [from_utf8_lossy_invalid hl hchar]
      exact List.cons_ne_nil _ _
  induction bytes using lines_induction newline_byte with
  | hlast rest hrest =>
    have hlong := not_not.1 ((linesFit_rest hrest).not.1 h)
    rw [before_overrun_rest hrest hlong]
    refine ⟨from_utf8_lossy rest, hne ?_, rfl⟩
    rintro rfl
    exact Nat.not_lt_zero _ hlong
  | hline line rest hline ih =>
    rw [before_overrun_line hline]
    by_cases hlong : STREAM_BUFFER_LIMIT < line.length
    · rw [if_pos hlong]
      exact ⟨_, hne (by simp), rfl⟩
    · have hrest : ¬LinesFit rest := fun hfit => h ((linesFit_line hline rest).2 ⟨hlong, hfit⟩)
      obtain ⟨after, hafter, hsplit⟩ := ih hrest
      refine ⟨after, hafter, ?_⟩
      rw [if_neg hlong, from_utf8_lossy_append_ascii is_ascii_newline line rest,
        from_utf8_lossy_append_ascii is_ascii_newline line (before_overrun rest), hsplit, List.append_assoc]

/-- **The terminal's output.** For every limit, all reads, and while the command runs and when the
stream has come to its end: the session keeps the end of all lines that have come, and what it
keeps does not depend on the reads, if and only if every line fits the buffer of the stream, or
more than the limit came before the first that does not, with the end of the whole output. -/
theorem keeps_iff (output_limit : ℕ) (reads : List (List UInt8)) (at_eof : Bool) :
    (Keeps output_limit (from_utf8_lossy (arrived reads.flatten at_eof))
          (read_terminal_output output_limit reads at_eof)
        ∧ ∀ other : List (List UInt8), other.flatten = reads.flatten →
          read_terminal_output output_limit other at_eof = read_terminal_output output_limit reads at_eof)
      ↔ LinesFit (arrived reads.flatten at_eof) ∨ SameEnd output_limit (arrived reads.flatten at_eof) := by
  have hreads : ∀ other : List (List UInt8), other.flatten = reads.flatten →
      read_terminal_output output_limit other at_eof = read_terminal_output output_limit reads at_eof := by
    intro other hother
    rw [read_terminal_output_eq, read_terminal_output_eq, hother]
  rw [and_iff_left hreads, read_terminal_output_eq]
  by_cases hfit : LinesFit (arrived reads.flatten at_eof)
  · rw [taken, if_pos hfit]
    exact iff_of_true (keeps_kept output_limit _) (Or.inl hfit)
  · obtain ⟨after, hafter, hsplit⟩ := exists_overrun hfit
    rw [taken, if_neg hfit, or_iff_right hfit, SameEnd, hsplit]
    exact keeps_before_overrun hafter

/-- A line of more than 16 MiB: nothing is kept, and `truncated` is not set. -/
theorem long_line_is_lost :
    ¬(Keeps (1024 * 1024) (from_utf8_lossy (arrived [List.replicate (STREAM_BUFFER_LIMIT + 1) 97].flatten true))
        (read_terminal_output (1024 * 1024) [List.replicate (STREAM_BUFFER_LIMIT + 1) 97] true)
      ∧ ∀ other : List (List UInt8), other.flatten = [List.replicate (STREAM_BUFFER_LIMIT + 1) 97].flatten →
        read_terminal_output (1024 * 1024) other true
          = read_terminal_output (1024 * 1024) [List.replicate (STREAM_BUFFER_LIMIT + 1) 97] true) := by
  rintro ⟨h, -⟩
  have hline : newline_byte ∉ List.replicate (STREAM_BUFFER_LIMIT + 1) (97 : UInt8) := fun hmem =>
    absurd (List.eq_of_mem_replicate hmem) (by decide)
  have hlong : STREAM_BUFFER_LIMIT < (List.replicate (STREAM_BUFFER_LIMIT + 1) (97 : UInt8)).length := by
    rw [List.length_replicate]
    exact Nat.lt_succ_self _
  have hfit : ¬LinesFit (List.replicate (STREAM_BUFFER_LIMIT + 1) 97) := fun hfit =>
    (linesFit_rest hline).1 hfit hlong
  obtain ⟨after, hafter, hsplit⟩ := exists_overrun hfit
  rw [read_terminal_output_eq, List.flatten_singleton, arrived, if_pos rfl, taken, if_neg hfit, hsplit,
    before_overrun_rest hline hlong, from_utf8_lossy_nil] at h
  have hkept := (keeps_before_overrun hafter).1 h
  exact absurd hkept.1 (by simp [utf8])

end AgentSpace.Acp
