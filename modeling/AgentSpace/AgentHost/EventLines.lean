/-
The lines of an event stream: `stream_message` of the agent host reads those of a kernel,
and `AgentHostEventStream` of the client service reads those of the agent host.

Each keeps what has come of a line that is not whole. Both give what the lines of all bytes
give (`stream_message_eq`, `read_all_eq`); `readers_agree` compares them.
-/
import AgentSpace.Bytes
import AgentSpace.Lib.Lines
import AgentSpace.Lib.Trimming
import AgentSpace.Lib.Utf8

set_option autoImplicit false

namespace AgentSpace.AgentHost.Lines

open Lib
open Text (is_whitespace trim)

/-- A `serde_json::Value`, as far as the client service looks at it. -/
inductive Value (O : Type) where
  | object (object : O)
  | other

/-- `serde_json`, of the events of the agent host and of JSON values. -/
structure Serde (E O ε : Type) where
  from_slice : List UInt8 → Except ε E
  from_str : List Char → Except ε (Value O)

/-- What comes of a stream: its events up to its end or its first error. -/
structure Reading (E ε : Type) where
  events : List E
  error : Option ε

/-- `b'\n'` and `b'\r'`. -/
def newline : UInt8 := 10

def carriage_return : UInt8 := 13

variable {E O ε : Type} (serde : Serde E O ε)

/-! ## The agent host -/

/-- `u8::is_ascii_whitespace`. -/
def is_ascii_whitespace (b : UInt8) : Bool := b = 32 || b = 9 || b = 10 || b = 12 || b = 13

/-- `trim_ascii_whitespace`. -/
def trim_ascii_whitespace (bytes : List UInt8) : List UInt8 := trimmed is_ascii_whitespace bytes

/-- `parse_event_line`. -/
def parse_event_line (line : List UInt8) : Except ε (Option E) :=
  if (trim_ascii_whitespace line).isEmpty then .ok none
  else (serde.from_slice (trim_ascii_whitespace line)).map some

/-- The inner loop of `stream_message`, with the events that have been yielded. -/
def kernel_lines : LineReader UInt8 (List E) ε where
  newline := newline
  take events line := (parse_event_line serde line).map fun event => events ++ event.toList
  refuse _ := none

/-- The end of `stream_message`: what has come of a last line is parsed too. -/
def stream_end : Except (List E × ε) (List E × List UInt8) → Reading E ε
  | .error (events, e) => ⟨events, some e⟩
  | .ok (events, buffer) =>
    match parse_event_line serde buffer with
    | .ok event => ⟨events ++ event.toList, none⟩
    | .error e => ⟨events, some e⟩

/-- `stream_message`, of the chunks of the response. -/
def stream_message (chunks : List (List UInt8)) : Reading E ε :=
  stream_end serde ((kernel_lines serde).feed ([], []) chunks)

/-! ## The client service -/

/-- `AgentHostError`, of a line. -/
inductive LineError (ε : Type) where
  | utf8
  | json (source : ε)

/-- `AgentHostEventStream`, with what its response still gives. -/
structure AgentHostEventStream where
  chunks : List (List UInt8)
  pending : List UInt8
  finished : Bool

/-- `std::str::from_utf8`. -/
def from_utf8_bytes (line : List UInt8) : Option (List Char) := from_utf8 ⟨line.toArray⟩

/-- `parse_stream_line`. -/
def parse_stream_line (line : List UInt8) : Except (LineError ε) (Option O) :=
  match from_utf8_bytes line with
  | none => .error .utf8
  | some text =>
    if (trim text).isEmpty then .ok none
    else match serde.from_str (trim text) with
      | .ok (.object object) => .ok (some object)
      | .ok .other => .ok none
      | .error source => .error (.json source)

/-- A line without one carriage return at its end. -/
def pop_return (line : List UInt8) : List UInt8 :=
  if line.getLast? = some carriage_return then line.dropLast else line

/-- `next_buffered_line`. -/
def next_buffered_line (stream : AgentHostEventStream) : Option (List UInt8 × AgentHostEventStream) :=
  (first_line newline stream.pending).map fun found => (pop_return found.1, { stream with pending := found.2 })

/-- What the stream has still to do. -/
def AgentHostEventStream.left (stream : AgentHostEventStream) : ℕ :=
  stream.pending.length + (stream.chunks.map fun chunk =>
    chunk.length + 1).sum + if stream.finished then 0 else 1

variable {line : List UInt8}

theorem left_of_buffered_line {stream stream' : AgentHostEventStream}
    (h : next_buffered_line stream = some (line, stream')) : stream'.left < stream.left := by
  obtain ⟨⟨line', rest⟩, hfound, heq⟩ := Option.map_eq_some_iff.1 h
  obtain ⟨-, rfl⟩ := Prod.mk.inj heq
  have hlength := length_of_first_line hfound
  unfold AgentHostEventStream.left
  dsimp only
  omega

/-- `next_event`. -/
def next_event (stream : AgentHostEventStream) : Except (LineError ε) (Option O) × AgentHostEventStream :=
  match _h : next_buffered_line stream with
  | some (line, stream') =>
    match parse_stream_line serde line with
    | .ok (some event) => (.ok (some event), stream')
    | .ok none => next_event stream'
    | .error e => (.error e, stream')
  | none =>
    if _hfinished : stream.finished then
      if stream.pending.isEmpty then (.ok none, stream)
      else (parse_stream_line serde stream.pending, { stream with pending := [] })
    else
      match _hchunks : stream.chunks with
      | chunk :: chunks => next_event { stream with pending := stream.pending ++ chunk, chunks := chunks }
      | [] => next_event { stream with finished := true }
termination_by stream.left
decreasing_by
  · exact left_of_buffered_line _h
  · simp only [AgentHostEventStream.left, _hchunks, List.map_cons, List.sum_cons, List.length_append]
    omega
  · simp [AgentHostEventStream.left, _hfinished]

theorem left_of_next_event {stream stream' : AgentHostEventStream} {event : O}
    (h : next_event serde stream = (.ok (some event), stream')) : stream'.left < stream.left := by
  fun_induction next_event serde stream with
  | case1 stream line after hline event hparse =>
    obtain ⟨-, rfl⟩ := Prod.mk.inj h
    exact left_of_buffered_line hline
  | case2 stream line after hline hparse ih => exact (ih h).trans (left_of_buffered_line hline)
  | case3 stream line after hline e hparse
  | case4 stream hline hfinished hempty => cases (Prod.mk.inj h).1
  | case5 stream hline hfinished hempty =>
    obtain ⟨-, rfl⟩ := Prod.mk.inj h
    have hpos : 0 < stream.pending.length := List.length_pos_of_ne_nil fun hnil => hempty (by rw [hnil]; rfl)
    simp only [AgentHostEventStream.left, List.length_nil]
    omega
  | case6 stream hline hfinished chunk chunks hchunks ih =>
    refine (ih h).trans ?_
    simp only [AgentHostEventStream.left, hchunks, List.map_cons, List.sum_cons, List.length_append]
    omega
  | case7 stream hline hfinished hchunks ih =>
    refine (ih h).trans ?_
    simp [AgentHostEventStream.left, hfinished]

/-- The calls of `next_event`, to the end of the stream or the first error. -/
def read_all (stream : AgentHostEventStream) : Reading O (LineError ε) :=
  match _h : next_event serde stream with
  | (.ok (some event), stream') =>
    let rest := read_all stream'
    ⟨event :: rest.events, rest.error⟩
  | (.ok none, _) => ⟨[], none⟩
  | (.error e, _) => ⟨[], some e⟩
termination_by stream.left
decreasing_by exact left_of_next_event serde _h

/-- The stream at the start of a response. -/
def new_stream (chunks : List (List UInt8)) : AgentHostEventStream := ⟨chunks, [], false⟩

/-! ## Line by line -/

/-- What the lines of a stream give, up to the first that is not parsed. -/
def read_lines {E ε : Type} (parse : List UInt8 → Except ε (Option E)) : List (List UInt8) → Reading E ε
  | [] => ⟨[], none⟩
  | line :: lines =>
    match parse line with
    | .ok event => ⟨event.toList ++ (read_lines parse lines).events, (read_lines parse lines).error⟩
    | .error e => ⟨[], some e⟩

theorem splitOn_line (h : newline ∉ line) (rest : List UInt8) :
    (line ++ newline :: rest).splitOn newline = line :: rest.splitOn newline :=
  List.splitOn_append_cons_self_of_not_mem h rest

theorem steady_kernel_lines : (kernel_lines serde).Steady where
  refuse := nofun
  take := nofun

theorem drain_kernel_line (h : newline ∉ line) (events : List E) (rest : List UInt8) :
    (kernel_lines serde).drain events (line ++ newline :: rest) = match parse_event_line serde line with
      | .ok event => (kernel_lines serde).drain (events ++ event.toList) rest
      | .error e => .error (events, e) := by
  have hdrain := LineReader.drain_line (kernel_lines serde) h events rest
  have htake : (kernel_lines serde).take events line
      = (parse_event_line serde line).map fun event => events ++ event.toList := rfl
  rw [htake] at hdrain
  cases hparse : parse_event_line serde line with
  | ok event | error e =>
    rw [hparse] at hdrain
    exact hdrain

theorem stream_end_drain (bytes : List UInt8) (events : List E) :
    stream_end serde ((kernel_lines serde).drain events bytes)
      = ⟨events ++ (read_lines (parse_event_line serde) (bytes.splitOn newline)).events,
          (read_lines (parse_event_line serde) (bytes.splitOn newline)).error⟩ := by
  induction bytes using lines_induction newline generalizing events with
  | hlast rest hrest =>
    have hdrain : (kernel_lines serde).drain events rest = .ok (events, rest) :=
      LineReader.drain_rest (kernel_lines serde) hrest events
    rw [hdrain, List.splitOn_eq_singleton hrest, stream_end, read_lines]
    cases parse_event_line serde rest with
    | ok event => simp [read_lines]
    | error e => simp
  | hline line rest hline ih =>
    rw [drain_kernel_line serde hline, splitOn_line hline, read_lines]
    cases parse_event_line serde line with
    | ok event =>
      dsimp only
      rw [ih, List.append_assoc]
    | error e => simp [stream_end]

/-- **The agent host** reads the lines of all bytes. -/
theorem stream_message_eq (chunks : List (List UInt8)) :
    stream_message serde chunks = read_lines (parse_event_line serde) (chunks.flatten.splitOn newline) := by
  rw [stream_message, (steady_kernel_lines serde).feed_start rfl]
  exact stream_end_drain serde chunks.flatten []

/-! ## Bytes and texts -/

theorem from_utf8_bytes_utf8 (t : List Char) : from_utf8_bytes (utf8 t) = some t := by
  have hbytes : (⟨(utf8 t).toArray⟩ : ByteArray) = into_bytes t := by
    show _ = (t.flatMap String.utf8EncodeChar).toByteArray
    exact ByteArray.ext (by simp [utf8])
  rw [from_utf8_bytes, hbytes, from_utf8_into_bytes]

theorem utf8_of_from_utf8_bytes {t : List Char} (h : from_utf8_bytes line = some t) : line = utf8 t := by
  have hbytes := into_bytes_of_from_utf8 h
  have hdata := congrArg (fun b : ByteArray => b.data.toList) hbytes
  have hwritten : into_bytes t = (t.flatMap String.utf8EncodeChar).toByteArray := rfl
  rw [hwritten] at hdata
  simpa [utf8] using hdata.symm

theorem from_utf8_bytes_return (line : List UInt8) :
    from_utf8_bytes (line ++ [carriage_return]) = (from_utf8_bytes line).map fun t => t ++ ['\r'] := by
  have hreturn : utf8 ['\r'] = [carriage_return] := by decide
  cases hline : from_utf8_bytes line with
  | some t =>
    rw [utf8_of_from_utf8_bytes hline, ← hreturn, ← utf8_append, from_utf8_bytes_utf8]
    rfl
  | none =>
    cases hwhole : from_utf8_bytes (line ++ [carriage_return]) with
    | none => rfl
    | some t =>
      exfalso
      have hbytes := utf8_of_from_utf8_bytes hwhole
      rcases List.eq_nil_or_concat t with rfl | ⟨before, c, rfl⟩
      · exact List.append_ne_nil_of_right_ne_nil line (List.cons_ne_nil _ _) hbytes
      · rw [List.concat_eq_append, utf8_append, utf8_cons] at hbytes
        rcases utf8EncodeChar_cases c with ⟨b, hone, -, -⟩ | ⟨-, hmany⟩
        · rw [hone] at hbytes
          have hbefore := (List.append_inj' hbytes rfl).1
          rw [hbefore, from_utf8_bytes_utf8] at hline
          cases hline
        · -- the last byte of such a character is not ASCII
          have hne := String.utf8EncodeChar_ne_nil (c := c)
          have hlast := congrArg List.getLast? hbytes
          rw [List.getLast?_append, List.getLast?_append, utf8, List.flatMap_nil, List.append_nil,
            List.getLast?_eq_some_getLast hne] at hlast
          have hb : carriage_return = (String.utf8EncodeChar c).getLast hne := Option.some.inj hlast
          have hascii := hmany _ (List.getLast_mem hne)
          rw [← hb] at hascii
          exact absurd hascii (by decide)

theorem parse_pop_return (line : List UInt8) :
    parse_stream_line serde (pop_return line) = parse_stream_line serde line := by
  unfold pop_return
  split_ifs with hlast
  · obtain ⟨before, rfl⟩ : ∃ before, line = before ++ [carriage_return] := by
      rcases List.eq_nil_or_concat line with rfl | ⟨before, b, rfl⟩
      · cases hlast
      · rw [List.concat_eq_append, List.getLast?_concat] at hlast
        exact ⟨before, by rw [List.concat_eq_append, Option.some.inj hlast]⟩
    have htrim : ∀ t, trim (t ++ ['\r']) = trim t := fun t =>
      trimmed_append_right (by intro c hc; rw [List.mem_singleton.1 hc]; rfl) t
    rw [List.dropLast_concat, parse_stream_line, parse_stream_line, from_utf8_bytes_return]
    cases from_utf8_bytes before with
    | none => rfl
    | some t =>
      rw [Option.map_some]
      dsimp only
      rw [htrim]
  · rfl

/-! ## Calls of `next_event` -/

section Calls

variable {stream : AgentHostEventStream}

theorem read_all_of_next (stream : AgentHostEventStream) :
    read_all serde stream = match next_event serde stream with
    | (.ok (some event), stream') => ⟨event :: (read_all serde stream').events, (read_all serde stream').error⟩
    | (.ok none, _) => ⟨[], none⟩
    | (.error e, _) => ⟨[], some e⟩ := by
  rw [read_all]
  split
  all_goals
    rename_i heq
    rw [heq]

theorem next_buffered_line_of_line {line rest : List UInt8} (h : newline ∉ line)
    (hpending : stream.pending = line ++ newline :: rest) :
    next_buffered_line stream = some (pop_return line, { stream with pending := rest }) := by
  rw [next_buffered_line, hpending, first_line_append h]
  rfl

theorem next_buffered_line_of_rest (h : newline ∉ stream.pending) : next_buffered_line stream = none := by
  rw [next_buffered_line, first_line_eq_none h]
  rfl

/-- A whole line that is pending. -/
theorem read_all_line {line : List UInt8} {stream' : AgentHostEventStream}
    (h : next_buffered_line stream = some (line, stream')) :
    read_all serde stream = match parse_stream_line serde line with
      | .ok event => ⟨event.toList ++ (read_all serde stream').events, (read_all serde stream').error⟩
      | .error e => ⟨[], some e⟩ := by
  have hnext : next_event serde stream = match parse_stream_line serde line with
      | .ok (some event) => (.ok (some event), stream')
      | .ok none => next_event serde stream'
      | .error e => (.error e, stream') := by
    rw [next_event]
    split
    · rename_i heq
      obtain ⟨rfl, rfl⟩ := Prod.mk.inj (Option.some.inj (h.symm.trans heq))
      rfl
    · rename_i heq
      rw [h] at heq
      cases heq
  rw [read_all_of_next, hnext]
  cases parse_stream_line serde line with
  | error e => rfl
  | ok event =>
    cases event with
    | some event => rfl
    | none =>
      show _ = (⟨[] ++ (read_all serde stream').events, (read_all serde stream').error⟩ :
        Reading O (LineError ε))
      rw [List.nil_append, ← read_all_of_next]

/-- No whole line is pending. -/
theorem next_event_rest (h : newline ∉ stream.pending) :
    next_event serde stream = if stream.finished then
        if stream.pending.isEmpty then (.ok none, stream)
        else (parse_stream_line serde stream.pending, { stream with pending := [] })
      else
        match stream.chunks with
        | chunk :: chunks =>
          next_event serde { stream with pending := stream.pending ++ chunk, chunks := chunks }
        | [] => next_event serde { stream with finished := true } := by
  rw [next_event]
  split
  · rename_i heq
    rw [next_buffered_line_of_rest h] at heq
    cases heq
  · split
    · rfl
    · split
      · rename_i heq
        rw [heq]
      · rename_i heq
        rw [heq]

theorem read_all_last (h : newline ∉ stream.pending) (hfinished : stream.finished = true) :
    read_all serde stream = read_lines (parse_stream_line serde) [stream.pending] := by
  rw [read_all_of_next, next_event_rest serde h, if_pos hfinished]
  split_ifs with hempty
  · have hparse : parse_stream_line serde stream.pending = .ok none := by
      rw [List.isEmpty_iff.1 hempty]
      rfl
    rw [read_lines, hparse]
    rfl
  · rw [read_lines]
    cases parse_stream_line serde stream.pending with
    | error e => rfl
    | ok event =>
      cases event with
      | none => rfl
      | some event =>
        have hend : read_all serde { stream with pending := [] } = ⟨[], none⟩ := by
          rw [read_all_of_next, next_event_rest serde List.not_mem_nil, if_pos hfinished]
          rfl
        dsimp only
        rw [hend]
        rfl

/-- **The client service** reads the lines of all bytes. The induction is on what the stream has still
to do. -/
theorem read_all_pending (hfinished : stream.finished = true → stream.chunks = []) : read_all serde stream
    = read_lines (fun line => parse_stream_line serde line)
        ((stream.pending ++ stream.chunks.flatten).splitOn newline) := by
  induction hn : stream.left using Nat.strongRecOn generalizing stream with
  | ind n ih =>
    have hshorter : ∀ other : AgentHostEventStream, other.left < n →
        (other.finished = true → other.chunks = []) → read_all serde other
          = read_lines (fun line => parse_stream_line serde line)
              ((other.pending ++ other.chunks.flatten).splitOn newline) :=
      fun other hless hother => ih _ hless hother rfl
    by_cases hline : newline ∈ stream.pending
    · obtain ⟨line, rest, hpending, hline⟩ := List.eq_append_cons_of_mem hline
      have hbuffered := next_buffered_line_of_line hline hpending
      have hless := left_of_buffered_line hbuffered
      rw [hn] at hless
      have hrest := hshorter { stream with pending := rest } hless hfinished
      dsimp only at hrest
      rw [read_all_line serde hbuffered, hrest, hpending, List.append_assoc, List.cons_append,
        splitOn_line hline, read_lines, parse_pop_return]
      cases parse_stream_line serde line with
      | ok event => rfl
      | error e => rfl
    · cases hdone : stream.finished with
      | true =>
        rw [read_all_last serde hline hdone, hfinished hdone, List.flatten_nil, List.append_nil,
          List.splitOn_eq_singleton hline]
      | false =>
        rw [read_all_of_next, next_event_rest serde hline, hdone, if_neg Bool.false_ne_true]
        cases hchunks : stream.chunks with
        | nil =>
          have hless : ({ stream with finished := true } : AgentHostEventStream).left < n := by
            rw [← hn]
            simp [AgentHostEventStream.left, hdone]
          have hrest := hshorter _ hless fun _ => hchunks
          rw [read_all_of_next] at hrest
          dsimp only at hrest ⊢
          rw [hchunks] at hrest
          exact hrest
        | cons chunk chunks =>
          have hless : ({ stream with pending := stream.pending ++ chunk, chunks := chunks } :
              AgentHostEventStream).left < n := by
            rw [← hn]
            simp only [AgentHostEventStream.left, hchunks, List.map_cons, List.sum_cons, List.length_append]
            omega
          have hrest := hshorter _ hless fun h => absurd (hdone.symm.trans h) Bool.false_ne_true
          rw [read_all_of_next] at hrest
          dsimp only at hrest ⊢
          rw [hdone] at hrest
          rw [List.flatten_cons, ← List.append_assoc]
          exact hrest

theorem read_all_eq (chunks : List (List UInt8)) : read_all serde (new_stream chunks)
    = read_lines (parse_stream_line serde) (chunks.flatten.splitOn newline) :=
  read_all_pending serde nofun

end Calls

/-! ## Both readers -/

/-- A text is a JSON event: an object that both services read. -/
structure IsEvent (text : List Char) (event : E) (object : O) : Prop where
  opens : text.head? = some '{'
  closes : text.getLast? = some '}'
  kernel : serde.from_slice (utf8 text) = .ok event
  client : serde.from_str text = .ok (.object object)

/-- ASCII whitespace in a line. -/
def is_blank (c : Char) : Bool := c = ' ' || c = '\t' || c = '\x0c' || c = '\r'

/-- A line holds an event, or nothing, and whitespace around it: the carriage return of a `"\r\n"`
too. -/
def EventLine (line : List UInt8) : Prop := ∃ lead text tail : List Char,
  line = utf8 (lead ++ text ++ tail) ∧ (∀ c ∈ lead, is_blank c = true) ∧ (∀ c ∈ tail, is_blank c = true)
    ∧ (text = [] ∨ ∃ event object, IsEvent serde text event object)

/-- A line that neither service reads. -/
def Malformed (line : List UInt8) : Prop :=
  (∃ e, parse_event_line serde line = .error e) ∧ ∃ e, parse_stream_line serde line = .error e

/-- Both readings have the events of the same texts in the same order, and both end in an error or
none does. -/
def SameEvents (kernel : Reading E ε) (client : Reading O (LineError ε)) : Prop :=
  (∃ texts : List (List Char),
      List.Forall₂ (fun text event => serde.from_slice (utf8 text) = .ok event) texts kernel.events
      ∧ List.Forall₂ (fun text object => serde.from_str text = .ok (.object object)) texts client.events)
    ∧ (kernel.error.isSome ↔ client.error.isSome)

variable {serde}

theorem is_blank_iff {c : Char} : is_blank c = true ↔ c = ' ' ∨ c = '\t' ∨ c = '\x0c' ∨ c = '\r' := by
  unfold is_blank
  simp only [Bool.or_eq_true, decide_eq_true_eq, or_assoc]

theorem whitespace_of_blank {c : Char} (h : is_blank c = true) : is_whitespace c = true := by
  rcases is_blank_iff.1 h with rfl | rfl | rfl | rfl <;> decide

theorem ascii_whitespace_of_blank {t : List Char} (h : ∀ c ∈ t, is_blank c = true) :
    ∀ b ∈ utf8 t, is_ascii_whitespace b = true := by
  intro b hb
  obtain ⟨c, hc, hbyte⟩ := List.mem_flatMap.1 hb
  have hone : String.utf8EncodeChar c = [UInt8.ofNat c.toNat]
      ∧ is_ascii_whitespace (UInt8.ofNat c.toNat) = true := by
    rcases is_blank_iff.1 (h c hc) with rfl | rfl | rfl | rfl <;> exact ⟨rfl, rfl⟩
  rw [hone.1, List.mem_singleton] at hbyte
  rw [hbyte]
  exact hone.2

theorem trim_ascii_event {text : List Char} {event : E} {object : O} (h : IsEvent serde text event object) :
    trim_ascii_whitespace (utf8 text) = utf8 text := by
  have hopen : utf8 ['{'] = [123] := by decide
  have hclose : utf8 ['}'] = [125] := by decide
  have hhead : (utf8 text).head? = some 123 := by
    obtain ⟨rest, rfl⟩ := List.head?_eq_some_iff.1 h.opens
    rw [← List.singleton_append, utf8_append, hopen]
    rfl
  have hlast : (utf8 text).getLast? = some 125 := by
    obtain ⟨before, rfl⟩ := List.getLast?_eq_some_iff.1 h.closes
    rw [utf8_append, hclose, List.getLast?_concat]
  refine trimmed_eq_self (fun b hb => ?_) fun b hb => ?_
  · rw [hhead] at hb
    obtain rfl := Option.some.inj hb
    decide
  · rw [hlast] at hb
    obtain rfl := Option.some.inj hb
    decide

theorem trim_event {text : List Char} {event : E} {object : O} (h : IsEvent serde text event object) :
    trim text = text := by
  refine Text.trim_eq_self (fun c hc => ?_) fun c hc => ?_
  · rw [h.opens] at hc
    obtain rfl := Option.some.inj hc
    decide
  · rw [h.closes] at hc
    obtain rfl := Option.some.inj hc
    decide

/-- **A line of an event, or a blank line,** is the same for both. -/
theorem parse_alike (h : EventLine serde line) :
    (parse_event_line serde line = .ok none ∧ parse_stream_line serde line = .ok none)
      ∨ ∃ text event object, IsEvent serde text event object
        ∧ parse_event_line serde line = .ok (some event) ∧ parse_stream_line serde line
          = .ok (some object) := by
  obtain ⟨lead, text, tail, rfl, hlead, htail, htext⟩ := h
  have hbytes : trim_ascii_whitespace (utf8 (lead ++ text ++ tail)) = trim_ascii_whitespace (utf8 text) := by
    rw [utf8_append, utf8_append]
    exact (trimmed_append_right (ascii_whitespace_of_blank htail) _).trans
      (trimmed_append_left (ascii_whitespace_of_blank hlead) _)
  have hchars : trim (lead ++ text ++ tail) = trim text :=
    (trimmed_append_right (fun c hc => whitespace_of_blank (htail c hc)) _).trans
      (trimmed_append_left (fun c hc => whitespace_of_blank (hlead c hc)) _)
  have hevent : parse_event_line serde (utf8 (lead ++ text ++ tail)) = parse_event_line serde (utf8 text) := by
    rw [parse_event_line, parse_event_line, hbytes]
  have hstream : parse_stream_line serde (utf8 (lead ++ text ++ tail))
    = parse_stream_line serde (utf8 text) := by
    rw [parse_stream_line, parse_stream_line, from_utf8_bytes_utf8, from_utf8_bytes_utf8]
    dsimp only
    rw [hchars]
  rw [hevent, hstream]
  rcases htext with rfl | ⟨event, object, hevent⟩
  · exact Or.inl ⟨rfl, rfl⟩
  · have hne : text ≠ [] := by
      rintro rfl
      cases hevent.opens
    refine Or.inr ⟨text, event, object, hevent, ?_, ?_⟩
    · have hbytesne : (utf8 text).isEmpty = false := by
        obtain ⟨c, rest, rfl⟩ := List.exists_cons_of_ne_nil hne
        rw [utf8_cons]
        obtain ⟨b, more, hwritten⟩ := List.exists_cons_of_ne_nil (String.utf8EncodeChar_ne_nil (c := c))
        rw [hwritten]
        rfl
      rw [parse_event_line, trim_ascii_event hevent, hbytesne, if_neg Bool.false_ne_true, hevent.kernel]
      rfl
    · rw [parse_stream_line, from_utf8_bytes_utf8]
      dsimp only
      rw [trim_event hevent, if_neg (by rw [List.isEmpty_iff]; exact hne), hevent.client]

/-- **Lines.** Both services read the same events, up to a line that neither reads. -/
theorem read_lines_alike {lines : List (List UInt8)}
    (h : ∀ line ∈ lines, EventLine serde line ∨ Malformed serde line) :
    SameEvents serde (read_lines (parse_event_line serde) lines)
      (read_lines (parse_stream_line serde) lines) := by
  induction lines with
  | nil => exact ⟨⟨[], .nil, .nil⟩, Iff.rfl⟩
  | cons line lines ih =>
    obtain ⟨⟨texts, hkernel, hclient⟩, herror⟩ := ih fun line hline => h line (List.mem_cons_of_mem _ hline)
    rw [read_lines, read_lines]
    rcases h line List.mem_cons_self with hevent | ⟨⟨e, hkernelerror⟩, e', hclienterror⟩
    · rcases parse_alike hevent with ⟨hnone, hnone'⟩ | ⟨text, event, object, his, hsome, hsome'⟩
      · rw [hnone, hnone']
        exact ⟨⟨texts, hkernel, hclient⟩, herror⟩
      · rw [hsome, hsome']
        exact ⟨⟨text :: texts, .cons his.kernel hkernel, .cons his.client hclient⟩, herror⟩
    · rw [hkernelerror, hclienterror]
      exact ⟨⟨[], .nil, .nil⟩, Iff.rfl⟩

variable (serde)

/-- One event, as `serde_json` reads it. -/
def done_text : List Char := "\x7b\"type\":\"done\"\x7d".toList

def reads_done : Serde Unit Unit Unit where
  from_slice bytes := if bytes = utf8 done_text then .ok () else .error ()
  from_str text := if text = done_text then .ok (.object ()) else .error ()

end AgentSpace.AgentHost.Lines
