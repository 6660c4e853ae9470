/-
The `/v1/run` streaming wire protocol: `memory_rs/src/run_stream.rs`, with
`RunOutcome` of `command_runner.rs`.

A frame is a tag, a big-endian length and a payload, and the decoder is a
`Lib.Framing` (`frame_decoder_reads`). A chunk is cut to the limit of a payload,
while a terminal frame is written whatever the length of its message is, and the
decoder turns a longer one down.
-/
import AgentSpace.Bytes
import AgentSpace.Lib.Incremental
import AgentSpace.Memory.Path

set_option autoImplicit false

namespace AgentSpace.Memory

open Text Lib

/-- `RunOutcome`. -/
inductive RunOutcome where
  | Exited (code : Int32)
  | TimedOut
  | OutputLimitExceeded
  | Cancelled
  | NotAllowed (command : Text)
  | LaunchFailed (message : Text)
  deriving DecidableEq

/-- `RunFrame`. -/
inductive RunFrame where
  | Stdout (payload : List UInt8)
  | Stderr (payload : List UInt8)
  | Terminal (outcome : RunOutcome)
  deriving DecidableEq

/-- `RunFrame::is_terminal`. -/
def RunFrame.is_terminal : RunFrame → Bool
  | .Terminal _ => true
  | _ => false

/-! ## Constants -/

/-- `FRAME_HEADER_LEN`. -/
def FRAME_HEADER_LEN : ℕ := 5
/-- `MAX_FRAME_PAYLOAD_BYTES`. -/
def MAX_FRAME_PAYLOAD_BYTES : ℕ := 1024 * 1024

def TAG_STDOUT : UInt8 := 0x00
def TAG_STDERR : UInt8 := 0x01
def TAG_EXITED : UInt8 := 0x02
def TAG_TIMED_OUT : UInt8 := 0x03
def TAG_OUTPUT_LIMIT_EXCEEDED : UInt8 := 0x04
def TAG_CANCELLED : UInt8 := 0x05
def TAG_LAUNCH_FAILED : UInt8 := 0x06
def TAG_NOT_ALLOWED : UInt8 := 0x07

/-! ## Big-endian integers -/

/-- `u32::to_be_bytes`. -/
def to_be_bytes (n : UInt32) : List UInt8 :=
  [UInt8.ofNat (n.toNat / 2 ^ 24), UInt8.ofNat (n.toNat / 2 ^ 16), UInt8.ofNat (n.toNat / 2 ^ 8),
    UInt8.ofNat n.toNat]

/-- `u32::from_be_bytes`. -/
def from_be_bytes (bytes : List UInt8) : UInt32 :=
  UInt32.ofNat (bytes.foldl (fun n byte => n * 2 ^ 8 + byte.toNat) 0)

@[simp] theorem to_be_bytes_length (n : UInt32) : (to_be_bytes n).length = 4 := rfl

@[simp] theorem from_be_bytes_to_be_bytes (n : UInt32) : from_be_bytes (to_be_bytes n) = n := by
  apply UInt32.toNat_inj.1
  have hn : n.toNat < 4294967296 := n.toNat_lt
  simp only [from_be_bytes, to_be_bytes, List.foldl_cons, List.foldl_nil, UInt8.toNat_ofNat',
    UInt32.toNat_ofNat']
  omega

/-! ## Encoding -/

/-- `u32::try_from(length).unwrap_or(MAX_FRAME_PAYLOAD_BYTES)`. -/
def frame_length (length : ℕ) : UInt32 :=
  if length < 2 ^ 32 then UInt32.ofNat length else UInt32.ofNat MAX_FRAME_PAYLOAD_BYTES

/-- The bytes of a text. -/
def text_bytes (t : Text) : List UInt8 := (into_bytes t).data.toList

/-- `encode_chunk`. -/
def encode_chunk (tag : UInt8) (payload : List UInt8) : List UInt8 :=
  let payload :=
    if payload.length > MAX_FRAME_PAYLOAD_BYTES then payload.take MAX_FRAME_PAYLOAD_BYTES
    else payload
  tag :: (to_be_bytes (frame_length payload.length) ++ payload)

/-- The tag and the payload of a terminal frame. -/
def terminal_parts : RunOutcome → UInt8 × List UInt8
  | .Exited code => (TAG_EXITED, to_be_bytes code.toUInt32)
  | .TimedOut => (TAG_TIMED_OUT, [])
  | .OutputLimitExceeded => (TAG_OUTPUT_LIMIT_EXCEEDED, [])
  | .Cancelled => (TAG_CANCELLED, [])
  | .LaunchFailed message => (TAG_LAUNCH_FAILED, text_bytes message)
  | .NotAllowed command => (TAG_NOT_ALLOWED, text_bytes command)

/-- `encode_terminal`. -/
def encode_terminal (outcome : RunOutcome) : List UInt8 :=
  let (tag, payload) := terminal_parts outcome
  tag :: (to_be_bytes (frame_length payload.length) ++ payload)

/-- The bytes of a frame. -/
def frame_bytes (tag : UInt8) (payload : List UInt8) : List UInt8 :=
  tag :: (to_be_bytes (frame_length payload.length) ++ payload)

theorem frame_length_toNat {length : ℕ} (h : length < 2 ^ 32) : (frame_length length).toNat = length := by
  rw [frame_length, if_pos h, UInt32.toNat_ofNat']
  exact Nat.mod_eq_of_lt h

@[simp] theorem frame_bytes_length (tag : UInt8) (payload : List UInt8) :
    (frame_bytes tag payload).length = FRAME_HEADER_LEN + payload.length := by
  simp only [frame_bytes, FRAME_HEADER_LEN, List.length_cons, List.length_append,
    to_be_bytes_length]
  omega

theorem frame_bytes_header (tag : UInt8) (payload rest : List UInt8) :
    from_be_bytes (((frame_bytes tag payload ++ rest).take FRAME_HEADER_LEN).drop 1)
      = frame_length payload.length := by
  have : ((frame_bytes tag payload ++ rest).take FRAME_HEADER_LEN).drop 1
      = to_be_bytes (frame_length payload.length) := rfl
  rw [this, from_be_bytes_to_be_bytes]

theorem encode_chunk_eq {tag : UInt8} {payload : List UInt8}
    (h : payload.length ≤ MAX_FRAME_PAYLOAD_BYTES) :
    encode_chunk tag payload = frame_bytes tag payload := by
  unfold encode_chunk
  rw [if_neg (by omega)]
  rfl

/-! ## Decoding -/

/-- `decode_i32`. -/
def decode_i32 (payload : List UInt8) : Except MemoryError Int32 :=
  if payload.length = 4 then .ok (from_be_bytes payload).toInt32
  else .error (.MalformedResponse
    s!"run stream exit frame carried {payload.length} bytes, expected 4")

/-- `decode_utf8`. The error goes on with the library's description. -/
def decode_utf8 (payload : List UInt8) : Except MemoryError Text :=
  ok_or (from_utf8 ⟨payload.toArray⟩)
    (.MalformedResponse "run stream frame carried invalid UTF-8: ")

/-- The frame of a tag and a payload. -/
def decode_frame (tag : UInt8) (payload : List UInt8) : Except MemoryError RunFrame :=
  if tag = TAG_STDOUT then .ok (.Stdout payload)
  else if tag = TAG_STDERR then .ok (.Stderr payload)
  else if tag = TAG_EXITED then (decode_i32 payload).map fun code => .Terminal (.Exited code)
  else if tag = TAG_TIMED_OUT then .ok (.Terminal .TimedOut)
  else if tag = TAG_OUTPUT_LIMIT_EXCEEDED then .ok (.Terminal .OutputLimitExceeded)
  else if tag = TAG_CANCELLED then .ok (.Terminal .Cancelled)
  else if tag = TAG_LAUNCH_FAILED then
    (decode_utf8 payload).map fun message => .Terminal (.LaunchFailed message)
  else if tag = TAG_NOT_ALLOWED then
    (decode_utf8 payload).map fun command => .Terminal (.NotAllowed command)
  else .error (.MalformedResponse
    s!"run stream frame used unrecognized tag 0x{String.ofList (hex_byte tag)}")

/-- `FrameDecoder`. -/
structure FrameDecoder where
  buffer : List UInt8
  terminated : Bool

namespace FrameDecoder

/-- `FrameDecoder::new`. -/
def new : FrameDecoder := { buffer := [], terminated := false }

/-- `FrameDecoder::push`. -/
def push (d : FrameDecoder) (bytes : List UInt8) : FrameDecoder :=
  { d with buffer := d.buffer ++ bytes }

/-- `FrameDecoder::next_frame`. -/
def next_frame (d : FrameDecoder) : Except MemoryError (Option RunFrame) × FrameDecoder :=
  if d.terminated ∨ d.buffer.length < FRAME_HEADER_LEN then (.ok none, d)
  else
    let tag := d.buffer.headD 0
    let length := (from_be_bytes ((d.buffer.take FRAME_HEADER_LEN).drop 1)).toNat
    if length > MAX_FRAME_PAYLOAD_BYTES then
      (.error (.MalformedResponse
        s!"run stream frame declared a {length}-byte payload, exceeding the {MAX_FRAME_PAYLOAD_BYTES}-byte limit"),
        d)
    else
      let total := FRAME_HEADER_LEN + length
      if d.buffer.length < total then (.ok none, d)
      else
        let payload := (d.buffer.take total).drop FRAME_HEADER_LEN
        let drained := { d with buffer := d.buffer.drop total }
        match decode_frame tag payload with
        | .error e => (.error e, drained)
        | .ok frame =>
          (.ok (some frame), { drained with terminated := d.terminated || frame.is_terminal })

/-- What a call that gives a frame has found in the buffer: a payload within the
limit that decodes to it. -/
theorem next_frame_some {d d' : FrameDecoder} {frame : RunFrame}
    (h : d.next_frame = (.ok (some frame), d')) :
    ∃ tag payload, payload.length ≤ MAX_FRAME_PAYLOAD_BYTES
      ∧ decode_frame tag payload = .ok frame ∧ d'.buffer.length < d.buffer.length := by
  unfold next_frame at h
  by_cases hshort : d.terminated = true ∨ d.buffer.length < FRAME_HEADER_LEN
  · rw [if_pos hshort] at h
    cases h
  · rw [if_neg hshort] at h
    have hheader : 5 ≤ d.buffer.length := by
      rw [FRAME_HEADER_LEN] at hshort
      omega
    set length := (from_be_bytes ((d.buffer.take FRAME_HEADER_LEN).drop 1)).toNat
    by_cases hlong : length > MAX_FRAME_PAYLOAD_BYTES
    · simp only [hlong, if_true] at h
      cases h
    · by_cases htotal : d.buffer.length < FRAME_HEADER_LEN + length
      · simp only [hlong, htotal, if_true, if_false] at h
        cases h
      · simp only [hlong, htotal, if_false] at h
        cases hframe : decode_frame (d.buffer.headD 0)
            ((d.buffer.take (FRAME_HEADER_LEN + length)).drop FRAME_HEADER_LEN) with
        | error e =>
          rw [hframe] at h
          cases h
        | ok f =>
          rw [hframe] at h
          obtain ⟨rfl, rfl⟩ : f = frame ∧ _ = d' := by simpa using h
          refine ⟨_, _, ?_, hframe, ?_⟩
          · simp only [FRAME_HEADER_LEN, List.length_drop, List.length_take]
            omega
          · simp only [FRAME_HEADER_LEN, List.length_drop]
            omega

/-- On a whole frame at the front of the buffer. -/
theorem next_frame_whole {d : FrameDecoder} {tag : UInt8} {payload rest : List UInt8}
    (hopen : d.terminated = false) (hfits : payload.length ≤ MAX_FRAME_PAYLOAD_BYTES)
    (hbuffer : d.buffer = frame_bytes tag payload ++ rest) :
    d.next_frame = match decode_frame tag payload with
      | .error e => (.error e, { d with buffer := rest })
      | .ok frame => (.ok (some frame), { buffer := rest, terminated := frame.is_terminal }) := by
  have hmax : MAX_FRAME_PAYLOAD_BYTES < 2 ^ 32 := by decide
  have hlength : d.buffer.length = FRAME_HEADER_LEN + payload.length + rest.length := by
    rw [hbuffer]
    simp only [List.length_append, frame_bytes_length]
  have htag : d.buffer.headD 0 = tag := by rw [hbuffer]; rfl
  have hdeclared : (from_be_bytes ((d.buffer.take FRAME_HEADER_LEN).drop 1)).toNat
      = payload.length := by
    rw [hbuffer, frame_bytes_header, frame_length_toNat (by omega)]
  have hpayload : (d.buffer.take (FRAME_HEADER_LEN + payload.length)).drop FRAME_HEADER_LEN
      = payload := by
    rw [hbuffer, ← frame_bytes_length tag, List.take_left]
    rfl
  have hrest : d.buffer.drop (FRAME_HEADER_LEN + payload.length) = rest := by
    rw [hbuffer, ← frame_bytes_length tag, List.drop_left]
  unfold next_frame
  rw [if_neg (by simp only [hopen, Bool.false_eq_true, false_or]; omega)]
  simp only [htag, hdeclared]
  rw [if_neg (by omega), if_neg (by omega), hpayload, hrest]
  cases decode_frame tag payload with
  | error e => rfl
  | ok frame => simp [hopen]

/-- On a frame that is cut off. -/
theorem next_frame_cut_off {d : FrameDecoder} {tag : UInt8} {payload : List UInt8}
    (hopen : d.terminated = false) (hfits : payload.length ≤ MAX_FRAME_PAYLOAD_BYTES)
    (hpre : d.buffer <+: frame_bytes tag payload) (hne : d.buffer ≠ frame_bytes tag payload) :
    d.next_frame = (.ok none, d) := by
  have hmax : MAX_FRAME_PAYLOAD_BYTES < 2 ^ 32 := by decide
  have hshorter : d.buffer.length < FRAME_HEADER_LEN + payload.length := by
    rw [← frame_bytes_length tag]
    exact lt_of_le_of_ne hpre.length_le fun h => hne (hpre.eq_of_length h)
  unfold next_frame
  by_cases hheader : d.buffer.length < FRAME_HEADER_LEN
  · rw [if_pos (Or.inr hheader)]
  · have hdeclared : (from_be_bytes ((d.buffer.take FRAME_HEADER_LEN).drop 1)).toNat
        = payload.length := by
      obtain ⟨tail, htail⟩ := hpre
      have htake : d.buffer.take FRAME_HEADER_LEN
          = (frame_bytes tag payload).take FRAME_HEADER_LEN := by
        rw [← htail, List.take_append_of_le_length (by omega)]
      have := frame_bytes_header tag payload []
      rw [List.append_nil] at this
      rw [htake, this, frame_length_toNat (by omega)]
    rw [if_neg (by simp only [hopen, Bool.false_eq_true, false_or]; omega)]
    simp only [hdeclared]
    rw [if_neg (by omega), if_pos hshorter]

/-- The decoder as the client drives it. -/
def framing : Framing FrameDecoder UInt8 RunFrame MemoryError where
  push := push
  next := next_frame
  terminated := terminated
  size d := d.buffer.length
  next_size h := by
    obtain ⟨-, -, -, -, hsize⟩ := next_frame_some h
    exact hsize

end FrameDecoder

/-! ## What the decoder reads -/

/-- The tag and the payload of a frame. -/
def RunFrame.parts : RunFrame → UInt8 × List UInt8
  | .Stdout payload => (TAG_STDOUT, payload)
  | .Stderr payload => (TAG_STDERR, payload)
  | .Terminal outcome => terminal_parts outcome

/-- The bytes of a frame. -/
def RunFrame.encode (frame : RunFrame) : List UInt8 := frame_bytes frame.parts.1 frame.parts.2

/-- The payload of the frame is within the limit of the decoder. -/
def RunFrame.Fits (frame : RunFrame) : Prop := frame.parts.2.length ≤ MAX_FRAME_PAYLOAD_BYTES

theorem from_utf8_text_bytes (t : Text) : from_utf8 ⟨(text_bytes t).toArray⟩ = some t := by
  have : (⟨(text_bytes t).toArray⟩ : Bytes) = into_bytes t := by simp [text_bytes]
  rw [this, from_utf8_into_bytes]

theorem text_bytes_length (t : Text) : (text_bytes t).length = utf8_len t := by
  rw [← size_into_bytes]
  rfl

theorem decode_frame_parts (frame : RunFrame) : decode_frame frame.parts.1 frame.parts.2 = .ok frame := by
  cases frame with
  | Stdout payload => rfl
  | Stderr payload => rfl
  | Terminal outcome =>
    cases outcome with
    | Exited code =>
      have hcode : decode_i32 (to_be_bytes code.toUInt32) = .ok code := by
        rw [decode_i32, if_pos (to_be_bytes_length _), from_be_bytes_to_be_bytes,
          Int32.toInt32_toUInt32]
      have hframe : ∀ payload, decode_frame TAG_EXITED payload
          = (decode_i32 payload).map fun code => .Terminal (.Exited code) := fun _ => rfl
      rw [RunFrame.parts, terminal_parts, hframe, hcode]
      rfl
    | TimedOut | OutputLimitExceeded | Cancelled => rfl
    | NotAllowed command =>
      have hcommand : decode_utf8 (text_bytes command) = .ok command := by
        rw [decode_utf8, from_utf8_text_bytes, ok_or_some]
      show (decode_utf8 (text_bytes command)).map _ = _
      rw [hcommand]
      rfl
    | LaunchFailed message =>
      have hmessage : decode_utf8 (text_bytes message) = .ok message := by
        rw [decode_utf8, from_utf8_text_bytes, ok_or_some]
      show (decode_utf8 (text_bytes message)).map _ = _
      rw [hmessage]
      rfl

theorem frame_decoder_reads :
    FrameDecoder.framing.Reads FrameDecoder.buffer RunFrame.encode RunFrame.is_terminal
      RunFrame.Fits where
  push_buffer _ _ := rfl
  push_terminated _ _ := rfl
  closed d hd := by
    show d.next_frame = _
    unfold FrameDecoder.next_frame
    exact if_pos (Or.inl hd)
  whole d frame rest hfits hopen hbuffer := by
    refine ⟨{ buffer := rest, terminated := frame.is_terminal }, ?_, rfl, rfl⟩
    show d.next_frame = _
    rw [FrameDecoder.next_frame_whole hopen hfits hbuffer, decode_frame_parts]
  cut_off _ _ hfits hopen hpre hne := FrameDecoder.next_frame_cut_off hopen hfits hpre hne

theorem text_bytes_of_decode_utf8 {payload : List UInt8} {t : Text} (h : decode_utf8 payload = .ok t) :
    text_bytes t = payload := by
  cases hfrom : from_utf8 ⟨payload.toArray⟩ with
  | none => simp [decode_utf8, hfrom] at h
  | some u =>
    obtain rfl : u = t := by simpa [decode_utf8, hfrom] using h
    rw [text_bytes, into_bytes_of_from_utf8 hfrom]

theorem fits_of_decode_frame {tag : UInt8} {payload : List UInt8} {frame : RunFrame}
    (hpayload : payload.length ≤ MAX_FRAME_PAYLOAD_BYTES)
    (h : decode_frame tag payload = .ok frame) : frame.Fits := by
  have hutf8 : ∀ {t : Text}, decode_utf8 payload = .ok t →
      (text_bytes t).length ≤ MAX_FRAME_PAYLOAD_BYTES := fun ht =>
    (text_bytes_of_decode_utf8 ht).symm ▸ hpayload
  unfold decode_frame at h
  split_ifs at h with h0 h1 h2 h3 h4 h5 h6 h7
  · cases h
    exact hpayload
  · cases h
    exact hpayload
  · obtain ⟨code, -, rfl⟩ := map_eq_ok.1 h
    show (to_be_bytes code.toUInt32).length ≤ _
    rw [to_be_bytes_length]
    decide
  · cases h
    exact Nat.zero_le _
  · cases h
    exact Nat.zero_le _
  · cases h
    exact Nat.zero_le _
  · obtain ⟨message, hmessage, rfl⟩ := map_eq_ok.1 h
    exact hutf8 hmessage
  · obtain ⟨command, hcommand, rfl⟩ := map_eq_ok.1 h
    exact hutf8 hcommand

variable {pieces : List (List UInt8)}

theorem fits_of_feed {d : FrameDecoder} {frame : RunFrame}
    (h : frame ∈ Framing.frames (FrameDecoder.framing.feed d pieces)) : frame.Fits := by
  obtain ⟨e, e', hnext⟩ := FrameDecoder.framing.frame_of_feed h
  obtain ⟨tag, payload, hpayload, hframe, -⟩ := FrameDecoder.next_frame_some hnext
  exact fits_of_decode_frame hpayload hframe

/-! ## Round trip -/

/-- Where a chunk of output comes from. -/
inductive Output where
  | stdout
  | stderr
  deriving DecidableEq

/-- The tag `encode_chunk` is called with. -/
def Output.tag : Output → UInt8
  | .stdout => TAG_STDOUT
  | .stderr => TAG_STDERR

/-- The frame of a chunk. -/
def Output.frame : Output → List UInt8 → RunFrame
  | .stdout, payload => .Stdout payload
  | .stderr, payload => .Stderr payload

/-- The body of a response: the chunks, and the outcome. -/
def run_stream (chunks : List (Output × List UInt8)) (outcome : RunOutcome) : List UInt8 :=
  (chunks.flatMap fun chunk => encode_chunk chunk.1.tag chunk.2) ++ encode_terminal outcome

/-- The frames of a response. -/
def run_frames (chunks : List (Output × List UInt8)) (outcome : RunOutcome) : List RunFrame :=
  (chunks.map fun chunk => chunk.1.frame chunk.2) ++ [.Terminal outcome]

/-- The calls that a client makes on a new decoder give the frames in order and
without an error, and the decoder has terminated after a call exactly when the
last frame has been given. -/
structure Delivers (pieces : List (List UInt8)) (frames : List RunFrame) : Prop where
  no_error : ∀ call ∈ FrameDecoder.framing.feed .new pieces, call.answer.isOk = true
  frames_eq : Framing.frames (FrameDecoder.framing.feed .new pieces) = frames
  terminated_iff : ∀ before call after,
    FrameDecoder.framing.feed .new pieces = before ++ call :: after →
      (call.terminated = true ↔ Framing.frames (before ++ [call]) = frames)

variable {chunks : List (Output × List UInt8)} {outcome : RunOutcome}

theorem run_stream_eq (hchunks : ∀ chunk ∈ chunks, chunk.2.length ≤ MAX_FRAME_PAYLOAD_BYTES) :
    run_stream chunks outcome = (run_frames chunks outcome).flatMap RunFrame.encode := by
  have hterminal : encode_terminal outcome = (RunFrame.Terminal outcome).encode := rfl
  rw [run_stream, run_frames, List.flatMap_append, List.flatMap_singleton, hterminal,
    List.flatMap_map]
  congr 1
  refine List.flatMap_congr fun chunk hchunk => ?_
  rw [encode_chunk_eq (hchunks chunk hchunk)]
  obtain ⟨output, payload⟩ := chunk
  cases output <;> rfl

theorem run_frames_stops_last (chunks : List (Output × List UInt8)) (outcome : RunOutcome) :
    Framing.StopsLast RunFrame.is_terminal (run_frames chunks outcome) := by
  induction chunks with
  | nil => exact ⟨rfl, trivial⟩
  | cons chunk chunks ih =>
    refine ⟨?_, ih⟩
    obtain ⟨output, payload⟩ := chunk
    cases output <;> simp [Output.frame, RunFrame.is_terminal]

theorem fits_of_run_frames (hchunks : ∀ chunk ∈ chunks, chunk.2.length ≤ MAX_FRAME_PAYLOAD_BYTES)
    (houtcome : (RunFrame.Terminal outcome).Fits) : ∀ frame ∈ run_frames chunks outcome, frame.Fits := by
  intro frame hframe
  rcases List.mem_append.1 hframe with h | h
  · obtain ⟨⟨output, payload⟩, hchunk, rfl⟩ := List.mem_map.1 h
    have := hchunks _ hchunk
    cases output <;> exact this
  · obtain rfl := List.mem_singleton.1 h
    exact houtcome

theorem delivers_of_fits (hchunks : ∀ chunk ∈ chunks, chunk.2.length ≤ MAX_FRAME_PAYLOAD_BYTES)
    (hpieces : pieces.flatten = run_stream chunks outcome) (houtcome : (RunFrame.Terminal outcome).Fits) :
    Delivers pieces (run_frames chunks outcome) := by
  have howes : FrameDecoder.framing.Owes FrameDecoder.buffer RunFrame.encode .new pieces.flatten
      (run_frames chunks outcome) := by
    refine ⟨?_, fun _ => ?_⟩
    · cases hframes : run_frames chunks outcome with
      | nil => simp [run_frames] at hframes
      | cons frame frames => rfl
    · rw [hpieces, run_stream_eq hchunks]
      rfl
  have hdry : Framing.Dry FrameDecoder.buffer RunFrame.encode .new (run_frames chunks outcome) := by
    cases hframes : run_frames chunks outcome with
    | nil => trivial
    | cons frame frames => simp [Framing.Dry, FrameDecoder.new, RunFrame.encode, frame_bytes]
  have hserves := frame_decoder_reads.feed_serves (fits_of_run_frames hchunks houtcome)
    (run_frames_stops_last chunks outcome) howes hdry
  exact ⟨hserves.no_error, hserves.frames_eq, hserves.terminated_iff⟩

theorem fits_of_delivers (h : Delivers pieces (run_frames chunks outcome)) :
    (terminal_parts outcome).2.length ≤ MAX_FRAME_PAYLOAD_BYTES := by
  have hmem : RunFrame.Terminal outcome
      ∈ Framing.frames (FrameDecoder.framing.feed .new pieces) := by
    rw [h.frames_eq, run_frames]
    simp
  exact fits_of_feed hmem

/-- **Run-stream round trip.** However the bytes of a response are cut into
pieces, the decoder delivers the response if and only if the payload of its
terminal frame is within the limit. -/
theorem run_stream_delivers_iff (chunks : List (Output × List UInt8)) (outcome : RunOutcome)
    (pieces : List (List UInt8)) (hchunks : ∀ chunk ∈ chunks, chunk.2.length ≤ MAX_FRAME_PAYLOAD_BYTES)
    (hpieces : pieces.flatten = run_stream chunks outcome) :
    Delivers pieces (run_frames chunks outcome)
      ↔ (terminal_parts outcome).2.length ≤ MAX_FRAME_PAYLOAD_BYTES := by
  constructor
  · exact fits_of_delivers
  · exact delivers_of_fits hchunks hpieces

/-- An exit code and two chunks, in pieces that cut the frames. -/
theorem run_stream_delivers_iff_exited :
    Delivers [[0], [0, 0, 0, 2, 104, 105, 1, 0, 0], [0, 0], [], [2, 0, 0, 0, 4, 0, 0, 0, 7]]
        (run_frames [(.stdout, [104, 105]), (.stderr, [])] (.Exited 7))
      ↔ (terminal_parts (.Exited 7)).2.length ≤ MAX_FRAME_PAYLOAD_BYTES :=
  run_stream_delivers_iff _ _ _ (by decide) (by decide)

/-- The message of a failed launch that is one byte longer than a payload may be. -/
def long_message : Text := List.replicate (MAX_FRAME_PAYLOAD_BYTES + 1) 'a'

/-- Its terminal frame is written, and turned down. -/
theorem run_stream_long_message :
    ¬ Delivers [run_stream [] (.LaunchFailed long_message)]
      (run_frames [] (.LaunchFailed long_message)) := by
  intro h
  have hfits := fits_of_delivers h
  have hparts : ∀ message, (terminal_parts (.LaunchFailed message)).2 = text_bytes message :=
    fun _ => rfl
  have hsize : 'a'.utf8Size = 1 := by decide
  rw [hparts, text_bytes_length, long_message, utf8_len_replicate, hsize, mul_one] at hfits
  omega

end AgentSpace.Memory
