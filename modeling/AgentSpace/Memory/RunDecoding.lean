/-
The decoder of the run stream: the same frames for every way of cutting the bytes, and whether the
frames give the bytes back.

The decoder does not look ahead (`Framing.Settled`). It reads the payload of a timed-out,
output-limit or cancelled frame without looking at it, so re-encoding gives back what was consumed
exactly if these payloads are empty.
-/
import AgentSpace.Memory.RunStream

set_option autoImplicit false

namespace AgentSpace.Memory

open Text Lib

/-! ## Pieces -/

namespace FrameDecoder

/-- The length that the header of a frame declares. -/
def declared_length (bytes : List UInt8) : ℕ := (from_be_bytes ((bytes.take FRAME_HEADER_LEN).drop 1)).toNat

theorem declared_length_append {bytes : List UInt8} (h : FRAME_HEADER_LEN ≤ bytes.length) (more : List UInt8) :
    declared_length (bytes ++ more) = declared_length bytes := by
  unfold declared_length
  rw [List.take_append_of_le_length h]

theorem headD_append {bytes : List UInt8} (h : FRAME_HEADER_LEN ≤ bytes.length) (more : List UInt8) :
    (bytes ++ more).headD 0 = bytes.headD 0 := by
  cases bytes with
  | nil => exact absurd h (by decide)
  | cons byte bytes => rfl

/-- What `next_frame` does, by the cases of its body. -/
theorem next_frame_cases (d : FrameDecoder) :
    (d.terminated = true ∨ d.buffer.length < FRAME_HEADER_LEN) ∧ d.next_frame = (.ok none, d)
    ∨ d.terminated = false ∧ FRAME_HEADER_LEN ≤ d.buffer.length
      ∧ (MAX_FRAME_PAYLOAD_BYTES < declared_length d.buffer
          ∧ d.next_frame = (.error (.MalformedResponse
            s!"run stream frame declared a {declared_length d.buffer}-byte payload, exceeding the {MAX_FRAME_PAYLOAD_BYTES}-byte limit"),
            d)
        ∨ declared_length d.buffer ≤ MAX_FRAME_PAYLOAD_BYTES
          ∧ d.buffer.length < FRAME_HEADER_LEN + declared_length d.buffer ∧ d.next_frame = (.ok none, d)
        ∨ declared_length d.buffer ≤ MAX_FRAME_PAYLOAD_BYTES
          ∧ FRAME_HEADER_LEN + declared_length d.buffer ≤ d.buffer.length
          ∧ d.next_frame = match decode_frame (d.buffer.headD 0)
              ((d.buffer.take (FRAME_HEADER_LEN + declared_length d.buffer)).drop FRAME_HEADER_LEN) with
            | .error e =>
              (.error e, { d with buffer := d.buffer.drop (FRAME_HEADER_LEN + declared_length d.buffer) })
            | .ok frame => (.ok (some frame), {
                buffer := d.buffer.drop (FRAME_HEADER_LEN + declared_length d.buffer)
                terminated := frame.is_terminal })) := by
  by_cases hshort : d.terminated = true ∨ d.buffer.length < FRAME_HEADER_LEN
  · refine Or.inl ⟨hshort, ?_⟩
    unfold next_frame
    exact if_pos hshort
  · have hopen : d.terminated = false := by
      by_contra hclosed
      exact hshort (Or.inl (by simpa using hclosed))
    refine Or.inr ⟨hopen, not_lt.1 fun h => hshort (Or.inr h), ?_⟩
    by_cases hlong : MAX_FRAME_PAYLOAD_BYTES < declared_length d.buffer
    · refine Or.inl ⟨hlong, ?_⟩
      unfold next_frame
      rw [if_neg hshort]
      exact if_pos hlong
    · by_cases hcut : d.buffer.length < FRAME_HEADER_LEN + declared_length d.buffer
      · refine Or.inr (Or.inl ⟨not_lt.1 hlong, hcut, ?_⟩)
        unfold next_frame
        rw [if_neg hshort]
        exact (if_neg hlong).trans (if_pos hcut)
      · refine Or.inr (Or.inr ⟨not_lt.1 hlong, not_lt.1 hcut, ?_⟩)
        unfold next_frame
        rw [if_neg hshort]
        refine (if_neg hlong).trans ((if_neg hcut).trans ?_)
        show (match decode_frame _ _ with
          | .error e => _
          | .ok frame => (Except.ok (some frame), ({
              buffer := _
              terminated := d.terminated || frame.is_terminal } : FrameDecoder))) = _
        rw [hopen]
        rfl

/-- The case of a whole frame, when more has arrived. -/
theorem whole_append {d : FrameDecoder} (more : List UInt8) (hheader : FRAME_HEADER_LEN ≤ d.buffer.length)
    (htotal : FRAME_HEADER_LEN + declared_length d.buffer ≤ d.buffer.length) :
    ((d.buffer ++ more).take (FRAME_HEADER_LEN + declared_length (d.buffer ++ more))).drop FRAME_HEADER_LEN
        = (d.buffer.take (FRAME_HEADER_LEN + declared_length d.buffer)).drop FRAME_HEADER_LEN
      ∧ (d.buffer ++ more).drop (FRAME_HEADER_LEN + declared_length (d.buffer ++ more))
        = d.buffer.drop (FRAME_HEADER_LEN + declared_length d.buffer) ++ more := by
  rw [declared_length_append hheader, List.take_append_of_le_length htotal,
    List.drop_append_of_le_length htotal]
  exact ⟨rfl, rfl⟩

/-- What `next_frame` gives, it gives as well when more has arrived. -/
theorem next_frame_push (d : FrameDecoder) (more : List UInt8) :
    match d.next_frame with
    | (.ok none, d') => d' = d
    | (.ok (some frame), d') => (d.push more).next_frame = (.ok (some frame), d'.push more)
    | (.error e, d') => ∃ d'', (d.push more).next_frame = (.error e, d'') ∧ d''.terminated = d'.terminated := by
  rcases next_frame_cases d with ⟨-, hnext⟩ | ⟨hopen, hheader,
    ⟨hlong, hnext⟩ | ⟨-, -, hnext⟩ | ⟨hfits, htotal, hnext⟩⟩
  · rw [hnext]
  · rw [hnext]
    refine ⟨d.push more, ?_, rfl⟩
    have hsame := declared_length_append hheader more
    rcases next_frame_cases (d.push more) with ⟨hshort, -⟩ | ⟨-, -,
      ⟨-, hpushed⟩ | ⟨hfits, -, -⟩ | ⟨hfits, -, -⟩⟩
    · exfalso
      rcases hshort with hclosed | hshort
      · rw [show d.terminated = true from hclosed] at hopen
        cases hopen
      · rw [show (d.push more).buffer = d.buffer ++ more from rfl, List.length_append] at hshort
        omega
    · rw [hpushed, show declared_length (d.push more).buffer = declared_length d.buffer from hsame]
    · rw [show declared_length (d.push more).buffer = declared_length d.buffer from hsame] at hfits
      omega
    · rw [show declared_length (d.push more).buffer = declared_length d.buffer from hsame] at hfits
      omega
  · rw [hnext]
  · have hsame := declared_length_append hheader more
    have hlength : (d.push more).buffer.length = d.buffer.length + more.length := List.length_append
    obtain ⟨hpayload, hrest⟩ := whole_append more hheader htotal
    rcases next_frame_cases (d.push more) with ⟨hshort, -⟩ | ⟨-, -, ⟨hlong, -⟩ | ⟨-, hcut, -⟩ | ⟨-, -, hpushed⟩⟩
    · exfalso
      rcases hshort with hclosed | hshort
      · rw [show d.terminated = true from hclosed] at hopen
        cases hopen
      · omega
    · rw [show declared_length (d.push more).buffer = declared_length d.buffer from hsame] at hlong
      omega
    · rw [show declared_length (d.push more).buffer = declared_length d.buffer from hsame] at hcut
      omega
    · rw [show (d.push more).buffer = d.buffer ++ more from rfl, hpayload, hrest,
        headD_append hheader] at hpushed
      rw [hnext, hpushed]
      cases decode_frame (d.buffer.headD 0)
          ((d.buffer.take (FRAME_HEADER_LEN + declared_length d.buffer)).drop FRAME_HEADER_LEN) with
      | error e => exact ⟨_, rfl, rfl⟩
      | ok frame => rfl

theorem settled : framing.Settled where
  push_nil d := by
    show ({ d with buffer := d.buffer ++ [] } : FrameDecoder) = d
    rw [List.append_nil]
  push_push d first second := by
    show ({ d with buffer := d.buffer ++ first ++ second } : FrameDecoder) = _
    rw [List.append_assoc]
    rfl
  frame := by
    intro d d' frame more h
    have hpush := next_frame_push d more
    rw [show d.next_frame = (.ok (some frame), d') from h] at hpush
    exact hpush
  fails := by
    intro d d' e more h
    have hpush := next_frame_push d more
    rw [show d.next_frame = (.error e, d') from h] at hpush
    exact hpush
  dry := by
    intro d d' h
    have hpush := next_frame_push d []
    rw [show d.next_frame = (.ok none, d') from h] at hpush
    exact hpush

end FrameDecoder

/-- **Pieces.** However a byte string is cut into pieces, a new decoder gives the same frames up to
the first error, the same error if any, and has terminated or not. -/
theorem read_pieces (pieces pieces' : List (List UInt8)) (h : pieces.flatten = pieces'.flatten) :
    FrameDecoder.framing.read .new pieces = FrameDecoder.framing.read .new pieces' := by
  rw [FrameDecoder.settled.read_eq rfl, FrameDecoder.settled.read_eq rfl, h]

/-- A stream with an unknown tag, at once and byte by byte. -/
theorem read_pieces_unknown_tag :
    FrameDecoder.framing.read .new [[0, 0, 0, 0, 1, 104, 9, 0, 0, 0, 0]]
      = FrameDecoder.framing.read .new [[0], [0], [0], [0], [1], [104], [9], [0], [0], [0], [0]] :=
  read_pieces _ _ (by decide)

/-! ## Bytes of integers -/

variable {bytes : List UInt8}

theorem to_be_bytes_from_be_bytes (h : bytes.length = 4) : to_be_bytes (from_be_bytes bytes) = bytes := by
  obtain ⟨a, b, c, d, rfl⟩ := List.length_eq_four.1 h
  have ha : a.toNat < 256 := a.toNat_lt
  have hb : b.toNat < 256 := b.toNat_lt
  have hc : c.toNat < 256 := c.toNat_lt
  have hd : d.toNat < 256 := d.toNat_lt
  have hsum : (((0 * 2 ^ 8 + a.toNat) * 2 ^ 8 + b.toNat) * 2 ^ 8 + c.toNat) * 2 ^ 8 + d.toNat < 4294967296 := by
    omega
  have hbyte : ∀ (n : ℕ) (byte : UInt8), n % 256 = byte.toNat → UInt8.ofNat n = byte := by
    intro n byte hn
    apply UInt8.toNat_inj.1
    rw [UInt8.toNat_ofNat']
    exact hn
  unfold to_be_bytes from_be_bytes
  simp only [List.foldl_cons, List.foldl_nil, UInt32.toNat_ofNat']
  rw [Nat.mod_eq_of_lt hsum]
  rw [hbyte _ a (by omega), hbyte _ b (by omega), hbyte _ c (by omega), hbyte _ d (by omega)]

/-! ## Frames of the wire -/

/-- A frame as it is on the wire ends the stream. -/
def ends_stream (tag : UInt8) : Bool := tag != TAG_STDOUT && tag != TAG_STDERR

/-- The tags and payloads of the whole frames at the front of a byte string, up to the first that
ends the stream. -/
def wire_frames (bytes : List UInt8) : List (UInt8 × List UInt8) :=
  if _h : bytes.length < FRAME_HEADER_LEN
    ∨ bytes.length < FRAME_HEADER_LEN + FrameDecoder.declared_length bytes then []
  else
    let total := FRAME_HEADER_LEN + FrameDecoder.declared_length bytes
    (bytes.headD 0, (bytes.take total).drop FRAME_HEADER_LEN)
      :: (if ends_stream (bytes.headD 0) then [] else wire_frames (bytes.drop total))
termination_by bytes.length
decreasing_by
  simp only [FRAME_HEADER_LEN, List.length_drop] at _h ⊢
  omega

/-- A payload that says nothing is empty. -/
def Quiet (frame : UInt8 × List UInt8) : Prop :=
  frame.1 = TAG_TIMED_OUT ∨ frame.1 = TAG_OUTPUT_LIMIT_EXCEEDED ∨ frame.1 = TAG_CANCELLED → frame.2 = []

variable {tag : UInt8} {payload : List UInt8}

theorem quiet_of_tag (h : ¬(tag = TAG_TIMED_OUT ∨ tag = TAG_OUTPUT_LIMIT_EXCEEDED ∨ tag = TAG_CANCELLED)) :
    Quiet (tag, payload) :=
  fun htag => absurd htag h

/-- A frame, encoded again. -/
def RunFrame.reencode : RunFrame → List UInt8
  | .Stdout payload => encode_chunk TAG_STDOUT payload
  | .Stderr payload => encode_chunk TAG_STDERR payload
  | .Terminal outcome => encode_terminal outcome

/-- What a decoder has consumed of a byte string. -/
def consumed (bytes : List UInt8) : List UInt8 :=
  bytes.take (bytes.length - (FrameDecoder.framing.drain (FrameDecoder.new.push bytes)).2.buffer.length)

/-- The front of a byte string is its first frame. -/
theorem frame_bytes_of_front (hheader : FRAME_HEADER_LEN ≤ bytes.length)
    (htotal : FRAME_HEADER_LEN + FrameDecoder.declared_length bytes ≤ bytes.length) :
    frame_bytes (bytes.headD 0)
        ((bytes.take (FRAME_HEADER_LEN + FrameDecoder.declared_length bytes)).drop FRAME_HEADER_LEN)
      = bytes.take (FRAME_HEADER_LEN + FrameDecoder.declared_length bytes) := by
  obtain ⟨tag, bytes, rfl⟩ := List.exists_cons_of_ne_nil
    (List.ne_nil_of_length_pos (Nat.lt_of_lt_of_le (by decide) hheader))
  have hsplit := List.take_append_drop 4 bytes
  have hfour : (bytes.take 4).length = 4 := by
    rw [List.length_take]
    rw [FRAME_HEADER_LEN, List.length_cons] at hheader
    omega
  generalize bytes.take 4 = header at hsplit hfour
  generalize bytes.drop 4 = rest at hsplit
  subst hsplit
  have hdeclared : FrameDecoder.declared_length (tag :: (header ++ rest)) = (from_be_bytes header).toNat := by
    show (from_be_bytes ((header ++ rest).take 4)).toNat = _
    rw [← hfour, List.take_left]
  rw [hdeclared] at htotal ⊢
  have hpayload : ((tag :: (header ++ rest)).take
    (FRAME_HEADER_LEN + (from_be_bytes header).toNat)).drop FRAME_HEADER_LEN
      = rest.take (from_be_bytes header).toNat := by
    rw [FRAME_HEADER_LEN, show 5 + (from_be_bytes header).toNat
      = (4 + (from_be_bytes header).toNat) + 1 by omega,
      List.take_succ_cons, List.drop_succ_cons, ← hfour, List.take_length_add_append, List.drop_left]
  have hlength : (rest.take (from_be_bytes header).toNat).length = (from_be_bytes header).toNat := by
    rw [List.length_take]
    rw [FRAME_HEADER_LEN, List.length_cons, List.length_append, hfour] at htotal
    omega
  have hsame : frame_length (from_be_bytes header).toNat = from_be_bytes header := by
    unfold frame_length
    rw [if_pos (from_be_bytes header).toNat_lt, UInt32.ofNat_toNat]
  rw [hpayload, frame_bytes, hlength, hsame, to_be_bytes_from_be_bytes hfour, List.headD_cons, FRAME_HEADER_LEN,
    show 5 + (from_be_bytes header).toNat = (4 + (from_be_bytes header).toNat) + 1 by omega,
    List.take_succ_cons, ← hfour, List.take_length_add_append]

/-- A frame that decodes is encoded as it was if it is quiet, and into fewer bytes otherwise. -/
theorem reencode_of_decode {frame : RunFrame}
    (hfits : payload.length ≤ MAX_FRAME_PAYLOAD_BYTES) (h : decode_frame tag payload = .ok frame) :
    Quiet (tag, payload) ∧ frame.reencode = frame_bytes tag payload
      ∨ ¬Quiet (tag, payload) ∧ frame.reencode.length < (frame_bytes tag payload).length := by
  have hempty : ∀ {tag : UInt8}, (tag = TAG_TIMED_OUT ∨ tag = TAG_OUTPUT_LIMIT_EXCEEDED ∨ tag = TAG_CANCELLED) →
      ∀ {frame : RunFrame}, frame.reencode = frame_bytes tag [] →
      Quiet (tag, payload) ∧ frame.reencode = frame_bytes tag payload
        ∨ ¬Quiet (tag, payload) ∧ frame.reencode.length < (frame_bytes tag payload).length := by
    intro tag htag frame hframe
    by_cases hpayload : payload = []
    · subst hpayload
      exact Or.inl ⟨fun _ => rfl, hframe⟩
    · refine Or.inr ⟨fun hquiet => hpayload (hquiet htag), ?_⟩
      rw [hframe, frame_bytes_length, frame_bytes_length]
      have hpos := List.length_pos_of_ne_nil hpayload
      simp only [List.length_nil]
      omega
  unfold decode_frame at h
  split_ifs at h with h0 h1 h2 h3 h4 h5 h6 h7
  · subst h0
    cases h
    exact Or.inl ⟨quiet_of_tag (by decide), encode_chunk_eq hfits⟩
  · subst h1
    cases h
    exact Or.inl ⟨quiet_of_tag (by decide), encode_chunk_eq hfits⟩
  · subst h2
    obtain ⟨code, hcode, rfl⟩ := map_eq_ok.1 h
    refine Or.inl ⟨quiet_of_tag (by decide), ?_⟩
    unfold decode_i32 at hcode
    split_ifs at hcode with hlength
    obtain rfl := Except.ok.inj hcode
    show frame_bytes TAG_EXITED (to_be_bytes (from_be_bytes payload).toInt32.toUInt32) = _
    rw [UInt32.toUInt32_toInt32, to_be_bytes_from_be_bytes hlength]
  · cases h
    exact hempty (Or.inl h3) (by subst h3; rfl)
  · cases h
    exact hempty (Or.inr (Or.inl h4)) (by subst h4; rfl)
  · cases h
    exact hempty (Or.inr (Or.inr h5)) (by subst h5; rfl)
  · subst h6
    obtain ⟨message, hmessage, rfl⟩ := map_eq_ok.1 h
    refine Or.inl ⟨quiet_of_tag (by decide), ?_⟩
    show frame_bytes TAG_LAUNCH_FAILED (text_bytes message) = _
    rw [text_bytes_of_decode_utf8 hmessage]
  · subst h7
    obtain ⟨command, hcommand, rfl⟩ := map_eq_ok.1 h
    refine Or.inl ⟨quiet_of_tag (by decide), ?_⟩
    show frame_bytes TAG_NOT_ALLOWED (text_bytes command) = _
    rw [text_bytes_of_decode_utf8 hcommand]

theorem is_terminal_of_decode {frame : RunFrame}
    (h : decode_frame tag payload = .ok frame) : frame.is_terminal = ends_stream tag := by
  unfold decode_frame at h
  split_ifs at h with h0 h1 h2 h3 h4 h5 h6 h7
  · subst h0
    cases h
    rfl
  · subst h1
    cases h
    rfl
  · subst h2
    obtain ⟨code, -, rfl⟩ := map_eq_ok.1 h
    rfl
  · subst h3
    cases h
    rfl
  · subst h4
    cases h
    rfl
  · subst h5
    cases h
    rfl
  · subst h6
    obtain ⟨message, -, rfl⟩ := map_eq_ok.1 h
    rfl
  · subst h7
    obtain ⟨command, -, rfl⟩ := map_eq_ok.1 h
    rfl

/-- A frame of the wire and the frame that it decodes to. -/
def Decodes (wire : UInt8 × List UInt8) (frame : RunFrame) : Prop :=
  wire.2.length ≤ MAX_FRAME_PAYLOAD_BYTES ∧ decode_frame wire.1 wire.2 = .ok frame

/-- The bytes of frames of the wire. -/
def wire_bytes (wires : List (UInt8 × List UInt8)) : List UInt8 := wires.flatMap fun wire =>
    frame_bytes wire.1 wire.2

/-- **What is consumed.** A decoder that does not fail decodes the frames of the wire one after
another, and leaves the rest. The induction is on the bytes that are there. -/
theorem drained_wire {d : FrameDecoder} (hopen : d.terminated = false)
    (h : (FrameDecoder.framing.outcome d).error = none) :
    List.Forall₂ Decodes (wire_frames d.buffer) (FrameDecoder.framing.outcome d).frames
      ∧ d.buffer = wire_bytes (wire_frames d.buffer) ++ (FrameDecoder.framing.drain d).2.buffer := by
  induction hn : d.buffer.length using Nat.strongRecOn generalizing d with
  | ind n ih =>
    have hnone : d.buffer.length < FRAME_HEADER_LEN
        ∨ d.buffer.length < FRAME_HEADER_LEN + FrameDecoder.declared_length d.buffer →
        FrameDecoder.framing.next d = (.ok none, d) →
        List.Forall₂ Decodes (wire_frames d.buffer) (FrameDecoder.framing.outcome d).frames
          ∧ d.buffer = wire_bytes (wire_frames d.buffer) ++ (FrameDecoder.framing.drain d).2.buffer := by
      intro hcut hnext
      have hwire : wire_frames d.buffer = [] := by
        rw [wire_frames, dif_pos hcut]
      rw [hwire, Framing.outcome_none hnext, Framing.drain_none _ hnext]
      exact ⟨.nil, rfl⟩
    rcases FrameDecoder.next_frame_cases d with ⟨hshort, hnext⟩ | ⟨-, hheader, hrest⟩
    · rcases hshort with hclosed | hshort
      · rw [hopen] at hclosed
        cases hclosed
      · exact hnone (Or.inl hshort) hnext
    rcases hrest with ⟨-, hnext⟩ | ⟨-, hcut, hnext⟩ | ⟨hfits, htotal, hnext⟩
    · rw [Framing.outcome_error (F := FrameDecoder.framing) hnext] at h
      cases h
    · exact hnone (Or.inr hcut) hnext
    have hwire : wire_frames d.buffer = (d.buffer.headD 0,
        (d.buffer.take (FRAME_HEADER_LEN + FrameDecoder.declared_length d.buffer)).drop FRAME_HEADER_LEN)
        :: (if ends_stream (d.buffer.headD 0) then []
          else wire_frames (d.buffer.drop (FRAME_HEADER_LEN + FrameDecoder.declared_length d.buffer))) := by
      rw [wire_frames, dif_neg (by omega)]
    have hlength : ((d.buffer.take (FRAME_HEADER_LEN + FrameDecoder.declared_length d.buffer)).drop
        FRAME_HEADER_LEN).length ≤ MAX_FRAME_PAYLOAD_BYTES := by
      rw [List.length_drop, List.length_take]
      omega
    have hfront := frame_bytes_of_front hheader htotal
    generalize hpayload : (d.buffer.take (FRAME_HEADER_LEN + FrameDecoder.declared_length d.buffer)).drop
      FRAME_HEADER_LEN = payload at hnext hwire hlength hfront
    cases hframe : decode_frame (d.buffer.headD 0) payload with
    | error e =>
      rw [hframe] at hnext
      rw [Framing.outcome_error (F := FrameDecoder.framing) hnext] at h
      cases h
    | ok frame =>
      rw [hframe] at hnext
      have hterminal := is_terminal_of_decode hframe
      have hsplit : d.buffer = frame_bytes (d.buffer.headD 0) payload
          ++ d.buffer.drop (FRAME_HEADER_LEN + FrameDecoder.declared_length d.buffer) := by
        rw [hfront, List.take_append_drop]
      have hsize : (d.buffer.drop (FRAME_HEADER_LEN + FrameDecoder.declared_length d.buffer)).length < n := by
        rw [List.length_drop, ← hn]
        rw [FRAME_HEADER_LEN] at hheader ⊢
        omega
      generalize d.buffer.drop (FRAME_HEADER_LEN + FrameDecoder.declared_length d.buffer) = rest at *
      have hout := Framing.outcome_frame (F := FrameDecoder.framing) hnext
      rw [hout] at h ⊢
      rw [Framing.drain_frame _ hnext, hwire]
      cases hends : ends_stream (d.buffer.headD 0) with
      | true =>
        have hlast : FrameDecoder.framing.next ⟨rest, frame.is_terminal⟩
          = (.ok none, ⟨rest, frame.is_terminal⟩) := by
          rw [hterminal, hends]
          rfl
        rw [Framing.outcome_none hlast, Framing.drain_none _ hlast]
        refine ⟨.cons ⟨hlength, hframe⟩ .nil, ?_⟩
        show d.buffer = (frame_bytes _ payload ++ []) ++ rest
        rw [List.append_nil]
        exact hsplit
      | false =>
        obtain ⟨hframes, hbytes⟩ := ih rest.length hsize
          (d := ⟨rest, frame.is_terminal⟩) (hterminal.trans hends) h rfl
        refine ⟨.cons ⟨hlength, hframe⟩ hframes, ?_⟩
        show d.buffer = (frame_bytes _ payload ++ wire_bytes (wire_frames rest)) ++ _
        rw [List.append_assoc, ← hbytes]
        exact hsplit

/-! ## Canonical streams -/

theorem consumed_eq (h : (FrameDecoder.framing.outcome (FrameDecoder.new.push bytes)).error = none) :
    consumed bytes = wire_bytes (wire_frames bytes) := by
  have hsplit : bytes = wire_bytes (wire_frames bytes)
      ++ (FrameDecoder.framing.drain (FrameDecoder.new.push bytes)).2.buffer := (drained_wire rfl h).2
  generalize hrest : (FrameDecoder.framing.drain (FrameDecoder.new.push bytes)).2.buffer = rest at hsplit
  unfold consumed
  rw [hrest]
  have hlength := congrArg List.length hsplit
  rw [List.length_append] at hlength
  rw [show bytes.length - rest.length = (wire_bytes (wire_frames bytes)).length by omega]
  exact (congrArg (List.take _) hsplit).trans List.take_left

/-- Frames are encoded as they were if all are quiet, and into fewer bytes otherwise. -/
theorem reencode_frames {wires : List (UInt8 × List UInt8)} {frames : List RunFrame}
    (h : List.Forall₂ Decodes wires frames) :
    (∀ wire ∈ wires, Quiet wire) ∧ frames.flatMap RunFrame.reencode = wire_bytes wires
      ∨ ¬(∀ wire ∈ wires, Quiet wire)
        ∧ (frames.flatMap RunFrame.reencode).length < (wire_bytes wires).length := by
  induction h with
  | nil => exact Or.inl ⟨fun _ h => absurd h List.not_mem_nil, rfl⟩
  | @cons wire frame wires frames hfirst hrest ih =>
    have hwires : wire_bytes (wire :: wires) = frame_bytes wire.1 wire.2 ++ wire_bytes wires := rfl
    rw [hwires, List.flatMap_cons, List.forall_mem_cons, List.length_append, List.length_append]
    rcases reencode_of_decode hfirst.1 hfirst.2 with ⟨hquiet, hsame⟩ | ⟨hloud, hshorter⟩
    · rcases ih with ⟨hquiets, hsames⟩ | ⟨hlouds, hshorters⟩
      · exact Or.inl ⟨⟨hquiet, hquiets⟩, by rw [hsame, hsames]⟩
      · refine Or.inr ⟨fun hall => hlouds hall.2, ?_⟩
        rw [hsame]
        omega
    · refine Or.inr ⟨fun hall => hloud hall.1, ?_⟩
      rcases ih with ⟨-, hsames⟩ | ⟨-, hshorters⟩
      · rw [hsames]
        omega
      · omega

/-- **Canonical streams.** Of a byte string that a decoder reads without an error, the decoded frames
give back what was consumed exactly if no timed-out, output-limit or cancelled frame has a payload. -/
theorem reencode_eq_consumed_iff (bytes : List UInt8)
    (h : (FrameDecoder.framing.read .new [bytes]).error = none) :
    (FrameDecoder.framing.read .new [bytes]).frames.flatMap RunFrame.reencode = consumed bytes
      ↔ ∀ wire ∈ wire_frames bytes, Quiet wire := by
  have hread : FrameDecoder.framing.read .new [bytes]
      = FrameDecoder.framing.outcome (FrameDecoder.new.push bytes) := by
    rw [FrameDecoder.settled.read_eq rfl, List.flatten_singleton]
    rfl
  rw [hread] at h ⊢
  rw [consumed_eq h]
  rcases reencode_frames (drained_wire rfl h).1 with ⟨hquiet, hsame⟩ | ⟨hloud, hshorter⟩
  · exact iff_of_true hsame hquiet
  · refine iff_of_false (fun hsame => ?_) hloud
    have hlength := congrArg List.length hsame
    exact absurd hlength (Nat.ne_of_lt hshorter)

/-- A chunk, and the end of its stream. -/
theorem reencode_eq_consumed_iff_exited :
    (FrameDecoder.framing.read .new [[0, 0, 0, 0, 1, 104, 2, 0, 0, 0, 4, 0, 0, 0, 7]]).frames.flatMap
        RunFrame.reencode = consumed [0, 0, 0, 0, 1, 104, 2, 0, 0, 0, 4, 0, 0, 0, 7]
      ↔ ∀ wire ∈ wire_frames [0, 0, 0, 0, 1, 104, 2, 0, 0, 0, 4, 0, 0, 0, 7], Quiet wire := by
  refine reencode_eq_consumed_iff _ ?_
  have hchunk : FrameDecoder.framing.next ⟨[0, 0, 0, 0, 1, 104, 2, 0, 0, 0, 4, 0, 0, 0, 7], false⟩
      = (.ok (some (.Stdout [104])), ⟨[2, 0, 0, 0, 4, 0, 0, 0, 7], false⟩) := rfl
  have hexited : FrameDecoder.framing.next ⟨[2, 0, 0, 0, 4, 0, 0, 0, 7], false⟩
      = (.ok (some (.Terminal (.Exited 7))), ⟨[], true⟩) := rfl
  have hend : FrameDecoder.framing.next ⟨[], true⟩ = (.ok none, ⟨[], true⟩) := rfl
  rw [FrameDecoder.settled.read_eq rfl]
  show (FrameDecoder.framing.outcome ⟨[0, 0, 0, 0, 1, 104, 2, 0, 0, 0, 4, 0, 0, 0, 7], false⟩).error = none
  rw [Framing.outcome_frame hchunk, Framing.outcome_frame hexited, Framing.outcome_none hend]

/-- A timed-out frame with a payload is accepted, and encoded again without it. -/
theorem timed_out_payload_dropped : (FrameDecoder.framing.read .new [[3, 0, 0, 0, 1, 120]]).error = none
      ∧ (FrameDecoder.framing.read .new [[3, 0, 0, 0, 1, 120]]).frames.flatMap RunFrame.reencode
        ≠ consumed [3, 0, 0, 0, 1, 120] := by
  have htimed_out : FrameDecoder.framing.next ⟨[3, 0, 0, 0, 1, 120], false⟩
      = (.ok (some (.Terminal .TimedOut)), ⟨[], true⟩) := rfl
  have hend : FrameDecoder.framing.next ⟨[], true⟩ = (.ok none, ⟨[], true⟩) := rfl
  have hread : FrameDecoder.framing.read .new [[3, 0, 0, 0, 1, 120]] = ⟨[.Terminal .TimedOut], none, true⟩ := by
    rw [FrameDecoder.settled.read_eq rfl]
    show FrameDecoder.framing.outcome ⟨[3, 0, 0, 0, 1, 120], false⟩ = _
    rw [Framing.outcome_frame htimed_out, Framing.outcome_none hend]
    rfl
  refine ⟨congrArg Framing.Outcome.error hread, ?_⟩
  have hconsumed : consumed [3, 0, 0, 0, 1, 120] = [3, 0, 0, 0, 1, 120] := by
    unfold consumed
    show ([3, 0, 0, 0, 1, 120] : List UInt8).take
      (6 - (FrameDecoder.framing.drain ⟨[3, 0, 0, 0, 1, 120], false⟩).2.buffer.length) = _
    rw [Framing.drain_frame _ htimed_out, Framing.drain_none _ hend]
    rfl
  rw [hread, hconsumed]
  decide

/-! ## Streams that are cut off -/

variable {chunks : List (Output × List UInt8)} {outcome : RunOutcome} {pieces : List (List UInt8)}

end AgentSpace.Memory
