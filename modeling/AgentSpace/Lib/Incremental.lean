/-
Incremental decoding: elements arrive in pieces, and after each piece the
decoder is asked for frames until it has none.

The frames are those of a prefix code: from the front of what has arrived a
frame can be told to be whole or to be cut off. A decoder that reads such a code
gives the frames of a stream one after another however the stream is cut into
pieces (`Framing.feed_serves`).
-/
import Mathlib

set_option autoImplicit false

namespace AgentSpace.Lib

/-! ## Decoders -/

/-- A decoder with state `σ` that is fed lists of `β` and asked for frames of
type `φ`. -/
structure Framing (σ β φ ε : Type) where
  push : σ → List β → σ
  next : σ → Except ε (Option φ) × σ
  terminated : σ → Bool
  size : σ → ℕ
  next_size : ∀ {s s' : σ} {f : φ}, next s = (.ok (some f), s') → size s' < size s

/-- One call of `next`: its answer, and whether the decoder has terminated after
it. -/
structure Framing.Call (φ ε : Type) where
  answer : Except ε (Option φ)
  terminated : Bool

/-- The frame a call gives, if any. -/
def Framing.Call.frame {φ ε : Type} (call : Framing.Call φ ε) : Option φ :=
  match call.answer with
  | .ok frame => frame
  | .error _ => none

/-- The frames of a series of calls. -/
def Framing.frames {φ ε : Type} (calls : List (Framing.Call φ ε)) : List φ :=
  calls.filterMap Framing.Call.frame

namespace Framing

section Frames

variable {φ ε : Type} {calls : List (Call φ ε)} {b : Bool}

@[simp] theorem frames_nil : frames ([] : List (Call φ ε)) = [] := rfl

@[simp] theorem frames_none : frames (⟨.ok none, b⟩ :: calls) = frames calls := rfl

@[simp] theorem frames_some {f : φ} : frames (⟨.ok (some f), b⟩ :: calls) = f :: frames calls := rfl

@[simp] theorem frames_error {e : ε} : frames (⟨.error e, b⟩ :: calls) = frames calls := rfl

@[simp] theorem frames_append {later : List (Call φ ε)} :
    frames (calls ++ later) = frames calls ++ frames later :=
  List.filterMap_append

end Frames

end Framing

namespace Framing

variable {σ β φ ε : Type} (F : Framing σ β φ ε)

/-- Ask for frames until the decoder has none, or fails. -/
def drain (s : σ) : List (Call φ ε) × σ :=
  match _h : F.next s with
  | (.ok (some f), s') =>
    let rest := drain s'
    (⟨.ok (some f), F.terminated s'⟩ :: rest.1, rest.2)
  | (.ok none, s') => ([⟨.ok none, F.terminated s'⟩], s')
  | (.error e, s') => ([⟨.error e, F.terminated s'⟩], s')
termination_by F.size s
decreasing_by exact F.next_size _h

/-- Push each piece, and drain the decoder after it. -/
def feed (s : σ) : List (List β) → List (Call φ ε)
  | [] => []
  | piece :: pieces =>
    let drained := F.drain (F.push s piece)
    drained.1 ++ feed drained.2 pieces

theorem drain_frame {s s' : σ} {f : φ} (h : F.next s = (.ok (some f), s')) :
    F.drain s = (⟨.ok (some f), F.terminated s'⟩ :: (F.drain s').1, (F.drain s').2) := by
  rw [drain]
  split
  · rename_i h'
    obtain ⟨hf, rfl⟩ : f = _ ∧ s' = _ := by simpa [h] using h'
    rw [hf]
  · rename_i h'
    simp [h] at h'
  · rename_i h'
    simp [h] at h'

theorem drain_none {s s' : σ} (h : F.next s = (.ok none, s')) :
    F.drain s = ([⟨.ok none, F.terminated s'⟩], s') := by
  rw [drain]
  split
  · rename_i h'
    simp [h] at h'
  · rename_i h'
    obtain rfl : s' = _ := by simpa [h] using h'
    rfl
  · rename_i h'
    simp [h] at h'

/-- Every frame that `feed` gives is the answer of some call of `next`. -/
theorem frame_of_drain {s : σ} {f : φ} (h : f ∈ frames (F.drain s).1) :
    ∃ t t', F.next t = (.ok (some f), t') := by
  induction hn : F.size s using Nat.strongRecOn generalizing s with
  | ind n ih =>
    cases hs : F.next s with
    | mk answer s' =>
      cases answer with
      | error e =>
        have hdrain : F.drain s = ([⟨.error e, F.terminated s'⟩], s') := by
          rw [drain]
          split <;> simp_all
        simp [hdrain] at h
      | ok o =>
        cases o with
        | none =>
          rw [F.drain_none hs] at h
          simp at h
        | some g =>
          rw [F.drain_frame hs] at h
          have hg : f = g ∨ f ∈ frames (F.drain s').1 := by simpa using h
          rcases hg with rfl | hg
          · exact ⟨s, s', hs⟩
          · exact ih _ (hn ▸ F.next_size hs) hg rfl

theorem frame_of_feed {s : σ} {pieces : List (List β)} {f : φ}
    (h : f ∈ frames (F.feed s pieces)) : ∃ t t', F.next t = (.ok (some f), t') := by
  induction pieces generalizing s with
  | nil => simp [feed] at h
  | cons piece pieces ih =>
    rw [feed, frames_append, List.mem_append] at h
    rcases h with h | h
    · exact F.frame_of_drain h
    · exact ih h

/-! ## Series of calls that serve a list of frames -/

/-- The calls give the frames in order, none of them fails, and the decoder has
terminated after a call exactly when no frame is left to give. -/
inductive Serves : List φ → List (Call φ ε) → Prop
  | nil : Serves [] []
  | wait {fs : List φ} {calls : List (Call φ ε)} :
      Serves fs calls → Serves fs (⟨.ok none, fs.isEmpty⟩ :: calls)
  | frame {f : φ} {fs : List φ} {calls : List (Call φ ε)} :
      Serves fs calls → Serves (f :: fs) (⟨.ok (some f), fs.isEmpty⟩ :: calls)

namespace Serves

variable {fs : List φ} {calls : List (Call φ ε)}

theorem no_error (h : Serves fs calls) : ∀ call ∈ calls, call.answer.isOk = true := by
  induction h with
  | nil => simp
  | wait _ ih | frame _ ih => simpa [Except.isOk, Except.toBool] using ih

theorem frames_eq (h : Serves fs calls) : frames calls = fs := by
  induction h with
  | nil => rfl
  | wait _ ih | frame _ ih => simpa using ih

theorem terminated_iff (h : Serves fs calls) :
    ∀ before call after, calls = before ++ call :: after →
      (call.terminated = true ↔ frames (before ++ [call]) = fs) := by
  induction h with
  | nil => simp
  | @wait fs calls h ih =>
    intro before call after hcalls
    cases before with
    | nil =>
      obtain ⟨hcall, -⟩ := List.cons.inj hcalls
      subst hcall
      show fs.isEmpty = true ↔ [] = fs
      rw [List.isEmpty_iff, eq_comm]
    | cons first before =>
      obtain ⟨hfirst, htail⟩ := List.cons.inj hcalls
      subst hfirst
      rw [ih before call after htail]
      simp
  | @frame f fs calls h ih =>
    intro before call after hcalls
    cases before with
    | nil =>
      obtain ⟨hcall, -⟩ := List.cons.inj hcalls
      subst hcall
      show fs.isEmpty = true ↔ [f] = f :: fs
      rw [List.isEmpty_iff]
      simp [eq_comm]
    | cons first before =>
      obtain ⟨hfirst, htail⟩ := List.cons.inj hcalls
      subst hfirst
      rw [ih before call after htail]
      simp

end Serves

/-! ## Decoders of a prefix code -/

/-- The decoder reads the code `encode` on the frames that fit: it keeps what has
arrived, gives a frame as soon as its encoding is whole, and terminates with the
frames that stop it. -/
structure Reads (buffer : σ → List β) (encode : φ → List β) (stops : φ → Bool)
    (fits : φ → Prop) : Prop where
  push_buffer : ∀ s piece, buffer (F.push s piece) = buffer s ++ piece
  push_terminated : ∀ s piece, F.terminated (F.push s piece) = F.terminated s
  closed : ∀ s, F.terminated s = true → F.next s = (.ok none, s)
  whole : ∀ s f rest, fits f → F.terminated s = false → buffer s = encode f ++ rest →
    ∃ s', F.next s = (.ok (some f), s') ∧ buffer s' = rest ∧ F.terminated s' = stops f
  cut_off : ∀ s f, fits f → F.terminated s = false → buffer s <+: encode f →
    buffer s ≠ encode f → F.next s = (.ok none, s)

/-- Exactly the last frame of a list stops the decoder. -/
def StopsLast (stops : φ → Bool) : List φ → Prop
  | [] => True
  | f :: rest => stops f = rest.isEmpty ∧ StopsLast stops rest

/-- The decoder still has to give the frames `fs`: it has terminated when there
are none, and otherwise what it keeps and what is to come are their encodings. -/
structure Owes (buffer : σ → List β) (encode : φ → List β) (s : σ) (coming : List β)
    (fs : List φ) : Prop where
  terminated : F.terminated s = fs.isEmpty
  stream : fs ≠ [] → buffer s ++ coming = fs.flatMap encode

/-- No whole frame is left in the buffer. -/
def Dry (buffer : σ → List β) (encode : φ → List β) (s : σ) : List φ → Prop
  | [] => True
  | f :: _ => ¬ encode f <+: buffer s

section Reads

variable {F} {buffer : σ → List β} {encode : φ → List β} {stops : φ → Bool} {fits : φ → Prop}

/-- Draining gives a part of the frames that are owed and leaves the buffer
without a whole frame. The induction is on the frames: the first one is whole or
is cut off. -/
theorem Reads.drain (hF : F.Reads buffer encode stops fits) {fs : List φ} :
    ∀ {s : σ} {coming : List β}, (∀ f ∈ fs, fits f) → StopsLast stops fs →
    F.Owes buffer encode s coming fs →
    ∃ rest, (∀ f ∈ rest, fits f) ∧ StopsLast stops rest
      ∧ F.Owes buffer encode (F.drain s).2 coming rest ∧ Dry buffer encode (F.drain s).2 rest
      ∧ ∀ later, Serves rest later → Serves fs ((F.drain s).1 ++ later) := by
  induction fs with
  | nil =>
    intro s coming hfits hstops howes
    have hnext := hF.closed s howes.terminated
    rw [F.drain_none hnext]
    refine ⟨[], by simp, trivial, howes, trivial, fun later hlater => ?_⟩
    rw [howes.terminated]
    exact hlater.wait
  | cons f fs ih =>
    intro s coming hfits hstops howes
    obtain ⟨hf, hfs⟩ := List.forall_mem_cons.1 hfits
    have hopen : F.terminated s = false := howes.terminated
    have hstream : buffer s ++ coming = encode f ++ fs.flatMap encode := by
      simpa using howes.stream (by simp)
    by_cases hwhole : encode f <+: buffer s
    · obtain ⟨rest, hrest⟩ := hwhole
      obtain ⟨s', hnext, hbuffer, hterminated⟩ := hF.whole s f rest hf hopen hrest.symm
      have howes' : F.Owes buffer encode s' coming fs := by
        refine ⟨hterminated.trans hstops.1, fun _ => ?_⟩
        rw [hbuffer]
        rw [← hrest, List.append_assoc] at hstream
        exact List.append_cancel_left hstream
      obtain ⟨left, hleft, hstops', howes'', hdry, hserves⟩ := ih hfs hstops.2 howes'
      rw [F.drain_frame hnext]
      refine ⟨left, hleft, hstops', howes'', hdry, fun later hlater => ?_⟩
      rw [hterminated, hstops.1]
      exact (hserves later hlater).frame
    · have hpre : buffer s <+: encode f := by
        rcases List.append_eq_append_iff.1 hstream with ⟨mid, h, -⟩ | ⟨mid, h, -⟩
        · exact ⟨mid, h.symm⟩
        · exact absurd ⟨mid, h.symm⟩ hwhole
      have hne : buffer s ≠ encode f := fun h => hwhole (by rw [h])
      have hnext := hF.cut_off s f hf hopen hpre hne
      rw [F.drain_none hnext]
      refine ⟨f :: fs, hfits, hstops, howes, hwhole, fun later hlater => ?_⟩
      rw [howes.terminated]
      exact hlater.wait

/-- **A stream is decoded the same however it is cut into pieces.** -/
theorem Reads.feed_serves (hF : F.Reads buffer encode stops fits) {pieces : List (List β)} :
    ∀ {s : σ} {fs : List φ}, (∀ f ∈ fs, fits f) → StopsLast stops fs →
    F.Owes buffer encode s pieces.flatten fs → Dry buffer encode s fs →
    Serves fs (F.feed s pieces) := by
  induction pieces with
  | nil =>
    intro s fs hfits hstops howes hdry
    cases fs with
    | nil => exact .nil
    | cons f fs =>
      -- the whole stream has arrived, so a frame that is owed is in the buffer
      have hstream : buffer s = encode f ++ fs.flatMap encode := by
        simpa using howes.stream (by simp)
      exact absurd ⟨_, hstream.symm⟩ hdry
  | cons piece pieces ih =>
    intro s fs hfits hstops howes hdry
    have howes' : F.Owes buffer encode (F.push s piece) pieces.flatten fs := by
      refine ⟨?_, fun hne => ?_⟩
      · rw [hF.push_terminated]
        exact howes.terminated
      · rw [hF.push_buffer, List.append_assoc]
        exact howes.stream hne
    obtain ⟨rest, hrest, hstops', howes'', hdry', hserves⟩ := hF.drain hfits hstops howes'
    exact hserves _ (ih hrest hstops' howes'' hdry')

end Reads

/-! ## Decoders that later elements do not change -/

/-- What comes of a series of calls up to the first error: the frames, the error, and whether the
decoder has terminated. -/
structure Outcome (φ ε : Type) where
  frames : List φ
  error : Option ε
  terminated : Bool
  deriving DecidableEq

/-- The error of a call, if it fails. -/
def Call.error {φ ε : Type} (call : Call φ ε) : Option ε :=
  match call.answer with
  | .ok _ => none
  | .error e => some e

/-- The first error of a series of calls. -/
def error {φ ε : Type} (calls : List (Call φ ε)) : Option ε := calls.findSome? Call.error

section Settled

variable {σ β φ ε : Type} (F : Framing σ β φ ε)

/-- What comes of draining the decoder. -/
def outcome (s : σ) : Outcome φ ε :=
  ⟨frames (F.drain s).1, error (F.drain s).1, F.terminated (F.drain s).2⟩

/-- Push each piece and drain the decoder after it, up to the first error. -/
def read (s : σ) : List (List β) → Outcome φ ε
  | [] => ⟨[], none, F.terminated s⟩
  | piece :: pieces =>
    let drained := F.outcome (F.push s piece)
    match drained.error with
    | some _ => drained
    | none =>
      let rest := read (F.drain (F.push s piece)).2 pieces
      ⟨drained.frames ++ rest.frames, rest.error, rest.terminated⟩

/-- What a decoder has found it finds too when more has arrived, and a decoder that has found
nothing has not changed. -/
structure Settled : Prop where
  push_nil : ∀ s, F.push s [] = s
  push_push : ∀ s first second, F.push (F.push s first) second = F.push s (first ++ second)
  frame : ∀ {s s' f} more, F.next s = (.ok (some f), s') →
    F.next (F.push s more) = (.ok (some f), F.push s' more)
  fails : ∀ {s s' e} more, F.next s = (.error e, s') →
    ∃ s'', F.next (F.push s more) = (.error e, s'') ∧ F.terminated s'' = F.terminated s'
  dry : ∀ {s s'}, F.next s = (.ok none, s') → s' = s

variable {F}

variable {s s' : σ}

theorem drain_error {e : ε} (h : F.next s = (.error e, s')) :
    F.drain s = ([⟨.error e, F.terminated s'⟩], s') := by
  rw [drain]
  split
  · rename_i h'
    simp [h] at h'
  · rename_i h'
    simp [h] at h'
  · rename_i h'
    obtain ⟨rfl, rfl⟩ : e = _ ∧ s' = _ := by simpa [h] using h'
    rfl

theorem outcome_frame {f : φ} (h : F.next s = (.ok (some f), s')) :
    F.outcome s = ⟨f :: (F.outcome s').frames, (F.outcome s').error, (F.outcome s').terminated⟩ := by
  unfold outcome
  rw [F.drain_frame h]
  rfl

theorem outcome_none (h : F.next s = (.ok none, s')) : F.outcome s = ⟨[], none, F.terminated s'⟩ := by
  unfold outcome
  rw [F.drain_none h]
  rfl

theorem outcome_error {e : ε} (h : F.next s = (.error e, s')) :
    F.outcome s = ⟨[], some e, F.terminated s'⟩ := by
  unfold outcome
  rw [drain_error h]
  rfl

/-- **More elements.** Draining after more has arrived gives what draining before gave, and, unless
that was an error, what draining then gives. The induction is on the frames that are given first. -/
theorem Settled.outcome_push (hF : F.Settled) (s : σ) (more : List β) :
    F.outcome (F.push s more) = match (F.outcome s).error with
      | some _ => F.outcome s
      | none =>
        let rest := F.outcome (F.push (F.drain s).2 more)
        ⟨(F.outcome s).frames ++ rest.frames, rest.error, rest.terminated⟩ := by
  induction hn : F.size s using Nat.strongRecOn generalizing s with
  | ind n ih =>
    cases hs : F.next s with
    | mk answer s' =>
      cases answer with
      | error e =>
        obtain ⟨s'', hpushed, hterminated⟩ := hF.fails more hs
        rw [outcome_error hs, outcome_error hpushed, hterminated]
      | ok o =>
        cases o with
        | none =>
          obtain rfl := hF.dry hs
          rw [outcome_none hs, F.drain_none hs]
          rfl
        | some f =>
          have hrest := ih _ (hn ▸ F.next_size hs) s' rfl
          rw [outcome_frame hs, outcome_frame (hF.frame more hs), hrest, F.drain_frame hs]
          cases herror : (F.outcome s').error with
          | none => rfl
          | some e =>
            show (⟨_, (F.outcome s').error, _⟩ : Outcome φ ε) = ⟨_, some e, _⟩
            rw [herror]

/-- A decoder that was drained without an error has nothing to give. -/
theorem Settled.drained (hF : F.Settled) {s : σ} (h : (F.outcome s).error = none) :
    F.next (F.drain s).2 = (.ok none, (F.drain s).2) := by
  induction hn : F.size s using Nat.strongRecOn generalizing s with
  | ind n ih =>
    cases hs : F.next s with
    | mk answer s' =>
      cases answer with
      | error e =>
        rw [outcome_error hs] at h
        cases h
      | ok o =>
        cases o with
        | none =>
          obtain rfl := hF.dry hs
          rw [F.drain_none hs]
          exact hs
        | some f =>
          rw [outcome_frame hs] at h
          rw [F.drain_frame hs]
          exact ih _ (hn ▸ F.next_size hs) h rfl

/-- **Pieces.** What is read does not depend on the pieces. -/
theorem Settled.read_eq (hF : F.Settled) {s : σ} (hs : F.next s = (.ok none, s)) (pieces : List (List β)) :
    F.read s pieces = F.outcome (F.push s pieces.flatten) := by
  induction pieces generalizing s with
  | nil =>
    rw [List.flatten_nil, hF.push_nil, outcome_none hs]
    rfl
  | cons piece pieces ih =>
    rw [List.flatten_cons, ← hF.push_push, hF.outcome_push, read]
    cases herror : (F.outcome (F.push s piece)).error with
    | some e => rfl
    | none => rw [ih (hF.drained herror)]

/-- **A stream that is cut off** gives its first frames, and is told from a whole one. The induction
is on the frames: the first one is whole or is cut off. -/
theorem Reads.outcome_cut {buffer : σ → List β} {encode : φ → List β} {stops : φ → Bool}
    {fits : φ → Prop} (hF : F.Reads buffer encode stops fits) {fs : List φ} {s : σ}
    (hfits : ∀ f ∈ fs, fits f) (hstops : StopsLast stops fs) (hopen : F.terminated s = fs.isEmpty)
    (hcut : buffer s <+: fs.flatMap encode) :
    (F.outcome s).error = none ∧ (F.outcome s).frames <+: fs
      ∧ ((F.outcome s).terminated = true ↔ buffer s = fs.flatMap encode) := by
  induction fs generalizing s with
  | nil =>
    rw [outcome_none (hF.closed s hopen)]
    exact ⟨rfl, List.prefix_rfl, iff_of_true hopen (List.prefix_nil.1 hcut)⟩
  | cons f fs ih =>
    obtain ⟨hf, hfs⟩ := List.forall_mem_cons.1 hfits
    by_cases hwhole : encode f <+: buffer s
    · obtain ⟨rest, hrest⟩ := hwhole
      obtain ⟨s', hnext, hbuffer, hterminated⟩ := hF.whole s f rest hf hopen hrest.symm
      rw [← hrest, List.flatMap_cons, List.prefix_append_right_inj] at hcut
      obtain ⟨herror, hframes, hwhole⟩ := ih hfs hstops.2 (hterminated.trans hstops.1) (hbuffer ▸ hcut)
      rw [outcome_frame hnext]
      refine ⟨herror, List.cons_prefix_cons.2 ⟨rfl, hframes⟩, hwhole.trans ?_⟩
      rw [hbuffer, ← hrest, List.flatMap_cons, List.append_cancel_left_eq]
    · have hne : buffer s ≠ (f :: fs).flatMap encode := fun h =>
        hwhole (by rw [h]; exact List.prefix_append ..)
      have hpre : buffer s <+: encode f :=
        (List.prefix_or_prefix_of_prefix hcut (List.prefix_append ..)).resolve_right hwhole
      rw [outcome_none (hF.cut_off s f hf hopen hpre fun h => hwhole (by rw [h]))]
      exact ⟨rfl, List.nil_prefix, iff_of_false (by simp [show F.terminated s = false from hopen]) hne⟩

end Settled

end Framing

end AgentSpace.Lib
