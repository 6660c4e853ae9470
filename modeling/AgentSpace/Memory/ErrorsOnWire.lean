/-
Errors across HTTP hops: what a caller sees of a `MemoryError`, and what is left of
it after `ErrorEnvelope::from_error` and `into_memory_error`.

The envelope carries the full `Display` text as its message. The decoder puts this
text where the variant holds its own free text, and `Display` wraps it again.
-/
import AgentSpace.Memory.Wire

set_option autoImplicit false

namespace AgentSpace.Memory

open Text

/-! ## What a caller sees -/

/-- `exit_code_for`. -/
def exit_code_for : MemoryError → ℕ
  | .InvalidPath _ _ | .InvalidFrontmatter _ _ | .TooLarge _ _ | .CommandNotAllowed _ => 2
  | .NotFound _ => 3
  | .Conflict _ _ _ | .AlreadyExists _ => 4
  | .NotImplemented _ => 5
  | .RunTimedOut => 6
  | .RunOutputLimitExceeded => 7
  | .RunCancelled => 8
  | .RunLaunchFailed _ => 9
  | .Unavailable _ => 10
  | .MalformedResponse _ => 11
  | .Lock _ | .Io _ | .Yaml _ | .Internal _ => 1

/-- What a caller sees of an error: the exit code of the process and the fields of
the envelope it is printed as. -/
def MemoryError.seen (debug : Text → String) (error : MemoryError) : ℕ × ErrorBody :=
  (exit_code_for error, ErrorBody.from_error debug error)

/-- One HTTP hop: the service writes the envelope, the client reads it back. -/
def hop (debug : Text → String) (error : MemoryError) : MemoryError :=
  (ErrorBody.from_error debug error).into_memory_error

variable (debug : Text → String)

@[simp] theorem message_from_error (error : MemoryError) :
    (ErrorBody.from_error debug error).message = error.to_string debug := by
  cases error <;> rfl

/-! ## Free text is wrapped once a hop -/

/-- The errors that the decoder rebuilds from the fields of the envelope alone. A
`TooLarge` is among them if it is about the request payload. -/
def MemoryError.FromFields : MemoryError → Prop
  | .NotFound _ | .AlreadyExists _ | .Conflict _ _ _ | .CommandNotAllowed _ => True
  | .RunTimedOut | .RunOutputLimitExceeded | .RunCancelled => True
  | .TooLarge what _ => what = "request payload"
  | _ => False

instance : (error : MemoryError) → Decidable error.FromFields
  | .NotFound _ | .AlreadyExists _ | .Conflict _ _ _ | .CommandNotAllowed _ => instDecidableTrue
  | .RunTimedOut | .RunOutputLimitExceeded | .RunCancelled => instDecidableTrue
  | .TooLarge what _ => decEq what "request payload"
  | .InvalidPath _ _ | .InvalidFrontmatter _ _ | .RunLaunchFailed _ | .Lock _ => instDecidableFalse
  | .NotImplemented _ | .Unavailable _ | .MalformedResponse _ | .Internal _ => instDecidableFalse
  | .Io _ | .Yaml _ => instDecidableFalse

theorem hop_eq_self {error : MemoryError} (h : error.FromFields) : hop debug error = error := by
  cases error with
  | TooLarge what limit =>
    have hwhat : what = "request payload" := h
    rw [hwhat]
    rfl
  | NotFound | AlreadyExists | Conflict | CommandNotAllowed | RunTimedOut
  | RunOutputLimitExceeded | RunCancelled => rfl
  | InvalidPath | InvalidFrontmatter | RunLaunchFailed | Lock | NotImplemented | Unavailable
  | MalformedResponse | Internal | Io | Yaml => exact h.elim

theorem wrapped_ne (before text after : String) (h : before.length + after.length ≠ 0) :
    before ++ text ++ after ≠ text := by
  intro heq
  have hlength := congrArg String.length heq
  simp only [String.length_append] at hlength
  omega

/-- Two texts about the same limit are about the same thing. -/
theorem what_of_to_string_eq {what what' : String} {limit : ℕ}
    (h : (MemoryError.TooLarge what limit).to_string debug
      = (MemoryError.TooLarge what' limit).to_string debug) : what = what' := by
  have htexts : what ++ " exceeds the configured limit of " ++ String.ofList (decimal limit)
        ++ " bytes"
      = what' ++ " exceeds the configured limit of " ++ String.ofList (decimal limit)
        ++ " bytes" := h
  rw [String.append_left_inj, String.append_left_inj, String.append_left_inj] at htexts
  exact htexts

/-- **One hop wraps free text.** The message of any other error is not the one that
was sent. -/
theorem to_string_hop_ne {error : MemoryError}
    (h : ¬ error.FromFields) : (hop debug error).to_string debug ≠ error.to_string debug := by
  have hbefore : ∀ (before text : String), before.length ≠ 0 → before ++ text ≠ text := by
    intro before text hlength
    have := wrapped_ne before text "" (by omega)
    rwa [String.append_empty] at this
  cases error with
  | InvalidPath path reason =>
    refine hbefore ("invalid page path " ++ debug path ++ ": ") _ ?_
    rw [String.length_append]
    exact Nat.add_one_ne_zero _
  | InvalidFrontmatter path reason =>
    refine hbefore ("invalid frontmatter in " ++ String.ofList path ++ ": ") _ ?_
    rw [String.length_append]
    exact Nat.add_one_ne_zero _
  | TooLarge what limit =>
    exact fun heq => h (what_of_to_string_eq debug heq).symm
  | NotImplemented feature =>
    have := wrapped_ne "" (feature ++ " is not implemented yet") " is not implemented yet"
      (by decide)
    rwa [String.empty_append] at this
  | RunLaunchFailed message => exact hbefore "command failed to launch: " _ (by decide)
  | Lock message => exact hbefore "failed to lock memory store: " _ (by decide)
  | Unavailable message => exact hbefore "memory service is unavailable: " _ (by decide)
  | MalformedResponse message =>
    exact hbefore "memory service returned a malformed response: " _ (by decide)
  | Internal message => exact hbefore "internal error: " _ (by decide)
  | Io message => exact hbefore "internal error: " _ (by decide)
  | Yaml message => exact hbefore "internal error: " _ (by decide)
  | NotFound | AlreadyExists | Conflict | CommandNotAllowed | RunTimedOut
  | RunOutputLimitExceeded | RunCancelled => exact (h trivial).elim

/-! ## Any number of hops -/

/-- **Which errors survive the wire.** A caller behind any number of hops sees what a
caller beside the store sees, exactly for the errors that are rebuilt from the fields
of the envelope; and one hop is enough to see the difference. -/
theorem seen_hops_iff (debug : Text → String) (error : MemoryError) :
    ((∀ hops : ℕ, ((hop debug)^[hops] error).seen debug = error.seen debug)
        ↔ error.FromFields)
      ∧ ((hop debug error).seen debug = error.seen debug ↔ error.FromFields) := by
  have hone : (hop debug error).seen debug = error.seen debug → error.FromFields := by
    intro hseen
    by_contra hfree
    have hbody := congrArg (fun seen => seen.2.message) hseen
    simp only [MemoryError.seen, message_from_error] at hbody
    exact to_string_hop_ne debug hfree hbody
  refine ⟨⟨fun hall => hone (hall 1), fun h hops => ?_⟩, hone, fun h => ?_⟩
  · rw [Function.iterate_fixed (hop_eq_self debug h)]
  · rw [hop_eq_self debug h]

/-- A lock that could not be opened: one hop says so twice. -/
theorem lock_message_doubled :
    let sent := MemoryError.Lock "denied"
    let read := hop String.ofList sent
    sent.to_string String.ofList = "failed to lock memory store: denied"
      ∧ read.to_string String.ofList
        = "failed to lock memory store: failed to lock memory store: denied"
      ∧ ¬ ∀ (debug : Text → String) (error : MemoryError),
          (hop debug error).seen debug = error.seen debug := by
  refine ⟨by decide, by decide, fun hall => ?_⟩
  have hmessage := congrArg (fun seen => seen.2.message)
    (hall String.ofList (MemoryError.Lock "denied"))
  exact absurd hmessage (by decide)

end AgentSpace.Memory
