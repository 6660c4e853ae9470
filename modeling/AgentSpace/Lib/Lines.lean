/-
Reading line by line what arrives in pieces.

A reader keeps what has arrived of a line that is not whole, and takes each whole line as it
comes. It may refuse a line, also one that is not whole yet. What it takes, and what it
refuses, does not depend on the pieces (`LineReader.Steady.feed_start`).
-/
import AgentSpace.Lib.Segments

set_option autoImplicit false

namespace AgentSpace.Lib

/-! ## Lines -/

section FirstLine

variable {α : Type} [DecidableEq α] (newline : α)

/-- The first line of a buffer, without its newline, and what follows it. -/
def first_line : List α → Option (List α × List α)
  | [] => none
  | a :: rest =>
    if a = newline then some ([], rest)
    else (first_line rest).map fun found => (a :: found.1, found.2)

variable {newline}

theorem first_line_append {line : List α} (h : newline ∉ line) (rest : List α) :
    first_line newline (line ++ newline :: rest) = some (line, rest) := by
  induction line with
  | nil => exact if_pos rfl
  | cons a line ih =>
    rw [List.mem_cons, not_or] at h
    rw [List.cons_append, first_line, if_neg (Ne.symm h.1), ih h.2]
    rfl

theorem first_line_eq_none {buffer : List α} (h : newline ∉ buffer) : first_line newline buffer = none := by
  induction buffer with
  | nil => rfl
  | cons a buffer ih =>
    rw [List.mem_cons, not_or] at h
    rw [first_line, if_neg (Ne.symm h.1), ih h.2]
    rfl

/-- What is left of a buffer is shorter than the buffer. -/
theorem length_of_first_line {buffer line rest : List α} (h : first_line newline buffer = some (line, rest)) :
    rest.length < buffer.length := by
  induction buffer generalizing line with
  | nil => cases h
  | cons a buffer ih =>
    rw [first_line] at h
    split_ifs at h with ha
    · obtain ⟨-, rfl⟩ := Prod.mk.inj (Option.some.inj h)
      exact Nat.lt_succ_self _
    · obtain ⟨⟨line', rest'⟩, hfound, heq⟩ := Option.map_eq_some_iff.1 h
      obtain ⟨-, rfl⟩ := Prod.mk.inj heq
      exact Nat.lt_succ_of_lt (ih hfound)

end FirstLine

/-! ## Readers -/

/-- What takes lines, one after another. -/
structure LineReader (α σ ε : Type) where
  newline : α
  /-- Takes a whole line, which is without its newline here. -/
  take : σ → List α → Except ε σ
  /-- Refuses a line that is not whole. -/
  refuse : List α → Option ε

namespace LineReader

variable {α σ ε : Type} [DecidableEq α] (R : LineReader α σ ε)

/-- Take the whole lines of a buffer. There is a state and the rest of the buffer then, or the state
at the line that was refused. -/
def drain (s : σ) (buffer : List α) : Except (σ × ε) (σ × List α) :=
  match _h : first_line R.newline buffer with
  | some (line, rest) =>
    match R.take s line with
    | .ok s' => drain s' rest
    | .error e => .error (s, e)
  | none =>
    match R.refuse buffer with
    | some e => .error (s, e)
    | none => .ok (s, buffer)
termination_by buffer.length
decreasing_by exact length_of_first_line _h

/-- Take what arrives in pieces, the lines of each as it comes. -/
def feed (held : σ × List α) (pieces : List (List α)) : Except (σ × ε) (σ × List α) :=
  pieces.foldlM (fun held piece => R.drain held.1 (held.2 ++ piece)) held

/-- A line that is refused before it is whole is refused when it is longer, or whole. -/
structure Steady : Prop where
  refuse : ∀ {line e} more, R.refuse line = some e → R.refuse (line ++ more) = some e
  take : ∀ {line e} more s, R.refuse line = some e → R.take s (line ++ more) = .error e

theorem drain_rest {rest : List α} (h : R.newline ∉ rest) (s : σ) :
    R.drain s rest = match R.refuse rest with
      | some e => .error (s, e)
      | none => .ok (s, rest) := by
  rw [drain]
  split
  · rename_i heq
    rw [first_line_eq_none h] at heq
    cases heq
  · rfl

theorem drain_line {line : List α} (h : R.newline ∉ line) (s : σ) (rest : List α) :
    R.drain s (line ++ R.newline :: rest) = match R.take s line with
      | .ok s' => R.drain s' rest
      | .error e => .error (s, e) := by
  rw [drain]
  split
  · rename_i heq
    rw [first_line_append h] at heq
    obtain ⟨rfl, rfl⟩ := Prod.mk.inj (Option.some.inj heq)
    rfl
  · rename_i heq
    rw [first_line_append h] at heq
    cases heq

variable {R}

/-- A line that is refused is refused with what follows. -/
theorem Steady.drain_refused (hR : R.Steady) {rest : List α} {e : ε} (h : R.newline ∉ rest)
    (hrefuse : R.refuse rest = some e) (s : σ) (more : List α) : R.drain s (rest ++ more) = .error (s, e) := by
  induction more using lines_induction R.newline with
  | hlast more hmore =>
    rw [drain_rest R (by simp [h, hmore]), hR.refuse more hrefuse]
  | hline line more hline _ =>
    rw [← List.append_assoc, drain_line R (by simp [h, hline]), hR.take line s hrefuse]

/-- **More.** Draining what was kept together with more is draining all of it. -/
theorem Steady.drain_append (hR : R.Steady) (s : σ) (buffer more : List α) :
    R.drain s (buffer ++ more) = (R.drain s buffer).bind fun held => R.drain held.1 (held.2 ++ more) := by
  induction buffer using lines_induction R.newline generalizing s with
  | hlast rest hrest =>
    rw [drain_rest R hrest]
    cases hrefuse : R.refuse rest with
    | some e => exact hR.drain_refused hrest hrefuse s more
    | none => rfl
  | hline line rest hline ih =>
    rw [List.append_assoc, List.cons_append, drain_line R hline, drain_line R hline]
    cases R.take s line with
    | ok s' => exact ih s'
    | error e => rfl

/-- What is kept is no whole line, and it is not refused. -/
theorem drained {s : σ} {buffer : List α} {held : σ × List α} (h : R.drain s buffer = .ok held) :
    R.drain held.1 held.2 = .ok held := by
  induction buffer using lines_induction R.newline generalizing s with
  | hlast rest hrest =>
    have hkept := h
    rw [drain_rest R hrest] at hkept
    cases hrefuse : R.refuse rest with
    | some e =>
      rw [hrefuse] at hkept
      cases hkept
    | none =>
      rw [hrefuse] at hkept
      obtain rfl := Except.ok.inj hkept
      exact h
  | hline line rest hline ih =>
    rw [drain_line R hline] at h
    cases htake : R.take s line with
    | ok s' =>
      rw [htake] at h
      exact ih h
    | error e =>
      rw [htake] at h
      cases h

/-- **Pieces.** What a reader does with what arrives does not depend on the pieces. -/
theorem Steady.feed_eq (hR : R.Steady) {held : σ × List α} (hheld : R.drain held.1 held.2 = .ok held)
    (pieces : List (List α)) : R.feed held pieces = R.drain held.1 (held.2 ++ pieces.flatten) := by
  induction pieces generalizing held with
  | nil =>
    rw [List.flatten_nil, List.append_nil, hheld]
    rfl
  | cons piece pieces ih =>
    rw [List.flatten_cons, ← List.append_assoc, hR.drain_append, feed, List.foldlM_cons]
    cases hdrain : R.drain held.1 (held.2 ++ piece) with
    | ok held' => exact ih (drained hdrain)
    | error e => rfl

/-- A reader that starts takes the lines of all that arrives. -/
theorem Steady.feed_start (hR : R.Steady) (hempty : R.refuse [] = none) (s : σ) (pieces : List (List α)) :
    R.feed (s, []) pieces = R.drain s pieces.flatten := by
  refine hR.feed_eq ?_ pieces
  rw [drain_rest R List.not_mem_nil, hempty]

end LineReader

end AgentSpace.Lib
