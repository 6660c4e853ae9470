/-
The lines of a piece of a telemetry file, and the bytes they stand for.

A piece is cut after its last line break; what comes before is taken apart by
`bytes.splitlines`. Every line is taken to end with one byte, so that the bytes of the
lines are those of the piece unless there are carriage returns.
-/
import AgentSpace.Telemetry.Reader
import Mathlib.Data.List.DropRight

set_option autoImplicit false

namespace AgentSpace.Telemetry.Otel

/-! ## Lines -/

/-- The data ends with a line break, or is empty. -/
def Ended (data : List UInt8) : Prop := data = [] ∨ data.getLast? = some 10

theorem splitlines_from_newline (current rest : List UInt8) :
    splitlines_from current (10 :: rest) = current :: splitlines_from [] rest := by
  rw [splitlines_from]

theorem splitlines_from_byte (current : List UInt8) {b : UInt8} (h10 : b ≠ 10) (h13 : b ≠ 13)
    (rest : List UInt8) : splitlines_from current (b :: rest) = splitlines_from (current ++ [b]) rest := by
  rw [splitlines_from]
  · rintro _ rfl
    exact absurd rfl h13
  · exact h13
  · exact h10

variable {a : List UInt8}

theorem splitlines_from_append (hcr : 13 ∉ a) (b : List UInt8) :
    ∀ {current : List UInt8}, a.getLast? = some 10 →
      splitlines_from current (a ++ b) = splitlines_from current a ++ splitlines b := by
  induction a with
  | nil => simp
  | cons x a ih =>
    intro current hlast
    have hcr' : 13 ∉ a := fun h => hcr (List.mem_cons_of_mem x h)
    rw [List.cons_append]
    by_cases hx : x = 10
    · subst hx
      rw [splitlines_from_newline, splitlines_from_newline, List.cons_append]
      cases a with
      | nil => rfl
      | cons y a => rw [ih hcr' (by rwa [List.getLast?_cons_cons] at hlast)]
    · have hx' : x ≠ 13 := fun h => hcr (h ▸ List.mem_cons_self)
      rw [splitlines_from_byte _ hx hx', splitlines_from_byte _ hx hx']
      cases a with
      | nil => simp [hx] at hlast
      | cons y a => rw [ih hcr' (by rwa [List.getLast?_cons_cons] at hlast)]

theorem splitlines_append (hcr : 13 ∉ a) (ha : Ended a) (b : List UInt8) :
    splitlines (a ++ b) = splitlines a ++ splitlines b := by
  rcases ha with rfl | hlast
  · rfl
  · exact splitlines_from_append hcr b hlast

theorem processed_bytes_splitlines_from (hcr : 13 ∉ a) :
    ∀ {current : List UInt8}, a.getLast? = some 10 →
      processed_bytes (splitlines_from current a) = current.length + a.length := by
  induction a with
  | nil => simp
  | cons x a ih =>
    intro current hlast
    have hcr' : 13 ∉ a := fun h => hcr (List.mem_cons_of_mem x h)
    by_cases hx : x = 10
    · subst hx
      rw [splitlines_from_newline, processed_bytes, List.map_cons, List.sum_cons, List.length_cons]
      cases a with
      | nil => rfl
      | cons y a =>
        have hrest : processed_bytes (splitlines_from [] (y :: a)) = 0 + (y :: a).length :=
          ih hcr' (by rwa [List.getLast?_cons_cons] at hlast)
        rw [processed_bytes] at hrest
        rw [hrest]
        omega
    · have hx' : x ≠ 13 := fun h => hcr (h ▸ List.mem_cons_self)
      rw [splitlines_from_byte _ hx hx', List.length_cons]
      cases a with
      | nil => simp [hx] at hlast
      | cons y a =>
        rw [ih hcr' (by rwa [List.getLast?_cons_cons] at hlast), List.length_append,
          List.length_singleton]
        omega

theorem processed_bytes_splitlines (hcr : 13 ∉ a) (ha : Ended a) :
    processed_bytes (splitlines a) = a.length := by
  rcases ha with rfl | hlast
  · rfl
  · rw [splitlines, processed_bytes_splitlines_from hcr hlast, List.length_nil, Nat.zero_add]

theorem line_events_append (limits : TelemetryReaderLimits) (offset : ℕ)
    (before after : List (List UInt8)) :
    line_events limits offset (before ++ after)
      = line_events limits offset before
        ++ line_events limits (offset + processed_bytes before) after := by
  induction before generalizing offset with
  | nil => rfl
  | cons line before ih =>
    rw [List.cons_append, line_events, line_events, ih, List.cons_append, processed_bytes,
      processed_bytes, List.map_cons, List.sum_cons, Nat.add_assoc]

theorem complete_append_trailing (data : List UInt8) : complete data ++ trailing data = data :=
  List.rdropWhile_append_rtakeWhile ..

theorem ended_complete (data : List UInt8) : Ended (complete data) := by
  by_cases hne : complete data = []
  · exact Or.inl hne
  · refine Or.inr ?_
    have hlast : ¬decide ((complete data).getLast hne ≠ 10) = true :=
      List.rdropWhile_last_not _ data hne
    rw [List.getLast?_eq_some_getLast hne]
    simpa using hlast

theorem complete_append (ha : Ended a) (b : List UInt8) :
    complete (a ++ b) = a ++ complete b ∧ trailing (a ++ b) = trailing b := by
  have hboth : complete (a ++ b) = a ++ complete b := by
    induction b using List.reverseRecOn with
    | nil =>
      rw [List.append_nil]
      show a.rdropWhile _ = a ++ []
      rw [List.append_nil, List.rdropWhile_eq_self_iff]
      intro hne
      rcases ha with rfl | hlast
      · exact absurd rfl hne
      · rw [List.getLast?_eq_some_getLast hne] at hlast
        simp [Option.some.inj hlast]
    | append_singleton b x ih =>
      rw [← List.append_assoc]
      show List.rdropWhile _ (a ++ b ++ [x]) = a ++ List.rdropWhile _ (b ++ [x])
      rw [List.rdropWhile_concat, List.rdropWhile_concat]
      split
      · exact ih
      · rw [List.append_assoc]
  refine ⟨hboth, ?_⟩
  have hsplit := complete_append_trailing (a ++ b)
  rw [hboth, List.append_assoc] at hsplit
  have hrest := List.append_cancel_left hsplit
  exact List.append_cancel_left (hrest.trans (complete_append_trailing b).symm)

/-! ## Offsets -/

theorem processed_bytes_splitlines_from_le (current a : List UInt8) :
    a.getLast? = some 10 →
      processed_bytes (splitlines_from current a) ≤ current.length + a.length := by
  have hcons : ∀ (line : List UInt8) (lines : List (List UInt8)),
      processed_bytes (line :: lines) = line.length + 1 + processed_bytes lines :=
    fun line lines => rfl
  have hrest : ∀ rest : List UInt8, (rest.getLast? = some 10 →
      processed_bytes (splitlines_from [] rest) ≤ ([] : List UInt8).length + rest.length) →
      ∀ b, (b :: rest).getLast? = some 10 →
        processed_bytes (splitlines_from [] rest) ≤ rest.length := by
    intro rest ih b hlast
    cases rest with
    | nil => exact le_rfl
    | cons c rest => simpa using ih (by rwa [List.getLast?_cons_cons] at hlast)
  induction current, a using splitlines_from.induct with
  | case1 | case2 current hne => exact fun h => by cases h
  | case3 current rest ih =>
    intro hlast
    rw [List.getLast?_cons_cons] at hlast
    have hle := hrest rest ih 10 hlast
    rw [splitlines_from, hcons, List.length_cons, List.length_cons]
    omega
  | case4 current rest hcrlf ih =>
    intro hlast
    have hle := hrest rest ih 13 hlast
    rw [splitlines_from, hcons, List.length_cons]
    · omega
    · exact hcrlf
  | case5 current rest ih =>
    intro hlast
    have hle := hrest rest ih 10 hlast
    rw [splitlines_from, hcons, List.length_cons]
    omega
  | case6 current b rest hcrlf h13 h10 ih =>
    intro hlast
    rw [splitlines_from_byte current h10 h13, List.length_cons]
    cases rest with
    | nil => exact absurd (Option.some.inj hlast) h10
    | cons c rest =>
      have hle := ih (by rwa [List.getLast?_cons_cons] at hlast)
      rw [List.length_append, List.length_singleton] at hle
      omega

theorem processed_bytes_splitlines_le (ha : Ended a) : processed_bytes (splitlines a) ≤ a.length := by
  rcases ha with rfl | hlast
  · exact le_rfl
  · rw [splitlines]
    simpa using processed_bytes_splitlines_from_le [] a hlast

/-- A line lies between the first byte of the lines and the last. -/
theorem lt_of_mem_line_events {limits : TelemetryReaderLimits} {offset : ℕ} {raw_line : List UInt8}
    (lines : List (List UInt8)) :
    ∀ {start : ℕ}, Event.line offset raw_line ∈ line_events limits start lines →
      offset + raw_line.length < start + processed_bytes lines := by
  induction lines with
  | nil => exact fun h => by cases h
  | cons line lines ih =>
    intro start h
    have hcons : processed_bytes (line :: lines) = line.length + 1 + processed_bytes lines := rfl
    rw [hcons]
    rcases List.mem_cons.1 h with hfirst | hrest
    · split at hfirst
      · cases hfirst
      · obtain ⟨rfl, rfl⟩ := Event.line.inj hfirst
        omega
    · have hlt := ih hrest
      omega

/-- A line of a piece lies before the offset to go on from. -/
theorem lt_of_mem_consume {limits : TelemetryReaderLimits} {info : TelemetryRuntimeInfo}
    {path : Str} {raw_bytes : List UInt8} {start_offset file_size offset : ℕ} {raw_line : List UInt8}
    (hsize : start_offset + raw_bytes.length ≤ file_size)
    (h : Event.line offset raw_line ∈ (consume_complete_records limits info path raw_bytes start_offset
      (start_offset + raw_bytes.length) file_size).1) :
    offset + raw_line.length < (consume_complete_records limits info path raw_bytes start_offset
      (start_offset + raw_bytes.length) file_size).2 := by
  have hbytes : processed_bytes (splitlines (complete raw_bytes)) ≤ raw_bytes.length := by
    have hle := processed_bytes_splitlines_le (ended_complete raw_bytes)
    have hsplit := congrArg List.length (complete_append_trailing raw_bytes)
    rw [List.length_append] at hsplit
    omega
  unfold consume_complete_records at h ⊢
  split at h
  · cases h
  · rename_i hne
    rw [if_neg hne]
    dsimp only at h ⊢
    cases hdiscard : discard_trailing limits info path (trailing raw_bytes)
        (start_offset + raw_bytes.length) file_size with
    | none =>
      rw [hdiscard] at h
      exact lt_of_mem_line_events _ h
    | some given_up =>
      obtain ⟨code, later⟩ := given_up
      rw [hdiscard] at h
      have hlater : start_offset + raw_bytes.length ≤ later := by
        unfold discard_trailing at hdiscard
        dsimp only at hdiscard
        split at hdiscard
        · cases hdiscard
        · split at hdiscard
          · obtain ⟨-, rfl⟩ := Prod.mk.inj (Option.some.inj hdiscard)
            split
            · exact hsize
            · exact le_rfl
          · split at hdiscard
            · obtain ⟨-, rfl⟩ := Prod.mk.inj (Option.some.inj hdiscard)
              exact hsize
            · cases hdiscard
      dsimp only at h ⊢
      rcases List.mem_append.1 h with hline | hwarning
      · have hlt := lt_of_mem_line_events _ hline
        omega
      · simp at hwarning

end AgentSpace.Telemetry.Otel
