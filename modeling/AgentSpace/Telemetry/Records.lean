/-
The records of a telemetry file, and what a pass over it makes of them.

A record ends with a line feed. A pass takes what it reads apart by `bytes.splitlines`, for
which a carriage return ends a line too, and counts one byte for each end. A byte that is not
counted is missing from the offset of every record behind it.
-/
import AgentSpace.Lib.Segments
import AgentSpace.Telemetry.Chunks
import AgentSpace.Telemetry.Totality

set_option autoImplicit false

namespace AgentSpace.Telemetry.Otel

open Lib

/-! ## Records -/

/-- The records in a piece of a file. -/
def records (raw_bytes : List UInt8) : List (List UInt8) := (raw_bytes.splitOn 10).dropLast

/-- Records that follow each other, each with the offset of its first byte. -/
def at_offsets : ℕ → List (List UInt8) → List (ℕ × List UInt8)
  | _, [] => []
  | offset, record :: rest => (offset, record) :: at_offsets (offset + (record.length + 1)) rest

/-- The record ends with a carriage return, so that its line ends with both. -/
def EndsWithReturn (record : List UInt8) : Prop := record.getLast? = some 13

instance (record : List UInt8) : Decidable (EndsWithReturn record) := inferInstanceAs (Decidable (_ = _))

/-- The lines `bytes.splitlines` makes of a record. -/
def parts (record : List UInt8) : List (List UInt8) := splitlines (record ++ [10])

theorem records_of_not_mem {raw_bytes : List UInt8} (h : 10 ∉ raw_bytes) : records raw_bytes = [] := by
  rw [records, List.splitOn_eq_singleton h]
  rfl

variable {record : List UInt8}

theorem records_cons (h : 10 ∉ record) (rest : List UInt8) :
    records (record ++ 10 :: rest) = record :: records rest := by
  rw [records, List.splitOn_append_cons_self_of_not_mem h,
    List.dropLast_cons_of_ne_nil (List.splitOn_ne_nil _ _), records]

theorem not_mem_of_mem_records {raw_bytes record : List UInt8} (h : record ∈ records raw_bytes) :
    10 ∉ record := by
  induction raw_bytes using lines_induction (10 : UInt8) with
  | hlast raw_bytes hfree =>
    rw [records_of_not_mem hfree] at h
    cases h
  | hline first rest hfirst ih =>
    rw [records_cons hfirst] at h
    rcases List.mem_cons.1 h with rfl | h
    · exact hfirst
    · exact ih h

theorem complete_cons (rest : List UInt8) :
    complete (record ++ 10 :: rest) = record ++ 10 :: complete rest := by
  have hended : Ended (record ++ [10]) := Or.inr List.getLast?_concat
  have h := (complete_append hended rest).1
  simpa using h

theorem complete_of_not_mem {raw_bytes : List UInt8} (h : 10 ∉ raw_bytes) : complete raw_bytes = [] := by
  refine List.rdropWhile_eq_nil_iff.2 fun b hb => decide_eq_true ?_
  rintro rfl
  exact h hb

theorem length_complete (raw_bytes : List UInt8) :
    (complete raw_bytes).length = ((records raw_bytes).map fun record => record.length + 1).sum := by
  induction raw_bytes using lines_induction (10 : UInt8) with
  | hlast raw_bytes hfree =>
    rw [complete_of_not_mem hfree, records_of_not_mem hfree]
    rfl
  | hline record rest hrecord ih =>
    rw [complete_cons, records_cons hrecord, List.length_append, List.length_cons, ih, List.map_cons,
      List.sum_cons]
    omega

/-! ## Lines -/

theorem splitlines_from_return (current : List UInt8) {rest : List UInt8} (h : rest.head? ≠ some 10) :
    splitlines_from current (13 :: rest) = current :: splitlines_from [] rest := by
  rw [splitlines_from]
  rintro _ rfl
  exact h rfl

theorem splitlines_from_both (current rest : List UInt8) :
    splitlines_from current (13 :: 10 :: rest) = current :: splitlines_from [] rest := by
  rw [splitlines_from]

/-- **Induction over a record**: its bytes one after another, with the line read so far. A carriage
return is the last byte, or another one than a line feed follows. -/
theorem record_induction {C : List UInt8 → List UInt8 → Prop} (hnil : ∀ current, C current [])
    (hboth : ∀ current, C current [13])
    (hreturn : ∀ current b rest, b ≠ 10 → C [] (b :: rest) → C current (13 :: b :: rest))
    (hbyte : ∀ current b rest, b ≠ 10 → b ≠ 13 → C (current ++ [b]) rest → C current (b :: rest)) :
    ∀ {record : List UInt8}, 10 ∉ record → ∀ current, C current record := by
  intro record
  induction record with
  | nil => exact fun _ current => hnil current
  | cons b rest ih =>
    intro h current
    obtain ⟨hb, hrest⟩ := List.ne_and_not_mem_of_not_mem_cons h
    by_cases hreturned : b = 13
    · subst hreturned
      cases rest with
      | nil => exact hboth current
      | cons c rest => exact hreturn current c rest (List.ne_of_not_mem_cons hrest).symm (ih hrest [])
    · exact hbyte current b rest (Ne.symm hb) hreturned (ih hrest _)

theorem splitlines_from_record (h : 10 ∉ record) (current rest : List UInt8) :
    splitlines_from current (record ++ 10 :: rest)
      = splitlines_from current (record ++ [10]) ++ splitlines rest := by
  refine record_induction (C := fun current record => splitlines_from current (record ++ 10 :: rest)
    = splitlines_from current (record ++ [10]) ++ splitlines rest) ?_ ?_ ?_ ?_ h current
  · intro current
    rw [List.nil_append, List.nil_append, splitlines_from_newline, splitlines_from_newline]
    rfl
  · intro current
    show splitlines_from current (13 :: 10 :: rest)
      = splitlines_from current (13 :: 10 :: []) ++ splitlines rest
    rw [splitlines_from_both, splitlines_from_both]
    rfl
  · intro current b tail hb ih
    have hnext : ∀ more : List UInt8, (b :: (tail ++ more)).head? ≠ some 10 := fun more => by simpa using hb
    simp only [List.cons_append] at ih ⊢
    rw [splitlines_from_return current (hnext _), splitlines_from_return current (hnext _), ih,
      List.cons_append]
  · intro current b tail h10 h13 ih
    rw [List.cons_append, List.cons_append, splitlines_from_byte _ h10 h13,
      splitlines_from_byte _ h10 h13, ih]

theorem splitlines_complete (raw_bytes : List UInt8) :
    splitlines (complete raw_bytes) = (records raw_bytes).flatMap parts := by
  induction raw_bytes using lines_induction (10 : UInt8) with
  | hlast raw_bytes hfree =>
    rw [complete_of_not_mem hfree, records_of_not_mem hfree]
    rfl
  | hline record rest hrecord ih =>
    rw [complete_cons, records_cons hrecord, List.flatMap_cons, ← ih]
    exact splitlines_from_record hrecord [] _

theorem not_mem_of_mem_splitlines_from {current data : List UInt8} (hcurrent : 13 ∉ current) :
    ∀ line ∈ splitlines_from current data, 13 ∉ line := by
  induction current, data using splitlines_from.induct with
  | case1 => simp [splitlines_from]
  | case2 current hne => simpa [splitlines_from, hne] using hcurrent
  | case3 current rest ih =>
    rw [splitlines_from_both]
    exact List.forall_mem_cons.2 ⟨hcurrent, ih (by simp)⟩
  | case4 current rest hnot ih =>
    have hnext : rest.head? ≠ some 10 := fun h => by
      obtain ⟨tail, rfl⟩ := List.head?_eq_some_iff.1 h
      exact hnot tail rfl
    rw [splitlines_from_return current hnext]
    exact List.forall_mem_cons.2 ⟨hcurrent, ih (by simp)⟩
  | case5 current rest ih =>
    rw [splitlines_from_newline]
    exact List.forall_mem_cons.2 ⟨hcurrent, ih (by simp)⟩
  | case6 current b rest hnot h13 h10 ih =>
    rw [splitlines_from_byte current h10 h13]
    refine ih fun hmem => ?_
    rcases List.mem_append.1 hmem with hmem | hmem
    · exact hcurrent hmem
    · exact h13 (List.mem_singleton.1 hmem).symm

theorem not_mem_of_mem_parts {record line : List UInt8} (h : line ∈ parts record) : 13 ∉ line :=
  not_mem_of_mem_splitlines_from (by simp) line h

theorem parts_of_not_mem (h10 : 10 ∉ record) (h13 : 13 ∉ record) : parts record = [record] := by
  have hfrom : ∀ current, 13 ∉ record → splitlines_from current (record ++ [10]) = [current ++ record] := by
    refine record_induction (C := fun current record => 13 ∉ record →
      splitlines_from current (record ++ [10]) = [current ++ record]) ?_ ?_ ?_ ?_ h10
    · intro current _
      rw [List.nil_append, splitlines_from_newline, List.append_nil]
      rfl
    · exact fun current h => absurd (by simp) h
    · exact fun current b rest _ _ h => absurd (by simp) h
    · intro current b rest hb10 hb13 ih h
      rw [List.cons_append, splitlines_from_byte _ hb10 hb13, ih (List.not_mem_of_not_mem_cons h),
        List.append_assoc]
      rfl
  exact hfrom [] h13

/-- **The bytes that are counted** for a record: all, but for a carriage return at the end of it. -/
theorem processed_bytes_parts (h : 10 ∉ record) :
    processed_bytes (parts record) + (if EndsWithReturn record then 1 else 0) = record.length + 1 := by
  have hcons : ∀ (line : List UInt8) (lines : List (List UInt8)),
      processed_bytes (line :: lines) = line.length + 1 + processed_bytes lines := fun line lines => rfl
  have hfrom : ∀ current, processed_bytes (splitlines_from current (record ++ [10]))
      + (if EndsWithReturn record then 1 else 0) = current.length + (record.length + 1) := by
    refine record_induction (C := fun current record =>
      processed_bytes (splitlines_from current (record ++ [10]))
        + (if EndsWithReturn record then 1 else 0) = current.length + (record.length + 1)) ?_ ?_ ?_ ?_ h
    · intro current
      rw [List.nil_append, splitlines_from_newline, hcons]
      simp [EndsWithReturn, splitlines_from, processed_bytes]
    · intro current
      show processed_bytes (splitlines_from current (13 :: 10 :: [])) + _ = _
      rw [splitlines_from_both, hcons]
      simp [EndsWithReturn, splitlines_from, processed_bytes]
    · intro current b rest hb ih
      have hlast : EndsWithReturn (13 :: b :: rest) ↔ EndsWithReturn (b :: rest) := by
        unfold EndsWithReturn
        rw [List.getLast?_cons_cons]
      have hnext : (b :: (rest ++ [10])).head? ≠ some 10 := by simpa using hb
      simp only [List.cons_append] at ih ⊢
      rw [splitlines_from_return current hnext, hcons]
      simp only [hlast]
      rw [List.length_cons]
      rw [List.length_nil] at ih
      omega
    · intro current b rest h10 h13 ih
      have hlast : EndsWithReturn (b :: rest) ↔ EndsWithReturn rest := by
        unfold EndsWithReturn
        cases rest with
        | nil => simpa using h13
        | cons c rest => rw [List.getLast?_cons_cons]
      rw [List.cons_append, splitlines_from_byte _ h10 h13]
      simp only [hlast]
      rw [List.length_append, List.length_singleton] at ih
      rw [List.length_cons]
      omega
  have hall := hfrom []
  rw [List.length_nil, Nat.zero_add] at hall
  exact hall

/-! ## The lines that are processed -/

/-- The line `_process_line` is called with, and its offset. -/
def Event.line_of : Event → Option (ℕ × List UInt8)
  | .warning _ => none
  | .line offset raw_line => some (offset, raw_line)

/-- The record is within the limit. -/
def fits (limits : TelemetryReaderLimits) (record : List UInt8) : Bool := record.length ≤ limits.max_line_bytes

/-- The records a pass should process. -/
def wanted (limits : TelemetryReaderLimits) (offset : ℕ) (records : List (List UInt8)) :
    List (ℕ × List UInt8) :=
  (at_offsets offset records).filter fun record => fits limits record.2

/-- The lines it processes, if none of them raises. -/
def kept_lines (limits : TelemetryReaderLimits) (offset : ℕ) (lines : List (List UInt8)) :
    List (ℕ × List UInt8) :=
  (line_events limits offset lines).filterMap Event.line_of

section Lines

variable {limits : TelemetryReaderLimits}

theorem kept_lines_cons (offset : ℕ) (line : List UInt8) (lines : List (List UInt8)) :
    kept_lines limits offset (line :: lines)
      = (if fits limits line then [(offset, line)] else [])
        ++ kept_lines limits (offset + (line.length + 1)) lines := by
  unfold kept_lines fits
  rw [line_events]
  by_cases h : line.length > limits.max_line_bytes
  · rw [if_pos h, if_neg (by simpa using h)]
    rfl
  · rw [if_neg h, if_pos (by simpa using h)]
    rfl

theorem kept_lines_append (offset : ℕ) (lines more : List (List UInt8)) :
    kept_lines limits offset (lines ++ more)
      = kept_lines limits offset lines ++ kept_lines limits (offset + processed_bytes lines) more := by
  unfold kept_lines
  rw [line_events_append, List.filterMap_append]

variable {offset : ℕ}

theorem mem_of_mem_kept_lines {lines : List (List UInt8)} {line : ℕ × List UInt8}
    (h : line ∈ kept_lines limits offset lines) : line.2 ∈ lines := by
  induction lines generalizing offset with
  | nil => cases h
  | cons first lines ih =>
    rw [kept_lines_cons] at h
    rcases List.mem_append.1 h with h | h
    · split at h
      · rw [List.mem_singleton.1 h]
        exact List.mem_cons_self
      · cases h
    · exact List.mem_cons_of_mem _ (ih h)

theorem kept_lines_eq_nil_iff {lines : List (List UInt8)} :
    kept_lines limits offset lines = [] ↔ ∀ line ∈ lines, fits limits line = false := by
  induction lines generalizing offset with
  | nil => simp [kept_lines, line_events]
  | cons first lines ih =>
    rw [kept_lines_cons, List.append_eq_nil_iff, ih, List.forall_mem_cons]
    refine and_congr_left fun _ => ?_
    cases fits limits first <;> simp

theorem wanted_cons (offset : ℕ) (record : List UInt8) (rest : List (List UInt8)) :
    wanted limits offset (record :: rest)
      = (if fits limits record then [(offset, record)] else [])
        ++ wanted limits (offset + (record.length + 1)) rest := by
  unfold wanted
  rw [at_offsets, List.filter_cons]
  split <;> rfl

variable {rs : List (List UInt8)}

theorem mem_of_mem_at_offsets {record : ℕ × List UInt8}
    (h : record ∈ at_offsets offset rs) : record.2 ∈ rs := by
  induction rs generalizing offset with
  | nil => cases h
  | cons first rs ih =>
    rcases List.mem_cons.1 h with rfl | h
    · exact List.mem_cons_self
    · exact List.mem_cons_of_mem _ (ih h)

theorem mem_wanted (offset : ℕ) {record : List UInt8} (h : record ∈ rs)
    (hfits : fits limits record = true) : ∃ at_offset, (at_offset, record) ∈ wanted limits offset rs := by
  induction rs generalizing offset with
  | nil => cases h
  | cons first rs ih =>
    rw [wanted_cons]
    rcases List.mem_cons.1 h with rfl | h
    · rw [if_pos hfits]
      exact ⟨offset, List.mem_append_left _ (List.mem_singleton_self _)⟩
    · obtain ⟨at_offset, hmem⟩ := ih (offset + (first.length + 1)) h
      exact ⟨at_offset, List.mem_append_right _ hmem⟩

theorem not_mem_of_kept {line : ℕ × List UInt8}
    (h : line ∈ kept_lines limits offset (rs.flatMap parts)) : 13 ∉ line.2 := by
  obtain ⟨record, -, hline⟩ := List.mem_flatMap.1 (mem_of_mem_kept_lines h)
  exact not_mem_of_mem_parts hline

/-- Records without carriage returns are all processed, somewhere. -/
theorem length_wanted_le (h10 : ∀ record ∈ rs, 10 ∉ record)
    (h13 : ∀ record ∈ rs, fits limits record = true → 13 ∉ record) (m o : ℕ) :
    (wanted limits o rs).length ≤ (kept_lines limits m (rs.flatMap parts)).length := by
  induction rs generalizing m o with
  | nil => exact Nat.le_refl _
  | cons record rest ih =>
    obtain ⟨hrecord, hrest⟩ := List.forall_mem_cons.1 h10
    obtain ⟨hnot, hnots⟩ := List.forall_mem_cons.1 h13
    have hle := ih hrest hnots (m + processed_bytes (parts record)) (o + (record.length + 1))
    rw [wanted_cons, List.flatMap_cons, kept_lines_append, List.length_append, List.length_append]
    by_cases hfits : fits limits record = true
    · have hone : kept_lines limits m (parts record) = [(m, record)] := by
        rw [parts_of_not_mem hrecord (hnot hfits), kept_lines_cons, if_pos hfits]
        rfl
      rw [hone, if_pos hfits]
      exact Nat.add_le_add_left hle _
    · rw [if_neg hfits]
      simp only [List.length_nil]
      omega

/-- What must hold of the records for their lines to be processed as they are, when so many bytes
before them may not have been counted. -/
structure Unshifted (limits : TelemetryReaderLimits) (shifted : Prop) (rs : List (List UInt8)) : Prop where
  whole : ∀ record ∈ rs, 13 ∈ record → ∀ line ∈ record :: parts record, fits limits line = false
  behind : rs.Pairwise fun before record => EndsWithReturn before → fits limits record = false
  first : shifted → ∀ record ∈ rs, fits limits record = false

variable (limits) in
/-- **Which records are processed as they are.** The induction is on the records, the first of which
lies at `o` and is taken to lie at `m`. -/
theorem kept_lines_eq_wanted_iff (h10 : ∀ record ∈ rs, 10 ∉ record) {m o : ℕ} (hle : m ≤ o) :
    kept_lines limits m (rs.flatMap parts) = wanted limits o rs ↔ Unshifted limits (m < o) rs := by
  induction rs generalizing m o with
  | nil => exact iff_of_true rfl ⟨by simp, .nil, by simp⟩
  | cons record rest ih =>
    obtain ⟨hrecord, hrest⟩ := List.forall_mem_cons.1 h10
    have hbytes := processed_bytes_parts hrecord
    rw [wanted_cons, List.flatMap_cons, kept_lines_append]
    by_cases hfits : fits limits record = true
    · rw [if_pos hfits]
      by_cases h13 : 13 ∈ record
      · refine iff_of_false (fun heq => ?_) fun h => ?_
        · have hmem : (o, record) ∈ kept_lines limits m ((record :: rest).flatMap parts) := by
            rw [List.flatMap_cons, kept_lines_append, heq]
            exact List.mem_cons_self
          exact not_mem_of_kept hmem h13
        · have hover := h.whole record List.mem_cons_self h13 record List.mem_cons_self
          rw [hfits] at hover
          cases hover
      · have hends : ¬EndsWithReturn record := fun h => h13 (List.mem_of_getLast? h)
        rw [if_neg hends] at hbytes
        rw [show processed_bytes (parts record) = record.length + 1 from hbytes,
          parts_of_not_mem hrecord h13, kept_lines_cons, if_pos hfits]
        show (m, record) :: kept_lines limits _ _ = (o, record) :: _ ↔ _
        rw [List.cons.injEq, Prod.mk.injEq, and_iff_left rfl]
        constructor
        · rintro ⟨rfl, heq⟩
          have h := (ih hrest (Nat.le_refl _)).1 heq
          refine ⟨List.forall_mem_cons.2 ⟨fun h' => absurd h' h13, h.whole⟩,
            List.pairwise_cons.2 ⟨fun _ _ h' => absurd h' hends, h.behind⟩,
            fun hlt => absurd hlt (Nat.lt_irrefl _)⟩
        · intro h
          have heq : m = o := by
            by_contra hne
            have hover := h.first (by omega) record List.mem_cons_self
            rw [hfits] at hover
            cases hover
          subst heq
          exact ⟨rfl, (ih hrest (Nat.le_refl _)).2 ⟨(List.forall_mem_cons.1 h.whole).2,
            (List.pairwise_cons.1 h.behind).2, fun hlt => absurd hlt (Nat.lt_irrefl _)⟩⟩
    · rw [if_neg hfits, List.nil_append]
      rw [Bool.not_eq_true] at hfits
      by_cases hnone : kept_lines limits m (parts record) = []
      · rw [hnone, List.nil_append]
        have hle' : m + processed_bytes (parts record) ≤ o + (record.length + 1) := by
          split at hbytes <;> omega
        have hlt : m + processed_bytes (parts record) < o + (record.length + 1)
            ↔ m < o ∨ EndsWithReturn record := by
          by_cases hends : EndsWithReturn record
          · rw [if_pos hends] at hbytes
            simp only [hends, or_true, iff_true]
            omega
          · rw [if_neg hends] at hbytes
            simp only [hends, or_false]
            omega
        rw [ih hrest hle']
        constructor
        · intro h
          refine ⟨List.forall_mem_cons.2 ⟨fun _ => List.forall_mem_cons.2
            ⟨hfits, kept_lines_eq_nil_iff.1 hnone⟩, h.whole⟩,
            List.pairwise_cons.2 ⟨fun r hr hends => h.first (hlt.2 (Or.inr hends)) r hr, h.behind⟩,
            fun hshift => List.forall_mem_cons.2 ⟨hfits, h.first (hlt.2 (Or.inl hshift))⟩⟩
        · intro h
          refine ⟨(List.forall_mem_cons.1 h.whole).2, (List.pairwise_cons.1 h.behind).2, fun hshift => ?_⟩
          rcases hlt.1 hshift with hshift | hends
          · exact (List.forall_mem_cons.1 (h.first hshift)).2
          · exact fun r hr => (List.pairwise_cons.1 h.behind).1 r hr hends
      · -- a part of a record that is too long is processed, so one line too many is
        have h13 : 13 ∈ record := by
          by_contra h13
          rw [parts_of_not_mem hrecord h13, kept_lines_cons, hfits] at hnone
          exact hnone rfl
        refine iff_of_false (fun heq => ?_) fun h => ?_
        · have hclean : ∀ r ∈ rest, fits limits r = true → 13 ∉ r := by
            intro r hr hrfits
            obtain ⟨at_offset, hmem⟩ := mem_wanted (o + (record.length + 1)) hr hrfits
            have hkept : (at_offset, r) ∈ kept_lines limits m ((record :: rest).flatMap parts) := by
              rw [List.flatMap_cons, kept_lines_append, heq]
              exact hmem
            exact not_mem_of_kept hkept
          have hlength := congrArg List.length heq
          have hcount := length_wanted_le hrest hclean (m + processed_bytes (parts record))
            (o + (record.length + 1))
          rw [List.length_append] at hlength
          have hpos := List.length_pos_iff.2 hnone
          omega
        · exact hnone (kept_lines_eq_nil_iff.2 (List.forall_mem_cons.1
            (h.whole record List.mem_cons_self h13)).2)

end Lines

/-! ## A pass -/

section Passes

variable {F : Type} (settings : Settings F) (around : Surroundings)

/-- The lines `_process_line` is called with: the one that raises is the last. -/
def processed_lines (file_name : Str) : List Event → Provider F → List (ℕ × List UInt8)
  | [], _ => []
  | .warning code :: events, p => processed_lines file_name events (p.record_warning code)
  | .line offset raw_line :: events, p =>
    let ran := process_line settings around.now ⟨file_name, offset⟩ raw_line p
    (offset, raw_line) :: if ran.raised then [] else processed_lines file_name events ran.provider

theorem processed_lines_of_returns {name : Str} {events : List Event} {p : Provider F}
    (h : (run_events settings around name events p).raised = false) :
    processed_lines settings around name events p = events.filterMap Event.line_of := by
  induction events generalizing p with
  | nil => rfl
  | cons event events ih =>
    cases event with
    | warning code => exact ih h
    | line offset raw_line =>
      rw [run_events] at h
      split at h
      · rename_i hraised
        rw [hraised] at h
        cases h
      · rename_i hreturns
        rw [processed_lines, if_neg hreturns, ih h]
        rfl

/-- What a pass reads: `_read_bounded_bytes`. -/
def raw_bytes (file : DirEntry) (start_offset max_bytes : ℕ) : List UInt8 :=
  (file.content.drop start_offset).take (min (file.content.length - start_offset) max_bytes)

/-- What a pass makes of the unfinished record at the end of what it reads. -/
def given_up (file : DirEntry) (start_offset max_bytes : ℕ) : Option (TelemetryWarningCode × ℕ) :=
  let raw_bytes := raw_bytes file start_offset max_bytes
  discard_trailing settings.limits around.info file.path (trailing raw_bytes)
    (start_offset + raw_bytes.length) file.content.length

/-- What a pass consumes ends behind the last line feed, or with the unfinished record that it gives
up. -/
def end_of_data (file : DirEntry) (start_offset max_bytes : ℕ) : ℕ :=
  match given_up settings around file start_offset max_bytes with
  | some (_, offset) => offset
  | none => start_offset + (complete (raw_bytes file start_offset max_bytes)).length

/-- What a pass does with what it reads. -/
def pass_events (file : DirEntry) (start_offset max_bytes : ℕ) : List Event :=
  let raw_bytes := raw_bytes file start_offset max_bytes
  (consume_complete_records settings.limits around.info file.path raw_bytes start_offset
    (start_offset + raw_bytes.length) file.content.length).1

/-- The pass leaves the cursor behind what it consumes, and calls `_process_line` once with each of
the records, at its offset. -/
structure RecordsOnce (file : DirEntry) (start_offset max_bytes : ℕ) (p : Provider F) : Prop where
  cursor : ((read_file settings around file start_offset max_bytes p).ran.provider.file_cursors.get
    file.path).map FileCursor.offset = some (end_of_data settings around file start_offset max_bytes)
  processed : processed_lines settings around (file_name file.path)
      (pass_events settings around file start_offset max_bytes) p
    = wanted settings.limits start_offset (records (raw_bytes file start_offset max_bytes))

variable {file : DirEntry} {start max_bytes : ℕ} {p : Provider F}

/-- What a pass does, and where it goes on. -/
theorem consume_raw_bytes (limits : TelemetryReaderLimits) (info : TelemetryRuntimeInfo) (path : Str)
    (raw : List UInt8) (start stop size : ℕ) :
    consume_complete_records limits info path raw start stop size
      = (line_events limits start (splitlines (complete raw))
          ++ ((discard_trailing limits info path (trailing raw) stop size).map
            fun given => Event.warning given.1).toList,
        ((discard_trailing limits info path (trailing raw) stop size).map Prod.snd).getD
          (start + processed_bytes (splitlines (complete raw)))) := by
  unfold consume_complete_records
  split
  · rename_i hnil
    rw [hnil]
    rfl
  · cases discard_trailing limits info path (trailing raw) stop size with
    | none => exact Prod.ext (List.append_nil _).symm rfl
    | some given => rfl

variable (file start max_bytes) in
theorem lines_of_pass_events : (pass_events settings around file start max_bytes).filterMap Event.line_of
      = kept_lines settings.limits start ((records (raw_bytes file start max_bytes)).flatMap parts) := by
  rw [pass_events, consume_raw_bytes, List.filterMap_append, splitlines_complete, kept_lines]
  cases discard_trailing settings.limits around.info file.path _ _ _ with
  | none | some given => exact List.append_nil _

/-- The bytes that are counted for the records are theirs, if no line ends with both. -/
theorem processed_bytes_records_iff {rs : List (List UInt8)} (h10 : ∀ record ∈ rs, 10 ∉ record) :
    processed_bytes (rs.flatMap parts) ≤ (rs.map fun record => record.length + 1).sum
      ∧ (processed_bytes (rs.flatMap parts) = (rs.map fun record => record.length + 1).sum
        ↔ ∀ record ∈ rs, ¬EndsWithReturn record) := by
  induction rs with
  | nil => exact ⟨Nat.le_refl _, by simp [processed_bytes]⟩
  | cons record rest ih =>
    obtain ⟨hrecord, hrest⟩ := List.forall_mem_cons.1 h10
    obtain ⟨hle, hiff⟩ := ih hrest
    have hbytes := processed_bytes_parts hrecord
    have happend : processed_bytes (parts record ++ rest.flatMap parts)
        = processed_bytes (parts record) + processed_bytes (rest.flatMap parts) := by
      rw [processed_bytes, List.map_append, List.sum_append]
      rfl
    rw [List.flatMap_cons, happend, List.map_cons, List.sum_cons, List.forall_mem_cons, ← hiff]
    split at hbytes
    · rename_i hends
      refine ⟨by omega, iff_of_false (by omega) fun h => h.1 hends⟩
    · rename_i hends
      refine ⟨by omega, fun h => ⟨hends, by omega⟩, fun h => by omega⟩

variable (file start max_bytes p) in
/-- Whether a pass is left by an exception. -/
theorem pass_raised_iff (name : Str) :
    (run_events settings around name (pass_events settings around file start max_bytes) p).raised = true
      ↔ ∃ line ∈ (pass_events settings around file start max_bytes).filterMap Event.line_of,
        ¬Harmless settings line.2 := by
  rw [run_events_raised_iff]
  constructor
  · rintro ⟨event, hmem, hraises⟩
    cases event with
    | warning code => cases hraises
    | line offset raw_line =>
      exact ⟨(offset, raw_line), List.mem_filterMap.2 ⟨_, hmem, rfl⟩, (raises_iff ..).1 hraises⟩
  · rintro ⟨⟨offset, raw_line⟩, hmem, hharm⟩
    obtain ⟨event, hevent, hline⟩ := List.mem_filterMap.1 hmem
    cases event with
    | warning code => cases hline
    | line at_offset line =>
      obtain ⟨rfl, rfl⟩ := Prod.mk.inj (Option.some.inj hline)
      exact ⟨_, hevent, (raises_iff ..).2 hharm⟩

/-- The records of what a pass reads. -/
def read_records (file : DirEntry) (start_offset max_bytes : ℕ) : List (List UInt8) :=
  records (raw_bytes file start_offset max_bytes)

variable (file start p) in
/-- Where a pass leaves the cursor. -/
theorem cursor_of_read_file (hbytes : max_bytes ≠ 0) :
    ((read_file settings around file start max_bytes p).ran.provider.file_cursors.get file.path).map
        FileCursor.offset
      = if (run_events settings around (file_name file.path)
            (pass_events settings around file start max_bytes) p).raised
        then (p.file_cursors.get file.path).map FileCursor.offset
        else some (((given_up settings around file start max_bytes).map Prod.snd).getD
          (start + processed_bytes ((read_records file start max_bytes).flatMap parts))) := by
  rw [read_file, if_neg hbytes]
  show ((IngestReadResult.ran (if (run_events settings around (file_name file.path)
    (pass_events settings around file start max_bytes) p).raised then _ else _)).provider.file_cursors.get
      file.path).map FileCursor.offset = _
  by_cases hraised : (run_events settings around (file_name file.path)
      (pass_events settings around file start max_bytes) p).raised = true
  · rw [if_pos hraised, if_pos hraised]
    exact congrArg _ (congrArg (Table.get · file.path) (file_cursors_run_events ..))
  · rw [if_neg hraised, if_neg hraised, read_records, ← splitlines_complete]
    have hput := fun cursor : FileCursor => Table.get_put_self (run_events settings around
      (file_name file.path) (pass_events settings around file start max_bytes) p).provider.file_cursors
      cursor
    refine (congrArg _ (hput ⟨file.path, file.device, file.inode, _, false⟩)).trans ?_
    exact congrArg some (congrArg Prod.snd (consume_raw_bytes settings.limits around.info file.path
      (raw_bytes file start max_bytes) start (start + (raw_bytes file start max_bytes).length)
      file.content.length))

/-- What is given up ends where the reading or the file does. -/
theorem discard_trailing_offset {limits : TelemetryReaderLimits} {info : TelemetryRuntimeInfo} {path : Str}
    {rest : List UInt8} {stop size : ℕ} {given : TelemetryWarningCode × ℕ}
    (h : discard_trailing limits info path rest stop size = some given) :
    given.2 = size ∨ given.2 = stop := by
  simp only [discard_trailing] at h
  split at h
  · cases h
  · split at h
    · obtain rfl := Option.some.inj h
      by_cases hend : stop ≥ size
      · exact Or.inl (if_pos (decide_eq_true hend))
      · exact Or.inr (if_neg (by simpa using hend))
    · split at h
      · obtain rfl := Option.some.inj h
        exact Or.inl rfl
      · cases h

theorem lt_of_given_up {given : TelemetryWarningCode × ℕ}
    (h : given_up settings around file start max_bytes = some given) : start < given.2 := by
  have hraw : raw_bytes file start max_bytes ≠ [] := by
    intro hnil
    rw [given_up, hnil] at h
    cases h
  have hpos := List.length_pos_iff.2 hraw
  have hsize : start + (raw_bytes file start max_bytes).length ≤ file.content.length := by
    unfold raw_bytes at hpos ⊢
    rw [List.length_take, List.length_drop] at hpos ⊢
    omega
  rcases discard_trailing_offset h with hlater | hlater <;> omega

theorem lt_end_of_data (h : read_records file start max_bytes ≠ []) :
    start < end_of_data settings around file start max_bytes := by
  unfold end_of_data
  split
  · rename_i code later hgiven
    exact lt_of_given_up settings around hgiven
  · obtain ⟨record, rest, hrecords⟩ := List.exists_cons_of_ne_nil h
    rw [length_complete]
    unfold read_records at hrecords
    rw [hrecords, List.map_cons, List.sum_cons]
    omega

/-- Each record that is read is one line, and ends where the line is taken to end. -/
structure OneLineEach (file : DirEntry) (start_offset max_bytes : ℕ) : Prop where
  whole : ∀ record ∈ read_records file start_offset max_bytes, 13 ∈ record →
    ∀ line ∈ record :: parts record, fits settings.limits line = false
  behind : (read_records file start_offset max_bytes).Pairwise fun before record =>
    EndsWithReturn before → fits settings.limits record = false
  counted : given_up settings around file start_offset max_bytes = none →
    ∀ record ∈ read_records file start_offset max_bytes, ¬EndsWithReturn record
  harmless : ∀ record ∈ read_records file start_offset max_bytes,
    fits settings.limits record = true → Harmless settings record

/-- **A pass, record by record.** It processes each record that is short enough once and at its
offset, and goes on behind the last line feed, if and only if a carriage return is only in records
all the lines of which are too long, only records that are too long come behind one at the end of a
record, none is left out of the count, and none of the lines raises. -/
theorem recordsOnce_iff (hp : StandsAt file start p) (hbytes : max_bytes ≠ 0) :
    RecordsOnce settings around file start max_bytes p
      ↔ OneLineEach settings around file start max_bytes := by
  have hfree : ∀ record ∈ read_records file start max_bytes, 10 ∉ record := fun _ =>
    not_mem_of_mem_records
  have hcursor := cursor_of_read_file settings around file start p hbytes
  have hlines := lines_of_pass_events settings around file start max_bytes
  have hraised := pass_raised_iff settings around file start max_bytes p (file_name file.path)
  have hkept := kept_lines_eq_wanted_iff settings.limits hfree (Nat.le_refl start)
  have hcount := (processed_bytes_records_iff hfree).2
  have hlength := length_complete (raw_bytes file start max_bytes)
  rw [hlines] at hraised
  have hharm : kept_lines settings.limits start ((read_records file start max_bytes).flatMap parts)
        = wanted settings.limits start (read_records file start max_bytes) →
      ((run_events settings around (file_name file.path)
          (pass_events settings around file start max_bytes) p).raised = false
        ↔ ∀ record ∈ read_records file start max_bytes, fits settings.limits record = true →
          Harmless settings record) := by
    intro heq
    rw [← Bool.not_eq_true, hraised, ← read_records, heq]
    constructor
    · intro h record hrecord hfits
      obtain ⟨offset, hmem⟩ := mem_wanted start hrecord hfits
      by_contra hno
      exact h ⟨_, hmem, hno⟩
    · rintro h ⟨line, hmem, hno⟩
      obtain ⟨hmem, hfits⟩ := List.mem_filter.1 hmem
      exact hno (h line.2 (mem_of_mem_at_offsets hmem) hfits)
  constructor
  · intro h
    have hreturns : (run_events settings around (file_name file.path)
        (pass_events settings around file start max_bytes) p).raised = false := by
      rw [← Bool.not_eq_true]
      intro hyes
      obtain ⟨line, hline, -⟩ := hraised.1 hyes
      have hsome : read_records file start max_bytes ≠ [] := by
        intro hnil
        rw [← read_records, hnil] at hline
        cases hline
      have hlt := lt_end_of_data settings around hsome
      have hstays := h.cursor
      rw [hcursor, if_pos hyes] at hstays
      rcases hp with ⟨hnone, -⟩ | hat
      · rw [hnone] at hstays
        cases hstays
      · rw [hat] at hstays
        exact absurd (Option.some.inj hstays) (Nat.ne_of_lt hlt)
    have hsame := h.processed
    rw [processed_lines_of_returns settings around hreturns, hlines] at hsame
    obtain ⟨hwhole, hbehind, -⟩ := hkept.1 hsame
    refine ⟨hwhole, hbehind, fun hkeeps => hcount.1 ?_, (hharm hsame).1 hreturns⟩
    have hmoves := h.cursor
    rw [hcursor, if_neg (by rw [hreturns]; decide), end_of_data, hkeeps, hlength] at hmoves
    exact Nat.add_left_cancel (Option.some.inj hmoves)
  · intro h
    have hsame := hkept.2 ⟨h.whole, h.behind, fun hlt => absurd hlt (Nat.lt_irrefl _)⟩
    have hreturns := (hharm hsame).2 h.harmless
    refine ⟨?_, (processed_lines_of_returns settings around hreturns).trans (hlines.trans hsame)⟩
    rw [hcursor, if_neg (by rw [hreturns]; decide), end_of_data]
    cases hgiven : given_up settings around file start max_bytes with
    | some given => rfl
    | none =>
      rw [hlength]
      exact congrArg (fun count => some (start + count)) (hcount.2 (h.counted hgiven))

end Passes

/-! ## Two records -/

/-- Two records of one letter each, the lines of which end with both. -/
def two_returned : DirEntry := ⟨str "f", true, 0, 0, [97, 13, 10, 97, 13, 10]⟩

/-- What a pass over them finds, while the file is being written. -/
def while_written (file : DirEntry) : Surroundings :=
  ⟨some ⟨[file], List.nodup_singleton _⟩, ⟨.RUNNING, some (str "f"), none⟩, []⟩

/-- A pass over both records processes the second at an offset too small by one, and leaves the cursor
two bytes before the end of it. -/
theorem two_returned_shifted :
    ¬∀ (settings : Settings ℚ) (around : Surroundings) (file : DirEntry) (start max_bytes : ℕ)
      (p : Provider ℚ), StandsAt file start p → max_bytes ≠ 0 →
      RecordsOnce settings around file start max_bytes p := by
  intro h
  have hcursor := (h unreadable (while_written two_returned) two_returned 0 6 .init
    (Or.inl ⟨rfl, rfl⟩) (by decide)).cursor
  have hshort : ((read_file unreadable (while_written two_returned) two_returned 0 6
      .init).ran.provider.file_cursors.get two_returned.path).map FileCursor.offset = some 4 := by
    decide +kernel
  have hwhole : end_of_data unreadable (while_written two_returned) two_returned 0 6 = 6 := by
    decide +kernel
  rw [hshort, hwhole] at hcursor
  cases hcursor

/-- Records that end with line feeds alone are both processed where they are. -/
theorem two_lines_once : RecordsOnce unreadable (while_written two_lines) two_lines 0 4 .init :=
  (recordsOnce_iff unreadable (while_written two_lines) (Or.inl ⟨rfl, rfl⟩) (by decide)).2
    { whole := by decide +kernel
      behind := by decide +kernel
      counted := fun _ => by decide +kernel
      harmless := fun _ _ _ => trivial }

end AgentSpace.Telemetry.Otel
