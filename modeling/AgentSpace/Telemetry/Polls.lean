/-
What a poll of the telemetry files does, apart from its order.

What is read of a file is decided before any of it is looked at (`file_plan`). A poll
carries out the plans of its files one after another (`ingest_selected_files_eq`), and
stops at the first line that raises.
-/
import AgentSpace.Telemetry.Reader

set_option autoImplicit false

namespace AgentSpace.Telemetry.Otel

open Lib

/-! ## What a reader has found -/

/-- What a reader knows of the files. -/
structure Findings (F : Type) where
  spans : Spans F
  duplicate_conflicts : List DuplicateConflict
  content_mode : TelemetryContentMode
  source_version : Option Str
  observed_at_ns : Option ℤ
  warning_counts : WarningCounts

/-- The findings of a reader, with some of the warnings hidden. -/
def Provider.findings {F : Type} (hidden : TelemetryWarningCode → Bool) (p : Provider F) :
    Findings F where
  spans := p.spans
  duplicate_conflicts := p.duplicate_conflicts
  content_mode := p.content_mode
  source_version := p.source_version
  observed_at_ns := p.observed_at_ns
  warning_counts := fun code => if hidden code then none else p.warning_counts code

section Found

variable {F : Type} {hidden : TelemetryWarningCode → Bool} {p q : Provider F}

theorem findings_eq_iff :
    p.findings hidden = q.findings hidden ↔
      p.spans = q.spans ∧ p.duplicate_conflicts = q.duplicate_conflicts
        ∧ p.content_mode = q.content_mode ∧ p.source_version = q.source_version
        ∧ p.observed_at_ns = q.observed_at_ns
        ∧ ∀ code, hidden code = false → p.warning_counts code = q.warning_counts code := by
  simp only [Provider.findings, Findings.mk.injEq, funext_iff]
  refine and_congr_right fun _ => and_congr_right fun _ => and_congr_right fun _ =>
    and_congr_right fun _ => and_congr_right fun _ => forall_congr' fun code => ?_
  cases hidden code <;> simp

theorem findings_record_warning (h : p.findings hidden = q.findings hidden) (code : TelemetryWarningCode) :
    (p.record_warning code).findings hidden = (q.record_warning code).findings hidden := by
  obtain ⟨hspans, hconflicts, hmode, hversion, hobserved, hcounts⟩ := findings_eq_iff.1 h
  refine findings_eq_iff.2 ⟨hspans, hconflicts, hmode, hversion, hobserved, fun c hc => ?_⟩
  show p.warning_counts.increment code c = q.warning_counts.increment code c
  unfold WarningCounts.increment
  by_cases hcode : c = code
  · rw [if_pos hcode, if_pos hcode, hcounts code (hcode ▸ hc)]
  · rw [if_neg hcode, if_neg hcode, hcounts c hc]

theorem findings_of_hidden {code : TelemetryWarningCode} (hcode : hidden code = true)
    (p : Provider F) : (p.record_warning code).findings hidden = p.findings hidden := by
  refine findings_eq_iff.2 ⟨rfl, rfl, rfl, rfl, rfl, fun c hc => ?_⟩
  refine if_neg ?_
  rintro rfl
  rw [hcode] at hc
  cases hc

theorem findings_take_notes (notes : List Note) :
    ∀ {p q : Provider F}, p.findings hidden = q.findings hidden →
      (notes.foldl Provider.take_note p).findings hidden
        = (notes.foldl Provider.take_note q).findings hidden := by
  induction notes with
  | nil => exact fun h => h
  | cons n notes ih =>
    intro p q h
    rw [List.foldl_cons, List.foldl_cons]
    refine ih ?_
    cases n with
    | warning code => exact findings_record_warning h code
    | policy_conflict =>
      obtain ⟨hspans, hconflicts, -, hversion, hobserved, hcounts⟩ := findings_eq_iff.1 h
      exact findings_eq_iff.2 ⟨hspans, hconflicts, rfl, hversion, hobserved, hcounts⟩

theorem findings_observe_source_time (h : p.findings hidden = q.findings hidden) (ns : ℤ) :
    (p.observe_source_time ns).findings hidden = (q.observe_source_time ns).findings hidden := by
  obtain ⟨hspans, hconflicts, hmode, hversion, hobserved, hcounts⟩ := findings_eq_iff.1 h
  unfold Provider.observe_source_time
  rw [hobserved]
  cases q.observed_at_ns with
  | none => exact findings_eq_iff.2 ⟨hspans, hconflicts, hmode, hversion, rfl, hcounts⟩
  | some observed =>
    dsimp only
    split
    · exact findings_eq_iff.2 ⟨hspans, hconflicts, hmode, hversion, rfl, hcounts⟩
    · exact h

theorem findings_keep_span (limits : TelemetryReaderLimits) (h : p.findings hidden = q.findings hidden)
    (span : TelemetrySpan F) :
    (p.keep_span limits span).findings hidden = (q.keep_span limits span).findings hidden := by
  obtain ⟨hspans, hconflicts, hmode, hversion, hobserved, hcounts⟩ := findings_eq_iff.1 h
  unfold Provider.keep_span
  rw [hspans]
  cases q.spans.get span.encoded with
  | none =>
    dsimp only
    split
    · exact findings_record_warning h _
    · refine findings_observe_source_time ?_ span.ended_at_ns
      exact findings_eq_iff.2 ⟨rfl, hconflicts, hmode, by rw [hversion], hobserved, hcounts⟩
  | some existing =>
    dsimp only
    split
    · exact h
    · refine findings_record_warning (findings_eq_iff.2 ?_) _
      exact ⟨rfl, by rw [hconflicts], hmode, hversion, hobserved, hcounts⟩

variable (settings : Settings F)

/-- What a line adds to the findings depends on the findings only. -/
theorem findings_process_line (h : p.findings hidden = q.findings hidden) (now now' : Str)
    (provenance : SpanProvenance) (raw_line : List UInt8) :
    (process_line settings now provenance raw_line p).raised
        = (process_line settings now' provenance raw_line q).raised
      ∧ (process_line settings now provenance raw_line p).provider.findings hidden
        = (process_line settings now' provenance raw_line q).provider.findings hidden := by
  have hnotes := findings_take_notes (span_of_line settings provenance raw_line).notes
    (p := { p with received_at := some now }) (q := { q with received_at := some now' }) h
  unfold process_line
  dsimp only
  cases (span_of_line settings provenance raw_line).result with
  | none => exact ⟨rfl, hnotes⟩
  | some found =>
    cases found with
    | none => exact ⟨rfl, hnotes⟩
    | some span => exact ⟨rfl, findings_keep_span settings.limits hnotes span⟩

theorem findings_run_events (around around' : Surroundings) (name : Str) (events : List Event) :
    ∀ {p q : Provider F}, p.findings hidden = q.findings hidden →
      (run_events settings around name events p).raised
          = (run_events settings around' name events q).raised
        ∧ (run_events settings around name events p).provider.findings hidden
          = (run_events settings around' name events q).provider.findings hidden := by
  induction events with
  | nil => exact fun h => ⟨rfl, h⟩
  | cons event events ih =>
    intro p q h
    cases event with
    | warning code => exact ih (findings_record_warning h code)
    | line offset raw_line =>
      obtain ⟨hraised, hline⟩ := findings_process_line settings h around.now around'.now
        ⟨name, offset⟩ raw_line
      simp only [run_events]
      rw [hraised]
      split
      · exact ⟨hraised, hline⟩
      · exact ih hline

theorem run_events_append (around : Surroundings) (name : Str) (events later : List Event) :
    ∀ p : Provider F, (run_events settings around name events p).raised = false →
      run_events settings around name (events ++ later) p
        = run_events settings around name later (run_events settings around name events p).provider := by
  induction events with
  | nil => exact fun p _ => rfl
  | cons event events ih =>
    intro p h
    cases event with
    | warning code => exact ih _ h
    | line offset raw_line =>
      simp only [List.cons_append, run_events] at h ⊢
      split at h
      · rename_i hraised
        rw [hraised] at h
        cases h
      · rename_i hraised
        rw [if_neg hraised, if_neg hraised]
        exact ih _ h

end Found

/-! ## Cursors -/

section Cursors

variable {F : Type} (settings : Settings F)

theorem file_cursors_take_notes (notes : List Note) :
    ∀ p : Provider F, (notes.foldl Provider.take_note p).file_cursors = p.file_cursors := by
  induction notes with
  | nil => exact fun _ => rfl
  | cons n notes ih =>
    intro p
    rw [List.foldl_cons, ih]
    cases n <;> rfl

theorem file_cursors_keep_span (limits : TelemetryReaderLimits) (p : Provider F)
    (span : TelemetrySpan F) : (p.keep_span limits span).file_cursors = p.file_cursors := by
  unfold Provider.keep_span
  cases p.spans.get span.encoded with
  | none =>
    dsimp only
    split
    · rfl
    · unfold Provider.observe_source_time
      dsimp only
      split
      · rfl
      · split <;> rfl
  | some existing =>
    dsimp only
    split <;> rfl

/-- A line does not move a cursor. -/
theorem file_cursors_process_line (now : Str) (provenance : SpanProvenance) (raw_line : List UInt8)
    (p : Provider F) :
    (process_line settings now provenance raw_line p).provider.file_cursors = p.file_cursors := by
  have hnotes := file_cursors_take_notes (span_of_line settings provenance raw_line).notes
    { p with received_at := some now }
  unfold process_line
  dsimp only
  cases (span_of_line settings provenance raw_line).result with
  | none => exact hnotes
  | some found =>
    cases found with
    | none => exact hnotes
    | some span => exact (file_cursors_keep_span settings.limits _ span).trans hnotes

theorem file_cursors_run_events (around : Surroundings) (name : Str) (events : List Event) :
    ∀ p : Provider F,
      (run_events settings around name events p).provider.file_cursors = p.file_cursors := by
  induction events with
  | nil => exact fun _ => rfl
  | cons event events ih =>
    intro p
    cases event with
    | warning code => exact ih (p.record_warning code)
    | line offset raw_line =>
      have hline := file_cursors_process_line settings around.now ⟨name, offset⟩ raw_line p
      simp only [run_events]
      split
      · exact hline
      · exact (ih _).trans hline

end Cursors

/-! ## Lines that raise -/

section Raising

variable {F : Type} (settings : Settings F)

/-- Processing the line ends in an exception. -/
def Raises (name : Str) : Event → Prop
  | .warning _ => False
  | .line offset raw_line => (span_of_line settings ⟨name, offset⟩ raw_line).result = none

theorem process_line_raised (now : Str) (provenance : SpanProvenance) (raw_line : List UInt8)
    (p : Provider F) : (process_line settings now provenance raw_line p).raised
      = (span_of_line settings provenance raw_line).result.isNone := by
  unfold process_line
  dsimp only
  cases (span_of_line settings provenance raw_line).result with
  | none => rfl
  | some found => cases found <;> rfl

/-- Whether there is an exception does not depend on the reader. -/
theorem run_events_raised_iff (around : Surroundings) (name : Str) (events : List Event) :
    ∀ p : Provider F, (run_events settings around name events p).raised = true ↔
      ∃ event ∈ events, Raises settings name event := by
  induction events with
  | nil => simp [run_events]
  | cons event events ih =>
    intro p
    rw [List.exists_mem_cons_iff]
    cases event with
    | warning code =>
      rw [run_events, ih]
      simp [Raises]
    | line offset raw_line =>
      simp only [run_events]
      have hraised := process_line_raised settings around.now ⟨name, offset⟩ raw_line p
      split
      · rename_i hyes
        rw [hraised, Option.isNone_iff_eq_none] at hyes
        simp [hraised, Raises, hyes]
      · rename_i hno
        rw [hraised, Option.isNone_iff_eq_none] at hno
        rw [ih]
        simp [Raises, hno]

end Raising

/-! ## Plans -/

/-- What a poll does with a file: the pieces, the cursor it leaves, whether it has seen
something new, how many bytes it reads, and whether its budget stops it. -/
structure FilePlan where
  events : List Event := []
  cursor : Option FileCursor := none
  dirty : Bool := false
  bytes_read : ℕ := 0
  deferred_due_to_budget : Bool := false

section Plans

variable {F : Type} (settings : Settings F) (around : Surroundings)

/-- The plan for a file, read from an offset on. -/
def read_plan (file : DirEntry) (start_offset max_bytes : ℕ) : FilePlan :=
  if max_bytes = 0 then { deferred_due_to_budget := true }
  else
    let file_size := file.content.length
    let raw_bytes := (file.content.drop start_offset).take (min (file_size - start_offset) max_bytes)
    let read_end_offset := start_offset + raw_bytes.length
    let (events, end_offset) := consume_complete_records settings.limits around.info file.path
      raw_bytes start_offset read_end_offset file_size
    { events := events
      cursor := some ⟨file.path, file.device, file.inode, end_offset, false⟩
      dirty := true
      bytes_read := raw_bytes.length
      deferred_due_to_budget := read_end_offset < file_size }

/-- The plan for a file, given its cursor. -/
def file_plan (file : DirEntry) (max_bytes : ℕ) : Option FileCursor → FilePlan
  | none =>
    if file.content.length = 0 then
      { cursor := some ⟨file.path, file.device, file.inode, 0, false⟩, dirty := true }
    else read_plan settings around file 0 max_bytes
  | some cursor =>
    if cursor.sealed then {}
    else if file.inode ≠ cursor.inode ∨ file.device ≠ cursor.device then
      { events := [.warning .SOURCE_FILE_CHANGED]
        cursor := some ⟨file.path, file.device, file.inode, file.content.length, true⟩ }
    else if file.content.length < cursor.offset then
      { events := [.warning .SOURCE_FILE_CHANGED]
        cursor := some ⟨file.path, cursor.device, cursor.inode, file.content.length, true⟩ }
    else if file.content.length = cursor.offset then {}
    else read_plan settings around file cursor.offset max_bytes

/-- The cursor is put where a plan leaves it. -/
def Provider.settle (plan : FilePlan) (p : Provider F) : Provider F :=
  { p with
    file_cursors := (plan.cursor.map p.file_cursors.put).getD p.file_cursors
    dirty := p.dirty || plan.dirty }

/-- A plan is carried out. -/
def FilePlan.run (plan : FilePlan) (name : Str) (p : Provider F) : IngestReadResult F :=
  let ran := run_events settings around name plan.events p
  if ran.raised then { ran := ran }
  else
    { ran := ⟨ran.provider.settle plan, false⟩
      bytes_read := plan.bytes_read
      deferred_due_to_budget := plan.deferred_due_to_budget }

variable (p : Provider F)

theorem settle_empty : p.settle {} = p := by
  show { p with file_cursors := p.file_cursors, dirty := p.dirty || false } = p
  rw [Bool.or_false]

theorem settle_deferred : p.settle { deferred_due_to_budget := true } = p :=
  settle_empty p

theorem run_of_no_events {plan : FilePlan} (h : plan.events = []) (name : Str) (p : Provider F) :
    plan.run settings around name p
      = { ran := ⟨p.settle plan, false⟩, bytes_read := plan.bytes_read,
          deferred_due_to_budget := plan.deferred_due_to_budget } := by
  rw [FilePlan.run, h]
  rfl

theorem read_file_eq (file : DirEntry) (start_offset max_bytes : ℕ) (p : Provider F) :
    read_file settings around file start_offset max_bytes p
      = (read_plan settings around file start_offset max_bytes).run settings around
          (file_name file.path) p := by
  unfold read_file read_plan
  by_cases hbudget : max_bytes = 0
  · rw [if_pos hbudget, if_pos hbudget, run_of_no_events settings around rfl, settle_deferred]
  · rw [if_neg hbudget, if_neg hbudget, FilePlan.run]
    dsimp only
    split
    · rfl
    · rw [Provider.settle, Bool.or_true]
      rfl

theorem run_source_changed (name : Str) (cursor : FileCursor) (p : Provider F) :
    ({ events := [.warning .SOURCE_FILE_CHANGED], cursor := some cursor } : FilePlan).run settings
        around name p
      = { ran := ⟨{ p.record_warning .SOURCE_FILE_CHANGED with
            file_cursors := p.file_cursors.put cursor }, false⟩ } := rfl

/-- Reading a file is carrying out its plan. -/
theorem ingest_file_eq (file : DirEntry) (max_bytes : ℕ) (p : Provider F) :
    ingest_file settings around file max_bytes p
      = (file_plan settings around file max_bytes (p.file_cursors.get file.path)).run settings around
          (file_name file.path) p := by
  have hnothing : ({ ran := ⟨p, false⟩ } : IngestReadResult F)
      = ({} : FilePlan).run settings around (file_name file.path) p := by
    rw [run_of_no_events settings around rfl, settle_empty]
  unfold ingest_file file_plan
  cases p.file_cursors.get file.path with
  | none =>
    dsimp only
    split
    · rw [run_of_no_events settings around rfl, Provider.settle, Bool.or_true]
      rfl
    · exact read_file_eq ..
  | some cursor =>
    dsimp only
    split
    · exact hnothing
    · split
      · rw [run_source_changed]
        rfl
      · split
        · rw [run_source_changed]
          rfl
        · split
          · exact hnothing
          · exact read_file_eq ..

/-- The plans for the files of a poll, in order. -/
def file_plans (cursors : FileCursors) : List DirEntry → ℕ → List (Str × FilePlan)
  | [], _ => []
  | file :: files, remaining_bytes =>
    let plan := file_plan settings around file remaining_bytes (cursors.get file.path)
    (file.path, plan) :: file_plans cursors files (remaining_bytes - plan.bytes_read)

/-- Plans are carried out, one after another. -/
def run_plans : List (Str × FilePlan) → Provider F → Ran F
  | [], p => ⟨p, false⟩
  | (path, plan) :: plans, p =>
    let result := plan.run settings around (file_name path) p
    if result.ran.raised then result.ran else run_plans plans result.ran.provider

/-- A plan leaves the cursors of other files alone. -/
theorem file_cursors_run (plan : FilePlan) (name path : Str) (p : Provider F)
    (h : ∀ cursor ∈ plan.cursor, cursor.path ≠ path) :
    (plan.run settings around name p).ran.provider.file_cursors.get path = p.file_cursors.get path := by
  have hcursors := file_cursors_run_events settings around name plan.events p
  unfold FilePlan.run
  dsimp only
  split
  · rw [hcursors]
  · show ((plan.cursor.map (run_events settings around name plan.events p).provider.file_cursors.put).getD
      (run_events settings around name plan.events p).provider.file_cursors).get path = _
    rw [hcursors]
    cases hcursor : plan.cursor with
    | none => rfl
    | some cursor => exact Table.get_put_of_ne _ (h cursor hcursor).symm

theorem path_of_file_plan {file : DirEntry} {max_bytes : ℕ} {before : Option FileCursor} :
    ∀ cursor ∈ (file_plan settings around file max_bytes before).cursor, cursor.path = file.path := by
  intro cursor hcursor
  have hread : ∀ offset, ∀ c ∈ (read_plan settings around file offset max_bytes).cursor,
      c.path = file.path := by
    intro offset c hc
    unfold read_plan at hc
    split at hc
    · cases hc
    · rw [← Option.some.inj hc]
  unfold file_plan at hcursor
  cases before with
  | none =>
    dsimp only at hcursor
    split at hcursor
    · rw [← Option.some.inj hcursor]
    · exact hread 0 cursor hcursor
  | some c =>
    dsimp only at hcursor
    split at hcursor
    · cases hcursor
    · split at hcursor
      · rw [← Option.some.inj hcursor]
      · split at hcursor
        · rw [← Option.some.inj hcursor]
        · split at hcursor
          · cases hcursor
          · exact hread c.offset cursor hcursor

variable (cursors : FileCursors)

/-- **A poll carries out plans.** What it does with each file is decided by the cursors
before it. -/
theorem ingest_selected_files_eq (files : List DirEntry) (hpaths : (files.map DirEntry.path).Nodup) :
    ∀ (remaining_bytes : ℕ) (size_limited : Bool) (p : Provider F),
      (∀ file ∈ files, p.file_cursors.get file.path = cursors.get file.path) →
      ingest_selected_files settings around files remaining_bytes size_limited p
        = let plans := file_plans settings around cursors files remaining_bytes
          let ran := run_plans settings around plans p
          if ran.raised then ran
          else if size_limited || plans.any (fun plan => plan.2.deferred_due_to_budget) then
            ⟨ran.provider.record_warning .SIZE_LIMIT_EXCEEDED, false⟩
          else ran := by
  induction files with
  | nil =>
    intro remaining_bytes size_limited p _
    simp only [ingest_selected_files, file_plans, run_plans, List.any_nil, Bool.or_false]
    cases size_limited <;> rfl
  | cons file files ih =>
    intro remaining_bytes size_limited p hcursors
    rw [List.map_cons, List.nodup_cons] at hpaths
    simp only [ingest_selected_files, file_plans, run_plans, List.any_cons]
    rw [ingest_file_eq, hcursors file List.mem_cons_self]
    generalize hplan : file_plan settings around file remaining_bytes (cursors.get file.path) = plan
    have hpath : ∀ cursor ∈ plan.cursor, cursor.path = file.path := by
      rw [← hplan]
      exact path_of_file_plan settings around
    cases hraised : (plan.run settings around (file_name file.path) p).ran.raised with
    | true => simp [hraised]
    | false =>
      have hread : (plan.run settings around (file_name file.path) p).bytes_read = plan.bytes_read
          ∧ (plan.run settings around (file_name file.path) p).deferred_due_to_budget
            = plan.deferred_due_to_budget := by
        unfold FilePlan.run at hraised ⊢
        dsimp only at hraised ⊢
        split at hraised
        · rename_i hyes
          rw [hyes] at hraised
          cases hraised
        · rename_i hno
          rw [if_neg hno]
          exact ⟨rfl, rfl⟩
      rw [hread.1, hread.2, if_neg Bool.false_ne_true, ih hpaths.2]
      · simp only [Bool.or_assoc, if_neg Bool.false_ne_true]
      · intro other hother
        rw [file_cursors_run, hcursors other (List.mem_cons_of_mem _ hother)]
        intro cursor hcursor heq
        rw [hpath cursor hcursor] at heq
        exact hpaths.1 (heq ▸ List.mem_map_of_mem hother)

/-- The pieces of all the plans, each with the name of its file. -/
def pieces (plans : List (Str × FilePlan)) : List (Str × Event) :=
  plans.flatMap fun plan => plan.2.events.map fun event => (file_name plan.1, event)

/-- Pieces of several files, one after another. -/
def run_pieces : List (Str × Event) → Provider F → Ran F
  | [], p => ⟨p, false⟩
  | (name, event) :: rest, p =>
    let ran := run_events settings around name [event] p
    if ran.raised then ran else run_pieces rest ran.provider

theorem run_plan_raised (plan : FilePlan) (name : Str) (p : Provider F) :
    (plan.run settings around name p).ran.raised
      = (run_events settings around name plan.events p).raised := by
  unfold FilePlan.run
  dsimp only
  split
  · rfl
  · rename_i hno
    exact (Bool.eq_false_of_not_eq_true hno).symm

theorem run_plan_findings (hidden : TelemetryWarningCode → Bool) (plan : FilePlan) (name : Str)
    (p : Provider F) : (plan.run settings around name p).ran.provider.findings hidden
      = (run_events settings around name plan.events p).provider.findings hidden := by
  unfold FilePlan.run
  dsimp only
  split <;> rfl

theorem run_plans_raised_iff (plans : List (Str × FilePlan)) :
    ∀ p : Provider F, (run_plans settings around plans p).raised = true ↔
      ∃ piece ∈ pieces plans, Raises settings piece.1 piece.2 := by
  induction plans with
  | nil => simp [run_plans, pieces]
  | cons plan plans ih =>
    intro p
    have hsplit : (∃ piece ∈ pieces (plan :: plans), Raises settings piece.1 piece.2)
        ↔ (∃ event ∈ plan.2.events, Raises settings (file_name plan.1) event)
          ∨ ∃ piece ∈ pieces plans, Raises settings piece.1 piece.2 := by
      simp only [pieces, List.flatMap_cons, List.mem_append, List.mem_map, or_and_right, exists_or]
      refine or_congr_left ?_
      constructor
      · rintro ⟨_, ⟨event, hevent, rfl⟩, hraises⟩
        exact ⟨event, hevent, hraises⟩
      · rintro ⟨event, hevent, hraises⟩
        exact ⟨_, ⟨event, hevent, rfl⟩, hraises⟩
    rw [hsplit, ← run_events_raised_iff settings around (file_name plan.1) plan.2.events p, run_plans]
    have hplan := run_plan_raised settings around plan.2 (file_name plan.1) p
    split
    · rename_i hyes
      rw [hplan] at hyes
      simp [hplan, hyes]
    · rename_i hno
      rw [hplan] at hno
      simp [ih, hno]

theorem run_pieces_append (first rest : List (Str × Event)) :
    ∀ p : Provider F, (run_pieces settings around first p).raised = false →
      run_pieces settings around (first ++ rest) p
        = run_pieces settings around rest (run_pieces settings around first p).provider := by
  induction first with
  | nil => exact fun _ _ => rfl
  | cons piece first ih =>
    intro p h
    simp only [List.cons_append, run_pieces] at h ⊢
    split at h
    · rename_i hyes
      rw [hyes] at h
      cases h
    · rename_i hno
      rw [if_neg hno, if_neg hno]
      exact ih _ h

theorem run_pieces_of_file (name : Str) (events : List Event) :
    ∀ p : Provider F, run_pieces settings around (events.map fun event => (name, event)) p
      = run_events settings around name events p := by
  induction events with
  | nil => exact fun _ => rfl
  | cons event events ih =>
    intro p
    rw [List.map_cons, run_pieces]
    cases event with
    | warning code => exact ih _
    | line offset raw_line =>
      simp only [run_events]
      by_cases hline : (process_line settings around.now ⟨name, offset⟩ raw_line p).raised = true
      · simp only [if_pos hline]
      · simp only [if_neg hline, Bool.false_eq_true, if_false]
        exact ih _

theorem findings_run_pieces {hidden : TelemetryWarningCode → Bool} (around around' : Surroundings)
    (rest : List (Str × Event)) :
    ∀ {p q : Provider F}, p.findings hidden = q.findings hidden →
      (run_pieces settings around rest p).raised = (run_pieces settings around' rest q).raised
        ∧ (run_pieces settings around rest p).provider.findings hidden
          = (run_pieces settings around' rest q).provider.findings hidden := by
  induction rest with
  | nil => exact fun h => ⟨rfl, h⟩
  | cons piece rest ih =>
    intro p q h
    obtain ⟨hraised, hfound⟩ := findings_run_events settings around around' piece.1 [piece.2] h
    simp only [run_pieces]
    rw [hraised]
    split
    · exact ⟨hraised, hfound⟩
    · exact ih hfound

/-- What a poll finds is what the pieces of its plans give. -/
theorem run_plans_findings {hidden : TelemetryWarningCode → Bool} (plans : List (Str × FilePlan)) :
    ∀ p : Provider F, (run_plans settings around plans p).raised = false →
      (run_plans settings around plans p).provider.findings hidden
        = (run_pieces settings around (pieces plans) p).provider.findings hidden := by
  induction plans with
  | nil => exact fun _ _ => rfl
  | cons plan plans ih =>
    intro p h
    have hraised := run_plan_raised settings around plan.2 (file_name plan.1) p
    have hfound := run_plan_findings settings around hidden plan.2 (file_name plan.1) p
    simp only [run_plans] at h ⊢
    split at h
    · rename_i hyes
      rw [hyes] at h
      cases h
    · rename_i hno
      rw [if_neg hno, ih _ h]
      have hfirst : (run_pieces settings around (plan.2.events.map fun event =>
          (file_name plan.1, event)) p).raised = false := by
        rw [run_pieces_of_file, ← hraised]
        exact Bool.eq_false_of_not_eq_true hno
      have hpieces : pieces (plan :: plans)
          = plan.2.events.map (fun event => (file_name plan.1, event)) ++ pieces plans := rfl
      rw [hpieces, run_pieces_append settings around _ _ _ hfirst, run_pieces_of_file]
      exact (findings_run_pieces settings around around _ hfound).2

/-- Where the cursors are after a poll. -/
theorem run_plans_file_cursors (path : Str) (plans : List (Str × FilePlan)) :
    ∀ p : Provider F, (run_plans settings around plans p).raised = false →
      (plans.map Prod.fst).Nodup → (∀ plan ∈ plans, ∀ cursor ∈ plan.2.cursor, cursor.path = plan.1) →
      (run_plans settings around plans p).provider.file_cursors.get path
        = ((plans.lookup path).bind FilePlan.cursor).or (p.file_cursors.get path) := by
  induction plans with
  | nil => exact fun _ _ _ _ => rfl
  | cons plan plans ih =>
    intro p h hnodup hpaths
    obtain ⟨file, plan⟩ := plan
    rw [List.map_cons, List.nodup_cons] at hnodup
    have hcursors := file_cursors_run_events settings around (file_name file) plan.events p
    simp only [run_plans] at h ⊢
    split at h
    · rename_i hyes
      rw [hyes] at h
      cases h
    · rename_i hno
      rw [if_neg hno, ih _ h hnodup.2 fun plan hplan => hpaths plan (List.mem_cons_of_mem _ hplan)]
      rw [run_plan_raised] at hno
      rw [List.lookup_cons]
      by_cases hpath : path = file
      · subst hpath
        have hlookup : plans.lookup path = none := by
          rw [List.lookup_eq_none_iff]
          intro other hother
          rw [bne_iff_ne]
          rintro rfl
          exact hnodup.1 (List.mem_map.2 ⟨other, hother, rfl⟩)
        rw [hlookup, beq_self_eq_true]
        simp only [Option.bind_none, Option.none_or, Option.bind_some]
        unfold FilePlan.run
        dsimp only
        rw [if_neg hno]
        show ((plan.cursor.map _).getD (run_events settings around (file_name path) plan.events
          p).provider.file_cursors).get path = _
        rw [hcursors]
        cases hcursor : plan.cursor with
        | none => rfl
        | some cursor =>
          have hkey : cursor.path = path := hpaths _ List.mem_cons_self cursor hcursor
          show (p.file_cursors.put cursor).get path = some cursor
          rw [← hkey]
          exact Table.get_put_self _ cursor
      · rw [beq_false_of_ne hpath]
        refine congrArg _ (file_cursors_run settings around plan (file_name file) path p ?_)
        intro cursor hcursor heq
        exact hpath (heq.symm.trans (hpaths (file, plan) List.mem_cons_self cursor hcursor))

theorem discover_file_cursors :
    (discover_selected_files settings around p).2.file_cursors = p.file_cursors := by
  unfold discover_selected_files
  split
  · rfl
  · dsimp only
    split <;> rfl

theorem nodup_discovered : ((discover_selected_files settings around p).1.map DirEntry.path).Nodup := by
  unfold discover_selected_files
  split
  · exact List.nodup_nil
  · rename_i directory _
    have hsorted : (((directory.rows.filter is_managed_jsonl_path).insertionSort
        (priority_le around p)).map DirEntry.path).Nodup := by
      have hfilter : ((directory.rows.filter is_managed_jsonl_path).map DirEntry.path).Nodup :=
        (List.filter_sublist.map DirEntry.path).nodup directory.nodup
      exact (((List.perm_insertionSort _ _).map DirEntry.path).nodup_iff).2 hfilter
    dsimp only
    split
    · exact ((List.take_sublist _ _).map DirEntry.path).nodup hsorted
    · exact hsorted

/-- The plans of a poll. -/
def poll_plans (p : Provider F) : List (Str × FilePlan) :=
  file_plans settings around p.file_cursors (discover_selected_files settings around p).1
    settings.limits.max_total_bytes

theorem map_fst_file_plans (files : List DirEntry) :
    ∀ remaining_bytes, (file_plans settings around cursors files remaining_bytes).map Prod.fst
      = files.map DirEntry.path := by
  induction files with
  | nil => exact fun _ => rfl
  | cons file files ih =>
    intro remaining_bytes
    rw [file_plans, List.map_cons, List.map_cons, ih]

theorem path_of_file_plans (files : List DirEntry) :
    ∀ remaining_bytes, ∀ plan ∈ file_plans settings around cursors files remaining_bytes,
      ∀ cursor ∈ plan.2.cursor, cursor.path = plan.1 := by
  induction files with
  | nil => exact fun _ _ h => by cases h
  | cons file files ih =>
    intro remaining_bytes plan hplan
    rw [file_plans] at hplan
    rcases List.mem_cons.1 hplan with rfl | hplan
    · exact path_of_file_plan settings around
    · exact ih _ plan hplan

theorem ingest_incremental_eq :
    ingest_incremental settings around p
      = let ran := run_plans settings around (poll_plans settings around p)
          (discover_selected_files settings around p).2
        if ran.raised then ran
        else
          let p' := if (poll_plans settings around p).any fun plan => plan.2.deferred_due_to_budget then
              ran.provider.record_warning .SIZE_LIMIT_EXCEEDED
            else ran.provider
          if (missing_paths (discover_selected_files settings around p).1 p').isEmpty then ⟨p', false⟩
          else ⟨{ p' with dirty := true }, false⟩ := by
  have hfiles := ingest_selected_files_eq settings around p.file_cursors
    (discover_selected_files settings around p).1 (nodup_discovered settings around p)
    settings.limits.max_total_bytes false (discover_selected_files settings around p).2
    fun file _ => by rw [discover_file_cursors]
  dsimp only at hfiles
  rw [← poll_plans] at hfiles
  unfold ingest_incremental
  by_cases hraised : (run_plans settings around (poll_plans settings around p)
      (discover_selected_files settings around p).2).raised = true
  · simp only [hraised, if_true] at hfiles ⊢
    rw [hfiles]
    simp only [hraised, if_true]
  · simp only [hraised, Bool.false_eq_true, if_false, Bool.false_or] at hfiles ⊢
    have heta : run_plans settings around (poll_plans settings around p)
          (discover_selected_files settings around p).2
        = ⟨(run_plans settings around (poll_plans settings around p)
          (discover_selected_files settings around p).2).provider, false⟩ := by
      rw [← Bool.eq_false_iff.2 hraised]
    by_cases hdeferred : ((poll_plans settings around p).any
        fun plan => plan.2.deferred_due_to_budget) = true
    · rw [if_pos hdeferred] at hfiles
      rw [if_pos hdeferred, hfiles]
      simp only [Bool.false_eq_true, if_false]
    · rw [if_neg hdeferred] at hfiles
      rw [if_neg hdeferred, hfiles]
      simp only [hraised, Bool.false_eq_true, if_false]
      rw [← heta]

end Plans

end AgentSpace.Telemetry.Otel
