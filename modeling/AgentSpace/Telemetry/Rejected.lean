/-
What is left of a rejected checkpoint.

`_replay_all_files` keeps what the restore has assigned by then. So the reader is as one
without a checkpoint, with a warning, if and only if what was assigned amounts to nothing
(`as_good_as_none_iff`).
-/
import AgentSpace.Telemetry.Checkpoint

set_option autoImplicit false

namespace AgentSpace.Telemetry.Otel

open Lib

/-! ## A warning before a replay -/

/-- A reader with one more warning. -/
def Ran.warned {F : Type} (code : TelemetryWarningCode) (ran : Ran F) : Ran F :=
  ⟨ran.provider.record_warning code, ran.raised⟩

section Warned

variable {F : Type} (code : TelemetryWarningCode)

theorem increment_comm (counts : WarningCounts) (c d : TelemetryWarningCode) :
    (counts.increment c).increment d = (counts.increment d).increment c := by
  by_cases hcd : c = d
  · rw [hcd]
  · funext e
    simp only [WarningCounts.increment, if_neg hcd, if_neg (Ne.symm hcd)]
    by_cases hc : e = c
    · rw [hc, if_neg hcd, if_pos rfl, if_pos rfl]
    · rw [if_neg hc, if_neg hc]

variable (p : Provider F)

theorem record_warning_comm (c d : TelemetryWarningCode) :
    (p.record_warning c).record_warning d = (p.record_warning d).record_warning c := by
  unfold Provider.record_warning
  simp only [Provider.mk.injEq, true_and, and_true]
  refine ⟨increment_comm p.warning_counts c d, ?_⟩
  split_ifs
  · exact Finset.insert_comm _ _ _
  all_goals rfl

theorem take_notes_record_warning (notes : List Note) (p : Provider F) :
    notes.foldl Provider.take_note (p.record_warning code)
      = (notes.foldl Provider.take_note p).record_warning code := by
  induction notes generalizing p with
  | nil => rfl
  | cons n notes ih =>
    rw [List.foldl_cons, List.foldl_cons, ← ih]
    cases n with
    | warning c => exact congrArg (List.foldl Provider.take_note · notes) (record_warning_comm p code c)
    | policy_conflict => rfl

theorem observe_source_time_record_warning (ns : ℤ) :
    (p.record_warning code).observe_source_time ns = (p.observe_source_time ns).record_warning code := by
  have hobserved : (p.record_warning code).observed_at_ns = p.observed_at_ns := rfl
  unfold Provider.observe_source_time
  rw [hobserved]
  cases p.observed_at_ns with
  | none => rfl
  | some observed =>
    dsimp only
    split_ifs
    · rfl
    · rfl

theorem keep_span_record_warning (limits : TelemetryReaderLimits) (p : Provider F) (span : TelemetrySpan F) :
    (p.record_warning code).keep_span limits span = (p.keep_span limits span).record_warning code := by
  have hspans : (p.record_warning code).spans = p.spans := rfl
  unfold Provider.keep_span
  rw [hspans]
  cases p.spans.get span.encoded with
  | none =>
    dsimp only
    split_ifs
    · exact record_warning_comm p code _
    · exact congrArg (fun q : Provider F => { q with dirty := true })
        (observe_source_time_record_warning code
          { p with
            spans := p.spans.put span
            source_version := span.source_version.or p.source_version } span.ended_at_ns)
  | some existing =>
    dsimp only
    split_ifs
    · rfl
    · exact record_warning_comm
        { p with duplicate_conflicts :=
          p.duplicate_conflicts ++ [⟨span.key, existing.provenance, span.provenance⟩] } code _

variable (settings : Settings F) (around : Surroundings)

theorem process_line_warned (now : Str) (provenance : SpanProvenance) (raw_line : List UInt8)
    (p : Provider F) :
    process_line settings now provenance raw_line (p.record_warning code)
      = (process_line settings now provenance raw_line p).warned code := by
  have hnotes := take_notes_record_warning code (span_of_line settings provenance raw_line).notes
    { p with received_at := some now }
  unfold process_line
  dsimp only
  rw [show ({ p.record_warning code with received_at := some now } : Provider F)
    = ({ p with received_at := some now } : Provider F).record_warning code from rfl, hnotes]
  cases (span_of_line settings provenance raw_line).result with
  | none => rfl
  | some found =>
    cases found with
    | none => rfl
    | some span =>
      dsimp only
      rw [keep_span_record_warning]
      rfl

theorem run_events_warned (file_name : Str) (events : List Event) (p : Provider F) :
    run_events settings around file_name events (p.record_warning code)
      = (run_events settings around file_name events p).warned code := by
  induction events generalizing p with
  | nil => rfl
  | cons event events ih =>
    cases event with
    | warning c =>
      rw [run_events, run_events, record_warning_comm, ih]
    | line offset raw_line =>
      rw [run_events, run_events, process_line_warned]
      generalize process_line settings around.now ⟨file_name, offset⟩ raw_line p = ran
      obtain ⟨q, raised⟩ := ran
      cases raised with
      | true => rfl
      | false => exact ih q

variable (file : DirEntry)

theorem read_file_warned (start_offset max_bytes : ℕ) (p : Provider F) :
    read_file settings around file start_offset max_bytes (p.record_warning code)
      = { read_file settings around file start_offset max_bytes p with
          ran := (read_file settings around file start_offset max_bytes p).ran.warned code } := by
  unfold read_file
  split_ifs
  · rfl
  · dsimp only
    rw [run_events_warned]
    generalize run_events settings around (file_name file.path) _ p = ran
    obtain ⟨q, raised⟩ := ran
    cases raised with
    | true => rfl
    | false => rfl

theorem seal_file_warned (device inode : ℤ) (p : Provider F) :
    seal_file file device inode (p.record_warning code)
      = (seal_file file device inode p).record_warning code := by
  unfold seal_file
  rw [record_warning_comm]
  rfl

theorem ingest_file_warned (max_bytes : ℕ) (p : Provider F) :
    ingest_file settings around file max_bytes (p.record_warning code)
      = { ingest_file settings around file max_bytes p with
          ran := (ingest_file settings around file max_bytes p).ran.warned code } := by
  have hcursors : (p.record_warning code).file_cursors = p.file_cursors := rfl
  unfold ingest_file
  rw [hcursors]
  cases p.file_cursors.get file.path with
  | none =>
    dsimp only
    split_ifs
    · rfl
    · exact read_file_warned code settings around file 0 max_bytes p
  | some cursor =>
    dsimp only
    split_ifs
    · rfl
    · rw [seal_file_warned]
      rfl
    · rw [seal_file_warned]
      rfl
    · rfl
    · exact read_file_warned code settings around file cursor.offset max_bytes p

theorem ingest_selected_files_warned (files : List DirEntry) (remaining_bytes : ℕ) (size_limited : Bool)
    (p : Provider F) :
    ingest_selected_files settings around files remaining_bytes size_limited (p.record_warning code)
      = (ingest_selected_files settings around files remaining_bytes size_limited p).warned code := by
  induction files generalizing remaining_bytes size_limited p with
  | nil =>
    cases size_limited with
    | false => rfl
    | true => exact congrArg (Ran.mk · false) (record_warning_comm p code .SIZE_LIMIT_EXCEEDED)
  | cons file files ih =>
    rw [ingest_selected_files, ingest_selected_files, ingest_file_warned]
    generalize ingest_file settings around file remaining_bytes p = result
    obtain ⟨⟨q, raised⟩, bytes_read, deferred⟩ := result
    cases raised with
    | true => rfl
    | false => exact ih _ _ q

theorem discover_selected_files_warned :
    discover_selected_files settings around (p.record_warning code)
      = ((discover_selected_files settings around p).1,
          (discover_selected_files settings around p).2.record_warning code) := by
  unfold discover_selected_files
  cases around.directory with
  | none => rfl
  | some directory =>
    have hordered : (directory.rows.filter is_managed_jsonl_path).insertionSort
          (priority_le around (p.record_warning code))
        = (directory.rows.filter is_managed_jsonl_path).insertionSort (priority_le around p) := rfl
    dsimp only
    rw [hordered]
    split_ifs
    · exact congrArg (Prod.mk _) (record_warning_comm
        { p with has_source_files := !(directory.rows.filter is_managed_jsonl_path).isEmpty }
        code .FILE_LIMIT_EXCEEDED)
    · rfl

theorem replay_all_files_warned :
    replay_all_files settings around (p.record_warning code)
      = (replay_all_files settings around p).warned code := by
  unfold replay_all_files
  dsimp only
  rw [show ({ p.record_warning code with
      spans := Table.empty
      file_cursors := Table.empty
      duplicate_conflicts := []
      observed_at_ns := none
      has_source_files := false } : Provider F) = ({ p with
      spans := Table.empty
      file_cursors := Table.empty
      duplicate_conflicts := []
      observed_at_ns := none
      has_source_files := false } : Provider F).record_warning code from rfl,
    discover_selected_files_warned]
  exact ingest_selected_files_warned code settings around _ _ _ _

end Warned

/-! ## Readers on which nothing is noted -/

/-- No warning is counted, or only the one of a corrupt checkpoint, no times. -/
def NoCounts (counts : WarningCounts) : Prop :=
  ∀ code count, counts code = some count → code = .CHECKPOINT_CORRUPT ∧ count = 0

/-- Nothing is noted on a reader that the warning of a corrupt checkpoint would not note. -/
structure Blank {F : Type} (p : Provider F) : Prop where
  counts : NoCounts p.warning_counts
  reasons : ∀ reason ∈ p.degraded_reasons, reason = str "checkpoint_corrupt"
  mode : p.content_mode = .METADATA
  version : p.source_version = none
  received : p.received_at = none

section Blank

variable {F : Type}

theorem increment_eq_iff {counts : WarningCounts} :
    counts.increment .CHECKPOINT_CORRUPT
        = WarningCounts.increment (fun _ => none) .CHECKPOINT_CORRUPT
      ↔ NoCounts counts := by
  constructor
  · intro h code count hcount
    have hcode := congrFun h code
    simp only [WarningCounts.increment] at hcode
    by_cases hcorrupt : code = .CHECKPOINT_CORRUPT
    · subst hcorrupt
      simp only [if_true, hcount, Option.getD_some, Option.getD_none, Option.some.injEq] at hcode
      exact ⟨rfl, by omega⟩
    · rw [if_neg hcorrupt, if_neg hcorrupt, hcount] at hcode
      cases hcode
  · intro h
    funext code
    simp only [WarningCounts.increment]
    by_cases hcorrupt : code = .CHECKPOINT_CORRUPT
    · rw [if_pos hcorrupt, if_pos hcorrupt]
      cases hcount : counts .CHECKPOINT_CORRUPT with
      | none => rfl
      | some count => rw [(h _ count hcount).2]; rfl
    · rw [if_neg hcorrupt, if_neg hcorrupt]
      cases hcount : counts code with
      | none => rfl
      | some count => exact absurd (h code count hcount).1 hcorrupt

theorem insert_reason_eq_iff {reasons : Finset Str} {reason : Str} :
    insert reason reasons = insert reason ∅ ↔ ∀ r ∈ reasons, r = reason := by
  rw [insert_empty_eq]
  constructor
  · intro h r hr
    have hmem : r ∈ insert reason reasons := Finset.mem_insert_of_mem hr
    rw [h] at hmem
    exact Finset.mem_singleton.1 hmem
  · intro h
    refine Finset.Subset.antisymm ?_ (Finset.singleton_subset_iff.2 (Finset.mem_insert_self _ _))
    exact Finset.insert_subset (Finset.mem_singleton_self _) (Finset.subset_singleton_iff'.2 h)

theorem record_warning_eq_iff {left : Restored F} :
    left.reader.record_warning .CHECKPOINT_CORRUPT = Provider.init.record_warning .CHECKPOINT_CORRUPT
      ↔ Blank left.reader := by
  have hdegraded : TelemetryWarningCode.CHECKPOINT_CORRUPT ∈ DEGRADED_WARNING_CODES := List.mem_cons_self
  constructor
  · intro h
    simp only [Provider.record_warning, if_pos hdegraded, Provider.mk.injEq] at h
    obtain ⟨-, -, -, -, -, -, hcounts, -, hreasons, hmode, hversion, -, hreceived⟩ := h
    exact ⟨increment_eq_iff.1 hcounts, insert_reason_eq_iff.1 hreasons, hmode, hversion, hreceived⟩
  · intro h
    simp only [Provider.record_warning, if_pos hdegraded, Provider.mk.injEq]
    exact ⟨rfl, rfl, trivial, rfl, rfl, rfl, increment_eq_iff.2 h.counts, rfl,
      insert_reason_eq_iff.2 h.reasons, h.mode, h.version, rfl, h.received⟩

end Blank

/-! ## As good as none -/

section AsGoodAsNone

variable {F : Type} (settings : Settings F)

/-- What comes of a start, with one more warning of a corrupt checkpoint. -/
def Loaded.warned : Loaded F → Loaded F
  | .replayed ran => .replayed (ran.warned .CHECKPOINT_CORRUPT)
  | loaded => loaded

/-- Whatever the reader finds around it, it starts as without a checkpoint, plus a warning. -/
def AsGoodAsNone (files : CheckpointFiles F) : Prop :=
  ∀ around, load_or_replay settings around files
    = (load_or_replay settings around ⟨none, none⟩).warned

/-- The checkpoint is refused, by the restore or before it. -/
def Rejects (files : CheckpointFiles F) : Prop :=
  match find_checkpoint settings files with
  | .corrupt => True
  | .holds version payload => ((restore settings.py version payload).run {}).1 = .error .rejected
  | _ => False

theorem load_missing (around : Surroundings) : (load_or_replay settings around ⟨none, none⟩).warned
      = .replayed (replay_all_files settings around (Provider.init.record_warning .CHECKPOINT_CORRUPT)) := by
  rw [replay_all_files_warned]
  rfl

/-- Where there is no directory, a replay leaves the reader as a restore left it. -/
theorem replay_of_no_directory {around : Surroundings} (hnone : around.directory = none)
    (left : Restored F) :
    replay_all_files settings around (left.reader.record_warning .CHECKPOINT_CORRUPT)
      = ⟨left.reader.record_warning .CHECKPOINT_CORRUPT, false⟩ := by
  simp only [replay_all_files, discover_selected_files, hnone, ingest_selected_files]
  rfl

/-- A rejected checkpoint is as good as none if and only if nothing of it is noted. -/
theorem as_good_as_none_of_left {files : CheckpointFiles F} {left : Restored F}
    (hload : ∀ around, load_or_replay settings around files
      = .replayed (replay_all_files settings around (left.reader.record_warning .CHECKPOINT_CORRUPT))) :
    AsGoodAsNone settings files ↔ Blank left.reader := by
  rw [← record_warning_eq_iff]
  constructor
  · intro h
    -- with nothing to read, the reader stays as it was left
    let around : Surroundings := ⟨none, ⟨.IDLE, none, none⟩, []⟩
    have hran := h around
    rw [hload, load_missing, Loaded.replayed.injEq, replay_of_no_directory settings rfl,
      show (Provider.init : Provider F) = ({} : Restored F).reader from rfl,
      replay_of_no_directory settings rfl] at hran
    exact congrArg Ran.provider hran
  · intro h around
    rw [hload, load_missing, h]

end AsGoodAsNone

/-! ## What a checkpoint notes before it is refused -/

/-- The count of a code after some entries of the warnings: that of its last entry. -/
def last_count (entries : List (Option (TelemetryWarningCode × ℕ))) (code : TelemetryWarningCode) :
    Option ℕ :=
  entries.reverse.findSome? fun entry => entry.bind fun found => if code = found.1 then some found.2 else none

section Payload

variable {F : Type} (py : Python F)

/-- The warnings are all taken over. -/
def CountsPass (payload : List (Str × Value F)) : Prop :=
  ∃ warnings, mapping (get payload "warnings") = some warnings
    ∧ (Effect.intake (check_count py) warnings).2 = .ok ()

/-- The items of a list in the checkpoint are all taken over. -/
def ItemsPass {α : Type} (deserialize : List (Str × Value F) → Except Refusal α)
    (payload : List (Str × Value F)) (key : String) : Prop :=
  ∃ items, sequence (get payload key) = some items
    ∧ (Effect.intake (check_item deserialize) items).2 = .ok ()

/-- `_restore_checkpoint_metadata` goes through. -/
structure MetadataPasses (payload : List (Str × Value F)) : Prop where
  warnings : CountsPass py payload
  degraded_reasons : (string_sequence (get payload "degraded_reasons")).isSome
  content_mode : (content_mode_part payload).isSome
  files : ItemsPass (deserialize_file_cursor py) payload "files"
  conflicts : ItemsPass (deserialize_duplicate_conflict py) payload "duplicate_conflicts"

/-- The spans of a checkpoint before the first that is refused, if the restore comes to them. -/
def spans_read (version : ℤ) (payload : List (Str × Value F)) : List (RestoredSpan F) :=
  let items := (sequence (get payload "spans")).getD []
  if version = 1 then (Effect.intake (check_item (deserialize_span py)) items).1
  else
    match string_sequence (get payload "source_files") with
    | none => []
    | some source_files => (Effect.intake (check_item (deserialize_compact_span py source_files)) items).1

/-- The metadata assign nothing before they are refused, if they are: no warning is counted, no
reason given but that of a corrupt checkpoint, and no mode, version or time that is not the one
of a new reader. -/
structure MetadataNothing (payload : List (Str × Value F)) : Prop where
  warnings : ∀ warnings, mapping (get payload "warnings") = some warnings →
    NoCounts (last_count (Effect.intake (check_count py) warnings).1)
  degraded_reasons : CountsPass py payload →
    ∀ reasons, string_sequence (get payload "degraded_reasons") = some reasons →
      ∀ reason ∈ reasons, reason = str "checkpoint_corrupt"
  content_mode : CountsPass py payload → (string_sequence (get payload "degraded_reasons")).isSome →
    ∀ mode, content_mode_part payload = some mode →
      mode = .METADATA ∧ parse_string (get payload "source_version") = none
        ∧ parse_string (get payload "received_at") = none

/-- Nothing is assigned before the checkpoint is refused: also no version by a span. What is behind
the part that is refused may be anything. -/
structure NotesNothing (version : ℤ) (payload : List (Str × Value F)) : Prop where
  metadata : MetadataNothing py payload
  spans : MetadataPasses py payload → ∀ span ∈ spans_read py version payload, span.source_version = none

theorem last_count_append (entries : List (Option (TelemetryWarningCode × ℕ)))
    (entry : Option (TelemetryWarningCode × ℕ)) (code : TelemetryWarningCode) :
    last_count (entries ++ [entry]) code
      = (entry.bind fun found => if code = found.1 then some found.2 else none).or
        (last_count entries code) := by
  rw [last_count, List.reverse_append, List.reverse_singleton, List.singleton_append, List.findSome?_cons]
  cases entry.bind fun found => if code = found.1 then some found.2 else none with
  | none => rfl
  | some count => rfl

theorem foldl_take_count (entries : List (Option (TelemetryWarningCode × ℕ))) :
    entries.foldl Restored.take_count ({} : Restored F) = { warning_counts := last_count entries } := by
  induction entries using List.reverseRecOn with
  | nil => rfl
  | append_singleton entries entry ih =>
    have hcounts : (Restored.take_count ({ warning_counts := last_count entries } :
      Restored F) entry).warning_counts
        = last_count (entries ++ [entry]) := by
      funext code
      rw [last_count_append]
      cases entry with
      | none => rfl
      | some found =>
        show (if code = found.1 then some found.2 else last_count entries code)
          = (if code = found.1 then some found.2 else none).or (last_count entries code)
        split_ifs
        · rfl
        · rfl
    rw [List.foldl_append, ih, List.foldl_cons, List.foldl_nil, ← hcounts]
    cases entry with
    | none => rfl
    | some found => rfl

theorem reader_foldl_take_cursor (cursors : List RestoredCursor) (r : Restored F) :
    (cursors.foldl Restored.take_cursor r).reader = r.reader := by
  induction cursors generalizing r with
  | nil => rfl
  | cons cursor cursors ih => exact ih (r.take_cursor cursor)

theorem reader_foldl_take_conflict (conflicts : List RestoredConflict) (r : Restored F) :
    (conflicts.foldl Restored.take_conflict r).reader = r.reader := by
  induction conflicts generalizing r with
  | nil => rfl
  | cons conflict conflicts ih => exact ih (r.take_conflict conflict)

theorem blank_foldl_take_span (spans : List (RestoredSpan F)) (r : Restored F) :
    Blank (spans.foldl Restored.take_span r).reader
      ↔ Blank r.reader ∧ ∀ span ∈ spans, span.source_version = none := by
  induction spans generalizing r with
  | nil => simp
  | cons span spans ih =>
    have hstep : Blank (r.take_span span).reader ↔ Blank r.reader ∧ span.source_version = none := by
      constructor
      · rintro ⟨hcounts, hreasons, hmode, hversion, hreceived⟩
        have hnone := Option.or_eq_none_iff.1 hversion
        exact ⟨⟨hcounts, hreasons, hmode, hnone.2, hreceived⟩, hnone.1⟩
      · rintro ⟨⟨hcounts, hreasons, hmode, hversion, hreceived⟩, hspan⟩
        exact ⟨hcounts, hreasons, hmode, Option.or_eq_none_iff.2 ⟨hspan, hversion⟩, hreceived⟩
    rw [List.foldl_cons, ih, hstep, List.forall_mem_cons, and_assoc]

theorem run_restore_list {α : Type} (key : String) (deserialize : List (Str × Value F) → Except Refusal α)
    (reset : Restored F → Restored F) (take : Restored F → α → Restored F)
    (payload : List (Str × Value F)) (r : Restored F) :
    (restore_list key deserialize reset take payload).run r
      = match sequence (get payload key) with
        | none => (.error .rejected, r)
        | some items => ((Effect.intake (check_item deserialize) items).2,
            (Effect.intake (check_item deserialize) items).1.foldl take (reset r)) := by
  simp only [restore_list, Effect.run_bind, Effect.run_given]
  cases sequence (get payload key) with
  | none => rfl
  | some items =>
    simp only [demand, Effect.run_change, Effect.run_take_in]

/-- A list goes through if and only if its items do. -/
theorem restore_list_ok_iff {α : Type} {key : String}
    {deserialize : List (Str × Value F) → Except Refusal α}
    {reset : Restored F → Restored F} {take : Restored F → α → Restored F}
    {payload : List (Str × Value F)} {r : Restored F} :
    ((restore_list key deserialize reset take payload).run r).1 = .ok ()
      ↔ ItemsPass deserialize payload key := by
  rw [run_restore_list, ItemsPass]
  cases sequence (get payload key) with
  | none => simp
  | some items => simp

variable (payload : List (Str × Value F))

theorem reader_restore_files (r : Restored F) : ((restore_files py payload).run r).2.reader = r.reader := by
  rw [restore_files, run_restore_list]
  cases sequence (get payload "files") with
  | none => rfl
  | some items => exact reader_foldl_take_cursor _ _

theorem reader_restore_conflicts (r : Restored F) :
    ((restore_conflicts py payload).run r).2.reader = r.reader := by
  rw [restore_conflicts, run_restore_list]
  cases sequence (get payload "duplicate_conflicts") with
  | none => rfl
  | some items => exact reader_foldl_take_conflict _ _

/-- The files and the conflicts are not among what is noted. -/
theorem run_restore_lists (r : Restored F) :
    ((do restore_files py payload; restore_conflicts py payload : Restore F Unit).run r).2.reader = r.reader
      ∧ (((do restore_files py payload; restore_conflicts py payload : Restore F Unit).run r).1 = .ok ()
        ↔ ItemsPass (deserialize_file_cursor py) payload "files"
          ∧ ItemsPass (deserialize_duplicate_conflict py) payload "duplicate_conflicts") := by
  have hfiles : ((restore_files py payload).run r).1 = .ok ()
      ↔ ItemsPass (deserialize_file_cursor py) payload "files" := restore_list_ok_iff
  have hreader := reader_restore_files py payload r
  rw [Effect.run_bind, ← hfiles]
  generalize (restore_files py payload).run r = run at hreader ⊢
  rcases run with ⟨e | _, s⟩
  · exact ⟨hreader, by simp⟩
  · refine ⟨(reader_restore_conflicts py payload s).trans hreader, ?_⟩
    rw [show ((restore_conflicts py payload).run s).1 = .ok ()
      ↔ ItemsPass (deserialize_duplicate_conflict py) payload "duplicate_conflicts" from restore_list_ok_iff]
    simp

theorem blank_reader_iff {r : Restored F} :
    Blank r.reader ↔ NoCounts r.warning_counts
      ∧ (∀ reason ∈ r.degraded_reasons, reason = str "checkpoint_corrupt")
      ∧ r.content_mode = .METADATA ∧ r.source_version = none ∧ r.received_at = none :=
  ⟨fun h => ⟨h.counts, h.reasons, h.mode, h.version, h.received⟩,
    fun ⟨hcounts, hreasons, hmode, hversion, hreceived⟩ => ⟨hcounts, hreasons, hmode, hversion, hreceived⟩⟩

theorem noCounts_none : NoCounts fun _ => none := fun _ _ h => by cases h

theorem metadataNothing_iff {payload warnings : List (Str × Value F)}
    (hwarnings : mapping (get payload "warnings") = some warnings) :
    MetadataNothing py payload ↔ NoCounts (last_count (Effect.intake (check_count py) warnings).1)
      ∧ ((Effect.intake (check_count py) warnings).2 = .ok () →
        ∀ reasons, string_sequence (get payload "degraded_reasons") = some reasons →
          (∀ reason ∈ reasons, reason = str "checkpoint_corrupt")
          ∧ ∀ mode, content_mode_part payload = some mode →
            mode = .METADATA ∧ parse_string (get payload "source_version") = none
              ∧ parse_string (get payload "received_at") = none) := by
  have hunique : ∀ warnings', mapping (get payload "warnings") = some warnings' → warnings' = warnings :=
    fun warnings' h => (Option.some.inj (hwarnings.symm.trans h)).symm
  constructor
  · intro h
    refine ⟨h.warnings warnings hwarnings, fun hok reasons hreasons => ?_⟩
    have hpass : CountsPass py payload := ⟨warnings, hwarnings, hok⟩
    exact ⟨h.degraded_reasons hpass reasons hreasons, h.content_mode hpass (Option.isSome_of_mem hreasons)⟩
  · rintro ⟨hcounts, hrest⟩
    have hok : CountsPass py payload → (Effect.intake (check_count py) warnings).2 = .ok () := by
      rintro ⟨warnings', hw, hok⟩
      rwa [hunique warnings' hw] at hok
    refine ⟨fun warnings' hw => ?_, fun hpass reasons hreasons => (hrest (hok hpass) reasons hreasons).1,
      fun hpass hsome => ?_⟩
    · rwa [hunique warnings' hw]
    · obtain ⟨reasons, hreasons⟩ := Option.isSome_iff_exists.1 hsome
      exact (hrest (hok hpass) reasons hreasons).2

/-- What the metadata note, and whether they go through. -/
theorem run_restore_metadata :
    (((restore_checkpoint_metadata py payload).run {}).1 = .ok () ↔ MetadataPasses py payload)
      ∧ (Blank ((restore_checkpoint_metadata py payload).run {}).2.reader ↔ MetadataNothing py payload) := by
  unfold restore_checkpoint_metadata
  cases hwarnings : mapping (get payload "warnings") with
  | none =>
    have hno : ¬ CountsPass py payload := by
      rintro ⟨warnings, h, -⟩
      rw [hwarnings] at h
      cases h
    simp only [Effect.run_bind, Effect.run_given, demand]
    refine ⟨iff_of_false (by simp) fun h => hno h.warnings, iff_of_true ?_ ?_⟩
    · exact blank_reader_iff.2 ⟨noCounts_none, by simp, rfl, rfl, rfl⟩
    · exact ⟨by simp [hwarnings], fun h => absurd h hno, fun h => absurd h hno⟩
  | some warnings =>
    rw [metadataNothing_iff py hwarnings]
    simp only [Effect.run_bind, Effect.run_given, Effect.run_change, Effect.run_take_in, demand,
      foldl_take_count]
    cases hcounts : (Effect.intake (check_count py) warnings).2 with
    | error e =>
      refine ⟨iff_of_false (by simp) fun h => ?_, ?_⟩
      · obtain ⟨warnings', hw, hok⟩ := h.warnings
        rw [← Option.some.inj (hwarnings.symm.trans hw), hcounts] at hok
        cases hok
      · rw [blank_reader_iff]
        simp
    | ok _ =>
      dsimp only
      cases hreasons : string_sequence (get payload "degraded_reasons") with
      | none =>
        refine ⟨iff_of_false (by simp) fun h => ?_, ?_⟩
        · have hsome := h.degraded_reasons
          simp [hreasons] at hsome
        · rw [blank_reader_iff]
          simp
      | some reasons =>
        dsimp only
        cases hmode : content_mode_part payload with
        | none =>
          refine ⟨iff_of_false (by simp) fun h => ?_, ?_⟩
          · have hsome := h.content_mode
            simp [hmode] at hsome
          · rw [blank_reader_iff]
            simp
        | some mode =>
          -- the lists are not among what is noted
          have hlists := run_restore_lists py payload
          simp only [Effect.run_bind] at hlists
          refine ⟨(hlists _).2.trans ?_, ?_⟩
          · constructor
            · rintro ⟨hfiles, hconflicts⟩
              exact ⟨⟨warnings, hwarnings, hcounts⟩, by simp [hreasons], by simp [hmode], hfiles, hconflicts⟩
            · exact fun h => ⟨h.files, h.conflicts⟩
          · rw [(hlists _).1, blank_reader_iff]
            simp

theorem blank_restore_spans (deserialize : List (Str × Value F) → Except Refusal (RestoredSpan F))
    (payload : List (Str × Value F)) (r : Restored F) :
    Blank ((restore_spans deserialize payload).run r).2.reader ↔ Blank r.reader
      ∧ ∀ span ∈ (Effect.intake (check_item deserialize) ((sequence (get payload "spans")).getD [])).1,
        span.source_version = none := by
  rw [restore_spans, run_restore_list]
  cases sequence (get payload "spans") with
  | none => simp [Effect.intake]
  | some items => exact blank_foldl_take_span _ { r with spans := Table.empty }

/-- A restore notes nothing if and only if its metadata do not, and no span before the first that
is refused. -/
theorem blank_restore_iff (version : ℤ) (payload : List (Str × Value F)) :
    Blank ((restore py version payload).run {}).2.reader ↔ NotesNothing py version payload := by
  obtain ⟨hok, hblank⟩ := run_restore_metadata py payload
  have hnotes : NotesNothing py version payload ↔ MetadataNothing py payload
      ∧ (MetadataPasses py payload → ∀ span ∈ spans_read py version payload, span.source_version = none) :=
    ⟨fun h => ⟨h.metadata, h.spans⟩, fun ⟨hmetadata, hspans⟩ => ⟨hmetadata, hspans⟩⟩
  rw [hnotes, ← hblank, ← hok]
  unfold restore spans_read restore_checkpoint restore_compact_checkpoint
  by_cases hversion : version = 1
  · rw [if_pos hversion, if_pos hversion, Effect.run_bind]
    rcases (restore_checkpoint_metadata py payload).run {} with ⟨e | _, r⟩
    · simp
    · simpa using blank_restore_spans (deserialize_span py) payload r
  · rw [if_neg hversion, if_neg hversion, Effect.run_bind]
    rcases (restore_checkpoint_metadata py payload).run {} with ⟨e | _, r⟩
    · simp
    · dsimp only
      rw [Effect.run_bind, Effect.run_given]
      cases string_sequence (get payload "source_files") with
      | none => simp [demand]
      | some source_files =>
        simpa [demand] using blank_restore_spans (deserialize_compact_span py source_files) payload r

end Payload

/-! ## The claims of a rejected checkpoint -/

section Rejected

variable {F : Type} (settings : Settings F)

/-- The checkpoint, as far as it is restored, notes nothing before it is refused. -/
def LeavesNothing (files : CheckpointFiles F) : Prop :=
  match find_checkpoint settings files with
  | .holds version payload => NotesNothing settings.py version payload
  | _ => True

/-- **A rejected checkpoint** is as good as none, plus one warning, if and only if nothing of it is
noted before the part for which it is rejected. -/
theorem as_good_as_none_iff (files : CheckpointFiles F) (h : Rejects settings files) :
    AsGoodAsNone settings files ↔ LeavesNothing settings files := by
  unfold Rejects at h
  unfold LeavesNothing
  cases hfound : find_checkpoint settings files with
  | missing | newer | raises => simp [hfound] at h
  | corrupt =>
    refine iff_of_true (fun around => ?_) trivial
    rw [load_missing]
    simp only [load_or_replay, hfound]
  | holds version payload =>
    rw [hfound] at h
    have hblank := blank_restore_iff settings.py version payload
    have hrun : (restore settings.py version payload).run {}
      = (.error .rejected, ((restore settings.py version payload).run {}).2) := Prod.ext h rfl
    refine Iff.trans (as_good_as_none_of_left settings fun around => ?_) hblank
    simp only [load_or_replay, hfound]
    rw [hrun]

/-- A reader that has no lines to read. -/
def without_lines : Settings ℚ := ⟨Python.small fun _ => .malformed, {}, none⟩

/-- A checkpoint file of some content. -/
def checkpoint_with (entries : List (Str × Value ℚ)) : CheckpointFiles ℚ :=
  ⟨some ⟨some 200, .value (.object entries)⟩, none⟩

/-- A checkpoint that is only a version. -/
def bare_checkpoint : List (Str × Value ℚ) := [(str "checkpoint_version", .int 2)]

theorem bare_checkpoint_is_as_good_as_none :
    Rejects without_lines (checkpoint_with bare_checkpoint)
      ∧ AsGoodAsNone without_lines (checkpoint_with bare_checkpoint) := by
  have hrejects : Rejects without_lines (checkpoint_with bare_checkpoint) := rfl
  refine ⟨hrejects, (as_good_as_none_iff _ _ hrejects).2 ?_⟩
  have hno : ¬ CountsPass without_lines.py bare_checkpoint := by
    rintro ⟨warnings, hwarnings, -⟩
    cases hwarnings
  show NotesNothing without_lines.py 2 bare_checkpoint
  exact ⟨⟨fun _ hwarnings => (by cases hwarnings), fun hpass => absurd hpass hno,
    fun hpass => absurd hpass hno⟩, fun hpasses => absurd hpasses.warnings hno⟩

/-- A checkpoint without degraded reasons, with three warnings of malformed records. -/
def cut_off_checkpoint : List (Str × Value ℚ) :=
  [(str "checkpoint_version", .int 2), (str "warnings", .object [(str "malformed_record", .int 3)])]

/-- The three warnings are still counted after the checkpoint is rejected. -/
theorem warnings_of_rejected_survive :
    ¬ ∀ files : CheckpointFiles ℚ, Rejects without_lines files → AsGoodAsNone without_lines files := by
  intro h
  have hrejects : Rejects without_lines (checkpoint_with cut_off_checkpoint) := rfl
  let left := ((restore without_lines.py 2 cut_off_checkpoint).run {}).2
  have hload : ∀ around, load_or_replay without_lines around (checkpoint_with cut_off_checkpoint)
      = .replayed (replay_all_files without_lines around
        (left.reader.record_warning .CHECKPOINT_CORRUPT)) := fun _ => rfl
  have hblank := (as_good_as_none_of_left without_lines hload).1 (h _ hrejects)
  have hcount : left.reader.warning_counts .MALFORMED_RECORD = some 3 := rfl
  cases (hblank.counts _ _ hcount).1

end Rejected

end AgentSpace.Telemetry.Otel
