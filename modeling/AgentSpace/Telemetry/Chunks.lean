/-
How a growing telemetry file is cut into polls does not matter.

A line is read once it is complete, so what the reader has found after a poll is what the
lines before its cursor give (`read_visit`). A cut is noticed when a poll runs out of
budget, when an unfinished line is given up, and when a carriage return makes the cursor
drift.
-/
import AgentSpace.Telemetry.Lines
import AgentSpace.Telemetry.Polls

set_option autoImplicit false

namespace AgentSpace.Telemetry.Otel

open Lib

/-! ## Polls of a growing file -/

/-- Of the warnings, that a poll was stopped by its budget. -/
def but_budget (code : TelemetryWarningCode) : Bool := code = .SIZE_LIMIT_EXCEEDED

theorem findings_size_limit {F : Type} (p : Provider F) :
    (p.record_warning .SIZE_LIMIT_EXCEEDED).findings but_budget = p.findings but_budget :=
  findings_of_hidden rfl p

/-- The file when only so much of it is there. -/
def DirEntry.upto (file : DirEntry) (size : ℕ) : DirEntry :=
  { file with content := file.content.take size }

/-- A poll of a growing file: how much of it is there, how many bytes may be read, and
what is known of the runtime at the time. -/
structure Visit where
  size : ℕ
  budget : ℕ
  info : TelemetryRuntimeInfo
  now : Str

/-- What the poll finds. -/
def Visit.around (v : Visit) (file : DirEntry) : Surroundings :=
  ⟨some ⟨[file.upto v.size], List.nodup_singleton _⟩, v.info, v.now⟩

section Visits

variable {F : Type} (settings : Settings F) (file : DirEntry)

/-- The poll: `_ingest_selected_files` for the one file. -/
def visit (v : Visit) (p : Provider F) : Ran F :=
  ingest_selected_files settings (v.around file) [file.upto v.size] v.budget false p

/-- The offset the poll starts at. -/
def start_offset (p : Provider F) : ℕ := ((p.file_cursors.get file.path).map FileCursor.offset).getD 0

/-- The bytes the poll reads. -/
def piece (v : Visit) (start : ℕ) : List UInt8 :=
  ((file.content.take v.size).drop start).take (min (v.size - start) v.budget)

/-- What the poll does with them, and where it leaves the cursor. -/
def consumed (v : Visit) (start : ℕ) : List Event × ℕ :=
  consume_complete_records settings.limits v.info file.path (piece file v start) start
    (start + (piece file v start).length) v.size

/-- The poll gives up the unfinished line at the end of what it reads. -/
def gives_up (v : Visit) (start : ℕ) : Bool :=
  (discard_trailing settings.limits v.info file.path (trailing (piece file v start))
    (start + (piece file v start).length) v.size).isSome

/-- No poll gives up an unfinished line. -/
def Quiet : List Visit → Provider F → Prop
  | [], _ => True
  | v :: visits, p =>
    gives_up settings file v (start_offset file p) = false
      ∧ Quiet visits (visit settings file v p).provider

/-- The cursor of the file stands at the offset. -/
def StandsAt (start : ℕ) (p : Provider F) : Prop :=
  (p.file_cursors.get file.path = none ∧ start = 0)
    ∨ p.file_cursors.get file.path = some ⟨file.path, file.device, file.inode, start, false⟩

variable {settings file} {v : Visit} {start : ℕ} {p : Provider F}

theorem start_offset_of_standsAt (h : StandsAt file start p) : start_offset file p = start := by
  unfold start_offset
  rcases h with ⟨hnone, rfl⟩ | hsome
  · rw [hnone]
    rfl
  · rw [hsome]
    rfl

theorem standsAt_put (offset : ℕ) (p : Provider F) {dirty : Bool} :
    StandsAt file offset { p with
      file_cursors := p.file_cursors.put ⟨file.path, file.device, file.inode, offset, false⟩
      dirty := dirty } :=
  Or.inr (Table.get_put_self p.file_cursors ⟨file.path, file.device, file.inode, offset, false⟩)

theorem standsAt_of_file_cursors {q : Provider F} (h : q.file_cursors = p.file_cursors)
    (hp : StandsAt file start p) : StandsAt file start q := by
  unfold StandsAt at hp ⊢
  rwa [h]

/-- What a poll of the file comes to. -/
structure Visits (settings : Settings F) (file : DirEntry) (v : Visit) (start : ℕ) (p : Provider F)
    (ran : Ran F) : Prop where
  raised : ran.raised
    = (run_events settings (v.around file) (file_name file.path) (consumed settings file v start).1 p).raised
  findings : ran.provider.findings but_budget
    = (run_events settings (v.around file) (file_name file.path)
        (consumed settings file v start).1 p).provider.findings but_budget
  stays : ran.raised = true → StandsAt file start ran.provider
  moves : ran.raised = false → StandsAt file (consumed settings file v start).2 ran.provider

theorem consumed_of_piece_eq_nil (h : piece file v start = []) :
    consumed settings file v start = ([], start) := by
  rw [consumed, consume_complete_records, if_pos h]

variable (settings) in
theorem ingest_file_visits (hp : StandsAt file start p) (hstart : start ≤ v.size)
    (hsize : v.size ≤ file.content.length) :
    Visits settings file v start p
      (ingest_file settings (v.around file) (file.upto v.size) v.budget p).ran := by
  have hlength : (file.upto v.size).content.length = v.size := by
    show (file.content.take v.size).length = v.size
    rw [List.length_take]
    omega
  -- nothing is read
  have hnone : ∀ q : Provider F, q.findings but_budget = p.findings but_budget → StandsAt file start q →
      piece file v start = [] → Visits settings file v start p ⟨q, false⟩ := by
    intro q hq hstands hpiece
    refine ⟨?_, ?_, (fun h => by cases h), fun _ => ?_⟩
    · rw [consumed_of_piece_eq_nil hpiece]
      rfl
    · rw [consumed_of_piece_eq_nil hpiece]
      exact hq
    · rw [consumed_of_piece_eq_nil hpiece]
      exact hstands
  have hread : start < v.size → Visits settings file v start p
      (read_file settings (v.around file) (file.upto v.size) start v.budget p).ran := by
    intro hlt
    unfold read_file
    by_cases hbudget : v.budget = 0
    · rw [if_pos hbudget]
      exact hnone p rfl hp (by rw [piece, hbudget, Nat.min_zero, List.take_zero])
    · rw [if_neg hbudget, hlength]
      dsimp only
      show Visits settings file v start p (IngestReadResult.ran (if (run_events settings
        (v.around file) (file_name file.path) (consumed settings file v start).1 p).raised then _
        else _))
      by_cases hraised : (run_events settings (v.around file) (file_name file.path)
          (consumed settings file v start).1 p).raised
      · rw [if_pos hraised]
        exact ⟨rfl, rfl, fun _ => standsAt_of_file_cursors (file_cursors_run_events ..) hp,
          fun h => Bool.noConfusion (hraised.symm.trans h)⟩
      · rw [if_neg hraised]
        exact ⟨(Bool.eq_false_of_not_eq_true hraised).symm, rfl, (fun h => by cases h),
          fun _ => standsAt_put _ _⟩
  have hpath : (file.upto v.size).path = file.path := rfl
  unfold ingest_file
  rw [hpath]
  rcases hp with ⟨hget, rfl⟩ | hget
  · rw [hget]
    dsimp only
    rw [hlength]
    by_cases hempty : v.size = 0
    · rw [if_pos hempty]
      exact hnone _ rfl (standsAt_put 0 p) (by rw [piece, hempty, Nat.zero_sub, Nat.zero_min,
        List.take_zero])
    · rw [if_neg hempty]
      exact hread (by omega)
  · rw [hget]
    dsimp only
    rw [if_neg (by decide), if_neg (by simp [DirEntry.upto]), hlength, if_neg (by omega)]
    by_cases heq : v.size = start
    · rw [if_pos heq]
      exact hnone p rfl (Or.inr hget) (by rw [piece, heq, Nat.sub_self, Nat.zero_min, List.take_zero])
    · rw [if_neg heq]
      exact hread (by omega)

variable (settings) in
/-- **A poll of the file.** Where the cursor stands, the bytes it reads are consumed. -/
theorem visit_visits (hp : StandsAt file start p) (hstart : start ≤ v.size)
    (hsize : v.size ≤ file.content.length) : Visits settings file v start p (visit settings file v p) := by
  have hfile := ingest_file_visits settings hp hstart hsize
  unfold visit
  simp only [ingest_selected_files]
  split
  · exact hfile
  · rename_i hraised
    rw [Bool.not_eq_true] at hraised
    split
    · exact ⟨hraised.symm.trans hfile.raised,
        (findings_size_limit _).trans hfile.findings,
        (fun h => by cases h), fun _ => hfile.moves hraised⟩
    · exact ⟨hraised.symm.trans hfile.raised, hfile.findings, (fun h => by cases h),
        fun _ => hfile.moves hraised⟩

/-- A poll of a directory in which there is no other file. -/
theorem ingest_incremental_one_file (hmanaged : is_managed_jsonl_path file = true)
    (hfiles : 1 ≤ settings.limits.max_files) (hbudget : v.budget = settings.limits.max_total_bytes) :
    (ingest_incremental settings (v.around file) p).raised
        = (visit settings file v { p with has_source_files := true }).raised
      ∧ (ingest_incremental settings (v.around file) p).provider.findings but_budget
        = (visit settings file v { p with has_source_files := true }).provider.findings but_budget := by
  have hdiscover : discover_selected_files settings (v.around file) p
      = ([file.upto v.size], { p with has_source_files := true }) := by
    have hfilter : [file.upto v.size].filter is_managed_jsonl_path = [file.upto v.size] :=
      List.filter_eq_self.2 fun entry hentry => by
        rw [List.mem_singleton.1 hentry]
        exact hmanaged
    unfold discover_selected_files Visit.around
    dsimp only
    rw [hfilter]
    exact if_neg (Nat.not_lt.2 hfiles)
  unfold ingest_incremental visit
  rw [hdiscover, ← hbudget]
  dsimp only
  split
  · exact ⟨rfl, rfl⟩
  · rename_i hraised
    split
    · exact ⟨rfl, rfl⟩
    · exact ⟨(Bool.eq_false_of_not_eq_true hraised).symm, rfl⟩

end Visits

/-! ## Files without carriage returns -/

section Growing

variable {F : Type} {settings : Settings F} {file : DirEntry} {v : Visit} {start : ℕ} {p : Provider F}

theorem piece_eq (v : Visit) (start : ℕ) :
    piece file v start = (file.content.drop start).take (min (v.size - start) v.budget) := by
  rw [piece, List.drop_take, List.take_take, Nat.min_eq_left (Nat.min_le_left ..)]

theorem complete_piece_prefix_of (v : Visit) (start : ℕ) :
    complete (piece file v start) <+: file.content.drop start := by
  have hpiece : piece file v start <+: file.content.drop start := by
    rw [piece_eq]
    exact List.take_prefix _ _
  exact (List.rdropWhile_prefix _ _).trans hpiece

theorem take_add_complete (v : Visit) (start : ℕ) :
    file.content.take (start + (complete (piece file v start)).length)
      = file.content.take start ++ complete (piece file v start) := by
  rw [List.take_add, ← List.prefix_iff_eq_take.1 (complete_piece_prefix_of v start)]

theorem drop_add_complete (v : Visit) (start : ℕ) :
    file.content.drop start
      = complete (piece file v start)
        ++ file.content.drop (start + (complete (piece file v start)).length) := by
  conv_lhs => rw [← List.take_append_drop (complete (piece file v start)).length
    (file.content.drop start)]
  rw [← List.prefix_iff_eq_take.1 (complete_piece_prefix_of v start), List.drop_drop]

theorem not_mem_complete_piece (hcr : 13 ∉ file.content) (v : Visit) (start : ℕ) :
    13 ∉ complete (piece file v start) := fun h =>
  hcr (List.mem_of_mem_drop ((complete_piece_prefix_of v start).subset h))

/-- A poll that does not give up a line reads the complete lines, and goes on after them. -/
theorem consumed_of_quiet (hcr : 13 ∉ file.content) (hquiet : gives_up settings file v start = false) :
    consumed settings file v start
      = (line_events settings.limits start (splitlines (complete (piece file v start))),
        start + (complete (piece file v start)).length) := by
  have hprocessed := processed_bytes_splitlines (not_mem_complete_piece hcr v start)
    (ended_complete (piece file v start))
  by_cases hnil : piece file v start = []
  · rw [consumed_of_piece_eq_nil hnil, hnil]
    rfl
  · rw [gives_up, Option.isSome_eq_false_iff, Option.isNone_iff_eq_none] at hquiet
    rw [consumed, consume_complete_records, if_neg hnil, hquiet]
    dsimp only
    rw [hprocessed]

/-- What is recorded of an unfinished line at the end of the file. -/
def last_words (settings : Settings F) (file : DirEntry) (info : TelemetryRuntimeInfo) : List Event :=
  match discard_trailing settings.limits info file.path (trailing file.content) file.content.length
      file.content.length with
  | some (code, _) => [.warning code]
  | none => []

variable (settings) in
/-- A poll that reads to the end of the file. -/
theorem consumed_of_end (hended : Ended (file.content.take start)) (hstart : start ≤ file.content.length)
    (hsize : v.size = file.content.length) (hbudget : file.content.length ≤ start + v.budget) :
    (consumed settings file v start).1
      = line_events settings.limits start (splitlines (complete (file.content.drop start)))
        ++ last_words settings file v.info := by
  have hpiece : piece file v start = file.content.drop start := by
    rw [piece_eq]
    refine List.take_of_length_le ?_
    rw [List.length_drop]
    omega
  have hlength : start + (file.content.drop start).length = file.content.length := by
    rw [List.length_drop]
    omega
  have htrailing : trailing (file.content.drop start) = trailing file.content := by
    conv_rhs => rw [← List.take_append_drop start file.content]
    rw [(complete_append hended _).2]
  rw [consumed, hpiece, hlength, hsize, last_words, ← htrailing]
  by_cases hnil : file.content.drop start = []
  · rw [consume_complete_records, if_pos hnil, hnil]
    rfl
  · rw [consume_complete_records, if_neg hnil]
    cases discard_trailing settings.limits v.info file.path (trailing (file.content.drop start))
        file.content.length file.content.length with
    | none => exact (List.append_nil _).symm
    | some given => rfl

/-- The lines of the file from an offset on. -/
def events_from (settings : Settings F) (file : DirEntry) (start : ℕ) : List Event :=
  line_events settings.limits start (splitlines (complete (file.content.drop start)))

/-- The lines of the file up to an offset. -/
def events_to (settings : Settings F) (file : DirEntry) (start : ℕ) : List Event :=
  line_events settings.limits 0 (splitlines (file.content.take start))

theorem ended_append {a b : List UInt8} (ha : Ended a) (hb : Ended b) : Ended (a ++ b) := by
  rcases hb with rfl | hb
  · rwa [List.append_nil]
  · exact Or.inr (by rw [List.getLast?_append, hb, Option.some_or])

variable (settings) in
/-- The lines of the piece, and those after it. -/
theorem events_from_eq (hcr : 13 ∉ file.content) (v : Visit) (start : ℕ) :
    events_from settings file start
      = line_events settings.limits start (splitlines (complete (piece file v start)))
        ++ events_from settings file (start + (complete (piece file v start)).length) := by
  have hcr' := not_mem_complete_piece hcr v start
  have hended := ended_complete (piece file v start)
  rw [events_from, drop_add_complete v start, (complete_append hended _).1,
    splitlines_append hcr' hended, line_events_append, processed_bytes_splitlines hcr' hended]
  rfl

/-- The lines before the piece, and those of it. -/
theorem events_to_eq (hcr : 13 ∉ file.content) (v : Visit) (hstart : start ≤ file.content.length)
    (hended : Ended (file.content.take start)) :
    events_to settings file (start + (complete (piece file v start)).length)
      = events_to settings file start
        ++ line_events settings.limits start (splitlines (complete (piece file v start))) := by
  have hcr' : 13 ∉ file.content.take start := fun h => hcr (List.mem_of_mem_take h)
  rw [events_to, take_add_complete, splitlines_append hcr' hended, line_events_append,
    processed_bytes_splitlines hcr' hended, List.length_take, Nat.min_eq_left hstart, Nat.zero_add]
  rfl

/-- All the lines of the file. -/
theorem events_of_end (hcr : 13 ∉ file.content) (hstart : start ≤ file.content.length)
    (hended : Ended (file.content.take start)) :
    events_to settings file start ++ events_from settings file start = events_from settings file 0 := by
  have hcr' : 13 ∉ file.content.take start := fun h => hcr (List.mem_of_mem_take h)
  have hwhole : complete (file.content.drop 0)
      = file.content.take start ++ complete (file.content.drop start) := by
    rw [List.drop_zero, ← (complete_append hended _).1, List.take_append_drop]
  rw [events_to, events_from, events_from, hwhole, splitlines_append hcr' hended, line_events_append,
    processed_bytes_splitlines hcr' hended, List.length_take, Nat.min_eq_left hstart, Nat.zero_add]

/-- How far the polls have got: the cursor stands at the beginning of a line, and
unless a line that raises is still to come, what is found is what the lines before
the cursor give. -/
structure Progress (settings : Settings F) (file : DirEntry) (around : Surroundings) (start : ℕ)
    (p : Provider F) : Prop where
  stands : StandsAt file start p
  bounded : start ≤ file.content.length
  ended : Ended (file.content.take start)
  found : (∃ event ∈ events_from settings file start, Raises settings (file_name file.path) event)
    ∨ ((run_events settings around (file_name file.path) (events_to settings file start) .init).raised
          = false
      ∧ p.findings but_budget = (run_events settings around (file_name file.path)
          (events_to settings file start) .init).provider.findings but_budget)

variable (settings) in
theorem progress_init (around : Surroundings) : Progress settings file around 0 .init where
  stands := Or.inl ⟨rfl, rfl⟩
  bounded := Nat.zero_le _
  ended := Or.inl rfl
  found := Or.inr ⟨rfl, rfl⟩

variable {around : Surroundings}

/-- One poll keeps the progress, or makes some. -/
theorem progress_visit (hcr : 13 ∉ file.content)
    (hp : Progress settings file around start p) (hstart : start ≤ v.size)
    (hsize : v.size ≤ file.content.length) (hquiet : gives_up settings file v start = false) :
    ∃ later ≤ v.size, Progress settings file around later (visit settings file v p).provider := by
  have hvisit := visit_visits settings hp.stands hstart hsize
  have hconsumed := consumed_of_quiet hcr hquiet
  have hfrom := events_from_eq settings hcr v start
  have hraised := hvisit.raised
  have hfindings := hvisit.findings
  rw [hconsumed] at hraised hfindings
  dsimp only at hraised hfindings
  cases hran : (visit settings file v p).raised with
  | true =>
    -- the cursor stays, and the line that raised is still to come
    rw [hran] at hraised
    obtain ⟨event, hevent, hraises⟩ := (run_events_raised_iff settings _ _ _ _).1 hraised.symm
    refine ⟨start, hstart, hvisit.stays hran, hp.bounded, hp.ended, Or.inl ⟨event, ?_, hraises⟩⟩
    rw [hfrom]
    exact List.mem_append_left _ hevent
  | false =>
    rw [hran] at hraised
    have hno : ∀ event ∈ line_events settings.limits start
        (splitlines (complete (piece file v start))), ¬Raises settings (file_name file.path) event := by
      intro event hevent hraises
      have := (run_events_raised_iff settings (v.around file) _ _ p).2 ⟨event, hevent, hraises⟩
      rw [← hraised] at this
      cases this
    have hlength : (complete (piece file v start)).length ≤ v.size - start := by
      have hle := (List.rdropWhile_prefix (fun b : UInt8 => decide (b ≠ 10))
        (piece file v start)).length_le
      rw [piece, List.length_take, List.length_drop, List.length_take] at hle
      exact hle.trans ((Nat.min_le_left _ _).trans (Nat.min_le_left _ _))
    have hmoves := hvisit.moves hran
    rw [hconsumed] at hmoves
    refine ⟨start + (complete (piece file v start)).length, by omega, hmoves, by omega, ?_, ?_⟩
    · rw [take_add_complete]
      exact ended_append hp.ended (ended_complete _)
    · rcases hp.found with ⟨event, hevent, hraises⟩ | ⟨hbefore, hfound⟩
      · rw [hfrom] at hevent
        rcases List.mem_append.1 hevent with hevent | hevent
        · exact absurd hraises (hno event hevent)
        · exact Or.inl ⟨event, hevent, hraises⟩
      · refine Or.inr ?_
        rw [events_to_eq hcr v hp.bounded hp.ended, run_events_append settings around _ _ _ _ hbefore]
        obtain ⟨hsame, hsame'⟩ := findings_run_events settings (v.around file) around
          (file_name file.path) (line_events settings.limits start
            (splitlines (complete (piece file v start)))) hfound
        exact ⟨hsame.symm.trans hraised.symm, hfindings.trans hsame'⟩

/-- The reader after some polls. -/
def visits (settings : Settings F) (file : DirEntry) (polls : List Visit) (p : Provider F) : Provider F :=
  polls.foldl (fun p v => (visit settings file v p).provider) p

/-- Many polls, none of which gives up a line. -/
theorem progress_visits (hcr : 13 ∉ file.content) {size : ℕ} :
    ∀ {polls : List Visit} {start : ℕ} {p : Provider F},
      Progress settings file around start p → (∀ v ∈ polls, start ≤ v.size) →
      (polls.map Visit.size).Pairwise (· ≤ ·) → (∀ v ∈ polls, v.size ≤ size) → start ≤ size →
      size ≤ file.content.length → Quiet settings file polls p →
      ∃ later ≤ size, Progress settings file around later (visits settings file polls p) := by
  intro polls
  induction polls with
  | nil => exact fun hp _ _ _ hstart _ _ => ⟨_, hstart, hp⟩
  | cons v polls ih =>
    intro start p hp hstarts hgrows hsizes _ hsize hquiet
    rw [List.map_cons, List.pairwise_cons] at hgrows
    obtain ⟨hnow, hlater⟩ := hquiet
    rw [start_offset_of_standsAt hp.stands] at hnow
    have hv := hsizes v List.mem_cons_self
    obtain ⟨next, hnext, hprogress⟩ := progress_visit hcr hp (hstarts v List.mem_cons_self)
      (hv.trans hsize) hnow
    refine ih hprogress (fun w hw => ?_) hgrows.2 (fun w hw => hsizes w (List.mem_cons_of_mem v hw))
      (hnext.trans hv) hsize hlater
    exact hnext.trans (hgrows.1 _ (List.mem_map_of_mem hw))

/-- A poll that reads to the end and returns has found what all the lines of the file
give. -/
theorem found_of_end (hcr : 13 ∉ file.content)
    (hp : Progress settings file around start p) (hsize : v.size = file.content.length)
    (hbudget : file.content.length ≤ start + v.budget)
    (hreturns : (visit settings file v p).raised = false) :
    (run_events settings around (file_name file.path)
        (events_from settings file 0 ++ last_words settings file v.info) .init).raised = false
      ∧ (visit settings file v p).provider.findings but_budget
        = (run_events settings around (file_name file.path)
            (events_from settings file 0 ++ last_words settings file v.info) .init).provider.findings but_budget := by
  have hvisit := visit_visits settings hp.stands (hsize.symm ▸ hp.bounded) hsize.le
  have hraised := hvisit.raised
  have hfindings := hvisit.findings
  rw [consumed_of_end settings hp.ended hp.bounded hsize hbudget] at hraised hfindings
  rw [hreturns] at hraised
  rcases hp.found with ⟨event, hevent, hraises⟩ | ⟨hbefore, hfound⟩
  · have hmem := List.mem_append_left (last_words settings file v.info) hevent
    have hyes := (run_events_raised_iff settings (v.around file) _ _ p).2 ⟨event, hmem, hraises⟩
    rw [events_from, ← hraised] at hyes
    cases hyes
  · rw [← events_of_end hcr hp.bounded hp.ended, List.append_assoc,
      run_events_append settings around _ _ _ _ hbefore]
    obtain ⟨hsame, hsame'⟩ := findings_run_events settings (v.around file) around
      (file_name file.path) (events_from settings file start ++ last_words settings file v.info) hfound
    exact ⟨hsame.symm.trans hraised.symm, hfindings.trans hsame'⟩

/-- **Growing in any way.** For every file without carriage returns, however it grew and
was read, if no poll before the last gave up an unfinished line and the last poll read
it to its end, a single poll of the finished file finds the same: the same spans, and
the same count of every warning but that of polls stopped by their budget. -/
theorem chunks_are_immaterial (settings : Settings F) (file : DirEntry) (polls : List Visit)
    (last whole : Visit) (hcr : 13 ∉ file.content)
    (hgrows : ((polls ++ [last]).map Visit.size).Pairwise (· ≤ ·))
    (hlast : last.size = file.content.length) (hwhole : whole.size = file.content.length)
    (hinfo : whole.info = last.info) (hquiet : Quiet settings file polls .init) (hend : file.content.length
      ≤ start_offset file (visits settings file polls .init) + last.budget)
    (hbudget : file.content.length ≤ whole.budget)
    (hreturns : (visit settings file last (visits settings file polls .init)).raised = false) :
    let grown := (visit settings file last (visits settings file polls .init)).provider
    let once := visit settings file whole .init
    once.raised = false ∧ once.provider.spans = grown.spans
      ∧ ∀ code, code ≠ .SIZE_LIMIT_EXCEEDED →
        once.provider.warning_counts code = grown.warning_counts code := by
  rw [List.map_append, List.pairwise_append] at hgrows
  have hsizes : ∀ v ∈ polls, v.size ≤ file.content.length := by
    intro v hv
    rw [← hlast]
    exact hgrows.2.2 _ (List.mem_map_of_mem hv) _ List.mem_cons_self
  obtain ⟨start, -, hprogress⟩ := progress_visits hcr
    (progress_init settings (whole.around file)) (fun v _ => Nat.zero_le _) hgrows.1 hsizes
    (Nat.zero_le _) le_rfl hquiet
  rw [start_offset_of_standsAt hprogress.stands] at hend
  obtain ⟨hraised, hgrown⟩ := found_of_end hcr hprogress hlast hend hreturns
  have hvisit := visit_visits settings
    (Or.inl ⟨rfl, rfl⟩ : StandsAt file 0 (.init : Provider F)) (Nat.zero_le whole.size) hwhole.le
  have hconsumed := consumed_of_end settings
    (Or.inl rfl : Ended (file.content.take 0)) (Nat.zero_le _) hwhole (by omega)
  have honce := hvisit.raised
  have honce' := hvisit.findings
  rw [hconsumed, hinfo] at honce honce'
  obtain ⟨hspans, -, -, -, -, hcounts⟩ := findings_eq_iff.1 (honce'.trans hgrown.symm)
  exact ⟨honce.trans hraised, hspans, fun code hcode => hcounts code (decide_eq_false hcode)⟩

end Growing

/-! ## Two lines -/

/-- A reader that can read no record. -/
def unreadable : Settings ℚ := ⟨Python.small fun _ => .malformed, {}, none⟩

/-- Two lines, each of one letter. -/
def two_lines : DirEntry := ⟨str "f", true, 0, 0, [97, 10, 97, 10]⟩

/-- A poll of all of them, while the file is being written. -/
def poll_two_lines (budget : ℕ) : Visit := ⟨4, budget, ⟨.RUNNING, some (str "f"), none⟩, []⟩

/-- Read one at a time, the two lines are the same two malformed records. -/
theorem two_lines_are_immaterial :
    let grown := (visit unreadable two_lines (poll_two_lines 2)
      (visits unreadable two_lines [poll_two_lines 2] .init)).provider
    let once := visit unreadable two_lines (poll_two_lines 4) .init
    once.raised = false ∧ once.provider.spans = grown.spans
      ∧ ∀ code, code ≠ .SIZE_LIMIT_EXCEEDED →
        once.provider.warning_counts code = grown.warning_counts code :=
  chunks_are_immaterial unreadable two_lines [poll_two_lines 2] (poll_two_lines 2) (poll_two_lines 4)
    (by decide) (by decide) rfl rfl rfl ⟨by decide +kernel, trivial⟩ (by decide +kernel) (by decide)
    (by decide +kernel)

/-- A poll that its budget stops after the first of two lines records that, and a poll
that reads both does not. -/
theorem budget_is_noticed :
    ¬∀ (settings : Settings ℚ) (file : DirEntry) (polls : List Visit) (last whole : Visit),
      ((polls ++ [last]).map Visit.size).Pairwise (· ≤ ·) → last.size = file.content.length →
      whole.size = file.content.length → whole.info = last.info →
      file.content.length ≤ start_offset file (visits settings file polls .init) + last.budget →
      file.content.length ≤ whole.budget →
      (visit settings file last (visits settings file polls .init)).raised = false →
      (visit settings file whole .init).provider.spans
          = (visit settings file last (visits settings file polls .init)).provider.spans
        ∧ ∀ code, (visit settings file whole .init).provider.warning_counts code
          = (visit settings file last (visits settings file polls .init)).provider.warning_counts
              code := by
  intro h
  obtain ⟨-, hcounts⟩ := h unreadable two_lines [poll_two_lines 2] (poll_two_lines 2)
    (poll_two_lines 4) (by decide) rfl rfl rfl (by decide +kernel) (by decide) (by decide +kernel)
  have honce : (visit unreadable two_lines (poll_two_lines 4) .init).provider.warning_counts
      .SIZE_LIMIT_EXCEEDED = none := by decide +kernel
  have hgrown : (visit unreadable two_lines (poll_two_lines 2)
      (visits unreadable two_lines [poll_two_lines 2] .init)).provider.warning_counts
        .SIZE_LIMIT_EXCEEDED = some 1 := by decide +kernel
  have hsame := hcounts .SIZE_LIMIT_EXCEEDED
  rw [honce, hgrown] at hsame
  cases hsame

end AgentSpace.Telemetry.Otel
