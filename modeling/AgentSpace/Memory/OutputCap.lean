/-
Capped output: `drive` and `copy_capped` of `command_runner.rs`.

Two tasks copy the pipes of one child. They share a counter of the bytes read and a flag
that the limit is reached. A step is one access to what they share, one read, or one
write. Errors of a sink are ignored by the code, so what reaches `write_all` counts as
written. The counters are natural numbers.
-/
import AgentSpace.Lib.Transition
import AgentSpace.Memory.RunStream

set_option autoImplicit false

namespace AgentSpace.Memory

open Lib

/-! ## The tasks -/

/-- Where `copy_capped` is. -/
inductive CopyPoint where
  /-- Before `limit_hit.load`. -/
  | load
  /-- Before `reader.read`. -/
  | read
  /-- Before `total.fetch_add`. -/
  | fetch_add (buffer : List UInt8)
  /-- Before `writer.write_all`. -/
  | write_all (buffer : List UInt8) (previous_total : ℕ)
  /-- Before `limit_hit.store`. -/
  | store
  /-- Before `limit_notify.notify_one`. -/
  | notify_one
  /-- Before `writer.flush`. -/
  | flush
  | ended
  deriving DecidableEq

/-- A task: where it is, what it has read, and what it has written. -/
structure CopyTask where
  point : CopyPoint
  received : List UInt8
  sink : List UInt8

/-- `to_write`. -/
def to_write (max_bytes previous_total read : ℕ) : ℕ :=
  let allowed := max_bytes - min previous_total max_bytes
  min read allowed

/-- The state of `drive`: what the tasks share, the tasks, the branch that `select!`
took, and what is returned. -/
structure Drive where
  total : ℕ
  limit_hit : Bool
  limit_notify : Bool
  tasks : Output → CopyTask
  outcome : Option RunOutcome
  returned : Option RunOutcome

/-- A task takes a step. -/
def Drive.set (s : Drive) (output : Output) (task : CopyTask) : Drive :=
  { s with tasks := Function.update s.tasks output task }

/-- `drive`, when it has spawned the tasks; a pipe may be missing. -/
def Drive.start (piped : Output → Bool) : Drive where
  total := 0
  limit_hit := false
  limit_notify := false
  tasks output := ⟨if piped output then .load else .ended, [], []⟩
  outcome := none
  returned := none

/-- What happens next. -/
inductive DriveEvent where
  /-- A task reads a chunk; an empty one is the end of the pipe, or an error. -/
  | read (output : Output) (buffer : List UInt8)
  /-- A task takes any other step. -/
  | step (output : Output)
  /-- `select!` takes a branch. -/
  | select (outcome : RunOutcome)
  /-- `drive` has joined the tasks. -/
  | join
  deriving DecidableEq

/-- One step of `copy_capped` that is no read. -/
def copy_step (max_bytes : ℕ) (s : Drive) (output : Output) : Option Drive :=
  let task := s.tasks output
  match task.point with
  | .load => some (s.set output { task with point := if s.limit_hit then .flush else .read })
  | .fetch_add buffer =>
    some ({ s with total := s.total + buffer.length }.set output
      { task with point := .write_all buffer s.total })
  | .write_all buffer previous_total =>
    let n := to_write max_bytes previous_total buffer.length
    let sink := if n > 0 then task.sink ++ buffer.take n else task.sink
    let point := if previous_total + buffer.length ≥ max_bytes then .store else .load
    some (s.set output { task with point := point, sink := sink })
  | .store => some ({ s with limit_hit := true }.set output { task with point := .notify_one })
  | .notify_one => some ({ s with limit_notify := true }.set output { task with point := .flush })
  | .flush => some (s.set output { task with point := .ended })
  | .read | .ended => none

/-- The size of `buffer`. -/
def BUFFER_SIZE : ℕ := 8192

/-- One read of `copy_capped`. -/
def read_step (s : Drive) (output : Output) (buffer : List UInt8) : Option Drive :=
  let task := s.tasks output
  if task.point = .read ∧ buffer.length ≤ BUFFER_SIZE then
    some (s.set output (if buffer = [] then { task with point := .flush }
      else { task with point := .fetch_add buffer, received := task.received ++ buffer }))
  else none

/-- A branch of the `select!` of `drive`. -/
def select_step (s : Drive) (outcome : RunOutcome) : Option Drive :=
  if s.outcome = none then
    match outcome with
    | .Exited _ | .LaunchFailed _ | .TimedOut | .Cancelled => some { s with outcome := some outcome }
    | .OutputLimitExceeded =>
      if s.limit_notify then some { s with outcome := some outcome, limit_notify := false }
      else none
    | .NotAllowed _ => none
  else none

/-- The task has ended. -/
def CopyTask.Ended (task : CopyTask) : Prop := task.point = .ended

instance (task : CopyTask) : Decidable task.Ended := decEq task.point .ended

/-- The end of `drive`, behind the two joins. -/
def join_step (s : Drive) : Option Drive :=
  match s.outcome, s.returned with
  | some outcome, none =>
    if (s.tasks .stdout).Ended ∧ (s.tasks .stderr).Ended then
      some { s with returned := some (if s.limit_hit then .OutputLimitExceeded else outcome) }
    else none
  | _, _ => none

/-- One step of `drive` and its tasks. -/
def drive_step (max_bytes : ℕ) (s : Drive) : DriveEvent → Option Drive
  | .read output buffer => read_step s output buffer
  | .step output => copy_step max_bytes s output
  | .select outcome => select_step s outcome
  | .join => join_step s

/-- The steps as a relation. -/
def DriveStep (max_bytes : ℕ) (s : Drive) (event : DriveEvent) (t : Drive) : Prop :=
  drive_step max_bytes s event = some t

/-! ## The shared budget -/

/-- Something of both tasks, added up. -/
def Drive.sum (s : Drive) (f : CopyTask → ℕ) : ℕ := f (s.tasks .stdout) + f (s.tasks .stderr)

/-- The bytes read so far. -/
def Drive.received (s : Drive) : ℕ := s.sum fun task => task.received.length

/-- The bytes written so far. -/
def Drive.emitted (s : Drive) : ℕ := s.sum fun task => task.sink.length

/-- The bytes that are read but not counted yet. -/
def CopyTask.uncounted (task : CopyTask) : ℕ :=
  match task.point with
  | .fetch_add buffer => buffer.length
  | _ => 0

/-- The bytes that are granted but not written yet. -/
def CopyTask.granted (max_bytes : ℕ) (task : CopyTask) : ℕ :=
  match task.point with
  | .write_all buffer previous_total => to_write max_bytes previous_total buffer.length
  | _ => 0

/-- The task has reached the limit and will say so. -/
def CopyTask.Crossing (max_bytes : ℕ) (task : CopyTask) : Prop :=
  match task.point with
  | .write_all buffer previous_total => max_bytes ≤ previous_total + buffer.length
  | .store => True
  | _ => False

theorem sum_set (s : Drive) (output : Output) (task : CopyTask) (f : CopyTask → ℕ) :
    (s.set output task).sum f + f (s.tasks output) = s.sum f + f task := by
  cases output
  · have hother : (s.set .stdout task).tasks .stderr = s.tasks .stderr := rfl
    have hself : (s.set .stdout task).tasks .stdout = task := rfl
    rw [Drive.sum, Drive.sum, hother, hself]
    omega
  · have hother : (s.set .stderr task).tasks .stdout = s.tasks .stdout := rfl
    have hself : (s.set .stderr task).tasks .stderr = task := rfl
    rw [Drive.sum, Drive.sum, hother, hself]
    omega

/-- **What a chunk is granted.** The grants add up to what the limit allows of all that
is counted. -/
theorem min_add_to_write (max_bytes previous_total read : ℕ) :
    min max_bytes previous_total + to_write max_bytes previous_total read
      = min max_bytes (previous_total + read) := by
  simp only [to_write]
  omega

theorem to_write_of_lt {max_bytes previous_total read : ℕ} (h : previous_total + read < max_bytes) :
    to_write max_bytes previous_total read = read := by
  simp only [to_write]
  omega

theorem to_write_le (max_bytes previous_total read : ℕ) :
    to_write max_bytes previous_total read ≤ read := Nat.min_le_left _ _

/-! ## The invariant -/

/-- What holds of a task wherever it is: what it has written is the beginning of what it
has read, all of it as long as it goes on. -/
def CopyTask.Faithful (task : CopyTask) (max_bytes total : ℕ) (limit_hit : Bool) : Prop :=
  match task.point with
  | .load | .read => task.sink = task.received
  | .fetch_add buffer => task.received = task.sink ++ buffer ∧ buffer ≠ []
  | .write_all buffer previous_total =>
    task.received = task.sink ++ buffer ∧ buffer ≠ [] ∧ previous_total + buffer.length ≤ total
  | .store => task.sink <+: task.received ∧ max_bytes ≤ total ∧ 0 < total
  | .notify_one => task.sink <+: task.received ∧ limit_hit = true
  | .flush | .ended => task.sink <+: task.received

/-- The invariant of `drive`. -/
structure Drive.Inv (max_bytes : ℕ) (s : Drive) : Prop where
  faithful : ∀ output, (s.tasks output).Faithful max_bytes s.total s.limit_hit
  /-- Every byte read is counted, or about to be. -/
  counted : s.received = s.total + s.sum CopyTask.uncounted
  /-- What the limit allows of the bytes counted is written, or about to be. -/
  written : s.emitted + s.sum (CopyTask.granted max_bytes) = min max_bytes s.total
  /-- The flag is set only if the limit is reached. -/
  reached : s.limit_hit = true → max_bytes ≤ s.total ∧ 0 < s.total
  /-- If it is reached, the flag is set, or one of the tasks will set it. -/
  crossing : max_bytes ≤ s.total → 0 < s.total →
    s.limit_hit = true ∨ ∃ output, (s.tasks output).Crossing max_bytes
  notified : s.limit_notify = true → s.limit_hit = true
  outcome : s.outcome = some .OutputLimitExceeded → s.limit_hit = true
  /-- `drive` returns behind both tasks. -/
  returned : ∀ outcome, s.returned = some outcome →
    (∀ output, (s.tasks output).Ended) ∧ (outcome = .OutputLimitExceeded ↔ s.limit_hit = true)

variable {task : CopyTask}

theorem CopyTask.Faithful.sink_le_received {max_bytes total : ℕ} {limit_hit : Bool}
    (h : task.Faithful max_bytes total limit_hit) : task.sink <+: task.received := by
  unfold CopyTask.Faithful at h
  cases hpoint : task.point with
  | load | read =>
    rw [hpoint] at h
    exact h ▸ List.prefix_refl _
  | fetch_add buffer | write_all buffer previous_total =>
    rw [hpoint] at h
    exact h.1 ▸ List.prefix_append _ _
  | store | notify_one =>
    rw [hpoint] at h
    exact h.1
  | flush | ended =>
    rw [hpoint] at h
    exact h

/-- The counter only grows, and the flag is never taken back: a task that takes no step
stays faithful. -/
theorem CopyTask.Faithful.mono {max_bytes total total' : ℕ}
    {limit_hit limit_hit' : Bool} (h : task.Faithful max_bytes total limit_hit)
    (htotal : total ≤ total') (hhit : limit_hit = true → limit_hit' = true) :
    task.Faithful max_bytes total' limit_hit' := by
  unfold CopyTask.Faithful at h ⊢
  cases hpoint : task.point with
  | write_all buffer previous_total =>
    rw [hpoint] at h
    exact ⟨h.1, h.2.1, le_trans h.2.2 htotal⟩
  | store =>
    rw [hpoint] at h
    exact ⟨h.1, le_trans h.2.1 htotal, lt_of_lt_of_le h.2.2 htotal⟩
  | notify_one =>
    rw [hpoint] at h
    exact ⟨h.1, hhit h.2⟩
  | load | read | fetch_add | flush | ended =>
    rw [hpoint] at h
    exact h

/-! ## What one step preserves -/

theorem Inv_start (max_bytes : ℕ) (piped : Output → Bool) : (Drive.start piped).Inv max_bytes where
  faithful output := by
    cases hpiped : piped output <;> simp [Drive.start, hpiped, CopyTask.Faithful]
  counted := by
    cases hout : piped .stdout <;> cases herr : piped .stderr <;>
      simp [Drive.start, Drive.received, Drive.sum, CopyTask.uncounted, hout, herr]
  written := by
    cases hout : piped .stdout <;> cases herr : piped .stderr <;>
      simp [Drive.start, Drive.emitted, Drive.sum, CopyTask.granted, hout, herr]
  reached h := by cases h
  crossing _ h := by cases h
  notified h := by cases h
  outcome h := by cases h
  returned _ h := by cases h

variable {s : Drive} {output : Output}

/-- **One task moves.** The invariant is kept if the step of the task accounts for what it
changes: for what it read, for what it was granted, and for the limit. -/
theorem Drive.Inv.move {max_bytes total : ℕ} {limit_hit limit_notify : Bool} (hs : s.Inv max_bytes)
    (hrunning : ¬ (s.tasks output).Ended)
    (htotal : s.total ≤ total) (hhit : s.limit_hit = true → limit_hit = true)
    (hfaithful : task.Faithful max_bytes total limit_hit)
    (hcounted : task.received.length + s.total + (s.tasks output).uncounted
      = (s.tasks output).received.length + total + task.uncounted)
    (hwritten : task.sink.length + task.granted max_bytes + min max_bytes s.total
      = (s.tasks output).sink.length + (s.tasks output).granted max_bytes + min max_bytes total)
    (hreached : limit_hit = true → max_bytes ≤ total ∧ 0 < total)
    (hcrossing : max_bytes ≤ total → 0 < total → limit_hit = true ∨ task.Crossing max_bytes
      ∨ (max_bytes ≤ s.total ∧ 0 < s.total ∧ ¬ (s.tasks output).Crossing max_bytes))
    (hnotified : limit_notify = true → limit_hit = true) :
    ({ s with total := total, limit_hit := limit_hit, limit_notify := limit_notify }.set output
      task).Inv max_bytes := by
  have hsums := fun f => sum_set
    { s with total := total, limit_hit := limit_hit, limit_notify := limit_notify } output task f
  refine ⟨fun other => ?_, ?_, ?_, hreached, fun hmax hpos => ?_, hnotified,
    fun h => hhit (hs.outcome h), fun outcome h => ?_⟩
  · by_cases hself : other = output
    · subst hself
      simpa [Drive.set] using hfaithful
    · simpa [Drive.set, hself] using (hs.faithful other).mono htotal hhit
  · have h1 := hsums fun task => task.received.length
    have h2 := hsums CopyTask.uncounted
    have h3 := hs.counted
    simp only [Drive.received] at h3 ⊢
    simp only [Drive.sum, Drive.set] at h1 h2 h3 ⊢
    omega
  · have h1 := hsums fun task => task.sink.length
    have h2 := hsums (CopyTask.granted max_bytes)
    have h3 := hs.written
    simp only [Drive.emitted] at h3 ⊢
    simp only [Drive.sum, Drive.set] at h1 h2 h3 ⊢
    omega
  · rcases hcrossing hmax hpos with h | h | ⟨hmax', hpos', hnot⟩
    · exact Or.inl h
    · exact Or.inr ⟨output, by simpa [Drive.set] using h⟩
    · rcases hs.crossing hmax' hpos' with h | ⟨other, h⟩
      · exact Or.inl (hhit h)
      · have hother : other ≠ output := by
          rintro rfl
          exact hnot h
        exact Or.inr ⟨other, by simpa [Drive.set, hother] using h⟩
  · exact absurd ((hs.returned outcome h).1 output) hrunning

theorem not_ended_of_point {point : CopyPoint} (h : task.point = point)
    (hpoint : point ≠ .ended) : ¬ task.Ended := by
  intro hended
  exact hpoint (h.symm.trans hended)

variable {max_bytes : ℕ}

theorem Inv_copy_step {s t : Drive} (hs : s.Inv max_bytes)
    (h : copy_step max_bytes s output = some t) : t.Inv max_bytes := by
  have hfaithful := hs.faithful output
  unfold CopyTask.Faithful at hfaithful
  simp only [copy_step] at h
  cases hpoint : (s.tasks output).point with
  | load =>
    rw [hpoint] at h hfaithful
    obtain rfl := Option.some.inj h
    refine hs.move (not_ended_of_point hpoint (by decide)) le_rfl id ?_ ?_ ?_ hs.reached ?_
      hs.notified
    · cases s.limit_hit
      · exact hfaithful
      · exact hfaithful ▸ List.prefix_refl _
    · cases s.limit_hit <;> simp [CopyTask.uncounted, hpoint]
    · cases s.limit_hit <;> simp [CopyTask.granted, hpoint]
    · exact fun hmax hpos => Or.inr (Or.inr ⟨hmax, hpos, by simp [CopyTask.Crossing, hpoint]⟩)
  | fetch_add buffer =>
    rw [hpoint] at h hfaithful
    obtain rfl := Option.some.inj h
    have hpositive := List.length_pos_of_ne_nil hfaithful.2
    refine hs.move (not_ended_of_point hpoint (by simp)) (Nat.le_add_right _ _) id ?_ ?_ ?_ ?_ ?_
      hs.notified
    · exact ⟨hfaithful.1, hfaithful.2, le_rfl⟩
    · simp only [CopyTask.uncounted, hpoint]
      omega
    · have := min_add_to_write max_bytes s.total buffer.length
      simp only [CopyTask.granted, hpoint]
      omega
    · intro hhit
      have := hs.reached hhit
      omega
    · -- the chunk that reaches the limit is this one, or an earlier one
      intro hmax _
      exact Or.inr (Or.inl hmax)
  | write_all buffer previous_total =>
    rw [hpoint] at h hfaithful
    obtain rfl := Option.some.inj h
    obtain ⟨hreceived, hnonempty, hcounted⟩ := hfaithful
    have hpositive := List.length_pos_of_ne_nil hnonempty
    have hsink : (if to_write max_bytes previous_total buffer.length > 0 then
          (s.tasks output).sink ++ buffer.take (to_write max_bytes previous_total buffer.length)
        else (s.tasks output).sink)
        = (s.tasks output).sink
          ++ buffer.take (to_write max_bytes previous_total buffer.length) := by
      by_cases hwrite : to_write max_bytes previous_total buffer.length > 0
      · rw [if_pos hwrite]
      · have hzero : to_write max_bytes previous_total buffer.length = 0 := by omega
        rw [if_neg hwrite, hzero, List.take_zero, List.append_nil]
    simp only [hsink]
    have hlength := to_write_le max_bytes previous_total buffer.length
    refine hs.move (not_ended_of_point hpoint (by simp)) le_rfl id ?_ ?_ ?_ hs.reached ?_
      hs.notified
    · by_cases hcross : previous_total + buffer.length ≥ max_bytes
      · rw [if_pos hcross]
        refine ⟨?_, by omega, by omega⟩
        rw [hreceived]
        exact (List.prefix_append_right_inj _).2 (List.take_prefix _ _)
      · rw [if_neg hcross, to_write_of_lt (by omega), List.take_length]
        exact hreceived.symm
    · by_cases hcross : previous_total + buffer.length ≥ max_bytes <;>
        simp [CopyTask.uncounted, hpoint, hcross]
    · have htaken : (buffer.take (to_write max_bytes previous_total buffer.length)).length
          = to_write max_bytes previous_total buffer.length := by
        rw [List.length_take]
        omega
      by_cases hcross : previous_total + buffer.length ≥ max_bytes
      · simp only [CopyTask.granted, hpoint, if_pos hcross, List.length_append, htaken]
        omega
      · simp only [CopyTask.granted, hpoint, if_neg hcross, List.length_append, htaken]
        omega
    · intro hmax hpos
      by_cases hcross : previous_total + buffer.length ≥ max_bytes
      · rw [if_pos hcross]
        exact Or.inr (Or.inl trivial)
      · refine Or.inr (Or.inr ⟨hmax, hpos, ?_⟩)
        simp only [CopyTask.Crossing, hpoint]
        omega
  | store =>
    rw [hpoint] at h hfaithful
    obtain rfl := Option.some.inj h
    refine hs.move (not_ended_of_point hpoint (by decide)) le_rfl (fun _ => rfl) ?_ ?_ ?_
      (fun _ => hfaithful.2) (fun _ _ => Or.inl rfl) (fun _ => rfl)
    · exact ⟨hfaithful.1, rfl⟩
    · simp [CopyTask.uncounted, hpoint]
    · simp [CopyTask.granted, hpoint]
  | notify_one =>
    rw [hpoint] at h hfaithful
    obtain rfl := Option.some.inj h
    refine hs.move (not_ended_of_point hpoint (by decide)) le_rfl id hfaithful.1 ?_ ?_ hs.reached
      (fun _ _ => Or.inl hfaithful.2) (fun _ => hfaithful.2)
    · simp [CopyTask.uncounted, hpoint]
    · simp [CopyTask.granted, hpoint]
  | flush =>
    rw [hpoint] at h hfaithful
    obtain rfl := Option.some.inj h
    refine hs.move (not_ended_of_point hpoint (by decide)) le_rfl id hfaithful ?_ ?_ hs.reached ?_
      hs.notified
    · simp [CopyTask.uncounted, hpoint]
    · simp [CopyTask.granted, hpoint]
    · exact fun hmax hpos => Or.inr (Or.inr ⟨hmax, hpos, by simp [CopyTask.Crossing, hpoint]⟩)
  | read | ended =>
    rw [hpoint] at h
    cases h

theorem Inv_read_step {s t : Drive} {buffer : List UInt8}
    (hs : s.Inv max_bytes) (h : read_step s output buffer = some t) : t.Inv max_bytes := by
  obtain ⟨⟨hpoint, -⟩, heq⟩ := Option.ite_none_right_eq_some.1 h
  obtain rfl := Option.some.inj heq
  have hfaithful := hs.faithful output
  unfold CopyTask.Faithful at hfaithful
  rw [hpoint] at hfaithful
  have hcrossing : ¬ (s.tasks output).Crossing max_bytes := by simp [CopyTask.Crossing, hpoint]
  by_cases hbuffer : buffer = []
  · rw [if_pos hbuffer]
    refine hs.move (not_ended_of_point hpoint (by decide)) le_rfl id ?_ ?_ ?_ hs.reached
      (fun hmax hpos => Or.inr (Or.inr ⟨hmax, hpos, hcrossing⟩)) hs.notified
    · exact hfaithful ▸ List.prefix_refl _
    · simp [CopyTask.uncounted, hpoint]
    · simp [CopyTask.granted, hpoint]
  · rw [if_neg hbuffer]
    refine hs.move (not_ended_of_point hpoint (by decide)) le_rfl id ?_ ?_ ?_ hs.reached
      (fun hmax hpos => Or.inr (Or.inr ⟨hmax, hpos, hcrossing⟩)) hs.notified
    · exact ⟨by rw [hfaithful], hbuffer⟩
    · simp only [CopyTask.uncounted, hpoint, List.length_append]
      omega
    · simp [CopyTask.granted, hpoint]

theorem Inv_select_step {s t : Drive} {outcome : RunOutcome}
    (hs : s.Inv max_bytes) (h : select_step s outcome = some t) : t.Inv max_bytes := by
  obtain ⟨-, hbranch⟩ := Option.ite_none_right_eq_some.1 h
  have hother : ∀ outcome : RunOutcome, outcome ≠ .OutputLimitExceeded →
      ({ s with outcome := some outcome } : Drive).Inv max_bytes := fun outcome hne =>
    ⟨hs.faithful, hs.counted, hs.written, hs.reached, hs.crossing, hs.notified,
      fun h => absurd (Option.some.inj h) hne, hs.returned⟩
  cases outcome with
  | Exited | LaunchFailed | TimedOut | Cancelled =>
    obtain rfl := Option.some.inj hbranch
    exact hother _ (by simp)
  | OutputLimitExceeded =>
    obtain ⟨hnotify, heq⟩ := Option.ite_none_right_eq_some.1 hbranch
    obtain rfl := Option.some.inj heq
    exact ⟨hs.faithful, hs.counted, hs.written, hs.reached, hs.crossing,
      fun h => absurd h Bool.false_ne_true, fun _ => hs.notified hnotify, hs.returned⟩
  | NotAllowed => cases hbranch

theorem Inv_join_step {s t : Drive} (hs : s.Inv max_bytes)
    (h : join_step s = some t) : t.Inv max_bytes := by
  unfold join_step at h
  cases houtcome : s.outcome with
  | none => simp [houtcome] at h
  | some outcome =>
    cases hreturned : s.returned with
    | some _ => simp [houtcome, hreturned] at h
    | none =>
      rw [houtcome, hreturned] at h
      obtain ⟨⟨hout, herr⟩, heq⟩ := Option.ite_none_right_eq_some.1 h
      obtain rfl := Option.some.inj heq
      refine ⟨hs.faithful, hs.counted, hs.written, hs.reached, hs.crossing, hs.notified,
        houtcome ▸ hs.outcome, fun answer hanswer => ⟨fun output => by cases output <;> assumption, ?_⟩⟩
      obtain rfl := Option.some.inj hanswer
      by_cases hhit : s.limit_hit = true
      · simp [hhit]
      · have hne : outcome ≠ .OutputLimitExceeded := by
          rintro rfl
          exact hhit (hs.outcome houtcome)
        simp [hhit, hne]

theorem Inv_step {s t : Drive} {event : DriveEvent} (hs : s.Inv max_bytes)
    (h : DriveStep max_bytes s event t) : t.Inv max_bytes := by
  cases event with
  | read output buffer => exact Inv_read_step hs h
  | step output => exact Inv_copy_step hs h
  | select outcome => exact Inv_select_step hs h
  | join => exact Inv_join_step hs h

/-! ## Capping is exact -/

theorem Drive.sum_of_ended (hended : ∀ output, (s.tasks output).Ended)
    {f : CopyTask → ℕ} (hf : ∀ task : CopyTask, task.Ended → f task = 0) : s.sum f = 0 := by
  rw [Drive.sum, hf _ (hended .stdout), hf _ (hended .stderr)]

/-- **The flag says whether the limit was reached**, when both tasks have ended. -/
theorem Drive.Inv.limit_hit_iff (hs : s.Inv max_bytes) (hended : ∀ output, (s.tasks output).Ended) :
    s.emitted = min max_bytes s.received
      ∧ (s.limit_hit = true ↔ 1 ≤ s.received ∧ max_bytes ≤ s.received) := by
  have huncounted : s.sum CopyTask.uncounted = 0 :=
    Drive.sum_of_ended hended fun task h => by rw [CopyTask.uncounted, h]
  have hgranted : s.sum (CopyTask.granted max_bytes) = 0 :=
    Drive.sum_of_ended hended fun task h => by rw [CopyTask.granted, h]
  have hcounted : s.received = s.total := by
    have := hs.counted
    omega
  refine ⟨?_, fun hhit => ?_, fun hlimit => ?_⟩
  · have := hs.written
    rw [hcounted]
    omega
  · have := hs.reached hhit
    omega
  · rcases hs.crossing (by omega) (by omega) with h | ⟨output, h⟩
    · exact h
    · rw [CopyTask.Crossing, hended output] at h
      exact h.elim

/-- **Output capping is exact.** In every run of the tasks, however they interleave and
whatever chunks they read: each sink holds the beginning of what was read from its pipe,
and together they hold what the limit allows of the bytes counted, up to the chunk being
written. When both tasks have ended, exactly the first `max_bytes` bytes are written, and
the flag is set exactly if something was read and the limit reached; `drive` returns
`OutputLimitExceeded` exactly then. -/
theorem copy_capped_exact (max_bytes : ℕ) (piped : Output → Bool) {events : List DriveEvent}
    {s : Drive} (hrun : Run (DriveStep max_bytes) (Drive.start piped) events s) :
    (∀ output, (s.tasks output).sink <+: (s.tasks output).received)
      ∧ s.emitted + s.sum (CopyTask.granted max_bytes) = min max_bytes s.total
      ∧ s.emitted ≤ max_bytes
      ∧ ((∀ output, (s.tasks output).Ended) →
          s.emitted = min max_bytes s.received
            ∧ (s.limit_hit = true ↔ 1 ≤ s.received ∧ max_bytes ≤ s.received))
      ∧ (∀ outcome, s.returned = some outcome →
          (outcome = .OutputLimitExceeded ↔ 1 ≤ s.received ∧ max_bytes ≤ s.received)) := by
  have hs : s.Inv max_bytes :=
    hrun.invariant (fun _ _ _ hinv hstep => Inv_step hinv hstep) (Inv_start max_bytes piped)
  refine ⟨fun output => (hs.faithful output).sink_le_received, hs.written, ?_, hs.limit_hit_iff,
    fun outcome hreturned => ?_⟩
  · have := hs.written
    omega
  · obtain ⟨hended, hhit⟩ := hs.returned outcome hreturned
    exact hhit.trans (hs.limit_hit_iff hended).2

/-- Both tasks at the limit of three bytes: the second chunk of two is granted one. -/
theorem copy_capped_exact_race :
    ∃ s : Drive, Run (DriveStep 3) (Drive.start fun _ => true)
        [.step .stdout, .step .stderr, .read .stdout [1, 2], .read .stderr [3, 4],
          .step .stderr, .step .stdout, .step .stdout, .step .stdout, .step .stdout,
          .select .OutputLimitExceeded, .step .stderr, .step .stderr, .step .stderr,
          .step .stdout, .join] s
      ∧ (s.tasks .stdout).sink = [1] ∧ (s.tasks .stderr).sink = [3, 4]
      ∧ s.returned = some .OutputLimitExceeded ∧ s.emitted ≤ 3 := by
  obtain ⟨s, hrun, hseen⟩ := Run.exists_of_foldlM (drive_step 3) (Drive.start fun _ => true)
    [.step .stdout, .step .stderr, .read .stdout [1, 2], .read .stderr [3, 4],
      .step .stderr, .step .stdout, .step .stdout, .step .stdout, .step .stdout,
      .select .OutputLimitExceeded, .step .stderr, .step .stderr, .step .stderr,
      .step .stdout, .join]
    (fun s => (s.tasks .stdout).sink = [1] ∧ (s.tasks .stderr).sink = [3, 4]
      ∧ s.returned = some .OutputLimitExceeded)
    (by decide)
  obtain ⟨hout, herr, hreturned⟩ := of_decide_eq_true hseen
  exact ⟨s, hrun, hout, herr, hreturned, (copy_capped_exact 3 _ hrun).2.2.1⟩

end AgentSpace.Memory
