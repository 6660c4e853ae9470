/-
What the helpers of `commit_move` do to the disk.

A transaction only ever writes files under names it makes up (`Temporary`), which no
page has, or renames files it has backed up. `Progress` says what a disk looks like
while one is under way, and the rollback helpers take such a disk back to the one the
transaction started from (`Progress.undo`).
-/
import AgentSpace.Memory.FsStore

set_option autoImplicit false

namespace AgentSpace.Memory

open Text

/-! ## Names a transaction makes up -/

/-- The staged form of a file. -/
def stage_name (env : Env) (destination : FilePath) : FilePath :=
  transaction_path_for env destination "stage".toList

/-- The backup of a file. -/
def backup_name (env : Env) (original : FilePath) : FilePath :=
  transaction_path_for env original "backup".toList

/-- A name under which a store call keeps a file of its own. -/
def Temporary (env : Env) (path : FilePath) : Prop :=
  ∃ destination marker, path = transaction_path_for env destination marker

variable (env : Env)

theorem temporary_stage_name (destination : FilePath) :
    Temporary env (stage_name env destination) := ⟨_, _, rfl⟩

theorem temporary_backup_name (original : FilePath) :
    Temporary env (backup_name env original) := ⟨_, _, rfl⟩

theorem transaction_path_for_last (destination : FilePath) (marker : Text) :
    ∃ dir name c, transaction_path_for env destination marker = dir ++ [name ++ [c]]
      ∧ c.isDigit = true := by
  have hne : decimal env.counter ≠ [] := Nat.toDigits_ne_nil
  refine ⟨destination.dropLast, '.' :: destination.getLastD [] ++ '.' :: marker ++ '-'
    :: decimal env.pid ++ '-' :: (decimal env.counter).dropLast,
    (decimal env.counter).getLast hne, ?_,
    Nat.isDigit_of_mem_toDigits (by omega) (by omega) (List.getLast_mem hne)⟩
  rw [transaction_path_for]
  conv_lhs => rw [← List.dropLast_append_getLast hne]
  simp

theorem page_file_not_temporary (path : PagePath) : ¬Temporary env (page_file path) := by
  rintro ⟨destination, marker, h⟩
  obtain ⟨dir, name, c, hname, hc⟩ := transaction_path_for_last env destination marker
  rw [hname, page_file] at h
  have hlast : path.file_stem ++ MARKDOWN_EXTENSION = name ++ [c] := by
    simpa using (List.append_inj' h rfl).2
  have hd : 'd' = c := by
    have := congrArg List.getLast? hlast
    simpa [MARKDOWN_EXTENSION] using this
  rw [← hd] at hc
  exact absurd hc (by decide)

theorem transaction_path_for_inj {env : Env} {a b : FilePath} {m : Text} (ha : a ≠ []) (hb : b ≠ [])
    (h : transaction_path_for env a m = transaction_path_for env b m) : a = b := by
  rw [transaction_path_for, transaction_path_for] at h
  obtain ⟨hdir, hname⟩ := List.append_inj' h rfl
  have hlast : a.getLastD [] = b.getLastD [] := by simpa using hname
  rw [List.getLastD_eq_getLast?, List.getLastD_eq_getLast?, List.getLast?_eq_getLast_of_ne_nil ha,
    List.getLast?_eq_getLast_of_ne_nil hb] at hlast
  rw [← List.dropLast_append_getLast ha, ← List.dropLast_append_getLast hb, hdir]
  simpa using hlast

theorem stage_name_ne_backup_name (a b : FilePath) : stage_name env a ≠ backup_name env b := by
  intro h
  rw [stage_name, backup_name, transaction_path_for, transaction_path_for] at h
  obtain ⟨-, hname⟩ := List.append_inj' h rfl
  have hcancel : ('.' :: a.getLastD [] ++ '.' :: "stage".toList)
      = '.' :: b.getLastD [] ++ '.' :: "backup".toList := by
    have := List.singleton_inj.1 hname
    refine @List.append_cancel_right _ _ ('-' :: decimal env.pid ++ '-' :: decimal env.counter) _ ?_
    simpa using this
  have := congrArg (fun name => name.reverse.head?) hcancel
  simp at this

theorem page_file_ne_nil (path : PagePath) : page_file path ≠ [] := by simp [page_file]

theorem page_file_injective {p q : PagePath} (h : page_file p = page_file q) : p = q := by
  rw [page_file, page_file] at h
  obtain ⟨hdir, hname⟩ := List.append_inj' h rfl
  have hstem : p.file_stem = q.file_stem :=
    List.append_cancel_right (List.singleton_inj.1 hname)
  refine PagePath.ext ?_
  rw [p.segments_eq, q.segments_eq, hdir, hstem]

/-! ## Single steps -/

section Steps

variable {faults : Faults} {d d' : Disk} {step : IoStep}

theorem attempt_cases (faults : Faults) (step : IoStep) (d : Disk) (change : Disk → Disk) :
    (∃ e, faults step ≠ none ∧ attempt faults step d change = (.error e, d))
      ∨ (faults step = none ∧ attempt faults step d change = (.ok (), change d)) := by
  rw [attempt]
  cases faults step with
  | some failure => exact Or.inl ⟨failure.to_error, by simp, rfl⟩
  | none => exact Or.inr ⟨rfl, rfl⟩

theorem read_remove_ignored_of_ne {path q : FilePath} (hq : q ≠ path) :
    (remove_ignored faults step d path).read q = d.read q := by
  rw [remove_ignored]
  rcases attempt_cases faults step d (·.erase path) with ⟨e, -, h⟩ | ⟨-, h⟩
  · rw [h]
  · rw [h, Disk.read_erase, if_neg hq]

theorem read_remove_ignored (h : faults step = none) (path q : FilePath) :
    (remove_ignored faults step d path).read q = if q = path then none else d.read q := by
  rw [remove_ignored, attempt, h]
  exact Disk.read_erase d path q

/-- Renaming a file that is there fails only by a fault of the step. -/
theorem rename_file_cases (faults : Faults) (step : IoStep) (target : FilePath)
    {current : FilePath} {bytes : Bytes} (hcurrent : d.read current = some bytes) :
    (∃ e, faults step ≠ none ∧ rename_file faults step d current target = (.error e, d))
      ∨ (faults step = none ∧ ∃ d', rename_file faults step d current target = (.ok (), d')
        ∧ ∀ q, d'.read q
          = if q = target then some bytes else if q = current then none else d.read q) := by
  rw [rename_file]
  cases hstep : faults step with
  | some failure => exact Or.inl ⟨failure.to_error, by simp, rfl⟩
  | none =>
    refine Or.inr ⟨rfl, (d.erase current).put target bytes, by simp [hcurrent], fun q => ?_⟩
    rw [Disk.read_put, Disk.read_erase]

/-- A temporary file is written in three steps, or one of them fails; other
files are not touched. -/
theorem write_temporary_cases (env : Env) (at_create at_write at_sync : IoStep) (d : Disk)
    (temporary : FilePath) (bytes : Bytes) :
    (∃ e d', write_temporary env at_create at_write at_sync d temporary bytes = (.error e, d')
        ∧ (∃ step, (step = at_create ∨ step = at_write ∨ step = at_sync) ∧ env.faults step ≠ none)
        ∧ ∀ q, q ≠ temporary → d'.read q = d.read q)
      ∨ ∃ d', write_temporary env at_create at_write at_sync d temporary bytes = (.ok (), d')
        ∧ ∀ q, d'.read q = if q = temporary then some bytes else d.read q := by
  rw [write_temporary]
  rcases attempt_cases env.faults at_create d (·.put temporary ByteArray.empty) with
    ⟨e, he, h⟩ | ⟨-, h⟩
  · exact Or.inl ⟨e, d, by rw [h], ⟨at_create, by simp, he⟩, fun q _ => rfl⟩
  rw [h]
  dsimp only
  rcases attempt_cases env.faults at_write (d.put temporary ByteArray.empty) (·.put temporary bytes)
    with ⟨e, he, h⟩ | ⟨-, h⟩
  · refine Or.inl ⟨e, _, by rw [h], ⟨at_write, by simp, he⟩, fun q hq => ?_⟩
    rw [Disk.read_put, if_neg hq]
  rw [h]
  dsimp only
  rcases attempt_cases env.faults at_sync ((d.put temporary ByteArray.empty).put temporary bytes) id
    with ⟨e, he, h⟩ | ⟨-, h⟩
  · refine Or.inl ⟨e, _, h, ⟨at_sync, by simp, he⟩, fun q hq => ?_⟩
    rw [Disk.read_put, if_neg hq, Disk.read_put, if_neg hq]
  · refine Or.inr ⟨_, h, fun q => ?_⟩
    rw [id, Disk.read_put, Disk.read_put]
    split_ifs <;> rfl

end Steps

/-! ## The rollback helpers -/

/-- The staged files of a list of destinations. -/
def staged_of (env : Env) (destinations : List FilePath) : List (FilePath × FilePath) :=
  destinations.map fun destination => (stage_name env destination, destination)

/-- The backups of a list of originals. -/
def backups_of (env : Env) (originals : List FilePath) : List (FilePath × FilePath) :=
  originals.map fun original => (backup_name env original, original)

@[simp] theorem staged_of_cons (x : FilePath) (xs : List FilePath) :
    staged_of env (x :: xs) = (stage_name env x, x) :: staged_of env xs := rfl

@[simp] theorem backups_of_cons (x : FilePath) (xs : List FilePath) :
    backups_of env (x :: xs) = (backup_name env x, x) :: backups_of env xs := rfl

/-- No rollback step of the call fails. -/
def RollbackWorks (env : Env) : Prop := ∀ step, step.IsRollback → env.faults step = none

/-- No rollback step that concerns a file of the store fails; the transaction's own
files may stay behind. -/
structure RestoreWorks (env : Env) : Prop where
  restore : ∀ backup, env.faults (.restore backup) = none
  remove_installed : ∀ path, env.faults (.remove_installed path) = none

theorem RollbackWorks.restoreWorks {env : Env} (h : RollbackWorks env) : RestoreWorks env :=
  ⟨fun _ => h _ trivial, fun _ => h _ trivial⟩

section Helpers

variable {env : Env}

variable (d : Disk)

theorem read_cleanup_staged_of_ne (destinations : List FilePath) {q : FilePath}
    (hq : ¬Temporary env q) : (cleanup_staged env d (staged_of env destinations)).read q
      = d.read q := by
  rw [cleanup_staged]
  induction destinations generalizing d with
  | nil => rfl
  | cons destination destinations ih =>
    rw [staged_of_cons, List.foldl_cons, ih, read_remove_ignored_of_ne]
    rintro rfl
    exact hq (temporary_stage_name env destination)

theorem read_cleanup_staged (hroll : RollbackWorks env) (d : Disk) (destinations : List FilePath)
    (q : FilePath) : (cleanup_staged env d (staged_of env destinations)).read q
      = if q ∈ destinations.map (stage_name env) then none else d.read q := by
  rw [cleanup_staged]
  induction destinations generalizing d with
  | nil => rfl
  | cons destination destinations ih =>
    rw [staged_of_cons, List.foldl_cons, ih,
      read_remove_ignored (hroll (.cleanup_staged _) trivial)]
    by_cases hq : q = stage_name env destination
    · simp [hq]
    · simp [hq]

variable (hrestore : RestoreWorks env)
include hrestore

theorem read_remove_installed (installed : List FilePath) (q : FilePath) :
    (remove_installed env d installed).read q = if q ∈ installed then none else d.read q := by
  rw [remove_installed]
  induction installed with
  | nil => rfl
  | cons path installed ih =>
    rw [List.foldr_cons, read_remove_ignored (hrestore.remove_installed _), ih]
    by_cases hq : q = path
    · simp [hq]
    · simp [hq]

/-- Every original gets its backup back, and the backups are gone. -/
theorem read_restore_backups {originals : List FilePath} (hnodup : originals.Nodup)
    (hne : ∀ o ∈ originals, o ≠ []) (htemp : ∀ o ∈ originals, ¬Temporary env o)
    (hthere : ∀ o ∈ originals, d.read (backup_name env o) ≠ none) (q : FilePath) :
    (restore_backups env d (backups_of env originals)).read q
      = if q ∈ originals then d.read (backup_name env q)
        else if q ∈ originals.map (backup_name env) then none else d.read q := by
  rw [restore_backups]
  induction originals generalizing q with
  | nil => rfl
  | cons o originals ih =>
    obtain ⟨ho, hnodup⟩ := List.nodup_cons.1 hnodup
    replace ih := ih hnodup (fun p hp => hne p (by simp [hp])) (fun p hp => htemp p (by simp [hp]))
      (fun p hp => hthere p (by simp [hp]))
    rw [backups_of_cons, List.foldr_cons]
    generalize List.foldr _ d (backups_of env originals) = d1 at ih ⊢
    -- the backup of `o` is still in place: its name is not another original's backup
    have hname : ∀ p ∈ originals, backup_name env o ≠ backup_name env p := by
      intro p hp heq
      have := transaction_path_for_inj (hne o (by simp)) (hne p (by simp [hp])) heq
      exact ho (this ▸ hp)
    have hback : d1.read (backup_name env o) = d.read (backup_name env o) := by
      rw [ih, if_neg, if_neg]
      · intro hmem
        obtain ⟨p, hp, heq⟩ := List.mem_map.1 hmem
        exact hname p hp heq.symm
      · exact fun hmem => htemp _ (by simp [hmem]) (temporary_backup_name env o)
    obtain ⟨bytes, hbytes⟩ := Option.ne_none_iff_exists'.1 (hthere o (by simp))
    rcases rename_file_cases env.faults (.restore (backup_name env o)) o
      (hback.trans hbytes) with ⟨e, he, -⟩ | ⟨-, d2, hd2, hread⟩
    · exact absurd (hrestore.restore (backup_name env o)) he
    rw [hd2]
    dsimp only
    rw [hread]
    by_cases hq : q = o
    · simp [hq, hbytes]
    · rw [if_neg hq]
      by_cases hqb : q = backup_name env o
      · have : q ∉ o :: originals := fun hmem =>
          htemp q hmem (hqb ▸ temporary_backup_name env o)
        rw [if_pos hqb, if_neg this, if_pos (by simp [hqb])]
      · rw [if_neg hqb, ih]
        simp [hq, hqb]

end Helpers

/-! ## A transaction under way -/

/-- The disk `d` of a transaction that started on `d₀`: `destinations` have been
staged, `originals` renamed to their backups, `installed` written. -/
structure Progress (env : Env) (d₀ d : Disk) (destinations originals installed : List FilePath) :
    Prop where
  keeps : ∀ q, ¬Temporary env q → q ∉ originals → q ∉ installed → d.read q = d₀.read q
  moved : ∀ o ∈ originals, o ∉ installed → d.read o = none
  backup : ∀ o ∈ originals, d.read (backup_name env o) = d₀.read o
  no_new : ∀ q, Temporary env q → d.read q ≠ none →
    d₀.read q ≠ none ∨ q ∈ destinations.map (stage_name env) ∨ q ∈ originals.map (backup_name env)

/-- Nothing is left of a transaction: every file but its own is as it was, and
it has left none of its own behind. -/
structure Undone (env : Env) (d₀ d : Disk) : Prop where
  files : ∀ q, ¬Temporary env q → d.read q = d₀.read q
  no_new : ∀ q, Temporary env q → d.read q ≠ none → d₀.read q ≠ none

/-- A transaction that failed: if the store's files could be put back they are as
they were, and if the whole rollback works nothing is left of it. -/
structure Recovers (env : Env) (d₀ d : Disk) : Prop where
  files : RestoreWorks env → ∀ q, ¬Temporary env q → d.read q = d₀.read q
  undone : RollbackWorks env → Undone env d₀ d

/-- Files that can be backed up: they are there, each listed once. -/
structure Originals (env : Env) (d₀ : Disk) (originals : List FilePath) : Prop where
  nodup : originals.Nodup
  ne_nil : ∀ o ∈ originals, o ≠ []
  not_temporary : ∀ o ∈ originals, ¬Temporary env o
  there : ∀ o ∈ originals, d₀.read o ≠ none

section Undo

variable {env : Env} {d₀ d : Disk} {destinations originals installed : List FilePath}

theorem Progress.start (env : Env) (d : Disk) : Progress env d d [] [] [] :=
  ⟨fun _ _ _ _ => rfl, by simp, by simp, fun _ _ h => Or.inl h⟩

/-- **The rollback.** Removing what was installed, restoring the backups and
removing the staged files undoes a transaction, wherever it stopped. -/
theorem Progress.undo (h : Progress env d₀ d destinations originals installed)
    (horig : Originals env d₀ originals)
    (hinst : ∀ q ∈ installed, ¬Temporary env q ∧ (q ∈ originals ∨ d₀.read q = none)) :
    Recovers env d₀ (cleanup_staged env (restore_backups env (remove_installed env d installed)
      (backups_of env originals)) (staged_of env destinations)) := by
  have hbackup : RestoreWorks env → ∀ o, (remove_installed env d installed).read
      (backup_name env o) = d.read (backup_name env o) := by
    intro hworks o
    rw [read_remove_installed _ hworks, if_neg]
    exact fun hmem => (hinst _ hmem).1 (temporary_backup_name env o)
  have hrestore : RestoreWorks env → ∀ q, _ := fun hworks =>
    read_restore_backups (remove_installed env d installed) hworks horig.nodup
      horig.ne_nil horig.not_temporary fun o ho => by
        rw [hbackup hworks, h.backup o ho]
        exact horig.there o ho
  have hfiles : RestoreWorks env → ∀ q, ¬Temporary env q →
      (cleanup_staged env (restore_backups env (remove_installed env d installed)
        (backups_of env originals)) (staged_of env destinations)).read q = d₀.read q := by
    intro hworks q hq
    have hback : q ∉ originals.map (backup_name env) := fun hmem => by
      obtain ⟨x, -, rfl⟩ := List.mem_map.1 hmem
      exact hq (temporary_backup_name env x)
    rw [read_cleanup_staged_of_ne _ _ hq, hrestore hworks]
    by_cases ho : q ∈ originals
    · rw [if_pos ho, hbackup hworks, h.backup q ho]
    · rw [if_neg ho, if_neg hback, read_remove_installed _ hworks]
      by_cases hi : q ∈ installed
      · rw [if_pos hi]
        exact (((hinst q hi).2.resolve_left ho)).symm
      · rw [if_neg hi]
        exact h.keeps q hq ho hi
  refine ⟨hfiles, fun hroll => ⟨hfiles hroll.restoreWorks, fun q hq hread => ?_⟩⟩
  rw [read_cleanup_staged hroll] at hread
  split_ifs at hread with hstage
  · exact absurd rfl hread
  rw [hrestore hroll.restoreWorks, if_neg fun ho => horig.not_temporary q ho hq] at hread
  split_ifs at hread with hback
  · exact absurd rfl hread
  rw [read_remove_installed _ hroll.restoreWorks, if_neg fun hi => (hinst q hi).1 hq] at hread
  rcases h.no_new q hq hread with h0 | h0 | h0
  · exact h0
  · exact absurd h0 hstage
  · exact absurd h0 hback

end Undo

end AgentSpace.Memory
