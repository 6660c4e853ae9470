/-
What the sections of the memory service do, one triple for each.

The store is only changed by the last call of a section. What a section knows when it
makes that call (`Permitted`) holds of the disk at that moment, and a section that
returns earlier has changed nothing.
-/
import AgentSpace.Memory.Service
import AgentSpace.Memory.CommitMove

set_option autoImplicit false

namespace AgentSpace.Memory

open Text Lib

/-! ## Calls that read -/

/-- The calls that may change the disk. -/
def StoreCall.Mutates : StoreCall → Prop
  | .write_bytes _ _ | .remove_file _ | .commit_move _ _ _ _ => True
  | _ => False

/-- The store has the disk `d`, at tick `t₀` or later. -/
def OnDisk (d : Disk) (t₀ : ℕ) (s : Store) : Prop := s.disk = d ∧ t₀ ≤ s.tick

/-- The disk is still `d`, and a result satisfies `P`. -/
def Reads {α : Type} (d : Disk) (t₀ : ℕ) (P : α → Prop) (r : Except MemoryError α) (s : Store) : Prop :=
  OnDisk d t₀ s ∧ ∀ a, r = .ok a → P a

section Reading

variable {ext : Externals} {envs : ℕ → Env} {guard : Store → StoreCall → Prop}
  (hreads : ∀ s c, ¬c.Mutates → guard s c) {d : Disk} {t₀ : ℕ}

theorem read_bytes_ok {env : Env} {path : PagePath} {bytes : Bytes}
    (h : read_bytes env d path = .ok bytes) : d.read (page_file path) = some bytes := by
  rw [read_bytes] at h
  split at h
  · cases h
  · split at h
    · cases h
    · cases hread : d.read (page_file path) with
      | none => simp [hread] at h
      | some b => simpa [hread] using h

theorem read_bytes_not_found {env : Env} {path : PagePath} {what : Text}
    (h : read_bytes env d path = .error (.NotFound what)) : d.read (page_file path) = none := by
  rw [read_bytes] at h
  split at h
  · rename_i failure _
    cases failure <;> simp [Failure.to_error] at h
  · split at h
    · rename_i failure _
      cases failure <;> simp [Failure.to_error] at h
    · cases hread : d.read (page_file path) with
      | none => rfl
      | some b => simp [hread] at h

include hreads

variable (path : PagePath)

theorem read_bytes_spec :
    Triple (exec ext envs) guard (OnDisk d t₀) (Section.read_bytes path).run
      (Reads d t₀ fun value => d.read (page_file path) = some value.1
        ∧ value.2 = revision_of ext value.1) := by
  refine .lift (fun s _ => hreads _ _ id) fun s hs => ⟨⟨hs.1, Nat.le_succ_of_le hs.2⟩,
    fun value h => ?_⟩
  have h' : (read_bytes (envs s.tick) s.disk path).map
      (fun bytes => (bytes, revision_of ext bytes)) = .ok value := h
  cases hr : read_bytes (envs s.tick) s.disk path with
  | error e =>
    rw [hr] at h'
    cases h'
  | ok bytes =>
    rw [hr] at h'
    obtain rfl : (bytes, revision_of ext bytes) = value := by simpa [Except.map] using h'
    exact ⟨hs.1 ▸ read_bytes_ok hr, rfl⟩

theorem read_optional_spec :
    Triple (exec ext envs) guard (OnDisk d t₀) (read_optional path).run (Reads d t₀ fun existing => existing
        = (d.read (page_file path)).map fun bytes => (bytes, revision_of ext bytes)) := by
  have hlift : Triple (exec ext envs) guard (OnDisk d t₀) (Prog.lift (StoreCall.read_bytes path))
      fun r s => OnDisk d t₀ s
        ∧ r = (read_bytes (envs (s.tick - 1)) d path).map
          fun bytes => (bytes, revision_of ext bytes) := by
    refine .lift (fun s _ => hreads _ _ id) fun s hs =>
      ⟨⟨hs.1, Nat.le_succ_of_le hs.2⟩, ?_⟩
    rw [← hs.1]
    rfl
  refine .bind hlift fun r => .of_forall ?_
  rintro s₀ ⟨hd, hr⟩
  cases hread : read_bytes (envs (s₀.tick - 1)) d path with
  | ok bytes =>
    rw [hread] at hr
    obtain rfl : r = .ok (bytes, revision_of ext bytes) := hr
    refine .ret ?_
    rintro s rfl
    refine ⟨hd, fun existing h => ?_⟩
    rw [read_bytes_ok hread]
    simpa using h.symm
  | error e =>
    rw [hread] at hr
    obtain rfl : r = .error e := hr
    cases e with
    | NotFound what =>
      refine .ret ?_
      rintro s rfl
      refine ⟨hd, fun existing h => ?_⟩
      rw [read_bytes_not_found hread]
      simpa using h.symm
    | _ =>
      refine .ret ?_
      rintro s rfl
      exact ⟨hd, fun existing h => by simp at h⟩

theorem page_exists_spec :
    Triple (exec ext envs) guard (OnDisk d t₀) (Section.page_exists path).run
      (Reads d t₀ fun taken => taken = d.is_file (page_file path)) := by
  refine .lift (fun s _ => hreads _ _ id) fun s hs => ⟨⟨hs.1, Nat.le_succ_of_le hs.2⟩,
    fun taken h => ?_⟩
  have h' : page_exists (envs s.tick) s.disk path = .ok taken := h
  rw [page_exists] at h'
  split at h'
  · cases h'
  · rw [← hs.1]
    simpa using h'.symm

theorem list_pages_spec :
    Triple (exec ext envs) guard (OnDisk d t₀) Section.list_pages.run
      (Reads d t₀ fun pages => pages = (d.files.keys.filterMap scanned_page).insertionSort page_le) := by
  refine .lift (fun s _ => hreads _ _ id) fun s hs => ⟨⟨hs.1, Nat.le_succ_of_le hs.2⟩,
    fun pages h => ?_⟩
  have h' : list_pages (envs s.tick) s.disk = .ok pages := h
  rw [list_pages] at h'
  split at h'
  · cases h'
  · rw [← hs.1]
    simpa using h'.symm

/-- The clock is read in some tick of the section, and the rest runs after it. -/
theorem now_bind {β : Type} {f : DateTime → Section β} {post : Except MemoryError β → Store → Prop}
    (hf : ∀ t, t₀ ≤ t →
      Triple (exec ext envs) guard (OnDisk d (t + 1)) (f (envs t).now).run post) :
    Triple (exec ext envs) guard (OnDisk d t₀) (Section.now >>= f).run post := by
  have hlift : Triple (exec ext envs) guard (OnDisk d t₀) (Prog.lift StoreCall.now)
      fun now s => ∃ t, now = (envs t).now ∧ t₀ ≤ t ∧ OnDisk d (t + 1) s :=
    Triple.lift (fun s _ => hreads _ _ id) fun s hs => ⟨s.tick, rfl, hs.2, hs.1, le_refl _⟩
  refine .fallible_bind (fun now s => ∃ t, now = (envs t).now ∧ t₀ ≤ t ∧ OnDisk d (t + 1) s)
    (Triple.bind hlift fun now => .ret fun s hs => ⟨fun a h => ?_, fun e h => ?_⟩)
    fun now s ⟨t, h, ht, hs⟩ => ?_
  · obtain rfl : now = a := by simpa using h
    exact hs
  · cases h
  · subst h
    exact hf t ht s hs

omit hreads

theorem of_except_spec {α : Type} (x : Except MemoryError α) :
    Triple (exec ext envs) guard (OnDisk d t₀) (Section.of_except x).run (Reads d t₀ fun a => x = .ok a) :=
  Triple.of_except fun _ hs => ⟨hs, fun _ h => h⟩

theorem return_error_if_spec (condition : Prop) [Decidable condition] (error : MemoryError) :
    Triple (exec ext envs) guard (OnDisk d t₀) (Section.return_error_if condition error).run
      (Reads d t₀ fun _ => ¬condition) := by
  refine .of_except fun s hs => ⟨hs, fun a h => ?_⟩
  intro hc
  simp [hc] at h

/-- Reading first: an error leaves the disk alone, and what was read is known in
the rest. -/
theorem read_bind {α β : Type} {p : Section α} {f : α → Section β} {P : α → Prop}
    {post : Except MemoryError β → Store → Prop}
    (hp : Triple (exec ext envs) guard (OnDisk d t₀) p.run (Reads d t₀ P))
    (herr : ∀ e s, OnDisk d t₀ s → post (.error e) s)
    (hf : ∀ a, P a → Triple (exec ext envs) guard (OnDisk d t₀) (f a).run post) :
    Triple (exec ext envs) guard (OnDisk d t₀) (p >>= f).run post := by
  refine .fallible_bind (fun a s => OnDisk d t₀ s ∧ P a)
    (hp.mono (fun s hs => hs) fun r s hr => ?_) fun a s hs => hf a hs.2 s hs.1
  exact ⟨fun a ha => ⟨hr.1, hr.2 a ha⟩, fun e _ => herr e s hr.1⟩

end Reading

/-! ## The last call -/

section Mutations

variable {ext : Externals} {envs : ℕ → Env} {guard : Store → StoreCall → Prop}
  (hreads : ∀ s c, ¬c.Mutates → guard s c) {d : Disk} {t₀ : ℕ}

/-- A write ends with the page written, or with the disk's pages untouched. -/
theorem write_bytes_spec {path : PagePath} {bytes : Bytes}
    (hguard : ∀ s, OnDisk d t₀ s → guard s (.write_bytes path bytes)) :
    Triple (exec ext envs) guard (OnDisk d t₀) (Section.write_bytes path bytes).run fun r s =>
      ∃ t, t₀ ≤ t ∧ t < s.tick
        ∧ s.disk = (write_bytes (envs t) d path bytes).2
        ∧ r = (write_bytes (envs t) d path bytes).1.map fun _ => revision_of ext bytes := by
  refine .lift hguard fun s hs => ⟨s.tick, hs.2, Nat.lt_succ_self _, ?_, ?_⟩
  · rw [← hs.1]
    rfl
  · rw [← hs.1]
    rfl

theorem remove_file_spec {path : PagePath} (hguard : ∀ s, OnDisk d t₀ s → guard s (.remove_file path)) :
    Triple (exec ext envs) guard (OnDisk d t₀) (Section.remove_file path).run fun r s =>
      ∃ t, t₀ ≤ t ∧ t < s.tick ∧ s.disk = (remove_file (envs t) d path).2
        ∧ r = (remove_file (envs t) d path).1 := by
  refine .lift hguard fun s hs => ⟨s.tick, hs.2, Nat.lt_succ_self _, ?_, ?_⟩
  · rw [← hs.1]
    rfl
  · rw [← hs.1]
    rfl

theorem commit_move_spec {source destination : PagePath} {bytes : Bytes} {reps : List (PagePath × Bytes)}
    (hguard : ∀ s, OnDisk d t₀ s → guard s (.commit_move source destination bytes reps)) :
    Triple (exec ext envs) guard (OnDisk d t₀)
      (Section.commit_move source destination bytes reps).run fun r s =>
        ∃ t, t₀ ≤ t ∧ t < s.tick
          ∧ s.disk = (commit_move (envs t) d source destination bytes reps).2
          ∧ r = (commit_move (envs t) d source destination bytes reps).1 := by
  refine .lift hguard fun s hs => ⟨s.tick, hs.2, Nat.lt_succ_self _, ?_, ?_⟩
  · rw [← hs.1]
    rfl
  · rw [← hs.1]
    rfl

end Mutations

/-! ## What the last call changes -/

section Frames

variable {env : Env} {d : Disk}

/-- A write replaces the bytes of one page, or of none. -/
theorem write_bytes_cases (env : Env) (d : Disk) (path : PagePath) (bytes : Bytes) :
    (∃ e d', write_bytes env d path bytes = (.error e, d')
        ∧ ∀ q, ¬Temporary env q → d'.read q = d.read q)
      ∨ ∃ d', write_bytes env d path bytes = (.ok (), d')
        ∧ ∀ q, ¬Temporary env q →
          d'.read q = if q = page_file path then some bytes else d.read q := by
  set temp := transaction_path_for env (page_file path) "tmp".toList with htemp
  have hne : ∀ q, ¬Temporary env q → q ≠ temp := fun q hq heq => hq ⟨_, _, heq⟩
  rw [write_bytes]
  cases env.faults .resolve with
  | some failure => exact Or.inl ⟨_, d, rfl, fun _ _ => rfl⟩
  | none =>
    dsimp only
    rcases attempt_cases env.faults .create_dir d (·.create_dir_all (page_file path).dropLast)
      with ⟨e, -, h⟩ | ⟨-, h⟩
    · rw [h]
      exact Or.inl ⟨e, d, rfl, fun _ _ => rfl⟩
    rw [h]
    dsimp only
    rw [write_atomically]
    rcases write_temporary_cases env .create .write .sync
      (d.create_dir_all (page_file path).dropLast) temp bytes with
      ⟨e, d', hw, -, hread⟩ | ⟨d', hw, hread⟩
    · rw [hw]
      refine Or.inl ⟨e, _, rfl, fun q hq => ?_⟩
      rw [read_remove_ignored_of_ne (hne q hq), hread q (hne q hq), Disk.read_create_dir_all]
    rw [hw]
    dsimp only
    rcases rename_file_cases env.faults .rename (page_file path)
      ((hread temp).trans (if_pos rfl)) with
      ⟨e, -, hr⟩ | ⟨-, d'', hr, hread'⟩
    · rw [hr]
      refine Or.inl ⟨e, _, rfl, fun q hq => ?_⟩
      rw [read_remove_ignored_of_ne (hne q hq), hread q, if_neg (hne q hq),
        Disk.read_create_dir_all]
    · rw [hr]
      refine Or.inr ⟨d'', rfl, fun q hq => ?_⟩
      rw [hread' q, if_neg (hne q hq), hread q, if_neg (hne q hq), Disk.read_create_dir_all]

/-- A removal takes one page away, or nothing. -/
theorem remove_file_cases (env : Env) (d : Disk) (path : PagePath) :
    (∃ e, remove_file env d path = (.error e, d))
      ∨ ∃ d', remove_file env d path = (.ok (), d')
        ∧ ∀ q, d'.read q = if q = page_file path then none else d.read q := by
  rw [remove_file]
  cases env.faults .resolve with
  | some failure => exact Or.inl ⟨_, rfl⟩
  | none =>
    cases d.read (page_file path) with
    | none => exact Or.inl ⟨_, rfl⟩
    | some bytes =>
      dsimp only
      rcases attempt_cases env.faults .remove d (·.erase (page_file path)) with
        ⟨e, -, h⟩ | ⟨-, h⟩
      · exact Or.inl ⟨e, h⟩
      · exact Or.inr ⟨_, h, fun q => Disk.read_erase d _ q⟩

/-- The path of no replacement fails to resolve when it is to be backed up. -/
def Reresolves (env : Env) : Prop := ∀ j, env.faults (.backup_resolve j) = none

/-- A move that fails leaves the pages as they were, if their paths resolve again
and what was renamed can be put back. -/
theorem commit_move_error {source destination : PagePath} {bytes : Bytes}
    {reps : List (PagePath × Bytes)} {e : MemoryError} {d' : Disk}
    (h : commit_move env d source destination bytes reps = (.error e, d'))
    (hresolve : Reresolves env) (hrestore : RestoreWorks env) :
    ∀ q, ¬Temporary env q → d'.read q = d.read q := by
  rw [commit_move] at h
  cases hcheck : check_move env d source destination reps with
  | error e =>
    rw [hcheck] at h
    obtain rfl : d = d' := congrArg Prod.snd h
    exact fun _ _ => rfl
  | ok u =>
    rw [hcheck] at h
    dsimp only at h
    rcases Movable.perform_move_outcome (check_move_ok.1 hcheck).1 with ⟨d₁, hp, -⟩
      | ⟨e₁, d₁, hp, -, hrecovers⟩ | ⟨e₁, d₁, j, -, hp, -, hprogress, -⟩
      | ⟨e₁, d₁, j, -, -, hfault, -⟩
    · rw [hp] at h
      cases h
    · obtain rfl : d₁ = d' := congrArg Prod.snd (hp.symm.trans h)
      exact hrecovers.files hrestore
    · obtain rfl : d₁ = d' := congrArg Prod.snd (hp.symm.trans h)
      exact fun q hq => hprogress.keeps q hq (by simp) (by simp)
    · exact absurd (hresolve j) hfault

end Frames

/-! ## What a section knows when it commits -/

/-- If a revision is expected, the stored page has it. -/
def Expected (ext : Externals) (d : Disk) (path : PagePath) (expected_revision : Option Text) : Prop :=
  ∀ expected, expected_revision = some expected →
    ∃ bytes, d.read (page_file path) = some bytes ∧ revision_of ext bytes = expected

/-- The one mutating call a request may make, and what holds of the disk when it
makes it. -/
def Permitted (ext : Externals) : Request → Store → StoreCall → Prop
  | .write request, s, .write_bytes path _ =>
    path = request.path ∧ Expected ext s.disk request.path request.expected_revision
      ∧ (request.expected_revision = none → request.overwrite = false →
        s.disk.read (page_file request.path) = none)
  | .move request, s, .commit_move source destination _ _ =>
    source = request.source ∧ destination = request.destination
      ∧ Expected ext s.disk request.source request.expected_revision
  | .remove request, s, .remove_file path =>
    path = request.path ∧ Expected ext s.disk request.path request.expected_revision
  | _, _, c => ¬c.Mutates

theorem permitted_of_not_mutates (ext : Externals) (request : Request) (s : Store) (c : StoreCall)
    (h : ¬c.Mutates) : Permitted ext request s c := by
  cases request <;> cases c <;> first | exact h | exact absurd trivial h

/-! ## The sections -/

/-- The stored form of a page, as `read_optional` returns it. -/
def stored (ext : Externals) (d : Disk) (path : PagePath) : Option (Bytes × Text) :=
  (d.read (page_file path)).map fun bytes => (bytes, revision_of ext bytes)

/-- How a write ends. -/
structure WriteEnds (ext : Externals) (envs : ℕ → Env) (d : Disk) (t₀ : ℕ)
    (request : WritePageRequest) (r : Except MemoryError Page) (s : Store) : Prop where
  valid : ∀ page, r = .ok page → validate_write request = .ok ()
  ok : ∀ page, r = .ok page → ∃ t' t metadata bytes, t₀ ≤ t' ∧ t' < t ∧ t < s.tick
    ∧ bytes.size ≤ MAX_BODY_BYTES
    ∧ written_metadata ext request (stored ext d request.path) (envs t').now = .ok metadata
    ∧ render_document ext.yaml ext.chrono metadata request.body = .ok bytes
    ∧ write_bytes (envs t) d request.path bytes = (.ok (), s.disk)
    ∧ page = ⟨request.path, metadata, normalize_body request.body, revision_of ext bytes⟩
  error : ∀ e, r = .error e → s.disk = d
    ∨ ∃ t bytes, t₀ ≤ t ∧ t < s.tick ∧ write_bytes (envs t) d request.path bytes = (.error e, s.disk)

/-- What the loop of `move_page` collects from the pages of a listing: for each
but the source the rewritten document, if there is one. -/
structure Collected (ext : Externals) (d : Disk) (source destination : PagePath)
    (pages : List PagePath) (reps : List (PagePath × Bytes)) : Prop where
  sound : ∀ r ∈ reps, r.1 ∈ pages ∧ r.1 ≠ source ∧ ∃ bytes, d.read (page_file r.1) = some bytes
    ∧ rewritten_page ext source destination r.1 bytes = .ok (some r.2)
  complete : ∀ p ∈ pages, p ≠ source → ∃ bytes result, d.read (page_file p) = some bytes
    ∧ rewritten_page ext source destination p bytes = .ok result
    ∧ ∀ new_bytes, result = some new_bytes → (p, new_bytes) ∈ reps

/-- How a move ends. -/
structure MoveEnds (ext : Externals) (envs : ℕ → Env) (d : Disk) (t₀ : ℕ)
    (request : MovePageRequest) (r : Except MemoryError MoveOutcome) (s : Store) : Prop where
  ok : ∀ outcome, r = .ok outcome → ∃ t source_bytes reps, t₀ ≤ t ∧ t < s.tick
    ∧ d.read (page_file request.source) = some source_bytes
    ∧ Collected ext d request.source request.destination
      ((d.files.keys.filterMap scanned_page).insertionSort page_le) reps
    ∧ commit_move (envs t) d request.source request.destination source_bytes reps
      = (.ok (), s.disk)
    ∧ outcome = ⟨request.source.as_str, request.destination.as_str, revision_of ext source_bytes,
      reps.map fun r => r.1.as_str⟩
  error : ∀ e, r = .error e → s.disk = d
    ∨ ∃ t source_bytes reps, t₀ ≤ t ∧ t < s.tick
      ∧ commit_move (envs t) d request.source request.destination source_bytes reps
        = (.error e, s.disk)

/-- How a removal ends. -/
structure RemoveEnds (envs : ℕ → Env) (d : Disk) (t₀ : ℕ) (request : RemovePageRequest)
    (r : Except MemoryError Unit) (s : Store) : Prop where
  ok : ∀ u, r = .ok u → ∃ t, t₀ ≤ t ∧ t < s.tick
    ∧ remove_file (envs t) d request.path = (.ok (), s.disk)
  error : ∀ e, r = .error e → s.disk = d
    ∨ ∃ t, t₀ ≤ t ∧ t < s.tick ∧ remove_file (envs t) d request.path = (.error e, s.disk)

/-- What a write knows of the stored page when its check passes. -/
theorem check_write_ok {request : WritePageRequest} {existing : Option (Bytes × Text)}
    (h : check_write request existing = .ok ()) : (∀ expected, request.expected_revision = some expected →
        ∃ bytes, existing = some (bytes, expected))
      ∧ (request.expected_revision = none → request.overwrite = false → existing = none) := by
  rw [check_write.eq_def] at h
  cases hexp : request.expected_revision with
  | some expected =>
    rw [hexp] at h
    refine ⟨fun expected' heq => ?_, by simp⟩
    obtain rfl : expected = expected' := by simpa using heq
    rcases existing with _ | ⟨bytes, actual⟩
    · cases h
    · dsimp only at h
      split_ifs at h with heq
      exact ⟨bytes, by rw [heq]⟩
  | none =>
    rw [hexp] at h
    refine ⟨by simp, fun _ hover => ?_⟩
    rcases existing with _ | ⟨bytes, actual⟩
    · rfl
    · simp [hover] at h

theorem check_revision_ok {path : PagePath} {expected_revision : Option Text} {revision : Text}
    (h : check_revision path expected_revision revision = .ok ()) :
    ∀ expected, expected_revision = some expected → expected = revision := by
  rintro expected rfl
  by_contra hne
  simp [check_revision, hne] at h

section Sections

variable (ext : Externals) (envs : ℕ → Env) (d : Disk) (t₀ : ℕ)

theorem write_page_spec (request : WritePageRequest) :
    Triple (exec ext envs) (Permitted ext (.write request)) (OnDisk d t₀)
      (write_page ext request).run (WriteEnds ext envs d t₀ request) := by
  have hreads := permitted_of_not_mutates ext (.write request)
  have herr : ∀ e s, OnDisk d t₀ s → WriteEnds ext envs d t₀ request (.error e) s :=
    fun e s hs => ⟨fun page h => (by cases h), fun page h => (by cases h), fun _ _ => Or.inl hs.1⟩
  rw [write_page]
  refine read_bind (of_except_spec _) herr fun _ hvalid => ?_
  refine read_bind (read_optional_spec hreads _) herr fun existing hexisting => ?_
  refine read_bind (of_except_spec _) herr fun _ hcheck => ?_
  refine now_bind hreads fun t' ht' => ?_
  replace herr : ∀ e s, OnDisk d (t' + 1) s → WriteEnds ext envs d t₀ request (.error e) s :=
    fun e s hs => herr e s ⟨hs.1, by have := hs.2; omega⟩
  refine read_bind (of_except_spec _) herr fun metadata hmeta => ?_
  refine read_bind (of_except_spec _) herr fun bytes hrender => ?_
  refine read_bind (return_error_if_spec _ _) herr fun _ hsize => ?_
  -- the write: what the check saw is what is on the disk now
  have hguard : ∀ s, OnDisk d (t' + 1) s →
      Permitted ext (.write request) s (.write_bytes request.path bytes) := by
    intro s hs
    obtain ⟨hsome, hnone⟩ := check_write_ok hcheck
    rw [hexisting] at hsome hnone
    refine ⟨rfl, fun expected hexp => ?_, fun hexp hover => ?_⟩
    · obtain ⟨bytes, hbytes⟩ := hsome expected hexp
      exact ⟨bytes, by simpa [hs.1] using hbytes⟩
    · simpa [hs.1] using hnone hexp hover
  refine .fallible_bind (fun revision s => WriteEnds ext envs d t₀ request
    (.ok ⟨request.path, metadata, normalize_body request.body, revision⟩) s) ?_ fun revision =>
      Triple.pure fun s hs => hs
  refine (write_bytes_spec hguard).mono (fun s hs => hs) fun r s ⟨t, ht₀, ht, hdisk, hr⟩ => ?_
  cases hw : (write_bytes (envs t) d request.path bytes).1 with
  | error e =>
    rw [hw] at hr
    refine ⟨fun revision h => (by simp [hr, Except.map] at h), fun e' h =>
      ⟨fun page h' => (by cases h'), fun page h' => (by cases h'), fun e'' h'' =>
        Or.inr ⟨t, bytes, by omega, ht, Prod.ext ?_ hdisk.symm⟩⟩⟩
    simp_all [Except.map]
  | ok u =>
    rw [hw] at hr
    refine ⟨fun revision h => ⟨fun _ _ => hvalid, fun page hpage => ?_, fun e h' => (by cases h')⟩,
      fun e h => (by simp [hr, Except.map] at h)⟩
    refine ⟨t', t, metadata, bytes, ht', by omega, ht, not_lt.1 hsize, ?_, hrender,
      Prod.ext hw hdisk.symm, ?_⟩
    · rw [stored, ← hexisting]
      exact hmeta
    · simp_all [Except.map]

theorem collect_replacements_spec {guard : Store → StoreCall → Prop}
    (hreads : ∀ s c, ¬c.Mutates → guard s c) (source destination : PagePath)
    (pages : List PagePath) (acc : List (PagePath × Bytes)) :
    Triple (exec ext envs) guard (OnDisk d t₀) (collect_replacements ext source destination pages acc).run
      (Reads d t₀ fun reps => ∃ new, reps = acc ++ new
        ∧ Collected ext d source destination pages new) := by
  induction pages generalizing acc with
  | nil =>
    refine .pure fun s hs => ⟨hs, fun reps h => ⟨[], ?_, ⟨by simp, by simp⟩⟩⟩
    simpa using h.symm
  | cons page_path rest ih =>
    rw [collect_replacements]
    have herr : ∀ e s, OnDisk d t₀ s → Reads d t₀
        (fun reps => ∃ new, reps = acc ++ new
          ∧ Collected ext d source destination (page_path :: rest) new) (.error e) s :=
      fun e s hs => ⟨hs, fun reps h => (by cases h)⟩
    by_cases hpage : page_path = source
    · rw [if_pos hpage]
      refine (ih acc).mono (fun s hs => hs) fun r s hr => ⟨hr.1, fun reps h => ?_⟩
      obtain ⟨new, hnew, hc⟩ := hr.2 reps h
      refine ⟨new, hnew, fun r hr => ?_, fun p hp hne => ?_⟩
      · obtain ⟨hmem, hrest⟩ := hc.sound r hr
        exact ⟨List.mem_cons_of_mem _ hmem, hrest⟩
      · exact hc.complete p ((List.mem_cons.1 hp).resolve_left (hpage ▸ hne)) hne
    · rw [if_neg hpage]
      refine read_bind (read_bytes_spec hreads page_path) herr fun ⟨page_bytes, _⟩ hread => ?_
      refine read_bind (of_except_spec _) herr fun rewritten hrewritten => ?_
      cases rewritten with
      | none =>
        refine (ih acc).mono (fun s hs => hs) fun r s hr => ⟨hr.1, fun reps h => ?_⟩
        obtain ⟨new, hnew, hc⟩ := hr.2 reps h
        refine ⟨new, hnew, fun r hr => ?_, fun p hp hne => ?_⟩
        · obtain ⟨hmem, hrest⟩ := hc.sound r hr
          exact ⟨List.mem_cons_of_mem _ hmem, hrest⟩
        · rcases List.mem_cons.1 hp with rfl | hp
          · exact ⟨page_bytes, none, hread.1, hrewritten, by simp⟩
          · exact hc.complete p hp hne
      | some new_bytes =>
        refine (ih _).mono (fun s hs => hs) fun r s hr => ⟨hr.1, fun reps h => ?_⟩
        obtain ⟨new, hnew, hc⟩ := hr.2 reps h
        refine ⟨(page_path, new_bytes) :: new, by simp [hnew], fun r hr => ?_,
          fun p hp hne => ?_⟩
        · rcases List.mem_cons.1 hr with rfl | hr
          · exact ⟨by simp, hpage, page_bytes, hread.1, hrewritten⟩
          · obtain ⟨hmem, hrest⟩ := hc.sound r hr
            exact ⟨List.mem_cons_of_mem _ hmem, hrest⟩
        · rcases List.mem_cons.1 hp with rfl | hp
          · refine ⟨page_bytes, some new_bytes, hread.1, hrewritten, fun nb heq => ?_⟩
            obtain rfl : new_bytes = nb := by simpa using heq
            simp
          · obtain ⟨bytes, result, h1, h2, h3⟩ := hc.complete p hp hne
            exact ⟨bytes, result, h1, h2, fun nb heq => List.mem_cons_of_mem _ (h3 nb heq)⟩

theorem move_page_spec (request : MovePageRequest) :
    Triple (exec ext envs) (Permitted ext (.move request)) (OnDisk d t₀)
      (move_page ext request).run (MoveEnds ext envs d t₀ request) := by
  have hreads := permitted_of_not_mutates ext (.move request)
  have herr : ∀ e s, OnDisk d t₀ s → MoveEnds ext envs d t₀ request (.error e) s :=
    fun e s hs => ⟨fun outcome h => (by cases h), fun _ _ => Or.inl hs.1⟩
  rw [move_page]
  refine read_bind (return_error_if_spec _ _) herr fun _ _ => ?_
  refine read_bind (read_bytes_spec hreads _) herr fun ⟨bytes, revision⟩ hread => ?_
  refine read_bind (of_except_spec _) herr fun _ hcheck => ?_
  refine read_bind (page_exists_spec hreads _) herr fun taken _ => ?_
  refine read_bind (return_error_if_spec _ _) herr fun _ _ => ?_
  refine read_bind (list_pages_spec hreads) herr fun pages hpages => ?_
  refine read_bind (collect_replacements_spec ext envs d t₀ hreads _ _ pages []) herr
    fun reps hreps => ?_
  refine read_bind (read_bytes_spec hreads _) herr fun ⟨source_bytes, _⟩ hsource => ?_
  obtain ⟨new, hnew, hcollected⟩ := hreps
  obtain rfl : reps = new := by simpa using hnew
  rw [hpages] at hcollected
  have hguard : ∀ s, OnDisk d t₀ s → Permitted ext (.move request) s
      (.commit_move request.source request.destination source_bytes reps) := by
    refine fun s hs => ⟨rfl, rfl, fun expected hexp => ⟨bytes, by rw [hs.1]; exact hread.1, ?_⟩⟩
    rw [check_revision_ok hcheck expected hexp]
    exact hread.2.symm
  -- both reads of the source saw the same bytes
  obtain rfl : bytes = source_bytes := by
    have := hread.1.symm.trans hsource.1
    simpa using this
  refine .fallible_bind (fun _ s => MoveEnds ext envs d t₀ request
    (.ok ⟨request.source.as_str, request.destination.as_str, revision,
      reps.map fun r => r.1.as_str⟩) s) ?_ fun _ => .pure fun s hs => hs
  refine (commit_move_spec hguard).mono (fun s hs => hs) fun r s ⟨t, ht₀, ht, hdisk, hr⟩ => ?_
  refine ⟨fun u hu => ⟨fun outcome h => ?_, fun e h => (by cases h)⟩, fun e he =>
    ⟨fun outcome h => (by cases h), fun e' h => Or.inr ⟨t, bytes, reps, ht₀, ht,
      Prod.ext ?_ hdisk.symm⟩⟩⟩
  · refine ⟨t, bytes, reps, ht₀, ht, hread.1, hcollected, Prod.ext ?_ hdisk.symm, ?_⟩
    · rw [← hr]
      exact hu
    · rw [← hread.2]
      exact (Except.ok.inj h).symm
  · rw [← hr, he]
    simpa using h

theorem remove_page_spec (request : RemovePageRequest) :
    Triple (exec ext envs) (Permitted ext (.remove request)) (OnDisk d t₀)
      (remove_page request).run (RemoveEnds envs d t₀ request) := by
  have hreads := permitted_of_not_mutates ext (.remove request)
  have herr : ∀ e s, OnDisk d t₀ s → RemoveEnds envs d t₀ request (.error e) s :=
    fun e s hs => ⟨fun u h => (by cases h), fun _ _ => Or.inl hs.1⟩
  rw [remove_page]
  refine read_bind (read_bytes_spec hreads _) herr fun ⟨bytes, revision⟩ hread => ?_
  refine read_bind (of_except_spec _) herr fun _ hcheck => ?_
  have hguard : ∀ s, OnDisk d t₀ s →
      Permitted ext (.remove request) s (.remove_file request.path) := by
    refine fun s hs => ⟨rfl, fun expected hexp => ⟨bytes, by rw [hs.1]; exact hread.1, ?_⟩⟩
    rw [check_revision_ok hcheck expected hexp]
    exact hread.2.symm
  refine (remove_file_spec hguard).mono (fun s hs => hs) fun r s ⟨t, ht₀, ht, hdisk, hr⟩ => ?_
  refine ⟨fun u hu => ⟨t, ht₀, ht, Prod.ext ?_ hdisk.symm⟩, fun e he =>
    Or.inr ⟨t, ht₀, ht, Prod.ext ?_ hdisk.symm⟩⟩
  · rw [← hr]
    exact hu
  · rw [← hr]
    exact he

end Sections

end AgentSpace.Memory
