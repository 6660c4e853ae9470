/-
The move transaction, phase by phase.

Each loop of `commit_move` has three ways out: it finishes; a step fails and
the cleanup runs; or a path does not resolve a second time, and the loop is left
without any cleanup. `commit_move_outcome` puts the phases together, for every
disk, every list of replacements and every set of failing steps in which the
rollback itself works. What the transaction promises, and exactly when it breaks
the promise, is read off it in `AllOrNothing.lean`.
-/
import AgentSpace.Memory.Rollback

set_option autoImplicit false

namespace AgentSpace.Memory

open Text

/-! ## Vocabulary -/

/-- The two places where a replacement's path is resolved again while the
transaction is under way. -/
def IoStep.IsReresolve : IoStep → Prop
  | .stage_resolve _ | .backup_resolve _ => True
  | _ => False

/-- Some step other than a second resolution failed. -/
def FailedElsewhere (env : Env) : Prop := ∃ step, ¬IoStep.IsReresolve step ∧ env.faults step ≠ none

/-- The files a list of replacements writes. -/
def files_of (replacements : List (PagePath × Bytes)) : List (FilePath × Bytes) :=
  replacements.map fun r => (page_file r.1, r.2)

/-- The staged forms hold what is to be installed. -/
def Contents (env : Env) (d : Disk) (files : List (FilePath × Bytes)) : Prop :=
  ∀ f ∈ files, d.read (stage_name env f.1) = some f.2

section Phases

variable {env : Env} {d₀ d : Disk}

/-! ## Staging -/

theorem stage_change_cases (d : Disk) (k : ℕ) (destination : FilePath)
    (bytes : Bytes) (staged : List (FilePath × FilePath)) :
    (∃ e d', stage_change env d k destination bytes staged = (.error e, d')
        ∧ FailedElsewhere env
        ∧ (∀ q, q ≠ stage_name env destination → d'.read q = d.read q)
        ∧ (RollbackWorks env → d'.read (stage_name env destination) ≠ none →
          d.read (stage_name env destination) ≠ none))
      ∨ ∃ d', stage_change env d k destination bytes staged
          = (.ok (staged ++ [(stage_name env destination, destination)]), d')
        ∧ ∀ q, d'.read q = if q = stage_name env destination then some bytes else d.read q := by
  rw [stage_change]
  rcases attempt_cases env.faults (.stage_dir k) d (·.create_dir_all destination.dropLast) with
    ⟨e, he, h⟩ | ⟨-, h⟩
  · rw [h]
    exact Or.inl ⟨e, d, rfl, ⟨.stage_dir k, id, he⟩, fun _ _ => rfl, fun _ => id⟩
  rw [h]
  dsimp only
  rcases write_temporary_cases env (.stage_create k) (.stage_write k) (.stage_sync k)
    (d.create_dir_all destination.dropLast) (stage_name env destination) bytes with
    ⟨e, d', hw, ⟨step, hstep, hfault⟩, hread⟩ | ⟨d', hw, hread⟩
  · rw [stage_name] at hw
    rw [hw]
    refine Or.inl ⟨e, _, rfl, ⟨step, ?_, hfault⟩, fun q hq => ?_,
      fun hroll hne => absurd ?_ hne⟩
    · rcases hstep with rfl | rfl | rfl <;> exact id
    · rw [read_remove_ignored_of_ne (by simpa [stage_name] using hq), hread q hq,
        Disk.read_create_dir_all]
    · rw [read_remove_ignored (hroll .drop_temporary trivial), stage_name, if_pos rfl]
  · rw [stage_name] at hw
    rw [hw]
    exact Or.inr ⟨d', rfl, fun q => by rw [hread q, Disk.read_create_dir_all]⟩

variable {destinations : List FilePath} {destination : FilePath} {bytes : Bytes} {d' : Disk}

theorem Progress.stage (h : Progress env d₀ d destinations [] [])
    (hread : ∀ q, d'.read q = if q = stage_name env destination then some bytes else d.read q) :
    Progress env d₀ d' (destinations ++ [destination]) [] [] := by
  refine ⟨fun q hq _ _ => ?_, by simp, by simp, fun q hq hne => ?_⟩
  · rw [hread, if_neg]
    · exact h.keeps q hq (by simp) (by simp)
    · rintro rfl
      exact hq (temporary_stage_name env destination)
  · rw [hread] at hne
    by_cases hs : q = stage_name env destination
    · exact Or.inr (Or.inl (by simp [hs]))
    · rw [if_neg hs] at hne
      rcases h.no_new q hq hne with h0 | h0 | h0
      · exact Or.inl h0
      · exact Or.inr (Or.inl (by rw [List.map_append]; exact List.mem_append_left _ h0))
      · simp at h0

theorem Progress.not_staged (h : Progress env d₀ d destinations [] [])
    (hread : ∀ q, q ≠ stage_name env destination → d'.read q = d.read q)
    (hgone : d'.read (stage_name env destination) ≠ none
      → d.read (stage_name env destination) ≠ none) : Progress env d₀ d' destinations [] [] := by
  refine ⟨fun q hq _ _ => ?_, by simp, by simp, fun q hq hne => ?_⟩
  · rw [hread]
    · exact h.keeps q hq (by simp) (by simp)
    · rintro rfl
      exact hq (temporary_stage_name env destination)
  · refine h.no_new q hq ?_
    by_cases hs : q = stage_name env destination
    · subst hs
      exact hgone hne
    · rwa [hread q hs] at hne

theorem Progress.cleanup (h : Progress env d₀ d destinations [] []) :
    Recovers env d₀ (cleanup_staged env d (staged_of env destinations)) :=
  h.undo ⟨List.nodup_nil, by simp, by simp, by simp⟩ (by simp)

/-- A transaction is undone the same way when staging a further file fails. -/
theorem Progress.cleanup_not_staged (h : Progress env d₀ d destinations [] [])
    (hread : ∀ q, q ≠ stage_name env destination → d'.read q = d.read q)
    (hgone : RollbackWorks env → d'.read (stage_name env destination) ≠ none →
      d.read (stage_name env destination) ≠ none) :
    Recovers env d₀ (cleanup_staged env d' (staged_of env destinations)) := by
  refine ⟨fun _ q hq => ?_, fun hroll => (h.not_staged hread (hgone hroll)).cleanup.undone hroll⟩
  rw [read_cleanup_staged_of_ne _ _ hq, hread]
  · exact h.keeps q hq (by simp) (by simp)
  · rintro rfl
    exact hq (temporary_stage_name env destination)

theorem Contents.stage {files : List (FilePath × Bytes)} (h : Contents env d files)
    (hne : ∀ f ∈ files, f.1 ≠ []) (hdest : destination ≠ []) (hnew : destination ∉ files.map Prod.fst)
    (hread : ∀ q, d'.read q = if q = stage_name env destination then some bytes else d.read q) :
    Contents env d' (files ++ [(destination, bytes)]) := by
  intro f hf
  rw [hread]
  rcases List.mem_append.1 hf with hf | hf
  · rw [if_neg]
    · exact h f hf
    · intro heq
      have := transaction_path_for_inj (hne f hf) hdest heq
      exact hnew (this ▸ List.mem_map_of_mem hf)
  · obtain rfl := List.mem_singleton.1 hf
    rw [if_pos rfl]

/-- The three ways out of the staging loop. -/
theorem stage_replacements_outcome (reps : List (PagePath × Bytes)) (i : ℕ)
    (files : List (FilePath × Bytes)) (d : Disk)
    (h : Progress env d₀ d (files.map Prod.fst) [] []) (hc : Contents env d files)
    (hne : ∀ f ∈ files, f.1 ≠ []) (hnodup : ((files ++ files_of reps).map Prod.fst).Nodup) :
    (∃ d', stage_replacements env d i (staged_of env (files.map Prod.fst)) reps
          = (.ok (staged_of env ((files ++ files_of reps).map Prod.fst)), d')
        ∧ Progress env d₀ d' ((files ++ files_of reps).map Prod.fst) [] []
        ∧ Contents env d' (files ++ files_of reps)
        ∧ ∀ j < reps.length, env.faults (.stage_resolve (i + j)) = none)
      ∨ (∃ e d', stage_replacements env d i (staged_of env (files.map Prod.fst)) reps = (.error e, d')
        ∧ FailedElsewhere env ∧ Recovers env d₀ d')
      ∨ ∃ e d' j, j < reps.length ∧ stage_replacements env d i (staged_of env (files.map Prod.fst)) reps
        = (.error e, d')
        ∧ env.faults (.stage_resolve (i + j)) ≠ none
        ∧ Progress env d₀ d' ((files ++ (files_of reps).take j).map Prod.fst) [] []
        ∧ Contents env d' (files ++ (files_of reps).take j) := by
  induction reps generalizing i files d with
  | nil =>
    left
    exact ⟨d, by simp [stage_replacements, files_of], by simpa [files_of] using h,
      by simpa [files_of] using hc, by simp⟩
  | cons r reps ih =>
    obtain ⟨path, bytes⟩ := r
    rw [stage_replacements]
    cases hres : env.faults (.stage_resolve i) with
    | some failure =>
      -- the loop is left here, with everything staged so far in place
      right; right
      exact ⟨failure.to_error, d, 0, by simp, rfl, by simp [hres], by simpa using h, by simpa using hc⟩
    | none =>
      dsimp only
      rcases stage_change_cases d (i + 1) (page_file path) bytes
        (staged_of env (files.map Prod.fst)) with
        ⟨e, d', hs, hfail, hkeep, hgone⟩ | ⟨d', hs, hread⟩
      · right; left
        rw [hs]
        exact ⟨e, _, rfl, hfail, h.cleanup_not_staged hkeep hgone⟩
      · have hcons : files ++ files_of ((path, bytes) :: reps)
            = (files ++ [(page_file path, bytes)]) ++ files_of reps := by
          simp [files_of]
        rw [hcons] at hnodup ⊢
        have hnew : page_file path ∉ files.map Prod.fst := by
          intro hmem
          simp only [List.map_append, List.map_cons, List.map_nil, List.append_assoc] at hnodup
          exact (List.disjoint_of_nodup_append hnodup) hmem (by simp)
        have h' := h.stage hread
        have hc' := hc.stage hne (page_file_ne_nil path) hnew hread
        rw [hs]
        dsimp only
        have hnames : files.map Prod.fst ++ [page_file path]
            = (files ++ [(page_file path, bytes)]).map Prod.fst := by simp
        have hstaged : staged_of env (files.map Prod.fst)
            ++ [(stage_name env (page_file path), page_file path)]
            = staged_of env ((files ++ [(page_file path, bytes)]).map Prod.fst) := by
          simp [staged_of]
        rw [hnames] at h'
        rw [hstaged]
        rcases ih (i + 1) _ d' h' hc'
          (by
            intro f hf
            rcases List.mem_append.1 hf with hf | hf
            · exact hne f hf
            · obtain rfl := List.mem_singleton.1 hf
              exact page_file_ne_nil path)
          hnodup with ⟨d'', hok, hp, hcont, hall⟩ | ⟨e, d'', herr, hfail, hrecovers⟩
            | ⟨e, d'', j, hj, herr, hfault, hp, hcont⟩
        · left
          refine ⟨d'', hok, hp, hcont, fun j hj => ?_⟩
          cases j with
          | zero => simpa using hres
          | succ j =>
            rw [show i + (j + 1) = i + 1 + j by omega]
            exact hall j (by simpa using hj)
        · exact Or.inr (Or.inl ⟨e, d'', herr, hfail, hrecovers⟩)
        · right; right
          refine ⟨e, d'', j + 1, by simpa using hj, herr, ?_, ?_, ?_⟩
          · rw [show i + (j + 1) = i + 1 + j by omega]
            exact hfault
          · simpa [files_of] using hp
          · simpa [files_of] using hcont

/-! ## Backing up -/

theorem Progress.back_up {destinations originals : List FilePath} {o : FilePath}
    (h : Progress env d₀ d destinations originals []) (ho : d₀.read o = some bytes)
    (horig : Originals env d₀ (originals ++ [o])) (hread : ∀ q, d'.read q
      = if q = backup_name env o then some bytes else if q = o then none else d.read q) :
    Progress env d₀ d' destinations (originals ++ [o]) [] := by
  have hnot : ∀ q ∈ originals ++ [o], q ≠ backup_name env o := fun q hq heq =>
    horig.not_temporary q hq (heq ▸ temporary_backup_name env o)
  have hfresh : o ∉ originals := fun hmem =>
    (List.disjoint_of_nodup_append horig.nodup) hmem (by simp)
  have hname : ∀ p ∈ originals, backup_name env p ≠ backup_name env o := by
    intro p hp heq
    have := transaction_path_for_inj (horig.ne_nil p (by simp [hp])) (horig.ne_nil o (by simp)) heq
    exact hfresh (this ▸ hp)
  constructor
  · intro q hq hqo _
    rw [hread, if_neg, if_neg]
    · exact h.keeps q hq (by simp_all) (by simp)
    · rintro rfl
      simp at hqo
    · rintro rfl
      exact hq (temporary_backup_name env o)
  · intro q hq _
    rw [hread, if_neg (hnot q hq)]
    rcases List.mem_append.1 hq with hq' | hq'
    · rw [if_neg (by rintro rfl; exact hfresh hq')]
      exact h.moved q hq' (by simp)
    · rw [if_pos (List.mem_singleton.1 hq')]
  · intro p hp
    rw [hread]
    rcases List.mem_append.1 hp with hp | hp
    · rw [if_neg (hname p hp), if_neg]
      · exact h.backup p hp
      · intro heq
        exact horig.not_temporary o (by simp) (heq ▸ temporary_backup_name env p)
    · obtain rfl := List.mem_singleton.1 hp
      rw [if_pos rfl, ho]
  · intro q hq hne
    rw [hread] at hne
    by_cases hb : q = backup_name env o
    · exact Or.inr (Or.inr (by simp [hb]))
    · rw [if_neg hb] at hne
      split_ifs at hne with hqo
      · exact absurd rfl hne
      rcases h.no_new q hq hne with h0 | h0 | h0
      · exact Or.inl h0
      · exact Or.inr (Or.inl h0)
      · exact Or.inr (Or.inr (by rw [List.map_append]; exact List.mem_append_left _ h0))

/-- Backing one file up, when it is still there. -/
theorem backup_file_cases {destinations originals : List FilePath} {o : FilePath}
    (step : IoStep) (hstep : ¬step.IsReresolve)
    (h : Progress env d₀ d destinations originals []) (horig : Originals env d₀ (originals ++ [o])) :
    (∃ e, backup_file env d step o (backups_of env originals) = (.error e, d)
        ∧ FailedElsewhere env)
      ∨ ∃ d', backup_file env d step o (backups_of env originals)
          = (.ok (backups_of env (originals ++ [o])), d')
        ∧ Progress env d₀ d' destinations (originals ++ [o]) []
        ∧ ∀ x, d'.read (stage_name env x) = d.read (stage_name env x) := by
  have hnot : o ∉ originals := fun hmem =>
    (List.disjoint_of_nodup_append horig.nodup) hmem (by simp)
  have htemp := horig.not_temporary o (by simp)
  obtain ⟨bytes, hbytes⟩ := Option.ne_none_iff_exists'.1 (horig.there o (by simp))
  have hcurrent : d.read o = some bytes := by
    rw [h.keeps o htemp hnot (by simp), hbytes]
  rw [backup_file]
  rcases rename_file_cases env.faults step (backup_name env o)
    hcurrent with ⟨e, he, hr⟩ | ⟨-, d', hr, hread⟩
  · rw [backup_name] at hr
    rw [hr]
    exact Or.inl ⟨e, rfl, step, hstep, he⟩
  · rw [backup_name] at hr
    rw [hr]
    refine Or.inr ⟨d', by simp [backups_of, backup_name], h.back_up hbytes horig hread, fun x => ?_⟩
    rw [hread, if_neg (stage_name_ne_backup_name env x o), if_neg]
    intro heq
    exact htemp (heq ▸ temporary_stage_name env x)

theorem Originals.of_append {as bs : List FilePath} (h : Originals env d₀ (as ++ bs)) :
    Originals env d₀ as :=
  ⟨h.nodup.sublist (List.sublist_append_left as bs), fun o ho => h.ne_nil o (by simp [ho]),
    fun o ho => h.not_temporary o (by simp [ho]), fun o ho => h.there o (by simp [ho])⟩

/-- The three ways out of the backup loop. -/
theorem backup_replacements_outcome (destinations : List FilePath)
    (reps : List (PagePath × Bytes)) (i : ℕ) (originals : List FilePath) (d : Disk)
    (h : Progress env d₀ d destinations originals [])
    (horig : Originals env d₀ (originals ++ (files_of reps).map Prod.fst)) :
    (∃ d', backup_replacements env d i (staged_of env destinations) (backups_of env originals) reps
          = (.ok (backups_of env (originals ++ (files_of reps).map Prod.fst)), d')
        ∧ Progress env d₀ d' destinations (originals ++ (files_of reps).map Prod.fst) []
        ∧ (∀ x, d'.read (stage_name env x) = d.read (stage_name env x))
        ∧ ∀ j < reps.length, env.faults (.backup_resolve (i + j)) = none)
      ∨ (∃ e d', backup_replacements env d i (staged_of env destinations)
          (backups_of env originals) reps = (.error e, d')
        ∧ FailedElsewhere env ∧ Recovers env d₀ d')
      ∨ ∃ e d' j, j < reps.length ∧ backup_replacements env d i (staged_of env destinations)
          (backups_of env originals) reps = (.error e, d')
        ∧ env.faults (.backup_resolve (i + j)) ≠ none
        ∧ Progress env d₀ d' destinations (originals ++ ((files_of reps).map Prod.fst).take j) [] := by
  induction reps generalizing i originals d with
  | nil =>
    left
    exact ⟨d, by simp [backup_replacements, files_of], by simpa [files_of] using h,
      fun _ => rfl, by simp⟩
  | cons r reps ih =>
    obtain ⟨path, bytes⟩ := r
    rw [backup_replacements]
    have hcons : originals ++ (files_of ((path, bytes) :: reps)).map Prod.fst
        = (originals ++ [page_file path]) ++ (files_of reps).map Prod.fst := by
      simp [files_of]
    rw [hcons] at horig ⊢
    cases hres : env.faults (.backup_resolve i) with
    | some failure =>
      right; right
      exact ⟨failure.to_error, d, 0, by simp, rfl, by simp [hres], by simpa using h⟩
    | none =>
      dsimp only
      rcases backup_file_cases (.backup i) id h horig.of_append with
        ⟨e, hb, hfail⟩ | ⟨d', hb, hp, hstage⟩
      · right; left
        rw [hb]
        exact ⟨e, _, rfl, hfail, h.undo horig.of_append.of_append (by simp)⟩
      · rw [hb]
        dsimp only
        rcases ih (i + 1) _ d' hp horig with ⟨d'', hok, hp', hst, hall⟩
            | ⟨e, d'', herr, hfail, hrecovers⟩ | ⟨e, d'', j, hj, herr, hfault, hp'⟩
        · left
          refine ⟨d'', hok, hp', fun x => (hst x).trans (hstage x), fun j hj => ?_⟩
          cases j with
          | zero => simpa using hres
          | succ j =>
            rw [show i + (j + 1) = i + 1 + j by omega]
            exact hall j (by simpa using hj)
        · exact Or.inr (Or.inl ⟨e, d'', herr, hfail, hrecovers⟩)
        · right; right
          refine ⟨e, d'', j + 1, by simpa using hj, herr, ?_, ?_⟩
          · rw [show i + (j + 1) = i + 1 + j by omega]
            exact hfault
          · simpa [files_of] using hp'

/-! ## Installing -/

/-- The files installed so far hold what was staged for them. -/
def Placed (d : Disk) (files : List (FilePath × Bytes)) : Prop :=
  ∀ f ∈ files, d.read f.1 = some f.2

/-- What the transaction may install: a file it has backed up, or one that was not
there. -/
structure Installable (env : Env) (d₀ : Disk) (originals : List FilePath)
    (files : List (FilePath × Bytes)) : Prop where
  nodup : (files.map Prod.fst).Nodup
  ne_nil : ∀ f ∈ files, f.1 ≠ []
  not_temporary : ∀ f ∈ files, ¬Temporary env f.1
  free : ∀ f ∈ files, f.1 ∈ originals ∨ d₀.read f.1 = none

theorem Progress.install {destinations originals installed : List FilePath}
    (h : Progress env d₀ d destinations originals installed)
    (horig : ∀ o ∈ originals, ¬Temporary env o) (hdest : ¬Temporary env destination)
    (hread : ∀ q, d'.read q = if q = destination then some bytes
      else if q = stage_name env destination then none else d.read q) :
    Progress env d₀ d' destinations originals (installed ++ [destination]) := by
  constructor
  · intro q hq ho hi
    rw [hread, if_neg (by rintro rfl; simp at hi), if_neg]
    · exact h.keeps q hq ho (by simp_all)
    · rintro rfl
      exact hq (temporary_stage_name env destination)
  · intro o ho hi
    rw [hread, if_neg (by rintro rfl; simp at hi), if_neg]
    · exact h.moved o ho (by simp_all)
    · rintro rfl
      exact horig _ ho (temporary_stage_name env destination)
  · intro o ho
    rw [hread, if_neg, if_neg]
    · exact h.backup o ho
    · exact fun heq => stage_name_ne_backup_name env destination o heq.symm
    · intro heq
      exact hdest (heq ▸ temporary_backup_name env o)
  · intro q hq hne
    rw [hread, if_neg (by rintro rfl; exact hdest hq)] at hne
    split_ifs at hne with hs
    · exact absurd rfl hne
    · exact h.no_new q hq hne

/-- The two ways out of the installing loop. -/
theorem install_staged_outcome {originals : List FilePath}
    {all : List (FilePath × Bytes)} (horig : Originals env d₀ originals)
    (hall : Installable env d₀ originals all)
    (rest done : List (FilePath × Bytes)) (k : ℕ) (d : Disk) (hsplit : all = done ++ rest)
    (h : Progress env d₀ d (all.map Prod.fst) originals (done.map Prod.fst))
    (hc : Contents env d rest) (hp : Placed d done) :
    (∃ d', install_staged env d k (staged_of env (all.map Prod.fst)) (backups_of env originals)
          (done.map Prod.fst) (staged_of env (rest.map Prod.fst)) = (.ok (), d')
        ∧ Progress env d₀ d' (all.map Prod.fst) originals (all.map Prod.fst) ∧ Placed d' all)
      ∨ ∃ e d', install_staged env d k (staged_of env (all.map Prod.fst))
          (backups_of env originals) (done.map Prod.fst) (staged_of env (rest.map Prod.fst))
            = (.error e, d')
        ∧ FailedElsewhere env ∧ Recovers env d₀ d' := by
  induction rest generalizing done k d with
  | nil =>
    left
    obtain rfl : all = done := by simpa using hsplit
    exact ⟨d, rfl, h, hp⟩
  | cons f rest ih =>
    obtain ⟨destination, bytes⟩ := f
    have hmem : (destination, bytes) ∈ all := by rw [hsplit]; simp
    rw [List.map_cons, staged_of_cons, install_staged]
    rcases rename_file_cases env.faults (.install k) destination
      (hc (destination, bytes) (by simp)) with ⟨e, he, hr⟩ | ⟨-, d', hr, hread⟩
    · right
      rw [hr]
      refine ⟨e, _, rfl, ⟨.install k, id, he⟩, h.undo horig ?_⟩
      intro q hq
      obtain ⟨f, hf, rfl⟩ := List.mem_map.1 hq
      have hf' : f ∈ all := by rw [hsplit]; simp [hf]
      exact ⟨hall.not_temporary f hf', hall.free f hf'⟩
    · rw [hr]
      dsimp only
      have hdone : done.map Prod.fst ++ [destination]
          = (done ++ [(destination, bytes)]).map Prod.fst := by simp
      have hnodup := hall.nodup
      rw [hsplit, List.map_append, List.map_cons] at hnodup
      have hother : ∀ f ∈ done ++ rest, f.1 ≠ destination := by
        rintro f hf rfl
        rcases List.mem_append.1 hf with hf | hf
        · exact (List.disjoint_of_nodup_append hnodup) (List.mem_map_of_mem hf) (by simp)
        · have := (List.nodup_cons.1 (List.Nodup.of_append_right hnodup)).1
          exact this (List.mem_map.2 ⟨f, hf, rfl⟩)
      have hne : ∀ f ∈ all, f.1 ≠ stage_name env destination := fun f hf heq =>
        hall.not_temporary f hf (heq ▸ temporary_stage_name env destination)
      rw [hdone]
      refine ih _ (k + 1) d' (by rw [hsplit]; simp) ?_ ?_ ?_
      · rw [← hdone]
        exact h.install horig.not_temporary (hall.not_temporary _ hmem) hread
      · intro f hf
        have hf' : f ∈ all := by rw [hsplit]; simp [hf]
        rw [hread, if_neg, if_neg]
        · exact hc f (by simp [hf])
        · intro heq
          exact hother f (by simp [hf]) (transaction_path_for_inj (hall.ne_nil f hf')
            (hall.ne_nil _ hmem) heq)
        · intro heq
          exact hall.not_temporary _ hmem (heq ▸ temporary_stage_name env f.1)
      · intro f hf
        rw [hread]
        rcases List.mem_append.1 hf with hf | hf
        · have hf' : f ∈ all := by rw [hsplit]; simp [hf]
          rw [if_neg (hother f (by simp [hf])), if_neg (hne f hf')]
          exact hp f hf
        · obtain rfl := List.mem_singleton.1 hf
          rw [if_pos rfl]

theorem read_remove_backups (d : Disk) (originals : List FilePath) {q : FilePath} (hq : ¬Temporary env q) :
    (remove_backups env d (backups_of env originals)).read q = d.read q := by
  rw [remove_backups]
  induction originals generalizing d with
  | nil => rfl
  | cons o originals ih =>
    rw [backups_of_cons, List.foldl_cons, ih, read_remove_ignored_of_ne]
    rintro rfl
    exact hq (temporary_backup_name env o)

/-! ## The checks -/

/-- What `commit_move` asks of the disk and the replacements before it starts. -/
structure Movable (d : Disk) (source destination : PagePath)
    (replacements : List (PagePath × Bytes)) : Prop where
  source_there : d.is_file (page_file source) = true
  destination_free : d.exists (page_file destination) = false
  nodup : (replacements.map Prod.fst).Nodup
  reserved : ∀ r ∈ replacements, r.1 ≠ source ∧ r.1 ≠ destination
  files : ∀ r ∈ replacements, d.is_file (page_file r.1) = true

variable {reps : List (PagePath × Bytes)}

theorem check_replacements_ok {source destination : PagePath} {seen : List PagePath} {i : ℕ} :
    check_replacements env d source destination seen i reps = .ok () ↔
      ((reps.map Prod.fst).Nodup ∧ (∀ r ∈ reps, r.1 ∉ seen)
        ∧ (∀ r ∈ reps, r.1 ≠ source ∧ r.1 ≠ destination)
        ∧ ∀ r ∈ reps, d.is_file (page_file r.1) = true)
      ∧ ∀ j < reps.length, env.faults (.check_replacement (i + j)) = none := by
  induction reps generalizing seen i with
  | nil => simp [check_replacements]
  | cons r reps ih =>
    obtain ⟨path, bytes⟩ := r
    rw [check_replacements]
    by_cases hbad : path = source ∨ path = destination ∨ path ∈ seen
    · rw [if_pos hbad]
      simp only [reduceCtorEq, false_iff, not_and, List.mem_cons, forall_eq_or_imp]
      intro h
      rcases hbad with hbad | hbad | hbad
      · exact absurd hbad h.2.2.1.1.1
      · exact absurd hbad h.2.2.1.1.2
      · exact absurd hbad h.2.1.1
    · rw [if_neg hbad]
      obtain ⟨hs, ht, hseen⟩ : path ≠ source ∧ path ≠ destination ∧ path ∉ seen := by
        simpa [not_or] using hbad
      cases hfault : env.faults (.check_replacement i) with
      | some failure =>
        simp only [reduceCtorEq, false_iff, not_and]
        intro _ hall
        simpa [hfault] using hall 0 (by simp)
      | none =>
        dsimp only
        have hfaults : (∀ j < (((path, bytes) :: reps) : List (PagePath × Bytes)).length,
            env.faults (.check_replacement (i + j)) = none)
            ↔ ∀ j < reps.length, env.faults (.check_replacement (i + 1 + j)) = none := by
          constructor
          · intro h j hj
            rw [show i + 1 + j = i + (j + 1) by omega]
            exact h (j + 1) (by simpa using hj)
          · intro h j hj
            cases j with
            | zero => simpa using hfault
            | succ j =>
              rw [show i + (j + 1) = i + 1 + j by omega]
              exact h j (by simpa using hj)
        rw [hfaults]
        by_cases hfile : d.is_file (page_file path) = true
        · rw [if_pos hfile, ih]
          have hdisj : (∀ r ∈ reps, r.1 ∉ path :: seen)
              ↔ path ∉ reps.map Prod.fst ∧ ∀ r ∈ reps, r.1 ∉ seen := by
            constructor
            · intro h
              refine ⟨fun hmem => ?_, fun r hr hs => h r hr (List.mem_cons_of_mem _ hs)⟩
              obtain ⟨r, hr, rfl⟩ := List.mem_map.1 hmem
              exact h r hr (by simp)
            · rintro ⟨h1, h2⟩ r hr hmem
              rcases List.mem_cons.1 hmem with heq | hmem
              · exact h1 (heq ▸ List.mem_map_of_mem hr)
              · exact h2 r hr hmem
          rw [hdisj]
          simp only [List.map_cons, List.nodup_cons, List.mem_cons, forall_eq_or_imp]
          tauto
        · rw [if_neg hfile]
          simp only [reduceCtorEq, false_iff, not_and, List.mem_cons, forall_eq_or_imp]
          intro h
          exact absurd h.2.2.2.1 hfile

theorem check_move_ok {source destination : PagePath} :
    check_move env d source destination reps = .ok () ↔
      Movable d source destination reps ∧ env.faults .resolve_source = none
        ∧ env.faults .resolve_destination = none
        ∧ ∀ j < reps.length, env.faults (.check_replacement j) = none := by
  rw [check_move]
  cases hs : env.faults .resolve_source with
  | some failure => simp
  | none =>
    cases ht : env.faults .resolve_destination with
    | some failure => simp
    | none =>
      dsimp only
      by_cases hfile : d.is_file (page_file source) = true
      · rw [if_neg (by simp [hfile])]
        by_cases hex : d.exists (page_file destination) = true
        · rw [if_pos hex]
          simp only [reduceCtorEq, false_iff, not_and]
          intro h
          rw [h.destination_free] at hex
          cases hex
        · rw [if_neg hex, check_replacements_ok]
          simp only [Nat.zero_add, true_and]
          refine and_congr_left fun _ => ⟨fun h => ?_, fun h => ?_⟩
          · exact ⟨hfile, by simpa using hex, h.1, h.2.2.1, h.2.2.2⟩
          · exact ⟨h.nodup, by simp, h.reserved, h.files⟩
      · rw [if_pos (by simpa using hfile)]
        simp only [reduceCtorEq, false_iff, not_and]
        intro h
        exact absurd h.source_there hfile

/-! ## The whole transaction -/

/-- A finished move: the destination and the replacements hold their bytes, the
source is gone, and no other file but the transaction's own has changed. -/
structure Moved (env : Env) (d₀ d : Disk) (source destination : PagePath)
    (destination_bytes : Bytes) (replacements : List (PagePath × Bytes)) : Prop where
  arrived : d.read (page_file destination) = some destination_bytes
  gone : d.read (page_file source) = none
  replaced : ∀ r ∈ replacements, d.read (page_file r.1) = some r.2
  others : ∀ q, ¬Temporary env q → q ≠ page_file source → q ≠ page_file destination →
    (∀ r ∈ replacements, q ≠ page_file r.1) → d.read q = d₀.read q

theorem mem_files_of {f : FilePath × Bytes} : f ∈ files_of reps ↔ ∃ r ∈ reps, f = (page_file r.1, r.2) := by
  simp [files_of, eq_comm]

section Movable

variable {source destination : PagePath} {destination_bytes : Bytes}
  {reps : List (PagePath × Bytes)} (h : Movable d source destination reps)
include h

theorem Movable.source_ne_destination : source ≠ destination := by
  rintro rfl
  have := h.destination_free
  rw [Disk.exists, h.source_there] at this
  simp at this

theorem Movable.read_destination : d.read (page_file destination) = none := by
  have := h.destination_free
  rw [Disk.exists, Bool.or_eq_false_iff] at this
  simpa [Disk.is_file] using this.1

theorem Movable.nodup_files (destination_bytes : Bytes) :
    (((page_file destination, destination_bytes) :: files_of reps).map Prod.fst).Nodup := by
  have hmap : (files_of reps).map Prod.fst = (reps.map Prod.fst).map page_file := by
    simp [files_of, Function.comp_def]
  rw [List.map_cons, hmap]
  refine List.nodup_cons.2 ⟨fun hmem => ?_, h.nodup.map fun _ _ heq => page_file_injective heq⟩
  obtain ⟨p, hp, heq⟩ := List.mem_map.1 hmem
  obtain ⟨r, hr, rfl⟩ := List.mem_map.1 hp
  exact (h.reserved r hr).2 (page_file_injective heq)

theorem Movable.originals (env : Env) :
    Originals env d ([page_file source] ++ (files_of reps).map Prod.fst) := by
  have hmap : (files_of reps).map Prod.fst = (reps.map Prod.fst).map page_file := by
    simp [files_of, Function.comp_def]
  have hpage : ∀ o ∈ [page_file source] ++ (files_of reps).map Prod.fst, ∃ p, o = page_file p := by
    intro o ho
    rw [hmap] at ho
    rcases List.mem_append.1 ho with ho | ho
    · exact ⟨source, List.mem_singleton.1 ho⟩
    · obtain ⟨p, -, rfl⟩ := List.mem_map.1 ho
      exact ⟨p, rfl⟩
  refine ⟨?_, fun o ho => ?_, fun o ho => ?_, fun o ho => ?_⟩
  · rw [hmap]
    refine List.nodup_cons.2 ⟨fun hmem => ?_, h.nodup.map fun _ _ heq => page_file_injective heq⟩
    obtain ⟨p, hp, heq⟩ := List.mem_map.1 hmem
    obtain ⟨r, hr, rfl⟩ := List.mem_map.1 hp
    exact (h.reserved r hr).1 (page_file_injective heq)
  · obtain ⟨p, rfl⟩ := hpage o ho
    exact page_file_ne_nil p
  · obtain ⟨p, rfl⟩ := hpage o ho
    exact page_file_not_temporary env p
  · rcases List.mem_append.1 ho with ho | ho
    · obtain rfl := List.mem_singleton.1 ho
      simpa [Disk.is_file, Option.isSome_iff_ne_none] using h.source_there
    · obtain ⟨f, hf, rfl⟩ := List.mem_map.1 ho
      obtain ⟨r, hr, rfl⟩ := mem_files_of.1 hf
      simpa [Disk.is_file, Option.isSome_iff_ne_none] using h.files r hr

theorem Movable.installable (env : Env) (destination_bytes : Bytes) :
    Installable env d ([page_file source] ++ (files_of reps).map Prod.fst)
      ([(page_file destination, destination_bytes)] ++ files_of reps) := by
  have hpage : ∀ f ∈ (page_file destination, destination_bytes) :: files_of reps,
      ∃ p, f.1 = page_file p := by
    intro f hf
    rcases List.mem_cons.1 hf with rfl | hf
    · exact ⟨destination, rfl⟩
    · obtain ⟨r, -, rfl⟩ := mem_files_of.1 hf
      exact ⟨r.1, rfl⟩
  refine ⟨h.nodup_files destination_bytes, fun f hf => ?_, fun f hf => ?_, fun f hf => ?_⟩
  · obtain ⟨p, hp⟩ := hpage f hf
    rw [hp]
    exact page_file_ne_nil p
  · obtain ⟨p, hp⟩ := hpage f hf
    rw [hp]
    exact page_file_not_temporary env p
  · rcases List.mem_cons.1 hf with rfl | hf
    · exact Or.inr h.read_destination
    · exact Or.inl (List.mem_append_right _ (List.mem_map_of_mem hf))

/-- **How a checked move ends**: it takes effect; or it fails and is undone; or a
path of a replacement does not resolve again, and what was staged, or what was
backed up, stays where it is. -/
theorem Movable.perform_move_outcome :
    (∃ d', perform_move env d source destination destination_bytes reps = (.ok (), d')
        ∧ Moved env d d' source destination destination_bytes reps
        ∧ ∀ j < reps.length, env.faults (.stage_resolve j) = none
          ∧ env.faults (.backup_resolve j) = none)
      ∨ (∃ e d', perform_move env d source destination destination_bytes reps = (.error e, d')
        ∧ FailedElsewhere env ∧ Recovers env d d')
      ∨ (∃ e d' j, j < reps.length
        ∧ perform_move env d source destination destination_bytes reps = (.error e, d')
        ∧ env.faults (.stage_resolve j) ≠ none
        ∧ Progress env d d' (page_file destination :: ((files_of reps).take j).map Prod.fst) [] []
        ∧ Contents env d' ((page_file destination, destination_bytes) :: (files_of reps).take j))
      ∨ ∃ e d' j, j < reps.length
        ∧ perform_move env d source destination destination_bytes reps = (.error e, d')
        ∧ env.faults (.backup_resolve j) ≠ none
        ∧ Progress env d d' (page_file destination :: (files_of reps).map Prod.fst)
          (page_file source :: ((files_of reps).map Prod.fst).take j) [] := by
  have hnodup := h.nodup_files destination_bytes
  have horig := h.originals env
  rw [perform_move]
  -- the destination is staged first
  rcases stage_change_cases d 0 (page_file destination) destination_bytes [] with
    ⟨e, d₁, h₁, hfail, hkeep, hgone⟩ | ⟨d₁, h₁, hread⟩
  · right; left
    rw [h₁]
    exact ⟨e, d₁, rfl, hfail, (Progress.start env d).cleanup_not_staged hkeep hgone⟩
  rw [h₁]
  dsimp only
  have hp₁ : Progress env d d₁ (([(page_file destination, destination_bytes)]).map Prod.fst) [] [] :=
    (Progress.start env d).stage hread
  have hc₁ : Contents env d₁ [(page_file destination, destination_bytes)] := by
    have hnil : Contents env d [] := fun f hf => by simp at hf
    exact hnil.stage (by simp) (page_file_ne_nil destination) (by simp) hread
  -- then the replacements
  have hone : ([] ++ [(stage_name env (page_file destination), page_file destination)])
      = staged_of env (([(page_file destination, destination_bytes)]).map Prod.fst) := rfl
  rw [hone]
  rcases stage_replacements_outcome reps 0 _ d₁ hp₁ hc₁
    (by intro f hf; obtain rfl := List.mem_singleton.1 hf; exact page_file_ne_nil destination)
    hnodup with ⟨d₂, h₂, hp₂, hc₂, hall₂⟩ | ⟨e, d₂, h₂, hfail, hrecovers⟩
      | ⟨e, d₂, j, hj, h₂, hfault, hp₂, hc₂⟩
  rotate_left
  · rw [h₂]
    exact Or.inr (Or.inl ⟨e, d₂, rfl, hfail, hrecovers⟩)
  · rw [h₂]
    exact Or.inr (Or.inr (Or.inl ⟨e, d₂, j, hj, rfl, by simpa using hfault, hp₂, hc₂⟩))
  rw [h₂]
  dsimp only
  -- the source is backed up, then the replaced files
  rcases backup_file_cases .backup_source id hp₂ (o := page_file source) horig.of_append with
    ⟨e, h₃, hfail⟩ | ⟨d₃, h₃, hp₃, hst₃⟩
  · right; left
    rw [show backup_file env d₂ .backup_source (page_file source) [] = _ from h₃]
    exact ⟨e, _, rfl, hfail, hp₂.cleanup⟩
  rw [show backup_file env d₂ .backup_source (page_file source) [] = _ from h₃]
  rw [List.nil_append] at hp₃ ⊢
  dsimp only
  rcases backup_replacements_outcome _ reps 0 [page_file source] d₃ hp₃ horig with
    ⟨d₄, h₄, hp₄, hst₄, hall₄⟩ | ⟨e, d₄, h₄, hfail, hrecovers⟩ | ⟨e, d₄, j, hj, h₄, hfault, hp₄⟩
  rotate_left
  · rw [h₄]
    exact Or.inr (Or.inl ⟨e, d₄, rfl, hfail, hrecovers⟩)
  · rw [h₄]
    exact Or.inr (Or.inr (Or.inr ⟨e, d₄, j, hj, rfl, by simpa using hfault, hp₄⟩))
  rw [h₄]
  dsimp only
  -- and everything staged is renamed into place
  have hc₄ : Contents env d₄ ([(page_file destination, destination_bytes)] ++ files_of reps) :=
    fun f hf => by rw [hst₄, hst₃]; exact hc₂ f hf
  rcases install_staged_outcome horig (h.installable env destination_bytes)
    ([(page_file destination, destination_bytes)] ++ files_of reps) [] 0 d₄ rfl hp₄ hc₄
    (fun f hf => by simp at hf) with ⟨d₅, h₅, hp₅, hplaced⟩ | ⟨e, d₅, h₅, hfail, hrecovers⟩
  rotate_left
  · rw [show install_staged env d₄ 0 _ _ [] _ = _ from h₅]
    exact Or.inr (Or.inl ⟨e, d₅, rfl, hfail, hrecovers⟩)
  left
  rw [show install_staged env d₄ 0 _ _ [] _ = _ from h₅]
  refine ⟨_, rfl, ⟨?_, ?_, fun r hr => ?_, fun q hq hs ht hr => ?_⟩, fun j hj =>
    ⟨by simpa using hall₂ j hj, by simpa using hall₄ j hj⟩⟩
  · rw [read_remove_backups _ _ (page_file_not_temporary env destination)]
    exact hplaced (page_file destination, destination_bytes) (by simp)
  · rw [read_remove_backups _ _ (page_file_not_temporary env source)]
    refine hp₅.moved _ (by simp) ?_
    intro hmem
    obtain ⟨f, hf, heq⟩ := List.mem_map.1 hmem
    rcases List.mem_cons.1 hf with rfl | hf
    · exact h.source_ne_destination (page_file_injective heq).symm
    · obtain ⟨r, hr, rfl⟩ := mem_files_of.1 hf
      exact (h.reserved r hr).1 (page_file_injective heq)
  · rw [read_remove_backups _ _ (page_file_not_temporary env r.1)]
    exact hplaced (page_file r.1, r.2) (List.mem_cons_of_mem _ (mem_files_of.2 ⟨r, hr, rfl⟩))
  · have hfiles : q ∉ (files_of reps).map Prod.fst := by
      intro hmem
      obtain ⟨f, hf, rfl⟩ := List.mem_map.1 hmem
      obtain ⟨r, hr', rfl⟩ := mem_files_of.1 hf
      exact hr r hr' rfl
    rw [read_remove_backups _ _ hq]
    exact hp₅.keeps q hq (by simp [hs, hfiles]) (by simp [ht, hfiles])

end Movable

/-- A move that succeeds has passed its checks and is in effect. -/
theorem commit_move_ok {source destination : PagePath} {destination_bytes : Bytes}
    (h : commit_move env d source destination destination_bytes reps = (.ok (), d')) :
    Movable d source destination reps
      ∧ Moved env d d' source destination destination_bytes reps := by
  rw [commit_move] at h
  cases hcheck : check_move env d source destination reps with
  | error e => simp [hcheck] at h
  | ok u =>
    have hmov := (check_move_ok.1 hcheck).1
    rw [hcheck] at h
    dsimp only at h
    refine ⟨hmov, ?_⟩
    rcases Movable.perform_move_outcome hmov with ⟨d', hp, hmoved, -⟩ | ⟨e, d', hp, -⟩
      | ⟨e, d', j, -, hp, -⟩ | ⟨e, d', j, -, hp, -⟩
    · rw [hp] at h
      obtain rfl : d' = _ := congrArg Prod.snd h
      exact hmoved
    all_goals
      rw [hp] at h
      cases h

variable (env) in
/-- A move that passes its checks, in surroundings in which nothing fails, succeeds. -/
theorem Movable.commit_move_calm {source destination : PagePath}
    (hmov : Movable d source destination reps) (hcalm : ∀ step, env.faults step = none)
    (destination_bytes : Bytes) :
    ∃ d', commit_move env d source destination destination_bytes reps = (.ok (), d')
      ∧ Moved env d d' source destination destination_bytes reps := by
  rw [commit_move, check_move_ok.2 ⟨hmov, hcalm _, hcalm _, fun _ _ => hcalm _⟩]
  dsimp only
  rcases Movable.perform_move_outcome hmov with ⟨d', hp, hmoved, -⟩ | ⟨e, d', -, ⟨step, -, hne⟩, -⟩
    | ⟨e, d', j, -, -, hne, -⟩ | ⟨e, d', j, -, -, hne, -⟩
  · exact ⟨d', hp, hmoved⟩
  all_goals exact absurd (hcalm _) hne

end Phases

end AgentSpace.Memory
