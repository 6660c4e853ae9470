/-
What a move promises when one step of it fails.

`commit_move` is meant to be all or nothing. With a single failing step, and a
rollback that works, it is: except when the step that fails is the second
resolution of a replacement's path. The staging loop and the backup loop leave
through `?` there, so what is staged stays behind, and what has been backed up,
the source page first of all, is not put back.
-/
import AgentSpace.Memory.CommitMove

set_option autoImplicit false

namespace AgentSpace.Memory

open Text

/-- Exactly one step fails. -/
def single_fault (fault : IoStep) (failure : Failure) : Faults :=
  fun step => if step = fault then some failure else none

/-- What is promised of a move: if it succeeds it is in effect, and if it fails
nothing is left of it. -/
def AllOrNothing (env : Env) (d : Disk) (source destination : PagePath)
    (destination_bytes : Bytes) (replacements : List (PagePath × Bytes)) : Prop :=
  match commit_move env d source destination destination_bytes replacements with
  | (.ok (), d') => Moved env d d' source destination destination_bytes replacements
  | (.error _, d') => Undone env d d'

/-- The faults that break the promise. The call passes its checks, and then either
a replacement's path does not resolve again while files are being backed up; or
it does not while they are being staged, and one of the files staged by then was
not already lying around. -/
def Leaks (env : Env) (d : Disk) (source destination : PagePath)
    (replacements : List (PagePath × Bytes)) (fault : IoStep) : Prop :=
  Movable d source destination replacements
    ∧ ((∃ j < replacements.length, fault = .backup_resolve j)
      ∨ ∃ j < replacements.length, fault = .stage_resolve j
        ∧ ∃ f ∈ page_file destination :: ((files_of replacements).take j).map Prod.fst,
          d.read (stage_name env f) = none)

theorem Undone.refl (env : Env) (d : Disk) : Undone env d d := ⟨fun _ _ => rfl, fun _ _ h => h⟩

theorem single_fault_ne_none {fault step : IoStep} {failure : Failure}
    (h : single_fault fault failure step ≠ none) : step = fault := by
  by_contra hne
  exact h (if_neg hne)

theorem Leaks.isReresolve {env : Env} {d : Disk} {source destination : PagePath}
    {reps : List (PagePath × Bytes)} {fault : IoStep}
    (h : Leaks env d source destination reps fault) : fault.IsReresolve := by
  rcases h.2 with ⟨j, -, rfl⟩ | ⟨j, -, rfl, -⟩ <;> exact trivial

section

variable {env : Env} {d d' : Disk} {source destination : PagePath} {destination_bytes : Bytes}
  {reps : List (PagePath × Bytes)} {fault : IoStep}

/-- Staged files that are abandoned are left behind, unless all of them were there
before. -/
theorem undone_iff_of_abandoned_staging {j : ℕ} (hmov : Movable d source destination reps)
    (hj : j < reps.length) (hfault : fault = .stage_resolve j)
    (hp : Progress env d d' (page_file destination :: ((files_of reps).take j).map Prod.fst) [] [])
    (hc : Contents env d' ((page_file destination, destination_bytes) :: (files_of reps).take j)) :
    Undone env d d' ↔ ¬Leaks env d source destination reps fault := by
  have hlen : (files_of reps).length = reps.length := by simp [files_of]
  constructor
  · rintro hundone ⟨-, ⟨i, -, heq⟩ | ⟨i, -, heq, f, hf, hnone⟩⟩
    · rw [hfault] at heq
      cases heq
    · obtain rfl : j = i := by
        rw [hfault] at heq
        simpa using heq
      -- the staged form of `f` is there now and was not before
      obtain ⟨g, hg, rfl⟩ : ∃ g ∈ (page_file destination, destination_bytes)
          :: (files_of reps).take j, g.1 = f := by
        rcases List.mem_cons.1 hf with rfl | hf
        · exact ⟨(page_file destination, destination_bytes), by simp, rfl⟩
        · obtain ⟨g, hg, rfl⟩ := List.mem_map.1 hf
          exact ⟨g, by simp [hg], rfl⟩
      exact hundone.no_new _ (temporary_stage_name env g.1) (by simp [hc g hg]) hnone
  · intro hleak
    refine ⟨fun q hq => hp.keeps q hq (by simp) (by simp), fun q hq hne => ?_⟩
    rcases hp.no_new q hq hne with h0 | h0 | h0
    · exact h0
    · intro hnone
      obtain ⟨f, hf, rfl⟩ := List.mem_map.1 h0
      exact hleak ⟨hmov, Or.inr ⟨j, hj, hfault, f, hf, hnone⟩⟩
    · simp at h0

/-- A move that stops after the source is backed up has lost the source. -/
theorem not_undone_of_abandoned_backup {destinations originals : List FilePath}
    (hmov : Movable d source destination reps)
    (hp : Progress env d d' destinations (page_file source :: originals) []) : ¬Undone env d d' := by
  intro hundone
  have hgone := hp.moved (page_file source) (by simp) (by simp)
  rw [hundone.files _ (page_file_not_temporary env source)] at hgone
  have := hmov.source_there
  simp [Disk.is_file, hgone] at this

end

/-- **When a move is all or nothing.** With a single failing step outside the
rollback, `commit_move` keeps its promise exactly when the fault is not one of
those that leak. -/
theorem commit_move_all_or_nothing_iff (pid counter : ℕ) (now : DateTime) (d : Disk)
    (source destination : PagePath) (destination_bytes : Bytes)
    (replacements : List (PagePath × Bytes)) (fault : IoStep) (failure : Failure)
    (hfault : ¬fault.IsRollback) :
    AllOrNothing ⟨pid, counter, single_fault fault failure, now⟩ d source destination
        destination_bytes replacements
      ↔ ¬Leaks ⟨pid, counter, single_fault fault failure, now⟩ d source destination replacements
        fault := by
  set env : Env := ⟨pid, counter, single_fault fault failure, now⟩ with henv
  have hroll : RollbackWorks env := fun step hstep =>
    if_neg (by rintro rfl; exact hfault hstep)
  have hself : env.faults fault = some failure := if_pos rfl
  rw [AllOrNothing, commit_move]
  cases hcheck : check_move env d source destination replacements with
  | error e =>
    refine iff_of_true (Undone.refl env d) fun hleak => ?_
    -- a leaking fault is not one of the checks, so the checks would have passed
    have hok : ∀ step, ¬step.IsReresolve → env.faults step = none := fun step hstep =>
      if_neg (by rintro rfl; exact hstep hleak.isReresolve)
    rw [check_move_ok.2 ⟨hleak.1, hok _ id, hok _ id, fun j _ => hok _ id⟩] at hcheck
    cases hcheck
  | ok u =>
    have hmov := (check_move_ok.1 hcheck).1
    dsimp only
    rcases Movable.perform_move_outcome hmov with
      ⟨d', h, hmoved, hall⟩ | ⟨e, d', h, ⟨step, hstep, hne⟩, hrecovers⟩
        | ⟨e, d', j, hj, h, hne, hp, hc⟩ | ⟨e, d', j, hj, h, hne, hp⟩
    · rw [h]
      refine iff_of_true hmoved fun hleak => ?_
      rcases hleak.2 with ⟨j, hj, rfl⟩ | ⟨j, hj, rfl, -⟩
      · simp [(hall j hj).2] at hself
      · simp [(hall j hj).1] at hself
    · rw [h]
      refine iff_of_true (hrecovers.undone hroll) fun hleak => hstep ?_
      rw [single_fault_ne_none hne]
      exact hleak.isReresolve
    · rw [h]
      exact undone_iff_of_abandoned_staging hmov hj (single_fault_ne_none hne).symm hp hc
    · rw [h]
      refine iff_of_false (not_undone_of_abandoned_backup hmov hp) fun hleak => hleak ?_
      exact ⟨hmov, Or.inl ⟨j, hj, (single_fault_ne_none hne).symm⟩⟩

/-! ## A move that loses its source -/

/-- The page `alpha` at the root. -/
def alpha : PagePath := ⟨["alpha".toList], @PagePath.parse_segments_valid "alpha".toList _ (by decide)⟩
/-- The page `beta` at the root. -/
def beta : PagePath := ⟨["beta".toList], @PagePath.parse_segments_valid "beta".toList _ (by decide)⟩
/-- The page `gamma` at the root. -/
def gamma : PagePath := ⟨["gamma".toList], @PagePath.parse_segments_valid "gamma".toList _ (by decide)⟩

/-- A store with the pages `alpha` and `beta`. -/
def two_pages : Disk :=
  ⟨(∅ : Std.ExtTreeMap FilePath Bytes compare).insert (page_file alpha) (into_bytes ['a'])
    |>.insert (page_file beta) (into_bytes ['b']), ∅⟩

/-- A call in which only `fault` fails. -/
def faulty (fault : IoStep) : Env := ⟨1, 0, single_fault fault (.io "Input/output error"), ⟨0, 0⟩⟩

/-- Moving `alpha` to `gamma` while `beta` is rewritten: the path of `beta` does not
resolve when it is to be backed up, the call fails, and `alpha` is gone. -/
theorem commit_move_loses_source :
    ¬IoStep.IsRollback (.backup_resolve 0)
      ∧ ¬AllOrNothing (faulty (.backup_resolve 0)) two_pages alpha gamma (into_bytes ['a'])
        [(beta, into_bytes ['c'])] := by
  refine ⟨id, fun h => ?_⟩
  have hfails : commit_move (faulty (.backup_resolve 0)) two_pages alpha gamma (into_bytes ['a'])
      [(beta, into_bytes ['c'])]
      = (.error (.Io "Input/output error"), (commit_move (faulty (.backup_resolve 0)) two_pages
        alpha gamma (into_bytes ['a']) [(beta, into_bytes ['c'])]).2) := by
    refine Prod.ext ?_ rfl
    decide
  rw [AllOrNothing, hfails] at h
  have hgone := h.files (page_file alpha) (page_file_not_temporary _ alpha)
  revert hgone
  decide

/-- Installing the destination fails, on the same store: nothing is left of the
move. -/
theorem commit_move_all_or_nothing_install :
    AllOrNothing ⟨1, 0, single_fault (.install 0) (.io "Input/output error"), ⟨0, 0⟩⟩ two_pages
      alpha gamma (into_bytes ['a']) [(beta, into_bytes ['c'])] := by
  refine (commit_move_all_or_nothing_iff 1 0 ⟨0, 0⟩ two_pages alpha gamma (into_bytes ['a'])
    [(beta, into_bytes ['c'])] (.install 0) (.io "Input/output error") id).2 ?_
  rintro ⟨-, ⟨j, -, h⟩ | ⟨j, -, h, -⟩⟩ <;> cases h

end AgentSpace.Memory
