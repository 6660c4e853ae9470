/-
What a terminal controller reports of its starts, under any interleaving of its calls.

A history records which process each call has started, and which call is between a command that
starts or ends the session and what it then writes to `_resume_on_create`. In runs of careful
steps no process is ended by a signal, and no command comes in between.
-/
import AgentSpace.Terminal.Controller

set_option autoImplicit false

namespace AgentSpace.Terminal

open Lib

/-! ## The history -/

/-- What a call is about to do, behind its command. -/
inductive Section where
  | creating
  | resuming
  | stopping
  deriving DecidableEq

/-- The process that each call has started, and the call that is in a section. -/
structure History where
  started_by : ℕ → Option ℕ
  busy : Option (ℕ × Section)

/-- A controller with its history. -/
abbrev Recorded := World × History

namespace History

/-- The end of a section of a call. -/
def leave (i : ℕ) (h : History) : History :=
  { h with busy := h.busy.filter fun entry => entry.1 ≠ i }

/-- A call starts a process, and is in a section. -/
def enter (i : ℕ) (started : Option ℕ) (section_ : Section) (h : History) : History where
  started_by := match started with
    | some process => Function.update h.started_by i (some process)
    | none => h.started_by
  busy := some (i, section_)

end History

/-- What a step changes of the history. -/
def record (i : ℕ) (c : Call) (r : c.Answer) (s : World) (h : History) : History :=
  match c, r with
  | .new_session, true => h.enter i (some s.server.starts) .creating
  | .respawn_pane _, respawned => h.enter i (if respawned then some s.server.starts else none) .resuming
  | .kill_session, true => h.enter i none .stopping
  | .take_resume_on_create, _ => h.leave i
  | .set_resume_on_create _, _ => h.leave i
  | .finish_resume _, _ => h.leave i
  | _, _ => h

/-- The condition on a step: the session is started or ended only when no call is in a section,
and a process is not ended by a signal. -/
def Careful (_i : ℕ) (c : Call) (choice : Choice) (s : Recorded) : Prop :=
  match c with
  | .new_session => s.1.server.session = none → s.2.busy = none
  | .respawn_pane _ => s.2.busy = none
  | .kill_session => s.1.server.session ≠ none → s.2.busy = none
  | .happen => ∀ pane, s.1.server.session = some pane → pane.ended = none →
      choice.happening ≠ .exit .signal
  | _ => True

/-! ## What is expected -/

/-- The calls that may start a process. -/
def Request.starts : Request → Prop
  | .ensure => True
  | .resume => True
  | _ => False

/-- A live process is not ended, and is not replaced. -/
def Spares (s t : Recorded) : Prop :=
  ∀ pane, s.1.server.session = some pane → pane.ended = none → t.1.server.session = some pane

/-- How the start of a process has to be reported. -/
def expected (resume_on_create : Bool) (process : ℕ) : AttachKind :=
  if process ≠ 0 ∨ resume_on_create = true then .resumed else .started

/-- What a call reports is true of what it has started. -/
structure Truthful (resume_on_create : Bool) (process : Option ℕ) (status : TerminalStatus) : Prop where
  /-- Only the first start is reported as one. -/
  started : status.attach_kind = some .started → process = some 0 ∧ resume_on_create = false
  attached : status.attach_kind = some .attached → process = none
  reported : ∀ n, process = some n → status.attach_kind = some (expected resume_on_create n)

/-! ## The invariant -/

section Invariant

variable (resume_on_create : Bool)

/-- What holds of a controller in careful runs. -/
structure Kept (s : Recorded) : Prop where
  unsignalled : ∀ pane, s.1.server.session = some pane → pane.ended ≠ some .signal
  unstarted : s.1.server.starts = 0 →
    s.1.server.session = none ∧ s.1.resume_on_create = resume_on_create
  /-- When there has been a session, the next is a resumed one. -/
  settled : s.1.server.session = none → s.1.server.starts ≠ 0 →
    s.1.resume_on_create = true ∨ ∃ i, s.2.busy = some (i, .stopping)
  creating : ∀ i, s.2.busy = some (i, .creating) → s.1.server.session ≠ none
    ∧ s.1.server.starts ≠ 0 ∧ s.2.started_by i = some (s.1.server.starts - 1)
    ∧ (s.1.resume_on_create = true ↔ s.1.server.starts ≠ 1 ∨ resume_on_create = true)
  results : ∀ i status, s.1.results i = some (.ok status) → status.attach_kind = some .resumed

variable (starter : ℕ → Prop)

/-- What a call leaves to the others. -/
structure Leaves (i : ℕ) (s t : Recorded) : Prop where
  starts : s.1.server.starts ≤ t.1.server.starts
  created : (∃ j, t.2.busy = some (j, .creating)) →
    (∃ j, s.2.busy = some (j, .creating)) ∨ s.1.server.starts < t.1.server.starts
  started_by : ∀ j, j ≠ i → t.2.started_by j = s.2.started_by j
  busy : ∀ j section_, j ≠ i → (t.2.busy = some (j, section_) ↔ s.2.busy = some (j, section_))
  held : ∀ j section_, j ≠ i → s.2.busy = some (j, section_) →
    (t.1.server.session = none ↔ s.1.server.session = none)
  spares : starter i → Spares s t

/-- The rules of the proofs below. -/
def rules (session : SessionName) : Rules ℕ Call Choice Recorded Call.Answer where
  exec := with_history (exec session) record
  allow := Careful
  invariant := Kept resume_on_create
  guarantee := Leaves starter

end Invariant

variable {resume_on_create : Bool} {starter : ℕ → Prop} {session : SessionName} {i : ℕ}

variable {c : Call} {s t : Recorded}

/-- A step, and what it records. -/
theorem step_and_record {choice : Choice} {r : c.Answer}
    (h : (rules resume_on_create starter session).exec i c choice s = some (r, t)) :
    exec session i c choice s.1 = some (r, t.1) ∧ t.2 = record i c r s.1 s.2 :=
  with_history_eq_some h

theorem busy_leave_of_ne {h : History} {j : ℕ} {section_ : Section} (hj : j ≠ i) :
    (h.leave i).busy = some (j, section_) ↔ h.busy = some (j, section_) := by
  unfold History.leave
  rw [Option.filter_eq_some_iff]
  simp [hj]

theorem busy_leave_self (h : History) (section_ : Section) : (h.leave i).busy ≠ some (i, section_) := by
  unfold History.leave
  rw [Ne, Option.filter_eq_some_iff]
  simp

theorem of_busy_leave {h : History} {j : ℕ} {section_ : Section}
    (hbusy : (h.leave i).busy = some (j, section_)) : j ≠ i ∧ h.busy = some (j, section_) := by
  have hj : j ≠ i := by
    rintro rfl
    exact busy_leave_self h section_ hbusy
  exact ⟨hj, (busy_leave_of_ne hj).1 hbusy⟩

/-! ## Steps that change nothing -/

/-- Nothing that matters has changed. -/
structure Same (s t : Recorded) : Prop where
  session : t.1.server.session = s.1.server.session
  starts : t.1.server.starts = s.1.server.starts
  resume_on_create : t.1.resume_on_create = s.1.resume_on_create
  results : t.1.results = s.1.results
  history : t.2 = s.2

theorem Same.kept (h : Same s t) (hs : Kept resume_on_create s) : Kept resume_on_create t := by
  obtain ⟨hsession, hstarts, hresume, hresults, hhistory⟩ := h
  refine ⟨?_, ?_, ?_, ?_, ?_⟩
  · rw [hsession]
    exact hs.unsignalled
  · rw [hsession, hstarts, hresume]
    exact hs.unstarted
  · rw [hsession, hstarts, hresume, hhistory]
    exact hs.settled
  · rw [hsession, hstarts, hresume, hhistory]
    exact hs.creating
  · rw [hresults]
    exact hs.results

theorem Same.leaves (h : Same s t) : Leaves starter i s t := by
  obtain ⟨hsession, hstarts, hresume, hresults, hhistory⟩ := h
  refine ⟨hstarts.ge, ?_, ?_, ?_, ?_, ?_⟩
  · rw [hhistory]
    exact Or.inl
  · intro j _
    rw [hhistory]
  · intro j section_ _
    rw [hhistory]
  · intro j section_ _ _
    rw [hsession]
  · intro _ pane hpane _
    rw [hsession]
    exact hpane

/-- The steps that read, and those that concern the lock, the task and the clients only. -/
def reads : Call → Bool
  | .acquire | .release | .prepare_launch | .has_session | .list_panes | .list_clients => true
  | .detach_client _ | .join_resume | .await_resume _ => true
  | _ => false

theorem same_of_reads (hc : reads c = true) {choice : Choice}
    {r : c.Answer} (h : (rules resume_on_create starter session).exec i c choice s = some (r, t)) :
    Same s t := by
  obtain ⟨hexec, hrecord⟩ := step_and_record h
  obtain ⟨world, history⟩ := t
  cases c with
  | acquire =>
    unfold exec at hexec
    simp only at hexec
    split at hexec
    · cases hexec
      exact ⟨rfl, rfl, rfl, rfl, hrecord⟩
    · cases hexec
  | prepare_launch | detach_client id | join_resume =>
    unfold exec at hexec
    simp only at hexec
    split at hexec
    · cases hexec
      exact ⟨rfl, rfl, rfl, rfl, hrecord⟩
    · cases hexec
      exact ⟨rfl, rfl, rfl, rfl, hrecord⟩
  | await_resume task =>
    obtain ⟨outcome, -, houtcome⟩ := Option.map_eq_some_iff.1 hexec
    cases houtcome
    exact ⟨rfl, rfl, rfl, rfl, hrecord⟩
  | release | has_session | list_panes | list_clients =>
    cases hexec
    exact ⟨rfl, rfl, rfl, rfl, hrecord⟩
  | _ => cases hc

/-- An assertion that depends on what matters only. -/
def Matters (P : Recorded → Prop) : Prop := ∀ s t, Same s t → P s → P t

/-- A step that changes nothing keeps an assertion. -/
theorem ensures_read {P E : Recorded → Prop} (hc : reads c = true) (hPm : Matters P)
    (hP : (rules resume_on_create starter session).Stable i P) :
    (rules resume_on_create starter session).Ensures i P (access c) (fun _ => P) fun _ => E := by
  refine Rules.Ensures.lift (Rules.Outline.lift (fun _ => hP) ?_)
  intro s choice r t hs hPs _ hexec
  have hsame := same_of_reads hc hexec
  exact ⟨hsame.kept hs, hsame.leaves, hPm s t hsame hPs⟩

/-! ## Sections -/

theorem leaves_enter (started : Option ℕ) (section_ : Section) (hbusy : s.2.busy = none)
    (hhistory : t.2 = s.2.enter i started section_) (hstarts : s.1.server.starts ≤ t.1.server.starts)
    (hcreated : section_ = .creating → s.1.server.starts < t.1.server.starts)
    (hspares : starter i → Spares s t) : Leaves starter i s t := by
  have hentered : t.2.busy = some (i, section_) := by
    rw [hhistory]
    rfl
  refine ⟨hstarts, ?_, ?_, ?_, ?_, hspares⟩
  · rintro ⟨j, hj⟩
    rw [hentered] at hj
    obtain ⟨-, hcreating⟩ := Prod.mk.inj (Option.some.inj hj)
    exact Or.inr (hcreated hcreating)
  · intro j hj
    rw [hhistory]
    unfold History.enter
    cases started with
    | none => rfl
    | some process => exact Function.update_of_ne hj _ _
  · intro j other hj
    rw [hentered, hbusy]
    refine iff_of_false ?_ (by simp)
    intro hsame
    exact hj (Prod.mk.inj (Option.some.inj hsame)).1.symm
  · intro j other _ hother
    rw [hbusy] at hother
    cases hother

theorem leaves_leave (hhistory : t.2 = s.2.leave i) (hsession : t.1.server.session = s.1.server.session)
    (hstarts : t.1.server.starts = s.1.server.starts) : Leaves starter i s t := by
  refine ⟨hstarts.ge, ?_, ?_, ?_, ?_, ?_⟩
  · rintro ⟨j, hj⟩
    rw [hhistory] at hj
    exact Or.inl ⟨j, (of_busy_leave hj).2⟩
  · intro j _
    rw [hhistory]
    rfl
  · intro j section_ hj
    rw [hhistory]
    exact busy_leave_of_ne hj
  · intro j section_ _ _
    rw [hsession]
  · intro _ pane hpane _
    rw [hsession]
    exact hpane

/-- The call is in no section. -/
def Idle (i : ℕ) (s : Recorded) : Prop := ∀ section_, s.2.busy ≠ some (i, section_)

/-- The call has started no process, and is in no section. -/
def Fresh (i : ℕ) (s : Recorded) : Prop := s.2.started_by i = none ∧ Idle i s

/-- What the call has started is reported so. -/
def Started (resume_on_create : Bool) (i : ℕ) (kind : AttachKind) (s : Recorded) : Prop :=
  ∃ n, s.2.started_by i = some n ∧ kind = expected resume_on_create n

/-- A resumption, behind its command. -/
structure Resuming (i : ℕ) (respawned : Bool) (s : Recorded) : Prop where
  busy : s.2.busy = some (i, .resuming)
  succeeded : respawned = true → ∃ n, s.2.started_by i = some n ∧ n ≠ 0
  failed : respawned = false → s.2.started_by i = none

/-- A stop, behind its command: the next session is not the first. -/
structure Stopping (i : ℕ) (s : Recorded) : Prop where
  started_by : s.2.started_by i = none
  starts : s.1.server.starts ≠ 0
  later : ∀ j, s.2.busy = some (j, .creating) → 2 ≤ s.1.server.starts

section Stability

variable {s t : Recorded} {j : ℕ}

theorem Idle.of_leaves (h : Idle i s) (hleaves : Leaves starter j s t) (hj : j ≠ i) : Idle i t :=
  fun section_ hbusy => h section_ ((hleaves.busy i section_ (Ne.symm hj)).1 hbusy)

theorem Fresh.of_leaves (h : Fresh i s) (hleaves : Leaves starter j s t) (hj : j ≠ i) : Fresh i t :=
  ⟨(hleaves.started_by i (Ne.symm hj)).trans h.1, h.2.of_leaves hleaves hj⟩

theorem Started.of_leaves {kind : AttachKind} (h : Started resume_on_create i kind s)
    (hleaves : Leaves starter j s t) (hj : j ≠ i) : Started resume_on_create i kind t := by
  obtain ⟨n, hn, hkind⟩ := h
  exact ⟨n, (hleaves.started_by i (Ne.symm hj)).trans hn, hkind⟩

theorem Resuming.of_leaves {respawned : Bool} (h : Resuming i respawned s)
    (hleaves : Leaves starter j s t) (hj : j ≠ i) : Resuming i respawned t := by
  refine ⟨(hleaves.busy i _ (Ne.symm hj)).2 h.busy, ?_, ?_⟩
  · rw [hleaves.started_by i (Ne.symm hj)]
    exact h.succeeded
  · rw [hleaves.started_by i (Ne.symm hj)]
    exact h.failed

theorem Stopping.of_leaves (h : Stopping i s) (hleaves : Leaves starter j s t) (hj : j ≠ i) :
    Stopping i t := by
  have hstarts := h.starts
  have hmore := hleaves.starts
  refine ⟨(hleaves.started_by i (Ne.symm hj)).trans h.started_by, by omega, ?_⟩
  intro k hk
  rcases hleaves.created ⟨k, hk⟩ with ⟨k', hk'⟩ | hmore'
  · have hlater := h.later k' hk'
    omega
  · omega

theorem Fresh.of_same (h : Fresh i s) (hsame : Same s t) : Fresh i t := by
  unfold Fresh Idle
  rw [hsame.history]
  exact h

theorem Started.of_same {kind : AttachKind} (h : Started resume_on_create i kind s) (hsame : Same s t) :
    Started resume_on_create i kind t := by
  unfold Started
  rw [hsame.history]
  exact h

theorem Resuming.of_same {respawned : Bool} (h : Resuming i respawned s) (hsame : Same s t) :
    Resuming i respawned t := by
  constructor
  · rw [hsame.history]
    exact h.busy
  · rw [hsame.history]
    exact h.succeeded
  · rw [hsame.history]
    exact h.failed

theorem Stopping.of_same (h : Stopping i s) (hsame : Same s t) : Stopping i t := by
  constructor
  · rw [hsame.history]
    exact h.started_by
  · rw [hsame.starts]
    exact h.starts
  · rw [hsame.history, hsame.starts]
    exact h.later

end Stability

/-! ## Commands -/

section Commands

variable {s t : Recorded} {choice : Choice}

theorem keeps_new_session {r : Bool} (hs : Kept resume_on_create s) (hfresh : Fresh i s)
    (hcareful : Careful i .new_session choice s)
    (hexec : (rules resume_on_create starter session).exec i .new_session choice s = some (r, t)) :
    Kept resume_on_create t ∧ Leaves starter i s t
      ∧ if r then t.2.busy = some (i, .creating) else Fresh i t := by
  obtain ⟨hexec, hrecord⟩ := step_and_record hexec
  obtain ⟨world, history⟩ := t
  unfold exec at hexec
  simp only at hexec
  by_cases hsession : s.1.server.session.isSome = true
  · rw [if_pos hsession] at hexec
    cases hexec
    have hsame : Same s (s.1, history) := ⟨rfl, rfl, rfl, rfl, hrecord⟩
    exact ⟨hsame.kept hs, hsame.leaves, hfresh.of_same hsame⟩
  · rw [if_neg hsession] at hexec
    cases hexec
    have hnone : s.1.server.session = none := Option.not_isSome_iff_eq_none.1 hsession
    have hbusy : s.2.busy = none := hcareful hnone
    obtain rfl : history = s.2.enter i (some s.1.server.starts) .creating := hrecord
    refine ⟨⟨?_, ?_, ?_, ?_, hs.results⟩, ?_, rfl⟩
    · intro pane hpane
      obtain rfl := Option.some.inj hpane
      exact fun h => by cases h
    · intro hstarts
      exact absurd hstarts (Nat.succ_ne_zero _)
    · intro h
      cases h
    · intro j hj
      obtain rfl : i = j := (Prod.mk.inj (Option.some.inj hj)).1
      refine ⟨Option.some_ne_none _, Nat.succ_ne_zero _, Function.update_self .., ?_⟩
      show s.1.resume_on_create = true ↔ s.1.server.starts + 1 ≠ 1 ∨ resume_on_create = true
      by_cases hfirst : s.1.server.starts = 0
      · rw [(hs.unstarted hfirst).2, hfirst]
        simp
      · refine iff_of_true ?_ (Or.inl (by omega))
        rcases hs.settled hnone hfirst with htrue | ⟨k, hk⟩
        · exact htrue
        · rw [hbusy] at hk
          cases hk
    · refine leaves_enter (some s.1.server.starts) .creating hbusy rfl (Nat.le_succ _)
        (fun _ => Nat.lt_succ_self _) fun _ pane hpane => ?_
      rw [hnone] at hpane
      cases hpane

theorem keeps_take {kind : AttachKind} (hs : Kept resume_on_create s)
    (hbusy : s.2.busy = some (i, .creating))
    (hexec : (rules resume_on_create starter session).exec i .take_resume_on_create choice s
      = some (kind, t)) :
    Kept resume_on_create t ∧ Leaves starter i s t ∧ Started resume_on_create i kind t := by
  obtain ⟨hexec, hrecord⟩ := step_and_record hexec
  obtain ⟨world, history⟩ := t
  cases hexec
  obtain rfl : history = s.2.leave i := hrecord
  obtain ⟨hsession, hstarts, hstarted, hflag⟩ := hs.creating i hbusy
  refine ⟨⟨hs.unsignalled, ?_, ?_, ?_, hs.results⟩, leaves_leave rfl rfl rfl, s.1.server.starts - 1,
    hstarted, ?_⟩
  · intro h
    exact absurd h hstarts
  · intro h
    exact absurd h hsession
  · intro j hj
    obtain ⟨hne, hj⟩ := of_busy_leave hj
    rw [hbusy] at hj
    exact absurd (Prod.mk.inj (Option.some.inj hj)).1.symm hne
  · unfold expected
    have hfirst : s.1.server.starts ≠ 1 ↔ s.1.server.starts - 1 ≠ 0 := by omega
    rw [hfirst] at hflag
    by_cases h : s.1.resume_on_create = true
    · rw [if_pos h, if_pos (hflag.1 h)]
    · rw [if_neg h, if_neg (fun hor => h (hflag.2 hor))]

theorem keeps_respawn {pane_id : Text} {respawned : Bool} (hs : Kept resume_on_create s)
    (hfresh : Fresh i s) (hcareful : Careful i (.respawn_pane pane_id) choice s)
    (hexec : (rules resume_on_create starter session).exec i (.respawn_pane pane_id) choice s
      = some (respawned, t)) : Kept resume_on_create t ∧ Leaves starter i s t ∧ Resuming i respawned t := by
  have hbusy : s.2.busy = none := hcareful
  have hsettled : s.1.server.session = none → s.1.server.starts ≠ 0 → s.1.resume_on_create = true := by
    intro hnone hstarts
    rcases hs.settled hnone hstarts with htrue | ⟨k, hk⟩
    · exact htrue
    · rw [hbusy] at hk
      cases hk
  obtain ⟨hexec, hrecord⟩ := step_and_record hexec
  obtain ⟨world, history⟩ := t
  -- a command that fails leaves the server as it is
  have hfails : some (respawned, world) = some (false, s.1) →
      Kept resume_on_create (world, history) ∧ Leaves starter i s (world, history)
        ∧ Resuming i respawned (world, history) := by
    intro h
    cases h
    obtain rfl : history = s.2.enter i none .resuming := hrecord
    refine ⟨⟨hs.unsignalled, hs.unstarted, fun hnone hstarts => Or.inl (hsettled hnone hstarts), ?_,
      hs.results⟩, ?_, rfl, ?_, fun _ => hfresh.1⟩
    · intro j hj
      cases hj
    · exact leaves_enter none .resuming hbusy rfl le_rfl (fun h => by cases h) fun _ _ hpane _ => hpane
    · intro h
      cases h
  unfold exec at hexec
  simp only at hexec
  cases hsession : s.1.server.session with
  | none =>
    rw [hsession] at hexec
    exact hfails hexec.symm
  | some pane =>
    rw [hsession] at hexec
    simp only at hexec
    by_cases hdead : pane.pane_id = pane_id ∧ pane.ended.isSome = true
    · rw [if_pos hdead] at hexec
      cases hexec
      obtain rfl : history = s.2.enter i (some s.1.server.starts) .resuming := hrecord
      have hstarts : s.1.server.starts ≠ 0 := by
        intro hzero
        rw [(hs.unstarted hzero).1] at hsession
        cases hsession
      refine ⟨⟨?_, ?_, ?_, ?_, hs.results⟩, ?_, rfl, ?_, ?_⟩
      · intro pane' hpane
        obtain rfl := Option.some.inj hpane
        exact fun h => by cases h
      · intro h
        exact absurd h (Nat.succ_ne_zero _)
      · intro h
        cases h
      · intro j hj
        cases hj
      · refine leaves_enter (some s.1.server.starts) .resuming hbusy rfl (Nat.le_succ _)
          (fun h => by cases h) fun _ pane' hpane hlive => ?_
        rw [hsession] at hpane
        obtain rfl := Option.some.inj hpane
        rw [hlive] at hdead
        exact absurd hdead.2 (by simp)
      · intro _
        exact ⟨s.1.server.starts, Function.update_self .., hstarts⟩
      · intro h
        cases h
    · rw [if_neg hdead] at hexec
      exact hfails hexec.symm

variable {r : Unit}

/-- A resumption that has seen its pane run. -/
theorem keeps_set_false (hs : Kept resume_on_create s)
    (hbusy : s.2.busy = some (i, .resuming)) (hsession : s.1.server.session ≠ none)
    (hexec : (rules resume_on_create starter session).exec i (.set_resume_on_create false) choice s
      = some (r, t)) :
    Kept resume_on_create t ∧ Leaves starter i s t ∧ t.2.started_by = s.2.started_by ∧ Idle i t := by
  obtain ⟨hexec, hrecord⟩ := step_and_record hexec
  obtain ⟨world, history⟩ := t
  cases hexec
  obtain rfl : history = s.2.leave i := hrecord
  refine ⟨⟨hs.unsignalled, ?_, ?_, ?_, hs.results⟩, leaves_leave rfl rfl rfl, rfl, busy_leave_self s.2⟩
  · intro hstarts
    exact absurd (hs.unstarted hstarts).1 hsession
  · intro hnone
    exact absurd hnone hsession
  · intro j hj
    obtain ⟨hne, hj⟩ := of_busy_leave hj
    rw [hbusy] at hj
    cases hj

/-- A stop, at its end. -/
theorem keeps_set_true (hs : Kept resume_on_create s) (hstopping : Stopping i s)
    (hexec : (rules resume_on_create starter session).exec i (.set_resume_on_create true) choice s
      = some (r, t)) : Kept resume_on_create t ∧ Leaves starter i s t ∧ t.2.started_by i = none := by
  obtain ⟨hexec, hrecord⟩ := step_and_record hexec
  obtain ⟨world, history⟩ := t
  cases hexec
  obtain rfl : history = s.2.leave i := hrecord
  refine ⟨⟨hs.unsignalled, ?_, fun _ _ => Or.inl rfl, ?_, hs.results⟩, leaves_leave rfl rfl rfl,
    hstopping.started_by⟩
  · intro hstarts
    exact absurd hstarts hstopping.starts
  · intro j hj
    obtain ⟨-, hj⟩ := of_busy_leave hj
    obtain ⟨hsession, hstarts, hstarted, -⟩ := hs.creating j hj
    have hlater := hstopping.later j hj
    exact ⟨hsession, hstarts, hstarted, iff_of_true rfl (Or.inl (by simp only; omega))⟩

theorem keeps_kill {r : Bool} (hs : Kept resume_on_create s) (hstarter : ¬starter i)
    (hstarted : s.2.started_by i = none) (hstarts : s.1.server.starts ≠ 0)
    (hcareful : Careful i .kill_session choice s)
    (hexec : (rules resume_on_create starter session).exec i .kill_session choice s = some (r, t)) :
    Kept resume_on_create t ∧ Leaves starter i s t ∧ Stopping i t := by
  obtain ⟨hexec, hrecord⟩ := step_and_record hexec
  obtain ⟨world, history⟩ := t
  unfold exec at hexec
  simp only at hexec
  by_cases hsession : s.1.server.session.isSome = true
  · rw [if_pos hsession] at hexec
    cases hexec
    obtain rfl : history = s.2.enter i none .stopping := hrecord
    have hbusy : s.2.busy = none := hcareful (Option.isSome_iff_ne_none.1 hsession)
    refine ⟨⟨?_, ?_, ?_, ?_, hs.results⟩, ?_, hstarted, hstarts, ?_⟩
    · intro pane hpane
      cases hpane
    · intro h
      exact absurd h hstarts
    · intro _ _
      exact Or.inr ⟨i, rfl⟩
    · intro j hj
      cases hj
    · exact leaves_enter none .stopping hbusy rfl le_rfl (fun h => by cases h) fun h => absurd h hstarter
    · intro j hj
      cases hj
  · rw [if_neg hsession] at hexec
    cases hexec
    have hsame : Same s (s.1, history) := ⟨rfl, rfl, rfl, rfl, hrecord⟩
    have hnone : s.1.server.session = none := Option.not_isSome_iff_eq_none.1 hsession
    refine ⟨hsame.kept hs, hsame.leaves, Stopping.of_same ⟨hstarted, hstarts, ?_⟩ hsame⟩
    intro j hj
    exact absurd hnone (hs.creating j hj).1

theorem keeps_happen (hs : Kept resume_on_create s) (hstarter : ¬starter i)
    (hcareful : Careful i .happen choice s)
    (hexec : (rules resume_on_create starter session).exec i .happen choice s = some (r, t)) :
    Kept resume_on_create t ∧ Leaves starter i s t ∧ t.2 = s.2 := by
  obtain ⟨hexec, hrecord⟩ := step_and_record hexec
  obtain ⟨world, history⟩ := t
  cases hexec
  obtain rfl : history = s.2 := hrecord
  have hstarts : (s.1.server.happen choice.happening).starts = s.1.server.starts := by
    cases choice.happening with
    | exit ending => rfl
    | attach client =>
      unfold Server.happen
      simp only
      split <;> rfl
    | detach id => rfl
  have hsession : (s.1.server.happen choice.happening).session = none ↔ s.1.server.session = none := by
    cases choice.happening with
    | exit ending => exact Option.map_eq_none_iff
    | attach client =>
      unfold Server.happen
      simp only
      split <;> rfl
    | detach id => exact Iff.rfl
  have hunsignalled : ∀ pane, (s.1.server.happen choice.happening).session = some pane →
      pane.ended ≠ some .signal := by
    intro pane hpane
    cases hhappening : choice.happening with
    | exit ending =>
      rw [hhappening] at hpane
      obtain ⟨before, hbefore, rfl⟩ := Option.map_eq_some_iff.1 hpane
      by_cases hlive : before.ended = none
      · rw [if_pos hlive]
        intro hsignal
        obtain rfl : ending = .signal := Option.some.inj hsignal
        exact hcareful before hbefore hlive hhappening
      · rw [if_neg hlive]
        exact hs.unsignalled before hbefore
    | attach client =>
      rw [hhappening] at hpane
      refine hs.unsignalled pane ?_
      unfold Server.happen at hpane
      simp only at hpane
      split at hpane
      · exact hpane
      · exact hpane
    | detach id =>
      rw [hhappening] at hpane
      exact hs.unsignalled pane hpane
  refine ⟨⟨hunsignalled, ?_, ?_, ?_, hs.results⟩, ⟨hstarts.ge, Or.inl, fun _ _ => rfl, fun _ _ _ => Iff.rfl,
    fun _ _ _ _ => hsession, fun h => absurd h hstarter⟩, rfl⟩
  · show (s.1.server.happen choice.happening).starts = 0 → _
    rw [hstarts, hsession]
    exact hs.unstarted
  · show (s.1.server.happen choice.happening).session = none → (s.1.server.happen choice.happening).starts
      ≠ 0 → _
    rw [hstarts, hsession]
    exact hs.settled
  · intro j hj
    show ¬(s.1.server.happen choice.happening).session = none ∧ (s.1.server.happen choice.happening).starts ≠ 0
      ∧ s.2.started_by j = some ((s.1.server.happen choice.happening).starts - 1)
      ∧ (s.1.resume_on_create = true ↔ (s.1.server.happen choice.happening).starts ≠ 1 ∨ _)
    rw [hstarts, hsession]
    exact hs.creating j hj

theorem keeps_finish {outcome : Outcome} (hs : Kept resume_on_create s)
    (hbusy : ∀ section_, s.2.busy = some (i, section_) → section_ = .resuming)
    (houtcome : ∀ status, outcome = .ok status → status.attach_kind = some .resumed)
    (hexec : (rules resume_on_create starter session).exec i (.finish_resume outcome) choice s
      = some (r, t)) :
    Kept resume_on_create t ∧ Leaves starter i s t ∧ t.2.started_by = s.2.started_by := by
  obtain ⟨hexec, hrecord⟩ := step_and_record hexec
  obtain ⟨world, history⟩ := t
  cases hexec
  obtain rfl : history = s.2.leave i := hrecord
  refine ⟨⟨hs.unsignalled, hs.unstarted, ?_, ?_, ?_⟩, leaves_leave rfl rfl rfl, rfl⟩
  · intro hnone hstarts
    rcases hs.settled hnone hstarts with htrue | ⟨j, hj⟩
    · exact Or.inl htrue
    · have hne : j ≠ i := by
        rintro rfl
        cases hbusy _ hj
      exact Or.inr ⟨j, (busy_leave_of_ne hne).2 hj⟩
  · intro j hj
    exact hs.creating j (of_busy_leave hj).2
  · intro j status hstatus
    simp only [Function.update_apply] at hstatus
    by_cases hj : j = i
    · rw [if_pos hj] at hstatus
      exact houtcome status (Option.some.inj hstatus)
    · rw [if_neg hj] at hstatus
      exact hs.results j status hstatus

end Commands

/-! ## Observing -/

section Observe

variable {P W : Recorded → Prop}

/-- An assertion that others leave true, with another where it is needed. -/
theorem stable_and_imp {c : Prop} (hP : (rules resume_on_create starter session).Stable i P)
    (hW : (rules resume_on_create starter session).Stable i fun s => P s ∧ W s) :
    (rules resume_on_create starter session).Stable i fun s => P s ∧ (c → W s) := by
  by_cases hc : c
  · intro j hj s t hs ht h hguarantee
    obtain ⟨hPt, hWt⟩ := hW j hj s t hs ht ⟨h.1, h.2 hc⟩ hguarantee
    exact ⟨hPt, fun _ => hWt⟩
  · intro j hj s t hs ht h hguarantee
    exact ⟨hP j hj s t hs ht h.1 hguarantee, fun h => absurd h hc⟩

/-- What is known when a status has been observed: if it is not a missing session, then what holds
where there is one. -/
def Observed (P W : Recorded → Prop) (status : TerminalStatus) (s : Recorded) : Prop :=
  P s ∧ status.attach_kind = none ∧ (status.state ≠ .missing → W s)

variable (hPm : Matters P) (hWm : Matters W)
  (hP : (rules resume_on_create starter session).Stable i P)
  (hW : (rules resume_on_create starter session).Stable i fun s => P s ∧ W s)
  (hpresent : ∀ s, Kept resume_on_create s → P s → s.1.server.session ≠ none → W s)

include hPm hP in
theorem ensures_missing_or_error (operation : String) :
    (rules resume_on_create starter session).Ensures i P (missing_or_error operation) (Observed P W)
      fun _ => P := by
  refine .bind (ensures_read (c := .has_session) rfl hPm hP) fun there => ?_
  by_cases hthere : there = true
  · rw [if_pos hthere]
    exact .throw fun s _ h => h
  · rw [if_neg hthere]
    exact .pure fun s _ h => ⟨h, rfl, fun hne => absurd rfl hne⟩

include hPm hWm hP hW in
theorem ensures_status_of_pane (pane : PaneView) :
    (rules resume_on_create starter session).Ensures i (fun s => P s ∧ W s) (status_of_pane pane)
      (Observed P W) fun _ => P := by
  refine .bind (ensures_read (c := .list_clients) rfl ?_ hW) fun lines => ?_
  · exact fun s t hsame h => ⟨hPm s t hsame h.1, hWm s t hsame h.2⟩
  cases lines with
  | none => exact (ensures_missing_or_error hPm hP _).mono fun s _ h => h.1
  | some lines =>
    simp only
    split
    · exact .throw fun s _ h => h.1
    · exact .pure fun s _ h => ⟨h.1, rfl, fun _ => h.2⟩

include hPm hWm hP hW hpresent in
theorem ensures_status_of_session :
    (rules resume_on_create starter session).Ensures i P status_of_session (Observed P W)
      fun _ => P := by
  refine .bind (Q := fun lines s => P s ∧ (lines.isSome = true → W s))
    (Rules.Ensures.lift (Rules.Outline.lift (fun _ => stable_and_imp hP hW) ?_)) fun lines => ?_
  · intro s choice r t hs h _ hexec
    have hsame := same_of_reads rfl hexec
    refine ⟨hsame.kept hs, hsame.leaves, hPm s t hsame h, fun hsome => ?_⟩
    obtain ⟨hlines, -⟩ := Prod.mk.inj (Option.some.inj (step_and_record hexec).1)
    rw [← hlines, Option.isSome_map] at hsome
    refine hWm s t hsame (hpresent s hs h ?_)
    exact Option.isSome_iff_ne_none.1 hsome
  cases lines with
  | none => exact (ensures_missing_or_error hPm hP _).mono fun s _ h => h.1
  | some lines =>
    simp only
    split
    · split
      · exact .throw fun s _ h => h.1
      · exact (ensures_status_of_pane hPm hWm hP hW _).mono fun s _ h => ⟨h.1, h.2 rfl⟩
    · exact .throw fun s _ h => h.1

include hPm hWm hP hW hpresent in
/-- **Observing** keeps what depends on what matters, and finds out about the session. -/
theorem ensures_observe :
    (rules resume_on_create starter session).Ensures i P observe (Observed P W) fun _ => P := by
  refine .bind (ensures_read (c := .has_session) rfl hPm hP) fun there => ?_
  by_cases hthere : there = true
  · rw [if_pos hthere]
    exact ensures_status_of_session hPm hWm hP hW hpresent
  · rw [if_neg hthere]
    exact .pure fun s _ h => ⟨h, rfl, fun hne => absurd rfl hne⟩

end Observe

/-! ## Calls -/

section Calls

/-- The call has started nothing. -/
def Unstarted (i : ℕ) (s : Recorded) : Prop := s.2.started_by i = none

/-- What a call comes to is reported truly. -/
def Reports (resume_on_create : Bool) (i : ℕ) (outcome : Outcome) (s : Recorded) : Prop :=
  ∀ status, outcome = .ok status → Truthful resume_on_create (s.2.started_by i) status

/-- A resumption is in no other section than its own. -/
def OnlyResuming (i : ℕ) (s : Recorded) : Prop :=
  ∀ section_, s.2.busy = some (i, section_) → section_ = .resuming

/-- What a resumption has started was not the first process. -/
def Later (i : ℕ) (s : Recorded) : Prop := ∀ n, s.2.started_by i = some n → n ≠ 0

theorem stable_fresh : (rules resume_on_create starter session).Stable i (Fresh i) :=
  fun _ hj _ _ _ _ h hleaves => h.of_leaves hleaves hj

theorem stable_unstarted : (rules resume_on_create starter session).Stable i (Unstarted i) :=
  fun _ hj _ _ _ _ h hleaves => (hleaves.started_by i (Ne.symm hj)).trans h

theorem stable_reports (outcome : Outcome) :
    (rules resume_on_create starter session).Stable i (Reports resume_on_create i outcome) := by
  intro j hj s t _ _ h hleaves status hstatus
  rw [hleaves.started_by i (Ne.symm hj)]
  exact h status hstatus

theorem stable_only_resuming : (rules resume_on_create starter session).Stable i (OnlyResuming i) :=
  fun _ hj _ _ _ _ h hleaves section_ hbusy => h section_ ((hleaves.busy i section_ (Ne.symm hj)).1 hbusy)

theorem matters_unstarted : Matters (Unstarted i) := by
  intro s t hsame h
  unfold Unstarted
  rw [hsame.history]
  exact h

theorem matters_fresh : Matters (Fresh i) := fun _ _ hsame h => h.of_same hsame

theorem matters_true : Matters fun _ => True := fun _ _ _ _ => trivial

variable {P : Recorded → Prop}

theorem stable_and_true (hP : (rules resume_on_create starter session).Stable i P) :
    (rules resume_on_create starter session).Stable i fun s => P s ∧ True :=
  fun j hj s t hs ht h hguarantee => ⟨hP j hj s t hs ht h.1 hguarantee, trivial⟩

/-- Observing, where nothing is to be found out about the session. -/
theorem ensures_observe_only (hPm : Matters P) (hP : (rules resume_on_create starter session).Stable i P) :
    (rules resume_on_create starter session).Ensures i P observe (Observed P fun _ => True) fun _ => P :=
  ensures_observe hPm matters_true hP (stable_and_true hP) fun _ _ _ _ => trivial

variable {status : TerminalStatus}

theorem truthful_none (h : status.attach_kind = none) : Truthful resume_on_create none status := by
  refine ⟨?_, fun _ => rfl, ?_⟩
  · intro hstarted
    rw [h] at hstarted
    cases hstarted
  · intro n hn
    cases hn

theorem truthful_expected {n : ℕ} (h : status.attach_kind = some (expected resume_on_create n)) :
    Truthful resume_on_create (some n) status := by
  refine ⟨?_, ?_, ?_⟩
  · intro hstarted
    rw [h] at hstarted
    unfold expected at hstarted
    by_cases hlater : n ≠ 0 ∨ resume_on_create = true
    · rw [if_pos hlater] at hstarted
      cases hstarted
    · rw [not_or, not_not] at hlater
      exact ⟨congrArg some hlater.1, by simpa using hlater.2⟩
  · intro hattached
    rw [h] at hattached
    unfold expected at hattached
    split at hattached
    · cases hattached
    · cases hattached
  · intro m hm
    obtain rfl : n = m := Option.some.inj hm
    exact h

theorem truthful_attached (h : status.attach_kind = some .attached) :
    Truthful resume_on_create none status := by
  refine ⟨?_, fun _ => rfl, ?_⟩
  · intro hstarted
    rw [h] at hstarted
    cases hstarted
  · intro n hn
    cases hn

theorem truthful_resumed {process : Option ℕ}
    (h : status.attach_kind = some .resumed) (hlater : ∀ n, process = some n → n ≠ 0) :
    Truthful resume_on_create process status := by
  refine ⟨?_, ?_, ?_⟩
  · intro hstarted
    rw [h] at hstarted
    cases hstarted
  · intro hattached
    rw [h] at hattached
    cases hattached
  · intro n hn
    rw [h]
    unfold expected
    rw [if_pos (Or.inl (hlater n hn))]

theorem ensures_prepare (hPm : Matters P) (hP : (rules resume_on_create starter session).Stable i P) :
    (rules resume_on_create starter session).Ensures i P (ExceptT.mk (Prog.lift Call.prepare_launch))
      (fun _ => P) fun _ => P := by
  refine Rules.Outline.weaken (Rules.Outline.lift (Q := fun _ => P) (fun _ => hP) ?_) fun outcome _ _ h => ?_
  · intro s choice r t hs hPs _ hexec
    have hsame := same_of_reads rfl hexec
    exact ⟨hsame.kept hs, hsame.leaves, hPm s t hsame hPs⟩
  · cases outcome with
    | ok _ => exact h
    | error _ => exact h

/-! ### `ensure` -/

theorem ensures_created :
    (rules resume_on_create starter session).Ensures i (fun s => s.2.busy = some (i, .creating)) created
      (fun status => Reports resume_on_create i (.ok status)) fun _ _ => True := by
  refine .bind (Q := Started resume_on_create i)
    (Rules.Ensures.lift (Rules.Outline.lift ?_ ?_)) fun kind => ?_
  · exact fun kind j hj s t _ _ h hleaves => h.of_leaves hleaves hj
  · intro s choice kind t hs hbusy _ hexec
    exact keeps_take hs hbusy hexec
  have hobserve : (rules resume_on_create starter session).Ensures i (Started resume_on_create i kind)
      observe (Observed (Started resume_on_create i kind) fun _ => True) fun _ _ => True := by
    refine (ensures_observe_only ?_ ?_).weaken_error fun _ _ _ _ => trivial
    · exact fun s t hsame h => h.of_same hsame
    · exact fun j hj s t _ _ h hleaves => h.of_leaves hleaves hj
  refine hobserve.bind fun status => ?_
  by_cases hmissing : status.state = .missing
  · rw [if_pos hmissing]
    exact .throw fun _ _ _ => trivial
  · rw [if_neg hmissing]
    refine .pure ?_
    rintro s _ ⟨⟨n, hn, hkind⟩, -, -⟩ status' hstatus
    obtain rfl := Except.ok.inj hstatus
    rw [hn]
    exact truthful_expected (congrArg some hkind)

theorem ensures_adopted : (rules resume_on_create starter session).Ensures i (Fresh i) adopted
      (fun status => Reports resume_on_create i (.ok status)) fun _ _ => True := by
  have hobserve : (rules resume_on_create starter session).Ensures i (Fresh i) observe
      (Observed (Fresh i) fun _ => True) fun _ _ => True :=
    (ensures_observe_only matters_fresh stable_fresh).weaken_error fun _ _ _ _ => trivial
  refine hobserve.bind fun status => ?_
  cases hstate : status.state with
  | running =>
    refine .pure ?_
    rintro s _ ⟨hfresh, -, -⟩ status' hstatus
    obtain rfl := Except.ok.inj hstatus
    rw [hfresh.1]
    exact truthful_attached rfl
  | exited =>
    refine .pure ?_
    rintro s _ ⟨hfresh, hkind, -⟩ status' hstatus
    obtain rfl := Except.ok.inj hstatus
    rw [hfresh.1]
    exact truthful_none hkind
  | missing => exact .throw fun _ _ _ => trivial

theorem ensures_ensure_session : (rules resume_on_create starter session).Ensures i (Fresh i) ensure_session
      (fun status => Reports resume_on_create i (.ok status)) fun _ _ => True := by
  refine .bind ((ensures_prepare matters_fresh stable_fresh).weaken_error
    fun _ _ _ _ => trivial) fun _ => ?_
  refine .bind (Q := fun created s => if created then s.2.busy
    = some (i, .creating) else Fresh i s)
    (Rules.Ensures.lift (Rules.Outline.lift ?_ ?_)) fun was_created => ?_
  · intro was_created j hj s t hs ht h hleaves
    cases was_created with
    | true => exact (hleaves.busy i _ (Ne.symm hj)).2 h
    | false => exact @stable_fresh resume_on_create starter session i j hj s t hs ht h hleaves
  · intro s choice r t hs hfresh hcareful hexec
    exact keeps_new_session hs hfresh hcareful hexec
  cases was_created with
  | true => exact ensures_created
  | false => exact ensures_adopted

theorem outline_ensure : (rules resume_on_create starter session).Outline i (Fresh i) ensure.run
      (Reports resume_on_create i) := by
  refine Rules.Outline.bind (Q := fun _ => Fresh i) (Rules.Outline.lift (fun _ => stable_fresh) ?_) fun _ => ?_
  · intro s choice r t hs hfresh _ hexec
    have hsame := same_of_reads rfl hexec
    exact ⟨hsame.kept hs, hsame.leaves, hfresh.of_same hsame⟩
  have hreports : (rules resume_on_create starter session).Outline i (Fresh i) ensure_session.run
      (Reports resume_on_create i) := by
    refine Rules.Outline.weaken ensures_ensure_session fun outcome s _ h => ?_
    cases outcome with
    | ok status => exact h
    | error error => exact fun status hstatus => by cases hstatus
  refine Rules.Outline.bind hreports fun outcome => ?_
  refine Rules.Outline.bind (Q := fun _ => Reports resume_on_create i outcome)
    (Rules.Outline.lift (fun _ => stable_reports outcome) ?_) fun _ => Rules.Outline.ret fun _ _ h => h
  intro s choice r t hs h _ hexec
  have hsame := same_of_reads rfl hexec
  refine ⟨hsame.kept hs, hsame.leaves, ?_⟩
  intro status hstatus
  rw [hsame.history]
  exact h status hstatus

/-! ### `stop` -/

theorem ensures_stop_session (hstarter : ¬starter i) : (rules resume_on_create starter session).Ensures i
      (fun s => Unstarted i s ∧ s.1.server.starts ≠ 0) stop_session
      (fun status => Reports resume_on_create i (.ok status)) fun _ _ => True := by
  refine Rules.Ensures.bind (Q := fun _ => Stopping i) (Rules.Ensures.lift (Rules.Outline.lift ?_ ?_))
    fun killed => ?_
  · exact fun _ j hj s t _ _ h hleaves => h.of_leaves hleaves hj
  · intro s choice r t hs h hcareful hexec
    exact keeps_kill hs hstarter h.1 h.2 hcareful hexec
  have hobserve : (rules resume_on_create starter session).Ensures i (Stopping i) observe
      (Observed (Stopping i) fun _ => True) fun _ _ => True := by
    refine (ensures_observe_only ?_ ?_).weaken_error fun _ _ _ _ => trivial
    · exact fun s t hsame h => h.of_same hsame
    · exact fun j hj s t _ _ h hleaves => h.of_leaves hleaves hj
  refine hobserve.bind fun observed => ?_
  by_cases hfailed : (!killed) = true ∧ observed.state ≠ .missing
  · rw [if_pos hfailed]
    exact .throw fun _ _ _ => trivial
  rw [if_neg hfailed]
  refine .bind (Q := fun _ s => Unstarted i s ∧ observed.attach_kind = none)
    (Rules.Ensures.lift (Rules.Outline.lift ?_ ?_)) fun _ => Rules.Ensures.pure ?_
  · exact fun _ j hj s t hs ht h hleaves =>
      ⟨@stable_unstarted resume_on_create starter session i j hj s t hs ht h.1 hleaves, h.2⟩
  · rintro s choice r t hs ⟨hstopping, hkind, -⟩ _ hexec
    obtain ⟨hkept, hleaves, hunstarted⟩ := keeps_set_true hs hstopping hexec
    exact ⟨hkept, hleaves, hunstarted, hkind⟩
  · rintro s _ ⟨hunstarted, hkind⟩ status hstatus
    obtain rfl := Except.ok.inj hstatus
    rw [show s.2.started_by i = none from hunstarted]
    exact truthful_none hkind

theorem ensures_stop (hstarter : ¬starter i) :
    (rules resume_on_create starter session).Ensures i (Unstarted i) stop
      (fun status => Reports resume_on_create i (.ok status)) fun _ _ => True := by
  have hobserve : (rules resume_on_create starter session).Ensures i (Unstarted i) observe
      (Observed (Unstarted i) fun s => s.1.server.starts ≠ 0) fun _ _ => True := by
    refine (ensures_observe matters_unstarted ?_ stable_unstarted ?_ ?_).weaken_error fun _ _ _ _ => trivial
    · intro s t hsame h
      rw [hsame.starts]
      exact h
    · intro j hj s t hs ht h hleaves
      have hmore := hleaves.starts
      have hstarts := h.2
      exact ⟨@stable_unstarted resume_on_create starter session i j hj s t hs ht h.1 hleaves, by omega⟩
    · intro s hs _ hsession hstarts
      exact hsession (hs.unstarted hstarts).1
  refine hobserve.bind fun status => ?_
  by_cases hmissing : status.state = .missing
  · rw [if_pos hmissing]
    refine .pure ?_
    rintro s _ ⟨hunstarted, hkind, -⟩ status' hstatus
    obtain rfl := Except.ok.inj hstatus
    rw [show s.2.started_by i = none from hunstarted]
    exact truthful_none hkind
  · rw [if_neg hmissing]
    exact (ensures_stop_session hstarter).mono fun s _ h => ⟨h.1, h.2.2 hmissing⟩

/-! ### `resume` -/

/-- What a resumption comes to. -/
structure Resumed (i : ℕ) (status : TerminalStatus) (s : Recorded) : Prop where
  kind : status.attach_kind = some .resumed
  later : Later i s
  sections : OnlyResuming i s

theorem ensures_respawn (pane_id : Text) :
    (rules resume_on_create starter session).Ensures i (Fresh i) (respawn pane_id) (Resumed i)
      fun _ => OnlyResuming i := by
  refine .bind ((ensures_prepare matters_fresh stable_fresh).weaken_error
    fun _ s _ h section_ hbusy => absurd hbusy (h.2 section_)) fun _ => ?_
  refine Rules.Ensures.bind (Q := Resuming i) (Rules.Ensures.lift (Rules.Outline.lift ?_ ?_))
    fun respawned => ?_
  · exact fun _ j hj s t _ _ h hleaves => h.of_leaves hleaves hj
  · intro s choice r t hs hfresh hcareful hexec
    exact keeps_respawn hs hfresh hcareful hexec
  have honly : ∀ s, Resuming i respawned s → OnlyResuming i s := by
    intro s h section_ hbusy
    rw [h.busy] at hbusy
    exact (Prod.mk.inj (Option.some.inj hbusy)).2.symm
  have hobserve : (rules resume_on_create starter session).Ensures i (Resuming i respawned) observe
      (Observed (Resuming i respawned) fun s => s.1.server.session ≠ none) fun _ => OnlyResuming i := by
    refine (ensures_observe ?_ ?_ ?_ ?_ fun _ _ _ h => h).weaken_error fun _ s _ h => honly s h
    · exact fun s t hsame h => h.of_same hsame
    · intro s t hsame h
      rw [hsame.session]
      exact h
    · exact fun j hj s t _ _ h hleaves => h.of_leaves hleaves hj
    · intro j hj s t _ _ h hleaves
      exact ⟨h.1.of_leaves hleaves hj, fun hnone => h.2 ((hleaves.held i _ (Ne.symm hj) h.1.busy).1 hnone)⟩
  refine hobserve.bind fun observed => ?_
  by_cases hrunning : observed.state = .running
  · rw [if_pos hrunning]
    have hlater : ∀ s, Resuming i respawned s → Later i s := by
      intro s h n hn
      cases hrespawned : respawned with
      | true =>
        obtain ⟨m, hm, hne⟩ := h.succeeded hrespawned
        obtain rfl := Option.some.inj (hm.symm.trans hn)
        exact hne
      | false =>
        rw [h.failed hrespawned] at hn
        cases hn
    refine .bind (Q := fun _ s => Later i s ∧ OnlyResuming i s)
      (Rules.Ensures.lift (Rules.Outline.lift ?_ ?_)) fun _ => Rules.Ensures.pure ?_
    · intro _ j hj s t hs ht h hleaves
      refine ⟨?_, @stable_only_resuming resume_on_create starter session i j hj s t hs ht h.2 hleaves⟩
      intro n hn
      rw [hleaves.started_by i (Ne.symm hj)] at hn
      exact h.1 n hn
    · rintro s choice r t hs ⟨hresuming, -, hthere⟩ _ hexec
      have hsession := hthere (by rw [hrunning]; exact fun h => by cases h)
      obtain ⟨hkept, hleaves, hstarted, hidle⟩ := keeps_set_false hs hresuming.busy hsession hexec
      refine ⟨hkept, hleaves, ?_, fun section_ hbusy => absurd hbusy (hidle section_)⟩
      intro n hn
      rw [hstarted] at hn
      exact hlater s hresuming n hn
    · exact fun s _ h => ⟨rfl, h.1, h.2⟩
  · rw [if_neg hrunning]
    split
    · exact .throw fun s _ h => honly s h.1
    · exact .throw fun s _ h => honly s h.1

theorem ensures_resume_once :
    (rules resume_on_create starter session).Ensures i (Fresh i) resume_once (Resumed i)
      fun _ => OnlyResuming i := by
  have honly : ∀ s, Fresh i s → OnlyResuming i s :=
    fun s h section_ hbusy => absurd hbusy (h.2 section_)
  have hobserve : (rules resume_on_create starter session).Ensures i (Fresh i) observe
      (Observed (Fresh i) fun _ => True) fun _ => OnlyResuming i :=
    (ensures_observe_only matters_fresh stable_fresh).weaken_error fun _ s _ h => honly s h
  refine hobserve.bind fun status => ?_
  split
  · exact (ensures_respawn _).mono fun s _ h => h.1
  · exact .throw fun s _ h => honly s h.1

theorem outline_resume : (rules resume_on_create starter session).Outline i (Fresh i) resume.run
      (Reports resume_on_create i) := by
  refine Rules.Outline.bind (Q := fun _ => Fresh i) (Rules.Outline.lift (fun _ => stable_fresh) ?_)
    fun joined => ?_
  · intro s choice r t hs hfresh _ hexec
    have hsame := same_of_reads rfl hexec
    exact ⟨hsame.kept hs, hsame.leaves, hfresh.of_same hsame⟩
  cases joined with
  | some task =>
    refine Rules.Outline.lift stable_reports ?_
    intro s choice outcome t hs hfresh _ hexec
    have hsame := same_of_reads rfl hexec
    refine ⟨hsame.kept hs, hsame.leaves, ?_⟩
    obtain ⟨outcome', houtcome, hanswer⟩ := Option.map_eq_some_iff.1 (step_and_record hexec).1
    obtain ⟨rfl, -⟩ := Prod.mk.inj hanswer
    intro status hstatus
    subst hstatus
    rw [hsame.history, hfresh.1]
    exact truthful_resumed (hs.results task status houtcome) fun n hn => by cases hn
  | none =>
    have hresumed : (rules resume_on_create starter session).Outline i (Fresh i) resume_once.run
        fun outcome s => (∀ status, outcome = .ok status → status.attach_kind = some .resumed
          ∧ Later i s) ∧ OnlyResuming i s := by
      refine Rules.Outline.weaken ensures_resume_once fun outcome s _ h => ?_
      cases outcome with
      | ok status =>
        have hresumed : Resumed i status s := h
        refine ⟨fun status' hstatus => ?_, hresumed.sections⟩
        obtain rfl := Except.ok.inj hstatus
        exact ⟨hresumed.kind, hresumed.later⟩
      | error error =>
        refine ⟨fun status hstatus => ?_, h⟩
        cases hstatus
    refine Rules.Outline.bind hresumed fun outcome => ?_
    refine Rules.Outline.bind (Q := fun _ => Reports resume_on_create i outcome)
      (Rules.Outline.lift (fun _ => stable_reports outcome) ?_) fun _ => Rules.Outline.ret fun _ _ h => h
    intro s choice r t hs h _ hexec
    obtain ⟨hkept, hleaves, hstarted⟩ := keeps_finish hs h.2
      (fun status hstatus => (h.1 status hstatus).1) hexec
    refine ⟨hkept, hleaves, fun status hstatus => ?_⟩
    rw [hstarted]
    exact truthful_resumed (h.1 status hstatus).1 (h.1 status hstatus).2

/-! ### The others -/

theorem ensures_status : (rules resume_on_create starter session).Ensures i (Unstarted i) observe
      (fun status => Reports resume_on_create i (.ok status)) fun _ _ => True := by
  refine ((ensures_observe_only matters_unstarted stable_unstarted).weaken ?_).weaken_error
    fun _ _ _ _ => trivial
  rintro status s _ ⟨hunstarted, hkind, -⟩ status' hstatus
  obtain rfl := Except.ok.inj hstatus
  rw [show s.2.started_by i = none from hunstarted]
  exact truthful_none hkind

theorem ensures_detach_client (id : Text) :
    (rules resume_on_create starter session).Ensures i (Unstarted i) (detach_client id)
      (fun status => Reports resume_on_create i (.ok status)) fun _ _ => True := by
  have hobserve : (rules resume_on_create starter session).Ensures i (Unstarted i) observe
      (Observed (Unstarted i) fun _ => True) fun _ _ => True :=
    (ensures_observe_only matters_unstarted stable_unstarted).weaken_error fun _ _ _ _ => trivial
  have hpure : ∀ status : TerminalStatus, (rules resume_on_create starter session).Ensures i
      (Observed (Unstarted i) (fun _ => True) status) (pure status : Handler TerminalStatus)
      (fun status => Reports resume_on_create i (.ok status)) fun _ _ => True := by
    intro status
    refine .pure ?_
    rintro s _ ⟨hunstarted, hkind, -⟩ status' hstatus
    obtain rfl := Except.ok.inj hstatus
    rw [show s.2.started_by i = none from hunstarted]
    exact truthful_none hkind
  refine hobserve.bind fun status => ?_
  by_cases hmissing : status.state = .missing
  · rw [if_pos hmissing]
    exact hpure status
  rw [if_neg hmissing]
  split
  · exact .throw fun _ _ _ => trivial
  rename_i client _
  refine .bind (Q := fun _ => Unstarted i) ?_ fun detached => ?_
  · exact (ensures_read (E := fun _ => True) rfl matters_unstarted stable_unstarted).mono fun s _ h => h.1
  refine hobserve.bind fun observed => ?_
  split
  · exact .throw fun _ _ _ => trivial
  · exact hpure observed

theorem outline_outside (hstarter : ¬starter i) :
    (rules resume_on_create starter session).Outline i (Unstarted i) Request.outside.program
      (Reports resume_on_create i) := by
  refine Rules.Outline.bind (Q := fun _ => Unstarted i) (Rules.Outline.lift (fun _ => stable_unstarted) ?_)
    fun _ => Rules.Outline.ret ?_
  · intro s choice r t hs hunstarted hcareful hexec
    obtain ⟨hkept, hleaves, hhistory⟩ := keeps_happen hs hstarter hcareful hexec
    refine ⟨hkept, hleaves, ?_⟩
    unfold Unstarted
    rw [hhistory]
    exact hunstarted
  · intro s _ hunstarted status hstatus
    obtain rfl := Except.ok.inj hstatus
    rw [show s.2.started_by i = none from hunstarted]
    exact truthful_none rfl

/-- What fails reports nothing. -/
theorem outline_of_ensures {handler : Handler TerminalStatus}
    (h : (rules resume_on_create starter session).Ensures i P handler
      (fun status => Reports resume_on_create i (.ok status)) fun _ _ => True) :
    (rules resume_on_create starter session).Outline i P handler.run (Reports resume_on_create i) := by
  refine Rules.Outline.weaken h fun outcome s _ houtcome => ?_
  cases outcome with
  | ok status => exact houtcome
  | error error => exact fun status hstatus => by cases hstatus

theorem outline_program (request : Request) (hstarter : starter i → request.starts) :
    (rules resume_on_create starter session).Outline i (Fresh i) request.program
      (Reports resume_on_create i) := by
  have hunstarted : ∀ s, Kept resume_on_create s → Fresh i s → Unstarted i s := fun s _ h => h.1
  cases request with
  | ensure => exact outline_ensure
  | status => exact (outline_of_ensures ensures_status).mono hunstarted
  | stop => exact (outline_of_ensures (ensures_stop hstarter)).mono hunstarted
  | resume => exact outline_resume
  | detach_client id => exact (outline_of_ensures (ensures_detach_client id)).mono hunstarted
  | outside => exact (outline_outside hstarter).mono hunstarted

end Calls

end AgentSpace.Terminal
