/-
The runtime generation of a session.

`terminal_resume` and `terminal_ensure` count a resume into the record that they read before
they asked the agent host, under the lifecycle lock; `terminal_status`, `terminal_websocket`
and `kill_kernel` write whole records without it.
-/
import AgentSpace.Sessions.Handlers

set_option autoImplicit false

namespace AgentSpace.Sessions

open Text Lib

variable {ι Event : Type}

/-! ## What is counted -/

/-- The stored runtime generation; a session without a record has none. -/
def AppState.runtime_generation (s : AppState ι) : Option UInt64 :=
  s.sessions.bind SessionRecord.runtime_generation

/-- A runtime generation in the order of numbers, below all of them when there is none. -/
def in_order (generation : Option UInt64) : WithBot ℕ :=
  match generation with
  | none => ⊥
  | some generation => generation.toNat

/-- The stored runtime generation in this order. -/
def AppState.generation (s : AppState ι) : WithBot ℕ := in_order s.runtime_generation

/-- The resumes that are counted in the store. -/
def AppState.resumes (s : AppState ι) : ℕ := (s.runtime_generation.getD 0).toNat

/-- A terminal answer that reports a resume. -/
def Terminal.Resumed (terminal : Terminal) : Prop := terminal.attach_kind = some "resumed".toList

instance (terminal : Terminal) : Decidable terminal.Resumed :=
  inferInstanceAs (Decidable (_ = _))

/-- The number of answers that report a resume and were applied: that are part of an update
that did not fail. -/
def count_resumed (_ : ι) : (c : Call Event) → Reply c → AppState ι → ℕ → ℕ
  | .update (some terminal) _, (.ok () : Except StoreError Unit), _, n =>
    if terminal.Resumed then n + 1 else n
  | _, _, _, n => n

/-- The sessions with the number of resumes that were applied. -/
abbrev counted (store : SessionStore) : Exec ι (Call Event) (Choice Event) (AppState ι × ℕ) Reply :=
  with_history (exec store) count_resumed

/-- The requests that count a resume. -/
def Request.Advances : Request → Prop
  | .terminal_ensure | .terminal_resume => True
  | _ => False

instance : DecidablePred Request.Advances := fun request => by
  cases request <;> unfold Request.Advances <;> infer_instance

/-- What a call has to meet: an update that is made without the lifecycle lock is made with
the generation that is stored, and a resume is reported only to the requests that count it,
and not after the last number. -/
structure Current (requests : ι → Request) (i : ι) (c : Call Event) (s : AppState ι) : Prop where
  stored : ∀ applied session, c = .update applied session → s.session_lifecycle ≠ some i →
    ∀ stored ∈ s.sessions, stored.runtime_generation = session.runtime_generation
  resumed : ∀ terminal session, c = .update (some terminal) session → terminal.Resumed →
    (requests i).Advances ∧ s.resumes + 1 < 2 ^ 64

/-! ## Assertions -/

/-- What is shown of the requests: the stored generation is what it was in the beginning plus
the resumes that were applied; no call lowers it; and while a request holds the lock, the
others leave the generation and the lock to it. -/
def generation_rules (Event : Type) (store : SessionStore) (requests : ι → Request) (base : ℕ) :
    Rules ι (Call Event) (Choice Event) (AppState ι × ℕ) Reply where
  exec := counted store
  allow i c _ s := Current requests i c s.1
  invariant s := s.1.resumes = base + s.2
  guarantee i s t := s.1.generation ≤ t.1.generation ∧ ∀ j, j ≠ i →
    (s.1.session_lifecycle = some j →
      t.1.session_lifecycle = some j ∧ t.1.runtime_generation = s.1.runtime_generation)
    ∧ (t.1.session_lifecycle = some j → s.1.session_lifecycle = some j)

/-- The request does not hold the lock. -/
def Unlocked (i : ι) (s : AppState ι × ℕ) : Prop := s.1.session_lifecycle ≠ some i

/-- The request holds the lock. -/
def Locked (i : ι) (s : AppState ι × ℕ) : Prop := s.1.session_lifecycle = some i

/-- The request holds the lock and knows the generation. -/
def Knows (i : ι) (generation : Option UInt64) (s : AppState ι × ℕ) : Prop :=
  Locked i s ∧ s.1.runtime_generation = generation

section Rules

variable {store : SessionStore} {requests : ι → Request} {base : ℕ} {i : ι}

/-- An assertion about the lock and the generation that the other requests leave true. -/
structure IsLocal (rules : Rules ι (Call Event) (Choice Event) (AppState ι × ℕ) Reply) (i : ι)
    (P : AppState ι × ℕ → Prop) : Prop where
  stable : rules.Stable i P
  same : ∀ s t, t.1.runtime_generation = s.1.runtime_generation →
    t.1.session_lifecycle = s.1.session_lifecycle → P s → P t

theorem isLocal_unlocked : IsLocal (generation_rules Event store requests base) i (Unlocked i) := by
  refine ⟨fun j hj s t _ _ hs hguarantee ht => ?_, fun s t _ hlock hs => ?_⟩
  · exact hs ((hguarantee.2 i (Ne.symm hj)).2 ht)
  · rwa [Unlocked, hlock]

theorem isLocal_locked : IsLocal (generation_rules Event store requests base) i (Locked i) := by
  refine ⟨fun j hj s t _ _ hs hguarantee => ?_, fun s t _ hlock hs => ?_⟩
  · exact ((hguarantee.2 i (Ne.symm hj)).1 hs).1
  · rwa [Locked, hlock]

theorem isLocal_knows (generation : Option UInt64) :
    IsLocal (generation_rules Event store requests base) i (Knows i generation) := by
  refine ⟨fun j hj s t _ _ hs hguarantee => ?_, fun s t hgeneration hlock hs => ?_⟩
  · obtain ⟨hlock, hgeneration⟩ := (hguarantee.2 i (Ne.symm hj)).1 hs.1
    exact ⟨hlock, hgeneration.trans hs.2⟩
  · exact ⟨hlock.trans hs.1, hgeneration.trans hs.2⟩

/-! ## Calls -/

/-- A state with the same generation, lock and count. -/
theorem unchanged (Event : Type) (store : SessionStore) (requests : ι → Request) {i : ι}
    {s t : AppState ι × ℕ} (hs : s.1.resumes = base + s.2)
    (hgeneration : t.1.runtime_generation = s.1.runtime_generation)
    (hlock : ∀ j, j ≠ i → (t.1.session_lifecycle = some j ↔ s.1.session_lifecycle = some j))
    (hcount : t.2 = s.2) : (generation_rules Event store requests base).invariant t
      ∧ (generation_rules Event store requests base).guarantee i s t := by
  refine ⟨?_, ?_, fun j hj => ⟨fun h => ⟨(hlock j hj).2 h, hgeneration⟩, (hlock j hj).1⟩⟩
  · show t.1.resumes = base + t.2
    rw [hcount, ← hs]
    unfold AppState.resumes
    rw [hgeneration]
  · have hsame : t.1.generation = s.1.generation := by
      unfold AppState.generation
      rw [hgeneration]
    exact hsame.ge

theorem SameRecord.runtime_generation {s t : AppState ι} (h : SameRecord s t) :
    t.runtime_generation = s.runtime_generation := by
  unfold AppState.runtime_generation
  rcases h with h | ⟨existing, messages, hs, ht⟩
  · rw [h]
  · rw [hs, ht]
    rfl

theorem count_resumed_quiet {c : Call Event} (h : c.IsQuiet) (r : Reply c) (s : AppState ι) (n : ℕ) :
    count_resumed i c r s n = n := by
  cases c with
  | update applied session => exact absurd h id
  | _ => rfl

variable {E : ApiError → AppState ι × ℕ → Prop}

/-- The quiet calls keep every local assertion. -/
theorem ensures_quiet {P : AppState ι × ℕ → Prop}
    (hP : IsLocal (generation_rules Event store requests base) i P) {c : Call Event} (hquiet : c.IsQuiet) :
    (generation_rules Event store requests base).Ensures i P (Handler.ask c) (fun _ => P) E := by
  refine Rules.Outline.bind (Q := fun _ => P) ?_ fun r => Rules.Outline.ret fun s _ h => h
  refine Rules.Outline.lift (fun _ => hP.stable) fun s a r t hs hPs _ hexec => ?_
  obtain ⟨hexec, hcount⟩ := with_history_eq_some hexec
  obtain ⟨hrecord, hlock⟩ := exec_quiet hquiet hexec
  rw [count_resumed_quiet hquiet] at hcount
  have hgeneration := hrecord.runtime_generation
  obtain ⟨hinvariant, hguarantee⟩ := unchanged Event store requests hs hgeneration
    (fun j _ => by rw [hlock]) hcount
  exact ⟨hinvariant, hguarantee, hP.same s t hgeneration hlock hPs⟩

variable {applied : Option Terminal}

/-- What an update that does not fail leaves. -/
theorem update_eq_some {session : SessionRecord} {choice : Choice Event}
    {s t : AppState ι × ℕ} {r : Except StoreError Unit}
    (h : counted store i (.update applied session) choice s = some (r, t)) :
    (r = .ok () ∧ s.1.sessions.isSome ∧ t.1.runtime_generation = session.runtime_generation
        ∧ t.1.session_lifecycle = s.1.session_lifecycle
        ∧ t.2 = if ∃ terminal ∈ applied, terminal.Resumed then s.2 + 1 else s.2)
      ∨ ((∃ e, r = .error e) ∧ t = s) := by
  obtain ⟨hexec, hcount⟩ := with_history_eq_some h
  rcases write_eq_some hexec with ⟨updated, hupdate, rfl, hs⟩ | ⟨⟨e, rfl⟩, hs⟩
  · obtain ⟨existing, messages, created_at, hstored, rfl⟩ := update_eq_ok hupdate
    refine Or.inl ⟨rfl, by rw [hstored]; rfl, by rw [hs]; rfl, by rw [hs], ?_⟩
    rw [hcount]
    cases applied with
    | none | some terminal => simp [count_resumed]
  · refine Or.inr ⟨⟨e, rfl⟩, Prod.ext hs ?_⟩
    rw [hcount]
    cases applied <;> rfl

/-- **An update without the lock** writes the generation that is stored. -/
theorem ensures_update_unlocked
    (hadvances : ¬(requests i).Advances ∨ applied = none) (session : SessionRecord) :
    (generation_rules Event store requests base).Ensures i (Unlocked i)
      (Handler.ask (.update applied session)) (fun _ => Unlocked i) E := by
  refine Rules.Outline.bind (Q := fun _ => Unlocked i) ?_ fun r => Rules.Outline.ret fun s _ h => h
  refine Rules.Outline.lift (fun _ => isLocal_unlocked.stable) fun s a r t hs hunlocked hcurrent hexec => ?_
  rcases update_eq_some hexec with ⟨-, hstored, hgeneration, hlock, hcount⟩ | ⟨-, rfl⟩
  · obtain ⟨stored, hstored⟩ := Option.isSome_iff_exists.1 hstored
    have hsame : t.1.runtime_generation = s.1.runtime_generation := by
      rw [hgeneration, ← hcurrent.stored applied session rfl hunlocked stored hstored]
      unfold AppState.runtime_generation
      rw [hstored]
      rfl
    have hnone : ¬∃ terminal ∈ applied, terminal.Resumed := by
      rintro ⟨terminal, happlied, hresumed⟩
      rcases hadvances with hadvances | rfl
      · rw [Option.mem_def.1 happlied] at hcurrent
        exact hadvances (hcurrent.resumed terminal session rfl hresumed).1
      · cases happlied
    rw [if_neg hnone] at hcount
    obtain ⟨hinvariant, hguarantee⟩ := unchanged Event store requests hs hsame (fun j _ => by rw [hlock]) hcount
    exact ⟨hinvariant, hguarantee, fun h => hunlocked (hlock.symm.trans h)⟩
  · obtain ⟨hinvariant, hguarantee⟩ := unchanged Event store requests hs rfl (fun _ _ => Iff.rfl) rfl
    exact ⟨hinvariant, hguarantee, hunlocked⟩

theorem in_order_le_getD (generation : Option UInt64) :
    in_order generation ≤ in_order (some (generation.getD 0)) := by
  cases generation with
  | none => exact bot_le
  | some generation => exact le_refl _

theorem in_order_le_in_order {a b : UInt64} (h : a.toNat ≤ b.toNat) :
    in_order (some a) ≤ in_order (some b) := WithBot.coe_le_coe.2 h

/-- What is known after an update of a record with a generation. -/
def AfterUpdate (i : ι) (known written : Option UInt64) :
    Except StoreError Unit → AppState ι × ℕ → Prop
  | .ok () => Knows i written
  | .error _ => Knows i known

/-- **An update with the lock** of a generation that is known. -/
theorem ensures_update_locked {session : SessionRecord} {generation : Option UInt64}
    (hresumed : ∀ terminal ∈ applied, terminal.Resumed → (requests i).Advances →
      (generation.getD 0).toNat + 1 < 2 ^ 64 →
      session.runtime_generation = some (generation.getD 0 + 1))
    (hother : ¬(∃ terminal ∈ applied, terminal.Resumed) →
      session.runtime_generation = generation
        ∨ session.runtime_generation = some (generation.getD 0)) :
    (generation_rules Event store requests base).Ensures i (Knows i generation)
      (Handler.ask (.update applied session)) (AfterUpdate i generation session.runtime_generation) E := by
  refine Rules.Outline.bind (Q := AfterUpdate i generation session.runtime_generation) ?_
    fun r => Rules.Outline.ret fun s _ h => h
  refine Rules.Outline.lift (fun r => ?_) fun s a r t hs hknows hcurrent hexec => ?_
  · cases r with
    | ok _ | error _ => exact (isLocal_knows _).stable
  rcases update_eq_some hexec with ⟨rfl, hstored, hgeneration, hlock, hcount⟩ | ⟨⟨e, rfl⟩, rfl⟩
  · have hothers : ∀ j, j ≠ i → s.1.session_lifecycle ≠ some j := by
      rintro j hj hsome
      rw [hknows.1] at hsome
      exact hj (Option.some.inj hsome).symm
    have hknown : Knows i session.runtime_generation t := ⟨hlock.trans hknows.1, hgeneration⟩
    have hnumber : s.1.resumes = (generation.getD 0).toNat := by
      unfold AppState.resumes
      rw [hknows.2]
    have hbefore : s.1.generation = in_order generation := by
      unfold AppState.generation
      rw [hknows.2]
    have hafter : t.1.generation = in_order session.runtime_generation := by
      unfold AppState.generation
      rw [hgeneration]
    have hresumes : t.1.resumes = (session.runtime_generation.getD 0).toNat := by
      unfold AppState.resumes
      rw [hgeneration]
    have hs' : s.1.resumes = base + s.2 := hs
    by_cases happlied : ∃ terminal ∈ applied, terminal.Resumed
    · obtain ⟨terminal, hterminal, hres⟩ := happlied
      rw [if_pos ⟨terminal, hterminal, hres⟩] at hcount
      rw [Option.mem_def.1 hterminal] at hcurrent
      obtain ⟨hadvances, hbound⟩ := hcurrent.resumed terminal session rfl hres
      rw [hnumber] at hbound
      have hwritten := hresumed terminal hterminal hres hadvances hbound
      have hnext : (generation.getD 0 + 1).toNat = (generation.getD 0).toNat + 1 := by
        rw [UInt64.toNat_add]
        exact Nat.mod_eq_of_lt hbound
      refine ⟨?_, ⟨?_, fun j hj => ⟨fun h => absurd h (hothers j hj), fun h => ?_⟩⟩, hknown⟩
      · show t.1.resumes = base + t.2
        rw [hresumes, hwritten, hcount, Option.getD_some, hnext]
        omega
      · rw [hbefore, hafter, hwritten]
        refine (in_order_le_getD generation).trans (in_order_le_in_order ?_)
        rw [hnext]
        exact Nat.le_succ _
      · rwa [hlock] at h
    · rw [if_neg happlied] at hcount
      refine ⟨?_, ⟨?_, fun j hj => ⟨fun h => absurd h (hothers j hj), fun h => ?_⟩⟩, hknown⟩
      · show t.1.resumes = base + t.2
        rw [hresumes, hcount, ← hs', hnumber]
        rcases hother happlied with h | h <;> rw [h]
        rfl
      · rw [hbefore, hafter]
        rcases hother happlied with h | h <;> rw [h]
        exact in_order_le_getD generation
      · rwa [hlock] at h
  · obtain ⟨hinvariant, hguarantee⟩ := unchanged Event store requests hs rfl
      (fun _ _ => Iff.rfl) rfl
    exact ⟨hinvariant, hguarantee, hknows⟩

/-! ## Parts of handlers -/

section Parts

variable {α ε : Type} {P : AppState ι × ℕ → Prop} {E : ApiError → AppState ι × ℕ → Prop}

/-- A program of quiet calls keeps every local assertion. -/
theorem ensures_only {x : Handler Event α}
    (hP : IsLocal (generation_rules Event store requests base) i P) (h : Prog.OnlyE Call.IsQuiet x) :
    (generation_rules Event store requests base).Ensures i P x (fun _ => P) (fun _ => P) := by
  have houtline : (generation_rules Event store requests base).Outline i P x.run fun _ => P := by
    refine Rules.Outline.of_only h hP.stable fun c s a r t hquiet hs hPs _ hexec => ?_
    obtain ⟨hexec, hcount⟩ := with_history_eq_some hexec
    obtain ⟨hrecord, hlock⟩ := exec_quiet hquiet hexec
    rw [count_resumed_quiet hquiet] at hcount
    have hgeneration := hrecord.runtime_generation
    obtain ⟨hinvariant, hguarantee⟩ := unchanged Event store requests hs hgeneration
      (fun j (_ : j ≠ i) => by rw [hlock]) hcount
    exact ⟨hinvariant, hguarantee, hP.same s t hgeneration hlock hPs⟩
  refine houtline.weaken fun answer s _ h => ?_
  cases answer <;> exact h

theorem ensures_require {f : ε → ApiError} {answer : Except ε α} (hE : ∀ e s, P s → E e s) :
    (generation_rules Event store requests base).Ensures i P (Handler.require f answer) (fun _ => P) E := by
  cases answer with
  | ok a => exact .pure fun s _ h => h
  | error e => exact .throw fun s _ h => hE _ s h

/-- What is known after a read. -/
def AfterGet (i : ι) : Except StoreError (Option SessionRecord) → AppState ι × ℕ → Prop
  | .ok (some session) => Knows i session.runtime_generation
  | _ => Locked i

theorem ensures_require_session :
    (generation_rules Event store requests base).Ensures i (Locked i) require_session
      (fun session => Knows i session.runtime_generation) (fun _ => Locked i) := by
  refine .bind (Q := AfterGet i) ?_ fun answer => ?_
  · refine Rules.Outline.bind (Q := AfterGet i) ?_ fun r => Rules.Outline.ret fun s _ h => h
    refine Rules.Outline.lift (fun r => ?_) fun s a r t hs hlocked _ hexec => ?_
    · cases r with
      | error e => exact isLocal_locked.stable
      | ok session =>
        cases session with
        | none => exact isLocal_locked.stable
        | some session => exact (isLocal_knows _).stable
    obtain ⟨hexec, hcount⟩ := with_history_eq_some hexec
    obtain ⟨ht, hr⟩ := read_eq_some hexec
    obtain rfl : t = s := Prod.ext ht hcount
    obtain ⟨hinvariant, hguarantee⟩ := unchanged Event store requests (s := t) hs rfl
      (fun j (_ : j ≠ i) => Iff.rfl) rfl
    refine ⟨hinvariant, hguarantee, ?_⟩
    rcases hr with rfl | ⟨e, rfl⟩
    · cases hsessions : t.1.sessions with
      | none => exact hlocked
      | some session =>
        refine ⟨hlocked, ?_⟩
        unfold AppState.runtime_generation
        rw [hsessions]
        rfl
    · exact hlocked
  · cases answer with
    | error e => exact fun s _ h => h
    | ok session =>
      cases session with
      | none => exact .throw fun s _ h => h
      | some session => exact .pure fun s _ h => h

variable {session : SessionRecord} {generation : Option UInt64}

/-- An update with the lock of the generation that is known. -/
theorem ensures_sessions_update (h : session.runtime_generation = generation
      ∨ session.runtime_generation = some (generation.getD 0)) :
    (generation_rules Event store requests base).Ensures i (Knows i generation)
      (sessions_update session) (fun _ => Knows i session.runtime_generation) (fun _ => Locked i) := by
  refine .bind (ensures_update_locked (by simp) fun _ => h) fun answer => ?_
  cases answer with
  | ok _ => exact .pure fun s _ h => h
  | error e => exact .throw fun s _ h => h.1

theorem ensures_mark_runtime_error
    {error : ApiError} {Q : α → AppState ι × ℕ → Prop} (h : session.runtime_generation = generation) :
    (generation_rules Event store requests base).Ensures i (Knows i generation)
      (mark_runtime_error session error) Q (fun _ => Locked i) :=
  Rules.Ensures.bind (ensures_sessions_update (Or.inl h)) fun _ =>
    Rules.Ensures.throw fun _ _ h => h.1

theorem ensures_require_or_mark
    {f : ε → ApiError} {answer : Except ε α} (h : session.runtime_generation = generation) :
    (generation_rules Event store requests base).Ensures i (Knows i generation)
      (require_or_mark session f answer) (fun _ => Knows i generation) (fun _ => Locked i) := by
  cases answer with
  | ok a => exact .pure fun s _ h => h
  | error e => exact ensures_mark_runtime_error h

theorem ensures_persist_runtime (h : session.runtime_generation = generation
      ∨ session.runtime_generation = some (generation.getD 0)) :
    (generation_rules Event store requests base).Ensures i (Knows i generation)
      (persist_runtime session) (fun _ => Knows i session.runtime_generation) (fun _ => Locked i) := by
  refine .bind (ensures_update_locked (by simp) fun _ => h) fun answer => ?_
  cases answer with
  | ok _ => exact .pure fun s _ h => h
  | error e =>
    refine .bind (ensures_quiet (isLocal_knows generation) trivial) fun _ => ?_
    exact .throw fun s _ h => h.1

variable {terminal : Terminal}

/-- `apply_terminal_runtime_status` is an update that is labelled with the answer. -/
theorem ensures_apply_terminal {Q : AppState ι × ℕ → Prop} {E : ApiError → AppState ι × ℕ → Prop}
    {A : Except StoreError Unit → AppState ι × ℕ → Prop} (hfail : ∀ e s, P s → E e s)
    (hupdate : ∀ written : SessionRecord, written.runtime_generation = session.runtime_generation →
      (generation_rules Event store requests base).Ensures i P
        (Handler.ask (.update (some terminal) written)) A E)
    (hok : ∀ s, A (.ok ()) s → Q s) (herror : ∀ e s, A (.error e) s → E (.store e) s) :
    (generation_rules Event store requests base).Ensures i P
      (apply_terminal_runtime_status session terminal) (fun _ => Q) E := by
  unfold apply_terminal_runtime_status
  cases terminal.state with
  | none => exact .throw fun s _ h => hfail _ s h
  | some terminal_state =>
    refine .bind (ensures_require hfail) fun runtime_status => ?_
    refine .bind (hupdate _ rfl) fun answer => ?_
    cases answer with
    | ok _ => exact .pure fun s _ h => hok s h
    | error e => exact .throw fun s _ h => herror e s h

/-- Applied without the lock, by a request that counts no resume. -/
theorem ensures_apply_unlocked (hadvances : ¬(requests i).Advances) :
    (generation_rules Event store requests base).Ensures i (Unlocked i)
      (apply_terminal_runtime_status session terminal) (fun _ => Unlocked i) (fun _ => Unlocked i) :=
  ensures_apply_terminal (A := fun _ => Unlocked i) (fun _ _ h => h)
    (fun _ _ => ensures_update_unlocked (Or.inl hadvances) _) (fun _ h => h) fun _ _ h => h

/-- Applied with the lock, by a request that counts no resume. -/
theorem ensures_apply_locked (hadvances : ¬(requests i).Advances) :
    (generation_rules Event store requests base).Ensures i (Knows i session.runtime_generation)
      (apply_terminal_runtime_status session terminal) (fun _ => Locked i) (fun _ => Locked i) := by
  refine ensures_apply_terminal (A := AfterUpdate i session.runtime_generation
    session.runtime_generation) (fun _ _ h => h.1) (fun written hwritten => ?_)
    (fun _ h => h.1) fun _ _ h => h.1
  rw [← hwritten]
  exact ensures_update_locked (fun _ _ _ h => absurd h hadvances) fun _ => Or.inl rfl

theorem advance_of_resumed (h : terminal.Resumed)
    (hbound : (session.runtime_generation.getD 0).toNat + 1 < 2 ^ 64) :
    (advance_runtime_generation_if_resumed session terminal).runtime_generation
      = some (session.runtime_generation.getD 0 + 1) := by
  have hkind : terminal.attach_kind = some "resumed".toList := h
  unfold advance_runtime_generation_if_resumed
  rw [if_pos hkind]
  exact congrArg some (if_pos hbound)

theorem advance_of_not_resumed (h : ¬terminal.Resumed) :
    advance_runtime_generation_if_resumed session terminal = session := by
  have hkind : ¬terminal.attach_kind = some "resumed".toList := h
  unfold advance_runtime_generation_if_resumed
  rw [if_neg hkind]

/-- Applied with the lock, after the resume is counted. -/
theorem ensures_advance :
    (generation_rules Event store requests base).Ensures i (Knows i session.runtime_generation)
      (apply_terminal_runtime_status (advance_runtime_generation_if_resumed session terminal) terminal)
      (fun _ => Locked i) (fun _ => Locked i) := by
  refine ensures_apply_terminal (A := AfterUpdate i session.runtime_generation
    (advance_runtime_generation_if_resumed session terminal).runtime_generation)
    (fun _ _ h => h.1) (fun written hwritten => ?_) (fun _ h => h.1) fun _ _ h => h.1
  rw [← hwritten]
  refine ensures_update_locked (fun terminal' hterminal hresumed _ hbound => ?_) fun hnone => ?_
  · obtain rfl : terminal = terminal' := Option.some.inj hterminal
    rw [hwritten, advance_of_resumed hresumed hbound]
  · have hnot : ¬terminal.Resumed := fun h => hnone ⟨terminal, rfl, h⟩
    rw [hwritten, advance_of_not_resumed hnot]
    exact Or.inl rfl

/-- **The lifecycle lock** around a body. -/
theorem ensures_with_lifecycle {body : Handler Event α}
    (h : (generation_rules Event store requests base).Ensures i (Locked i) body (fun _ => Locked i)
      (fun _ => Locked i)) : (generation_rules Event store requests base).Ensures i (Unlocked i)
      (Handler.with_lifecycle body) (fun _ => Unlocked i) (fun _ => Unlocked i) := by
  have hbody : (generation_rules Event store requests base).Outline i (Locked i) body.run
      fun _ => Locked i := Rules.Outline.weaken h fun answer s _ hs => by cases answer <;> exact hs
  refine Rules.Outline.bind (Q := fun _ => Locked i) ?_ fun _ =>
    Rules.Outline.bind hbody fun answer =>
      Rules.Outline.bind (Q := fun _ => Unlocked i) ?_ fun _ => Rules.Outline.ret fun s _ hs => ?_
  · refine Rules.Outline.lift (fun _ => isLocal_locked.stable) fun s a r t hs hunlocked _ hexec => ?_
    obtain ⟨hexec, hcount⟩ := with_history_eq_some hexec
    obtain ⟨hfree, ht⟩ := exec_lock_eq_some hexec
    have hlock : t.1.session_lifecycle = some i := by rw [ht]
    obtain ⟨hinvariant, hguarantee⟩ := unchanged Event store requests (t := t) hs (by rw [ht]; rfl)
      (fun j (hj : j ≠ i) => by
        rw [hlock, hfree]
        exact ⟨fun h => absurd (Option.some.inj h).symm hj, fun h => by cases h⟩) hcount
    exact ⟨hinvariant, hguarantee, hlock⟩
  · refine Rules.Outline.lift (fun _ => isLocal_unlocked.stable) fun s a r t hs hlocked _ hexec => ?_
    obtain ⟨hexec, hcount⟩ := with_history_eq_some hexec
    have ht := exec_unlock_eq_some hexec
    have hfree : t.1.session_lifecycle = none := by rw [ht]
    have hlock : s.1.session_lifecycle = some i := hlocked
    obtain ⟨hinvariant, hguarantee⟩ := unchanged Event store requests (t := t) hs (by rw [ht]; rfl)
      (fun j (hj : j ≠ i) => by
        rw [hlock, hfree]
        exact ⟨fun h => (by cases h), fun h => absurd (Option.some.inj h).symm hj⟩) hcount
    exact ⟨hinvariant, hguarantee, by rw [Unlocked, hfree]; simp⟩
  · cases answer <;> exact hs

end Parts

/-! ## Requests -/

section Requests

variable (externals : Externals Event)

theorem ensures_ensure_cli_runtime_locked {session : SessionRecord} :
    (generation_rules Event store requests base).Ensures i (Knows i session.runtime_generation)
      (ensure_cli_runtime_locked externals session) (fun _ => Locked i) (fun _ => Locked i) := by
  have hknows : IsLocal (generation_rules Event store requests base) i
      (Knows i session.runtime_generation) := isLocal_knows _
  refine .bind (Q := fun _ => Knows i session.runtime_generation) ?_ fun validated => ?_
  · refine Rules.Outline.bind (Q := fun _ => Knows i session.runtime_generation) ?_ fun _ =>
      Rules.Outline.ret fun s _ h => h
    exact Rules.Outline.weaken
      (ensures_only hknows (only_require_cli_session externals trivial trivial))
      fun answer s _ h => by cases answer <;> exact h
  refine .bind (ensures_require_or_mark rfl) fun _ => ?_
  refine .bind (ensures_quiet hknows trivial) fun launch => ?_
  refine .bind (ensures_require_or_mark rfl) fun _ => ?_
  refine .bind (ensures_quiet hknows trivial) fun created => ?_
  refine .bind (ensures_require_or_mark rfl) fun upstream => ?_
  refine .bind (ensures_require_or_mark rfl) fun _ => ?_
  refine .bind (ensures_persist_runtime (Or.inr rfl)) fun _ => ?_
  refine .bind (ensures_quiet (isLocal_knows _) trivial) fun ensured => ?_
  refine .bind (ensures_require_or_mark rfl) fun terminal => ?_
  exact .bind ensures_advance fun _ => .pure fun _ _ h => h

theorem ensures_require_cli_session :
    (generation_rules Event store requests base).Ensures i (Locked i) (require_cli_session externals)
      (fun session => Knows i session.runtime_generation) (fun _ => Locked i) := by
  refine .bind ensures_require_session fun session => ?_
  have hknows : IsLocal (generation_rules Event store requests base) i
      (Knows i session.runtime_generation) := isLocal_knows _
  refine .bind (ensures_require fun _ _ h => h.1) fun _ => ?_
  refine .bind (ensures_quiet hknows trivial) fun _ => ?_
  refine .bind (ensures_require fun _ _ h => h.1) fun _ => ?_
  refine .bind (ensures_require fun _ _ h => h.1) fun _ => ?_
  exact .pure fun _ _ h => h

theorem ensures_return_error_if {P : AppState ι × ℕ → Prop} {E : ApiError → AppState ι × ℕ → Prop}
    {condition : Prop} [Decidable condition] {error : ApiError} (h : ∀ s, P s → E error s) :
    (generation_rules Event store requests base).Ensures i P
      (Handler.return_error_if condition error) (fun _ => P) E := by
  unfold Handler.return_error_if
  split_ifs
  · exact .throw fun s _ hs => h s hs
  · exact .pure fun s _ hs => hs

theorem ensures_require_cli_runtime :
    (generation_rules Event store requests base).Ensures i (Locked i) (require_cli_runtime externals)
      (fun session => Knows i session.runtime_generation) (fun _ => Locked i) := by
  refine .bind (ensures_require_cli_session externals) fun session => ?_
  refine .bind (ensures_return_error_if fun _ h => h.1) fun _ => ?_
  refine .bind (ensures_return_error_if fun _ h => h.1) fun _ => ?_
  exact .pure fun _ _ h => h

theorem ensures_ensure_cli_runtime : (generation_rules Event store requests base).Ensures i (Unlocked i)
      (ensure_cli_runtime externals) (fun _ => Unlocked i) (fun _ => Unlocked i) :=
  ensures_with_lifecycle <| .bind ensures_require_session fun _ =>
    ensures_ensure_cli_runtime_locked externals

theorem ensures_ensure_chat_runtime_locked {session : SessionRecord} :
    (generation_rules Event store requests base).Ensures i (Knows i session.runtime_generation)
      (ensure_chat_runtime_locked session) (fun _ => Locked i) (fun _ => Locked i) := by
  have hknows : IsLocal (generation_rules Event store requests base) i
      (Knows i session.runtime_generation) := isLocal_knows _
  unfold ensure_chat_runtime_locked
  split_ifs
  · refine .bind (ensures_quiet hknows trivial) fun answer => ?_
    have hupdate : ∀ session' : SessionRecord,
        session'.runtime_generation = session.runtime_generation →
        (generation_rules Event store requests base).Ensures i (Knows i session.runtime_generation)
          (do sessions_update session'; pure session') (fun _ => Locked i) (fun _ => Locked i) :=
      fun session' h => .bind (ensures_sessions_update (Or.inl h)) fun _ =>
        Rules.Ensures.pure fun _ _ h => h.1
    match answer with
    | .ok ⟨_, some status, _, _⟩ => exact hupdate _ rfl
    | .ok ⟨_, none, _, _⟩ => exact .pure fun _ _ h => h.1
    | .error (.Other detail) => exact .throw fun _ _ h => h.1
    | .error (.HttpStatus status) =>
      dsimp only
      split
      · rename_i h
        cases h
      · exact hupdate _ rfl
      · exact .throw fun _ _ h => h.1
  · refine .bind (ensures_quiet hknows trivial) fun env => ?_
    refine .bind (ensures_require_or_mark rfl) fun _ => ?_
    refine .bind (ensures_quiet hknows trivial) fun created => ?_
    refine .bind (ensures_require_or_mark rfl) fun upstream => ?_
    refine .bind (ensures_require_or_mark rfl) fun _ => ?_
    refine .bind (ensures_require_or_mark rfl) fun status => ?_
    exact .bind (ensures_persist_runtime (Or.inl rfl)) fun _ =>
      Rules.Ensures.pure fun _ _ h => h.1

theorem ensures_ensure_chat_runtime :
    (generation_rules Event store requests base).Ensures i (Unlocked i) ensure_chat_runtime
      (fun _ => Unlocked i) (fun _ => Unlocked i) := by
  refine ensures_with_lifecycle (Rules.Ensures.bind ?_ fun _ => ensures_ensure_chat_runtime_locked)
  refine .bind ensures_require_session fun session => ?_
  refine .bind (ensures_return_error_if fun _ h => h.1) fun _ => ?_
  exact .pure fun _ _ h => h

/-- The requests of which the generation is shown to count the resumes. -/
def Request.IsTerminal : Request → Prop
  | .reset_session | .stream_message _ | .send_message _ => False
  | _ => True

/-- **Every request** starts and ends without the lock, and keeps the count. -/
theorem outline_handler (hi : (requests i).IsTerminal) :
    (generation_rules Event store requests base).Outline i (Unlocked i)
      (handler externals (requests i)) (fun _ => Unlocked i) := by
  have hquiet : ∀ {c : Call Event}, c.IsQuiet →
      (generation_rules Event store requests base).Ensures i (Unlocked i) (Handler.ask c)
        (fun _ => Unlocked i) (fun _ => Unlocked i) := ensures_quiet isLocal_unlocked
  have hrequire : ∀ {α ε : Type} {f : ε → ApiError} {answer : Except ε α},
      (generation_rules Event store requests base).Ensures i (Unlocked i)
        (Handler.require f answer) (fun _ => Unlocked i) (fun _ => Unlocked i) :=
    ensures_require fun _ _ h => h
  have hruntime : (generation_rules Event store requests base).Ensures i (Unlocked i)
      (require_cli_runtime externals) (fun _ => Unlocked i) (fun _ => Unlocked i) :=
    ensures_only isLocal_unlocked (only_require_cli_runtime externals trivial trivial)
  have hrun : ∀ {α : Type} {x : Handler Event α},
      (generation_rules Event store requests base).Ensures i (Unlocked i) x
        (fun _ => Unlocked i) (fun _ => Unlocked i) →
      (generation_rules Event store requests base).Outline i (Unlocked i) x.run
        (fun _ => Unlocked i) := fun h => Rules.Outline.weaken h fun answer s _ hs => by
    cases answer <;> exact hs
  have hpure : ∀ {α : Type} {a : α}, (generation_rules Event store requests base).Ensures i
      (Unlocked i) (pure a : Handler Event α) (fun _ => Unlocked i) (fun _ => Unlocked i) :=
    Rules.Ensures.pure fun _ _ h => h
  cases hrequest : requests i with
  | terminal_status =>
    have hadvances : ¬(requests i).Advances := by simp [hrequest, Request.Advances]
    refine hrun (Rules.Ensures.bind ?_ fun _ => hpure)
    refine .bind hruntime fun session => ?_
    refine .bind (hquiet trivial) fun answer => ?_
    refine .bind hrequire fun terminal => ?_
    exact .bind (ensures_apply_unlocked hadvances) fun _ => hrequire
  | terminal_websocket =>
    have hadvances : ¬(requests i).Advances := by simp [hrequest, Request.Advances]
    refine hrun (Rules.Ensures.bind hruntime fun session => ?_)
    refine .bind (hquiet trivial) fun answer => ?_
    refine .bind hrequire fun terminal => ?_
    refine .bind (ensures_apply_unlocked hadvances) fun _ => ?_
    refine .bind (ensures_return_error_if fun _ h => h) fun _ => ?_
    exact .bind (hquiet trivial) fun _ => hrequire
  | terminal_ensure =>
    refine hrun (Rules.Ensures.bind ?_ fun _ => hpure)
    refine .bind (ensures_only isLocal_unlocked
      (only_require_cli_session externals trivial trivial)) fun session => ?_
    exact .bind (ensures_ensure_cli_runtime externals) fun _ => hrequire
  | terminal_resume =>
    refine hrun (Rules.Ensures.bind (ensures_with_lifecycle ?_) fun _ => hpure)
    refine .bind (ensures_require_cli_runtime externals) fun session => ?_
    refine .bind (ensures_quiet (isLocal_knows _) trivial) fun answer => ?_
    refine .bind (ensures_require fun _ _ h => h.1) fun terminal => ?_
    exact .bind ensures_advance fun _ => ensures_require fun _ _ h => h
  | terminal_stop =>
    have hadvances : ¬(requests i).Advances := by simp [hrequest, Request.Advances]
    refine hrun (Rules.Ensures.bind (ensures_with_lifecycle ?_) fun _ => hpure)
    refine .bind (ensures_require_cli_runtime externals) fun session => ?_
    refine .bind (ensures_quiet (isLocal_knows _) trivial) fun answer => ?_
    refine .bind (ensures_require fun _ _ h => h.1) fun terminal => ?_
    exact .bind (ensures_apply_locked hadvances) fun _ => ensures_require fun _ _ h => h
  | get_session =>
    refine hrun (Rules.Ensures.bind ?_ fun _ => hpure)
    refine .bind
      (ensures_only isLocal_unlocked (only_require_session trivial)) fun session => ?_
    split_ifs
    · exact hpure
    · exact ensures_ensure_chat_runtime
  | kill_kernel kernel_session_id =>
    refine hrun (Rules.Ensures.bind (hquiet trivial) fun listed => ?_)
    refine .bind hrequire fun sessions => ?_
    refine .bind (ensures_return_error_if fun _ h => h) fun _ => ?_
    refine .bind (hquiet trivial) fun destroyed => ?_
    refine .bind hrequire fun _ => ?_
    refine .bind (hquiet trivial) fun stored => ?_
    refine .bind hrequire fun session => ?_
    cases session with
    | none => exact hpure
    | some session =>
      dsimp only
      split_ifs
      · exact .bind (ensures_update_unlocked (Or.inr rfl) _) fun _ => hrequire
      · exact hpure
  | reset_session | stream_message turn | send_message turn =>
    rw [hrequest] at hi
    exact absurd hi id

end Requests

end Rules

/-! ## Runs -/

section Runs

variable [DecidableEq ι]

/-- The calls of a run meet what `Current` asks. -/
def Currently {α : Type} (requests : ι → Request)
    (s : Threads ι (Call Event) α (AppState ι × ℕ) Reply) (move : Move ι (Choice Event))
    (_ : Threads ι (Call Event) α (AppState ι × ℕ) Reply) : Prop :=
  ∀ c k, s.rest move.thread = .call c k → Current requests move.thread c s.state.1

/-- A call does not lower the stored generation. -/
def Monotone {α : Type} (s : Threads ι (Call Event) α (AppState ι × ℕ) Reply)
    (_ : Move ι (Choice Event)) (t : Threads ι (Call Event) α (AppState ι × ℕ) Reply) : Prop :=
  s.state.1.generation ≤ t.state.1.generation

/-- **The runtime generation counts resumes** in every run of any number of requests, as long as
no request writes without the lock a generation that it read before the last change, and the
agent host reports a resume only to the requests that count it. -/
theorem generation_counts_resumes {store : SessionStore} (externals : Externals Event)
    {requests : ι → Request} {s : AppState ι} {moves : List (Move ι (Choice Event))}
    {last : Threads ι (Call Event) (Except ApiError Unit) (AppState ι × ℕ) Reply}
    (hterminal : ∀ i, (requests i).IsTerminal) (hfree : s.session_lifecycle = none)
    (hrun : Run (Guarded (Advance (counted store)) (Currently requests))
      (requested externals requests (s, 0)) moves last) :
    Run (Guarded (Advance (counted store)) Monotone) (requested externals requests (s, 0)) moves last
      ∧ last.state.1.resumes = s.resumes + last.state.2 := by
  have hinit : (generation_rules Event store requests s.resumes).Outlined (fun i _ => Unlocked i)
      (requested externals requests (s, 0)) := by
    refine ⟨rfl, fun i => ⟨Unlocked i, isLocal_unlocked.stable, ?_, ?_⟩⟩
    · show s.session_lifecycle ≠ some i
      rw [hfree]
      simp
    · exact outline_handler externals (hterminal i)
  obtain ⟨hlast, hsteps⟩ := hinit.run hrun
  refine ⟨hsteps.mono fun _ _ _ hstep => ⟨hstep.1.1, hstep.2.1⟩, hlast.invariant⟩

end Runs

/-! ## A status that undoes a resume -/

/-- Identifiers that are all taken, and messages without content. -/
def plain_externals : Externals Unit where
  is_uuid _ := true
  flatten_text _ := []
  flatten_reasoning _ := []
  extract_tool_calls _ := []

/-- A CLI session with a live runtime. -/
def cli_session : SessionRecord where
  session_id := "s".toList
  agent_host_session_id := "s".toList
  status := "exited".toList
  interaction_mode := .Cli
  has_cli_harness := true
  cli_connection_id := none
  harness_session_id := some "b3f1".toList
  runtime_generation := some 0
  runtime_status := some .Exited
  workspace_volume_identity := some "s".toList
  launch_snapshot := some ⟨1, none, none⟩
  vscode_url := none
  free_port_url := none
  created_at := "2026-01-01T00:00:00Z".toList
  messages := []

/-- The session, and no request under way. -/
def cli_state : AppState Bool := ⟨some cli_session, none, none⟩

/-- One request for the status, and one that resumes. -/
def status_and_resume : Bool → Request
  | false => .terminal_status
  | true => .terminal_resume

/-- The answer to a status request, and to a resume. -/
def running (attach_kind : Option Text) : Choice Unit :=
  .terminal (.ok ⟨some "running".toList, attach_kind, none, some 1⟩)

/-- A request that reads the session. -/
def reads (i : Bool) : List (Move Bool (Choice Unit)) := [⟨i, .proceed⟩, ⟨i, .configuration (.ok ())⟩]

/-- The calls of the resume. -/
def resumes : List (Move Bool (Choice Unit)) :=
  [⟨true, .proceed⟩] ++ reads true
    ++ [⟨true, running (some "resumed".toList)⟩, ⟨true, .proceed⟩, ⟨true, .proceed⟩]

/-- What is left of a thread is its result. -/
def finished (p : Prog (Call Unit) Reply (Except ApiError Unit)) : Bool :=
  match p with
  | .ret (.ok ()) => true
  | _ => false

/-- A check of what `Currently` asks. -/
def is_current (requests : Bool → Request)
    (s : Threads Bool (Call Unit) (Except ApiError Unit) (AppState Bool × ℕ) Reply)
    (move : Move Bool (Choice Unit)) : Bool :=
  match s.rest move.thread with
  | .call (.update applied session) _ =>
    (s.state.1.session_lifecycle = some move.thread
        || s.state.1.sessions.all fun stored => stored.runtime_generation = session.runtime_generation)
      && applied.all fun terminal => ¬terminal.Resumed
        || ((requests move.thread).Advances && s.state.1.resumes + 1 < 2 ^ 64)
  | _ => true

theorem currently_of_is_current {requests : Bool → Request}
    {s t : Threads Bool (Call Unit) (Except ApiError Unit) (AppState Bool × ℕ) Reply}
    {move : Move Bool (Choice Unit)} (h : is_current requests s move = true) :
    Currently requests s move t := by
  intro c k hrest
  unfold is_current at h
  rw [hrest] at h
  constructor
  · rintro applied session rfl hlock stored hstored
    simp only [Bool.and_eq_true, Bool.or_eq_true, decide_eq_true_eq] at h
    rcases h.1 with hlocked | hall
    · exact absurd hlocked hlock
    · rw [Option.mem_def.1 hstored] at hall
      simpa using hall
  · rintro terminal session rfl hresumed
    simp only [Bool.and_eq_true, Option.all_some, Bool.or_eq_true, decide_eq_true_eq] at h
    rcases h.2 with hnot | hadvances
    · exact absurd hresumed hnot
    · exact hadvances

theorem generation_counts_one_resume :
    ∃ last, (last.state.2 = 1 ∧ ∀ i, (status_and_resume i).IsTerminal)
      ∧ Run (Guarded (Advance (counted .Sqlite)) Monotone)
        (requested plain_externals status_and_resume (cli_state, 0)) (resumes ++ reads false
          ++ [⟨false, running none⟩, ⟨false, .proceed⟩]) last
      ∧ last.state.1.resumes = cli_state.resumes + last.state.2 := by
  have hterminal : ∀ i, (status_and_resume i).IsTerminal := fun i => by cases i <;> trivial
  obtain ⟨last, hrun, hcount⟩ := exists_run_of_play (counted .Sqlite)
    (is_current status_and_resume) (fun _ _ _ h _ => currently_of_is_current h)
    (requested plain_externals status_and_resume (cli_state, 0))
    (resumes ++ reads false ++ [⟨false, running none⟩, ⟨false, .proceed⟩])
    (fun last => last.state.2 = 1) (by decide +kernel)
  exact ⟨last, ⟨by simpa using hcount, hterminal⟩,
    generation_counts_resumes plain_externals hterminal rfl hrun⟩

/-- **A status request undoes a resume**: it reads the session before the resume is counted, and
writes it after. -/
theorem stale_status_loses_resume :
    ∃ last, Run (Guarded (Advance (counted .Sqlite)) fun _ _ _ => True)
        (requested plain_externals status_and_resume (cli_state, 0)) (reads false ++ resumes
          ++ [⟨false, running none⟩, ⟨false, .proceed⟩]) last
      ∧ (∀ i, finished (last.rest i) = true)
      ∧ last.state.2 = 1 ∧ last.state.1.resumes ≠ cli_state.resumes + last.state.2 := by
  obtain ⟨last, hrun, hlast⟩ := exists_run_of_play (counted .Sqlite) (fun _ _ => true)
    (P := fun _ _ _ => True) (fun _ _ _ _ _ => trivial)
    (requested plain_externals status_and_resume (cli_state, 0))
    (reads false ++ resumes ++ [⟨false, running none⟩, ⟨false, .proceed⟩])
    (fun last => finished (last.rest false) && finished (last.rest true)
      && last.state.2 = 1 && last.state.1.resumes ≠ cli_state.resumes + 1) (by decide +kernel)
  simp only [Bool.and_eq_true, decide_eq_true_eq] at hlast
  obtain ⟨⟨⟨hfalse, htrue⟩, hcount⟩, hresumes⟩ := hlast
  refine ⟨last, hrun, fun i => ?_, hcount, by rwa [hcount]⟩
  cases i with
  | false => exact hfalse
  | true => exact htrue

end AgentSpace.Sessions
