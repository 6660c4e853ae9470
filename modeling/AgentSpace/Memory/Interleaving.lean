/-
Mutations of the memory service by any number of clients.

The sections of `write_page`, `move_page` and `remove_page` run under the store
lock, so what holds of one section run on its own holds of it in every
interleaving (`serializable`). What a section promises about its outcome
(`Kept`) holds when its surroundings are favourable (`Favourable`).
-/
import AgentSpace.Memory.AllOrNothing
import AgentSpace.Memory.LinkGraph

set_option autoImplicit false

namespace AgentSpace.Memory

open Text Lib

/-! ## Reading a page back -/

/-- The page can be read, and is the given one. -/
def ReadsBack (ext : Externals) (d : Disk) (page : Page) : Prop :=
  ∀ (envs : ℕ → Env) (t : ℕ), (envs t).faults .resolve = none → (envs t).faults .read = none →
    ∃ read, ((read_page ext page.path).run.run (exec ext envs) ⟨d, t⟩).1 = .ok read
      ∧ read.Same page

variable {ext : Externals}

theorem readsBack_of_parse {d : Disk} {page : Page} {bytes : Bytes}
    {read : PageMetadata} (hbytes : d.read (page_file page.path) = some bytes)
    (hparse : parse_document ext.yaml ext.chrono bytes page.path.as_str = .ok (read, page.body))
    (hsame : read.Same page.metadata) (hrevision : page.revision = revision_of ext bytes) :
    ReadsBack ext d page := by
  intro envs t hresolve hread
  refine ⟨⟨page.path, read, page.body, revision_of ext bytes⟩, ?_,
    ⟨rfl, hsame, rfl, hrevision.symm⟩⟩
  have hcall : (exec ext envs (.read_bytes page.path) ⟨d, t⟩).1
      = .ok (bytes, revision_of ext bytes) := by
    simp [exec, read_bytes, hresolve, hread, hbytes, Except.map]
  have hrun : (Prog.lift (StoreCall.read_bytes page.path)).run (exec ext envs) ⟨d, t⟩
      = (.ok (bytes, revision_of ext bytes), ⟨d, t + 1⟩) := Prod.ext hcall rfl
  rw [read_page, Section.read_bytes, Fallible.run_bind, hrun]
  dsimp only
  rw [Section.of_except, Fallible.run_bind, Prog.run_ret, hparse]
  rfl

/-! ## What a section promises -/

/-- A mutation that succeeded is in effect, and no other page has changed. -/
def InEffect (ext : Externals) (d d' : Disk) : Request → Reply → Prop
  | .write request, .page page =>
    page.path = request.path ∧ ReadsBack ext d' page
      ∧ ∀ path, path ≠ request.path → d'.read (page_file path) = d.read (page_file path)
  | .move request, .moved outcome =>
    (∃ bytes, d.read (page_file request.source) = some bytes
        ∧ d'.read (page_file request.destination) = some bytes
        ∧ outcome.revision = revision_of ext bytes)
      ∧ d'.read (page_file request.source) = none
      ∧ ∀ path, path ≠ request.source → path ≠ request.destination →
        path.as_str ∉ outcome.updated_referrers →
          d'.read (page_file path) = d.read (page_file path)
  | .remove request, .removed =>
    d'.read (page_file request.path) = none
      ∧ ∀ path, path ≠ request.path → d'.read (page_file path) = d.read (page_file path)
  | _, _ => False

/-- What is promised of a section that found the disk `d` and left `d'`. -/
structure Kept (ext : Externals) (request : Request) (d d' : Disk)
    (result : Except MemoryError Reply) : Prop where
  error : ∀ e, result = .error e → ∀ path, d'.read (page_file path) = d.read (page_file path)
  ok : ∀ reply, result = .ok reply → InEffect ext d d' request reply

/-- The last field of a page's metadata does not end in a line break. Behind the
known fields stand the unknown ones; of the known ones `updated_by` is the last,
and if it is not there `created_by`. -/
def EndsPlainly (extra : Mapping) (created_by updated_by : Option Text) : Prop :=
  if extra ≠ [] then Value.chompEntries extra = extra
  else if updated_by.isSome then ∀ s ∈ updated_by, s.getLast? ≠ some '\n'
  else ∀ s ∈ created_by, s.getLast? ≠ some '\n'

/-- What a write may find, and be asked, without breaking its promise. -/
structure Readable (ext : Externals) (d : Disk) (request : WritePageRequest) : Prop where
  create : d.read (page_file request.path) = none → EndsPlainly [] request.actor request.actor
  update : ∀ bytes previous body, d.read (page_file request.path) = some bytes →
    parse_document ext.yaml ext.chrono bytes request.path.as_str = .ok (previous, body) →
      previous.created_at.InRfc3339
        ∧ EndsPlainly previous.extra previous.created_by (request.actor.or previous.updated_by)

/-- When a section keeps its promise: a write of a page whose metadata can be
expressed, while the clock shows a year of four digits; a move while the paths of
its replacements resolve again and its rollback can put the files back. -/
def Favourable (ext : Externals) (envs : ℕ → Env) (before after : Store) : Request → Prop
  | .write request => Readable ext before.disk request
      ∧ ∀ t, before.tick ≤ t → t < after.tick → (envs t).now.InRfc3339
  | .move _ => ∀ t, before.tick ≤ t → t < after.tick → Reresolves (envs t) ∧ RestoreWorks (envs t)
  | .remove _ => True

/-! ## Writes -/

theorem PageMetadata.chomp_eq_self {metadata : PageMetadata}
    (h : EndsPlainly metadata.extra metadata.created_by metadata.updated_by) :
    metadata.chomp = metadata := by
  have hmap : ∀ o : Option Text, (∀ s ∈ o, s.getLast? ≠ some '\n') → o.map Text.chomp = o := by
    rintro (_ | s) hs
    · rfl
    · exact congrArg some (if_neg (hs s rfl))
  rw [EndsPlainly] at h
  rw [PageMetadata.chomp]
  split_ifs at h ⊢
  · rw [h]
  · rw [hmap _ h]
  · rw [hmap _ h]

section Kept

variable {ext : Externals} {envs : ℕ → Env} {before after : Store}

variable {request : WritePageRequest}

/-- The metadata a write stores can be written down and read again. -/
theorem written_metadata_readable {now : DateTime} {metadata : PageMetadata} (hext : ext.Lawful)
    (hreadable : Readable ext before.disk request) (hnow : now.InRfc3339)
    (h : written_metadata ext request (stored ext before.disk request.path) now = .ok metadata) :
    metadata.WellFormed ∧ metadata.created_at.InRfc3339 ∧ metadata.updated_at.InRfc3339
      ∧ metadata.chomp = metadata := by
  rw [written_metadata.eq_def, stored] at h
  cases hread : before.disk.read (page_file request.path) with
  | some bytes =>
    simp only [hread, Option.map_some] at h
    cases hparse : parse_document ext.yaml ext.chrono bytes request.path.as_str with
    | error e => simp [hparse] at h
    | ok document =>
      obtain ⟨previous, body⟩ := document
      simp only [hparse, Except.ok.injEq] at h
      obtain ⟨hcreated, hplain⟩ := hreadable.update bytes previous body hread hparse
      have hwf := parse_document_wellFormed hext.yaml hparse
      subst h
      exact ⟨⟨⟨hwf.nodup, hwf.unknown⟩, hwf.unique_key, hwf.unique_value⟩, hcreated, hnow,
        PageMetadata.chomp_eq_self hplain⟩
  | none =>
    simp only [hread, Option.map_none] at h
    cases htitle : request.title with
    | none => simp [htitle] at h
    | some title =>
      simp only [htitle, Except.ok.injEq] at h
      subst h
      exact ⟨⟨⟨List.nodup_nil, by simp⟩, by simp, by simp⟩, hnow, hnow,
        PageMetadata.chomp_eq_self (hreadable.create hread)⟩

/-- A write that fails has changed no page. -/
theorem WriteEnds.error_frame {e : MemoryError}
    (h : WriteEnds ext envs before.disk before.tick request (.error e) after) (path : PagePath) :
    after.disk.read (page_file path) = before.disk.read (page_file path) := by
  rcases h.error e rfl with hsame | ⟨t, bytes, -, -, hw⟩
  · rw [hsame]
  · rcases write_bytes_cases (envs t) before.disk request.path bytes with
      ⟨e₁, d', hw', hframe⟩ | ⟨d', hw', -⟩
    · obtain rfl : d' = after.disk := congrArg Prod.snd (hw'.symm.trans hw)
      exact hframe _ (page_file_not_temporary _ _)
    · rw [hw] at hw'
      cases hw'

/-- A write that succeeds has put its document in place, and nothing else. -/
theorem WriteEnds.ok_frame {page : Page}
    (h : WriteEnds ext envs before.disk before.tick request (.ok page) after) :
    ∃ bytes, ∀ path, after.disk.read (page_file path)
      = if path = request.path then some bytes else before.disk.read (page_file path) := by
  obtain ⟨t', t, metadata, bytes, -, -, -, -, -, -, hw, -⟩ := h.ok page rfl
  rcases write_bytes_cases (envs t) before.disk request.path bytes with
    ⟨e₁, d', hw', -⟩ | ⟨d', hw', hframe⟩
  · rw [hw] at hw'
    cases hw'
  obtain rfl : d' = after.disk := congrArg Prod.snd (hw'.symm.trans hw)
  refine ⟨bytes, fun path => ?_⟩
  rw [hframe _ (page_file_not_temporary _ _)]
  by_cases hpath : path = request.path
  · rw [if_pos hpath, if_pos (congrArg page_file hpath)]
  · rw [if_neg hpath, if_neg fun heq => hpath (page_file_injective heq)]

theorem WriteEnds.kept {r : Except MemoryError Page}
    (hext : ext.Lawful) (h : WriteEnds ext envs before.disk before.tick request r after)
    (hfav : Favourable ext envs before after (.write request)) :
    Kept ext (.write request) before.disk after.disk (r.map Reply.page) := by
  refine ⟨fun e he path => ?_, fun reply hreply => ?_⟩
  · cases r with
    | ok page => cases he
    | error e' => exact h.error_frame path
  · cases r with
    | error e => cases hreply
    | ok page =>
      obtain rfl : Reply.page page = reply := Except.ok.inj hreply
      obtain ⟨t', t, metadata, bytes, ht', htt, ht, -, hmeta, hrender, hw, hpage⟩ := h.ok page rfl
      rcases write_bytes_cases (envs t) before.disk request.path bytes with
        ⟨e₁, d', hw', -⟩ | ⟨d', hw', hframe⟩
      · rw [hw] at hw'
        cases hw'
      obtain rfl : d' = after.disk := congrArg Prod.snd (hw'.symm.trans hw)
      obtain ⟨hwf, hcreated, hupdated, hchomp⟩ :=
        written_metadata_readable hext hfav.1 (hfav.2 t' ht' (by omega)) hmeta
      obtain ⟨read, hread, hsame⟩ := parse_render_document request.path.as_str hext.yaml
        hext.chrono hwf hcreated hupdated hrender
      rw [hchomp, or_self] at hsame
      subst hpage
      refine ⟨rfl, readsBack_of_parse ?_ hread hsame rfl, fun path hpath => ?_⟩
      · rw [hframe _ (page_file_not_temporary _ _), if_pos rfl]
      · rw [hframe _ (page_file_not_temporary _ _), if_neg]
        exact fun heq => hpath (page_file_injective heq)

/-! ## Moves and removals -/

theorem MoveEnds.kept {request : MovePageRequest} {r : Except MemoryError MoveOutcome}
    (h : MoveEnds ext envs before.disk before.tick request r after)
    (hfav : Favourable ext envs before after (.move request)) :
    Kept ext (.move request) before.disk after.disk (r.map Reply.moved) := by
  refine ⟨fun e he path => ?_, fun reply hreply => ?_⟩
  · cases r with
    | ok outcome => cases he
    | error e' =>
      rcases h.error e' rfl with hsame | ⟨t, source_bytes, reps, ht₀, ht, hc⟩
      · rw [hsame]
      · obtain ⟨hresolve, hrestore⟩ := hfav t ht₀ ht
        exact commit_move_error hc hresolve hrestore _ (page_file_not_temporary _ _)
  · cases r with
    | error e => cases hreply
    | ok outcome =>
      obtain rfl : Reply.moved outcome = reply := Except.ok.inj hreply
      obtain ⟨t, source_bytes, reps, -, -, hsource, -, hc, rfl⟩ := h.ok outcome rfl
      obtain ⟨-, hmoved⟩ := commit_move_ok hc
      refine ⟨⟨source_bytes, hsource, hmoved.arrived, rfl⟩, hmoved.gone,
        fun path hs ht hreps => ?_⟩
      refine hmoved.others _ (page_file_not_temporary _ _) ?_ ?_ fun r hr heq => hreps ?_
      · exact fun heq => hs (page_file_injective heq)
      · exact fun heq => ht (page_file_injective heq)
      · rw [page_file_injective heq]
        exact List.mem_map_of_mem (f := fun r => r.1.as_str) hr

theorem RemoveEnds.kept {request : RemovePageRequest} {r : Except MemoryError Unit}
    (h : RemoveEnds envs before.disk before.tick request r after) :
    Kept ext (.remove request) before.disk after.disk (r.map fun _ => Reply.removed) := by
  refine ⟨fun e he path => ?_, fun reply hreply => ?_⟩
  · cases r with
    | ok u => cases he
    | error e' =>
      rcases h.error e' rfl with hsame | ⟨t, -, -, hrm⟩
      · rw [hsame]
      · rcases remove_file_cases (envs t) before.disk request.path with
          ⟨e₁, hrm'⟩ | ⟨d', hrm', -⟩
        · have hdisk : after.disk = before.disk := congrArg Prod.snd (hrm.symm.trans hrm')
          rw [hdisk]
        · rw [hrm] at hrm'
          cases hrm'
  · cases r with
    | error e => cases hreply
    | ok u =>
      obtain rfl : Reply.removed = reply := Except.ok.inj hreply
      obtain ⟨t, -, -, hrm⟩ := h.ok u rfl
      rcases remove_file_cases (envs t) before.disk request.path with
        ⟨e₁, hrm'⟩ | ⟨d', hrm', hframe⟩
      · rw [hrm] at hrm'
        cases hrm'
      obtain rfl : d' = after.disk := congrArg Prod.snd (hrm'.symm.trans hrm)
      refine ⟨by rw [hframe, if_pos rfl], fun path hpath => ?_⟩
      rw [hframe, if_neg]
      exact fun heq => hpath (page_file_injective heq)

end Kept

/-! ## Any number of clients -/

/-- The section of a request. -/
def section_of (ext : Externals) (request : Request) :
    Prog StoreCall StoreCall.Answer (Except MemoryError Reply) :=
  (perform ext request).run

/-- A request may be turned away before its section, by validation or because the
lock cannot be taken; it is then answered with an error. -/
def turned_away (_ : Request) (result : Except MemoryError Reply) : Prop :=
  ∃ e, result = .error e

/-- How a section ends, by the kind of its request. -/
inductive SectionEnds (ext : Externals) (envs : ℕ → Env) (before : Store) :
    Request → Except MemoryError Reply → Store → Prop
  | write {request : WritePageRequest} {r : Except MemoryError Page} {after : Store} :
      WriteEnds ext envs before.disk before.tick request r after →
        SectionEnds ext envs before (.write request) (r.map Reply.page) after
  | «move» {request : MovePageRequest} {r : Except MemoryError MoveOutcome} {after : Store} :
      MoveEnds ext envs before.disk before.tick request r after →
        SectionEnds ext envs before (.move request) (r.map Reply.moved) after
  | remove {request : RemovePageRequest} {r : Except MemoryError Unit} {after : Store} :
      RemoveEnds envs before.disk before.tick request r after →
        SectionEnds ext envs before (.remove request) (r.map fun _ => Reply.removed) after

/-- Every section makes permitted calls, and ends in one of these ways. -/
theorem section_ends (ext : Externals) (envs : ℕ → Env) (request : Request) (before : Store) :
    (∀ x ∈ (section_of ext request).calls (exec ext envs) before, Permitted ext request x.1 x.2)
      ∧ SectionEnds ext envs before request ((section_of ext request).run (exec ext envs) before).1
        ((section_of ext request).run (exec ext envs) before).2 := by
  have hpre : OnDisk before.disk before.tick before := ⟨rfl, le_refl _⟩
  cases request with
  | write request =>
    obtain ⟨hcalls, r, hr, hends⟩ :=
      (write_page_spec ext envs before.disk before.tick request).fallible_map
        (f := Reply.page) before hpre
    refine ⟨hcalls, ?_⟩
    rw [show ((section_of ext (.write request)).run (exec ext envs) before).1
      = r.map Reply.page from hr]
    exact .write hends
  | move request =>
    obtain ⟨hcalls, r, hr, hends⟩ :=
      (move_page_spec ext envs before.disk before.tick request).fallible_map
        (f := Reply.moved) before hpre
    refine ⟨hcalls, ?_⟩
    rw [show ((section_of ext (.move request)).run (exec ext envs) before).1
      = r.map Reply.moved from hr]
    exact .move hends
  | remove request =>
    obtain ⟨hcalls, r, hr, hends⟩ :=
      (remove_page_spec ext envs before.disk before.tick request).fallible_map
        (f := fun _ => Reply.removed) before hpre
    refine ⟨hcalls, ?_⟩
    rw [show ((section_of ext (.remove request)).run (exec ext envs) before).1
      = r.map (fun _ => Reply.removed) from hr]
    exact .remove hends

/-- What a section promises, it keeps in favourable surroundings. -/
theorem SectionEnds.kept {envs : ℕ → Env} {before after : Store}
    {request : Request} {result : Except MemoryError Reply} (hext : ext.Lawful)
    (h : SectionEnds ext envs before request result after)
    (hfav : Favourable ext envs before after request) : Kept ext request before.disk after.disk result := by
  cases h with
  | write hends => exact hends.kept hext hfav
  | «move» hends => exact hends.kept hfav
  | remove hends => exact hends.kept

/-- **One section.** Every mutating call it makes is permitted at that moment, and
in favourable surroundings its promise is kept. -/
theorem section_spec (hext : ext.Lawful) (envs : ℕ → Env) (request : Request) (before : Store) :
    (∀ x ∈ (section_of ext request).calls (exec ext envs) before, Permitted ext request x.1 x.2)
      ∧ (Favourable ext envs before ((section_of ext request).run (exec ext envs) before).2 request →
        Kept ext request before.disk ((section_of ext request).run (exec ext envs) before).2.disk
          ((section_of ext request).run (exec ext envs) before).1) := by
  obtain ⟨hcalls, hends⟩ := section_ends ext envs request before
  exact ⟨hcalls, hends.kept hext⟩

section Clients

variable {ι : Type} [DecidableEq ι]

/-- Each mutating call of a section, finished or under way, was permitted on the
store it was made on. -/
structure Permits (ext : Externals)
    (c : Config ι Request StoreCall (Except MemoryError Reply) Store StoreCall.Answer) : Prop where
  finished : ∀ e ∈ c.log, ∀ x ∈ e.calls, Permitted ext e.request x.1 x.2
  under_way : ∀ i request before done p, c.phase i = .inside request before done p →
    ∀ x ∈ done, Permitted ext request x.1 x.2

/-- **No update is lost.** In every interleaving of the sections of any number of
clients, from any store, every mutating call is permitted on the store of its
moment; and every finished section whose surroundings were favourable has kept
its promise. -/
theorem no_lost_update (ext : Externals) (hext : ext.Lawful) (envs : ℕ → Env) (init : Store)
    (c : Config ι Request StoreCall (Except MemoryError Reply) Store StoreCall.Answer)
    (h : Relation.ReflTransGen (Step (exec ext envs) (section_of ext) turned_away) (Config.init init) c) :
    Permits ext c ∧ ∀ e ∈ c.log, Favourable ext envs e.before e.after e.request →
      Kept ext e.request e.before.disk e.after.disk e.result := by
  obtain ⟨last, hserial⟩ := serializable h
  refine ⟨⟨fun e he x hx => ?_, fun i request before done p hphase x hx => ?_⟩, fun e he => ?_⟩
  · refine (section_spec hext envs e.request e.before).1 x ?_
    rw [(hserial.atomic e he).calls]
    exact hx
  · -- the calls made so far are the first ones of the uninterrupted run
    have hlock := hserial.lock_of_inside (i := i) (by rw [hphase]; trivial)
    obtain ⟨-, q, done', p', hphase', -, hcalls⟩ := hserial.held i hlock
    obtain ⟨rfl, rfl, rfl, rfl⟩ : request = q ∧ before = last ∧ done = done' ∧ p = p' := by
      simpa [hphase] using hphase'
    refine (section_spec hext envs request before).1 x ?_
    rw [← hcalls]
    exact List.mem_append_left _ hx
  · have hrun := (hserial.atomic e he).run
    have hspec := (section_spec hext envs e.request e.before).2
    rw [hrun] at hspec
    exact hspec

end Clients

/-! ## One client -/

/-- A single section, carried out from a store. -/
def one_section (ext : Externals) (envs : ℕ → Env) (request : Request) (before : Store) :
    Entry Unit Request StoreCall (Except MemoryError Reply) Store :=
  ⟨(), request, before, ((section_of ext request).run (exec ext envs) before).1,
    ((section_of ext request).run (exec ext envs) before).2,
    (section_of ext request).calls (exec ext envs) before⟩

theorem reach_one_section (ext : Externals) (envs : ℕ → Env) (request : Request) (before : Store) :
    ∃ c : Config Unit Request StoreCall (Except MemoryError Reply) Store StoreCall.Answer,
      Relation.ReflTransGen (Step (exec ext envs) (section_of ext) turned_away)
        (Config.init before) c ∧ one_section ext envs request before ∈ c.log :=
  ⟨_, reach_entry () request (Config.init before) rfl rfl, by simp [one_section, Config.init]⟩

/-- A move whose first replacement does not resolve when it is to be backed up fails, and
the source is gone. -/
theorem commit_move_unresolved {d : Disk} {source destination : PagePath}
    {reps : List (PagePath × Bytes)} (bytes : Bytes) (hmov : Movable d source destination reps)
    (hreps : reps ≠ []) :
    ∃ e d', commit_move (faulty (.backup_resolve 0)) d source destination bytes reps = (.error e, d')
      ∧ d'.read (page_file source) = none := by
  have hother : ∀ step, step ≠ .backup_resolve 0 →
      (faulty (.backup_resolve 0)).faults step = none := fun step hne => if_neg hne
  rw [commit_move, check_move_ok.2 ⟨hmov, hother _ (by simp), hother _ (by simp),
    fun _ _ => hother _ (by simp)⟩]
  dsimp only
  rcases Movable.perform_move_outcome hmov with ⟨d', -, -, hall⟩ | ⟨e, d', -, ⟨step, hstep, hne⟩, -⟩
    | ⟨e, d', j, -, -, hne, -⟩ | ⟨e, d', j, hj, hp, hne, hprogress⟩
  · have hsome : (faulty (.backup_resolve 0)).faults (.backup_resolve 0)
        = some (.io "Input/output error") := by
      simp [faulty, single_fault]
    rw [(hall 0 (List.length_pos_iff.2 hreps)).2] at hsome
    cases hsome
  · refine absurd (hother step ?_) hne
    rintro rfl
    exact hstep trivial
  · exact absurd (hother _ (by simp)) hne
  · exact ⟨e, d', hp, hprogress.moved _ List.mem_cons_self (by simp)⟩

/-- `notes/alpha` is moved to `beta`, and the path of `notes/beta`, which links to it,
does not resolve when it is to be backed up: the request fails, and
`notes/alpha` is gone. -/
theorem move_page_loses_source :
    ¬∀ (ext : Externals) (envs : ℕ → Env) (init : Store)
      (c : Config Unit Request StoreCall (Except MemoryError Reply) Store StoreCall.Answer),
        ext.Lawful → Relation.ReflTransGen (Step (exec ext envs) (section_of ext) turned_away)
          (Config.init init) c →
        Permits ext c ∧ ∀ e ∈ c.log, Kept ext e.request e.before.disk e.after.disk e.result := by
  intro h
  obtain ⟨c, hreach, hmem⟩ := reach_one_section alpha_externals
    (fun _ => faulty (.backup_resolve 0)) (.move ⟨notes_alpha, root_beta, none, none⟩)
    linking_store
  have hkept := (h _ _ _ c alpha_externals_lawful hreach).2 _ hmem
  obtain ⟨e, d', hcommit, hgone⟩ := commit_move_unresolved
    (note_bytes "[x](alpha.md)\n".toList) movable_alpha (by simp)
  have hmove := run_move_alpha (fun _ => faulty (.backup_resolve 0)) fun _ => ⟨rfl, rfl, rfl⟩
  rw [hcommit] at hmove
  have hsection : (section_of alpha_externals (.move ⟨notes_alpha, root_beta, none, none⟩)).run
      (exec alpha_externals fun _ => faulty (.backup_resolve 0)) linking_store
      = (.error e, ⟨d', 6⟩) := Fallible.run_bind_of_error hmove
  have hfails : (one_section alpha_externals (fun _ => faulty (.backup_resolve 0))
      (.move ⟨notes_alpha, root_beta, none, none⟩) linking_store).result = .error e := by
    simp only [one_section, hsection]
  have hsame := hkept.error e hfails notes_alpha
  have hafter : (one_section alpha_externals (fun _ => faulty (.backup_resolve 0))
      (.move ⟨notes_alpha, root_beta, none, none⟩) linking_store).after = ⟨d', 6⟩ := by
    simp only [one_section, hsection]
  have hthere : linking_store.disk.read (page_file notes_alpha)
      = some (note_bytes "[x](alpha.md)\n".toList) := rfl
  rw [hafter] at hsame
  rw [show (one_section alpha_externals _ _ linking_store).before = linking_store from rfl, hthere,
    hgone] at hsame
  cases hsame

/-- A request to make a page. -/
def make_alpha : WritePageRequest :=
  ⟨notes_alpha, some "Note".toList, none, "[x](alpha.md)".toList, false, none, none⟩

/-- A store without pages. -/
def no_pages : Store := ⟨⟨∅, ∅⟩, 0⟩

theorem run_make (path : PagePath) :
    (section_of alpha_externals (.write { make_alpha with path := path })).run
        (exec alpha_externals calm) no_pages
      = (.ok (.page ⟨path, note, "[x](alpha.md)\n".toList,
          "4facd6fc162456e00b269f264e764dea258fa79d09686218e703ca06b6240943".toList⟩),
        ⟨(write_bytes (calm 2) no_pages.disk path (note_bytes "[x](alpha.md)\n".toList)).2, 3⟩) := by
  have hbody : normalize_body "[x](alpha.md)".toList = "[x](alpha.md)\n".toList := by decide
  have hrender : render_document alpha_externals.yaml alpha_externals.chrono note
      "[x](alpha.md)".toList = .ok (note_bytes "[x](alpha.md)\n".toList) := by
    refine (render_note _ ?_).trans ?_
    · rw [hbody]
      decide
    · rw [hbody]
  have hsize : (note_bytes "[x](alpha.md)\n".toList).size ≤ MAX_BODY_BYTES := by
    have hyaml := utf8_len_note_yaml_le
    have hlink : utf8_len "[x](alpha.md)\n".toList = 14 := by decide
    have hmax : MAX_BODY_BYTES = 1048576 := rfl
    rw [size_note_bytes, hlink]
    omega
  have hrevision : revision_of alpha_externals (note_bytes "[x](alpha.md)\n".toList)
      = "4facd6fc162456e00b269f264e764dea258fa79d09686218e703ca06b6240943".toList :=
    (revision_of_head _ _ _).trans (by decide)
  have hnone : no_pages.disk.read (page_file path) = none := by simp [no_pages, Disk.read]
  have hrun := run_write_page (d := no_pages.disk) { make_alpha with path := path }
    (calm_legible 0) rfl hnone rfl rfl hrender hsize
  rw [write_bytes_calm fun _ => rfl, hrevision] at hrun
  have hmade := Fallible.run_bind_of_ok (f := fun page => (pure (Reply.page page) : Section Reply))
    hrun
  rw [show normalize_body ({ make_alpha with path := path } : WritePageRequest).body = _ from hbody]
    at hmade
  exact hmade

/-- The page is made. -/
theorem run_make_alpha :
    ((section_of alpha_externals (.write make_alpha)).run (exec alpha_externals calm) no_pages).1
      = .ok (.page ⟨notes_alpha, note, "[x](alpha.md)\n".toList,
        "4facd6fc162456e00b269f264e764dea258fa79d09686218e703ca06b6240943".toList⟩) :=
  congrArg Prod.fst (run_make notes_alpha)

set_option maxRecDepth 4000 in
/-- The page is made, and reads back as it was returned. -/
theorem no_lost_update_make :
    InEffect alpha_externals no_pages.disk
      (one_section alpha_externals calm (.write make_alpha) no_pages).after.disk (.write make_alpha)
      (.page ⟨notes_alpha, note, "[x](alpha.md)\n".toList,
        "4facd6fc162456e00b269f264e764dea258fa79d09686218e703ca06b6240943".toList⟩) := by
  obtain ⟨c, hreach, hmem⟩ := reach_one_section alpha_externals calm (.write make_alpha) no_pages
  have hkept := (no_lost_update alpha_externals alpha_externals_lawful calm no_pages c hreach).2
    _ hmem ⟨⟨fun _ => by simp [EndsPlainly, make_alpha], fun bytes previous body hread _ => ?_⟩,
      fun t _ _ => ?_⟩
  · refine hkept.ok _ ?_
    simp only [one_section, run_make_alpha]
  · have hnone : no_pages.disk.read (page_file make_alpha.path) = none := by decide
    have hsome : no_pages.disk.read (page_file make_alpha.path) = some bytes := hread
    rw [hnone] at hsome
    cases hsome
  · exact (by decide : (⟨0, 0⟩ : DateTime).InRfc3339)

end AgentSpace.Memory
