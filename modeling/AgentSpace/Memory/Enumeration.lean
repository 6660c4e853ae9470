/-
Which pages a listing finds, and when two reports agree on a broken link.

`walk` parses file names with their suffix, against the limit of a logical path. A page
whose path leaves no room for the suffix (`Listed`) is stored and read, and neither a
listing nor a scan finds it. `links` looks at the file of a target and `check` at the scan.
-/
import AgentSpace.Lib.Transition
import AgentSpace.Memory.Interleaving
import AgentSpace.Memory.Queries

set_option autoImplicit false

namespace AgentSpace.Memory

open Text Lib

/-! ## The pages of a run -/

/-- A section and how it ended. -/
abbrev Outcome := Request × Except MemoryError Reply

/-- A section runs, from one store to the next. -/
def Performed (ext : Externals) (envs : ℕ → Env) (before : Store) (outcome : Outcome)
    (after : Store) : Prop :=
  (section_of ext outcome.1).run (exec ext envs) before = (outcome.2, after)

/-- The pages there should be behind one more section: a page is there from the
write or the move that made it until the move or the removal that takes it away. -/
def pages_after (pages : List PagePath) : Outcome → List PagePath
  | (.write request, .ok _) => request.path :: pages
  | (.move request, .ok _) => request.destination :: pages.filter (· ≠ request.source)
  | (.remove request, .ok _) => pages.filter (· ≠ request.path)
  | (_, .error _) => pages

/-- A move that fails can put the files back. -/
def Unharmed (envs : ℕ → Env) (before : Store) (outcome : Outcome) (after : Store) : Prop :=
  match outcome with
  | (.move _, .error _) =>
    ∀ t, before.tick ≤ t → t < after.tick → Reresolves (envs t) ∧ RestoreWorks (envs t)
  | _ => True

/-- The pages are on the disk. -/
def Present (d : Disk) (pages : List PagePath) : Prop :=
  ∀ path ∈ pages, d.read (page_file path) ≠ none

section Steps

variable {ext : Externals} {envs : ℕ → Env} {before after : Store} {pages : List PagePath}

theorem WriteEnds.present {request : WritePageRequest} {page : Page}
    (h : WriteEnds ext envs before.disk before.tick request (.ok page) after)
    (hpages : Present before.disk pages) : Present after.disk (request.path :: pages) := by
  obtain ⟨bytes, hframe⟩ := h.ok_frame
  intro path hpath
  rw [hframe]
  by_cases heq : path = request.path
  · rw [if_pos heq]
    simp
  · rw [if_neg heq]
    exact hpages path ((List.mem_cons.1 hpath).resolve_left heq)

theorem MoveEnds.present {request : MovePageRequest} {outcome : MoveOutcome}
    (h : MoveEnds ext envs before.disk before.tick request (.ok outcome) after)
    (hpages : Present before.disk pages) :
    Present after.disk (request.destination :: pages.filter (· ≠ request.source)) := by
  obtain ⟨t, source_bytes, reps, -, -, -, hc, hcommit, -⟩ := h.ok outcome rfl
  obtain ⟨-, hmoved⟩ := commit_move_ok hcommit
  intro path hpath
  by_cases hdest : path = request.destination
  · rw [hdest, hmoved.arrived]
    simp
  obtain ⟨hmem, hsource⟩ := List.mem_filter.1 ((List.mem_cons.1 hpath).resolve_left hdest)
  have hsource : path ≠ request.source := by simpa using hsource
  by_cases hrep : ∃ r ∈ reps, r.1 = path
  · -- a referrer that was rewritten is still there
    obtain ⟨r, hr, rfl⟩ := hrep
    rw [hmoved.replaced r hr]
    simp
  · rw [hmoved.others _ (page_file_not_temporary _ _) (fun heq => hsource (page_file_injective heq))
      (fun heq => hdest (page_file_injective heq))
      fun r hr heq => hrep ⟨r, hr, (page_file_injective heq).symm⟩]
    exact hpages path hmem

theorem MoveEnds.present_of_error {request : MovePageRequest} {e : MemoryError}
    (h : MoveEnds ext envs before.disk before.tick request (.error e) after)
    (hfav : ∀ t, before.tick ≤ t → t < after.tick → Reresolves (envs t) ∧ RestoreWorks (envs t))
    (hpages : Present before.disk pages) : Present after.disk pages := by
  intro path hpath
  rw [(h.kept hfav).error e rfl path]
  exact hpages path hpath

theorem RemoveEnds.present (ext : Externals) {request : RemovePageRequest} {u : Unit}
    (h : RemoveEnds envs before.disk before.tick request (.ok u) after)
    (hpages : Present before.disk pages) : Present after.disk (pages.filter (· ≠ request.path)) := by
  intro path hpath
  obtain ⟨hmem, hne⟩ := List.mem_filter.1 hpath
  have hkept : Kept ext (.remove request) before.disk after.disk (.ok .removed) := h.kept
  obtain ⟨-, hothers⟩ := hkept.ok _ rfl
  rw [hothers path (by simpa using hne)]
  exact hpages path hmem

/-- **One section.** -/
theorem Performed.present {outcome : Outcome} (h : Performed ext envs before outcome after)
    (hunharmed : Unharmed envs before outcome after) (hpages : Present before.disk pages) :
    Present after.disk (pages_after pages outcome) := by
  obtain ⟨request, result⟩ := outcome
  obtain ⟨-, hends⟩ := section_ends ext envs request before
  rw [show (section_of ext request).run (exec ext envs) before = (result, after) from h] at hends
  cases hends with
  | @write request r _ hends =>
    cases r with
    | ok page => exact hends.present hpages
    | error e =>
      intro path hpath
      rw [hends.error_frame path]
      exact hpages path hpath
  | @«move» request r _ hends =>
    cases r with
    | ok outcome => exact hends.present hpages
    | error e => exact hends.present_of_error hunharmed hpages
  | @remove request r _ hends =>
    cases r with
    | ok u => exact hends.present ext hpages
    | error e =>
      have hkept : Kept ext (.remove request) before.disk after.disk (.error e) := hends.kept
      intro path hpath
      rw [hkept.error e rfl path]
      exact hpages path hpath

end Steps

variable {ext : Externals}

/-- **Runs.** What a run has written or moved, and not removed since, is on the
disk. -/
theorem run_present {envs : ℕ → Env} {init last : Store} {outcomes : List Outcome} {pages : List PagePath}
    (h : Run (Guarded (Performed ext envs) (Unharmed envs)) init outcomes last)
    (hpages : Present init.disk pages) : Present last.disk (outcomes.foldl pages_after pages) := by
  induction h generalizing pages with
  | nil s => exact hpages
  | cons hstep _ ih => exact ih (hstep.1.present hstep.2 hpages)

/-! ## Enumeration -/

/-- A listing and a scan of the disk both find the page. -/
def Enumerated (env : Env) (d : Disk) (path : PagePath) : Prop :=
  ∃ pages scanned, list_pages env d = .ok pages ∧ scan env d = .ok scanned
    ∧ path ∈ pages ∧ ∃ entry ∈ scanned, entry.parsed = some path

theorem enumerated_iff {env : Env} {d : Disk} {path : PagePath} (hscan : env.faults .scan = none) :
    Enumerated env d path ↔ path ∈ d.pages := by
  have hlist : list_pages env d = .ok d.pages := by
    simp [list_pages, hscan, Disk.pages]
  have hscanned : scan env d = .ok d.scanned := by
    simp [scan, hscan, Disk.scanned]
  constructor
  · rintro ⟨pages, scanned, hpages, -, hmem, -⟩
    rw [hlist] at hpages
    rwa [Except.ok.inj hpages]
  · intro hmem
    have hparsed := mem_parsed_scanned.2 hmem
    rw [List.mem_filterMap] at hparsed
    exact ⟨_, _, hlist, hscanned, hmem, hparsed⟩

/-! ## Agreement on broken links -/

/-- The two reports agree on a link of the page. -/
def Agrees (report : CheckReport) (path : PagePath) (link : PageLink) : Prop :=
  link.broken = true ↔ ∃ resolved, link.resolved_path = some resolved ∧ report.Breaks path resolved

/-- The target of a link that is there is listed, if the page with the link is; and
a page whose link leads nowhere is listed. -/
def Visible (d : Disk) (path q : PagePath) : Prop :=
  (d.read (page_file q) ≠ none → Listed path → Listed q)
    ∧ (d.read (page_file q) = none → Listed path)

theorem agrees_iff {envs : ℕ → Env} {s : Store} {report : CheckReport}
    {path q : PagePath} {bytes : Bytes} {metadata : PageMetadata} {body : Text} {link : ParsedLink}
    (hcalm : Undisturbed envs) (hd : s.disk.Named)
    (hcheck : ((check ext).run.run (exec ext envs) s).1 = .ok report)
    (hread : s.disk.read (page_file path) = some bytes)
    (hparse : parse_document ext.yaml ext.chrono bytes path.as_str = .ok (metadata, body))
    (hlink : link ∈ parse_links path body) (hq : link.resolved = some q) :
    Agrees report path (page_link s.disk link) ↔ Visible s.disk path q := by
  have hbroken : (page_link s.disk link).broken = true ↔ s.disk.read (page_file q) = none := by
    simp [page_link, hq, Disk.is_file]
  have hbreaks : (∃ resolved, (page_link s.disk link).resolved_path = some resolved
      ∧ report.Breaks path resolved) ↔ Listed path ∧ q ∉ s.disk.pages := by
    have hresolved : (page_link s.disk link).resolved_path = some q.as_str := by
      simp [page_link, hq]
    rw [hresolved]
    constructor
    · rintro ⟨resolved, heq, hbreaks⟩
      obtain ⟨hmem, -, -, -, -, -, -, -, q', -, hnot, hstr⟩ := (breaks_iff hcalm hcheck _ _).1 hbreaks
      rw [← Option.some.inj heq] at hstr
      exact ⟨((mem_pages_iff hd).1 hmem).2, PagePath.as_str_injective hstr ▸ hnot⟩
    · rintro ⟨hlisted, hnot⟩
      refine ⟨_, rfl, (breaks_iff hcalm hcheck _ _).2 ⟨(mem_pages_iff hd).2 ⟨?_, hlisted⟩, bytes,
        metadata, body, hread, hparse, link, hlink, q, hq, hnot, rfl⟩⟩
      rw [hread]
      simp
  unfold Agrees Visible
  rw [hbroken, hbreaks, mem_pages_iff hd]
  by_cases hthere : s.disk.read (page_file q) = none <;> by_cases hp : Listed path <;>
    by_cases hl : Listed q <;> simp [hthere, hp, hl]

/-! ## Both together -/

/-- **Which pages are enumerated, and when the reports agree.** In every run of
sections in which a move that fails puts the files back, a page that was written
or moved and not removed since is enumerated if and only if its path leaves room
for the suffix. On every disk, for every link that `links` reports of a page, its
flag agrees with the report of `check` if and only if target and page are visible
to the scan in the sense of `Visible`. -/
theorem enumerated_and_agrees_iff (ext : Externals) (envs : ℕ → Env) :
    (∀ (init last : Store) (outcomes : List Outcome) (env : Env) (path : PagePath),
      Run (Guarded (Performed ext envs) (Unharmed envs)) init outcomes last →
      env.faults .scan = none → path ∈ outcomes.foldl pages_after [] →
        (Enumerated env last.disk path ↔ Listed path))
    ∧ ∀ (s s' : Store) (path : PagePath) (include_backlinks : Bool) (found : LinksReport)
        (report : CheckReport), s.disk = s'.disk → s.disk.Named → Undisturbed envs →
      ((links ext path include_backlinks).run.run (exec ext envs) s).1 = .ok found →
      ((check ext).run.run (exec ext envs) s').1 = .ok report →
        ∀ link ∈ found.outgoing, Agrees report path link ↔
          ∀ q, link.resolved_path = some (PagePath.as_str q) → Visible s.disk path q := by
  refine ⟨fun init last outcomes env path hrun hscan hmem => ?_,
    fun s s' path include_backlinks found report hdisk hd hcalm hlinks hcheck link hlink => ?_⟩
  · have hnothing : Present init.disk [] := by simp [Present]
    have hthere := run_present hrun hnothing path hmem
    rw [enumerated_iff hscan]
    constructor
    · exact fun h => listed_of_mem_list_pages h
    · exact fun h => mem_list_pages h hthere
  · have hreads : ∀ (s : Store) (c : StoreCall), ¬c.Mutates → (fun _ _ => True) s c :=
      fun _ _ _ => trivial
    obtain ⟨bytes, metadata, body, hread, hparse, houtgoing⟩ :=
      ((links_spec hreads path include_backlinks s
        ⟨rfl, le_refl s.tick⟩).2).2 found hlinks
    rw [houtgoing] at hlink
    obtain ⟨parsed, hparsed, rfl⟩ := List.mem_map.1 hlink
    rw [hdisk] at hread hd ⊢
    cases hq : parsed.resolved with
    | none => simp [Agrees, page_link, hq]
    | some q =>
      rw [agrees_iff hcalm hd hcheck hread hparse hparsed hq]
      have hresolved : (page_link s'.disk parsed).resolved_path = some q.as_str := by
        simp [page_link, hq]
      rw [hresolved]
      constructor
      · intro h q' heq
        rwa [← PagePath.as_str_injective (Option.some.inj heq)]
      · exact fun h => h q rfl

theorem page_issues_parsed {valid_paths : List PagePath} {path : PagePath}
    {bytes : Bytes} {revision : Text} {metadata : PageMetadata} {body : Text}
    (h : parse_document ext.yaml ext.chrono bytes path.as_str = .ok (metadata, body)) :
    page_issues ext valid_paths path (.ok (bytes, revision))
      = duplicate_tags path metadata.tags [] ++ broken_links valid_paths path body := by
  unfold page_issues
  dsimp only
  rw [h]

theorem run_check_linking_store : (check alpha_externals).run.run (exec alpha_externals calm) linking_store
      = (.ok ⟨[]⟩, ⟨linking_store.disk, 3⟩) := by
  have hscan : Section.scan.run.run (exec alpha_externals calm) linking_store
      = (.ok [⟨"notes/alpha.md".toList, some notes_alpha⟩, ⟨"notes/beta.md".toList, some notes_beta⟩],
        ⟨linking_store.disk, 1⟩) := by
    unfold linking_store
    generalize note_bytes _ = bytes
    rfl
  have hread : ∀ path t, linking_store.disk.read (page_file path)
      = some (note_bytes "[x](alpha.md)\n".toList) →
      (try_read_bytes path).run.run (exec alpha_externals calm) ⟨linking_store.disk, t⟩
        = (.ok (.ok (note_bytes "[x](alpha.md)\n".toList,
            revision_of alpha_externals (note_bytes "[x](alpha.md)\n".toList))),
          ⟨linking_store.disk, t + 1⟩) := by
    intro path t h
    have hrun : (Prog.lift (StoreCall.read_bytes path)).run (exec alpha_externals calm)
        ⟨linking_store.disk, t⟩ = _ := run_read_bytes (calm_legible t) h
    refine (Prog.run_bind (exec alpha_externals calm) _ _ _).trans ?_
    rw [hrun]
    rfl
  have hpages : valid_pages [⟨"notes/alpha.md".toList, some notes_alpha⟩,
      ⟨"notes/beta.md".toList, some notes_beta⟩] = [notes_alpha, notes_beta] := by
    decide
  have hnone : ∀ path revision, broken_links [notes_alpha, notes_beta] path
      "[x](alpha.md)\n".toList = [] →
      page_issues alpha_externals [notes_alpha, notes_beta] path
        (.ok (note_bytes "[x](alpha.md)\n".toList, revision)) = [] := by
    intro path revision h
    rw [page_issues_parsed (parse_alpha _ _), h]
    rfl
  have hissues : (check_pages alpha_externals [notes_alpha, notes_beta] [notes_alpha, notes_beta]
      []).run.run (exec alpha_externals calm) ⟨linking_store.disk, 1⟩
      = (.ok [], ⟨linking_store.disk, 3⟩) := by
    rw [check_pages, Fallible.run_bind_of_ok (hread notes_alpha 1 rfl), hnone _ _ (by decide),
      check_pages, Fallible.run_bind_of_ok (hread notes_beta 2 rfl), hnone _ _ (by decide)]
    rfl
  unfold check
  rw [Fallible.run_bind_of_ok hscan, hpages]
  exact Fallible.run_bind_of_ok hissues

/-- The link of `notes/alpha` leads to itself. -/
theorem run_links_alpha :
    (links alpha_externals notes_alpha false).run.run (exec alpha_externals calm) linking_store
      = (.ok ⟨"notes/alpha".toList,
          [⟨"x".toList, "alpha.md".toList, some "notes/alpha".toList, false⟩], []⟩,
        ⟨linking_store.disk, 2⟩) := by
  have hpage := run_read_page (d := linking_store.disk) notes_alpha (calm_legible 0) rfl
    (parse_alpha "[x](alpha.md)\n".toList notes_alpha.as_str)
  have hlinks : parse_links notes_alpha "[x](alpha.md)\n".toList
      = [⟨"x".toList, "alpha.md".toList, some notes_alpha, 4, 12⟩] := by
    decide
  have hbroken : (is_broken (some notes_alpha)).run.run (exec alpha_externals calm)
      ⟨linking_store.disk, 1⟩ = (.ok false, ⟨linking_store.disk, 2⟩) := by
    unfold linking_store
    generalize note_bytes _ = bytes
    rfl
  have houtgoing : (outgoing_links (parse_links notes_alpha "[x](alpha.md)\n".toList) []).run.run
      (exec alpha_externals calm) ⟨linking_store.disk, 1⟩
      = (.ok [⟨"x".toList, "alpha.md".toList, some "notes/alpha".toList, false⟩],
        ⟨linking_store.disk, 2⟩) := by
    rw [hlinks, outgoing_links, Fallible.run_bind_of_ok hbroken]
    rfl
  unfold links
  refine (Fallible.run_bind_of_ok hpage).trans ?_
  dsimp only
  rw [Fallible.run_bind_of_ok houtgoing]
  rfl

/-- The page that is made is listed; and `notes/alpha`, whose link leads to itself,
has no broken link in either report. -/
theorem enumerated_and_agrees_alpha :
    Enumerated (calm 0) ((section_of alpha_externals (.write make_alpha)).run (exec alpha_externals calm)
          no_pages).2.disk notes_alpha
      ∧ Agrees ⟨[]⟩ notes_alpha
        ⟨"x".toList, "alpha.md".toList, some "notes/alpha".toList, false⟩ := by
  have hnamed : linking_store.disk.Named := by
    intro file hfile
    have hmem : file ∈ linking_store.disk.files.keys := by
      rw [Std.ExtTreeMap.mem_keys, Std.ExtTreeMap.mem_iff_isSome_getElem?]
      exact Option.isSome_iff_ne_none.2 hfile
    have hall : ∀ file ∈ linking_store.disk.files.keys, file ≠ [] ∧ ∀ name ∈ file, '/' ∉ name := by
      decide
    exact hall file hmem
  obtain ⟨henumerated, hagrees⟩ := enumerated_and_agrees_iff alpha_externals calm
  have hmade := run_make notes_alpha
  rw [show ({ make_alpha with path := notes_alpha } : WritePageRequest) = make_alpha from rfl] at hmade
  rw [hmade]
  refine ⟨(henumerated no_pages _ [(.write make_alpha, .ok _)] (calm 0) notes_alpha
    (Run.single ⟨hmade, trivial⟩) rfl (by simp [pages_after, make_alpha])).2 (by decide), ?_⟩
  refine (hagrees linking_store linking_store notes_alpha false _ _ rfl hnamed
    (fun _ => ⟨rfl, rfl⟩) (congrArg Prod.fst run_links_alpha)
    (congrArg Prod.fst run_check_linking_store) _ (List.mem_singleton_self _)).2 fun q hq => ?_
  have hq : q = notes_alpha :=
    PagePath.as_str_injective ((Option.some.inj hq).symm.trans (by decide))
  rw [hq]
  exact ⟨fun _ _ => by decide, fun _ => by decide⟩

/-! ## A page that is not found -/

/-- A page whose path is 511 bytes long. -/
def deep : PagePath :=
  ⟨List.replicate 4 (List.replicate 127 'a'),
    @PagePath.parse_segments_valid (join ['/'] (List.replicate 4 (List.replicate 127 'a'))) _
      (by decide +kernel)⟩

/-- The page is made, and is not in the listing. -/
theorem deep_page_not_enumerated :
    ¬∀ (ext : Externals) (envs : ℕ → Env) (init last : Store) (outcomes : List Outcome) (env : Env)
      (path : PagePath), ext.Lawful → Run (Performed ext envs) init outcomes last →
        env.faults .scan = none → path ∈ outcomes.foldl pages_after [] →
          Enumerated env last.disk path := by
  intro h
  have henumerated := h alpha_externals calm no_pages _ [(.write { make_alpha with path := deep },
    .ok _)] (calm 0) deep alpha_externals_lawful (Run.single (run_make deep)) rfl
    (by simp [pages_after])
  have hlisted := listed_of_mem_list_pages ((enumerated_iff rfl).1 henumerated)
  revert hlisted
  decide +kernel

end AgentSpace.Memory
