/-
The link graph of a corpus under a move.

A successful move renames the moved page in the links of every other page
(`move_page_link_graph`). The moved page itself is carried over byte for byte, so
its own links are read against its new directory; that is the design of `move_page`.
-/
import AgentSpace.Memory.LinkTarget
import AgentSpace.Memory.NoteRuns

set_option autoImplicit false

namespace AgentSpace.Memory

open Text Lib

/-! ## The body a renderer stores -/

theorem inert_newlines {s : Text} (h : ∀ c ∈ s, c = '\n') : Inert s := by
  intro c hc
  rw [h c hc]
  decide

theorem parse_links_normalize_body (page_path : PagePath) (body : Text) :
    parse_links page_path (normalize_body body) = parse_links page_path body := by
  have hsplit : body = body.rdropWhile (· == '\n') ++ body.rtakeWhile (· == '\n') := by
    rw [List.rdropWhile, List.rtakeWhile, ← List.reverse_append, List.takeWhile_append_dropWhile,
      List.reverse_reverse]
  have hnl : Inert (body.rtakeWhile (· == '\n')) := by
    refine inert_newlines fun c hc => ?_
    simpa using List.mem_rtakeWhile_imp hc
  have hbody : parse_links page_path body
      = parse_links page_path (body.rdropWhile (· == '\n')) := by
    conv_lhs => rw [hsplit]
    exact parse_links_append_inert hnl _ _
  rw [hbody, normalize_body]
  split_ifs with h
  · rw [h]
  · exact parse_links_append_inert (inert_newlines (by simp)) _ _

/-- A body is changed exactly when it has a link to the source. -/
theorem rewrite_links_changed (page_path source destination : PagePath) (body : Text) :
    (rewrite_links page_path body source destination).2 = true
      ↔ some source ∈ (parse_links page_path body).map ParsedLink.resolved := by
  rw [rewrite_links_eq, parse_links_resolved]
  simp

/-! ## The graph -/

/-- The pages the links of a stored page resolve to, in order; `none` for a link
that leads to no page. There are no links to speak of where there is no document. -/
def links_of (ext : Externals) (d : Disk) (path : PagePath) : Option (List (Option PagePath)) :=
  match d.read (page_file path) with
  | none => none
  | some bytes =>
    match parse_document ext.yaml ext.chrono bytes path.as_str with
    | .error _ => none
    | .ok (_, body) => some ((parse_links path body).map ParsedLink.resolved)

variable {ext : Externals} {d : Disk} {path : PagePath}

theorem links_of_parsed {bytes : Bytes}
    {metadata : PageMetadata} {body : Text} (hread : d.read (page_file path) = some bytes)
    (hparse : parse_document ext.yaml ext.chrono bytes path.as_str = .ok (metadata, body)) :
    links_of ext d path = some ((parse_links path body).map ParsedLink.resolved) := by
  rw [links_of, hread]
  dsimp only
  rw [hparse]

/-- The renaming a move stands for. -/
def rename (source destination q : PagePath) : PagePath := if q = source then destination else q

/-- The page is found by a listing: its file name, with the suffix, is within the
length limit of a page path. -/
def Listed (path : PagePath) : Prop := utf8_len path.as_str + 3 ≤ MAX_PATH_LENGTH

instance (path : PagePath) : Decidable (Listed path) := inferInstanceAs (Decidable (_ ≤ _))

/-- What it takes to rewrite a page that links to the moved one: the listing finds
it, its timestamps can be written again, and the way to the destination can be
written as a link. -/
structure Rewritable (ext : Externals) (d : Disk) (path destination : PagePath) : Prop where
  listed : Listed path
  dates : ∀ bytes metadata body, d.read (page_file path) = some bytes →
    parse_document ext.yaml ext.chrono bytes path.as_str = .ok (metadata, body) →
      metadata.created_at.InRfc3339 ∧ metadata.updated_at.InRfc3339
  expressible : LinkExpressible (base_dir_of path) destination

theorem extension_md {stem : Text} (h : stem ≠ []) :
    extension (stem ++ MARKDOWN_EXTENSION) = some "md".toList := by
  have hrev : (stem ++ MARKDOWN_EXTENSION).reverse = 'd' :: 'm' :: '.' :: stem.reverse := by
    simp [MARKDOWN_EXTENSION]
  rw [extension, hrev]
  simp [MARKDOWN_EXTENSION, h]

theorem join_page_file (path : PagePath) :
    join ['/'] (page_file path) = path.as_str ++ MARKDOWN_EXTENSION := by
  rw [page_file, PagePath.as_str, path.segments_eq]
  obtain ⟨pre, h1, h2⟩ := join_append_singleton ['/'] path.parent_segments path.file_stem
  rw [h1, h2, List.append_assoc]

theorem mem_list_pages (hlisted : Listed path) (hthere : d.read (page_file path) ≠ none) :
    path ∈ (d.files.keys.filterMap scanned_page).insertionSort page_le := by
  rw [List.mem_insertionSort, List.mem_filterMap]
  refine ⟨page_file path, ?_, ?_⟩
  · rw [Std.ExtTreeMap.mem_keys, Std.ExtTreeMap.mem_iff_isSome_getElem?]
    exact Option.isSome_iff_ne_none.2 hthere
  · have hname : (page_file path).getLastD [] = path.file_stem ++ MARKDOWN_EXTENSION := by
      simp [page_file]
    have hstem : path.file_stem ≠ [] := (validSegment_file_stem path).nonempty
    rw [scanned_page, hname, if_pos (extension_md hstem), join_page_file,
      PagePath.parse_as_str_append_md path hlisted]
    rfl

theorem eq_append_md_of_extension {name : Text} (h : extension name = some "md".toList) :
    ∃ stem, stem ≠ [] ∧ name = stem ++ MARKDOWN_EXTENSION := by
  unfold extension at h
  dsimp only at h
  split_ifs at h with hdot
  have hafter : name.reverse.takeWhile (· != '.') = "md".toList.reverse := by
    rw [← List.reverse_reverse (name.reverse.takeWhile (· != '.')), Option.some.inj h]
  -- the reversed name is the reversed extension, the dot, and the reversed stem
  have hsplit := List.takeWhile_append_dropWhile (p := (· != '.')) (l := name.reverse)
  rw [hafter] at hsplit
  cases hbefore : name.reverse.dropWhile (· != '.') with
  | nil =>
    rw [hbefore] at hdot
    exact absurd rfl hdot.2
  | cons c stem =>
    rw [hbefore] at hdot hsplit
    have hc : c = '.' := by
      have := List.head?_dropWhile_not (p := (· != '.')) (l := name.reverse)
      rw [hbefore] at this
      simpa using this
    subst hc
    refine ⟨stem.reverse, by simpa using hdot.2, ?_⟩
    rw [← List.reverse_reverse name, ← hsplit]
    simp [MARKDOWN_EXTENSION]

theorem listed_of_scanned_page {file : FilePath} (h : scanned_page file = some path) :
    Listed path ∧ join ['/'] file = path.as_str ++ MARKDOWN_EXTENSION := by
  unfold scanned_page at h
  split_ifs at h with hext
  obtain ⟨stem, hstem, hname⟩ := eq_append_md_of_extension hext
  cases hparse : PagePath.parse (join ['/'] file) with
  | error e => simp [hparse, Except.toOption] at h
  | ok p =>
    obtain rfl : p = path := by simpa [hparse, Except.toOption] using h
    have hfile : ∃ lead, join ['/'] file = lead ++ MARKDOWN_EXTENSION := by
      obtain ⟨dirs, last, rfl⟩ : ∃ dirs last, file = dirs ++ [last] := by
        rcases List.eq_nil_or_concat file with rfl | ⟨dirs, last, rfl⟩
        · simp at hname
          exact absurd hname.1 hstem
        · exact ⟨dirs, last, List.concat_eq_append⟩
      obtain ⟨pre, hpre, -⟩ := join_append_singleton ['/'] dirs last
      have hlast : last = stem ++ MARKDOWN_EXTENSION := by simpa using hname
      exact ⟨pre ++ stem, by rw [hpre, hlast, List.append_assoc]⟩
    obtain ⟨lead, hlead⟩ := hfile
    obtain ⟨hshort, hsegments⟩ := PagePath.parse_ok hparse
    have hlead_str : lead = p.as_str := by
      rw [PagePath.as_str, hsegments, join_split, hlead, PagePath.trimmed, strip_suffix_append]
      rfl
    have hmd : utf8_len MARKDOWN_EXTENSION = 3 := by decide
    rw [hlead, utf8_len_append, hmd, hlead_str] at hshort
    exact ⟨hshort, by rw [hlead, hlead_str]⟩

theorem listed_of_mem_list_pages
    (h : path ∈ (d.files.keys.filterMap scanned_page).insertionSort page_le) : Listed path := by
  rw [List.mem_insertionSort, List.mem_filterMap] at h
  obtain ⟨file, -, hfile⟩ := h
  exact (listed_of_scanned_page hfile).1

/-! ## Rewriting one page -/

section OnePage

variable {ext : Externals} {d d' : Disk} {source destination path : PagePath}

variable {links : List (Option PagePath)}

/-- The links of the document `rewritten_page` produces are the renamed links of
the page. -/
theorem links_of_rewritten {bytes new_bytes : Bytes}
    (hext : ext.Lawful) (hd : d.read (page_file path) = some bytes)
    (hd' : d'.read (page_file path) = some new_bytes)
    (hnew : rewritten_page ext source destination path bytes = .ok (some new_bytes))
    (hlinks : links_of ext d path = some links)
    (hrw : some source ∈ links → Rewritable ext d path destination) :
    links_of ext d' path = some (links.map (Option.map (rename source destination))) := by
  rw [links_of, hd] at hlinks
  dsimp only at hlinks
  rw [rewritten_page] at hnew
  cases hparse : parse_document ext.yaml ext.chrono bytes path.as_str with
  | error e => simp [hparse] at hlinks
  | ok document =>
    obtain ⟨metadata, body⟩ := document
    simp only [hparse, Option.some.injEq] at hlinks
    simp only [hparse] at hnew
    subst hlinks
    split_ifs at hnew with hchanged
    swap
    · simp at hnew
    cases hrender : render_document ext.yaml ext.chrono metadata
        (rewrite_links path body source destination).1 with
    | error e => simp [hrender] at hnew
    | ok rendered =>
      obtain rfl : rendered = new_bytes := by simpa [hrender] using hnew
      have hrw := hrw ((rewrite_links_changed _ _ _ _).1 hchanged)
      obtain ⟨hcreated, hupdated⟩ := hrw.dates bytes metadata body hd hparse
      obtain ⟨read, hread, -⟩ := parse_render_document path.as_str hext.yaml hext.chrono
        (parse_document_wellFormed hext.yaml hparse) hcreated hupdated hrender
      rw [links_of, hd']
      dsimp only
      rw [hread]
      simp only [parse_links_normalize_body, Option.some.injEq]
      exact parse_links_rewrite_links fun _ => hrw.expressible

/-- A page `rewritten_page` leaves alone has no link to the source. -/
theorem not_mem_links_of_not_rewritten {bytes : Bytes} (hd : d.read (page_file path) = some bytes)
    (hnew : rewritten_page ext source destination path bytes = .ok none)
    (hlinks : links_of ext d path = some links) : some source ∉ links := by
  rw [links_of, hd] at hlinks
  dsimp only at hlinks
  rw [rewritten_page] at hnew
  cases hparse : parse_document ext.yaml ext.chrono bytes path.as_str with
  | error e => simp [hparse] at hlinks
  | ok document =>
    obtain ⟨metadata, body⟩ := document
    simp only [hparse, Option.some.injEq] at hlinks
    simp only [hparse] at hnew
    subst hlinks
    rw [← rewrite_links_changed path source destination body]
    intro hchanged
    rw [if_pos hchanged] at hnew
    split at hnew <;> simp at hnew

theorem map_rename_of_not_mem (h : some source ∉ links) :
    links.map (Option.map (rename source destination)) = links := by
  conv_rhs => rw [← List.map_id links]
  refine List.map_congr_left fun l hl => ?_
  cases l with
  | none => rfl
  | some q =>
    have : q ≠ source := by
      rintro rfl
      exact h hl
    simp [rename, this]

end OnePage

/-- A page whose bytes are carried to another name in its directory keeps its links. -/
theorem links_of_carried {d d' : Disk} {source destination : PagePath} {links : List (Option PagePath)}
    (hcarried : d'.read (page_file destination) = d.read (page_file source))
    (hdir : source.parent_segments = destination.parent_segments)
    (hlinks : links_of ext d source = some links) : links_of ext d' destination = some links := by
  rw [links_of] at hlinks ⊢
  rw [hcarried]
  split at hlinks
  · cases hlinks
  · split at hlinks
    · cases hlinks
    · rename_i bytes hbytes _ metadata body hparse
      simp only [parse_document_hint hparse]
      have hbase : base_dir_of source = base_dir_of destination := by
        rw [base_dir_of, base_dir_of, PagePath.parent_map_segments,
          PagePath.parent_map_segments, hdir]
      rw [parse_links, ← hbase, ← parse_links]
      exact hlinks

/-! ## The whole corpus -/

/-- The link graph after a move. The pages that do not move follow the renaming;
the moved page keeps its bytes, and so its links where its directory stays the
same. -/
structure Renamed (ext : Externals) (d d' : Disk) (source destination : PagePath) : Prop where
  others : ∀ path links, path ≠ source → links_of ext d path = some links →
    (some source ∈ links → Rewritable ext d path destination) →
      links_of ext d' path = some (links.map (Option.map (rename source destination)))
  carried : d'.read (page_file destination) = d.read (page_file source)
  own : source.parent_segments = destination.parent_segments → ∀ links,
    links_of ext d source = some links → links_of ext d' destination = some links
  gone : d'.read (page_file source) = none

/-- What a finished transaction does to the graph. -/
theorem renamed_of_moved {env : Env} {d d' : Disk}
    {source destination : PagePath} {source_bytes : Bytes} {reps : List (PagePath × Bytes)}
    (hext : ext.Lawful) (hsource : d.read (page_file source) = some source_bytes)
    (hdest : d.read (page_file destination) = none) (hc : Collected ext d source destination
      ((d.files.keys.filterMap scanned_page).insertionSort page_le) reps)
    (hmoved : Moved env d d' source destination source_bytes reps) :
    Renamed ext d d' source destination := by
  have hcarried : d'.read (page_file destination) = d.read (page_file source) := by
    rw [hmoved.arrived, hsource]
  refine ⟨fun path links hpath hlinks hrw => ?_, hcarried,
    fun hdir links hlinks => links_of_carried hcarried hdir hlinks, hmoved.gone⟩
  obtain ⟨bytes, hbytes⟩ : ∃ bytes, d.read (page_file path) = some bytes := by
    rw [links_of] at hlinks
    split at hlinks
    · cases hlinks
    · exact ⟨_, ‹_›⟩
  have hne : path ≠ destination := by
    rintro rfl
    rw [hdest] at hbytes
    cases hbytes
  by_cases hrep : ∃ r ∈ reps, r.1 = path
  · -- the page was rewritten
    obtain ⟨⟨p, new_bytes⟩, hr, rfl⟩ := hrep
    obtain ⟨-, -, b, hb, hnew⟩ := hc.sound _ hr
    obtain rfl : bytes = b := by
      rw [hbytes] at hb
      simpa using hb
    exact links_of_rewritten hext hbytes (hmoved.replaced _ hr) hnew hlinks hrw
  · -- it was not: its bytes are the same, and it has no link to the source
    have hsame : d'.read (page_file path) = d.read (page_file path) := by
      refine hmoved.others _ (page_file_not_temporary env path) ?_ ?_ ?_
      · exact fun heq => hpath (page_file_injective heq)
      · exact fun heq => hne (page_file_injective heq)
      · exact fun r hr heq => hrep ⟨r, hr, (page_file_injective heq).symm⟩
    have hnot : some source ∉ links := by
      intro hmem
      have hlisted := mem_list_pages (hrw hmem).listed (by rw [hbytes]; simp)
      obtain ⟨b, result, hb, hnew, hin⟩ := hc.complete path hlisted hpath
      cases result with
      | none => exact not_mem_links_of_not_rewritten hb hnew hlinks hmem
      | some new_bytes => exact hrep ⟨_, hin _ rfl, rfl⟩
    rw [map_rename_of_not_mem hnot, links_of, hsame, ← links_of]
    exact hlinks

/-- **The link graph under a move.** Whatever the surroundings of its store calls,
a `move_page` that succeeds renames the moved page in the links of every other
page, and carries the moved page over unchanged. -/
theorem move_page_link_graph (ext : Externals) (envs : ℕ → Env) (s : Store)
    (request : MovePageRequest) (outcome : MoveOutcome) (hext : ext.Lawful)
    (h : ((move_page ext request).run.run (exec ext envs) s).1 = .ok outcome) :
    Renamed ext s.disk ((move_page ext request).run.run (exec ext envs) s).2.disk
      request.source request.destination := by
  have hends := (move_page_spec ext envs s.disk s.tick request s ⟨rfl, le_refl _⟩).2
  obtain ⟨t, source_bytes, reps, -, -, hsource, hc, hcommit, -⟩ := hends.ok outcome h
  obtain ⟨hmov, hmoved⟩ := commit_move_ok hcommit
  exact renamed_of_moved hext hsource hmov.read_destination hc hmoved

/-! ## The moved page's own links -/

/-- The whole link graph after a move is the one before it, renamed: every link
that led to a page leads to that page under its new name, the moved page's own
links included. -/
def FollowsEverywhere (ext : Externals) (d d' : Disk) (source destination : PagePath) : Prop :=
  ∀ path links, links_of ext d path = some links →
    ∃ links', links_of ext d' (rename source destination path) = some links'
      ∧ List.Forall₂ (fun l l' => ∀ q, l = some q → l' = some (rename source destination q))
        links links'

/-- The page `notes/alpha`. -/
def notes_alpha : PagePath :=
  ⟨["notes".toList, "alpha".toList],
    @PagePath.parse_segments_valid "notes/alpha".toList _ (by decide)⟩

/-- The page `notes/beta`. -/
def notes_beta : PagePath :=
  ⟨["notes".toList, "beta".toList],
    @PagePath.parse_segments_valid "notes/beta".toList _ (by decide)⟩

theorem beta_valid : ValidSegments ["beta".toList] :=
  @PagePath.parse_segments_valid "beta".toList _ (by decide)

/-- The page `beta`. -/
def root_beta : PagePath := ⟨["beta".toList], beta_valid⟩

/-- External code for the page whose body is `[x](alpha.md)`. -/
def alpha_externals : Externals :=
  note_externals [(note_bytes "[x](alpha.md)\n".toList,
    [79, 172, 214, 252, 22, 36, 86, 224, 11, 38, 159, 38, 78, 118, 77, 234, 37, 143, 167, 157, 9,
      104, 98, 24, 231, 3, 202, 6, 182, 36, 9, 67])]

/-- Surroundings in which nothing fails. -/
def calm (_ : ℕ) : Env := ⟨1, 0, fun _ => none, ⟨0, 0⟩⟩

/-- A store with the pages `notes/alpha` and `notes/beta`, of the same content: each
has a link to `notes/alpha`. -/
def linking_store : Store :=
  ⟨⟨(∅ : Std.ExtTreeMap FilePath Bytes compare).insert (page_file notes_alpha)
      (note_bytes "[x](alpha.md)\n".toList)
    |>.insert (page_file notes_beta) (note_bytes "[x](alpha.md)\n".toList), ∅⟩, 0⟩

theorem alpha_externals_lawful : alpha_externals.Lawful :=
  note_externals_lawful (by decide) (by
    intro k hk l hl _
    rw [List.mem_singleton.1 hk, List.mem_singleton.1 hl])

theorem calm_legible (t : ℕ) : Legible (calm t) := ⟨rfl, rfl, rfl⟩

theorem parse_alpha (body path_hint : Text) :
    parse_document alpha_externals.yaml alpha_externals.chrono (note_bytes body) path_hint
      = .ok (note, body) :=
  parse_note_bytes _ body path_hint

set_option maxRecDepth 4000 in
theorem list_linking_store : (linking_store.disk.files.keys.filterMap scanned_page).insertionSort page_le
      = [notes_alpha, notes_beta] := by
  unfold linking_store
  generalize note_bytes _ = bytes
  rfl

theorem rewritten_alpha :
    rewritten_page alpha_externals notes_beta root_beta notes_alpha
      (note_bytes "[x](alpha.md)\n".toList) = .ok none := by
  have hsame : rewrite_links notes_alpha "[x](alpha.md)\n".toList notes_beta root_beta
      = ("[x](alpha.md)\n".toList, false) := by
    decide
  exact rewritten_page_unchanged (parse_alpha _ _) hsame

theorem rewritten_beta :
    rewritten_page alpha_externals notes_alpha root_beta notes_beta (note_bytes "[x](alpha.md)\n".toList)
      = .ok (some (note_bytes "[x](../beta.md)\n".toList)) := by
  have hlink : rewrite_links notes_beta "[x](alpha.md)\n".toList notes_alpha root_beta
      = ("[x](../beta.md)\n".toList, true) := by
    decide
  have hbody : normalize_body "[x](../beta.md)\n".toList = "[x](../beta.md)\n".toList := by decide
  refine rewritten_page_changed (parse_alpha _ _) hlink ((render_note _ ?_).trans ?_)
  · rw [hbody]
    decide
  · rw [hbody]

theorem links_of_note {body : Text} (h : d.read (page_file path) = some (note_bytes body)) :
    links_of alpha_externals d path = some ((parse_links path body).map ParsedLink.resolved) :=
  links_of_parsed h (parse_alpha _ _)

/-- Moving `notes/beta` away finds nothing to rewrite. -/
theorem run_move_beta :
    ∃ outcome d', (move_page alpha_externals ⟨notes_beta, root_beta, none, none⟩).run.run
        (exec alpha_externals calm) linking_store = (.ok outcome, ⟨d', 6⟩)
      ∧ d'.read (page_file root_beta) = some (note_bytes "[x](alpha.md)\n".toList) := by
  have hmov : Movable linking_store.disk notes_beta root_beta [] :=
    ⟨rfl, rfl, List.nodup_nil, by simp, by simp⟩
  obtain ⟨d', hcommit, hmoved⟩ := hmov.commit_move_calm (calm 5) (fun _ => rfl)
    (note_bytes "[x](alpha.md)\n".toList)
  have hreps : (collect_replacements alpha_externals notes_beta root_beta
      ((linking_store.disk.files.keys.filterMap scanned_page).insertionSort page_le) []).run.run
        (exec alpha_externals calm) ⟨linking_store.disk, 0 + 3⟩
      = (.ok [], ⟨linking_store.disk, 4⟩) := by
    rw [list_linking_store, run_collect_other (calm_legible _) (by decide) rfl rewritten_alpha,
      run_collect_source]
    rfl
  have hmove := run_move_page none (note_bytes "[x](alpha.md)\n".toList) calm_legible (by decide)
    rfl rfl hreps
  rw [hcommit] at hmove
  exact ⟨_, d', hmove, hmoved.arrived⟩

theorem movable_alpha : Movable linking_store.disk notes_alpha root_beta
    [(notes_beta, note_bytes "[x](../beta.md)\n".toList)] := by
  refine ⟨rfl, rfl, List.nodup_singleton _, fun r hr => ?_, fun r hr => ?_⟩
  · rw [List.mem_singleton.1 hr]
    exact ⟨show notes_beta ≠ notes_alpha by decide, show notes_beta ≠ root_beta by decide⟩
  · rw [List.mem_singleton.1 hr]
    rfl

/-- Moving `notes/alpha` away rewrites `notes/beta`. -/
theorem run_move_alpha (envs : ℕ → Env) (henv : ∀ t, Legible (envs t)) :
    (move_page alpha_externals ⟨notes_alpha, root_beta, none, none⟩).run.run
        (exec alpha_externals envs) linking_store
      = ((commit_move (envs 5) linking_store.disk notes_alpha root_beta
            (note_bytes "[x](alpha.md)\n".toList)
            [(notes_beta, note_bytes "[x](../beta.md)\n".toList)]).1.map fun _ =>
          ⟨notes_alpha.as_str, root_beta.as_str,
            revision_of alpha_externals (note_bytes "[x](alpha.md)\n".toList),
            [notes_beta.as_str]⟩,
        ⟨(commit_move (envs 5) linking_store.disk notes_alpha root_beta
            (note_bytes "[x](alpha.md)\n".toList)
            [(notes_beta, note_bytes "[x](../beta.md)\n".toList)]).2, 6⟩) := by
  have hreps : (collect_replacements alpha_externals notes_alpha root_beta
      ((linking_store.disk.files.keys.filterMap scanned_page).insertionSort page_le) []).run.run
        (exec alpha_externals envs) ⟨linking_store.disk, 0 + 3⟩
      = (.ok [(notes_beta, note_bytes "[x](../beta.md)\n".toList)],
        ⟨linking_store.disk, 4⟩) := by
    rw [list_linking_store, run_collect_source,
      run_collect_other (henv _) (by decide) rfl rewritten_beta]
    rfl
  exact run_move_page none (note_bytes "[x](alpha.md)\n".toList) henv (by decide) rfl rfl hreps

/-- Moving `notes/beta` to `beta` succeeds, and its own link, which led to
`notes/alpha`, does not lead there any more. -/
theorem move_page_leaves_own_links :
    ¬∀ (ext : Externals) (envs : ℕ → Env) (s : Store) (request : MovePageRequest)
      (outcome : MoveOutcome), ext.Lawful →
        ((move_page ext request).run.run (exec ext envs) s).1 = .ok outcome →
        FollowsEverywhere ext s.disk ((move_page ext request).run.run (exec ext envs) s).2.disk
          request.source request.destination := by
  intro h
  obtain ⟨outcome, d', hmove, hread⟩ := run_move_beta
  have hstored : linking_store.disk.read (page_file notes_beta)
      = some (note_bytes "[x](alpha.md)\n".toList) := rfl
  have hbefore : links_of alpha_externals linking_store.disk notes_beta
      = some [some notes_alpha] := by
    rw [links_of_note hstored]
    decide
  obtain ⟨links', hlinks', hfollows⟩ := h _ _ _ ⟨notes_beta, root_beta, none, none⟩ outcome
    alpha_externals_lawful (congrArg Prod.fst hmove) notes_beta _ hbefore
  have hactual : links_of alpha_externals d' root_beta
      = some [some ⟨["alpha".toList],
        @PagePath.parse_segments_valid "alpha".toList _ (by decide)⟩] := by
    rw [links_of_note hread]
    decide
  have hren : rename notes_beta root_beta notes_beta = root_beta := if_pos rfl
  rw [hmove, hren] at hlinks'
  dsimp only at hlinks'
  rw [hactual] at hlinks'
  obtain rfl := Option.some.inj hlinks'
  have := (List.forall₂_cons.1 hfollows).1 notes_alpha rfl
  revert this
  decide

/-- Moving `notes/alpha` to `beta`: the link of `notes/beta` follows. -/
theorem move_page_link_graph_alpha :
    links_of alpha_externals ((move_page alpha_externals
      ⟨notes_alpha, root_beta, none, none⟩).run.run (exec alpha_externals calm)
        linking_store).2.disk notes_beta = some [some root_beta] := by
  obtain ⟨d', hcommit, -⟩ := movable_alpha.commit_move_calm (calm 5) (fun _ => rfl)
    (note_bytes "[x](alpha.md)\n".toList)
  have hok := congrArg Prod.fst (run_move_alpha calm calm_legible)
  rw [hcommit] at hok
  have hgraph := move_page_link_graph alpha_externals calm linking_store
    ⟨notes_alpha, root_beta, none, none⟩ _ alpha_externals_lawful hok
  have hstored : linking_store.disk.read (page_file notes_beta)
      = some (note_bytes "[x](alpha.md)\n".toList) := rfl
  have hbefore : links_of alpha_externals linking_store.disk notes_beta
      = some [some notes_alpha] := by
    rw [links_of_note hstored]
    decide
  refine (hgraph.others notes_beta [some notes_alpha] (by decide) hbefore fun _ =>
    ⟨by decide, fun bytes metadata body hbytes hparse => ?_, ?_⟩).trans (by decide)
  swap
  · have htarget : relative_target (base_dir_of notes_beta) root_beta = "../beta.md".toList := by
      decide
    exact ⟨by simp [htarget], by simp [htarget, is_whitespace], by rw [htarget]; decide,
      by decide⟩
  have hread := parse_alpha "[x](alpha.md)\n".toList notes_beta.as_str
  obtain rfl : note_bytes "[x](alpha.md)\n".toList = bytes := Option.some.inj hbytes
  obtain ⟨rfl, -⟩ := Prod.mk.inj (Except.ok.inj (hread.symm.trans hparse))
  decide

end AgentSpace.Memory
