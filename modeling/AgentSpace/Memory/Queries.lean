/-
The read operations of the memory service: `list_pages`, `query_pages`, `links`
and `check`.

They take no lock and make several store calls, so they are sections like the
mutations, except that nothing in them changes the disk. What each reports is
stated on the disk it ran on.
-/
import AgentSpace.Memory.LinkGraph

set_option autoImplicit false

namespace AgentSpace.Memory

open Text Lib

/-! ## Requests and results -/

/-- `ListFilter`. -/
structure ListFilter where
  under : Option PagePath
  with_tags : List Text
  limit : Option UInt64

/-- `QueryRequest`. -/
structure QueryRequest where
  text : Text
  filter : ListFilter

/-- `PageSummary`. -/
structure PageSummary where
  path : Text
  title : Text
  tags : List Text
  updated_at : DateTime
  deriving DecidableEq

/-- `PageLink`. -/
structure PageLink where
  text : Text
  raw_target : Text
  resolved_path : Option Text
  broken : Bool
  deriving DecidableEq

/-- `Backlink`. -/
structure Backlink where
  «from» : Text
  text : Text
  raw_target : Text
  deriving DecidableEq

/-- `LinksReport`. -/
structure LinksReport where
  path : Text
  outgoing : List PageLink
  backlinks : List Backlink
  deriving DecidableEq

/-- The messages of `check`: `file name is not a valid page path`, the text of an
error, `duplicate tag {tag:?}`, and `broken link to {resolved:?}`. -/
inductive CheckMessage where
  | invalid_name
  | failed (error : MemoryError)
  | duplicate_tag (tag : Text)
  | broken_link (resolved : Text)
  deriving DecidableEq

/-- `CheckIssue`. -/
structure CheckIssue where
  path : Option Text
  message : CheckMessage
  deriving DecidableEq

/-- `CheckReport`. -/
structure CheckReport where
  issues : List CheckIssue
  deriving DecidableEq

/-! ## Listing and searching -/

/-- `MAX_QUERY_LENGTH`. -/
def MAX_QUERY_LENGTH : ℕ := 512
/-- `DEFAULT_LIST_LIMIT`. -/
def DEFAULT_LIST_LIMIT : ℕ := 200

/-- `is_under`. -/
def is_under ( is_prefix candidate : PagePath) : Bool :=
  candidate.segments.length ≥ is_prefix.segments.length
    && candidate.segments.take is_prefix.segments.length == is_prefix.segments

section Operations

variable (ext : Externals)

/-- The text `query_pages` searches in a page. -/
def haystack (page_path : PagePath) (metadata : PageMetadata) (body : Text) : Text :=
  page_path.as_str ++ ' ' :: metadata.title ++ ' ' :: join [' '] metadata.tags ++ ' ' :: body

/-- A document passes the filter by tags and text. -/
def selected (with_tags : List Text) (needle : Text) (page_path : PagePath)
    (metadata : PageMetadata) (body : Text) : Bool :=
  with_tags.all (fun tag => metadata.tags.contains tag)
    && (needle == [] || contains_str needle (ext.to_lowercase (haystack page_path metadata body)))

/-- What the loop of `query_pages` makes of a page it has read. A page whose document
does not parse is skipped. -/
def found_page (with_tags : List Text) (needle : Text) (page_path : PagePath) (bytes : Bytes) :
    Option PageSummary :=
  match parse_document ext.yaml ext.chrono bytes page_path.as_str with
  | .error _ => none
  | .ok (metadata, body) =>
    if selected ext with_tags needle page_path metadata body then
      some ⟨page_path.as_str, metadata.title, metadata.tags, metadata.updated_at⟩
    else none

/-- The loop of `query_pages`. The limit is looked at behind a push, so a limit of
zero still lets one page through. -/
def query_loop (under : Option PagePath) (with_tags : List Text) (needle : Text) (limit : ℕ) :
    List PagePath → List PageSummary → Section (List PageSummary)
  | [], results => pure results
  | page_path :: rest, results =>
    if under.any (fun u => !is_under u page_path) then
      query_loop under with_tags needle limit rest results
    else do
      let (bytes, _) ← Section.read_bytes page_path
      match found_page ext with_tags needle page_path bytes with
      | none => query_loop under with_tags needle limit rest results
      | some summary =>
        if (results ++ [summary]).length ≥ limit then pure (results ++ [summary])
        else query_loop under with_tags needle limit rest (results ++ [summary])

/-- `query_pages`. -/
def query_pages (request : QueryRequest) : Section (List PageSummary) := do
  Section.return_error_if (utf8_len request.text > MAX_QUERY_LENGTH)
    (.TooLarge "query text" MAX_QUERY_LENGTH)
  let pages ← Section.list_pages
  query_loop ext request.filter.under (request.filter.with_tags.map (normalize_tag ext))
    (ext.to_lowercase request.text) ((request.filter.limit.map UInt64.toNat).getD
      DEFAULT_LIST_LIMIT) pages []

/-- `MemoryService::list_pages`. -/
def list_summaries (filter : ListFilter) : Section (List PageSummary) :=
  query_pages ext ⟨[], filter⟩

/-! ## Links -/

/-- The flag `links` computes for a link. -/
def is_broken : Option PagePath → Section Bool
  | some resolved => Bool.not <$> Section.page_exists resolved
  | none => pure false

/-- The first loop of `links`. -/
def outgoing_links : List ParsedLink → List PageLink → Section (List PageLink)
  | [], outgoing => pure outgoing
  | link :: rest, outgoing => do
    let broken ← is_broken link.resolved
    outgoing_links rest (outgoing ++ [⟨link.text, link.raw_target,
      link.resolved.map PagePath.as_str, broken⟩])

/-- The second loop of `links`. -/
def collect_backlinks (path : PagePath) :
    List PagePath → List Backlink → Section (List Backlink)
  | [], backlinks => pure backlinks
  | other_path :: rest, backlinks =>
    if other_path = path then collect_backlinks path rest backlinks
    else do
      let (bytes, _) ← Section.read_bytes other_path
      match parse_document ext.yaml ext.chrono bytes other_path.as_str with
      | .error _ => collect_backlinks path rest backlinks
      | .ok (_, body) =>
        let found := (parse_links other_path body).filter fun link => link.resolved = some path
        collect_backlinks path rest (backlinks
          ++ found.map fun link => ⟨other_path.as_str, link.text, link.raw_target⟩)

/-- The backlinks `links` reports. -/
def backlinks_of (path : PagePath) : Bool → Section (List Backlink)
  | true => do
    let pages ← Section.list_pages
    collect_backlinks ext path pages []
  | false => pure []

/-- `links`. -/
def links (path : PagePath) (include_backlinks : Bool) : Section LinksReport := do
  let page ← read_page ext path
  let outgoing ← outgoing_links (parse_links path page.body) []
  let backlinks ← backlinks_of ext path include_backlinks
  pure ⟨path.as_str, outgoing, backlinks⟩

/-! ## Checking -/

/-- `self.store.read_bytes` where an error is looked at and not returned. -/
def try_read_bytes (path : PagePath) : Section (Except MemoryError (Bytes × Text)) :=
  ExceptT.lift (Prog.lift (StoreCall.read_bytes path))

/-- The loop of `check` over the tags of a page. -/
def duplicate_tags (path : PagePath) : List Text → List Text → List CheckIssue
  | [], _ => []
  | tag :: rest, seen_tags =>
    if tag ∈ seen_tags then
      ⟨some path.as_str, .duplicate_tag tag⟩ :: duplicate_tags path rest seen_tags
    else duplicate_tags path rest (tag :: seen_tags)

/-- The loop of `check` over the links of a page. -/
def broken_links (valid_paths : List PagePath) (path : PagePath) (body : Text) : List CheckIssue :=
  (parse_links path body).filterMap fun link =>
    match link.resolved with
    | some resolved =>
      if resolved ∈ valid_paths then none
      else some ⟨some path.as_str, .broken_link resolved.as_str⟩
    | none => none

/-- What `check` reports of a page it has read. -/
def page_issues (valid_paths : List PagePath) (path : PagePath)
    (result : Except MemoryError (Bytes × Text)) : List CheckIssue :=
  match result with
  | .error e => [⟨some path.as_str, .failed e⟩]
  | .ok (bytes, _) =>
    match parse_document ext.yaml ext.chrono bytes path.as_str with
    | .error e => [⟨some path.as_str, .failed e⟩]
    | .ok (metadata, body) =>
      duplicate_tags path metadata.tags [] ++ broken_links valid_paths path body

/-- The loop of `check` over the pages. -/
def check_pages (valid_paths : List PagePath) :
    List PagePath → List CheckIssue → Section (List CheckIssue)
  | [], issues => pure issues
  | path :: rest, issues => do
    let result ← try_read_bytes path
    check_pages valid_paths rest (issues ++ page_issues ext valid_paths path result)

/-- `valid_paths`: the pages of the scanned files, as a `BTreeSet` iterates them. -/
def valid_pages (scanned : List ScannedFile) : List PagePath :=
  ((scanned.filterMap ScannedFile.parsed).dedup).insertionSort page_le

/-- `check`. -/
def check : Section CheckReport := do
  let scanned ← Section.scan
  let invalid := (scanned.filter fun entry => entry.parsed = none).map fun entry =>
    (⟨some entry.relative_path, .invalid_name⟩ : CheckIssue)
  let issues ← check_pages ext (valid_pages scanned) (valid_pages scanned) invalid
  pure ⟨issues⟩

end Operations

/-! ## What a scan finds -/

/-- The names on the disk are names of a file system: not empty, and without the
separator. -/
def Disk.Named (d : Disk) : Prop :=
  ∀ file, d.read file ≠ none → file ≠ [] ∧ ∀ name ∈ file, '/' ∉ name

/-- The pages of a listing. -/
def Disk.pages (d : Disk) : List PagePath :=
  (d.files.keys.filterMap scanned_page).insertionSort page_le

/-- The entries of a scan. -/
def Disk.scanned (d : Disk) : List ScannedFile :=
  (d.files.keys.filterMap scanned_file).insertionSort scanned_le

variable {path : PagePath}

theorem slash_not_mem_page_file {name : Text} (h : name ∈ page_file path) : '/' ∉ name := by
  unfold page_file at h
  rcases List.mem_append.1 h with h | h
  · exact (validSegment_parent h).no_slash
  · rw [List.mem_singleton.1 h]
    intro hmem
    rcases List.mem_append.1 hmem with hmem | hmem
    · exact (validSegment_file_stem path).no_slash hmem
    · simp [MARKDOWN_EXTENSION] at hmem

theorem eq_page_file_of_scanned_page {file : FilePath}
    (hfile : file ≠ [] ∧ ∀ name ∈ file, '/' ∉ name) (h : scanned_page file = some path) :
    file = page_file path := by
  have hjoin := (listed_of_scanned_page h).2
  rw [← join_page_file] at hjoin
  have hsplit := congrArg (split '/') hjoin
  rwa [split_join hfile.1 hfile.2, split_join (by simp [page_file])
    fun name hname => slash_not_mem_page_file hname] at hsplit

variable {d : Disk}

/-- **What is listed.** A page is in the listing if its file is there and its name
fits, and only then. -/
theorem mem_pages_iff (hd : d.Named) : path ∈ d.pages ↔ d.read (page_file path) ≠ none ∧ Listed path := by
  constructor
  · intro h
    refine ⟨?_, listed_of_mem_list_pages h⟩
    unfold Disk.pages at h
    rw [List.mem_insertionSort, List.mem_filterMap] at h
    obtain ⟨file, hmem, hfile⟩ := h
    rw [Std.ExtTreeMap.mem_keys, Std.ExtTreeMap.mem_iff_isSome_getElem?] at hmem
    have hthere : d.read file ≠ none := Option.isSome_iff_ne_none.1 hmem
    rwa [eq_page_file_of_scanned_page (hd file hthere) hfile] at hthere
  · rintro ⟨hthere, hlisted⟩
    exact mem_list_pages hlisted hthere

theorem mem_parsed_scanned : path ∈ d.scanned.filterMap ScannedFile.parsed ↔ path ∈ d.pages := by
  unfold Disk.scanned Disk.pages
  rw [List.mem_insertionSort]
  simp only [List.mem_filterMap, List.mem_insertionSort, ← scanned_file_bind_parsed,
    Option.bind_eq_some_iff]
  constructor
  · rintro ⟨entry, ⟨file, hfile, hentry⟩, hparsed⟩
    exact ⟨file, hfile, entry, hentry, hparsed⟩
  · rintro ⟨file, hfile, entry, hentry, hparsed⟩
    exact ⟨entry, ⟨file, hfile, hentry⟩, hparsed⟩

theorem mem_valid_pages : path ∈ valid_pages d.scanned ↔ path ∈ d.pages := by
  rw [valid_pages, List.mem_insertionSort, List.mem_dedup, mem_parsed_scanned]

/-! ## What the reports say -/

/-- A link as `links` reports it. -/
def page_link (d : Disk) (link : ParsedLink) : PageLink :=
  ⟨link.text, link.raw_target, link.resolved.map PagePath.as_str,
    link.resolved.any fun resolved => !d.is_file (page_file resolved)⟩

section Reports

variable {ext : Externals} {envs : ℕ → Env} {guard : Store → StoreCall → Prop}
  (hreads : ∀ s c, ¬c.Mutates → guard s c) {d : Disk} {t₀ : ℕ}

include hreads

theorem scan_spec :
    Triple (exec ext envs) guard (OnDisk d t₀) Section.scan.run
      (Reads d t₀ fun scanned => scanned = d.scanned) := by
  refine .lift (fun s _ => hreads _ _ id) fun s hs => ⟨⟨hs.1, Nat.le_succ_of_le hs.2⟩,
    fun scanned h => ?_⟩
  have h' : scan (envs s.tick) s.disk = .ok scanned := h
  rw [scan] at h'
  split at h'
  · cases h'
  · rw [← hs.1]
    exact (Except.ok.inj h').symm

theorem is_broken_spec (resolved : Option PagePath) :
    Triple (exec ext envs) guard (OnDisk d t₀) (is_broken resolved).run
      (Reads d t₀ fun broken => broken = resolved.any fun q => !d.is_file (page_file q)) := by
  cases resolved with
  | none => exact .pure fun s hs => ⟨hs, fun broken h => (Except.ok.inj h).symm⟩
  | some q =>
    refine (Triple.fallible_map (page_exists_spec hreads q)).mono (fun s hs => hs) fun r s hr => ?_
    obtain ⟨r', rfl, hs, hr'⟩ := hr
    refine ⟨hs, fun broken h => ?_⟩
    cases r' with
    | error e => cases h
    | ok taken =>
      rw [← Except.ok.inj h, hr' taken rfl]
      rfl

theorem outgoing_links_spec (links : List ParsedLink) (acc : List PageLink) :
    Triple (exec ext envs) guard (OnDisk d t₀) (outgoing_links links acc).run
      (Reads d t₀ fun outgoing => outgoing = acc ++ links.map (page_link d)) := by
  induction links generalizing acc with
  | nil =>
    refine .pure fun s hs => ⟨hs, fun outgoing h => ?_⟩
    simpa using h.symm
  | cons link rest ih =>
    have herr : ∀ e s, OnDisk d t₀ s → Reads d t₀
        (fun outgoing => outgoing = acc ++ (link :: rest).map (page_link d)) (.error e) s :=
      fun e s hs => ⟨hs, fun outgoing h => (by cases h)⟩
    rw [outgoing_links]
    refine read_bind (is_broken_spec hreads link.resolved) herr fun broken hbroken => ?_
    refine (ih _).mono (fun s hs => hs) fun r s hr => ⟨hr.1, fun outgoing h => ?_⟩
    rw [hr.2 outgoing h, hbroken, List.map_cons, List.append_assoc]
    rfl

theorem read_page_spec (path : PagePath) :
    Triple (exec ext envs) guard (OnDisk d t₀) (read_page ext path).run
      (Reads d t₀ fun page => ∃ bytes, d.read (page_file path) = some bytes
        ∧ parse_document ext.yaml ext.chrono bytes path.as_str
          = .ok (page.metadata, page.body)) := by
  have herr : ∀ e s, OnDisk d t₀ s → Reads d t₀ (fun page : Page =>
      ∃ bytes, d.read (page_file path) = some bytes
        ∧ parse_document ext.yaml ext.chrono bytes path.as_str
          = .ok (page.metadata, page.body)) (.error e) s :=
    fun e s hs => ⟨hs, fun page h => (by cases h)⟩
  rw [read_page]
  refine read_bind (read_bytes_spec hreads path) herr fun ⟨bytes, revision⟩ hread => ?_
  refine read_bind (of_except_spec _) herr fun ⟨metadata, body⟩ hparse => ?_
  refine .pure fun s hs => ⟨hs, fun page h => ⟨bytes, hread.1, ?_⟩⟩
  rw [← Except.ok.inj h]
  exact hparse

theorem collect_backlinks_spec (path : PagePath) (pages : List PagePath) (acc : List Backlink) :
    Triple (exec ext envs) guard (OnDisk d t₀) (collect_backlinks ext path pages acc).run
      (Reads d t₀ fun _ => True) := by
  induction pages generalizing acc with
  | nil => exact .pure fun s hs => ⟨hs, fun _ _ => trivial⟩
  | cons other_path rest ih =>
    rw [collect_backlinks]
    by_cases hpath : other_path = path
    · rw [if_pos hpath]
      exact ih acc
    · rw [if_neg hpath]
      refine read_bind (read_bytes_spec hreads other_path)
        (fun e s hs => ⟨hs, fun _ h => (by cases h)⟩) fun ⟨bytes, _⟩ _ => ?_
      dsimp only
      split
      · exact ih acc
      · exact ih _

theorem backlinks_of_spec (path : PagePath) (include_backlinks : Bool) :
    Triple (exec ext envs) guard (OnDisk d t₀) (backlinks_of ext path include_backlinks).run
      (Reads d t₀ fun _ => True) := by
  cases include_backlinks with
  | false => exact .pure fun s hs => ⟨hs, fun _ _ => trivial⟩
  | true =>
    exact read_bind (list_pages_spec hreads) (fun e s hs => ⟨hs, fun _ h => (by cases h)⟩)
      fun pages _ => collect_backlinks_spec hreads path pages []

/-- `links` reports the links of the page's body, each with whether its target is
missing. -/
theorem links_spec (path : PagePath) (include_backlinks : Bool) :
    Triple (exec ext envs) guard (OnDisk d t₀) (links ext path include_backlinks).run
      (Reads d t₀ fun report => ∃ bytes metadata body, d.read (page_file path) = some bytes
        ∧ parse_document ext.yaml ext.chrono bytes path.as_str = .ok (metadata, body)
        ∧ report.outgoing = (parse_links path body).map (page_link d)) := by
  have herr : ∀ e s, OnDisk d t₀ s → Reads d t₀ (fun report : LinksReport =>
      ∃ bytes metadata body, d.read (page_file path) = some bytes
        ∧ parse_document ext.yaml ext.chrono bytes path.as_str = .ok (metadata, body)
        ∧ report.outgoing = (parse_links path body).map (page_link d)) (.error e) s :=
    fun e s hs => ⟨hs, fun report h => (by cases h)⟩
  rw [links]
  refine read_bind (read_page_spec hreads path) herr fun page hpage => ?_
  refine read_bind (outgoing_links_spec hreads _ []) herr fun outgoing houtgoing => ?_
  obtain ⟨bytes, hread, hparse⟩ := hpage
  refine read_bind (backlinks_of_spec hreads path include_backlinks) herr fun backlinks _ => ?_
  refine .pure fun s hs => ⟨hs, fun report h => ?_⟩
  rw [← Except.ok.inj h]
  exact ⟨bytes, page.metadata, page.body, hread, hparse, houtgoing⟩

end Reports

/-- Reading a page does not fail for reasons of the file system. -/
def Undisturbed (envs : ℕ → Env) : Prop :=
  ∀ t, (envs t).faults .resolve = none ∧ (envs t).faults .read = none

/-- What `read_bytes` then answers. -/
def read_result (ext : Externals) (d : Disk) (path : PagePath) : Except MemoryError (Bytes × Text) :=
  (ok_or (d.read (page_file path)) (.NotFound path.as_str)).map fun bytes =>
    (bytes, revision_of ext bytes)

section Check

variable {ext : Externals} {envs : ℕ → Env} {guard : Store → StoreCall → Prop}
  (hreads : ∀ s c, ¬c.Mutates → guard s c) (hcalm : Undisturbed envs) {d : Disk} {t₀ : ℕ}

include hreads hcalm

theorem try_read_bytes_spec (path : PagePath) :
    Triple (exec ext envs) guard (OnDisk d t₀) (try_read_bytes path).run
      (Reads d t₀ fun result => result = read_result ext d path) := by
  have hlift : Triple (exec ext envs) guard (OnDisk d t₀) (Prog.lift (StoreCall.read_bytes path))
      fun r s => OnDisk d t₀ s ∧ r = read_result ext d path := by
    refine .lift (fun s _ => hreads _ _ id) fun s hs =>
      ⟨⟨hs.1, Nat.le_succ_of_le hs.2⟩, ?_⟩
    obtain ⟨hresolve, hread⟩ := hcalm s.tick
    simp [exec, read_bytes, hresolve, hread, read_result, hs.1]
  refine .bind hlift fun r => .ret fun s hs => ⟨hs.1, fun result h => ?_⟩
  rw [← Except.ok.inj h]
  exact hs.2

theorem check_pages_spec (valid_paths pages : List PagePath) (acc : List CheckIssue) :
    Triple (exec ext envs) guard (OnDisk d t₀) (check_pages ext valid_paths pages acc).run
      (Reads d t₀ fun issues => issues = acc ++ pages.flatMap fun path =>
        page_issues ext valid_paths path (read_result ext d path)) := by
  induction pages generalizing acc with
  | nil =>
    refine .pure fun s hs => ⟨hs, fun issues h => ?_⟩
    simpa using h.symm
  | cons path rest ih =>
    rw [check_pages]
    refine read_bind (try_read_bytes_spec hreads hcalm path)
      (fun e s hs => ⟨hs, fun _ h => (by cases h)⟩) fun result hresult => ?_
    refine (ih _).mono (fun s hs => hs) fun r s hr => ⟨hr.1, fun issues h => ?_⟩
    rw [hr.2 issues h, hresult, List.flatMap_cons, List.append_assoc]

/-- `check` reports the files that are no pages, and then goes through the pages. -/
theorem check_spec :
    Triple (exec ext envs) guard (OnDisk d t₀) (check ext).run (Reads d t₀ fun report => report.issues
        = ((d.scanned.filter fun entry => entry.parsed = none).map fun entry =>
            ⟨some entry.relative_path, .invalid_name⟩)
          ++ (valid_pages d.scanned).flatMap fun path =>
            page_issues ext (valid_pages d.scanned) path (read_result ext d path)) := by
  rw [check]
  refine read_bind (scan_spec hreads) (fun e s hs => ⟨hs, fun _ h => (by cases h)⟩)
    fun scanned hscanned => ?_
  subst hscanned
  refine read_bind (check_pages_spec hreads hcalm _ _ _)
    (fun e s hs => ⟨hs, fun _ h => (by cases h)⟩) fun issues hissues => ?_
  refine .pure fun s hs => ⟨hs, fun report h => ?_⟩
  rw [← Except.ok.inj h, hissues]

end Check

/-! ## Links that are reported broken -/

/-- `check` reports the link from one page to the other as broken. -/
def CheckReport.Breaks (report : CheckReport) (path : PagePath) (resolved : Text) : Prop :=
  ⟨some path.as_str, .broken_link resolved⟩ ∈ report.issues

theorem not_mem_duplicate_tags (path : PagePath) (tags seen : List Text) (place : Option Text)
    (resolved : Text) : ⟨place, .broken_link resolved⟩ ∉ duplicate_tags path tags seen := by
  induction tags generalizing seen with
  | nil => simp [duplicate_tags]
  | cons tag rest ih =>
    rw [duplicate_tags]
    by_cases h : tag ∈ seen
    · rw [if_pos h, List.mem_cons, not_or]
      exact ⟨by simp, ih seen⟩
    · rw [if_neg h]
      exact ih _

theorem mem_broken_links {valid_paths : List PagePath} {path other : PagePath} {body resolved : Text} :
    ⟨some other.as_str, .broken_link resolved⟩ ∈ broken_links valid_paths path body ↔
      other = path ∧ ∃ link ∈ parse_links path body, ∃ q, link.resolved = some q ∧ q ∉ valid_paths
        ∧ q.as_str = resolved := by
  unfold broken_links
  rw [List.mem_filterMap]
  constructor
  · rintro ⟨link, hlink, h⟩
    cases hresolved : link.resolved with
    | none => simp [hresolved] at h
    | some q =>
      simp only [hresolved] at h
      by_cases hq : q ∈ valid_paths
      · simp [hq] at h
      · rw [if_neg hq] at h
        obtain ⟨hpath, hmessage⟩ := CheckIssue.mk.inj (Option.some.inj h)
        exact ⟨(PagePath.as_str_injective (Option.some.inj hpath)).symm, link, hlink, q, hresolved,
          hq, CheckMessage.broken_link.inj hmessage⟩
  · rintro ⟨rfl, link, hlink, q, hresolved, hq, rfl⟩
    exact ⟨link, hlink, by simp [hresolved, hq]⟩

/-- **What `check` reports broken.** A link of a listed page to a page that is not
listed. -/
theorem breaks_iff {ext : Externals} {envs : ℕ → Env} {s : Store} {report : CheckReport}
    (hcalm : Undisturbed envs) (h : ((check ext).run.run (exec ext envs) s).1 = .ok report)
    (path : PagePath) (resolved : Text) :
    report.Breaks path resolved ↔ path ∈ s.disk.pages ∧ ∃ bytes metadata body,
      s.disk.read (page_file path) = some bytes
      ∧ parse_document ext.yaml ext.chrono bytes path.as_str = .ok (metadata, body)
      ∧ ∃ link ∈ parse_links path body, ∃ q, link.resolved = some q ∧ q ∉ s.disk.pages
        ∧ q.as_str = resolved := by
  have hreads : ∀ (s : Store) (c : StoreCall), ¬c.Mutates → (fun _ _ => True) s c :=
    fun _ _ _ => trivial
  have hissues := ((check_spec hreads hcalm s ⟨rfl, le_refl s.tick⟩).2).2 report h
  unfold CheckReport.Breaks
  rw [hissues, List.mem_append, List.mem_map, List.mem_flatMap]
  constructor
  · rintro (⟨entry, -, hentry⟩ | ⟨p, hp, hmem⟩)
    · simp at hentry
    · unfold page_issues read_result at hmem
      cases hread : s.disk.read (page_file p) with
      | none => simp [hread, ok_or, Except.map] at hmem
      | some bytes =>
        cases hparse : parse_document ext.yaml ext.chrono bytes p.as_str with
        | error e => simp [hread, ok_or, Except.map, hparse] at hmem
        | ok document =>
          obtain ⟨metadata, body⟩ := document
          simp only [hread, ok_or, Except.map, hparse, List.mem_append] at hmem
          rcases hmem with hmem | hmem
          · exact absurd hmem (not_mem_duplicate_tags _ _ _ _ _)
          · obtain ⟨rfl, link, hlink, q, hq, hnot, hstr⟩ := mem_broken_links.1 hmem
            exact ⟨mem_valid_pages.1 hp, bytes, metadata, body, hread, hparse, link, hlink, q,
              hq, fun hq' => hnot (mem_valid_pages.2 hq'), hstr⟩
  · rintro ⟨hp, bytes, metadata, body, hread, hparse, link, hlink, q, hq, hnot, hstr⟩
    refine Or.inr ⟨path, mem_valid_pages.2 hp, ?_⟩
    simp only [page_issues, read_result, hread, ok_or, Except.map, hparse, List.mem_append]
    exact Or.inr (mem_broken_links.2 ⟨rfl, link, hlink, q, hq,
      fun hq' => hnot (mem_valid_pages.1 hq'), hstr⟩)

end AgentSpace.Memory
