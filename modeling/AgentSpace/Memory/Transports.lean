/-
When the HTTP client answers as the direct client does.

Between them lie the query string, which joins the tags with commas, and the response,
whose errors are rebuilt from their kinds and whose size is bounded. What a request loses
on the way decides on which corpora the two clients differ (`Survives`).
-/
import AgentSpace.Memory.StoredPages
import AgentSpace.Memory.Wire

set_option autoImplicit false

namespace AgentSpace.Memory

open Text Lib

/-! ## Agreement -/

/-- The same result, or the same kind of error. The kinds of foreign errors are not
among those the HTTP client knows; it calls them internal. -/
def SameAnswer : Except MemoryError (List PageSummary) → Except MemoryError (List PageSummary) → Prop
  | .ok pages, .ok pages' => pages = pages'
  | .error e, .error e' => e'.kind = if e.Foreign then "internal" else e.kind
  | _, _ => False

/-- The two clients agree on a request to a store: their answers are the same, or
the answer of the direct client is too long for a response, and the HTTP client
says so. -/
def ClientsAgree (ext : Externals) (remote : Remote) (envs : ℕ → Env) (s : Store)
    (request : ReadRequest) : Prop :=
  SameAnswer ((direct_client ext request).run.run (exec ext envs) s).1
      ((http_client ext remote request).run.run (exec ext envs) s).1
    ∨ (response_body remote ((direct_client ext request).run.run (exec ext envs) s).1).size
        > MAX_JSON_RESPONSE_BYTES
      ∧ ∃ what limit, ((http_client ext remote request).run.run (exec ext envs) s).1
        = .error (.TooLarge what limit)

/-- No store call fails with an error of the operating system. -/
def NoIo (envs : ℕ → Env) : Prop := ∀ t step message, (envs t).faults step ≠ some (.io message)

/-- A request survives the query string. Its page path parses back to itself, for
which a text that is refused anyway only needs it to parse; and its tags are not
blank and have no comma, unless the path is too long for any page under it to be
listed. -/
def Survives (request : ReadRequest) : Prop :=
  if utf8_len (request.text.getD []) > MAX_QUERY_LENGTH then
    ∀ u ∈ request.filter.under, ∃ u', PagePath.parse u.as_str = .ok u'
  else
    (∀ u ∈ request.filter.under, ¬MARKDOWN_EXTENSION <:+ u.as_str)
      ∧ ((∃ u ∈ request.filter.under, ¬Listed u)
        ∨ ∀ tag ∈ request.filter.with_tags, ',' ∉ tag ∧ trim tag ≠ [])

/-! ## What arrives at the service -/

/-- The tags the service reads from the query string. -/
def wire_tags (with_tags : List Text) : List Text :=
  if with_tags ≠ [] then ((split ',' (join [','] with_tags)).map trim).filter (· ≠ []) else []

theorem tags_from_pairs (under text : Option Text) (with_tags : List Text) (limit : Option UInt64) :
    ListPagesQuery.tags ⟨under, if with_tags ≠ [] then some (join [','] with_tags) else none, limit,
      text⟩ = wire_tags with_tags := by
  unfold ListPagesQuery.tags wire_tags
  by_cases h : with_tags = []
  · simp [h]
  · simp [h]

theorem wire_tags_eq {with_tags : List Text} (h : ∀ tag ∈ with_tags, ',' ∉ tag ∧ trim tag ≠ []) :
    wire_tags with_tags = with_tags.map trim := by
  unfold wire_tags
  by_cases hne : with_tags = []
  · simp [hne]
  · rw [if_pos hne, split_join hne fun tag htag => (h tag htag).1, List.filter_eq_self]
    intro tag htag
    obtain ⟨raw, hraw, rfl⟩ := List.mem_map.1 htag
    simpa using (h raw hraw).2

theorem mem_wire_tags {with_tags : List Text} {tag : Text} (h : tag ∈ wire_tags with_tags) :
    ∃ part, ',' ∉ part ∧ tag = trim part ∧ tag ≠ [] := by
  unfold wire_tags at h
  split_ifs at h with hne
  · obtain ⟨hmem, htag⟩ := List.mem_filter.1 h
    obtain ⟨part, hpart, rfl⟩ := List.mem_map.1 hmem
    exact ⟨part, not_mem_of_mem_split hpart, rfl, by simpa using htag⟩
  · simp at h

section Arrival

variable {ext : Externals} {remote : Remote} {envs : ℕ → Env} {s : Store} {request : ReadRequest}

theorem direct_client_eq (request : ReadRequest) :
    direct_client ext request = query_pages ext ⟨request.text.getD [], request.filter⟩ := by
  cases request <;> rfl

/-- The request as the handler hands it on. -/
def arrived (request : ReadRequest) (under : Option PagePath) : QueryRequest :=
  ⟨request.text.getD [], ⟨under, wire_tags request.filter.with_tags, request.filter.limit⟩⟩

/-- The handler, as the service runs it behind the query string. -/
def handler (ext : Externals) (request : ReadRequest) : Section (List PageSummary) :=
  handle_list_pages ext ⟨request.filter.under.map PagePath.as_str,
    if request.filter.with_tags ≠ [] then some (join [','] request.filter.with_tags) else none,
    request.filter.limit, request.text.filter (· ≠ [])⟩

/-- A path that parses back as `under` is searched. -/
theorem handler_of_parse (under : Option PagePath)
    (h : ∀ u ∈ request.filter.under, ∃ u', PagePath.parse u.as_str = .ok u' ∧ under = some u')
    (hnone : request.filter.under = none → under = none) :
    handler ext request = query_pages ext (arrived request under) := by
  have hparse : parse_under (request.filter.under.map PagePath.as_str) = .ok under := by
    cases hu : request.filter.under with
    | none => rw [hnone hu]; rfl
    | some u =>
      obtain ⟨u', hu', rfl⟩ := h u hu
      simp [parse_under, hu', Except.map]
  have htext : (request.text.filter (· ≠ [])).filter (· ≠ [])
      = request.text.filter (· ≠ []) := by
    cases request.text with
    | none => rfl
    | some t => by_cases ht : t = [] <;> simp [ht]
  unfold handler handle_list_pages arrived
  dsimp only
  rw [hparse, tags_from_pairs, htext]
  cases ht : request.text with
  | none => rfl
  | some t =>
    by_cases hnil : t = []
    · subst hnil
      rfl
    · rw [Option.filter_some, if_pos (by simpa using hnil)]
      rfl

/-- A path that does not parse is an error. -/
theorem handler_of_error {u : PagePath} {e : MemoryError} (hu : request.filter.under = some u)
    (h : PagePath.parse u.as_str = .error e) :
    ((handler ext request).run.run (exec ext envs) s) = (.error e, s) := by
  have hparse : parse_under (request.filter.under.map PagePath.as_str) = .error e := by
    simp [parse_under, hu, h, Except.map]
  unfold handler handle_list_pages
  dsimp only
  rw [hparse]
  rfl

/-- **The HTTP client.** It receives the response to the handler's result. -/
theorem run_http_client (remote : Remote) (request : ReadRequest) :
    ((http_client ext remote request).run.run (exec ext envs) s).1
      = receive remote (into_response remote ((handler ext request).run.run (exec ext envs) s).1) := by
  have hpairs : serve_list_pages ext remote (list_filter_query request.filter request.text)
      = (handler ext request).run >>= fun result => Prog.ret (into_response remote result) := by
    unfold serve_list_pages
    rw [from_pairs_list_filter_query]
    rfl
  have hrun : (http_client ext remote request).run
      = (serve_list_pages ext remote (list_filter_query request.filter request.text)
        >>= fun response => Prog.ret (receive remote response)) := rfl
  rw [hrun, hpairs, Prog.run_bind, Prog.run_bind]
  rfl

end Arrival

/-! ## The errors of a query -/

section Benign

variable {ext : Externals} {envs : ℕ → Env} {α β : Type}

/-- The section does not end with a foreign error. -/
def Benign (ext : Externals) (envs : ℕ → Env) (p : Section α) : Prop :=
  ∀ s e, (p.run.run (exec ext envs) s).1 = .error e → ¬e.Foreign

theorem benign_pure (a : α) : Benign ext envs (pure a : Section α) := by
  intro s e h
  cases h

theorem benign_bind {p : Section α} {f : α → Section β} (hp : Benign ext envs p)
    (hf : ∀ a, Benign ext envs (f a)) : Benign ext envs (p >>= f) := by
  intro s e h
  have hrun := Fallible.run_bind (exec ext envs) p.run f s
  cases hresult : p.run.run (exec ext envs) s with
  | mk result s' =>
    rw [hresult] at hrun
    cases result with
    | ok a =>
      refine hf a s' e ?_
      rw [← h]
      exact congrArg Prod.fst hrun.symm
    | error e' =>
      have he : (Except.error e' : Except MemoryError β) = .error e :=
        (congrArg Prod.fst hrun.symm).trans h
      rw [← Except.error.inj he]
      exact hp s e' (by rw [hresult])

theorem foreign_to_error {failure : Failure} (h : ∀ message, failure ≠ .io message) :
    ¬failure.to_error.Foreign := by
  cases failure with
  | io message => exact absurd rfl (h message)
  | symlink path => exact id

theorem benign_read_bytes (hio : NoIo envs) (path : PagePath) :
    Benign ext envs (Section.read_bytes path) := by
  intro s e h
  have h' : (read_bytes (envs s.tick) s.disk path).map
      (fun bytes => (bytes, revision_of ext bytes)) = .error e := h
  unfold read_bytes at h'
  cases hresolve : (envs s.tick).faults .resolve with
  | some failure =>
    rw [hresolve] at h'
    rw [← Except.error.inj h']
    exact foreign_to_error fun message hm => hio s.tick .resolve message (hm ▸ hresolve)
  | none =>
    rw [hresolve] at h'
    dsimp only at h'
    cases hread : (envs s.tick).faults .read with
    | some failure =>
      rw [hread] at h'
      rw [← Except.error.inj h']
      exact foreign_to_error fun message hm => hio s.tick .read message (hm ▸ hread)
    | none =>
      rw [hread] at h'
      cases hbytes : s.disk.read (page_file path) with
      | some bytes => simp [hbytes, ok_or, Except.map] at h'
      | none =>
        simp only [hbytes, ok_or, Except.map, Except.error.injEq] at h'
        rw [← h']
        exact id

theorem benign_list_pages (hio : NoIo envs) : Benign ext envs Section.list_pages := by
  intro s e h
  have h' : list_pages (envs s.tick) s.disk = .error e := h
  unfold list_pages at h'
  cases hscan : (envs s.tick).faults .scan with
  | some failure =>
    rw [hscan] at h'
    rw [← Except.error.inj h']
    exact foreign_to_error fun message hm => hio s.tick .scan message (hm ▸ hscan)
  | none => simp [hscan] at h'

theorem benign_return_error_if (condition : Prop) [Decidable condition] {error : MemoryError}
    (h : ¬error.Foreign) : Benign ext envs (Section.return_error_if condition error) := by
  intro s e he
  by_cases hc : condition
  · have he' : (if condition then Except.error error else .ok ()) = Except.error e := he
    rw [if_pos hc] at he'
    rwa [← Except.error.inj he']
  · have he' : (if condition then Except.error error else .ok ()) = Except.error e := he
    rw [if_neg hc] at he'
    cases he'

theorem benign_query_loop (hio : NoIo envs) (under : Option PagePath) (with_tags : List Text)
    (needle : Text) (limit : ℕ) (pages : List PagePath) (results : List PageSummary) :
    Benign ext envs (query_loop ext under with_tags needle limit pages results) := by
  induction pages generalizing results with
  | nil => exact benign_pure results
  | cons page_path rest ih =>
    rw [query_loop]
    split
    · exact ih results
    · refine benign_bind (benign_read_bytes hio page_path) fun ⟨bytes, _⟩ => ?_
      dsimp only
      split
      · exact ih results
      · split
        · exact benign_pure _
        · exact ih _

theorem benign_query_pages (hio : NoIo envs) (request : QueryRequest) :
    Benign ext envs (query_pages ext request) := by
  rw [query_pages]
  refine benign_bind (benign_return_error_if _ id) fun _ => ?_
  refine benign_bind (benign_list_pages hio) fun pages => ?_
  exact benign_query_loop hio _ _ _ _ _ _

end Benign

/-! ## Requests that survive -/

section Survives

variable {ext : Externals} {remote : Remote} {envs : ℕ → Env} {s : Store} {request : ReadRequest}

/-- If the handler runs as the direct client does, the clients agree. -/
theorem clients_agree_of_run_eq (hremote : remote.Lawful)
    (h : (handler ext request).run.run (exec ext envs) s
      = (direct_client ext request).run.run (exec ext envs) s) :
    ClientsAgree ext remote envs s request := by
  unfold ClientsAgree
  rw [run_http_client, h, receive_into_response hremote]
  by_cases hsize : (response_body remote
      ((direct_client ext request).run.run (exec ext envs) s).1).size > MAX_JSON_RESPONSE_BYTES
  · rw [if_pos hsize]
    exact Or.inr ⟨hsize, _, _, rfl⟩
  · rw [if_neg hsize]
    left
    cases hresult : ((direct_client ext request).run.run (exec ext envs) s).1 with
    | ok pages => rfl
    | error e => exact kind_into_memory_error remote.debug e

/-- The tags of a query count only by what they are normalized to. -/
theorem query_pages_congr {a b : QueryRequest} (htext : a.text = b.text)
    (hunder : a.filter.under = b.filter.under) (hlimit : a.filter.limit = b.filter.limit)
    (htags : a.filter.with_tags.map (normalize_tag ext)
      = b.filter.with_tags.map (normalize_tag ext)) : query_pages ext a = query_pages ext b := by
  unfold query_pages
  rw [htext, hunder, hlimit, htags]

theorem normalize_tag_trim (tag : Text) : normalize_tag ext (trim tag) = normalize_tag ext tag := by
  unfold normalize_tag
  rw [trim_trim]

/-- A query whose text is too long does nothing else. -/
theorem query_pages_too_long (request : QueryRequest) (h : utf8_len request.text > MAX_QUERY_LENGTH) :
    (query_pages ext request).run.run (exec ext envs) s
      = (.error (.TooLarge "query text" MAX_QUERY_LENGTH), s) := by
  unfold query_pages Section.return_error_if
  rw [if_pos h]
  rfl

theorem listed_of_is_under {u path : PagePath} (h : is_under u path = true) (hpath : Listed path) :
    Listed u := by
  unfold is_under at h
  rw [Bool.and_eq_true] at h
  have htake : path.segments.take u.segments.length = u.segments := by simpa using h.2
  have hjoin : ∀ (segments : List Text) (n : ℕ), n ≠ 0 →
      utf8_len (join ['/'] (segments.take n)) ≤ utf8_len (join ['/'] segments) := by
    intro segments
    induction segments with
    | nil => simp
    | cons a rest ih =>
      intro n hn
      obtain ⟨m, rfl⟩ := Nat.exists_eq_succ_of_ne_zero hn
      rw [List.take_succ_cons]
      cases rest with
      | nil => simp
      | cons b rest =>
        cases m with
        | zero =>
          rw [List.take_zero, join_singleton, join_cons_cons]
          simp only [utf8_len_append]
          omega
        | succ k =>
          have := ih (k + 1) (by omega)
          rw [List.take_succ_cons] at this ⊢
          rw [join_cons_cons, join_cons_cons]
          simp only [utf8_len_append]
          omega
  have hle := hjoin path.segments u.segments.length
    (by simpa using u.valid.nonempty)
  rw [htake] at hle
  unfold Listed PagePath.as_str at *
  omega

/-- Under a path that is too long there is nothing to find. -/
theorem query_loop_skip {u : PagePath} (hu : ¬Listed u) (with_tags : List Text) (needle : Text)
    (limit : ℕ) (pages : List PagePath) (results : List PageSummary)
    (hpages : ∀ path ∈ pages, Listed path) :
    query_loop ext (some u) with_tags needle limit pages results = pure results := by
  induction pages with
  | nil => rfl
  | cons path rest ih =>
    have hskip : is_under u path = false := by
      by_contra h
      exact hu (listed_of_is_under (by simpa using h) (hpages path (by simp)))
    rw [query_loop, if_pos (by simp [hskip])]
    exact ih fun p hp => hpages p (by simp [hp])

/-- A query whose text is short enough goes through the listing. -/
theorem run_query_pages {request : QueryRequest} (h : ¬utf8_len request.text > MAX_QUERY_LENGTH) :
    (query_pages ext request).run.run (exec ext envs) s
      = match list_pages (envs s.tick) s.disk with
        | .error e => (.error e, ⟨s.disk, s.tick + 1⟩)
        | .ok pages => (query_loop ext request.filter.under
            (request.filter.with_tags.map (normalize_tag ext)) (ext.to_lowercase request.text)
            ((request.filter.limit.map UInt64.toNat).getD DEFAULT_LIST_LIMIT) pages []).run.run
              (exec ext envs) ⟨s.disk, s.tick + 1⟩ := by
  have hlist : Section.list_pages.run.run (exec ext envs) s
      = (list_pages (envs s.tick) s.disk, ⟨s.disk, s.tick + 1⟩) := rfl
  unfold query_pages Section.return_error_if
  rw [if_neg h]
  show (Section.list_pages >>= _).run.run (exec ext envs) s = _
  refine (Fallible.run_bind (exec ext envs) Section.list_pages.run _ s).trans ?_
  rw [hlist]
  cases list_pages (envs s.tick) s.disk <;> rfl

theorem list_pages_ok {env : Env} {d : Disk} {pages : List PagePath}
    (h : list_pages env d = .ok pages) : pages = d.pages := by
  unfold list_pages at h
  split at h
  · cases h
  · exact (Except.ok.inj h).symm

theorem query_pages_skip {a b : QueryRequest} {u : PagePath} (hu : ¬Listed u)
    (htext : a.text = b.text) (ha : a.filter.under = some u) (hb : b.filter.under = some u) :
    (query_pages ext a).run.run (exec ext envs) s
      = (query_pages ext b).run.run (exec ext envs) s := by
  by_cases hlong : utf8_len b.text > MAX_QUERY_LENGTH
  · rw [query_pages_too_long _ hlong, query_pages_too_long _ (htext ▸ hlong)]
  · rw [run_query_pages hlong, run_query_pages (htext ▸ hlong)]
    cases hlist : list_pages (envs s.tick) s.disk with
    | error e => rfl
    | ok pages =>
      have hpages : ∀ path ∈ pages, Listed path := fun path hpath => by
        rw [list_pages_ok hlist] at hpath
        exact listed_of_mem_list_pages hpath
      dsimp only
      rw [ha, hb, query_loop_skip hu _ _ _ _ _ hpages, query_loop_skip hu _ _ _ _ _ hpages]

theorem clients_agree_of_survives (hremote : remote.Lawful) (h : Survives request) :
    ClientsAgree ext remote envs s request := by
  refine clients_agree_of_run_eq hremote ?_
  rw [direct_client_eq]
  unfold Survives at h
  split_ifs at h with hlong
  · -- the text is refused, whatever became of the filter
    cases hu : request.filter.under with
    | none =>
      rw [handler_of_parse none (by simp [hu]) fun _ => rfl]
      rw [query_pages_too_long (arrived request none) hlong, query_pages_too_long _ hlong]
    | some u =>
      obtain ⟨u', hu'⟩ := h u hu
      rw [handler_of_parse (some u') (by simp [hu, hu']) (by simp [hu])]
      rw [query_pages_too_long (arrived request (some u')) hlong,
        query_pages_too_long _ hlong]
  · obtain ⟨hunder, htags⟩ := h
    rw [handler_of_parse request.filter.under
      (fun u hu => ⟨u, PagePath.parse_as_str u (hunder u hu), hu⟩) id]
    rcases htags with ⟨u, hu, hlisted⟩ | htags
    · exact query_pages_skip hlisted rfl hu hu
    · refine congrArg (fun p : Section (List PageSummary) => p.run.run (exec ext envs) s)
        (query_pages_congr rfl rfl rfl ?_)
      show (wire_tags request.filter.with_tags).map _ = request.filter.with_tags.map _
      rw [wire_tags_eq htags, List.map_map]
      exact List.map_congr_left fun tag _ => normalize_tag_trim tag

end Survives

/-! ## Requests that do not survive -/

/-- What is relied on of Unicode's lowercase mapping: it neither makes nor removes a
comma, only the empty text becomes empty, and a space ends a word, so the mapping
of a text goes on behind it as at its start. -/
structure Externals.Lowers (ext : Externals) : Prop where
  comma : ∀ t, ',' ∈ ext.to_lowercase t ↔ ',' ∈ t
  nil : ∀ t, ext.to_lowercase t = [] ↔ t = []
  space : ∀ s t, ext.to_lowercase (s ++ ' ' :: t) = ext.to_lowercase s ++ ' ' :: ext.to_lowercase t

/-- There is a document with this title and these tags. -/
def Documented (ext : Externals) (title : Text) (tags : List Text) : Prop :=
  ∃ bytes, ∀ path_hint, ∃ metadata body,
    parse_document ext.yaml ext.chrono bytes path_hint = .ok (metadata, body)
      ∧ metadata.title = title ∧ metadata.tags = tags

/-- A store with one page. -/
def one_page (path : PagePath) (bytes : Bytes) : Store :=
  ⟨(⟨∅, ∅⟩ : Disk).put (page_file path) bytes, 0⟩

theorem pages_one_page {path : PagePath} (bytes : Bytes) (h : Listed path) :
    (one_page path bytes).disk.pages = [path] := by
  have hkeys : (one_page path bytes).disk.files.keys = [page_file path] := by
    have hlength : (one_page path bytes).disk.files.keys.length = 1 := by
      rw [Std.ExtTreeMap.length_keys]
      exact Std.ExtTreeMap.size_insert
    obtain ⟨k, hk⟩ := List.length_eq_one_iff.1 hlength
    have hmem : page_file path ∈ (one_page path bytes).disk.files.keys := by
      rw [Std.ExtTreeMap.mem_keys]
      exact Std.ExtTreeMap.mem_insert_self
    rw [hk, List.mem_singleton] at hmem
    rw [hk, hmem]
  have hscanned : scanned_page (page_file path) = some path := by
    have hmem := mem_list_pages (d := (one_page path bytes).disk) h (by
      simp [one_page, Disk.read_put])
    rw [List.mem_insertionSort, hkeys, List.mem_filterMap] at hmem
    obtain ⟨file, hfile, hpath⟩ := hmem
    rwa [List.mem_singleton.1 hfile] at hpath
  unfold Disk.pages
  rw [hkeys]
  simp [hscanned]

theorem noIo_calm : NoIo calm := by
  intro t step message h
  cases h

section NotSurvives

variable {ext : Externals} {remote : Remote}

/-- A page whose title is the text that is searched is found by its path and tags
alone. -/
theorem run_query_one_page (hlowers : ext.Lowers) (request : QueryRequest) {path : PagePath}
    {bytes : Bytes} {metadata : PageMetadata} {body : Text} (hlisted : Listed path)
    (hshort : ¬utf8_len request.text > MAX_QUERY_LENGTH)
    (hparse : parse_document ext.yaml ext.chrono bytes path.as_str = .ok (metadata, body))
    (htitle : metadata.title = request.text) :
    ((query_pages ext request).run.run (exec ext calm) (one_page path bytes)).1
      = .ok (if (∀ u ∈ request.filter.under, is_under u path = true)
          ∧ (∀ tag ∈ request.filter.with_tags, normalize_tag ext tag ∈ metadata.tags) then
        [⟨path.as_str, metadata.title, metadata.tags, metadata.updated_at⟩] else []) := by
  have hlist : list_pages (calm (one_page path bytes).tick) (one_page path bytes).disk = .ok [path] := by
    rw [← pages_one_page bytes hlisted]
    rfl
  have hread : (Section.read_bytes path).run.run (exec ext calm)
      ⟨(one_page path bytes).disk, (one_page path bytes).tick + 1⟩
      = (.ok (bytes, revision_of ext bytes),
        ⟨(one_page path bytes).disk, (one_page path bytes).tick + 2⟩) := by
    have hfile : (one_page path bytes).disk.read (page_file path) = some bytes := by
      rw [one_page, Disk.read_put, if_pos rfl]
    have hbytes : read_bytes (calm 1) (one_page path bytes).disk path = .ok bytes := by
      show ok_or ((one_page path bytes).disk.read (page_file path)) _ = _
      rw [hfile]
      rfl
    show ((read_bytes (calm 1) (one_page path bytes).disk path).map _, _) = _
    rw [hbytes]
    rfl
  have hfound : found_page ext (request.filter.with_tags.map (normalize_tag ext))
      (ext.to_lowercase request.text) path bytes
      = if ∀ tag ∈ request.filter.with_tags, normalize_tag ext tag ∈ metadata.tags then
          some ⟨path.as_str, metadata.title, metadata.tags, metadata.updated_at⟩ else none := by
    -- the title stands between spaces
    have hcontains : contains_str (ext.to_lowercase request.text)
        (ext.to_lowercase (haystack path metadata body)) = true := by
      have hhay : haystack path metadata body
          = path.as_str ++ ' ' :: (request.text ++ ' ' :: (join [' '] metadata.tags ++ ' ' :: body)) := by
        unfold haystack
        rw [htitle]
        simp
      rw [hhay, hlowers.space, hlowers.space]
      unfold contains_str
      rw [decide_eq_true_iff]
      exact ⟨ext.to_lowercase path.as_str ++ [' '],
        ' ' :: ext.to_lowercase (join [' '] metadata.tags ++ ' ' :: body), by simp⟩
    unfold found_page
    rw [hparse]
    dsimp only
    unfold selected
    rw [hcontains, Bool.or_true, Bool.and_true]
    simp
  rw [run_query_pages hshort, hlist]
  dsimp only
  rw [query_loop]
  have hany : (request.filter.under.any fun u => !is_under u path) = true
      ↔ ¬∀ u ∈ request.filter.under, is_under u path = true := by
    cases request.filter.under <;> simp
  by_cases hunder : ∀ u ∈ request.filter.under, is_under u path = true
  · rw [if_neg fun h => hany.1 h hunder]
    refine (congrArg Prod.fst
      (Fallible.run_bind (exec ext calm) (Section.read_bytes path).run _ _)).trans ?_
    rw [hread]
    dsimp only
    rw [hfound]
    by_cases htags : ∀ tag ∈ request.filter.with_tags, normalize_tag ext tag ∈ metadata.tags
    · rw [if_pos htags, if_pos ⟨hunder, htags⟩]
      dsimp only
      split <;> rfl
    · rw [if_neg htags, if_neg fun h => htags h.2]
      rfl
  · rw [if_pos (hany.2 hunder), if_neg fun h => hunder h.1]
    rfl

variable {request : ReadRequest}

/-- Two answers of which one is empty are told apart. -/
theorem clients_differ (hremote : remote.Lawful) {envs : ℕ → Env} {s : Store} {direct served : List PageSummary}
    (hdirect : ((query_pages ext ⟨request.text.getD [], request.filter⟩).run.run (exec ext envs) s).1
      = .ok direct) (hserved : ((handler ext request).run.run (exec ext envs) s).1 = .ok served)
    (hne : direct ≠ served) (hempty : direct = [] ∨ served = []) :
    ¬ClientsAgree ext remote envs s request := by
  have hshort : ¬(response_body remote (.ok [])).size > MAX_JSON_RESPONSE_BYTES :=
    not_lt.2 hremote.no_pages
  unfold ClientsAgree
  rw [run_http_client, hserved, receive_into_response hremote, direct_client_eq, hdirect]
  rcases hempty with rfl | rfl
  · rintro (hsame | ⟨hlong, -⟩)
    · by_cases hsize : (response_body remote (.ok served)).size > MAX_JSON_RESPONSE_BYTES
      · rw [if_pos hsize] at hsame
        exact hsame
      · rw [if_neg hsize] at hsame
        exact hne hsame
    · exact hshort hlong
  · rw [if_neg hshort]
    rintro (hsame | ⟨-, what, limit, herror⟩)
    · exact hne hsame
    · cases herror

theorem clients_differ_of_error (hremote : remote.Lawful) {envs : ℕ → Env} {s : Store} {e : MemoryError}
    (hdirect : ((query_pages ext ⟨request.text.getD [], request.filter⟩).run.run (exec ext envs) s).1
      = .ok []) (hserved : ((handler ext request).run.run (exec ext envs) s).1 = .error e) :
    ¬ClientsAgree ext remote envs s request := by
  unfold ClientsAgree
  rw [run_http_client, hserved, receive_into_response hremote, direct_client_eq, hdirect]
  rintro (hsame | ⟨hlong, -⟩)
  · split_ifs at hsame
    · exact hsame
    · exact hsame
  · exact absurd hlong (not_lt.2 hremote.no_pages)

theorem run_query_no_pages {request : QueryRequest} (hshort : ¬utf8_len request.text > MAX_QUERY_LENGTH) :
    ((query_pages ext request).run.run (exec ext calm) no_pages).1 = .ok [] := by
  rw [run_query_pages hshort]
  rfl

theorem is_under_self (path : PagePath) : is_under path path = true := by
  simp [is_under]

theorem eq_of_is_under {u path : PagePath} (h : is_under u path = true)
    (hlength : path.segments.length = u.segments.length) : u = path := by
  unfold is_under at h
  rw [Bool.and_eq_true] at h
  have htake : path.segments.take u.segments.length = u.segments := by simpa using h.2
  rw [← hlength, List.take_length] at htake
  exact PagePath.ext htake.symm

theorem parse_as_str_of_suffix {u u' : PagePath} (hsuffix : MARKDOWN_EXTENSION <:+ u.as_str)
    (h : PagePath.parse u.as_str = .ok u') :
    u' ≠ u ∧ u'.segments.length = u.segments.length ∧ Listed u' := by
  obtain ⟨stem, hstem⟩ := hsuffix
  obtain ⟨-, hsegments⟩ := PagePath.parse_ok h
  have hmd : utf8_len MARKDOWN_EXTENSION = 3 := by decide
  rw [← hstem, PagePath.trimmed, strip_suffix_append, Option.getD_some] at hsegments
  have hstr : u'.as_str = stem := by rw [PagePath.as_str, hsegments, join_split]
  have hlength : utf8_len u.as_str = utf8_len u'.as_str + 3 := by
    rw [← hstem, hstr, utf8_len_append, hmd]
  refine ⟨fun heq => ?_, ?_, ?_⟩
  · rw [heq] at hlength
    omega
  · have hsplit : split '/' u.as_str = u.segments :=
      split_join u.valid.nonempty fun s hs => (u.valid.segment s hs).no_slash
    rw [hsegments, ← hsplit, length_split, length_split, ← hstem, List.count_append]
    simp [MARKDOWN_EXTENSION]
  · have := u.valid.short
    unfold Listed
    rw [← hlength]
    exact this

theorem not_mem_wire_tags (hlowers : ext.Lowers) (with_tags : List Text) {tag : Text}
    (h : ¬(',' ∉ tag ∧ trim tag ≠ [])) :
    normalize_tag ext tag ∉ (wire_tags with_tags).map (normalize_tag ext) := by
  intro hmem
  obtain ⟨arrived, harrived, heq⟩ := List.mem_map.1 hmem
  obtain ⟨part, hpart, rfl, hne⟩ := mem_wire_tags harrived
  rw [normalize_tag_trim] at heq
  unfold normalize_tag at heq
  apply h
  refine ⟨fun hcomma => hpart ?_, fun hblank => hne ?_⟩
  · -- the comma is inside the tag, so it is in the part as well
    have htrim : ',' ∈ trim tag := mem_trim hcomma (by decide)
    rw [← hlowers.comma, ← heq, hlowers.comma] at htrim
    exact mem_of_mem_trim htrim
  · rw [hblank] at heq
    have hnil := (hlowers.nil (trim part)).1 (heq.trans ((hlowers.nil []).2 rfl))
    exact hnil

end NotSurvives

/-! ## A remote for known answers -/

/-- A codec that writes the known values as JSON does, and the others in strokes. -/
def known_codec {α : Type} [Encodable α] [DecidableEq α] (known : List (α × Text)) : Codec α where
  to_vec a :=
    match known.find? fun k => k.1 = a with
    | some k => into_bytes k.2
    | none => into_bytes (List.replicate (Encodable.encode a) '|')
  from_slice bytes :=
    match known.find? fun k => into_bytes k.2 = bytes with
    | some k => .ok k.1
    | none =>
      match (from_utf8 bytes).bind fun t => Encodable.decode t.length with
      | some a => .ok a
      | none => .error "unsupported"

theorem known_codec_roundTrips {α : Type} [Encodable α] [DecidableEq α] {known : List (α × Text)}
    (hopen : ∀ k ∈ known, k.2.head? = some '[')
    (hinj : ∀ k ∈ known, ∀ l ∈ known, k.2 = l.2 → k.1 = l.1) : (known_codec known).RoundTrips := by
  intro a
  unfold known_codec
  dsimp only
  cases ha : known.find? fun k => k.1 = a with
  | some k =>
    obtain ⟨hk, rfl⟩ : k ∈ known ∧ k.1 = a :=
      ⟨List.mem_of_find?_eq_some ha, by simpa using List.find?_some ha⟩
    cases hl : known.find? fun l => into_bytes l.2 = into_bytes k.2 with
    | some l =>
      have hbytes : into_bytes l.2 = into_bytes k.2 := by simpa using List.find?_some hl
      have htext := congrArg from_utf8 hbytes
      rw [from_utf8_into_bytes, from_utf8_into_bytes] at htext
      dsimp only
      rw [hinj l (List.mem_of_find?_eq_some hl) k hk (Option.some.inj htext)]
    | none =>
      have hne := List.find?_eq_none.1 hl k hk
      simp at hne
  | none =>
    have hnone : (known.find? fun k =>
        into_bytes k.2 = into_bytes (List.replicate (Encodable.encode a) '|')) = none := by
      rw [List.find?_eq_none]
      intro k hk hbytes
      have htext := congrArg from_utf8 (of_decide_eq_true hbytes)
      rw [from_utf8_into_bytes, from_utf8_into_bytes] at htext
      have hhead := hopen k hk
      rw [Option.some.inj htext] at hhead
      have := List.eq_of_mem_replicate (List.mem_of_head? hhead)
      cases this
    dsimp only
    rw [hnone]
    simp [from_utf8_into_bytes]

instance encodable_char : Encodable Char := Encodable.ofLeftInverse Char.toNat Char.ofNat Char.ofNat_toNat

instance encodable_string : Encodable String :=
  Encodable.ofLeftInverse String.toList String.ofList fun _ => String.ofList_toList

instance : Encodable DateTime :=
  Encodable.ofLeftInverse (fun t => (t.secs, t.nanos)) (fun p => ⟨p.1, p.2⟩) fun _ => rfl

instance : Encodable PageSummary :=
  Encodable.ofLeftInverse (fun p => (p.path, p.title, p.tags, p.updated_at))
    (fun q => ⟨q.1, q.2.1, q.2.2.1, q.2.2.2⟩) fun _ => rfl

instance : Encodable ErrorBody :=
  Encodable.ofLeftInverse (fun e => (e.kind, e.message, e.path, e.expected_revision,
    e.actual_revision, e.limit, e.command))
    (fun f => ⟨f.1, f.2.1, f.2.2.1, f.2.2.2.1, f.2.2.2.2.1, f.2.2.2.2.2.1, f.2.2.2.2.2.2⟩)
    fun _ => rfl

/-- The summary of `notes/alpha`. -/
def alpha_summary : PageSummary := ⟨"notes/alpha".toList, "Note".toList, [], ⟨0, 0⟩⟩

/-- The answers without pages and with that page, as JSON. -/
def known_answers : List (List PageSummary × Text) :=
  [([], "[]".toList),
    ([alpha_summary], ("[\x7b\"path\":\"notes/alpha\",\"title\":\"Note\",\"tags\":[],"
      ++ "\"updated_at\":\"1970-01-01T00:00:00Z\"\x7d]").toList)]

/-- A remote that writes them so. -/
def known_remote : Remote where
  pages := known_codec known_answers
  envelope := known_codec []
  chunks body := [body]
  debug t := "\"" ++ String.ofList t ++ "\""

theorem known_answers_roundTrip : (known_codec known_answers).RoundTrips :=
  known_codec_roundTrips (by decide) (by decide)

theorem known_remote_no_pages : (known_remote.pages.to_vec []).size ≤ MAX_JSON_RESPONSE_BYTES := by
  have hnone : known_remote.pages.to_vec [] = into_bytes "[]".toList := by
    simp [known_remote, known_codec, known_answers]
  have hlen : utf8_len "[]".toList = 2 := by decide
  rw [hnone, size_into_bytes, hlen, MAX_JSON_RESPONSE_BYTES]
  omega

theorem known_remote_envelope : known_remote.envelope.RoundTrips := by
  unfold known_remote
  dsimp only
  exact known_codec_roundTrips (by simp) (by simp)

theorem known_remote_lawful : known_remote.Lawful where
  pages := known_answers_roundTrip
  envelope := known_remote_envelope
  no_pages := known_remote_no_pages
  chunks body := by simp [known_remote]

theorem lowercase_char_eq_iff {c d : Char} (hd : d = ',' ∨ d = ' ') : c.toLower = d ↔ c = d := by
  unfold Char.toLower
  have hval : (c = d) ↔ c.val = d.val := Char.ext_iff
  split_ifs with h
  · -- neither is a letter, and what is made is one
    constructor
    · intro heq
      have hlow : 65 ≤ c.toNat := h.1
      have hhigh : c.toNat ≤ 90 := h.2
      have hv := congrArg (fun c => c.val.toNat) heq
      rcases hd with rfl | rfl <;> simp at hv <;> omega
    · rintro rfl
      rcases hd with rfl | rfl <;> simp at h
  · rfl

theorem epoch_externals_lowers : epoch_externals.Lowers := by
  have hlower : epoch_externals.to_lowercase = List.map Char.toLower := rfl
  refine ⟨fun t => ?_, fun t => ?_, fun s t => ?_⟩
  · rw [hlower, List.mem_map]
    constructor
    · rintro ⟨c, hc, h⟩
      rwa [(lowercase_char_eq_iff (Or.inl rfl)).1 h] at hc
    · exact fun h => ⟨',', h, rfl⟩
  · rw [hlower, List.map_eq_nil_iff]
  · rw [hlower, List.map_append, List.map_cons]
    rfl

/-- A search for the tag `,`. -/
def comma_tag : QueryRequest := ⟨"Note".toList, ⟨none, [[',']], none⟩⟩

theorem handler_comma_tag : handler epoch_externals (.query comma_tag)
    = query_pages epoch_externals ⟨comma_tag.text, ⟨none, [], none⟩⟩ := by
  have hwire : wire_tags [[',']] = [] := by decide
  rw [handler_of_parse none (by simp [ReadRequest.filter, comma_tag]) fun _ => rfl]
  unfold arrived ReadRequest.filter comma_tag
  dsimp only
  rw [hwire]
  rfl

theorem not_same_answer {ext : Externals} {remote : Remote} {envs : ℕ → Env} {s : Store}
    {request : ReadRequest} (hext : ext.Lawful) (hremote : remote.Lawful) (hio : NoIo envs)
    (h : ¬ClientsAgree ext remote envs s request) :
    ¬∀ (ext : Externals) (remote : Remote) (envs : ℕ → Env) (s : Store) (request : ReadRequest),
        ext.Lawful → remote.Lawful → NoIo envs →
          SameAnswer ((direct_client ext request).run.run (exec ext envs) s).1
            ((http_client ext remote request).run.run (exec ext envs) s).1 :=
  fun hsame => h (Or.inl (hsame ext remote envs s request hext hremote hio))

end AgentSpace.Memory
