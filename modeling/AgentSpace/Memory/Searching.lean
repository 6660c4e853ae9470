/-
What `list_pages` and `query_pages` find, against filter, sort and take.

The loop of `query_pages` reads the pages in the order of their paths, and stops behind
the push that fills the limit. It looks at the limit nowhere else, so a limit of zero
lets one page through.
-/
import AgentSpace.Memory.Transports

set_option autoImplicit false

namespace AgentSpace.Memory

open Text Lib

/-! ## The pages that satisfy the filters -/

/-- The limit of a filter. -/
def ListFilter.max (filter : ListFilter) : ℕ :=
  (filter.limit.map UInt64.toNat).getD DEFAULT_LIST_LIMIT

/-- The document on the disk, if the page has one that parses. -/
def document (ext : Externals) (d : Disk) (path : PagePath) : Option (PageMetadata × Text) :=
  (d.read (page_file path)).bind fun bytes =>
    (parse_document ext.yaml ext.chrono bytes path.as_str).toOption

/-- A page satisfies the filters of a request: it lies below the subtree, has every tag,
and its text has the text that is searched. -/
structure Satisfies (ext : Externals) (request : QueryRequest) (path : PagePath)
    (metadata : PageMetadata) (body : Text) : Prop where
  under : ∀ u ∈ request.filter.under, u.segments <+: path.segments
  tags : ∀ tag ∈ request.filter.with_tags, normalize_tag ext tag ∈ metadata.tags
  text : ext.to_lowercase request.text <:+: ext.to_lowercase (haystack path metadata body)

/-- Whether a page satisfies them, as the loop decides it. -/
theorem satisfies_iff {ext : Externals} {request : QueryRequest} {path : PagePath}
    {metadata : PageMetadata} {body : Text} :
    Satisfies ext request path metadata body
      ↔ (request.filter.under.any fun u => !is_under u path) = false
        ∧ selected ext (request.filter.with_tags.map (normalize_tag ext))
            (ext.to_lowercase request.text) path metadata body = true := by
  have hunder : (request.filter.under.any fun u => !is_under u path) = false
      ↔ ∀ u ∈ request.filter.under, u.segments <+: path.segments := by
    have hone : ∀ u : PagePath, is_under u path = true ↔ u.segments <+: path.segments := by
      intro u
      rw [is_under, Bool.and_eq_true, decide_eq_true_iff, beq_iff_eq, List.prefix_iff_eq_take]
      constructor
      · exact fun h => h.2.symm
      · intro h
        have hlength := congrArg List.length h
        rw [List.length_take] at hlength
        exact ⟨by omega, h.symm⟩
    cases request.filter.under with
    | none => simp
    | some u => simp [hone]
  have hselected : selected ext (request.filter.with_tags.map (normalize_tag ext))
      (ext.to_lowercase request.text) path metadata body = true
      ↔ (∀ tag ∈ request.filter.with_tags, normalize_tag ext tag ∈ metadata.tags)
        ∧ ext.to_lowercase request.text <:+: ext.to_lowercase (haystack path metadata body) := by
    rw [selected, Bool.and_eq_true, Bool.or_eq_true, beq_iff_eq, contains_str, decide_eq_true_iff]
    refine and_congr (by simp) ⟨?_, Or.inr⟩
    rintro (hempty | h)
    · rw [hempty]
      exact List.nil_infix
    · exact h
  rw [hunder, hselected]
  exact ⟨fun h => ⟨h.under, h.tags, h.text⟩, fun h => ⟨h.1, h.2.1, h.2.2⟩⟩

open Classical in
/-- What one page contributes: its summary, if it satisfies the filters. -/
noncomputable def contribution (ext : Externals) (d : Disk) (request : QueryRequest)
    (path : PagePath) : Option PageSummary :=
  (document ext d path).bind fun found =>
    if Satisfies ext request path found.1 found.2 then
      some ⟨path.as_str, found.1.title, found.1.tags, found.1.updated_at⟩
    else none

/-- The pages of a disk that satisfy the filters, in the order of their paths. -/
noncomputable def satisfying (ext : Externals) (d : Disk) (request : QueryRequest) :
    List PageSummary :=
  d.pages.filterMap (contribution ext d request)

/-! ## The order of paths -/

theorem page_le_total (p q : PagePath) : page_le p q ∨ page_le q p := by
  unfold page_le
  have hswap : compare q.segments p.segments = (compare p.segments q.segments).swap :=
    Std.OrientedCmp.eq_swap
  rw [hswap]
  cases compare p.segments q.segments <;> simp

theorem page_le_trans {p q r : PagePath} (h : page_le p q) (h' : page_le q r) : page_le p r :=
  Std.TransCmp.isLE_trans h h'

theorem page_le_antisymm {p q : PagePath} (h : page_le p q) (h' : page_le q p) : p = q :=
  PagePath.ext (Std.LawfulEqCmp.eq_of_compare (Std.OrientedCmp.isLE_antisymm h h'))

/-- **The order of paths** does not depend on the order in which the files are found. -/
theorem pages_eq_of_perm {d : Disk} {found : List FilePath} (h : found.Perm d.files.keys) :
    (found.filterMap scanned_page).insertionSort page_le = d.pages := by
  have : Std.Total page_le := ⟨page_le_total⟩
  have : IsTrans PagePath page_le := ⟨fun _ _ _ => page_le_trans⟩
  have hperm := (h.filterMap scanned_page)
  refine (((List.perm_insertionSort _ _).trans hperm).trans
    (List.perm_insertionSort _ _).symm).eq_of_pairwise
    (fun _ _ _ _ hle hle' => page_le_antisymm hle hle') ?_ ?_
  · exact List.pairwise_insertionSort _ _
  · exact List.pairwise_insertionSort _ _

/-! ## The loop -/

section Loop

variable {ext : Externals} {envs : ℕ → Env} {request : QueryRequest}

variable {d : Disk} {path : PagePath}

theorem contribution_of_not_under (h : (request.filter.under.any fun u => !is_under u path) = true) :
    contribution ext d request path = none := by
  unfold contribution
  rw [Option.bind_eq_none_iff]
  intro found _
  refine if_neg fun hsatisfies => ?_
  rw [(satisfies_iff.1 hsatisfies).1] at h
  cases h

/-- A page inside contributes what the loop makes of its bytes. -/
theorem contribution_of_read {bytes : Bytes}
    (h : ¬ (request.filter.under.any fun u => !is_under u path) = true)
    (hread : d.read (page_file path) = some bytes) :
    contribution ext d request path
      = found_page ext (request.filter.with_tags.map (normalize_tag ext))
        (ext.to_lowercase request.text) path bytes := by
  unfold found_page contribution document
  rw [hread, Option.bind_some]
  cases hparse : parse_document ext.yaml ext.chrono bytes path.as_str with
  | error e => rfl
  | ok found =>
    obtain ⟨metadata, body⟩ := found
    have hiff : Satisfies ext request path metadata body
        ↔ selected ext (request.filter.with_tags.map (normalize_tag ext))
          (ext.to_lowercase request.text) path metadata body = true := by
      rw [satisfies_iff, and_iff_right (by simpa using h)]
    simp only [Except.toOption, Option.bind_some]
    by_cases hselected : selected ext (request.filter.with_tags.map (normalize_tag ext))
        (ext.to_lowercase request.text) path metadata body = true
    · rw [if_pos hselected, if_pos (hiff.2 hselected)]
    · rw [if_neg hselected, if_neg fun hs => hselected (hiff.1 hs)]

theorem read_bytes_of_undisturbed (hcalm : Undisturbed envs) {t : ℕ}
    (h : d.read (page_file path) ≠ none) : ∃ bytes, read_bytes (envs t) d path = .ok bytes := by
  obtain ⟨hresolve, hread⟩ := hcalm t
  obtain ⟨bytes, hbytes⟩ := Option.ne_none_iff_exists'.1 h
  refine ⟨bytes, ?_⟩
  unfold read_bytes
  rw [hresolve, hread, hbytes]
  rfl

/-- The loop of a request, on a store. -/
def loop_of (ext : Externals) (envs : ℕ → Env) (request : QueryRequest) (pages : List PagePath)
    (results : List PageSummary) (s : Store) : Except MemoryError (List PageSummary) :=
  ((query_loop ext request.filter.under (request.filter.with_tags.map (normalize_tag ext))
    (ext.to_lowercase request.text) request.filter.max pages results).run.run (exec ext envs) s).1

/-- One round of the loop for a page inside of the subtree. -/
theorem loop_of_cons (rest : List PagePath) (results : List PageSummary)
    (s : Store) (h : ¬ (request.filter.under.any fun u => !is_under u path) = true) :
    loop_of ext envs request (path :: rest) results s
      = match read_bytes (envs s.tick) s.disk path with
        | .error e => .error e
        | .ok _ =>
          match contribution ext s.disk request path with
          | none => loop_of ext envs request rest results ⟨s.disk, s.tick + 1⟩
          | some summary =>
            if (results ++ [summary]).length ≥ request.filter.max then .ok (results ++ [summary])
            else loop_of ext envs request rest (results ++ [summary]) ⟨s.disk, s.tick + 1⟩ := by
  have hrun : (Section.read_bytes path).run.run (exec ext envs) s
      = ((read_bytes (envs s.tick) s.disk path).map fun bytes =>
          (bytes, revision_of ext bytes), ⟨s.disk, s.tick + 1⟩) := rfl
  have hbind := fun f : Bytes × Text → Section (List PageSummary) =>
    congrArg Prod.fst (Fallible.run_bind (exec ext envs) (Section.read_bytes path).run f s)
  rw [hrun] at hbind
  rw [loop_of, query_loop, if_neg h]
  refine (hbind _).trans ?_
  cases hread : read_bytes (envs s.tick) s.disk path with
  | error e => rfl
  | ok bytes =>
    rw [contribution_of_read h (read_bytes_ok hread)]
    simp only [Except.map]
    cases found_page ext (request.filter.with_tags.map (normalize_tag ext))
        (ext.to_lowercase request.text) path bytes with
    | none => rfl
    | some summary =>
      by_cases hfull : (results ++ [summary]).length ≥ request.filter.max
      · simp only [if_pos hfull]
        rfl
      · simp only [if_neg hfull]
        rfl

/-- A page outside of the subtree is passed over. -/
theorem loop_of_cons_skip (rest : List PagePath) (results : List PageSummary)
    (s : Store) (h : (request.filter.under.any fun u => !is_under u path) = true) :
    loop_of ext envs request (path :: rest) results s = loop_of ext envs request rest results s := by
  rw [loop_of, query_loop, if_pos h, loop_of]

/-- A round that fills the limit is the last one. -/
theorem loop_of_cons_full {rest : List PagePath} {results : List PageSummary}
    {s : Store} {bytes : Bytes} {summary : PageSummary}
    (h : ¬ (request.filter.under.any fun u => !is_under u path) = true)
    (hread : read_bytes (envs s.tick) s.disk path = .ok bytes)
    (hfound : contribution ext s.disk request path = some summary)
    (hfull : (results ++ [summary]).length ≥ request.filter.max) :
    loop_of ext envs request (path :: rest) results s = .ok (results ++ [summary]) := by
  rw [loop_of_cons rest results s h, hread]
  dsimp only
  rw [hfound]
  dsimp only
  rw [if_pos hfull]

/-- **The loop** appends the contributions until the limit is filled, and at least one if
there is one. -/
theorem loop_of_ok {pages : List PagePath} {results found : List PageSummary} {s : Store}
    (hroom : results = [] ∨ results.length < request.filter.max)
    (h : loop_of ext envs request pages results s = .ok found) :
    found = results ++ (pages.filterMap (contribution ext s.disk request)).take
      (max 1 (request.filter.max - results.length)) := by
  induction pages generalizing results s with
  | nil =>
    rw [List.filterMap_nil, List.take_nil, List.append_nil]
    exact (Except.ok.inj h).symm
  | cons path rest ih =>
    by_cases hskip : (request.filter.under.any fun u => !is_under u path) = true
    · rw [loop_of_cons_skip rest results s hskip] at h
      rw [List.filterMap_cons_none (contribution_of_not_under hskip)]
      exact ih hroom h
    · rw [loop_of_cons rest results s hskip] at h
      cases hread : read_bytes (envs s.tick) s.disk path with
      | error e =>
        rw [hread] at h
        cases h
      | ok bytes =>
        rw [hread] at h
        cases hone : contribution ext s.disk request path with
        | none =>
          rw [hone] at h
          rw [List.filterMap_cons_none hone]
          exact ih (s := ⟨s.disk, s.tick + 1⟩) hroom h
        | some summary =>
          rw [hone] at h
          dsimp only at h
          rw [List.filterMap_cons_some hone]
          by_cases hfull : (results ++ [summary]).length ≥ request.filter.max
          · -- the push that fills the limit, which is always the first one if it is zero
            rw [if_pos hfull] at h
            have hone : max 1 (request.filter.max - results.length) = 1 := by
              rw [List.length_append, List.length_singleton] at hfull
              omega
            rw [hone, List.take_succ_cons, List.take_zero]
            exact (Except.ok.inj h).symm
          · rw [if_neg hfull] at h
            rw [ge_iff_le, not_le] at hfull
            rw [ih (s := ⟨s.disk, s.tick + 1⟩) (Or.inr hfull) h, List.append_assoc]
            rw [List.length_append, List.length_singleton] at hfull ⊢
            have hmax : max 1 (request.filter.max - results.length)
                = max 1 (request.filter.max - (results.length + 1)) + 1 := by omega
            rw [hmax, List.take_succ_cons]
            rfl

/-- An undisturbed loop over pages that are there does not fail. -/
theorem loop_of_total (hcalm : Undisturbed envs) {pages : List PagePath}
    (results : List PageSummary) (s : Store)
    (hthere : ∀ path ∈ pages, s.disk.read (page_file path) ≠ none) :
    ∃ found, loop_of ext envs request pages results s = .ok found := by
  induction pages generalizing results s with
  | nil => exact ⟨results, rfl⟩
  | cons path rest ih =>
    have hrest : ∀ p ∈ rest, s.disk.read (page_file p) ≠ none := fun p hp => hthere p (by simp [hp])
    by_cases hskip : (request.filter.under.any fun u => !is_under u path) = true
    · rw [loop_of_cons_skip rest results s hskip]
      exact ih results s hrest
    · obtain ⟨bytes, hread⟩ :=
        read_bytes_of_undisturbed hcalm (t := s.tick) (hthere path (by simp))
      rw [loop_of_cons rest results s hskip, hread]
      dsimp only
      cases contribution ext s.disk request path with
      | none => exact ih results ⟨s.disk, s.tick + 1⟩ hrest
      | some summary =>
        dsimp only
        split
        · exact ⟨_, rfl⟩
        · exact ih _ ⟨s.disk, s.tick + 1⟩ hrest

end Loop

/-! ## Filter, sort and take -/

section Found

variable {ext : Externals} {envs : ℕ → Env} {s : Store}

theorem query_pages_of_list {request : QueryRequest} {pages : List PagePath}
    (hshort : ¬ utf8_len request.text > MAX_QUERY_LENGTH)
    (hlist : list_pages (envs s.tick) s.disk = .ok pages) :
    ((query_pages ext request).run.run (exec ext envs) s).1
      = loop_of ext envs request pages [] ⟨s.disk, s.tick + 1⟩ := by
  rw [run_query_pages hshort, hlist]
  rfl

/-- What a query finds: the pages that satisfy the filters, up to the limit, but at least
one if there is one. -/
theorem found_eq {request : QueryRequest} {found : List PageSummary}
    (h : ((query_pages ext request).run.run (exec ext envs) s).1 = .ok found) :
    found = (satisfying ext s.disk request).take (max 1 request.filter.max) := by
  have hshort : ¬ utf8_len request.text > MAX_QUERY_LENGTH := by
    intro hlong
    rw [query_pages_too_long request hlong] at h
    cases h
  cases hlist : list_pages (envs s.tick) s.disk with
  | error e =>
    rw [run_query_pages hshort, hlist] at h
    cases h
  | ok pages =>
    rw [query_pages_of_list hshort hlist, list_pages_ok hlist] at h
    exact loop_of_ok (s := ⟨s.disk, s.tick + 1⟩) (Or.inl rfl) h

/-- **Listing and searching.** The files of a store may be found in any order. Whatever a
query then returns is the first pages, in the order of paths, that satisfy its filters, as
many as the limit says, exactly if the limit is not zero or there is no such page. On a
store that can be read, a query whose text is not too long does return. -/
theorem query_pages_eq_take_iff (ext : Externals) (envs : ℕ → Env) (s : Store) (request : QueryRequest) :
    (∀ files : List FilePath, files.Perm s.disk.files.keys →
        (files.filterMap scanned_page).insertionSort page_le = s.disk.pages)
      ∧ s.disk.pages.Pairwise page_le
      ∧ (∀ found, ((query_pages ext request).run.run (exec ext envs) s).1 = .ok found →
          (found = (satisfying ext s.disk request).take request.filter.max
            ↔ request.filter.max ≠ 0 ∨ satisfying ext s.disk request = []))
      ∧ (Undisturbed envs → (∀ t, (envs t).faults .scan = none) → s.disk.Named →
          utf8_len request.text ≤ MAX_QUERY_LENGTH →
          ∃ found, ((query_pages ext request).run.run (exec ext envs) s).1 = .ok found) := by
  have htotal : Std.Total page_le := ⟨page_le_total⟩
  have htrans : IsTrans PagePath page_le := ⟨fun _ _ _ => page_le_trans⟩
  refine ⟨fun files hfiles => pages_eq_of_perm hfiles, List.pairwise_insertionSort _ _,
    fun found hok => ?_, fun hcalm hscan hnamed hshort => ?_⟩
  · rw [found_eq hok]
    rcases Nat.eq_zero_or_pos request.filter.max with hzero | hpos
    · rw [hzero, List.take_zero, Nat.max_eq_left (Nat.zero_le 1)]
      cases satisfying ext s.disk request with
      | nil => simp
      | cons first rest => simp
    · rw [Nat.max_eq_right hpos]
      exact ⟨fun _ => Or.inl (by omega), fun _ => rfl⟩
  · have hlist : list_pages (envs s.tick) s.disk = .ok s.disk.pages := by
      unfold list_pages
      rw [hscan]
      rfl
    obtain ⟨found, hfound⟩ : ∃ found, loop_of ext envs request s.disk.pages []
        ⟨s.disk, s.tick + 1⟩ = .ok found :=
      loop_of_total hcalm [] _ fun path hpath => ((mem_pages_iff hnamed).1 hpath).1
    exact ⟨found, (query_pages_of_list (by omega) hlist).trans hfound⟩

end Found

theorem found_page_parsed {ext : Externals} {with_tags : List Text} {needle : Text}
    {path : PagePath} {bytes : Bytes} {metadata : PageMetadata} {body : Text}
    (h : parse_document ext.yaml ext.chrono bytes path.as_str = .ok (metadata, body)) :
    found_page ext with_tags needle path bytes
      = if selected ext with_tags needle path metadata body then
          some ⟨path.as_str, metadata.title, metadata.tags, metadata.updated_at⟩
        else none := by
  unfold found_page
  rw [h]

/-- A list of no pages at all, from a store with two: it has the first. -/
theorem limit_zero_finds_one :
    ((list_summaries alpha_externals ⟨none, [], some 0⟩).run.run (exec alpha_externals calm)
        linking_store).1 = .ok [⟨"notes/alpha".toList, "Note".toList, [], ⟨0, 0⟩⟩]
      ∧ ¬ ∀ (ext : Externals) (envs : ℕ → Env) (s : Store) (request : QueryRequest)
          (found : List PageSummary), ((query_pages ext request).run.run (exec ext envs) s).1 = .ok found →
            found = (satisfying ext s.disk request).take request.filter.max := by
  have hone : ((query_pages alpha_externals ⟨[], ⟨none, [], some 0⟩⟩).run.run
      (exec alpha_externals calm) linking_store).1
      = .ok [⟨"notes/alpha".toList, "Note".toList, [], ⟨0, 0⟩⟩] := by
    have hread : linking_store.disk.read (page_file notes_alpha)
        = some (note_bytes "[x](alpha.md)\n".toList) := rfl
    have hlist : list_pages (calm 0) linking_store.disk = .ok [notes_alpha, notes_beta] := by
      rw [← list_linking_store]
      rfl
    have hbytes : read_bytes (calm 1) linking_store.disk notes_alpha
        = .ok (note_bytes "[x](alpha.md)\n".toList) := by
      rw [read_bytes, (calm_legible 1).resolve, (calm_legible 1).read, hread]
      rfl
    have hfound : contribution alpha_externals linking_store.disk ⟨[], ⟨none, [], some 0⟩⟩ notes_alpha
        = some ⟨"notes/alpha".toList, "Note".toList, [], ⟨0, 0⟩⟩ := by
      rw [contribution_of_read (by simp) hread, found_page_parsed (parse_alpha _ _)]
      exact if_pos rfl
    exact (query_pages_of_list (s := linking_store) (by decide) hlist).trans
      (loop_of_cons_full (by simp) hbytes hfound (Nat.zero_le _))
  refine ⟨by rw [list_summaries]; exact hone, fun hall => ?_⟩
  have hnone := hall alpha_externals calm linking_store ⟨[], ⟨none, [], some 0⟩⟩ _ hone
  have hzero : (⟨[], ⟨none, [], some 0⟩⟩ : QueryRequest).filter.max = 0 := rfl
  rw [hzero, List.take_zero] at hnone
  cases hnone

end AgentSpace.Memory
