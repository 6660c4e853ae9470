/-
What every stored page satisfies.

A page is stored in a form that can be read, listed and written again (`SoundDocument`).
A move stores the pages that link to the moved one again, and does not check their size.
How much a document grows is computed here from the links alone (`size_of_rewritten`),
and with it the states from which a move leaves every page in order (`Roomy`).
-/
import AgentSpace.Lib.Transition
import AgentSpace.Memory.Interleaving

set_option autoImplicit false

namespace AgentSpace.Memory

open Text Lib

/-! ## Tags -/

/-- Tags as a write stores them: each is the normal form of a tag, and they are in
strictly increasing order, so none is there twice. -/
structure NormalTags (ext : Externals) (tags : List Text) : Prop where
  normal : ∀ tag ∈ tags, ∃ raw, tag = normalize_tag ext raw
  increasing : tags.Pairwise fun s t => compare s t = .lt

instance : Std.Total text_le := ⟨fun s t => by
  unfold text_le
  rw [show compare t s = (compare s t).swap from Std.OrientedCmp.eq_swap]
  cases compare s t <;> simp⟩

instance : IsTrans Text text_le := ⟨fun _ _ _ h h' => Std.TransCmp.isLE_trans h h'⟩

instance : IsTrans Text fun s t => compare s t = .lt :=
  ⟨fun _ _ _ h h' => Std.TransCmp.lt_trans h h'⟩

theorem isChain_lt_of_pairwise_le {ts : List Text} (hle : ts.Pairwise text_le)
    (hne : ts.IsChain (· ≠ ·)) : ts.IsChain fun s t => compare s t = .lt := by
  induction ts with
  | nil => exact .nil
  | cons s ts ih =>
    cases ts with
    | nil => exact .singleton _
    | cons t ts =>
      obtain ⟨hst, hchain⟩ := List.isChain_cons_cons.1 hne
      obtain ⟨hs, hts⟩ := List.pairwise_cons.1 hle
      refine List.isChain_cons_cons.2 ⟨?_, ih hts hchain⟩
      have hle : (compare s t).isLE := hs t (by simp)
      cases hcmp : compare s t with
      | lt => rfl
      | eq => exact absurd (Std.LawfulEqCmp.eq_of_compare hcmp) hst
      | gt =>
        rw [hcmp] at hle
        cases hle

theorem normalTags_normalize_tags (ext : Externals) (tags : List Text) :
    NormalTags ext (normalize_tags ext tags) := by
  have hsub : (normalize_tags ext tags).Sublist
      ((tags.map (normalize_tag ext)).insertionSort text_le) := List.destutter_sublist _ _
  refine ⟨fun tag htag => ?_, ?_⟩
  · have hmem : tag ∈ tags.map (normalize_tag ext) :=
      (List.mem_insertionSort text_le).1 (hsub.subset htag)
    obtain ⟨raw, -, rfl⟩ := List.mem_map.1 hmem
    exact ⟨raw, rfl⟩
  · have hsorted := (List.pairwise_insertionSort text_le (tags.map (normalize_tag ext))).sublist hsub
    exact List.isChain_iff_pairwise.1
      (isChain_lt_of_pairwise_le hsorted (List.isChain_destutter _ _))

/-! ## Documents -/

/-- The document of a page is in order: it parses, whatever the page is called, it
is not too large, its title and tags are as a write leaves them, and its
timestamps can be written again. -/
structure SoundDocument (ext : Externals) (bytes : Bytes) (metadata : PageMetadata) (body : Text) :
    Prop where
  parses : ∀ path_hint, parse_document ext.yaml ext.chrono bytes path_hint = .ok (metadata, body)
  size : bytes.size ≤ MAX_BODY_BYTES
  title_nonempty : metadata.title ≠ []
  title_short : utf8_len metadata.title ≤ MAX_TITLE_LENGTH
  tags : NormalTags ext metadata.tags
  created_at : metadata.created_at.InRfc3339
  updated_at : metadata.updated_at.InRfc3339

/-- Every stored page has a document in order. -/
def Sound (ext : Externals) (d : Disk) : Prop :=
  ∀ path bytes, d.read (page_file path) = some bytes →
    ∃ metadata body, SoundDocument ext bytes metadata body

variable {ext : Externals} {metadata : PageMetadata} {body : Text}

/-- A rendered document is in order if its metadata is, and it is not too large. -/
theorem soundDocument_of_render {bytes : Bytes} (hext : ext.Lawful) (h : metadata.WellFormed)
    (hrender : render_document ext.yaml ext.chrono metadata body = .ok bytes)
    (hsize : bytes.size ≤ MAX_BODY_BYTES) (hnonempty : metadata.title ≠ [])
    (hshort : utf8_len metadata.title ≤ MAX_TITLE_LENGTH) (htags : NormalTags ext metadata.tags)
    (hcreated : metadata.created_at.InRfc3339) (hupdated : metadata.updated_at.InRfc3339) :
    ∃ read body, SoundDocument ext bytes read body := by
  obtain ⟨read, hread, hsame⟩ := parse_render_document [] hext.yaml hext.chrono h hcreated hupdated
    hrender
  -- a line break lost at the end of the metadata is not one of these fields
  have hfields : read.title = metadata.title ∧ read.tags = metadata.tags
      ∧ read.created_at = metadata.created_at ∧ read.updated_at = metadata.updated_at := by
    rcases hsame with hsame | hsame
    · exact ⟨hsame.title, hsame.tags, hsame.created_at, hsame.updated_at⟩
    · have hchomp : metadata.chomp.title = metadata.title ∧ metadata.chomp.tags = metadata.tags := by
        unfold PageMetadata.chomp
        split_ifs <;> exact ⟨rfl, rfl⟩
      obtain ⟨hc, hu⟩ := metadata.chomp_dates
      exact ⟨hsame.title.trans hchomp.1, hsame.tags.trans hchomp.2, hsame.created_at.trans hc,
        hsame.updated_at.trans hu⟩
  obtain ⟨htitle, htags', hc, hu⟩ := hfields
  refine ⟨read, _, fun path_hint => parse_document_hint hread, hsize, ?_, ?_, ?_, ?_, ?_⟩
  · rw [htitle]
    exact hnonempty
  · rw [htitle]
    exact hshort
  · rw [htags']
    exact htags
  · rw [hc]
    exact hcreated
  · rw [hu]
    exact hupdated

/-! ## Writes -/

theorem validate_title_ok {title : Text} (h : validate_title title = .ok ()) :
    title ≠ [] ∧ utf8_len title ≤ MAX_TITLE_LENGTH := by
  unfold validate_title at h
  split_ifs at h with h1 h2
  exact ⟨h1, not_lt.1 h2⟩

theorem validate_write_title {request : WritePageRequest} {title : Text}
    (h : validate_write request = .ok ()) (htitle : request.title = some title) :
    title ≠ [] ∧ utf8_len title ≤ MAX_TITLE_LENGTH := by
  unfold validate_write at h
  rw [htitle] at h
  obtain ⟨_, -, h⟩ := bind_eq_ok.1 h
  obtain ⟨_, hvalid, -⟩ := bind_eq_ok.1 h
  exact validate_title_ok hvalid

section Steps

variable {ext : Externals} {envs : ℕ → Env} {before after : Store}

/-- The metadata of a write is in order, if the page that is there is. -/
theorem written_metadata_sound {request : WritePageRequest} {now : DateTime}
    {metadata : PageMetadata} (hext : ext.Lawful) (hvalid : validate_write request = .ok ())
    (hnow : now.InRfc3339) (hbefore : Sound ext before.disk)
    (h : written_metadata ext request (stored ext before.disk request.path) now = .ok metadata) :
    metadata.WellFormed ∧ metadata.title ≠ [] ∧ utf8_len metadata.title ≤ MAX_TITLE_LENGTH
      ∧ NormalTags ext metadata.tags ∧ metadata.created_at.InRfc3339
      ∧ metadata.updated_at.InRfc3339 := by
  rw [written_metadata.eq_def, stored] at h
  cases hread : before.disk.read (page_file request.path) with
  | some bytes =>
    obtain ⟨previous, body, hprevious⟩ := hbefore _ _ hread
    simp only [hread, Option.map_some, hprevious.parses, Except.ok.injEq] at h
    have hwf := parse_document_wellFormed hext.yaml (hprevious.parses [])
    subst h
    refine ⟨⟨⟨hwf.nodup, hwf.unknown⟩, hwf.unique_key, hwf.unique_value⟩, ?_, ?_, ?_,
      hprevious.created_at, hnow⟩
    · cases htitle : request.title with
      | none => exact hprevious.title_nonempty
      | some title => exact (validate_write_title hvalid htitle).1
    · cases htitle : request.title with
      | none => exact hprevious.title_short
      | some title => exact (validate_write_title hvalid htitle).2
    · cases request.tags with
      | none => exact hprevious.tags
      | some tags => exact normalTags_normalize_tags ext tags
  | none =>
    simp only [hread, Option.map_none] at h
    cases htitle : request.title with
    | none => simp [htitle] at h
    | some title =>
      simp only [htitle, Except.ok.injEq] at h
      subst h
      obtain ⟨hnonempty, hshort⟩ := validate_write_title hvalid htitle
      exact ⟨⟨⟨List.nodup_nil, by simp⟩, by simp, by simp⟩, hnonempty, hshort,
        normalTags_normalize_tags ext _, hnow, hnow⟩

/-- A write keeps the pages in order, while the clock shows a year that can be
written. -/
theorem WriteEnds.sound {request : WritePageRequest} {page : Page} (hext : ext.Lawful)
    (h : WriteEnds ext envs before.disk before.tick request (.ok page) after)
    (hclock : ∀ t, before.tick ≤ t → t < after.tick → (envs t).now.InRfc3339)
    (hbefore : Sound ext before.disk) : Sound ext after.disk := by
  obtain ⟨t', t, metadata, bytes, ht', htt, ht, hsize, hmeta, hrender, hw, -⟩ := h.ok page rfl
  rcases write_bytes_cases (envs t) before.disk request.path bytes with
    ⟨e, d', hw', -⟩ | ⟨d', hw', hframe⟩
  · rw [hw] at hw'
    cases hw'
  obtain rfl : d' = after.disk := congrArg Prod.snd (hw'.symm.trans hw)
  intro path read hread
  rw [hframe _ (page_file_not_temporary _ _)] at hread
  by_cases hpath : page_file path = page_file request.path
  · rw [if_pos hpath] at hread
    obtain rfl := Option.some.inj hread
    obtain ⟨hwf, hnonempty, hshort, htags, hcreated, hupdated⟩ := written_metadata_sound hext
      (h.valid page rfl) (hclock t' ht' (by omega)) hbefore hmeta
    exact soundDocument_of_render hext hwf hrender hsize hnonempty hshort htags hcreated hupdated
  · rw [if_neg hpath] at hread
    exact hbefore path read hread

end Steps

/-! ## How a document grows -/

/-- The targets of the links of a page that lead to the page `source`. -/
def targets_to (path : PagePath) (body : Text) (source : PagePath) : List Text :=
  ((parse_links path body).filter fun link => link.resolved = some source).map
    ParsedLink.raw_target

/-- The targets in a cut that lead to `source`. -/
def chunk_targets_to (base_dir : List Text) (source : PagePath) (cs : List Chunk) : List Text :=
  (cs.map Chunk.target).filter fun target => resolve_relative_target base_dir target = some source

theorem targets_to_eq (path : PagePath) (body : Text) (source : PagePath) :
    targets_to path body source
      = chunk_targets_to (base_dir_of path) source (chunks none body).links := by
  unfold targets_to
  rw [parse_links_eq]
  generalize (chunks none body).links = cs
  generalize 0 = pos
  induction cs generalizing pos with
  | nil => rfl
  | cons c cs ih =>
    by_cases hc : resolve_relative_target (base_dir_of path) c.target = some source
    · simpa [offsets, chunk_targets_to, hc] using ih _
    · simpa [offsets, chunk_targets_to, hc] using ih _

/-- Replacing targets: each one that leads to `source` gives its place to the new
one. -/
theorem utf8_len_retarget (base_dir : List Text) (source destination : PagePath) (cs : List Chunk) :
    utf8_len ((cs.map (Chunk.mapTarget (retarget base_dir source destination))).flatMap Chunk.flatten)
        + ((chunk_targets_to base_dir source cs).map utf8_len).sum
      = utf8_len (cs.flatMap Chunk.flatten)
        + (chunk_targets_to base_dir source cs).length
          * utf8_len (relative_target base_dir destination) := by
  induction cs with
  | nil => simp [chunk_targets_to]
  | cons c cs ih =>
    have hbefore : (c.mapTarget (retarget base_dir source destination)).before = c.before := rfl
    by_cases hc : resolve_relative_target base_dir c.target = some source
    · have htarget : (c.mapTarget (retarget base_dir source destination)).target
          = relative_target base_dir destination := if_pos hc
      have htargets : chunk_targets_to base_dir source (c :: cs)
          = c.target :: chunk_targets_to base_dir source cs := by
        simp [chunk_targets_to, hc]
      simp only [List.map_cons, List.flatMap_cons, utf8_len_append, Chunk.flatten, hbefore,
        htarget, htargets, List.sum_cons, List.length_cons, Nat.succ_mul]
      omega
    · have htarget : (c.mapTarget (retarget base_dir source destination)).target = c.target :=
        if_neg hc
      have htargets : chunk_targets_to base_dir source (c :: cs)
          = chunk_targets_to base_dir source cs := by
        simp [chunk_targets_to, hc]
      simp only [List.map_cons, List.flatMap_cons, utf8_len_append, Chunk.flatten, hbefore,
        htarget, htargets]
      omega

theorem rdropWhile_append_cons {p : Char → Bool} {c : Char} (hc : p c = false) (lead tail : Text) :
    (lead ++ c :: tail).rdropWhile p = lead ++ c :: tail.rdropWhile p := by
  induction tail using List.reverseRecOn with
  | nil => rw [List.rdropWhile_concat_neg _ _ _ (by simp [hc]), List.rdropWhile_nil]
  | append_singleton tail d ih =>
    have hassoc : lead ++ c :: (tail ++ [d]) = lead ++ c :: tail ++ [d] := by simp
    by_cases hd : p d = true
    · rw [hassoc, List.rdropWhile_concat_pos _ _ _ hd, List.rdropWhile_concat_pos _ _ _ hd, ih]
    · rw [hassoc, List.rdropWhile_concat_neg _ _ _ hd, List.rdropWhile_concat_neg _ _ _ hd,
        hassoc]

theorem normalize_body_append_cons {c : Char} (hc : c ≠ '\n') (lead tail : Text) :
    normalize_body (lead ++ c :: tail)
      = lead ++ c :: (tail.rdropWhile (· == '\n') ++ ['\n']) := by
  unfold normalize_body
  dsimp only
  rw [rdropWhile_append_cons (by simpa using hc), if_neg (by simp)]
  simp

/-- A body with links ends in the closing parenthesis of the last one and the tail,
so it is not empty, and normalizing it is normalizing the tail. -/
theorem normalize_body_flatten (cs : List Chunk) (hcs : cs ≠ []) (tail : Text) :
    normalize_body (Chunked.mk cs tail).flatten ≠ []
      ∧ utf8_len (normalize_body (Chunked.mk cs tail).flatten)
        = utf8_len (cs.flatMap Chunk.flatten)
          + utf8_len (tail.rdropWhile (· == '\n') ++ ['\n']) := by
  obtain ⟨init, c, rfl⟩ := (List.eq_nil_or_concat cs).resolve_left hcs
  have hlinks : (init ++ [c]).flatMap Chunk.flatten
      = init.flatMap Chunk.flatten ++ (c.before ++ c.target) ++ [')'] := by
    simp [Chunk.flatten]
  rw [List.concat_eq_append, Chunked.flatten, hlinks, List.append_assoc _ [')'],
    List.singleton_append, normalize_body_append_cons (by decide)]
  refine ⟨by simp, ?_⟩
  simp only [utf8_len_append, utf8_len_cons, utf8_len_nil]
  omega

/-- The stored body of a page whose links are rewritten, and the one it had. -/
theorem normalize_body_rewritten {path source : PagePath} (destination : PagePath)
    (hlinks : targets_to path body source ≠ []) :
    normalize_body body ≠ []
      ∧ normalize_body (rewrite_links path body source destination).1 ≠ []
      ∧ utf8_len (normalize_body (rewrite_links path body source destination).1)
          + ((targets_to path body source).map utf8_len).sum
        = utf8_len (normalize_body body)
          + (targets_to path body source).length
            * utf8_len (relative_target (base_dir_of path) destination) := by
  have hgrowth := utf8_len_retarget (base_dir_of path) source destination (chunks none body).links
  rw [targets_to_eq] at hlinks ⊢
  have hne : (chunks none body).links ≠ [] := by
    intro h
    rw [h] at hlinks
    exact hlinks rfl
  obtain ⟨hold, hold_len⟩ := normalize_body_flatten _ hne (chunks none body).tail
  obtain ⟨hnew, hnew_len⟩ := normalize_body_flatten
    ((chunks none body).links.map
      (Chunk.mapTarget (retarget (base_dir_of path) source destination)))
    (by simpa using hne) (chunks none body).tail
  have hbody : (Chunked.mk (chunks none body).links (chunks none body).tail).flatten = body :=
    chunks_flatten none body
  rw [hbody] at hold hold_len
  have hrewritten : (rewrite_links path body source destination).1
      = (Chunked.mk ((chunks none body).links.map
        (Chunk.mapTarget (retarget (base_dir_of path) source destination)))
          (chunks none body).tail).flatten := by
    rw [rewrite_links_eq]
    rfl
  rw [hrewritten]
  exact ⟨hold, hnew, by omega⟩

/-- The size of a rendered document with a body. -/
theorem size_of_render {body yaml_text : Text} {bytes : Bytes}
    (hemit : ext.yaml.to_string (.Mapping (metadata_mapping ext.chrono metadata)) = .ok yaml_text)
    (hrender : render_document ext.yaml ext.chrono metadata body = .ok bytes)
    (hbody : normalize_body body ≠ []) :
    bytes.size = utf8_len yaml_text + utf8_len (normalize_body body) + 9 := by
  unfold render_document at hrender
  simp only [hemit, Except.ok.injEq, if_neg hbody] at hrender
  rw [← hrender, size_into_bytes]
  have hdelimiter : utf8_len FRONTMATTER_DELIMITER = 3 := by decide
  have hbreak : ('\n' : Char).utf8Size = 1 := by decide
  simp only [utf8_len_append, utf8_len_cons, utf8_len_nil, hdelimiter, hbreak]
  omega

/-- **How a document grows** when its links to a page are rewritten: each target gives
its place to the new one. -/
theorem size_of_rewritten {path source destination : PagePath} {bytes new_bytes : Bytes}
    (hlinks : targets_to path body source ≠ [])
    (hrender : render_document ext.yaml ext.chrono metadata body = .ok bytes)
    (hnew : render_document ext.yaml ext.chrono metadata
      (rewrite_links path body source destination).1 = .ok new_bytes) :
    new_bytes.size + ((targets_to path body source).map utf8_len).sum
      = bytes.size + (targets_to path body source).length
        * utf8_len (relative_target (base_dir_of path) destination) := by
  obtain ⟨hold, hrewritten, hlen⟩ := normalize_body_rewritten destination hlinks
  cases hemit : ext.yaml.to_string (.Mapping (metadata_mapping ext.chrono metadata)) with
  | error message => simp [render_document, hemit] at hrender
  | ok yaml_text =>
    have hsize := size_of_render hemit hrender hold
    have hnew_size := size_of_render hemit hnew hrewritten
    omega

/-! ## Moves -/

/-- No page that links to `source` grows beyond the limit when these links lead to
`destination`. -/
def RoomToMove (ext : Externals) (d : Disk) (source destination : PagePath) : Prop :=
  ∀ path bytes metadata body rendered, path ≠ source → Listed path →
    d.read (page_file path) = some bytes →
    parse_document ext.yaml ext.chrono bytes path.as_str = .ok (metadata, body) →
    targets_to path body source ≠ [] →
    render_document ext.yaml ext.chrono metadata body = .ok rendered →
      rendered.size + (targets_to path body source).length
          * utf8_len (relative_target (base_dir_of path) destination)
        ≤ MAX_BODY_BYTES + ((targets_to path body source).map utf8_len).sum

theorem targets_to_ne_nil {path source destination : PagePath}
    (h : (rewrite_links path body source destination).2 = true) : targets_to path body source ≠ [] := by
  obtain ⟨link, hlink, hresolved⟩ := List.mem_map.1 ((rewrite_links_changed _ _ _ _).1 h)
  apply List.ne_nil_of_mem (a := link.raw_target)
  exact List.mem_map_of_mem (List.mem_filter.2 ⟨hlink, by simpa using hresolved⟩)

/-- A rewritten page is in order, if the page was and there is room. -/
theorem rewritten_page_sound {d : Disk} {source destination path : PagePath}
    {bytes new_bytes : Bytes} (hext : ext.Lawful) (hd : Sound ext d)
    (hroom : RoomToMove ext d source destination) (hpath : path ≠ source) (hlisted : Listed path)
    (hread : d.read (page_file path) = some bytes)
    (h : rewritten_page ext source destination path bytes = .ok (some new_bytes)) :
    ∃ metadata body, SoundDocument ext new_bytes metadata body := by
  obtain ⟨metadata, body, hsound⟩ := hd path bytes hread
  have hparse := hsound.parses path.as_str
  unfold rewritten_page at h
  rw [hparse] at h
  dsimp only at h
  by_cases hchanged : (rewrite_links path body source destination).2 = true
  · rw [if_pos hchanged] at h
    cases hnew : render_document ext.yaml ext.chrono metadata
        (rewrite_links path body source destination).1 with
    | error e => simp [hnew] at h
    | ok rewritten =>
      obtain rfl : rewritten = new_bytes := by simpa [hnew] using h
      have hlinks := targets_to_ne_nil hchanged
      obtain ⟨rendered, hrender⟩ : ∃ rendered,
          render_document ext.yaml ext.chrono metadata body = .ok rendered := by
        unfold render_document at hnew ⊢
        cases hemit : ext.yaml.to_string (.Mapping (metadata_mapping ext.chrono metadata)) with
        | error message => simp [hemit] at hnew
        | ok yaml_text => exact ⟨_, rfl⟩
      have hsize := size_of_rewritten hlinks hrender hnew
      have hfits := hroom path bytes metadata body rendered hpath hlisted hread hparse hlinks hrender
      exact soundDocument_of_render hext (parse_document_wellFormed hext.yaml hparse) hnew
        (by omega) hsound.title_nonempty hsound.title_short hsound.tags hsound.created_at
        hsound.updated_at
  · rw [if_neg hchanged] at h
    cases h

variable {envs : ℕ → Env} {before after : Store}

/-- A move keeps the pages in order, if there is room. -/
theorem MoveEnds.sound {request : MovePageRequest} {outcome : MoveOutcome} (hext : ext.Lawful)
    (h : MoveEnds ext envs before.disk before.tick request (.ok outcome) after)
    (hroom : RoomToMove ext before.disk request.source request.destination)
    (hbefore : Sound ext before.disk) : Sound ext after.disk := by
  obtain ⟨t, source_bytes, reps, -, -, hsource, hc, hcommit, -⟩ := h.ok outcome rfl
  obtain ⟨-, hmoved⟩ := commit_move_ok hcommit
  intro path bytes hread
  by_cases hdest : path = request.destination
  · -- the moved page has the bytes it had
    subst hdest
    rw [hmoved.arrived] at hread
    obtain rfl := Option.some.inj hread
    exact hbefore _ _ hsource
  · by_cases hpath : path = request.source
    · subst hpath
      rw [hmoved.gone] at hread
      cases hread
    · by_cases hrep : ∃ r ∈ reps, r.1 = path
      · obtain ⟨⟨p, new_bytes⟩, hr, rfl⟩ := hrep
        obtain ⟨hlisted, hne, old_bytes, hold, hrewritten⟩ := hc.sound _ hr
        rw [hmoved.replaced _ hr] at hread
        obtain rfl := Option.some.inj hread
        exact rewritten_page_sound hext hbefore hroom hne (listed_of_mem_list_pages hlisted) hold
          hrewritten
      · have hsame : after.disk.read (page_file path) = before.disk.read (page_file path) := by
          refine hmoved.others _ (page_file_not_temporary _ _) ?_ ?_ ?_
          · exact fun heq => hpath (page_file_injective heq)
          · exact fun heq => hdest (page_file_injective heq)
          · exact fun r hr heq => hrep ⟨r, hr, (page_file_injective heq).symm⟩
        rw [hsame] at hread
        exact hbefore _ _ hread

theorem RemoveEnds.sound {request : RemovePageRequest} {u : Unit}
    (h : RemoveEnds envs before.disk before.tick request (.ok u) after)
    (hbefore : Sound ext before.disk) : Sound ext after.disk := by
  obtain ⟨t, -, -, hremove⟩ := h.ok u rfl
  rcases remove_file_cases (envs t) before.disk request.path with ⟨e, h'⟩ | ⟨d', h', hframe⟩
  · rw [hremove] at h'
    cases h'
  · obtain rfl : d' = after.disk := congrArg Prod.snd (h'.symm.trans hremove)
    intro path bytes hread
    rw [hframe] at hread
    split_ifs at hread
    exact hbefore path bytes hread

/-! ## Runs -/

/-- A request that succeeds, from one store to the next. -/
def Succeeds (ext : Externals) (envs : ℕ → Env) (before : Store) (request : Request)
    (after : Store) : Prop :=
  ∃ reply, (section_of ext request).run (exec ext envs) before = (.ok reply, after)

/-- When a step keeps the pages in order: a write while the clock shows a year of
four digits, a move when there is room. -/
def Roomy (ext : Externals) (envs : ℕ → Env) (before : Store) (request : Request) (after : Store) : Prop :=
  match request with
  | .write _ => ∀ t, before.tick ≤ t → t < after.tick → (envs t).now.InRfc3339
  | .move request => RoomToMove ext before.disk request.source request.destination
  | .remove _ => True

/-- **One step.** -/
theorem Succeeds.sound {request : Request} (hext : ext.Lawful) (h : Succeeds ext envs before request after)
    (hroomy : Roomy ext envs before request after) (hbefore : Sound ext before.disk) :
    Sound ext after.disk := by
  obtain ⟨reply, hrun⟩ := h
  obtain ⟨-, hends⟩ := section_ends ext envs request before
  rw [hrun] at hends
  generalize hresult : (Except.ok reply : Except MemoryError Reply) = result at hends
  cases hends with
  | @write request r _ hends =>
    cases r with
    | error e => cases hresult
    | ok page => exact hends.sound hext hroomy hbefore
  | @«move» request r _ hends =>
    cases r with
    | error e => cases hresult
    | ok outcome => exact hends.sound hext hroomy hbefore
  | @remove request r _ hends =>
    cases r with
    | error e => cases hresult
    | ok u => exact hends.sound hbefore

/-- **Stored pages stay in order.** In every run of requests that succeed, from a
store whose pages are in order (one without pages, for one), as long as the clock
shows a year of four digits and every move has room, every page is in order at the
end. -/
theorem stored_pages_sound (ext : Externals) (envs : ℕ → Env) (init last : Store)
    (requests : List Request) (hext : ext.Lawful) (hinit : Sound ext init.disk)
    (h : Run (Guarded (Succeeds ext envs) (Roomy ext envs)) init requests last) : Sound ext last.disk :=
  h.invariant (I := fun s => Sound ext s.disk)
    (fun _ _ _ hs hstep => Succeeds.sound hext hstep.1 hstep.2 hs) hinit

/-! ## A page that outgrows the limit -/

/-- External code for pages made at the epoch. -/
def epoch_externals : Externals := note_externals []

theorem epoch_externals_lawful : epoch_externals.Lawful :=
  note_externals_lawful (by simp) (by simp)

/-- A body with a link to a page next to it, and `n + 1` more letters. -/
def letters (target : Text) (n : ℕ) : Text :=
  "[x](".toList ++ target ++ ')' :: List.replicate n 'z' ++ 'z' :: ['\n']

variable (target : Text)

theorem letters_eq (n : ℕ) :
    letters target n
      = "[x](".toList ++ target ++ ')' :: List.replicate n 'z' ++ 'z' :: ['\n'] := by
  delta letters
  rfl

theorem normalize_body_letters (n : ℕ) : normalize_body (letters target n) = letters target n := by
  rw [letters_eq, normalize_body_append_cons (by decide)]
  rfl

theorem utf8_len_letters (n : ℕ) : utf8_len (letters target n) = utf8_len target + n + 7 := by
  have hz : ('z' : Char).utf8Size = 1 := by decide
  have hopen : utf8_len "[x](".toList = 4 := by decide
  have hparen : (')' : Char).utf8Size = 1 := by decide
  have hbreak : ('\n' : Char).utf8Size = 1 := by decide
  simp only [letters_eq, utf8_len_append, utf8_len_cons, utf8_len_nil, utf8_len_replicate, hz, hopen,
    hparen, hbreak]
  omega

theorem chunks_letters {target : Text} (htarget : ')' ∉ target) (n : ℕ) :
    chunks none (letters target n)
      = ⟨[⟨[], "x".toList, target⟩], List.replicate n 'z' ++ 'z' :: ['\n']⟩ := by
  have hletters : letters target n = [] ++ '[' :: ("x".toList ++ ']' :: '(' :: (target ++ ')'
      :: (List.replicate n 'z' ++ 'z' :: ['\n']))) := by
    simp [letters_eq]
  have htail : '[' ∉ List.replicate n 'z' ++ 'z' :: ['\n'] := by
    intro h
    rcases List.mem_append.1 h with h | h
    · cases List.eq_of_mem_replicate h
    · simp at h
  rw [hletters, chunks_link (by simp) (by simp) (by simp) htarget, chunks_of_not_mem htail]

/-- The link follows a move, and gains what the new target is longer. -/
theorem rewritten_page_letters (n : ℕ) :
    rewritten_page epoch_externals notes_alpha root_beta notes_beta
        (note_bytes (letters "alpha.md".toList n))
      = .ok (some (note_bytes (letters "../beta.md".toList n))) := by
  have hresolve : resolve_relative_target (base_dir_of notes_beta) "alpha.md".toList
      = some notes_alpha := by decide
  have htarget : relative_target (base_dir_of notes_beta) root_beta = "../beta.md".toList := by
    decide
  have hrewrite : rewrite_links notes_beta (letters "alpha.md".toList n) notes_alpha root_beta
      = (letters "../beta.md".toList n, true) := by
    have hretarget : retarget (base_dir_of notes_beta) notes_alpha root_beta "alpha.md".toList
        = "../beta.md".toList := by
      rw [retarget, if_pos hresolve, htarget]
    rw [rewrite_links_eq, chunks_letters (by decide)]
    refine Prod.ext ?_ ?_
    · simp only [Chunked.mapTarget, List.map_cons, List.map_nil, Chunk.mapTarget, hretarget,
        Chunked.flatten, List.flatMap_cons, List.flatMap_nil, Chunk.flatten, Chunk.before, letters_eq]
      rfl
    · simp only [List.any_cons, hresolve, decide_true, Bool.true_or]
  have hne : normalize_body (letters "../beta.md".toList n) ≠ [] := by
    rw [normalize_body_letters]
    simp [letters_eq]
  refine rewritten_page_changed (parse_note_bytes [] _ _) hrewrite ((render_note [] hne).trans ?_)
  rw [normalize_body_letters]

/-- A disk with the pages `notes/alpha` and `notes/beta`. -/
def two_notes (bytes other : Bytes) : Disk :=
  ⟨(∅ : Std.ExtTreeMap FilePath Bytes compare).insert (page_file notes_alpha) bytes
    |>.insert (page_file notes_beta) other, ∅⟩

/-- Moving `notes/alpha` to `beta`. -/
def move_alpha : MovePageRequest := ⟨notes_alpha, root_beta, none, none⟩

section TwoNotes

variable {ext : Externals} {bytes other new_bytes : Bytes}

set_option maxRecDepth 4000 in
theorem list_two_notes (bytes other : Bytes) :
    ((two_notes bytes other).files.keys.filterMap scanned_page).insertionSort page_le
      = [notes_alpha, notes_beta] := by
  rfl

/-- A move in calm surroundings that rewrites the one other page succeeds. -/
theorem move_alpha_succeeds (bytes : Bytes)
    (h : rewritten_page ext notes_alpha root_beta notes_beta other = .ok (some new_bytes)) :
    ∃ after, Succeeds ext calm ⟨two_notes bytes other, 0⟩ (.move move_alpha) after
      ∧ after.disk.read (page_file notes_beta) = some new_bytes := by
  have hmov : Movable (two_notes bytes other) notes_alpha root_beta [(notes_beta, new_bytes)] := by
    refine ⟨rfl, rfl, List.nodup_singleton _, fun r hr => ?_, fun r hr => ?_⟩
    · rw [List.mem_singleton.1 hr]
      exact ⟨show notes_beta ≠ notes_alpha by decide, show notes_beta ≠ root_beta by decide⟩
    · rw [List.mem_singleton.1 hr]
      rfl
  obtain ⟨d', hcommit, hmoved⟩ := hmov.commit_move_calm (calm 5) (fun _ => rfl) bytes
  have hreps : (collect_replacements ext notes_alpha root_beta
      (((two_notes bytes other).files.keys.filterMap scanned_page).insertionSort page_le) []).run.run
        (exec ext calm) ⟨two_notes bytes other, 0 + 3⟩
      = (.ok [(notes_beta, new_bytes)], ⟨two_notes bytes other, 4⟩) := by
    rw [list_two_notes, run_collect_source, run_collect_other (calm_legible _) (by decide) rfl h]
    rfl
  have hmove := run_move_page none bytes calm_legible (by decide) rfl rfl hreps
  rw [hcommit] at hmove
  exact ⟨_, ⟨_, Fallible.run_bind_of_ok hmove⟩, hmoved.replaced _ (List.mem_singleton_self _)⟩

end TwoNotes

theorem note_bytes_sound (hsize : (note_bytes body).size ≤ MAX_BODY_BYTES) :
    SoundDocument epoch_externals (note_bytes body) note body :=
  ⟨parse_note_bytes [] body, hsize, by decide, by decide, ⟨by simp [note], by simp [note]⟩, by decide,
    by decide⟩

theorem sound_two_notes {body other : Text} (hbody : (note_bytes body).size ≤ MAX_BODY_BYTES)
    (hother : (note_bytes other).size ≤ MAX_BODY_BYTES) :
    Sound epoch_externals (two_notes (note_bytes body) (note_bytes other)) := by
  intro path bytes hread
  have hput : two_notes (note_bytes body) (note_bytes other)
      = ((⟨∅, ∅⟩ : Disk).put (page_file notes_alpha) (note_bytes body)).put (page_file notes_beta)
        (note_bytes other) := rfl
  rw [hput, Disk.read_put, Disk.read_put] at hread
  split_ifs at hread
  · exact ⟨_, _, Option.some.inj hread ▸ note_bytes_sound hother⟩
  · exact ⟨_, _, Option.some.inj hread ▸ note_bytes_sound hbody⟩
  · simp [Disk.read] at hread

/-- The letters that fill the document of `notes/beta` up to the limit. -/
def filling : ℕ := MAX_BODY_BYTES - utf8_len note_yaml - 25

/-- Moving `notes/alpha` makes the document of `notes/beta`, which is as large as it
may be, larger. -/
theorem move_page_outgrows_limit :
    ¬∀ (ext : Externals) (envs : ℕ → Env) (init last : Store) (requests : List Request),
        ext.Lawful → Sound ext init.disk → Run (Succeeds ext envs) init requests last →
          Sound ext last.disk := by
  intro h
  have hyaml := utf8_len_note_yaml_le
  have hmax : MAX_BODY_BYTES = 1048576 := rfl
  have hfilling : filling + utf8_len note_yaml + 25 = MAX_BODY_BYTES := by
    unfold filling
    omega
  have halpha : utf8_len "alpha.md".toList = 8 := by decide
  have hbeta : utf8_len "../beta.md".toList = 10 := by decide
  have hsmall : (note_bytes "a\n".toList).size ≤ MAX_BODY_BYTES := by
    have htwo : utf8_len "a\n".toList = 2 := by decide
    rw [size_note_bytes, htwo]
    omega
  have hlarge : (note_bytes (letters "alpha.md".toList filling)).size ≤ MAX_BODY_BYTES := by
    rw [size_note_bytes, utf8_len_letters, halpha]
    omega
  obtain ⟨after, hsucceeds, hread⟩ := move_alpha_succeeds (note_bytes "a\n".toList)
    (rewritten_page_letters filling)
  obtain ⟨metadata, body, hsound⟩ := h epoch_externals calm _ after [.move move_alpha]
    epoch_externals_lawful (sound_two_notes hsmall hlarge) (Run.single hsucceeds) notes_beta _ hread
  have hsize := hsound.size
  rw [size_note_bytes, utf8_len_letters, hbeta] at hsize
  omega

/-- A page that is made in an empty store is in order. -/
theorem stored_pages_sound_make :
    Sound alpha_externals ((section_of alpha_externals (.write make_alpha)).run
      (exec alpha_externals calm) no_pages).2.disk := by
  have hempty : Sound alpha_externals no_pages.disk := fun path bytes h => by
    simp [no_pages, Disk.read] at h
  have hmade := run_make notes_alpha
  rw [show ({ make_alpha with path := notes_alpha } : WritePageRequest) = make_alpha from rfl] at hmade
  rw [hmade]
  refine stored_pages_sound alpha_externals calm no_pages _ [.write make_alpha]
    alpha_externals_lawful hempty (Run.single ⟨⟨_, hmade⟩, fun t _ _ => ?_⟩)
  exact (by decide : (⟨0, 0⟩ : DateTime).InRfc3339)

end AgentSpace.Memory
