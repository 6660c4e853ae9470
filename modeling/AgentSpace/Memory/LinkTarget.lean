/-
The targets `relative_target` writes, and when `resolve_relative_target` reads
them back.

`PagePath::parse` accepts `#`, `?`, `)` and leading blanks, to which the link syntax
gives a meaning, and a path of up to 512 bytes without its `.md`. `LinkExpressible`
says that none of these stands between a directory and a page.
-/
import AgentSpace.Memory.LinkRewrite

set_option autoImplicit false

namespace AgentSpace.Memory

open Text PagePath

/-- The target that leads from `base_dir` to `page` can be written as an inline
link: no character of it ends the target or starts a fragment or a query, it
does not start with a blank or a `mailto:`, and the path fits the length limit
together with its suffix. -/
structure LinkExpressible (base_dir : List Text) (page : PagePath) : Prop where
  plain : ∀ c ∈ relative_target base_dir page, c ≠ '#' ∧ c ≠ '?' ∧ c ≠ ')'
  head : ∀ c ∈ (relative_target base_dir page).head?, is_whitespace c = false
  not_mail : "mailto:".toList.isPrefixOf (relative_target base_dir page) = false
  short : utf8_len page.as_str + 3 ≤ MAX_PATH_LENGTH

instance (base_dir : List Text) (page : PagePath) :
    Decidable (LinkExpressible base_dir page) :=
  decidable_of_iff
    ((∀ c ∈ relative_target base_dir page, c ≠ '#' ∧ c ≠ '?' ∧ c ≠ ')')
      ∧ (∀ c ∈ (relative_target base_dir page).head?, is_whitespace c = false)
      ∧ "mailto:".toList.isPrefixOf (relative_target base_dir page) = false
      ∧ utf8_len page.as_str + 3 ≤ MAX_PATH_LENGTH)
    ⟨fun ⟨a, b, c, d⟩ => ⟨a, b, c, d⟩, fun ⟨a, b, c, d⟩ => ⟨a, b, c, d⟩⟩

/-! ## Walking the parts of a target -/

theorem push_parts_append (segments ps qs : List Text) :
    push_parts segments (ps ++ qs) = push_parts (push_parts segments ps) qs := by
  induction ps generalizing segments with
  | nil => rfl
  | cons p ps ih =>
    rw [List.cons_append, push_parts, push_parts]
    split_ifs <;> exact ih _

theorem push_parts_enter (segments ps : List Text) (h : ∀ p ∈ ps, p ≠ [] ∧ p ≠ ['.'] ∧ p ≠ ['.', '.']) :
    push_parts segments ps = segments ++ ps := by
  induction ps generalizing segments with
  | nil => simp [push_parts]
  | cons p ps ih =>
    obtain ⟨h1, h2, h3⟩ := h p (by simp)
    rw [push_parts, if_neg (by simp [h1, h2]), if_neg h3,
      ih _ fun q hq => h q (List.mem_cons_of_mem _ hq)]
    simp

theorem push_parts_leave (segments : List Text) (n : ℕ) :
    push_parts segments (List.replicate n ['.', '.']) = segments.take (segments.length - n) := by
  induction n generalizing segments with
  | zero => simp [push_parts]
  | succ n ih =>
    rw [List.replicate_succ, push_parts, if_neg (by decide), if_pos rfl, ih,
      List.length_dropLast, List.dropLast_eq_take, List.take_take]
    congr 1
    omega

theorem common_le (as bs : List Text) : common as bs ≤ as.length ∧ common as bs ≤ bs.length := by
  induction as generalizing bs with
  | nil => simp [common]
  | cons a as ih =>
    cases bs with
    | nil => simp [common]
    | cons b bs =>
      have := ih bs
      rw [common]
      split_ifs
      · simp; omega
      · simp

theorem take_common (as bs : List Text) : as.take (common as bs) = bs.take (common as bs) := by
  induction as generalizing bs with
  | nil => simp [common]
  | cons a as ih =>
    cases bs with
    | nil => simp [common]
    | cons b bs =>
      rw [common]
      split_ifs with h
      · simp [h, ih bs]
      · simp

/-! ## The shape of a relative target -/

/-- The file name of a page as it stands in a target. -/
def md_name (page : PagePath) : Text := page.file_stem ++ MARKDOWN_EXTENSION

/-- The directories `relative_target` leaves and enters. -/
def dir_parts (from_dir : List Text) (page : PagePath) : List Text :=
  List.replicate (from_dir.length - common from_dir page.parent_segments) ['.', '.']
    ++ page.parent_segments.drop (common from_dir page.parent_segments)

variable (from_dir : List Text)

theorem relative_parts_eq (page : PagePath) :
    relative_parts from_dir page = dir_parts from_dir page ++ [page.file_stem] := by
  have hlast : page.segments.getLast?.toList = [page.file_stem] := by
    rw [page.segments_eq, List.getLast?_concat]
    rfl
  rw [relative_parts, hlast]
  rfl

theorem relative_target_eq (page : PagePath) :
    relative_target from_dir page = join ['/'] (dir_parts from_dir page ++ [md_name page]) := by
  obtain ⟨pre, hstem, hall⟩ := join_append_singleton ['/'] (dir_parts from_dir page) page.file_stem
  rw [relative_target, relative_parts_eq, hstem, hall, md_name, List.append_assoc]

theorem as_str_append_md (page : PagePath) :
    page.as_str ++ MARKDOWN_EXTENSION = join ['/'] (page.parent_segments ++ [md_name page]) := by
  obtain ⟨pre, hstem, hall⟩ := join_append_singleton ['/'] page.parent_segments page.file_stem
  rw [as_str, page.segments_eq, hstem, hall, md_name, List.append_assoc]

variable {page : PagePath}

theorem validSegment_parent {s : Text} (h : s ∈ page.parent_segments) : ValidSegment s :=
  page.valid.segment s (List.dropLast_subset _ h)

theorem validSegment_file_stem (page : PagePath) : ValidSegment page.file_stem :=
  page.valid.segment _ (by rw [page.segments_eq]; simp)

theorem md_name_ne (page : PagePath) :
    md_name page ≠ [] ∧ md_name page ≠ ['.'] ∧ md_name page ≠ ['.', '.'] := by
  have hlen : 3 ≤ (md_name page).length := by simp [md_name, MARKDOWN_EXTENSION]
  refine ⟨?_, ?_, ?_⟩ <;> (intro h; rw [h] at hlen; simp at hlen)

theorem no_slash_md_name (page : PagePath) : '/' ∉ md_name page := by
  simp [md_name, MARKDOWN_EXTENSION, (validSegment_file_stem page).no_slash]

theorem no_slash_target_parts (page : PagePath) :
    ∀ p ∈ dir_parts from_dir page ++ [md_name page], p ≠ [] ∧ '/' ∉ p := by
  intro p hp
  rcases List.mem_append.1 hp with hp | hp
  · rcases List.mem_append.1 hp with hp | hp
    · obtain ⟨-, rfl⟩ := List.mem_replicate.1 hp
      simp
    · have hv := validSegment_parent (List.mem_of_mem_drop hp)
      exact ⟨hv.nonempty, hv.no_slash⟩
  · obtain rfl := List.mem_singleton.1 hp
    exact ⟨(md_name_ne page).1, no_slash_md_name page⟩

theorem split_relative_target (page : PagePath) :
    split '/' (relative_target from_dir page) = dir_parts from_dir page ++ [md_name page] := by
  rw [relative_target_eq]
  exact split_join (by simp) fun p hp => (no_slash_target_parts from_dir page p hp).2

/-- Walking the parts of a relative target from the directory it was computed
for ends at the page. -/
theorem push_parts_relative (page : PagePath) :
    push_parts from_dir (dir_parts from_dir page ++ [md_name page])
      = page.parent_segments ++ [md_name page] := by
  have hle := common_le from_dir page.parent_segments
  rw [dir_parts, List.append_assoc, push_parts_append, push_parts_leave, push_parts_enter]
  · rw [show from_dir.length
        - (from_dir.length - common from_dir page.parent_segments)
          = common from_dir page.parent_segments by omega,
      take_common, ← List.append_assoc, List.take_append_drop]
  · intro p hp
    rcases List.mem_append.1 hp with hp | hp
    · have hv := validSegment_parent (List.mem_of_mem_drop hp)
      exact ⟨hv.nonempty, hv.not_dot, hv.not_dot_dot⟩
    · obtain rfl := List.mem_singleton.1 hp
      exact md_name_ne page

theorem nil_mem_split_of_slashes (a b : Text) : [] ∈ split '/' (a ++ '/' :: '/' :: b) := by
  have h1 : split '/' (a ++ '/' :: '/' :: b) = split '/' a ++ split '/' ([] ++ '/' :: b) :=
    List.splitOn_append_cons_self a ('/' :: b)
  have h2 : split '/' ([] ++ '/' :: b) = split '/' [] ++ split '/' b :=
    List.splitOn_append_cons_self [] b
  rw [h1, h2]
  simp [split, List.splitOn_nil]

theorem relative_target_no_scheme (page : PagePath) :
    contains_str "://".toList (relative_target from_dir page) = false := by
  rw [contains_str, decide_eq_false_iff_not]
  rintro ⟨a, b, h⟩
  have hmem : [] ∈ split '/' (relative_target from_dir page) := by
    have := nil_mem_split_of_slashes (a ++ [':']) b
    rw [← h]
    simpa using this
  rw [split_relative_target] at hmem
  exact (no_slash_target_parts from_dir page [] hmem).1 rfl

theorem relative_target_not_absolute (page : PagePath) :
    (relative_target from_dir page).head? ≠ some '/' := by
  intro h
  obtain ⟨t, ht⟩ : ∃ t, relative_target from_dir page = '/' :: t := by
    cases hr : relative_target from_dir page with
    | nil => simp [hr] at h
    | cons c t => exact ⟨t, by rw [hr] at h; simpa using h⟩
  have hmem : [] ∈ split '/' (relative_target from_dir page) := by
    have : split '/' ([] ++ '/' :: t) = split '/' [] ++ split '/' t :=
      List.splitOn_append_cons_self [] t
    rw [List.nil_append] at this
    rw [ht, this]
    simp [split, List.splitOn_nil]
  rw [split_relative_target] at hmem
  exact (no_slash_target_parts from_dir page [] hmem).1 rfl

/-! ## The round trip -/

variable {base_dir : List Text}

/-- What of a relative target the resolver does not drop: all of it, without a blank at its head
and without a `#` and a `?`. -/
theorem without_fragment_relative_target (hplain : ∀ c ∈ relative_target base_dir page, c ≠ '#' ∧ c ≠ '?')
    (hhead : ∀ c ∈ (relative_target base_dir page).head?, is_whitespace c = false) :
    without_fragment (trim (relative_target base_dir page)) = relative_target base_dir page := by
  have htrim : trim (relative_target base_dir page) = relative_target base_dir page := by
    refine trim_eq_self hhead ?_
    intro c hc
    have hlast : (relative_target base_dir page).getLast? = some 'd' := by
      rw [relative_target, List.getLast?_append]
      rfl
    obtain rfl : c = 'd' := by simpa [hlast] using hc.symm
    decide
  rw [htrim, without_fragment, List.takeWhile_eq_self_iff]
  intro c hc
  obtain ⟨h1, h2⟩ := hplain c hc
  simp [h1, h2]

/-- What the resolver does not drop, it walks back to the page. -/
theorem resolve_relative_target_of (hplain : ∀ c ∈ relative_target base_dir page, c ≠ '#' ∧ c ≠ '?')
    (hhead : ∀ c ∈ (relative_target base_dir page).head?, is_whitespace c = false)
    (hmail : "mailto:".toList.isPrefixOf (relative_target base_dir page) = false) :
    resolve_relative_target base_dir (relative_target base_dir page)
      = (PagePath.parse (page.as_str ++ MARKDOWN_EXTENSION)).toOption := by
  have hne : relative_target base_dir page ≠ [] := by
    simp [relative_target, MARKDOWN_EXTENSION]
  rw [resolve_relative_target, without_fragment_relative_target hplain hhead]
  simp only [relative_target_no_scheme, hmail, split_relative_target, push_parts_relative]
  rw [if_neg hne, if_neg (by simp), if_neg (relative_target_not_absolute base_dir page),
    if_neg (by simp), ← as_str_append_md]

/-- **A relative target leads back to its page**, from a directory at any depth
to a page at any depth. -/
theorem resolve_relative_target_relative (h : LinkExpressible base_dir page) :
    resolve_relative_target base_dir (relative_target base_dir page) = some page := by
  rw [resolve_relative_target_of (fun c hc => ⟨(h.plain c hc).1, (h.plain c hc).2.1⟩) h.head h.not_mail,
    parse_as_str_append_md page h.short]
  rfl

/-- A link that led to `source` leads to `destination` once it is retargeted,
and every other link leads where it led. -/
theorem resolve_retarget {source destination : PagePath} (target : Text)
    (h : resolve_relative_target base_dir target = some source →
      LinkExpressible base_dir destination) :
    resolve_relative_target base_dir (retarget base_dir source destination target)
      = (resolve_relative_target base_dir target).map
          fun q => if q = source then destination else q := by
  rw [retarget]
  split_ifs with hres
  · rw [hres, resolve_relative_target_relative (h hres)]
    simp
  · cases hq : resolve_relative_target base_dir target with
    | none => rfl
    | some q =>
      have : q ≠ source := fun hqs => hres (by rw [hq, hqs])
      simp [this]

/-- **The links of a rewritten body**, resolved: the links of the body with
`source` renamed to `destination`, in the same order. Links that resolve to
nothing stay links that resolve to nothing. -/
theorem parse_links_rewrite_links {page_path source destination : PagePath} {body : Text}
    (h : some source ∈ (parse_links page_path body).map ParsedLink.resolved →
      LinkExpressible (base_dir_of page_path) destination) :
    (parse_links page_path (rewrite_links page_path body source destination).1).map
        ParsedLink.resolved
      = ((parse_links page_path body).map ParsedLink.resolved).map
          (Option.map fun q => if q = source then destination else q) := by
  rw [parse_links_resolved] at h
  have hlink : ∀ c ∈ (chunks none body).links,
      resolve_relative_target (base_dir_of page_path) c.target = some source →
        LinkExpressible (base_dir_of page_path) destination :=
    fun c hc hsource => h (List.mem_map.2 ⟨c, hc, hsource⟩)
  rw [parse_links_resolved, parse_links_resolved, chunks_rewrite_links page_path fun c hc hsource
    hmem => ((hlink c hc hsource).plain _ hmem).2.2 rfl, Chunked.mapTarget, List.map_map, List.map_map]
  exact List.map_congr_left fun c hc => resolve_retarget c.target (hlink c hc)

end AgentSpace.Memory
