/-
What leads back: the printed form of a path, the target of a link, and the links of a
rewritten body.

`PagePath::parse` takes one `.md` off its input, so a path whose last segment still ends in
one does not survive being printed and parsed again (`parse_as_str_iff`). The resolver
trims a relative target, cuts it at `#` and `?` and takes a `mailto:` for a mail address,
while path segments may hold all of these (`resolve_relative_target_iff`).
-/
import AgentSpace.Memory.LinkTarget

set_option autoImplicit false

namespace AgentSpace.Memory

open Text PagePath

/-! ## Printed paths -/

theorem as_str_of_parse {input : Text} {p : PagePath} (h : parse input = .ok p) :
    p.as_str = trimmed input := by
  rw [as_str, (parse_ok h).2, join_split]

/-- **A printed path** is parsed to the same path exactly if its input did not end in two
suffixes. -/
theorem parse_as_str_iff {input : Text} {p : PagePath} (h : parse input = .ok p) :
    parse p.as_str = .ok p ↔ ¬".md.md".toList <:+ input := by
  have hprinted := as_str_of_parse h
  constructor
  · rintro hagain ⟨rest, hrest⟩
    have hinput : input = (rest ++ MARKDOWN_EXTENSION) ++ MARKDOWN_EXTENSION := by
      rw [← hrest, List.append_assoc]
      rfl
    have hfirst : p.as_str = rest ++ MARKDOWN_EXTENSION := by
      rw [hprinted, trimmed, hinput, strip_suffix_append]
      rfl
    have hsecond : p.as_str = rest := by
      rw [as_str_of_parse hagain, trimmed, hfirst, strip_suffix_append]
      rfl
    -- one suffix more or less
    have hlength := congrArg List.length (hfirst.symm.trans hsecond)
    simp [MARKDOWN_EXTENSION] at hlength
  · intro hinput
    refine parse_as_str p ?_
    rintro ⟨rest, hrest⟩
    rcases trimmed_eq input with hsame | hsame
    · -- then nothing had been taken off the input, but it ends in a suffix
      rw [← hprinted, ← hrest] at hsame
      have hshort : trimmed input = rest := by
        rw [trimmed, hsame, strip_suffix_append]
        rfl
      have hlength := congrArg List.length (hrest.trans (hprinted.trans hshort))
      simp [MARKDOWN_EXTENSION] at hlength
    · refine hinput ⟨rest, ?_⟩
      rw [hsame, ← hprinted, ← hrest, List.append_assoc]
      rfl

/-- A page that is addressed with its suffix. -/
theorem plan_parsed_again : ∃ p, parse "notes/plan.md".toList = .ok p ∧ p.as_str = "notes/plan".toList
    ∧ parse p.as_str = .ok p := by
  have hsegments : parse_segments "notes/plan.md".toList = .ok ["notes".toList, "plan".toList] := by
    decide
  have hparse : parse "notes/plan.md".toList
      = .ok ⟨["notes".toList, "plan".toList], parse_segments_valid hsegments⟩ := parse_eq_ok.2 hsegments
  exact ⟨_, hparse, rfl, (parse_as_str_iff hparse).2 (by decide)⟩

/-- A page whose name ends in the suffix is printed as another page. -/
theorem twice_suffixed_read_as_another : ∃ p q, parse "plan.md.md".toList = .ok p
    ∧ parse p.as_str = .ok q ∧ p ≠ q := by
  have hfirst : parse_segments "plan.md.md".toList = .ok ["plan.md".toList] := by decide
  have hsecond : parse_segments "plan.md".toList = .ok ["plan".toList] := by decide
  refine ⟨⟨["plan.md".toList], parse_segments_valid hfirst⟩,
    ⟨["plan".toList], parse_segments_valid hsecond⟩, parse_eq_ok.2 hfirst, parse_eq_ok.2 hsecond, ?_⟩
  intro hsame
  have hne : ["plan.md".toList] ≠ ["plan".toList] := by decide
  exact hne (congrArg PagePath.segments hsame)

/-! ## Counting characters -/

section Counting

variable {P : Char → Bool}

theorem countP_join (hslash : P '/' = false) (parts : List Text) :
    (join ['/'] parts).countP P = parts.flatten.countP P := by
  induction parts with
  | nil => rfl
  | cons part parts ih =>
    cases parts with
    | nil => simp [join]
    | cons next parts =>
      rw [join_cons_cons, List.countP_append, List.countP_append, ih, List.flatten_cons,
        List.countP_append]
      simp [hslash]

theorem countP_split (hslash : P '/' = false) (t : Text) : (split '/' t).flatten.countP P = t.countP P := by
  rw [← countP_join hslash, join_split]

theorem countP_push_parts (segments parts : List Text) : (push_parts segments parts).flatten.countP P
      ≤ segments.flatten.countP P + parts.flatten.countP P := by
  induction parts generalizing segments with
  | nil => simp [push_parts]
  | cons part parts ih =>
    rw [push_parts, List.flatten_cons, List.countP_append]
    split_ifs
    · have := ih segments
      omega
    · have hdrop : segments.dropLast.flatten.countP P ≤ segments.flatten.countP P :=
        ((List.dropLast_sublist segments).flatten).countP_le
      have := ih segments.dropLast
      omega
    · have := ih (segments ++ [part])
      rw [List.flatten_append, List.countP_append, List.flatten_singleton] at this
      omega

theorem countP_parse {input : Text} {p : PagePath} (h : parse input = .ok p) :
    p.as_str.countP P ≤ input.countP P := by
  rw [as_str_of_parse h]
  rcases trimmed_eq input with hsame | hsame
  · rw [← hsame]
  · have hcount := congrArg (List.countP P) hsame
    rw [List.countP_append] at hcount
    omega

/-- What a resolved target was parsed from. -/
theorem parse_of_resolve {base_dir : List Text} {target : Text} {p : PagePath}
    (h : resolve_relative_target base_dir target = some p) :
    parse (join ['/'] (push_parts base_dir (split '/' (without_fragment (trim target))))) = .ok p
      ∧ "mailto:".toList.isPrefixOf (without_fragment (trim target)) = false := by
  unfold resolve_relative_target at h
  simp only at h
  split_ifs at h with hempty hscheme hslash hsegments
  have hmail : "mailto:".toList.isPrefixOf (without_fragment (trim target)) = false := by
    by_contra hmail
    exact hscheme (by simp only [Bool.not_eq_false] at hmail; rw [hmail, Bool.or_true])
  refine ⟨?_, hmail⟩
  cases hparse : parse (join ['/'] (push_parts base_dir (split '/' (without_fragment (trim target))))) with
  | ok q =>
    rw [hparse] at h
    rw [Option.some.inj h]
  | error e =>
    rw [hparse] at h
    cases h

end Counting

/-! ## Relative targets -/

/-- The segments of a page below what it shares with a directory. -/
def way_down (base_dir : List Text) (page : PagePath) : List Text :=
  page.segments.drop (common base_dir page.parent_segments)

/-- The directories to leave. -/
def ups (base_dir : List Text) (page : PagePath) : ℕ :=
  base_dir.length - common base_dir page.parent_segments

/-- `n` times `../`. -/
def climb (n : ℕ) : Text := (List.replicate n ['.', '.', '/']).flatten

/-- The way from a directory to a page can be written as a target: no segment below the common
directory has a `#` or a `?`; if no directory is left, the first of them does not start with a blank
or with `mailto:`; and the path with its suffix fits the length limit. -/
structure Linkable (base_dir : List Text) (page : PagePath) : Prop where
  plain : ∀ segment ∈ way_down base_dir page, '#' ∉ segment ∧ '?' ∉ segment
  first : ups base_dir page = 0 → ∀ segment ∈ (way_down base_dir page).head?,
    (∀ c ∈ segment.head?, is_whitespace c = false) ∧ "mailto:".toList.isPrefixOf segment = false
  short : utf8_len page.as_str + 3 ≤ MAX_PATH_LENGTH

theorem way_down_eq (base_dir : List Text) (page : PagePath) :
    way_down base_dir page
      = page.parent_segments.drop (common base_dir page.parent_segments) ++ [page.file_stem] := by
  have hle := (common_le base_dir page.parent_segments).2
  rw [way_down]
  conv_lhs => rw [page.segments_eq]
  rw [List.drop_append_of_le_length hle]

theorem way_down_ne_nil (base_dir : List Text) (page : PagePath) : way_down base_dir page ≠ [] := by
  rw [way_down_eq]
  simp

variable {base_dir : List Text} {page : PagePath}

theorem validSegment_way_down {segment : Text}
    (h : segment ∈ way_down base_dir page) : ValidSegment segment :=
  page.valid.segment segment (List.mem_of_mem_drop h)

theorem join_replicate_append (n : ℕ) {parts : List Text} (hparts : parts ≠ []) :
    join ['/'] (List.replicate n ['.', '.'] ++ parts) = climb n ++ join ['/'] parts := by
  induction n with
  | zero => rfl
  | succ n ih =>
    have hne : List.replicate n ['.', '.'] ++ parts ≠ [] := by simp [hparts]
    obtain ⟨next, rest, hrest⟩ := List.exists_cons_of_ne_nil hne
    rw [List.replicate_succ, List.cons_append, hrest, join_cons_cons, ← hrest, ih]
    rfl

theorem split_climb_append (n : ℕ) (t : Text) :
    split '/' (climb n ++ t) = List.replicate n ['.', '.'] ++ split '/' t := by
  induction n with
  | zero => rfl
  | succ n ih =>
    have hsplit : split '/' (['.', '.'] ++ '/' :: (climb n ++ t))
        = split '/' ['.', '.'] ++ split '/' (climb n ++ t) :=
      List.splitOn_append_cons_self ['.', '.'] (climb n ++ t)
    have hdots : split '/' ['.', '.'] = [['.', '.']] := by decide
    have hclimb : climb (n + 1) ++ t = ['.', '.'] ++ '/' :: (climb n ++ t) := by
      rw [climb, List.replicate_succ, List.flatten_cons, List.append_assoc]
      rfl
    rw [hclimb, hsplit, hdots, ih, List.replicate_succ]
    rfl

theorem mem_climb {n : ℕ} {c : Char} (h : c ∈ climb n) : c = '.' ∨ c = '/' := by
  obtain ⟨part, hpart, hmem⟩ := List.mem_flatten.1 h
  rw [List.eq_of_mem_replicate hpart] at hmem
  simp only [List.mem_cons, List.not_mem_nil, or_false] at hmem
  rcases hmem with rfl | rfl | rfl <;> simp

/-- What is entered, as it stands at the end of a target. -/
def down_text (base_dir : List Text) (page : PagePath) : Text :=
  join ['/'] (way_down base_dir page) ++ MARKDOWN_EXTENSION

theorem relative_target_climb (base_dir : List Text) (page : PagePath) :
    relative_target base_dir page = climb (ups base_dir page) ++ down_text base_dir page := by
  rw [relative_target, relative_parts_eq, dir_parts, List.append_assoc, ← way_down_eq,
    join_replicate_append _ (way_down_ne_nil base_dir page), List.append_assoc]
  rfl

variable {P : Char → Bool}

theorem countP_down_text (hslash : P '/' = false)
    (hsuffix : MARKDOWN_EXTENSION.countP P = 0) (base_dir : List Text) (page : PagePath) :
    (down_text base_dir page).countP P = (way_down base_dir page).flatten.countP P := by
  rw [down_text, List.countP_append, countP_join hslash, hsuffix, Nat.add_zero]

theorem countP_as_str (hslash : P '/' = false) (base_dir : List Text) (page : PagePath) :
    page.as_str.countP P = (base_dir.take (common base_dir page.parent_segments)).flatten.countP P
      + (way_down base_dir page).flatten.countP P := by
  have hle := (common_le base_dir page.parent_segments).2
  have hsegments : page.segments
      = base_dir.take (common base_dir page.parent_segments) ++ way_down base_dir page := by
    rw [take_common, way_down_eq, ← List.append_assoc, List.take_append_drop, ← page.segments_eq]
  rw [as_str, countP_join hslash]
  conv_lhs => rw [hsegments]
  rw [List.flatten_append, List.countP_append]

/-- What is left of a target by trimming, below the directories to leave. -/
def trimmed_down (base_dir : List Text) (page : PagePath) : Text :=
  if ups base_dir page = 0 then trim (down_text base_dir page) else down_text base_dir page

/-- What is left of a target by trimming and cutting. -/
theorem without_fragment_trim (base_dir : List Text) (page : PagePath) :
    without_fragment (trim (relative_target base_dir page))
      = climb (ups base_dir page) ++ without_fragment (trimmed_down base_dir page) := by
  have hcut : ∀ below : Text, without_fragment (climb (ups base_dir page) ++ below)
      = climb (ups base_dir page) ++ without_fragment below := by
    intro below
    unfold without_fragment
    refine List.takeWhile_append_of_pos fun c hc => ?_
    rcases mem_climb hc with rfl | rfl <;> rfl
  rw [relative_target_climb, ← hcut, trimmed_down]
  by_cases hups : ups base_dir page = 0
  · rw [if_pos hups, hups]
    rfl
  · rw [if_neg hups]
    congr 1
    refine trim_eq_self ?_ ?_
    · intro c hc
      obtain ⟨n, hn⟩ := Nat.exists_eq_succ_of_ne_zero hups
      rw [hn] at hc
      obtain rfl : '.' = c := Option.some.inj hc
      rfl
    · intro c hc
      rw [down_text, ← List.append_assoc, List.getLast?_append] at hc
      obtain rfl : 'd' = c := Option.some.inj hc
      rfl

/-- A target that is resolved to a page has all characters of the way down to it. -/
theorem countP_way_down_le (hslash : P '/' = false) {target below : Text}
    (h : resolve_relative_target base_dir target = some page)
    (hbelow : without_fragment (trim target) = climb (ups base_dir page) ++ below) :
    (way_down base_dir page).flatten.countP P ≤ below.countP P := by
  have hle := (common_le base_dir page.parent_segments).1
  obtain ⟨hparse, -⟩ := parse_of_resolve h
  have hcount := countP_parse (P := P) hparse
  have hleft : base_dir.length - ups base_dir page = common base_dir page.parent_segments := by
    unfold ups
    omega
  rw [hbelow, split_climb_append, push_parts_append, push_parts_leave, hleft,
    countP_join hslash, countP_as_str hslash base_dir page] at hcount
  have hpush := countP_push_parts (P := P) (base_dir.take (common base_dir page.parent_segments))
    (split '/' below)
  rw [countP_split hslash] at hpush
  omega

theorem plain_of_resolve
    (h : resolve_relative_target base_dir (relative_target base_dir page) = some page) :
    ∀ segment ∈ way_down base_dir page, '#' ∉ segment ∧ '?' ∉ segment := by
  have hcount := countP_way_down_le (P := fun c => c == '#' || c == '?') rfl h
    (without_fragment_trim base_dir page)
  have hnone : (without_fragment (trimmed_down base_dir page)).countP
      (fun c => c == '#' || c == '?') = 0 := by
    rw [List.countP_eq_zero]
    intro c hc
    have hkept := List.mem_takeWhile_imp hc
    simpa using hkept
  have hzero : (way_down base_dir page).flatten.countP (fun c => c == '#' || c == '?') = 0 := by
    omega
  rw [List.countP_eq_zero] at hzero
  intro segment hsegment
  refine ⟨fun hc => ?_, fun hc => ?_⟩
  · exact hzero _ (List.mem_flatten.2 ⟨segment, hsegment, hc⟩) rfl
  · exact hzero _ (List.mem_flatten.2 ⟨segment, hsegment, hc⟩) rfl

/-- The head of a target: the first segment's, if no directory is left. -/
theorem head?_relative_target (base_dir : List Text) (page : PagePath) :
    (relative_target base_dir page).head? = if ups base_dir page = 0 then
      (way_down base_dir page).head?.bind List.head? else some '.' := by
  rw [relative_target_climb]
  by_cases hups : ups base_dir page = 0
  · obtain ⟨segment, rest, hway⟩ := List.exists_cons_of_ne_nil (way_down_ne_nil base_dir page)
    have hne : segment ≠ [] :=
      (validSegment_way_down (by rw [hway]; exact List.mem_cons_self)).nonempty
    obtain ⟨c, cs, rfl⟩ := List.exists_cons_of_ne_nil hne
    rw [if_pos hups, hups, down_text, hway]
    cases rest with
    | nil => rfl
    | cons next rest =>
      rw [join_cons_cons]
      rfl
  · obtain ⟨n, hn⟩ := Nat.exists_eq_succ_of_ne_zero hups
    rw [if_neg hups, hn]
    rfl

theorem head_of_resolve (h : resolve_relative_target base_dir (relative_target base_dir page) = some page) :
    ∀ c ∈ (relative_target base_dir page).head?, is_whitespace c = false := by
  intro c hc
  by_contra hblank
  have hblank : is_whitespace c = true := by simpa using hblank
  have hups : ups base_dir page = 0 := by
    by_contra hups
    rw [head?_relative_target, if_neg hups] at hc
    obtain rfl : '.' = c := Option.some.inj hc
    exact absurd hblank (by decide)
  obtain ⟨rest, hrest⟩ : ∃ rest, down_text base_dir page = c :: rest := by
    rw [relative_target_climb, hups] at hc
    exact List.head?_eq_some_iff.1 hc
  -- trimming has taken the blank away
  have htrim : (trimmed_down base_dir page).Sublist rest := by
    rw [trimmed_down, if_pos hups, hrest, trim, trim_start, List.dropWhile_cons_of_pos hblank]
    exact (List.rdropWhile_prefix is_whitespace _).sublist.trans (List.dropWhile_sublist _)
  have hcut : (without_fragment (trimmed_down base_dir page)).Sublist rest :=
    (List.takeWhile_sublist _).trans htrim
  have hless := hcut.countP_le (p := is_whitespace)
  have hcount := countP_way_down_le (P := is_whitespace) (by decide) h
    (without_fragment_trim base_dir page)
  rw [← countP_down_text (by decide) (by decide), hrest, List.countP_cons_of_pos hblank] at hcount
  omega

theorem mailto_prefix_of_append {segment rest : Text} {c : Char} (hc : c = '/' ∨ c = '.')
    (h : "mailto:".toList.isPrefixOf (segment ++ c :: rest) = true) :
    "mailto:".toList.isPrefixOf segment = true := by
  rw [List.isPrefixOf_iff_prefix] at h ⊢
  rcases List.prefix_or_prefix_of_prefix h (List.prefix_append segment (c :: rest)) with
    hprefix | ⟨more, hmore⟩
  · exact hprefix
  · cases more with
    | nil =>
      rw [← hmore, List.append_nil]
    | cons d more =>
      rw [← hmore, List.prefix_append_right_inj] at h
      obtain ⟨rfl, -⟩ := List.cons_prefix_cons.1 h
      have hmem : d ∈ "mailto:".toList := by
        rw [← hmore]
        simp
      rcases hc with rfl | rfl
      · exact absurd hmem (by decide)
      · exact absurd hmem (by decide)

/-- A target starts with `mailto:` exactly if no directory is left and the first segment does. -/
theorem mailto_relative_target (base_dir : List Text) (page : PagePath) :
    "mailto:".toList.isPrefixOf (relative_target base_dir page) = true
      ↔ ups base_dir page = 0 ∧ ∃ segment ∈ (way_down base_dir page).head?,
        "mailto:".toList.isPrefixOf segment = true := by
  obtain ⟨segment, rest, hway⟩ := List.exists_cons_of_ne_nil (way_down_ne_nil base_dir page)
  by_cases hups : ups base_dir page = 0
  · have htext : ∃ c more, (c = '/' ∨ c = '.') ∧ relative_target base_dir page = segment ++ c :: more := by
      rw [relative_target_climb, hups, down_text, hway]
      cases rest with
      | nil => exact ⟨'.', "md".toList, Or.inr rfl, by simp [climb, join, MARKDOWN_EXTENSION]⟩
      | cons next rest =>
        rw [join_cons_cons]
        exact ⟨'/', join ['/'] (next :: rest) ++ MARKDOWN_EXTENSION, Or.inl rfl, by simp [climb]⟩
    obtain ⟨c, more, hc, htext⟩ := htext
    rw [hway, htext]
    constructor
    · intro hprefix
      exact ⟨hups, segment, rfl, mailto_prefix_of_append hc hprefix⟩
    · rintro ⟨-, other, hother, hprefix⟩
      obtain rfl : segment = other := Option.some.inj hother
      rw [List.isPrefixOf_iff_prefix] at hprefix ⊢
      exact hprefix.trans (List.prefix_append _ _)
  · refine iff_of_false ?_ fun h => hups h.1
    obtain ⟨n, hn⟩ := Nat.exists_eq_succ_of_ne_zero hups
    rw [relative_target_climb, hn]
    intro h
    cases h

theorem plain_relative_target (hplain : ∀ segment ∈ way_down base_dir page, '#' ∉ segment ∧ '?' ∉ segment) :
    ∀ c ∈ relative_target base_dir page, c ≠ '#' ∧ c ≠ '?' := by
  intro c hc
  have hsegment : ∀ segment ∈ way_down base_dir page, c ∈ segment → c ≠ '#' ∧ c ≠ '?' := by
    intro segment hsegment hmem
    obtain ⟨hhash, hquery⟩ := hplain segment hsegment
    exact ⟨fun h => hhash (h ▸ hmem), fun h => hquery (h ▸ hmem)⟩
  rw [relative_target_climb, down_text] at hc
  rcases List.mem_append.1 hc with hc | hc
  · rcases mem_climb hc with rfl | rfl
    · exact ⟨by decide, by decide⟩
    · exact ⟨by decide, by decide⟩
  rcases List.mem_append.1 hc with hc | hc
  · rcases mem_join hc with hc | ⟨segment, hmem, hc⟩
    · obtain rfl := List.mem_singleton.1 hc
      exact ⟨by decide, by decide⟩
    · exact hsegment segment hmem hc
  · have hletters : ∀ d ∈ MARKDOWN_EXTENSION, d ≠ '#' ∧ d ≠ '?' := by
      simp [MARKDOWN_EXTENSION]
    exact hletters c hc

theorem linkable_of_resolve
    (h : resolve_relative_target base_dir (relative_target base_dir page) = some page) :
    Linkable base_dir page := by
  have hplain := plain_of_resolve h
  have hhead := head_of_resolve h
  have hchars := plain_relative_target hplain
  have hmail : "mailto:".toList.isPrefixOf (relative_target base_dir page) = false := by
    have hresolved := (parse_of_resolve h).2
    rwa [without_fragment_relative_target hchars hhead] at hresolved
  refine ⟨hplain, ?_, ?_⟩
  · intro hups segment hsegment
    refine ⟨?_, ?_⟩
    · intro c hc
      refine hhead c ?_
      have hfirst : (way_down base_dir page).head? = some segment := hsegment
      rw [head?_relative_target, if_pos hups, hfirst]
      exact hc
    · by_contra hmailto
      have hprefix := (mailto_relative_target base_dir page).2
        ⟨hups, segment, hsegment, by simpa using hmailto⟩
      rw [hmail] at hprefix
      cases hprefix
  · rw [resolve_relative_target_of hchars hhead hmail] at h
    cases hparse : parse (page.as_str ++ MARKDOWN_EXTENSION) with
    | error e =>
      rw [hparse] at h
      cases h
    | ok q =>
      have hlength := (parse_ok hparse).1
      rw [utf8_len_append] at hlength
      exact hlength

theorem Linkable.head (h : Linkable base_dir page) :
    ∀ c ∈ (relative_target base_dir page).head?, is_whitespace c = false := by
  intro c hc
  rw [head?_relative_target] at hc
  by_cases hups : ups base_dir page = 0
  · rw [if_pos hups] at hc
    obtain ⟨segment, hsegment, hc⟩ := Option.bind_eq_some_iff.1 hc
    exact (h.first hups segment hsegment).1 c hc
  · rw [if_neg hups] at hc
    obtain rfl : '.' = c := Option.some.inj hc
    rfl

theorem Linkable.resolve (h : Linkable base_dir page) :
    resolve_relative_target base_dir (relative_target base_dir page) = some page := by
  have hmail : "mailto:".toList.isPrefixOf (relative_target base_dir page) = false := by
    by_contra hmail
    obtain ⟨hups, segment, hsegment, hprefix⟩ :=
      (mailto_relative_target base_dir page).1 (by simpa using hmail)
    rw [(h.first hups segment hsegment).2] at hprefix
    cases hprefix
  rw [resolve_relative_target_of (plain_relative_target h.plain) h.head hmail,
    parse_as_str_append_md page h.short]
  rfl

/-- **Relative targets.** A target leads back to its page exactly if the way to the page can be
written as one. -/
theorem resolve_relative_target_iff (base_dir : List Text) (page : PagePath) :
    resolve_relative_target base_dir (relative_target base_dir page) = some page
      ↔ Linkable base_dir page :=
  ⟨linkable_of_resolve, Linkable.resolve⟩

/-- The target of a page with a `#` in its name leads elsewhere. -/
theorem hashed_page_not_found : ∃ page, parse "notes/c#".toList = .ok page
    ∧ resolve_relative_target ["notes".toList] (relative_target ["notes".toList] page) ≠ some page := by
  have hsegments : parse_segments "notes/c#".toList = .ok ["notes".toList, "c#".toList] := by decide
  refine ⟨⟨["notes".toList, "c#".toList], parse_segments_valid hsegments⟩, parse_eq_ok.2 hsegments, ?_⟩
  intro h
  have hplain := plain_of_resolve h "c#".toList (by decide +revert)
  exact hplain.1 (by decide)

end AgentSpace.Memory
