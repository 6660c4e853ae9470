/-
Page paths: `memory_rs/src/path.rs`, with the error type of `error.rs`.

A `PagePath` carries the proof that its segments pass the checks `parse` makes, so a
path with a `..` segment, an empty segment or a separator inside a segment cannot be
built.
-/
import AgentSpace.Text

set_option autoImplicit false

namespace AgentSpace.Memory

open Text

/-! ## Errors -/

/-- `MemoryError`. -/
inductive MemoryError where
  | InvalidPath (path : Text) (reason : String)
  | NotFound (path : Text)
  | AlreadyExists (path : Text)
  | Conflict (path : Text) (expected : Option Text) (actual : Text)
  | InvalidFrontmatter (path : Text) (reason : String)
  | TooLarge (what : String) (limit : ℕ)
  | CommandNotAllowed (command : Text)
  | RunTimedOut
  | RunOutputLimitExceeded
  | RunCancelled
  | RunLaunchFailed (message : String)
  | Lock (message : String)
  | NotImplemented (feature : String)
  | Unavailable (message : String)
  | MalformedResponse (message : String)
  | Internal (message : String)
  | Io (message : String)
  | Yaml (message : String)
  deriving DecidableEq, Repr

instance decidableEq_except {ε α : Type} [DecidableEq ε] [DecidableEq α] : DecidableEq (Except ε α)
  | .error e, .error f => decidable_of_iff (e = f) (by rw [Except.error.injEq])
  | .ok a, .ok b => decidable_of_iff (a = b) (by rw [Except.ok.injEq])
  | .error _, .ok _ | .ok _, .error _ => isFalse nofun

/-! ## Valid segments -/

/-- `MAX_PATH_SEGMENTS`. -/
def MAX_PATH_SEGMENTS : ℕ := 32
/-- `MAX_PATH_LENGTH`: bytes of the logical path, excluding `.md`. -/
def MAX_PATH_LENGTH : ℕ := 512
/-- `MAX_SEGMENT_LENGTH`: bytes of one segment. -/
def MAX_SEGMENT_LENGTH : ℕ := 128

/-- `MARKDOWN_EXTENSION`. -/
def MARKDOWN_EXTENSION : Text := ".md".toList

/-- What the loop of `PagePath::parse` lets through as one segment. -/
structure ValidSegment (s : Text) : Prop where
  nonempty : s ≠ []
  not_dot : s ≠ ['.']
  not_dot_dot : s ≠ ['.', '.']
  short : utf8_len s ≤ MAX_SEGMENT_LENGTH
  no_control : s.any is_control = false
  no_slash : '/' ∉ s
  no_backslash : '\\' ∉ s

/-- What `PagePath::parse` lets through as the segments of a page path. -/
structure ValidSegments (segments : List Text) : Prop where
  nonempty : segments ≠ []
  count : segments.length ≤ MAX_PATH_SEGMENTS
  short : utf8_len (join ['/'] segments) ≤ MAX_PATH_LENGTH
  segment : ∀ s ∈ segments, ValidSegment s

/-- `PagePath`: a validated, root-relative identity of a page. -/
@[ext] structure PagePath where
  segments : List Text
  valid : ValidSegments segments
  deriving DecidableEq

namespace PagePath

/-! ## Parsing -/

/-- The checks of one segment in the loop of `PagePath::parse`, in order. -/
def check_segment (input raw_segment : Text) : Except MemoryError Unit :=
  if raw_segment = [] then
    .error (.InvalidPath input "path segments must not be empty")
  else if raw_segment = ['.'] ∨ raw_segment = ['.', '.'] then
    .error (.InvalidPath input "path must not contain '.' or '..' segments")
  else if utf8_len raw_segment > MAX_SEGMENT_LENGTH then
    .error (.InvalidPath input "segment exceeds 128 bytes")
  else if raw_segment.any is_control then
    .error (.InvalidPath input "path must not contain control characters")
  else .ok ()

/-- The `for raw_segment in trimmed.split('/')` loop. -/
def check_segments (input : Text) : List Text → Except MemoryError Unit
  | [] => .ok ()
  | s :: rest =>
    match check_segment input s with
    | .error e => .error e
    | .ok () => check_segments input rest

/-- The text the loop splits: the input without one `.md` suffix. -/
def trimmed (input : Text) : Text := (strip_suffix MARKDOWN_EXTENSION input).getD input

/-- The segments `PagePath::parse` accepts, before they are wrapped. -/
def parse_segments (input : Text) : Except MemoryError (List Text) :=
  if input = [] then .error (.InvalidPath input "path must not be empty")
  else if utf8_len input > MAX_PATH_LENGTH then
    .error (.InvalidPath input "path exceeds 512 bytes")
  else if input.head? = some '/' then
    .error (.InvalidPath input "absolute paths are not allowed")
  else if '\\' ∈ input then
    .error (.InvalidPath input "backslash is not a valid path separator")
  else
    let segments := split '/' (trimmed input)
    match check_segments input segments with
    | .error e => .error e
    | .ok () =>
      if segments.length > MAX_PATH_SEGMENTS then
        .error (.InvalidPath input "path exceeds 32 segments")
      else .ok segments

theorem check_segment_ok {input s : Text} :
    check_segment input s = .ok () ↔
      s ≠ [] ∧ s ≠ ['.'] ∧ s ≠ ['.', '.'] ∧ utf8_len s ≤ MAX_SEGMENT_LENGTH
        ∧ s.any is_control = false := by
  rw [check_segment]
  by_cases h1 : s = []
  · simp [h1]
  · by_cases h2 : s = ['.'] ∨ s = ['.', '.']
    · rw [if_neg h1, if_pos h2]
      rcases h2 with h2 | h2 <;> simp [h2]
    · rw [if_neg h1, if_neg h2]
      split_ifs <;> simp_all

theorem check_segments_ok {input : Text} {segments : List Text} :
    check_segments input segments = .ok () ↔
      ∀ s ∈ segments, check_segment input s = .ok () := by
  induction segments with
  | nil => simp [check_segments]
  | cons s rest ih =>
    rw [check_segments]
    cases h : check_segment input s with
    | error e => simp [h]
    | ok u => simp [h, ih]

theorem trimmed_eq (input : Text) :
    input = trimmed input ∨ input = trimmed input ++ MARKDOWN_EXTENSION := by
  rw [trimmed]
  cases h : strip_suffix MARKDOWN_EXTENSION input with
  | none => exact Or.inl rfl
  | some u => exact Or.inr (strip_suffix_eq_some h)

theorem parse_segments_valid {input : Text} {segments : List Text}
    (h : parse_segments input = .ok segments) : ValidSegments segments := by
  rw [parse_segments] at h
  split_ifs at h with hne hlen habs hback
  dsimp only at h
  split at h
  · cases h
  · rename_i hcheck
    split_ifs at h with hcount
    obtain rfl : split '/' (trimmed input) = segments := by simpa using h
    have hsub : utf8_len (trimmed input) ≤ utf8_len input ∧ ∀ c ∈ trimmed input, c ∈ input := by
      rcases trimmed_eq input with heq | heq
      · rw [← heq]; exact ⟨le_refl _, fun c hc => hc⟩
      · constructor
        · conv_rhs => rw [heq]
          simp
        · intro c hc
          rw [heq]
          exact List.mem_append_left _ hc
    refine ⟨split_ne_nil _ _, by omega, ?_, ?_⟩
    · rw [join_split]
      omega
    · intro s hs
      obtain ⟨h1, h2, h3, h4, h5⟩ := check_segment_ok.1 (check_segments_ok.1 hcheck s hs)
      exact ⟨h1, h2, h3, h4, h5, not_mem_of_mem_split hs,
        fun hb => hback (hsub.2 _ (by
          rw [← join_split '/' (trimmed input)]
          exact mem_join_of_mem hs hb))⟩

/-- `PagePath::parse`. -/
def parse (input : Text) : Except MemoryError PagePath :=
  match h : parse_segments input with
  | .error e => .error e
  | .ok segments => .ok ⟨segments, parse_segments_valid h⟩

theorem parse_eq_ok {input : Text} {p : PagePath} :
    parse input = .ok p ↔ parse_segments input = .ok p.segments := by
  rw [parse]
  split
  · rename_i e h
    simp [h]
  · rename_i segments h
    simp [h, PagePath.ext_iff]

theorem parse_ok {input : Text} {p : PagePath} (h : parse input = .ok p) :
    utf8_len input ≤ MAX_PATH_LENGTH ∧ p.segments = split '/' (trimmed input) := by
  rw [parse_eq_ok, parse_segments] at h
  split_ifs at h with hne hlen habs hback
  dsimp only at h
  split at h
  · cases h
  · split_ifs at h
    exact ⟨not_lt.1 hlen, (Except.ok.inj h).symm⟩

/-! ## Projections -/

/-- `PagePath::as_str`: the logical, `.md`-free form. -/
def as_str (p : PagePath) : Text := join ['/'] p.segments

/-- `PagePath::file_stem`: the final segment. -/
def file_stem (p : PagePath) : Text := p.segments.getLastD []

/-- The directory part of `PagePath::parent`, empty for a page at the root. -/
def parent_segments (p : PagePath) : List Text := p.segments.dropLast

theorem validSegments_dropLast {segments : List Text} (h : ValidSegments segments)
    (hlen : 1 < segments.length) : ValidSegments segments.dropLast := by
  have hne : segments.dropLast ≠ [] := by
    intro h0
    have : segments.dropLast.length = 0 := by rw [h0]; rfl
    rw [List.length_dropLast] at this
    omega
  have hcount := h.count
  refine ⟨hne, by rw [List.length_dropLast]; omega, ?_,
    fun s hs => h.segment s (List.dropLast_subset _ hs)⟩
  obtain ⟨pre, last, rfl⟩ : ∃ pre last, segments = pre ++ [last] :=
    ⟨_, _, (List.dropLast_append_getLast h.nonempty).symm⟩
  have hshort := h.short
  rw [List.dropLast_concat] at hne ⊢
  -- the joined path is the joined directory followed by `/` and the file name
  suffices join ['/'] (pre ++ [last]) = join ['/'] pre ++ '/' :: last by
    rw [this, utf8_len_append] at hshort
    omega
  clear * - hne
  induction pre with
  | nil => exact absurd rfl hne
  | cons p ps ih =>
    cases ps with
    | nil => simp [join_cons_cons]
    | cons q qs =>
      simp only [List.cons_append, join_cons_cons] at ih ⊢
      rw [ih (by simp)]
      simp

/-- `PagePath::parent`. -/
def parent (p : PagePath) : Option PagePath :=
  if h : p.segments.length ≤ 1 then none
  else some ⟨p.segments.dropLast, validSegments_dropLast p.valid (by omega)⟩

variable (p : PagePath)

theorem parent_map_segments : (p.parent.map segments).getD [] = p.parent_segments := by
  rw [parent, parent_segments]
  split_ifs with h
  · cases hs : p.segments with
    | nil => rfl
    | cons s rest =>
      rw [hs] at h
      have : rest = [] := by
        cases rest with
        | nil => rfl
        | cons _ _ => simp at h
      simp [this]
  · rfl

theorem segments_eq : p.segments = p.parent_segments ++ [p.file_stem] := by
  have hne := p.valid.nonempty
  rw [parent_segments, file_stem, List.getLastD_eq_getLast?, List.getLast?_eq_getLast_of_ne_nil hne]
  exact (List.dropLast_append_getLast hne).symm

theorem as_str_injective {p q : PagePath} (h : p.as_str = q.as_str) : p = q := by
  have hp : split '/' p.as_str = p.segments :=
    split_join p.valid.nonempty fun s hs => (p.valid.segment s hs).no_slash
  have hq : split '/' q.as_str = q.segments :=
    split_join q.valid.nonempty fun s hs => (q.valid.segment s hs).no_slash
  exact PagePath.ext (by rw [← hp, ← hq, h])

theorem as_str_ne_nil : p.as_str ≠ [] := by
  rw [as_str, p.segments_eq]
  obtain ⟨pre, hpre, -⟩ := join_append_singleton ['/'] p.parent_segments p.file_stem
  rw [hpre]
  have : p.file_stem ≠ [] :=
    (p.valid.segment p.file_stem (by rw [p.segments_eq]; simp)).nonempty
  simp [this]

theorem head?_as_str_ne_slash : p.as_str.head? ≠ some '/' := by
  intro h
  rw [as_str] at h
  cases hs : p.segments with
  | nil => exact p.valid.nonempty hs
  | cons s rest =>
    have hseg := p.valid.segment s (by rw [hs]; simp)
    have hhead : (join ['/'] (s :: rest)).head? = s.head? := by
      cases s with
      | nil => exact absurd rfl hseg.nonempty
      | cons c s => cases rest <;> simp [join_cons_cons]
    rw [hs, hhead] at h
    exact hseg.no_slash (List.mem_of_head? h)

/-- An input whose trimmed form is the text form of a path parses to the path. -/
theorem parse_of_trimmed {input : Text} (htrimmed : trimmed input = p.as_str)
    (hlen : utf8_len input ≤ MAX_PATH_LENGTH)
    (hinput : input = p.as_str ∨ input = p.as_str ++ MARKDOWN_EXTENSION) : parse input = .ok p := by
  rw [parse_eq_ok, parse_segments]
  have hsplit : split '/' (trimmed input) = p.segments := by
    rw [htrimmed]
    exact split_join p.valid.nonempty fun s hs => (p.valid.segment s hs).no_slash
  have hback : '\\' ∉ p.as_str := by
    intro hb
    rcases mem_join hb with h | ⟨s, hs, h⟩
    · simp at h
    · exact (p.valid.segment s hs).no_backslash h
  have hhead : input.head? ≠ some '/' := by
    rcases hinput with rfl | rfl
    · exact p.head?_as_str_ne_slash
    · rw [List.head?_append_of_ne_nil _ p.as_str_ne_nil]
      exact p.head?_as_str_ne_slash
  have hne : input ≠ [] := by
    rcases hinput with rfl | rfl
    · exact p.as_str_ne_nil
    · simp [p.as_str_ne_nil]
  have hnot_back : '\\' ∉ input := by
    rcases hinput with rfl | rfl
    · exact hback
    · simp [hback, MARKDOWN_EXTENSION]
  have hcheck : check_segments input p.segments = .ok () :=
    check_segments_ok.2 fun s hs =>
      let v := p.valid.segment s hs
      check_segment_ok.2 ⟨v.nonempty, v.not_dot, v.not_dot_dot, v.short, v.no_control⟩
  have hcount := p.valid.count
  rw [if_neg hne, if_neg (by omega), if_neg hhead, if_neg hnot_back]
  simp only [hsplit, hcheck]
  rw [if_neg (by omega)]

/-- The text form of a path, with its `.md` suffix, parses back to the path
whenever the suffix still fits the length limit. -/
theorem parse_as_str_append_md (hlen : utf8_len p.as_str + 3 ≤ MAX_PATH_LENGTH) :
    parse (p.as_str ++ MARKDOWN_EXTENSION) = .ok p := by
  have hmd : utf8_len MARKDOWN_EXTENSION = 3 := by decide
  refine parse_of_trimmed p ?_ (by rw [utf8_len_append, hmd]; exact hlen) (Or.inr rfl)
  rw [trimmed, strip_suffix_append, Option.getD_some]

theorem parse_as_str (h : ¬MARKDOWN_EXTENSION <:+ p.as_str) : parse p.as_str = .ok p := by
  refine parse_of_trimmed p ?_ p.valid.short (Or.inl rfl)
  rw [trimmed, strip_suffix, if_neg (by simpa using h), Option.getD_none]

end PagePath

end AgentSpace.Memory
