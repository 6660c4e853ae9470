/-
How the Discord gateway cuts a text into messages.

`_chunk` cuts where paragraphs and lines end and, where it has to, within a line;
`plan_simulated_typing` cuts where paragraphs end, but not inside a code fence. Both drop
white space at the cuts and nothing else (`squash_chunk`, `squash_plan`).
-/
import AgentSpace.PyText

set_option autoImplicit false

namespace AgentSpace.Discord

open Telemetry (Str str)
open PyText

/-! ## Pieces of a text -/

/-- A text without its white space. -/
def squash (text : Str) : Str := text.filter fun c => !is_space c

/-- A piece before the first of the pieces. -/
def extend_first (c : Fin 0x110000) : List Str → List Str
  | [] => [[c]]
  | piece :: pieces => (c :: piece) :: pieces

/-- `text.split("\n")`. -/
def split_lines : Str → List Str
  | [] => [[]]
  | c :: rest => if c = newline then [] :: split_lines rest else extend_first c (split_lines rest)

/-- `text.split("\n\n")`. -/
def split_paragraphs : Str → List Str
  | [] => [[]]
  | [c] => [[c]]
  | c :: d :: rest =>
    if c = newline ∧ d = newline then [] :: split_paragraphs rest
    else extend_first c (split_paragraphs (d :: rest))

/-- `text.splitlines()`. -/
def splitlines : Str → List Str
  | [] => []
  | [c] => if is_line_end c then [[]] else [[c]]
  | c :: d :: rest =>
    if c.val = 13 ∧ d.val = 10 then [] :: splitlines rest
    else if is_line_end c then [] :: splitlines (d :: rest)
    else extend_first c (splitlines (d :: rest))

/-! ## `_chunk` -/

/-- The variables of `_chunk`. -/
structure Chunking where
  chunks : List Str
  current : Str

/-- `flush`. -/
def Chunking.flush (s : Chunking) : Chunking :=
  if s.current.isEmpty then s else ⟨s.chunks ++ [s.current], []⟩

/-- `append_atom`. -/
def append_atom (max_chars : ℕ) (sep : Str) (atom : Str) (s : Chunking) : Chunking :=
  if s.current.isEmpty then { s with current := atom }
  else
    let candidate := s.current ++ sep ++ atom
    if candidate.length ≤ max_chars then { s with current := candidate }
    else { s.flush with current := atom }

/-- `line[start : start + max_chars] for start in range(0, len(line), max_chars)`. -/
def slices (max_chars : ℕ) (line : Str) : List Str :=
  if line.isEmpty ∨ max_chars = 0 then []
  else line.take max_chars :: slices max_chars (line.drop max_chars)
termination_by line.length
decreasing_by
  rename_i h
  have hline : line.length ≠ 0 := fun hzero => h (Or.inl (by simpa using hzero))
  rw [List.length_drop]
  omega

/-- One line of a paragraph that is too long. -/
def chunk_line (max_chars : ℕ) (s : Chunking) (line : Str) : Chunking :=
  if line.length ≤ max_chars then append_atom max_chars [newline] line s
  else { s.flush with chunks := s.flush.chunks ++ slices max_chars line }

/-- One paragraph. -/
def chunk_paragraph (max_chars : ℕ) (s : Chunking) (paragraph : Str) : Chunking :=
  if paragraph.isEmpty then s
  else if paragraph.length ≤ max_chars then append_atom max_chars [newline, newline] paragraph s
  else (split_lines paragraph).foldl (chunk_line max_chars) s.flush

/-- `_chunk`, for a positive `max_chars`. -/
def chunk (text : Str) (max_chars : ℕ) : List Str :=
  let stripped := strip text
  if stripped.isEmpty then []
  else if stripped.length ≤ max_chars then [stripped]
  else ((split_paragraphs stripped).foldl (chunk_paragraph max_chars) ⟨[], []⟩).flush.chunks

/-! ## `plan_simulated_typing` -/

/-- The variables of `_split_into_paragraphs`. -/
structure Paragraphs where
  paragraphs : List Str
  current : List Str
  in_fence : Bool

/-- `flush` of `_split_into_paragraphs`. -/
def Paragraphs.flush (s : Paragraphs) : Paragraphs :=
  let text := rstrip ([newline].intercalate s.current)
  if text.isEmpty then { s with current := [] }
  else { s with paragraphs := s.paragraphs ++ [text], current := [] }

/-- `_is_blank`. -/
def is_blank (line : Str) : Bool := (strip line).isEmpty

/-- `_is_code_fence`. -/
def is_code_fence (line : Str) : Bool := (str "```").isPrefixOf (lstrip line)

/-- One line of `_split_into_paragraphs`. -/
def paragraph_line (s : Paragraphs) (line : Str) : Paragraphs :=
  if is_code_fence line then { s with current := s.current ++ [line], in_fence := !s.in_fence }
  else if !s.in_fence && is_blank line then s.flush
  else { s with current := s.current ++ [line] }

/-- `_split_into_paragraphs`. -/
def split_into_paragraphs (message : Str) : List Str :=
  ((splitlines message).foldl paragraph_line ⟨[], [], false⟩).flush.paragraphs

/-- `plan_simulated_typing`: the pieces, without their delays. -/
def plan_simulated_typing (message : Str) (enabled : Bool) : List Str :=
  if (strip message).isEmpty then []
  else if enabled then split_into_paragraphs message
  else [message]

/-! ## White space -/

theorem squash_append (s t : Str) : squash (s ++ t) = squash s ++ squash t :=
  List.filter_append ..

theorem squash_cons_of_space {c : Fin 0x110000} (h : is_space c = true) (t : Str) :
    squash (c :: t) = squash t :=
  List.filter_cons_of_neg (by simp [h])

theorem squash_cons (c : Fin 0x110000) (t : Str) : squash (c :: t) = squash [c] ++ squash t :=
  squash_append [c] t

theorem is_space_newline : is_space newline = true := by decide

theorem is_space_of_line_end {c : Fin 0x110000} (h : is_line_end c = true) : is_space c = true := by
  unfold is_line_end at h
  unfold is_space
  simp only [Bool.or_eq_true, Bool.and_eq_true, decide_eq_true_eq, beq_iff_eq] at h ⊢
  omega

variable (t : Str)

theorem squash_dropWhile : squash (t.dropWhile is_space) = squash t := by
  induction t with
  | nil => rfl
  | cons c t ih =>
    by_cases hc : is_space c = true
    · rw [List.dropWhile_cons_of_pos hc, ih, squash_cons_of_space hc]
    · rw [List.dropWhile_cons_of_neg hc]

theorem squash_reverse : squash t.reverse = (squash t).reverse := List.filter_reverse ..

theorem squash_rstrip : squash (rstrip t) = squash t := by
  unfold rstrip List.rdropWhile
  rw [squash_reverse, squash_dropWhile, squash_reverse, List.reverse_reverse]

theorem squash_strip : squash (strip t) = squash t := by
  unfold strip lstrip
  rw [squash_rstrip, squash_dropWhile]

theorem strip_isEmpty_iff {t : Str} : (strip t).isEmpty = true ↔ squash t = [] := by
  constructor
  · intro h
    rw [← squash_strip, List.isEmpty_iff.1 h]
    rfl
  · intro h
    have hall : ∀ c ∈ t, is_space c = true := by
      intro c hc
      have hnot := List.filter_eq_nil_iff.1 h c hc
      simpa using hnot
    have hleft : lstrip t = [] := List.dropWhile_eq_nil_iff.2 hall
    unfold strip
    rw [hleft]
    rfl

theorem is_blank_iff {text : Str} : is_blank text = true ↔ squash text = [] := strip_isEmpty_iff

/-- Pieces without the white space of all of them. -/
def squash_all (pieces : List Str) : Str := squash pieces.flatten

theorem squash_all_append (ps qs : List Str) : squash_all (ps ++ qs) = squash_all ps ++ squash_all qs := by
  unfold squash_all
  rw [List.flatten_append, squash_append]

theorem squash_all_cons (p : Str) (ps : List Str) : squash_all (p :: ps) = squash p ++ squash_all ps :=
  squash_append p ps.flatten

theorem squash_eq_nil_of_mem {ps : List Str} (h : squash_all ps = []) {p : Str} (hp : p ∈ ps) :
    squash p = [] := by
  rw [squash_all, squash, List.filter_eq_nil_iff] at h
  exact List.filter_eq_nil_iff.2 fun c hc => h c (List.mem_flatten_of_mem hp hc)

theorem squash_all_singleton (p : Str) : squash_all [p] = squash p := by
  rw [squash_all_cons]
  exact List.append_nil _

theorem squash_extend_first (c : Fin 0x110000) (ps : List Str) :
    squash_all (extend_first c ps) = squash [c] ++ squash_all ps := by
  cases ps with
  | nil => rw [extend_first, squash_all_singleton]; exact (List.append_nil _).symm
  | cons p ps =>
    rw [extend_first, squash_all_cons, squash_cons, squash_all_cons, List.append_assoc]

theorem squash_intercalate_newline (ps : List Str) : squash ([newline].intercalate ps) = squash_all ps := by
  induction ps with
  | nil => rfl
  | cons p ps ih =>
    cases ps with
    | nil => rw [List.intercalate_singleton, squash_all_singleton]
    | cons q qs =>
      have hsep : squash [newline] = [] := squash_cons_of_space is_space_newline []
      rw [List.intercalate_cons_cons, squash_append, squash_append, ih, squash_all_cons p, hsep,
        List.append_nil]

theorem squash_split_lines : squash_all (split_lines t) = squash t := by
  induction t with
  | nil => rfl
  | cons c t ih =>
    unfold split_lines
    by_cases hc : c = newline
    · rw [if_pos hc, squash_all_cons, ih, hc, squash_cons_of_space is_space_newline]
      rfl
    · rw [if_neg hc, squash_extend_first, ih, ← squash_cons]

theorem squash_split_paragraphs : squash_all (split_paragraphs t) = squash t := by
  fun_induction split_paragraphs t with
  | case1 => rfl
  | case2 c => exact squash_all_singleton [c]
  | case3 c d rest h ih =>
    obtain ⟨rfl, rfl⟩ := h
    rw [squash_all_cons, ih, squash_cons_of_space is_space_newline,
      squash_cons_of_space is_space_newline]
    rfl
  | case4 c d rest h ih => rw [squash_extend_first, ih, ← squash_cons]

theorem squash_splitlines : squash_all (splitlines t) = squash t := by
  fun_induction splitlines t with
  | case1 => rfl
  | case2 c hc =>
    rw [squash_all_singleton, squash_cons_of_space (is_space_of_line_end hc)]
  | case3 c hc => exact squash_all_singleton [c]
  | case4 c d rest h ih =>
    have hc : is_space c = true := by
      unfold is_space
      simp [h.1]
    have hd : is_space d = true := by
      unfold is_space
      simp [h.2]
    rw [squash_all_cons, ih, squash_cons_of_space hc, squash_cons_of_space hd]
    rfl
  | case5 c d rest _ hc ih =>
    rw [squash_all_cons, ih, squash_cons_of_space (is_space_of_line_end hc)]
    rfl
  | case6 c d rest _ _ ih => rw [squash_extend_first, ih, ← squash_cons]

/-! ## Nothing is lost -/

/-- What the variables of `_chunk` hold. -/
def Chunking.text (s : Chunking) : Str := squash_all s.chunks ++ squash s.current

theorem text_flush (s : Chunking) : s.flush.text = s.text ∧ s.flush.current = [] := by
  unfold Chunking.flush
  by_cases hempty : s.current.isEmpty = true
  · rw [if_pos hempty]
    exact ⟨rfl, List.isEmpty_iff.1 hempty⟩
  · rw [if_neg hempty]
    refine ⟨?_, rfl⟩
    unfold Chunking.text
    rw [squash_all_append, squash_all_singleton]
    exact List.append_nil _

theorem squash_flush_chunks (s : Chunking) : squash_all s.flush.chunks = s.text := by
  obtain ⟨htext, hcurrent⟩ := text_flush s
  rw [← htext]
  unfold Chunking.text
  rw [hcurrent]
  exact (List.append_nil _).symm

theorem text_append_atom (max_chars : ℕ) {sep : Str} (hsep : squash sep = []) (atom : Str)
    (s : Chunking) : (append_atom max_chars sep atom s).text = s.text ++ squash atom := by
  unfold append_atom
  by_cases hempty : s.current.isEmpty = true
  · rw [if_pos hempty]
    unfold Chunking.text
    rw [List.isEmpty_iff.1 hempty]
    simp [squash]
  · rw [if_neg hempty]
    by_cases hfits : (s.current ++ sep ++ atom).length ≤ max_chars
    · simp only [hfits, if_true]
      unfold Chunking.text
      show squash_all s.chunks ++ squash (s.current ++ sep ++ atom) = _
      rw [squash_append, squash_append, hsep, List.append_nil, List.append_assoc]
    · simp only [hfits, if_false]
      show squash_all s.flush.chunks ++ squash atom = _
      rw [squash_flush_chunks]

variable {max_chars : ℕ}

theorem flatten_slices (hmax : 0 < max_chars) (line : Str) : (slices max_chars line).flatten = line := by
  fun_induction slices max_chars line with
  | case1 line h =>
    rcases h with hempty | hzero
    · exact (List.isEmpty_iff.1 hempty).symm
    · omega
  | case2 line h ih => rw [List.flatten_cons, ih, List.take_append_drop]

theorem text_chunk_line (hmax : 0 < max_chars) (s : Chunking) (line : Str) :
    (chunk_line max_chars s line).text = s.text ++ squash line := by
  unfold chunk_line
  by_cases hfits : line.length ≤ max_chars
  · rw [if_pos hfits]
    exact text_append_atom max_chars (by decide) line s
  · rw [if_neg hfits]
    obtain ⟨-, hcurrent⟩ := text_flush s
    unfold Chunking.text
    show squash_all (s.flush.chunks ++ slices max_chars line) ++ squash s.flush.current = _
    have hcut : squash_all (slices max_chars line) = squash line := by
      unfold squash_all
      rw [flatten_slices hmax]
    rw [hcurrent, squash_all_append, squash_flush_chunks, hcut]
    exact List.append_nil _

theorem text_foldl {step : Chunking → Str → Chunking}
    (hstep : ∀ s piece, (step s piece).text = s.text ++ squash piece) (pieces : List Str)
    (s : Chunking) : (pieces.foldl step s).text = s.text ++ squash_all pieces := by
  induction pieces generalizing s with
  | nil => exact (List.append_nil _).symm
  | cons piece pieces ih =>
    rw [List.foldl_cons, ih, hstep, squash_all_cons, List.append_assoc]

theorem text_chunk_paragraph (hmax : 0 < max_chars) (s : Chunking) (paragraph : Str) :
    (chunk_paragraph max_chars s paragraph).text = s.text ++ squash paragraph := by
  unfold chunk_paragraph
  by_cases hempty : paragraph.isEmpty = true
  · rw [if_pos hempty, List.isEmpty_iff.1 hempty]
    exact (List.append_nil _).symm
  · rw [if_neg hempty]
    by_cases hfits : paragraph.length ≤ max_chars
    · rw [if_pos hfits]
      exact text_append_atom max_chars (by decide) paragraph s
    · rw [if_neg hfits, text_foldl (text_chunk_line hmax), (text_flush s).1, squash_split_lines]

/-- **`_chunk`** loses nothing but white space. -/
theorem squash_chunk (text : Str) (hmax : 0 < max_chars) :
    squash_all (chunk text max_chars) = squash text := by
  unfold chunk
  by_cases hempty : (strip text).isEmpty = true
  · simp only [hempty, if_true]
    rw [strip_isEmpty_iff.1 hempty]
    rfl
  · by_cases hfits : (strip text).length ≤ max_chars
    · simp only [hempty, hfits, if_true, Bool.false_eq_true, if_false]
      rw [squash_all_singleton, squash_strip]
    · simp only [hempty, hfits, Bool.false_eq_true, if_false]
      rw [squash_flush_chunks, text_foldl (text_chunk_paragraph hmax), squash_split_paragraphs,
        squash_strip]
      rfl

/-- What the variables of `_split_into_paragraphs` hold. -/
def Paragraphs.text (s : Paragraphs) : Str := squash_all s.paragraphs ++ squash_all s.current

theorem squash_flush_paragraphs (s : Paragraphs) :
    squash_all s.flush.paragraphs = s.text ∧ s.flush.current = [] := by
  have htext : squash (rstrip ([newline].intercalate s.current)) = squash_all s.current := by
    rw [squash_rstrip, squash_intercalate_newline]
  unfold Paragraphs.flush Paragraphs.text
  by_cases hempty : (rstrip ([newline].intercalate s.current)).isEmpty = true
  · simp only [hempty, if_true]
    rw [List.isEmpty_iff.1 hempty] at htext
    rw [← htext]
    exact ⟨(List.append_nil _).symm, trivial⟩
  · simp only [hempty, Bool.false_eq_true, if_false]
    rw [squash_all_append, squash_all_singleton, htext]
    exact ⟨rfl, trivial⟩

theorem text_paragraph_line (s : Paragraphs) (line : Str) :
    (paragraph_line s line).text = s.text ++ squash line := by
  have hkept : ∀ in_fence, Paragraphs.text ⟨s.paragraphs, s.current ++ [line], in_fence⟩
      = s.text ++ squash line := by
    intro in_fence
    unfold Paragraphs.text
    rw [squash_all_append, squash_all_singleton, List.append_assoc]
  unfold paragraph_line
  by_cases hfence : is_code_fence line = true
  · rw [if_pos hfence]
    exact hkept _
  · rw [if_neg hfence]
    by_cases hblank : (!s.in_fence && is_blank line) = true
    · rw [if_pos hblank]
      obtain ⟨htext, hcurrent⟩ := squash_flush_paragraphs s
      have hline : squash line = [] := strip_isEmpty_iff.1 (Bool.and_eq_true_iff.1 hblank).2
      unfold Paragraphs.text at htext ⊢
      rw [htext, hcurrent, hline]
      rfl
    · rw [if_neg hblank]
      exact hkept _

theorem text_paragraph_lines (lines : List Str) (s : Paragraphs) :
    (lines.foldl paragraph_line s).text = s.text ++ squash_all lines := by
  induction lines generalizing s with
  | nil => exact (List.append_nil _).symm
  | cons line lines ih =>
    rw [List.foldl_cons, ih, text_paragraph_line, squash_all_cons, List.append_assoc]

theorem squash_split_into_paragraphs (message : Str) :
    squash_all (split_into_paragraphs message) = squash message := by
  unfold split_into_paragraphs
  rw [(squash_flush_paragraphs _).1, text_paragraph_lines, squash_splitlines]
  rfl

/-- **`plan_simulated_typing`** loses nothing but white space. -/
theorem squash_plan (message : Str) (enabled : Bool) :
    squash_all (plan_simulated_typing message enabled) = squash message := by
  unfold plan_simulated_typing
  by_cases hempty : (strip message).isEmpty = true
  · rw [if_pos hempty, strip_isEmpty_iff.1 hempty]
    rfl
  · rw [if_neg hempty]
    by_cases henabled : enabled = true
    · rw [if_pos henabled, squash_split_into_paragraphs]
    · rw [if_neg henabled]
      exact squash_all_singleton message

end AgentSpace.Discord
