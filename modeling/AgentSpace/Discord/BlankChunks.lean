/-
Which messages `_chunk` makes, and when one of them is white space only.

A text that is too long is taken apart into paragraphs and lines, and slices of those that are
too long (`pieces`), which are packed into messages. So a message is white space only if a slice
is, or if it begins with such pieces and is full before another one (`chunk_iff`).
-/
import AgentSpace.Discord.Chunks
import AgentSpace.Lib.Packing

set_option autoImplicit false

namespace AgentSpace.Discord

open Lib Lib.Packing
open Telemetry (Str str)
open PyText

/-! ## `_chunk` packs -/

/-- A line of a paragraph that is too long. -/
def line_piece (max_chars : ℕ) (line : Str) : Packed (Fin 0x110000) :=
  if line.length ≤ max_chars then .piece ⟨[newline], line⟩ else .rows (slices max_chars line)

/-- What is packed of a paragraph. -/
def paragraph_pieces (max_chars : ℕ) (paragraph : Str) : List (Packed (Fin 0x110000)) :=
  if paragraph.isEmpty then []
  else if paragraph.length ≤ max_chars then [.piece ⟨[newline, newline], paragraph⟩]
  else .rows [] :: (split_lines paragraph).map (line_piece max_chars)

/-- What is packed of a text. -/
def pieces (text : Str) (max_chars : ℕ) : List (Packed (Fin 0x110000)) :=
  (split_paragraphs (strip text)).flatMap (paragraph_pieces max_chars)

/-- One piece. -/
def chunk_piece (max_chars : ℕ) (s : Chunking) : Packed (Fin 0x110000) → Chunking
  | .piece p => append_atom max_chars p.sep p.atom s
  | .rows rs => { s.flush with chunks := s.flush.chunks ++ rs }

theorem chunk_line_eq (max_chars : ℕ) (s : Chunking) (line : Str) :
    chunk_line max_chars s line = chunk_piece max_chars s (line_piece max_chars line) := by
  unfold chunk_line line_piece
  split_ifs
  · rfl
  · rfl

theorem chunk_paragraph_eq (max_chars : ℕ) (s : Chunking) (paragraph : Str) :
    chunk_paragraph max_chars s paragraph
      = (paragraph_pieces max_chars paragraph).foldl (chunk_piece max_chars) s := by
  unfold chunk_paragraph paragraph_pieces
  split_ifs
  · rfl
  · rfl
  · have hstep : chunk_line max_chars = fun s line => chunk_piece max_chars s (line_piece max_chars line) := by
      funext s line
      exact chunk_line_eq max_chars s line
    have hflush : chunk_piece max_chars s (.rows []) = s.flush := by
      show ({ s.flush with chunks := s.flush.chunks ++ [] } : Chunking) = s.flush
      rw [List.append_nil]
    rw [List.foldl_cons, hflush, List.foldl_map, hstep]

/-- The variables of `_chunk` at the end of a text. -/
theorem foldl_chunk_paragraph (max_chars : ℕ) (paragraphs : List Str) (s : Chunking) :
    paragraphs.foldl (chunk_paragraph max_chars) s
      = (paragraphs.flatMap (paragraph_pieces max_chars)).foldl (chunk_piece max_chars) s := by
  induction paragraphs generalizing s with
  | nil => rfl
  | cons paragraph paragraphs ih =>
    rw [List.foldl_cons, ih, chunk_paragraph_eq, List.flatMap_cons, List.foldl_append]

theorem flush_eq (s : Chunking) : s.flush = ⟨s.chunks ++ row_of s.current, []⟩ := by
  obtain ⟨chunks, current⟩ := s
  cases current with
  | nil => simp [Chunking.flush, row_of]
  | cons c rest => rfl

theorem append_atom_cons (max_chars : ℕ) (sep atom : Str) (chunks : List Str) (c : Fin 0x110000) (rest : Str) :
    append_atom max_chars sep atom ⟨chunks, c :: rest⟩
      = if (c :: rest ++ sep ++ atom).length ≤ max_chars then ⟨chunks, c :: rest ++ sep ++ atom⟩
        else ⟨chunks ++ [c :: rest], atom⟩ := rfl

theorem flush_foldl_chunk_piece (max_chars : ℕ) (items : List (Packed (Fin 0x110000))) (s : Chunking) :
    (items.foldl (chunk_piece max_chars) s).flush.chunks = s.chunks ++ pack max_chars s.current items := by
  induction items generalizing s with
  | nil => rw [List.foldl_nil, flush_eq, pack]
  | cons item items ih =>
    rw [List.foldl_cons, ih]
    cases item with
    | rows rs =>
      rw [chunk_piece, flush_eq, pack_rows]
      simp only [List.append_assoc]
    | piece p =>
      obtain ⟨chunks, current⟩ := s
      cases current with
      | nil => rw [pack_piece]; rfl
      | cons c rest =>
        rw [pack_piece_cons, chunk_piece, append_atom_cons]
        split_ifs
        · rfl
        · rw [List.append_assoc, List.singleton_append]

variable {text : Str} {max_chars : ℕ}

theorem chunk_eq_pack (hlong : max_chars < (strip text).length) :
    chunk text max_chars = pack max_chars [] (pieces text max_chars) := by
  have hne : (strip text).isEmpty = false := by
    rw [List.isEmpty_eq_false_iff]
    intro h
    rw [h] at hlong
    exact absurd hlong (Nat.not_lt_zero _)
  unfold chunk
  simp only [hne, Nat.not_le.2 hlong, if_false, Bool.false_eq_true]
  rw [foldl_chunk_paragraph, flush_foldl_chunk_piece, List.nil_append]
  rfl

/-! ## Messages of white space -/

theorem mem_slices_iff (hmax : 0 < max_chars) {line row : Str} :
    row ∈ slices max_chars line
      ↔ ∃ k, k * max_chars < line.length ∧ row = (line.drop (k * max_chars)).take max_chars := by
  fun_induction slices max_chars line with
  | case1 line h =>
    have hempty : line = [] := by
      rcases h with h | h
      · exact List.isEmpty_iff.1 h
      · omega
    simp [hempty]
  | case2 line h ih =>
    have hline : 0 < line.length := by
      rw [List.length_pos_iff]
      exact fun hnil => h (Or.inl (List.isEmpty_iff.2 hnil))
    rw [List.mem_cons, ih]
    constructor
    · rintro (rfl | ⟨k, hk, rfl⟩)
      · exact ⟨0, by simpa using hline, by simp⟩
      · rw [List.length_drop] at hk
        refine ⟨k + 1, by rw [Nat.succ_mul]; omega, ?_⟩
        rw [List.drop_drop, Nat.succ_mul, Nat.add_comm]
    · rintro ⟨k, hk, rfl⟩
      cases k with
      | zero => exact Or.inl (by simp)
      | succ k =>
        rw [Nat.succ_mul] at hk
        refine Or.inr ⟨k, by rw [List.length_drop]; omega, ?_⟩
        rw [List.drop_drop, Nat.succ_mul, Nat.add_comm]

theorem piece_of_mem {p : Piece (Fin 0x110000)}
    (h : .piece p ∈ pieces text max_chars) : p.atom.length ≤ max_chars ∧ squash p.sep = [] := by
  obtain ⟨paragraph, -, hp⟩ := List.mem_flatMap.1 h
  unfold paragraph_pieces at hp
  split_ifs at hp with hempty hfits
  · cases hp
  · obtain rfl := Packed.piece.inj (List.mem_singleton.1 hp)
    exact ⟨hfits, show squash [newline, newline] = [] by decide⟩
  · rcases List.mem_cons.1 hp with hp | hp
    · cases hp
    · obtain ⟨line, -, hline⟩ := List.mem_map.1 hp
      unfold line_piece at hline
      split_ifs at hline with hshort
      obtain rfl := Packed.piece.inj hline
      exact ⟨hshort, show squash [newline] = [] by decide⟩

/-- What stands between the pieces are the slices of the lines that are too long. -/
theorem rows_of_mem_iff {row : Str} : (∃ rs, .rows rs ∈ pieces text max_chars ∧ row ∈ rs)
      ↔ ∃ paragraph ∈ split_paragraphs (strip text), max_chars < paragraph.length ∧
        ∃ line ∈ split_lines paragraph, max_chars < line.length ∧ row ∈ slices max_chars line := by
  constructor
  · rintro ⟨rs, hrs, hrow⟩
    obtain ⟨paragraph, hparagraph, hp⟩ := List.mem_flatMap.1 hrs
    unfold paragraph_pieces at hp
    split_ifs at hp with hempty hfits
    · cases hp
    · cases List.mem_singleton.1 hp
    · rcases List.mem_cons.1 hp with hp | hp
      · obtain rfl := Packed.rows.inj hp
        cases hrow
      · obtain ⟨line, hline, hitem⟩ := List.mem_map.1 hp
        unfold line_piece at hitem
        split_ifs at hitem with hshort
        obtain rfl := Packed.rows.inj hitem
        exact ⟨paragraph, hparagraph, Nat.not_le.1 hfits, line, hline, Nat.not_le.1 hshort, hrow⟩
  · rintro ⟨paragraph, hparagraph, hlong, line, hline, hcut, hrow⟩
    have hempty : ¬ paragraph.isEmpty = true := by
      intro h
      rw [List.isEmpty_iff.1 h] at hlong
      exact absurd hlong (Nat.not_lt_zero _)
    refine ⟨slices max_chars line, List.mem_flatMap.2 ⟨paragraph, hparagraph, ?_⟩, hrow⟩
    rw [paragraph_pieces, if_neg hempty, if_neg (Nat.not_le.2 hlong)]
    refine List.mem_cons_of_mem _ (List.mem_map.2 ⟨line, hline, ?_⟩)
    rw [line_piece, if_neg (Nat.not_le.2 hcut)]

theorem is_blank_joined {run : List (Piece (Fin 0x110000))} (hsep : ∀ p ∈ run, squash p.sep = []) :
    is_blank (joined run) = false ↔ ∃ p ∈ run, is_blank p.atom = false := by
  have hmore : ∀ more : List (Piece (Fin 0x110000)), (∀ p ∈ more, squash p.sep = []) →
      (squash (more.flatMap fun q => q.sep ++ q.atom) = [] ↔ ∀ p ∈ more, squash p.atom = []) := by
    intro more
    induction more with
    | nil => intro _; simp [squash]
    | cons q more ih =>
      intro hq
      rw [List.flatMap_cons, squash_append, squash_append, hq q List.mem_cons_self, List.nil_append,
        List.append_eq_nil_iff, ih fun p hp => hq p (List.mem_cons_of_mem _ hp), List.forall_mem_cons]
  have hall : is_blank (joined run) = true ↔ ∀ p ∈ run, is_blank p.atom = true := by
    simp only [is_blank_iff]
    cases run with
    | nil => simp [joined, squash]
    | cons p run =>
      rw [joined, squash_append, List.append_eq_nil_iff, List.forall_mem_cons,
        hmore run fun q hq => hsep q (List.mem_cons_of_mem _ hq)]
  rw [← Bool.not_eq_true, hall]
  simp

/-- Where the white space of a text is when none of its messages is white space only. No slice of a
line that is too long is; and where a message begins, the paragraphs or lines that fit into it are
not white space only, all of them. -/
structure WellCut (text : Str) (max_chars : ℕ) : Prop where
  slices : ∀ paragraph ∈ split_paragraphs (strip text), max_chars < paragraph.length →
    ∀ line ∈ split_lines paragraph, max_chars < line.length →
      ∀ k, k * max_chars < line.length → is_blank ((line.drop (k * max_chars)).take max_chars) = false
  rows : ∀ run rest, Begins max_chars (pieces text max_chars) (run.map .piece ++ rest) →
    IsRow max_chars run rest → ∃ p ∈ run, is_blank p.atom = false

/-- The messages of a text: none is white space only, none too long, and only white space is
lost. -/
structure Messages (text : Str) (max_chars : ℕ) (chunks : List Str) : Prop where
  not_blank : ∀ message ∈ chunks, is_blank message = false
  bounded : ∀ message ∈ chunks, message.length ≤ max_chars
  kept : squash_all chunks = squash text

theorem not_blank_iff (hmax : 0 < max_chars) (hlong : max_chars < (strip text).length) :
    (∀ message ∈ chunk text max_chars, is_blank message = false) ↔ WellCut text max_chars := by
  have hmem := fun message =>
    @mem_pack_iff _ max_chars (pieces text max_chars) (fun p hp => (piece_of_mem hp).1) message
  have hseps : ∀ (run : List (Piece (Fin 0x110000))) (rest : List (Packed (Fin 0x110000))),
      Begins max_chars (pieces text max_chars) (run.map .piece ++ rest) →
      ∀ p ∈ run, squash p.sep = [] := fun run rest hbegins p hp =>
    (piece_of_mem (hbegins.subset (List.mem_append_left _ (List.mem_map_of_mem hp)))).2
  rw [chunk_eq_pack hlong]
  constructor
  · intro h
    refine ⟨fun paragraph hparagraph hbig line hline hcut k hk => ?_, fun run rest hbegins hrow => ?_⟩
    · refine h _ ((hmem _).2 (Or.inr (rows_of_mem_iff.2 ?_)))
      exact ⟨paragraph, hparagraph, hbig, line, hline, hcut, (mem_slices_iff hmax).2 ⟨k, hk, rfl⟩⟩
    · exact (is_blank_joined (hseps run rest hbegins)).1
        (h _ ((hmem _).2 (Or.inl ⟨run, rest, hbegins, hrow, rfl⟩)))
  · intro h message hmessage
    rcases (hmem message).1 hmessage with ⟨run, rest, hbegins, hrow, rfl⟩ | hrows
    · exact (is_blank_joined (hseps run rest hbegins)).2 (h.rows run rest hbegins hrow)
    · obtain ⟨paragraph, hparagraph, hbig, line, hline, hcut, hslice⟩ := rows_of_mem_iff.1 hrows
      obtain ⟨k, hk, rfl⟩ := (mem_slices_iff hmax).1 hslice
      exact h.slices paragraph hparagraph hbig line hline hcut k hk

theorem chunk_bounded (hmax : 0 < max_chars) :
    ∀ message ∈ chunk text max_chars, message.length ≤ max_chars := by
  intro message hmessage
  by_cases hlong : max_chars < (strip text).length
  · rw [chunk_eq_pack hlong, mem_pack_iff fun p hp => (piece_of_mem hp).1] at hmessage
    rcases hmessage with ⟨run, rest, -, hrow, rfl⟩ | hrows
    · exact hrow.fits
    · obtain ⟨-, -, -, line, -, -, hslice⟩ := rows_of_mem_iff.1 hrows
      obtain ⟨k, -, rfl⟩ := (mem_slices_iff hmax).1 hslice
      exact List.length_take_le _ _
  · unfold chunk at hmessage
    rw [Nat.not_lt] at hlong
    simp only [hlong, if_true] at hmessage
    split_ifs at hmessage
    · cases hmessage
    · rw [List.mem_singleton.1 hmessage]
      exact hlong

/-- **The messages** that `_chunk` makes of a text are never too long and lose nothing; none is white
space only if and only if the text fits into one or is well cut. -/
theorem chunk_iff (text : Str) {max_chars : ℕ} (hmax : 0 < max_chars) :
    Messages text max_chars (chunk text max_chars)
      ↔ (strip text).length ≤ max_chars ∨ WellCut text max_chars := by
  have hmessages : Messages text max_chars (chunk text max_chars)
      ↔ ∀ message ∈ chunk text max_chars, is_blank message = false :=
    ⟨fun h => h.not_blank, fun h => ⟨h, chunk_bounded hmax, squash_chunk text hmax⟩⟩
  rw [hmessages]
  by_cases hlong : max_chars < (strip text).length
  · rw [not_blank_iff hmax hlong, or_iff_right (Nat.not_le.2 hlong)]
  · refine iff_of_true ?_ (Or.inl (Nat.not_lt.1 hlong))
    unfold chunk
    simp only [Nat.not_lt.1 hlong, if_true]
    split_ifs with hempty
    · simp
    · intro message hmessage
      rw [List.mem_singleton.1 hmessage, ← Bool.not_eq_true, is_blank_iff, squash_strip]
      exact fun h => hempty (strip_isEmpty_iff.2 h)

/-- A line that is cut where there are only spaces. -/
def spaced_line : Str := str "word         end"

theorem short_text_is_one_message : Messages (str "hello") 10 (chunk (str "hello") 10) :=
  (chunk_iff (str "hello") (by decide)).2 (Or.inl (by decide))

/-- With four characters to a message, the second is four spaces. -/
theorem spaces_are_a_message :
    ¬ ∀ (text : Str) (max_chars : ℕ), 0 < max_chars → Messages text max_chars (chunk text max_chars) := by
  intro h
  have hslice : str "    " ∈ slices 4 spaced_line := (mem_slices_iff (by decide)).2 ⟨1, by decide, by decide⟩
  have hmem : str "    " ∈ chunk spaced_line 4 := by
    rw [chunk_eq_pack (by decide), mem_pack_iff fun p hp => (piece_of_mem hp).1]
    exact Or.inr (rows_of_mem_iff.2
      ⟨spaced_line, by decide, by decide, spaced_line, by decide, by decide, hslice⟩)
  have hblank := (h spaced_line 4 (by decide)).not_blank _ hmem
  exact absurd hblank (by decide)

end AgentSpace.Discord
