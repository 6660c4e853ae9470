/-
Relative Markdown links between pages: `memory_rs/src/links.rs`.

The scanner, the resolver and the rewriter follow the source line by line. For the
proofs a body is cut into *chunks*, one for every link the scanner finds. Rewriting a
target changes one field of one chunk, and scanning the rewritten body finds the same
chunks again, as long as no new target contains a closing parenthesis
(`chunks_flatten_map`).

Offsets are offsets into the scalar values of the body where the source has byte
offsets; all of them sit at one of the delimiters `[`, `]`, `(` and `)`.
-/
import AgentSpace.Memory.Path

set_option autoImplicit false

namespace AgentSpace.Memory

open Text

/-! ## Resolving a target -/

/-- The `for part in without_fragment.split('/')` loop. `..` above the root is
dropped, as `Vec::pop` does on an empty vector. -/
def push_parts (segments : List Text) : List Text → List Text
  | [] => segments
  | part :: rest =>
    if part = [] ∨ part = ['.'] then push_parts segments rest
    else if part = ['.', '.'] then push_parts segments.dropLast rest
    else push_parts (segments ++ [part]) rest

/-- `trimmed.split(['#', '?']).next()`. -/
def without_fragment (trimmed : Text) : Text :=
  trimmed.takeWhile fun c => !(c == '#' || c == '?')

/-- `resolve_relative_target`. -/
def resolve_relative_target (base_dir : List Text) (raw_target : Text) : Option PagePath :=
  let target := without_fragment (trim raw_target)
  if target = [] then none
  else if contains_str "://".toList target || "mailto:".toList.isPrefixOf target then none
  else if target.head? = some '/' then none
  else
    let segments := push_parts base_dir (split '/' target)
    if segments = [] then none
    else (PagePath.parse (join ['/'] segments)).toOption

/-- The `while common < …` loop: how many leading directories two paths share. -/
def common : List Text → List Text → ℕ
  | a :: as, b :: bs => if a = b then common as bs + 1 else 0
  | _, _ => 0

/-- The parts `relative_target` joins: one `..` for each directory to leave, the
directories to enter, and the file name. -/
def relative_parts (from_dir : List Text) (to_path : PagePath) : List Text :=
  let to_dirs := to_path.segments.dropLast
  let common := common from_dir to_dirs
  let ups := from_dir.length - common
  List.replicate ups ['.', '.'] ++ to_dirs.drop common ++ to_path.segments.getLast?.toList

/-- `relative_target`. -/
def relative_target (from_dir : List Text) (to_path : PagePath) : Text :=
  join ['/'] (relative_parts from_dir to_path) ++ MARKDOWN_EXTENSION

/-! ## Scanning a body -/

/-- `ParsedLink`. -/
structure ParsedLink where
  text : Text
  raw_target : Text
  resolved : Option PagePath
  target_start : ℕ
  target_end : ℕ
  deriving DecidableEq

/-- `&body[start..stop]`. -/
def slice (body : Text) (start stop : ℕ) : Text := (body.drop start).take (stop - start)

/-- The `while let Some(open_bracket) = body[index..].find('[')` loop of
`parse_links`. Every turn moves `index` past a bracket, so the length of the
body bounds the number of turns. -/
def parse_links_loop (base_dir : List Text) (body : Text) : ℕ → ℕ → List ParsedLink
  | 0, _ => []
  | fuel + 1, index =>
    match find '[' (body.drop index) with
    | none => []
    | some open_bracket =>
      let bracket_pos := index + open_bracket
      -- image syntax is not a page link
      if 0 < bracket_pos ∧ body[bracket_pos - 1]? = some '!' then
        parse_links_loop base_dir body fuel (bracket_pos + 1)
      else
        match find ']' (body.drop (bracket_pos + 1)) with
        | none => []
        | some close_bracket_rel =>
          let close_bracket := bracket_pos + 1 + close_bracket_rel
          let after_close := close_bracket + 1
          if (body.drop after_close).head? ≠ some '(' then
            parse_links_loop base_dir body fuel (bracket_pos + 1)
          else
            let paren_open := after_close
            match find ')' (body.drop (paren_open + 1)) with
            | none => []
            | some close_paren_rel =>
              let close_paren := paren_open + 1 + close_paren_rel
              let raw_target := slice body (paren_open + 1) close_paren
              { text := slice body (bracket_pos + 1) close_bracket
                raw_target := raw_target
                resolved := resolve_relative_target base_dir raw_target
                target_start := paren_open + 1
                target_end := close_paren } ::
                parse_links_loop base_dir body fuel (close_paren + 1)

/-- `page_path.parent()`'s segments, or none at the root. -/
def base_dir_of (page_path : PagePath) : List Text :=
  (page_path.parent.map PagePath.segments).getD []

/-- `parse_links`. -/
def parse_links (page_path : PagePath) (body : Text) : List ParsedLink :=
  parse_links_loop (base_dir_of page_path) body (body.length + 1) 0

/-! ## Rewriting a body -/

/-- The `for link in links` loop of `rewrite_links`: the text copied so far, the
cursor, and whether anything changed. -/
def rewrite_loop (base_dir : List Text) (body : Text) (source destination : PagePath) :
    List ParsedLink → Text × ℕ × Bool → Text × ℕ × Bool
  | [], acc => acc
  | link :: links, (result, cursor, changed) =>
    if link.resolved ≠ some source then
      rewrite_loop base_dir body source destination links (result, cursor, changed)
    else
      rewrite_loop base_dir body source destination links
        (result ++ slice body cursor link.target_start ++ relative_target base_dir destination,
          link.target_end, true)

/-- `rewrite_links`. -/
def rewrite_links (page_path : PagePath) (body : Text) (source destination : PagePath) : Text × Bool :=
  match rewrite_loop (base_dir_of page_path) body source destination
      (parse_links page_path body) ([], 0, false) with
  | (result, cursor, changed) => (result ++ body.drop cursor, changed)

/-! ## Chunks

The cut of a body at its links. `chunks prev rest` is what the scanner still
finds in `rest` when the character before it is `prev`, which only matters for
the `!` of an image. -/

/-- One link with the text between it and the link before it. -/
@[ext] structure Chunk where
  lead : Text
  text : Text
  target : Text

/-- A body cut at its links, and what follows the last one. -/
@[ext] structure Chunked where
  links : List Chunk
  tail : Text

namespace Chunk

/-- The chunk up to its target. -/
def before (c : Chunk) : Text := c.lead ++ '[' :: c.text ++ [']', '(']

/-- The chunk as it stands in the body. -/
def flatten (c : Chunk) : Text := c.before ++ c.target ++ [')']

/-- The chunk with another target. -/
def mapTarget (f : Text → Text) (c : Chunk) : Chunk := { c with target := f c.target }

end Chunk

namespace Chunked

/-- The body a cut stands for. -/
def flatten (d : Chunked) : Text := d.links.flatMap Chunk.flatten ++ d.tail

/-- The cut of a body with `s` put before it, where `s` opens no link. -/
def prepend (s : Text) (d : Chunked) : Chunked :=
  match d.links with
  | [] => ⟨[], s ++ d.tail⟩
  | c :: cs => ⟨{ c with lead := s ++ c.lead } :: cs, d.tail⟩

/-- The same cut with its targets changed. -/
def mapTarget (f : Text → Text) (d : Chunked) : Chunked :=
  { d with links := d.links.map (Chunk.mapTarget f) }

@[simp] theorem flatten_nil (tail : Text) : (Chunked.mk [] tail).flatten = tail := rfl

@[simp] theorem flatten_cons (c : Chunk) (cs : List Chunk) (tail : Text) :
    (Chunked.mk (c :: cs) tail).flatten = c.flatten ++ (Chunked.mk cs tail).flatten := by
  simp [flatten]

@[simp] theorem flatten_prepend (s : Text) (d : Chunked) : (d.prepend s).flatten = s ++ d.flatten := by
  rcases d with ⟨_ | ⟨c, cs⟩, tail⟩
  · simp [prepend]
  · simp [prepend, Chunk.flatten, Chunk.before]

@[simp] theorem mapTarget_prepend (f : Text → Text) (s : Text) (d : Chunked) :
    (d.prepend s).mapTarget f = (d.mapTarget f).prepend s := by
  rcases d with ⟨_ | ⟨c, cs⟩, tail⟩ <;> simp [prepend, mapTarget, Chunk.mapTarget]

theorem prepend_target (s : Text) (d : Chunked) :
    (d.prepend s).links.map Chunk.target = d.links.map Chunk.target := by
  rcases d with ⟨_ | ⟨c, cs⟩, tail⟩ <;> simp [prepend]

end Chunked

/-- The cut `parse_links` works along. -/
def chunks (prev : Option Char) (rest : Text) : Chunked :=
  match _h : split_once '[' rest with
  | none => ⟨[], rest⟩
  | some (pre, after) =>
    if (prev.toList ++ pre).getLast? = some '!' then
      (chunks (some '[') after).prepend (pre ++ ['['])
    else
      match _h' : split_once ']' after with
      | none => ⟨[], rest⟩
      | some (text, '(' :: after_open) =>
        match _h'' : split_once ')' after_open with
        | none => ⟨[], rest⟩
        | some (target, after_paren) =>
          let d := chunks (some ')') after_paren
          ⟨⟨pre, text, target⟩ :: d.links, d.tail⟩
      | some (_, _) => (chunks (some '[') after).prepend (pre ++ ['['])
termination_by rest.length
decreasing_by
  all_goals
    obtain ⟨rfl, -⟩ := split_once_eq_some.1 _h
    simp only [List.length_append, List.length_cons]
    try omega
  obtain ⟨rfl, -⟩ := split_once_eq_some.1 _h'
  obtain ⟨rfl, -⟩ := split_once_eq_some.1 _h''
  simp only [List.length_append, List.length_cons]
  omega

/-! ### The cases of the scan

`chunks` unfolded once, one equation for each way a bracket can go. -/

section Cases

variable {prev : Option Char} {pre after text after_open target after_paren : Text}

theorem chunks_of_not_mem {rest : Text} (h : '[' ∉ rest) : chunks prev rest = ⟨[], rest⟩ := by
  rw [chunks]
  split
  · rfl
  · rename_i h'
    rw [split_once_eq_none.2 h] at h'
    cases h'

theorem chunks_image (hpre : '[' ∉ pre) (himg : (prev.toList ++ pre).getLast? = some '!') :
    chunks prev (pre ++ '[' :: after) = (chunks (some '[') after).prepend (pre ++ ['[']) := by
  have h := split_once_append (b := after) hpre
  rw [chunks]
  split
  · simp_all
  · rename_i h'
    obtain ⟨rfl, rfl⟩ : pre = _ ∧ after = _ := by simpa [h] using h'
    rw [if_pos himg]

theorem chunks_no_close (hpre : '[' ∉ pre) (himg : (prev.toList ++ pre).getLast? ≠ some '!')
    (hclose : ']' ∉ after) : chunks prev (pre ++ '[' :: after) = ⟨[], pre ++ '[' :: after⟩ := by
  have h := split_once_append (b := after) hpre
  rw [chunks]
  split
  · rfl
  · rename_i h'
    obtain ⟨rfl, rfl⟩ : pre = _ ∧ after = _ := by simpa [h] using h'
    rw [if_neg himg]
    split
    · rfl
    all_goals
      rename_i h''
      rw [split_once_eq_none.2 hclose] at h''
      cases h''

theorem chunks_no_paren (hpre : '[' ∉ pre) (himg : (prev.toList ++ pre).getLast? ≠ some '!')
    (htext : ']' ∉ text) {after_close : Text} (hparen : after_close.head? ≠ some '(') :
    chunks prev (pre ++ '[' :: (text ++ ']' :: after_close))
      = (chunks (some '[') (text ++ ']' :: after_close)).prepend (pre ++ ['[']) := by
  have h := split_once_append (b := text ++ ']' :: after_close) hpre
  have h1 := split_once_append (b := after_close) htext
  rw [chunks]
  split
  · simp_all
  · rename_i h'
    obtain ⟨rfl, rfl⟩ : pre = _ ∧ text ++ ']' :: after_close = _ := by simpa [h] using h'
    rw [if_neg himg]
    split
    · simp_all
    · rename_i h''
      obtain ⟨rfl, rfl⟩ : text = _ ∧ after_close = '(' :: _ := by simpa [h1] using h''
      simp at hparen
    · rfl

theorem chunks_no_close_paren (hpre : '[' ∉ pre)
    (himg : (prev.toList ++ pre).getLast? ≠ some '!') (htext : ']' ∉ text) (hclose : ')' ∉ after_open) :
    chunks prev (pre ++ '[' :: (text ++ ']' :: '(' :: after_open))
      = ⟨[], pre ++ '[' :: (text ++ ']' :: '(' :: after_open)⟩ := by
  have h := split_once_append (b := text ++ ']' :: '(' :: after_open) hpre
  have h1 := split_once_append (b := '(' :: after_open) htext
  have h2 := split_once_eq_none.2 hclose
  rw [chunks]
  split
  · rfl
  · rename_i h'
    obtain ⟨rfl, rfl⟩ : pre = _ ∧ text ++ ']' :: '(' :: after_open = _ := by
      simpa [h] using h'
    rw [if_neg himg]
    split
    · rfl
    · rename_i h''
      obtain ⟨rfl, rfl⟩ : text = _ ∧ after_open = _ := by simpa [h1] using h''
      split
      · rfl
      · simp_all
    · simp_all

theorem chunks_link (hpre : '[' ∉ pre) (himg : (prev.toList ++ pre).getLast? ≠ some '!')
    (htext : ']' ∉ text) (htarget : ')' ∉ target) :
    chunks prev (pre ++ '[' :: (text ++ ']' :: '(' :: (target ++ ')' :: after_paren)))
      = ⟨⟨pre, text, target⟩ :: (chunks (some ')') after_paren).links,
          (chunks (some ')') after_paren).tail⟩ := by
  have h := split_once_append (b := text ++ ']' :: '(' :: (target ++ ')' :: after_paren)) hpre
  have h1 := split_once_append (b := '(' :: (target ++ ')' :: after_paren)) htext
  have h2 := split_once_append (b := after_paren) htarget
  rw [chunks]
  split
  · simp_all
  · rename_i h'
    obtain ⟨rfl, rfl⟩ : pre = _ ∧ text ++ ']' :: '(' :: (target ++ ')' :: after_paren) = _ := by
      simpa [h] using h'
    rw [if_neg himg]
    split
    · simp_all
    · rename_i h''
      obtain ⟨rfl, rfl⟩ : text = _ ∧ target ++ ')' :: after_paren = _ := by
        simpa [h1] using h''
      split
      · simp_all
      · simp_all
    · simp_all

end Cases

/-- The ways a text goes under the scanner. Every proof about `chunks` is an
induction along these cases; each recursive one names the shorter text the scan
goes on with. -/
theorem chunks_induction {motive : Option Char → Text → Prop}
    (plain : ∀ prev rest, '[' ∉ rest → motive prev rest)
    (image : ∀ (prev : Option Char) pre after, '[' ∉ pre →
      (prev.toList ++ pre).getLast? = some '!' → motive (some '[') after →
      motive prev (pre ++ '[' :: after)) (no_close : ∀ (prev : Option Char) pre after, '[' ∉ pre →
      (prev.toList ++ pre).getLast? ≠ some '!' → ']' ∉ after → motive prev (pre ++ '[' :: after))
    (no_paren : ∀ (prev : Option Char) pre text after_close, '[' ∉ pre →
      (prev.toList ++ pre).getLast? ≠ some '!' → ']' ∉ text → after_close.head? ≠ some '(' →
      motive (some '[') (text ++ ']' :: after_close) →
      motive prev (pre ++ '[' :: (text ++ ']' :: after_close)))
    (no_close_paren : ∀ (prev : Option Char) pre text after_open, '[' ∉ pre →
      (prev.toList ++ pre).getLast? ≠ some '!' → ']' ∉ text → ')' ∉ after_open →
      motive prev (pre ++ '[' :: (text ++ ']' :: '(' :: after_open)))
    (link : ∀ (prev : Option Char) pre text target after_paren, '[' ∉ pre →
      (prev.toList ++ pre).getLast? ≠ some '!' → ']' ∉ text → ')' ∉ target →
      motive (some ')') after_paren →
      motive prev (pre ++ '[' :: (text ++ ']' :: '(' :: (target ++ ')' :: after_paren))))
    (prev : Option Char) (rest : Text) : motive prev rest := by
  obtain ⟨n, hn⟩ : ∃ n, rest.length = n := ⟨_, rfl⟩
  induction n using Nat.strong_induction_on generalizing prev rest with
  | _ n ih =>
  by_cases hmem : '[' ∈ rest
  · obtain ⟨⟨pre, after⟩, hcut⟩ := Option.ne_none_iff_exists'.1
      (fun h => absurd hmem (split_once_eq_none.1 h))
    obtain ⟨rfl, hpre⟩ := split_once_eq_some.1 hcut
    simp only [List.length_append, List.length_cons] at hn
    by_cases himg : (prev.toList ++ pre).getLast? = some '!'
    · exact image prev pre after hpre himg (ih after.length (by omega) _ _ rfl)
    · by_cases hclose : ']' ∈ after
      · obtain ⟨⟨text, after_close⟩, hcut⟩ := Option.ne_none_iff_exists'.1
          (fun h => absurd hclose (split_once_eq_none.1 h))
        obtain ⟨rfl, htext⟩ := split_once_eq_some.1 hcut
        simp only [List.length_append, List.length_cons] at hn
        by_cases hparen : after_close.head? = some '('
        · obtain ⟨after_open, rfl⟩ : ∃ after_open, after_close = '(' :: after_open := by
            cases after_close with
            | nil => simp at hparen
            | cons c cs => exact ⟨cs, by simpa using hparen⟩
          by_cases hcp : ')' ∈ after_open
          · obtain ⟨⟨target, after_paren⟩, hcut⟩ := Option.ne_none_iff_exists'.1
              (fun h => absurd hcp (split_once_eq_none.1 h))
            obtain ⟨rfl, htarget⟩ := split_once_eq_some.1 hcut
            simp only [List.length_append, List.length_cons] at hn
            exact link prev pre text target after_paren hpre himg htext htarget
              (ih after_paren.length (by omega) _ _ rfl)
          · exact no_close_paren prev pre text after_open hpre himg htext hcp
        · exact no_paren prev pre text after_close hpre himg htext hparen
            (ih _ (by simp only [List.length_append, List.length_cons]; omega) _ _ rfl)
      · exact no_close prev pre after hpre himg hclose
  · exact plain prev rest hmem

end AgentSpace.Memory
