/-
Text as the services handle it: Rust's `str` methods over the list of Unicode
scalar values of a string.

The services slice strings at byte offsets, but every offset they use sits at an ASCII
delimiter. Lengths are the exception: every limit the code enforces is in UTF-8 bytes, and
`utf8_len` counts those.
-/
import Mathlib

set_option autoImplicit false

namespace AgentSpace

/-- A Rust `String` or `&str`, as its Unicode scalar values. -/
abbrev Text := List Char

instance lawfulBEq_text : LawfulBEq Text := inferInstance

namespace Text

/-! ## Characters -/

/-- `char::is_whitespace`: the Unicode `White_Space` property. -/
def is_whitespace (c : Char) : Bool :=
  (9 ≤ c.toNat && c.toNat ≤ 13) || c.toNat == 0x20 || c.toNat == 0x85 || c.toNat == 0xA0
    || c.toNat == 0x1680 || (0x2000 ≤ c.toNat && c.toNat ≤ 0x200A) || c.toNat == 0x2028
    || c.toNat == 0x2029 || c.toNat == 0x202F || c.toNat == 0x205F || c.toNat == 0x3000

/-- `char::is_control`: the general category `Cc`. -/
def is_control (c : Char) : Bool :=
  c.toNat ≤ 0x1F || (0x7F ≤ c.toNat && c.toNat ≤ 0x9F)

/-! ## Lengths -/

/-- `str::len`: the number of UTF-8 bytes. -/
def utf8_len (t : Text) : ℕ := (t.map Char.utf8Size).sum

@[simp] theorem utf8_len_nil : utf8_len [] = 0 := rfl

@[simp] theorem utf8_len_cons (c : Char) (t : Text) : utf8_len (c :: t) = c.utf8Size + utf8_len t := by
  simp [utf8_len]

@[simp] theorem utf8_len_append (s t : Text) : utf8_len (s ++ t) = utf8_len s + utf8_len t := by
  simp [utf8_len]

theorem utf8_len_replicate (n : ℕ) (c : Char) : utf8_len (List.replicate n c) = n * c.utf8Size := by
  simp [utf8_len]

/-! ## Searching -/

/-- `str::find` for a character: the offset of its first occurrence. -/
def find (c : Char) (t : Text) : Option ℕ := t.findIdx? (· == c)

/-- `str::split_once` for a character: the text before and after its first
occurrence. -/
def split_once (c : Char) : Text → Option (Text × Text)
  | [] => none
  | d :: t => if d = c then some ([], t) else (split_once c t).map fun p => (d :: p.1, p.2)

/-- `str::contains` for a string. -/
def contains_str (pat t : Text) : Bool := decide (pat <:+: t)

/-- `str::strip_suffix`. -/
def strip_suffix (suf t : Text) : Option Text :=
  if suf.isSuffixOf t then some (t.take (t.length - suf.length)) else none

/-- `str::strip_prefix`. -/
def strip_prefix (pre t : Text) : Option Text :=
  if pre.isPrefixOf t then some (t.drop pre.length) else none

variable {c : Char}

theorem split_once_eq_some {t a b : Text} : split_once c t = some (a, b) ↔ t = a ++ c :: b ∧ c ∉ a := by
  induction t generalizing a b with
  | nil => simp [split_once]
  | cons d t ih =>
    rw [split_once]
    by_cases hd : d = c
    · subst hd
      rw [if_pos rfl]
      constructor
      · intro h
        obtain ⟨rfl, rfl⟩ : [] = a ∧ t = b := by simpa using h
        simp
      · rintro ⟨h, hna⟩
        cases a with
        | nil => simpa using h
        | cons e a => simp_all
    · rw [if_neg hd]
      simp only [Option.map_eq_some_iff, Prod.mk.injEq, Prod.exists]
      constructor
      · rintro ⟨a', b', h, rfl, rfl⟩
        obtain ⟨rfl, hna⟩ := ih.1 h
        refine ⟨rfl, ?_⟩
        simpa [Ne.symm hd] using hna
      · rintro ⟨h, hna⟩
        cases a with
        | nil => simp_all
        | cons e a =>
          obtain ⟨rfl, rfl⟩ : d = e ∧ t = a ++ c :: b := by simpa using h
          exact ⟨a, b, ih.2 ⟨rfl, fun hc => hna (List.mem_cons_of_mem _ hc)⟩, rfl, rfl⟩

variable {t : Text}

theorem split_once_eq_none : split_once c t = none ↔ c ∉ t := by
  induction t with
  | nil => simp [split_once]
  | cons d t ih =>
    rw [split_once]
    by_cases hd : d = c
    · simp [hd]
    · simp [hd, ih, Ne.symm hd]

theorem split_once_append {a b : Text} (h : c ∉ a) : split_once c (a ++ c :: b) = some (a, b) :=
  split_once_eq_some.2 ⟨rfl, h⟩

theorem find_eq_split_once (c : Char) (t : Text) : find c t = (split_once c t).map fun p => p.1.length := by
  induction t with
  | nil => rfl
  | cons d t ih =>
    rw [find, List.findIdx?_cons, split_once]
    by_cases hd : d = c
    · simp [hd]
    · have hfind : t.findIdx? (· == c) = find c t := rfl
      simp [hd, hfind, ih, Option.map_map, Function.comp_def]

theorem strip_suffix_append (suf t : Text) : strip_suffix suf (t ++ suf) = some t := by
  simp [strip_suffix]

theorem strip_suffix_eq_some {suf t u : Text} (h : strip_suffix suf t = some u) : t = u ++ suf := by
  rw [strip_suffix] at h
  split at h
  · rename_i hs
    obtain ⟨v, rfl⟩ := List.isSuffixOf_iff_suffix.1 hs
    simp_all
  · cases h

theorem strip_prefix_append (pre t : Text) : strip_prefix pre (pre ++ t) = some t := by
  simp [ strip_prefix]

theorem strip_prefix_eq_some {pre t u : Text} (h : strip_prefix pre t = some u) : t = pre ++ u := by
  rw [ strip_prefix] at h
  split at h
  · rename_i hp
    obtain ⟨v, rfl⟩ := List.isPrefixOf_iff_prefix.1 hp
    simp_all
  · cases h

/-! ## Trimming -/

/-- `str::trim_start`. -/
def trim_start (t : Text) : Text := t.dropWhile is_whitespace

/-- `str::trim_end`. -/
def trim_end (t : Text) : Text := t.rdropWhile is_whitespace

/-- `str::trim`. -/
def trim (t : Text) : Text := trim_end (trim_start t)

theorem trim_eq_self (hhead : ∀ c ∈ t.head?, is_whitespace c = false)
    (hlast : ∀ c ∈ t.getLast?, is_whitespace c = false) : trim t = t := by
  have hstart : trim_start t = t := by
    cases t with
    | nil => rfl
    | cons c t =>
      have := hhead c (by simp)
      simp [trim_start, this]
  rw [trim, hstart, trim_end, List.rdropWhile_eq_self_iff]
  intro hne
  have := hlast (t.getLast hne) (by simp [List.getLast?_eq_getLast_of_ne_nil hne])
  simp [this]

theorem getLast?_trim_end (t : Text) : ∀ c ∈ (trim_end t).getLast?, is_whitespace c = false := by
  intro c hc
  have hne : trim_end t ≠ [] := by
    rintro h
    rw [h] at hc
    simp at hc
  have := List.rdropWhile_last_not is_whitespace t hne
  rw [List.getLast?_eq_getLast_of_ne_nil hne] at hc
  obtain rfl := Option.some.inj hc
  exact Bool.eq_false_of_not_eq_true this

theorem head?_trim (t : Text) : ∀ c ∈ (trim t).head?, is_whitespace c = false := by
  intro c hc
  have hpre : trim t <+: trim_start t := List.rdropWhile_prefix is_whitespace _
  obtain ⟨rest, hrest⟩ := hpre
  have hhead : c ∈ (trim_start t).head? := by
    rw [← hrest]
    cases htrim : trim t with
    | nil => simp [htrim] at hc
    | cons d s => simpa [htrim] using hc
  have := List.head?_dropWhile_not is_whitespace t
  unfold trim_start at hhead
  rw [hhead] at this
  simpa using this

theorem trim_trim (t : Text) : trim (trim t) = trim t :=
  trim_eq_self (head?_trim t) (getLast?_trim_end _)

theorem mem_of_mem_trim (h : c ∈ trim t) : c ∈ t :=
  (List.dropWhile_sublist is_whitespace).subset
    ((List.rdropWhile_prefix is_whitespace (trim_start t)).subset h)

theorem mem_trim (h : c ∈ t) (hc : is_whitespace c = false) : c ∈ trim t := by
  have hdrop : ∀ s : Text, c ∈ s → c ∈ s.dropWhile is_whitespace := by
    intro s hs
    rw [← List.takeWhile_append_dropWhile (p := is_whitespace) (l := s)] at hs
    rcases List.mem_append.1 hs with hs | hs
    · rw [List.mem_takeWhile_imp hs] at hc
      cases hc
    · exact hs
  unfold trim trim_end List.rdropWhile
  rw [List.mem_reverse]
  exact hdrop _ (List.mem_reverse.2 (hdrop t h))

/-! ## Splitting and joining -/

/-- `str::split` for a character. -/
def split (c : Char) (t : Text) : List Text := t.splitOn c

/-- `[String]::join`. -/
def join (sep : Text) (parts : List Text) : Text := sep.intercalate parts

variable {parts : List Text}

theorem split_join (hne : parts ≠ []) (h : ∀ p ∈ parts, c ∉ p) : split c (join [c] parts) = parts :=
  List.splitOn_intercalate c h hne

theorem join_split (c : Char) (t : Text) : join [c] (split c t) = t :=
  List.intercalate_splitOn c

theorem split_ne_nil (c : Char) (t : Text) : split c t ≠ [] := List.splitOn_ne_nil c t

theorem length_split (c : Char) (t : Text) : (split c t).length = t.count c + 1 := by
  induction t with
  | nil => simp [split, List.splitOn_nil]
  | cons d t ih =>
    rw [split, List.splitOn_cons_eq_if_modifyHead, List.count_cons]
    by_cases hd : d = c
    · rw [if_pos (by simpa using hd), if_pos (by simpa using hd), List.length_cons]
      rw [split] at ih
      omega
    · rw [if_neg (by simpa using hd), if_neg (by simpa using hd), List.length_modifyHead]
      exact ih

theorem not_mem_of_mem_split {t p : Text} (h : p ∈ split c t) : c ∉ p := by
  induction t generalizing p with
  | nil =>
    obtain rfl : p = [] := by simpa [split, List.splitOn_nil] using h
    simp
  | cons d t ih =>
    rw [split, List.splitOn_cons_eq_if_modifyHead] at h
    cases hs : t.splitOn c with
    | nil => exact absurd hs (split_ne_nil c t)
    | cons q qs =>
      have hq : q ∈ split c t := by rw [split, hs]; simp
      have hqs : ∀ r ∈ qs, r ∈ split c t := fun r hr => by rw [split, hs]; simp [hr]
      by_cases hd : d = c
      · rw [if_pos (by simpa using hd), hs] at h
        rcases List.mem_cons.1 h with rfl | h
        · simp
        · rcases List.mem_cons.1 h with rfl | h
          · exact ih hq
          · exact ih (hqs p h)
      · rw [if_neg (by simpa using hd), hs, List.modifyHead_cons] at h
        rcases List.mem_cons.1 h with rfl | h
        · simpa [Ne.symm hd] using ih hq
        · exact ih (hqs p h)

@[simp] theorem join_nil (sep : Text) : join sep [] = [] := rfl

@[simp] theorem join_singleton (sep p : Text) : join sep [p] = p := by
  simp [join, List.intercalate]

theorem join_cons_cons (sep p q : Text) (ps : List Text) :
    join sep (p :: q :: ps) = p ++ sep ++ join sep (q :: ps) := by
  simp [join, List.intercalate]

theorem mem_join_of_mem {d : Char} {sep p : Text} (hp : p ∈ parts) (hd : d ∈ p) : d ∈ join sep parts := by
  induction parts with
  | nil => simp at hp
  | cons q qs ih =>
    cases qs with
    | nil => simp_all
    | cons r rs =>
      rw [join_cons_cons]
      rcases List.mem_cons.1 hp with rfl | hp
      · simp [hd]
      · simp [ih hp]

theorem join_append_singleton (sep : Text) (ps : List Text) (p : Text) :
    ∃ pre, join sep (ps ++ [p]) = pre ++ p ∧ ∀ q, join sep (ps ++ [q]) = pre ++ q := by
  induction ps with
  | nil => exact ⟨[], by simp, by simp⟩
  | cons r ps ih =>
    obtain ⟨pre, hp, hq⟩ := ih
    refine ⟨r ++ sep ++ pre, ?_, ?_⟩
    · cases ps with
      | nil | cons s ps => simp_all [join_cons_cons]
    · intro q
      cases ps with
      | nil | cons s ps => simp_all [join_cons_cons]

theorem mem_join {sep : Text} (h : c ∈ join sep parts) : c ∈ sep ∨ ∃ p ∈ parts, c ∈ p := by
  induction parts with
  | nil => simp at h
  | cons p ps ih =>
    cases ps with
    | nil => right; simpa using h
    | cons q ps =>
      rw [join_cons_cons] at h
      rcases List.mem_append.1 h with h | h
      · rcases List.mem_append.1 h with h | h
        · exact Or.inr ⟨p, by simp, h⟩
        · exact Or.inl h
      · rcases ih h with h | ⟨r, hr, hc⟩
        · exact Or.inl h
        · exact Or.inr ⟨r, List.mem_cons_of_mem _ hr, hc⟩

/-! ## Numbers -/

/-- The decimal digits of a number. -/
def decimal (n : ℕ) : Text := Nat.toDigits 10 n

/-- The decimal digits, with zeros before them up to a width. -/
def decimal_padded (width n : ℕ) : Text :=
  List.replicate (width - (decimal n).length) '0' ++ decimal n

/-- `str::parse::<usize>`, and `str::parse::<u64>`. -/
def parse_usize (t : Text) : Option UInt64 :=
  let digits := if t.head? = some '+' then t.tail else t
  if digits = [] ∨ ¬digits.all Char.isDigit then none
  else
    let n := Nat.ofDigitChars 10 digits 0
    if n < 2 ^ 64 then some (UInt64.ofNat n) else none

theorem decimal_digits {n : ℕ} (h : c ∈ decimal n) : c.isDigit = true :=
  Nat.isDigit_of_mem_toDigits (by decide) (by decide) h

theorem decimal_ne_nil (n : ℕ) : decimal n ≠ [] := by
  unfold decimal
  exact List.ne_nil_of_length_pos Nat.length_toDigits_pos

theorem decimal_padded_digits {width n : ℕ} (h : c ∈ decimal_padded width n) : c.isDigit = true := by
  rcases List.mem_append.1 h with h | h
  · rw [List.eq_of_mem_replicate h]
    decide
  · exact decimal_digits h

theorem ofDigitChars_zeros (k : ℕ) (t : Text) :
    Nat.ofDigitChars 10 (List.replicate k '0' ++ t) 0 = Nat.ofDigitChars 10 t 0 := by
  induction k with
  | zero => rfl
  | succ k ih =>
    rw [List.replicate_succ, List.cons_append, Nat.ofDigitChars_cons]
    exact ih

/-- What is written as a number, with zeros before it or not, is read as that
number. -/
theorem parse_usize_decimal_padded (width : ℕ) (n : UInt64) :
    parse_usize (decimal_padded width n.toNat) = some n := by
  have hne : decimal_padded width n.toNat ≠ [] := by
    unfold decimal_padded
    exact List.append_ne_nil_of_right_ne_nil _ (decimal_ne_nil _)
  have hsign : (decimal_padded width n.toNat).head? ≠ some '+' := by
    intro h
    have := decimal_padded_digits (List.mem_of_head? h)
    cases this
  have hall : (decimal_padded width n.toNat).all Char.isDigit = true :=
    List.all_eq_true.2 fun c hc => decimal_padded_digits hc
  have hvalue : Nat.ofDigitChars 10 (decimal_padded width n.toNat) 0 = n.toNat := by
    unfold decimal_padded decimal
    rw [ofDigitChars_zeros]
    exact Nat.ofDigitChars_ten_toDigits
  unfold parse_usize
  rw [if_neg hsign]
  dsimp only
  rw [if_neg (by simp [hne, hall]), hvalue, if_pos n.toNat_lt]
  simp

theorem parse_usize_decimal (n : UInt64) : parse_usize (decimal n.toNat) = some n := by
  have h := parse_usize_decimal_padded 0 n
  rwa [decimal_padded, Nat.zero_sub, List.replicate_zero, List.nil_append] at h

end Text

end AgentSpace
