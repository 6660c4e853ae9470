/-
Bytes read as UTF-8, with replacement characters where they are not.

What is read differs from the bytes only in stretches of non-ASCII bytes. The outline of some
bytes keeps their ASCII bytes and one mark for each stretch of others, so reading bytes and
writing them again keeps their outline (`outline_from_utf8_lossy`); text is read as it was
written (`from_utf8_lossy_utf8`), and line by line (`from_utf8_lossy_append_ascii`). The last
bytes of a text are read as its last characters (`from_utf8_ignore_drop`).
-/
import Mathlib.Data.List.Basic

set_option autoImplicit false

namespace AgentSpace.Lib

/-! ## Writing and reading -/

/-- The bytes of a text. -/
def utf8 (t : List Char) : List UInt8 := t.flatMap String.utf8EncodeChar

/-- The character at the start of some bytes. -/
def utf8_char (bytes : List UInt8) : Option Char := bytes.toByteArray.utf8DecodeChar? 0

/-- A byte that continues a character. -/
def is_continuation (b : UInt8) : Bool := 0x80 ≤ b && b ≤ 0xBF

/-- The second byte may follow the first in a character of three bytes. -/
def starts_three (b₀ b₁ : UInt8) : Bool :=
  b₀ = 0xE0 && 0xA0 ≤ b₁ && b₁ ≤ 0xBF
    || 0xE1 ≤ b₀ && b₀ ≤ 0xEC && is_continuation b₁
    || b₀ = 0xED && 0x80 ≤ b₁ && b₁ ≤ 0x9F
    || 0xEE ≤ b₀ && b₀ ≤ 0xEF && is_continuation b₁

/-- The second byte may follow the first in a character of four bytes. -/
def starts_four (b₀ b₁ : UInt8) : Bool :=
  b₀ = 0xF0 && 0x90 ≤ b₁ && b₁ ≤ 0xBF
    || 0xF1 ≤ b₀ && b₀ ≤ 0xF3 && is_continuation b₁
    || b₀ = 0xF4 && 0x80 ≤ b₁ && b₁ ≤ 0x8F

/-- How many bytes of some that start with no character one replacement character stands for:
the longest part of them with which a character could start, or one byte. -/
def invalid_length : List UInt8 → ℕ
  | b₀ :: b₁ :: b₂ :: _ =>
    if starts_three b₀ b₁ then 2
    else if starts_four b₀ b₁ then if is_continuation b₂ then 3 else 2
    else 1
  | [b₀, b₁] => if starts_three b₀ b₁ || starts_four b₀ b₁ then 2 else 1
  | _ => 1

/-- Reading at most so many characters. -/
def read_chars : ℕ → List UInt8 → List Char
  | 0, _ => []
  | _ + 1, [] => []
  | fuel + 1, bytes =>
    match utf8_char bytes with
    | some c => c :: read_chars fuel (bytes.drop c.utf8Size)
    | none => '\uFFFD' :: read_chars fuel (bytes.drop (invalid_length bytes))

/-- `String::from_utf8_lossy`. -/
def from_utf8_lossy (bytes : List UInt8) : List Char := read_chars bytes.length bytes

theorem utf8_cons (c : Char) (t : List Char) : utf8 (c :: t) = String.utf8EncodeChar c ++ utf8 t := rfl

theorem utf8_append (t u : List Char) : utf8 (t ++ u) = utf8 t ++ utf8 u := List.flatMap_append

/-- The character at the start of written text. -/
theorem utf8_char_encode (c : Char) (rest : List UInt8) :
    utf8_char (String.utf8EncodeChar c ++ rest) = some c := by
  unfold utf8_char
  rw [List.toByteArray_append]
  exact ByteArray.utf8DecodeChar?_utf8EncodeChar_append

variable {bytes : List UInt8} {c : Char}

/-- A character that is read was written there. -/
theorem eq_of_utf8_char (h : utf8_char bytes = some c) :
    bytes = String.utf8EncodeChar c ++ bytes.drop c.utf8Size := by
  obtain ⟨rest, hrest⟩ := ByteArray.exists_of_utf8DecodeChar?_eq_some h
  have hbytes : bytes = String.utf8EncodeChar c ++ rest.data.toList := by
    have hdata := congrArg (fun b : ByteArray => b.data.toList) hrest
    simpa using hdata
  rw [hbytes, List.drop_left' (String.length_utf8EncodeChar c)]

/-- **Text is read as it was written.** -/
theorem from_utf8_lossy_utf8 (t : List Char) : from_utf8_lossy (utf8 t) = t := by
  have hread : ∀ fuel, (utf8 t).length ≤ fuel → read_chars fuel (utf8 t) = t := by
    induction t with
    | nil =>
      intro fuel _
      cases fuel <;> rfl
    | cons c t ih =>
      intro fuel hfuel
      have hne := String.utf8EncodeChar_ne_nil (c := c)
      obtain ⟨b, rest, hb⟩ := List.exists_cons_of_ne_nil hne
      rw [utf8_cons] at hfuel ⊢
      rw [List.length_append, hb, List.length_cons] at hfuel
      obtain ⟨fuel, rfl⟩ : ∃ n, fuel = n + 1 := ⟨fuel - 1, by omega⟩
      have hchar := utf8_char_encode c (utf8 t)
      have hdrop : (String.utf8EncodeChar c ++ utf8 t).drop c.utf8Size = utf8 t :=
        List.drop_left' (String.length_utf8EncodeChar c)
      rw [hb, List.cons_append] at hchar hdrop ⊢
      rw [read_chars, hchar]
      dsimp only
      rw [hdrop, ih fuel (by omega)]
      exact nofun
  exact hread _ (Nat.le_refl _)

/-! ## Outlines -/

/-- An ASCII byte. -/
def is_ascii (b : UInt8) : Bool := b < 0x80

/-- A mark for a stretch of other bytes, which is one with the stretch behind it. -/
def mark : List (Option UInt8) → List (Option UInt8)
  | none :: o => none :: o
  | o => none :: o

/-- The ASCII bytes of some bytes, and a mark for each stretch of others. -/
def outline : List UInt8 → List (Option UInt8)
  | [] => []
  | b :: rest => if is_ascii b then some b :: outline rest else mark (outline rest)

@[simp] theorem mark_mark (o : List (Option UInt8)) : mark (mark o) = mark o := by
  rcases o with _ | ⟨_ | b, o⟩ <;> rfl

variable {b : UInt8}

theorem outline_cons_of_ascii (h : is_ascii b = true) (rest : List UInt8) :
    outline (b :: rest) = some b :: outline rest := by
  rw [outline, if_pos h]

theorem outline_cons_of_not_ascii (h : is_ascii b = false) (rest : List UInt8) :
    outline (b :: rest) = mark (outline rest) := by
  rw [outline, h, if_neg Bool.false_ne_true]

/-- A stretch of bytes that are no ASCII has one mark. -/
theorem outline_append_of_not_ascii (hne : bytes ≠ [])
    (h : ∀ b ∈ bytes, is_ascii b = false) (rest : List UInt8) :
    outline (bytes ++ rest) = mark (outline rest) := by
  induction bytes with
  | nil => exact absurd rfl hne
  | cons b bytes ih =>
    rw [List.cons_append, outline_cons_of_not_ascii (h b List.mem_cons_self)]
    cases bytes with
    | nil => rfl
    | cons b' bytes =>
      rw [ih (List.cons_ne_nil _ _) fun b hb => h b (List.mem_cons_of_mem _ hb), mark_mark]

theorem outline_append_congr (bytes : List UInt8) {rest rest' : List UInt8}
    (h : outline rest = outline rest') : outline (bytes ++ rest) = outline (bytes ++ rest') := by
  induction bytes with
  | nil => exact h
  | cons b bytes ih =>
    rw [List.cons_append, List.cons_append, outline, outline, ih]

/-! ## What reading keeps -/

theorem is_ascii_iff : is_ascii b = true ↔ b.toNat < 128 := by
  unfold is_ascii
  rw [decide_eq_true_eq, UInt8.lt_iff_toNat_lt]
  rfl

theorem is_ascii_eq_false_iff : is_ascii b = false ↔ 128 ≤ b.toNat := by
  rw [← Bool.not_eq_true, is_ascii_iff, Nat.not_lt]

/-- A character is one ASCII byte, or bytes that are none. -/
theorem utf8EncodeChar_cases (c : Char) :
    (∃ b, String.utf8EncodeChar c = [b] ∧ is_ascii b = true ∧ c.toNat = b.toNat)
      ∨ 128 ≤ c.toNat ∧ ∀ b ∈ String.utf8EncodeChar c, is_ascii b = false := by
  have hval : c.toNat = c.val.toNat := rfl
  rw [hval]
  unfold String.utf8EncodeChar
  dsimp only
  split_ifs with h₁ h₂ h₃
  · refine Or.inl ⟨_, rfl, ?_, ?_⟩
    · rw [is_ascii_iff, UInt8.toNat_ofNat']
      omega
    · rw [UInt8.toNat_ofNat']
      omega
  all_goals
    refine Or.inr ⟨by omega, fun b hb => ?_⟩
    simp only [List.mem_cons, List.not_mem_nil, or_false] at hb
    rw [is_ascii_eq_false_iff]
    rcases hb with rfl | rfl | rfl | rfl <;> rw [UInt8.toNat_ofNat'] <;> omega

/-- The bytes of the replacement character. -/
theorem not_ascii_replacement : ∀ b ∈ String.utf8EncodeChar '\uFFFD', is_ascii b = false := by
  rcases utf8EncodeChar_cases '\uFFFD' with ⟨b, -, hascii, hnat⟩ | ⟨-, hbytes⟩
  · have hlarge : '\uFFFD'.toNat = 65533 := rfl
    have hsmall := is_ascii_iff.1 hascii
    omega
  · exact hbytes

/-- An ASCII byte is read. -/
theorem utf8_char_of_ascii (h : is_ascii b = true) (rest : List UInt8) : utf8_char (b :: rest) ≠ none := by
  have hb := is_ascii_iff.1 h
  have hvalid : b.toNat.isValidChar := Or.inl (by omega)
  have hnat : (Char.ofNatAux b.toNat hvalid).toNat = b.toNat := rfl
  have hencode : String.utf8EncodeChar (Char.ofNatAux b.toNat hvalid) = [b] := by
    rcases utf8EncodeChar_cases (Char.ofNatAux b.toNat hvalid) with ⟨b', hencode, -, hb'⟩ | ⟨hlarge, -⟩
    · rw [hencode, UInt8.toNat_inj.1 (hb'.symm.trans hnat)]
    · omega
  have hchar := utf8_char_encode (Char.ofNatAux b.toNat hvalid) rest
  rw [hencode] at hchar
  exact ne_of_eq_of_ne hchar (Option.some_ne_none _)

theorem is_ascii_of_continuation (h : is_continuation b = true) : is_ascii b = false := by
  unfold is_continuation at h
  rw [Bool.and_eq_true, decide_eq_true_eq, UInt8.le_iff_toNat_le] at h
  exact is_ascii_eq_false_iff.2 h.1

theorem is_ascii_of_starts_three {b₀ b₁ : UInt8} (h : starts_three b₀ b₁ = true) : is_ascii b₁ = false := by
  rw [is_ascii_eq_false_iff]
  unfold starts_three is_continuation at h
  simp only [Bool.or_eq_true, Bool.and_eq_true, decide_eq_true_eq, UInt8.le_iff_toNat_le] at h
  have h80 : (0x80 : UInt8).toNat = 128 := rfl
  have hA0 : (0xA0 : UInt8).toNat = 160 := rfl
  omega

theorem is_ascii_of_starts_four {b₀ b₁ : UInt8} (h : starts_four b₀ b₁ = true) : is_ascii b₁ = false := by
  rw [is_ascii_eq_false_iff]
  unfold starts_four is_continuation at h
  simp only [Bool.or_eq_true, Bool.and_eq_true, decide_eq_true_eq, UInt8.le_iff_toNat_le] at h
  have h80 : (0x80 : UInt8).toNat = 128 := rfl
  have h90 : (0x90 : UInt8).toNat = 144 := rfl
  omega

/-- **One replacement character** stands for some bytes, and none of them is ASCII. -/
theorem invalid_bytes (hne : bytes ≠ []) (h : utf8_char bytes = none) :
    0 < invalid_length bytes ∧ invalid_length bytes ≤ bytes.length
      ∧ ∀ b ∈ bytes.take (invalid_length bytes), is_ascii b = false := by
  have hfirst : ∀ b rest, bytes = b :: rest → is_ascii b = false := by
    rintro b rest rfl
    by_contra hascii
    exact utf8_char_of_ascii (eq_true_of_ne_false hascii) rest h
  rcases bytes with _ | ⟨b₀, _ | ⟨b₁, _ | ⟨b₂, rest⟩⟩⟩
  · exact absurd rfl hne
  · have h₀ := hfirst b₀ [] rfl
    simp [invalid_length, h₀]
  · have h₀ := hfirst b₀ [b₁] rfl
    rw [invalid_length]
    split_ifs with hstarts
    · rw [Bool.or_eq_true] at hstarts
      have h₁ : is_ascii b₁ = false := hstarts.elim is_ascii_of_starts_three is_ascii_of_starts_four
      simp [h₀, h₁]
    · simp [h₀]
  · have h₀ := hfirst b₀ (b₁ :: b₂ :: rest) rfl
    rw [invalid_length]
    split_ifs with hthree hfour hcontinuation
    · simp [h₀, is_ascii_of_starts_three hthree]
    · simp [h₀, is_ascii_of_starts_four hfour, is_ascii_of_continuation hcontinuation]
    · simp [h₀, is_ascii_of_starts_four hfour]
    · simp [h₀]

/-- **Reading bytes keeps their outline.** -/
theorem outline_from_utf8_lossy (bytes : List UInt8) :
    outline (utf8 (from_utf8_lossy bytes)) = outline bytes := by
  have hread : ∀ fuel (bytes : List UInt8), bytes.length ≤ fuel →
      outline (utf8 (read_chars fuel bytes)) = outline bytes := by
    intro fuel
    induction fuel with
    | zero =>
      intro bytes hfuel
      rw [List.length_eq_zero_iff.1 (Nat.le_zero.1 hfuel)]
      rfl
    | succ fuel ih =>
      intro bytes hfuel
      by_cases hne : bytes = []
      · rw [hne]
        rfl
      have hstep : read_chars (fuel + 1) bytes = match utf8_char bytes with
          | some c => c :: read_chars fuel (bytes.drop c.utf8Size)
          | none => '\uFFFD' :: read_chars fuel (bytes.drop (invalid_length bytes)) := by
        rw [read_chars]
        exact hne
      rw [hstep]
      cases hchar : utf8_char bytes with
      | some c =>
        have hbytes := eq_of_utf8_char hchar
        dsimp only
        have hrest := ih (bytes.drop c.utf8Size) (by
          have := c.utf8Size_pos
          rw [List.length_drop]
          omega)
        rw [utf8_cons, outline_append_congr _ hrest, ← hbytes]
      | none =>
        obtain ⟨hpos, -, hascii⟩ := invalid_bytes hne hchar
        dsimp only
        have hrest := ih (bytes.drop (invalid_length bytes)) (by
          rw [List.length_drop]
          omega)
        have htake : bytes.take (invalid_length bytes) ≠ [] := by
          rw [Ne, List.take_eq_nil_iff]
          exact not_or.2 ⟨Nat.ne_of_gt hpos, hne⟩
        rw [utf8_cons, outline_append_of_not_ascii String.utf8EncodeChar_ne_nil not_ascii_replacement, hrest,
          ← outline_append_of_not_ascii htake hascii, List.take_append_drop]
  exact hread _ _ (Nat.le_refl _)

/-! ## Reading line by line -/

/-- More reads than bytes give nothing more. -/
theorem read_chars_of_le {fuel : ℕ} (h : bytes.length ≤ fuel) :
    read_chars fuel bytes = from_utf8_lossy bytes := by
  have hmore : ∀ (n extra : ℕ) (bytes : List UInt8), bytes.length ≤ n →
      read_chars (n + extra) bytes = read_chars n bytes := by
    intro n
    induction n with
    | zero =>
      intro extra bytes hn
      rw [List.length_eq_zero_iff.1 (Nat.le_zero.1 hn)]
      cases extra <;> simp [read_chars]
    | succ n ih =>
      intro extra bytes hn
      rw [Nat.add_right_comm]
      cases bytes with
      | nil => rfl
      | cons b bytes =>
        rw [read_chars, read_chars]
        cases hchar : utf8_char (b :: bytes) with
        | some c =>
          dsimp only
          rw [ih]
          have hpos := c.utf8Size_pos
          rw [List.length_drop]
          omega
        | none =>
          dsimp only
          rw [ih]
          have hpos := (invalid_bytes (List.cons_ne_nil b bytes) hchar).1
          rw [List.length_drop]
          omega
        all_goals exact nofun
  obtain ⟨extra, rfl⟩ := Nat.exists_eq_add_of_le h
  exact hmore bytes.length extra bytes (Nat.le_refl _)

@[simp] theorem from_utf8_lossy_nil : from_utf8_lossy [] = [] := rfl

/-- A character that is there is read. -/
theorem from_utf8_lossy_char (h : utf8_char bytes = some c) :
    from_utf8_lossy bytes = c :: from_utf8_lossy (bytes.drop c.utf8Size) := by
  cases bytes with
  | nil => exact absurd (eq_of_utf8_char h).symm (by simp [String.utf8EncodeChar_ne_nil])
  | cons b bytes =>
    rw [from_utf8_lossy, List.length_cons, read_chars, h]
    · dsimp only
      rw [read_chars_of_le]
      have hpos := c.utf8Size_pos
      rw [List.length_drop, List.length_cons]
      omega
    · exact nofun

/-- Where no character is, a replacement character is read. -/
theorem from_utf8_lossy_invalid (hne : bytes ≠ []) (h : utf8_char bytes = none) :
    from_utf8_lossy bytes = '\uFFFD' :: from_utf8_lossy (bytes.drop (invalid_length bytes)) := by
  have hpos := (invalid_bytes hne h).1
  obtain ⟨b, bytes, rfl⟩ := List.exists_cons_of_ne_nil hne
  rw [from_utf8_lossy, List.length_cons, read_chars, h]
  · dsimp only
    rw [read_chars_of_le]
    rw [List.length_drop, List.length_cons]
    omega
  · exact nofun

/-- Which character comes first is decided by the bytes up to an ASCII byte. -/
theorem utf8_char_append_ascii (h : is_ascii b = true) (l rest : List UInt8) :
    utf8_char (l ++ b :: rest) = utf8_char (l ++ [b]) := by
  have hwhole : l ++ b :: rest = (l ++ [b]) ++ rest := by simp
  ext c
  constructor
  · intro hchar
    have hbytes := eq_of_utf8_char hchar
    have hpart : String.utf8EncodeChar c <+: l ++ [b] := by
      have hwritten : String.utf8EncodeChar c <+: (l ++ [b]) ++ rest := by
        rw [← hwhole, hbytes]
        exact List.prefix_append _ _
      rcases List.prefix_or_prefix_of_prefix hwritten (List.prefix_append (l ++ [b]) rest) with hpart | hpart
      · exact hpart
      · -- then the ASCII byte is one of the bytes of the character, and so its only one
        have hmem : b ∈ String.utf8EncodeChar c := hpart.subset (by simp)
        rcases utf8EncodeChar_cases c with ⟨b', hone, -, -⟩ | ⟨-, hbytes⟩
        · rw [hone] at hpart ⊢
          have hlength := hpart.length_le
          have heq := hpart.eq_of_length (by simp at hlength ⊢; omega)
          exact ⟨[], by rw [List.append_nil, heq]⟩
        · rw [hbytes b hmem] at h
          cases h
    obtain ⟨more, hmore⟩ := hpart
    rw [← hmore]
    exact utf8_char_encode c more
  · intro hchar
    have hbytes := eq_of_utf8_char hchar
    rw [hwhole, hbytes, List.append_assoc]
    exact utf8_char_encode c _

theorem invalid_length_append_ascii (h : is_ascii b = true) {l : List UInt8} (hne : l ≠ [])
    (rest : List UInt8) : invalid_length (l ++ b :: rest) = invalid_length (l ++ [b]) := by
  have hthree : ∀ b₀, starts_three b₀ b = false := fun b₀ => by
    by_contra hstarts
    rw [is_ascii_of_starts_three (eq_true_of_ne_false hstarts)] at h
    cases h
  have hfour : ∀ b₀, starts_four b₀ b = false := fun b₀ => by
    by_contra hstarts
    rw [is_ascii_of_starts_four (eq_true_of_ne_false hstarts)] at h
    cases h
  rcases l with _ | ⟨b₀, _ | ⟨b₁, _ | ⟨b₂, l⟩⟩⟩
  · exact absurd rfl hne
  · cases rest with
    | nil => rfl
    | cons b₂ rest => simp [invalid_length, hthree, hfour]
  · rfl
  · rfl

/-- **Lines are read one by one.** What is read up to an ASCII byte does not depend on what follows. -/
theorem from_utf8_lossy_append_ascii (h : is_ascii b = true) (l rest : List UInt8) :
    from_utf8_lossy (l ++ b :: rest) = from_utf8_lossy (l ++ [b]) ++ from_utf8_lossy rest := by
  induction hn : l.length using Nat.strongRecOn generalizing l with
  | ind n ih =>
    have hwhole := utf8_char_append_ascii h l rest
    have hdrop : ∀ k, k ≤ l.length + 1 → 0 < k →
        from_utf8_lossy ((l ++ b :: rest).drop k)
          = from_utf8_lossy ((l ++ [b]).drop k) ++ from_utf8_lossy rest := by
      intro k hk hpos
      by_cases hend : k = l.length + 1
      · have hrest : (l ++ b :: rest).drop k = rest := by
          rw [hend, ← List.drop_drop, List.drop_left, List.drop_one, List.tail_cons]
        have hnone : (l ++ [b]).drop k = [] := List.drop_eq_nil_of_le (by simp [hend])
        rw [hrest, hnone, from_utf8_lossy_nil, List.nil_append]
      · rw [List.drop_append_of_le_length (by omega), List.drop_append_of_le_length (by omega)]
        refine ih _ ?_ (l.drop k) rfl
        rw [List.length_drop]
        omega
    have hne : l ++ [b] ≠ [] := by simp
    cases hchar : utf8_char (l ++ [b]) with
    | some c =>
      have hsize : c.utf8Size ≤ l.length + 1 := by
        have hlength := congrArg List.length (eq_of_utf8_char hchar)
        simp only [List.length_append, List.length_cons, List.length_nil, List.length_drop,
          String.length_utf8EncodeChar] at hlength
        omega
      rw [from_utf8_lossy_char (hwhole.trans hchar), from_utf8_lossy_char hchar, List.cons_append,
        hdrop _ hsize c.utf8Size_pos]
    | none =>
      have hl : l ≠ [] := by
        rintro rfl
        exact utf8_char_of_ascii h [] hchar
      obtain ⟨hpos, hle, -⟩ := invalid_bytes hne hchar
      rw [List.length_append, List.length_singleton] at hle
      rw [from_utf8_lossy_invalid (by simp) (hwhole.trans hchar), from_utf8_lossy_invalid hne hchar,
        invalid_length_append_ascii h hl, List.cons_append, hdrop _ hle hpos]

/-! ## Text that begins in a character -/

/-- Reading at most so many characters, without what is none. -/
def read_valid : ℕ → List UInt8 → List Char
  | 0, _ => []
  | _ + 1, [] => []
  | fuel + 1, bytes =>
    match utf8_char bytes with
    | some c => c :: read_valid fuel (bytes.drop c.utf8Size)
    | none => read_valid fuel (bytes.drop (invalid_length bytes))

/-- `decode("utf-8", errors="ignore")`. -/
def from_utf8_ignore (bytes : List UInt8) : List Char := read_valid bytes.length bytes

/-- A character is written as a byte that continues none, and bytes that continue it. -/
theorem utf8EncodeChar_eq (c : Char) : ∃ first more, String.utf8EncodeChar c = first :: more
    ∧ is_continuation first = false ∧ ∀ b ∈ more, is_continuation b = true := by
  have h80 : (0x80 : UInt8).toNat = 128 := rfl
  have hBF : (0xBF : UInt8).toNat = 191 := rfl
  have hval : c.val.toNat < 0x110000 := by
    rcases c.valid with h | h <;> omega
  unfold String.utf8EncodeChar is_continuation
  dsimp only
  simp only [UInt8.le_iff_toNat_le, h80, hBF, Bool.and_eq_true, Bool.and_eq_false_iff, decide_eq_true_eq,
    decide_eq_false_iff_not]
  split_ifs with h₁ h₂ h₃
  · refine ⟨_, [], rfl, ?_, nofun⟩
    rw [UInt8.toNat_ofNat']
    omega
  all_goals
    refine ⟨_, _, rfl, ?_, ?_⟩
    · rw [UInt8.toNat_ofNat']
      omega
    · intro b hb
      simp only [List.mem_cons, List.not_mem_nil, or_false] at hb
      rcases hb with rfl | rfl | rfl <;> rw [UInt8.toNat_ofNat'] <;> omega

/-- No character begins with a byte that continues one. -/
theorem utf8_char_of_continuation (h : is_continuation b = true) (rest : List UInt8) :
    utf8_char (b :: rest) = none := by
  cases hchar : utf8_char (b :: rest) with
  | none => rfl
  | some c =>
    obtain ⟨first, more, hwritten, hfirst, -⟩ := utf8EncodeChar_eq c
    have hbytes := eq_of_utf8_char hchar
    rw [hwritten, List.cons_append, List.cons.injEq] at hbytes
    rw [hbytes.1, hfirst] at h
    cases h

theorem invalid_length_of_continuation (h : is_continuation b = true) (rest : List UInt8) :
    invalid_length (b :: rest) = 1 := by
  have hb : 0x80 ≤ b.toNat ∧ b.toNat ≤ 0xBF := by
    unfold is_continuation at h
    rw [Bool.and_eq_true, decide_eq_true_eq, decide_eq_true_eq, UInt8.le_iff_toNat_le,
      UInt8.le_iff_toNat_le] at h
    exact h
  have hne : ∀ limit : UInt8, 0xC0 ≤ limit.toNat → b ≠ limit ∧ ¬limit ≤ b := by
    intro limit hlimit
    rw [UInt8.le_iff_toNat_le]
    refine ⟨?_, by omega⟩
    rintro rfl
    omega
  have hthree : ∀ b₁, starts_three b b₁ = false := fun b₁ => by
    simp [starts_three, hne 0xE0 (by decide), hne 0xE1 (by decide), hne 0xED (by decide), hne 0xEE (by decide)]
  have hfour : ∀ b₁, starts_four b b₁ = false := fun b₁ => by
    simp [starts_four, hne 0xF0 (by decide), hne 0xF1 (by decide), hne 0xF4 (by decide)]
  rcases rest with _ | ⟨b₁, _ | ⟨b₂, rest⟩⟩
  · rfl
  · simp [invalid_length, hthree, hfour]
  · simp [invalid_length, hthree, hfour]

/-- **The end of a text.** The bytes that continue a character from before are left out. -/
theorem from_utf8_ignore_tail {more : List UInt8} (hmore : ∀ b ∈ more, is_continuation b = true)
    (t : List Char) : from_utf8_ignore (more ++ utf8 t) = t := by
  have hread : ∀ fuel, (more ++ utf8 t).length ≤ fuel → read_valid fuel (more ++ utf8 t) = t := by
    intro fuel hfuel
    induction more generalizing fuel with
    | nil =>
      rw [List.nil_append] at hfuel ⊢
      induction t generalizing fuel with
      | nil => cases fuel <;> rfl
      | cons c t ih =>
        obtain ⟨first, rest, hwritten, -, -⟩ := utf8EncodeChar_eq c
        have hchar := utf8_char_encode c (utf8 t)
        have hdrop : (String.utf8EncodeChar c ++ utf8 t).drop c.utf8Size = utf8 t :=
          List.drop_left' (String.length_utf8EncodeChar c)
        rw [utf8_cons, hwritten, List.cons_append, List.length_cons, List.length_append] at hfuel
        rw [utf8_cons]
        rw [hwritten, List.cons_append] at hchar hdrop ⊢
        obtain ⟨fuel, rfl⟩ : ∃ n, fuel = n + 1 := ⟨fuel - 1, by omega⟩
        rw [read_valid, hchar]
        · dsimp only
          rw [hdrop, ih fuel (by omega)]
        · exact nofun
    | cons b more ih =>
      have hb := hmore b List.mem_cons_self
      rw [List.cons_append, List.length_cons] at hfuel
      obtain ⟨fuel, rfl⟩ : ∃ n, fuel = n + 1 := ⟨fuel - 1, by omega⟩
      rw [List.cons_append, read_valid, utf8_char_of_continuation hb]
      · dsimp only
        rw [invalid_length_of_continuation hb, List.drop_one, List.tail_cons]
        exact ih (fun b' hb' => hmore b' (List.mem_cons_of_mem _ hb')) fuel (by omega)
      · exact nofun
  exact hread _ (Nat.le_refl _)

/-! ## The last characters of a text -/

/-- The last characters of a text, as many as have at most so many bytes. -/
def last_bytes (limit : ℕ) : List Char → List Char
  | [] => []
  | c :: t => if (utf8 (c :: t)).length ≤ limit then c :: t else last_bytes limit t

variable {limit : ℕ} {t : List Char}

theorem last_bytes_of_le (h : (utf8 t).length ≤ limit) : last_bytes limit t = t := by
  cases t with
  | nil => rfl
  | cons c t => exact if_pos h

theorem last_bytes_cons (h : limit < (utf8 (c :: t)).length) :
    last_bytes limit (c :: t) = last_bytes limit t :=
  if_neg (Nat.not_le_of_lt h)

theorem last_bytes_suffix (limit : ℕ) (t : List Char) : last_bytes limit t <:+ t := by
  induction t with
  | nil => exact List.suffix_refl _
  | cons c t ih =>
    rw [last_bytes]
    split_ifs with h
    · exact List.suffix_refl _
    · exact ih.trans (List.suffix_cons c t)

theorem length_utf8_last_bytes (limit : ℕ) (t : List Char) : (utf8 (last_bytes limit t)).length ≤ limit := by
  induction t with
  | nil => exact Nat.zero_le _
  | cons c t ih =>
    rw [last_bytes]
    split_ifs with h
    · exact h
    · exact ih

/-- No longer end of a text has at most so many bytes. -/
theorem suffix_last_bytes {t u : List Char} (hsuffix : u <:+ t) (h : (utf8 u).length ≤ limit) :
    u <:+ last_bytes limit t := by
  induction t with
  | nil => exact hsuffix
  | cons c t ih =>
    rcases List.suffix_cons_iff.1 hsuffix with rfl | hrest
    · exact ⟨[], (last_bytes_of_le h).symm⟩
    · rw [last_bytes]
      split_ifs with hwhole
      · exact hsuffix
      · exact ih hrest

/-- **Cuts.** Cutting a text that was cut before is one cut of the whole. -/
theorem last_bytes_append (limit : ℕ) (t more : List Char) :
    last_bytes limit (last_bytes limit t ++ more) = last_bytes limit (t ++ more) := by
  induction t with
  | nil => rfl
  | cons c t ih =>
    rw [last_bytes]
    split_ifs with h
    · rfl
    · rw [ih, List.cons_append, last_bytes_cons]
      rw [← List.cons_append, utf8_append, List.length_append]
      omega

/-- **Cutting bytes** is cutting characters: what is left of a character is ignored. -/
theorem from_utf8_ignore_drop (h : limit < (utf8 t).length) :
    from_utf8_ignore ((utf8 t).drop ((utf8 t).length - limit)) = last_bytes limit t := by
  induction t with
  | nil => exact absurd h (Nat.not_lt_zero _)
  | cons c t ih =>
    have hsize := String.length_utf8EncodeChar c
    rw [last_bytes_cons h]
    rw [utf8_cons, List.length_append] at h ⊢
    by_cases hrest : (utf8 t).length ≤ limit
    · -- the cut is in the first character, and not in front of it
      obtain ⟨first, more, hwritten, -, hmore⟩ := utf8EncodeChar_eq c
      rw [hwritten, List.length_cons] at h ⊢
      obtain ⟨k, hk, hle⟩ : ∃ k, more.length + 1 + (utf8 t).length - limit = k + 1 ∧ k ≤ more.length :=
        ⟨more.length + (utf8 t).length - limit, by omega, by omega⟩
      rw [hk, List.cons_append, List.drop_succ_cons, List.drop_append_of_le_length hle,
        from_utf8_ignore_tail fun b hb => hmore b (List.mem_of_mem_drop hb), last_bytes_of_le hrest]
    · have hcut : (String.utf8EncodeChar c).length + (utf8 t).length - limit
          = (String.utf8EncodeChar c).length + ((utf8 t).length - limit) := by omega
      rw [hcut, ← List.drop_drop, List.drop_left]
      exact ih (by omega)

end AgentSpace.Lib
