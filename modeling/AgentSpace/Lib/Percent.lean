/-
Percent decoding of bytes.

Decoding takes the escapes `%XX` of some bytes for one byte each, in one pass from the left. It
can be followed on the outline of the bytes (`outline_percent_decode`), on which it does not
matter how bytes that are no ASCII are replaced between two passes. A pass that changes
something leaves fewer ASCII bytes (`percent_decode_falls`).
-/
import AgentSpace.Lib.Utf8

set_option autoImplicit false

namespace AgentSpace.Lib

/-! ## Decoding -/

/-- The value of a hexadecimal digit. -/
def hex_value (b : UInt8) : Option UInt8 :=
  if 0x30 ≤ b && b ≤ 0x39 then some (b - 0x30)
  else if 0x41 ≤ b && b ≤ 0x46 then some (b - 0x41 + 10)
  else if 0x61 ≤ b && b ≤ 0x66 then some (b - 0x61 + 10)
  else none

/-- The byte that `%XX` stands for. -/
def escape (b h l : UInt8) : Option UInt8 :=
  if b = 0x25 then
    match hex_value h, hex_value l with
    | some x, some y => some (16 * x + y)
    | _, _ => none
  else none

/-- A function that percent-decodes: an escape is one byte, and the other bytes are taken as
they are. -/
structure PercentDecodes (decode : List UInt8 → List UInt8) : Prop where
  short : ∀ bytes, bytes.length < 3 → decode bytes = bytes
  escaped : ∀ b h l x rest, escape b h l = some x → decode (b :: h :: l :: rest) = x :: decode rest
  plain : ∀ b h l rest, escape b h l = none → decode (b :: h :: l :: rest) = b :: decode (h :: l :: rest)

/-- The function that does so. -/
def percent_decode : List UInt8 → List UInt8
  | b :: h :: l :: rest =>
    match escape b h l with
    | some x => x :: percent_decode rest
    | none => b :: percent_decode (h :: l :: rest)
  | bytes => bytes

theorem percentDecodes_percent_decode : PercentDecodes percent_decode where
  short bytes h := by
    rcases bytes with _ | ⟨b₀, _ | ⟨b₁, _ | ⟨b₂, rest⟩⟩⟩
    · rfl
    · rfl
    · rfl
    · simp only [List.length_cons] at h
      omega
  escaped b h l x rest hescape := by rw [percent_decode, hescape]
  plain b h l rest hescape := by rw [percent_decode, hescape]

/-- There is one function that percent-decodes. -/
theorem PercentDecodes.eq {decode : List UInt8 → List UInt8} (h : PercentDecodes decode) :
    decode = percent_decode := by
  funext bytes
  induction bytes using percent_decode.induct with
  | case1 b h' l rest x hescape ih =>
    rw [h.escaped _ _ _ _ _ hescape, percentDecodes_percent_decode.escaped _ _ _ _ _ hescape, ih]
  | case2 b h' l rest hescape ih =>
    rw [h.plain _ _ _ _ hescape, percentDecodes_percent_decode.plain _ _ _ _ hescape, ih]
  | case3 bytes hshort =>
    have hlength : bytes.length < 3 := by
      rcases bytes with _ | ⟨b₀, _ | ⟨b₁, _ | ⟨b₂, rest⟩⟩⟩
      · decide
      · exact Nat.le_add_left 2 1
      · exact Nat.lt_succ_self 2
      · exact (hshort b₀ b₁ b₂ rest rfl).elim
    rw [h.short _ hlength, percentDecodes_percent_decode.short _ hlength]

/-! ## Digits -/

theorem is_ascii_of_hex_value {b x : UInt8} (h : hex_value b = some x) : is_ascii b = true := by
  rw [is_ascii_iff]
  unfold hex_value at h
  simp only [Bool.and_eq_true, decide_eq_true_eq, UInt8.le_iff_toNat_le] at h
  have h39 : (0x39 : UInt8).toNat = 57 := rfl
  have h46 : (0x46 : UInt8).toNat = 70 := rfl
  have h66 : (0x66 : UInt8).toNat = 102 := rfl
  split_ifs at h with hdigit hupper hlower
  · omega
  · omega
  · omega

theorem ascii_of_escape {b h l x : UInt8} (hescape : escape b h l = some x) :
    b = 0x25 ∧ is_ascii h = true ∧ is_ascii l = true := by
  unfold escape at hescape
  split_ifs at hescape with hb
  cases hh : hex_value h with
  | none =>
    rw [hh] at hescape
    cases hescape
  | some x =>
    cases hl : hex_value l with
    | none =>
      rw [hh, hl] at hescape
      cases hescape
    | some y => exact ⟨hb, is_ascii_of_hex_value hh, is_ascii_of_hex_value hl⟩

/-! ## Decoding an outline -/

/-- The byte in an outline. -/
def entry (b : UInt8) : Option UInt8 := if is_ascii b then some b else none

/-- A byte, or a mark, in front of an outline. -/
def emit : Option UInt8 → List (Option UInt8) → List (Option UInt8)
  | some b, o => some b :: o
  | none, o => mark o

/-- The byte that three entries of an outline stand for. -/
def escape_entry : Option UInt8 → Option UInt8 → Option UInt8 → Option UInt8
  | some b, some h, some l => escape b h l
  | _, _, _ => none

/-- Decoding, of an outline. -/
def decode_outline : List (Option UInt8) → List (Option UInt8)
  | b :: h :: l :: o =>
    match escape_entry b h l with
    | some x => emit (entry x) (decode_outline o)
    | none => emit b (decode_outline (h :: l :: o))
  | b :: o => emit b (decode_outline o)
  | [] => []

theorem outline_cons (b : UInt8) (rest : List UInt8) :
    outline (b :: rest) = emit (entry b) (outline rest) := by
  unfold entry
  cases h : is_ascii b with
  | true => exact outline_cons_of_ascii h rest
  | false => exact outline_cons_of_not_ascii h rest

variable {b : UInt8}

theorem entry_of_ascii (h : is_ascii b = true) : entry b = some b := if_pos h

/-- What starts no escape is taken as it is. -/
theorem decode_outline_cons (b : Option UInt8) (o : List (Option UInt8))
    (hplain : ∀ h l o', o = h :: l :: o' → escape_entry b h l = none) :
    decode_outline (b :: o) = emit b (decode_outline o) := by
  rcases o with _ | ⟨h, _ | ⟨l, o⟩⟩
  · rfl
  · rfl
  · rw [decode_outline, hplain h l o rfl]

variable (o : List (Option UInt8))

@[simp] theorem decode_outline_none : decode_outline (none :: o) = mark (decode_outline o) :=
  decode_outline_cons none o fun _ _ _ _ => rfl

theorem decode_outline_mark : decode_outline (mark o) = mark (decode_outline o) := by
  rcases o with _ | ⟨_ | b, o⟩
  · rfl
  · rw [mark, decode_outline_none, mark_mark]
  · exact decode_outline_none _

theorem mark_ne_cons (b : UInt8) (o o' : List (Option UInt8)) : mark o ≠ some b :: o' := by
  rcases o with _ | ⟨_ | b, o⟩ <;> exact nofun

variable {bytes : List UInt8}

/-- A byte at the start of an outline is at the start of the bytes. -/
theorem outline_eq_cons {o : List (Option UInt8)}
    (h : outline bytes = some b :: o) : ∃ rest, bytes = b :: rest ∧ outline rest = o := by
  cases bytes with
  | nil => cases h
  | cons b' rest =>
    cases hb : is_ascii b' with
    | true =>
      rw [outline_cons_of_ascii hb] at h
      obtain ⟨hhead, htail⟩ := List.cons.inj h
      exact ⟨rest, by rw [Option.some.inj hhead], htail⟩
    | false =>
      rw [outline_cons_of_not_ascii hb] at h
      exact absurd h (mark_ne_cons _ _ _)

theorem mark_ne_nil : mark o ≠ [] := by
  rcases o with _ | ⟨_ | b, o⟩ <;> exact nofun

theorem outline_eq_nil (h : outline bytes = []) : bytes = [] := by
  rcases bytes with _ | ⟨b, rest⟩
  · rfl
  · rw [outline_cons] at h
    rcases hentry : entry b with _ | c <;> rw [hentry] at h
    · exact absurd h (mark_ne_nil _)
    · cases h

/-- An outline of ASCII bytes is theirs only. -/
theorem outline_eq_map_iff {bytes ascii : List UInt8} (hascii : ∀ b ∈ ascii, is_ascii b = true) :
    outline bytes = ascii.map some ↔ bytes = ascii := by
  induction ascii generalizing bytes with
  | nil =>
    refine ⟨outline_eq_nil, ?_⟩
    rintro rfl
    rfl
  | cons b ascii ih =>
    rw [List.map_cons]
    constructor
    · intro h
      obtain ⟨rest, rfl, hrest⟩ := outline_eq_cons h
      rw [(ih fun b hb => hascii b (List.mem_cons_of_mem _ hb)).1 hrest]
    · rintro rfl
      rw [outline_cons_of_ascii (hascii b List.mem_cons_self),
        (ih fun b hb => hascii b (List.mem_cons_of_mem _ hb)).2 rfl]

/-- A byte of an outline is a byte. -/
theorem mem_of_mem_outline (h : some b ∈ outline bytes) : b ∈ bytes := by
  induction bytes with
  | nil => cases h
  | cons b' rest ih =>
    cases hb : is_ascii b' with
    | true =>
      rw [outline_cons_of_ascii hb, List.mem_cons] at h
      rcases h with heq | hmem
      · rw [Option.some.inj heq]
        exact List.mem_cons_self
      · exact List.mem_cons_of_mem _ (ih hmem)
    | false =>
      rw [outline_cons_of_not_ascii hb] at h
      refine List.mem_cons_of_mem _ (ih ?_)
      rcases houtline : outline rest with _ | ⟨_ | c, o⟩ <;> rw [houtline] at h
      · cases h with | tail _ h => exact h
      · exact h
      · cases h with | tail _ h => exact h

/-- A byte that starts no escape is taken as it is, in the outline. -/
theorem decode_outline_emit (b : UInt8) (rest : List UInt8)
    (hplain : ∀ h l rest', rest = h :: l :: rest' → escape b h l = none) :
    decode_outline (emit (entry b) (outline rest)) = emit (entry b) (decode_outline (outline rest)) := by
  cases hb : is_ascii b with
  | false =>
    have hentry : entry b = none := by
      rw [entry, hb, if_neg Bool.false_ne_true]
    rw [hentry]
    exact decode_outline_mark _
  | true =>
    rw [entry_of_ascii hb]
    refine decode_outline_cons (some b) _ fun h' l' o heq => ?_
    rcases h' with _ | h
    · rfl
    rcases l' with _ | l
    · rfl
    obtain ⟨rest₁, rfl, heq₁⟩ := outline_eq_cons heq
    obtain ⟨rest₂, rfl, -⟩ := outline_eq_cons heq₁
    exact hplain h l rest₂ rfl

/-- **Decoding is seen on the outline.** -/
theorem outline_percent_decode (bytes : List UInt8) :
    outline (percent_decode bytes) = decode_outline (outline bytes) := by
  induction bytes using percent_decode.induct with
  | case1 b h l rest x hescape ih =>
    obtain ⟨hb, hh, hl⟩ := ascii_of_escape hescape
    have hb : is_ascii b = true := hb ▸ rfl
    rw [percentDecodes_percent_decode.escaped _ _ _ _ _ hescape, outline_cons, ih]
    rw [outline_cons_of_ascii hb, outline_cons_of_ascii hh, outline_cons_of_ascii hl, decode_outline]
    rw [escape_entry, hescape]
  | case2 b h l rest hescape ih =>
    rw [percentDecodes_percent_decode.plain _ _ _ _ hescape, outline_cons, ih, outline_cons b]
    refine (decode_outline_emit b (h :: l :: rest) fun h' l' rest' heq => ?_).symm
    obtain ⟨hh, hrest⟩ := List.cons.inj heq
    rw [← hh, ← (List.cons.inj hrest).1, hescape]
  | case3 bytes hshort =>
    rcases bytes with _ | ⟨b, _ | ⟨h, _ | ⟨l, rest⟩⟩⟩
    · rfl
    · rw [percentDecodes_percent_decode.short [b] (Nat.le_add_left 2 1), outline_cons b,
        decode_outline_emit b [] nofun]
      rfl
    · rw [percentDecodes_percent_decode.short [b, h] (Nat.lt_succ_self 2), outline_cons b,
        decode_outline_emit b [h] nofun, outline_cons h, decode_outline_emit h [] nofun]
      rfl
    · exact (hshort b h l rest rfl).elim

/-! ## Bytes that are in no escape -/

theorem emit_append (e : Option UInt8) (o o' : List (Option UInt8)) (b : UInt8) :
    emit e (o ++ some b :: o') = emit e o ++ some b :: o' := by
  rcases e with _ | c
  · rcases o with _ | ⟨_ | d, o⟩ <;> rfl
  · rfl

/-- An ASCII byte parts an outline. -/
theorem outline_append_cons (hb : is_ascii b = true) (bytes rest : List UInt8) :
    outline (bytes ++ b :: rest) = outline bytes ++ some b :: outline rest := by
  induction bytes with
  | nil => exact outline_cons_of_ascii hb rest
  | cons b' bytes ih => rw [List.cons_append, outline_cons, ih, emit_append, ← outline_cons]

/-- **A byte that is in no escape** parts what is decoded. -/
theorem decode_outline_append_cons (hpercent : b ≠ 0x25) (hdigit : hex_value b = none)
    (o o' : List (Option UInt8)) :
    decode_outline (o ++ some b :: o') = decode_outline o ++ some b :: decode_outline o' := by
  have hfirst : ∀ h l, escape_entry (some b) h l = none := by
    intro h l
    rcases h with _ | h
    · rfl
    rcases l with _ | l
    · rfl
    exact if_neg hpercent
  have hsecond : ∀ c l, escape_entry c (some b) l = none := by
    intro c l
    rcases c with _ | c
    · rfl
    rcases l with _ | l
    · rfl
    rw [escape_entry, escape, hdigit]
    split_ifs <;> rfl
  have hthird : ∀ c h, escape_entry c h (some b) = none := by
    intro c h
    rcases c with _ | c
    · rfl
    rcases h with _ | h
    · rfl
    rw [escape_entry, escape, hdigit]
    split_ifs
    · cases hex_value h <;> rfl
    · rfl
  have hnil : decode_outline (some b :: o') = some b :: decode_outline o' :=
    decode_outline_cons _ _ fun _ _ _ _ => hfirst _ _
  have hone : ∀ c, decode_outline (c :: some b :: o') = emit c (some b :: decode_outline o') := by
    intro c
    rw [decode_outline_cons c _ fun h l o heq => ?_, hnil]
    rw [← (List.cons.inj heq).1, hsecond]
  induction o using decode_outline.induct with
  | case1 c h l o x hescape ih =>
    rw [List.cons_append, List.cons_append, List.cons_append, decode_outline, hescape]
    dsimp only
    rw [ih, emit_append, decode_outline, hescape]
  | case2 c h l o hescape ih =>
    rw [List.cons_append, List.cons_append, List.cons_append, decode_outline, hescape]
    dsimp only
    rw [List.cons_append, List.cons_append] at ih
    rw [ih, emit_append, decode_outline, hescape]
  | case3 c o hshort ih =>
    rcases o with _ | ⟨h, _ | ⟨l, o⟩⟩
    · rw [List.cons_append, List.nil_append, hone]
      exact emit_append c [] _ b
    · rw [List.cons_append, List.cons_append, List.nil_append,
        decode_outline_cons c _ fun h' l' o heq => ?_, hone]
      · exact (congrArg (emit c) (emit_append h [] _ b)).trans (emit_append c _ _ b)
      · rw [← (List.cons.inj (List.cons.inj heq).2).1, hthird]
    · exact (hshort h l o rfl).elim
  | case4 => exact hnil

/-! ## ASCII bytes become fewer -/

/-- The number of ASCII bytes. -/
def ascii_count (bytes : List UInt8) : ℕ := bytes.countP is_ascii

theorem countP_mark : (mark o).countP Option.isSome = o.countP Option.isSome := by
  rcases o with _ | ⟨_ | b, o⟩ <;> rfl

/-- An outline has the ASCII bytes. -/
theorem countP_outline (bytes : List UInt8) : (outline bytes).countP Option.isSome = ascii_count bytes := by
  unfold ascii_count
  induction bytes with
  | nil => rfl
  | cons b rest ih =>
    cases hb : is_ascii b with
    | true => rw [outline_cons_of_ascii hb, List.countP_cons_of_pos rfl, List.countP_cons_of_pos hb, ih]
    | false =>
      rw [outline_cons_of_not_ascii hb, countP_mark, ih, List.countP_cons_of_neg]
      rw [hb]
      exact Bool.false_ne_true

/-- **Decoding leaves fewer ASCII bytes**, or changes nothing. -/
theorem percent_decode_falls (bytes : List UInt8) :
    percent_decode bytes = bytes ∨ ascii_count (percent_decode bytes) < ascii_count bytes := by
  unfold ascii_count
  induction bytes using percent_decode.induct with
  | case1 b h l rest x hescape ih =>
    obtain ⟨hb, hh, hl⟩ := ascii_of_escape hescape
    have hb : is_ascii b = true := hb ▸ rfl
    have hrest : (percent_decode rest).countP is_ascii ≤ rest.countP is_ascii := by
      rcases ih with heq | hlt
      · exact Nat.le_of_eq (by rw [heq])
      · exact Nat.le_of_lt hlt
    refine Or.inr ?_
    rw [percentDecodes_percent_decode.escaped _ _ _ _ _ hescape, List.countP_cons_of_pos hb,
      List.countP_cons_of_pos hh, List.countP_cons_of_pos hl, List.countP_cons]
    split_ifs <;> omega
  | case2 b h l rest hescape ih =>
    rw [percentDecodes_percent_decode.plain _ _ _ _ hescape]
    rcases ih with heq | hlt
    · exact Or.inl (by rw [heq])
    · refine Or.inr ?_
      rw [List.countP_cons, List.countP_cons]
      omega
  | case3 bytes hshort =>
    refine Or.inl ?_
    rcases bytes with _ | ⟨b, _ | ⟨h, _ | ⟨l, rest⟩⟩⟩
    · rfl
    · rfl
    · rfl
    · exact (hshort b h l rest rfl).elim

end AgentSpace.Lib
