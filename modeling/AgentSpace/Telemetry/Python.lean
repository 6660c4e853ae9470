/-
The values of Python, and what the telemetry reader uses of its standard library.

The library itself is `Python`: its tables and its floats are not spelled out, and of each
function it is said whether it can raise an exception. `json.dumps` and `str.encode` are
spelled out, because on them depends which text can be written (`encodes_dumps_iff`).
-/
import AgentSpace.Telemetry.Span
import AgentSpace.Text
import Mathlib.Data.List.Lex
import Mathlib.Data.List.Sort
import Mathlib.Data.Rat.Defs

set_option autoImplicit false

namespace AgentSpace.Telemetry.Otel

/-! ## Values -/

/-- A value of Python: what `json.loads` returns, and what `json.dumps` takes. `F` are
the floats. -/
inductive Value (F : Type) where
  | null
  | bool (b : Bool)
  | int (n : ℤ)
  | float (x : F)
  | string (s : Str)
  | array (items : List (Value F))
  | object (entries : List (Str × Value F))

/-- What comes of `json.loads`. -/
inductive Loads (F : Type) where
  | value (v : Value F)
  /-- `json.JSONDecodeError`, or `UnicodeDecodeError` for bytes. -/
  | malformed
  /-- Any other exception: `RecursionError` for a text nested too deep, `ValueError` for a
  number with too many digits. -/
  | raises

/-- The standard library. -/
structure Python (F : Type) where
  /-- `json.loads` of bytes. -/
  loads : List UInt8 → Loads F
  /-- `json.loads` of a text. -/
  loads_str : Str → Loads F
  /-- `int(text)`; `none` is a `ValueError`. -/
  int_of_str : Str → Option ℤ
  /-- `float(text)`; `none` is a `ValueError`. -/
  float_of_str : Str → Option F
  /-- `float(number)`; `none` is an `OverflowError`. -/
  float_of_int : ℤ → Option F
  /-- `int(x)` for a float with `x.is_integer()`. -/
  integral : F → Option ℤ
  /-- `math.isfinite`. -/
  isfinite : F → Bool
  /-- A float literal. -/
  lit : ℚ → F
  /-- `a + b`. -/
  add : F → F → F
  /-- `a * b`. -/
  mul : F → F → F
  /-- `a / b` for integers. -/
  div : ℤ → ℤ → F
  /-- `a <= b`. -/
  le : F → F → Bool
  /-- `a < b`. -/
  lt : F → F → Bool
  /-- `float.__repr__`. -/
  float_repr : F → Str
  /-- It is plain text. -/
  float_repr_plain : ∀ x, ∀ c ∈ float_repr x, c.val < 128
  /-- `str.lower`. -/
  lower : Str → Str
  /-- `str.upper`. -/
  upper : Str → Str
  /-- `datetime.fromtimestamp(seconds, UTC).strftime("%Y-%m-%dT%H:%M:%S")`; `none` is an
  exception: `OverflowError`, `OSError` or `ValueError` for a time outside the years of a
  `datetime`. -/
  strftime : ℤ → Option Str
  /-- It is plain text. -/
  strftime_plain : ∀ seconds text, strftime seconds = some text → ∀ c ∈ text, c.val < 128
  /-- `int(datetime.fromisoformat(text).replace(tzinfo=UTC).timestamp())`; `none` is a
  `ValueError`. -/
  fromisoformat : Str → Option ℤ
  /-- `hashlib.sha256(data).digest()`. -/
  sha256 : List UInt8 → List UInt8
  /-- `hashlib.sha256().digest_size`. -/
  digest_size : ∀ data, (sha256 data).length = 32

/-! ## Taking values apart -/

section Values

variable {F : Type}

/-- `dict.get`. -/
def get (entries : List (Str × Value F)) (key : String) : Value F :=
  (entries.lookup (str key)).getD .null

/-- `key in entries`. -/
def contains (entries : List (Str × Value F)) (key : String) : Bool :=
  (entries.lookup (str key)).isSome

/-- `_mapping`. -/
def mapping : Value F → Option (List (Str × Value F))
  | .object entries => some entries
  | _ => none

/-- `_mapping(value) or {}`. -/
def mapping_or_empty (value : Value F) : List (Str × Value F) := (mapping value).getD []

/-- `_sequence`. -/
def sequence : Value F → Option (List (Value F))
  | .array items => some items
  | _ => none

/-- `_sequence_of_mappings`. -/
def sequence_of_mappings (value : Value F) : List (List (Str × Value F)) :=
  ((sequence value).getD []).filterMap mapping

/-- `_parse_string`. -/
def parse_string : Value F → Option Str
  | .string s => some s
  | _ => none

/-- `_string_sequence`. -/
def string_sequence (value : Value F) : Option (List Str) :=
  (sequence value).bind fun items => items.mapM parse_string

/-- `_parse_int`. -/
def parse_int (py : Python F) : Value F → Option ℤ
  | .int n => some n
  | .float x => py.integral x
  | .string s => py.int_of_str s
  | _ => none

/-- `_parse_timestamp_ns`. -/
def parse_timestamp_ns (py : Python F) (value : Value F) : Option ℤ :=
  match sequence value with
  | some [seconds, nanos] =>
    match parse_int py seconds, parse_int py nanos with
    | some seconds, some nanos =>
      if nanos < 0 ∨ nanos ≥ 1000000000 then none else some (seconds * 1000000000 + nanos)
    | _, _ => none
  | _ => none

/-- Python's `or` between numbers: zero counts for nothing. -/
def int_or (a b : Option ℤ) : Option ℤ :=
  match a with
  | some 0 | none => b
  | some n => some n

end Values

/-! ## Texts as bytes -/

/-- A code point that stands for no character. -/
def is_surrogate (c : Fin 0x110000) : Bool := 0xD800 ≤ c.val && c.val ≤ 0xDFFF

/-- The text has a lone surrogate. -/
def has_surrogate (s : Str) : Bool := s.any is_surrogate

/-- `str.encode("utf-8")`; `none` is a `UnicodeEncodeError`. -/
def encode_utf8 (s : Str) : Option (List UInt8) :=
  if has_surrogate s then none
  else some (s.flatMap fun c => String.utf8EncodeChar (Char.ofNat c.val))

@[simp] theorem has_surrogate_nil : has_surrogate [] = false := rfl

@[simp] theorem has_surrogate_append (s t : Str) :
    has_surrogate (s ++ t) = (has_surrogate s || has_surrogate t) :=
  List.any_append

variable {s : Str}

theorem has_surrogate_of_plain (h : ∀ c ∈ s, c.val < 128) : has_surrogate s = false := by
  rw [has_surrogate, List.any_eq_false]
  intro c hc
  have hplain := h c hc
  simp only [is_surrogate, Bool.and_eq_true, decide_eq_true_eq]
  omega

@[simp] theorem has_surrogate_str (s : String) : has_surrogate (str s) = false := by
  rw [has_surrogate, List.any_eq_false]
  intro d hd
  obtain ⟨c, -, rfl⟩ := List.mem_map.1 hd
  have hvalid : c.toNat < 0xD800 ∨ 0xDFFF < c.toNat ∧ c.toNat < 0x110000 := c.valid
  have hval : (Fin.ofNat 0x110000 c.toNat).val = c.toNat := Nat.mod_eq_of_lt (by omega)
  simp only [is_surrogate, hval, Bool.and_eq_true, decide_eq_true_eq]
  omega

theorem encode_utf8_isSome_iff : (encode_utf8 s).isSome ↔ has_surrogate s = false := by
  unfold encode_utf8
  cases has_surrogate s <;> simp

/-! ## `json.dumps` -/

/-- A character. -/
def point (c : Char) : Fin 0x110000 := Fin.ofNat _ c.toNat

/-- `ESCAPE_DCT`: what follows the backslash. -/
def short_escape : ℕ → Option Char
  | 0x22 => some '"'
  | 0x5C => some '\\'
  | 0x0A => some 'n'
  | 0x0D => some 'r'
  | 0x09 => some 't'
  | 0x0C => some 'f'
  | 0x08 => some 'b'
  | _ => none

/-- A code point as a string literal has it, with `ensure_ascii=False`. -/
def escape (c : Fin 0x110000) : Str :=
  match short_escape c.val with
  | some d => [point '\\', point d]
  | none =>
    if c.val < 0x20 then
      [point '\\', point 'u', point '0', point '0', point (Nat.digitChar (c.val / 16)),
        point (Nat.digitChar (c.val % 16))]
    else [c]

/-- A string literal. -/
def quote (s : Str) : Str := str "\"" ++ s.flatMap escape ++ str "\""

/-- `int.__repr__`. -/
def int_repr (n : ℤ) : Str :=
  (if n < 0 then str "-" else [])
    ++ (Text.decimal n.natAbs).map point

/-- The order of the keys under `sort_keys=True`. -/
def key_le (a b : Str × Str) : Prop := a.1 ≤ b.1

instance (a b : Str × Str) : Decidable (key_le a b) := inferInstanceAs (Decidable (a.1 ≤ b.1))

/-- A number in decimal digits. -/
def number_of_digits (s : Str) : Option ℤ :=
  if s ≠ [] ∧ s.all (fun c => 48 ≤ c.val && c.val ≤ 57) then
    some (s.foldl (fun n c => n * 10 + (c.val - 48)) 0)
  else none

/-- `",".join`. -/
def comma_separated (parts : List Str) : Str := (str ",").intercalate parts

section Dumps

variable {F : Type} (py : Python F)

mutual
/-- `json.dumps(value, sort_keys=True, separators=(",", ":"), ensure_ascii=False)`. -/
def dumps : Value F → Str
  | .null => str "null"
  | .bool b => if b then str "true" else str "false"
  | .int n => int_repr n
  | .float x => py.float_repr x
  | .string s => quote s
  | .array items => str "[" ++ comma_separated (dumps_items items) ++ str "]"
  | .object entries =>
    str "\x7b" ++ comma_separated (((dumps_entries entries).insertionSort key_le).map fun entry =>
      quote entry.1 ++ str ":" ++ entry.2) ++ str "\x7d"
/-- The items of an array, each written. -/
def dumps_items : List (Value F) → List Str
  | [] => []
  | v :: items => dumps v :: dumps_items items
/-- The entries of an object, each with its value written. -/
def dumps_entries : List (Str × Value F) → List (Str × Str)
  | [] => []
  | (key, v) :: entries => (key, dumps v) :: dumps_entries entries
end

end Dumps

/-! ## What can be written -/

section Encodes

variable {F : Type}

mutual
/-- No text in the value has a lone surrogate. -/
def Encodes : Value F → Prop
  | .null => True
  | .bool _ => True
  | .int _ => True
  | .float _ => True
  | .string s => has_surrogate s = false
  | .array items => EncodesItems items
  | .object entries => EncodesEntries entries
/-- No text in the items has a lone surrogate. -/
def EncodesItems : List (Value F) → Prop
  | [] => True
  | v :: items => Encodes v ∧ EncodesItems items
/-- No text in the entries has a lone surrogate. -/
def EncodesEntries : List (Str × Value F) → Prop
  | [] => True
  | (key, v) :: entries => (has_surrogate key = false ∧ Encodes v) ∧ EncodesEntries entries
end

theorem point_plain {c : Char} (h : c.toNat < 128) : (point c).val < 128 := by
  show c.toNat % 0x110000 < 128
  omega

theorem short_escape_plain {n : ℕ} {c : Char} (h : short_escape n = some c) : c.toNat < 128 := by
  unfold short_escape at h
  split at h
  case h_8 => cases h
  all_goals
    cases h
    decide

theorem escape_plain {c : Fin 0x110000} (hc : c.val < 128) : ∀ d ∈ escape c, d.val < 128 := by
  have hhex : ∀ n < 16, (Nat.digitChar n).toNat < 128 := by decide
  have hmark : '\\'.toNat < 128 := by decide
  unfold escape
  cases hshort : short_escape c.val with
  | some d =>
    simp only [List.forall_mem_cons]
    exact ⟨point_plain hmark, point_plain (short_escape_plain hshort), by simp⟩
  | none =>
    dsimp only
    split_ifs with hctl
    · simp only [List.forall_mem_cons]
      exact ⟨point_plain hmark, point_plain (by decide), point_plain (by decide),
        point_plain (by decide), point_plain (hhex _ (by omega)), point_plain (hhex _ (by omega)),
        by simp⟩
    · intro d hd
      rwa [List.mem_singleton.1 hd]

theorem has_surrogate_escape (c : Fin 0x110000) : has_surrogate (escape c) = is_surrogate c := by
  by_cases hlow : c.val < 128
  · -- every code point that has an escape is plain, and so is its escape
    have hc : is_surrogate c = false := by
      simp only [is_surrogate, Bool.and_eq_false_iff, decide_eq_false_iff_not]
      omega
    rw [hc]
    exact has_surrogate_of_plain (escape_plain hlow)
  · have hshort : short_escape c.val = none := by
      unfold short_escape
      split
      all_goals first | rfl | omega
    have hself : escape c = [c] := by
      rw [escape, hshort]
      exact if_neg (by omega)
    rw [hself, has_surrogate, List.any_cons, List.any_nil, Bool.or_false]

theorem has_surrogate_quote (s : Str) : has_surrogate (quote s) = has_surrogate s := by
  have hmark : has_surrogate (str "\"") = false := by decide
  have hbody : has_surrogate (s.flatMap escape) = has_surrogate s := by
    induction s with
    | nil => rfl
    | cons c s ih =>
      rw [List.flatMap_cons, has_surrogate_append, ih, has_surrogate_escape]
      rfl
  rw [quote, has_surrogate_append, has_surrogate_append, hmark, hbody, Bool.false_or, Bool.or_false]

theorem has_surrogate_comma_separated (parts : List Str) :
    has_surrogate (comma_separated parts) = false ↔ ∀ p ∈ parts, has_surrogate p = false := by
  have hcomma : has_surrogate (str ",") = false := by decide
  induction parts with
  | nil => simp [comma_separated, List.intercalate]
  | cons p parts ih =>
    cases parts with
    | nil => simp [comma_separated, List.intercalate]
    | cons q parts =>
      have hcons : comma_separated (p :: q :: parts)
          = p ++ (str "," ++ comma_separated (q :: parts)) := by
        simp [comma_separated, List.intercalate]
      rw [hcons, has_surrogate_append, has_surrogate_append, hcomma, Bool.false_or,
        Bool.or_eq_false_iff, List.forall_mem_cons]
      exact and_congr_right fun _ => ih

theorem int_repr_plain (n : ℤ) : ∀ c ∈ int_repr n, c.val < 128 := by
  intro d hd
  rcases List.mem_append.1 hd with hd | hd
  · split at hd
    · rw [show str "-" = [45] by decide, List.mem_singleton] at hd
      rw [hd]
      decide
    · cases hd
  · obtain ⟨c, hc, rfl⟩ := List.mem_map.1 hd
    have hdigit := Text.decimal_digits hc
    simp only [Char.isDigit, Bool.and_eq_true, decide_eq_true_eq] at hdigit
    have hle : c.toNat ≤ 57 := UInt32.le_iff_toNat_le.1 hdigit.2
    exact point_plain (by omega)

theorem has_surrogate_int_repr (n : ℤ) : has_surrogate (int_repr n) = false :=
  has_surrogate_of_plain (int_repr_plain n)

variable (py : Python F)

mutual
theorem has_surrogate_dumps : ∀ v : Value F, has_surrogate (dumps py v) = false ↔ Encodes v
  | .null => by
    rw [dumps, Encodes]
    decide
  | .bool b => by
    rw [dumps, Encodes]
    cases b <;> decide
  | .int n => by
    rw [dumps, Encodes, has_surrogate_int_repr]
    simp
  | .float x => by
    rw [dumps, Encodes, has_surrogate_of_plain (py.float_repr_plain x)]
    simp
  | .string s => by rw [dumps, Encodes, has_surrogate_quote]
  | .array items => by
    have hopen : has_surrogate (str "[") = false := by decide
    have hclose : has_surrogate (str "]") = false := by decide
    rw [dumps, Encodes, has_surrogate_append, has_surrogate_append, hopen, hclose, Bool.false_or,
      Bool.or_false, has_surrogate_comma_separated, has_surrogate_dumps_items items]
  | .object entries => by
    have hopen : has_surrogate (str "\x7b") = false := by decide
    have hclose : has_surrogate (str "\x7d") = false := by decide
    have hcolon : has_surrogate (str ":") = false := by decide
    rw [dumps, Encodes, has_surrogate_append, has_surrogate_append, hopen, hclose, Bool.false_or,
      Bool.or_false, has_surrogate_comma_separated, ← has_surrogate_dumps_entries entries]
    simp only [List.forall_mem_map, List.mem_insertionSort, has_surrogate_append,
      has_surrogate_quote, hcolon, Bool.or_false, Bool.or_eq_false_iff]
theorem has_surrogate_dumps_items :
    ∀ items : List (Value F), (∀ p ∈ dumps_items py items, has_surrogate p = false) ↔ EncodesItems items
  | [] => by simp [dumps_items, EncodesItems]
  | v :: items => by
    rw [dumps_items, EncodesItems, List.forall_mem_cons, has_surrogate_dumps v,
      has_surrogate_dumps_items items]
theorem has_surrogate_dumps_entries :
    ∀ entries : List (Str × Value F),
      (∀ e ∈ dumps_entries py entries, has_surrogate e.1 = false ∧ has_surrogate e.2 = false)
        ↔ EncodesEntries entries
  | [] => by simp [dumps_entries, EncodesEntries]
  | (key, v) :: entries => by
    rw [dumps_entries, EncodesEntries, List.forall_mem_cons, has_surrogate_dumps v,
      has_surrogate_dumps_entries entries]
end

theorem encodes_dumps_iff (v : Value F) : (encode_utf8 (dumps py v)).isSome ↔ Encodes v := by
  rw [encode_utf8_isSome_iff, has_surrogate_dumps]

end Encodes

/-! ## A library to run on -/

theorem plain_of_all (h : (s.all fun c => c.val < 128) = true) : ∀ c ∈ s, c.val < 128 :=
  fun c hc => of_decide_eq_true (List.all_eq_true.1 h c hc)

/-- Two decimal digits. -/
def two_digits (n : ℤ) : Str := (Text.decimal_padded 2 n.toNat).map point

theorem two_digits_plain (n : ℤ) : ∀ c ∈ two_digits n, c.val < 128 := by
  intro c hc
  obtain ⟨d, hd, rfl⟩ := List.mem_map.1 hc
  have hdigit := Text.decimal_padded_digits hd
  simp only [Char.isDigit, Bool.and_eq_true, decide_eq_true_eq] at hdigit
  have hle : d.toNat ≤ 57 := UInt32.le_iff_toNat_le.1 hdigit.2
  exact point_plain (by omega)

/-- A library that knows the first minute of 1970, exact numbers for floats, and texts in
ASCII. -/
def Python.small (loads : List UInt8 → Loads ℚ) : Python ℚ where
  loads := loads
  loads_str := fun _ => .malformed
  int_of_str := number_of_digits
  float_of_str := fun s => (number_of_digits s).map fun n => n
  float_of_int := fun n => some n
  integral := fun x => if x.den = 1 then some x.num else none
  isfinite := fun _ => true
  lit := id
  add := fun a b => a + b
  mul := fun a b => a * b
  div := fun a b => a / b
  le := fun a b => decide (a ≤ b)
  lt := fun a b => decide (a < b)
  float_repr := fun x => int_repr x.num
  float_repr_plain := fun x => int_repr_plain x.num
  lower := fun s => s.map fun c => if 65 ≤ c.val ∧ c.val ≤ 90 then c + 32 else c
  upper := fun s => s.map fun c => if 97 ≤ c.val ∧ c.val ≤ 122 then c - 32 else c
  strftime := fun seconds =>
    if 0 ≤ seconds ∧ seconds < 60 then some (str "1970-01-01T00:00:" ++ two_digits seconds) else none
  strftime_plain := by
    intro seconds text h
    split at h
    · obtain rfl := Option.some.inj h
      intro c hc
      rcases List.mem_append.1 hc with hc | hc
      · exact plain_of_all (by decide +kernel) c hc
      · exact two_digits_plain seconds c hc
    · cases h
  fromisoformat := fun s =>
    if s.take 17 = str "1970-01-01T00:00:" then number_of_digits (s.drop 17) else none
  sha256 := fun data => List.ofFn fun i : Fin 32 =>
    UInt8.ofNat (data.foldl (fun n b => n * 257 + b.toNat + 1) 0 / 256 ^ i.val)
  digest_size := fun _ => List.length_ofFn

end AgentSpace.Telemetry.Otel
