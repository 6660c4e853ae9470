/-
JSON values of events, as the chat service and its web client write them.

`serde_json` and `JSON.stringify` differ in what they write for a number, and a JavaScript
object has its array indices first. A `Style` is what may differ.
-/
import AgentSpace.Text

set_option autoImplicit false

namespace AgentSpace.Chat

open Text

/-! ## Values -/

/-- A text of the source. -/
def lit (text : String) : Text := text.toList

@[simp] theorem lit_inj {a b : String} : lit a = lit b ↔ a = b := String.toList_inj

/-- A JSON value, with the numbers that a parser makes. -/
inductive Json (N : Type) where
  | null
  | bool (b : Bool)
  | number (n : N)
  | string (text : Text)
  | array (items : List (Json N))
  | object (entries : List (Text × Json N))

/-- An object. -/
abbrev JsonObject (N : Type) := List (Text × Json N)

variable {N : Type}

/-- `value.as_str()`, or the value if `typeof value === "string"`. -/
def Json.as_str : Json N → Option Text
  | .string text => some text
  | _ => none

/-- `value.as_object()`. -/
def Json.as_object : Json N → Option (JsonObject N)
  | .object entries => some entries
  | _ => none

/-- `object.get(key)`. -/
def get (object : JsonObject N) (key : String) : Option (Json N) := object.lookup (lit key)

/-- `object.get(key).and_then(Value::as_str)`. -/
def get_str (object : JsonObject N) (key : String) : Option Text := (get object key).bind Json.as_str

/-! ## Writing -/

/-- What may differ between the two libraries: how a number is written, and in which order the
members of an object are. -/
structure Style (N : Type) where
  number : N → Text
  order : List (Text × Text) → List (Text × Text)

/-- A hexadecimal digit. -/
def hex_digit (n : ℕ) : Char := Nat.digitChar n

/-- An escaped character. -/
def escape (c : Char) : Text :=
  if c = '"' then ['\\', '"']
  else if c = '\\' then ['\\', '\\']
  else if c.toNat = 8 then ['\\', 'b']
  else if c.toNat = 9 then ['\\', 't']
  else if c.toNat = 10 then ['\\', 'n']
  else if c.toNat = 12 then ['\\', 'f']
  else if c.toNat = 13 then ['\\', 'r']
  else if c.toNat < 32 then ['\\', 'u', '0', '0', hex_digit (c.toNat / 16), hex_digit (c.toNat % 16)]
  else [c]

/-- A text in quotes. -/
def quote (text : Text) : Text := '"' :: text.flatMap escape ++ ['"']

/-- The line break before an item at a depth; a compact value has none. -/
def line_break : Option ℕ → Text
  | none => []
  | some depth => '\n' :: List.replicate (2 * depth) ' '

/-- One deeper. -/
def deeper (depth : Option ℕ) : Option ℕ := depth.map (· + 1)

/-- Items in brackets. -/
def bracketed (opening closing : Char) (depth : Option ℕ) : List Text → Text
  | [] => [opening, closing]
  | items => opening :: join [','] (items.map fun item => line_break (deeper depth) ++ item)
      ++ line_break depth ++ [closing]

/-- A member of an object. -/
def member (depth : Option ℕ) (entry : Text × Text) : Text :=
  quote entry.1 ++ (if depth.isSome then [':', ' '] else [':']) ++ entry.2

namespace Style

variable (style : Style N)

mutual
/-- A value that is written, compact or in lines that are indented by two spaces from a depth
on. -/
def stringify (depth : Option ℕ) : Json N → Text
  | .null => lit "null"
  | .bool b => if b then lit "true" else lit "false"
  | .number n => style.number n
  | .string text => quote text
  | .array items => bracketed '[' ']' depth (stringify_items (deeper depth) items)
  | .object entries =>
    bracketed '\x7b' '\x7d' depth ((style.order (stringify_entries (deeper depth) entries)).map (member depth))

/-- The items of an array. -/
def stringify_items (depth : Option ℕ) : List (Json N) → List Text
  | [] => []
  | item :: items => stringify depth item :: stringify_items depth items

/-- The members of an object, with their names. -/
def stringify_entries (depth : Option ℕ) : List (Text × Json N) → List (Text × Text)
  | [] => []
  | (key, value) :: entries => (key, stringify depth value) :: stringify_entries depth entries
end

mutual
/-- `contentText` of the client, and `content_text` of the service. -/
def content_text : Json N → Text
  | .null => []
  | .bool b => if b then lit "true" else lit "false"
  | .number n => style.number n
  | .string text => text
  | .array items => content_texts items
  | .object entries =>
    if get_str entries "type" = some (lit "text") then (get_str entries "text").getD []
    else if get_str entries "type" = some (lit "content") then content_of entries
    else if get_str entries "type" = some (lit "terminal") then []
    else style.stringify none (.object entries)

/-- The contents of an array, one after another. -/
def content_texts : List (Json N) → Text
  | [] => []
  | item :: items => content_text item ++ content_texts items

/-- The text of the `content` of a block. -/
def content_of : List (Text × Json N) → Text
  | [] => []
  | (key, value) :: entries => if key = lit "content" then content_text value else content_of entries
end

/-- The text of a content that may be missing. -/
def content_text_of (content : Option (Json N)) : Text := (content.map style.content_text).getD []

/-- `jsonText` of the client, and `json_string` of the service. -/
def json_text : Json N → Option Text
  | .null => none
  | .string text => some text
  | value => some (style.stringify (some 0) value)

end Style

/-! ## The two libraries -/

/-- The number that an array index of JavaScript stands for. -/
def array_index (key : Text) : Option ℕ :=
  let n := Nat.ofDigitChars 10 key 0
  if decimal n = key ∧ n < 4294967295 then some n else none

/-- The own keys of a JavaScript object: its array indices, ascending, and then the others. -/
def own_keys {α : Type} (entries : List (Text × α)) : List (Text × α) :=
  (entries.filter fun entry => (array_index entry.1).isSome).mergeSort
      (fun a b => (array_index a.1).getD 0 ≤ (array_index b.1).getD 0)
    ++ entries.filter fun entry => (array_index entry.1).isNone

/-- What numbers are written as. -/
structure Numbers (N : Type) where
  /-- `Display` of `serde_json::Number`. -/
  to_string : N → Text
  /-- `String(number)`, of what `JSON.parse` makes of it. -/
  js_string : N → Text

variable (numbers : Numbers N)

/-- `serde_json`. -/
def rust : Style N := ⟨numbers.to_string, id⟩

/-- `JSON.stringify`. -/
def js : Style N := ⟨numbers.js_string, own_keys⟩

/-! ## What both write alike -/

/-- A key may come before another one. -/
def in_order (key key' : Text) : Prop :=
  match array_index key, array_index key' with
  | some m, some n => m ≤ n
  | none, some _ => False
  | _, none => True

mutual
/-- Numbers are written alike, and the array indices of objects come first already. -/
def Portable : Json N → Prop
  | .number n => numbers.js_string n = numbers.to_string n
  | .array items => PortableItems items
  | .object entries => (entries.map Prod.fst).Pairwise in_order ∧ PortableEntries entries
  | _ => True

def PortableItems : List (Json N) → Prop
  | [] => True
  | item :: items => Portable item ∧ PortableItems items

def PortableEntries : List (Text × Json N) → Prop
  | [] => True
  | (_, value) :: entries => Portable value ∧ PortableEntries entries
end

theorem own_keys_of_pairwise {α : Type} {entries : List (Text × α)}
    (h : (entries.map Prod.fst).Pairwise in_order) : own_keys entries = entries := by
  have hsorted : (entries.filter fun entry => (array_index entry.1).isSome).Pairwise
      fun a b => decide ((array_index a.1).getD 0 ≤ (array_index b.1).getD 0) = true := by
    rw [List.pairwise_map] at h
    refine (h.sublist List.filter_sublist).imp_of_mem fun {a b} ha hb hab => ?_
    have ha' := (List.mem_filter.1 ha).2
    have hb' := (List.mem_filter.1 hb).2
    obtain ⟨m, hm⟩ := Option.isSome_iff_exists.1 ha'
    obtain ⟨n, hn⟩ := Option.isSome_iff_exists.1 hb'
    simpa [in_order, hm, hn] using hab
  unfold own_keys
  rw [List.mergeSort_of_pairwise hsorted]
  clear hsorted
  induction entries with
  | nil => rfl
  | cons entry entries ih =>
    rw [List.map_cons, List.pairwise_cons] at h
    obtain ⟨hfirst, hrest⟩ := h
    have hih := ih hrest
    cases hindex : array_index entry.1 with
    | some n =>
      rw [List.filter_cons_of_pos (by simp [hindex]), List.filter_cons_of_neg (by simp [hindex]),
        List.cons_append, hih]
    | none =>
      -- what follows a key that is no array index is none either
      have hnone : ∀ other ∈ entries, array_index other.1 = none := by
        intro other hother
        have hin := hfirst other.1 (List.mem_map.2 ⟨other, hother, rfl⟩)
        cases hn : array_index other.1 with
        | none => rfl
        | some n => simp [in_order, hindex, hn] at hin
      rw [List.filter_cons_of_neg (by simp [hindex]), List.filter_cons_of_pos (by simp [hindex])]
      have hempty : entries.filter (fun entry => (array_index entry.1).isSome) = [] := by
        rw [List.filter_eq_nil_iff]
        intro other hother
        simp [hnone other hother]
      rw [hempty] at hih ⊢
      exact congrArg (entry :: ·) hih

variable {numbers}

theorem keys_stringify_entries (style : Style N) (depth : Option ℕ) (entries : List (Text × Json N)) :
    (style.stringify_entries depth entries).map Prod.fst = entries.map Prod.fst := by
  induction entries with
  | nil => rfl
  | cons entry entries ih =>
    obtain ⟨key, value⟩ := entry
    show key :: _ = key :: _
    rw [ih]

mutual
/-- A portable value is written alike. -/
theorem stringify_portable (depth : Option ℕ) : ∀ value : Json N, Portable numbers value →
    (js numbers).stringify depth value = (rust numbers).stringify depth value
  | .null, _ => rfl
  | .bool _, _ => rfl
  | .number _, h => h
  | .string _, _ => rfl
  | .array items, h =>
    congrArg (bracketed '[' ']' depth) (stringify_items_portable (deeper depth) items h)
  | .object entries, h => by
    have hentries := stringify_entries_portable (deeper depth) entries h.2
    have hkeys : (((rust numbers).stringify_entries (deeper depth) entries).map Prod.fst).Pairwise
        in_order := by
      rw [keys_stringify_entries]
      exact h.1
    show bracketed '\x7b' '\x7d' depth
        ((own_keys ((js numbers).stringify_entries (deeper depth) entries)).map (member depth))
      = bracketed '\x7b' '\x7d' depth
        (((rust numbers).stringify_entries (deeper depth) entries).map (member depth))
    rw [hentries, own_keys_of_pairwise hkeys]

theorem stringify_items_portable (depth : Option ℕ) : ∀ items : List (Json N),
    PortableItems numbers items →
    (js numbers).stringify_items depth items = (rust numbers).stringify_items depth items
  | [], _ => rfl
  | item :: items, h => by
    show _ :: _ = _ :: _
    rw [stringify_portable depth item h.1, stringify_items_portable depth items h.2]

theorem stringify_entries_portable (depth : Option ℕ) : ∀ entries : List (Text × Json N),
    PortableEntries numbers entries →
    (js numbers).stringify_entries depth entries = (rust numbers).stringify_entries depth entries
  | [], _ => rfl
  | (key, value) :: entries, h => by
    show (key, _) :: _ = (key, _) :: _
    rw [stringify_portable depth value h.1, stringify_entries_portable depth entries h.2]
end

mutual
/-- The text of a portable content is the same. -/
theorem content_text_portable : ∀ value : Json N, Portable numbers value →
    (js numbers).content_text value = (rust numbers).content_text value
  | .null, _ => rfl
  | .bool _, _ => rfl
  | .number _, h => h
  | .string _, _ => rfl
  | .array items, h => content_texts_portable items h
  | .object entries, h => by
    show (if _ then _ else if _ then _ else if _ then _ else _)
      = (if _ then _ else if _ then _ else if _ then _ else _)
    rw [content_of_portable entries h.2, stringify_portable none (.object entries) h]

theorem content_texts_portable : ∀ items : List (Json N), PortableItems numbers items →
    (js numbers).content_texts items = (rust numbers).content_texts items
  | [], _ => rfl
  | item :: items, h => by
    show _ ++ _ = _ ++ _
    rw [content_text_portable item h.1, content_texts_portable items h.2]

theorem content_of_portable : ∀ entries : List (Text × Json N), PortableEntries numbers entries →
    (js numbers).content_of entries = (rust numbers).content_of entries
  | [], _ => rfl
  | (key, value) :: entries, h => by
    show (if _ then _ else _) = (if _ then _ else _)
    rw [content_text_portable value h.1, content_of_portable entries h.2]
end

theorem json_text_portable {value : Json N} (h : Portable numbers value) :
    (js numbers).json_text value = (rust numbers).json_text value := by
  cases value with
  | null => rfl
  | string text => rfl
  | bool b => rfl
  | number n => exact congrArg some (stringify_portable (some 0) (.number n) h)
  | array items => exact congrArg some (stringify_portable (some 0) (.array items) h)
  | object entries => exact congrArg some (stringify_portable (some 0) (.object entries) h)

end AgentSpace.Chat
