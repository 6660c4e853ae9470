/-
Texts and dictionaries of Python, as the gateways and the kernels use them.
-/
import AgentSpace.Bytes
import AgentSpace.Telemetry.Python
import Mathlib.Data.List.DropRight

set_option autoImplicit false

namespace AgentSpace.PyText

open Telemetry (Str str)
open Telemetry.Otel (Value get point is_surrogate has_surrogate encode_utf8)

/-! ## Texts -/

/-- `str.isspace` of one character. -/
def is_space (c : Fin 0x110000) : Bool :=
  (9 ≤ c.val && c.val ≤ 13) || (28 ≤ c.val && c.val ≤ 32) || c.val == 0x85 || c.val == 0xA0
    || c.val == 0x1680 || (0x2000 ≤ c.val && c.val ≤ 0x200A) || c.val == 0x2028
    || c.val == 0x2029 || c.val == 0x202F || c.val == 0x205F || c.val == 0x3000

/-- What ends a line for `str.splitlines`. -/
def is_line_end (c : Fin 0x110000) : Bool :=
  (10 ≤ c.val && c.val ≤ 13) || (28 ≤ c.val && c.val ≤ 30) || c.val == 0x85
    || c.val == 0x2028 || c.val == 0x2029

/-- `"\n"`. -/
def newline : Fin 0x110000 := 10

/-- `str.lstrip`. -/
def lstrip (text : Str) : Str := text.dropWhile is_space

/-- `str.rstrip`. -/
def rstrip (text : Str) : Str := text.rdropWhile is_space

/-- `str.strip`. -/
def strip (text : Str) : Str := rstrip (lstrip text)

/-! ## Bytes -/

theorem from_utf8_encode {content : Str} {data : List UInt8} (h : encode_utf8 content = some data) :
    ((from_utf8 ⟨data.toArray⟩).map fun text => text.map point) = some content := by
  unfold encode_utf8 at h
  split_ifs at h with hsurrogate
  have hpoint : ∀ c ∈ content, point (Char.ofNat c.val) = c := by
    intro c hc
    rw [Bool.not_eq_true, has_surrogate, List.any_eq_false] at hsurrogate
    have hplain := hsurrogate c hc
    simp only [is_surrogate, Bool.and_eq_true, decide_eq_true_eq, not_and, not_le] at hplain
    have hvalid : c.val.isValidChar := by
      by_cases hlow : c.val < 0xD800
      · exact Or.inl hlow
      · exact Or.inr ⟨hplain (Nat.le_of_not_lt hlow), c.isLt⟩
    have hnat : (Char.ofNat c.val).toNat = c.val := by
      rw [Char.ofNat, dif_pos hvalid]
      rfl
    exact Fin.ext (by rw [point, hnat]; exact Nat.mod_eq_of_lt c.isLt)
  have hbytes : (⟨data.toArray⟩ : ByteArray) = into_bytes (content.map fun c => Char.ofNat c.val) := by
    rw [← Option.some.inj h]
    show _ = ((content.map fun c => Char.ofNat c.val).flatMap String.utf8EncodeChar).toByteArray
    rw [List.flatMap_map]
    exact ByteArray.ext (by simp)
  rw [hbytes, from_utf8_into_bytes, Option.map_some, List.map_map, Option.some_inj]
  exact (List.map_congr_left hpoint).trans (List.map_id' content)

/-! ## Dictionaries -/

variable {F : Type}

/-- A `dict[str, object]`. -/
abbrev Dict (F : Type) := List (Str × Value F)

/-- `value == "..."`. -/
def is_string (value : Value F) (text : String) : Bool :=
  match value with
  | .string s => s == str text
  | _ => false

theorem is_string_iff {value : Value F} {text : String} :
    is_string value text = true ↔ value = .string (str text) := by
  unfold is_string
  cases value <;> simp

theorem is_string_ne {value : Value F} {text text' : String} (h : is_string value text = true)
    (hne : str text ≠ str text') : is_string value text' = false := by
  rw [is_string_iff] at h
  subst h
  simpa [is_string] using hne

end AgentSpace.PyText
