/-
Bytes, texts as bytes, and the small vocabulary of fallible code.
-/
import AgentSpace.Text

set_option autoImplicit false

namespace AgentSpace

open Text

/-! ## Bytes and texts -/

/-- The bytes of a file. -/
abbrev Bytes := ByteArray

/-- `String::into_bytes`. -/
def into_bytes (t : Text) : Bytes := (String.ofList t).toUTF8

/-- `str::from_utf8`. -/
def from_utf8 (b : Bytes) : Option Text := (String.fromUTF8? b).map String.toList

theorem from_utf8_into_bytes (t : Text) : from_utf8 (into_bytes t) = some t := by
  have hvalid : (String.ofList t).toUTF8.IsValidUTF8 := (String.ofList t).isValidUTF8
  have : String.fromUTF8 (String.ofList t).toUTF8 hvalid = String.ofList t := rfl
  rw [from_utf8, into_bytes, String.fromUTF8?, dif_pos hvalid, this]
  simp

theorem into_bytes_of_from_utf8 {b : Bytes} {t : Text} (h : from_utf8 b = some t) : into_bytes t = b := by
  rw [from_utf8, Option.map_eq_some_iff] at h
  obtain ⟨s, hs, rfl⟩ := h
  rw [String.fromUTF8?] at hs
  split at hs
  · rename_i hvalid
    obtain rfl : String.fromUTF8 b hvalid = s := by simpa using hs
    simp only [into_bytes, String.ofList_toList]
    rfl
  · cases hs

theorem size_into_bytes (t : Text) : (into_bytes t).size = utf8_len t := by
  induction t with
  | nil => rfl
  | cons c t ih =>
    have hcons : String.ofList (c :: t) = String.ofList [c] ++ String.ofList t := by
      rw [← String.ofList_append]
      rfl
    have hchar : (String.ofList [c]).toByteArray.size = c.utf8Size := by
      simp [List.utf8Encode_singleton]
    show (String.ofList (c :: t)).toByteArray.size = _
    rw [hcons, String.toByteArray_append, ByteArray.size_append, hchar, utf8_len_cons, ← ih]
    rfl

/-! ## Hexadecimal -/

/-- The digit for four bits. -/
def hex_digit (n : ℕ) : Char := "0123456789abcdef".toList.getD n '0'

/-- The two digits of a byte. -/
def hex_byte (byte : UInt8) : Text :=
  [hex_digit (byte >>> 4).toNat, hex_digit (byte &&& 0x0f).toNat]

/-- Bytes in hexadecimal. -/
def hex_encode (bytes : List UInt8) : Text := bytes.flatMap hex_byte

/-! ## Fallible code -/

theorem bind_eq_ok {ε α β : Type} {x : Except ε α} {f : α → Except ε β} {b : β} :
    (x >>= f) = .ok b ↔ ∃ a, x = .ok a ∧ f a = .ok b := by
  cases x with
  | error e | ok a => simp [bind, Except.bind]

theorem map_eq_ok {ε α β : Type} {x : Except ε α} {f : α → β} {b : β} :
    x.map f = .ok b ↔ ∃ a, x = .ok a ∧ f a = b := by
  cases x with
  | error e | ok a => simp [Except.map]

/-- `Option::ok_or_else`. -/
def ok_or {ε α : Type} (o : Option α) (e : ε) : Except ε α :=
  match o with
  | some a => .ok a
  | none => .error e

@[simp] theorem ok_or_some {ε α : Type} (a : α) (e : ε) : ok_or (some a) e = .ok a := rfl
@[simp] theorem ok_or_none {ε α : Type} (e : ε) : (ok_or none e : Except ε α) = .error e := rfl

end AgentSpace
