/-
The assumptions on external code can be met.

The functions here have the properties that are asked of YAML, `chrono` and SHA-256, and
compute what the real code computes on the inputs they were made for.
-/
import AgentSpace.Memory.Service

set_option autoImplicit false

namespace AgentSpace.Memory

open Text

/-! ## Timestamps -/

/-- The epoch, as `to_rfc3339` writes it. -/
def epoch_text : Text := "1970-01-01T00:00:00+00:00".toList

/-- A notation for the other instants: sign, seconds and nanoseconds, in strokes. -/
def strokes (t : DateTime) : Text :=
  (if t.secs < 0 then '-' else '+') :: List.replicate t.secs.natAbs '|'
    ++ '.' :: List.replicate t.nanos '|'

/-- Reading strokes back. -/
def read_strokes : Text → Except String DateTime
  | sign :: rest =>
    match split_once '.' rest with
    | some (secs, nanos) =>
      .ok ⟨if sign = '-' then -(secs.length : ℤ) else secs.length, nanos.length⟩
    | none => .error "unsupported"
  | [] => .error "unsupported"

theorem read_strokes_strokes (t : DateTime) : read_strokes (strokes t) = .ok t := by
  have hdot : '.' ∉ List.replicate t.secs.natAbs '|' := by
    intro h
    have := List.eq_of_mem_replicate h
    cases this
  rw [strokes, List.cons_append, read_strokes, split_once_append hdot]
  obtain ⟨secs, nanos⟩ := t
  by_cases hneg : secs < 0
  · simp [hneg, abs_of_neg hneg]
  · simp [hneg, abs_of_nonneg (not_lt.1 hneg)]

/-- `chrono`, for the epoch. -/
def epoch_chrono : Chrono where
  parse_from_rfc3339 s := if s = epoch_text then .ok ⟨0, 0⟩ else read_strokes s
  to_rfc3339 t := if t = ⟨0, 0⟩ then epoch_text else strokes t

theorem epoch_chrono_roundTrips : epoch_chrono.RoundTrips := by
  constructor
  · intro t _
    by_cases ht : t = ⟨0, 0⟩
    · subst ht
      rfl
    · have hne : strokes t ≠ epoch_text := by
        intro h
        have hone : epoch_text.head? = some '1' := by decide
        rw [← h, strokes, List.cons_append, List.head?_cons, Option.some.injEq] at hone
        split_ifs at hone <;> exact absurd hone (by decide)
      rw [show epoch_chrono.to_rfc3339 t = strokes t from if_neg ht]
      exact (if_neg hne).trans (read_strokes_strokes t)
  · intro t
    by_cases ht : t = ⟨0, 0⟩
    · simp only [epoch_chrono, ht, if_true]
      decide
    · simp only [epoch_chrono, ht, if_false, strokes]
      intro h
      rcases List.mem_append.1 h with h | h
      · rcases List.mem_cons.1 h with h | h
        · split_ifs at h <;> cases h
        · cases List.eq_of_mem_replicate h
      · rcases List.mem_cons.1 h with h | h
        · cases h
        · cases List.eq_of_mem_replicate h

/-! ## Digests -/

/-- SHA-256 on the contents whose digests are given. Others get a digest of their
own that is too long to be one of those. -/
def known_sha256 (known : List (Bytes × List UInt8)) (bytes : Bytes) : List UInt8 :=
  match known.find? fun k => k.1 = bytes with
  | some k => k.2
  | none => List.replicate 33 0 ++ bytes.data.toList

theorem known_sha256_injective {known : List (Bytes × List UInt8)} (hlen : ∀ k ∈ known, k.2.length = 32)
    (hinj : ∀ k ∈ known, ∀ l ∈ known, k.2 = l.2 → k.1 = l.1) : Function.Injective (known_sha256 known) := by
  intro a b h
  rw [known_sha256, known_sha256] at h
  cases ha : known.find? fun k => k.1 = a with
  | some k =>
    obtain ⟨hk, rfl⟩ : k ∈ known ∧ k.1 = a :=
      ⟨List.mem_of_find?_eq_some ha, by simpa using List.find?_some ha⟩
    cases hb : known.find? fun k => k.1 = b with
    | some l =>
      obtain ⟨hl, rfl⟩ : l ∈ known ∧ l.1 = b :=
        ⟨List.mem_of_find?_eq_some hb, by simpa using List.find?_some hb⟩
      rw [ha, hb] at h
      exact hinj k hk l hl h
    | none =>
      rw [ha, hb] at h
      have := congrArg List.length h
      simp [hlen k hk] at this
  | none =>
    cases hb : known.find? fun k => k.1 = b with
    | some l =>
      have hl := List.mem_of_find?_eq_some hb
      rw [ha, hb] at h
      have := congrArg List.length h
      simp [hlen l hl] at this
    | none =>
      rw [ha, hb] at h
      have := List.append_cancel_left h
      exact ByteArray.ext (Array.toList_inj.1 this)

/-! ## A page -/

/-- The metadata of a page made at the epoch. -/
def note : PageMetadata :=
  ⟨1, "Note".toList, [], ⟨0, 0⟩, ⟨0, 0⟩, none, none, []⟩

/-- Its frontmatter, as the emitter writes it. -/
def note_yaml : Text :=
  ("schema_version: 1\ntitle: Note\ntags: []\ncreated_at: 1970-01-01T00:00:00+00:00\n"
    ++ "updated_at: 1970-01-01T00:00:00+00:00").toList

/-- The stored form of such a page. -/
def note_bytes (body : Text) : Bytes :=
  into_bytes ("---\n".toList ++ note_yaml ++ "\n---\n\n".toList ++ body)

/-- External code for stores of such pages. -/
def note_externals (known : List (Bytes × List UInt8)) : Externals where
  yaml := .only (.Mapping (known_fields epoch_chrono note)) (note_yaml ++ ['\n'])
  chrono := epoch_chrono
  sha256 := known_sha256 known
  to_lowercase := List.map Char.toLower

set_option maxRecDepth 4000 in
theorem note_externals_lawful {known : List (Bytes × List UInt8)} (hlen : ∀ k ∈ known, k.2.length = 32)
    (hinj : ∀ k ∈ known, ∀ l ∈ known, k.2 = l.2 → k.1 = l.1) : (note_externals known).Lawful := by
  have hnote : note.WellFormed :=
    ⟨⟨List.nodup_nil, fun _ h => by simp [note] at h⟩, fun _ h => by simp [note] at h,
      fun _ h => by simp [note] at h⟩
  have hunique := unique_metadata_mapping epoch_chrono hnote
  rw [metadata_mapping_eq hnote.toDistinctFields] at hunique
  exact ⟨Yaml.only_roundTrips (by simpa [note] using hunique) (by decide), epoch_chrono_roundTrips,
    known_sha256_injective hlen hinj⟩

end AgentSpace.Memory
