/-
The document of a page: `memory_rs/src/frontmatter.rs` with the metadata of
`model.rs`.

A page is stored as a `---`-delimited YAML mapping and a Markdown body. What is
rendered is read back with the same metadata and the normalized body
(`parse_render_document`). The block the parser hands to the YAML library ends
before the line break in front of the closing `---`, so a block scalar at the
very end of the metadata is read without its own final line break.
-/
import AgentSpace.Memory.Path
import AgentSpace.Bytes
import AgentSpace.Yaml

set_option autoImplicit false

namespace AgentSpace.Memory

open Text

/-! ## Metadata -/

/-- `chrono::DateTime<Utc>`: seconds since the epoch and nanoseconds, which
exceed a second's worth only in a leap second. -/
structure DateTime where
  secs : ℤ
  nanos : ℕ
  deriving DecidableEq, Repr

/-- The years 0000 to 9999, the only ones RFC 3339 can write. -/
def DateTime.InRfc3339 (t : DateTime) : Prop :=
  -62167219200 ≤ t.secs ∧ t.secs < 253402300800
    ∧ (t.nanos < 1000000000 ∨ t.nanos < 2000000000 ∧ t.secs % 60 = 59)

instance (t : DateTime) : Decidable t.InRfc3339 := inferInstanceAs (Decidable (_ ∧ _))

/-- The two functions of `chrono` the documents use: parsing (converted to UTC)
and `to_rfc3339`. -/
structure Chrono where
  parse_from_rfc3339 : Text → Except String DateTime
  to_rfc3339 : DateTime → Text

/-- What the documents rely on: an instant that RFC 3339 can write is written on
one line and reads back as itself. -/
structure Chrono.RoundTrips (chrono : Chrono) : Prop where
  parse : ∀ {t}, t.InRfc3339 → chrono.parse_from_rfc3339 (chrono.to_rfc3339 t) = .ok t
  one_line : ∀ t, '\n' ∉ chrono.to_rfc3339 t

/-- `PageMetadata`. -/
structure PageMetadata where
  schema_version : ℕ
  title : Text
  tags : List Text
  created_at : DateTime
  updated_at : DateTime
  created_by : Option Text
  updated_by : Option Text
  extra : Mapping
  deriving DecidableEq

/-- Equality as `PageMetadata` derives it: index maps compare as sets of
entries. -/
structure PageMetadata.Same (a b : PageMetadata) : Prop where
  schema_version : a.schema_version = b.schema_version
  title : a.title = b.title
  tags : a.tags = b.tags
  created_at : a.created_at = b.created_at
  updated_at : a.updated_at = b.updated_at
  created_by : a.created_by = b.created_by
  updated_by : a.updated_by = b.updated_by
  extra : a.extra.Perm b.extra

/-! ## Parsing -/

/-- `FRONTMATTER_DELIMITER`. -/
def FRONTMATTER_DELIMITER : Text := "---".toList

/-- `strip_opening_delimiter`. -/
def strip_opening_delimiter (text : Text) : Option Text :=
  ( strip_prefix "---\r\n".toList text).or ( strip_prefix "---\n".toList text)

/-- A line terminator taken off the front. -/
def strip_line_end (rest : Text) : Option Text :=
  ( strip_prefix "\r\n".toList rest).or ( strip_prefix "\n".toList rest)

/-- `split_frontmatter`: the loop looks for the next `"\n---"` and goes on past
it when it is not a whole line. -/
def split_frontmatter : Text → Option (Text × Text)
  | '\n' :: '-' :: '-' :: '-' :: rest =>
    match strip_line_end rest with
    | some after_delimiter_line =>
      some ([], (strip_line_end after_delimiter_line).getD after_delimiter_line)
    | none =>
      if rest = [] then some ([], [])
      else (split_frontmatter rest).map fun p => ('\n' :: '-' :: '-' :: '-' :: p.1, p.2)
  | c :: rest => (split_frontmatter rest).map fun p => (c :: p.1, p.2)
  | [] => none

/-- The key of a metadata field. -/
def field (key : String) : Value := .String key.toList

/-- `take_u64`. -/
def take_u64 (mapping : Mapping) (key : String) : Option ℕ × Mapping :=
  let (value, mapping) := Mapping.remove (field key) mapping
  (value.bind Value.as_u64, mapping)

/-- The text of a value that is a text. -/
def string_value : Value → Option Text
  | .String s => some s
  | _ => none

/-- `take_string`. -/
def take_string (mapping : Mapping) (key : String) : Option Text × Mapping :=
  let (value, mapping) := Mapping.remove (field key) mapping
  (value.bind string_value, mapping)

/-- `take_string_sequence`. -/
def take_string_sequence (mapping : Mapping) (key : String) : Option (List Text) × Mapping :=
  let (value, mapping) := Mapping.remove (field key) mapping
  match value with
  | some (.Sequence items) => (items.mapM string_value, mapping)
  | _ => (none, mapping)

section Parse

variable (yaml : Yaml) (chrono : Chrono)

/-- `take_datetime`. -/
def take_datetime (mapping : Mapping) (key : String) (path_hint : Text) :
    Except MemoryError (Option DateTime × Mapping) :=
  let (value, mapping) := Mapping.remove (field key) mapping
  match value with
  | none => .ok (none, mapping)
  | some value =>
    let raw := match value with
      | .String raw => raw
      | other => trim (((yaml.to_string other).toOption).getD [])
    match chrono.parse_from_rfc3339 raw with
    | .ok parsed => .ok (some parsed, mapping)
    | .error error =>
      .error (.InvalidFrontmatter path_hint
        ("field \"" ++ key ++ "\" is not RFC 3339: " ++ error))

/-- The part of `parse_metadata` that takes the fields out of the mapping. -/
def take_metadata (mapping : Mapping) (path_hint : Text) : Except MemoryError PageMetadata := do
  let (schema_version, mapping) := take_u64 mapping "schema_version"
  let schema_version ← ok_or schema_version
    (.InvalidFrontmatter path_hint "missing required field 'schema_version'")
  let (title, mapping) := take_string mapping "title"
  let title ← ok_or title (.InvalidFrontmatter path_hint "missing required field 'title'")
  let (tags, mapping) := take_string_sequence mapping "tags"
  let tags ← ok_or tags (.InvalidFrontmatter path_hint "missing required field 'tags'")
  let (created_at, mapping) ← take_datetime yaml chrono mapping "created_at" path_hint
  let created_at ← ok_or created_at
    (.InvalidFrontmatter path_hint "missing required field 'created_at'")
  let (updated_at, mapping) ← take_datetime yaml chrono mapping "updated_at" path_hint
  let updated_at ← ok_or updated_at
    (.InvalidFrontmatter path_hint "missing required field 'updated_at'")
  let (created_by, mapping) := take_string mapping "created_by"
  let (updated_by, mapping) := take_string mapping "updated_by"
  .ok { schema_version, title, tags, created_at, updated_at, created_by, updated_by,
        extra := mapping }

/-- `parse_metadata`. -/
def parse_metadata (yaml_text path_hint : Text) : Except MemoryError PageMetadata :=
  match yaml.from_str yaml_text with
  | .error message => .error (.Yaml message)
  | .ok (.Mapping mapping) => take_metadata yaml chrono mapping path_hint
  | .ok _ => .error (.InvalidFrontmatter path_hint "frontmatter must be a YAML mapping")

/-- `parse_document`. -/
def parse_document (bytes : Bytes) (path_hint : Text) :
    Except MemoryError (PageMetadata × Text) := do
  let text ← ok_or (from_utf8 bytes) (.InvalidFrontmatter path_hint "content must be UTF-8")
  let after_open ← ok_or (strip_opening_delimiter text)
    (.InvalidFrontmatter path_hint "missing opening '---' frontmatter delimiter")
  let (yaml_text, body) ← ok_or (split_frontmatter after_open)
    (.InvalidFrontmatter path_hint "missing closing '---' frontmatter delimiter")
  let metadata ← parse_metadata yaml chrono yaml_text path_hint
  .ok (metadata, body)

/-! ## Rendering -/

/-- `normalize_body`: one trailing newline, or nothing. -/
def normalize_body (body : Text) : Text :=
  let trimmed := body.rdropWhile (· == '\n')
  if trimmed = [] then [] else trimmed ++ ['\n']

/-- The known fields of a page in the order `render_document` inserts them. -/
def known_fields (metadata : PageMetadata) : Mapping :=
  [(field "schema_version", .Number (.PosInt metadata.schema_version)),
   (field "title", .String metadata.title),
   (field "tags", .Sequence (metadata.tags.map .String)),
   (field "created_at", .String (chrono.to_rfc3339 metadata.created_at)),
   (field "updated_at", .String (chrono.to_rfc3339 metadata.updated_at))]
  ++ (metadata.created_by.map fun created_by => (field "created_by", .String created_by)).toList
  ++ (metadata.updated_by.map fun updated_by => (field "updated_by", .String updated_by)).toList

/-- The mapping `render_document` serializes: the unknown fields are inserted
behind the known ones. -/
def metadata_mapping (metadata : PageMetadata) : Mapping :=
  metadata.extra.foldl (fun mapping p => Mapping.insert p.1 p.2 mapping)
    (known_fields chrono metadata)

/-- `render_document`. -/
def render_document (metadata : PageMetadata) (body : Text) : Except MemoryError Bytes :=
  match yaml.to_string (.Mapping (metadata_mapping chrono metadata)) with
  | .error message => .error (.Yaml message)
  | .ok yaml_text =>
    let normalized_body := normalize_body body
    .ok (into_bytes (FRONTMATTER_DELIMITER ++ ['\n'] ++ yaml_text ++ FRONTMATTER_DELIMITER
      ++ ['\n'] ++ if normalized_body = [] then [] else '\n' :: normalized_body))

end Parse

/-! ## The delimiters -/

theorem split_frontmatter_cons {c : Char} {rest : Text} (h : ¬"\n---".toList <+: c :: rest) :
    split_frontmatter (c :: rest) = (split_frontmatter rest).map fun p => (c :: p.1, p.2) := by
  rw [split_frontmatter.eq_2]
  rintro r rfl rfl
  exact h ⟨r, rfl⟩

/-- The block ends at the first line that is exactly the delimiter. -/
theorem split_frontmatter_append (t tail : Text) (h : ¬"\n---".toList <:+: t ++ ['\n']) :
    split_frontmatter (t ++ '\n' :: '-' :: '-' :: '-' :: '\n' :: tail)
      = some (t, (strip_line_end tail).getD tail) := by
  induction t with
  | nil =>
    rw [List.nil_append, split_frontmatter]
    simp [strip_line_end, strip_prefix]
  | cons c t ih =>
    have htail : ¬"\n---".toList <:+: t ++ ['\n'] := fun hi =>
      h (hi.trans (List.suffix_cons c _).isInfix)
    rw [List.cons_append, split_frontmatter_cons, ih htail]
    · rfl
    · -- a delimiter that starts inside the block also ends inside it
      intro hpre
      refine h ?_
      rcases t with _ | ⟨a, _ | ⟨b, _ | ⟨d, t⟩⟩⟩
      · simp at hpre
      · simp at hpre
      · simp at hpre
      · refine List.IsPrefix.isInfix ?_
        simpa using hpre

/-! ## Reading back what was rendered -/

/-- The keys of the known fields. -/
def known_keys : List Value :=
  [field "schema_version", field "title", field "tags", field "created_at", field "updated_at",
    field "created_by", field "updated_by"]

/-- No unknown field is there twice, and none has the key of a known one. -/
structure PageMetadata.DistinctFields (metadata : PageMetadata) : Prop where
  nodup : (Mapping.keys metadata.extra).Nodup
  unknown : ∀ key ∈ Mapping.keys metadata.extra, key ∉ known_keys

/-- What the parser guarantees of the fields it keeps. -/
structure PageMetadata.WellFormed (metadata : PageMetadata) : Prop extends
    metadata.DistinctFields where
  unique_key : ∀ p ∈ metadata.extra, p.1.Unique
  unique_value : ∀ p ∈ metadata.extra, p.2.Unique

/-- The metadata whose last field has lost a final line break. -/
def PageMetadata.chomp (metadata : PageMetadata) : PageMetadata :=
  if metadata.extra ≠ [] then
    { metadata with extra := Value.chompEntries metadata.extra }
  else if metadata.updated_by.isSome then
    { metadata with updated_by := metadata.updated_by.map Text.chomp }
  else { metadata with created_by := metadata.created_by.map Text.chomp }

section ReadBack

variable {yaml : Yaml} {chrono : Chrono}

theorem keys_known_fields_sublist (chrono : Chrono) (metadata : PageMetadata) :
    (Mapping.keys (known_fields chrono metadata)).Sublist known_keys := by
  cases hc : metadata.created_by <;> cases hu : metadata.updated_by <;>
    simp [known_fields, known_keys, Mapping.keys, hc, hu]

theorem nodup_known_keys : known_keys.Nodup := by decide

variable {metadata : PageMetadata}

theorem nodup_keys_fields (chrono : Chrono) (h : metadata.DistinctFields) :
    (Mapping.keys (known_fields chrono metadata ++ metadata.extra)).Nodup := by
  have hsub := keys_known_fields_sublist chrono metadata
  rw [Mapping.keys_append]
  refine List.Nodup.append (nodup_known_keys.sublist hsub) h.nodup ?_
  intro key hknown hextra
  exact h.unknown key hextra (hsub.subset hknown)

theorem metadata_mapping_eq (h : metadata.DistinctFields) :
    metadata_mapping chrono metadata = known_fields chrono metadata ++ metadata.extra := by
  have hnodup := nodup_keys_fields chrono h
  rw [metadata_mapping]
  generalize known_fields chrono metadata = known at hnodup
  generalize metadata.extra = extra at hnodup
  induction extra generalizing known with
  | nil => simp
  | cons p extra ih =>
    rw [List.foldl_cons, Mapping.insert_of_not_mem, ih]
    · simp
    · simpa using hnodup
    · rw [Mapping.keys_append] at hnodup
      intro hmem
      exact (List.disjoint_of_nodup_append hnodup) hmem (by simp)

theorem unique_metadata_mapping (chrono : Chrono) (h : metadata.WellFormed) :
    (Value.Mapping (metadata_mapping chrono metadata)).Unique := by
  rw [metadata_mapping_eq h.toDistinctFields]
  refine .Mapping _ (nodup_keys_fields chrono h.toDistinctFields) ?_ ?_
  · intro p hp
    rcases List.mem_append.1 hp with hp | hp
    · have hkey := (keys_known_fields_sublist chrono metadata).subset (Mapping.mem_keys_of_mem hp)
      simp only [known_keys, field, List.mem_cons, List.not_mem_nil, or_false] at hkey
      rcases hkey with hk | hk | hk | hk | hk | hk | hk <;> (rw [hk]; exact .String _)
    · exact h.unique_key p hp
  · intro p hp
    rcases List.mem_append.1 hp with hp | hp
    · have htags : ∀ v ∈ metadata.tags.map Value.String, v.Unique := by
        intro v hv
        obtain ⟨tag, -, rfl⟩ := List.mem_map.1 hv
        exact .String _
      cases hc : metadata.created_by <;> cases hu : metadata.updated_by <;>
        simp only [known_fields, hc, hu, Option.map_some, Option.map_none, Option.toList,
          List.append_nil, List.cons_append, List.nil_append, List.mem_cons, List.not_mem_nil,
          or_false] at hp <;>
        rcases hp with rfl | rfl | rfl | rfl | rfl | rfl | rfl <;>
        first
          | exact .String _
          | exact .Number _
          | exact .Sequence _ htags
    · exact h.unique_value p hp

section Take

variable {mapping rest : Mapping} {key : String}

theorem take_u64_of_perm {n : ℕ} (hm : (Mapping.keys mapping).Nodup)
    (h : mapping.Perm ((field key, .Number (.PosInt n)) :: rest)) :
    ∃ left, take_u64 mapping key = (some n, left) ∧ left.Perm rest := by
  obtain ⟨hget, hperm⟩ := Mapping.remove_of_perm h hm
  exact ⟨_, by rw [take_u64, Mapping.remove, hget]; rfl, hperm⟩

theorem take_string_of_perm {s : Text} (hm : (Mapping.keys mapping).Nodup)
    (h : mapping.Perm ((field key, .String s) :: rest)) :
    ∃ left, take_string mapping key = (some s, left) ∧ left.Perm rest := by
  obtain ⟨hget, hperm⟩ := Mapping.remove_of_perm h hm
  exact ⟨_, by rw [take_string, Mapping.remove, hget]; rfl, hperm⟩

theorem take_string_optional {o : Option Text} (hm : (Mapping.keys mapping).Nodup)
    (h : mapping.Perm ((o.map fun s => (field key, Value.String s)).toList ++ rest))
    (hkey : field key ∉ Mapping.keys rest) :
    ∃ left, take_string mapping key = (o, left) ∧ left.Perm rest := by
  cases o with
  | some s => exact take_string_of_perm hm h
  | none =>
    have hnot : field key ∉ Mapping.keys mapping := fun hk =>
      hkey ((h.map Prod.fst).mem_iff.1 hk)
    refine ⟨mapping, ?_, h⟩
    rw [take_string, Mapping.remove, Mapping.get_eq_none.2 hnot,
      Mapping.swap_remove_of_not_mem hnot]
    rfl

theorem take_string_sequence_of_perm {tags : List Text} (hm : (Mapping.keys mapping).Nodup)
    (h : mapping.Perm ((field key, .Sequence (tags.map .String)) :: rest)) :
    ∃ left, take_string_sequence mapping key = (some tags, left) ∧ left.Perm rest := by
  have htags : (tags.map Value.String).mapM string_value = some tags := by
    clear h
    induction tags with
    | nil => rfl
    | cons tag tags ih => simp [ih, string_value]
  obtain ⟨hget, hperm⟩ := Mapping.remove_of_perm h hm
  exact ⟨_, by rw [take_string_sequence, Mapping.remove, hget]; simp only [htags], hperm⟩

theorem take_datetime_of_perm (yaml : Yaml) {t : DateTime} (path_hint : Text) (hchrono : chrono.RoundTrips)
    (ht : t.InRfc3339) (hm : (Mapping.keys mapping).Nodup)
    (h : mapping.Perm ((field key, .String (chrono.to_rfc3339 t)) :: rest)) :
    ∃ left, take_datetime yaml chrono mapping key path_hint = .ok (some t, left)
      ∧ left.Perm rest := by
  obtain ⟨hget, hperm⟩ := Mapping.remove_of_perm h hm
  refine ⟨_, ?_, hperm⟩
  rw [take_datetime, Mapping.remove, hget]
  simp only [hchrono.parse ht]

end Take

variable {mapping : Mapping}

/-- Taking the known fields out of a mapping that has them leaves the others. -/
theorem take_metadata_of_perm (yaml : Yaml) (path_hint : Text)
    (hchrono : chrono.RoundTrips) (h : metadata.DistinctFields)
    (hcreated : metadata.created_at.InRfc3339) (hupdated : metadata.updated_at.InRfc3339)
    (hperm : mapping.Perm (known_fields chrono metadata ++ metadata.extra)) :
    ∃ read, take_metadata yaml chrono mapping path_hint = .ok read ∧ read.Same metadata := by
  have hnodup : (Mapping.keys (known_fields chrono metadata ++ metadata.extra)).Nodup :=
    nodup_keys_fields chrono h
  simp only [known_fields, List.cons_append, List.nil_append, List.append_assoc] at hperm hnodup
  -- each field in turn is there, and the rest is a permutation of the other fields
  have hm := Mapping.nodup_of_perm hperm hnodup
  obtain ⟨m1, h1, p1⟩ := take_u64_of_perm hm hperm
  have hn1 := List.Nodup.of_cons hnodup
  obtain ⟨m2, h2, p2⟩ := take_string_of_perm (Mapping.nodup_of_perm p1 hn1) p1
  have hn2 := List.Nodup.of_cons hn1
  obtain ⟨m3, h3, p3⟩ := take_string_sequence_of_perm (Mapping.nodup_of_perm p2 hn2) p2
  have hn3 := List.Nodup.of_cons hn2
  obtain ⟨m4, h4, p4⟩ := take_datetime_of_perm yaml path_hint hchrono hcreated
    (Mapping.nodup_of_perm p3 hn3) p3
  have hn4 := List.Nodup.of_cons hn3
  obtain ⟨m5, h5, p5⟩ := take_datetime_of_perm yaml path_hint hchrono hupdated
    (Mapping.nodup_of_perm p4 hn4) p4
  have hn5 := List.Nodup.of_cons hn4
  have hextra : ∀ key ∈ known_keys, key ∉ Mapping.keys metadata.extra :=
    fun key hk hmem => h.unknown key hmem hk
  obtain ⟨m6, h6, p6⟩ := take_string_optional (Mapping.nodup_of_perm p5 hn5) p5 (by
    rw [Mapping.keys_append, List.mem_append, not_or]
    refine ⟨?_, hextra _ (by decide)⟩
    cases metadata.updated_by <;> simp [Mapping.keys, field])
  have hn6 : (Mapping.keys ((metadata.updated_by.map fun u =>
      (field "updated_by", Value.String u)).toList ++ metadata.extra)).Nodup := by
    refine hn5.sublist ?_
    exact (List.sublist_append_right _ _).map Prod.fst
  obtain ⟨m7, h7, p7⟩ := take_string_optional (Mapping.nodup_of_perm p6 hn6) p6
    (hextra _ (by decide))
  refine ⟨⟨_, _, _, _, _, _, _, m7⟩, ?_, ⟨rfl, rfl, rfl, rfl, rfl, rfl, rfl, p7⟩⟩
  simp only [take_metadata, h1, h2, h3, h4, h5, h6, h7, ok_or_some, bind, Except.bind]

/-! ## The round trip -/

theorem known_fields_chomp (metadata : PageMetadata) (hchrono : chrono.RoundTrips) :
    Value.chompEntries (known_fields chrono metadata ++ metadata.extra)
      = known_fields chrono metadata.chomp ++ metadata.chomp.extra := by
  have hdate : ∀ t, (chrono.to_rfc3339 t).chomp = chrono.to_rfc3339 t := fun t =>
    Text.chomp_eq_self (hchrono.one_line t)
  rcases List.eq_nil_or_concat metadata.extra with hnil | ⟨init, ⟨k, v⟩, hcons⟩
  · cases hc : metadata.created_by <;> cases hu : metadata.updated_by <;>
      simp [PageMetadata.chomp, known_fields, hnil, hc, hu, Value.chompEntries, Value.chomp,
        hdate]
  · have hne : metadata.extra ≠ [] := by simp [hcons]
    rw [PageMetadata.chomp, if_pos hne]
    simp only [known_fields]
    rw [hcons, List.concat_eq_append, ← List.append_assoc, Mapping.chomp_append,
      Mapping.chomp_append, List.append_assoc]

theorem PageMetadata.DistinctFields.chomp
    (h : metadata.DistinctFields) : metadata.chomp.DistinctFields := by
  have hkeys : Mapping.keys metadata.chomp.extra = Mapping.keys metadata.extra := by
    rw [PageMetadata.chomp]
    split_ifs
    · exact Mapping.keys_chomp _
    · rfl
    · rfl
  exact ⟨by rw [hkeys]; exact h.nodup, by rw [hkeys]; exact h.unknown⟩

theorem PageMetadata.chomp_dates (metadata : PageMetadata) :
    metadata.chomp.created_at = metadata.created_at
      ∧ metadata.chomp.updated_at = metadata.updated_at := by
  rw [PageMetadata.chomp]
  split_ifs <;> exact ⟨rfl, rfl⟩

/-- The tail `render_document` writes behind the closing delimiter is split off
as the normalized body. -/
theorem strip_separator (body : Text) :
    (strip_line_end (if normalize_body body = [] then [] else '\n' :: normalize_body body)).getD
        (if normalize_body body = [] then [] else '\n' :: normalize_body body)
      = normalize_body body := by
  split_ifs with h
  · rw [h]; rfl
  · simp [strip_line_end, strip_prefix]

variable {bytes : Bytes}

/-- **The round trip of a page.** What `render_document` writes is parsed again:
the body is the normalized one, and the metadata is the one rendered, or the
same without the line break that ends its last field. -/
theorem parse_render_document {body : Text}
    (path_hint : Text) (hyaml : yaml.RoundTrips) (hchrono : chrono.RoundTrips)
    (h : metadata.WellFormed) (hcreated : metadata.created_at.InRfc3339)
    (hupdated : metadata.updated_at.InRfc3339)
    (hrender : render_document yaml chrono metadata body = .ok bytes) :
    ∃ read, parse_document yaml chrono bytes path_hint = .ok (read, normalize_body body)
      ∧ (read.Same metadata ∨ read.Same metadata.chomp) := by
  rw [render_document] at hrender
  cases hstr : yaml.to_string (.Mapping (metadata_mapping chrono metadata)) with
  | error message => simp [hstr] at hrender
  | ok yaml_text =>
    simp only [hstr, Except.ok.injEq] at hrender
    obtain ⟨t, rfl⟩ := hyaml.ends_line hstr
    obtain ⟨w, hw, hwv⟩ := hyaml.from_str_chomped (unique_metadata_mapping chrono h) hstr
    -- the value read is a mapping with the known fields and the others
    obtain ⟨read, hread, hsame⟩ : ∃ read, parse_metadata yaml chrono t path_hint = .ok read
        ∧ (read.Same metadata ∨ read.Same metadata.chomp) := by
      rw [metadata_mapping_eq h.toDistinctFields] at hwv
      rcases hwv with rfl | rfl
      · obtain ⟨read, hread, hsame⟩ := take_metadata_of_perm yaml path_hint hchrono
          h.toDistinctFields hcreated hupdated (List.Perm.refl _)
        exact ⟨read, by simp only [parse_metadata, hw, hread], Or.inl hsame⟩
      · rw [Value.chomp, known_fields_chomp _ hchrono] at hw
        obtain ⟨hc, hu⟩ := metadata.chomp_dates
        obtain ⟨read, hread, hsame⟩ := take_metadata_of_perm yaml path_hint hchrono
          h.toDistinctFields.chomp (hc ▸ hcreated) (hu ▸ hupdated) (List.Perm.refl _)
        exact ⟨read, by simp only [parse_metadata, hw, hread], Or.inr hsame⟩
    refine ⟨read, ?_, hsame⟩
    have hsplit := split_frontmatter_append t
      (if normalize_body body = [] then [] else '\n' :: normalize_body body)
      (hyaml.one_document hstr)
    rw [strip_separator] at hsplit
    have hopen : strip_opening_delimiter (FRONTMATTER_DELIMITER ++ ['\n'] ++ (t ++ ['\n'])
        ++ FRONTMATTER_DELIMITER ++ ['\n']
        ++ if normalize_body body = [] then [] else '\n' :: normalize_body body)
        = some (t ++ '\n' :: '-' :: '-' :: '-' :: '\n'
          :: if normalize_body body = [] then [] else '\n' :: normalize_body body) := by
      simp [strip_opening_delimiter, strip_prefix, FRONTMATTER_DELIMITER]
    simp only [parse_document, ← hrender, from_utf8_into_bytes, hopen, hsplit, hread, ok_or_some,
      bind, Except.bind]

/-! ## What the parser keeps -/

theorem take_datetime_left {mapping left : Mapping} {key : String} {path_hint : Text} {t : Option DateTime}
    (h : take_datetime yaml chrono mapping key path_hint = .ok (t, left)) :
    left = Mapping.swap_remove (field key) mapping := by
  rw [take_datetime, Mapping.remove] at h
  dsimp only at h
  split at h
  · simpa using (congrArg Prod.snd (Except.ok.inj h)).symm
  · split at h
    · simpa using (congrArg Prod.snd (Except.ok.inj h)).symm
    · cases h

variable {read : PageMetadata}

theorem take_metadata_extra {path_hint : Text}
    (h : take_metadata yaml chrono mapping path_hint = .ok read) :
    read.extra = known_keys.foldl (fun m key => Mapping.swap_remove key m) mapping := by
  simp only [take_metadata, bind_eq_ok] at h
  obtain ⟨_, -, _, -, _, -, ⟨_, m4⟩, h4, _, -, ⟨_, m5⟩, h5, _, -, h⟩ := h
  have hm4 := take_datetime_left h4
  have hm5 := take_datetime_left h5
  rw [← Except.ok.inj h]
  simp only [hm5, hm4, take_string, take_string_sequence, take_u64, Mapping.remove, known_keys,
    List.foldl_cons, List.foldl_nil]
  split <;> rfl

variable {path_hint path_hint' : Text}

/-- The hint only appears in errors: what a document holds does not depend on it. -/
theorem take_datetime_hint {mapping left : Mapping} {key : String} {t : Option DateTime}
    (h : take_datetime yaml chrono mapping key path_hint = .ok (t, left)) :
    take_datetime yaml chrono mapping key path_hint' = .ok (t, left) := by
  rw [take_datetime] at h ⊢
  dsimp only at h ⊢
  split at h
  · exact h
  · split at h
    · exact h
    · cases h

theorem ok_or_hint {α : Type} {o : Option α} {e e' : MemoryError} {a : α}
    (h : ok_or o e = .ok a) : ok_or o e' = .ok a := by
  cases o with
  | none => cases h
  | some b => exact h

theorem take_metadata_hint (h : take_metadata yaml chrono mapping path_hint = .ok read) :
    take_metadata yaml chrono mapping path_hint' = .ok read := by
  simp only [take_metadata, bind_eq_ok] at h ⊢
  obtain ⟨a, h1, b, h2, c, h3, m, h4, t, h5, m', h6, t', h7, h⟩ := h
  exact ⟨a, ok_or_hint h1, b, ok_or_hint h2, c, ok_or_hint h3, m, take_datetime_hint h4,
    t, ok_or_hint h5, m', take_datetime_hint h6, t', ok_or_hint h7, h⟩

theorem parse_document_hint {document : PageMetadata × Text}
    (h : parse_document yaml chrono bytes path_hint = .ok document) :
    parse_document yaml chrono bytes path_hint' = .ok document := by
  simp only [parse_document, bind_eq_ok] at h ⊢
  obtain ⟨text, h1, after_open, h2, parts, h3, metadata, hmeta, h⟩ := h
  refine ⟨text, ok_or_hint h1, after_open, ok_or_hint h2, parts, ok_or_hint h3, metadata, ?_, h⟩
  rw [parse_metadata] at hmeta ⊢
  split at hmeta
  · cases hmeta
  · exact take_metadata_hint hmeta
  · cases hmeta

theorem parse_metadata_wellFormed {yaml_text path_hint : Text}
    (hyaml : yaml.RoundTrips) (h : parse_metadata yaml chrono yaml_text path_hint = .ok read) :
    read.WellFormed := by
  rw [parse_metadata] at h
  split at h
  · cases h
  · rename_i mapping hstr
    cases hyaml.unique hstr with
    | Mapping _ hkeys hk hv =>
      obtain ⟨hnodup, hunknown, hmem⟩ := Mapping.foldl_swap_remove known_keys hkeys
      rw [← take_metadata_extra h] at hnodup hunknown hmem
      exact ⟨⟨hnodup, hunknown⟩, fun p hp => hk p (hmem p hp), fun p hp => hv p (hmem p hp)⟩
  · cases h

theorem parse_document_wellFormed {path_hint body : Text} (hyaml : yaml.RoundTrips)
    (h : parse_document yaml chrono bytes path_hint = .ok (read, body)) : read.WellFormed := by
  simp only [parse_document, bind_eq_ok] at h
  obtain ⟨_, -, _, -, _, -, metadata, hmeta, h⟩ := h
  obtain rfl : metadata = read := congrArg Prod.fst (Except.ok.inj h)
  exact parse_metadata_wellFormed hyaml hmeta

end ReadBack

end AgentSpace.Memory
