/-
Exactly which page documents read back.

With a YAML library whose block scalars are known (`Yaml.CutsBlocks`) and a `chrono`
that reads back nothing but what RFC 3339 can write (`Chrono.Exact`), a document reads
back if and only if its timestamps are within the years 0000 to 9999 and the text its
metadata ends in is not a block scalar with a line break at its end (`reads_back_iff`).
-/
import AgentSpace.Memory.StandIns

set_option autoImplicit false

namespace AgentSpace

/-! ## Block scalars -/

/-- What is known of a library that writes the texts of `block` as block scalars:
without the final line break of its output, a block scalar at the very end is
read without its own, and every other value is read as it was. -/
structure Yaml.CutsBlocks (yaml : Yaml) (block : Text → Bool) : Prop extends yaml.RoundTrips where
  from_str_cut : ∀ {v t}, v.Unique → yaml.to_string v = .ok (t ++ ['\n']) →
    yaml.from_str t = .ok (if v.lastText.any block then v.chomp else v)

/-- A library cut down to one value, whose text ends with the line break behind `t`. -/
def Yaml.cut_only (value : Value) (t : Text) (block : Text → Bool) : Yaml where
  from_str s :=
    if s = t ++ ['\n'] then .ok value
    else if s = t then .ok (if value.lastText.any block then value.chomp else value)
    else .error "unsupported"
  documents s := if s = t ++ ['\n'] then [.ok value] else [.error "unsupported"]
  to_string v := if v = value then .ok (t ++ ['\n']) else .error "unsupported"

theorem Yaml.cut_only_cutsBlocks {value : Value} {t : Text} (block : Text → Bool)
    (hvalue : value.Unique) (hone : ¬"\n---".toList <:+: t ++ ['\n']) :
    (Yaml.cut_only value t block).CutsBlocks block := by
  have hstr : ∀ {v s}, (Yaml.cut_only value t block).to_string v = .ok s →
      v = value ∧ s = t ++ ['\n'] := by
    intro v s h
    rw [Yaml.cut_only] at h
    dsimp only at h
    split_ifs at h with hv
    exact ⟨hv, by simpa using h.symm⟩
  have hcut : (Yaml.cut_only value t block).from_str t
      = .ok (if value.lastText.any block then value.chomp else value) := by
    have hne : t ≠ t ++ ['\n'] := by simp
    exact (if_neg hne).trans (if_pos rfl)
  refine ⟨⟨fun {s v} h => ?_, fun {v s} _ h => ?_, fun {v s} h => ⟨t, (hstr h).2⟩, fun {v s} h => ?_,
    fun {v u} _ h => ?_⟩, fun {v u} _ h => ?_⟩
  · rw [Yaml.cut_only] at h
    dsimp only at h
    split_ifs at h
    · exact Except.ok.inj h ▸ hvalue
    · exact Except.ok.inj h ▸ hvalue.chomp
    · exact Except.ok.inj h ▸ hvalue
  · obtain ⟨rfl, rfl⟩ := hstr h
    simp [Yaml.cut_only]
  · rw [(hstr h).2]
    exact hone
  · obtain ⟨rfl, hu⟩ := hstr h
    obtain rfl := List.append_cancel_right hu
    refine ⟨_, hcut, ?_⟩
    split_ifs
    · exact Or.inr rfl
    · exact Or.inl rfl
  · obtain ⟨rfl, hu⟩ := hstr h
    obtain rfl := List.append_cancel_right hu
    exact hcut

end AgentSpace

namespace AgentSpace.Memory

open Text

/-- What is known of `chrono` besides: an instant outside the years RFC 3339 can
write is written in a form that does not read back as it. -/
structure Chrono.Exact (chrono : Chrono) : Prop extends chrono.RoundTrips where
  in_rfc3339 : ∀ {t}, chrono.parse_from_rfc3339 (chrono.to_rfc3339 t) = .ok t → t.InRfc3339

/-! ## Metadata that differs -/

theorem PageMetadata.Same.refl (a : PageMetadata) : a.Same a :=
  ⟨rfl, rfl, rfl, rfl, rfl, rfl, rfl, List.Perm.refl _⟩

theorem PageMetadata.Same.symm {a b : PageMetadata} (h : a.Same b) : b.Same a :=
  ⟨h.schema_version.symm, h.title.symm, h.tags.symm, h.created_at.symm, h.updated_at.symm,
    h.created_by.symm, h.updated_by.symm, h.extra.symm⟩

theorem PageMetadata.Same.trans {a b c : PageMetadata} (h : a.Same b) (h' : b.Same c) : a.Same c :=
  ⟨h.schema_version.trans h'.schema_version, h.title.trans h'.title, h.tags.trans h'.tags,
    h.created_at.trans h'.created_at, h.updated_at.trans h'.updated_at,
    h.created_by.trans h'.created_by, h.updated_by.trans h'.updated_by, h.extra.trans h'.extra⟩

section RoundTrip

variable {yaml : Yaml} {chrono : Chrono} {block : Text → Bool}

/-- The text the frontmatter ends in: that of the last unknown field, else
`updated_by`, else `created_by`, else the timestamp of the update. -/
def last_text (chrono : Chrono) (metadata : PageMetadata) : Option Text :=
  (Value.Mapping (known_fields chrono metadata ++ metadata.extra)).lastText

/-- The text the frontmatter ends in is written as a block scalar and ends in a
line break. -/
def LosesBreak (chrono : Chrono) (block : Text → Bool) (metadata : PageMetadata) : Prop :=
  ∃ s ∈ last_text chrono metadata, s.getLast? = some '\n' ∧ block s = true

instance (chrono : Chrono) (block : Text → Bool) (metadata : PageMetadata) :
    Decidable (LosesBreak chrono block metadata) :=
  match h : last_text chrono metadata with
  | none => isFalse (by rintro ⟨s, hs, -⟩; simp [h] at hs)
  | some s =>
    decidable_of_iff (s.getLast? = some '\n' ∧ block s = true) (by simp [LosesBreak, h])

variable {metadata : PageMetadata}

/-- Metadata that keeps its fields when its last text is chomped has no line break
to lose there. -/
theorem endsInBreak_of_chomp_same (hchrono : chrono.RoundTrips)
    (h : metadata.Same metadata.chomp) : ¬Value.EndsInBreak (last_text chrono metadata) := by
  have hchomp : (Value.Mapping (known_fields chrono metadata ++ metadata.extra)).chomp
      = .Mapping (known_fields chrono metadata ++ metadata.extra) := by
    rw [Value.chomp, known_fields_chomp _ hchrono]
    have hextra : metadata.chomp.extra = metadata.extra := by
      by_cases hne : metadata.extra = []
      · rw [PageMetadata.chomp, if_neg (not_not.2 hne)]
        split_ifs <;> rfl
      · -- chomping leaves all entries but the last in place, so the last one is the same too
        have hperm := h.extra
        rw [PageMetadata.chomp, if_pos hne] at hperm ⊢
        obtain ⟨init, ⟨k, v⟩, hcons⟩ := (List.eq_nil_or_concat metadata.extra).resolve_left hne
        rw [List.concat_eq_append] at hcons
        rw [hcons, Mapping.chomp_append] at hperm
        have hlast := (List.perm_append_left_iff init).1 hperm
        have hv : (k, v) = (k, v.chomp) := by simpa using hlast
        dsimp only
        rw [hcons, Mapping.chomp_append, ← hv]
    have hknown : known_fields chrono metadata.chomp = known_fields chrono metadata := by
      obtain ⟨hc, hu⟩ := metadata.chomp_dates
      rw [known_fields, known_fields, hc, hu, ← h.created_by, ← h.updated_by,
        ← h.schema_version, ← h.title, ← h.tags]
    rw [hextra, hknown]
  exact (Value.chomp_eq_self_iff _).1 hchomp

/-! ## Timestamps -/

/-- The field of a timestamp is what `chrono` makes of what it wrote. -/
theorem take_datetime_ok {mapping rest left : Mapping} {key : String} {path_hint : Text}
    {t : DateTime} {o : Option DateTime} (hm : (Mapping.keys mapping).Nodup)
    (hperm : mapping.Perm ((field key, .String (chrono.to_rfc3339 t)) :: rest))
    (h : take_datetime yaml chrono mapping key path_hint = .ok (o, left)) :
    left.Perm rest ∧ ∃ read, o = some read
      ∧ chrono.parse_from_rfc3339 (chrono.to_rfc3339 t) = .ok read := by
  obtain ⟨hget, hleft⟩ := Mapping.remove_of_perm hperm hm
  rw [take_datetime, Mapping.remove, hget] at h
  dsimp only at h
  cases hparse : chrono.parse_from_rfc3339 (chrono.to_rfc3339 t) with
  | error error => simp [hparse] at h
  | ok read =>
    rw [hparse] at h
    obtain ⟨rfl, rfl⟩ : some read = o ∧ _ = left := by simpa using h
    exact ⟨hleft, read, rfl, rfl⟩

/-- Metadata that is read has the timestamps `chrono` reads. -/
theorem take_metadata_dates {metadata read : PageMetadata} {mapping : Mapping} {path_hint : Text}
    (h : metadata.DistinctFields) (hperm : mapping.Perm (known_fields chrono metadata ++ metadata.extra))
    (hread : take_metadata yaml chrono mapping path_hint = .ok read) :
    chrono.parse_from_rfc3339 (chrono.to_rfc3339 metadata.created_at) = .ok read.created_at
      ∧ chrono.parse_from_rfc3339 (chrono.to_rfc3339 metadata.updated_at) = .ok read.updated_at := by
  have hnodup := nodup_keys_fields chrono h
  simp only [known_fields, List.cons_append, List.nil_append, List.append_assoc] at hperm hnodup
  have hm := Mapping.nodup_of_perm hperm hnodup
  obtain ⟨m1, h1, p1⟩ := take_u64_of_perm hm hperm
  have hn1 := List.Nodup.of_cons hnodup
  obtain ⟨m2, h2, p2⟩ := take_string_of_perm (Mapping.nodup_of_perm p1 hn1) p1
  have hn2 := List.Nodup.of_cons hn1
  obtain ⟨m3, h3, p3⟩ := take_string_sequence_of_perm (Mapping.nodup_of_perm p2 hn2) p2
  have hn3 := List.Nodup.of_cons hn2
  simp only [take_metadata, h1, h2, h3, bind_eq_ok, ok_or_some, Except.ok.injEq] at hread
  obtain ⟨_, rfl, _, rfl, _, rfl, ⟨o4, m4⟩, h4, created_at, hcreated, ⟨o5, m5⟩, h5, updated_at,
    hupdated, hread⟩ := hread
  obtain ⟨p4, t4, rfl, hc⟩ := take_datetime_ok (Mapping.nodup_of_perm p3 hn3) p3 h4
  have hn4 := List.Nodup.of_cons hn3
  obtain ⟨p5, t5, rfl, hu⟩ := take_datetime_ok (Mapping.nodup_of_perm p4 hn4) p4 h5
  obtain rfl : t4 = created_at := by simpa using hcreated
  obtain rfl : t5 = updated_at := by simpa using hupdated
  subst hread
  exact ⟨hc, hu⟩

/-! ## The round trip -/

/-- The document of a page reads back: it can be rendered, and what was rendered is
parsed to the same metadata and the normalized body. -/
def ReadsBackDocument (yaml : Yaml) (chrono : Chrono) (metadata : PageMetadata) (body : Text)
    (path_hint : Text) : Prop :=
  ∃ bytes read, render_document yaml chrono metadata body = .ok bytes
    ∧ parse_document yaml chrono bytes path_hint = .ok (read, normalize_body body)
    ∧ read.Same metadata

/-- Parsing a rendered document is reading the metadata out of the emitted
mapping, less the line break in front of the closing delimiter. -/
theorem parse_document_rendered {body t : Text} {bytes : Bytes} (path_hint : Text) (hyaml : yaml.RoundTrips)
    (hemit : yaml.to_string (.Mapping (metadata_mapping chrono metadata)) = .ok (t ++ ['\n']))
    (hrender : render_document yaml chrono metadata body = .ok bytes) :
    parse_document yaml chrono bytes path_hint
      = (parse_metadata yaml chrono t path_hint).map fun read => (read, normalize_body body) := by
  rw [render_document, hemit] at hrender
  simp only [Except.ok.injEq] at hrender
  have hsplit := split_frontmatter_append t
    (if normalize_body body = [] then [] else '\n' :: normalize_body body)
    (hyaml.one_document hemit)
  rw [strip_separator] at hsplit
  have hopen : strip_opening_delimiter (FRONTMATTER_DELIMITER ++ ['\n'] ++ (t ++ ['\n'])
      ++ FRONTMATTER_DELIMITER ++ ['\n']
      ++ if normalize_body body = [] then [] else '\n' :: normalize_body body)
      = some (t ++ '\n' :: '-' :: '-' :: '-' :: '\n'
        :: if normalize_body body = [] then [] else '\n' :: normalize_body body) := by
    simp [strip_opening_delimiter, strip_prefix, FRONTMATTER_DELIMITER]
  rw [parse_document, ← hrender, from_utf8_into_bytes]
  simp only [ok_or_some, bind, Except.bind, hopen, hsplit]
  cases parse_metadata yaml chrono t path_hint <;> rfl

/-- When the emitted mapping is read as that of `stored`, which has the timestamps of
`metadata`, the document reads back if and only if these can be written and
`stored` is the same as `metadata`. -/
theorem reads_back_stored {metadata stored : PageMetadata} {body path_hint t : Text}
    (hyaml : yaml.RoundTrips) (hchrono : chrono.Exact) (h : stored.DistinctFields)
    (hcreated : stored.created_at = metadata.created_at)
    (hupdated : stored.updated_at = metadata.updated_at)
    (hemit : yaml.to_string (.Mapping (metadata_mapping chrono metadata)) = .ok (t ++ ['\n']))
    (hfrom : yaml.from_str t = .ok (.Mapping (known_fields chrono stored ++ stored.extra))) :
    ReadsBackDocument yaml chrono metadata body path_hint
      ↔ metadata.created_at.InRfc3339 ∧ metadata.updated_at.InRfc3339 ∧ stored.Same metadata := by
  obtain ⟨bytes, hrender⟩ : ∃ bytes, render_document yaml chrono metadata body = .ok bytes := by
    rw [render_document, hemit]
    exact ⟨_, rfl⟩
  have hparse := parse_document_rendered path_hint hyaml hemit hrender
  rw [parse_metadata, hfrom] at hparse
  constructor
  · rintro ⟨bytes', read, hrender', hread, hsame⟩
    obtain rfl : bytes = bytes' := Except.ok.inj (hrender.symm.trans hrender')
    rw [hparse] at hread
    obtain ⟨read', htake, hpair⟩ := map_eq_ok.1 hread
    obtain rfl : read' = read := congrArg Prod.fst hpair
    obtain ⟨hc, hu⟩ := take_metadata_dates h (List.Perm.refl _) htake
    rw [hcreated, hsame.created_at] at hc
    rw [hupdated, hsame.updated_at] at hu
    have hc' := hchrono.in_rfc3339 hc
    have hu' := hchrono.in_rfc3339 hu
    obtain ⟨again, hagain, hstored⟩ := take_metadata_of_perm yaml path_hint hchrono.toRoundTrips h
      (hcreated ▸ hc') (hupdated ▸ hu') (List.Perm.refl _)
    obtain rfl : again = read' := Except.ok.inj (hagain.symm.trans htake)
    exact ⟨hc', hu', hstored.symm.trans hsame⟩
  · rintro ⟨hc, hu, hstored⟩
    obtain ⟨read, htake, hsame⟩ := take_metadata_of_perm yaml path_hint hchrono.toRoundTrips h
      (hcreated ▸ hc) (hupdated ▸ hu) (List.Perm.refl _)
    refine ⟨bytes, read, hrender, ?_, hsame.trans hstored⟩
    rw [hparse]
    dsimp only
    rw [htake]
    rfl

/-- A last text that loses its line break is read as another one. -/
theorem not_reads_back {body path_hint yaml_text : Text}
    (hyaml : yaml.CutsBlocks block) (hchrono : chrono.Exact) (h : metadata.WellFormed)
    (hemit : yaml.to_string (.Mapping (metadata_mapping chrono metadata)) = .ok yaml_text)
    (hloses : LosesBreak chrono block metadata) :
    ¬ReadsBackDocument yaml chrono metadata body path_hint := by
  obtain ⟨t, rfl⟩ := hyaml.ends_line hemit
  have hcut := hyaml.from_str_cut (unique_metadata_mapping chrono h) hemit
  obtain ⟨s, hs, hbreak, hb⟩ := hloses
  rw [last_text] at hs
  rw [metadata_mapping_eq h.toDistinctFields, if_pos (by rw [hs]; exact hb), Value.chomp,
    known_fields_chomp _ hchrono.toRoundTrips] at hcut
  obtain ⟨hc, hu⟩ := metadata.chomp_dates
  rw [reads_back_stored hyaml.toRoundTrips hchrono h.toDistinctFields.chomp hc hu hemit hcut]
  rintro ⟨-, -, hsame⟩
  exact endsInBreak_of_chomp_same hchrono.toRoundTrips hsame.symm ⟨s, hs, hbreak⟩

/-- **Which documents read back.** A page whose mapping the YAML library can emit
reads back if and only if RFC 3339 can write its timestamps and its last text
does not lose a line break. -/
theorem reads_back_iff {yaml_text : Text} (metadata : PageMetadata) (body path_hint : Text)
    (hyaml : yaml.CutsBlocks block) (hchrono : chrono.Exact) (h : metadata.WellFormed)
    (hemit : yaml.to_string (.Mapping (metadata_mapping chrono metadata)) = .ok yaml_text) :
    ReadsBackDocument yaml chrono metadata body path_hint
      ↔ metadata.created_at.InRfc3339 ∧ metadata.updated_at.InRfc3339
        ∧ ¬LosesBreak chrono block metadata := by
  by_cases hloses : LosesBreak chrono block metadata
  · simp [hloses, not_reads_back hyaml hchrono h hemit hloses]
  · obtain ⟨t, rfl⟩ := hyaml.ends_line hemit
    have hcut := hyaml.from_str_cut (unique_metadata_mapping chrono h) hemit
    rw [metadata_mapping_eq h.toDistinctFields] at hcut
    have hfrom : yaml.from_str t
        = .ok (.Mapping (known_fields chrono metadata ++ metadata.extra)) := by
      rw [hcut]
      split_ifs with hblock
      · -- a block scalar, but with no line break to lose
        congr 1
        refine (Value.chomp_eq_self_iff _).2 ?_
        rintro ⟨s, hs, hbreak⟩
        rw [hs] at hblock
        exact hloses ⟨s, hs, hbreak, hblock⟩
      · rfl
    rw [reads_back_stored hyaml.toRoundTrips hchrono h.toDistinctFields rfl rfl hemit hfrom]
    simp [hloses, PageMetadata.Same.refl]

end RoundTrip

/-! ## Documents of the epoch -/

/-- `chrono`, for the epoch, and for nothing that RFC 3339 cannot write. -/
def exact_chrono : Chrono where
  parse_from_rfc3339 s :=
    match epoch_chrono.parse_from_rfc3339 s with
    | .ok t => if t.InRfc3339 then .ok t else .error "unsupported"
    | .error error => .error error
  to_rfc3339 := epoch_chrono.to_rfc3339

theorem exact_chrono_exact : exact_chrono.Exact := by
  refine ⟨⟨fun {t} ht => ?_, epoch_chrono_roundTrips.one_line⟩, fun {t} h => ?_⟩
  · rw [exact_chrono]
    dsimp only
    rw [epoch_chrono_roundTrips.parse ht]
    exact if_pos ht
  · rw [exact_chrono] at h
    dsimp only at h
    split at h
    · split_ifs at h with ht
      rw [← Except.ok.inj h]
      exact ht
    · cases h

/-- The emitter writes a text with a line break as a block scalar. -/
def has_break (s : Text) : Bool := s.contains '\n'

/-- The library, for the metadata whose mapping it writes as `t` and a line break. -/
def note_library (metadata : PageMetadata) (t : Text) : Yaml :=
  .cut_only (.Mapping (metadata_mapping exact_chrono metadata)) t has_break

theorem note_library_cutsBlocks {metadata : PageMetadata} {t : Text} (h : metadata.WellFormed)
    (hone : ¬"\n---".toList <:+: t ++ ['\n']) : (note_library metadata t).CutsBlocks has_break :=
  Yaml.cut_only_cutsBlocks _ (unique_metadata_mapping exact_chrono h) hone

theorem note_library_emits (metadata : PageMetadata) (t : Text) :
    (note_library metadata t).to_string (.Mapping (metadata_mapping exact_chrono metadata))
      = .ok (t ++ ['\n']) := by
  simp [note_library, Yaml.cut_only]

theorem wellFormed_of_no_extra {metadata : PageMetadata} (h : metadata.extra = []) : metadata.WellFormed :=
  ⟨⟨by simp [h], by simp [h]⟩, by simp [h], by simp [h]⟩

set_option maxRecDepth 4000 in
/-- A page made at the epoch reads back, whatever lines its body is made of. -/
theorem reads_back_iff_note :
    ReadsBackDocument (note_library note note_yaml) exact_chrono note
        "---\r\n\n---\nlast".toList "note".toList
      ↔ note.created_at.InRfc3339 ∧ note.updated_at.InRfc3339
        ∧ ¬LosesBreak exact_chrono has_break note :=
  reads_back_iff note _ _ (note_library_cutsBlocks (wellFormed_of_no_extra rfl) (by decide))
    exact_chrono_exact (wellFormed_of_no_extra rfl) (note_library_emits _ _)

/-- A page updated by an actor whose name ends in a line break. -/
def broken_note : PageMetadata := { note with updated_by := some "a\n".toList }

/-- Its frontmatter, as the emitter writes it. -/
def broken_note_yaml : Text := note_yaml ++ "\nupdated_by: |\n  a".toList

set_option maxRecDepth 4000 in
/-- The page does not read back: the actor is read without the line break. -/
theorem parse_loses_break :
    ¬∀ (yaml : Yaml) (chrono : Chrono) (block : Text → Bool) (yaml_text : Text)
      (metadata : PageMetadata) (body path_hint : Text), yaml.CutsBlocks block → chrono.Exact →
        metadata.WellFormed →
        yaml.to_string (.Mapping (metadata_mapping chrono metadata)) = .ok yaml_text →
        ReadsBackDocument yaml chrono metadata body path_hint := by
  intro h
  have hlibrary : (note_library broken_note broken_note_yaml).CutsBlocks has_break :=
    note_library_cutsBlocks (wellFormed_of_no_extra rfl) (by decide)
  exact not_reads_back hlibrary exact_chrono_exact (wellFormed_of_no_extra rfl)
    (note_library_emits _ _) (by decide)
    (h _ _ has_break _ broken_note [] [] hlibrary exact_chrono_exact (wellFormed_of_no_extra rfl)
      (note_library_emits _ _))

end AgentSpace.Memory
