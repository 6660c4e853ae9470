/-
What `serde` derives for a type that is written to YAML and read from it.

A type whose two derivations agree is `LawfulSerde`. A struct is written as a mapping of
the fields that are not skipped (`to_struct`) and read from a mapping that has no other
fields (`as_struct`); each field is read back as it was written (`as_struct_to_struct`).
-/
import AgentSpace.Yaml

set_option autoImplicit false

namespace AgentSpace.Serde

open Text

/-! ## The traits -/

/-- `Serialize`. -/
class Serialize (α : Type) where
  to_value : α → Value

/-- `Deserialize`. -/
class Deserialize (α : Type) where
  from_value : Value → Option α

export Serialize (to_value)
export Deserialize (from_value)

/-- What is written is read back. A value that is written is never null, and no
mapping in it has a key twice. -/
class LawfulSerde (α : Type) [Serialize α] [Deserialize α] : Prop where
  round_trip : ∀ a : α, from_value (to_value a) = some a
  unique : ∀ a : α, (to_value a).Unique
  not_null : ∀ a : α, to_value a ≠ .Null

export LawfulSerde (round_trip unique not_null)

/-- A value without its tags, which the deserializer of a `Value` looks through. -/
def untag : Value → Value
  | .Tagged _ v => untag v
  | v => v

/-! ## Lists, texts and maps -/

section Collections

variable {α : Type} [Serialize α] [Deserialize α]

/-- A sequence; null is read as an empty one. -/
def as_items (v : Value) : Option (List Value) :=
  match untag v with
  | .Sequence items => some items
  | .Null => some []
  | _ => none

/-- A mapping; null is read as an empty one. -/
def as_entries (v : Value) : Option Mapping :=
  match untag v with
  | .Mapping entries => some entries
  | .Null => some []
  | _ => none

instance : Serialize (List α) where
  to_value items := .Sequence (items.map to_value)

instance : Deserialize (List α) where
  from_value v := (as_items v).bind fun items => items.mapM from_value

theorem mapM_from_value [LawfulSerde α] (items : List α) :
    (items.map to_value).mapM (from_value (α := α)) = some items := by
  induction items with
  | nil => rfl
  | cons a items ih =>
    rw [List.map_cons, List.mapM_cons, round_trip, ih]
    rfl

instance [LawfulSerde α] : LawfulSerde (List α) where
  round_trip items := mapM_from_value items
  unique items := by
    refine .Sequence _ fun v hv => ?_
    obtain ⟨a, -, rfl⟩ := List.mem_map.1 hv
    exact unique a
  not_null items := by simp [to_value]

instance : Serialize Text where
  to_value := .String

instance : Deserialize Text where
  from_value := Value.as_str

instance : LawfulSerde Text where
  round_trip _ := rfl
  unique s := .String s
  not_null s := by simp [to_value]

/-- A boolean. -/
def as_boolean (v : Value) : Option Bool :=
  match untag v with
  | .Boolean b => some b
  | _ => none

instance : Serialize Bool where
  to_value := .Boolean

instance : Deserialize Bool where
  from_value := as_boolean

instance : LawfulSerde Bool where
  round_trip _ := rfl
  unique b := .Boolean b
  not_null b := by simp [to_value]

/-- The entries of a map: in the order of the keys. -/
def map_entries (m : Std.ExtTreeMap Text α compare) : Mapping :=
  m.toList.map fun p => (.String p.1, to_value p.2)

/-- One entry of a map with texts as its keys. -/
def read_entry (p : Value × Value) : Option (Text × α) :=
  p.1.as_str.bind fun key => (from_value p.2).map fun value => (key, value)

instance : Serialize (Std.ExtTreeMap Text α compare) where
  to_value m := .Mapping (map_entries m)

instance : Deserialize (Std.ExtTreeMap Text α compare) where
  from_value v := (as_entries v).bind fun entries =>
    (entries.mapM read_entry).map fun l => Std.ExtTreeMap.ofList l compare

theorem mapM_read_entry [LawfulSerde α] (l : List (Text × α)) :
    (l.map fun p => ((.String p.1 : Value), to_value p.2)).mapM read_entry = some l := by
  induction l with
  | nil => rfl
  | cons p l ih =>
    have hp : read_entry ((.String p.1 : Value), to_value p.2) = some p := by
      simp [read_entry, Value.as_str, round_trip]
    rw [List.map_cons, List.mapM_cons, hp, ih]
    rfl

end Collections

theorem distinct_toList {β : Type} (m : Std.ExtTreeMap Text β compare) :
    m.toList.Pairwise fun a b => ¬compare a.1 b.1 = .eq :=
  Std.ExtTreeMap.distinct_keys_toList

theorem ofList_toList {β : Type} (m : Std.ExtTreeMap Text β compare) :
    Std.ExtTreeMap.ofList m.toList compare = m := by
  refine Std.ExtTreeMap.ext_getElem? fun k => ?_
  cases hk : m[k]? with
  | some v =>
    exact Std.ExtTreeMap.getElem?_ofList_of_mem (by simp) (distinct_toList m)
      (Std.ExtTreeMap.mem_toList_iff_getElem?_eq_some.2 hk)
  | none =>
    refine Std.ExtTreeMap.getElem?_ofList_of_contains_eq_false ?_
    rw [Std.ExtTreeMap.map_fst_toList_eq_keys]
    have : k ∉ m := by
      rw [Std.ExtTreeMap.mem_iff_isSome_getElem?, hk]
      simp
    simpa using this

instance {α : Type} [Serialize α] [Deserialize α] [LawfulSerde α] :
    LawfulSerde (Std.ExtTreeMap Text α compare) where
  round_trip m := by
    show ((map_entries m).mapM read_entry).map _ = some m
    rw [map_entries, mapM_read_entry, Option.map_some, ofList_toList]
  unique m := by
    refine .Mapping _ ?_ (fun p hp => ?_) fun p hp => ?_
    · rw [Mapping.keys, map_entries, List.map_map, List.Nodup, List.pairwise_map]
      refine (distinct_toList m).imp fun hne heq => hne ?_
      simpa using heq
    · obtain ⟨q, -, rfl⟩ := List.mem_map.1 hp
      exact .String q.1
    · obtain ⟨q, -, rfl⟩ := List.mem_map.1 hp
      exact unique q.2
  not_null m := by simp [to_value]

/-! ## Structs -/

/-- The fields of a struct as they are written; a field that is skipped is `none`. -/
abbrev Fields := List (String × Option Value)

/-- What `derive(Serialize)` writes. -/
def to_struct (fields : Fields) : Value :=
  .Mapping (fields.filterMap fun f => f.2.map fun v => (.String f.1.toList, v))

/-- One field, with its name. -/
def read_field (p : Value × Value) : Option (Text × Value) :=
  p.1.as_str.map fun key => (key, p.2)

/-- What `derive(Deserialize)` with `deny_unknown_fields` reads before it looks at the
single fields: every key names a field of the struct, and none does twice. -/
def as_struct (names : List String) (v : Value) : Option (String → Option Value) :=
  (as_entries v).bind fun entries =>
    (entries.mapM read_field).bind fun read =>
      if (∀ p ∈ read, p.1 ∈ names.map String.toList) ∧ (read.map Prod.fst).Nodup then
        some fun name => List.lookup name.toList read
      else none

/-- A field that must be there. -/
def required_field {α : Type} [Deserialize α] (v : Option Value) : Option α := v.bind from_value

/-- A field with a default. -/
def defaulted_field {α : Type} [Deserialize α] (default : α) : Option Value → Option α
  | none => some default
  | some v => from_value v

/-- An `Option` field: null and a missing field are `None`. -/
def optional_field {α : Type} [Deserialize α] : Option Value → Option (Option α)
  | none => some none
  | some .Null => some none
  | some v => (from_value v).map some

/-- A list that is skipped when it is empty. -/
def skip_empty {α : Type} [Serialize α] (items : List α) : Option Value :=
  if items = [] then none else some (to_value items)

/-- A map that is skipped when it is empty. -/
def skip_empty_map {α : Type} [Serialize α] (m : Std.ExtTreeMap Text α compare) : Option Value :=
  if m.isEmpty then none else some (to_value m)

/-- The name of a unit variant: a text, or a tag on null. -/
def as_variant : Value → Option Text
  | .String s => some s
  | .Tagged tag .Null => some tag
  | _ => none

section Fields

variable {α : Type} [Serialize α] [Deserialize α] [LawfulSerde α]

@[simp] theorem required_field_some (a : α) : required_field (some (to_value a)) = some a := round_trip a

@[simp] theorem optional_field_map (o : Option α) : optional_field (o.map to_value) = some o := by
  cases o with
  | none => rfl
  | some a =>
    have hne := not_null a
    have hround := round_trip a
    rw [Option.map_some]
    cases h : to_value a with
    | Null => exact absurd h hne
    | _ =>
      rw [h] at hround
      simp [optional_field, hround]

@[simp] theorem defaulted_field_some (default a : α) : defaulted_field default (some (to_value a)) = some a :=
  round_trip a

@[simp] theorem defaulted_field_skip_empty (items : List α) :
    defaulted_field [] (skip_empty items) = some items := by
  rw [skip_empty]
  split_ifs with h
  · rw [h]
    rfl
  · exact defaulted_field_some [] items

@[simp] theorem defaulted_field_skip_empty_map (m : Std.ExtTreeMap Text α compare) :
    defaulted_field ∅ (skip_empty_map m) = some m := by
  rw [skip_empty_map]
  split_ifs with h
  · rw [Std.ExtTreeMap.isEmpty_iff.1 h]
    rfl
  · exact defaulted_field_some ∅ m

end Fields

/-- The texts of the names of the fields that are written. -/
def written (fields : Fields) : List (Text × Value) :=
  fields.filterMap fun f => f.2.map fun v => (f.1.toList, v)

theorem written_names_sublist (fields : Fields) :
    ((written fields).map Prod.fst).Sublist ((fields.map Prod.fst).map String.toList) := by
  induction fields with
  | nil => exact List.Sublist.refl _
  | cons f fields ih =>
    obtain ⟨name, _ | v⟩ := f
    · exact ih.cons _
    · exact ih.cons_cons _

variable {fields : Fields}

theorem nodup_written (h : (fields.map Prod.fst).Nodup) : ((written fields).map Prod.fst).Nodup :=
  (h.map fun _ _ heq => String.toList_inj.1 heq).sublist (written_names_sublist fields)

theorem lookup_written (fields : Fields) (h : (fields.map Prod.fst).Nodup) (name : String) :
    List.lookup name.toList (written fields) = (List.lookup name fields).join := by
  induction fields with
  | nil => rfl
  | cons f fields ih =>
    obtain ⟨key, o⟩ := f
    obtain ⟨hkey, h⟩ := List.nodup_cons.1 h
    by_cases hname : name = key
    · subst hname
      cases o with
      | some v => simp [written]
      | none =>
        -- a name that is skipped is not written by another field either
        have hnot : name.toList ∉ (written fields).map Prod.fst := by
          intro hmem
          have := (written_names_sublist fields).subset hmem
          obtain ⟨key, hk, heq⟩ := List.mem_map.1 this
          exact hkey (String.toList_inj.1 heq ▸ hk)
        have hlookup : List.lookup name.toList (written fields) = none := by
          rw [List.lookup_eq_none_iff]
          intro p hp
          simp only [bne_iff_ne, ne_eq]
          rintro heq
          exact hnot (heq ▸ List.mem_map_of_mem hp)
        simpa [written] using hlookup
    · have hne : (name.toList == key.toList) = false := by
        rw [beq_eq_false_iff_ne]
        exact fun heq => hname (String.toList_inj.1 heq)
      have hwritten : List.lookup name.toList (written ((key, o) :: fields))
          = List.lookup name.toList (written fields) := by
        cases o with
        | none => rfl
        | some v => simp [written, List.lookup_cons, hne]
      rw [hwritten, ih h, List.lookup_cons, beq_eq_false_iff_ne.2 hname]

/-- **A struct is read back field by field.** -/
theorem as_struct_to_struct (fields : Fields) (h : (fields.map Prod.fst).Nodup) :
    as_struct (fields.map Prod.fst) (to_struct fields)
      = some fun name => (List.lookup name fields).join := by
  have hread : (fields.filterMap fun f => f.2.map fun v => ((.String f.1.toList : Value), v)).mapM
      read_field = some (written fields) := by
    clear h
    induction fields with
    | nil => rfl
    | cons f fields ih =>
      obtain ⟨name, _ | v⟩ := f
      · exact ih
      · simp only [List.filterMap_cons, Option.map_some, List.mapM_cons, ih]
        rfl
  rw [as_struct, to_struct]
  simp only [as_entries, untag, Option.bind_some, hread]
  rw [if_pos]
  · simp only [lookup_written fields h]
  · refine ⟨fun p hp => ?_, nodup_written h⟩
    exact (written_names_sublist fields).subset (List.mem_map_of_mem hp)

theorem as_struct_fields {names : List String} (hnames : fields.map Prod.fst = names) (h : names.Nodup) :
    as_struct names (to_struct fields) = some fun name => (List.lookup name fields).join := by
  subst hnames
  exact as_struct_to_struct fields h

/-- What a field holds has no key twice. -/
def Writable (o : Option Value) : Prop := ∀ v ∈ o, v.Unique

section Writable

variable {α : Type} [Serialize α] [Deserialize α] [LawfulSerde α]

@[simp] theorem writable_some (a : α) : Writable (some (to_value a)) := by
  intro v hv
  obtain rfl : to_value a = v := by simpa using hv
  exact unique a

@[simp] theorem writable_map (o : Option α) : Writable (o.map to_value) := by
  cases o with
  | none => intro v hv; simp at hv
  | some a => exact writable_some a

@[simp] theorem writable_skip_empty (items : List α) : Writable (skip_empty items) := by
  rw [skip_empty]
  split_ifs
  · intro v hv
    simp at hv
  · exact writable_some items

@[simp] theorem writable_skip_empty_map (m : Std.ExtTreeMap Text α compare) :
    Writable (skip_empty_map m) := by
  rw [skip_empty_map]
  split_ifs
  · intro v hv
    simp at hv
  · exact writable_some m

end Writable

theorem to_struct_unique (h : (fields.map Prod.fst).Nodup)
    (hv : ∀ f ∈ fields, ∀ v ∈ f.2, v.Unique) : (to_struct fields).Unique := by
  refine .Mapping _ ?_ (fun p hp => ?_) fun p hp => ?_
  · have hkeys : Mapping.keys (fields.filterMap fun f => f.2.map fun v =>
        ((.String f.1.toList : Value), v)) = ((written fields).map Prod.fst).map .String := by
      rw [Mapping.keys, written, List.map_filterMap, List.map_filterMap, List.map_filterMap]
      refine List.filterMap_congr fun f _ => ?_
      cases f.2 <;> rfl
    rw [hkeys]
    exact (nodup_written h).map fun _ _ heq => by simpa using heq
  · obtain ⟨f, -, hf⟩ := List.mem_filterMap.1 hp
    obtain ⟨v, -, rfl⟩ := Option.map_eq_some_iff.1 hf
    exact .String _
  · obtain ⟨f, hmem, hf⟩ := List.mem_filterMap.1 hp
    obtain ⟨v, hval, rfl⟩ := Option.map_eq_some_iff.1 hf
    exact hv f hmem v hval

/-- **Derived implementations agree**, when the reading of the fields undoes their
writing. -/
theorem lawful_struct {α : Type} [Serialize α] [Deserialize α] (names : List String)
    (fields : α → Fields) (read : (String → Option Value) → Option α)
    (hto : ∀ a : α, to_value a = to_struct (fields a))
    (hfrom : ∀ v, from_value v = (as_struct names v).bind read)
    (hnames : ∀ a, (fields a).map Prod.fst = names) (h : names.Nodup)
    (hread : ∀ a, read (fun name => (List.lookup name (fields a)).join) = some a)
    (hwritable : ∀ a, ∀ f ∈ fields a, Writable f.2) : LawfulSerde α where
  round_trip a := by
    rw [hto, hfrom, as_struct_fields (hnames a) h]
    exact hread a
  unique a := by
    rw [hto]
    exact to_struct_unique (by rw [hnames a]; exact h) (hwritable a)
  not_null a := by
    rw [hto, to_struct]
    simp

end AgentSpace.Serde
