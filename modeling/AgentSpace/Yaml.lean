/-
YAML values and the library that reads and writes them.

`serde_yaml_ng` itself is not part of this repository. Its value type is built here; its
emitter and parser are parameters (`Yaml`), with what the services rely on
(`Yaml.RoundTrips`). Mappings keep insertion order, and removing a key moves the last entry
into its place, as `swap_remove` does.
-/
import AgentSpace.Text

set_option autoImplicit false

namespace AgentSpace

/-! ## Values -/

/-- `serde_yaml_ng::Number`. A float is carried as its bits and never computed
with. -/
inductive Number where
  | PosInt (n : ℕ)
  | NegInt (n : ℤ)
  | Float (bits : UInt64)
  deriving DecidableEq, Repr

/-- `serde_yaml_ng::Value`. -/
inductive Value where
  | Null
  | Boolean (b : Bool)
  | Number (n : Number)
  | String (s : Text)
  | Sequence (items : List Value)
  | Mapping (entries : List (Value × Value))
  | Tagged (tag : Text) (value : Value)

/-- `serde_yaml_ng::Mapping`, in insertion order. -/
abbrev Mapping := List (Value × Value)

namespace Value

mutual
/-- Equality test of values. -/
def beq : Value → Value → Bool
  | .Null, .Null => true
  | .Boolean a, .Boolean b => a == b
  | .Number a, .Number b => a == b
  | .String a, .String b => a == b
  | .Sequence a, .Sequence b => beqItems a b
  | .Mapping a, .Mapping b => beqEntries a b
  | .Tagged s a, .Tagged t b => s == t && beq a b
  | _, _ => false
/-- Equality test of the items of a sequence. -/
def beqItems : List Value → List Value → Bool
  | [], [] => true
  | a :: as, b :: bs => beq a b && beqItems as bs
  | _, _ => false
/-- Equality test of the entries of a mapping. -/
def beqEntries : List (Value × Value) → List (Value × Value) → Bool
  | [], [] => true
  | (k, a) :: as, (l, b) :: bs => beq k l && beq a b && beqEntries as bs
  | _, _ => false
end

mutual
theorem beq_iff : ∀ a b : Value, beq a b = true ↔ a = b
  | .Null, b | .Boolean _, b | .Number _, b | .String _, b => by cases b <;> simp [beq]
  | .Sequence as, b => by
    cases b <;> simp [beq]
    exact beqItems_iff as _
  | .Mapping as, b => by
    cases b <;> simp [beq]
    exact beqEntries_iff as _
  | .Tagged t a, b => by
    cases b <;> simp [beq]
    intro _
    exact beq_iff a _
theorem beqItems_iff : ∀ as bs : List Value, beqItems as bs = true ↔ as = bs
  | [], bs => by cases bs <;> simp [beqItems]
  | a :: as, bs => by
    cases bs with
    | nil => simp [beqItems]
    | cons b bs => simp [beqItems, beq_iff a b, beqItems_iff as bs]
theorem beqEntries_iff : ∀ as bs : List (Value × Value), beqEntries as bs = true ↔ as = bs
  | [], bs => by cases bs <;> simp [beqEntries]
  | (k, a) :: as, bs => by
    cases bs with
    | nil => simp [beqEntries]
    | cons b bs =>
      obtain ⟨l, b⟩ := b
      simp [beqEntries, beq_iff k l, beq_iff a b, beqEntries_iff as bs, and_assoc]
end

instance : DecidableEq Value := fun a b => decidable_of_iff _ (beq_iff a b)

/-- `Value::as_str` of an untagged value. -/
def as_str : Value → Option Text
  | .String s => some s
  | .Tagged _ v => v.as_str
  | _ => none

/-- `Value::as_u64`: tags are looked through. -/
def as_u64 : Value → Option ℕ
  | .Number (.PosInt n) => some n
  | .Tagged _ v => v.as_u64
  | _ => none

/-- `Value::is_null`: tags are looked through. -/
def is_null : Value → Bool
  | .Null => true
  | .Tagged _ v => v.is_null
  | _ => false

end Value

/-! ## Mappings -/

namespace Mapping

/-- `Mapping::get`. -/
def get (key : Value) : Mapping → Option Value
  | [] => none
  | (k, v) :: rest => if k = key then some v else get key rest

/-- `Mapping::insert`: replaces the value of a key that is there, appends one
that is not. -/
def insert (key value : Value) : Mapping → Mapping
  | [] => [(key, value)]
  | (k, v) :: rest => if k = key then (k, value) :: rest else (k, v) :: insert key value rest

/-- The entries without the one at `key`, whose place the last entry takes. -/
def swap_remove (key : Value) : Mapping → Mapping
  | [] => []
  | (k, v) :: rest =>
    if k = key then
      match rest.getLast? with
      | none => []
      | some last => last :: rest.dropLast
    else (k, v) :: swap_remove key rest

/-- `Mapping::remove`. -/
def remove (key : Value) (m : Mapping) : Option Value × Mapping :=
  (get key m, swap_remove key m)

/-- The keys, in order. -/
def keys (m : Mapping) : List Value := m.map Prod.fst

@[simp] theorem keys_nil : keys [] = [] := rfl
@[simp] theorem keys_cons (p : Value × Value) (m : Mapping) : keys (p :: m) = p.1 :: keys m := rfl
@[simp] theorem keys_append (m n : Mapping) : keys (m ++ n) = keys m ++ keys n := by
  simp [keys]

variable {m : Mapping}

theorem mem_keys_of_mem {p : Value × Value} (h : p ∈ m) : p.1 ∈ keys m :=
  List.mem_map_of_mem h

variable {key : Value}

theorem get_eq_none : get key m = none ↔ key ∉ keys m := by
  induction m with
  | nil => simp [get]
  | cons p m ih =>
    obtain ⟨k, v⟩ := p
    by_cases hk : k = key
    · simp [get, hk]
    · simp [get, hk, ih, Ne.symm hk]

theorem get_eq_some {key v : Value} (hm : (keys m).Nodup) : get key m = some v ↔ (key, v) ∈ m := by
  induction m with
  | nil => simp [get]
  | cons p m ih =>
    obtain ⟨k, w⟩ := p
    obtain ⟨hk, hm⟩ := List.nodup_cons.1 hm
    by_cases hkey : k = key
    · subst hkey
      have hnot : (k, v) ∉ m := fun h => hk (mem_keys_of_mem (p := (k, v)) h)
      simp [get, hnot, eq_comm]
    · simp [get, hkey, ih hm, Ne.symm hkey]

theorem insert_of_not_mem (value : Value) (h : key ∉ keys m) :
    insert key value m = m ++ [(key, value)] := by
  induction m with
  | nil => rfl
  | cons p m ih =>
    obtain ⟨k, v⟩ := p
    obtain ⟨hk, hm⟩ : key ≠ k ∧ key ∉ keys m := by simpa using h
    simp [insert, Ne.symm hk, ih hm]

theorem swap_remove_of_not_mem (h : key ∉ keys m) : swap_remove key m = m := by
  induction m with
  | nil => rfl
  | cons p m ih =>
    obtain ⟨k, v⟩ := p
    obtain ⟨hk, hm⟩ : key ≠ k ∧ key ∉ keys m := by simpa using h
    simp [swap_remove, Ne.symm hk, ih hm]

theorem perm_swap_remove {key value : Value} (h : (key, value) ∈ m)
    (hm : (keys m).Nodup) : m.Perm ((key, value) :: swap_remove key m) := by
  induction m with
  | nil => simp at h
  | cons p m ih =>
    obtain ⟨k, v⟩ := p
    obtain ⟨hk, hm⟩ := List.nodup_cons.1 hm
    by_cases hkey : k = key
    · subst hkey
      obtain rfl : v = value := by
        rcases List.mem_cons.1 h with h | h
        · simpa using h.symm
        · exact absurd (mem_keys_of_mem (p := (k, value)) h) hk
      refine List.Perm.cons _ ?_
      rw [swap_remove, if_pos rfl]
      rcases List.eq_nil_or_concat m with rfl | ⟨init, last, rfl⟩
      · exact List.Perm.refl _
      · simp
    · have hmem : (key, value) ∈ m := by simpa [Ne.symm hkey] using h
      rw [swap_remove, if_neg hkey]
      exact ((ih hmem hm).cons _).trans (List.Perm.swap _ _ _)

theorem remove_of_perm {key value : Value} {m rest : Mapping} (h : m.Perm ((key, value) :: rest))
    (hm : (keys m).Nodup) : get key m = some value ∧ (swap_remove key m).Perm rest := by
  have hmem : (key, value) ∈ m := h.mem_iff.2 (by simp)
  refine ⟨(get_eq_some hm).2 hmem, ?_⟩
  exact ((perm_swap_remove hmem hm).symm.trans h).cons_inv

theorem mem_of_mem_swap_remove {p : Value × Value}
    (hm : (keys m).Nodup) (h : p ∈ swap_remove key m) : p ∈ m := by
  by_cases hkey : key ∈ keys m
  · obtain ⟨⟨k, v⟩, hmem, rfl⟩ := List.mem_map.1 hkey
    exact (perm_swap_remove hmem hm).mem_iff.2 (List.mem_cons_of_mem _ h)
  · rwa [swap_remove_of_not_mem hkey] at h

theorem nodup_swap_remove (key : Value) (hm : (keys m).Nodup) :
    (keys (swap_remove key m)).Nodup ∧ key ∉ keys (swap_remove key m) := by
  by_cases hkey : key ∈ keys m
  · obtain ⟨⟨k, v⟩, hmem, rfl⟩ := List.mem_map.1 hkey
    have hperm := (perm_swap_remove hmem hm).map Prod.fst
    have hnodup := List.nodup_cons.1 (hperm.nodup_iff.1 hm)
    exact ⟨hnodup.2, hnodup.1⟩
  · rw [swap_remove_of_not_mem hkey]
    exact ⟨hm, hkey⟩

/-- What is left after removing several keys. -/
theorem foldl_swap_remove (ks : List Value) (hm : (keys m).Nodup) :
    (keys (ks.foldl (fun m key => swap_remove key m) m)).Nodup
      ∧ (∀ key ∈ keys (ks.foldl (fun m key => swap_remove key m) m), key ∉ ks)
      ∧ ∀ p ∈ ks.foldl (fun m key => swap_remove key m) m, p ∈ m := by
  induction ks generalizing m with
  | nil => simpa using hm
  | cons k ks ih =>
    obtain ⟨hnodup, hk⟩ := nodup_swap_remove k hm
    obtain ⟨h1, h2, h3⟩ := ih hnodup
    refine ⟨h1, fun key hkey => ?_, fun p hp => mem_of_mem_swap_remove hm (h3 p hp)⟩
    rw [List.mem_cons, not_or]
    refine ⟨?_, h2 key hkey⟩
    rintro rfl
    obtain ⟨p, hp, rfl⟩ := List.mem_map.1 hkey
    exact hk (mem_keys_of_mem (h3 p hp))

theorem nodup_of_perm {m n : Mapping} (h : m.Perm n) (hn : (keys n).Nodup) : (keys m).Nodup :=
  (h.map Prod.fst).nodup_iff.2 hn

end Mapping

/-! ## The end of a value -/

/-- The text without one final line break. -/
def Text.chomp (s : Text) : Text := if s.getLast? = some '\n' then s.dropLast else s

theorem Text.chomp_eq_self {s : Text} (h : '\n' ∉ s) : s.chomp = s := by
  rw [Text.chomp, if_neg]
  intro hlast
  exact h (List.mem_of_getLast? hlast)

namespace Value

mutual
/-- The value whose last scalar has lost one final line break, if it is a text
that has one. -/
def chomp : Value → Value
  | .String s => .String s.chomp
  | .Sequence items => .Sequence (chompItems items)
  | .Mapping entries => .Mapping (chompEntries entries)
  | .Tagged tag v => .Tagged tag v.chomp
  | v => v
/-- The items with the last one chomped. -/
def chompItems : List Value → List Value
  | [] => []
  | [v] => [v.chomp]
  | v :: w :: rest => v :: chompItems (w :: rest)
/-- The entries with the value of the last one chomped. -/
def chompEntries : List (Value × Value) → List (Value × Value)
  | [] => []
  | [(k, v)] => [(k, v.chomp)]
  | p :: q :: rest => p :: chompEntries (q :: rest)
end

end Value

theorem Text.chomp_eq_self_iff {s : Text} : s.chomp = s ↔ s.getLast? ≠ some '\n' := by
  constructor
  · intro h hlast
    rw [Text.chomp, if_pos hlast] at h
    have hlen := congrArg List.length h
    cases s with
    | nil => simp at hlast
    | cons c s => simp at hlen
  · intro h
    exact if_neg h

namespace Value

mutual
/-- The text a value ends in, if its last scalar is a text. -/
def lastText : Value → Option Text
  | .String s => some s
  | .Sequence items => lastTextItems items
  | .Mapping entries => lastTextEntries entries
  | .Tagged _ v => v.lastText
  | _ => none
/-- The text the last item ends in. -/
def lastTextItems : List Value → Option Text
  | [] => none
  | [v] => v.lastText
  | _ :: w :: rest => lastTextItems (w :: rest)
/-- The text the value of the last entry ends in. -/
def lastTextEntries : List (Value × Value) → Option Text
  | [] => none
  | [(_, v)] => v.lastText
  | _ :: q :: rest => lastTextEntries (q :: rest)
end

/-- The text ends in a line break. -/
def EndsInBreak (o : Option Text) : Prop := ∃ s ∈ o, s.getLast? = some '\n'

@[simp] theorem not_endsInBreak_none : ¬EndsInBreak none := by simp [EndsInBreak]

@[simp] theorem endsInBreak_some {s : Text} : EndsInBreak (some s) ↔ s.getLast? = some '\n' := by
  simp [EndsInBreak]

mutual
/-- A value is changed exactly when the text it ends in has a line break to lose. -/
theorem chomp_eq_self_iff : ∀ v : Value, v.chomp = v ↔ ¬EndsInBreak v.lastText
  | .Null | .Boolean _ | .Number _ => by simp [chomp, lastText]
  | .String s => by simp [chomp, lastText, Text.chomp_eq_self_iff]
  | .Sequence items => by simp [chomp, lastText, chompItems_eq_self_iff items]
  | .Mapping entries => by simp [chomp, lastText, chompEntries_eq_self_iff entries]
  | .Tagged tag v => by simp [chomp, lastText, chomp_eq_self_iff v]
theorem chompItems_eq_self_iff :
    ∀ items : List Value, chompItems items = items ↔ ¬EndsInBreak (lastTextItems items)
  | [] => by simp [chompItems, lastTextItems]
  | [v] => by simp [chompItems, lastTextItems, chomp_eq_self_iff v]
  | v :: w :: rest => by simp [chompItems, lastTextItems, chompItems_eq_self_iff (w :: rest)]
theorem chompEntries_eq_self_iff :
    ∀ entries : List (Value × Value),
      chompEntries entries = entries ↔ ¬EndsInBreak (lastTextEntries entries)
  | [] => by simp [chompEntries, lastTextEntries]
  | [(k, v)] => by simp [chompEntries, lastTextEntries, chomp_eq_self_iff v]
  | p :: q :: rest => by
    simp [chompEntries, lastTextEntries, chompEntries_eq_self_iff (q :: rest)]
end

end Value

namespace Mapping

theorem chomp_append (m : Mapping) (k v : Value) :
    Value.chompEntries (m ++ [(k, v)]) = m ++ [(k, v.chomp)] := by
  induction m with
  | nil => rfl
  | cons p m ih =>
    cases m with
    | nil => rfl
    | cons q m => simpa [Value.chompEntries] using ih

theorem chompItems_append (items : List Value) (v : Value) :
    Value.chompItems (items ++ [v]) = items ++ [v.chomp] := by
  induction items with
  | nil => rfl
  | cons w items ih =>
    cases items with
    | nil => rfl
    | cons x items => simpa [Value.chompItems] using ih

theorem keys_chomp (m : Mapping) : keys (Value.chompEntries m) = keys m := by
  rcases List.eq_nil_or_concat m with rfl | ⟨init, ⟨k, v⟩, rfl⟩
  · rfl
  · rw [List.concat_eq_append, chomp_append]
    simp

end Mapping

/-! ## The library -/

/-- The emitter and the parser: `serde_yaml_ng::from_str` to a value,
`Deserializer::from_str` over a stream of documents, and
`serde_yaml_ng::to_string` of a value. -/
structure Yaml where
  from_str : Text → Except String Value
  documents : Text → List (Except String Value)
  to_string : Value → Except String Text

/-- No mapping inside the value has a key twice, which is what the parser
guarantees of its results and `Mapping` of the mappings built by inserting. -/
inductive Value.Unique : Value → Prop
  | Null : Unique .Null
  | Boolean (b : Bool) : Unique (.Boolean b)
  | Number (n : AgentSpace.Number) : Unique (.Number n)
  | String (s : Text) : Unique (.String s)
  | Sequence (items : List Value) (h : ∀ v ∈ items, Unique v) : Unique (.Sequence items)
  | Mapping (entries : AgentSpace.Mapping) (hkeys : (Mapping.keys entries).Nodup)
      (hk : ∀ p ∈ entries, Unique p.1) (hv : ∀ p ∈ entries, Unique p.2) :
      Unique (.Mapping entries)
  | Tagged (tag : Text) (value : Value) (h : Unique value) : Unique (.Tagged tag value)

theorem Value.Unique.chomp {v : Value} (h : v.Unique) : v.chomp.Unique := by
  induction h with
  | Null => exact .Null
  | Boolean b => exact .Boolean b
  | Number n => exact .Number n
  | String s => exact .String _
  | Tagged tag v _ ih => exact .Tagged tag _ ih
  | Sequence items h ih =>
    refine .Sequence _ fun v hv => ?_
    rcases List.eq_nil_or_concat items with rfl | ⟨init, last, rfl⟩
    · simp [Value.chompItems] at hv
    · rw [List.concat_eq_append] at h ih hv
      rw [Mapping.chompItems_append, List.mem_append, List.mem_singleton] at hv
      rcases hv with hv | rfl
      · exact h v (by simp [hv])
      · exact ih last (by simp)
  | Mapping entries hkeys hk hv _ ihv =>
    rcases List.eq_nil_or_concat entries with rfl | ⟨init, ⟨k, v⟩, rfl⟩
    · exact .Mapping _ (by simp [Value.chompEntries]) (by simp [Value.chompEntries])
        (by simp [Value.chompEntries])
    · rw [List.concat_eq_append] at hkeys hk hv ihv ⊢
      refine .Mapping _ ?_ (fun p hp => ?_) fun p hp => ?_
      · rw [Mapping.keys_chomp]
        exact hkeys
      · rw [Mapping.chomp_append, List.mem_append, List.mem_singleton] at hp
        rcases hp with hp | rfl
        · exact hk p (by simp [hp])
        · exact hk (k, v) (by simp)
      · rw [Mapping.chomp_append, List.mem_append, List.mem_singleton] at hp
        rcases hp with hp | rfl
        · exact hv p (by simp [hp])
        · exact ihv (k, v) (by simp)

/-- What the services rely on. The parser rejects duplicate keys. What the
emitter writes is read back as the value it was given; it ends its output with a
line break, and no line of it but the first starts with `---`, which would end
the document. Without that final line break the same value is read, except that
a block scalar at the very end loses a line break of its own with it. -/
structure Yaml.RoundTrips (yaml : Yaml) : Prop where
  unique : ∀ {s v}, yaml.from_str s = .ok v → v.Unique
  documents : ∀ {v s}, v.Unique → yaml.to_string v = .ok s → yaml.documents s = [.ok v]
  ends_line : ∀ {v s}, yaml.to_string v = .ok s → ∃ t, s = t ++ ['\n']
  one_document : ∀ {v s}, yaml.to_string v = .ok s → ¬ "\n---".toList <:+: s
  from_str_chomped : ∀ {v t}, v.Unique → yaml.to_string v = .ok (t ++ ['\n']) →
    ∃ w, yaml.from_str t = .ok w ∧ (w = v ∨ w = v.chomp)

/-- The library cut down to one value and its text. It shows that the assumptions
can be met, and agrees with the real one wherever it does not give up. -/
def Yaml.only (value : Value) (text : Text) : Yaml where
  from_str s := if s = text ∨ s ++ ['\n'] = text then .ok value else .error "unsupported"
  documents s := if s = text then [.ok value] else [.error "unsupported"]
  to_string v := if v = value then .ok text else .error "unsupported"

theorem Yaml.only_roundTrips {value : Value} {t : Text} (hvalue : value.Unique)
    (hone : ¬"\n---".toList <:+: t ++ ['\n']) : (Yaml.only value (t ++ ['\n'])).RoundTrips := by
  have hstr : ∀ {v s}, (Yaml.only value (t ++ ['\n'])).to_string v = .ok s →
      v = value ∧ s = t ++ ['\n'] := by
    intro v s h
    rw [Yaml.only] at h
    dsimp only at h
    split_ifs at h with hv
    exact ⟨hv, by simpa using h.symm⟩
  constructor
  · intro s v h
    rw [Yaml.only] at h
    dsimp only at h
    split_ifs at h
    obtain rfl : value = v := by simpa using h
    exact hvalue
  · intro v s _ h
    obtain ⟨rfl, rfl⟩ := hstr h
    simp [Yaml.only]
  · intro v s h
    exact ⟨t, (hstr h).2⟩
  · intro v s h
    rw [(hstr h).2]
    exact hone
  · intro v u _ h
    obtain ⟨rfl, hu⟩ := hstr h
    exact ⟨v, if_pos (Or.inr hu), Or.inl rfl⟩

end AgentSpace
