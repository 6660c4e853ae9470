/-
What an edit of the environment text keeps: `merge_env` of
`client_service_rs/src/config/adapter.rs`, through the records of agents and gateways.

The text of a record shows the literal entries of a map only. Another text replaces the
map as a whole, and with it the references to secrets that no text can say.
-/
import AgentSpace.Config.Adapter

set_option autoImplicit false

namespace AgentSpace.Config

open Text Lib

/-! ## The entries of an environment -/

/-- The entry of an environment under a name: its map's, and else the one its text has. -/
def env_entry (env : Option ValueMap) (env_text : Option Text) (key : Text) : Option (ConfigValue Text) :=
  (env.bind (·[key]?)).or (((env_text.map parse_env_vars).bind (·[key]?)).map .Literal)

/-- What a text that is put over a map should leave: the entries the text has, and the
references of the map to secrets under other names. -/
def edited_entry (existing : ValueMap) (incoming : TextMap) (key : Text) : Option (ConfigValue Text) :=
  match incoming[key]? with
  | some value => some (.Literal value)
  | none => existing[key]?.filter ConfigValue.is_secret

/-- The edits that leave what they should: the text shown is given back and says what the
map's literals are, or the text given names each of the map's references. -/
def EditKeepsSecrets (env : ValueMap) (incoming_text : Text) : Prop :=
  if env_to_text (some env) none = incoming_text then parse_env_vars incoming_text = literals env
  else ∀ key name, env[key]? = some (.Secret name) → key ∈ parse_env_vars incoming_text

/-! ## Blank texts -/

theorem mem_of_mem_split {c d : Char} {t part : Text} (hpart : part ∈ split c t) (hd : d ∈ part) :
    d ∈ t := by
  have hjoin : ∀ parts : List Text, part ∈ parts → d ∈ join [c] parts := by
    intro parts hparts
    induction parts with
    | nil => cases hparts
    | cons p rest ih =>
      cases rest with
      | nil =>
        rw [join_singleton]
        rwa [List.mem_singleton.1 hparts] at hd
      | cons q rest =>
        rw [join_cons_cons, List.mem_append, List.mem_append]
        rcases List.mem_cons.1 hparts with rfl | hparts
        · exact Or.inl (Or.inl hd)
        · exact Or.inr (ih hparts)
  rw [← join_split c t]
  exact hjoin _ hpart

theorem parse_env_vars_blank {raw : Text} (hblank : trim raw = []) : parse_env_vars raw = ∅ := by
  rw [Std.ExtTreeMap.eq_empty_iff_forall_not_mem]
  intro name hname
  obtain ⟨part, hpart, value, hline⟩ :=
    (lines_name_iff raw name).1 ((mem_parse_env_vars_iff raw name).1 hname)
  have hpart_blank : trim part = [] := by
    refine List.eq_nil_iff_forall_not_mem.2 fun c hc => ?_
    have hne : trim part ≠ [] := List.ne_nil_of_mem hc
    have hhead : (trim part).head hne ∈ (trim part).head? := List.head_mem_head? hne
    have hmem : (trim part).head hne ∈ raw :=
      mem_of_mem_split hpart (mem_of_mem_trim (List.head_mem hne))
    have := mem_trim hmem (head?_trim part _ hhead)
    rw [hblank] at this
    cases this
  rw [parse_env_line, if_pos (Or.inl hpart_blank)] at hline
  cases hline

/-! ## Literals -/

variable {β : Type}

theorem keyed_toList (map : Std.ExtTreeMap Text β compare) : Keyed Prod.fst map.toList := by
  refine List.pairwise_map.2 (Std.ExtTreeMap.distinct_keys_toList.imp fun hne heq => hne ?_)
  rw [heq]
  exact Std.ReflCmp.compare_self

theorem find_key_toList (map : Std.ExtTreeMap Text β compare) (key : Text) :
    find_key Prod.fst map.toList key = map[key]?.map fun value => (key, value) := by
  refine Option.ext fun entry => ?_
  rw [find_key_eq_some (keyed_toList map), Option.map_eq_some_iff]
  constructor
  · rintro ⟨hmem, rfl⟩
    exact ⟨entry.2, Std.ExtTreeMap.mem_toList_iff_getElem?_eq_some.1 hmem, rfl⟩
  · rintro ⟨value, hget, rfl⟩
    exact ⟨Std.ExtTreeMap.mem_toList_iff_getElem?_eq_some.2 hget, rfl⟩

theorem getElem?_literals (map : ValueMap) (key : Text) :
    (literals map)[key]? = map[key]?.bind ConfigValue.as_literal := by
  have hkeyed : Keyed Prod.fst (map.toList.filterMap fun p =>
      p.2.as_literal.map fun literal => (p.1, literal)) := by
    have hdistinct : Keyed Prod.fst map.toList := keyed_toList map
    unfold Keyed at hdistinct ⊢
    refine List.Nodup.sublist ?_ hdistinct
    generalize map.toList = items
    induction items with
    | nil => exact List.Sublist.slnil
    | cons p rest ih =>
      rw [List.filterMap_cons]
      cases hp : p.2.as_literal with
      | none => exact ih.cons _
      | some literal => exact ih.cons_cons _
  refine Option.ext fun value => ?_
  unfold literals
  rw [getElem?_ofList_eq_some hkeyed, List.mem_filterMap, Option.bind_eq_some_iff]
  constructor
  · rintro ⟨entry, hmem, hliteral⟩
    obtain ⟨literal, hentry, heq⟩ := Option.map_eq_some_iff.1 hliteral
    obtain ⟨rfl, rfl⟩ := Prod.mk.inj heq
    exact ⟨entry.2, Std.ExtTreeMap.mem_toList_iff_getElem?_eq_some.1 hmem, hentry⟩
  · rintro ⟨existing, hget, hliteral⟩
    exact ⟨(key, existing), Std.ExtTreeMap.mem_toList_iff_getElem?_eq_some.2 hget,
      by rw [hliteral]; rfl⟩

theorem edited_entry_literals (existing : ValueMap) (key : Text) :
    edited_entry existing (literals existing) key = existing[key]? := by
  unfold edited_entry
  rw [getElem?_literals]
  cases hget : existing[key]? with
  | none => rfl
  | some value =>
    cases value with
    | Literal literal => rfl
    | Secret name => rfl

/-! ## The map of an environment -/

/-- **The merged environment** has the entries it should have exactly for these edits. -/
theorem merge_env_entries_iff (env : ValueMap) (incoming_text : Text) :
    (∀ key, env_entry (merge_env (some env) none incoming_text).1
        (merge_env (some env) none incoming_text).2 key
          = edited_entry env (parse_env_vars incoming_text) key)
      ↔ EditKeepsSecrets env incoming_text := by
  unfold merge_env EditKeepsSecrets
  by_cases hsame : env_to_text (some env) none = incoming_text
  · rw [if_pos hsame, if_pos hsame]
    have hentry : ∀ key, env_entry (some env) none key = env[key]? := fun key => Option.or_none
    constructor
    · intro h
      refine Std.ExtTreeMap.ext_getElem? fun key => ?_
      have hkey := h key
      rw [hentry] at hkey
      rw [getElem?_literals, hkey]
      unfold edited_entry
      cases (parse_env_vars incoming_text)[key]? with
      | some value => rfl
      | none =>
        cases env[key]? with
        | none => rfl
        | some value =>
          cases value with
          | Literal literal => rfl
          | Secret name => rfl
    · intro hliterals key
      rw [hliterals, edited_entry_literals, hentry]
  · rw [if_neg hsame, if_neg hsame]
    have hentry : ∀ key, env_entry none (text_to_env incoming_text) key
        = (parse_env_vars incoming_text)[key]?.map .Literal := by
      intro key
      unfold env_entry text_to_env
      by_cases hblank : trim incoming_text = []
      · rw [if_pos hblank, parse_env_vars_blank hblank, Std.ExtTreeMap.getElem?_empty]
        rfl
      · rw [if_neg hblank]
        rfl
    constructor
    · intro h key name hsecret
      have hkey := h key
      rw [hentry] at hkey
      rw [Std.ExtTreeMap.mem_iff_isSome_getElem?]
      cases hread : (parse_env_vars incoming_text)[key]? with
      | some value => rfl
      | none =>
        rw [edited_entry, hread, hsecret] at hkey
        cases hkey
    · intro hnamed key
      rw [hentry, edited_entry]
      cases hread : (parse_env_vars incoming_text)[key]? with
      | some value => rfl
      | none =>
        cases hget : env[key]? with
        | none => rfl
        | some value =>
          cases value with
          | Literal literal => rfl
          | Secret name =>
            have hmem := hnamed key name hget
            rw [Std.ExtTreeMap.mem_iff_isSome_getElem?, hread] at hmem
            cases hmem

/-! ## The secrets of a gateway -/

/-- What is put into a map entry by entry. -/
theorem getElem?_foldl_insert (keep : Text × β → Option (ConfigValue Text))
    {items : List (Text × β)} (hkeyed : Keyed Prod.fst items) (map : ValueMap) (key : Text) :
    (items.foldl (fun map p => ((keep p).map (map.insert p.1)).getD map) map)[key]?
      = ((find_key Prod.fst items key).bind keep).or map[key]? := by
  induction items generalizing map with
  | nil => rfl
  | cons p rest ih =>
    obtain ⟨hnot, hrest⟩ := List.nodup_cons.1 hkeyed
    rw [List.foldl_cons, ih hrest]
    by_cases hp : p.1 = key
    · have hfind : find_key Prod.fst rest key = none :=
        find_key_eq_none.2 (hp ▸ hnot)
      have hhead : find_key Prod.fst (p :: rest) key = some p := by
        simp [find_key, hp]
      rw [hfind, hhead]
      cases hkeep : keep p with
      | none => simp [hkeep]
      | some value => simp [hkeep, hp]
    · have htail : find_key Prod.fst (p :: rest) key = find_key Prod.fst rest key := by
        simp [find_key, hp]
      rw [htail]
      cases hkeep : keep p with
      | none => rfl
      | some value =>
        have hne : compare p.1 key ≠ .eq := fun heq => hp (Std.LawfulEqCmp.eq_of_compare heq)
        simp [Std.ExtTreeMap.getElem?_insert, hne]

/-- **The secrets of a gateway**: each has what the record says, and the references that
the record does not name are kept. -/
theorem getElem?_merge_gateway_secrets (existing : ValueMap) (incoming : TextMap) (key : Text) :
    (merge_gateway_secrets existing incoming)[key]? = edited_entry existing incoming key := by
  unfold merge_gateway_secrets
  by_cases hsame : literals existing = incoming
  · rw [if_pos hsame, ← hsame, edited_entry_literals]
  · rw [if_neg hsame]
    have hkept : (fun (merged : ValueMap) (p : Text × ConfigValue Text) =>
          if p.2.is_secret ∧ p.1 ∉ incoming then merged.insert p.1 p.2 else merged)
        = fun merged p => ((if p.2.is_secret ∧ p.1 ∉ incoming then some p.2 else none).map
            (merged.insert p.1)).getD merged := by
      funext merged p
      split <;> rfl
    have hall : (fun (merged : ValueMap) (p : Text × Text) => merged.insert p.1 (.Literal p.2))
        = fun merged p => ((some (ConfigValue.Literal p.2)).map (merged.insert p.1)).getD merged := rfl
    dsimp only
    rw [hkept, hall, getElem?_foldl_insert (fun p => some (ConfigValue.Literal p.2)) (keyed_toList incoming),
      getElem?_foldl_insert (fun p : Text × ConfigValue Text =>
        if p.2.is_secret ∧ p.1 ∉ incoming then some p.2 else none) (keyed_toList existing),
      find_key_toList, find_key_toList, edited_entry]
    cases hincoming : incoming[key]? with
    | some value => rfl
    | none =>
      have hnot : key ∉ incoming := by
        rw [Std.ExtTreeMap.mem_iff_isSome_getElem?, hincoming]
        exact Bool.false_ne_true
      cases existing[key]? with
      | none => rfl
      | some value =>
        cases value with
        | Literal literal => rfl
        | Secret name => simp [hnot, ConfigValue.is_secret, Option.filter]

/-! ## Edits through records -/

/-- What is found is changed, and found again. -/
theorem find_patch_first {α : Type} {found : α → Bool} {items : List α} {item : α} (patch : α → α)
    (hkeeps : ∀ other, found (patch other) = found other) (hfind : items.find? found = some item) :
    ∃ items', patch_first found patch items = some items' ∧ items'.find? found = some (patch item) := by
  obtain ⟨hitem, before, after, hitems, hbefore⟩ := List.find?_eq_some_iff_append.1 hfind
  have hnot : ∀ b ∈ before, found b = false := fun b hb => by simpa using hbefore b hb
  refine ⟨before ++ patch item :: after, patch_first_eq_some.2 ⟨before, item, after, hitems, hnot, hitem, rfl⟩,
    List.find?_eq_some_iff_append.2 ⟨by rw [hkeeps, hitem], before, after, rfl, hbefore⟩⟩

/-- **The environment text of a record**: the edited environment of an agent or a gateway
has the entries of the text and the other references to secrets exactly for the edits that
keep them. The secrets of a gateway always do. -/
theorem edited_environment_iff (document : ConfigDocument) : (∀ (record : AgentRecord) slot env,
      (document.spec.agents.find? fun item => item.id = record.agent_id) = some slot →
      slot.env = some env → slot.env_text = none →
      ∃ next edited, update_agent document record = .ok next
        ∧ (next.spec.agents.find? fun item => item.id = record.agent_id) = some edited
        ∧ ((∀ key, env_entry edited.env edited.env_text key
              = edited_entry env (parse_env_vars record.env_vars) key)
            ↔ EditKeepsSecrets env record.env_vars))
    ∧ ∀ (record : GatewayRecord) slot env,
      (document.spec.gateways.find? fun item => item.id = record.gateway_id) = some slot →
      slot.env = some env → slot.env_text = none →
      ∃ next edited, update_gateway document record = .ok next
        ∧ (next.spec.gateways.find? fun item => item.id = record.gateway_id) = some edited
        ∧ ((∀ key, env_entry edited.env edited.env_text key
              = edited_entry env (parse_env_vars record.env_vars) key)
            ↔ EditKeepsSecrets env record.env_vars)
        ∧ ∀ key, edited.secrets[key]? = edited_entry slot.secrets record.secrets key := by
  refine ⟨fun record slot env hfind henv htext => ?_, fun record slot env hfind henv htext => ?_⟩
  · obtain ⟨agents, hpatch, hfound⟩ := find_patch_first (patch_agent record) (fun _ => rfl) hfind
    refine ⟨with_agents document agents, patch_agent record slot, ?_, hfound, ?_⟩
    · rw [update_agent, hpatch]
    · have hentries := merge_env_entries_iff env record.env_vars
      rw [← henv, ← htext] at hentries
      exact hentries
  · obtain ⟨gateways, hpatch, hfound⟩ := find_patch_first (patch_gateway record) (fun _ => rfl) hfind
    refine ⟨with_gateways document gateways, patch_gateway record slot, ?_, hfound, ?_, ?_⟩
    · rw [update_gateway, hpatch]
    · have hentries := merge_env_entries_iff env record.env_vars
      rw [← henv, ← htext] at hentries
      exact hentries
    · exact fun key => getElem?_merge_gateway_secrets slot.secrets record.secrets key

/-! ## A reference that no text shows -/

/-- A map with a reference to a secret only. -/
def token_env : ValueMap :=
  Std.ExtTreeMap.ofList [("TOKEN".toList, .Secret ⟨"TOKEN".toList, by decide⟩)] compare

/-- The record of an agent with this environment text. -/
def main_record (env_vars : String) : AgentRecord where
  agent_id := "main".toList
  name := "Main".toList
  harness := .Echo
  system_prompt := []
  skills := []
  env_vars := env_vars.toList
  connection_id := none
  cli := none

theorem edited_environment_token :
    ∃ next edited, update_agent (document_with_env token_env) (main_record "TOKEN=x") = .ok next
      ∧ (next.spec.agents.find? fun item => item.id = "main".toList) = some edited
      ∧ ((∀ key, env_entry edited.env edited.env_text key
            = edited_entry token_env (parse_env_vars "TOKEN=x".toList) key)
          ↔ EditKeepsSecrets token_env "TOKEN=x".toList) :=
  (edited_environment_iff (document_with_env token_env)).1 (main_record "TOKEN=x") _ token_env rfl rfl rfl

/-- **A reference is lost** when a variable is added: the record shows an empty text for the
map, and with the text `B=1` in its place the agent has `B` only. -/
theorem added_variable_deletes_reference :
    (get_agent (document_with_env token_env) "main".toList).map (·.env_vars) = some []
      ∧ "TOKEN".toList ∉ parse_env_vars "B=1".toList
      ∧ ∃ next, update_agent (document_with_env token_env) (main_record "B=1") = .ok next
        ∧ next.spec.agents.map (fun agent => env_entry agent.env agent.env_text "TOKEN".toList) = [none]
        ∧ edited_entry token_env (parse_env_vars "B=1".toList) "TOKEN".toList
          = some (.Secret ⟨"TOKEN".toList, by decide⟩) :=
  ⟨by decide +kernel, by decide +kernel, _, rfl, by decide +kernel, by decide +kernel⟩

end AgentSpace.Config
