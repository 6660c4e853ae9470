/-
The environment of a launch: `client_service_rs/src/config/resolver.rs`.

An environment is a map or a text. The resolver reads the text of either, a map being
written out for it, and then sets the entries of the map one by one, secrets included.
-/
import AgentSpace.Config.Secrets

set_option autoImplicit false

namespace AgentSpace.Config

open Text

/-! ## Environment texts -/

/-- A line without the carriage return of its ending. -/
def strip_carriage_return (line : Text) : Text := (strip_suffix ['\r'] line).getD line

/-- `str::lines`. -/
def lines (t : Text) : List Text :=
  let parts := split '\n' t
  parts.dropLast.map strip_carriage_return ++ parts.getLast?.toList.filter fun last => last ≠ []

/-- `trim_matching_quotes`. -/
def trim_matching_quotes (value : Text) : Text :=
  if 2 ≤ value.length then
    if (value.head? = some '\'' ∧ value.getLast? = some '\'')
        ∨ (value.head? = some '"' ∧ value.getLast? = some '"') then
      value.tail.dropLast
    else value
  else value

/-- The loop body of `parse_env_vars`: the variable of a line. -/
def parse_env_line (raw_line : Text) : Option (Text × Text) :=
  let line := trim raw_line
  if line = [] ∨ line.head? = some '#' then none
  else
    let (key, value) := (split_once '=' line).getD (line, [])
    let key := trim key
    if key = [] then none
    else some (key, trim_matching_quotes (trim value))

/-- `parse_env_vars`. -/
def parse_env_vars (raw : Text) : TextMap :=
  (lines raw).foldl (fun env raw_line =>
    match parse_env_line raw_line with
    | some (key, value) => env.insert key value
    | none => env) ∅

/-! ## Resolving -/

/-- `MissingSecret`. -/
structure MissingSecret where
  name : Text
  field : Text

/-- `ResolveError`. -/
inductive ResolveError where
  | Missing (missing : List MissingSecret)
  | Store (error : SecretStoreError)

section Resolver

variable (resolve : Text → Except SecretStoreError (Option Text))

/-- `resolve_one`, where `resolve` is `SecretStore::resolve` of the store. -/
def resolve_one (value : ConfigValue Text) (field : Text) (missing : List MissingSecret) :
    Except ResolveError (Option Text × List MissingSecret) :=
  match value with
  | .Literal literal => .ok (some literal, missing)
  | .Secret name =>
    match resolve name.as_str with
    | .error e => .error (.Store e)
    | .ok none => .ok (none, missing ++ [⟨name.as_str, field⟩])
    | .ok (some resolved) => .ok (some resolved, missing)

/-- The loop of the resolvers over the entries of a map. -/
def resolve_entries (field_of : Text → Text) (env : TextMap) (missing : List MissingSecret) :
    List (Text × ConfigValue Text) → Except ResolveError (TextMap × List MissingSecret)
  | [] => .ok (env, missing)
  | (key, value) :: rest =>
    match resolve_one resolve value (field_of key) missing with
    | .error e => .error e
    | .ok (some resolved, missing) =>
      resolve_entries field_of (env.insert key resolved) missing rest
    | .ok (none, missing) => resolve_entries field_of env missing rest

/-- The environment of a resource with `env` and `env_text`: what its text says, and then
the entries of its map. -/
def resolve_env (field_of : Text → Text) (env : Option ValueMap) (env_text : Option Text)
    (missing : List MissingSecret) : Except ResolveError (TextMap × List MissingSecret) :=
  resolve_entries resolve field_of (parse_env_vars (env_to_text env env_text)) missing
    ((env.map Std.ExtTreeMap.toList).getD [])

/-- `resolve_agent_env`: the environment, and what `missing` has become. -/
def resolve_agent_env (document : ConfigDocument) (agent_id : Text) (missing : List MissingSecret) :
    Except ResolveError (TextMap × List MissingSecret) :=
  match document.spec.agents.find? fun item => item.id = agent_id with
  | none => .ok (∅, missing)
  | some agent =>
    resolve_env resolve (fun key => "agents/".toList ++ agent_id ++ "/env/".toList ++ key)
      agent.env agent.env_text missing

@[inherit_doc resolve_agent_env]
def resolve_kernel_env (document : ConfigDocument) (harness : HarnessName)
    (missing : List MissingSecret) : Except ResolveError (TextMap × List MissingSecret) :=
  match document.spec.kernel_configs.find? fun item => item.harness = harness with
  | none => .ok (∅, missing)
  | some kernel =>
    resolve_env resolve
      (fun key => "kernelConfigs/".toList ++ harness.as_str ++ "/env/".toList ++ key)
      kernel.env kernel.env_text missing

/-- `resolve_gateway_env`. -/
def resolve_gateway_env (document : ConfigDocument) (gateway_id : Text) :
    Except ResolveError TextMap :=
  match document.spec.gateways.find? fun item => item.id = gateway_id with
  | none => .ok ∅
  | some gateway => do
    let (env, missing) ← resolve_env resolve
      (fun key => "gateways/".toList ++ gateway_id ++ "/env/".toList ++ key)
      gateway.env gateway.env_text []
    let (env, missing) ← resolve_entries resolve
      (fun key => "gateways/".toList ++ gateway_id ++ "/secrets/".toList ++ key)
      env missing gateway.secrets.toList
    if missing.isEmpty then .ok env else .error (.Missing missing)

end Resolver

/-! ## What a text names -/

/-- A line names a variable. -/
def LineNames (line name : Text) : Prop := ∃ value, parse_env_line line = some (name, value)

theorem trim_strip_carriage_return (line : Text) : trim (strip_carriage_return line) = trim line := by
  unfold strip_carriage_return
  cases hstrip : strip_suffix ['\r'] line with
  | none => rfl
  | some rest =>
    obtain rfl := strip_suffix_eq_some hstrip
    rw [Option.getD_some, trim, trim, trim_start, trim_start, List.dropWhile_append]
    by_cases hblank : (rest.dropWhile is_whitespace).isEmpty = true
    · rw [if_pos hblank, List.isEmpty_iff.1 hblank]
      rfl
    · rw [if_neg hblank, trim_end, trim_end, List.rdropWhile_concat, if_pos (by decide)]

theorem parse_env_line_strip (line : Text) :
    parse_env_line (strip_carriage_return line) = parse_env_line line := by
  unfold parse_env_line
  rw [trim_strip_carriage_return]

theorem lines_name_iff (t name : Text) :
    (∃ line ∈ lines t, LineNames line name) ↔ ∃ part ∈ split '\n' t, LineNames part name := by
  have hparts : split '\n' t ≠ [] := split_ne_nil '\n' t
  have hsplit : split '\n' t = (split '\n' t).dropLast ++ [(split '\n' t).getLast hparts] :=
    (List.dropLast_append_getLast hparts).symm
  have hblank : ¬LineNames [] name := by
    rintro ⟨value, h⟩
    cases h
  unfold lines
  dsimp only
  rw [List.getLast?_eq_some_getLast hparts]
  constructor
  · rintro ⟨line, hline, hnames⟩
    rcases List.mem_append.1 hline with hline | hline
    · obtain ⟨part, hpart, rfl⟩ := List.mem_map.1 hline
      refine ⟨part, List.mem_of_mem_dropLast hpart, ?_⟩
      unfold LineNames at hnames ⊢
      rwa [parse_env_line_strip] at hnames
    · obtain rfl : line = (split '\n' t).getLast hparts := by
        simpa using (List.mem_filter.1 hline).1
      exact ⟨_, List.getLast_mem hparts, hnames⟩
  · rintro ⟨part, hpart, hnames⟩
    rw [hsplit] at hpart
    rcases List.mem_append.1 hpart with hpart | hpart
    · refine ⟨_, List.mem_append_left _ (List.mem_map.2 ⟨part, hpart, rfl⟩), ?_⟩
      unfold LineNames
      rwa [parse_env_line_strip]
    · rw [List.mem_singleton.1 hpart] at hnames
      have hne : (split '\n' t).getLast hparts ≠ [] := by
        intro hempty
        rw [hempty] at hnames
        exact hblank hnames
      exact ⟨_, List.mem_append_right _ (by simpa using hne), hnames⟩

theorem mem_parse_env_vars_iff (raw name : Text) :
    name ∈ parse_env_vars raw ↔ ∃ line ∈ lines raw, LineNames line name := by
  unfold parse_env_vars
  suffices hgeneral : ∀ (items : List Text) (env : TextMap),
      (name ∈ items.foldl (fun env raw_line => match parse_env_line raw_line with
          | some (key, value) => env.insert key value
          | none => env) env)
        ↔ name ∈ env ∨ ∃ line ∈ items, LineNames line name by
    rw [hgeneral]
    simp
  intro items
  induction items with
  | nil => simp
  | cons line rest ih =>
    intro env
    rw [List.foldl_cons, ih, List.exists_mem_cons_iff]
    unfold LineNames
    cases hline : parse_env_line line with
    | none => simp
    | some variable_ =>
      obtain ⟨key, value⟩ := variable_
      rw [Std.ExtTreeMap.mem_insert, Std.LawfulEqCmp.compare_eq_iff_eq]
      simp only [Option.some.injEq, Prod.mk.injEq, exists_and_left, exists_eq', and_true]
      tauto

theorem mem_split_join {c : Char} {texts : List Text} {part : Text} (hne : texts ≠ []) :
    part ∈ split c (join [c] texts) ↔ ∃ t ∈ texts, part ∈ split c t := by
  induction texts with
  | nil => exact absurd rfl hne
  | cons t rest ih =>
    cases rest with
    | nil => simp
    | cons u rest =>
      have hsplit : split c (t ++ c :: join [c] (u :: rest))
          = split c t ++ split c (join [c] (u :: rest)) :=
        List.splitOn_append_cons_self t _
      rw [join_cons_cons, List.append_assoc, List.singleton_append, hsplit, List.mem_append,
        ih (List.cons_ne_nil _ _)]
      exact (List.exists_mem_cons_iff (fun t => part ∈ split c t) t (u :: rest)).symm

/-- The variables that a literal entry names when it is written as `KEY=VALUE`. -/
def EntryNames (key literal name : Text) : Prop :=
  ∃ line ∈ split '\n' (key ++ '=' :: literal), LineNames line name

/-- The literal entries of a map name no other variables than these. -/
def NamesOnly (env : ValueMap) (known : Text → Prop) : Prop :=
  ∀ key literal, env[key]? = some (.Literal literal) → ∀ name, EntryNames key literal name → known name

/-- **The text of a map** names what its literal entries name. -/
theorem mem_written_out (env : ValueMap) (name : Text) :
    name ∈ parse_env_vars (env_to_text (some env) none) ↔
      ∃ key literal, env[key]? = some (.Literal literal) ∧ EntryNames key literal name := by
  rw [mem_parse_env_vars_iff, lines_name_iff]
  unfold env_to_text
  dsimp only
  have hmem : ∀ t, (t ∈ env.toList.filterMap fun p =>
        p.2.as_literal.map fun literal => p.1 ++ '=' :: literal)
      ↔ ∃ key literal, env[key]? = some (.Literal literal) ∧ key ++ '=' :: literal = t := by
    intro t
    simp only [List.mem_filterMap, Option.map_eq_some_iff, Prod.exists,
      Std.ExtTreeMap.mem_toList_iff_getElem?_eq_some]
    constructor
    · rintro ⟨key, value, hvalue, literal, hliteral, rfl⟩
      cases value with
      | Secret secret => cases hliteral
      | Literal text =>
        obtain rfl : text = literal := Option.some.inj hliteral
        exact ⟨key, text, hvalue, rfl⟩
    · rintro ⟨key, literal, hvalue, rfl⟩
      exact ⟨key, _, hvalue, literal, rfl, rfl⟩
  by_cases hnone : (env.toList.filterMap fun p =>
      p.2.as_literal.map fun literal => p.1 ++ '=' :: literal) = []
  · rw [hnone]
    refine iff_of_false ?_ ?_
    · rintro ⟨part, hpart, value, hline⟩
      obtain rfl : part = [] := by simpa [split] using hpart
      cases hline
    · rintro ⟨key, literal, hvalue, -⟩
      have := (hmem _).2 ⟨key, literal, hvalue, rfl⟩
      rw [hnone] at this
      cases this
  · constructor
    · rintro ⟨part, hpart, hnames⟩
      obtain ⟨t, ht, hpart⟩ := (mem_split_join hnone).1 hpart
      obtain ⟨key, literal, hvalue, rfl⟩ := (hmem t).1 ht
      exact ⟨key, literal, hvalue, part, hpart, hnames⟩
    · rintro ⟨key, literal, hvalue, part, hpart, hnames⟩
      have ht := (hmem _).2 ⟨key, literal, hvalue, rfl⟩
      exact ⟨part, (mem_split_join hnone).2 ⟨_, ht, hpart⟩, hnames⟩

/-! ## What is resolved -/

section Resolved

variable {resolve : Text → Except SecretStoreError (Option Text)}

/-- The value that an entry stands for. -/
def resolved_value (resolve : Text → Except SecretStoreError (Option Text)) :
    ConfigValue Text → Option Text
  | .Literal literal => some literal
  | .Secret name =>
    match resolve name.as_str with
    | .ok value => value
    | .error _ => none

/-- All secrets that a map refers to have values. -/
def Resolvable (resolve : Text → Except SecretStoreError (Option Text)) (env : ValueMap) : Prop :=
  ∀ (key : Text) (name : SecretName), env[key]? = some (.Secret name) →
    ∃ value, resolve name.as_str = .ok (some value)

theorem resolve_one_ok {value : ConfigValue Text} {field : Text} {missing : List MissingSecret}
    (h : ∀ name, value = .Secret name → ∃ text, resolve name.as_str = .ok (some text)) :
    ∃ text, resolved_value resolve value = some text
      ∧ resolve_one resolve value field missing = .ok (some text, missing) := by
  cases value with
  | Literal literal => exact ⟨literal, rfl, rfl⟩
  | Secret name =>
    obtain ⟨text, htext⟩ := h name rfl
    refine ⟨text, ?_, ?_⟩
    · rw [resolved_value, htext]
    · rw [resolve_one, htext]

theorem resolve_entries_ok {field_of : Text → Text} {entries : List (Text × ConfigValue Text)}
    {env : TextMap} {missing : List MissingSecret}
    (hdistinct : (entries.map Prod.fst).Nodup)
    (h : ∀ entry ∈ entries, ∀ name, entry.2 = .Secret name →
      ∃ text, resolve name.as_str = .ok (some text)) :
    ∃ resolved : TextMap, resolve_entries resolve field_of env missing entries = .ok (resolved, missing)
      ∧ ∀ key : Text, resolved[key]? = match entries.find? fun entry => entry.1 = key with
        | some entry => resolved_value resolve entry.2
        | none => env[key]? := by
  induction entries generalizing env with
  | nil => exact ⟨env, rfl, fun _ => rfl⟩
  | cons entry rest ih =>
    obtain ⟨key, value⟩ := entry
    rw [List.map_cons, List.nodup_cons] at hdistinct
    obtain ⟨text, hvalue, hone⟩ := @resolve_one_ok resolve value (field_of key) missing
      (h (key, value) (List.mem_cons_self ..))
    obtain ⟨resolved, hrest, hget⟩ := @ih (env.insert key text) hdistinct.2
      fun entry hentry => h entry (List.mem_cons_of_mem _ hentry)
    refine ⟨resolved, ?_, fun k => ?_⟩
    · rw [resolve_entries, hone]
      exact hrest
    · rw [hget, List.find?_cons]
      by_cases hk : key = k
      · have hnone : (rest.find? fun entry => entry.1 = k) = none := by
          rw [List.find?_eq_none]
          intro entry hentry heq
          refine hdistinct.1 (List.mem_map.2 ⟨entry, hentry, ?_⟩)
          rw [hk]
          simpa using heq
        rw [hnone]
        simp [hk, hvalue]
      · simp [hk, Std.ExtTreeMap.getElem?_insert]

/-- **The entries of a map** are set to their values, and everything else stays. -/
theorem resolve_map_ok {field_of : Text → Text} {entries : ValueMap} {env : TextMap}
    {missing : List MissingSecret} (h : Resolvable resolve entries) :
    ∃ resolved : TextMap,
      resolve_entries resolve field_of env missing entries.toList = .ok (resolved, missing)
      ∧ ∀ key : Text, resolved[key]? = match entries[key]? with
        | some value => resolved_value resolve value
        | none => env[key]? := by
  have hdistinct : (entries.toList.map Prod.fst).Nodup := by
    rw [Std.ExtTreeMap.map_fst_toList_eq_keys]
    exact Std.ExtTreeMap.nodup_keys
  obtain ⟨resolved, hrun, hget⟩ := @resolve_entries_ok resolve field_of entries.toList env missing hdistinct
    fun entry hentry name hname => h entry.1 name (by
      rw [Std.ExtTreeMap.mem_toList_iff_getElem?_eq_some.1 hentry, hname])
  refine ⟨resolved, hrun, fun key => ?_⟩
  rw [hget]
  cases hfind : entries.toList.find? fun entry => entry.1 = key with
  | some entry =>
    obtain rfl : entry.1 = key := by simpa using List.find?_some hfind
    rw [Std.ExtTreeMap.mem_toList_iff_getElem?_eq_some.1 (List.mem_of_find?_eq_some hfind)]
  | none =>
    cases hvalue : entries[key]? with
    | none => rfl
    | some value =>
      have hnone := List.find?_eq_none.1 hfind (key, value)
        (Std.ExtTreeMap.mem_toList_iff_getElem?_eq_some.2 hvalue)
      simp at hnone

/-- The environment has exactly the keys of the map, each with its value. -/
def Faithful (resolve : Text → Except SecretStoreError (Option Text))
    (value_of : Text → Option (ConfigValue Text)) (resolved : TextMap) : Prop :=
  ∀ key : Text, resolved[key]? = (value_of key).bind (resolved_value resolve)

/-- A map without a text resolves to its entries over what it names when it is written
out. -/
theorem resolve_env_ok {field_of : Text → Text} {env : ValueMap} {missing : List MissingSecret}
    (h : Resolvable resolve env) :
    ∃ resolved : TextMap,
      resolve_env resolve field_of (some env) none missing = .ok (resolved, missing)
      ∧ ∀ key : Text, resolved[key]? = match env[key]? with
        | some value => resolved_value resolve value
        | none => (parse_env_vars (env_to_text (some env) none))[key]? :=
  resolve_map_ok h

/-- **What is resolved is faithful** exactly if every variable that the written-out map names
has an entry. -/
theorem faithful_iff_names {env : ValueMap} {value_of : Text → Option (ConfigValue Text)}
    {resolved : TextMap}
    (hget : ∀ key : Text, resolved[key]? = match value_of key with
      | some value => resolved_value resolve value
      | none => (parse_env_vars (env_to_text (some env) none))[key]?) :
    Faithful resolve value_of resolved ↔ NamesOnly env fun name => value_of name ≠ none := by
  constructor
  · intro h key literal hliteral name hnames hnone
    have hmem := (mem_written_out env name).2 ⟨key, literal, hliteral, hnames⟩
    rw [Std.ExtTreeMap.mem_iff_isSome_getElem?] at hmem
    have heq := h name
    rw [hget, hnone] at heq
    dsimp only [Option.bind_none] at heq
    rw [heq] at hmem
    cases hmem
  · intro h key
    rw [hget]
    cases hvalue : value_of key with
    | some value => rfl
    | none =>
      have hnot : key ∉ parse_env_vars (env_to_text (some env) none) := by
        intro hmem
        obtain ⟨k, literal, hliteral, hnames⟩ := (mem_written_out env key).1 hmem
        exact h k literal hliteral key hnames hvalue
      exact Std.ExtTreeMap.getElem?_eq_none hnot

end Resolved

/-- **The environment of a launch.** Where all secrets of a map have values, an agent gets
exactly the entries of its map, and a gateway those of its map under those of its
secrets, if and only if no literal entry, written as `KEY=VALUE`, names another variable on one
of its lines. -/
theorem resolved_environment_iff (resolve : Text → Except SecretStoreError (Option Text))
    (document : ConfigDocument) :
    (∀ (agent_id : Text) (agent : Agent) (env : ValueMap) (missing : List MissingSecret),
      (document.spec.agents.find? fun item => item.id = agent_id) = some agent →
      agent.env = some env → agent.env_text = none → Resolvable resolve env →
      ((∃ resolved, resolve_agent_env resolve document agent_id missing = .ok (resolved, missing)
          ∧ Faithful resolve (fun key => env[key]?) resolved)
        ↔ NamesOnly env fun name => name ∈ env))
    ∧ ∀ (gateway_id : Text) (gateway : Gateway) (env : ValueMap),
      (document.spec.gateways.find? fun item => item.id = gateway_id) = some gateway →
      gateway.env = some env → gateway.env_text = none → Resolvable resolve env →
      Resolvable resolve gateway.secrets →
      ((∃ resolved, resolve_gateway_env resolve document gateway_id = .ok resolved
          ∧ Faithful resolve (fun key => gateway.secrets[key]?.or env[key]?) resolved)
        ↔ NamesOnly env fun name => name ∈ env ∨ name ∈ gateway.secrets) := by
  have hmem : ∀ (map : ValueMap) (name : Text), map[name]? ≠ none ↔ name ∈ map := by
    intro map name
    rw [Std.ExtTreeMap.mem_iff_isSome_getElem?, Option.isSome_iff_ne_none]
  constructor
  · intro agent_id agent env missing hfind henv htext hres
    obtain ⟨resolved, hrun, hget⟩ := @resolve_env_ok resolve
      (fun key => "agents/".toList ++ agent_id ++ "/env/".toList ++ key) env missing hres
    have hagent : resolve_agent_env resolve document agent_id missing = .ok (resolved, missing) := by
      unfold resolve_agent_env
      rw [hfind]
      dsimp only
      rw [henv, htext]
      exact hrun
    have hiff := @faithful_iff_names resolve env (fun key => env[key]?) resolved hget
    simp only [hmem] at hiff
    rw [← hiff]
    constructor
    · rintro ⟨other, hother, hfaithful⟩
      obtain rfl : other = resolved := (Prod.mk.inj (Except.ok.inj (hother.symm.trans hagent))).1
      exact hfaithful
    · exact fun hfaithful => ⟨resolved, hagent, hfaithful⟩
  · intro gateway_id gateway env hfind henv htext hres hsecrets
    obtain ⟨first, hrun, hget⟩ := @resolve_env_ok resolve
      (fun key => "gateways/".toList ++ gateway_id ++ "/env/".toList ++ key) env [] hres
    obtain ⟨resolved, hrun', hget'⟩ := @resolve_map_ok resolve
      (fun key => "gateways/".toList ++ gateway_id ++ "/secrets/".toList ++ key)
      gateway.secrets first [] hsecrets
    have hgateway : resolve_gateway_env resolve document gateway_id = .ok resolved := by
      unfold resolve_gateway_env
      rw [hfind]
      dsimp only
      rw [henv, htext, hrun]
      show (resolve_entries resolve _ first [] gateway.secrets.toList >>= _) = _
      rw [hrun']
      rfl
    have hvalues : ∀ key : Text, resolved[key]? = match gateway.secrets[key]?.or env[key]? with
        | some value => resolved_value resolve value
        | none => (parse_env_vars (env_to_text (some env) none))[key]? := by
      intro key
      rw [hget', hget]
      cases gateway.secrets[key]? <;> rfl
    have hiff := @faithful_iff_names resolve env
      (fun key => gateway.secrets[key]?.or env[key]?) resolved hvalues
    have hknown : ∀ name, gateway.secrets[name]?.or env[name]? ≠ none
        ↔ name ∈ env ∨ name ∈ gateway.secrets := by
      intro name
      rw [Ne, Option.or_eq_none_iff, not_and_or]
      exact (or_congr (hmem _ _) (hmem _ _)).trans or_comm
    simp only [hknown] at hiff
    rw [← hiff]
    constructor
    · rintro ⟨other, hother, hfaithful⟩
      obtain rfl : other = resolved := Except.ok.inj (hother.symm.trans hgateway)
      exact hfaithful
    · exact fun hfaithful => ⟨resolved, hgateway, hfaithful⟩

/-! ## A value with two lines -/

/-- Secrets by their names, and no failure. -/
def plain_secrets (values : List (Text × Text)) (name : Text) :
    Except SecretStoreError (Option Text) :=
  .ok ((values.find? fun entry => entry.1 = name).map Prod.snd)

/-- A document with an agent and a gateway that have this map. -/
def document_with_env (env : ValueMap) : ConfigDocument where
  spec :=
    { agents := [{ id := "main".toList, name := "Main".toList, harness := .Echo, connection := none,
                   cli := none, system_prompt := .Literal [], skills := [], env := some env,
                   env_text := none }]
      gateways := [{ id := "echo".toList, name := "Echo".toList, gateway_type := .Echo,
                     agent := "main".toList, enabled := true, env := some env, env_text := none,
                     secrets := ∅ }] }

/-- A variable. -/
def one_line_env : ValueMap := Std.ExtTreeMap.ofList [("A".toList, .Literal "x".toList)] compare

/-- A variable whose value has two lines, the second of which reads as a variable. -/
def two_line_env : ValueMap :=
  Std.ExtTreeMap.ofList [("A".toList, .Literal "x\nB=y".toList)] compare

theorem resolvable_one_line : Resolvable (plain_secrets []) one_line_env := by
  intro key name h
  have hmem := Std.ExtTreeMap.mem_toList_iff_getElem?_eq_some.2 h
  have hlist : one_line_env.toList = [("A".toList, .Literal "x".toList)] := by decide +kernel
  rw [hlist] at hmem
  simp at hmem

theorem resolved_environment_one_line :
    ((∃ resolved, resolve_agent_env (plain_secrets []) (document_with_env one_line_env) "main".toList []
          = .ok (resolved, [])
        ∧ Faithful (plain_secrets []) (fun key => one_line_env[key]?) resolved)
      ↔ NamesOnly one_line_env fun name => name ∈ one_line_env)
    ∧ ((∃ resolved, resolve_gateway_env (plain_secrets []) (document_with_env one_line_env) "echo".toList
          = .ok resolved
        ∧ Faithful (plain_secrets []) (fun key => (∅ : ValueMap)[key]?.or one_line_env[key]?) resolved)
      ↔ NamesOnly one_line_env fun name => name ∈ one_line_env ∨ name ∈ (∅ : ValueMap)) :=
  ⟨(resolved_environment_iff (plain_secrets []) (document_with_env one_line_env)).1 "main".toList _
      one_line_env [] rfl rfl rfl resolvable_one_line,
    (resolved_environment_iff (plain_secrets []) (document_with_env one_line_env)).2 "echo".toList _
      one_line_env rfl rfl rfl resolvable_one_line fun _ _ h => by simp at h⟩

/-- **A second line is a variable**: the agent gets `B`, which its map does not have. -/
theorem second_line_is_a_variable :
    (resolve_agent_env (plain_secrets []) (document_with_env two_line_env) "main".toList []).toOption.map
        (fun resolved => resolved.1["B".toList]?) = some (some "y".toList)
      ∧ two_line_env["B".toList]? = none
      ∧ ¬∃ resolved, resolve_agent_env (plain_secrets []) (document_with_env two_line_env) "main".toList []
          = .ok (resolved, [])
        ∧ Faithful (plain_secrets []) (fun key => two_line_env[key]?) resolved := by
  have hvalue : (resolve_agent_env (plain_secrets []) (document_with_env two_line_env)
      "main".toList []).toOption.map (fun resolved => resolved.1["B".toList]?) = some (some "y".toList) := by
    decide +kernel
  have hnone : two_line_env["B".toList]? = none := by decide +kernel
  refine ⟨hvalue, hnone, ?_⟩
  rintro ⟨resolved, hrun, hfaithful⟩
  rw [hrun] at hvalue
  have hresolved : resolved["B".toList]? = some "y".toList := Option.some.inj hvalue
  have hread := hfaithful "B".toList
  dsimp only at hread
  rw [hresolved, hnone] at hread
  cases hread

end AgentSpace.Config
