/-
Loading a configuration: `config/loader.rs`.

A source is a stream of manifests, and an accumulator takes them in one after the
other, from one source or from several. What a manifest adds does not depend on what
was there before (`merge_value_eq`). The YAML library and `{:?}` of a string are
parameters.
-/
import AgentSpace.Lib.Keyed
import AgentSpace.Config.Schema

set_option autoImplicit false

namespace AgentSpace.Config

open Text Serde Lib

/-! ## Accumulating manifests -/

/-- `SkillSourceResolver`. -/
abbrev SkillSourceResolver := Text → Except ConfigError TextMap

/-- `DocumentAccumulator`. -/
structure DocumentAccumulator where
  metadata_name : Option Text := none
  spec : ConfigSpec := {}
  deriving DecidableEq

/-- `merge_spec`. -/
def merge_spec (target source : ConfigSpec) : ConfigSpec where
  secrets := target.secrets ++ source.secrets
  kernel_configs := target.kernel_configs ++ source.kernel_configs
  connections := target.connections ++ source.connections
  skills := target.skills ++ source.skills
  agents := target.agents ++ source.agents
  gateways := target.gateways ++ source.gateways

/-- `from_value`; the message is the library's. -/
def read_value {α : Type} [Deserialize α] (value : Value) : Except ConfigError α :=
  match from_value value with
  | some a => .ok a
  | none => .error (.Parse none)

/-- `Value::get` of a text key: tags are looked through. -/
def get_field (value : Value) (field : String) : Option Value :=
  match untag value with
  | .Mapping entries => Mapping.get (.String field.toList) entries
  | _ => none

section Load

variable (yaml : Yaml) (debug : Text → Text)

/-- `read_str_field`. -/
def read_str_field (value : Value) (field : String) : Except ConfigError Text :=
  match (get_field value field).bind Value.as_str with
  | some text => .ok text
  | none => .error (.Parse (some
      ("document is missing required string field ".toList ++ debug field.toList)))

/-- `parse_skill`. -/
def parse_skill (manifest : Standalone SkillSpec) (resolve_skill_source : SkillSourceResolver) :
    Except ConfigError Skill :=
  match manifest.spec.files, manifest.spec.source with
  | some files, none => .ok ⟨manifest.metadata.name, files⟩
  | none, some source => do
    let files ← resolve_skill_source source.path
    .ok ⟨manifest.metadata.name, files⟩
  | some _, some _ => .error (.Parse (some ("Skill ".toList ++ debug manifest.metadata.name
      ++ " sets both spec.files and spec.source; exactly one is required".toList)))
  | none, none => .error (.Parse (some ("Skill ".toList ++ debug manifest.metadata.name
      ++ " must set exactly one of spec.files or spec.source".toList)))

/-- `merge_document`. -/
def merge_document (kind : Text) (value : Value) (resolve_skill_source : SkillSourceResolver)
    (acc : DocumentAccumulator) : Except ConfigError DocumentAccumulator :=
  let spec := acc.spec
  if kind = KIND_AGGREGATE then do
    let manifest : AggregateManifest ← read_value value
    .ok ⟨some manifest.metadata.name, merge_spec spec manifest.spec⟩
  else if kind = "SecretDeclaration".toList then do
    let manifest : Standalone SecretDeclarationSpec ← read_value value
    match SecretName.new manifest.metadata.name with
    | some name =>
      .ok { acc with
        spec := { spec with secrets := spec.secrets ++ [⟨name, manifest.spec.description⟩] } }
    | none => .error (.Parse (some ("secret name must match [A-Z][A-Z0-9_]*, got ".toList
        ++ debug manifest.metadata.name)))
  else if kind = "KernelConfig".toList then do
    let manifest : Standalone EnvSpec ← read_value value
    match HarnessName.from_str manifest.metadata.name with
    | some harness =>
      .ok { acc with
        spec := { spec with kernel_configs := spec.kernel_configs
          ++ [⟨harness, manifest.spec.env, manifest.spec.env_text⟩] } }
    | none => .error (.Parse (some ("unsupported harness name ".toList
        ++ debug manifest.metadata.name)))
  else if kind = "Connection".toList then do
    let manifest : Standalone ConnectionSpec ← read_value value
    .ok { acc with
      spec := { spec with connections := spec.connections ++ [⟨manifest.metadata.name,
        manifest.spec.name, manifest.spec.url, manifest.spec.api_flavor,
        manifest.spec.api_key⟩] } }
  else if kind = "Skill".toList then do
    let manifest : Standalone SkillSpec ← read_value value
    let skill ← parse_skill debug manifest resolve_skill_source
    .ok { acc with spec := { spec with skills := spec.skills ++ [skill] } }
  else if kind = "Agent".toList then do
    let manifest : Standalone AgentSpec ← read_value value
    .ok { acc with
      spec := { spec with agents := spec.agents ++ [⟨manifest.metadata.name, manifest.spec.name,
        manifest.spec.harness, manifest.spec.connection, manifest.spec.cli,
        manifest.spec.system_prompt, manifest.spec.skills, manifest.spec.env,
        manifest.spec.env_text⟩] } }
  else if kind = "Gateway".toList then do
    let manifest : Standalone GatewaySpec ← read_value value
    .ok { acc with
      spec := { spec with gateways := spec.gateways ++ [⟨manifest.metadata.name,
        manifest.spec.name, manifest.spec.gateway_type, manifest.spec.agent,
        manifest.spec.enabled, manifest.spec.env, manifest.spec.env_text,
        manifest.spec.secrets⟩] } }
  else .error (.UnsupportedKind kind)

/-- One round of the loop of `merge_source`, for a document of the stream. -/
def merge_value (resolve_skill_source : SkillSourceResolver) (acc : DocumentAccumulator) :
    Except String Value → Except ConfigError DocumentAccumulator
  | .error _ => .error (.Parse none)
  | .ok value =>
    if value.is_null then .ok acc
    else do
      let kind ← read_str_field debug value "kind"
      let api_version ← read_str_field debug value "apiVersion"
      if api_version ≠ API_VERSION then .error (.UnsupportedApiVersion api_version)
      else merge_document debug kind value resolve_skill_source acc

/-- `DocumentAccumulator::merge_source`. -/
def merge_source (acc : DocumentAccumulator) (source : Text)
    (resolve_skill_source : SkillSourceResolver) : Except ConfigError DocumentAccumulator :=
  (yaml.documents source).foldlM (merge_value debug resolve_skill_source) acc

/-- `check_unique`, behind the names seen so far. -/
def check_unique (kind : String) : List Text → List Text → Except ConfigError Unit
  | _, [] => .ok ()
  | seen, id :: rest =>
    if id ∈ seen then .error (.DuplicateResource kind id)
    else check_unique kind (id :: seen) rest

end Load

/-! ## Identities -/

/-- The identity of a declaration is its name. -/
def SecretDeclaration.id (item : SecretDeclaration) : Text := item.name.as_str

/-- The identity of a kernel configuration is the name of its harness. -/
def KernelConfig.id (item : KernelConfig) : Text := item.harness.as_str

/-- `check_duplicate_ids`. -/
def check_duplicate_ids (document : ConfigDocument) : Except ConfigError Unit := do
  check_unique "secret" [] (document.spec.secrets.map SecretDeclaration.id)
  check_unique "kernelConfig" [] (document.spec.kernel_configs.map KernelConfig.id)
  check_unique "connection" [] (document.spec.connections.map Connection.id)
  check_unique "skill" [] (document.spec.skills.map Skill.id)
  check_unique "agent" [] (document.spec.agents.map Agent.id)
  check_unique "gateway" [] (document.spec.gateways.map Gateway.id)

/-- `spec_is_empty`. -/
def spec_is_empty (spec : ConfigSpec) : Bool :=
  spec.secrets.isEmpty && spec.kernel_configs.isEmpty && spec.connections.isEmpty
    && spec.skills.isEmpty && spec.agents.isEmpty && spec.gateways.isEmpty

/-- `DocumentAccumulator::finish`. -/
def DocumentAccumulator.finish (acc : DocumentAccumulator) : Except ConfigError ConfigDocument :=
  if acc.metadata_name = none ∧ spec_is_empty acc.spec then
    .error (.Parse (some "no configuration documents were provided".toList))
  else
    let document : ConfigDocument := ⟨acc.metadata_name.getD DEFAULT_METADATA_NAME, acc.spec⟩
    (check_duplicate_ids document).map fun _ => document

/-- `load_yaml_with_resolver`. -/
def load_yaml_with_resolver (yaml : Yaml) (debug : Text → Text) (source : Text)
    (resolve_skill_source : SkillSourceResolver) : Except ConfigError ConfigDocument := do
  let accumulator ← merge_source yaml debug {} source resolve_skill_source
  accumulator.finish

/-- `load_yaml`. -/
def load_yaml (yaml : Yaml) (debug : Text → Text) (source : Text) : Except ConfigError ConfigDocument :=
  load_yaml_with_resolver yaml debug source fun _ => .error .UnsupportedBundle

/-! ## Unique identities -/

/-- No two resources of a kind have the same identity. -/
structure ConfigSpec.Unique (spec : ConfigSpec) : Prop where
  secrets : Keyed SecretDeclaration.id spec.secrets
  kernel_configs : Keyed KernelConfig.id spec.kernel_configs
  connections : Keyed Connection.id spec.connections
  skills : Keyed Skill.id spec.skills
  agents : Keyed Agent.id spec.agents
  gateways : Keyed Gateway.id spec.gateways

theorem check_unique_eq_ok (kind : String) (seen ids : List Text) :
    check_unique kind seen ids = .ok () ↔ ids.Nodup ∧ ∀ id ∈ ids, id ∉ seen := by
  induction ids generalizing seen with
  | nil => simp [check_unique]
  | cons id rest ih =>
    rw [check_unique]
    by_cases hseen : id ∈ seen
    · rw [if_pos hseen]
      simp [hseen]
    · rw [if_neg hseen, ih, List.nodup_cons]
      constructor
      · rintro ⟨hrest, hnew⟩
        refine ⟨⟨fun hmem => hnew id hmem (by simp), hrest⟩, ?_⟩
        rintro other (_ | ⟨_, hother⟩)
        · exact hseen
        · exact fun h => hnew other hother (by simp [h])
      · rintro ⟨⟨hid, hrest⟩, hnew⟩
        refine ⟨hrest, fun other hother hmem => ?_⟩
        rcases List.mem_cons.1 hmem with rfl | hmem
        · exact hid hother
        · exact hnew other (by simp [hother]) hmem

theorem check_duplicate_ids_eq_ok (document : ConfigDocument) :
    check_duplicate_ids document = .ok () ↔ document.spec.Unique := by
  have hbind : ∀ (a : Except ConfigError Unit) (b : Except ConfigError Unit),
      (a >>= fun _ => b) = .ok () ↔ a = .ok () ∧ b = .ok () := by
    intro a b
    cases a with
    | error e | ok u => simp [bind, Except.bind]
  unfold check_duplicate_ids
  simp only [hbind, check_unique_eq_ok, List.not_mem_nil, not_false_eq_true, implies_true, and_true]
  constructor
  · rintro ⟨h1, h2, h3, h4, h5, h6⟩
    exact ⟨h1, h2, h3, h4, h5, h6⟩
  · rintro ⟨h1, h2, h3, h4, h5, h6⟩
    exact ⟨h1, h2, h3, h4, h5, h6⟩

/-- What `finish` returns. -/
theorem finish_eq_ok {acc : DocumentAccumulator} {document : ConfigDocument} :
    acc.finish = .ok document
      ↔ ¬ (acc.metadata_name = none ∧ spec_is_empty acc.spec) ∧ acc.spec.Unique
        ∧ document = ⟨acc.metadata_name.getD DEFAULT_METADATA_NAME, acc.spec⟩ := by
  unfold DocumentAccumulator.finish
  by_cases hempty : acc.metadata_name = none ∧ spec_is_empty acc.spec
  · rw [if_pos hempty]
    exact ⟨fun h => (nomatch h), fun h => absurd hempty h.1⟩
  · rw [if_neg hempty]
    dsimp only
    rw [← check_duplicate_ids_eq_ok
      ⟨acc.metadata_name.getD DEFAULT_METADATA_NAME, acc.spec⟩]
    cases check_duplicate_ids ⟨acc.metadata_name.getD DEFAULT_METADATA_NAME, acc.spec⟩ with
    | error e => simp [Except.map]
    | ok u =>
      refine ⟨fun h => ⟨hempty, rfl, (Except.ok.inj h).symm⟩, fun h => ?_⟩
      rw [h.2.2]
      rfl

/-! ## What a manifest adds -/

/-- What two accumulators add up to: the later name counts. -/
def DocumentAccumulator.add (acc next : DocumentAccumulator) : DocumentAccumulator :=
  ⟨next.metadata_name.or acc.metadata_name, merge_spec acc.spec next.spec⟩

@[simp] theorem merge_spec_empty (spec : ConfigSpec) : merge_spec spec {} = spec := by
  simp [merge_spec]

@[simp] theorem empty_merge_spec (spec : ConfigSpec) : merge_spec {} spec = spec := by
  simp [merge_spec]

@[simp] theorem DocumentAccumulator.add_empty (acc : DocumentAccumulator) : acc.add {} = acc := by
  simp [add]

theorem DocumentAccumulator.add_assoc (a b c : DocumentAccumulator) :
    (a.add b).add c = a.add (b.add c) := by
  simp [add, merge_spec, Option.or_assoc]

section Contribution

variable (yaml : Yaml) (debug : Text → Text)

/-- What a document of a stream contributes, on its own. -/
def contribution (resolve_skill_source : SkillSourceResolver) (document : Except String Value) :
    Except ConfigError DocumentAccumulator :=
  merge_value debug resolve_skill_source {} document

theorem merge_document_eq (kind : Text) (value : Value)
    (resolve_skill_source : SkillSourceResolver) (acc : DocumentAccumulator) :
    merge_document debug kind value resolve_skill_source acc
      = (merge_document debug kind value resolve_skill_source {}).map acc.add := by
  unfold merge_document
  split_ifs
  · cases (read_value value : Except ConfigError AggregateManifest) with
    | error e => rfl
    | ok manifest => simp [bind, Except.bind, Except.map, DocumentAccumulator.add]
  · cases (read_value value : Except ConfigError (Standalone SecretDeclarationSpec)) with
    | error e => rfl
    | ok manifest =>
      simp only [bind, Except.bind]
      cases SecretName.new manifest.metadata.name <;>
        simp [Except.map, DocumentAccumulator.add, merge_spec]
  · cases (read_value value : Except ConfigError (Standalone EnvSpec)) with
    | error e => rfl
    | ok manifest =>
      simp only [bind, Except.bind]
      cases HarnessName.from_str manifest.metadata.name <;>
        simp [Except.map, DocumentAccumulator.add, merge_spec]
  · cases (read_value value : Except ConfigError (Standalone ConnectionSpec)) with
    | error e => rfl
    | ok manifest => simp [bind, Except.bind, Except.map, DocumentAccumulator.add, merge_spec]
  · cases (read_value value : Except ConfigError (Standalone SkillSpec)) with
    | error e => rfl
    | ok manifest =>
      simp only [bind, Except.bind]
      cases parse_skill debug manifest resolve_skill_source <;>
        simp [Except.map, DocumentAccumulator.add, merge_spec]
  · cases (read_value value : Except ConfigError (Standalone AgentSpec)) with
    | error e => rfl
    | ok manifest => simp [bind, Except.bind, Except.map, DocumentAccumulator.add, merge_spec]
  · cases (read_value value : Except ConfigError (Standalone GatewaySpec)) with
    | error e => rfl
    | ok manifest => simp [bind, Except.bind, Except.map, DocumentAccumulator.add, merge_spec]
  · rfl

/-- **What a document adds** does not depend on what was there before. -/
theorem merge_value_eq (resolve_skill_source : SkillSourceResolver) (acc : DocumentAccumulator)
    (document : Except String Value) :
    merge_value debug resolve_skill_source acc document
      = (contribution debug resolve_skill_source document).map acc.add := by
  unfold contribution merge_value
  cases document with
  | error e => rfl
  | ok value =>
    dsimp only
    by_cases hnull : value.is_null = true
    · rw [if_pos hnull, if_pos hnull]
      simp [Except.map]
    · rw [if_neg hnull, if_neg hnull]
      cases read_str_field debug value "kind" with
      | error e => rfl
      | ok kind =>
        cases read_str_field debug value "apiVersion" with
        | error e => rfl
        | ok api_version =>
          simp only [bind, Except.bind]
          by_cases hversion : api_version ≠ API_VERSION
          · rw [if_pos hversion, if_pos hversion]
            rfl
          · rw [if_neg hversion, if_neg hversion]
            exact merge_document_eq debug kind value resolve_skill_source acc

/-- A document of this version is merged by its kind. -/
theorem contribution_eq {value : Value} (kind : Text) (hnull : value.is_null = false)
    (hkind : (get_field value "kind").bind Value.as_str = some kind)
    (hversion : (get_field value "apiVersion").bind Value.as_str = some API_VERSION)
    (resolve_skill_source : SkillSourceResolver) :
    contribution debug resolve_skill_source (.ok value)
      = merge_document debug kind value resolve_skill_source {} := by
  have hread : ∀ {field : String} {text : Text},
      (get_field value field).bind Value.as_str = some text →
      read_str_field debug value field = .ok text := by
    intro field text h
    unfold read_str_field
    rw [h]
  unfold contribution merge_value
  dsimp only
  rw [hnull, if_neg Bool.false_ne_true, hread hkind, hread hversion]
  simp only [bind, Except.bind]
  rw [if_neg (not_not.2 rfl)]

/-- A skill manifest is merged by what its resolver gives. -/
theorem merge_document_skill (value : Value) (resolve_skill_source : SkillSourceResolver)
    (acc : DocumentAccumulator) :
    merge_document debug "Skill".toList value resolve_skill_source acc = (do
      let manifest : Standalone SkillSpec ← read_value value
      let skill ← parse_skill debug manifest resolve_skill_source
      .ok { acc with spec := { acc.spec with skills := acc.spec.skills ++ [skill] } }) := by
  unfold merge_document
  dsimp only
  rw [if_neg (by decide), if_neg (by decide), if_neg (by decide), if_neg (by decide), if_pos rfl]

end Contribution

end AgentSpace.Config
