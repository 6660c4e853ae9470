/-
The plan of an apply: `config/plan.rs`.

A plan says what becomes of each resource of either document. Resources are matched by
kind and identity and compared as JSON; the name of the document is none.
-/
import AgentSpace.Config.Canonical

set_option autoImplicit false

namespace AgentSpace.Config

open Text Serde Lib

/-! ## The plan -/

/-- `PlanAction`. -/
inductive PlanAction where
  | Create
  | Update
  | Delete
  | NoOp
  deriving DecidableEq

/-- `PlanEntry`. -/
structure PlanEntry where
  kind : String
  id : Text
  action : PlanAction
  deriving DecidableEq

/-- `json_of`: what is serialized, which is all that a comparison looks at. -/
def json_of {α : Type} [Serialize α] (item : α) : Value := to_value item

/-- The action of one round of `diff_collection`, if it pushes an entry. -/
def diff_action : Option Value → Option Value → Option PlanAction
  | none, some _ => some .Create
  | some _, none => some .Delete
  | some before, some after => if before = after then some .NoOp else some .Update
  | none, none => none

/-- `sort` and `dedup` of a list of names. -/
def sort_dedup (ids : List Text) : List Text := ids.dedup.insertionSort (key_le id)

/-- `diff_collection`: the entries of one kind. -/
def diff_collection (kind : String) (current next : Std.ExtTreeMap Text Value compare) : List PlanEntry :=
  (sort_dedup (current.keys ++ next.keys)).filterMap fun id =>
    (diff_action current[id]? next[id]?).map fun action => ⟨kind, id, action⟩

/-- The entries of one kind of resource. -/
def diff_of {α : Type} [Serialize α] (kind : String) (key : α → Text) (current next : List α) :
    List PlanEntry :=
  diff_collection kind (collect key json_of current) (collect key json_of next)

/-- `plan`. -/
def plan (current next : ConfigDocument) : List PlanEntry :=
  diff_of "secret" SecretDeclaration.id current.spec.secrets next.spec.secrets
    ++ diff_of "kernelConfig" KernelConfig.id current.spec.kernel_configs next.spec.kernel_configs
    ++ diff_of "connection" Connection.id current.spec.connections next.spec.connections
    ++ diff_of "skill" Skill.id current.spec.skills next.spec.skills
    ++ diff_of "agent" Agent.id current.spec.agents next.spec.agents
    ++ diff_of "gateway" Gateway.id current.spec.gateways next.spec.gateways

/-! ## One kind of resource -/

/-- What becomes of a resource, from what it was and what it is to be. -/
def becomes {α : Type} [DecidableEq α] : Option α → Option α → Option PlanAction
  | none, some _ => some .Create
  | some _, none => some .Delete
  | some before, some after => if before = after then some .NoOp else some .Update
  | none, none => none

theorem becomes_noOp_iff {α : Type} [DecidableEq α] {before after : Option α} :
    (∀ action, becomes before after = some action → action = .NoOp) ↔ before = after := by
  cases before with
  | none => cases after <;> simp [becomes]
  | some a =>
    cases after with
    | none => simp [becomes]
    | some b => by_cases h : a = b <;> simp [becomes, h]

section OneKind

variable {α : Type} [Serialize α] [Deserialize α] [LawfulSerde α] [DecidableEq α]
  {key : α → Text} {current next : List α} {kind : String}

omit [DecidableEq α] in
theorem json_of_injective : Function.Injective (json_of (α := α)) := by
  intro a b h
  have hread := congrArg (from_value (α := α)) h
  unfold json_of at hread
  rw [round_trip, round_trip] at hread
  exact Option.some.inj hread

theorem diff_action_json_of (before after : Option α) :
    diff_action (before.map json_of) (after.map json_of) = becomes before after := by
  cases before with
  | none => cases after <;> rfl
  | some a =>
    cases after with
    | none => rfl
    | some b => simp [diff_action, becomes, json_of_injective.eq_iff]

/-- **The entries of one kind**: for each identity, what becomes of the resource that has
it. -/
theorem mem_diff_of (hcurrent : Keyed key current) (hnext : Keyed key next) {entry : PlanEntry} :
    entry ∈ diff_of kind key current next
      ↔ entry.kind = kind
        ∧ becomes (find_key key current entry.id) (find_key key next entry.id)
          = some entry.action := by
  unfold diff_of diff_collection
  simp only [List.mem_filterMap, getElem?_collect json_of hcurrent, getElem?_collect json_of hnext,
    diff_action_json_of, Option.map_eq_some_iff]
  constructor
  · rintro ⟨id, -, action, haction, rfl⟩
    exact ⟨rfl, haction⟩
  · rintro ⟨rfl, haction⟩
    refine ⟨entry.id, ?_, entry.action, haction, rfl⟩
    unfold sort_dedup
    rw [List.mem_insertionSort, List.mem_dedup, List.mem_append, Std.ExtTreeMap.mem_keys,
      Std.ExtTreeMap.mem_keys, mem_collect json_of hcurrent, mem_collect json_of hnext]
    by_contra hneither
    rw [not_or, ← find_key_eq_none, ← find_key_eq_none] at hneither
    rw [hneither.1, hneither.2] at haction
    cases haction

omit [Deserialize α] [LawfulSerde α] [DecidableEq α] in
theorem nodup_diff_of : ((diff_of kind key current next).map fun entry => (entry.kind, entry.id)).Nodup := by
  unfold diff_of diff_collection
  have hids : (sort_dedup ((collect key json_of current).keys ++ (collect key json_of next).keys)).Nodup :=
    (List.perm_insertionSort _ _).nodup_iff.2 (List.nodup_dedup _)
  rw [List.map_filterMap]
  refine hids.filterMap fun a b pair ha hb => ?_
  simp only [Option.mem_def, Option.map_map, Option.map_eq_some_iff, Function.comp] at ha hb
  obtain ⟨_, -, rfl⟩ := ha
  obtain ⟨_, -, hb⟩ := hb
  exact (congrArg Prod.snd hb).symm

theorem diff_of_noOp_iff (hcurrent : Keyed key current) (hnext : Keyed key next) :
    (∀ entry ∈ diff_of kind key current next, entry.action = .NoOp) ↔ current.Perm next := by
  rw [perm_iff_find_key hcurrent hnext]
  constructor
  · intro hall id
    refine becomes_noOp_iff.1 fun action haction => ?_
    exact hall ⟨kind, id, action⟩ ((mem_diff_of hcurrent hnext).2 ⟨rfl, haction⟩)
  · intro hsame entry hentry
    have hbecomes := ((mem_diff_of hcurrent hnext).1 hentry).2
    rw [hsame] at hbecomes
    exact becomes_noOp_iff.2 rfl entry.action hbecomes

end OneKind

/-! ## The whole plan -/

/-- A resource of any kind. -/
inductive Resource where
  | secret (item : SecretDeclaration)
  | kernel_config (item : KernelConfig)
  | connection (item : Connection)
  | skill (item : Skill)
  | agent (item : Agent)
  | gateway (item : Gateway)
  deriving DecidableEq

/-- The resource of a kind under an identity. -/
def ConfigSpec.resource (spec : ConfigSpec) (kind : String) (id : Text) : Option Resource :=
  if kind = "secret" then (find_key SecretDeclaration.id spec.secrets id).map .secret
  else if kind = "kernelConfig" then
    (find_key KernelConfig.id spec.kernel_configs id).map .kernel_config
  else if kind = "connection" then (find_key Connection.id spec.connections id).map .connection
  else if kind = "skill" then (find_key Skill.id spec.skills id).map .skill
  else if kind = "agent" then (find_key Agent.id spec.agents id).map .agent
  else if kind = "gateway" then (find_key Gateway.id spec.gateways id).map .gateway
  else none

theorem becomes_map {α β : Type} [DecidableEq α] [DecidableEq β] {f : α → β}
    (hf : Function.Injective f) (before after : Option α) :
    becomes (before.map f) (after.map f) = becomes before after := by
  cases before with
  | none => cases after <;> rfl
  | some a =>
    cases after with
    | none => rfl
    | some b => simp [becomes, hf.eq_iff]

/-- Each resource has one entry, and the entries are of these kinds. -/
def OneEach (kinds : List String) (entries : List PlanEntry) : Prop :=
  Keyed (fun entry : PlanEntry => (entry.kind, entry.id)) entries
    ∧ ∀ entry ∈ entries, entry.kind ∈ kinds

/-- Entries of one more kind. -/
theorem OneEach.append {kinds : List String} {entries : List PlanEntry}
    (h : OneEach kinds entries) {α : Type} [Serialize α] (kind : String) (key : α → Text)
    (current next : List α) (hkind : kind ∉ kinds) :
    OneEach (kind :: kinds) (entries ++ diff_of kind key current next) := by
  have hall : ∀ entry ∈ diff_of kind key current next, entry.kind = kind := by
    intro entry hentry
    unfold diff_of diff_collection at hentry
    rw [List.mem_filterMap] at hentry
    obtain ⟨id, -, hentry⟩ := hentry
    obtain ⟨action, -, rfl⟩ := Option.map_eq_some_iff.1 hentry
    rfl
  refine ⟨h.1.append nodup_diff_of fun a ha b hb hpair => ?_, fun entry hentry => ?_⟩
  · rw [Prod.mk.injEq, hall b hb] at hpair
    exact hkind (hpair.1 ▸ h.2 a ha)
  · rcases List.mem_append.1 hentry with hentry | hentry
    · exact List.mem_cons_of_mem _ (h.2 entry hentry)
    · rw [hall entry hentry]
      exact List.mem_cons_self

theorem one_each_plan (current next : ConfigDocument) :
    OneEach ["gateway", "agent", "skill", "connection", "kernelConfig", "secret"] (plan current next) := by
  have hnone : OneEach [] [] := ⟨List.nodup_nil, fun _ h => (nomatch h)⟩
  have hsecrets := hnone.append "secret" SecretDeclaration.id current.spec.secrets
    next.spec.secrets (by simp)
  have hkernels := hsecrets.append "kernelConfig" KernelConfig.id current.spec.kernel_configs
    next.spec.kernel_configs (by simp)
  have hconnections := hkernels.append "connection" Connection.id current.spec.connections
    next.spec.connections (by simp)
  have hskills := hconnections.append "skill" Skill.id current.spec.skills next.spec.skills
    (by simp)
  have hagents := hskills.append "agent" Agent.id current.spec.agents next.spec.agents (by simp)
  exact hagents.append "gateway" Gateway.id current.spec.gateways next.spec.gateways (by simp)

section Plan

variable {current next : ConfigDocument} (hcurrent : current.spec.Unique)
  (hnext : next.spec.Unique)

include hcurrent hnext

theorem mem_plan {entry : PlanEntry} :
    entry ∈ plan current next
      ↔ becomes (current.spec.resource entry.kind entry.id) (next.spec.resource entry.kind entry.id)
        = some entry.action := by
  obtain ⟨kind, id, action⟩ := entry
  unfold plan
  simp only [List.mem_append, mem_diff_of hcurrent.secrets hnext.secrets,
    mem_diff_of hcurrent.kernel_configs hnext.kernel_configs,
    mem_diff_of hcurrent.connections hnext.connections,
    mem_diff_of hcurrent.skills hnext.skills, mem_diff_of hcurrent.agents hnext.agents,
    mem_diff_of hcurrent.gateways hnext.gateways]
  unfold ConfigSpec.resource
  by_cases h1 : kind = "secret"
  · simp [h1, becomes_map fun _ _ => Resource.secret.inj]
  by_cases h2 : kind = "kernelConfig"
  · simp [h2, becomes_map fun _ _ => Resource.kernel_config.inj]
  by_cases h3 : kind = "connection"
  · simp [h3, becomes_map fun _ _ => Resource.connection.inj]
  by_cases h4 : kind = "skill"
  · simp [h4, becomes_map fun _ _ => Resource.skill.inj]
  by_cases h5 : kind = "agent"
  · simp [h5, becomes_map fun _ _ => Resource.agent.inj]
  by_cases h6 : kind = "gateway"
  · simp [h6, becomes_map fun _ _ => Resource.gateway.inj]
  simp [h1, h2, h3, h4, h5, h6, becomes]

theorem plan_noOp_iff :
    (∀ entry ∈ plan current next, entry.action = .NoOp) ↔ current.spec.SameResources next.spec := by
  unfold plan
  simp only [List.forall_mem_append, diff_of_noOp_iff hcurrent.secrets hnext.secrets,
    diff_of_noOp_iff hcurrent.kernel_configs hnext.kernel_configs,
    diff_of_noOp_iff hcurrent.connections hnext.connections,
    diff_of_noOp_iff hcurrent.skills hnext.skills, diff_of_noOp_iff hcurrent.agents hnext.agents,
    diff_of_noOp_iff hcurrent.gateways hnext.gateways]
  constructor
  · rintro ⟨⟨⟨⟨⟨h1, h2⟩, h3⟩, h4⟩, h5⟩, h6⟩
    exact ⟨h1, h2, h3, h4, h5, h6⟩
  · rintro ⟨h1, h2, h3, h4, h5, h6⟩
    exact ⟨⟨⟨⟨⟨h1, h2⟩, h3⟩, h4⟩, h5⟩, h6⟩

end Plan

/-- **Plan correctness.** For documents with unique identities: a plan has one entry for
every resource of either document, which says what becomes of it, and none for anything
else. Nothing in it changes exactly if the documents have the same resources, that is, if
they would be typed-equal under one name. -/
theorem plan_correct (current next : ConfigDocument) (hcurrent : current.spec.Unique)
    (hnext : next.spec.Unique) :
    Keyed (fun entry : PlanEntry => (entry.kind, entry.id)) (plan current next)
      ∧ (∀ kind id action, ⟨kind, id, action⟩ ∈ plan current next
          ↔ becomes (current.spec.resource kind id) (next.spec.resource kind id) = some action)
      ∧ ((∀ entry ∈ plan current next, entry.action = .NoOp)
          ↔ typed_equal { current with metadata_name := next.metadata_name } next = true)
      ∧ (current.metadata_name = next.metadata_name →
          ((∀ entry ∈ plan current next, entry.action = .NoOp)
            ↔ typed_equal current next = true)) := by
  refine ⟨(one_each_plan current next).1, fun kind id action => mem_plan hcurrent hnext, ?_,
    fun hname => ?_⟩
  · have hunique : ({ current with metadata_name := next.metadata_name } : ConfigDocument).spec.Unique :=
      hcurrent
    rw [typed_equal_iff hunique, plan_noOp_iff hcurrent hnext]
    exact (and_iff_right rfl).symm
  · rw [typed_equal_iff hcurrent, plan_noOp_iff hcurrent hnext]
    exact (and_iff_right hname).symm

/-- A secret that is described and one that is added. -/
theorem plan_correct_described :
    let a : SecretName := ⟨"A".toList, by decide⟩
    let b : SecretName := ⟨"B".toList, by decide⟩
    let current : ConfigDocument := { spec := { secrets := [⟨a, none⟩] } }
    let next : ConfigDocument := { spec := { secrets := [⟨b, none⟩, ⟨a, some []⟩] } }
    ⟨"secret", "A".toList, .Update⟩ ∈ plan current next
      ∧ ⟨"secret", "B".toList, .Create⟩ ∈ plan current next := by
  intro a b current next
  have hcurrent : current.spec.Unique := (check_duplicate_ids_eq_ok current).1 (by decide)
  have hnext : next.spec.Unique := (check_duplicate_ids_eq_ok next).1 (by decide)
  have hplan := (plan_correct current next hcurrent hnext).2.1
  exact ⟨(hplan _ _ _).2 (by decide), (hplan _ _ _).2 (by decide)⟩

/-- A document that is renamed: nothing changes in the plan, and the documents are not
typed-equal. -/
theorem renamed_document_plan_empty :
    let current : ConfigDocument := {}
    let next : ConfigDocument := { metadata_name := "prod".toList }
    current.spec.Unique ∧ next.spec.Unique
      ∧ ¬ ((∀ entry ∈ plan current next, entry.action = .NoOp)
        ↔ typed_equal current next = true) := by
  intro current next
  have hcurrent : current.spec.Unique := (check_duplicate_ids_eq_ok current).1 (by decide)
  have hnext : next.spec.Unique := (check_duplicate_ids_eq_ok next).1 (by decide)
  refine ⟨hcurrent, hnext, fun hiff => ?_⟩
  have hnothing := (plan_noOp_iff hcurrent hnext).2 ⟨.refl _, .refl _, .refl _, .refl _, .refl _, .refl _⟩
  exact absurd (hiff.1 hnothing) (by decide)

end AgentSpace.Config
