/-
The canonical form of a document: `config/canonical.rs`.

Every kind of resource is sorted by its identity. Where identities are unique this is
a normal form, up to the name; the canonical text loads as it.
-/
import AgentSpace.Config.Loader

set_option autoImplicit false

namespace AgentSpace.Config

open Text Serde Lib

/-! ## The canonical form -/

/-- `canonical_spec`. -/
def canonical_spec (spec : ConfigSpec) : ConfigSpec where
  secrets := sort_by_key SecretDeclaration.id spec.secrets
  kernel_configs := sort_by_key KernelConfig.id spec.kernel_configs
  connections := sort_by_key Connection.id spec.connections
  skills := sort_by_key Skill.id spec.skills
  agents := sort_by_key Agent.id spec.agents
  gateways := sort_by_key Gateway.id spec.gateways

/-- `canonical_document`. -/
def canonical_document (document : ConfigDocument) : ConfigDocument :=
  ⟨document.metadata_name, canonical_spec document.spec⟩

/-- `to_canonical_yaml`. -/
def to_canonical_yaml (yaml : Yaml) (document : ConfigDocument) : Except ConfigError Text :=
  match yaml.to_string (to_value (canonical_document document).to_aggregate) with
  | .ok text => .ok text
  | .error detail => .error (.Serialize (some detail.toList))

/-- `semantic_hash`; the digest in hexadecimal is a parameter. -/
def semantic_hash (yaml : Yaml) (sha256_hex : Bytes → Text) (document : ConfigDocument) :
    Except ConfigError Text :=
  (to_canonical_yaml yaml document).map fun text => sha256_hex (into_bytes text)

/-- `typed_equal`. -/
def typed_equal (left right : ConfigDocument) : Bool :=
  canonical_document left = canonical_document right

/-! ## The same resources -/

/-- Every kind has the same resources, in some order. -/
structure ConfigSpec.SameResources (a b : ConfigSpec) : Prop where
  secrets : a.secrets.Perm b.secrets
  kernel_configs : a.kernel_configs.Perm b.kernel_configs
  connections : a.connections.Perm b.connections
  skills : a.skills.Perm b.skills
  agents : a.agents.Perm b.agents
  gateways : a.gateways.Perm b.gateways

namespace ConfigSpec

variable {a b : ConfigSpec}

theorem SameResources.unique (h : a.SameResources b) (ha : a.Unique) : b.Unique where
  secrets := ha.secrets.perm h.secrets
  kernel_configs := ha.kernel_configs.perm h.kernel_configs
  connections := ha.connections.perm h.connections
  skills := ha.skills.perm h.skills
  agents := ha.agents.perm h.agents
  gateways := ha.gateways.perm h.gateways

theorem SameResources.symm (h : a.SameResources b) : b.SameResources a :=
  ⟨h.secrets.symm, h.kernel_configs.symm, h.connections.symm, h.skills.symm, h.agents.symm,
    h.gateways.symm⟩

theorem canonical_same (spec : ConfigSpec) : (canonical_spec spec).SameResources spec :=
  ⟨perm_sort_by_key, perm_sort_by_key, perm_sort_by_key, perm_sort_by_key, perm_sort_by_key,
    perm_sort_by_key⟩

end ConfigSpec

/-- **Normal form.** Where identities are unique, specifications have the same canonical
form exactly if they have the same resources. -/
theorem canonical_spec_eq_iff {a b : ConfigSpec} (ha : a.Unique) :
    canonical_spec a = canonical_spec b ↔ a.SameResources b := by
  unfold canonical_spec
  rw [ConfigSpec.mk.injEq]
  simp only [sort_by_key_eq_iff ha.secrets, sort_by_key_eq_iff ha.kernel_configs,
    sort_by_key_eq_iff ha.connections, sort_by_key_eq_iff ha.skills,
    sort_by_key_eq_iff ha.agents, sort_by_key_eq_iff ha.gateways]
  constructor
  · rintro ⟨h1, h2, h3, h4, h5, h6⟩
    exact ⟨h1, h2, h3, h4, h5, h6⟩
  · rintro ⟨h1, h2, h3, h4, h5, h6⟩
    exact ⟨h1, h2, h3, h4, h5, h6⟩

theorem canonical_document_idem (document : ConfigDocument) :
    canonical_document (canonical_document document) = canonical_document document := by
  simp only [canonical_document, canonical_spec, sort_by_key_idem]

theorem typed_equal_iff {left right : ConfigDocument} (h : left.spec.Unique) :
    typed_equal left right = true
      ↔ left.metadata_name = right.metadata_name ∧ left.spec.SameResources right.spec := by
  unfold typed_equal canonical_document
  rw [decide_eq_true_iff, ConfigDocument.mk.injEq, canonical_spec_eq_iff h]

theorem typed_equal_canonical (document : ConfigDocument) :
    typed_equal (canonical_document document) document = true := by
  unfold typed_equal
  rw [decide_eq_true_iff, canonical_document_idem]

/-! ## The canonical text -/

section CanonicalText

variable {yaml : Yaml} {debug : Text → Text}

/-- The text of a document is the text of its canonical form. -/
theorem to_canonical_yaml_eq_ok {document : ConfigDocument} {text : Text} :
    to_canonical_yaml yaml document = .ok text
      ↔ yaml.to_string (to_value (canonical_document document).to_aggregate) = .ok text := by
  unfold to_canonical_yaml
  cases yaml.to_string (to_value (canonical_document document).to_aggregate) <;> simp

/-- A field of a manifest, as the loader reads it. -/
theorem get_field_to_aggregate (manifest : AggregateManifest) :
    get_field (to_value manifest) "kind" = some (.String manifest.kind)
      ∧ get_field (to_value manifest) "apiVersion" = some (.String manifest.api_version) := by
  refine ⟨?_, ?_⟩ <;>
    simp [get_field, to_value, to_struct, AggregateManifest.fields, untag, Mapping.get]

/-- What an aggregate that is written contributes. -/
theorem contribution_to_aggregate (resolve_skill_source : SkillSourceResolver) (document : ConfigDocument) :
    contribution debug resolve_skill_source (.ok (to_value document.to_aggregate))
      = .ok ⟨some document.metadata_name, document.spec⟩ := by
  obtain ⟨hkind, hversion⟩ := get_field_to_aggregate document.to_aggregate
  have hread : (read_value (to_value document.to_aggregate) : Except ConfigError AggregateManifest)
      = .ok document.to_aggregate := by
    unfold read_value
    rw [round_trip]
  rw [contribution_eq debug KIND_AGGREGATE rfl (by rw [hkind]; rfl) (by rw [hversion]; rfl)]
  unfold merge_document
  rw [if_pos rfl, hread]
  simp [bind, Except.bind, ConfigDocument.to_aggregate]

/-- The canonical text loads as the canonical form. -/
theorem load_yaml_canonical (hyaml : yaml.RoundTrips) {document : ConfigDocument}
    (hunique : document.spec.Unique) {text : Text} (h : to_canonical_yaml yaml document = .ok text) :
    load_yaml yaml debug text = .ok (canonical_document document) := by
  have hdocuments := hyaml.documents (unique _) (to_canonical_yaml_eq_ok.1 h)
  have hmerged : merge_source yaml debug {} text (fun _ => .error .UnsupportedBundle)
      = .ok ⟨some document.metadata_name, canonical_spec document.spec⟩ := by
    unfold merge_source
    rw [hdocuments, List.foldlM_cons]
    have hone : contribution debug (fun _ => .error .UnsupportedBundle)
        (.ok (to_value (canonical_document document).to_aggregate)) = _ :=
      contribution_to_aggregate _ (canonical_document document)
    unfold contribution at hone
    rw [hone]
    rfl
  have hcanonical : (canonical_spec document.spec).Unique :=
    document.spec.canonical_same.symm.unique hunique
  unfold load_yaml load_yaml_with_resolver
  rw [hmerged]
  show DocumentAccumulator.finish ⟨some document.metadata_name, canonical_spec document.spec⟩ = _
  exact finish_eq_ok.2 ⟨fun hempty => absurd hempty.1 (by simp), hcanonical, rfl⟩

end CanonicalText

/-- **The canonical text is a normal form of the configuration.** For documents with unique
identities: typed-equal documents have the same canonical text, and documents with the
same text are typed-equal. Reordering resources changes neither, canonicalising twice is
canonicalising once, and the text loads as a typed-equal document. Equal semantic hashes
are typed-equal documents, or two texts with the same digest. -/
theorem canonical_yaml_normal_form (yaml : Yaml) (debug : Text → Text) (sha256_hex : Bytes → Text)
    (hyaml : yaml.RoundTrips) (left right : ConfigDocument) (hleft : left.spec.Unique)
    (hright : right.spec.Unique) :
    (typed_equal left right = true → to_canonical_yaml yaml left = to_canonical_yaml yaml right)
      ∧ (∀ text, to_canonical_yaml yaml left = .ok text → to_canonical_yaml yaml right = .ok text →
          typed_equal left right = true)
      ∧ (left.metadata_name = right.metadata_name → left.spec.SameResources right.spec →
          canonical_document left = canonical_document right)
      ∧ canonical_document (canonical_document left) = canonical_document left
      ∧ (∀ text, to_canonical_yaml yaml left = .ok text →
          ∃ loaded, load_yaml yaml debug text = .ok loaded ∧ typed_equal loaded left = true)
      ∧ (∀ text text', to_canonical_yaml yaml left = .ok text →
          to_canonical_yaml yaml right = .ok text' →
          (semantic_hash yaml sha256_hex left = semantic_hash yaml sha256_hex right
            ↔ typed_equal left right = true
              ∨ text ≠ text' ∧ sha256_hex (into_bytes text) = sha256_hex (into_bytes text'))) := by
  have hcongr : typed_equal left right = true →
      to_canonical_yaml yaml left = to_canonical_yaml yaml right := by
    intro h
    unfold to_canonical_yaml
    rw [of_decide_eq_true h]
  have htext : ∀ text, to_canonical_yaml yaml left = .ok text →
      to_canonical_yaml yaml right = .ok text → typed_equal left right = true := by
    intro text h h'
    have hload : load_yaml yaml debug text = _ := load_yaml_canonical hyaml hleft h
    rw [load_yaml_canonical hyaml hright h'] at hload
    unfold typed_equal
    rw [decide_eq_true_iff]
    exact (Except.ok.inj hload).symm
  refine ⟨hcongr, htext, fun hname hsame => ?_, canonical_document_idem left, fun text h => ?_,
    fun text text' h h' => ?_⟩
  · exact of_decide_eq_true ((typed_equal_iff hleft).2 ⟨hname, hsame⟩)
  · exact ⟨_, load_yaml_canonical hyaml hleft h, typed_equal_canonical left⟩
  · have hhash : ∀ {document : ConfigDocument} {text : Text},
        to_canonical_yaml yaml document = .ok text →
        semantic_hash yaml sha256_hex document = .ok (sha256_hex (into_bytes text)) := by
      intro document text h
      unfold semantic_hash
      rw [h]
      rfl
    rw [hhash h, hhash h', Except.ok.injEq]
    constructor
    · intro hdigest
      by_cases heq : text = text'
      · rw [← heq] at h'
        exact Or.inl (htext text h h')
      · exact Or.inr ⟨heq, hdigest⟩
    · rintro (hequal | ⟨-, hdigest⟩)
      · have hsame := hcongr hequal
        rw [h, h'] at hsame
        rw [Except.ok.inj hsame]
      · exact hdigest

/-- A document that declares two secrets. -/
def declaring (first second : SecretName) : ConfigDocument :=
  { spec := { secrets := [⟨first, none⟩, ⟨second, none⟩] } }

/-- The canonical text of a document that declares `A` and `B`. -/
def declaring_text : Text :=
  ("apiVersion: agentspace.dev/v1alpha1\nkind: AgentSpaceConfig\nmetadata:\n  name: local\n"
    ++ "spec:\n  secrets:\n  - name: A\n  - name: B").toList

/-- The library, for this document. -/
def declaring_yaml : Yaml :=
  Yaml.only (to_value (declaring ⟨"A".toList, by decide⟩ ⟨"B".toList, by decide⟩).to_aggregate)
    (declaring_text ++ ['\n'])

theorem declaring_yaml_roundTrips : declaring_yaml.RoundTrips :=
  Yaml.only_roundTrips (unique _) (by decide +kernel)

/-- Two declarations in either order: one text, which loads. -/
theorem canonical_yaml_normal_form_declaring :
    let ab := declaring ⟨"A".toList, by decide⟩ ⟨"B".toList, by decide⟩
    let ba := declaring ⟨"B".toList, by decide⟩ ⟨"A".toList, by decide⟩
    to_canonical_yaml declaring_yaml ba = .ok (declaring_text ++ ['\n'])
      ∧ to_canonical_yaml declaring_yaml ba = to_canonical_yaml declaring_yaml ab
      ∧ ∃ loaded, load_yaml declaring_yaml id (declaring_text ++ ['\n']) = .ok loaded
        ∧ typed_equal loaded ba = true := by
  intro ab ba
  have hab : ab.spec.Unique := (check_duplicate_ids_eq_ok ab).1 (by decide)
  have hba : ba.spec.Unique := (check_duplicate_ids_eq_ok ba).1 (by decide)
  have hform := canonical_yaml_normal_form declaring_yaml id (fun _ => [])
    declaring_yaml_roundTrips ba ab hba hab
  have htext : to_canonical_yaml declaring_yaml ba = .ok (declaring_text ++ ['\n']) := by
    decide +kernel
  exact ⟨htext, hform.1 (by decide +kernel), hform.2.2.2.2.1 _ htext⟩

end AgentSpace.Config
