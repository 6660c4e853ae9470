/-
One configuration, laid out in different ways.

A layout is a list of sources: one plain YAML text, or the manifests of a bundle. What it
loads as does not depend on the order of its documents or on how they are divided over
sources, but for the name.
-/
import AgentSpace.Config.Bundle
import AgentSpace.Config.Canonical

set_option autoImplicit false

namespace AgentSpace.Config

open Text Serde Lib

/-! ## Layouts -/

/-- Sources, each with its resolver. -/
abbrev Layout := List (SkillSourceResolver × Text)

/-- A document of a stream, with the resolver of its source. -/
abbrev LaidOut := SkillSourceResolver × Except String Value

section Layout

variable (yaml : Yaml) (debug : Text → Text)

/-- An empty document does not count. -/
def counts : Except String Value → Bool
  | .ok value => !value.is_null
  | .error _ => true

/-- The documents of a source that count. -/
def documents_of (source : Text) : List (Except String Value) :=
  (yaml.documents source).filter counts

/-- The documents of a layout, in their order. -/
def Layout.documents (layout : Layout) : List LaidOut :=
  layout.flatMap fun part => (documents_of yaml part.2).map fun document => (part.1, document)

/-- The sources of a layout, merged one after the other. -/
def load_layout (layout : Layout) : Except ConfigError ConfigDocument := do
  let accumulator ← layout.foldlM (fun accumulator part =>
    merge_source yaml debug accumulator part.2 part.1) {}
  accumulator.finish

/-- The layout of a plain source. -/
def plain_layout (source : Text) : Layout := [(fun _ => .error .UnsupportedBundle, source)]

/-- The layout of the manifests of a bundle. -/
def bundle_layout (files : TextMap) (manifest_paths : List Text) : Layout :=
  manifest_paths.filterMap fun manifest_path => files[manifest_path]?.map fun source =>
    (expand_source debug files manifest_paths (parent_dir manifest_path), source)

theorem load_yaml_eq (source : Text) :
    load_yaml yaml debug source = load_layout yaml debug (plain_layout source) := by
  unfold load_yaml load_yaml_with_resolver load_layout plain_layout
  rw [List.foldlM_cons]
  cases merge_source yaml debug {} source fun _ => .error .UnsupportedBundle <;> rfl

/-- One turn of `merge_manifests`. -/
def merge_manifest (files : TextMap) (manifest_paths : List Text) (accumulator : DocumentAccumulator)
    (manifest_path : Text) : Except ConfigError DocumentAccumulator :=
  match files[manifest_path]? with
  | none => .ok accumulator
  | some source => merge_source yaml debug accumulator source
      (expand_source debug files manifest_paths (parent_dir manifest_path))

/-- The manifests of a bundle are merged as its layout. -/
theorem merge_manifests_eq (files : TextMap) (manifest_paths : List Text) : (do
      let accumulator ← merge_manifests yaml debug files manifest_paths
      accumulator.finish) = load_layout yaml debug (bundle_layout debug files manifest_paths) := by
  have hgeneral : ∀ (paths : List Text) (acc : DocumentAccumulator),
      paths.foldlM (merge_manifest yaml debug files manifest_paths) acc
        = (paths.filterMap fun manifest_path => files[manifest_path]?.map fun source =>
            (expand_source debug files manifest_paths (parent_dir manifest_path), source)).foldlM
          (fun accumulator part => merge_source yaml debug accumulator part.2 part.1) acc := by
    intro paths
    induction paths with
    | nil => exact fun _ => rfl
    | cons path rest ih =>
      intro acc
      rw [List.foldlM_cons, merge_manifest]
      cases hfile : files[path]? with
      | none =>
        rw [List.filterMap_cons_none (by rw [hfile]; rfl)]
        exact ih acc
      | some source =>
        rw [List.filterMap_cons_some (by rw [hfile]; rfl), List.foldlM_cons]
        dsimp only
        cases merge_source yaml debug acc source
            (expand_source debug files manifest_paths (parent_dir path)) with
        | error e => rfl
        | ok acc => exact ih acc
  exact congrArg (· >>= DocumentAccumulator.finish) (hgeneral manifest_paths {})

/-! ## What a layout adds up to -/

/-- What the documents contribute, if all of them can be read. -/
def contributions (documents : List LaidOut) : Except ConfigError (List DocumentAccumulator) :=
  documents.mapM fun document => contribution debug document.1 document.2

/-- The sum of contributions. -/
def sum_up (parts : List DocumentAccumulator) : DocumentAccumulator :=
  parts.foldl DocumentAccumulator.add {}

theorem foldl_add (parts : List DocumentAccumulator) (acc : DocumentAccumulator) :
    parts.foldl DocumentAccumulator.add acc = acc.add (sum_up parts) := by
  unfold sum_up
  induction parts generalizing acc with
  | nil => exact (DocumentAccumulator.add_empty acc).symm
  | cons part rest ih =>
    rw [List.foldl_cons, List.foldl_cons, ih, ih (DocumentAccumulator.add {} part),
      DocumentAccumulator.add_assoc]
    congr 1
    simp [DocumentAccumulator.add]

theorem sum_up_cons (part : DocumentAccumulator) (rest : List DocumentAccumulator) :
    sum_up (part :: rest) = part.add (sum_up rest) := by
  have hpart : DocumentAccumulator.add {} part = part := by simp [DocumentAccumulator.add]
  rw [sum_up, List.foldl_cons, foldl_add, hpart]

/-- A document that does not count is passed over. -/
theorem foldlM_counts (resolve : SkillSourceResolver) (documents : List (Except String Value))
    (acc : DocumentAccumulator) :
    documents.foldlM (merge_value debug resolve) acc
      = (documents.filter counts).foldlM (merge_value debug resolve) acc := by
  induction documents generalizing acc with
  | nil => rfl
  | cons document rest ih =>
    by_cases hcounts : counts document = true
    · rw [List.filter_cons_of_pos hcounts, List.foldlM_cons, List.foldlM_cons]
      exact bind_congr fun acc => ih acc
    · rw [List.filter_cons_of_neg hcounts, ← ih, List.foldlM_cons]
      cases document with
      | error e => exact absurd rfl hcounts
      | ok value =>
        have hnull : value.is_null = true := by simpa [counts] using hcounts
        unfold merge_value
        dsimp only
        rw [if_pos hnull]
        rfl

/-- Merging documents adds up what they contribute. -/
theorem foldlM_merge_value (documents : List LaidOut) (acc : DocumentAccumulator) :
    documents.foldlM (fun accumulator document =>
        merge_value debug document.1 accumulator document.2) acc
      = (contributions debug documents).map fun parts => acc.add (sum_up parts) := by
  unfold contributions
  induction documents generalizing acc with
  | nil =>
    rw [List.foldlM_nil, List.mapM_nil]
    exact congrArg Except.ok (DocumentAccumulator.add_empty acc).symm
  | cons document rest ih =>
    rw [List.foldlM_cons, List.mapM_cons, merge_value_eq]
    cases contribution debug document.1 document.2 with
    | error e => rfl
    | ok part =>
      have hrest := ih (acc.add part)
      simp only [Except.map, bind, Except.bind] at hrest ⊢
      rw [hrest]
      cases rest.mapM fun document => contribution debug document.1 document.2 with
      | error e => rfl
      | ok parts =>
        simp only [pure, Except.pure]
        rw [sum_up_cons, DocumentAccumulator.add_assoc]

/-- **What a layout loads as**: the sum of the contributions of its documents, finished. -/
theorem load_layout_eq (layout : Layout) :
    load_layout yaml debug layout = (do
      let parts ← contributions debug (layout.documents yaml)
      (sum_up parts).finish) := by
  have hflat : ∀ (layout : Layout) (acc : DocumentAccumulator),
      layout.foldlM (fun accumulator part => merge_source yaml debug accumulator part.2 part.1) acc
        = (layout.documents yaml).foldlM (fun accumulator document =>
            merge_value debug document.1 accumulator document.2) acc := by
    intro layout
    induction layout with
    | nil => exact fun _ => rfl
    | cons part rest ih =>
      intro acc
      have hdocuments : (Layout.documents yaml (part :: rest))
          = ((documents_of yaml part.2).map fun document => (part.1, document))
            ++ Layout.documents yaml rest := rfl
      rw [List.foldlM_cons, hdocuments, List.foldlM_append, List.foldlM_map]
      unfold merge_source
      rw [foldlM_counts]
      exact bind_congr fun acc => ih acc
  unfold load_layout
  rw [hflat, foldlM_merge_value]
  cases contributions debug (layout.documents yaml) with
  | error e => rfl
  | ok parts =>
    have hempty : DocumentAccumulator.add {} (sum_up parts) = sum_up parts := by
      simp [DocumentAccumulator.add]
    simp [Except.map, bind, Except.bind, hempty]

end Layout

/-! ## Order does not matter -/

section Order

variable {yaml : Yaml} {debug : Text → Text}

/-- What a document contributes, or nothing if it cannot be read. -/
def reading (debug : Text → Text) (document : LaidOut) : Option DocumentAccumulator :=
  (contribution debug document.1 document.2).toOption

theorem contributions_eq_ok {documents : List LaidOut} {parts : List DocumentAccumulator} :
    contributions debug documents = .ok parts
      ↔ documents.map (reading debug) = parts.map some := by
  unfold contributions
  induction documents generalizing parts with
  | nil =>
    cases parts with
    | nil => exact ⟨fun _ => rfl, fun _ => rfl⟩
    | cons part rest => exact ⟨fun h => (nomatch Except.ok.inj h), fun h => (nomatch h)⟩
  | cons document rest ih =>
    rw [List.mapM_cons, List.map_cons]
    have hreading : reading debug document
        = (contribution debug document.1 document.2).toOption := rfl
    cases hcontribution : contribution debug document.1 document.2 with
    | error e =>
      rw [hcontribution] at hreading
      rw [hreading]
      cases parts with
      | nil => exact ⟨fun h => (nomatch h), fun h => (nomatch h)⟩
      | cons part parts => exact ⟨fun h => (nomatch h), fun h => (nomatch (List.cons.inj h).1)⟩
    | ok part =>
      rw [hcontribution] at hreading
      rw [hreading]
      cases hrest : rest.mapM fun document => contribution debug document.1 document.2 with
      | error e =>
        refine ⟨fun h => (nomatch h), fun h => ?_⟩
        cases parts with
        | nil => cases h
        | cons part' parts =>
          have := ih.2 (List.cons.inj h).2
          rw [hrest] at this
          cases this
      | ok parts' =>
        cases parts with
        | nil => exact ⟨fun h => (nomatch Except.ok.inj h), fun h => (nomatch h)⟩
        | cons part' parts =>
          rw [List.map_cons, List.cons.injEq, ← ih, hrest]
          simp [bind, Except.bind, pure, Except.pure, Except.toOption]

/-- The resources of a sum are those of its parts. -/
theorem sum_up_spec (parts : List DocumentAccumulator) :
    (sum_up parts).spec.secrets = parts.flatMap (·.spec.secrets)
      ∧ (sum_up parts).spec.kernel_configs = parts.flatMap (·.spec.kernel_configs)
      ∧ (sum_up parts).spec.connections = parts.flatMap (·.spec.connections)
      ∧ (sum_up parts).spec.skills = parts.flatMap (·.spec.skills)
      ∧ (sum_up parts).spec.agents = parts.flatMap (·.spec.agents)
      ∧ (sum_up parts).spec.gateways = parts.flatMap (·.spec.gateways) := by
  induction parts with
  | nil => exact ⟨rfl, rfl, rfl, rfl, rfl, rfl⟩
  | cons part rest ih =>
    obtain ⟨h1, h2, h3, h4, h5, h6⟩ := ih
    rw [sum_up_cons]
    simp only [DocumentAccumulator.add, merge_spec, List.flatMap_cons, h1, h2, h3, h4, h5, h6,
      and_self]

theorem sum_up_name (parts : List DocumentAccumulator) :
    (sum_up parts).metadata_name = (parts.filterMap (·.metadata_name)).getLast? := by
  induction parts with
  | nil => rfl
  | cons part rest ih =>
    rw [sum_up_cons, DocumentAccumulator.add, ih]
    cases hname : part.metadata_name with
    | none =>
      rw [List.filterMap_cons_none hname]
      simp
    | some name =>
      rw [List.filterMap_cons_some hname, List.getLast?_cons]
      cases (rest.filterMap (·.metadata_name)).getLast? <;> rfl

theorem same_resources_of_perm {parts parts' : List DocumentAccumulator} (h : parts.Perm parts') :
    (sum_up parts).spec.SameResources (sum_up parts').spec := by
  obtain ⟨h1, h2, h3, h4, h5, h6⟩ := sum_up_spec parts
  obtain ⟨h1', h2', h3', h4', h5', h6'⟩ := sum_up_spec parts'
  refine ⟨?_, ?_, ?_, ?_, ?_, ?_⟩
  · rw [h1, h1']
    exact h.flatMap_right _
  · rw [h2, h2']
    exact h.flatMap_right _
  · rw [h3, h3']
    exact h.flatMap_right _
  · rw [h4, h4']
    exact h.flatMap_right _
  · rw [h5, h5']
    exact h.flatMap_right _
  · rw [h6, h6']
    exact h.flatMap_right _

theorem spec_is_empty_of_same {a b : ConfigSpec} (h : a.SameResources b) :
    spec_is_empty a = spec_is_empty b := by
  have hone : ∀ {α : Type} {l m : List α}, l.Perm m → l.isEmpty = m.isEmpty := by
    intro α l m hperm
    rw [Bool.eq_iff_iff, List.isEmpty_iff, List.isEmpty_iff]
    exact ⟨fun h => (h ▸ hperm).symm.eq_nil, fun h => (h ▸ hperm).eq_nil⟩
  unfold spec_is_empty
  rw [hone h.secrets, hone h.kernel_configs, hone h.connections, hone h.skills, hone h.agents,
    hone h.gateways]

/-- The outcomes of two loads: both fail, or both give documents that are related. -/
inductive Agree (R : ConfigDocument → ConfigDocument → Prop) :
    Except ConfigError ConfigDocument → Except ConfigError ConfigDocument → Prop
  | failed (e e' : ConfigError) : Agree R (.error e) (.error e')
  | loaded (document document' : ConfigDocument) (h : R document document') :
      Agree R (.ok document) (.ok document')

theorem Agree.mono {R S : ConfigDocument → ConfigDocument → Prop}
    {a b : Except ConfigError ConfigDocument} (h : Agree R a b)
    (hRS : ∀ document document', R document document' → S document document') : Agree S a b := by
  cases h with
  | failed e e' => exact .failed e e'
  | loaded document document' h => exact .loaded _ _ (hRS _ _ h)

/-- Outcomes may be exchanged for others with the same documents. -/
theorem Agree.congr {R : ConfigDocument → ConfigDocument → Prop}
    {a a' b b' : Except ConfigError ConfigDocument} (h : Agree R a' b')
    (ha : ∀ document, a = .ok document ↔ a' = .ok document)
    (hb : ∀ document, b = .ok document ↔ b' = .ok document) : Agree R a b := by
  cases h with
  | failed e e' =>
    cases a with
    | ok document => exact (nomatch (ha document).1 rfl)
    | error d =>
      cases b with
      | ok document => exact (nomatch (hb document).1 rfl)
      | error d' => exact .failed d d'
  | loaded document document' h =>
    rw [(ha document).2 rfl, (hb document').2 rfl]
    exact .loaded _ _ h

/-- All aggregates give the document the same name. -/
def OneName (parts : List DocumentAccumulator) : Prop :=
  ∀ name name', name ∈ parts.filterMap (·.metadata_name) →
    name' ∈ parts.filterMap (·.metadata_name) → name = name'

/-- Finishing the same parts in another order. -/
theorem finish_of_perm {parts parts' : List DocumentAccumulator} (h : parts.Perm parts') :
    Agree (fun document document' => document.spec.Unique
        ∧ document.spec.SameResources document'.spec
        ∧ (OneName parts → document.metadata_name = document'.metadata_name))
      (sum_up parts).finish (sum_up parts').finish := by
  have hsame := same_resources_of_perm h
  have hnames := h.filterMap (·.metadata_name)
  have hname : OneName parts → (sum_up parts).metadata_name = (sum_up parts').metadata_name := by
    intro hone
    rw [sum_up_name, sum_up_name]
    cases hlast : (parts.filterMap (·.metadata_name)).getLast? with
    | none =>
      rw [List.getLast?_eq_none_iff] at hlast
      rw [hlast] at hnames
      rw [hnames.symm.eq_nil]
      rfl
    | some name =>
      cases hlast' : (parts'.filterMap (·.metadata_name)).getLast? with
      | none =>
        rw [List.getLast?_eq_none_iff] at hlast'
        rw [hlast'] at hnames
        rw [hnames.eq_nil] at hlast
        cases hlast
      | some name' =>
        exact congrArg some (hone name name' (List.mem_of_getLast? hlast)
          (hnames.mem_iff.2 (List.mem_of_getLast? hlast')))
  have hempty : ((sum_up parts).metadata_name = none ∧ spec_is_empty (sum_up parts).spec = true)
      ↔ ((sum_up parts').metadata_name = none ∧ spec_is_empty (sum_up parts').spec = true) := by
    rw [spec_is_empty_of_same hsame, sum_up_name, sum_up_name, List.getLast?_eq_none_iff,
      List.getLast?_eq_none_iff]
    refine and_congr_left fun _ => ?_
    exact ⟨fun h => (h ▸ hnames).symm.eq_nil, fun h => (h ▸ hnames).eq_nil⟩
  cases herror : (sum_up parts).finish with
  | ok document =>
    obtain ⟨hnonempty, hunique, rfl⟩ := finish_eq_ok.1 herror
    have hfinish' : (sum_up parts').finish = .ok _ := finish_eq_ok.2
      ⟨fun h => hnonempty (hempty.2 h), hsame.unique hunique, rfl⟩
    rw [hfinish']
    refine .loaded _ _ ⟨hunique, hsame, fun hone => ?_⟩
    rw [hname hone]
  | error e =>
    cases hfinish' : (sum_up parts').finish with
    | error e' => exact .failed e e'
    | ok document =>
      obtain ⟨hnonempty, hunique, -⟩ := finish_eq_ok.1 hfinish'
      have hfinish : (sum_up parts).finish = .ok _ := finish_eq_ok.2
        ⟨fun h => hnonempty (hempty.1 h), hsame.symm.unique hunique, rfl⟩
      rw [herror] at hfinish
      cases hfinish

end Order

/-! ## Skill sources -/

section Sources

variable {debug : Text → Text}

variable {value : Value}

theorem contribution_of_no_source (h : source_manifest value = none)
    (resolve resolve' : SkillSourceResolver) :
    contribution debug resolve (.ok value) = contribution debug resolve' (.ok value) := by
  unfold contribution merge_value
  dsimp only
  by_cases hnull : value.is_null = true
  · rw [if_pos hnull, if_pos hnull]
  · rw [if_neg hnull, if_neg hnull]
    cases hkind : (get_field value "kind").bind Value.as_str with
    | none =>
      unfold read_str_field
      rw [hkind]
      rfl
    | some kind =>
      cases hversion : (get_field value "apiVersion").bind Value.as_str with
      | none =>
        unfold read_str_field
        rw [hkind, hversion]
        rfl
      | some version =>
        unfold read_str_field
        rw [hkind, hversion]
        simp only [bind, Except.bind]
        by_cases hold : version ≠ API_VERSION
        · rw [if_pos hold, if_pos hold]
        · rw [if_neg hold, if_neg hold]
          -- only a skill manifest is given the resolver
          by_cases hskill : kind = "Skill".toList
          · subst hskill
            unfold source_manifest at h
            rw [if_neg (by simp_all)] at h
            rw [merge_document_skill, merge_document_skill]
            unfold read_value
            cases hread : (from_value value : Option (Standalone SkillSpec)) with
            | none => rfl
            | some manifest =>
              rw [hread, Option.bind_some] at h
              have hparse : parse_skill debug manifest resolve
                  = parse_skill debug manifest resolve' := by
                unfold parse_skill
                cases hfiles : manifest.spec.files <;>
                  cases hsource : manifest.spec.source <;> simp_all
              simp only [bind, Except.bind]
              rw [hparse]
          · unfold merge_document
            simp only [if_neg hskill]

variable {manifest : Standalone SkillSpec} {path : Text}

/-- What a skill manifest with a source is. -/
theorem source_manifest_eq_some :
    source_manifest value = some (manifest, path)
      ↔ value.is_null = false ∧ (get_field value "kind").bind Value.as_str = some "Skill".toList
        ∧ (get_field value "apiVersion").bind Value.as_str = some API_VERSION
        ∧ from_value value = some manifest ∧ manifest.spec.files = none
        ∧ manifest.spec.source = some ⟨path⟩ := by
  unfold source_manifest
  by_cases hbad : value.is_null = true
      ∨ (get_field value "kind").bind Value.as_str ≠ some "Skill".toList
      ∨ (get_field value "apiVersion").bind Value.as_str ≠ some API_VERSION
  · rw [if_pos hbad]
    refine iff_of_false (fun h => (nomatch h)) ?_
    rintro ⟨hnull, hkind, hversion, -⟩
    rcases hbad with h | h | h
    · rw [hnull] at h
      cases h
    · exact h hkind
    · exact h hversion
  · rw [if_neg hbad]
    simp only [not_or, not_not, Bool.not_eq_true] at hbad
    obtain ⟨hnull, hkind, hversion⟩ := hbad
    rw [Option.bind_eq_some_iff]
    constructor
    · rintro ⟨read, hread, hmatch⟩
      cases hfiles : read.spec.files with
      | some files => simp [hfiles] at hmatch
      | none =>
        cases hsource : read.spec.source with
        | none => simp [hfiles, hsource] at hmatch
        | some source =>
          simp only [hfiles, hsource, Option.some.injEq, Prod.mk.injEq] at hmatch
          obtain ⟨rfl, rfl⟩ := hmatch
          exact ⟨hnull, hkind, hversion, hread, hfiles, hsource⟩
    · rintro ⟨-, -, -, hread, hfiles, hsource⟩
      refine ⟨manifest, hread, ?_⟩
      simp [hfiles, hsource]

/-- A skill manifest with a source contributes the skill with the files it resolves to. -/
theorem contribution_of_source
    (h : source_manifest value = some (manifest, path)) (resolve : SkillSourceResolver) :
    contribution debug resolve (.ok value) = (resolve path).map fun files =>
      { spec := { skills := [⟨manifest.metadata.name, files⟩] } } := by
  obtain ⟨hnull, hkind, hversion, hread, hfiles, hsource⟩ := source_manifest_eq_some.1 h
  have hvalue : (read_value value : Except ConfigError (Standalone SkillSpec)) = .ok manifest := by
    unfold read_value
    rw [hread]
  rw [contribution_eq debug _ hnull hkind hversion, merge_document_skill, hvalue]
  unfold parse_skill
  simp only [bind, Except.bind, hfiles, hsource]
  cases resolve path <;> rfl

/-- A skill manifest that gives its files inline contributes the skill with these. -/
theorem contribution_of_files {files : TextMap} (hnull : value.is_null = false)
    (hkind : (get_field value "kind").bind Value.as_str = some "Skill".toList)
    (hversion : (get_field value "apiVersion").bind Value.as_str = some API_VERSION)
    (hread : from_value value = some manifest) (hfiles : manifest.spec.files = some files)
    (hsource : manifest.spec.source = none) (resolve : SkillSourceResolver) :
    contribution debug resolve (.ok value)
      = .ok { spec := { skills := [⟨manifest.metadata.name, files⟩] } } := by
  have hvalue : (read_value value : Except ConfigError (Standalone SkillSpec)) = .ok manifest := by
    unfold read_value
    rw [hread]
  rw [contribution_eq debug _ hnull hkind hversion, merge_document_skill, hvalue]
  unfold parse_skill
  simp only [bind, Except.bind, hfiles, hsource]
  rfl

theorem untag_of_is_null : ∀ {value : Value}, value.is_null = true → untag value = .Null
  | .Null, _ => rfl
  | .Tagged _ v, h => by
    have hv : v.is_null = true := h
    rw [untag]
    exact untag_of_is_null hv

/-- A skill manifest with a source that is merged gives no files as well. -/
theorem source_manifest_of_contribution {resolve : SkillSourceResolver} {part : DocumentAccumulator}
    (h : contribution debug resolve (.ok value) = .ok part)
    (hkind : (get_field value "kind").bind Value.as_str = some "Skill".toList)
    (hread : from_value value = some manifest) (hsource : manifest.spec.source = some ⟨path⟩) :
    source_manifest value = some (manifest, path) := by
  have hnull : value.is_null = false := by
    cases hnull : value.is_null with
    | false => rfl
    | true =>
      unfold get_field at hkind
      rw [untag_of_is_null hnull] at hkind
      cases hkind
  have hversion : (get_field value "apiVersion").bind Value.as_str = some API_VERSION := by
    unfold contribution merge_value read_str_field at h
    dsimp only at h
    rw [hnull, if_neg Bool.false_ne_true, hkind] at h
    cases hversion : (get_field value "apiVersion").bind Value.as_str with
    | none => rw [hversion] at h; cases h
    | some version =>
      rw [hversion] at h
      simp only [bind, Except.bind] at h
      by_cases hold : version ≠ API_VERSION
      · rw [if_pos hold] at h
        cases h
      · rw [not_not.1 hold]
  have hvalue : (read_value value : Except ConfigError (Standalone SkillSpec)) = .ok manifest := by
    unfold read_value
    rw [hread]
  refine source_manifest_eq_some.2 ⟨hnull, hkind, hversion, hread, ?_, hsource⟩
  rw [contribution_eq debug _ hnull hkind hversion, merge_document_skill, hvalue] at h
  cases hfiles : manifest.spec.files with
  | none => rfl
  | some files =>
    unfold parse_skill at h
    simp only [bind, Except.bind, hfiles, hsource] at h
    cases h

end Sources

end AgentSpace.Config
