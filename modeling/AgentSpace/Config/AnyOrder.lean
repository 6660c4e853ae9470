/-
Manifests in any order, divided in any way.

What they load as depends on the documents and on the files their skill sources resolve
to; of the order it depends only in the name of the document.
-/
import AgentSpace.Config.Layouts

set_option autoImplicit false

namespace AgentSpace.Config

open Text Serde Lib

/-- How manifests are given. -/
inductive Manifests
  | plain (source : Text)
  | bundle (files : TextMap)

namespace Manifests

variable (yaml : Yaml) (debug : Text → Text)

/-- `load_yaml`, or `load_bundle`. -/
def load : Manifests → Except ConfigError ConfigDocument
  | plain source => load_yaml yaml debug source
  | bundle files => load_bundle yaml debug files

/-- The documents of the source, or of all candidates of the bundle. -/
def documents : Manifests → List (Except String Value)
  | plain source => documents_of yaml source
  | bundle files => (candidates_of files).flatMap fun manifest_path =>
    (files[manifest_path]?.map (documents_of yaml)).getD []

/-- The layout that is merged, where the source directories are found. -/
def layout : Manifests → Except ConfigError Layout
  | plain source => .ok (plain_layout source)
  | bundle files => do
    let candidates := candidates_of files
    let source_dirs ← discover_source_dirs yaml debug files candidates
    .ok (bundle_layout debug files (retained_manifests source_dirs candidates))

end Manifests

/-! ## What a document depends on -/

/-- The name that an aggregate gives the document. -/
def aggregate_name : Except String Value → Option Text
  | .error _ => none
  | .ok value =>
    if value.is_null ∨ (get_field value "kind").bind Value.as_str ≠ some KIND_AGGREGATE
        ∨ (get_field value "apiVersion").bind Value.as_str ≠ some API_VERSION then none
    else (from_value value : Option AggregateManifest).map (·.metadata.name)

/-- A document, and the files its skill source resolves to, if it has one. -/
def resolution (document : LaidOut) : Except String Value × Option (Option TextMap) :=
  (document.2, document.2.toOption.bind fun value =>
    (source_manifest value).map fun source => (document.1 source.2).toOption)

section Resolution

variable {debug : Text → Text}

theorem reading_eq_of_resolution {document document' : LaidOut}
    (h : resolution document = resolution document') :
    reading debug document = reading debug document' := by
  obtain ⟨resolve, value⟩ := document
  obtain ⟨resolve', value'⟩ := document'
  obtain ⟨rfl, hfiles⟩ := Prod.mk.inj h
  unfold reading
  cases value with
  | error e => rfl
  | ok value =>
    cases hsource : source_manifest value with
    | none => rw [contribution_of_no_source hsource resolve resolve']
    | some source =>
      obtain ⟨manifest, path⟩ := source
      dsimp only
      rw [contribution_of_source hsource, contribution_of_source hsource]
      simp only [Except.toOption, Option.bind_some, hsource, Option.map_some,
        Option.some.injEq] at hfiles
      cases hresolve : resolve path <;> cases hresolve' : resolve' path <;>
        simp_all [Except.map, Except.toOption]

theorem perm_readings {documents documents' : List LaidOut}
    (h : (documents.map resolution).Perm (documents'.map resolution)) :
    (documents.map (reading debug)).Perm (documents'.map (reading debug)) := by
  -- a resolver that gives the files of the resolution
  let back : Except String Value × Option (Option TextMap) → LaidOut := fun document =>
    (fun _ => (document.2.bind id).elim (.error .UnsupportedBundle) .ok, document.1)
  have hback : ∀ document : LaidOut,
      reading debug (back (resolution document)) = reading debug document := by
    rintro ⟨resolve, value⟩
    refine reading_eq_of_resolution ?_
    cases value with
    | error e => rfl
    | ok value =>
      simp only [back, resolution, Except.toOption, Option.bind_some]
      cases source_manifest value with
      | none => rfl
      | some source =>
        simp only [Option.map_some]
        cases resolve source.2 <;> rfl
  have hmap := h.map fun document => reading debug (back document)
  simp only [List.map_map, Function.comp_def, hback] at hmap
  exact hmap

/-- Only an aggregate names the document. -/
theorem merge_document_name {kind : Text} {value : Value} {resolve : SkillSourceResolver}
    {acc part : DocumentAccumulator} (hkind : kind ≠ KIND_AGGREGATE)
    (h : merge_document debug kind value resolve acc = .ok part) :
    part.metadata_name = acc.metadata_name := by
  have hbind : ∀ {α : Type} {a : Except ConfigError α} {f : α → Except ConfigError DocumentAccumulator},
      (a >>= f) = .ok part → ∃ x, f x = .ok part := by
    intro α a f hok
    cases a with
    | error e => cases hok
    | ok x => exact ⟨x, hok⟩
  unfold merge_document at h
  rw [if_neg hkind] at h
  split_ifs at h
  · obtain ⟨manifest, h⟩ := hbind h
    split at h
    · rw [← Except.ok.inj h]
    · cases h
  · obtain ⟨manifest, h⟩ := hbind h
    split at h
    · rw [← Except.ok.inj h]
    · cases h
  · obtain ⟨manifest, h⟩ := hbind h
    rw [← Except.ok.inj h]
  · obtain ⟨manifest, h⟩ := hbind h
    obtain ⟨skill, h⟩ := hbind h
    rw [← Except.ok.inj h]
  · obtain ⟨manifest, h⟩ := hbind h
    rw [← Except.ok.inj h]
  · obtain ⟨manifest, h⟩ := hbind h
    rw [← Except.ok.inj h]

/-- The name that a contribution carries is that of an aggregate. -/
theorem reading_name {document : LaidOut} {part : DocumentAccumulator}
    (h : reading debug document = some part) : part.metadata_name = aggregate_name document.2 := by
  obtain ⟨resolve, value⟩ := document
  unfold reading contribution merge_value at h
  cases value with
  | error e => cases h
  | ok value =>
    unfold aggregate_name
    dsimp only at h ⊢
    by_cases hnull : value.is_null = true
    · rw [if_pos hnull] at h
      rw [if_pos (Or.inl hnull), ← Option.some.inj h]
    · rw [if_neg hnull] at h
      unfold read_str_field at h
      cases hkind : (get_field value "kind").bind Value.as_str with
      | none => rw [hkind] at h; cases h
      | some kind =>
        cases hversion : (get_field value "apiVersion").bind Value.as_str with
        | none => rw [hkind, hversion] at h; cases h
        | some version =>
          rw [hkind, hversion] at h
          simp only [bind, Except.bind] at h
          by_cases hold : version ≠ API_VERSION
          · rw [if_pos hold] at h; cases h
          · rw [if_neg hold] at h
            by_cases hagg : kind = KIND_AGGREGATE
            · rw [if_neg (by simp_all)]
              unfold merge_document read_value at h
              rw [if_pos hagg] at h
              cases hread : (from_value value : Option AggregateManifest) with
              | none => rw [hread] at h; cases h
              | some manifest =>
                rw [hread] at h
                rw [← Option.some.inj h]
                rfl
            · rw [if_pos (by simp_all)]
              cases hmerge : merge_document debug kind value resolve {} with
              | error e => rw [hmerge] at h; cases h
              | ok merged =>
                rw [hmerge] at h
                rw [← Option.some.inj h]
                exact merge_document_name hagg hmerge

end Resolution

/-! ## Layouts of the same documents -/

/-- The same resources, and the same name where all aggregates carry one. -/
def SameConfiguration (names : List Text) (document document' : ConfigDocument) : Prop :=
  typed_equal document { document' with metadata_name := document.metadata_name } = true
    ∧ ((∀ name ∈ names, ∀ name' ∈ names, name = name') → typed_equal document document' = true)

/-- The names that the aggregates of a layout carry. -/
def Layout.names (yaml : Yaml) (layout : Layout) : List Text :=
  (layout.documents yaml).filterMap fun document => aggregate_name document.2

section Layouts

variable {yaml : Yaml} {debug : Text → Text}

/-- All contributions, or there is a document that cannot be read. -/
theorem contributions_cases (debug : Text → Text) (documents : List LaidOut) :
    (∃ parts, contributions debug documents = .ok parts
        ∧ documents.map (reading debug) = parts.map some)
      ∨ (∃ e, contributions debug documents = .error e)
        ∧ none ∈ documents.map (reading debug) := by
  cases hall : contributions debug documents with
  | ok parts => exact .inl ⟨parts, rfl, contributions_eq_ok.1 hall⟩
  | error e =>
    refine .inr ⟨⟨e, rfl⟩, by_contra fun hnone => ?_⟩
    -- if all could be read, so could the list
    have hsome : documents.map (reading debug)
        = ((documents.map (reading debug)).filterMap id).map some := by
      generalize documents.map (reading debug) = readings at hnone
      induction readings with
      | nil => rfl
      | cons head rest ih =>
        cases head with
        | none => exact absurd (List.mem_cons_self ..) hnone
        | some part =>
          exact congrArg (some part :: ·) (ih fun h => hnone (List.mem_cons_of_mem _ h))
    rw [contributions_eq_ok.2 hsome] at hall
    cases hall

theorem names_of_contributions {documents : List LaidOut} {parts : List DocumentAccumulator}
    (h : documents.map (reading debug) = parts.map some) :
    documents.filterMap (fun document => aggregate_name document.2)
      = parts.filterMap (·.metadata_name) := by
  induction documents generalizing parts with
  | nil =>
    cases parts with
    | nil => rfl
    | cons part parts => cases h
  | cons document rest ih =>
    cases parts with
    | nil => cases h
    | cons part parts =>
      obtain ⟨hhead, htail⟩ := List.cons.inj h
      rw [List.filterMap_cons, List.filterMap_cons, ih htail, reading_name hhead]

/-- Layouts of the same documents load the same. -/
theorem load_layout_agree {layout layout' : Layout} (h : ((layout.documents yaml).map (reading debug)).Perm
      ((layout'.documents yaml).map (reading debug))) :
    Agree (SameConfiguration (layout.names yaml)) (load_layout yaml debug layout)
      (load_layout yaml debug layout') := by
  rw [load_layout_eq, load_layout_eq]
  rcases contributions_cases debug (layout.documents yaml) with ⟨parts, hparts, hread⟩ | ⟨⟨e, herror⟩, hnone⟩
  · rcases contributions_cases debug (layout'.documents yaml)
      with ⟨parts', hparts', hread'⟩ | ⟨-, hnone'⟩
    · rw [hparts, hparts']
      have hperm : parts.Perm parts' := by
        have hmap := (hread ▸ hread' ▸ h : (parts.map some).Perm (parts'.map some)).filterMap id
        simpa using hmap
      have hnames : layout.names yaml = parts.filterMap (·.metadata_name) :=
        names_of_contributions hread
      refine (finish_of_perm hperm).mono fun document document' ⟨hunique, hsame, hname⟩ => ?_
      refine ⟨(typed_equal_iff hunique).2 ⟨rfl, hsame⟩, fun hone => ?_⟩
      refine (typed_equal_iff hunique).2 ⟨hname fun name name' hmem hmem' => ?_, hsame⟩
      exact hone name (hnames ▸ hmem) name' (hnames ▸ hmem')
    · rw [← h.mem_iff, hread] at hnone'
      simp at hnone'
  · rcases contributions_cases debug (layout'.documents yaml)
      with ⟨parts', hparts', hread'⟩ | ⟨⟨e', herror'⟩, -⟩
    · rw [h.mem_iff, hread'] at hnone
      simp at hnone
    · rw [herror, herror']
      exact .failed e e'

/-- The document has the name of the last aggregate. -/
theorem load_layout_name {layout : Layout} {document : ConfigDocument}
    (h : load_layout yaml debug layout = .ok document) :
    document.metadata_name = (layout.names yaml).getLast?.getD DEFAULT_METADATA_NAME := by
  rw [load_layout_eq] at h
  rcases contributions_cases debug (layout.documents yaml) with ⟨parts, hparts, hread⟩ | ⟨⟨e, herror⟩, -⟩
  · rw [hparts] at h
    obtain ⟨-, -, rfl⟩ := finish_eq_ok.1 h
    rw [Layout.names, names_of_contributions hread, ← sum_up_name]
  · rw [herror] at h
    cases h

end Layouts

/-! ## Plain YAML and bundles -/

namespace Manifests

variable {yaml : Yaml} {debug : Text → Text}

variable {manifests : Manifests}

theorem load_eq_ok {layout : Layout}
    (h : manifests.layout yaml debug = .ok layout) (document : ConfigDocument) :
    manifests.load yaml debug = .ok document ↔ load_layout yaml debug layout = .ok document := by
  have hnothing : ∀ layout : Layout, layout = [] →
      ¬ load_layout yaml debug layout = .ok document := by
    rintro layout rfl hok
    cases hok
  cases manifests with
  | plain source =>
    obtain rfl := Except.ok.inj h
    rw [load, load_yaml_eq]
  | bundle files =>
    unfold Manifests.layout at h
    unfold load load_bundle
    dsimp only at h ⊢
    cases hdirs : discover_source_dirs yaml debug files (candidates_of files) with
    | error e => rw [hdirs] at h; cases h
    | ok source_dirs =>
      rw [hdirs] at h
      obtain rfl := Except.ok.inj h
      by_cases hcandidates : candidates_of files = []
      · rw [if_pos hcandidates]
        refine iff_of_false (fun h => (nomatch h)) (hnothing _ ?_)
        rw [hcandidates]
        rfl
      · rw [if_neg hcandidates]
        simp only [bind, Except.bind]
        by_cases hretained : retained_manifests source_dirs (candidates_of files) = []
        · rw [if_pos hretained]
          refine iff_of_false (fun h => (nomatch h)) (hnothing _ ?_)
          rw [hretained]
          rfl
        · rw [if_neg hretained]
          rw [← merge_manifests_eq]
          rfl

/-- No document declares a skill source. -/
def Inline (yaml : Yaml) (manifests : Manifests) : Prop :=
  ∀ value, .ok value ∈ manifests.documents yaml → source_manifest value = none

/-- The layout of manifests of which all are retained. -/
def flat_layout (debug : Text → Text) : Manifests → Layout
  | plain source => plain_layout source
  | bundle files => bundle_layout debug files (candidates_of files)

theorem flat_layout_documents (debug : Text → Text) (manifests : Manifests) :
    ((manifests.flat_layout debug).documents yaml).map Prod.snd = manifests.documents yaml := by
  have hone : ∀ part : SkillSourceResolver × Text,
      ((documents_of yaml part.2).map fun document => (part.1, document)).map Prod.snd
        = documents_of yaml part.2 := by
    intro part
    rw [List.map_map]
    exact List.map_id _
  cases manifests with
  | plain source =>
    unfold flat_layout plain_layout Layout.documents documents
    rw [List.flatMap_cons, List.flatMap_nil, List.append_nil, hone]
  | bundle files =>
    have hgeneral : ∀ manifest_paths paths : List Text,
        (paths.filterMap fun path => files[path]?.map fun source =>
            (expand_source debug files manifest_paths (parent_dir path), source)).flatMap
          (fun part => documents_of yaml part.2)
        = paths.flatMap fun path => (files[path]?.map (documents_of yaml)).getD [] := by
      intro manifest_paths paths
      induction paths with
      | nil => rfl
      | cons path rest ih =>
        rw [List.flatMap_cons, ← ih]
        cases hfile : files[path]? with
        | none => rw [List.filterMap_cons_none (by rw [hfile]; rfl)]; rfl
        | some source =>
          rw [List.filterMap_cons_some (by rw [hfile]; rfl), List.flatMap_cons]
          rfl
    unfold flat_layout bundle_layout Layout.documents documents
    rw [List.map_flatMap]
    simp only [hone]
    exact hgeneral _ _

theorem resolution_of_inline (h : manifests.Inline yaml) :
    ((manifests.flat_layout debug).documents yaml).map resolution
      = (manifests.documents yaml).map fun document => (document, none) := by
  rw [← flat_layout_documents debug, List.map_map]
  refine List.map_congr_left fun document hmem => ?_
  obtain ⟨resolve, value⟩ := document
  have hvalue : value ∈ manifests.documents yaml := by
    rw [← flat_layout_documents debug]
    exact List.mem_map.2 ⟨_, hmem, rfl⟩
  unfold resolution
  cases value with
  | error e => rfl
  | ok value =>
    simp only [Except.toOption, Option.bind_some, h value hvalue]
    rfl

theorem exists_of_mapM_error {α β ε : Type} {f : α → Except ε β} {l : List α} {e : ε}
    (h : l.mapM f = .error e) : ∃ a ∈ l, f a = .error e := by
  induction l with
  | nil => cases h
  | cons a rest ih =>
    rw [List.mapM_cons] at h
    cases hhead : f a with
    | error e' =>
      rw [hhead] at h
      exact ⟨a, by simp, hhead.trans (congrArg _ (Except.error.inj h))⟩
    | ok b =>
      rw [hhead] at h
      cases htail : rest.mapM f with
      | ok bs => rw [htail] at h; cases h
      | error e' =>
        rw [htail] at h
        obtain ⟨a', hmem, herror⟩ := ih (htail.trans (congrArg _ (Except.error.inj h)))
        exact ⟨a', List.mem_cons_of_mem _ hmem, herror⟩

/-- A source of which some document cannot be read. -/
theorem merge_source_error {resolve : SkillSourceResolver} {source : Text} {e : ConfigError}
    (h : merge_source yaml debug {} source resolve = .error e) :
    ∃ document ∈ documents_of yaml source, reading debug (resolve, document) = none := by
  have hfold : merge_source yaml debug {} source resolve
      = ((documents_of yaml source).map fun document => (resolve, document)).foldlM
          (fun accumulator document => merge_value debug document.1 accumulator document.2) {} := by
    rw [List.foldlM_map]
    exact foldlM_counts debug resolve _ _
  rw [hfold, foldlM_merge_value] at h
  rcases contributions_cases debug
      ((documents_of yaml source).map fun document => (resolve, document))
    with ⟨parts, hparts, -⟩ | ⟨-, hnone⟩
  · rw [hparts] at h
    cases h
  · rw [List.map_map, List.mem_map] at hnone
    obtain ⟨document, hmem, hnone⟩ := hnone
    exact ⟨document, hmem, hnone⟩

/-- A document that cannot be read in some source cannot be read in the layout. -/
theorem load_layout_error (h : manifests.Inline yaml)
    {document : Except String Value} (hmem : document ∈ manifests.documents yaml)
    {resolve : SkillSourceResolver} (hnone : reading debug (resolve, document) = none) :
    ∃ e, load_layout yaml debug (manifests.flat_layout debug) = .error e := by
  have hplain : (document, none) ∈ ((manifests.flat_layout debug).documents yaml).map resolution := by
    rw [resolution_of_inline h]
    exact List.mem_map.2 ⟨document, hmem, rfl⟩
  obtain ⟨document', hmem', hresolution⟩ := List.mem_map.1 hplain
  have hread : reading debug document' = none := by
    rw [← hnone]
    refine reading_eq_of_resolution (hresolution.trans ?_)
    unfold resolution
    cases document with
    | error e => rfl
    | ok value =>
      simp only [Except.toOption, Option.bind_some, h value hmem]
      rfl
  rcases contributions_cases debug ((manifests.flat_layout debug).documents yaml)
    with ⟨parts, hparts, hreadings⟩ | ⟨⟨e, herror⟩, -⟩
  · have hunread := List.mem_map.2 ⟨document', hmem', hread⟩
    rw [hreadings] at hunread
    simp at hunread
  · exact ⟨e, by rw [load_layout_eq, herror]; rfl⟩

section Discovery

variable {files : TextMap} {path : Text} (hpath : path ∈ candidates_of files)
include hpath

theorem declared_by_of_inline (h : (Manifests.bundle files).Inline yaml) {dirs : List Text}
    (hdirs : declared_by yaml debug files path = .ok dirs) : dirs = [] := by
  unfold declared_by at hdirs
  cases hfile : files[path]? with
  | none => rw [hfile] at hdirs; exact (Except.ok.inj hdirs).symm
  | some source =>
    rw [hfile] at hdirs
    dsimp only at hdirs
    unfold declared_source_dirs at hdirs
    cases hmerge : merge_source yaml debug {} source
        (noting_resolver debug (parent_dir path)) with
    | error e => rw [hmerge] at hdirs; cases hdirs
    | ok acc =>
      rw [hmerge] at hdirs
      rw [← Except.ok.inj hdirs, List.filterMap_eq_nil_iff]
      intro document hdocument
      cases document with
      | error e => rfl
      | ok value =>
        simp only [Except.toOption, Option.bind_some, Option.bind_eq_none_iff]
        intro source' hsource
        have hcounts : counts (.ok value) = true := by
          unfold source_manifest at hsource
          cases hnull : value.is_null with
          | false => simp [counts, hnull]
          | true => rw [if_pos (Or.inl hnull)] at hsource; cases hsource
        have hmem : .ok value ∈ (Manifests.bundle files).documents yaml := by
          refine List.mem_flatMap.2 ⟨path, hpath, ?_⟩
          rw [hfile]
          exact List.mem_filter.2 ⟨hdocument, hcounts⟩
        rw [h value hmem] at hsource
        cases hsource

/-- A candidate whose declarations cannot be read holds a document that cannot be. -/
theorem exists_unread_of_declared_by {e : ConfigError}
    (herror : declared_by yaml debug files path = .error e) :
    ∃ document ∈ (Manifests.bundle files).documents yaml,
      reading debug (noting_resolver debug (parent_dir path), document) = none := by
  unfold declared_by at herror
  cases hfile : files[path]? with
  | none => rw [hfile] at herror; cases herror
  | some source =>
    rw [hfile] at herror
    dsimp only at herror
    unfold declared_source_dirs at herror
    cases hmerge : merge_source yaml debug {} source
        (noting_resolver debug (parent_dir path)) with
    | ok acc => rw [hmerge] at herror; cases herror
    | error e' =>
      obtain ⟨document, hdocument, hnone⟩ := merge_source_error hmerge
      refine ⟨document, List.mem_flatMap.2 ⟨path, hpath, ?_⟩, hnone⟩
      rw [hfile]
      exact hdocument

end Discovery

theorem retained_nothing (candidates : List Text) : retained_manifests [] candidates = candidates :=
  List.filter_eq_self.2 fun _ _ => rfl

/-- Without skill sources, no round adds a directory. -/
theorem discover_of_inline {files : TextMap} (h : (Manifests.bundle files).Inline yaml) :
    discover_source_dirs yaml debug files (candidates_of files)
      = ((candidates_of files).mapM (declared_by yaml debug files)).map fun _ => [] := by
  have hone : ∀ path ∈ candidates_of files, discover_one yaml debug files [] path = [] := by
    intro path hpath
    unfold discover_one
    rw [if_neg (by simp [is_excluded])]
    cases hdirs : declared_by yaml debug files path with
    | error e => rfl
    | ok dirs => rw [declared_by_of_inline hpath h hdirs]; rfl
  have hround : ∀ paths : List Text, (∀ path ∈ paths, path ∈ candidates_of files) →
      discover_round yaml debug files paths [] = [] := by
    intro paths
    induction paths with
    | nil => exact fun _ => rfl
    | cons path rest ih =>
      intro hpaths
      unfold discover_round
      rw [List.foldl_cons, hone path (hpaths path (by simp))]
      exact ih fun path hpath => hpaths path (List.mem_cons_of_mem _ hpath)
  have hdirs : discover_loop yaml debug files (candidates_of files)
      ((candidates_of files).length + 1) [] = [] := by
    rw [discover_loop, if_pos (hround _ fun _ hpath => hpath)]
  unfold discover_source_dirs
  dsimp only
  rw [hdirs, retained_nothing]

theorem load_of_inline (h : manifests.Inline yaml) (document : ConfigDocument) :
    manifests.load yaml debug = .ok document
      ↔ load_layout yaml debug (manifests.flat_layout debug) = .ok document := by
  cases manifests with
  | plain source =>
    have hlayout : (plain source).layout yaml debug = .ok (plain_layout source) := rfl
    exact load_eq_ok hlayout document
  | bundle files =>
    cases hall : (candidates_of files).mapM (declared_by yaml debug files) with
    | ok all =>
      refine load_eq_ok ?_ document
      unfold Manifests.layout flat_layout
      dsimp only
      rw [discover_of_inline h, hall]
      simp only [Except.map, bind, Except.bind, retained_nothing]
    | error e =>
      obtain ⟨path, hpath, herror⟩ := exists_of_mapM_error hall
      obtain ⟨unread, hmem, hnone⟩ := exists_unread_of_declared_by hpath herror
      obtain ⟨e', herror'⟩ := load_layout_error h hmem hnone
      refine iff_of_false (fun hok => ?_) (by rw [herror']; exact fun hok => (nomatch hok))
      unfold load load_bundle at hok
      dsimp only at hok
      rw [discover_of_inline h, hall] at hok
      by_cases hcandidates : candidates_of files = []
      · rw [if_pos hcandidates] at hok
        cases hok
      · rw [if_neg hcandidates] at hok
        cases hok

end Manifests

/-- **Order and division do not matter**, but for the name. Of manifests, plain or in a
bundle, without skill sources: any two that have the same documents, in any order and
divided in any way, both fail to load, or load as the same resources, and under the same
name if all aggregates carry one. With skill sources the same holds of manifests that are
merged as layouts with the same documents, of which each source resolves to the same
files. In each case the name is that of the last aggregate. -/
theorem load_any_order (yaml : Yaml) (debug : Text → Text) :
    (∀ manifests manifests' : Manifests, manifests.Inline yaml →
        (manifests.documents yaml).Perm (manifests'.documents yaml) →
        Agree (SameConfiguration ((manifests.documents yaml).filterMap aggregate_name))
          (manifests.load yaml debug) (manifests'.load yaml debug))
      ∧ (∀ (manifests manifests' : Manifests) (layout layout' : Layout),
          manifests.layout yaml debug = .ok layout → manifests'.layout yaml debug = .ok layout' →
          ((layout.documents yaml).map resolution).Perm ((layout'.documents yaml).map resolution) →
          Agree (SameConfiguration (layout.names yaml))
            (manifests.load yaml debug) (manifests'.load yaml debug))
      ∧ (∀ (manifests : Manifests) (layout : Layout) (document : ConfigDocument),
          manifests.layout yaml debug = .ok layout →
          manifests.load yaml debug = .ok document →
          document.metadata_name = (layout.names yaml).getLast?.getD DEFAULT_METADATA_NAME) := by
  refine ⟨fun manifests manifests' h hperm => ?_, fun manifests manifests' layout layout' hlayout
    hlayout' hperm => ?_, fun manifests layout document hlayout hload => ?_⟩
  · have h' : manifests'.Inline yaml := fun value hmem => h value (hperm.mem_iff.2 hmem)
    have hnames : (manifests.flat_layout debug).names yaml
        = (manifests.documents yaml).filterMap aggregate_name := by
      rw [← Manifests.flat_layout_documents debug, List.filterMap_map]
      rfl
    rw [← hnames]
    refine (load_layout_agree (perm_readings ?_)).congr (Manifests.load_of_inline h)
      (Manifests.load_of_inline h')
    rw [Manifests.resolution_of_inline h, Manifests.resolution_of_inline h']
    exact hperm.map _
  · exact (load_layout_agree (perm_readings hperm)).congr (Manifests.load_eq_ok hlayout)
      (Manifests.load_eq_ok hlayout')
  · exact load_layout_name ((Manifests.load_eq_ok hlayout document).1 hload)

/-! ### Two aggregates, and a skill beside its manifest -/

/-- The text of a manifest. -/
def manifest_text (name kind spec : String) : Text :=
  name.toList ++ kind.toList ++ spec.toList ++ "\napiVersion: agentspace.dev/v1alpha1\n".toList

/-- What it is read as. -/
def manifest_value (kind name : String) (spec : Value) : Value := .Mapping
  [(.String "metadata".toList, .Mapping [(.String "name".toList, .String name.toList)]),
    (.String "kind".toList, .String kind.toList), (.String "spec".toList, spec),
    (.String "apiVersion".toList, .String API_VERSION)]

def separator : Text := "---\n".toList

def dev_text : Text :=
  manifest_text "metadata:\n  name: dev" "\nkind: AgentSpaceConfig" "\nspec: \x7b\x7d"

def prod_text : Text :=
  manifest_text "metadata:\n  name: prod" "\nkind: AgentSpaceConfig" "\nspec: \x7b\x7d"

def notes_text : Text :=
  manifest_text "metadata:\n  name: notes" "\nkind: Skill" "\nspec:\n  source:\n    path: notes"

def inline_text : Text :=
  manifest_text "metadata:\n  name: notes" "\nkind: Skill" "\nspec:\n  files:\n    intro.md: Hello"

/-- A skill manifest with a source, and with files. -/
def notes_value : Value := manifest_value "Skill" "notes" (.Mapping [(.String "source".toList,
  .Mapping [(.String "path".toList, .String "notes".toList)])])

@[inherit_doc notes_value]
def inline_value : Value := manifest_value "Skill" "notes" (.Mapping [(.String "files".toList,
  .Mapping [(.String "intro.md".toList, .String "Hello".toList)])])

/-- The library, cut down to a few streams. -/
def few_streams : Yaml where
  from_str _ := .error "unsupported"
  documents s :=
    let dev : Except String Value := .ok (manifest_value "AgentSpaceConfig" "dev" (.Mapping []))
    let prod : Except String Value := .ok (manifest_value "AgentSpaceConfig" "prod" (.Mapping []))
    if s = dev_text then [dev]
    else if s = prod_text then [prod]
    else if s = dev_text ++ separator ++ prod_text then [dev, prod]
    else if s = prod_text ++ separator ++ dev_text then [prod, dev]
    else if s = notes_text then [.ok notes_value]
    else if s = inline_text then [.ok inline_value]
    else [.error "unsupported"]
  to_string _ := .error "unsupported"

/-- The skill manifest at a path, with the directory of its files. -/
def notes_files (path : String) : TextMap := Std.ExtTreeMap.ofList
  [(path.toList, notes_text), ("notes/intro.md".toList, "Hello".toList)] compare

@[inherit_doc notes_files]
def notes_at (path : String) : Manifests := .bundle (notes_files path)

set_option maxRecDepth 4000 in
/-- Two aggregates, as one stream and as two files. -/
theorem load_any_order_divided :
    let stream := Manifests.plain (dev_text ++ separator ++ prod_text)
    let divided := Manifests.bundle (Std.ExtTreeMap.ofList
      [("a.yaml".toList, prod_text), ("config/b.yaml".toList, dev_text)] compare)
    Agree (SameConfiguration ["dev".toList, "prod".toList])
        (stream.load few_streams id) (divided.load few_streams id)
      ∧ (∃ names, Agree (SameConfiguration names)
        ((notes_at "a.yaml").load few_streams id) ((notes_at "a.yaml").load few_streams id))
      ∧ ∃ document, stream.load few_streams id = .ok document
        ∧ document.metadata_name = "prod".toList := by
  intro stream divided
  obtain ⟨hinline, hsources, hname⟩ := load_any_order few_streams id
  have hlayout : ∀ {manifests : Manifests}, (manifests.layout few_streams id).isOk = true →
      ∃ layout, manifests.layout few_streams id = .ok layout := by
    intro manifests hok
    cases hlayout : manifests.layout few_streams id with
    | error e => rw [hlayout] at hok; cases hok
    | ok layout => exact ⟨layout, rfl⟩
  refine ⟨hinline stream divided ?_ ?_, ?_, ?_⟩
  · have hnone : ((stream.documents few_streams).all fun document =>
        (document.toOption.bind source_manifest).isNone) = true := by decide +kernel
    intro value hmem
    simpa [Except.toOption] using List.all_eq_true.1 hnone _ hmem
  · exact List.Perm.swap _ _ _
  · obtain ⟨layout, hnotes⟩ : ∃ layout, (notes_at "a.yaml").layout few_streams id = .ok layout :=
      hlayout (by decide +kernel)
    exact ⟨_, hsources _ _ _ _ hnotes hnotes (.refl _)⟩
  · cases hload : stream.load few_streams id with
    | error e =>
      have hok : (stream.load few_streams id).isOk = true := by decide +kernel
      rw [hload] at hok
      cases hok
    | ok document => exact ⟨document, rfl, hname stream _ document rfl hload⟩

set_option maxRecDepth 4000 in
/-- Two aggregates in either order are not typed-equal, and a skill manifest that is moved
to another directory leaves its files behind. -/
theorem order_and_place_count :
    let stream := Manifests.plain (dev_text ++ separator ++ prod_text)
    let reversed := Manifests.plain (prod_text ++ separator ++ dev_text)
    ((stream.documents few_streams).Perm (reversed.documents few_streams)
        ∧ ((stream.load few_streams id).toOption.bind fun document =>
            (reversed.load few_streams id).toOption.map fun document' =>
              typed_equal document document') = some false)
      ∧ (((notes_at "a.yaml").documents few_streams).Perm
            ((notes_at "config/a.yaml").documents few_streams)
        ∧ ((notes_at "a.yaml").load few_streams id).isOk = true
        ∧ ((notes_at "config/a.yaml").load few_streams id).isOk = false) :=
  ⟨⟨.swap _ _ _, by decide +kernel⟩, .refl _, by decide +kernel, by decide +kernel⟩

end AgentSpace.Config
