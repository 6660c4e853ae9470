/-
The skills of a bundle.

A skill whose manifest points at a path has the files that lie below it in the bundle,
but for the manifests, or the one file that is there. So a bundle loads as the plain YAML
in which each source is replaced by the files.
-/
import AgentSpace.Config.AnyOrder

set_option autoImplicit false

namespace AgentSpace.Config

open Text Serde Lib

/-! ## Below a path -/

theorem join_append {c : Char} {a b : List Text} (ha : a ≠ []) (hb : b ≠ []) :
    join [c] (a ++ b) = join [c] a ++ c :: join [c] b := by
  induction a with
  | nil => exact absurd rfl ha
  | cons p rest ih =>
    cases rest with
    | nil =>
      obtain ⟨q, rest, rfl⟩ := List.exists_cons_of_ne_nil hb
      rw [List.singleton_append, join_cons_cons, join_singleton, List.append_assoc]
      rfl
    | cons q rest =>
      rw [List.cons_append, List.cons_append, join_cons_cons, join_cons_cons,
        ← List.cons_append, ih (by simp)]
      simp

theorem split_append (c : Char) (a b : Text) : split c (a ++ c :: b) = split c a ++ split c b := by
  have hparts : ∀ p ∈ split c a ++ split c b, c ∉ p := by
    intro p hp
    rcases List.mem_append.1 hp with hp | hp
    · exact not_mem_of_mem_split hp
    · exact not_mem_of_mem_split hp
  have hjoin := join_append (c := c) (split_ne_nil c a) (split_ne_nil c b)
  rw [join_split, join_split] at hjoin
  rw [← hjoin, split_join (by simp [split_ne_nil]) hparts]

/-- The parts of a path; the root has none. -/
def path_parts (path : Text) : List Text := if path = [] then [] else split '/' path

/-- The path lies strictly below a directory, and `rest` is the rest of it. -/
def Below (dir path rest : Text) : Prop :=
  path_parts path = path_parts dir ++ path_parts rest ∧ path_parts rest ≠ []

theorem path_parts_eq_nil {path : Text} : path_parts path = [] ↔ path = [] := by
  unfold path_parts
  split_ifs with h
  · exact iff_of_true rfl h
  · exact iff_of_false (split_ne_nil _ _) h

theorem path_parts_inj {path path' : Text} (h : path_parts path = path_parts path') : path = path' := by
  by_cases hnil : path = []
  · rw [path_parts_eq_nil.2 hnil] at h
    rw [hnil, path_parts_eq_nil.1 h.symm]
  · have hnil' : path' ≠ [] := fun h' => hnil (path_parts_eq_nil.1 (h.trans (path_parts_eq_nil.2 h')))
    unfold path_parts at h
    rw [if_neg hnil, if_neg hnil'] at h
    rw [← join_split '/' path, h, join_split]

theorem relative_to_eq_some {resolved name rest : Text} :
    relative_to resolved name = some rest ↔ Below resolved name rest := by
  unfold relative_to Below
  rw [Option.filter_eq_some_iff, decide_eq_true_iff, Ne, Ne, path_parts_eq_nil]
  refine and_congr_left fun hrest => ?_
  by_cases hroot : resolved = []
  · rw [if_pos hroot, path_parts_eq_nil.2 hroot, List.nil_append, Option.some_inj]
    exact ⟨fun h => congrArg _ h, path_parts_inj⟩
  · rw [if_neg hroot]
    have happend : path_parts (resolved ++ '/' :: rest) = path_parts resolved ++ path_parts rest := by
      unfold path_parts
      rw [if_neg (by simp), if_neg hroot, if_neg hrest, split_append]
    constructor
    · intro h
      have hname := strip_prefix_eq_some h
      rw [← happend, hname, List.append_assoc]
      rfl
    · intro h
      rw [← happend] at h
      rw [path_parts_inj h, show resolved ++ '/' :: rest = (resolved ++ ['/']) ++ rest by simp]
      exact strip_prefix_append _ _

theorem Below.path_eq {dir path path' rest : Text} (h : Below dir path rest)
    (h' : Below dir path' rest) : path = path' :=
  path_parts_inj (h.1.trans h'.1.symm)

/-! ## The files of a source -/

/-- The file is one of a source: the file that the source points at, under its last part,
or a file below it that is no manifest, under the rest of its path. -/
def IsSourceFile (files : TextMap) (manifest_paths : List Text) (resolved key contents : Text) : Prop :=
  match files[resolved]? with
  | some file => key = last_part '/' resolved ∧ contents = file
  | none => ∃ name, name ∉ manifest_paths ∧ files[name]? = some contents ∧ Below resolved name key

/-- **The files of a source** are exactly those that the path stands for. -/
theorem expand_source_spec {debug : Text → Text} {files found : TextMap}
    {manifest_paths : List Text} {base_dir path : Text}
    (h : expand_source debug files manifest_paths base_dir path = .ok found) :
    ∃ resolved, resolve_relative debug base_dir path = .ok resolved
      ∧ ∀ key contents, found[key]? = some contents
          ↔ IsSourceFile files manifest_paths resolved key contents := by
  unfold expand_source at h
  cases hresolved : resolve_relative debug base_dir path with
  | error e => rw [hresolved] at h; cases h
  | ok resolved =>
    refine ⟨resolved, rfl, fun key contents => ?_⟩
    rw [hresolved] at h
    simp only [bind, Except.bind] at h
    unfold IsSourceFile
    cases hfile : files[resolved]? with
    | some file =>
      rw [hfile] at h
      obtain rfl := Except.ok.inj h
      rw [getElem?_ofList_eq_some (by simp [Keyed]), List.mem_singleton,
        Prod.mk.injEq]
    | none =>
      rw [hfile] at h
      dsimp only at h ⊢
      by_cases hnone : (files.toList.filterMap fun entry =>
          if entry.1 ∈ manifest_paths then none
          else (relative_to resolved entry.1).map fun relative => (relative, entry.2)) = []
      · rw [if_pos hnone] at h
        cases h
      · rw [if_neg hnone] at h
        obtain rfl := Except.ok.inj h
        have htaken : ∀ {entry taken : Text × Text},
            (if entry.1 ∈ manifest_paths then none
              else (relative_to resolved entry.1).map fun relative => (relative, entry.2))
              = some taken →
            entry.1 ∉ manifest_paths ∧ Below resolved entry.1 taken.1 ∧ taken.2 = entry.2 := by
          intro entry taken hsome
          by_cases hmanifest : entry.1 ∈ manifest_paths
          · rw [if_pos hmanifest] at hsome
            cases hsome
          · rw [if_neg hmanifest] at hsome
            obtain ⟨relative, hrelative, rfl⟩ := Option.map_eq_some_iff.1 hsome
            exact ⟨hmanifest, relative_to_eq_some.1 hrelative, rfl⟩
        -- different files have different paths below the source
        have hkeyed : Keyed Prod.fst (files.toList.filterMap fun entry =>
            if entry.1 ∈ manifest_paths then none
            else (relative_to resolved entry.1).map fun relative => (relative, entry.2)) := by
          refine List.pairwise_map.2 (List.pairwise_filterMap.2 ?_)
          refine (distinct_toList files).imp fun hne taken htake taken' htake' heq => hne ?_
          have hbelow := (htaken htake).2.1
          rw [heq] at hbelow
          rw [hbelow.path_eq (htaken htake').2.1]
          exact Std.ReflCmp.compare_self
        rw [getElem?_ofList_eq_some hkeyed, List.mem_filterMap]
        constructor
        · rintro ⟨⟨name, file⟩, hmem, htake⟩
          obtain ⟨hmanifest, hbelow, rfl⟩ := htaken htake
          exact ⟨name, hmanifest, Std.ExtTreeMap.mem_toList_iff_getElem?_eq_some.1 hmem, hbelow⟩
        · rintro ⟨name, hmanifest, hname, hbelow⟩
          refine ⟨(name, contents), Std.ExtTreeMap.mem_toList_iff_getElem?_eq_some.2 hname, ?_⟩
          rw [if_neg hmanifest, relative_to_eq_some.2 hbelow]
          rfl

/-! ## Files in the place of a source -/

/-- A specification that gives the files inline. -/
def inline_spec (files : TextMap) : Value := .Mapping [(.String "files".toList, to_value files)]

/-- The manifest with another specification. -/
def with_spec (spec value : Value) : Value :=
  .Mapping (((as_entries value).getD []).map fun entry =>
    if entry.1.as_str = some "spec".toList then (entry.1, spec) else entry)

/-- The manifest with `spec.files` in the place of `spec.source`, if it has one. -/
def inline_document (resolve : SkillSourceResolver) (value : Value) : Value :=
  match source_manifest value with
  | none => value
  | some source =>
    match resolve source.2 with
    | .ok files => with_spec (inline_spec files) value
    | .error _ => value

section WithSpec

theorem from_value_inline_spec (files : TextMap) :
    (from_value (inline_spec files) : Option SkillSpec) = some ⟨some files, none⟩ := by
  have hstruct : as_struct ["files", "source"] (inline_spec files)
      = some fun name => List.lookup name.toList [("files".toList, to_value files)] := by
    unfold as_struct inline_spec as_entries untag
    simp [read_field, Value.as_str]
  show (as_struct ["files", "source"] (inline_spec files)).bind _ = _
  rw [hstruct]
  simp [List.lookup_cons, optional_field, round_trip]

variable {spec value : Value}

theorem get_with_spec {key : String} (hkey : key ≠ "spec") (entries : Mapping) :
    Mapping.get (.String key.toList) (entries.map fun entry =>
        if entry.1.as_str = some "spec".toList then (entry.1, spec) else entry)
      = Mapping.get (.String key.toList) entries := by
  induction entries with
  | nil => rfl
  | cons entry rest ih =>
    obtain ⟨k, v⟩ := entry
    rw [List.map_cons]
    by_cases hk : k = .String key.toList
    · have hne : k.as_str ≠ some "spec".toList := by
        rw [hk]
        exact fun h => hkey (String.toList_inj.1 (Option.some.inj h))
      rw [if_neg hne, Mapping.get, Mapping.get, if_pos hk, if_pos hk]
    · split_ifs <;> rw [Mapping.get, Mapping.get, if_neg hk, if_neg hk, ih]

theorem get_field_with_spec {key : String} (hkey : key ≠ "spec") {v : Value}
    (h : get_field value key = some v) : get_field (with_spec spec value) key = some v := by
  unfold get_field at h ⊢
  unfold with_spec as_entries
  cases huntag : untag value with
  | Mapping entries =>
    rw [huntag] at h
    simp only [untag, Option.getD_some]
    rw [get_with_spec hkey]
    exact h
  | _ => rw [huntag] at h; cases h

/-- The entries of a manifest with another specification are read as its entries are. -/
theorem mapM_with_spec (spec : Value) {entries : Mapping} {read : List (Text × Value)}
    (h : entries.mapM read_field = some read) : (entries.map fun entry =>
        if entry.1.as_str = some "spec".toList then (entry.1, spec) else entry).mapM read_field
      = some (read.map fun p => if p.1 = "spec".toList then (p.1, spec) else p) := by
  induction entries generalizing read with
  | nil =>
    obtain rfl := Option.some.inj h
    rfl
  | cons entry rest ih =>
    rw [List.mapM_cons] at h
    obtain ⟨p, hp, h⟩ := Option.bind_eq_some_iff.1 h
    obtain ⟨read, hread, h⟩ := Option.bind_eq_some_iff.1 h
    obtain rfl := Option.some.inj h
    obtain ⟨key, hkey, rfl⟩ := Option.map_eq_some_iff.1 hp
    rw [List.map_cons, List.mapM_cons, ih hread, List.map_cons, hkey]
    by_cases hspec : key = "spec".toList
    · rw [if_pos (congrArg some hspec), if_pos hspec]
      simp [read_field, hkey]
    · rw [if_neg fun h => hspec (Option.some.inj h), if_neg hspec]
      simp [read_field, hkey]

theorem lookup_with_spec (spec : Value) (read : List (Text × Value)) (name : String) :
    List.lookup name.toList (read.map fun p => if p.1 = "spec".toList then (p.1, spec) else p)
      = (List.lookup name.toList read).map fun v => if name = "spec" then spec else v := by
  induction read with
  | nil => rfl
  | cons p rest ih =>
    obtain ⟨key, v⟩ := p
    rw [List.map_cons, List.lookup_cons]
    by_cases hkey : key = name.toList
    · subst hkey
      by_cases hspec : name = "spec"
      · subst hspec
        simp
      · have hne : name.toList ≠ "spec".toList := fun h => hspec (String.toList_inj.1 h)
        rw [if_neg hne]
        simp [hspec]
    · have hkey' : (name.toList == key) = false := beq_eq_false_iff_ne.2 fun h => hkey h.symm
      have hfirst : ((if key = "spec".toList then (key, spec) else (key, v)).1 : Text) = key := by
        split_ifs <;> rfl
      rw [hfirst, hkey', List.lookup_cons, hkey', ih]

/-- The fields of a manifest with another specification. -/
theorem as_struct_with_spec (spec : Value) {names : List String} {field : String → Option Value}
    (h : as_struct names value = some field) (hspec : field "spec" ≠ none) :
    ∃ field', as_struct names (with_spec spec value) = some field' ∧ field' "spec" = some spec
      ∧ ∀ name, name ≠ "spec" → field' name = field name := by
  unfold as_struct at h
  obtain ⟨entries, hentries, h⟩ := Option.bind_eq_some_iff.1 h
  obtain ⟨read, hread, h⟩ := Option.bind_eq_some_iff.1 h
  obtain ⟨hcond, rfl⟩ : _ ∧ _ = field := by
    split_ifs at h with hcond
    exact ⟨hcond, Option.some.inj h⟩
  let replaced : Text × Value → Text × Value := fun p =>
    if p.1 = "spec".toList then (p.1, spec) else p
  have hkeys : (read.map replaced).map Prod.fst = read.map Prod.fst := by
    rw [List.map_map]
    refine List.map_congr_left fun p _ => ?_
    simp only [Function.comp_apply, replaced]
    split_ifs <;> rfl
  refine ⟨fun name => List.lookup name.toList (read.map replaced), ?_, ?_, fun name hname => ?_⟩
  · unfold as_struct with_spec
    have hmapping : ∀ m : Mapping, as_entries (.Mapping m) = some m := fun _ => rfl
    rw [hmapping, hentries, Option.getD_some, Option.bind_some, mapM_with_spec spec hread,
      Option.bind_some, if_pos]
    refine ⟨fun p hp => ?_, by rw [hkeys]; exact hcond.2⟩
    have hmem : p.1 ∈ read.map Prod.fst := hkeys ▸ List.mem_map_of_mem hp
    obtain ⟨q, hq, hpq⟩ := List.mem_map.1 hmem
    rw [← hpq]
    exact hcond.1 q hq
  · dsimp only at hspec ⊢
    rw [lookup_with_spec]
    cases hfield : List.lookup "spec".toList read with
    | none => exact absurd hfield hspec
    | some v => rw [Option.map_some, if_pos rfl]
  · dsimp only
    rw [lookup_with_spec]
    simp only [if_neg hname, Option.map_id']

/-- A skill manifest is read with the files in the place of the source. -/
theorem from_value_with_spec {manifest : Standalone SkillSpec} {files : TextMap}
    (h : from_value value = some manifest) :
    (from_value (with_spec (inline_spec files) value) : Option (Standalone SkillSpec))
      = some ⟨manifest.metadata, ⟨some files, none⟩⟩ := by
  obtain ⟨field, hstruct, h⟩ := Option.bind_eq_some_iff.1 h
  obtain ⟨api_version, hversion, h⟩ := Option.bind_eq_some_iff.1 h
  obtain ⟨kind, hkind, h⟩ := Option.bind_eq_some_iff.1 h
  obtain ⟨metadata, hmetadata, h⟩ := Option.bind_eq_some_iff.1 h
  obtain ⟨spec, hspec, h⟩ := Option.bind_eq_some_iff.1 h
  obtain rfl := Option.some.inj h
  have hthere : field "spec" ≠ none := by
    intro hnone
    rw [hnone] at hspec
    cases hspec
  obtain ⟨field', hstruct', hspec', hother⟩ :=
    as_struct_with_spec (inline_spec files) hstruct hthere
  refine Option.bind_eq_some_iff.2 ⟨field', hstruct', ?_⟩
  rw [hother "apiVersion" (by decide), hother "kind" (by decide), hother "metadata" (by decide),
    hversion, hkind, hmetadata, hspec', required_field, Option.bind_some, from_value_inline_spec]
  rfl

end WithSpec

/-! ## The documents of a bundle -/

section Bundles

variable {yaml : Yaml} {debug : Text → Text}

/-- A document that is read contributes the same with its files in place. -/
theorem contribution_inline_document {resolve : SkillSourceResolver} {value : Value}
    {part : DocumentAccumulator} (h : contribution debug resolve (.ok value) = .ok part)
    (resolve' : SkillSourceResolver) :
    contribution debug resolve' (.ok (inline_document resolve value)) = .ok part := by
  unfold inline_document
  cases hsource : source_manifest value with
  | none =>
    dsimp only
    rw [contribution_of_no_source hsource resolve' resolve]
    exact h
  | some source =>
    obtain ⟨manifest, path⟩ := source
    obtain ⟨hnull, hkind, hversion, hread, -, -⟩ := source_manifest_eq_some.1 hsource
    rw [contribution_of_source hsource] at h
    dsimp only
    cases hfiles : resolve path with
    | error e => rw [hfiles] at h; cases h
    | ok files =>
      rw [hfiles] at h
      have hfield : ∀ {key : String}, key ≠ "spec" → ∀ {text : Text},
          (get_field value key).bind Value.as_str = some text →
          (get_field (with_spec (inline_spec files) value) key).bind Value.as_str
            = some text := by
        intro key hkey text htext
        obtain ⟨v, hv, htext⟩ := Option.bind_eq_some_iff.1 htext
        rw [get_field_with_spec hkey hv]
        exact htext
      rw [contribution_of_files rfl (hfield (by decide) hkind) (hfield (by decide) hversion)
        (from_value_with_spec hread) rfl rfl]
      exact h

/-- The documents of a layout with the files in the place of each source. -/
def inline_documents (yaml : Yaml) (layout : Layout) : List (Except String Value) :=
  (layout.documents yaml).map fun document => document.2.map (inline_document document.1)

/-- A layout loads as the plain YAML with the files in the place of each source. -/
theorem load_yaml_inline {layout : Layout} {document : ConfigDocument}
    (h : load_layout yaml debug layout = .ok document) {text : Text}
    (htext : documents_of yaml text = inline_documents yaml layout) :
    load_yaml yaml debug text = .ok document := by
  rw [load_layout_eq] at h
  rw [load_yaml_eq, load_layout_eq]
  have hplain : (plain_layout text).documents yaml = (layout.documents yaml).map fun document =>
      ((fun _ => .error .UnsupportedBundle), document.2.map (inline_document document.1)) := by
    unfold plain_layout Layout.documents
    rw [List.flatMap_cons, List.flatMap_nil, List.append_nil, htext, inline_documents, List.map_map]
    rfl
  cases hparts : contributions debug (layout.documents yaml) with
  | error e => rw [hparts] at h; cases h
  | ok parts =>
    rw [hparts] at h
    have hsame : contributions debug ((plain_layout text).documents yaml) = .ok parts := by
      rw [hplain, contributions_eq_ok, ← contributions_eq_ok.1 hparts, List.map_map]
      refine List.map_congr_left fun laid_out hmem => ?_
      obtain ⟨resolve, value⟩ := laid_out
      have hread : reading debug (resolve, value) ∈ parts.map some :=
        contributions_eq_ok.1 hparts ▸ List.mem_map_of_mem hmem
      obtain ⟨part, -, hpart⟩ := List.mem_map.1 hread
      cases value with
      | error e => cases hpart
      | ok value =>
        have hok : contribution debug resolve (.ok value) = .ok part := by
          unfold reading at hpart
          cases hcontribution : contribution debug resolve (.ok value) with
          | error e => rw [hcontribution] at hpart; cases hpart
          | ok part' =>
            rw [hcontribution] at hpart
            rw [Option.some.inj hpart]
        show (contribution debug _ (.ok (inline_document resolve value))).toOption
          = (contribution debug resolve (.ok value)).toOption
        rw [contribution_inline_document hok, hok]
    rw [hsame]
    exact h

/-- A skill manifest of a layout gives its skill, with the files its source resolves to. -/
theorem skill_of_layout {layout : Layout} {document : ConfigDocument}
    (h : load_layout yaml debug layout = .ok document) {resolve : SkillSourceResolver}
    {value : Value} (hmem : (resolve, .ok value) ∈ layout.documents yaml)
    (hkind : (get_field value "kind").bind Value.as_str = some "Skill".toList)
    {manifest : Standalone SkillSpec} (hread : from_value value = some manifest) {path : Text}
    (hsource : manifest.spec.source = some ⟨path⟩) :
    ∃ files, resolve path = .ok files ∧ ⟨manifest.metadata.name, files⟩ ∈ document.spec.skills := by
  rw [load_layout_eq] at h
  cases hparts : contributions debug (layout.documents yaml) with
  | error e => rw [hparts] at h; cases h
  | ok parts =>
    rw [hparts] at h
    obtain ⟨-, -, rfl⟩ := finish_eq_ok.1 h
    have hmem' : reading debug (resolve, .ok value) ∈ parts.map some :=
      contributions_eq_ok.1 hparts ▸ List.mem_map_of_mem hmem
    obtain ⟨part, hpart, heq⟩ := List.mem_map.1 hmem'
    have hok : contribution debug resolve (.ok value) = .ok part := by
      unfold reading at heq
      cases hcontribution : contribution debug resolve (.ok value) with
      | error e => rw [hcontribution] at heq; cases heq
      | ok part' =>
        rw [hcontribution] at heq
        rw [Option.some.inj heq]
    have hsourced := source_manifest_of_contribution hok hkind hread hsource
    rw [contribution_of_source hsourced] at hok
    cases hfiles : resolve path with
    | error e => rw [hfiles] at hok; cases hok
    | ok files =>
      rw [hfiles] at hok
      refine ⟨files, rfl, ?_⟩
      rw [(sum_up_spec parts).2.2.2.1]
      exact List.mem_flatMap.2 ⟨part, hpart, by rw [← Except.ok.inj hok]; simp⟩

end Bundles

/-- **Bundle skills are inline skills.** In a bundle that is loaded, each skill manifest of a
retained manifest file that has a source gives a skill whose files are exactly those that
the source stands for; and each plain YAML with the same documents, in which every
`spec.source` is replaced by these files as `spec.files`, loads as the same document. -/
theorem load_bundle_inline (yaml : Yaml) (debug : Text → Text) (files : TextMap)
    (document : ConfigDocument) (h : load_bundle yaml debug files = .ok document) :
    ∃ source_dirs, discover_source_dirs yaml debug files (candidates_of files) = .ok source_dirs ∧
      let manifest_paths := retained_manifests source_dirs (candidates_of files)
      (∀ manifest_path ∈ manifest_paths, ∀ source, files[manifest_path]? = some source →
        ∀ value, .ok value ∈ yaml.documents source →
        (get_field value "kind").bind Value.as_str = some "Skill".toList →
        ∀ manifest : Standalone SkillSpec, from_value value = some manifest →
        ∀ path, manifest.spec.source = some ⟨path⟩ →
        ∃ resolved, resolve_relative debug (parent_dir manifest_path) path = .ok resolved
          ∧ (∃ skill ∈ document.spec.skills, skill.id = manifest.metadata.name)
          ∧ ∀ skill ∈ document.spec.skills, skill.id = manifest.metadata.name →
            ∀ key contents, skill.files[key]? = some contents
              ↔ IsSourceFile files manifest_paths resolved key contents)
      ∧ (∀ text, documents_of yaml text
            = inline_documents yaml (bundle_layout debug files manifest_paths) →
          load_yaml yaml debug text = .ok document) := by
  obtain ⟨source_dirs, hdirs⟩ :
      ∃ source_dirs, discover_source_dirs yaml debug files (candidates_of files) = .ok source_dirs := by
    unfold load_bundle at h
    dsimp only at h
    by_cases hnone : candidates_of files = []
    · rw [if_pos hnone] at h
      cases h
    · rw [if_neg hnone] at h
      cases hdirs : discover_source_dirs yaml debug files (candidates_of files) with
      | error e => rw [hdirs] at h; cases h
      | ok source_dirs => exact ⟨source_dirs, rfl⟩
  refine ⟨source_dirs, hdirs, ?_⟩
  intro manifest_paths
  have hlayout : (Manifests.bundle files).layout yaml debug
      = .ok (bundle_layout debug files manifest_paths) := by
    unfold Manifests.layout
    dsimp only
    rw [hdirs]
    rfl
  have hload := (Manifests.load_eq_ok hlayout document).1 h
  refine ⟨?_, fun text htext => load_yaml_inline hload htext⟩
  intro manifest_path hmanifest source hsource value hvalue hkind manifest hread path hpath
  have hcounts : counts (.ok value) = true := by
    cases hnull : value.is_null with
    | false => simp [counts, hnull]
    | true =>
      unfold get_field at hkind
      rw [untag_of_is_null hnull] at hkind
      cases hkind
  have hmem : (expand_source debug files manifest_paths (parent_dir manifest_path), .ok value)
      ∈ (bundle_layout debug files manifest_paths).documents yaml := by
    refine List.mem_flatMap.2 ⟨(_, source), List.mem_filterMap.2 ⟨manifest_path, hmanifest, ?_⟩,
      List.mem_map.2 ⟨_, List.mem_filter.2 ⟨hvalue, hcounts⟩, rfl⟩⟩
    rw [hsource]
    rfl
  obtain ⟨found, hfound, hskill⟩ := skill_of_layout hload hmem hkind hread hpath
  obtain ⟨resolved, hresolved, hfiles⟩ := expand_source_spec hfound
  refine ⟨resolved, hresolved, ⟨_, hskill, rfl⟩, fun skill hmem' hid => ?_⟩
  have hunique : document.spec.Unique := by
    rw [load_layout_eq] at hload
    cases hparts : contributions debug ((bundle_layout debug files manifest_paths).documents yaml) with
    | error e => rw [hparts] at hload; cases hload
    | ok parts =>
      rw [hparts] at hload
      obtain ⟨-, hunique, rfl⟩ := finish_eq_ok.1 hload
      exact hunique
  rw [hunique.skills.eq_of_key_eq hmem' hskill hid]
  exact hfiles

theorem eq_map_ok {α ε : Type} {l : List (Except ε α)} {values : List α}
    (h : l.map Except.toOption = values.map some) : l = values.map .ok := by
  induction l generalizing values with
  | nil =>
    cases values with
    | nil => rfl
    | cons value values => cases h
  | cons a rest ih =>
    cases values with
    | nil => cases h
    | cons value values =>
      obtain ⟨hhead, htail⟩ := List.cons.inj h
      rw [List.map_cons, ← ih htail]
      cases a with
      | error e => cases hhead
      | ok b => rw [Option.some.inj hhead]

set_option maxRecDepth 4000 in
/-- A skill in a directory of its bundle, and inline. -/
theorem load_bundle_inline_notes :
    ∃ document, load_bundle few_streams id (notes_files "a.yaml") = .ok document
      ∧ (∃ skill ∈ document.spec.skills, skill.files["intro.md".toList]? = some "Hello".toList)
      ∧ load_yaml few_streams id inline_text = .ok document := by
  cases hload : load_bundle few_streams id (notes_files "a.yaml") with
  | error e =>
    have hok : (load_bundle few_streams id (notes_files "a.yaml")).isOk = true := by decide +kernel
    rw [hload] at hok
    cases hok
  | ok document =>
    obtain ⟨source_dirs, hdirs, hskills, hinline⟩ :=
      load_bundle_inline few_streams id (notes_files "a.yaml") document hload
    obtain rfl : source_dirs = ["notes".toList] := by
      have hnotes : (discover_source_dirs few_streams id (notes_files "a.yaml")
          (candidates_of (notes_files "a.yaml"))).toOption = some ["notes".toList] := by
        decide +kernel
      rw [hdirs] at hnotes
      exact Option.some.inj hnotes
    have hmanifests : retained_manifests ["notes".toList] (candidates_of (notes_files "a.yaml"))
        = ["a.yaml".toList] := by decide +kernel
    rw [hmanifests] at hskills hinline
    refine ⟨document, rfl, ?_, hinline _ ?_⟩
    · have hsource : (from_value notes_value : Option (Standalone SkillSpec)).bind
          (fun manifest => manifest.spec.source.map (·.path)) = some "notes".toList := by
        decide +kernel
      obtain ⟨manifest, hread, hsource⟩ := Option.bind_eq_some_iff.1 hsource
      obtain ⟨⟨path⟩, hsource, rfl⟩ := Option.map_eq_some_iff.1 hsource
      obtain ⟨resolved, hresolved, ⟨skill, hskill, hid⟩, hfiles⟩ :=
        hskills "a.yaml".toList (by simp) notes_text (by decide +kernel) notes_value
          (.head _) (by decide +kernel) manifest hread _ hsource
      obtain rfl : resolved = "notes".toList := by
        have hnotes : (resolve_relative id (parent_dir "a.yaml".toList) "notes".toList).toOption
            = some "notes".toList := by decide +kernel
        rw [hresolved] at hnotes
        exact Option.some.inj hnotes
      refine ⟨skill, hskill, (hfiles skill hskill hid _ _).2 ?_⟩
      unfold IsSourceFile
      have hdirectory : (notes_files "a.yaml")["notes".toList]? = none := by decide +kernel
      rw [hdirectory]
      refine ⟨"notes/intro.md".toList, by decide +kernel, by decide +kernel, ?_⟩
      unfold Below
      decide +kernel
    · have hleft : (documents_of few_streams inline_text).map Except.toOption
          = [inline_value].map some := by decide +kernel
      have hright : (inline_documents few_streams (bundle_layout id (notes_files "a.yaml")
          ["a.yaml".toList])).map Except.toOption = [inline_value].map some := by decide +kernel
      rw [eq_map_ok hleft, eq_map_ok hright]

end AgentSpace.Config
