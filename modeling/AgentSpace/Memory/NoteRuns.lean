/-
Runs of sections over pages made at the epoch.

The document of such a page is written and read here without a look at its characters,
and a section is carried out call by call, from what the calls answer.
-/
import AgentSpace.Memory.ServiceSpec
import AgentSpace.Memory.StandIns

set_option autoImplicit false

namespace AgentSpace.Memory

open Text Lib

/-! ## Documents -/

section Documents

variable (known : List (Bytes × List UInt8))

set_option maxRecDepth 4000 in
theorem parse_note_bytes (body path_hint : Text) :
    parse_document (note_externals known).yaml (note_externals known).chrono (note_bytes body)
      path_hint = .ok (note, body) := by
  have hopen : strip_opening_delimiter ("---\n".toList ++ note_yaml ++ "\n---\n\n".toList ++ body)
      = some (note_yaml ++ '\n' :: '-' :: '-' :: '-' :: '\n' :: ('\n' :: body)) := by
    simp [strip_opening_delimiter, strip_prefix]
  have hsplit := split_frontmatter_append note_yaml ('\n' :: body) (by decide)
  have htail : (strip_line_end ('\n' :: body)).getD ('\n' :: body) = body := by
    simp [strip_line_end, strip_prefix]
  have hmeta : parse_metadata (note_externals known).yaml (note_externals known).chrono note_yaml
      path_hint = .ok note := by
    unfold parse_metadata
    have hstr : (note_externals known).yaml.from_str note_yaml
        = .ok (.Mapping (known_fields epoch_chrono note)) := by
      show (note_externals []).yaml.from_str note_yaml = _
      decide
    rw [hstr]
    rfl
  unfold parse_document note_bytes
  rw [from_utf8_into_bytes]
  simp only [ok_or_some, bind, Except.bind, hopen, hsplit, htail, hmeta]

theorem render_note {body : Text} (hne : normalize_body body ≠ []) :
    render_document (note_externals known).yaml (note_externals known).chrono note body
      = .ok (note_bytes (normalize_body body)) := by
  have hemit : (note_externals known).yaml.to_string
      (.Mapping (metadata_mapping (note_externals known).chrono note)) = .ok (note_yaml ++ ['\n']) := by
    have hmapping : metadata_mapping (note_externals known).chrono note
        = known_fields epoch_chrono note := rfl
    rw [hmapping]
    simp [note_externals, Yaml.only]
  have htext : ∀ yaml_text : Text, FRONTMATTER_DELIMITER ++ ['\n'] ++ (yaml_text ++ ['\n'])
      ++ FRONTMATTER_DELIMITER ++ ['\n'] ++ '\n' :: normalize_body body
      = "---\n".toList ++ yaml_text ++ "\n---\n\n".toList ++ normalize_body body := by
    intro yaml_text
    simp [FRONTMATTER_DELIMITER]
  unfold render_document
  rw [hemit]
  dsimp only
  rw [if_neg hne, htext, note_bytes]

set_option maxRecDepth 4000 in
theorem utf8_len_note_yaml_le : utf8_len note_yaml ≤ 1000 := by
  decide

theorem size_note_bytes (body : Text) :
    (note_bytes body).size = utf8_len note_yaml + utf8_len body + 10 := by
  have hopen : utf8_len "---\n".toList = 4 := by decide
  have hclose : utf8_len "\n---\n\n".toList = 6 := by decide
  rw [note_bytes, size_into_bytes]
  simp only [utf8_len_append, hopen, hclose]
  omega

theorem revision_of_head (bytes : Bytes) (digest : List UInt8) :
    revision_of (note_externals ((bytes, digest) :: known)) bytes = hex_encode digest := by
  have hfind : ((bytes, digest) :: known).find? (fun k => k.1 = bytes) = some (bytes, digest) :=
    List.find?_cons_of_pos (by simp)
  show hex_encode (known_sha256 ((bytes, digest) :: known) bytes) = _
  rw [known_sha256, hfind]

end Documents

/-! ## Calls -/

/-- Surroundings in which pages can be read and listed. -/
structure Legible (env : Env) : Prop where
  resolve : env.faults .resolve = none
  read : env.faults .read = none
  scan : env.faults .scan = none

section Runs

variable {ext : Externals} {envs : ℕ → Env} {d d' : Disk} {t : ℕ}

variable {s : Store}

/-- A part whose result is known from its evaluation. -/
theorem run_bind_to {α β : Type} {p : Section α} {f : α → Section β} (a : α)
    (s' : Store) (h : p.run.run (exec ext envs) s = (.ok a, s')) :
    (p >>= f).run.run (exec ext envs) s = (f a).run.run (exec ext envs) s' :=
  Fallible.run_bind_of_ok h

theorem run_of_except {α : Type} {x : Except MemoryError α} :
    (Section.of_except x).run.run (exec ext envs) s = (x, s) :=
  rfl

theorem run_return_error_if {condition : Prop} [Decidable condition] {error : MemoryError} (h : ¬condition) :
    (Section.return_error_if condition error).run.run (exec ext envs) s = (.ok (), s) := by
  rw [Section.return_error_if, if_neg h]
  rfl

variable {path : PagePath} {bytes : Bytes}

theorem run_read_bytes (henv : Legible (envs t)) (h : d.read (page_file path) = some bytes) :
    (Section.read_bytes path).run.run (exec ext envs) ⟨d, t⟩
      = (.ok (bytes, revision_of ext bytes), ⟨d, t + 1⟩) := by
  refine Prod.ext ?_ rfl
  show (read_bytes (envs t) d path).map _ = _
  rw [read_bytes, henv.resolve, henv.read, h]
  rfl

theorem run_page_exists (henv : Legible (envs t)) :
    (Section.page_exists path).run.run (exec ext envs) ⟨d, t⟩
      = (.ok (d.is_file (page_file path)), ⟨d, t + 1⟩) := by
  refine Prod.ext ?_ rfl
  show page_exists (envs t) d path = _
  rw [page_exists, henv.resolve]

theorem run_list_pages (henv : Legible (envs t)) : (Section.list_pages).run.run (exec ext envs) ⟨d, t⟩
      = (.ok ((d.files.keys.filterMap scanned_page).insertionSort page_le), ⟨d, t + 1⟩) := by
  refine Prod.ext ?_ rfl
  show list_pages (envs t) d = _
  rw [list_pages, henv.scan]

variable {metadata : PageMetadata}

theorem run_read_page (path : PagePath) {body : Text}
    (henv : Legible (envs t)) (h : d.read (page_file path) = some bytes)
    (hparse : parse_document ext.yaml ext.chrono bytes path.as_str = .ok (metadata, body)) :
    (read_page ext path).run.run (exec ext envs) ⟨d, t⟩
      = (.ok ⟨path, metadata, body, revision_of ext bytes⟩, ⟨d, t + 1⟩) := by
  unfold read_page
  rw [Fallible.run_bind_of_ok (run_read_bytes henv h)]
  dsimp only
  rw [run_bind_to (metadata, body) ⟨d, t + 1⟩ (run_of_except.trans (by rw [hparse]))]
  rfl

/-! ## Sections -/

theorem write_bytes_calm {env : Env} (hcalm : ∀ step, env.faults step = none) (d : Disk)
    (path : PagePath) (bytes : Bytes) : (write_bytes env d path bytes).1 = .ok () := by
  simp [write_bytes, write_atomically, write_temporary, rename_file, attempt, hcalm, Disk.read_put]

/-- A page that is not there yet is made as its bytes are written. -/
theorem run_write_page (request : WritePageRequest)
    (henv : Legible (envs t)) (hvalid : validate_write request = .ok ())
    (hread : d.read (page_file request.path) = none) (hexpected : request.expected_revision = none)
    (hmeta : written_metadata ext request none (envs (t + 1)).now = .ok metadata)
    (hrender : render_document ext.yaml ext.chrono metadata request.body = .ok bytes)
    (hsize : bytes.size ≤ MAX_BODY_BYTES) : (write_page ext request).run.run (exec ext envs) ⟨d, t⟩
      = ((write_bytes (envs (t + 2)) d request.path bytes).1.map fun _ =>
          ⟨request.path, metadata, normalize_body request.body, revision_of ext bytes⟩,
        ⟨(write_bytes (envs (t + 2)) d request.path bytes).2, t + 3⟩) := by
  have hnone : (read_optional request.path).run.run (exec ext envs) ⟨d, t⟩
      = (.ok none, ⟨d, t + 1⟩) := by
    have hbytes : read_bytes (envs t) d request.path = .error (.NotFound request.path.as_str) := by
      rw [read_bytes, henv.resolve, henv.read, hread]
      rfl
    have hlift : (Prog.lift (StoreCall.read_bytes request.path)).run (exec ext envs) ⟨d, t⟩
        = (.error (.NotFound request.path.as_str), ⟨d, t + 1⟩) := by
      refine Prod.ext ?_ rfl
      show (read_bytes (envs t) d request.path).map _ = _
      rw [hbytes]
      rfl
    refine (Prog.run_bind (exec ext envs) _ _ _).trans ?_
    rw [hlift]
    rfl
  have hcheck : check_write request none = .ok () := by
    rw [check_write.eq_def, hexpected]
  unfold write_page
  rw [run_bind_to () ⟨d, t⟩ (run_of_except.trans (by rw [hvalid])), Fallible.run_bind_of_ok hnone,
    run_bind_to () ⟨d, t + 1⟩ (run_of_except.trans (by rw [hcheck])),
    run_bind_to (envs (t + 1)).now ⟨d, t + 2⟩ rfl,
    run_bind_to metadata ⟨d, t + 2⟩ (run_of_except.trans (by rw [hmeta])),
    run_bind_to bytes ⟨d, t + 2⟩ (run_of_except.trans (by rw [hrender])),
    Fallible.run_bind_of_ok (run_return_error_if (not_lt.2 hsize))]
  have hwrite : (Section.write_bytes request.path bytes).run.run (exec ext envs) ⟨d, t + 2⟩
      = ((write_bytes (envs (t + 2)) d request.path bytes).1.map fun _ => revision_of ext bytes,
        ⟨(write_bytes (envs (t + 2)) d request.path bytes).2, t + 3⟩) := rfl
  rcases hresult : write_bytes (envs (t + 2)) d request.path bytes with ⟨e | u, d'⟩ <;>
    rw [hresult] at hwrite
  · exact Fallible.run_bind_of_error hwrite
  · exact Fallible.run_bind_of_ok hwrite

variable {source destination : PagePath} {pages : List PagePath} {reps : List (PagePath × Bytes)}

/-- A page without a link to the moved one stays as it is. -/
theorem rewritten_page_unchanged {body new_body : Text}
    (hparse : parse_document ext.yaml ext.chrono bytes path.as_str = .ok (metadata, body))
    (hlinks : rewrite_links path body source destination = (new_body, false)) :
    rewritten_page ext source destination path bytes = .ok none := by
  unfold rewritten_page
  rw [hparse]
  dsimp only
  rw [hlinks]
  rfl

theorem rewritten_page_changed {bytes new_bytes : Bytes} {body new_body : Text}
    (hparse : parse_document ext.yaml ext.chrono bytes path.as_str = .ok (metadata, body))
    (hlinks : rewrite_links path body source destination = (new_body, true))
    (hrender : render_document ext.yaml ext.chrono metadata new_body = .ok new_bytes) :
    rewritten_page ext source destination path bytes = .ok (some new_bytes) := by
  unfold rewritten_page
  rw [hparse]
  dsimp only
  rw [hlinks]
  dsimp only
  rw [if_pos rfl, hrender]

/-- The loop of a move leaves the moved page out. -/
theorem run_collect_source :
    (collect_replacements ext source destination (source :: pages) reps).run.run (exec ext envs) s
      = (collect_replacements ext source destination pages reps).run.run (exec ext envs) s := by
  rw [collect_replacements, if_pos rfl]

/-- Any other page is read, and its new bytes are kept if there are any. -/
theorem run_collect_other {rewritten : Option Bytes}
    (henv : Legible (envs t)) (hne : path ≠ source) (h : d.read (page_file path) = some bytes)
    (hrewritten : rewritten_page ext source destination path bytes = .ok rewritten) :
    (collect_replacements ext source destination (path :: pages) reps).run.run (exec ext envs) ⟨d, t⟩
      = (collect_replacements ext source destination pages
          (reps ++ (rewritten.map fun new_bytes => (path, new_bytes)).toList)).run.run
        (exec ext envs) ⟨d, t + 1⟩ := by
  rw [collect_replacements, if_neg hne, Fallible.run_bind_of_ok (run_read_bytes henv h)]
  dsimp only
  rw [run_bind_to rewritten ⟨d, t + 1⟩ (run_of_except.trans (by rw [hrewritten]))]
  cases rewritten with
  | none => simp
  | some new_bytes => rfl

/-- A move ends as its transaction does. -/
theorem run_move_page (actor : Option Text) (bytes : Bytes) {t' : ℕ}
    (henv : ∀ t, Legible (envs t)) (hne : source ≠ destination)
    (hsource : d.read (page_file source) = some bytes) (hfree : d.read (page_file destination) = none)
    (hreps : (collect_replacements ext source destination
      ((d.files.keys.filterMap scanned_page).insertionSort page_le) []).run.run (exec ext envs)
        ⟨d, t + 3⟩ = (.ok reps, ⟨d, t'⟩)) :
    (move_page ext ⟨source, destination, none, actor⟩).run.run (exec ext envs) ⟨d, t⟩
      = ((commit_move (envs (t' + 1)) d source destination bytes reps).1.map fun _ =>
          ⟨source.as_str, destination.as_str, revision_of ext bytes, reps.map fun r => r.1.as_str⟩,
        ⟨(commit_move (envs (t' + 1)) d source destination bytes reps).2, t' + 2⟩) := by
  have htaken : d.is_file (page_file destination) = false := by
    rw [Disk.is_file, hfree]
    rfl
  unfold move_page
  dsimp only
  rw [Fallible.run_bind_of_ok (run_return_error_if hne),
    Fallible.run_bind_of_ok (run_read_bytes (henv t) hsource)]
  dsimp only
  rw [run_bind_to () ⟨d, t + 1⟩ rfl, Fallible.run_bind_of_ok (run_page_exists (henv (t + 1))),
    htaken, Fallible.run_bind_of_ok (run_return_error_if (by simp)),
    Fallible.run_bind_of_ok (run_list_pages (henv (t + 2))), Fallible.run_bind_of_ok hreps,
    Fallible.run_bind_of_ok (run_read_bytes (henv t') hsource)]
  dsimp only
  have hcommit : (Section.commit_move source destination bytes reps).run.run (exec ext envs)
      ⟨d, t' + 1⟩ = ((commit_move (envs (t' + 1)) d source destination bytes reps).1,
        ⟨(commit_move (envs (t' + 1)) d source destination bytes reps).2, t' + 2⟩) := rfl
  rcases hresult : commit_move (envs (t' + 1)) d source destination bytes reps with ⟨e | u, d'⟩ <;>
    rw [hresult] at hcommit
  · exact Fallible.run_bind_of_error hcommit
  · exact Fallible.run_bind_of_ok hcommit

end Runs

end AgentSpace.Memory
