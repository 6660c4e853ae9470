/-
The memory service: the mutations of `memory_rs/src/service.rs` and `read_page`,
with the requests and results of `model.rs`.

A mutation is a section (`Lib.Prog`) over the calls of `MemoryStore`, each of which is
answered in its own surroundings (`envs`). What comes from outside the repository, the
YAML library, `chrono`, SHA-256 and Unicode's lowercase table, is a parameter.
-/
import AgentSpace.Lib.Triple
import AgentSpace.Memory.FsStore
import AgentSpace.Memory.Links

set_option autoImplicit false

namespace AgentSpace.Memory

open Text Lib

/-! ## Parameters -/

/-- The code the service calls and that is not part of the repository. -/
structure Externals where
  yaml : Yaml
  chrono : Chrono
  sha256 : Bytes → List UInt8
  to_lowercase : Text → Text

/-- What is relied on of it. -/
structure Externals.Lawful (ext : Externals) : Prop where
  yaml : ext.yaml.RoundTrips
  chrono : ext.chrono.RoundTrips
  sha256_injective : Function.Injective ext.sha256

/-- `Revision::of`: the digest in hexadecimal. -/
def revision_of (ext : Externals) (bytes : Bytes) : Text := hex_encode (ext.sha256 bytes)

/-! ## Requests and results -/

/-- `WritePageRequest`. -/
structure WritePageRequest where
  path : PagePath
  title : Option Text
  tags : Option (List Text)
  body : Text
  overwrite : Bool
  expected_revision : Option Text
  actor : Option Text

/-- `MovePageRequest`. -/
structure MovePageRequest where
  source : PagePath
  destination : PagePath
  expected_revision : Option Text
  actor : Option Text

/-- `RemovePageRequest`. -/
structure RemovePageRequest where
  path : PagePath
  expected_revision : Option Text

/-- `Page`. -/
structure Page where
  path : PagePath
  metadata : PageMetadata
  body : Text
  revision : Text
  deriving DecidableEq

/-- Equality as `Page` derives it. -/
structure Page.Same (a b : Page) : Prop where
  path : a.path = b.path
  metadata : a.metadata.Same b.metadata
  body : a.body = b.body
  revision : a.revision = b.revision

/-- `MoveOutcome`. -/
structure MoveOutcome where
  source : Text
  destination : Text
  revision : Text
  updated_referrers : List Text
  deriving DecidableEq

/-! ## The store behind a section -/

/-- The calls a section makes: those of `MemoryStore`, and the clock. -/
inductive StoreCall where
  | read_bytes (path : PagePath)
  | page_exists (path : PagePath)
  | list_pages
  | scan
  | write_bytes (path : PagePath) (bytes : Bytes)
  | remove_file (path : PagePath)
  | commit_move (source destination : PagePath) (destination_bytes : Bytes)
      (replacements : List (PagePath × Bytes))
  | now

/-- The answer to a call. `read_bytes` and `write_bytes` answer with a revision. -/
abbrev StoreCall.Answer : StoreCall → Type
  | .read_bytes _ => Except MemoryError (Bytes × Text)
  | .page_exists _ => Except MemoryError Bool
  | .list_pages => Except MemoryError (List PagePath)
  | .scan => Except MemoryError (List ScannedFile)
  | .write_bytes _ _ => Except MemoryError Text
  | .remove_file _ => Except MemoryError Unit
  | .commit_move _ _ _ _ => Except MemoryError Unit
  | .now => DateTime

/-- The store: its disk, and how many calls have been made on it. -/
structure Store where
  disk : Disk
  tick : ℕ

/-- The call is answered in the surroundings of its tick. -/
def exec (ext : Externals) (envs : ℕ → Env) : (c : StoreCall) → Store → c.Answer × Store
  | .read_bytes path, s =>
    ((read_bytes (envs s.tick) s.disk path).map fun bytes => (bytes, revision_of ext bytes),
      ⟨s.disk, s.tick + 1⟩)
  | .page_exists path, s => (page_exists (envs s.tick) s.disk path, ⟨s.disk, s.tick + 1⟩)
  | .list_pages, s => (list_pages (envs s.tick) s.disk, ⟨s.disk, s.tick + 1⟩)
  | .scan, s => (scan (envs s.tick) s.disk, ⟨s.disk, s.tick + 1⟩)
  | .write_bytes path bytes, s =>
    let (result, disk) := write_bytes (envs s.tick) s.disk path bytes
    (result.map fun _ => revision_of ext bytes, ⟨disk, s.tick + 1⟩)
  | .remove_file path, s =>
    let (result, disk) := remove_file (envs s.tick) s.disk path
    (result, ⟨disk, s.tick + 1⟩)
  | .commit_move source destination destination_bytes replacements, s =>
    let (result, disk) := commit_move (envs s.tick) s.disk source destination destination_bytes
      replacements
    (result, ⟨disk, s.tick + 1⟩)
  | .now, s => ((envs s.tick).now, ⟨s.disk, s.tick + 1⟩)

/-! ## Sections -/

/-- A section of the memory service. -/
abbrev Section (α : Type) := Fallible StoreCall StoreCall.Answer MemoryError α

namespace Section

/-- A store call that may fail. -/
def read_bytes (path : PagePath) : Section (Bytes × Text) :=
  ExceptT.mk (Prog.lift (StoreCall.read_bytes path))
@[inherit_doc read_bytes] def page_exists (path : PagePath) : Section Bool :=
  ExceptT.mk (Prog.lift (StoreCall.page_exists path))
@[inherit_doc read_bytes] def list_pages : Section (List PagePath) :=
  ExceptT.mk (Prog.lift StoreCall.list_pages)
@[inherit_doc read_bytes] def scan : Section (List ScannedFile) :=
  ExceptT.mk (Prog.lift StoreCall.scan)
@[inherit_doc read_bytes] def write_bytes (path : PagePath) (bytes : Bytes) : Section Text :=
  ExceptT.mk (Prog.lift (StoreCall.write_bytes path bytes))
@[inherit_doc read_bytes] def remove_file (path : PagePath) : Section Unit :=
  ExceptT.mk (Prog.lift (StoreCall.remove_file path))
@[inherit_doc read_bytes] def commit_move (source destination : PagePath)
    (destination_bytes : Bytes) (replacements : List (PagePath × Bytes)) : Section Unit :=
  ExceptT.mk (Prog.lift (StoreCall.commit_move source destination destination_bytes replacements))

/-- `Utc::now()`. -/
def now : Section DateTime := ExceptT.lift (Prog.lift StoreCall.now)

/-- A computation that makes no store call. -/
def of_except {α : Type} (x : Except MemoryError α) : Section α := ExceptT.mk (Prog.ret x)

/-- `if condition { return Err(error); }`. -/
def return_error_if (condition : Prop) [Decidable condition] (error : MemoryError) : Section Unit :=
  of_except (if condition then .error error else .ok ())

end Section

/-! ## Validation -/

/-- `MAX_TITLE_LENGTH`. -/
def MAX_TITLE_LENGTH : ℕ := 256
/-- `MAX_TAG_LENGTH`. -/
def MAX_TAG_LENGTH : ℕ := 64
/-- `MAX_TAGS`. -/
def MAX_TAGS : ℕ := 64
/-- `MAX_BODY_BYTES`. -/
def MAX_BODY_BYTES : ℕ := 1024 * 1024
/-- `SCHEMA_VERSION`. -/
def SCHEMA_VERSION : ℕ := 1

/-- `validate_body`. -/
def validate_body (body : Text) : Except MemoryError Unit :=
  if utf8_len body > MAX_BODY_BYTES then .error (.TooLarge "page body" MAX_BODY_BYTES) else .ok ()

/-- `validate_title`. -/
def validate_title (title : Text) : Except MemoryError Unit :=
  if title = [] then .error (.InvalidPath "title".toList "title must not be empty")
  else if utf8_len title > MAX_TITLE_LENGTH then .error (.TooLarge "title" MAX_TITLE_LENGTH)
  else .ok ()

/-- The loop of `validate_tags`. -/
def check_tags : List Text → Except MemoryError Unit
  | [] => .ok ()
  | tag :: rest =>
    if trim tag = [] then .error (.InvalidPath "tag".toList "tags must not be empty")
    else if utf8_len tag > MAX_TAG_LENGTH then .error (.TooLarge "tag" MAX_TAG_LENGTH)
    else check_tags rest

/-- `validate_tags`. -/
def validate_tags (tags : List Text) : Except MemoryError Unit :=
  if tags.length > MAX_TAGS then .error (.TooLarge "tags" MAX_TAGS) else check_tags tags

/-- What `write_page` validates before it takes the lock. -/
def validate_write (request : WritePageRequest) : Except MemoryError Unit := do
  validate_body request.body
  match request.title with
  | some title => validate_title title
  | none => .ok ()
  match request.tags with
  | some tags => validate_tags tags
  | none => .ok ()

section Pages

variable (ext : Externals)

/-- `normalize_tag`. -/
def normalize_tag (tag : Text) : Text := ext.to_lowercase (trim tag)

/-- The order of strings: by scalar values, which is the order of their bytes. -/
def text_le (s t : Text) : Prop := (compare s t).isLE

instance (s t : Text) : Decidable (text_le s t) := inferInstanceAs (Decidable (_ = true))

/-- `normalize_tags`. -/
def normalize_tags (tags : List Text) : List Text :=
  ((tags.map (normalize_tag ext)).insertionSort text_le).destutter (· ≠ ·)

/-! ## The operations -/

/-- `read_optional`. -/
def read_optional (path : PagePath) : Section (Option (Bytes × Text)) :=
  ExceptT.mk (Prog.lift (StoreCall.read_bytes path) >>= fun result =>
    match (result : Except MemoryError (Bytes × Text)) with
    | .ok value => Prog.ret (.ok (some value))
    | .error (.NotFound _) => Prog.ret (.ok none)
    | .error e => Prog.ret (.error e))

/-- The check of a write against the page that is stored. -/
def check_write (request : WritePageRequest) (existing : Option (Bytes × Text)) : Except MemoryError Unit :=
  match request.expected_revision, existing with
  | some expected, some (_, actual) =>
    if expected = actual then .ok ()
    else .error (.Conflict request.path.as_str (some expected) actual)
  | some _, none => .error (.NotFound request.path.as_str)
  | none, some _ =>
    if request.overwrite then .ok () else .error (.AlreadyExists request.path.as_str)
  | none, none => .ok ()

/-- The metadata a write stores. -/
def written_metadata (request : WritePageRequest) (existing : Option (Bytes × Text))
    (now : DateTime) : Except MemoryError PageMetadata :=
  match existing with
  | some (bytes, _) =>
    match parse_document ext.yaml ext.chrono bytes request.path.as_str with
    | .error e => .error e
    | .ok (previous, _) =>
      .ok { previous with
        title := request.title.getD previous.title
        tags := (request.tags.map (normalize_tags ext)).getD previous.tags
        updated_at := now
        updated_by := request.actor.or previous.updated_by }
  | none =>
    match request.title with
    | none => .error (.InvalidPath request.path.as_str "title is required to create a page")
    | some title =>
      .ok { schema_version := SCHEMA_VERSION
            title := title
            tags := normalize_tags ext (request.tags.getD [])
            created_at := now
            updated_at := now
            created_by := request.actor
            updated_by := request.actor
            extra := [] }

/-- `write_page`. -/
def write_page (request : WritePageRequest) : Section Page := do
  Section.of_except (validate_write request)
  let existing ← read_optional request.path
  Section.of_except (check_write request existing)
  let now ← Section.now
  let metadata ← Section.of_except (written_metadata ext request existing now)
  let bytes ← Section.of_except (render_document ext.yaml ext.chrono metadata request.body)
  Section.return_error_if (bytes.size > MAX_BODY_BYTES)
    (.TooLarge "page document" MAX_BODY_BYTES)
  let revision ← Section.write_bytes request.path bytes
  pure { path := request.path
         metadata := metadata
         body := normalize_body request.body
         revision := revision }

/-- `read_page`. -/
def read_page (path : PagePath) : Section Page := do
  let (bytes, revision) ← Section.read_bytes path
  let (metadata, body) ← Section.of_except
    (parse_document ext.yaml ext.chrono bytes path.as_str)
  pure { path := path, metadata := metadata, body := body, revision := revision }

/-- The check of `expected_revision` in `move_page` and `remove_page`. -/
def check_revision (path : PagePath) (expected_revision : Option Text) (revision : Text) :
    Except MemoryError Unit :=
  match expected_revision with
  | some expected =>
    if expected ≠ revision then .error (.Conflict path.as_str (some expected) revision)
    else .ok ()
  | none => .ok ()

/-- The rewritten document of one page of the loop in `move_page`, if its links
change. A page whose document does not parse is skipped. -/
def rewritten_page (source destination page_path : PagePath) (page_bytes : Bytes) :
    Except MemoryError (Option Bytes) :=
  match parse_document ext.yaml ext.chrono page_bytes page_path.as_str with
  | .error _ => .ok none
  | .ok (metadata, body) =>
    let (new_body, changed) := rewrite_links page_path body source destination
    if changed then
      match render_document ext.yaml ext.chrono metadata new_body with
      | .error e => .error e
      | .ok new_bytes => .ok (some new_bytes)
    else .ok none

/-- The loop of `move_page` over the other pages. -/
def collect_replacements (source destination : PagePath) :
    List PagePath → List (PagePath × Bytes) → Section (List (PagePath × Bytes))
  | [], replacements => pure replacements
  | page_path :: rest, replacements =>
    if page_path = source then collect_replacements source destination rest replacements
    else do
      let (page_bytes, _) ← Section.read_bytes page_path
      let rewritten ← Section.of_except
        (rewritten_page ext source destination page_path page_bytes)
      match rewritten with
      | none => collect_replacements source destination rest replacements
      | some new_bytes =>
        collect_replacements source destination rest (replacements ++ [(page_path, new_bytes)])

/-- `move_page`. `updated_referrers` and `replacements` grow together in the
source; the former is the paths of the latter. -/
def move_page (request : MovePageRequest) : Section MoveOutcome := do
  Section.return_error_if (request.source = request.destination)
    (.InvalidPath request.source.as_str "source and destination must differ")
  let (_, revision) ← Section.read_bytes request.source
  Section.of_except (check_revision request.source request.expected_revision revision)
  let taken ← Section.page_exists request.destination
  Section.return_error_if taken (.AlreadyExists request.destination.as_str)
  let pages ← Section.list_pages
  let replacements ← collect_replacements ext request.source request.destination pages []
  let (source_bytes, _) ← Section.read_bytes request.source
  Section.commit_move request.source request.destination source_bytes replacements
  pure { source := request.source.as_str
         destination := request.destination.as_str
         revision := revision
         updated_referrers := replacements.map fun r => r.1.as_str }

/-- `remove_page`. -/
def remove_page (request : RemovePageRequest) : Section Unit := do
  let (_, revision) ← Section.read_bytes request.path
  Section.of_except (check_revision request.path request.expected_revision revision)
  Section.remove_file request.path

end Pages

/-! ## Requests of any kind -/

/-- A mutation of the store. -/
inductive Request where
  | write (request : WritePageRequest)
  | «move» (request : MovePageRequest)
  | remove (request : RemovePageRequest)

/-- What a mutation returns when it succeeds. -/
inductive Reply where
  | page (page : Page)
  | moved (outcome : MoveOutcome)
  | removed
  deriving DecidableEq

/-- The section of a request. -/
def perform (ext : Externals) : Request → Section Reply
  | .write request => Reply.page <$> write_page ext request
  | .move request => Reply.moved <$> move_page ext request
  | .remove request => (fun _ => Reply.removed) <$> remove_page request

end AgentSpace.Memory
