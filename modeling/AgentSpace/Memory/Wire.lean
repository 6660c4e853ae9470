/-
The HTTP transport of the memory service, for the requests that read: `wire.rs`, the
handler of `server.rs`, and the client of `http_client.rs`.

The HTTP stack carries query pairs and bodies unchanged; it may cut a body into chunks
anywhere. JSON is a codec for the answers and one for the error envelope.
-/
import AgentSpace.Memory.Queries

set_option autoImplicit false

namespace AgentSpace.Memory

open Text Lib

/-! ## Errors on the wire -/

/-- `MemoryError::kind`. -/
def MemoryError.kind : MemoryError → String
  | .InvalidPath _ _ => "invalid_path"
  | .NotFound _ => "not_found"
  | .AlreadyExists _ => "already_exists"
  | .Conflict _ _ _ => "conflict"
  | .InvalidFrontmatter _ _ => "invalid_frontmatter"
  | .TooLarge _ _ => "too_large"
  | .CommandNotAllowed _ => "command_not_allowed"
  | .RunTimedOut => "run_timed_out"
  | .RunOutputLimitExceeded => "run_output_limit_exceeded"
  | .RunCancelled => "run_cancelled"
  | .RunLaunchFailed _ => "run_launch_failed"
  | .Lock _ => "lock"
  | .NotImplemented _ => "not_implemented"
  | .Unavailable _ => "unavailable"
  | .MalformedResponse _ => "malformed_response"
  | .Internal _ => "internal"
  | .Io _ => "io"
  | .Yaml _ => "yaml"

/-- `MISSING_COMMAND`. -/
def MISSING_COMMAND : Text := "<missing>".toList

/-- `Display` of an error; `debug` is Rust's `{:?}` of a string. -/
def MemoryError.to_string (debug : Text → String) : MemoryError → String
  | .InvalidPath path reason => "invalid page path " ++ debug path ++ ": " ++ reason
  | .NotFound path => "page not found: " ++ String.ofList path
  | .AlreadyExists path => "page already exists: " ++ String.ofList path
  | .Conflict path (some expected) actual =>
    "revision conflict for " ++ String.ofList path ++ ": expected " ++ String.ofList expected
      ++ ", found " ++ String.ofList actual
  | .Conflict path none actual =>
    "revision conflict for " ++ String.ofList path ++ ": page already exists with revision "
      ++ String.ofList actual
  | .InvalidFrontmatter path reason =>
    "invalid frontmatter in " ++ String.ofList path ++ ": " ++ reason
  | .TooLarge what limit =>
    what ++ " exceeds the configured limit of " ++ String.ofList (decimal limit) ++ " bytes"
  | .CommandNotAllowed command =>
    if command = MISSING_COMMAND then "command is required"
    else "command " ++ debug command ++ " is not in the allowlist"
  | .RunTimedOut => "command timed out"
  | .RunOutputLimitExceeded => "command output exceeded the configured limit"
  | .RunCancelled => "command was cancelled"
  | .RunLaunchFailed message => "command failed to launch: " ++ message
  | .Lock message => "failed to lock memory store: " ++ message
  | .NotImplemented feature => feature ++ " is not implemented yet"
  | .Unavailable message => "memory service is unavailable: " ++ message
  | .MalformedResponse message => "memory service returned a malformed response: " ++ message
  | .Internal message => "internal error: " ++ message
  | .Io message => "I/O error: " ++ message
  | .Yaml message => "YAML error: " ++ message

/-- `ErrorBody`, which is all of an `ErrorEnvelope`. -/
structure ErrorBody where
  kind : String
  message : String
  path : Option Text
  expected_revision : Option Text
  actual_revision : Option Text
  limit : Option ℕ
  command : Option Text
  deriving DecidableEq

/-- `ErrorEnvelope::from_error`. -/
def ErrorBody.from_error (debug : Text → String) (error : MemoryError) : ErrorBody :=
  let message := error.to_string debug
  match error with
  | .InvalidPath path _ | .NotFound path | .AlreadyExists path | .InvalidFrontmatter path _ =>
    ⟨error.kind, message, some path, none, none, none, none⟩
  | .Conflict path expected actual =>
    ⟨error.kind, message, some path, expected, some actual, none, none⟩
  | .TooLarge _ limit => ⟨error.kind, message, none, none, none, some limit, none⟩
  | .CommandNotAllowed command => ⟨error.kind, message, none, none, none, none, some command⟩
  | _ => ⟨error.kind, message, none, none, none, none, none⟩

/-- `ErrorEnvelope::into_memory_error`. Two kinds that `from_error` writes are not
among those it knows, `io` and `yaml`. -/
def ErrorBody.into_memory_error (body : ErrorBody) : MemoryError :=
  if body.kind = "invalid_path" then .InvalidPath (body.path.getD []) body.message
  else if body.kind = "not_found" then .NotFound (body.path.getD [])
  else if body.kind = "already_exists" then .AlreadyExists (body.path.getD [])
  else if body.kind = "conflict" then
    .Conflict (body.path.getD []) body.expected_revision (body.actual_revision.getD [])
  else if body.kind = "invalid_frontmatter" then
    .InvalidFrontmatter (body.path.getD []) body.message
  else if body.kind = "too_large" then .TooLarge "request payload" (body.limit.getD 0)
  else if body.kind = "command_not_allowed" then .CommandNotAllowed (body.command.getD [])
  else if body.kind = "run_timed_out" then .RunTimedOut
  else if body.kind = "run_output_limit_exceeded" then .RunOutputLimitExceeded
  else if body.kind = "run_cancelled" then .RunCancelled
  else if body.kind = "run_launch_failed" then .RunLaunchFailed body.message
  else if body.kind = "lock" then .Lock body.message
  else if body.kind = "not_implemented" then .NotImplemented body.message
  else if body.kind = "unavailable" then .Unavailable body.message
  else if body.kind = "malformed_response" then .MalformedResponse body.message
  else .Internal body.message

/-- The errors of the operating system and of the YAML library. -/
def MemoryError.Foreign : MemoryError → Prop
  | .Io _ | .Yaml _ => True
  | _ => False

instance : (e : MemoryError) → Decidable e.Foreign
  | .Io _ | .Yaml _ => instDecidableTrue
  | .NotFound _ | .AlreadyExists _ | .InvalidPath _ _ | .Conflict _ _ _ | .InvalidFrontmatter _ _
  | .TooLarge _ _ | .CommandNotAllowed _ | .RunTimedOut | .RunOutputLimitExceeded | .RunCancelled
  | .RunLaunchFailed _ | .Lock _ | .NotImplemented _ | .Unavailable _ | .MalformedResponse _
  | .Internal _ => instDecidableFalse

/-- **Kinds on the wire.** An error keeps its kind, unless it is foreign; then it
becomes an internal one. -/
theorem kind_into_memory_error (debug : Text → String) (error : MemoryError) :
    (ErrorBody.from_error debug error).into_memory_error.kind
      = if error.Foreign then "internal" else error.kind := by
  cases error <;> rfl

/-! ## Query parameters -/

/-- The pairs of a query string. -/
abbrev QueryPairs := List (String × Text)

/-- `list_filter_query`. -/
def list_filter_query (filter : ListFilter) (text : Option Text) : QueryPairs :=
  (match filter.under with
    | some under => [("under", under.as_str)]
    | none => [])
  ++ (if filter.with_tags ≠ [] then [("with-tag", join [','] filter.with_tags)] else [])
  ++ (match filter.limit with
    | some limit => [("limit", decimal limit.toNat)]
    | none => [])
  ++ (match text.filter (· ≠ []) with
    | some text => [("text", text)]
    | none => [])

/-- `ListPagesQuery`. -/
structure ListPagesQuery where
  under : Option Text
  with_tag : Option Text
  limit : Option UInt64
  text : Option Text

/-- `Query<ListPagesQuery>`: the extraction from the pairs, which fails if the limit
is no number. -/
def ListPagesQuery.from_pairs (pairs : QueryPairs) : Option ListPagesQuery :=
  match pairs.lookup "limit" with
  | none => some ⟨pairs.lookup "under", pairs.lookup "with-tag", none, pairs.lookup "text"⟩
  | some raw => (parse_usize raw).map fun limit =>
    ⟨pairs.lookup "under", pairs.lookup "with-tag", some limit, pairs.lookup "text"⟩

/-- The pairs as the extraction finds them. -/
theorem from_pairs_list_filter_query (filter : ListFilter) (text : Option Text) :
    ListPagesQuery.from_pairs (list_filter_query filter text)
      = some ⟨filter.under.map PagePath.as_str,
        if filter.with_tags ≠ [] then some (join [','] filter.with_tags) else none,
        filter.limit, text.filter (· ≠ [])⟩ := by
  obtain ⟨under, with_tags, limit⟩ := filter
  unfold ListPagesQuery.from_pairs list_filter_query
  cases under <;> cases limit <;> cases text.filter (· ≠ []) <;>
    by_cases htags : with_tags = [] <;>
    simp [htags, List.lookup, parse_usize_decimal]

/-- `ListPagesQuery::tags`. -/
def ListPagesQuery.tags (query : ListPagesQuery) : List Text :=
  match query.with_tag with
  | some tags => ((split ',' tags).map trim).filter (· ≠ [])
  | none => []

/-! ## The server -/

/-- The status codes the service answers with. -/
inductive StatusCode where
  | OK
  | BAD_REQUEST
  | NOT_FOUND
  | CONFLICT
  | INTERNAL_SERVER_ERROR
  | NOT_IMPLEMENTED
  | SERVICE_UNAVAILABLE
  deriving DecidableEq

/-- `StatusCode::is_success`. -/
def StatusCode.is_success (status : StatusCode) : Bool := status = .OK

/-- `Display` of a status. -/
def StatusCode.to_string : StatusCode → String
  | .OK => "200 OK"
  | .BAD_REQUEST => "400 Bad Request"
  | .NOT_FOUND => "404 Not Found"
  | .CONFLICT => "409 Conflict"
  | .INTERNAL_SERVER_ERROR => "500 Internal Server Error"
  | .NOT_IMPLEMENTED => "501 Not Implemented"
  | .SERVICE_UNAVAILABLE => "503 Service Unavailable"

/-- `status_for`. -/
def status_for : MemoryError → StatusCode
  | .InvalidPath _ _ | .InvalidFrontmatter _ _ | .TooLarge _ _ | .CommandNotAllowed _ => .BAD_REQUEST
  | .NotFound _ => .NOT_FOUND
  | .Conflict _ _ _ | .AlreadyExists _ => .CONFLICT
  | .NotImplemented _ => .NOT_IMPLEMENTED
  | .Lock _ | .Unavailable _ => .SERVICE_UNAVAILABLE
  | _ => .INTERNAL_SERVER_ERROR

theorem status_for_not_success (error : MemoryError) : (status_for error).is_success = false := by
  cases error <;> rfl

/-- A JSON codec for one type. -/
structure Codec (α : Type) where
  to_vec : α → Bytes
  from_slice : Bytes → Except String α

/-- What is serialized is deserialized to the same value. -/
def Codec.RoundTrips {α : Type} (codec : Codec α) : Prop :=
  ∀ a, codec.from_slice (codec.to_vec a) = .ok a

/-- What lies between client and service and is not part of the repository: JSON,
the chunks in which a body arrives, and `{:?}` of a string. -/
structure Remote where
  pages : Codec (List PageSummary)
  envelope : Codec ErrorBody
  chunks : Bytes → List Bytes
  debug : Text → String

/-- `MAX_JSON_RESPONSE_BYTES`. -/
def MAX_JSON_RESPONSE_BYTES : ℕ := 16 * 1024 * 1024

/-- What is relied on of it: JSON reads back what it wrote, the list of no pages is
short (it is `[]`), and the chunks of a body are the body. -/
structure Remote.Lawful (remote : Remote) : Prop where
  pages : remote.pages.RoundTrips
  envelope : remote.envelope.RoundTrips
  no_pages : (remote.pages.to_vec []).size ≤ MAX_JSON_RESPONSE_BYTES
  chunks : ∀ body, (remote.chunks body).foldl (· ++ ·) ByteArray.empty = body

/-- A response. -/
structure Response where
  status : StatusCode
  content_type : Option Text
  body : Bytes

/-- `JSON_CONTENT_TYPE`. -/
def JSON_CONTENT_TYPE : Text := "application/json".toList

/-- `query.under.as_deref().map(PagePath::parse).transpose()`. -/
def parse_under : Option Text → Except MemoryError (Option PagePath)
  | some raw => (PagePath.parse raw).map some
  | none => .ok none

section Server

variable (ext : Externals)

/-- The handler `list_pages`, behind the extraction. -/
def handle_list_pages (query : ListPagesQuery) : Section (List PageSummary) := do
  let under ← Section.of_except (parse_under query.under)
  match query.text.filter (· ≠ []) with
  | some text => query_pages ext ⟨text, ⟨under, query.tags, query.limit⟩⟩
  | none => list_summaries ext ⟨under, query.tags, query.limit⟩

/-- The response to a result: the pages, or `AppError`'s envelope. -/
def into_response (remote : Remote) : Except MemoryError (List PageSummary) → Response
  | .ok pages => ⟨.OK, some JSON_CONTENT_TYPE, remote.pages.to_vec pages⟩
  | .error e => ⟨status_for e, some JSON_CONTENT_TYPE,
      remote.envelope.to_vec (ErrorBody.from_error remote.debug e)⟩

/-- The rejection of a query that does not extract. -/
def rejection : Response :=
  ⟨.BAD_REQUEST, some "text/plain; charset=utf-8".toList,
    into_bytes "Failed to deserialize query string".toList⟩

/-- `GET /v1/pages`. -/
def serve_list_pages (remote : Remote) (pairs : QueryPairs) : Prog StoreCall StoreCall.Answer Response :=
  match ListPagesQuery.from_pairs pairs with
  | none => Prog.ret rejection
  | some query =>
    (handle_list_pages ext query).run >>= fun result => Prog.ret (into_response remote result)

end Server

/-! ## The client -/

/-- The loop of `read_bounded`. -/
def read_bounded : Bytes → List Bytes → Except MemoryError Bytes
  | body, [] => .ok body
  | body, chunk :: rest =>
    if body.size + chunk.size > MAX_JSON_RESPONSE_BYTES then
      .error (.TooLarge "memory service response" MAX_JSON_RESPONSE_BYTES)
    else read_bounded (body ++ chunk) rest

/-- `require_content_type`. -/
def require_content_type (debug : Text → String) (response : Response) (expected : Text) :
    Except MemoryError Unit :=
  let actual := response.content_type.map fun value => trim ((split ';' value).headD [])
  if actual = some expected then .ok ()
  else .error (.MalformedResponse ("expected content-type " ++ debug expected ++ ", got "
    ++ match actual with
      | some actual => "Some(" ++ debug actual ++ ")"
      | none => "None"))

/-- `parse_error_body`. -/
def parse_error_body (remote : Remote) (status : StatusCode) (bytes : Bytes) : MemoryError :=
  match remote.envelope.from_slice bytes with
  | .ok body => body.into_memory_error
  | .error e => .MalformedResponse ("memory service returned status " ++ status.to_string
      ++ " with an unparsable error body: " ++ e)

/-- `json_request`, behind the response. -/
def receive (remote : Remote) (response : Response) : Except MemoryError (List PageSummary) :=
  if !response.status.is_success then
    match read_bounded ByteArray.empty (remote.chunks response.body) with
    | .error e => .error e
    | .ok bytes => .error (parse_error_body remote response.status bytes)
  else do
    require_content_type remote.debug response JSON_CONTENT_TYPE
    let bytes ← read_bounded ByteArray.empty (remote.chunks response.body)
    match remote.pages.from_slice bytes with
    | .ok pages => .ok pages
    | .error e => .error (.MalformedResponse e)

/-- A request that reads pages. -/
inductive ReadRequest where
  | list (filter : ListFilter)
  | query (request : QueryRequest)

/-- The filter of a request. -/
def ReadRequest.filter : ReadRequest → ListFilter
  | .list filter => filter
  | .query request => request.filter

/-- The text of a request, if it has one. -/
def ReadRequest.text : ReadRequest → Option Text
  | .list _ => none
  | .query request => some request.text

/-- `DirectMemoryClient`. -/
def direct_client (ext : Externals) : ReadRequest → Section (List PageSummary)
  | .list filter => list_summaries ext filter
  | .query request => query_pages ext request

/-- `HttpMemoryClient` with the service behind it. -/
def http_client (ext : Externals) (remote : Remote) (request : ReadRequest) : Section (List PageSummary) :=
  ExceptT.mk (serve_list_pages ext remote (list_filter_query request.filter request.text)
    >>= fun response => Prog.ret (receive remote response))

/-! ## What the client makes of a response -/

/-- A bounded read returns the body, if it is within the bound. -/
theorem read_bounded_eq (chunks : List Bytes) (body : Bytes) (hbody : body.size ≤ MAX_JSON_RESPONSE_BYTES) :
    read_bounded body chunks
      = if (chunks.foldl (· ++ ·) body).size > MAX_JSON_RESPONSE_BYTES then
          .error (.TooLarge "memory service response" MAX_JSON_RESPONSE_BYTES)
        else .ok (chunks.foldl (· ++ ·) body) := by
  induction chunks generalizing body with
  | nil =>
    rw [read_bounded, List.foldl_nil, if_neg (by omega)]
  | cons chunk rest ih =>
    rw [read_bounded, List.foldl_cons]
    by_cases hsize : body.size + chunk.size > MAX_JSON_RESPONSE_BYTES
    · -- what follows only makes the body longer
      have hgrows : ∀ (rest : List Bytes) (b : Bytes), b.size ≤ (rest.foldl (· ++ ·) b).size := by
        intro rest
        induction rest with
        | nil => exact fun b => le_refl _
        | cons c rest ih =>
          intro b
          have := ih (b ++ c)
          rw [ByteArray.size_append] at this
          rw [List.foldl_cons]
          omega
      have := hgrows rest (body ++ chunk)
      rw [ByteArray.size_append] at this
      rw [if_pos hsize, if_pos (by omega)]
    · rw [if_neg hsize]
      exact ih _ (by rw [ByteArray.size_append]; omega)

/-- The body of the response to a result. -/
def response_body (remote : Remote) (result : Except MemoryError (List PageSummary)) : Bytes :=
  (into_response remote result).body

theorem read_bounded_chunks {remote : Remote} (hremote : remote.Lawful) (body : Bytes) :
    read_bounded ByteArray.empty (remote.chunks body)
      = if body.size > MAX_JSON_RESPONSE_BYTES then
          .error (.TooLarge "memory service response" MAX_JSON_RESPONSE_BYTES)
        else .ok body := by
  have h := read_bounded_eq (remote.chunks body) ByteArray.empty (by decide)
  rwa [hremote.chunks] at h

/-- **What arrives.** The pages arrive as they are, an error with the kind it has on
the wire, and a body that is too long as an error. -/
theorem receive_into_response {remote : Remote} (hremote : remote.Lawful)
    (result : Except MemoryError (List PageSummary)) :
    receive remote (into_response remote result)
      = if (response_body remote result).size > MAX_JSON_RESPONSE_BYTES then
          .error (.TooLarge "memory service response" MAX_JSON_RESPONSE_BYTES)
        else result.mapError fun e =>
          (ErrorBody.from_error remote.debug e).into_memory_error := by
  have hread := read_bounded_chunks hremote (response_body remote result)
  cases result with
  | error e =>
    have hbody : response_body remote (.error e)
      = remote.envelope.to_vec (ErrorBody.from_error remote.debug e) := rfl
    unfold receive into_response
    dsimp only
    rw [hbody] at hread ⊢
    rw [status_for_not_success, Bool.not_false, if_pos rfl, hread]
    by_cases hsize : (remote.envelope.to_vec (ErrorBody.from_error remote.debug e)).size
        > MAX_JSON_RESPONSE_BYTES
    · rw [if_pos hsize, if_pos hsize]
    · rw [if_neg hsize, if_neg hsize]
      simp only [parse_error_body, hremote.envelope _, Except.mapError]
  | ok pages =>
    have hbody : response_body remote (.ok pages) = remote.pages.to_vec pages := rfl
    have htype : require_content_type remote.debug
        ⟨.OK, some JSON_CONTENT_TYPE, remote.pages.to_vec pages⟩ JSON_CONTENT_TYPE = .ok () := by
      have htrim : trim ((split ';' JSON_CONTENT_TYPE).headD []) = JSON_CONTENT_TYPE := by decide
      unfold require_content_type
      dsimp only [Option.map_some]
      rw [htrim, if_pos rfl]
    unfold receive into_response
    dsimp only
    rw [hbody] at hread ⊢
    rw [htype, hread, if_neg (by simp [StatusCode.is_success])]
    by_cases hsize : (remote.pages.to_vec pages).size > MAX_JSON_RESPONSE_BYTES
    · rw [if_pos hsize, if_pos hsize]
      rfl
    · rw [if_neg hsize, if_neg hsize]
      simp [hremote.pages _, Except.mapError, bind, Except.bind]

end AgentSpace.Memory
