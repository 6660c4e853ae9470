/-
Dot segments in the paths of the VS Code proxy.

A browser reaches the VS Code server of a session through two proxies, the client service
and the agent host. Each decodes the path until decoding changes nothing, and refuses it if
a segment of what is left is `.` or `..`. A dot segment stays one when the path is decoded
further.
-/
import AgentSpace.Text
import AgentSpace.Lib.Loops
import AgentSpace.Lib.Percent
import AgentSpace.Lib.Segments

set_option autoImplicit false

namespace AgentSpace.Proxy

open Text Lib

/-! ## The checks -/

section Checks

-- `percent_decode_str` of a library, of the bytes of a string
variable (percent_decode_str : List UInt8 → List UInt8)

/-- A round of decoding. -/
def decode_round (decoded : Text) : Text := from_utf8_lossy (percent_decode_str (utf8 decoded))

/-- `/` or `\`. -/
def is_separator (c : Char) : Bool := c = '/' || c = '\\'

/-- `.` or `..`. -/
def is_dot_segment (segment : Text) : Bool := segment = ['.'] || segment = ['.', '.']

/-- A segment is a dot segment. -/
def has_dot_segment (decoded : Text) : Bool := (decoded.splitOnP is_separator).any is_dot_segment

/-- What decoding in a loop, for so many turns, leads to. -/
def decode_loop (turns : ℕ) (path : Text) : Option Text :=
  loop (fixpoint_turn (decode_round percent_decode_str)) turns path

namespace AgentHost

/-- `vscode_proxy_path_has_dot_segment` of the agent host. -/
def vscode_proxy_path_has_dot_segment (turns : ℕ) (path : Text) : Option Bool :=
  (decode_loop percent_decode_str turns path).map has_dot_segment

end AgentHost

namespace ClientService

/-- The part of a string that the client service takes for the path. -/
def path_part (path_and_query : Text) : Text :=
  match split_once '?' path_and_query with
  | some (path, _query) => path
  | none => path_and_query

/-- `vscode_proxy_path_has_dot_segment` of the client service. -/
def vscode_proxy_path_has_dot_segment (turns : ℕ) (path_and_query : Text) : Option Bool :=
  (decode_loop percent_decode_str turns (path_part path_and_query)).map has_dot_segment

end ClientService

/-! ## The proxies -/

/-- `OriginalUri`, as the proxies read it: its path has no `?`. -/
structure OriginalUri where
  path : Text
  query : Option Text
  path_ends : '?' ∉ path

/-- A path, and the query of a URI. -/
def with_query (uri : OriginalUri) (path : Text) : Text :=
  match uri.query with
  | some query => path ++ '?' :: query
  | none => path

namespace ClientService

/-- `ApiError`, as far as the proxy makes it. -/
inductive ApiError where
  | internal (message : Text)
  | unprocessable (message : Text)
  deriving DecidableEq

/-- `proxy_path_and_query`. -/
def proxy_path_and_query (turns : ℕ) ( route_prefix : Text) (uri : OriginalUri) :
    Option (Except ApiError Text) :=
  match strip_prefix route_prefix uri.path with
  | none => some (.error (.internal "VS Code proxy route prefix is invalid".toList))
  | some suffix =>
    (vscode_proxy_path_has_dot_segment percent_decode_str turns suffix).map fun dots =>
      if dots then
        .error (.unprocessable "VS Code proxy path must not contain dot segments".toList)
      else .ok (with_query uri (if suffix = [] then ['/'] else suffix))

end ClientService

namespace AgentHost

/-- `AgentHostError`, as far as the proxy makes it. -/
inductive AgentHostError where
  | runtime (message : Text)
  | validation (message : Text)
  deriving DecidableEq

/-- `proxy_target_url`. -/
def proxy_target_url (turns : ℕ) (base_url route_prefix : Text) (uri : OriginalUri) :
    Option (Except AgentHostError Text) :=
  match strip_prefix route_prefix uri.path with
  | none => some (.error (.runtime "VS Code proxy route prefix is invalid".toList))
  | some suffix =>
    (vscode_proxy_path_has_dot_segment percent_decode_str turns suffix).map fun dots =>
      if dots then
        .error (.validation "VS Code proxy path must not contain dot segments".toList)
      else
        let path := if suffix = [] then ['/'] else suffix
        .ok (with_query uri (base_url.rdropWhile (· = '/') ++ path))

end AgentHost

end Checks

/-! ## Segments of bytes and of outlines -/

/-- The byte of `/` or of `\`. -/
def is_separator_byte (b : UInt8) : Bool := b = 0x2F || b = 0x5C

/-- The bytes of `.` or of `..`. -/
def is_dot_bytes (segment : List UInt8) : Bool := segment = [0x2E] || segment = [0x2E, 0x2E]

/-- A segment of some bytes is a dot segment. -/
def has_dot_bytes (bytes : List UInt8) : Bool := (bytes.splitOnP is_separator_byte).any is_dot_bytes

/-- The entry of `/` or of `\`. -/
def is_separator_entry (e : Option UInt8) : Bool := e = some 0x2F || e = some 0x5C

/-- The outline of `.` or of `..`. -/
def is_dot_outline (o : List (Option UInt8)) : Bool :=
  o = [some 0x2E] || o = [some 0x2E, some 0x2E]

/-- A segment of an outline is a dot segment. -/
def has_dot_outline (o : List (Option UInt8)) : Bool :=
  (o.splitOnP is_separator_entry).any is_dot_outline

variable {c : Char}

theorem is_separator_iff : is_separator c = true ↔ c = '/' ∨ c = '\\' := by
  simp [is_separator]

variable {b : UInt8}

theorem is_separator_byte_iff : is_separator_byte b = true ↔ b = 0x2F ∨ b = 0x5C := by
  simp [is_separator_byte]

theorem is_separator_entry_iff {e : Option UInt8} :
    is_separator_entry e = true ↔ ∃ b, e = some b ∧ is_separator_byte b = true := by
  simp only [is_separator_entry, is_separator_byte, Bool.or_eq_true, decide_eq_true_eq]
  constructor
  · rintro (rfl | rfl)
    · exact ⟨_, rfl, Or.inl rfl⟩
    · exact ⟨_, rfl, Or.inr rfl⟩
  · rintro ⟨b, rfl, rfl | rfl⟩
    · exact Or.inl rfl
    · exact Or.inr rfl

theorem utf8_injective : Function.Injective utf8 :=
  Function.LeftInverse.injective from_utf8_lossy_utf8

theorem utf8_append_cons (h : String.utf8EncodeChar c = [b]) (t u : Text) :
    utf8 (t ++ c :: u) = utf8 t ++ b :: utf8 u := by
  rw [utf8_append, utf8_cons, h]
  rfl

theorem is_ascii_of_separator (h : is_separator_byte b = true) : is_ascii b = true := by
  rcases is_separator_byte_iff.1 h with rfl | rfl <;> rfl

theorem is_separator_of_mem (hmem : b ∈ String.utf8EncodeChar c)
    (h : is_separator_byte b = true) : is_separator c = true := by
  rcases utf8EncodeChar_cases c with ⟨b', hencode, -, hnat⟩ | ⟨-, hascii⟩
  · rw [hencode, List.mem_singleton] at hmem
    rw [← hmem] at hnat
    rw [is_separator_iff, ← Char.ofNat_toNat c, hnat]
    rcases is_separator_byte_iff.1 h with rfl | rfl
    · exact Or.inl rfl
    · exact Or.inr rfl
  · have hnot := hascii b hmem
    rw [is_ascii_of_separator h] at hnot
    cases hnot

/-- **The segments of a text** are those of its bytes. -/
theorem has_dot_bytes_utf8 (t : Text) : has_dot_bytes (utf8 t) = has_dot_segment t := by
  have hsplit : (utf8 t).splitOnP is_separator_byte = (t.splitOnP is_separator).map utf8 := by
    refine splitOnP_map _ _ utf8 (fun a c u hc => ?_) (fun t hfree b hb => ?_) t
    · rcases is_separator_iff.1 hc with rfl | rfl
      · exact ⟨0x2F, rfl, utf8_append_cons (by decide) a u⟩
      · exact ⟨0x5C, rfl, utf8_append_cons (by decide) a u⟩
    · obtain ⟨c, hc, hmem⟩ := List.mem_flatMap.1 hb
      refine eq_false_of_ne_true fun h => ?_
      have hsep := is_separator_of_mem hmem h
      rw [hfree c hc] at hsep
      cases hsep
  have hdot : ∀ segment, is_dot_bytes (utf8 segment) = is_dot_segment segment := by
    intro segment
    have hone : ([0x2E] : List UInt8) = utf8 ['.'] := by decide
    have htwo : ([0x2E, 0x2E] : List UInt8) = utf8 ['.', '.'] := by decide
    unfold is_dot_bytes is_dot_segment
    rw [htwo, hone]
    simp only [utf8_injective.eq_iff]
  unfold has_dot_bytes has_dot_segment
  rw [hsplit, List.any_map]
  exact congrArg (List.any _) (funext hdot)

/-- **The segments of bytes** are those of their outline. -/
theorem has_dot_outline_outline (bytes : List UInt8) :
    has_dot_outline (outline bytes) = has_dot_bytes bytes := by
  have hsplit : (outline bytes).splitOnP is_separator_entry
      = (bytes.splitOnP is_separator_byte).map outline := by
    refine splitOnP_map _ _ outline (fun a b rest hb => ?_) (fun bytes hfree e he => ?_) bytes
    · exact ⟨some b, is_separator_entry_iff.2 ⟨b, rfl, hb⟩,
        outline_append_cons (is_ascii_of_separator hb) a rest⟩
    · refine eq_false_of_ne_true fun h => ?_
      obtain ⟨b, rfl, hb⟩ := is_separator_entry_iff.1 h
      rw [hfree b (mem_of_mem_outline he)] at hb
      cases hb
  have hdot : ∀ segment, is_dot_outline (outline segment) = is_dot_bytes segment := by
    intro segment
    have hascii : is_ascii 0x2E = true := rfl
    have hone : outline segment = [some 0x2E] ↔ segment = [0x2E] :=
      @outline_eq_map_iff segment [0x2E] (by simp [hascii])
    have htwo : outline segment = [some 0x2E, some 0x2E] ↔ segment = [0x2E, 0x2E] :=
      @outline_eq_map_iff segment [0x2E, 0x2E] (by simp [hascii])
    unfold is_dot_outline is_dot_bytes
    simp only [hone, htwo]
  unfold has_dot_outline has_dot_bytes
  rw [hsplit, List.any_map]
  exact congrArg (List.any _) (funext hdot)

/-- **A dot segment stays** when an outline is decoded. -/
theorem has_dot_decode_outline {o : List (Option UInt8)} (h : has_dot_outline o = true) :
    has_dot_outline (decode_outline o) = true := by
  have hsplit : (decode_outline o).splitOnP is_separator_entry
      = (o.splitOnP is_separator_entry).flatMap fun part =>
        (decode_outline part).splitOnP is_separator_entry := by
    refine splitOnP_flatMap _ _ decode_outline (fun a e rest he => ?_) o
    obtain ⟨b, rfl, hb⟩ := is_separator_entry_iff.1 he
    refine ⟨some b, he, decode_outline_append_cons ?_ ?_ a rest⟩
    · rcases is_separator_byte_iff.1 hb with rfl | rfl <;> decide
    · rcases is_separator_byte_iff.1 hb with rfl | rfl <;> decide
  have hdot : ∀ part, is_dot_outline part = true →
      (decode_outline part).splitOnP is_separator_entry = [part] := by
    intro part hpart
    unfold is_dot_outline at hpart
    rw [Bool.or_eq_true, decide_eq_true_eq, decide_eq_true_eq] at hpart
    rcases hpart with rfl | rfl <;> decide
  unfold has_dot_outline at h ⊢
  obtain ⟨part, hmem, hpart⟩ := List.any_eq_true.1 h
  refine List.any_eq_true.2 ⟨part, ?_, hpart⟩
  rw [hsplit]
  exact List.mem_flatMap.2 ⟨part, hmem, by rw [hdot part hpart]; exact List.mem_cons_self⟩

/-! ## Rounds -/

theorem has_dot_iterate {o : List (Option UInt8)} (h : has_dot_outline o = true) (n : ℕ) :
    has_dot_outline (decode_outline^[n] o) = true := by
  induction n with
  | zero => exact h
  | succ n ih =>
    rw [Function.iterate_succ_apply']
    exact has_dot_decode_outline ih

/-- No round of decoding some bytes shows a dot segment, whether they are read as text between
the rounds or not. -/
def NoDotSegments (percent_decode_str : List UInt8 → List UInt8) (path : Text) : Prop :=
  ∀ n, has_dot_segment ((decode_round percent_decode_str)^[n] path) = false
    ∧ has_dot_bytes (percent_decode_str^[n] (utf8 path)) = false

section Rounds

variable {percent_decode_str : List UInt8 → List UInt8} (hdecode : PercentDecodes percent_decode_str)
include hdecode

/-- **A round of decoding** is seen on the outline. -/
theorem outline_decode_round (t : Text) :
    outline (utf8 (decode_round percent_decode_str t)) = decode_outline (outline (utf8 t)) := by
  unfold decode_round
  rw [outline_from_utf8_lossy, hdecode.eq, outline_percent_decode]

theorem outline_iterate_decode_round (n : ℕ) (t : Text) :
    outline (utf8 ((decode_round percent_decode_str)^[n] t)) = decode_outline^[n] (outline (utf8 t)) := by
  have hsemiconj : Function.Semiconj (fun t => outline (utf8 t)) (decode_round percent_decode_str)
      decode_outline := outline_decode_round hdecode
  exact hsemiconj.iterate_right n t

theorem outline_iterate_percent_decode (n : ℕ) (bytes : List UInt8) :
    outline (percent_decode_str^[n] bytes) = decode_outline^[n] (outline bytes) := by
  rw [hdecode.eq]
  have hsemiconj : Function.Semiconj outline percent_decode decode_outline := outline_percent_decode
  exact hsemiconj.iterate_right n bytes

/-- **A round leaves fewer ASCII bytes**, or changes nothing. -/
theorem decode_round_falls (t : Text) : decode_round percent_decode_str t = t
    ∨ ascii_count (utf8 (decode_round percent_decode_str t)) < ascii_count (utf8 t) := by
  have hcount : ascii_count (utf8 (decode_round percent_decode_str t))
      = ascii_count (percent_decode (utf8 t)) := by
    rw [← countP_outline, outline_decode_round hdecode, ← outline_percent_decode, countP_outline]
  rcases percent_decode_falls (utf8 t) with heq | hlt
  · refine Or.inl ?_
    unfold decode_round
    rw [hdecode.eq, heq, from_utf8_lossy_utf8]
  · exact Or.inr (hcount ▸ hlt)

/-- **The loop ends**, with one result. -/
theorem existsUnique_decode_loop (path : Text) :
    ∃! decoded, ∃ turns, decode_loop percent_decode_str turns path = some decoded := by
  obtain ⟨decoded, hends⟩ := exists_fixpoint (fun t => ascii_count (utf8 t)) (decode_round_falls hdecode) path
  obtain ⟨turns, hloop⟩ := hends.exists_loop
  refine ⟨decoded, ⟨turns, hloop⟩, ?_⟩
  rintro decoded' ⟨turns', hloop'⟩
  exact (LoopEnds.of_loop turns' hloop').unique hends

/-- **What the loop leaves** shows the dot segments of all rounds. -/
theorem noDotSegments_of_loop {turns : ℕ} {path decoded : Text}
    (hloop : decode_loop percent_decode_str turns path = some decoded)
    (hdots : has_dot_segment decoded = false) : NoDotSegments percent_decode_str path := by
  obtain ⟨hfix, m, hm⟩ := (LoopEnds.of_loop turns hloop).fixpoint
  have houtline : ∀ n, has_dot_outline (decode_outline^[n] (outline (utf8 path))) = false := by
    intro n
    refine eq_false_of_ne_true fun hdot => ?_
    have hlast := has_dot_iterate hdot m
    rw [← Function.iterate_add_apply, Nat.add_comm, Function.iterate_add_apply,
      ← outline_iterate_decode_round hdecode m, hm, ← outline_iterate_decode_round hdecode n,
      Function.iterate_fixed hfix, has_dot_outline_outline, has_dot_bytes_utf8, hdots] at hlast
    cases hlast
  intro n
  constructor
  · rw [← has_dot_bytes_utf8, ← has_dot_outline_outline, outline_iterate_decode_round hdecode]
    exact houtline n
  · rw [← has_dot_outline_outline, outline_iterate_percent_decode hdecode]
    exact houtline n

theorem noDotSegments_of_check {turns : ℕ} {path : Text}
    (h : (decode_loop percent_decode_str turns path).map has_dot_segment = some false) :
    NoDotSegments percent_decode_str path := by
  obtain ⟨decoded, hloop, hdots⟩ := Option.map_eq_some_iff.1 h
  exact noDotSegments_of_loop hdecode hloop hdots

theorem existsUnique_check (path : Text) : ∃! answer, ∃ turns,
    (decode_loop percent_decode_str turns path).map has_dot_segment = some answer := by
  obtain ⟨decoded, ⟨turns, hloop⟩, hunique⟩ := existsUnique_decode_loop hdecode path
  refine ⟨has_dot_segment decoded, ⟨turns, by rw [hloop, Option.map_some]⟩, ?_⟩
  rintro answer ⟨turns', hcheck⟩
  obtain ⟨decoded', hloop', rfl⟩ := Option.map_eq_some_iff.1 hcheck
  rw [hunique decoded' ⟨turns', hloop'⟩]

end Rounds

theorem path_part_of_not_mem {path : Text} (h : '?' ∉ path) : ClientService.path_part path = path := by
  rw [ClientService.path_part, split_once_eq_none.2 h]

/-- **On paths the checks agree.** -/
theorem checks_agree (percent_decode_str : List UInt8 → List UInt8) {path : Text} (h : '?' ∉ path)
    (turns : ℕ) : ClientService.vscode_proxy_path_has_dot_segment percent_decode_str turns path
      = AgentHost.vscode_proxy_path_has_dot_segment percent_decode_str turns path := by
  rw [ClientService.vscode_proxy_path_has_dot_segment, path_part_of_not_mem h]
  rfl

section Forwarded

variable {percent_decode_str : List UInt8 → List UInt8} {turns : ℕ} { route_prefix : Text} {uri : OriginalUri}

/-- What the client service forwards passes the check of the agent host. -/
theorem check_of_path_and_query {result : Text}
    (h : ClientService.proxy_path_and_query percent_decode_str turns route_prefix uri = some (.ok result)) :
    ∃ suffix, uri.path = route_prefix ++ suffix
      ∧ AgentHost.vscode_proxy_path_has_dot_segment percent_decode_str turns suffix = some false := by
  unfold ClientService.proxy_path_and_query at h
  split at h
  · cases h
  · next suffix hsuffix =>
      have hpath := strip_prefix_eq_some hsuffix
      obtain ⟨dots, hdots, hresult⟩ := Option.map_eq_some_iff.1 h
      cases dots with
      | true => cases hresult
      | false =>
        have hquery : '?' ∉ suffix := by
          intro hmem
          apply uri.path_ends
          rw [hpath]
          exact List.mem_append_right _ hmem
        exact ⟨suffix, hpath, (checks_agree percent_decode_str hquery turns).symm.trans hdots⟩

/-- What the agent host asks the server for has passed its check. -/
theorem check_of_target_url {base_url target : Text}
    (h : AgentHost.proxy_target_url percent_decode_str turns base_url route_prefix uri = some (.ok target)) :
    ∃ suffix, uri.path = route_prefix ++ suffix
      ∧ AgentHost.vscode_proxy_path_has_dot_segment percent_decode_str turns suffix = some false := by
  unfold AgentHost.proxy_target_url at h
  split at h
  · cases h
  · next suffix hsuffix =>
      obtain ⟨dots, hdots, hresult⟩ := Option.map_eq_some_iff.1 h
      cases dots with
      | true => cases hresult
      | false => exact ⟨suffix, strip_prefix_eq_some hsuffix, hdots⟩

end Forwarded

/-- What the checks are for, with a function that percent-decodes. -/
structure Checked (percent_decode_str : List UInt8 → List UInt8) : Prop where
  agent_host_ends : ∀ path, ∃! answer, ∃ turns,
    AgentHost.vscode_proxy_path_has_dot_segment percent_decode_str turns path = some answer
  client_service_ends : ∀ path_and_query, ∃! answer, ∃ turns,
    ClientService.vscode_proxy_path_has_dot_segment percent_decode_str turns path_and_query = some answer
  agent_host : ∀ turns path,
    AgentHost.vscode_proxy_path_has_dot_segment percent_decode_str turns path = some false →
    NoDotSegments percent_decode_str path
  client_service : ∀ turns path_and_query,
    ClientService.vscode_proxy_path_has_dot_segment percent_decode_str turns path_and_query = some false →
    NoDotSegments percent_decode_str (ClientService.path_part path_and_query)
  agree : ∀ path, '?' ∉ path → ∀ turns,
    ClientService.vscode_proxy_path_has_dot_segment percent_decode_str turns path
      = AgentHost.vscode_proxy_path_has_dot_segment percent_decode_str turns path
  forwarded : ∀ turns route_prefix uri result,
    ClientService.proxy_path_and_query percent_decode_str turns route_prefix uri = some (.ok result) →
    ∃ suffix, uri.path = route_prefix ++ suffix
      ∧ AgentHost.vscode_proxy_path_has_dot_segment percent_decode_str turns suffix = some false
  requested : ∀ turns base_url route_prefix uri target,
    AgentHost.proxy_target_url percent_decode_str turns base_url route_prefix uri = some (.ok target) →
    ∃ suffix, uri.path = route_prefix ++ suffix ∧ NoDotSegments percent_decode_str suffix

/-- **The checks of the two proxies** end on every string. If the agent host finds no dot
segment in a string, no round of decoding shows one, and if the client service finds none, no
round of decoding the part before the first `?` does. On paths they agree, so the agent host
finds no dot segment in what the client service forwards. -/
theorem vscode_proxy_checked (percent_decode_str : List UInt8 → List UInt8)
    (hdecode : PercentDecodes percent_decode_str) : Checked percent_decode_str where
  agent_host_ends := existsUnique_check hdecode
  client_service_ends path_and_query := existsUnique_check hdecode (ClientService.path_part path_and_query)
  agent_host _ _ h := noDotSegments_of_check hdecode h
  client_service _ _ h := noDotSegments_of_check hdecode h
  agree _ h turns := checks_agree percent_decode_str h turns
  forwarded _ _ _ _ h := check_of_path_and_query h
  requested _ _ _ _ _ h := by
    obtain ⟨suffix, hpath, hcheck⟩ := check_of_target_url h
    exact ⟨suffix, hpath, noDotSegments_of_check hdecode hcheck⟩

/-- A path with an escaped separator. -/
theorem escaped_separator_checked : NoDotSegments percent_decode "/a%2fb".toList :=
  (vscode_proxy_checked percent_decode percentDecodes_percent_decode).agent_host 2 _ (by decide +kernel)

/-- The checks differ where dots are behind a `?`. -/
theorem query_dot_segments : ¬∀ path turns,
    ClientService.vscode_proxy_path_has_dot_segment percent_decode turns path
      = AgentHost.vscode_proxy_path_has_dot_segment percent_decode turns path := by
  intro h
  exact absurd (h "/a?/..".toList 1) (by decide +kernel)

-- escapes that decode to escapes
example : AgentHost.vscode_proxy_path_has_dot_segment percent_decode 3 "/%252e%252E/admin".toList
    = some true := by decide +kernel

end AgentSpace.Proxy
