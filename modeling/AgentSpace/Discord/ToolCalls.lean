/-
What the Discord gateway reads from the items of a stream: the text of an event, and the
tool call that it announces.

A tool call of ACP is reported in patches, which are merged (`accumulate`) until there is an
input to show or the call has ended (`Displays`). A status that is an array or an object has
no hash, and looking for it in a set raises.
-/
import AgentSpace.Discord.Chunks
import AgentSpace.Telemetry.Python

set_option autoImplicit false

namespace AgentSpace.Discord

open Telemetry (Str str)
open PyText
open Telemetry.Otel (Value get contains mapping_or_empty int_repr)

variable {F : Type}

/-! ## Dictionaries -/

/-- `entries[key] = value`. -/
def set_key {V : Type} (key : Str) (value : V) : List (Str × V) → List (Str × V)
  | [] => [(key, value)]
  | entry :: entries =>
    if entry.1 = key then (key, value) :: entries else entry :: set_key key value entries

/-- `del entries[key]`. -/
def del_key {V : Type} (key : Str) (entries : List (Str × V)) : List (Str × V) :=
  entries.filter fun entry => entry.1 ≠ key

/-- `state.update(patch)`. -/
def update_dict (state patch : Dict F) : Dict F :=
  (state.map fun entry => (entry.1, (patch.lookup entry.1).getD entry.2))
    ++ patch.filter fun entry => (state.lookup entry.1).isNone

variable {V : Type}

theorem lookup_set_key (key : Str) (value : V) (entries : List (Str × V)) (k : Str) :
    (set_key key value entries).lookup k = if k = key then some value else entries.lookup k := by
  induction entries with
  | nil =>
    by_cases hk : k = key
    · simp [set_key, hk]
    · have hne : (k == key) = false := by simpa using hk
      simp [set_key, List.lookup_cons, hne, hk]
  | cons entry entries ih =>
    obtain ⟨key', value'⟩ := entry
    unfold set_key
    by_cases hkey : key' = key
    · subst hkey
      rw [if_pos rfl]
      by_cases hk : k = key'
      · simp [hk]
      · have hne : (k == key') = false := by simpa using hk
        simp [List.lookup_cons, hne, hk]
    · rw [if_neg hkey]
      by_cases hk : k = key'
      · subst hk
        simp [hkey]
      · have hne : (k == key') = false := by simpa using hk
        simp only [List.lookup_cons, hne, ih]

theorem lookup_del_key_of_ne {key k : Str} (h : k ≠ key) (entries : List (Str × V)) :
    (del_key key entries).lookup k = entries.lookup k := by
  induction entries with
  | nil => rfl
  | cons entry entries ih =>
    obtain ⟨key', value⟩ := entry
    unfold del_key at ih ⊢
    by_cases hkey : key' = key
    · have hne : (k == key') = false := by simpa [hkey] using h
      rw [List.filter_cons_of_neg (by simpa using hkey), ih, List.lookup_cons, hne]
    · rw [List.filter_cons_of_pos (by simpa using hkey), List.lookup_cons, List.lookup_cons, ih]

theorem lookup_del_key_self (key : Str) (entries : List (Str × V)) :
    (del_key key entries).lookup key = none := by
  induction entries with
  | nil => rfl
  | cons entry entries ih =>
    obtain ⟨key', value⟩ := entry
    unfold del_key at ih ⊢
    by_cases hkey : key' = key
    · rw [List.filter_cons_of_neg (by simpa using hkey), ih]
    · have hne : (key == key') = false := by simpa using fun h : key = key' => hkey h.symm
      rw [List.filter_cons_of_pos (by simpa using hkey), List.lookup_cons, hne, ih]

theorem lookup_append (entries entries' : List (Str × V)) (k : Str) :
    (entries ++ entries').lookup k = (entries.lookup k).or (entries'.lookup k) := by
  induction entries with
  | nil => rfl
  | cons entry entries ih =>
    obtain ⟨key, value⟩ := entry
    rw [List.cons_append, List.lookup_cons, List.lookup_cons]
    by_cases hk : (k == key) = true
    · simp [hk]
    · simp [hk, ih]

theorem lookup_update_dict (state patch : Dict F) (k : Str) :
    (update_dict state patch).lookup k = (patch.lookup k).or (state.lookup k) := by
  unfold update_dict
  have hmap : ∀ entries : Dict F,
      (entries.map fun entry => (entry.1, (patch.lookup entry.1).getD entry.2)).lookup k
        = (entries.lookup k).map fun value => (patch.lookup k).getD value := by
    intro entries
    induction entries with
    | nil => rfl
    | cons entry entries ih =>
      obtain ⟨key, value⟩ := entry
      rw [List.map_cons, List.lookup_cons, List.lookup_cons, ih]
      by_cases hk : (k == key) = true
      · obtain rfl : k = key := by simpa using hk
        simp
      · simp [hk]
  have hfilter : state.lookup k = none → ∀ entries : Dict F,
      (entries.filter fun entry => (state.lookup entry.1).isNone).lookup k = entries.lookup k := by
    intro hnone entries
    induction entries with
    | nil => rfl
    | cons entry entries ih =>
      obtain ⟨key, value⟩ := entry
      by_cases hk : (k == key) = true
      · obtain rfl : k = key := by simpa using hk
        rw [List.filter_cons_of_pos (by simp [hnone])]
        simp
      · rw [List.filter_cons, List.lookup_cons, ← ih]
        by_cases hkept : (state.lookup key).isNone = true
        · simp [hkept, hk, List.lookup_cons]
        · simp [hkept, hk]
  rw [lookup_append, hmap]
  cases hstate : state.lookup k with
  | none => simp [hfilter hstate]
  | some value => cases patch.lookup k <;> simp

/-! ## The text of an event -/

/-- What the gateway uses of Python's library: the text of a float, and `json.dumps` with the
separators `","` and `":"`, and with an indentation of two. -/
structure Library (F : Type) where
  float_str : F → Str
  dumps_compact : Dict F → Str
  dumps_indent : Value F → Str

/-- `_optional_non_empty_string`. -/
def optional_non_empty_string : Value F → Option Str
  | .string s => if s.isEmpty then none else some s
  | _ => none

/-- `value if isinstance(value, str) else ""`. -/
def text_or_empty : Value F → Str
  | .string s => s
  | _ => []

section Text

variable (lib : Library F)

mutual
/-- `_content_text`. -/
def content_text : Value F → Str
  | .array items => content_texts items
  | .null => []
  | .object entries =>
    if is_string (get entries "type") "text" then text_or_empty (get entries "text")
    else if is_string (get entries "type") "content" then content_of entries
    else lib.dumps_compact entries
  | .bool b => str (if b then "True" else "False")
  | .int n => int_repr n
  | .float x => lib.float_str x
  | .string s => s

/-- `_content_text` of each item, joined. -/
def content_texts : List (Value F) → Str
  | [] => []
  | item :: items => content_text item ++ content_texts items

/-- `_content_text(content_dict.get("content"))`. -/
def content_of : List (Str × Value F) → Str
  | [] => []
  | (key, value) :: entries => if key = str "content" then content_text value else content_of entries
end

/-- `_stream_event_text`. -/
def stream_event_text (event : Dict F) : Str :=
  if is_string (get event "type") "text_delta" then text_or_empty (get event "content")
  else if is_string (get event "type") "session/update" then
    match get event "update" with
    | .object update =>
      if is_string (get update "sessionUpdate") "agent_message_chunk" then
        content_text lib (get update "content")
      else []
    | _ => []
  else []

end Text

/-! ## Tool calls -/

/-- `_ToolInvocation`. -/
structure ToolInvocation (F : Type) where
  key : Option Str
  tool : Str
  input : Value F

/-- `_legacy_tool_invocation`. -/
def legacy_tool_invocation (event : Dict F) : Option (ToolInvocation F) :=
  (optional_non_empty_string (get event "tool")).map fun tool => ⟨none, tool, get event "input"⟩

/-- `_acp_tool_name`. -/
def acp_tool_name (update : Dict F) (tool_call_id : Option Str) : Str :=
  let kind := optional_non_empty_string (get update "kind")
  let title := optional_non_empty_string (get update "title")
  if kind = some (str "other") then (title <|> kind).getD []
  else (kind <|> title <|> tool_call_id).getD (str "tool")

/-- `_acp_tool_invocation_from_state`. -/
def acp_tool_invocation_from_state (state : Dict F) (tool_call_id : Option Str) : ToolInvocation F :=
  ⟨tool_call_id, acp_tool_name state tool_call_id, get state "rawInput"⟩

/-- `_has_displayable_acp_tool_input`. -/
def has_displayable_acp_tool_input (state : Dict F) : Bool :=
  contains state "rawInput" &&
    match get state "rawInput" with
    | .null => false
    | .object input =>
      !input.isEmpty && (!is_string (get state "kind") "execute"
        || !input.all fun entry => entry.1 == str "cwd" || entry.1 == str "workdir")
    | _ => true

/-- `state.get("status") in {"completed", "failed"}`; `none` is a `TypeError`, of a value that
has no hash. -/
def terminal (state : Dict F) : Option Bool :=
  match get state "status" with
  | .array _ => none
  | .object _ => none
  | .string s => some (s == str "completed" || s == str "failed")
  | _ => some false

/-- What an update makes of the state of its tool call: a new state, or a patched one. -/
def acp_state (update : Dict F) (prior : Option (Dict F)) : Option (Dict F) :=
  if is_string (get update "sessionUpdate") "tool_call" then some update
  else if is_string (get update "sessionUpdate") "tool_call_update" then
    some (update_dict (prior.getD []) update)
  else none

/-- `_acp_tool_invocation`, with the states of the tool calls that it leaves; `none` is a
`TypeError`. -/
def acp_tool_invocation (event : Dict F) (tool_calls : List (Str × Dict F)) :
    Option (Option (ToolInvocation F) × List (Str × Dict F)) :=
  match get event "update" with
  | .object update =>
    match optional_non_empty_string (get update "toolCallId") with
    | none =>
      if is_string (get update "sessionUpdate") "tool_call" then
        some (some (acp_tool_invocation_from_state update none), tool_calls)
      else some (none, tool_calls)
    | some tool_call_id =>
      match acp_state update (tool_calls.lookup tool_call_id) with
      | none => some (none, tool_calls)
      | some state =>
        let tool_calls := set_key tool_call_id state tool_calls
        (terminal state).map fun ended =>
          if !ended && !has_displayable_acp_tool_input state then (none, tool_calls)
          else (some (acp_tool_invocation_from_state state (some tool_call_id)),
            if ended then del_key tool_call_id tool_calls else tool_calls)
  | _ => some (none, tool_calls)

/-- `_tool_invocation_from_event`. -/
def tool_invocation_from_event (event : Dict F) (acp_tool_calls : List (Str × Dict F)) :
    Option (Option (ToolInvocation F) × List (Str × Dict F)) :=
  if is_string (get event "type") "tool_call" then
    some (legacy_tool_invocation event, acp_tool_calls)
  else if is_string (get event "type") "session/update" then
    acp_tool_invocation event acp_tool_calls
  else some (none, acp_tool_calls)

/-- `_tool_input_text`: the text and its language. -/
def tool_input_text (lib : Library F) : Value F → Str × Str
  | .null => ([], [])
  | .string s =>
    let text := strip s
    (text, if (str "\x7b").isPrefixOf text || (str "[").isPrefixOf text then str "json" else [])
  | value => (lib.dumps_indent value, str "json")

/-- `_format_tool_call_message`. -/
def format_tool_call_message (lib : Library F) (tool : Str) (tool_input : Value F) : Str :=
  let tool_name := tool.flatMap fun c => if [c] = str "`" then str "\\`" else [c]
  let (input_text, language) := tool_input_text lib tool_input
  if input_text.isEmpty then str "Invoking tool `" ++ tool_name ++ str "` with no input."
  else str "Invoking tool `" ++ tool_name ++ str "` with input:\n```" ++ language ++ str "\n"
    ++ input_text ++ str "\n```"

/-! ## Final items -/

/-- `_extract_assistant_text`. -/
def extract_assistant_text (response : Dict F) : Str :=
  match get response "assistant_message" with
  | .object assistant => text_or_empty (get assistant "content")
  | _ => []

/-- `_extract_tool_call_messages`. -/
def extract_tool_call_messages (lib : Library F) (response : Dict F) : List Str :=
  match get response "assistant_message" with
  | .object assistant =>
    match get assistant "tool_calls" with
    | .array tool_calls => tool_calls.filterMap fun raw_tool_call =>
      match raw_tool_call with
      | .object tool_call => (optional_non_empty_string (get tool_call "tool")).map fun tool =>
        format_tool_call_message lib tool (get tool_call "input")
      | _ => none
    | _ => []
  | _ => []

/-! ## What the items say of a tool call -/

/-- The event of an item. -/
def event_of (item : Dict F) : Option (Dict F) :=
  if is_string (get item "type") "event" then
    match get item "event" with
    | .object event => some event
    | _ => none
  else none

/-- The text of an item. -/
def delta (lib : Library F) (item : Dict F) : Str :=
  ((event_of item).map (stream_event_text lib)).getD []

/-- The texts of the items, one after another. -/
def deltas (lib : Library F) (items : List (Dict F)) : Str := items.flatMap (delta lib)

/-- The ACP update of a tool call that has an id, and the id. -/
def tool_update (item : Dict F) : Option (Str × Dict F) :=
  match event_of item with
  | some event =>
    if is_string (get event "type") "session/update" then
      match get event "update" with
      | .object update =>
        (optional_non_empty_string (get update "toolCallId")).bind fun tool_call_id =>
          if is_string (get update "sessionUpdate") "tool_call"
            || is_string (get update "sessionUpdate") "tool_call_update" then
            some (tool_call_id, update)
          else none
      | _ => none
    else none
  | none => none

/-- The state of a tool call after one more item. -/
def accumulate (tool_call_id : Str) (state : Option (Dict F)) (item : Dict F) : Option (Dict F) :=
  match tool_update item with
  | some (id, update) => if id = tool_call_id then acp_state update state else state
  | none => state

/-- The state of a tool call after the items. -/
def accumulated (tool_call_id : Str) (items : List (Dict F)) : Option (Dict F) :=
  items.foldl (accumulate tool_call_id) none

/-- A state with an input to show, or with a status in which the call has ended. -/
def Displays (state : Dict F) : Prop :=
  has_displayable_acp_tool_input state = true ∨ terminal state = some true

/-- The state of a tool call is to be shown, at some point of the items. -/
def Shown (tool_call_id : Str) (items : List (Dict F)) : Prop :=
  ∃ before, before <+: items ∧ ∃ state ∈ accumulated tool_call_id before, Displays state

/-- A status that a set can be searched for. -/
def Hashable (item : Dict F) : Prop :=
  ∀ id update, tool_update item = some (id, update) → (terminal update).isSome

variable (lib : Library F)

theorem deltas_append (items : List (Dict F)) (item : Dict F) :
    deltas lib (items ++ [item]) = deltas lib items ++ delta lib item := by
  unfold deltas
  rw [List.flatMap_append]
  simp

theorem accumulated_append (id : Str) (items : List (Dict F)) (item : Dict F) :
    accumulated id (items ++ [item]) = accumulate id (accumulated id items) item := by
  unfold accumulated
  rw [List.foldl_append]
  rfl

variable {id : Str} {item : Dict F}

theorem shown_append_iff {items : List (Dict F)} :
    Shown id (items ++ [item])
      ↔ Shown id items ∨ ∃ state ∈ accumulated id (items ++ [item]), Displays state := by
  constructor
  · rintro ⟨before, hbefore, hstate⟩
    rcases List.prefix_concat_iff.1 hbefore with rfl | hbefore
    · exact Or.inr hstate
    · exact Or.inl ⟨before, hbefore, hstate⟩
  · rintro (⟨before, hbefore, hstate⟩ | hstate)
    · exact ⟨before, hbefore.trans (List.prefix_append items [item]), hstate⟩
    · exact ⟨items ++ [item], List.prefix_refl _, hstate⟩

theorem not_shown_nil (id : Str) : ¬Shown id ([] : List (Dict F)) := by
  rintro ⟨before, hbefore, state, hstate, -⟩
  obtain rfl := List.prefix_nil.1 hbefore
  cases hstate

theorem shown_append_of_same {items : List (Dict F)}
    (h : accumulated id (items ++ [item]) = accumulated id items) :
    Shown id (items ++ [item]) ↔ Shown id items := by
  rw [shown_append_iff, h]
  constructor
  · rintro (hshown | hstate)
    · exact hshown
    · exact ⟨items, List.prefix_refl _, hstate⟩
  · exact Or.inl

/-! ## What an item says -/

theorem accumulated_of_none (h : tool_update item = none) (id : Str)
    (items : List (Dict F)) : accumulated id (items ++ [item]) = accumulated id items := by
  rw [accumulated_append]
  unfold accumulate
  rw [h]

theorem accumulated_of_ne {item update : Dict F} {id key : Str}
    (h : tool_update item = some (id, update)) (hne : key ≠ id) (items : List (Dict F)) :
    accumulated key (items ++ [item]) = accumulated key items := by
  rw [accumulated_append]
  unfold accumulate
  rw [h]
  exact if_neg fun heq => hne heq.symm

theorem accumulated_of_update {item update : Dict F}
    (h : tool_update item = some (id, update)) (items : List (Dict F)) :
    accumulated id (items ++ [item]) = acp_state update (accumulated id items) := by
  rw [accumulated_append]
  unfold accumulate
  rw [h]
  exact if_pos rfl

/-- An event that is no update of a tool call with an id leaves the states as they are; what it
announces has no id, and it has no text if it announces something. -/
theorem invocation_of_none {item event : Dict F} (hevent : event_of item = some event)
    (hupdate : tool_update item = none) (tool_calls : List (Str × Dict F)) :
    ∃ invocation, tool_invocation_from_event event tool_calls = some (invocation, tool_calls)
      ∧ ∀ i ∈ invocation, i.key = none ∧ stream_event_text lib event = [] := by
  unfold tool_invocation_from_event
  by_cases hlegacy : is_string (get event "type") "tool_call" = true
  · rw [if_pos hlegacy]
    refine ⟨_, rfl, ?_⟩
    intro i hi
    obtain ⟨tool, -, rfl⟩ := Option.map_eq_some_iff.1 hi
    refine ⟨rfl, ?_⟩
    unfold stream_event_text
    rw [is_string_ne hlegacy (by decide), is_string_ne hlegacy (by decide)]
    rfl
  · rw [if_neg hlegacy]
    by_cases hsession : is_string (get event "type") "session/update" = true
    · rw [if_pos hsession]
      unfold tool_update at hupdate
      simp only [hevent, hsession, if_true] at hupdate
      unfold acp_tool_invocation
      cases hobject : get event "update" with
      | object update =>
        rw [hobject] at hupdate
        cases hid : optional_non_empty_string (get update "toolCallId") with
        | none =>
          by_cases hcall : is_string (get update "sessionUpdate") "tool_call" = true
          · simp only [hcall, hid, if_true]
            refine ⟨_, rfl, ?_⟩
            intro i hi
            obtain rfl := Option.some.inj hi
            refine ⟨rfl, ?_⟩
            unfold stream_event_text
            rw [is_string_ne hsession (by decide), hsession, hobject]
            have hchunk : is_string (get update "sessionUpdate") "agent_message_chunk" = false :=
              is_string_ne hcall (by decide)
            simp [hchunk]
          · simp only [hcall, hid]
            exact ⟨none, rfl, by simp⟩
        | some id =>
          have hother : (is_string (get update "sessionUpdate") "tool_call"
              || is_string (get update "sessionUpdate") "tool_call_update") = false := by
            simpa [hid] using hupdate
          rw [Bool.or_eq_false_iff] at hother
          have hnone : acp_state update (tool_calls.lookup id) = none := by
            unfold acp_state
            rw [hother.1, hother.2]
            rfl
          simp only [hid, hnone]
          exact ⟨none, rfl, by simp⟩
      | null | bool b | int n | float x | string s | array items => exact ⟨none, rfl, by simp⟩
    · rw [if_neg hsession]
      exact ⟨none, rfl, by simp⟩

/-- An update of a tool call with an id has no text; it is merged, and what comes of it
depends on the merged state. -/
theorem invocation_of_update {item event update : Dict F}
    (hevent : event_of item = some event) (hupdate : tool_update item = some (id, update))
    (tool_calls : List (Str × Dict F)) :
    stream_event_text lib event = [] ∧ ∃ state, acp_state update (tool_calls.lookup id) = some state
      ∧ tool_invocation_from_event event tool_calls = (terminal state).map fun ended =>
        if !ended && !has_displayable_acp_tool_input state then
          (none, set_key id state tool_calls)
        else (some (acp_tool_invocation_from_state state (some id)),
          if ended then del_key id (set_key id state tool_calls)
          else set_key id state tool_calls) := by
  unfold tool_update at hupdate
  simp only [hevent] at hupdate
  by_cases hsession : is_string (get event "type") "session/update" = true
  · rw [if_pos hsession] at hupdate
    cases hobject : get event "update" with
    | object update' =>
      simp only [hobject] at hupdate
      obtain ⟨id', hid, hkind⟩ := Option.bind_eq_some_iff.1 hupdate
      by_cases hcall : (is_string (get update' "sessionUpdate") "tool_call"
          || is_string (get update' "sessionUpdate") "tool_call_update") = true
      · rw [if_pos hcall] at hkind
        obtain ⟨rfl, rfl⟩ := Prod.mk.inj (Option.some.inj hkind)
        have hchunk : is_string (get update' "sessionUpdate") "agent_message_chunk" = false := by
          rcases Bool.or_eq_true_iff.1 hcall with h | h
          · exact is_string_ne h (by decide)
          · exact is_string_ne h (by decide)
        refine ⟨?_, ?_⟩
        · unfold stream_event_text
          rw [is_string_ne hsession (by decide), hsession, hobject]
          simp [hchunk]
        · have hstate : ∃ state, acp_state update' (tool_calls.lookup id') = some state := by
            unfold acp_state
            by_cases hnew : is_string (get update' "sessionUpdate") "tool_call" = true
            · exact ⟨_, if_pos hnew⟩
            · rw [if_neg hnew]
              have hpatch := (Bool.or_eq_true_iff.1 hcall).resolve_left hnew
              exact ⟨_, if_pos hpatch⟩
          obtain ⟨state, hstate⟩ := hstate
          refine ⟨state, hstate, ?_⟩
          unfold tool_invocation_from_event acp_tool_invocation
          rw [is_string_ne hsession (by decide), hsession]
          simp only [hobject, hid, hstate, if_true, Bool.false_eq_true, if_false]
      · rw [if_neg hcall] at hkind
        cases hkind
    | null | bool b | int n | float x | string s | array items => simp [hobject] at hupdate
  · rw [if_neg hsession] at hupdate
    cases hupdate

/-! ## States with a hash -/

theorem terminal_update_dict (state patch : Dict F) :
    terminal (update_dict state patch) = terminal patch
      ∨ terminal (update_dict state patch) = terminal state := by
  unfold terminal Telemetry.Otel.get
  rw [lookup_update_dict]
  cases patch.lookup (str "status") with
  | some value => exact Or.inl rfl
  | none => exact Or.inr rfl

/-- A merged state has a status with a hash if what it was merged of does. -/
theorem terminal_acp_state_isSome {update state : Dict F} {prior : Option (Dict F)}
    (h : acp_state update prior = some state) (hupdate : (terminal update).isSome)
    (hprior : ∀ before ∈ prior, (terminal before).isSome) : (terminal state).isSome := by
  unfold acp_state at h
  by_cases hnew : is_string (get update "sessionUpdate") "tool_call" = true
  · rw [if_pos hnew] at h
    obtain rfl := Option.some.inj h
    exact hupdate
  · rw [if_neg hnew] at h
    obtain ⟨-, hmerged⟩ := Option.ite_none_right_eq_some.1 h
    obtain rfl := Option.some.inj hmerged
    rcases terminal_update_dict (prior.getD []) update with heq | heq
    · rw [heq]
      exact hupdate
    · rw [heq]
      cases prior with
      | none => rfl
      | some before => exact hprior before rfl

theorem terminal_acp_state_eq_none {update state : Dict F} {prior : Option (Dict F)}
    (h : acp_state update prior = some state) (hupdate : terminal update = none) :
    terminal state = none := by
  unfold acp_state at h
  by_cases hnew : is_string (get update "sessionUpdate") "tool_call" = true
  · rw [if_pos hnew] at h
    obtain rfl := Option.some.inj h
    exact hupdate
  · rw [if_neg hnew] at h
    obtain ⟨-, hmerged⟩ := Option.ite_none_right_eq_some.1 h
    obtain rfl := Option.some.inj hmerged
    unfold terminal Telemetry.Otel.get at hupdate ⊢
    rw [lookup_update_dict]
    cases hpatch : update.lookup (str "status") with
    | some value => rwa [hpatch] at hupdate
    | none =>
      rw [hpatch] at hupdate
      cases hupdate

end AgentSpace.Discord
