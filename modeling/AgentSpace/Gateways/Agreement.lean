/-
Registry and containers of a `GatewayHost`.

Between the two steps of a destruction the record is gone and the container is not, and
between the two steps of a creation it is the other way round. A history keeps account of
the containers that a thread still has to remove, and of the one that has no record yet.
`agrees_when_idle` is about runs of careful steps.
-/
import AgentSpace.Gateways.Host

set_option autoImplicit false

namespace AgentSpace.Gateways

open Lib

/-! ## The history -/

/-- What is half done. -/
structure History where
  pending : ℕ → Text → Option ℕ
  made : Option Text

/-- A host with its history. -/
abbrev Recorded := World × History

namespace History

/-- A thread has to remove containers. -/
def take (i : ℕ) (names : List Text) (next : ℕ) (h : History) : History :=
  { h with pending := Function.update h.pending i fun name =>
      if name ∈ names then some next else h.pending i name }

/-- A thread has removed a container, or has tried to. -/
def drop (i : ℕ) (name : Text) (h : History) : History :=
  { h with pending := Function.update h.pending i (Function.update (h.pending i) name none) }

theorem pending_take_of_ne {i j : ℕ} (hj : j ≠ i) (names : List Text) (next : ℕ) (h : History) :
    (h.take i names next).pending j = h.pending j := Function.update_of_ne hj _ _

theorem pending_take_self (i : ℕ) (names : List Text) (next : ℕ) (h : History) (name : Text) :
    (h.take i names next).pending i name = if name ∈ names then some next else h.pending i name := by
  unfold take
  simp

theorem pending_drop_of_ne {i j : ℕ} (hj : j ≠ i) (name : Text) (h : History) :
    (h.drop i name).pending j = h.pending j := Function.update_of_ne hj _ _

theorem pending_drop_self (i : ℕ) (name other : Text) (h : History) :
    (h.drop i name).pending i other = if other = name then none else h.pending i other := by
  unfold drop
  simp [Function.update_apply]

end History

/-- What a call changes of the history. -/
def record (i : ℕ) (c : Call) (r : c.Answer) (s : World) (h : History) : History :=
  match c, r with
  | .remove_record _, r => h.take i (r.toList.map fun record => record.runtime_session.container_name) s.next
  | .take_records, r => h.take i (r.map fun record => record.runtime_session.container_name) s.next
  | .remove_container name, _ => h.drop i name
  | .create_container name, .ok _ => { h with made := some name }
  | .insert_record _, _ => { h with made := none }
  | _, _ => h

/-- The condition on a call: a container that is created starts and becomes ready, its creation
has no effect if it fails; and a container that a destruction removes was there when the record was
taken, and is removed. -/
def Careful (i : ℕ) (c : Call) (choice : Choice) (s : Recorded) : Prop :=
  match c with
  | .remove_container name => ∀ next, s.2.pending i name = some next →
      ∀ number, s.1.containers name = some number → number < next ∧ choice.effective = true
  | .create_container _ => choice.fails ≠ none → choice.lost = false
  | .start_container _ => choice.fails = none
  | .wait_until_ready _ => choice.fails = none
  | _ => True

/-! ## The invariant -/

/-- Containers and records belong together, up to what is half done. -/
structure Kept (s : Recorded) : Prop where
  named : ∀ gateway_id record, s.1.records[gateway_id]? = some record →
    record.runtime_session.container_name = container_name gateway_id
  numbered : ∀ name number, s.1.containers name = some number → number < s.1.next
  counted : ∀ i name next, s.2.pending i name = some next → next ≤ s.1.next
  locked : s.2.made ≠ none → s.1.holder ≠ none
  /-- A container without its record yet is there, and no destruction removes it. -/
  made : ∀ name, s.2.made = some name → ∃ number, s.1.containers name = some number
    ∧ ∀ i next, s.2.pending i name = some next → next ≤ number
  /-- A record has its container, which no destruction removes. -/
  recorded : ∀ gateway_id record, s.1.records[gateway_id]? = some record →
    ∃ number, s.1.containers (container_name gateway_id) = some number
      ∧ ∀ i next, s.2.pending i (container_name gateway_id) = some next → next ≤ number
  /-- A container has a record, or is half done. -/
  owned : ∀ name number, s.1.containers name = some number →
    (∃ gateway_id record, name = container_name gateway_id
        ∧ s.1.records[gateway_id]? = some record)
      ∨ s.2.made = some name ∨ ∃ i next, s.2.pending i name = some next ∧ number < next

/-- What a thread leaves to the others: what they have to do, who holds the lock, and for the one
that holds it the registry and what it has made. -/
structure Leaves (i : ℕ) (s t : Recorded) : Prop where
  pending : ∀ j, j ≠ i → t.2.pending j = s.2.pending j
  holder : ∀ j, j ≠ i → (t.1.holder = some j ↔ s.1.holder = some j)
  held : ∀ j, j ≠ i → s.1.holder = some j → t.1.records = s.1.records ∧ t.2.made = s.2.made

/-- The rules of the proofs below. -/
def rules : Rules ℕ Call Choice Recorded Call.Answer where
  exec := with_history exec record
  allow := Careful
  invariant := Kept
  guarantee := Leaves

variable {choice : Choice} {s t : Recorded}

theorem step_and_record {i : ℕ} {c : Call} {r : c.Answer} (h : rules.exec i c choice s = some (r, t)) :
    exec i c choice s.1 = some (r, t.1) ∧ t.2 = record i c r s.1 s.2 := by
  have hstep : with_history exec record i c choice s = some (r, t) := h
  exact with_history_eq_some hstep

/-! ## Where a thread is -/

/-- A thread without the lock that has these containers to remove. -/
structure Outside (i : ℕ) (names : List Text) (s : Recorded) : Prop where
  owes : ∀ name, s.2.pending i name ≠ none ↔ name ∈ names
  nodup : names.Nodup
  holder : s.1.holder ≠ some i

/-- A thread with the lock that has these containers to remove. -/
structure Inside (i : ℕ) (names : List Text) (s : Recorded) : Prop where
  owes : ∀ name, s.2.pending i name ≠ none ↔ name ∈ names
  nodup : names.Nodup
  holder : s.1.holder = some i
  made : s.2.made = none

/-- A thread with the lock, where there is no record of a gateway; what it has made. -/
structure Creating (i : ℕ) (gateway_id : Text) (made : Option Text) (s : Recorded) : Prop where
  owes : ∀ name, s.2.pending i name = none
  holder : s.1.holder = some i
  made : s.2.made = made
  free : s.1.records[gateway_id]? = none

variable {i : ℕ}

theorem stable_outside (names : List Text) : rules.Stable i (Outside i names) := by
  intro j hj s t _ _ houtside hleaves
  refine ⟨?_, houtside.nodup, ?_⟩
  · rw [hleaves.pending i (Ne.symm hj)]
    exact houtside.owes
  · intro hholder
    exact houtside.holder ((hleaves.holder i (Ne.symm hj)).1 hholder)

theorem stable_inside (names : List Text) : rules.Stable i (Inside i names) := by
  intro j hj s t _ _ hinside hleaves
  obtain ⟨-, hmade⟩ := hleaves.held i (Ne.symm hj) hinside.holder
  refine ⟨?_, hinside.nodup, (hleaves.holder i (Ne.symm hj)).2 hinside.holder,
    hmade.trans hinside.made⟩
  rw [hleaves.pending i (Ne.symm hj)]
  exact hinside.owes

theorem stable_creating (gateway_id : Text) (made : Option Text) :
    rules.Stable i (Creating i gateway_id made) := by
  intro j hj s t _ _ hcreating hleaves
  obtain ⟨hrecords, hmade⟩ := hleaves.held i (Ne.symm hj) hcreating.holder
  refine ⟨?_, (hleaves.holder i (Ne.symm hj)).2 hcreating.holder, hmade.trans hcreating.made, ?_⟩
  · rw [hleaves.pending i (Ne.symm hj)]
    exact hcreating.owes
  · rw [hrecords]
    exact hcreating.free

variable {gateway_id : Text}

theorem Creating.inside {s : Recorded} (h : Creating i gateway_id none s) : Inside i [] s :=
  ⟨fun name => iff_of_false (fun hpending => hpending (h.owes name)) List.not_mem_nil, List.nodup_nil,
    h.holder, h.made⟩

theorem Inside.owes_nothing {s : Recorded} (h : Inside i [] s) (name : Text) :
    s.2.pending i name = none := by
  by_contra hpending
  exact List.not_mem_nil ((h.owes name).1 hpending)

theorem not_holder {s : Recorded} (h : s.1.holder = some i) {j : ℕ} (hj : j ≠ i) : s.1.holder ≠ some j := by
  rw [h]
  intro hsame
  exact hj (Option.some.inj hsame).symm

theorem Leaves.refl (s : Recorded) : Leaves i s s :=
  ⟨fun _ _ => rfl, fun _ _ => Iff.rfl, fun _ _ _ => ⟨rfl, rfl⟩⟩

/-! ## The lock -/

variable {names : List Text}

theorem keeps_lock {r : Call.lock.Answer}
    (hs : Kept s) (houtside : Outside i names s) (hexec : rules.exec i .lock choice s = some (r, t)) :
    Kept t ∧ Leaves i s t ∧ Inside i names t := by
  obtain ⟨hexec, hrecord⟩ := step_and_record hexec
  have hstep : (if s.1.holder = none then some ((), { s.1 with holder := some i }) else none)
      = some (r, t.1) := hexec
  by_cases hfree : s.1.holder = none
  · rw [if_pos hfree] at hstep
    obtain ⟨-, hworld⟩ := Prod.mk.inj (Option.some.inj hstep)
    have ht : t = ({ s.1 with holder := some i }, s.2) := Prod.ext hworld.symm hrecord
    subst ht
    refine ⟨⟨hs.named, hs.numbered, hs.counted, fun _ => Option.some_ne_none i, hs.made,
      hs.recorded, hs.owned⟩, ⟨fun _ _ => rfl, fun j hj => ?_, fun _ _ _ => ⟨rfl, rfl⟩⟩, houtside.owes,
        houtside.nodup,
      rfl, ?_⟩
    · rw [hfree]
      exact iff_of_false (fun h => hj (Option.some.inj h).symm) (by simp)
    · by_contra hmade
      exact hs.locked hmade hfree
  · rw [if_neg hfree] at hstep
    cases hstep

theorem keeps_unlock {r : Call.unlock.Answer}
    (hs : Kept s) (hinside : Inside i names s) (hexec : rules.exec i .unlock choice s = some (r, t)) :
    Kept t ∧ Leaves i s t ∧ Outside i names t := by
  obtain ⟨hexec, hrecord⟩ := step_and_record hexec
  obtain ⟨-, hworld⟩ := Prod.mk.inj (Option.some.inj hexec)
  have ht : t = ({ s.1 with holder := none }, s.2) := Prod.ext hworld.symm hrecord
  subst ht
  refine ⟨⟨hs.named, hs.numbered, hs.counted, fun h => absurd hinside.made h, hs.made, hs.recorded,
    hs.owned⟩, ⟨fun _ _ => rfl, fun j hj => ?_, fun j hj hholder => ?_⟩, hinside.owes,
    hinside.nodup, ?_⟩
  · exact iff_of_false (by simp) (not_holder hinside.holder hj)
  · exact absurd hholder (not_holder hinside.holder hj)
  · intro h
    cases h

/-- What a section under the lock leaves to be removed is left when it has let go of it. -/
theorem ensures_locked {α : Type} {body : Handler α} {names : α → List Text}
    (h : rules.Ensures i (Inside i []) body (fun a => Inside i (names a)) fun _ => Inside i []) :
    rules.Ensures i (Outside i []) (locked body) (fun a => Outside i (names a))
      fun _ => Outside i [] := by
  refine Rules.Outline.bind (Q := fun _ => Inside i [])
    (Rules.Outline.lift (fun _ => stable_inside []) ?_) fun _ => ?_
  · intro s choice r t hs houtside _ hexec
    exact keeps_lock hs houtside hexec
  refine Rules.Outline.bind h fun answer => ?_
  cases answer with
  | ok a =>
    refine Rules.Outline.bind (Q := fun _ => Outside i (names a))
      (Rules.Outline.lift (fun _ => stable_outside _) ?_) fun _ => Rules.Outline.ret fun _ _ h => h
    intro s choice r t hs hinside _ hexec
    exact keeps_unlock hs hinside hexec
  | error e =>
    refine Rules.Outline.bind (Q := fun _ => Outside i [])
      (Rules.Outline.lift (fun _ => stable_outside _) ?_) fun _ => Rules.Outline.ret fun _ _ h => h
    intro s choice r t hs hinside _ hexec
    exact keeps_unlock hs hinside hexec

/-! ## The registry -/

theorem getElem?_insert_record (records : Std.ExtTreeMap Text GatewayRecord compare)
    (gateway_id key : Text) (record : GatewayRecord) :
    (records.insert gateway_id record)[key]? = if key = gateway_id then some record else records[key]? := by
  rw [Std.ExtTreeMap.getElem?_insert]
  by_cases h : key = gateway_id
  · rw [if_pos h, if_pos (Std.LawfulEqCmp.compare_eq_iff_eq.2 h.symm)]
  · rw [if_neg h, if_neg fun heq => h (Std.LawfulEqCmp.compare_eq_iff_eq.1 heq).symm]

theorem getElem?_erase_record (records : Std.ExtTreeMap Text GatewayRecord compare)
    (gateway_id key : Text) :
    (records.erase gateway_id)[key]? = if key = gateway_id then none else records[key]? := by
  rw [Std.ExtTreeMap.getElem?_erase]
  by_cases h : key = gateway_id
  · rw [if_pos h, if_pos (Std.LawfulEqCmp.compare_eq_iff_eq.2 h.symm)]
  · rw [if_neg h, if_neg fun heq => h (Std.LawfulEqCmp.compare_eq_iff_eq.1 heq).symm]

theorem keeps_get_record {r : (Call.get_record gateway_id).Answer} (hs : Kept s) (hinside : Inside i [] s)
    (hexec : rules.exec i (.get_record gateway_id) choice s = some (r, t)) :
    Kept t ∧ Leaves i s t ∧ Inside i [] t ∧ (Option.isSome r = false → Creating i gateway_id none t) := by
  obtain ⟨hstep, hrecord⟩ := step_and_record hexec
  obtain ⟨hr, hworld⟩ := Prod.mk.inj (Option.some.inj hstep)
  have ht : t = s := Prod.ext hworld.symm hrecord
  subst ht
  refine ⟨hs, Leaves.refl t, hinside, fun hnone => ⟨hinside.owes_nothing, hinside.holder,
    hinside.made, ?_⟩⟩
  rw [hr]
  exact Option.isNone_iff_eq_none.1 (by simpa using hnone)

/-- The record of the container that has been made. -/
theorem keeps_insert_record {gateway_record : GatewayRecord}
    {r : (Call.insert_record gateway_record).Answer}
    (hname : gateway_record.runtime_session.container_name = container_name gateway_record.gateway_id)
    (hs : Kept s) (hcreating : Creating i gateway_record.gateway_id
      (some (container_name gateway_record.gateway_id)) s)
    (hexec : rules.exec i (.insert_record gateway_record) choice s = some (r, t)) :
    Kept t ∧ Leaves i s t ∧ Inside i [] t := by
  obtain ⟨hstep, hrecord⟩ := step_and_record hexec
  obtain ⟨-, hworld⟩ := Prod.mk.inj (Option.some.inj hstep)
  have ht : t = ({ s.1 with records := s.1.records.insert gateway_record.gateway_id gateway_record },
      { s.2 with made := none }) := Prod.ext hworld.symm hrecord
  subst ht
  refine ⟨⟨?_, hs.numbered, hs.counted, fun h => absurd rfl h, ?_, ?_, ?_⟩,
    ⟨fun _ _ => rfl, fun _ _ => Iff.rfl, fun j hj hholder => ?_⟩,
    ⟨fun name => iff_of_false (fun h => h (hcreating.owes name)) List.not_mem_nil, List.nodup_nil,
      hcreating.holder, rfl⟩⟩
  · intro gateway_id other hget
    rw [getElem?_insert_record] at hget
    by_cases hid : gateway_id = gateway_record.gateway_id
    · rw [if_pos hid] at hget
      obtain rfl := Option.some.inj hget
      rw [hid]
      exact hname
    · rw [if_neg hid] at hget
      exact hs.named gateway_id other hget
  · intro name h
    cases h
  · intro gateway_id other hget
    rw [getElem?_insert_record] at hget
    by_cases hid : gateway_id = gateway_record.gateway_id
    · rw [hid]
      exact hs.made _ hcreating.made
    · rw [if_neg hid] at hget
      exact hs.recorded gateway_id other hget
  · intro name number hcontainer
    rcases hs.owned name number hcontainer with ⟨gateway_id, other, hsame, hget⟩ | hmade | hpending
    · have hid : gateway_id ≠ gateway_record.gateway_id := by
        rintro rfl
        rw [hcreating.free] at hget
        cases hget
      exact Or.inl ⟨gateway_id, other, hsame, by rw [getElem?_insert_record, if_neg hid]; exact hget⟩
    · obtain rfl := Option.some.inj (hcreating.made.symm.trans hmade)
      exact Or.inl ⟨_, gateway_record, rfl, by rw [getElem?_insert_record, if_pos rfl]⟩
    · exact Or.inr (Or.inr hpending)
  · exact absurd hholder (not_holder hcreating.holder hj)

/-- **Taking records.** Whoever takes records out of the registry has to remove their
containers. -/
theorem keeps_taking {left : Std.ExtTreeMap Text GatewayRecord compare}
    {s : Recorded} (hleft : ∀ gateway_id record, left[gateway_id]? = some record →
      s.1.records[gateway_id]? = some record ∧ container_name gateway_id ∉ names)
    (htaken : ∀ gateway_id record, s.1.records[gateway_id]? = some record →
      left[gateway_id]? = some record ∨ container_name gateway_id ∈ names)
    (hnodup : names.Nodup) (hs : Kept s) (hinside : Inside i [] s) :
    Kept ({ s.1 with records := left }, s.2.take i names s.1.next)
      ∧ Leaves i s ({ s.1 with records := left }, s.2.take i names s.1.next)
      ∧ Inside i names ({ s.1 with records := left }, s.2.take i names s.1.next) := by
  have hpending : ∀ j name next, (s.2.take i names s.1.next).pending j name = some next →
      name ∉ names → s.2.pending j name = some next := by
    intro j name next h hname
    by_cases hj : j = i
    · subst hj
      rwa [History.pending_take_self, if_neg hname] at h
    · rwa [History.pending_take_of_ne hj] at h
  refine ⟨⟨?_, hs.numbered, ?_, ?_, ?_, ?_, ?_⟩, ⟨?_, fun _ _ => Iff.rfl, ?_⟩, ?_, hnodup,
    hinside.holder, hinside.made⟩
  · intro gateway_id record hget
    exact hs.named gateway_id record (hleft gateway_id record hget).1
  · intro j name next h
    by_cases hj : j = i
    · subst hj
      rw [History.pending_take_self, hinside.owes_nothing] at h
      by_cases hname : name ∈ names
      · rw [if_pos hname] at h
        exact (Option.some.inj h).ge
      · rw [if_neg hname] at h
        cases h
    · rw [History.pending_take_of_ne hj] at h
      exact hs.counted j name next h
  · exact fun h => absurd hinside.made h
  · intro name h
    cases hinside.made.symm.trans h
  · intro gateway_id record hget
    obtain ⟨hget, hname⟩ := hleft gateway_id record hget
    obtain ⟨number, hcontainer, hold⟩ := hs.recorded gateway_id record hget
    exact ⟨number, hcontainer, fun j next h => hold j next (hpending j _ next h hname)⟩
  · intro name number hcontainer
    rcases hs.owned name number hcontainer with ⟨gateway_id, record, rfl, hget⟩ | hmade | hold
    · rcases htaken gateway_id record hget with hstays | hname
      · exact Or.inl ⟨gateway_id, record, rfl, hstays⟩
      · refine Or.inr (Or.inr ⟨i, s.1.next, ?_, hs.numbered _ number hcontainer⟩)
        rw [History.pending_take_self, if_pos hname]
    · exact Or.inr (Or.inl hmade)
    · -- another thread has to remove it already
      obtain ⟨j, next, h, hlt⟩ := hold
      have hj : j ≠ i := by
        rintro rfl
        rw [hinside.owes_nothing] at h
        cases h
      exact Or.inr (Or.inr ⟨j, next, by rwa [History.pending_take_of_ne hj], hlt⟩)
  · exact fun j hj => History.pending_take_of_ne hj _ _ _
  · exact fun j hj hholder => absurd hholder (not_holder hinside.holder hj)
  · intro name
    rw [History.pending_take_self]
    by_cases hname : name ∈ names
    · rw [if_pos hname]
      exact iff_of_true (Option.some_ne_none _) hname
    · rw [if_neg hname]
      exact iff_of_false (fun h => h (hinside.owes_nothing name)) hname

theorem keeps_remove_record
    {r : (Call.remove_record gateway_id).Answer} (hs : Kept s) (hinside : Inside i [] s)
    (hexec : rules.exec i (.remove_record gateway_id) choice s = some (r, t)) :
    Kept t ∧ Leaves i s t
      ∧ Inside i (Option.toList r |>.map fun record => record.runtime_session.container_name) t := by
  obtain ⟨hstep, hrecord⟩ := step_and_record hexec
  obtain ⟨hr, hworld⟩ := Prod.mk.inj (Option.some.inj hstep)
  have ht : t = ({ s.1 with records := s.1.records.erase gateway_id },
      s.2.take i (Option.toList r |>.map fun record => record.runtime_session.container_name)
        s.1.next) := Prod.ext hworld.symm hrecord
  subst ht
  refine keeps_taking ?_ ?_ ?_ hs hinside
  · intro other record hget
    rw [getElem?_erase_record] at hget
    by_cases hid : other = gateway_id
    · rw [if_pos hid] at hget
      cases hget
    · rw [if_neg hid] at hget
      refine ⟨hget, ?_⟩
      intro hmem
      obtain ⟨taken, htaken, hname⟩ := List.mem_map.1 hmem
      have hsome : s.1.records[gateway_id]? = some taken := hr.trans (Option.mem_toList.1 htaken)
      rw [hs.named gateway_id taken hsome] at hname
      exact hid (container_name_injective hname).symm
  · intro other record hget
    rw [getElem?_erase_record]
    by_cases hid : other = gateway_id
    · subst hid
      right
      refine List.mem_map.2 ⟨record, ?_, hs.named other record hget⟩
      exact Option.mem_toList.2 (hr.symm.trans hget)
    · rw [if_neg hid]
      exact Or.inl hget
  · cases r with
    | none => exact List.nodup_nil
    | some record => exact List.nodup_singleton _

theorem nodup_names {s : Recorded} (hs : Kept s) : ((s.1.records.toList.map Prod.snd).map
      fun record => record.runtime_session.container_name).Nodup := by
  have hnames : (s.1.records.toList.map Prod.snd).map
      (fun record => record.runtime_session.container_name)
        = (s.1.records.toList.map Prod.fst).map container_name := by
    rw [List.map_map, List.map_map]
    refine List.map_congr_left fun entry hmem => ?_
    exact hs.named entry.1 entry.2 (Std.ExtTreeMap.mem_toList_iff_getElem?_eq_some.1 hmem)
  rw [hnames, Std.ExtTreeMap.map_fst_toList_eq_keys]
  exact List.Nodup.map container_name_injective Std.ExtTreeMap.nodup_keys

theorem keeps_take_records {r : Call.take_records.Answer} (hs : Kept s) (hinside : Inside i [] s)
    (hexec : rules.exec i .take_records choice s = some (r, t)) :
    Kept t ∧ Leaves i s t
      ∧ Inside i (List.map (fun record => record.runtime_session.container_name) r) t := by
  obtain ⟨hstep, hrecord⟩ := step_and_record hexec
  obtain ⟨hr, hworld⟩ := Prod.mk.inj (Option.some.inj hstep)
  have ht : t = ({ s.1 with records := ∅ },
      s.2.take i (List.map (fun record => record.runtime_session.container_name) r) s.1.next) :=
    Prod.ext hworld.symm hrecord
  subst ht
  refine keeps_taking ?_ ?_ ?_ hs hinside
  · intro gateway_id record hget
    rw [Std.ExtTreeMap.getElem?_empty] at hget
    cases hget
  · intro gateway_id record hget
    right
    refine List.mem_map.2 ⟨record, ?_, hs.named gateway_id record hget⟩
    rw [← hr]
    exact List.mem_map.2 ⟨(gateway_id, record),
      Std.ExtTreeMap.mem_toList_iff_getElem?_eq_some.2 hget, rfl⟩
  · rw [← hr]
    exact nodup_names hs

/-! ## The containers -/

variable {name : Text}

/-- Removing the container of a gateway that has no record and is not being made, and that no
destruction has to remove unless it is old. -/
theorem keeps_removed {s : Recorded} {history : History} (hs : Kept s) (hmade : s.2.made ≠ some name)
    (hfree : ∀ gateway_id record, s.1.records[gateway_id]? = some record →
      container_name gateway_id ≠ name) (hhistory : history = s.2.drop i name) :
    Kept ({ s.1 with containers := Function.update s.1.containers name none }, history) := by
  subst hhistory
  have hpending : ∀ j other next, (s.2.drop i name).pending j other = some next →
      s.2.pending j other = some next := by
    intro j other next h
    by_cases hj : j = i
    · subst hj
      rw [History.pending_drop_self] at h
      by_cases hother : other = name
      · rw [if_pos hother] at h
        cases h
      · rwa [if_neg hother] at h
    · rwa [History.pending_drop_of_ne hj] at h
  have hcontainers : ∀ other number, Function.update s.1.containers name none other = some number →
      other ≠ name ∧ s.1.containers other = some number := by
    intro other number h
    by_cases hother : other = name
    · rw [hother, Function.update_self] at h
      cases h
    · rw [Function.update_of_ne hother] at h
      exact ⟨hother, h⟩
  refine ⟨hs.named, ?_, ?_, hs.locked, ?_, ?_, ?_⟩
  · exact fun other number h => hs.numbered other number (hcontainers other number h).2
  · exact fun j other next h => hs.counted j other next (hpending j other next h)
  · intro other hother
    have hne : other ≠ name := by
      rintro rfl
      exact hmade hother
    obtain ⟨number, hcontainer, hold⟩ := hs.made other hother
    exact ⟨number, by rwa [← Function.update_of_ne hne none s.1.containers] at hcontainer,
      fun j next h => hold j next (hpending j other next h)⟩
  · intro gateway_id record hget
    have hne := hfree gateway_id record hget
    obtain ⟨number, hcontainer, hold⟩ := hs.recorded gateway_id record hget
    exact ⟨number, by rwa [← Function.update_of_ne hne none s.1.containers] at hcontainer,
      fun j next h => hold j next (hpending j _ next h)⟩
  · intro other number h
    obtain ⟨hne, hcontainer⟩ := hcontainers other number h
    rcases hs.owned other number hcontainer with hrecord | hother | ⟨j, next, hnext, hlt⟩
    · exact Or.inl hrecord
    · exact Or.inr (Or.inl hother)
    · refine Or.inr (Or.inr ⟨j, next, ?_, hlt⟩)
      by_cases hj : j = i
      · subst hj
        rwa [History.pending_drop_self, if_neg hne]
      · rwa [History.pending_drop_of_ne hj]

theorem drop_of_none {h : History} (hnone : h.pending i name = none) : h.drop i name = h := by
  unfold History.drop
  rw [← hnone, Function.update_eq_self, Function.update_eq_self]

theorem leaves_removed {r : (Call.remove_container name).Answer}
    (hexec : rules.exec i (.remove_container name) choice s = some (r, t)) : Leaves i s t := by
  obtain ⟨hstep, hrecord⟩ := step_and_record hexec
  obtain ⟨-, hworld⟩ := Prod.mk.inj (Option.some.inj hstep)
  have hhistory : t.2 = s.2.drop i name := hrecord
  have hrest : t.1.holder = s.1.holder ∧ t.1.records = s.1.records := by
    rw [← hworld]
    split <;> exact ⟨rfl, rfl⟩
  refine ⟨fun j hj => ?_, fun j _ => by rw [hrest.1], fun j _ _ => ⟨hrest.2, ?_⟩⟩
  · rw [hhistory]
    exact History.pending_drop_of_ne hj _ _
  · rw [hhistory]
    rfl

/-- A creation removes what is left of an earlier gateway. -/
theorem keeps_removal_of_creation
    {r : (Call.remove_container (container_name gateway_id)).Answer} (hs : Kept s)
    (hcreating : Creating i gateway_id none s)
    (hexec : rules.exec i (.remove_container (container_name gateway_id)) choice s = some (r, t)) :
    Kept t ∧ Leaves i s t ∧ Creating i gateway_id none t := by
  have hleaves := leaves_removed hexec
  obtain ⟨hstep, hrecord⟩ := step_and_record hexec
  obtain ⟨-, hworld⟩ := Prod.mk.inj (Option.some.inj hstep)
  have hdrop := drop_of_none (hcreating.owes (container_name gateway_id))
  have hhistory : t.2 = s.2 := Eq.trans hrecord hdrop
  have hkept : Kept t := by
    by_cases heffect : choice.effective = true
    · rw [if_pos heffect] at hworld
      have ht : t = ({ s.1 with
          containers := Function.update s.1.containers (container_name gateway_id) none }, s.2) :=
        Prod.ext hworld.symm hhistory
      rw [ht]
      refine keeps_removed (i := i) hs (by rw [hcreating.made]; exact (Option.some_ne_none _).symm) ?_
        hdrop.symm
      rintro other record hget hsame
      rw [container_name_injective hsame, hcreating.free] at hget
      cases hget
    · rw [if_neg heffect] at hworld
      rwa [show t = s from Prod.ext hworld.symm hhistory]
  refine ⟨hkept, hleaves, ?_⟩
  have hrest : t.1.holder = s.1.holder ∧ t.1.records = s.1.records := by
    rw [← hworld]
    split <;> exact ⟨rfl, rfl⟩
  refine ⟨?_, hrest.1.trans hcreating.holder, ?_, ?_⟩
  · rw [hhistory]
    exact hcreating.owes
  · rw [hhistory]
    exact hcreating.made
  · rw [hrest.2]
    exact hcreating.free

/-- **A destruction** that is careful removes the container of its record, if that is still
there. -/
theorem keeps_removal_of_destruction {r : (Call.remove_container name).Answer} (hs : Kept s)
    (houtside : Outside i (name :: names) s) (hcareful : Careful i (.remove_container name) choice s)
    (hexec : rules.exec i (.remove_container name) choice s = some (r, t)) :
    Kept t ∧ Leaves i s t ∧ Outside i names t := by
  have hleaves := leaves_removed hexec
  obtain ⟨hstep, hrecord⟩ := step_and_record hexec
  obtain ⟨-, hworld⟩ := Prod.mk.inj (Option.some.inj hstep)
  have hhistory : t.2 = s.2.drop i name := hrecord
  obtain ⟨next, hpending⟩ := Option.ne_none_iff_exists'.1
    ((houtside.owes name).2 List.mem_cons_self)
  -- the container is not one that is being made or has a record: those are younger
  have hold : ∀ number, s.1.containers name = some number →
      (∀ j next, s.2.pending j name = some next → next ≤ number) → False := by
    intro number hcontainer hold
    exact absurd (hold i next hpending) (not_le.2 (hcareful next hpending number hcontainer).1)
  have hkept : Kept t := by
    have hremoved : t.1 = { s.1 with containers := Function.update s.1.containers name none } := by
      by_cases heffect : choice.effective = true
      · rw [if_pos heffect] at hworld
        exact hworld.symm
      · -- then there is no container
        rw [if_neg heffect] at hworld
        have hnone : s.1.containers name = none := by
          by_contra hsome
          obtain ⟨number, hcontainer⟩ := Option.ne_none_iff_exists'.1 hsome
          exact heffect (hcareful next hpending number hcontainer).2
        rw [← hnone, Function.update_eq_self]
        exact hworld.symm
    have ht : t = ({ s.1 with containers := Function.update s.1.containers name none }, t.2) :=
      Prod.ext hremoved rfl
    rw [ht]
    refine keeps_removed hs ?_ ?_ hhistory
    · intro hmade
      obtain ⟨number, hcontainer, hyoung⟩ := hs.made name hmade
      exact hold number hcontainer hyoung
    · rintro gateway_id record hget rfl
      obtain ⟨number, hcontainer, hyoung⟩ := hs.recorded gateway_id record hget
      exact hold number hcontainer hyoung
  have hnodup := List.nodup_cons.1 houtside.nodup
  refine ⟨hkept, hleaves, ?_, hnodup.2, ?_⟩
  · intro other
    rw [hhistory, History.pending_drop_self]
    by_cases hsame : other = name
    · rw [if_pos hsame, hsame]
      exact iff_of_false (fun h => h rfl) hnodup.1
    · rw [if_neg hsame, houtside.owes other, List.mem_cons]
      exact or_iff_right hsame
  · rw [← hworld]
    split <;> exact houtside.holder

theorem keeps_created {s : Recorded} (hs : Kept s) (hcreating : Creating i gateway_id none s) :
    let t : Recorded := ({ s.1 with
        containers := Function.update s.1.containers (container_name gateway_id) (some s.1.next),
        next := s.1.next + 1 }, { s.2 with made := some (container_name gateway_id) })
    Kept t ∧ Leaves i s t ∧ Creating i gateway_id (some (container_name gateway_id)) t := by
  have hcontainers : ∀ name number,
      Function.update s.1.containers (container_name gateway_id) (some s.1.next) name = some number →
      name = container_name gateway_id ∧ number = s.1.next ∨ s.1.containers name = some number := by
    intro name number h
    by_cases hname : name = container_name gateway_id
    · rw [hname, Function.update_self] at h
      exact Or.inl ⟨hname, (Option.some.inj h).symm⟩
    · rw [Function.update_of_ne hname] at h
      exact Or.inr h
  refine ⟨⟨hs.named, ?_, ?_, ?_, ?_, ?_, ?_⟩, ⟨fun _ _ => rfl, fun _ _ => Iff.rfl, ?_⟩,
    ⟨hcreating.owes, hcreating.holder, rfl, hcreating.free⟩⟩
  · intro name number h
    rcases hcontainers name number h with ⟨-, rfl⟩ | h
    · exact Nat.lt_succ_self _
    · exact (hs.numbered name number h).trans (Nat.lt_succ_self _)
  · exact fun j name next h => (hs.counted j name next h).trans (Nat.le_succ _)
  · intro _
    show s.1.holder ≠ none
    rw [hcreating.holder]
    exact Option.some_ne_none i
  · intro name h
    obtain rfl : container_name gateway_id = name := Option.some.inj h
    exact ⟨s.1.next, Function.update_self _ _ _, fun j next h => hs.counted j _ next h⟩
  · intro other record hget
    have hne : container_name other ≠ container_name gateway_id := by
      intro hsame
      have hsome : s.1.records[other]? = some record := hget
      rw [container_name_injective hsame, hcreating.free] at hsome
      cases hsome
    obtain ⟨number, hcontainer, hyoung⟩ := hs.recorded other record hget
    exact ⟨number, (Function.update_of_ne hne _ _).trans hcontainer, hyoung⟩
  · intro name number h
    rcases hcontainers name number h with ⟨rfl, -⟩ | h
    · exact Or.inr (Or.inl rfl)
    · rcases hs.owned name number h with hrecord | hmade | hpending
      · exact Or.inl hrecord
      · rw [hcreating.made] at hmade
        cases hmade
      · exact Or.inr (Or.inr hpending)
  · exact fun j hj hholder => absurd hholder (not_holder hcreating.holder hj)

/-- A container that is created is the one without a record yet; a careful creation that fails
has no effect. -/
theorem keeps_create_container
    {r : (Call.create_container (container_name gateway_id)).Answer} (hs : Kept s)
    (hcreating : Creating i gateway_id none s)
    (hcareful : Careful i (.create_container (container_name gateway_id)) choice s)
    (hexec : rules.exec i (.create_container (container_name gateway_id)) choice s = some (r, t)) :
    Kept t ∧ Leaves i s t
      ∧ match (r : Except GatewayError Unit) with
        | .ok _ => Creating i gateway_id (some (container_name gateway_id)) t
        | .error _ => Creating i gateway_id none t := by
  obtain ⟨hstep, hrecord⟩ := step_and_record hexec
  have hcall : (if (s.1.containers (container_name gateway_id)).isSome then
      some (Except.error (GatewayError.Docker "Conflict".toList), s.1)
    else some (choice.answer (), if choice.effective then { s.1 with
        containers := Function.update s.1.containers (container_name gateway_id) (some s.1.next),
        next := s.1.next + 1 } else s.1)) = some (r, t.1) := hstep
  by_cases hthere : (s.1.containers (container_name gateway_id)).isSome = true
  · rw [if_pos hthere] at hcall
    obtain ⟨rfl, hworld⟩ := Prod.mk.inj (Option.some.inj hcall)
    have ht : t = s := Prod.ext hworld.symm hrecord
    subst ht
    exact ⟨hs, Leaves.refl t, hcreating⟩
  rw [if_neg hthere] at hcall
  obtain ⟨hr, hworld⟩ := Prod.mk.inj (Option.some.inj hcall)
  cases hfails : choice.fails with
  | some error =>
    have heffect : choice.effective = false := by
      unfold Choice.effective
      rw [hcareful (by rw [hfails]; exact Option.some_ne_none _), hfails]
      rfl
    have herror : r = Except.error error := by
      rw [← hr]
      unfold Choice.answer
      rw [hfails]
    subst herror
    rw [heffect] at hworld
    have ht : t = s := Prod.ext hworld.symm hrecord
    subst ht
    exact ⟨hs, Leaves.refl t, hcreating⟩
  | none =>
    have heffect : choice.effective = true := by
      unfold Choice.effective
      rw [hfails]
      rfl
    have hok : r = Except.ok () := by
      rw [← hr]
      unfold Choice.answer
      rw [hfails]
    subst hok
    rw [heffect] at hworld
    have ht : t = ({ s.1 with
        containers := Function.update s.1.containers (container_name gateway_id) (some s.1.next),
        next := s.1.next + 1 }, { s.2 with made := some (container_name gateway_id) }) :=
      Prod.ext hworld.symm hrecord
    subst ht
    exact keeps_created hs hcreating

/-- The other calls of the runtime only answer. -/
theorem of_start_container
    {r : (Call.start_container name).Answer} (hcareful : Careful i (.start_container name) choice s)
    (hexec : rules.exec i (.start_container name) choice s = some (r, t)) : t = s ∧ r = .ok () := by
  obtain ⟨hstep, hrecord⟩ := step_and_record hexec
  obtain ⟨hr, hworld⟩ := Prod.mk.inj (Option.some.inj hstep)
  refine ⟨Prod.ext hworld.symm hrecord, ?_⟩
  rw [← hr]
  unfold Choice.answer
  rw [show choice.fails = none from hcareful]

theorem of_wait_until_ready {base_url : Text} {r : (Call.wait_until_ready base_url).Answer}
    (hcareful : Careful i (.wait_until_ready base_url) choice s)
    (hexec : rules.exec i (.wait_until_ready base_url) choice s = some (r, t)) : t = s ∧ r = .ok () := by
  obtain ⟨hstep, hrecord⟩ := step_and_record hexec
  obtain ⟨hr, hworld⟩ := Prod.mk.inj (Option.some.inj hstep)
  refine ⟨Prod.ext hworld.symm hrecord, ?_⟩
  rw [← hr]
  unfold Choice.answer
  rw [show choice.fails = none from hcareful]

/-! ## The calls of the host -/

variable (base_url_for : Text → Text)

/-- A container that is created starts and becomes ready. -/
theorem ensures_runtime_create_gateway (request : GatewayRuntimeCreateRequest) :
    rules.Ensures i (Creating i request.gateway_id none) (runtime_create_gateway base_url_for request)
      (fun session s => session.container_name = container_name request.gateway_id
        ∧ Creating i request.gateway_id (some (container_name request.gateway_id)) s)
      fun _ => Inside i [] := by
  have hmade := stable_creating (i := i) request.gateway_id (some (container_name request.gateway_id))
  unfold runtime_create_gateway
  refine .bind (Q := fun _ => Creating i request.gateway_id none)
    (Rules.Outline.lift ?_ ?_) fun _ => ?_
  · rintro (_ | _)
    · exact stable_inside []
    · exact stable_creating request.gateway_id none
  · intro s choice r t hs hcreating _ hexec
    obtain ⟨hkept, hleaves, hstill⟩ := keeps_removal_of_creation hs hcreating hexec
    refine ⟨hkept, hleaves, ?_⟩
    cases r with
    | ok _ => exact hstill
    | error _ => exact hstill.inside
  refine .bind
    (Q := fun _ => Creating i request.gateway_id (some (container_name request.gateway_id)))
    (Rules.Outline.lift ?_ ?_) fun _ => ?_
  · rintro (_ | _)
    · exact stable_inside []
    · exact hmade
  · intro s choice r t hs hcreating hcareful hexec
    obtain ⟨hkept, hleaves, hafter⟩ := keeps_create_container hs hcreating hcareful hexec
    refine ⟨hkept, hleaves, ?_⟩
    cases r with
    | ok _ => exact hafter
    | error _ => exact hafter.inside
  refine .bind
    (Q := fun _ => Creating i request.gateway_id (some (container_name request.gateway_id)))
    (Rules.Outline.lift ?_ ?_) fun _ => ?_
  · rintro (_ | _)
    · exact stable_inside []
    · exact hmade
  · intro s choice r t hs hcreating hcareful hexec
    obtain ⟨rfl, rfl⟩ := of_start_container hcareful hexec
    exact ⟨hs, Leaves.refl _, hcreating⟩
  refine .bind
    (Q := fun _ => Creating i request.gateway_id (some (container_name request.gateway_id)))
    (Rules.Outline.lift ?_ ?_) fun _ => Rules.Ensures.pure fun _ _ hcreating => ⟨rfl, hcreating⟩
  · rintro (_ | _)
    · exact stable_inside []
    · exact hmade
  · intro s choice r t hs hcreating hcareful hexec
    obtain ⟨rfl, rfl⟩ := of_wait_until_ready hcareful hexec
    exact ⟨hs, Leaves.refl _, hcreating⟩

theorem ensures_register (request : GatewayRuntimeCreateRequest) :
    rules.Ensures i (Inside i []) (register base_url_for request) (fun _ => Inside i [])
      fun _ => Inside i [] := by
  unfold register
  refine .bind (Q := fun existing s => Inside i [] s
      ∧ (Option.isSome existing = false → Creating i request.gateway_id none s))
    (Rules.Ensures.lift (Rules.Outline.lift ?_ ?_)) fun existing => ?_
  · intro existing
    refine (stable_inside []).and ?_
    intro j hj s t hs ht hcreating hleaves hnone
    exact stable_creating request.gateway_id none j hj s t hs ht (hcreating hnone) hleaves
  · intro s choice r t hs hinside _ hexec
    exact keeps_get_record hs hinside hexec
  by_cases hexisting : Option.isSome existing = true
  · rw [if_pos hexisting]
    exact .throw fun _ _ h => h.1
  · rw [if_neg hexisting]
    refine .bind (Rules.Ensures.mono (ensures_runtime_create_gateway base_url_for request)
      fun _ _ h => h.2 (by simpa using hexisting)) fun session => ?_
    refine Rules.Ensures.bind (Q := fun _ => Inside i [])
      (Rules.Ensures.lift (Rules.Outline.lift (fun _ => stable_inside []) ?_)) fun _ =>
        Rules.Ensures.pure fun _ _ h => h
    intro s choice r t hs hcreating _ hexec
    exact keeps_insert_record hcreating.1 hs hcreating.2 hexec

theorem ensures_summary_with_status (describe : GatewayError → Text) (record : GatewayRecord) :
    rules.Ensures i (Outside i []) (summary_with_status describe record) (fun _ => Outside i [])
      fun _ => Outside i [] := by
  unfold summary_with_status
  refine .bind (Q := fun _ => Outside i [])
    (Rules.Ensures.lift (Rules.Outline.lift (fun _ => stable_outside []) ?_)) fun status => ?_
  · intro s choice r t hs houtside _ hexec
    obtain ⟨hstep, hrecord⟩ := step_and_record hexec
    obtain ⟨-, hworld⟩ := Prod.mk.inj (Option.some.inj hstep)
    have ht : t = s := Prod.ext hworld.symm hrecord
    subst ht
    exact ⟨hs, Leaves.refl t, houtside⟩
  · cases status with
    | ok status | error error => exact .pure fun _ _ h => h

/-- **A creation** leaves nothing half done. -/
theorem ensures_create_gateway (describe : GatewayError → Text) (request : GatewayRuntimeCreateRequest) :
    rules.Ensures i (Outside i []) (create_gateway base_url_for describe request) (fun _ => Outside i [])
      fun _ => Outside i [] := by
  unfold create_gateway
  by_cases hvalid : valid_gateway_id request.gateway_id = true
  · rw [if_pos hvalid]
    exact .bind (ensures_locked (ensures_register base_url_for request))
      (ensures_summary_with_status describe)
  · rw [if_neg hvalid]
    exact .throw fun _ _ h => h

theorem ensures_runtime_destroy_gateway (session : DockerGatewaySession) (names : List Text) :
    rules.Ensures i (Outside i (session.container_name :: names)) (runtime_destroy_gateway session)
      (fun _ => Outside i names) fun _ => Outside i names := by
  refine Rules.Outline.lift ?_ ?_
  · rintro (_ | _)
    · exact stable_outside names
    · exact stable_outside names
  · intro s choice r t hs houtside hcareful hexec
    obtain ⟨hkept, hleaves, hafter⟩ := keeps_removal_of_destruction hs houtside hcareful hexec
    refine ⟨hkept, hleaves, ?_⟩
    cases r with
    | ok _ | error _ => exact hafter

/-- **A destruction** leaves nothing half done. -/
theorem ensures_destroy_gateway (gateway_id : Text) :
    rules.Ensures i (Outside i []) (destroy_gateway gateway_id) (fun _ => Outside i [])
      fun _ => Outside i [] := by
  have htake : rules.Ensures i (Inside i []) (take_record gateway_id)
      (fun record => Inside i [record.runtime_session.container_name]) fun _ => Inside i [] := by
    unfold take_record
    refine .bind (Q := fun taken => Inside i
        (Option.toList taken |>.map fun record => record.runtime_session.container_name))
      (Rules.Ensures.lift (Rules.Outline.lift (fun _ => stable_inside _) ?_)) fun taken => ?_
    · intro s choice r t hs hinside _ hexec
      exact keeps_remove_record hs hinside hexec
    · cases taken with
      | none => exact .throw fun _ _ h => h
      | some record => exact .pure fun _ _ h => h
  unfold destroy_gateway
  exact .bind (ensures_locked htake) fun record =>
    ensures_runtime_destroy_gateway record.runtime_session []

/-- The loop removes one container after another. -/
theorem ensures_destroy_records (records : List GatewayRecord) :
    rules.Ensures i (Outside i (records.map fun record => record.runtime_session.container_name))
      (destroy_records records) (fun _ => Outside i []) fun _ => Outside i [] := by
  induction records with
  | nil => exact .pure fun _ _ h => h
  | cons record records ih =>
    refine .bind (Q := fun _ =>
      Outside i (records.map fun record => record.runtime_session.container_name)) ?_ fun _ => ih
    refine Rules.Ensures.lift (Rules.Outline.weaken
      (ensures_runtime_destroy_gateway record.runtime_session _) fun answer _ _ h => ?_)
    cases answer with
    | ok _ => exact h
    | error _ => exact h

theorem ensures_destroy_all_gateways :
    rules.Ensures i (Outside i []) destroy_all_gateways (fun _ => Outside i []) fun _ => Outside i [] := by
  have htake : rules.Ensures i (Inside i []) (access Call.take_records)
      (fun records => Inside i
        (List.map (fun record : GatewayRecord => record.runtime_session.container_name) records))
      fun _ => Inside i [] := by
    refine Rules.Ensures.lift (Rules.Outline.lift (fun _ => stable_inside _) ?_)
    intro s choice r t hs hinside _ hexec
    exact keeps_take_records hs hinside hexec
  unfold destroy_all_gateways
  exact .bind (ensures_locked htake) ensures_destroy_records

/-! ## Runs -/

section Runs

variable (base_url_for : Text → Text) (describe : GatewayError → Text) (requests : ℕ → Request)

theorem outline_program (request : Request) :
    rules.Outline i (Outside i []) (request.program base_url_for describe) fun _ => Outside i [] := by
  have hdone : ∀ {α : Type} {handler : Handler α} (f : α → Option GatewaySummary),
      rules.Ensures i (Outside i []) handler (fun _ => Outside i []) (fun _ => Outside i []) →
      rules.Outline i (Outside i []) (f <$> handler : Handler _).run fun _ => Outside i [] := by
    intro α handler f h
    have hmap : rules.Ensures i (Outside i []) (f <$> handler : Handler _)
        (fun _ => Outside i []) (fun _ => Outside i []) :=
      Rules.Ensures.bind h fun _ => .pure fun _ _ h => h
    refine Rules.Outline.weaken hmap fun answer _ _ h => ?_
    cases answer with
    | ok _ => exact h
    | error _ => exact h
  cases request with
  | create_gateway request => exact hdone _ (ensures_create_gateway base_url_for describe request)
  | destroy_gateway gateway_id => exact hdone _ (ensures_destroy_gateway gateway_id)
  | destroy_all_gateways => exact hdone _ ensures_destroy_all_gateways

/-- The host at the start, with no history. -/
def start_recorded :
    Threads ℕ Call (Except GatewayError (Option GatewaySummary)) Recorded Call.Answer where
  state := ((start base_url_for describe requests).state, ⟨fun _ _ => none, none⟩)
  rest := (start base_url_for describe requests).rest

/-- A call that has been begun and has not returned. -/
def InProgress {σ : Type} (moves : List (Move ℕ Choice))
    (t : Threads ℕ Call (Except GatewayError (Option GatewaySummary)) σ Call.Answer) (i : ℕ) : Prop :=
  (∃ move ∈ moves, move.thread = i) ∧ ∀ result, t.rest i ≠ .ret result

variable {base_url_for describe requests}

theorem kept_start : Kept (start_recorded base_url_for describe requests).state := by
  refine ⟨?_, ?_, ?_, fun h => absurd rfl h, ?_, ?_, ?_⟩
  · intro gateway_id record hget
    cases Std.ExtTreeMap.getElem?_empty.symm.trans hget
  · intro name number h
    cases h
  · intro i name next h
    cases h
  · intro name h
    cases h
  · intro gateway_id record hget
    cases Std.ExtTreeMap.getElem?_empty.symm.trans hget
  · intro name number h
    cases h

/-- **Agreement.** In every run whose steps are careful, whenever no call is in progress, a
gateway has a container exactly if it has a record. -/
theorem agrees_when_idle {moves : List (Move ℕ Choice)}
    {t : Threads ℕ Call (Except GatewayError (Option GatewaySummary)) Recorded Call.Answer}
    (hrun : Run (Guarded (Advance rules.exec) rules.Allowed)
      (start_recorded base_url_for describe requests) moves t)
    (hidle : ∀ i, ¬InProgress moves t i) (gateway_id : Text) :
    (t.state.1.containers (container_name gateway_id)).isSome = true
      ↔ (t.state.1.records[gateway_id]?).isSome = true := by
  have hstart : ∀ i, Outside i [] (start_recorded base_url_for describe requests).state := by
    intro i
    refine ⟨fun name => iff_of_false (fun h => h rfl) List.not_mem_nil, List.nodup_nil, ?_⟩
    intro h
    cases h
  have houtlined : rules.Outlined (fun i _ => Outside i [])
      (start_recorded base_url_for describe requests) :=
    ⟨kept_start, fun i => ⟨Outside i [], stable_outside [], hstart i,
      outline_program base_url_for describe (requests i)⟩⟩
  obtain ⟨hend, -⟩ := houtlined.run hrun
  -- nobody has anything to do
  have houtside : ∀ i, Outside i [] t.state := by
    intro i
    by_cases hmoved : ∃ move ∈ moves, move.thread = i
    · have hreturned : ∃ result, t.rest i = .ret result := by
        by_contra hgoing
        exact hidle i ⟨hmoved, fun result h => hgoing ⟨result, h⟩⟩
      obtain ⟨result, hresult⟩ := hreturned
      exact hend.finished hresult
    · refine houtlined.unmoved hrun (stable_outside []) (hstart i) fun move hmem hsame => ?_
      exact hmoved ⟨move, hmem, hsame⟩
  have hkept := hend.invariant
  constructor
  · intro hcontainer
    obtain ⟨number, hnumber⟩ := Option.isSome_iff_exists.1 hcontainer
    rcases hkept.owned _ number hnumber with ⟨other, record, hsame, hget⟩ | hmade | ⟨i, next, hnext, -⟩
    · rw [container_name_injective hsame, hget]
      rfl
    · -- whoever holds the lock is in progress
      have hholder := hkept.locked (by rw [hmade]; exact Option.some_ne_none _)
      obtain ⟨i, hi⟩ := Option.ne_none_iff_exists'.1 hholder
      exact absurd hi (houtside i).holder
    · exact absurd (((houtside i).owes _).1 (by rw [hnext]; exact Option.some_ne_none _))
        List.not_mem_nil
  · intro hrecord
    obtain ⟨record, hget⟩ := Option.isSome_iff_exists.1 hrecord
    obtain ⟨number, hnumber, -⟩ := hkept.recorded gateway_id record hget
    rw [hnumber]
    rfl

end Runs

/-! ## Two runs -/

/-- A call of the runtime that succeeds, and one that fails. -/
def succeeds : Choice := ⟨none, false, ⟨.Running, none⟩⟩

def fails : Choice := ⟨some (.Runtime "did not become ready".toList), false, ⟨.Running, none⟩⟩

/-- A gateway is created, and then destroyed. -/
def created_and_destroyed : ℕ → Request
  | 0 => .create_gateway ⟨"main".toList, "discord".toList, "agent".toList, []⟩
  | _ => .destroy_gateway "main".toList

def sample_base_url (name : Text) : Text := "http://".toList ++ name

def returned {σ : Type} (i : ℕ)
    (t : Threads ℕ Call (Except GatewayError (Option GatewaySummary)) σ Call.Answer) : Bool :=
  match t.rest i with
  | .ret _ => true
  | .call _ _ => false

theorem eq_ret_of_returned {σ : Type} {i : ℕ}
    {t : Threads ℕ Call (Except GatewayError (Option GatewaySummary)) σ Call.Answer}
    (h : returned i t = true) : ∃ result, t.rest i = .ret result := by
  unfold returned at h
  split at h
  · exact ⟨_, ‹_›⟩
  · cases h

/-- The check of a careful step in which nothing fails. -/
def careful_check (s : Threads ℕ Call (Except GatewayError (Option GatewaySummary)) Recorded Call.Answer)
    (move : Move ℕ Choice) : Bool :=
  move.choice.fails.isNone && match s.rest move.thread with
    | .call (.remove_container name) _ => (s.state.2.pending move.thread name).all fun next =>
      (s.state.1.containers name).all fun number => decide (number < next)
    | _ => true

theorem allowed_of_careful_check
    (s : Threads ℕ Call (Except GatewayError (Option GatewaySummary)) Recorded Call.Answer)
    (move : Move ℕ Choice)
    (t : Threads ℕ Call (Except GatewayError (Option GatewaySummary)) Recorded Call.Answer)
    (h : careful_check s move = true) (_ : Advance rules.exec s move t) : rules.Allowed s move t := by
  obtain ⟨hfails, hcheck⟩ := Bool.and_eq_true_iff.1 h
  have hnone : move.choice.fails = none := Option.isNone_iff_eq_none.1 hfails
  intro c k hcall
  rw [hcall] at hcheck
  cases c with
  | remove_container name =>
    intro next hnext number hnumber
    have hlt : number < next := by simpa [hnext, hnumber] using hcheck
    refine ⟨hlt, ?_⟩
    unfold Choice.effective
    rw [hnone]
    rfl
  | create_container name => exact fun hfails => absurd hnone hfails
  | start_container name => exact hnone
  | wait_until_ready base_url => exact hnone
  | lock | unlock | get_record _ | insert_record _ | remove_record _ | take_records | status _ =>
    exact trivial

/-- A gateway that has been destroyed has neither a container nor a record. -/
theorem agrees_after_destruction : ∃ t,
    Run (Guarded (Advance rules.exec) rules.Allowed)
        (start_recorded sample_base_url (fun _ => []) created_and_destroyed)
        (List.replicate 9 ⟨0, succeeds⟩ ++ List.replicate 4 ⟨1, succeeds⟩) t
      ∧ ∀ gateway_id, (t.state.1.containers (container_name gateway_id)).isSome = true
        ↔ (t.state.1.records[gateway_id]?).isSome = true := by
  obtain ⟨t, hrun, hreturned⟩ := exists_run_of_play rules.exec careful_check allowed_of_careful_check
    (start_recorded sample_base_url (fun _ => []) created_and_destroyed)
    (List.replicate 9 ⟨0, succeeds⟩ ++ List.replicate 4 ⟨1, succeeds⟩)
    (fun t => returned 0 t && returned 1 t) (by decide)
  obtain ⟨hfirst, hsecond⟩ := Bool.and_eq_true_iff.1 hreturned
  refine ⟨t, hrun, agrees_when_idle hrun ?_⟩
  rintro i ⟨⟨move, hmem, rfl⟩, hgoing⟩
  have hthread : move.thread = 0 ∨ move.thread = 1 := by
    rcases List.mem_append.1 hmem with hmem | hmem
    · rw [List.eq_of_mem_replicate hmem]
      exact Or.inl rfl
    · rw [List.eq_of_mem_replicate hmem]
      exact Or.inr rfl
  rcases hthread with h | h
  · obtain ⟨result, hresult⟩ := eq_ret_of_returned hfirst
    exact hgoing result (h ▸ hresult)
  · obtain ⟨result, hresult⟩ := eq_ret_of_returned hsecond
    exact hgoing result (h ▸ hresult)

/-- The container of a gateway that does not become ready stays, without a record. -/
theorem unready_container_stays : ∃ moves t,
    Run (Advance exec) (start sample_base_url (fun _ => []) created_and_destroyed) moves t
      ∧ (∀ i, ¬InProgress moves t i)
      ∧ (t.state.containers (container_name "main".toList)).isSome = true
      ∧ (t.state.records["main".toList]?).isSome = false := by
  obtain ⟨t, hrun, hobserved⟩ := exists_run_of_play exec (fun _ _ => true) (P := fun _ _ _ => True)
    (fun _ _ _ _ _ => trivial) (start sample_base_url (fun _ => []) created_and_destroyed)
    (List.replicate 5 ⟨0, succeeds⟩ ++ [⟨0, fails⟩, ⟨0, succeeds⟩])
    (fun t => returned 0 t && ((t.state.containers (container_name "main".toList)).isSome
      && !(t.state.records["main".toList]?).isSome)) (by decide)
  obtain ⟨hreturned, hleft⟩ := Bool.and_eq_true_iff.1 hobserved
  obtain ⟨hcontainer, hrecord⟩ := Bool.and_eq_true_iff.1 hleft
  refine ⟨_, t, Run.of_guarded hrun, ?_, hcontainer, by simpa using hrecord⟩
  rintro i ⟨⟨move, hmem, rfl⟩, hgoing⟩
  have hthread : move.thread = 0 := by
    rcases List.mem_append.1 hmem with hmem | hmem
    · rw [List.eq_of_mem_replicate hmem]
    · simp only [List.mem_cons, List.not_mem_nil, or_false] at hmem
      rcases hmem with rfl | rfl <;> rfl
  obtain ⟨result, hresult⟩ := eq_ret_of_returned hreturned
  exact hgoing result (hthread ▸ hresult)

end AgentSpace.Gateways
