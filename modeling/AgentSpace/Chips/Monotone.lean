/-
In which order chips stand.

A chip is moved out of what it must not be spliced into, forwards or backwards. Two chips change
places where these moves meet: behind a region that is left within its block (`LeavesBehind`),
and in front of a fence that is still open (`FenceFirst`).
-/
import AgentSpace.Chips.Document
import Mathlib.Data.List.GetD
import Mathlib.Data.List.Induction
import Mathlib.Data.Nat.Basic

set_option autoImplicit false

namespace AgentSpace.Chips

/-- A top-level block, by its number. -/
def Document.block_at (doc : Document) (i : ℕ) : Span := doc.blocks.getD i ⟨0, 0⟩

/-- What holds of a message of this length that has been parsed: blocks are disjoint and in order,
anchors and regions lie within their blocks, the anchors are sorted, and what comes of different nodes
is apart. An anchor can be empty, where the text of a node is one token: then it is the start of it. -/
structure Parsed (length : ℕ) (doc : Document) : Prop where
  block : ∀ i < doc.blocks.length, (doc.block_at i).start < (doc.block_at i).end
    ∧ (doc.block_at i).end ≤ length
  blocks : ∀ i j, i < j → j < doc.blocks.length → (doc.block_at i).end ≤ (doc.block_at j).start
  anchor : ∀ a ∈ doc.anchors, a.block < doc.blocks.length ∧ (doc.block_at a.block).start ≤ a.start
    ∧ a.start ≤ a.end ∧ a.start < (doc.block_at a.block).end ∧ a.end ≤ (doc.block_at a.block).end
  sorted : doc.anchors.Pairwise fun a a' => a.start ≤ a'.start
  region : ∀ r ∈ doc.regions, r.block < doc.blocks.length
    ∧ (doc.block_at r.block).start = r.blockStart ∧ (doc.block_at r.block).end = r.blockEnd
    ∧ r.blockStart ≤ r.start ∧ r.start < r.end
    ∧ r.end ≤ r.blockEnd ∧ (r.unclosed = true → r.end = length)
  regions : ∀ r ∈ doc.regions, ∀ r' ∈ doc.regions, r = r' ∨ r.end ≤ r'.start ∨ r'.end ≤ r.start
  apart : ∀ a ∈ doc.anchors, ∀ r ∈ doc.regions,
    (a.start < r.start ∧ a.end ≤ r.start) ∨ r.end ≤ a.start

/-! ## What the searches find -/

/-- The offset is in the region; its end is, its start is not. -/
def ProtectedRegion.Inside (r : ProtectedRegion) (offset : ℕ) : Prop := r.start < offset ∧ offset ≤ r.end

/-- The anchor is one that `anchorAtOrBefore` chooses among. -/
structure Hosts (doc : Document) (offset minBlock : ℕ) (a : Anchor) : Prop where
  mem : a ∈ doc.anchors
  start : a.start ≤ offset
  block : minBlock ≤ a.block
  uncrossed : ∀ r ∈ doc.regions, a.end ≤ r.start → ¬r.end ≤ offset

section Searches

variable {doc : Document} {offset : ℕ}

variable (offset) in
theorem foldl_larger_region (regions : List ProtectedRegion) :
    match regions.foldl (larger_region offset) none with
    | none => ∀ r ∈ regions, ¬r.Inside offset
    | some r => r ∈ regions ∧ r.Inside offset := by
  induction regions using List.reverseRecOn with
  | nil => simp
  | append_singleton regions r ih =>
    rw [List.foldl_append, List.foldl_cons, List.foldl_nil]
    generalize regions.foldl (larger_region offset) none = found at ih ⊢
    unfold larger_region
    by_cases hout : r.start ≥ offset ∨ offset > r.end
    · rw [if_pos hout]
      cases found with
      | none =>
        refine List.forall_mem_append.2 ⟨ih, List.forall_mem_singleton.2 fun hin => ?_⟩
        obtain ⟨hstart, hend⟩ := hin
        omega
      | some other => exact ⟨List.mem_append_left _ ih.1, ih.2⟩
    · have hr : r ∈ regions ++ [r] ∧ r.Inside offset :=
        ⟨by simp, by unfold ProtectedRegion.Inside; omega⟩
      rw [if_neg hout]
      cases found with
      | none => exact hr
      | some other =>
        dsimp only
        split_ifs
        · exact hr
        · exact ⟨List.mem_append_left _ ih.1, ih.2⟩

theorem enclosing_region_some {r : ProtectedRegion} (h : enclosing_region doc offset = some r) :
    r ∈ doc.regions ∧ r.Inside offset := by
  have hfold := foldl_larger_region offset doc.regions
  rwa [show doc.regions.foldl (larger_region offset) none = some r from h] at hfold

theorem enclosing_region_none (h : enclosing_region doc offset = none) :
    ∀ r ∈ doc.regions, ¬r.Inside offset := by
  have hfold := foldl_larger_region offset doc.regions
  rwa [show doc.regions.foldl (larger_region offset) none = none from h] at hfold

theorem takeWhile_eq_filter {anchors : List Anchor} (h : anchors.Pairwise fun a a' => a.start ≤ a'.start) :
    (anchors.takeWhile fun a => a.start ≤ offset) = anchors.filter fun a => a.start ≤ offset := by
  induction h with
  | nil => rfl
  | @cons a rest hfirst _ ih =>
    by_cases ha : a.start ≤ offset
    · rw [List.takeWhile_cons_of_pos (by simpa using ha), List.filter_cons_of_pos (by simpa using ha), ih]
    · rw [List.takeWhile_cons_of_neg (by simpa using ha), List.filter_cons_of_neg (by simpa using ha)]
      refine (List.filter_eq_nil_iff.2 fun a' ha' => ?_).symm
      have := hfirst a' ha'
      simp only [decide_eq_true_eq]
      omega

theorem foldl_later_anchor {minBlock : ℕ} (anchors : List Anchor) : ∀ best : Option ℕ,
    anchors.foldl (later_anchor doc offset minBlock) best
      = (best.toList ++ (anchors.filter fun a => ¬(a.block < minBlock
          ∨ crosses_completed_region doc a.end offset)).map fun a => min offset a.end).max? := by
  induction anchors with
  | nil => exact fun best => by cases best <;> rfl
  | cons a rest ih =>
    intro best
    rw [List.foldl_cons, ih, later_anchor, List.filter_cons]
    by_cases hskip : a.block < minBlock ∨ crosses_completed_region doc a.end offset
    · rw [if_pos hskip, if_neg (by rw [decide_eq_true_eq]; exact not_not.2 hskip)]
    · rw [if_neg hskip, if_pos (by rw [decide_eq_true_eq]; exact hskip), List.map_cons]
      cases best with
      | none => rfl
      | some other =>
        dsimp only
        split_ifs with hgt
        · simp only [Option.toList_some, List.singleton_append, List.max?_cons', List.foldl_cons]
          rw [max_eq_right (Nat.le_of_lt hgt)]
        · simp only [Option.toList_some, List.singleton_append, List.max?_cons', List.foldl_cons]
          rw [max_eq_left (Nat.le_of_not_lt hgt)]

theorem crosses_completed_region_iff {«from» : ℕ} : crosses_completed_region doc «from» offset = true
    ↔ ∃ r ∈ doc.regions, «from» ≤ r.start ∧ r.end ≤ offset := by
  simp [crosses_completed_region]

variable (offset) in
/-- **`anchorAtOrBefore` finds** the last place of all it chooses among. -/
theorem anchor_at_or_before_eq (h : doc.anchors.Pairwise fun a a' => a.start ≤ a'.start) (minBlock : ℕ) :
    ∃ places : List ℕ, anchor_at_or_before doc offset minBlock = places.max?
      ∧ ∀ v, v ∈ places ↔ ∃ a, Hosts doc offset minBlock a ∧ v = min offset a.end := by
  refine ⟨_, foldl_later_anchor _ none, fun v => ?_⟩
  have htake : ∀ a : Anchor, a ∈ doc.anchors.takeWhile (fun a => a.start ≤ offset)
      ↔ a ∈ doc.anchors ∧ a.start ≤ offset := by
    intro a
    rw [takeWhile_eq_filter h, List.mem_filter, decide_eq_true_eq]
  rw [Option.toList_none, List.nil_append, List.mem_map]
  refine exists_congr fun a => and_congr ?_ eq_comm
  rw [List.mem_filter, htake, decide_eq_true_eq, not_or, crosses_completed_region_iff]
  exact ⟨fun ⟨⟨hmem, hstart⟩, hblock, hcross⟩ => ⟨hmem, hstart, Nat.le_of_not_lt hblock,
      fun r hr hfrom hend => hcross ⟨r, hr, hfrom, hend⟩⟩,
    fun ⟨hmem, hstart, hblock, hcross⟩ => ⟨⟨hmem, hstart⟩, Nat.not_lt.2 hblock,
      fun ⟨r, hr, hfrom, hend⟩ => hcross r hr hfrom hend⟩⟩

theorem anchor_at_or_before_some (h : doc.anchors.Pairwise fun a a' => a.start ≤ a'.start)
    {minBlock v : ℕ} (hv : anchor_at_or_before doc offset minBlock = some v) :
    ∃ a, Hosts doc offset minBlock a ∧ v = min offset a.end := by
  obtain ⟨places, heq, hmem⟩ := anchor_at_or_before_eq offset h minBlock
  rw [heq] at hv
  exact (hmem v).1 (List.max?_mem hv)

theorem Hosts.before (h : doc.anchors.Pairwise fun a a' => a.start ≤ a'.start) {minBlock : ℕ}
    {a : Anchor} (ha : Hosts doc offset minBlock a) :
    ∃ v, anchor_at_or_before doc offset minBlock = some v ∧ min offset a.end ≤ v := by
  obtain ⟨places, heq, hmem⟩ := anchor_at_or_before_eq offset h minBlock
  have ha := (hmem _).2 ⟨a, ha, rfl⟩
  cases hmax : places.max? with
  | none =>
    rw [List.max?_eq_none_iff.1 hmax] at ha
    cases ha
  | some v => exact ⟨v, heq.trans hmax, (List.max?_eq_some_iff.1 hmax).2 _ ha⟩

/-- **`anchorAtOrAfter` finds** the first place of all it chooses among. -/
theorem anchor_at_or_after_some {maxBlock v : ℕ} (hv : anchor_at_or_after doc offset maxBlock = some v) :
    ∃ a ∈ doc.anchors, a.block ≤ maxBlock ∧ offset ≤ a.end ∧ v = max offset a.start := by
  obtain ⟨a, ha, rfl⟩ := Option.map_eq_some_iff.1 hv
  obtain ⟨hblock, hend⟩ : a.block ≤ maxBlock ∧ offset ≤ a.end := by simpa using List.find?_some ha
  exact ⟨a, List.mem_of_find?_eq_some ha, hblock, hend, rfl⟩

theorem anchor_at_or_after_le (h : doc.anchors.Pairwise fun a a' => a.start ≤ a'.start) {maxBlock : ℕ}
    {a : Anchor} (ha : a ∈ doc.anchors) (hblock : a.block ≤ maxBlock) (hend : offset ≤ a.end) :
    ∃ v, anchor_at_or_after doc offset maxBlock = some v ∧ v ≤ max offset a.start := by
  unfold anchor_at_or_after
  generalize doc.anchors = anchors at h ha ⊢
  induction anchors with
  | nil => cases ha
  | cons a' rest ih =>
    obtain ⟨hfirst, hrest⟩ := List.pairwise_cons.1 h
    by_cases hfits : a'.block ≤ maxBlock ∧ a'.end ≥ offset
    · refine ⟨_, by rw [List.find?_cons_of_pos (by simpa using hfits)]; rfl, ?_⟩
      rcases List.mem_cons.1 ha with rfl | ha
      · exact le_rfl
      · have := hfirst a ha
        dsimp only
        omega
    · rw [List.find?_cons_of_neg (by simpa using hfits)]
      rcases List.mem_cons.1 ha with rfl | ha
      · exact absurd ⟨hblock, hend⟩ hfits
      · exact ih hrest ha

/-- What the block is that an offset is counted to. -/
structure Located (doc : Document) (offset block : ℕ) : Prop where
  lt : block < doc.blocks.length
  start : 0 < block → (doc.block_at block).start ≤ offset
  passed : ∀ j < block, (doc.block_at j).end < offset
  ahead : block + 1 < doc.blocks.length →
    offset ≤ (doc.block_at block).end ∨ offset < (doc.block_at (block + 1)).start

theorem located_block_index_from {length : ℕ} (h : Parsed length doc) (hne : doc.blocks ≠ [])
    (blocks : List Span) : ∀ index, doc.blocks.drop index = blocks →
      (∀ j < index, (doc.block_at j).end < offset) → index ≤ doc.blocks.length →
      Located doc offset (block_index_from offset index (index - 1) blocks) := by
  have hlength := List.length_pos_iff.2 hne
  -- the block before is passed, so the offset is behind its start
  have hstart : ∀ index, (∀ j < index, (doc.block_at j).end < offset) → index ≤ doc.blocks.length →
      0 < index - 1 → (doc.block_at (index - 1)).start ≤ offset := by
    intro index hpassed hindex hpos
    have := h.block (index - 1) (by omega)
    have := hpassed (index - 1) (by omega)
    omega
  induction blocks with
  | nil =>
    intro index hdrop hpassed hindex
    have := List.drop_eq_nil_iff.1 hdrop
    exact ⟨by rw [block_index_from]; omega, hstart index hpassed hindex,
      fun j hj => hpassed j (by rw [block_index_from] at hj; omega),
      fun hlt => by rw [block_index_from] at hlt; omega⟩
  | cons b rest ih =>
    intro index hdrop hpassed hindex
    have hlt : index < doc.blocks.length := by
      have := congrArg List.length hdrop
      rw [List.length_drop, List.length_cons] at this
      omega
    have hb : doc.block_at index = b := by
      rw [Document.block_at, List.getD_eq_getElem _ _ hlt]
      have := List.drop_eq_getElem_cons hlt
      exact (List.cons.inj (this.symm.trans hdrop)).1
    rw [block_index_from]
    split_ifs with hend hb_start
    · exact ⟨hlt, fun _ => by rwa [hb], hpassed, fun _ => Or.inl (by rwa [hb])⟩
    · refine ⟨by omega, hstart index hpassed hindex, fun j hj => hpassed j (by omega), fun _ => ?_⟩
      rcases Nat.eq_zero_or_pos index with rfl | hpos
      · exact Or.inl (by rwa [hb])
      · rw [Nat.sub_add_cancel hpos, hb]
        exact Or.inr (Nat.lt_of_not_le hb_start)
    · refine ih (index + 1) ?_ (fun j hj => ?_) hlt
      · rw [← List.drop_drop, hdrop, List.drop_one, List.tail_cons]
      · rcases Nat.lt_succ_iff_lt_or_eq.1 hj with hj | rfl
        · exact hpassed j hj
        · rw [hb]
          omega

theorem located_block_index_at {length : ℕ} (h : Parsed length doc) (hne : doc.blocks ≠ []) (offset : ℕ) :
    Located doc offset (block_index_at doc offset) :=
  located_block_index_from h hne _ 0 List.drop_zero (by simp) (Nat.zero_le _)

end Searches

/-! ## Where chips change places -/

/-- The offset behind the region is in no region and still counts to its block. -/
structure Left (length : ℕ) (doc : Document) (r : ProtectedRegion) : Prop where
  closed : r.unclosed = false
  before_end : r.end < length
  free : enclosing_region doc (r.end + 1) = none
  block : block_index_at doc (r.end + 1) = r.block

/-- The block has text behind the region, or it ends there and no text comes after, but at its end. -/
def LeavesBehind (doc : Document) (r : ProtectedRegion) : Prop :=
  (∃ a ∈ doc.anchors, a.block = r.block ∧ r.end ≤ a.end)
    ∨ r.blockEnd ≤ r.end + 1 ∧ ∀ a ∈ doc.anchors, a.block = r.block + 1 →
      ∃ a' ∈ doc.anchors, a'.block = r.block + 1 ∧ a'.start ≤ r.blockEnd

/-- The block of an open fence has no text but at one point, and no closed region behind it; the
point is the start of the block, or no text in front of the block can take the chips of the fence. -/
structure FenceFirst (doc : Document) (u : ProtectedRegion) : Prop where
  point : ∀ a ∈ doc.anchors, a.block = u.block → ∀ a' ∈ doc.anchors, a'.block = u.block → a.end ≤ a'.start
  first : ∀ a ∈ doc.anchors, a.block = u.block →
    a.start = u.blockStart ∨ anchor_at_or_before doc u.blockStart (u.block - 1) = none
  regions : ∀ r ∈ doc.regions, r.unclosed = false → r.block = u.block →
    ∃ a ∈ doc.anchors, a.block = u.block ∧ r.end ≤ a.start

/-! ## The rules -/

section Rules

variable {doc : Document} {length : ℕ}

/-- Where the chips of a closed region go. -/
def escape (doc : Document) (r : ProtectedRegion) : ℕ :=
  (anchor_at_or_after doc r.end (r.block + 1)).getD r.blockEnd

/-- Where the chips of an open fence go. -/
def front (doc : Document) (r : ProtectedRegion) : ℕ :=
  ((anchor_at_or_before doc r.blockStart (r.block - 1)).or
    (anchor_at_or_after doc r.blockStart r.block)).getD r.blockStart

/-- Where the chip of an offset goes that is in no region, in a block. -/
def attach (doc : Document) (offset block : ℕ) : ℕ :=
  ((anchor_at_or_before doc offset (block - 1)).or (anchor_at_or_after doc offset block)).getD
    (if offset ≥ (doc.block_at block).end then (doc.block_at block).end else (doc.block_at block).start)

theorem at_insertion_at (content : JsString) (offset : ℕ) :
    (insertion_at content doc offset).at = match enclosing_region doc offset with
      | some r => if r.unclosed then front doc r else escape doc r
      | none => attach doc offset (block_index_at doc offset) := by
  unfold insertion_at front escape attach
  cases enclosing_region doc offset with
  | none =>
    dsimp only
    cases anchor_at_or_before doc offset (block_index_at doc offset - 1) with
    | some before => rfl
    | none => cases anchor_at_or_after doc offset (block_index_at doc offset) <;> rfl
  | some r =>
    dsimp only
    split_ifs
    · cases anchor_at_or_before doc r.blockStart (r.block - 1) with
      | some before => rfl
      | none => cases anchor_at_or_after doc r.blockStart r.block <;> rfl
    · cases anchor_at_or_after doc r.end (r.block + 1) <;> rfl

namespace Parsed

variable (h : Parsed length doc)
include h

theorem enclosing_region_eq {r : ProtectedRegion} {offset : ℕ} (hr : r ∈ doc.regions)
    (hin : r.Inside offset) : enclosing_region doc offset = some r := by
  cases hfound : enclosing_region doc offset with
  | none => exact absurd hin (enclosing_region_none hfound r hr)
  | some r' =>
    obtain ⟨hr', hin'⟩ := enclosing_region_some hfound
    obtain ⟨hstart, hend⟩ := hin
    obtain ⟨hstart', hend'⟩ := hin'
    rcases h.regions r hr r' hr' with rfl | hbefore | hbefore
    · rfl
    · omega
    · omega

theorem block_le {i j : ℕ} (hij : i ≤ j) (hj : j < doc.blocks.length) :
    (doc.block_at i).start ≤ (doc.block_at j).start ∧ (doc.block_at i).end ≤ (doc.block_at j).end := by
  rcases Nat.eq_or_lt_of_le hij with rfl | hlt
  · exact ⟨le_rfl, le_rfl⟩
  · have := h.blocks i j hlt hj
    have := h.block i (by omega)
    have := h.block j hj
    omega

variable {a : Anchor} {offset block : ℕ}

theorem block_le_of_reaches (hblock : Located doc offset block)
    (ha : a ∈ doc.anchors) (hend : offset ≤ a.end) : block ≤ a.block := by
  obtain ⟨-, -, -, -, hwithin⟩ := h.anchor a ha
  by_contra hlt
  have := hblock.passed a.block (Nat.lt_of_not_le hlt)
  omega

theorem hosts_of_covers (hblock : Located doc offset block)
    (ha : a ∈ doc.anchors) (hstart : a.start ≤ offset) (hend : offset ≤ a.end) :
    Hosts doc offset (block - 1) a := by
  refine ⟨ha, hstart, (Nat.sub_le _ _).trans (h.block_le_of_reaches hblock ha hend), ?_⟩
  intro r hr hfrom hto
  have := h.region r hr
  omega

theorem located_mono {offset offset' block block' : ℕ} (hblock : Located doc offset block)
    (hblock' : Located doc offset' block') (hle : offset ≤ offset') : block ≤ block' := by
  by_contra hlt
  have hpassed := hblock.passed block' (Nat.lt_of_not_le hlt)
  have hstart := hblock.start (by omega)
  have := h.block_le (i := block' + 1) (by omega) hblock.lt
  rcases hblock'.ahead (by have := hblock.lt; omega) with hend | hbefore <;> omega

theorem le_attach (ha : Hosts doc offset (block - 1) a) : min offset a.end ≤ attach doc offset block := by
  obtain ⟨v, hv, hle⟩ := ha.before h.sorted
  rw [attach, hv]
  exact hle

section Free

variable {offset block : ℕ} (hblock : Located doc offset block)
include hblock

/-- Three ways to attach a chip: to what is before it, to what comes in its block, to its block. -/
theorem attach_cases : (∃ a, Hosts doc offset (block - 1) a ∧ attach doc offset block = min offset a.end)
      ∨ (∀ a, ¬Hosts doc offset (block - 1) a)
        ∧ ((∃ a ∈ doc.anchors, a.block = block ∧ offset < a.start ∧ attach doc offset block = a.start)
          ∨ (∀ a ∈ doc.anchors, a.block ≤ block → a.end < offset)
            ∧ attach doc offset block = if offset ≥ (doc.block_at block).end then (doc.block_at block).end
              else (doc.block_at block).start) := by
  unfold attach
  cases hbefore : anchor_at_or_before doc offset (block - 1) with
  | some v =>
    obtain ⟨a, ha, rfl⟩ := anchor_at_or_before_some h.sorted hbefore
    exact Or.inl ⟨a, ha, rfl⟩
  | none =>
    have hnone : ∀ a, ¬Hosts doc offset (block - 1) a := by
      intro a ha
      obtain ⟨v, hv, -⟩ := ha.before h.sorted
      cases hbefore.symm.trans hv
    refine Or.inr ⟨hnone, ?_⟩
    cases hafter : anchor_at_or_after doc offset block with
    | some v =>
      obtain ⟨a, ha, hle, hend, rfl⟩ := anchor_at_or_after_some hafter
      have hstart : offset < a.start := by
        by_contra hstart
        exact hnone a (h.hosts_of_covers hblock ha (by omega) hend)
      have := h.block_le_of_reaches hblock ha hend
      exact Or.inl ⟨a, ha, by omega, hstart, max_eq_right (Nat.le_of_lt hstart)⟩
    | none =>
      refine Or.inr ⟨fun a ha hle => ?_, rfl⟩
      by_contra hend
      obtain ⟨v, hv, -⟩ := anchor_at_or_after_le h.sorted ha hle (Nat.le_of_not_lt hend)
      cases hafter.symm.trans hv

theorem attach_le (hnone : ∀ a, ¬Hosts doc offset (block - 1) a) {a : Anchor} (ha : a ∈ doc.anchors)
    (hle : a.block ≤ block) (hend : offset ≤ a.end) : attach doc offset block ≤ a.start := by
  obtain ⟨v, hv, hstart⟩ := anchor_at_or_after_le h.sorted ha hle hend
  have hlate : offset < a.start := by
    by_contra hstart
    exact hnone a (h.hosts_of_covers hblock ha (by omega) hend)
  have hbefore : anchor_at_or_before doc offset (block - 1) = none := by
    by_contra hsome
    obtain ⟨w, hw⟩ := Option.ne_none_iff_exists'.1 hsome
    obtain ⟨a', ha', -⟩ := anchor_at_or_before_some h.sorted hw
    exact hnone a' ha'
  rw [attach, hbefore, hv]
  exact hstart.trans (max_le (Nat.le_of_lt hlate) le_rfl)

theorem block_le_attach : (doc.block_at (block - 1)).start ≤ attach doc offset block := by
  have hblocks := h.block_le (Nat.sub_le block 1) hblock.lt
  have hlt := h.block block hblock.lt
  rcases h.attach_cases hblock with ⟨a, ha, heq⟩ | ⟨-, ⟨a, ha, hin, hlate, heq⟩ | ⟨-, heq⟩⟩
  · obtain ⟨hin, hstart, horder, -⟩ := h.anchor a ha.mem
    have := h.block_le ha.block hin
    rw [heq, Nat.le_min]
    exact ⟨by have := ha.start; omega, by omega⟩
  · obtain ⟨-, hstart, -⟩ := h.anchor a ha
    rw [hin] at hstart
    omega
  · rw [heq]
    split_ifs <;> omega

end Free

theorem hosts_succ {offset block block' : ℕ} (ha : Hosts doc offset block a)
    (hfree : ∀ r ∈ doc.regions, ¬r.Inside (offset + 1)) (hle : block' ≤ a.block) :
    Hosts doc (offset + 1) block' a := by
  refine ⟨ha.mem, ha.start.trans (Nat.le_succ _), hle, fun r hr hfrom hto => ?_⟩
  have hcrossed := ha.uncrossed r hr hfrom
  obtain ⟨-, -, -, -, hlt, -⟩ := h.region r hr
  exact hfree r hr ⟨by omega, by omega⟩

/-- **From one free offset to the next.** -/
theorem attach_le_attach_succ {offset block block' : ℕ} (hblock : Located doc offset block)
    (hblock' : Located doc (offset + 1) block') (hfree : ∀ r ∈ doc.regions, ¬r.Inside (offset + 1)) :
    attach doc offset block ≤ attach doc (offset + 1) block' := by
  have hmono := h.located_mono hblock hblock' (Nat.le_succ _)
  have hback := h.block_le_attach hblock'
  have hlt := h.block block hblock.lt
  have hblocks := h.block_le hmono hblock'.lt
  rcases h.attach_cases hblock with ⟨a, ha, heq⟩ | ⟨hnone, hattach⟩
  · obtain ⟨hin, hstart, horder, -, hend⟩ := h.anchor a ha.mem
    by_cases hnear : block' - 1 ≤ a.block
    · have := h.le_attach (h.hosts_succ ha hfree hnear)
      omega
    · have := h.blocks a.block (block' - 1) (by omega) (by have := hblock'.lt; omega)
      omega
  · -- what hosts the next offset and not this one starts there
    have hnew : ∀ a, Hosts doc (offset + 1) (block' - 1) a → a.start = offset + 1 := by
      intro a ha
      by_contra hne
      refine hnone a ⟨ha.mem, by have := ha.start; omega, by have := ha.block; omega, ?_⟩
      exact fun r hr hfrom hto => ha.uncrossed r hr hfrom (by omega)
    rcases hattach with ⟨a, ha, hin, hlate, heq⟩ | ⟨hpast, heq⟩
    · obtain ⟨-, -, horder, hinside, hend⟩ := h.anchor a ha
      have hsame := h.block_le_of_reaches hblock' ha (by omega)
      rcases h.attach_cases hblock' with ⟨a', ha', heq'⟩ | ⟨-, ⟨a', ha', hin', hlate', heq'⟩ | ⟨hpast', -⟩⟩
      · have hstart' := hnew a' ha'
        obtain ⟨hin', hbegin', horder', -⟩ := h.anchor a' ha'.mem
        rw [heq, heq', Nat.min_eq_left (by omega)]
        by_cases hle : a'.block ≤ block
        · have := h.attach_le hblock hnone ha'.mem hle (by omega)
          omega
        · have := h.blocks block a'.block (by omega) hin'
          rw [hin] at hinside
          omega
      · have := h.anchor a' ha'
        have := h.attach_le hblock hnone ha' (by omega) (by omega)
        omega
      · have := hpast' a ha (by omega)
        omega
    · rcases h.attach_cases hblock' with ⟨a', ha', heq'⟩ | ⟨-, ⟨a', ha', hin', hlate', heq'⟩ | ⟨-, heq'⟩⟩
      · have hstart' := hnew a' ha'
        obtain ⟨hin', hbegin', horder', -⟩ := h.anchor a' ha'.mem
        have := hblock.start
        have := h.block_le (Nat.zero_le a'.block) hin'
        rw [heq, heq', Nat.min_eq_left (by omega)]
        rcases Nat.eq_zero_or_pos block with rfl | hpos
        · split_ifs <;> omega
        · split_ifs <;> omega
      · obtain ⟨-, hbegin', -⟩ := h.anchor a' ha'
        rw [hin'] at hbegin'
        rw [heq, heq']
        split_ifs <;> omega
      · rcases Nat.eq_or_lt_of_le hmono with rfl | hlater
        · rw [heq, heq']
          split_ifs <;> omega
        · have := h.blocks block block' hlater hblock'.lt
          have := h.block block' hblock'.lt
          rw [heq, heq']
          split_ifs <;> omega

theorem escape_cases (r : ProtectedRegion) :
    (∃ a ∈ doc.anchors, a.block ≤ r.block + 1 ∧ r.end ≤ a.end ∧ escape doc r = max r.end a.start)
      ∨ (∀ a ∈ doc.anchors, a.block ≤ r.block + 1 → a.end < r.end) ∧ escape doc r = r.blockEnd := by
  unfold escape
  cases hafter : anchor_at_or_after doc r.end (r.block + 1) with
  | some v =>
    obtain ⟨a, ha, hle, hend, rfl⟩ := anchor_at_or_after_some hafter
    exact Or.inl ⟨a, ha, hle, hend, rfl⟩
  | none =>
    refine Or.inr ⟨fun a ha hle => ?_, rfl⟩
    by_contra hend
    obtain ⟨v, hv, -⟩ := anchor_at_or_after_le h.sorted ha hle (Nat.le_of_not_lt hend)
    cases hafter.symm.trans hv

section Regions

variable {r : ProtectedRegion} (hr : r ∈ doc.regions)
include hr

theorem end_le_escape : r.end ≤ escape doc r := by
  have := h.region r hr
  rcases h.escape_cases r with ⟨a, -, -, -, heq⟩ | ⟨-, heq⟩ <;> omega

theorem escape_le {a : Anchor} (ha : a ∈ doc.anchors) (hend : r.end ≤ a.end) :
    escape doc r ≤ max r.end a.start := by
  by_cases hnear : a.block ≤ r.block + 1
  · obtain ⟨v, hv, hle⟩ := anchor_at_or_after_le h.sorted ha hnear hend
    rw [escape, hv]
    exact hle
  · obtain ⟨hin, hbegin, -⟩ := h.anchor a ha
    rcases h.escape_cases r with ⟨a', ha', hnear', -, heq⟩ | ⟨-, heq⟩
    · have := h.anchor a' ha'
      have := h.blocks a'.block a.block (by omega) hin
      omega
    · have := h.region r hr
      have := h.blocks r.block a.block (by omega) hin
      omega

/-- **From a free offset into a region.** -/
theorem attach_le_escape {offset block : ℕ} (hblock : Located doc offset block) (hle : offset ≤ r.start) :
    attach doc offset block ≤ escape doc r := by
  obtain ⟨hin, hstart, hend, hbegin, hlt, hwithin, -⟩ := h.region r hr
  have hescape := h.end_le_escape hr
  have hbefore : block ≤ r.block := by
    by_contra hlater
    have := hblock.passed r.block (by omega)
    omega
  have hblocks := h.block_le hbefore hin
  rcases h.attach_cases hblock with ⟨a, ha, heq⟩ | ⟨hnone, ⟨a, ha, hsame, hlate, heq⟩ | ⟨-, heq⟩⟩
  · omega
  · obtain ⟨-, -, -, hinside, -⟩ := h.anchor a ha
    rw [hsame] at hinside
    rcases h.escape_cases r with ⟨a', ha', -, hend', heq'⟩ | ⟨-, heq'⟩
    · obtain ⟨hin', hbegin', -⟩ := h.anchor a' ha'
      by_cases hnear : a'.block ≤ block
      · have := h.attach_le hblock hnone ha' hnear (by omega)
        omega
      · have := h.blocks block a'.block (by omega) hin'
        omega
    · omega
  · rw [heq]
    split_ifs <;> omega

/-- **From a region to a later one.** -/
theorem escape_le_escape {r' : ProtectedRegion} (hr' : r' ∈ doc.regions) (hle : r.end ≤ r'.end) :
    escape doc r ≤ escape doc r' := by
  obtain ⟨hin, hstart, hend, hbegin, hlt, hwithin, -⟩ := h.region r hr
  obtain ⟨hin', hstart', hend', hbegin', hlt', hwithin', -⟩ := h.region r' hr'
  have hbefore : r.block ≤ r'.block := by
    by_contra hlater
    have := h.blocks r'.block r.block (by omega) hin
    omega
  have hblocks := h.block_le hbefore hin'
  rcases h.escape_cases r' with ⟨a', ha', -, hreach, heq'⟩ | ⟨hnone, heq'⟩
  · have := h.escape_le hr ha' (hle.trans hreach)
    omega
  · rcases h.escape_cases r with ⟨a, ha, hnear, -, heq⟩ | ⟨-, heq⟩
    · have := hnone a ha (by omega)
      have := h.anchor a ha
      omega
    · omega

/-- **From a region to the free offset behind it**: a chip that is attached to text before it is
attached behind the region. -/
theorem escape_le_attach_of_hosts {block : ℕ} {a : Anchor} (ha : Hosts doc (r.end + 1) (block - 1) a) :
    escape doc r ≤ attach doc (r.end + 1) block := by
  have hattach := h.le_attach ha
  have hstart := ha.start
  obtain ⟨-, -, horder, -⟩ := h.anchor a ha.mem
  have hbehind : r.end ≤ a.start :=
    (h.apart a ha.mem r hr).resolve_left fun hbefore => ha.uncrossed r hr hbefore.2 (Nat.le_succ _)
  have := h.escape_le hr ha.mem (hbehind.trans horder)
  omega

theorem block_le_of_reaches_end {a : Anchor} (ha : a ∈ doc.anchors) (hend : r.end ≤ a.end) :
    r.block ≤ a.block := by
  have := h.region r hr
  have := h.anchor a ha
  by_contra hlt
  have := h.blocks a.block r.block (by omega) (by omega)
  omega

/-- Where nothing hosts the offset behind a region, and nothing after it is in its block, no text
reaches the end of the region. -/
theorem lt_end_of_not_hosts {block : ℕ} (hfree : ∀ r' ∈ doc.regions, ¬r'.Inside (r.end + 1))
    (hnone : ∀ a, ¬Hosts doc (r.end + 1) (block - 1) a)
    (hpast : ∀ a ∈ doc.anchors, a.block ≤ block → a.end < r.end + 1) (hnear : block ≤ r.block + 1)
    {a : Anchor} (ha : a ∈ doc.anchors) (hle : a.block ≤ block) : a.end < r.end := by
  by_contra hend
  have := hpast a ha hle
  have := h.anchor a ha
  have := h.block_le_of_reaches_end hr ha (by omega)
  refine hnone a ⟨ha, by omega, by omega, fun r' hr' hfrom hto => ?_⟩
  have := h.region r' hr'
  exact hfree r' hr' ⟨by omega, by omega⟩

theorem escape_le_attach {block : ℕ} (hfree : ∀ r' ∈ doc.regions, ¬r'.Inside (r.end + 1))
    (hblock : Located doc (r.end + 1) block) (hleaves : block = r.block → LeavesBehind doc r) :
    escape doc r ≤ attach doc (r.end + 1) block := by
  obtain ⟨hin, hstart, hend, hbegin, hlt, hwithin, -⟩ := h.region r hr
  have hbefore : r.block ≤ block := by
    by_contra hlater
    have := h.blocks block r.block (by omega) hin
    have := h.block_le (i := block + 1) (by omega) hin
    rcases hblock.ahead (by omega) <;> omega
  have hnear : block ≤ r.block + 1 := by
    by_contra hfar
    have := hblock.passed (r.block + 1) (by omega)
    have := h.blocks r.block (r.block + 1) (by omega) (by have := hblock.lt; omega)
    have := h.block (r.block + 1) (by have := hblock.lt; omega)
    omega
  rcases h.attach_cases hblock with ⟨a, ha, -⟩ | ⟨hnone, ⟨a, ha, hsame, hlate, heq⟩ | ⟨hpast, heq⟩⟩
  · exact h.escape_le_attach_of_hosts hr ha
  · have := h.anchor a ha
    have := h.escape_le hr ha (by omega)
    omega
  · have hshort := fun a ha => h.lt_end_of_not_hosts hr hfree hnone hpast hnear (a := a) ha
    have hblocks := h.block_le hbefore hblock.lt
    rcases Nat.eq_or_lt_of_le hbefore with rfl | hlater
    · have hescape : r.blockEnd ≤ r.end + 1 ∧ escape doc r ≤ r.blockEnd := by
        rcases hleaves rfl with ⟨a, ha, hsame, hreach⟩ | ⟨hends, hnext⟩
        · exact absurd (hshort a ha hsame.le) (Nat.not_lt.2 hreach)
        · refine ⟨hends, ?_⟩
          rcases h.escape_cases r with ⟨a, ha, hle, hreach, -⟩ | ⟨-, hescape⟩
          · have hsame : a.block = r.block + 1 := by
              by_contra hne
              exact absurd (hshort a ha (by omega)) (Nat.not_lt.2 hreach)
            obtain ⟨a', ha', hsame', hstart'⟩ := hnext a ha hsame
            obtain ⟨hin', hbegin', -⟩ := h.anchor a' ha'
            have := h.blocks r.block a'.block (by omega) hin'
            have := h.escape_le hr ha' (by have := h.anchor a' ha'; omega)
            omega
          · exact hescape.le
      rw [heq]
      split_ifs <;> omega
    · have := h.blocks r.block block hlater hblock.lt
      have := h.block block hblock.lt
      rcases h.escape_cases r with ⟨a, ha, hle, hreach, -⟩ | ⟨-, hescape⟩
      · exact absurd (hshort a ha (by omega)) (Nat.not_lt.2 hreach)
      · rw [heq]
        split_ifs <;> omega

/-- **A chip behind a region stands before those of the region** where the block goes on, without
text. -/
theorem attach_lt_escape (hblock : Located doc (r.end + 1) r.block) (hleaves : ¬LeavesBehind doc r) :
    attach doc (r.end + 1) r.block < escape doc r := by
  obtain ⟨hin, hstart, hend, hbegin, hlt, hwithin, -⟩ := h.region r hr
  have hno_text : ∀ a ∈ doc.anchors, r.end ≤ a.end → r.block < a.block := by
    intro a ha hreach
    refine Nat.lt_of_le_of_ne (h.block_le_of_reaches_end hr ha hreach) fun hsame => ?_
    exact hleaves (Or.inl ⟨a, ha, hsame.symm, hreach⟩)
  rcases h.attach_cases hblock with ⟨a, ha, -⟩ | ⟨-, ⟨a, ha, hsame, hlate, -⟩ | ⟨-, heq⟩⟩
  · -- what hosts the offset behind the region starts there, so the offset is in a later block
    obtain ⟨hin', hbegin', horder, -⟩ := h.anchor a ha.mem
    have hbehind : r.end ≤ a.start :=
      (h.apart a ha.mem r hr).resolve_left fun hbefore => ha.uncrossed r hr hbefore.2 (Nat.le_succ _)
    have hlater := hno_text a ha.mem (by omega)
    have := h.blocks r.block (r.block + 1) (by omega) (by omega)
    have := h.block (r.block + 1) (by omega)
    have := h.block_le (i := r.block + 1) (by omega) hin'
    have hatstart := ha.start
    have hahead := hblock.ahead (by omega)
    have hnext : a.block = r.block + 1 := by
      by_contra hne
      have := h.blocks (r.block + 1) a.block (by omega) hin'
      omega
    exact absurd (Or.inr ⟨by omega, fun _ _ _ => ⟨a, ha.mem, hnext, by omega⟩⟩) hleaves
  · have := h.anchor a ha
    have := hno_text a ha (by omega)
    omega
  · rw [heq]
    rcases h.escape_cases r with ⟨a, ha, hnear, hreach, hescape⟩ | ⟨hnone, hescape⟩
    · have hlater := hno_text a ha hreach
      obtain ⟨hin', hbegin', -⟩ := h.anchor a ha
      have := h.blocks r.block a.block hlater hin'
      have hgap : r.blockEnd ≤ r.end + 1 → r.blockEnd < a.start := by
        intro hends
        by_contra hstart'
        exact hleaves (Or.inr ⟨hends, fun _ _ _ => ⟨a, ha, by omega, by omega⟩⟩)
      split_ifs <;> omega
    · have hlong : r.end + 1 < r.blockEnd := by
        by_contra hends
        refine hleaves (Or.inr ⟨by omega, fun a ha hnext => ?_⟩)
        obtain ⟨hin', hbegin', -⟩ := h.anchor a ha
        have := h.blocks r.block a.block (by omega) hin'
        have := hnone a ha hnext.le
        have := h.anchor a ha
        omega
      split_ifs <;> omega

end Regions

theorem le_front {u : ProtectedRegion} (ha : Hosts doc u.blockStart (u.block - 1) a) :
    min u.blockStart a.end ≤ front doc u := by
  obtain ⟨v, hv, hle⟩ := ha.before h.sorted
  rw [front, hv]
  exact hle

section Fences

variable {u : ProtectedRegion} (hu : u ∈ doc.regions) (hopen : u.unclosed = true)
include hu

theorem hosts_block_start {a : Anchor} (ha : a ∈ doc.anchors) (hstart : a.start ≤ u.blockStart)
    (hend : u.blockStart ≤ a.end) : Hosts doc u.blockStart (u.block - 1) a := by
  have hregion := h.region u hu
  have hanchor := h.anchor a ha
  refine ⟨ha, hstart, ?_, fun r hr hfrom hto => ?_⟩
  · by_contra hlt
    have := h.blocks a.block (u.block - 1) (by omega) (by omega)
    have := h.block (u.block - 1) (by omega)
    have := h.blocks (u.block - 1) u.block (by omega) hregion.1
    omega
  · have := h.region r hr
    omega

/-- Three ways to put a chip in front of a fence: into what is before its block, into the first text
of the block, or alone in front of the block. -/
theorem front_cases : (∃ a, Hosts doc u.blockStart (u.block - 1) a ∧ front doc u = min u.blockStart a.end)
      ∨ anchor_at_or_before doc u.blockStart (u.block - 1) = none
        ∧ ((∃ a ∈ doc.anchors, a.block = u.block ∧ front doc u = a.start)
          ∨ (∀ a ∈ doc.anchors, a.block ≠ u.block) ∧ front doc u = u.blockStart) := by
  have hregion := h.region u hu
  unfold front
  cases hbefore : anchor_at_or_before doc u.blockStart (u.block - 1) with
  | some v =>
    obtain ⟨a, ha, rfl⟩ := anchor_at_or_before_some h.sorted hbefore
    exact Or.inl ⟨a, ha, rfl⟩
  | none =>
    refine Or.inr ⟨rfl, ?_⟩
    cases hafter : anchor_at_or_after doc u.blockStart u.block with
    | some v =>
      obtain ⟨a, ha, hle, hend, rfl⟩ := anchor_at_or_after_some hafter
      have hanchor := h.anchor a ha
      have hlate : u.blockStart < a.start ∨ a.block = u.block := by
        by_contra hearly
        obtain ⟨v, hv, -⟩ := (h.hosts_block_start hu ha (by omega) hend).before h.sorted
        cases hbefore.symm.trans hv
      have hsame : a.block = u.block := by
        by_contra hne
        have := h.blocks a.block u.block (by omega) hregion.1
        omega
      rw [hsame] at hanchor
      exact Or.inl ⟨a, ha, hsame, max_eq_right (by omega)⟩
    | none =>
      refine Or.inr ⟨fun a ha hsame => ?_, rfl⟩
      have hanchor := h.anchor a ha
      rw [hsame] at hanchor
      obtain ⟨v, hv, -⟩ : ∃ v, anchor_at_or_after doc u.blockStart u.block = some v ∧ v ≤ _ :=
        anchor_at_or_after_le h.sorted ha hsame.le (by omega)
      cases hafter.symm.trans hv

theorem front_le {a : Anchor} (ha : a ∈ doc.anchors) (hsame : a.block = u.block) :
    front doc u ≤ a.start := by
  have hregion := h.region u hu
  have hanchor := h.anchor a ha
  rw [hsame] at hanchor
  unfold front
  cases hbefore : anchor_at_or_before doc u.blockStart (u.block - 1) with
  | some v =>
    obtain ⟨a', -, rfl⟩ := anchor_at_or_before_some h.sorted hbefore
    exact (Nat.min_le_left _ _).trans (by omega)
  | none =>
    obtain ⟨v, hv, hle⟩ : ∃ v, anchor_at_or_after doc u.blockStart u.block = some v ∧ v ≤ _ :=
      anchor_at_or_after_le h.sorted ha hsame.le (by omega)
    rw [hv]
    exact hle.trans (max_le (by omega) le_rfl)

theorem end_le_front (hfirst : FenceFirst doc u) {a : Anchor} (ha : a ∈ doc.anchors)
    (hsame : a.block = u.block) : a.end ≤ front doc u := by
  have hpoint := hfirst.point a ha hsame
  have hregion := h.region u hu
  rcases hfirst.first a ha hsame with hstart | hbefore
  · have := hpoint a ha hsame
    have := h.anchor a ha
    have := h.le_front (h.hosts_block_start hu ha (by omega) (by omega))
    omega
  · rcases h.front_cases hu with ⟨a', ha', -⟩ | ⟨-, ⟨a', ha', hsame', heq⟩ | ⟨hno, -⟩⟩
    · obtain ⟨v, hv, -⟩ := ha'.before h.sorted
      cases hbefore.symm.trans hv
    · rw [heq]
      exact hpoint a' ha' hsame'
    · exact absurd hsame (hno a ha)

include hopen

theorem before_fence {a : Anchor} (ha : a ∈ doc.anchors) (hin : u.block ≤ a.block) :
    a.block = u.block ∧ a.start < u.start ∧ a.end ≤ u.start := by
  obtain ⟨hblock, -, hend, -, -, hwithin, hlast⟩ := h.region u hu
  have hlast := hlast hopen
  obtain ⟨hin', hbegin', horder', hinside', hend'⟩ := h.anchor a ha
  have := h.block a.block hin'
  have := h.block u.block hblock
  have hsame : a.block = u.block := by
    by_contra hne
    have := h.blocks u.block a.block (by omega) hin'
    omega
  refine ⟨hsame, (h.apart a ha u hu).resolve_right fun hbehind => ?_⟩
  rw [hsame] at hinside'
  omega

variable (hfirst : FenceFirst doc u)
include hfirst

/-- **From a region into an open fence.** -/
theorem escape_le_front {r : ProtectedRegion} (hr : r ∈ doc.regions) (hclosed : r.unclosed = false)
    (hend : r.end = u.start) : escape doc r ≤ front doc u := by
  have hregion := h.region r hr
  have hfence := h.region u hu
  have hne : r.block ≠ u.block := by
    intro hsame
    obtain ⟨a, ha, hin, hbehind⟩ := hfirst.regions r hr hclosed hsame
    have := h.before_fence hu hopen ha hin.ge
    omega
  have hbefore : r.block < u.block := by
    by_contra hlater
    have := h.blocks u.block r.block (by omega) (by omega)
    omega
  have hblocks := h.blocks r.block u.block hbefore hfence.1
  have hfront : u.blockStart ≤ front doc u := by
    rcases h.front_cases hu with ⟨a, ha, heq⟩ | ⟨-, ⟨a, ha, hsame, heq⟩ | ⟨-, heq⟩⟩
    · rcases h.apart a ha.mem r hr with hbefore | hbehind
      · exact absurd (by omega) (ha.uncrossed r hr hbefore.2)
      · have := h.anchor a ha.mem
        omega
    · have := h.anchor a ha
      rw [hsame] at this
      omega
    · exact heq.ge
  rcases h.escape_cases r with ⟨a, ha, hle, -, heq⟩ | ⟨-, heq⟩
  · have hanchor := h.anchor a ha
    rcases Nat.lt_or_ge a.block u.block with hlt | hge
    · have := h.blocks a.block u.block hlt hfence.1
      omega
    · have := h.end_le_front hu hfirst ha (h.before_fence hu hopen ha hge).1
      omega
  · omega

theorem hosts_fence_start {r : ProtectedRegion} (hr : r ∈ doc.regions) (hstart : u.blockStart ≤ r.start)
    (hend : r.end ≤ u.start) : ∃ a, Hosts doc u.start u.block a := by
  have hfence := h.region u hu
  have hlast := hfence.2.2.2.2.2.2 hopen
  -- regions between the start of the block and the fence are closed ones of the block
  have hin : ∀ r ∈ doc.regions, u.blockStart ≤ r.start → r.end ≤ u.start →
      r.unclosed = false ∧ r.block = u.block := by
    intro r hr hstart hend
    have hregion := h.region r hr
    refine ⟨?_, ?_⟩
    · by_contra hrest
      have := hregion.2.2.2.2.2.2 (by simpa using hrest)
      omega
    · rcases Nat.lt_trichotomy r.block u.block with hlt | heq | hgt
      · have := h.blocks r.block u.block hlt hfence.1
        omega
      · exact heq
      · have := h.blocks u.block r.block hgt hregion.1
        omega
  obtain ⟨hclosed, hsame⟩ := hin r hr hstart hend
  obtain ⟨a, ha, hblock, hbehind⟩ := hfirst.regions r hr hclosed hsame
  have hbefore := h.before_fence hu hopen ha hblock.ge
  have hanchor := h.anchor a ha
  refine ⟨a, ha, by omega, hblock.ge, fun r' hr' hfrom hto => ?_⟩
  obtain ⟨hclosed', hsame'⟩ := hin r' hr' (by rw [hblock] at hanchor; omega) hto
  obtain ⟨a', ha', hblock', hbehind'⟩ := hfirst.regions r' hr' hclosed' hsame'
  have := hfirst.point a' ha' hblock' a ha hblock
  have := h.anchor a' ha'
  have := h.region r' hr'
  omega

/-- **From a free offset into an open fence.** -/
theorem attach_le_front {block : ℕ} (hblock : Located doc u.start block) :
    attach doc u.start block ≤ front doc u := by
  have hfence := h.region u hu
  have hbefore : block ≤ u.block := by
    by_contra hlater
    have := hblock.passed u.block (by omega)
    omega
  -- the block is that of the fence, or ends where it starts
  have hnear : block = u.block
      ∨ block + 1 = u.block ∧ u.start = u.blockStart ∧ (doc.block_at block).end = u.blockStart := by
    rcases Nat.eq_or_lt_of_le hbefore with heq | hlt
    · exact Or.inl heq
    · have := h.blocks block (block + 1) (by omega) (by omega)
      have := h.block (block + 1) (by omega)
      have := h.block_le (i := block + 1) (by omega) hfence.1
      have := hblock.ahead (by omega)
      have hnext : block + 1 = u.block := by
        by_contra hne
        have := h.blocks (block + 1) u.block (by omega) hfence.1
        omega
      exact Or.inr ⟨hnext, by omega, by omega⟩
  have hstart_le : (doc.block_at (u.block - 1)).start ≤ u.blockStart := by
    have := h.block_le (Nat.sub_le u.block 1) hfence.1
    omega
  rcases h.attach_cases hblock with ⟨a, ha, heq⟩ | ⟨hnone, ⟨a, ha, hsame, hlate, heq⟩ | ⟨hpast, heq⟩⟩
  · have hanchor := h.anchor a ha.mem
    rcases Nat.lt_or_ge a.block u.block with hlt | hge
    · have := h.blocks a.block u.block hlt hfence.1
      have hearly : a.end ≤ front doc u := by
        by_cases hprev : u.block - 1 ≤ a.block
        · have := h.le_front (u := u) ⟨ha.mem, by omega, hprev, fun r hr hfrom hto =>
            ha.uncrossed r hr hfrom (by omega)⟩
          omega
        · have := h.blocks a.block (u.block - 1) (by omega) (by omega)
          rcases h.front_cases hu with ⟨a', ha', heq'⟩ | ⟨-, ⟨a', ha', hsame', heq'⟩ | ⟨-, heq'⟩⟩
          · have := h.anchor a' ha'.mem
            have := h.block_le ha'.block (by omega)
            have := ha'.start
            omega
          · have := h.anchor a' ha'
            rw [hsame'] at this
            omega
          · omega
      omega
    · have := h.end_le_front hu hfirst ha.mem (h.before_fence hu hopen ha.mem hge).1
      omega
  · have hanchor := h.anchor a ha
    rcases hnear with rfl | ⟨-, hstart, hend⟩
    · have := h.before_fence hu hopen ha hsame.ge
      omega
    · rw [hsame] at hanchor
      omega
  · have hedge : attach doc u.start block = u.blockStart := by
      rw [heq]
      rcases hnear with rfl | ⟨-, hstart, hend⟩
      · rw [if_neg (by omega)]
        omega
      · rw [if_pos (by omega)]
        exact hend
    rw [hedge]
    rcases h.front_cases hu with ⟨a, ha, -⟩ | ⟨-, ⟨a, ha, hsame, heq'⟩ | ⟨-, heq'⟩⟩
    · -- what hosts the start of the block is crossed by a region in front of the fence
      obtain ⟨r, hr, hfrom, hto⟩ : ∃ r ∈ doc.regions, a.end ≤ r.start ∧ r.end ≤ u.start := by
        by_contra huncrossed
        refine hnone a ⟨ha.mem, by have := ha.start; omega, by have := ha.block; omega, ?_⟩
        exact fun r hr hfrom hto => huncrossed ⟨r, hr, hfrom, hto⟩
      have hlate := ha.uncrossed r hr hfrom
      have hregion := h.region r hr
      have hstart : u.blockStart ≤ r.start := by
        rcases Nat.lt_or_ge r.block u.block with hlt | hge
        · have := h.blocks r.block u.block hlt hfence.1
          omega
        · have := h.block_le hge hregion.1
          omega
      obtain ⟨a', ha'⟩ := h.hosts_fence_start hu hopen hfirst hr hstart hto
      exact absurd ⟨ha'.mem, ha'.start, by have := ha'.block; omega, ha'.uncrossed⟩ (hnone a')
    · have := h.anchor a ha
      rw [hsame] at this
      omega
    · exact heq'.ge

end Fences

variable (content : JsString)

theorem end_le_place (ha : a ∈ doc.anchors) (hin : ∀ u ∈ doc.regions, u.unclosed = true → ¬u.Inside a.end) :
    a.end ≤ (insertion_at content doc a.end).at := by
  have hanchor := h.anchor a ha
  rw [at_insertion_at]
  cases hregion : enclosing_region doc a.end with
  | some r =>
    obtain ⟨hr, hend⟩ := enclosing_region_some hregion
    dsimp only
    rw [if_neg fun hopen => hin r hr hopen hend]
    exact hend.2.trans (h.end_le_escape hr)
  | none =>
    have hne : doc.blocks ≠ [] := List.ne_nil_of_length_pos (by omega)
    have hblock := located_block_index_at h hne a.end
    have := h.le_attach (h.hosts_of_covers hblock ha hanchor.2.2.1 le_rfl)
    rwa [Nat.min_self] at this

/-- **Where chips are in order**, an open fence comes first in its block. -/
theorem fenceFirst_of_monotone {u : ProtectedRegion} (hu : u ∈ doc.regions) (hopen : u.unclosed = true)
    (hmono : ∀ offset ≤ length, (insertion_at content doc offset).at ≤ front doc u) : FenceFirst doc u := by
  have hfence := h.region u hu
  have hlast := hfence.2.2.2.2.2.2 hopen
  have hend : ∀ a ∈ doc.anchors, a.block = u.block → a.end ≤ front doc u := by
    intro a ha hsame
    have hbefore := h.before_fence hu hopen ha hsame.ge
    refine (h.end_le_place content ha fun u' hu' hopen' hin => ?_).trans (hmono a.end (by omega))
    have := (h.region u' hu').2.2.2.2.2.2 hopen'
    have := h.region u' hu'
    obtain ⟨hstart, -⟩ := hin
    rcases h.regions u hu u' hu' with rfl | hdisjoint | hdisjoint <;> omega
  refine ⟨fun a ha hsame a' ha' hsame' => (hend a ha hsame).trans (h.front_le hu ha' hsame'),
    fun a ha hsame => ?_, fun r hr hclosed hsame => ?_⟩
  · have := hend a ha hsame
    have hanchor := h.anchor a ha
    rw [hsame] at hanchor
    rcases h.front_cases hu with ⟨a', -, heq⟩ | ⟨hnone, -⟩
    · exact Or.inl (by omega)
    · exact Or.inr hnone
  · have hregion := h.region r hr
    rw [hsame] at hregion
    have hplace := hmono r.end (by have := h.block u.block hfence.1; omega)
    rw [at_insertion_at, h.enclosing_region_eq hr ⟨hregion.2.2.2.2.1, le_rfl⟩] at hplace
    dsimp only at hplace
    rw [if_neg (by simp [hclosed])] at hplace
    have := h.end_le_escape hr
    rcases h.front_cases hu with ⟨a', -, heq⟩ | ⟨-, ⟨a, ha, hin, heq⟩ | ⟨-, heq⟩⟩
    · omega
    · exact ⟨a, ha, hin, by omega⟩
    · omega

/-- **From one offset to the next.** -/
theorem place_le_place_succ (hleaves : ∀ r ∈ doc.regions, Left length doc r → LeavesBehind doc r)
    (hfirst : ∀ u ∈ doc.regions, u.unclosed = true → FenceFirst doc u) (hne : doc.blocks ≠ [])
    {offset : ℕ} (hlt : offset < length) :
    (insertion_at content doc offset).at ≤ (insertion_at content doc (offset + 1)).at := by
  have hblock := located_block_index_at h hne offset
  have hblock' := located_block_index_at h hne (offset + 1)
  rw [at_insertion_at, at_insertion_at]
  cases hfrom : enclosing_region doc offset with
  | some r =>
    obtain ⟨hr, hstart, hend⟩ := enclosing_region_some hfrom
    have hopen_end := (h.region r hr).2.2.2.2.2.2
    cases hto : enclosing_region doc (offset + 1) with
    | some r' =>
      obtain ⟨hr', hstart', hend'⟩ := enclosing_region_some hto
      dsimp only
      rcases h.regions r hr r' hr' with rfl | hdisjoint | hdisjoint
      · exact le_rfl
      · have hclosed : ¬r.unclosed = true := fun hopen => by
          have := hopen_end hopen
          omega
        rw [if_neg hclosed]
        split_ifs with hopen'
        · exact h.escape_le_front hr' hopen' (hfirst r' hr' hopen') hr (by simpa using hclosed) (by omega)
        · exact h.escape_le_escape hr hr' (by omega)
      · omega
    | none =>
      have hfree := enclosing_region_none hto
      have hbehind : r.end = offset := by
        have := hfree r hr
        unfold ProtectedRegion.Inside at this
        omega
      subst hbehind
      have hclosed : ¬r.unclosed = true := fun hopen => by
        have := hopen_end hopen
        omega
      dsimp only
      rw [if_neg hclosed]
      exact h.escape_le_attach hr hfree hblock' fun hsame =>
        hleaves r hr ⟨by simpa using hclosed, hlt, hto, hsame⟩
  | none =>
    have hfree := enclosing_region_none hfrom
    cases hto : enclosing_region doc (offset + 1) with
    | some r' =>
      obtain ⟨hr', hstart', hend'⟩ := enclosing_region_some hto
      have hat : r'.start = offset := by
        have := hfree r' hr'
        unfold ProtectedRegion.Inside at this
        omega
      subst hat
      dsimp only
      split_ifs with hopen'
      · exact h.attach_le_front hr' hopen' (hfirst r' hr' hopen') hblock
      · exact h.attach_le_escape hr' hblock le_rfl
    | none => exact h.attach_le_attach_succ hblock hblock' (enclosing_region_none hto)

end Parsed

end Rules

/-! ## Chips in the order of their offsets -/

/-- Chips stand in the order of their offsets. -/
def Monotone (content : JsString) (doc : Document) : Prop :=
  ∀ a b : ℤ, a ≤ b → (resolve_insertion content doc a).at ≤ (resolve_insertion content doc b).at

theorem resolve_insertion_of_le {content : JsString} {doc : Document} (hne : doc.blocks ≠ []) {offset : ℕ}
    (hle : offset ≤ content.length) :
    resolve_insertion content doc offset = insertion_at content doc offset := by
  unfold resolve_insertion
  rw [if_neg hne]
  congr 1
  omega

theorem monotone_of_place_le {content : JsString} {doc : Document} (hne : doc.blocks ≠ [])
    (hstep : ∀ offset < content.length,
      (insertion_at content doc offset).at ≤ (insertion_at content doc (offset + 1)).at) :
    Monotone content doc := by
  have hle : ∀ distance offset, offset + distance ≤ content.length →
      (insertion_at content doc offset).at ≤ (insertion_at content doc (offset + distance)).at := by
    intro distance offset hlast
    induction distance with
    | zero => exact le_rfl
    | succ distance ih => exact (ih (by omega)).trans (hstep _ (by omega))
  intro a b hab
  unfold resolve_insertion
  rw [if_neg hne, if_neg hne]
  have hsum := hle ((min (max b 0) content.length).toNat - (min (max a 0) content.length).toNat)
    (min (max a 0) content.length).toNat (by omega)
  rwa [Nat.add_sub_cancel' (by omega)] at hsum

/-- **Chips stand in the order of their offsets** exactly if the block of a region that is left within
it goes on with text or ends there, and open fences come first in their blocks. -/
theorem monotone_iff (content : JsString) (doc : Document) (h : Parsed content.length doc) :
    Monotone content doc ↔ (∀ r ∈ doc.regions, Left content.length doc r → LeavesBehind doc r)
        ∧ ∀ u ∈ doc.regions, u.unclosed = true → FenceFirst doc u := by
  constructor
  · intro hmono
    have hplaces : ∀ r ∈ doc.regions, ∀ offset offset', offset ≤ offset' → offset' ≤ content.length →
        (insertion_at content doc offset).at ≤ (insertion_at content doc offset').at := by
      intro r hr offset offset' hle hlast
      have hne : doc.blocks ≠ [] :=
        List.ne_nil_of_length_pos (Nat.lt_of_le_of_lt (Nat.zero_le _) (h.region r hr).1)
      have := hmono offset offset' (by omega)
      rwa [resolve_insertion_of_le hne (by omega), resolve_insertion_of_le hne hlast] at this
    refine ⟨fun r hr hleft => ?_, fun u hu hopen => h.fenceFirst_of_monotone content hu hopen ?_⟩
    · by_contra hleaves
      have hregion := h.region r hr
      have hne : doc.blocks ≠ [] := List.ne_nil_of_length_pos (by omega)
      have hblock := located_block_index_at h hne (r.end + 1)
      rw [hleft.block] at hblock
      have hplace := hplaces r hr r.end (r.end + 1) (by omega) hleft.before_end
      rw [at_insertion_at, at_insertion_at, h.enclosing_region_eq hr ⟨hregion.2.2.2.2.1, le_rfl⟩,
        hleft.free, hleft.block] at hplace
      dsimp only at hplace
      rw [if_neg (by simp [hleft.closed])] at hplace
      have := h.attach_lt_escape hr hblock hleaves
      omega
    · intro offset hle
      have hregion := h.region u hu
      have hlast := hregion.2.2.2.2.2.2 hopen
      have hplace := hplaces u hu offset content.length hle le_rfl
      rw [at_insertion_at content content.length, h.enclosing_region_eq hu ⟨by omega, by omega⟩] at hplace
      dsimp only at hplace
      rwa [if_pos hopen] at hplace
  · rintro ⟨hleaves, hfirst⟩
    by_cases hne : doc.blocks = []
    · intro a b _
      unfold resolve_insertion
      rw [if_pos hne, if_pos hne]
    · exact monotone_of_place_le hne fun offset hlt => h.place_le_place_succ content hleaves hfirst hne hlt

/-- The message with a code span at the end of a paragraph, and a paragraph behind it. -/
def span_then_text : JsString := js "x `a`\n\nY"

@[inherit_doc span_then_text]
def span_then_text_doc : Document where
  anchors := [⟨⟨0, 2⟩, 0⟩, ⟨⟨7, 8⟩, 1⟩]
  blocks := [⟨0, 5⟩, ⟨7, 8⟩]
  regions := [⟨⟨2, 5⟩, false, 0, 0, 5⟩]

theorem parsed_span_then_text : Parsed span_then_text.length span_then_text_doc := by
  refine ⟨by decide, ?_, by decide, by decide, by decide, by decide, by decide⟩
  intro i j hij hj
  have : i = 0 ∧ j = 1 := by
    change j < 2 at hj
    omega
  obtain ⟨rfl, rfl⟩ := this
  decide

theorem monotone_span_then_text : Parsed span_then_text.length span_then_text_doc
    ∧ (Monotone span_then_text span_then_text_doc ↔
      (∀ r ∈ span_then_text_doc.regions, Left span_then_text.length span_then_text_doc r →
        LeavesBehind span_then_text_doc r)
      ∧ ∀ u ∈ span_then_text_doc.regions, u.unclosed = true → FenceFirst span_then_text_doc u) :=
  ⟨parsed_span_then_text, monotone_iff _ _ parsed_span_then_text⟩

/-- **A later chip stands first**: that of the offset behind the span, in front of the next
paragraph, comes before that of an offset in the span. -/
theorem later_chip_stands_first : Parsed span_then_text.length span_then_text_doc
    ∧ (resolve_insertion span_then_text span_then_text_doc 3).at = 7
    ∧ (resolve_insertion span_then_text span_then_text_doc 6).at = 5
    ∧ ¬Monotone span_then_text span_then_text_doc := by
  have hinside : (resolve_insertion span_then_text span_then_text_doc 3).at = 7 := by decide
  have hbehind : (resolve_insertion span_then_text span_then_text_doc 6).at = 5 := by decide
  refine ⟨parsed_span_then_text, hinside, hbehind, fun hmono => ?_⟩
  have := hmono 3 6 (by decide)
  omega

end AgentSpace.Chips
