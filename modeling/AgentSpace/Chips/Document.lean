/-
Where the chip of a tool call goes: `toolCallMarkdown.ts`, from the parsed message on.

Of the syntax tree are kept its top-level blocks, the ranges in which a chip can be spliced
(`anchors`), and those in which it must not be (`regions`). A text is a list of UTF-16 code
units, as it is in JavaScript, and every position counts these.
-/
import Mathlib.Data.Int.Notation
import Mathlib.Data.List.Basic
import Mathlib.Order.Basic

set_option autoImplicit false

namespace AgentSpace.Chips

/-- A text of JavaScript, by its code units. -/
abbrev JsString := List UInt16

/-- The ASCII text. -/
def js (text : String) : JsString := text.toList.map fun c => c.toNat.toUInt16

/-- `/\s/` on a code unit. -/
def is_space (c : UInt16) : Bool :=
  (9 ≤ c && c ≤ 13) || c = 0x20 || c = 0xA0 || c = 0x1680 || (0x2000 ≤ c && c ≤ 0x200A) || c = 0x2028
    || c = 0x2029 || c = 0x202F || c = 0x205F || c = 0x3000 || c = 0xFEFF

/-! ## Parsed messages -/

/-- `Span`: a half-open range of the source. -/
structure Span where
  start : ℕ
  «end» : ℕ
  deriving DecidableEq

/-- `Anchor`. -/
structure Anchor extends Span where
  block : ℕ
  deriving DecidableEq

/-- `ProtectedRegion`. -/
structure ProtectedRegion extends Span where
  unclosed : Bool
  block : ℕ
  blockStart : ℕ
  blockEnd : ℕ
  deriving DecidableEq

/-- `Document`. -/
structure Document where
  anchors : List Anchor
  blocks : List Span
  regions : List ProtectedRegion
  deriving DecidableEq

/-- `Insertion`. -/
structure Insertion where
  «at» : ℕ
  prefix_ : JsString
  suffix : JsString
  deriving DecidableEq

/-! ## Where a chip goes -/

section Placement

variable (content : JsString) (doc : Document)

/-- The loop body of `enclosingRegion`. -/
def larger_region (offset : ℕ) (found : Option ProtectedRegion) (region : ProtectedRegion) :
    Option ProtectedRegion :=
  if region.start ≥ offset ∨ offset > region.end then found
  else
    match found with
    | none => some region
    | some other => if region.end - region.start > other.end - other.start then some region else found

/-- `enclosingRegion`. -/
def enclosing_region (offset : ℕ) : Option ProtectedRegion :=
  doc.regions.foldl (larger_region offset) none

/-- `crossesCompletedRegion`. -/
def crosses_completed_region («from» offset : ℕ) : Bool :=
  doc.regions.any fun region => decide (region.start ≥ «from») && decide (region.end ≤ offset)

/-- The loop body of `anchorAtOrBefore`, after the check that ends the loop. -/
def later_anchor (offset minBlock : ℕ) (best : Option ℕ) (anchor : Anchor) : Option ℕ :=
  if anchor.block < minBlock ∨ crosses_completed_region doc anchor.end offset then best
  else
    let candidate := min offset anchor.end
    match best with
    | none => some candidate
    | some other => if candidate > other then some candidate else best

/-- `anchorAtOrBefore`. A block number below zero is none: no block is before it. -/
def anchor_at_or_before (offset minBlock : ℕ) : Option ℕ :=
  (doc.anchors.takeWhile fun anchor => anchor.start ≤ offset).foldl (later_anchor doc offset minBlock) none

/-- `anchorAtOrAfter`. -/
def anchor_at_or_after (offset maxBlock : ℕ) : Option ℕ :=
  (doc.anchors.find? fun anchor => anchor.block ≤ maxBlock ∧ anchor.end ≥ offset).map fun anchor =>
    max offset anchor.start

/-- The loop of `blockIndexAt`, from a block on. -/
def block_index_from (offset index previous : ℕ) : List Span → ℕ
  | [] => previous
  | block :: rest =>
    if offset ≤ block.end then (if block.start ≤ offset then index else previous)
    else block_index_from offset (index + 1) index rest

/-- `blockIndexAt`. -/
def block_index_at (offset : ℕ) : ℕ := block_index_from offset 0 0 doc.blocks

/-- `spacedInsertion`. -/
def spaced_insertion (place : ℕ) : Insertion where
  «at» := place
  prefix_ := if 0 < place ∧ (content[place - 1]?).any (fun before => !is_space before) then js " " else []
  suffix := if (content[place]?).any (fun after => !is_space after) then js " " else []

/-- `ownParagraph`. -/
def own_paragraph (place : ℕ) : Insertion where
  «at» := place
  prefix_ := if 0 < place then js "\n\n" else []
  suffix := js "\n\n"

/-- `resolveInsertion`, for a clamped offset in a message with blocks. -/
def insertion_at (offset : ℕ) : Insertion :=
  match enclosing_region doc offset with
  | some region =>
    if region.unclosed then
      match anchor_at_or_before doc region.blockStart (region.block - 1) with
      | some before => spaced_insertion content before
      | none =>
        match anchor_at_or_after doc region.blockStart region.block with
        | some after => spaced_insertion content after
        | none => own_paragraph region.blockStart
    else
      match anchor_at_or_after doc region.end (region.block + 1) with
      | some after => spaced_insertion content after
      | none => own_paragraph region.blockEnd
  | none =>
    let block := block_index_at doc offset
    match anchor_at_or_before doc offset (block - 1) with
    | some before => spaced_insertion content before
    | none =>
      match anchor_at_or_after doc offset block with
      | some after => spaced_insertion content after
      | none =>
        let ⟨start, «end»⟩ := doc.blocks.getD block ⟨0, 0⟩
        own_paragraph (if offset ≥ «end» then «end» else start)

/-- `resolveInsertion`. -/
def resolve_insertion (rawOffset : ℤ) : Insertion :=
  let offset := (min (max rawOffset 0) content.length).toNat
  if doc.blocks = [] then spaced_insertion content content.length else insertion_at content doc offset

end Placement

end AgentSpace.Chips
