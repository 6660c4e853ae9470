/-
Pieces packed into rows, as many into each as fit.

A piece goes into the row at hand, behind its separator, if the row does not grow too long, and
begins the next row otherwise; other rows may stand between the pieces, and end the row at hand.
Which pieces make a row is said without the packing: a row begins where the one before it ends
(`Begins`), and takes the pieces up to the first that no longer fits (`IsRow`). The rows are these
and those that stood between (`mem_pack_iff`).
-/
import Mathlib.Data.List.Basic

set_option autoImplicit false

namespace AgentSpace.Lib

/-- A piece, with what comes between it and a piece before it in its row. -/
structure Piece (α : Type) where
  sep : List α
  atom : List α

/-- A piece to be packed, or rows as they are. -/
inductive Packed (α : Type) where
  | piece (p : Piece α)
  | rows (rs : List (List α))

namespace Packing

variable {α : Type}

/-- A row, unless there is nothing in it. -/
def row_of (current : List α) : List (List α) :=
  match current with
  | [] => []
  | a :: rest => [a :: rest]

/-- The pieces are packed, behind what is in the row at hand. -/
def pack (max : ℕ) : List α → List (Packed α) → List (List α)
  | current, [] => row_of current
  | current, .rows rs :: items => row_of current ++ rs ++ pack max [] items
  | [], .piece p :: items => pack max p.atom items
  | a :: rest, .piece p :: items =>
    if (a :: rest ++ p.sep ++ p.atom).length ≤ max then pack max (a :: rest ++ p.sep ++ p.atom) items
    else (a :: rest) :: pack max p.atom items

theorem pack_rows (max : ℕ) (current : List α) (rs : List (List α)) (items : List (Packed α)) :
    pack max current (.rows rs :: items) = row_of current ++ rs ++ pack max [] items := by
  rw [pack]

theorem pack_piece (max : ℕ) (p : Piece α) (items : List (Packed α)) :
    pack max [] (.piece p :: items) = pack max p.atom items := by
  rw [pack]

theorem pack_piece_cons (max : ℕ) (a : α) (rest : List α) (p : Piece α) (items : List (Packed α)) :
    pack max (a :: rest) (.piece p :: items)
      = if (a :: rest ++ p.sep ++ p.atom).length ≤ max then pack max (a :: rest ++ p.sep ++ p.atom) items
        else (a :: rest) :: pack max p.atom items := by
  rw [pack]

/-- The pieces of a row, joined. -/
def joined : List (Piece α) → List α
  | [] => []
  | p :: run => p.atom ++ run.flatMap fun q => q.sep ++ q.atom

/-- The pieces make a row before the rest: the first is not empty, they fit, and if the rest
begins with a piece, it does not fit any more. -/
structure IsRow (max : ℕ) (run : List (Piece α)) (rest : List (Packed α)) : Prop where
  begins : ∃ p more, run = p :: more ∧ p.atom ≠ []
  fits : (joined run).length ≤ max
  full : ∀ q rest', rest = .piece q :: rest' → max < (joined (run ++ [q])).length

/-- A row begins in front of the items, if there is one to be made. -/
inductive Begins (max : ℕ) (all : List (Packed α)) : List (Packed α) → Prop
  | first : Begins max all all
  | behind_rows {rs : List (List α)} {items : List (Packed α)} :
      Begins max all (.rows rs :: items) → Begins max all items
  | behind_nothing {p : Piece α} {items : List (Packed α)} :
      Begins max all (.piece p :: items) → p.atom = [] → Begins max all items
  | behind_row {run : List (Piece α)} {items : List (Packed α)} :
      Begins max all (run.map .piece ++ items) → IsRow max run items → Begins max all items

theorem joined_append (run : List (Piece α)) (hne : run ≠ []) (q : Piece α) :
    joined (run ++ [q]) = joined run ++ q.sep ++ q.atom := by
  cases run with
  | nil => exact absurd rfl hne
  | cons p run => simp [joined]

theorem joined_ne_nil {p : Piece α} (hp : p.atom ≠ []) (more : List (Piece α)) : joined (p :: more) ≠ [] := by
  intro h
  exact hp (List.append_eq_nil_iff.1 h).1

theorem length_joined_append (run more : List (Piece α)) :
    (joined run).length ≤ (joined (run ++ more)).length := by
  cases run with
  | nil => exact Nat.zero_le _
  | cons p run =>
    simp only [joined, List.cons_append, List.flatMap_append, List.length_append]
    omega

variable {max : ℕ} {items : List (Packed α)}

/-- What is in the row at hand comes out as a row, if it is full. -/
theorem pack_full {run : List (Piece α)} (hrow : IsRow max run items) :
    pack max (joined run) items = joined run :: pack max [] items := by
  obtain ⟨p, more, rfl, hp⟩ := hrow.begins
  have hfull := hrow.full
  have happend := joined_append (p :: more) (List.cons_ne_nil _ _)
  obtain ⟨a, rest, hcons⟩ := List.exists_cons_of_ne_nil (joined_ne_nil hp more)
  rw [hcons] at happend ⊢
  cases items with
  | nil => rfl
  | cons item items =>
    cases item with
    | rows rs => rfl
    | piece q =>
      have hlong := hfull q items rfl
      rw [happend] at hlong
      rw [pack_piece_cons, if_neg (Nat.not_le.2 hlong), pack_piece]

/-- The pieces of a row are packed into it, the first of them being there. -/
theorem pack_row (more : List (Piece α)) :
    ∀ {run : List (Piece α)}, run ≠ [] → IsRow max (run ++ more) items →
      pack max (joined run) (more.map .piece ++ items) = joined (run ++ more) :: pack max [] items := by
  induction more with
  | nil =>
    intro run hne hrow
    rw [List.append_nil] at hrow ⊢
    exact pack_full hrow
  | cons q more ih =>
    intro run hne hrow
    obtain ⟨p, others, hrun, hp⟩ := hrow.begins
    obtain ⟨first, run', rfl⟩ := List.exists_cons_of_ne_nil hne
    obtain ⟨rfl, -⟩ := List.cons.inj hrun
    obtain ⟨a, rest, hcons⟩ := List.exists_cons_of_ne_nil (joined_ne_nil hp run')
    have happend := joined_append (first :: run') hne q
    have hfits : (joined (first :: run' ++ [q])).length ≤ max := by
      have hlength := length_joined_append (first :: run' ++ [q]) more
      rw [List.append_assoc, List.singleton_append] at hlength
      exact Nat.le_trans hlength hrow.fits
    have hnext := ih (List.append_ne_nil_of_left_ne_nil hne [q])
      (by rwa [List.append_assoc, List.singleton_append])
    rw [List.append_assoc, List.singleton_append] at hnext
    rw [← hnext, List.map_cons, List.cons_append, happend, hcons, pack_piece_cons, if_pos]
    rwa [← hcons, ← happend]

/-- In front of a piece that is not empty there is a row to be made. -/
theorem exists_row :
    ∀ {run : List (Piece α)}, (∃ p more, run = p :: more ∧ p.atom ≠ []) → (joined run).length ≤ max →
      ∃ more rest, items = more.map .piece ++ rest ∧ IsRow max (run ++ more) rest := by
  induction items with
  | nil =>
    intro run hbegins hfits
    refine ⟨[], [], rfl, ?_⟩
    rw [List.append_nil]
    exact ⟨hbegins, hfits, fun q rest' h => by cases h⟩
  | cons item items ih =>
    intro run hbegins hfits
    have hstop : (∀ q rest', item :: items = .piece q :: rest' → max < (joined (run ++ [q])).length) →
        ∃ more rest, item :: items = more.map .piece ++ rest ∧ IsRow max (run ++ more) rest := by
      intro hfull
      refine ⟨[], item :: items, rfl, ?_⟩
      rw [List.append_nil]
      exact ⟨hbegins, hfits, hfull⟩
    cases item with
    | rows rs => exact hstop fun q rest' h => by cases h
    | piece q =>
      by_cases hnext : (joined (run ++ [q])).length ≤ max
      · obtain ⟨p, more, rfl, hp⟩ := hbegins
        obtain ⟨more', rest, hitems, hrow⟩ := @ih (p :: more ++ [q]) ⟨p, more ++ [q], rfl, hp⟩ hnext
        refine ⟨q :: more', rest, by rw [hitems, List.map_cons, List.cons_append], ?_⟩
        rwa [List.append_assoc, List.singleton_append] at hrow
      · refine hstop fun q' rest' h => ?_
        obtain ⟨hq, -⟩ := List.cons.inj h
        rw [← Packed.piece.inj hq]
        exact Nat.not_le.1 hnext

theorem pack_rows_nil (max : ℕ) (rs : List (List α)) (items : List (Packed α)) :
    pack max [] (.rows rs :: items) = rs ++ pack max [] items := by
  rw [pack_rows]
  rfl

theorem pack_piece_nil {p : Piece α} (hp : p.atom = []) (items : List (Packed α)) :
    pack max [] (.piece p :: items) = pack max [] items := by
  rw [pack_piece, hp]

/-- A row is packed, and then the rest. -/
theorem pack_run {run : List (Piece α)} (hrow : IsRow max run items) :
    pack max [] (run.map .piece ++ items) = joined run :: pack max [] items := by
  obtain ⟨p, more, rfl, hp⟩ := hrow.begins
  have hpack := pack_row more (List.cons_ne_nil p []) hrow
  rw [List.map_cons, List.cons_append, pack_piece]
  rw [show joined [p] = p.atom by simp [joined]] at hpack
  exact hpack

theorem Begins.subset {all items : List (Packed α)} (h : Begins max all items) : items ⊆ all := by
  induction h with
  | first => exact List.Subset.refl _
  | behind_rows _ ih | behind_nothing _ _ ih => exact fun item hitem => ih (List.mem_cons_of_mem _ hitem)
  | behind_row _ _ ih => exact fun item hitem => ih (List.mem_append_right _ hitem)

/-- The rows of what is left are among all rows. -/
theorem Begins.pack_subset {all items : List (Packed α)} (h : Begins max all items) :
    pack max [] items ⊆ pack max [] all := by
  induction h with
  | first => exact List.Subset.refl _
  | behind_rows _ ih =>
    rw [pack_rows_nil] at ih
    exact fun row hrow => ih (List.mem_append_right _ hrow)
  | behind_nothing _ hp ih =>
    rwa [pack_piece_nil hp] at ih
  | behind_row _ hrow ih =>
    rw [pack_run hrow] at ih
    exact fun row hmem => ih (List.mem_cons_of_mem _ hmem)

theorem mem_pack_of_rows {rs : List (List α)} {row : List α} (hrow : row ∈ rs) (current : List α)
    (h : .rows rs ∈ items) : row ∈ pack max current items := by
  induction items generalizing current with
  | nil => cases h
  | cons item items ih =>
    cases item with
    | rows rs' =>
      rw [pack_rows, List.mem_append, List.mem_append]
      rcases List.mem_cons.1 h with h | h
      · obtain rfl := Packed.rows.inj h
        exact Or.inl (Or.inr hrow)
      · exact Or.inr (ih [] h)
    | piece p =>
      have hrest : .rows rs ∈ items := by
        rcases List.mem_cons.1 h with h | h
        · cases h
        · exact h
      cases current with
      | nil =>
        rw [pack_piece]
        exact ih p.atom hrest
      | cons a rest =>
        rw [pack_piece_cons]
        split
        · exact ih _ hrest
        · exact List.mem_cons_of_mem _ (ih p.atom hrest)

/-- **The rows** are those the pieces make, from where a row begins, and those between them. -/
theorem mem_pack_iff {all : List (Packed α)}
    (hfit : ∀ p, .piece p ∈ all → p.atom.length ≤ max) {row : List α} :
    row ∈ pack max [] all ↔
      (∃ run items, Begins max all (run.map .piece ++ items) ∧ IsRow max run items ∧ row = joined run)
        ∨ ∃ rs, .rows rs ∈ all ∧ row ∈ rs := by
  constructor
  · suffices h : ∀ n, ∀ items : List (Packed α), items.length = n → Begins max all items →
        row ∈ pack max [] items →
        (∃ run items, Begins max all (run.map .piece ++ items) ∧ IsRow max run items ∧ row = joined run)
          ∨ ∃ rs, .rows rs ∈ all ∧ row ∈ rs from h _ all rfl .first
    intro n
    induction n using Nat.strongRecOn with
    | ind n ih =>
      intro items hn hbegins hmem
      cases items with
      | nil => cases hmem
      | cons item items =>
        cases item with
        | rows rs =>
          rw [pack_rows_nil] at hmem
          rcases List.mem_append.1 hmem with hmem | hmem
          · exact Or.inr ⟨rs, hbegins.subset List.mem_cons_self, hmem⟩
          · exact ih items.length (by rw [← hn, List.length_cons]; omega) items rfl hbegins.behind_rows hmem
        | piece p =>
          by_cases hp : p.atom = []
          · rw [pack_piece_nil hp] at hmem
            exact ih items.length (by rw [← hn, List.length_cons]; omega) items rfl
              (hbegins.behind_nothing hp) hmem
          · have hfirst : (joined [p]).length ≤ max := by
              rw [show joined [p] = p.atom by simp [joined]]
              exact hfit p (hbegins.subset List.mem_cons_self)
            obtain ⟨more, rest, hitems, hrow⟩ := @exists_row _ max items _ ⟨p, [], rfl, hp⟩ hfirst
            rw [List.singleton_append] at hrow
            have hsplit : Packed.piece p :: items = (p :: more).map .piece ++ rest := by
              rw [hitems, List.map_cons, List.cons_append]
            rw [hsplit] at hbegins hmem
            rw [pack_run hrow] at hmem
            rcases List.mem_cons.1 hmem with hmem | hmem
            · exact Or.inl ⟨p :: more, rest, hbegins, hrow, hmem⟩
            · refine ih rest.length ?_ rest rfl (hbegins.behind_row hrow) hmem
              rw [← hn, List.length_cons, hitems, List.length_append]
              omega
  · rintro (⟨run, items, hbegins, hrow, rfl⟩ | ⟨rs, hmem, hrow⟩)
    · refine hbegins.pack_subset ?_
      rw [pack_run hrow]
      exact List.mem_cons_self
    · exact mem_pack_of_rows hrow [] hmem

end Packing

end AgentSpace.Lib
