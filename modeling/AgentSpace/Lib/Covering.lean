/-
Items that cover each other, taken in an order.

A reading is consistent if it keeps exactly those items that nothing it keeps covers.
Taking them in order, an item counts unless one that counts before it covers it
(`first_come`).
-/
import Mathlib

set_option autoImplicit false

namespace AgentSpace.Lib

variable {α : Type}

/-- The item is covered by one of the list. -/
def is_covered (covers : α → α → Bool) (known : List α) (a : α) : Bool :=
  known.any fun b => covers b a

/-- The items that count, behind those that are known to. -/
def first_come (covers : α → α → Bool) : List α → List α → List α
  | known, [] => known
  | known, a :: rest =>
    first_come covers (if is_covered covers known a then known else known ++ [a]) rest

/-- A reading keeps an item exactly if it keeps none that covers it. -/
def Consistent (covers : α → α → Bool) (items : List α) (keeps : α → Prop) : Prop :=
  ∀ a ∈ items, keeps a ↔ ¬ ∃ b ∈ items, keeps b ∧ covers b a = true

/-- No item covers itself or one before it. -/
def Forward (covers : α → α → Bool) (items : List α) : Prop :=
  (∀ a ∈ items, covers a a = false) ∧ items.Pairwise fun a b => covers b a = false

section Covering

variable {covers : α → α → Bool} {known items : List α}

variable {a : α}

theorem is_covered_iff : is_covered covers known a = true ↔ ∃ b ∈ known, covers b a = true := by
  unfold is_covered
  rw [List.any_eq_true]

theorem mem_first_come_of_known (h : a ∈ known) : a ∈ first_come covers known items := by
  induction items generalizing known with
  | nil => exact h
  | cons b rest ih =>
    rw [first_come]
    refine ih ?_
    split_ifs
    · exact h
    · exact List.mem_append_left _ h

theorem mem_of_mem_first_come (h : a ∈ first_come covers known items) : a ∈ known ∨ a ∈ items := by
  induction items generalizing known with
  | nil => exact .inl h
  | cons b rest ih =>
    rw [first_come] at h
    rcases ih h with h | h
    · split_ifs at h
      · exact .inl h
      · rcases List.mem_append.1 h with h | h
        · exact .inl h
        · rw [List.mem_singleton.1 h]
          exact .inr (List.mem_cons_self ..)
    · exact .inr (List.mem_cons_of_mem _ h)

/-- An item that none of those that count covers, counts. -/
theorem mem_first_come (h : a ∈ items)
    (hfree : is_covered covers (first_come covers known items) a = false) :
    a ∈ first_come covers known items := by
  induction items generalizing known with
  | nil => cases h
  | cons b rest ih =>
    rw [first_come] at hfree ⊢
    rcases List.mem_cons.1 h with rfl | h
    · by_cases hcovered : is_covered covers known a = true
      · -- what covers it now covers it at the end
        obtain ⟨b, hb, hcovers⟩ := is_covered_iff.1 hcovered
        rw [if_pos hcovered] at hfree
        have hlater : is_covered covers (first_come covers known rest) a = true :=
          is_covered_iff.2 ⟨b, mem_first_come_of_known hb, hcovers⟩
        rw [hfree] at hlater
        cases hlater
      · rw [if_neg hcovered]
        exact mem_first_come_of_known (List.mem_append_right _ (List.mem_singleton_self a))
    · exact ih h hfree

/-- If items cover only later ones, none that counts covers another. -/
theorem first_come_free (hforward : Forward covers items)
    (hbefore : ∀ a ∈ items, ∀ b ∈ known, covers a b = false)
    (hfree : ∀ a ∈ known, is_covered covers known a = false) :
    ∀ a ∈ first_come covers known items, is_covered covers (first_come covers known items) a = false := by
  induction items generalizing known with
  | nil => exact hfree
  | cons b rest ih =>
    obtain ⟨hself, hpairwise⟩ := hforward
    obtain ⟨hhead, htail⟩ := List.pairwise_cons.1 hpairwise
    have hrest : Forward covers rest := ⟨fun a ha => hself a (List.mem_cons_of_mem _ ha), htail⟩
    rw [first_come]
    by_cases hcovered : is_covered covers known b = true
    · rw [if_pos hcovered]
      exact ih hrest (fun a ha => hbefore a (List.mem_cons_of_mem _ ha)) hfree
    · rw [if_neg hcovered]
      refine ih hrest (fun a ha c hc => ?_) fun a ha => ?_
      · rcases List.mem_append.1 hc with hc | hc
        · exact hbefore a (List.mem_cons_of_mem _ ha) c hc
        · rw [List.mem_singleton.1 hc]
          exact hhead a ha
      · rw [← Bool.not_eq_true, is_covered_iff]
        rintro ⟨c, hc, hcovers⟩
        rcases List.mem_append.1 ha with ha | ha <;> rcases List.mem_append.1 hc with hc | hc
        · have := is_covered_iff.2 ⟨c, hc, hcovers⟩
          rw [hfree a ha] at this
          cases this
        · rw [List.mem_singleton.1 hc, hbefore b (List.mem_cons_self ..) a ha] at hcovers
          cases hcovers
        · rw [List.mem_singleton.1 ha] at hcovers
          exact hcovered (is_covered_iff.2 ⟨c, hc, hcovers⟩)
        · rw [List.mem_singleton.1 ha, List.mem_singleton.1 hc,
            hself b (List.mem_cons_self ..)] at hcovers
          cases hcovers

/-- The reading that keeps what none of those that count covers is consistent exactly if what
one of them covers is also covered by one of them that none covers. -/
theorem consistent_first_come_iff :
    Consistent covers items (fun a => is_covered covers (first_come covers [] items) a = false)
      ↔ ∀ a ∈ items, is_covered covers (first_come covers [] items) a = true →
        ∃ b ∈ first_come covers [] items,
          is_covered covers (first_come covers [] items) b = false ∧ covers b a = true := by
  constructor
  · intro h a ha hcovered
    have hkept := (h a ha).not.1 (by simp [hcovered])
    obtain ⟨b, hb, hfree, hcovers⟩ := not_not.1 hkept
    exact ⟨b, mem_first_come hb hfree, hfree, hcovers⟩
  · intro h a ha
    constructor
    · rintro hfree ⟨b, hb, hkept, hcovers⟩
      have hcovered := is_covered_iff.2 ⟨b, mem_first_come hb hkept, hcovers⟩
      rw [hfree] at hcovered
      cases hcovered
    · intro hnone
      by_contra hnot
      obtain ⟨b, hb, hfree, hcovers⟩ := h a ha (Bool.eq_true_of_not_eq_false hnot)
      refine hnone ⟨b, ?_, hfree, hcovers⟩
      exact (mem_of_mem_first_come hb).resolve_left (List.not_mem_nil)

/-- If items cover only later ones, there is one consistent reading at most. -/
theorem consistent_unique (hforward : Forward covers items) {keeps keeps' : α → Prop}
    (h : Consistent covers items keeps) (h' : Consistent covers items keeps') :
    ∀ a ∈ items, keeps a ↔ keeps' a := by
  induction items using List.reverseRecOn with
  | nil => exact fun a ha => (nomatch ha)
  | append_singleton items last ih =>
    obtain ⟨hself, hpairwise⟩ := hforward
    obtain ⟨hitems, -, hlast⟩ := List.pairwise_append.1 hpairwise
    have hbefore : ∀ a ∈ items, covers last a = false := fun a ha =>
      hlast a ha last (List.mem_singleton_self last)
    have hgrow : ∀ {keeps : α → Prop}, Consistent covers (items ++ [last]) keeps →
        Consistent covers items keeps := by
      intro keeps h a ha
      rw [h a (List.mem_append_left _ ha), not_iff_not]
      constructor
      · rintro ⟨b, hb, hkeeps, hcovers⟩
        rcases List.mem_append.1 hb with hb | hb
        · exact ⟨b, hb, hkeeps, hcovers⟩
        · rw [List.mem_singleton.1 hb, hbefore a ha] at hcovers
          cases hcovers
      · rintro ⟨b, hb, hkeeps, hcovers⟩
        exact ⟨b, List.mem_append_left _ hb, hkeeps, hcovers⟩
    have hsame := ih ⟨fun a ha => hself a (List.mem_append_left _ ha), hitems⟩
      (hgrow h) (hgrow h')
    have hnone : covers last last = false :=
      hself last (List.mem_append_right _ (List.mem_singleton_self last))
    intro a ha
    rcases List.mem_append.1 ha with ha | ha
    · exact hsame a ha
    · obtain rfl := List.mem_singleton.1 ha
      rw [h a (List.mem_append_right _ ha), h' a (List.mem_append_right _ ha), not_iff_not]
      refine exists_congr fun b => ⟨?_, ?_⟩
      · rintro ⟨hb, hkeeps, hcovers⟩
        rcases List.mem_append.1 hb with hb' | hb'
        · exact ⟨hb, (hsame b hb').1 hkeeps, hcovers⟩
        · rw [List.mem_singleton.1 hb', hnone] at hcovers
          cases hcovers
      · rintro ⟨hb, hkeeps, hcovers⟩
        rcases List.mem_append.1 hb with hb' | hb'
        · exact ⟨hb, (hsame b hb').2 hkeeps, hcovers⟩
        · rw [List.mem_singleton.1 hb', hnone] at hcovers
          cases hcovers

/-- **The one consistent reading**, if items cover only later ones. -/
theorem consistent_iff_first_come (hforward : Forward covers items) {keeps : α → Prop} :
    Consistent covers items keeps
      ↔ ∀ a ∈ items, keeps a ↔ is_covered covers (first_come covers [] items) a = false := by
  have hconsistent : Consistent covers items
      fun a => is_covered covers (first_come covers [] items) a = false := by
    refine consistent_first_come_iff.2 fun a _ hcovered => ?_
    obtain ⟨b, hb, hcovers⟩ := is_covered_iff.1 hcovered
    exact ⟨b, hb, first_come_free hforward (by simp) (by simp) b hb, hcovers⟩
  constructor
  · exact fun h => consistent_unique hforward h hconsistent
  · intro h a ha
    refine (h a ha).trans ((hconsistent a ha).trans (not_congr ?_))
    refine exists_congr fun b => and_congr_right fun hb => ?_
    rw [h b hb]

end Covering

end AgentSpace.Lib
