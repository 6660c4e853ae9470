/-
Simulated typing: what is sent of a message, and after how long.

The message is cut at its blank lines outside of code fences. A paragraph is a run of `items`,
fenced blocks and single lines, between blank lines (`split_into_paragraphs_eq`). The delays are
within their bounds whatever the float arithmetic gives; there are none if a number is too large
for a float (`plan_iff`).
-/
import AgentSpace.Discord.Chunks
import AgentSpace.Lib.Trimming

set_option autoImplicit false

namespace AgentSpace.Discord

open Telemetry (Str str)
open PyText

/-! ## Delays -/

/-- Half way between the largest float and 2 ** 1024: from here on, a number is too large. -/
def FLOAT_LIMIT : ℕ := 2 ^ 970 * (2 ^ 54 - 1)

/-- The floats, as far as delays are made of them. -/
structure Floats (F : Type) where
  /-- `float(n)`; `none` is an `OverflowError`. -/
  of_int : ℤ → Option F
  mul : F → F → F
  /-- `a / b`, for a `b` that is not zero. -/
  div : F → F → F
  lt : F → F → Bool
  le : F → F → Bool
  /-- `60.0`. -/
  sixty : F
  /-- `0.0`. -/
  zero : F
  le_of_lt : ∀ a b, lt a b = true → le a b = true
  /-- What is compared is no NaN. -/
  le_self : ∀ a b, le a b = true → le a a = true ∧ le b b = true
  of_int_isSome : ∀ n, (of_int n).isSome = true ↔ n.natAbs < FLOAT_LIMIT

/-- `SimulatedTypingConfig`. -/
structure SimulatedTypingConfig (F : Type) where
  enabled : Bool
  wpm : ℤ
  min_delay_s : F
  max_delay_s : F

/-- `TypingChunk`. -/
structure TypingChunk (F : Type) where
  delay_s : F
  content : Str
  deriving DecidableEq

/-- `text.split()`. -/
def split_words (text : Str) : List Str := (text.splitOnP is_space).filter fun word => !word.isEmpty

section Delays

variable {F : Type} (floats : Floats F)

/-- `min(a, b)`. -/
def Floats.min (a b : F) : F := if floats.lt b a then b else a

/-- `max(a, b)`. -/
def Floats.max (a b : F) : F := if floats.lt a b then b else a

/-- `_typing_delay_for`; `none` is an `OverflowError`. -/
def typing_delay_for (paragraph : Str) (config : SimulatedTypingConfig F) : Option F := do
  let words : ℤ := max 1 (split_words paragraph).length
  let words ← floats.of_int words
  let wpm ← floats.of_int (max 1 config.wpm)
  let seconds := floats.div (floats.mul words floats.sixty) wpm
  some (floats.min config.max_delay_s (floats.max config.min_delay_s seconds))

/-- `plan_simulated_typing`, with its delays. -/
def plan_typing (message : Str) (config : SimulatedTypingConfig F) : Option (List (TypingChunk F)) :=
  if (strip message).isEmpty then some []
  else if !config.enabled then some [⟨floats.zero, message⟩]
  else (split_into_paragraphs message).mapM fun para =>
    (typing_delay_for floats para config).map fun delay => ⟨delay, para⟩

/-- A delay is within the bounds, if they leave anything between them. -/
theorem delay_within {paragraph : Str} {config : SimulatedTypingConfig F} {delay : F}
    (h : typing_delay_for floats paragraph config = some delay)
    (hbounds : floats.le config.min_delay_s config.max_delay_s = true) :
    floats.le config.min_delay_s delay = true ∧ floats.le delay config.max_delay_s = true := by
  obtain ⟨hmin, hmax⟩ := floats.le_self _ _ hbounds
  simp only [typing_delay_for, Option.bind_eq_bind, Option.bind_eq_some_iff, Option.some.injEq] at h
  obtain ⟨words, -, wpm, -, rfl⟩ := h
  generalize floats.div (floats.mul words floats.sixty) wpm = seconds
  unfold Floats.min Floats.max
  split_ifs with hlow hhigh hhigh
  · exact ⟨floats.le_of_lt _ _ hlow, floats.le_of_lt _ _ hhigh⟩
  · exact ⟨hbounds, hmax⟩
  · exact ⟨hmin, floats.le_of_lt _ _ hhigh⟩
  · exact ⟨hbounds, hmax⟩

theorem lt_two_pow_mul {n : ℕ} (h : n < 2 ^ 54 - 1) (k : ℕ) : n < 2 ^ k * (2 ^ 54 - 1) :=
  Nat.lt_of_lt_of_le h (Nat.le_mul_of_pos_left _ (Nat.two_pow_pos k))

theorem lt_float_limit {n : ℕ} (h : n < 2 ^ 54 - 1) : n < FLOAT_LIMIT := lt_two_pow_mul h 970

theorem natAbs_max_one_lt {n : ℤ} : (max 1 n).natAbs < FLOAT_LIMIT ↔ n < FLOAT_LIMIT := by
  have hone : 1 < FLOAT_LIMIT := lt_float_limit (by norm_num)
  generalize FLOAT_LIMIT = limit at *
  omega

/-- There is a delay unless a number is too large for a float. -/
theorem delay_isSome_iff {paragraph : Str} {config : SimulatedTypingConfig F} :
    (typing_delay_for floats paragraph config).isSome = true
      ↔ (split_words paragraph).length < FLOAT_LIMIT ∧ config.wpm < FLOAT_LIMIT := by
  have hwords := floats.of_int_isSome (max 1 ((split_words paragraph).length : ℤ))
  have hwpm := floats.of_int_isSome (max 1 config.wpm)
  rw [natAbs_max_one_lt, Int.ofNat_lt] at hwords
  rw [natAbs_max_one_lt] at hwpm
  rw [← hwords, ← hwpm]
  unfold typing_delay_for
  dsimp only
  cases floats.of_int (max 1 ((split_words paragraph).length : ℤ)) with
  | none => simp
  | some words =>
    cases floats.of_int (max 1 config.wpm) with
    | none => simp
    | some wpm => simp

end Delays

/-! ## Fenced blocks -/

/-- What the lines of a message make: fenced blocks, from a fence line to the next or to the end,
and the lines outside of them. -/
inductive Item where
  | blank (line : Str)
  | plain (line : Str)
  | fenced (lines : List Str)
  deriving DecidableEq

/-- The lines of an item. -/
def Item.lines : Item → List Str
  | .blank line => [line]
  | .plain line => [line]
  | .fenced lines => lines

/-- It is a blank line. -/
def Item.is_blank : Item → Bool
  | .blank _ => true
  | _ => false

/-- The items of some lines, behind those of a block that has begun. -/
def items : Option (List Str) → List Str → List Item
  | none, [] => []
  | some block, [] => [.fenced block]
  | none, line :: lines =>
    if is_code_fence line then items (some [line]) lines
    else if is_blank line then .blank line :: items none lines
    else .plain line :: items none lines
  | some block, line :: lines =>
    if is_code_fence line then .fenced (block ++ [line]) :: items none lines
    else items (some (block ++ [line])) lines

/-- The runs of items between blank lines, behind those of a run that has begun. -/
def runs : List Item → List Item → List (List Item)
  | run, [] => if run = [] then [] else [run]
  | run, item :: rest =>
    if item.is_blank then (if run = [] then runs [] rest else run :: runs [] rest)
    else runs (run ++ [item]) rest

/-- The text of a run. -/
def run_text (run : List Item) : Str := rstrip ([newline].intercalate (run.flatMap Item.lines))

theorem runs_of_blank {item : Item} (h : item.is_blank = true) (run rest : List Item) :
    runs run (item :: rest) = (if run = [] then [] else [run]) ++ runs [] rest := by
  rw [runs, if_pos h]
  split_ifs
  · rfl
  · rfl

theorem runs_of_not_blank {item : Item} (h : item.is_blank = false) (run rest : List Item) :
    runs run (item :: rest) = runs (run ++ [item]) rest := by
  rw [runs, if_neg (by rw [h]; exact Bool.false_ne_true)]

theorem flatten_runs (rest : List Item) : ∀ run : List Item, (∀ item ∈ run, item.is_blank = false) →
    (runs run rest).flatten = (run ++ rest).filter (fun item => !item.is_blank)
      ∧ ∀ r ∈ runs run rest, r ≠ [] ∧ ∀ item ∈ r, item.is_blank = false := by
  induction rest with
  | nil =>
    intro run hrun
    have hkept : run.filter (fun item => !item.is_blank) = run :=
      List.filter_eq_self.2 fun item hitem => by rw [hrun item hitem]; rfl
    rw [runs, List.append_nil, hkept]
    split_ifs with hnil
    · exact ⟨hnil.symm, by simp⟩
    · refine ⟨by simp, fun r hr => ?_⟩
      rw [List.mem_singleton.1 hr]
      exact ⟨hnil, hrun⟩
  | cons item rest ih =>
    intro run hrun
    have hkept : run.filter (fun item => !item.is_blank) = run :=
      List.filter_eq_self.2 fun item hitem => by rw [hrun item hitem]; rfl
    cases hitem : item.is_blank with
    | true =>
      obtain ⟨hflat, hall⟩ := ih [] (by simp)
      rw [runs_of_blank hitem, List.filter_append, hkept, List.filter_cons_of_neg (by simp [hitem])]
      rw [List.nil_append] at hflat
      split_ifs with hnil
      · rw [hnil, List.nil_append, List.nil_append]
        exact ⟨hflat, hall⟩
      · rw [List.singleton_append, List.flatten_cons, hflat]
        exact ⟨rfl, List.forall_mem_cons.2 ⟨⟨hnil, hrun⟩, hall⟩⟩
    | false =>
      rw [runs_of_not_blank hitem]
      have hmore : ∀ i ∈ run ++ [item], i.is_blank = false := by
        intro i hi
        rcases List.mem_append.1 hi with hi | hi
        · exact hrun i hi
        · rw [List.mem_singleton.1 hi]
          exact hitem
      have hnext := ih (run ++ [item]) hmore
      rwa [List.append_assoc, List.singleton_append] at hnext

/-! ## Paragraphs are runs of items -/

/-- There is something in the item that is no white space. -/
def Item.Solid (item : Item) : Prop := squash_all item.lines ≠ []

variable {line : Str}

theorem is_blank_false_iff : is_blank line = false ↔ squash line ≠ [] := by
  rw [← Bool.not_eq_true, is_blank_iff]

theorem not_blank_of_fence (h : is_code_fence line = true) : squash line ≠ [] := by
  obtain ⟨rest, hrest⟩ := List.isPrefixOf_iff_prefix.1 h
  have hmark : squash (str "```") = str "```" := by decide
  have hstrip : squash (lstrip line) = squash line := squash_dropWhile line
  rw [← hstrip, ← hrest, squash_append, hmark]
  exact fun hnil => absurd (List.append_eq_nil_iff.1 hnil).1 (by decide)

variable {run : List Item}

theorem squash_all_flatMap_ne_nil (hne : run ≠ []) (hsolid : ∀ item ∈ run, item.Solid) :
    squash_all (run.flatMap Item.lines) ≠ [] := by
  obtain ⟨item, rest, rfl⟩ := List.exists_cons_of_ne_nil hne
  rw [List.flatMap_cons, squash_all_append]
  exact fun hnil => hsolid item List.mem_cons_self (List.append_eq_nil_iff.1 hnil).1

theorem squash_run_text (run : List Item) : squash (run_text run) = squash_all (run.flatMap Item.lines) := by
  rw [run_text, squash_rstrip, squash_intercalate_newline]

/-- What `flush` makes of the lines of a run. -/
theorem flush_run (hsolid : ∀ item ∈ run, item.Solid) (paragraphs : List Str) (in_fence : Bool) :
    Paragraphs.flush ⟨paragraphs, run.flatMap Item.lines, in_fence⟩
      = ⟨paragraphs ++ if run = [] then [] else [run_text run], [], in_fence⟩ := by
  by_cases hne : run = []
  · subst hne
    simp [Paragraphs.flush, rstrip]
  · have htext : (run_text run).isEmpty = false := by
      rw [List.isEmpty_eq_false_iff]
      intro hnil
      refine squash_all_flatMap_ne_nil hne hsolid ?_
      rw [← squash_run_text, hnil]
      rfl
    have hempty : ¬ (rstrip ([newline].intercalate (run.flatMap Item.lines))).isEmpty = true := by
      rw [← run_text, htext]
      simp
    simp only [Paragraphs.flush, if_neg hempty, if_neg hne]
    rfl

variable (lines : List Str)

/-- The loop over the lines makes the runs of the items. -/
theorem foldl_paragraph_line :
    ∀ (run : List Item) (paragraphs : List Str), (∀ item ∈ run, item.Solid) →
      (lines.foldl paragraph_line ⟨paragraphs, run.flatMap Item.lines, false⟩).flush.paragraphs
          = paragraphs ++ (runs run (items none lines)).map run_text
        ∧ ∀ block, squash_all block ≠ [] →
          (lines.foldl paragraph_line ⟨paragraphs, run.flatMap Item.lines ++ block, true⟩).flush.paragraphs
            = paragraphs ++ (runs run (items (some block) lines)).map run_text := by
  have hfenced : ∀ (run : List Item) (block : List Str),
      (run ++ [Item.fenced block]).flatMap Item.lines = run.flatMap Item.lines ++ block := by
    intro run block
    simp [Item.lines]
  have hsnoc : ∀ {run : List Item} (item : Item), (∀ i ∈ run, i.Solid) → item.Solid →
      ∀ i ∈ run ++ [item], i.Solid := by
    intro run item hrun hitem i hi
    rcases List.mem_append.1 hi with hi | hi
    · exact hrun i hi
    · rwa [List.mem_singleton.1 hi]
  induction lines with
  | nil =>
    intro run paragraphs hsolid
    refine ⟨?_, fun block hblock => ?_⟩
    · rw [List.foldl_nil, flush_run hsolid, items, runs]
      split_ifs
      · rfl
      · rfl
    · have hrun := hsnoc (.fenced block) hsolid hblock
      have hne : run ++ [Item.fenced block] ≠ [] := by simp
      rw [List.foldl_nil, ← hfenced, flush_run hrun, items, runs_of_not_blank rfl, runs, if_neg hne,
        if_neg hne]
      rfl
  | cons line lines ih =>
    intro run paragraphs hsolid
    refine ⟨?_, fun block hblock => ?_⟩
    · rw [List.foldl_cons, paragraph_line, items]
      by_cases hfence : is_code_fence line = true
      · -- a block begins
        rw [if_pos hfence, if_pos hfence]
        exact (ih run paragraphs hsolid).2 [line] (by
          rw [squash_all_singleton]
          exact not_blank_of_fence hfence)
      · rw [if_neg hfence, if_neg hfence]
        cases hblank : is_blank line with
        | true =>
          simp only [Bool.not_false, Bool.and_self, if_true]
          rw [flush_run hsolid, runs_of_blank rfl]
          have hnext := (ih [] (paragraphs ++ if run = [] then [] else [run_text run]) (by simp)).1
          rw [List.flatMap_nil] at hnext
          rw [hnext, List.map_append, List.append_assoc]
          split_ifs
          · rfl
          · rfl
        | false =>
          simp only [Bool.not_false, Bool.and_false, if_false, Bool.false_eq_true]
          rw [runs_of_not_blank rfl]
          have hplain : (Item.plain line).Solid := by
            show squash_all [line] ≠ []
            rw [squash_all_singleton]
            exact is_blank_false_iff.1 hblank
          have hnext := (ih (run ++ [.plain line]) paragraphs (hsnoc _ hsolid hplain)).1
          rw [show (run ++ [Item.plain line]).flatMap Item.lines = run.flatMap Item.lines ++ [line] by
            simp [Item.lines]] at hnext
          exact hnext
    · rw [List.foldl_cons, paragraph_line, items]
      have hblock' : squash_all (block ++ [line]) ≠ [] := by
        rw [squash_all_append]
        exact fun hnil => hblock (List.append_eq_nil_iff.1 hnil).1
      by_cases hfence : is_code_fence line = true
      · -- the block ends
        rw [if_pos hfence, if_pos hfence, runs_of_not_blank rfl]
        have hnext := (ih (run ++ [.fenced (block ++ [line])]) paragraphs
          (hsnoc (.fenced (block ++ [line])) hsolid hblock')).1
        rw [hfenced] at hnext
        rw [List.append_assoc]
        exact hnext
      · rw [if_neg hfence, if_neg hfence]
        have hnext := (ih run paragraphs hsolid).2 (block ++ [line]) hblock'
        simp only [Bool.not_true, Bool.false_and, if_false, Bool.false_eq_true]
        rw [List.append_assoc]
        exact hnext

/-! ## A paragraph, read again -/

/-- There is a blank line outside of the fences, the lines being read from inside or outside of
one. -/
def blank_outside : Bool → List Str → Bool
  | _, [] => false
  | in_fence, line :: lines =>
    if is_code_fence line then blank_outside (!in_fence) lines
    else (!in_fence && is_blank line) || blank_outside in_fence lines

/-- Whether the end of some lines is inside a fence. -/
def fence_after (in_fence : Bool) (lines : List Str) : Bool :=
  lines.foldl (fun f line => if is_code_fence line then !f else f) in_fence

theorem blank_outside_append (lines more : List Str) (in_fence : Bool) :
    blank_outside in_fence (lines ++ more)
      = (blank_outside in_fence lines || blank_outside (fence_after in_fence lines) more) := by
  induction lines generalizing in_fence with
  | nil => rfl
  | cons line lines ih =>
    have hafter : fence_after in_fence (line :: lines)
        = fence_after (if is_code_fence line then !in_fence else in_fence) lines := rfl
    rw [List.cons_append, blank_outside, blank_outside, ih, ih, hafter]
    split_ifs
    · rfl
    · rw [Bool.or_assoc]

/-- No character of the line ends one. -/
def OneLine (line : Str) : Prop := ∀ c ∈ line, is_line_end c = false

variable {c : Fin 0x110000}

theorem oneLine_cons :
    OneLine (c :: line) ↔ is_line_end c = false ∧ OneLine line := List.forall_mem_cons

theorem is_line_end_newline : is_line_end newline = true := by decide

theorem val_ne_of_not_line_end (h : is_line_end c = false) : c.val ≠ 13 := by
  intro hc
  simp [is_line_end, hc] at h

theorem splitlines_cons (hc : is_line_end c = false) {rest : Str} (hne : rest ≠ []) :
    splitlines (c :: rest) = extend_first c (splitlines rest) := by
  obtain ⟨d, more, rfl⟩ := List.exists_cons_of_ne_nil hne
  rw [splitlines, if_neg fun h => val_ne_of_not_line_end hc h.1, if_neg (by rw [hc]; exact Bool.false_ne_true)]

theorem splitlines_newline (rest : Str) : splitlines (newline :: rest) = [] :: splitlines rest := by
  cases rest with
  | nil => decide
  | cons d more =>
    rw [splitlines, if_neg (fun h => absurd h.1 (by decide)), if_pos is_line_end_newline]

theorem splitlines_append (h : OneLine line) (rest : Str) :
    splitlines (line ++ newline :: rest) = line :: splitlines rest := by
  induction line with
  | nil => exact splitlines_newline rest
  | cons c line ih =>
    obtain ⟨hc, hline⟩ := oneLine_cons.1 h
    rw [List.cons_append, splitlines_cons hc (by simp), ih hline, extend_first]

theorem splitlines_single (h : OneLine line) (hne : line ≠ []) : splitlines line = [line] := by
  induction line with
  | nil => exact absurd rfl hne
  | cons c line ih =>
    obtain ⟨hc, hline⟩ := oneLine_cons.1 h
    cases line with
    | nil => rw [splitlines, if_neg (by rw [hc]; exact Bool.false_ne_true)]
    | cons d more => rw [splitlines_cons hc (by simp), ih hline (by simp), extend_first]

/-- Lines that are joined are split again, if the last is not empty. -/
theorem splitlines_join {last : Str} (h : ∀ line ∈ lines, OneLine line)
    (hlast : OneLine last) (hne : last ≠ []) :
    splitlines ([newline].intercalate (lines ++ [last])) = lines ++ [last] := by
  induction lines with
  | nil => rw [List.nil_append, List.intercalate_singleton, splitlines_single hlast hne]
  | cons line lines ih =>
    have hmost : lines ++ [last] ≠ [] := by simp
    obtain ⟨second, more, hmore⟩ := List.exists_cons_of_ne_nil hmost
    rw [List.cons_append, hmore, List.intercalate_cons_cons, ← hmore, List.append_assoc,
      List.singleton_append, splitlines_append (h line List.mem_cons_self), ih fun l hl =>
        h l (List.mem_cons_of_mem _ hl)]

theorem oneLine_of_splitlines {text : Str} : ∀ line ∈ splitlines text, OneLine line := by
  have hfirst : ∀ (c : Fin 0x110000) (lines : List Str), is_line_end c = false →
      (∀ line ∈ lines, OneLine line) → ∀ line ∈ extend_first c lines, OneLine line := by
    intro c lines hc hlines line hline
    cases lines with
    | nil =>
      rw [extend_first, List.mem_singleton] at hline
      rw [hline]
      exact oneLine_cons.2 ⟨hc, by intro d hd; cases hd⟩
    | cons first more =>
      rw [extend_first] at hline
      rcases List.mem_cons.1 hline with rfl | hline
      · exact oneLine_cons.2 ⟨hc, hlines first List.mem_cons_self⟩
      · exact hlines line (List.mem_cons_of_mem _ hline)
  have hnil : OneLine [] := by intro c hc; cases hc
  fun_induction splitlines text with
  | case1 => simp
  | case2 c hc => simpa using hnil
  | case3 c hc => exact hfirst c [] (by simpa using hc) (by simp)
  | case4 c d rest h ih | case5 c d rest _ hc ih => exact List.forall_mem_cons.2 ⟨hnil, ih⟩
  | case6 c d rest _ hc ih => exact hfirst c _ (by simpa using hc) ih

theorem intercalate_concat :
    ∃ tail : Str, (∀ c ∈ tail, is_space c = true)
      ∧ ∀ line, [newline].intercalate (lines ++ [line]) = [newline].intercalate lines ++ tail ++ line := by
  induction lines with
  | nil => exact ⟨[], by simp, fun line => by rw [List.nil_append, List.intercalate_singleton]; rfl⟩
  | cons first lines ih =>
    cases lines with
    | nil =>
      refine ⟨[newline], fun c hc => ?_, fun line => ?_⟩
      · rw [List.mem_singleton.1 hc]
        exact is_space_newline
      · rw [List.singleton_append, List.intercalate_cons_cons, List.intercalate_singleton,
          List.intercalate_singleton]
    | cons second lines =>
      obtain ⟨tail, htail, hjoin⟩ := ih
      refine ⟨tail, htail, fun line => ?_⟩
      rw [List.cons_append, List.cons_append, List.intercalate_cons_cons, ← List.cons_append, hjoin,
        List.intercalate_cons_cons]
      simp only [List.append_assoc]

theorem is_blank_iff_forall : is_blank line = true ↔ ∀ c ∈ line, is_space c = true := by
  rw [is_blank_iff, squash, List.filter_eq_nil_iff]
  simp

theorem rstrip_append (h : is_blank line = false) (text : Str) :
    rstrip (text ++ line) = text ++ rstrip line := by
  have hline : (line.reverse.dropWhile is_space).isEmpty = false := by
    rw [List.isEmpty_eq_false_iff, ne_eq, List.dropWhile_eq_nil_iff]
    intro hall
    have hblank := is_blank_iff_forall.2 fun c hc => hall c (List.mem_reverse.2 hc)
    rw [h] at hblank
    exact Bool.false_ne_true hblank
  rw [rstrip, List.rdropWhile, List.reverse_append, List.dropWhile_append, hline, if_neg Bool.false_ne_true,
    List.reverse_append, List.reverse_reverse, rstrip, List.rdropWhile]

/-- Taking the white space from the end of joined lines leaves out the blank lines there, and the
white space at the end of the line before them. -/
theorem rstrip_join :
    rstrip ([newline].intercalate lines) = []
      ∨ ∃ before line after, lines = before ++ line :: after ∧ is_blank line = false
        ∧ rstrip ([newline].intercalate lines) = [newline].intercalate (before ++ [rstrip line]) := by
  induction lines using List.reverseRecOn with
  | nil => exact Or.inl (by decide)
  | append_singleton lines last ih =>
    obtain ⟨tail, htail, hjoin⟩ := intercalate_concat lines
    cases hlast : is_blank last with
    | true =>
      have hrest : rstrip ([newline].intercalate (lines ++ [last]))
          = rstrip ([newline].intercalate lines) := by
        rw [hjoin, List.append_assoc]
        refine Lib.rdropWhile_append_blank (fun c hc => ?_) _
        rcases List.mem_append.1 hc with hc | hc
        · exact htail c hc
        · exact is_blank_iff_forall.1 hlast c hc
      rw [hrest]
      refine ih.imp id ?_
      rintro ⟨before, line, after, hlines, hline, htext⟩
      refine ⟨before, line, after ++ [last], ?_, hline, htext⟩
      rw [hlines, List.append_assoc, List.cons_append]
    | false => exact Or.inr ⟨lines, last, [], rfl, hlast, by rw [hjoin, rstrip_append hlast, ← hjoin]⟩

theorem is_blank_rstrip (line : Str) : is_blank (rstrip line) = is_blank line := by
  rw [Bool.eq_iff_iff, is_blank_iff, is_blank_iff, squash_rstrip]

theorem oneLine_rstrip (h : OneLine line) : OneLine (rstrip line) :=
  fun c hc => h c ((List.rdropWhile_prefix _ _).subset hc)

/-- **What is read of a run's text**: if there is no blank line outside of a fence in the lines,
there is none in the text they make. -/
theorem blank_outside_text {lines : List Str} (hlines : ∀ line ∈ lines, OneLine line)
    (h : blank_outside false lines = false) :
    blank_outside false (splitlines (rstrip ([newline].intercalate lines))) = false := by
  rcases rstrip_join lines with hnil | ⟨before, line, after, rfl, hline, htext⟩
  · rw [hnil]
    rfl
  · have hkept : is_blank (rstrip line) = false := by rw [is_blank_rstrip, hline]
    have hne : rstrip line ≠ [] := by
      intro hnil
      rw [hnil] at hkept
      exact absurd hkept (by decide)
    rw [blank_outside_append, Bool.or_eq_false_iff] at h
    rw [htext, splitlines_join before (fun l hl => hlines l (List.mem_append_left _ hl))
      (oneLine_rstrip (hlines line (by simp))) hne, blank_outside_append, h.1, Bool.false_or]
    simp [blank_outside, hkept]

theorem blank_outside_concat (line : Str) :
    blank_outside false (lines ++ [line])
      = (blank_outside false lines
        || (!is_code_fence line && !fence_after false lines && is_blank line)) := by
  rw [blank_outside_append, blank_outside]
  split_ifs with hfence
  · rw [hfence]
    rfl
  · rw [Bool.not_eq_true _ |>.mp hfence, blank_outside, Bool.or_false, Bool.not_false, Bool.true_and]

theorem fence_after_concat (line : Str) :
    fence_after false (lines ++ [line])
      = if is_code_fence line then !fence_after false lines else fence_after false lines := by
  rw [fence_after, List.foldl_append, List.foldl_cons, List.foldl_nil, fence_after]

/-- The lines of a run have no blank line outside of a fence. -/
theorem blank_outside_runs :
    ∀ run : List Item, (∀ block, blank_outside false (run.flatMap Item.lines ++ block) = false →
        fence_after false (run.flatMap Item.lines ++ block) = true →
        ∀ r ∈ runs run (items (some block) lines), blank_outside false (r.flatMap Item.lines) = false)
      ∧ (blank_outside false (run.flatMap Item.lines) = false →
        fence_after false (run.flatMap Item.lines) = false →
        ∀ r ∈ runs run (items none lines), blank_outside false (r.flatMap Item.lines) = false) := by
  have hfenced : ∀ (run : List Item) (block : List Str),
      (run ++ [Item.fenced block]).flatMap Item.lines = run.flatMap Item.lines ++ block := by
    intro run block
    simp [Item.lines]
  have hplain : ∀ (run : List Item) (line : Str),
      (run ++ [Item.plain line]).flatMap Item.lines = run.flatMap Item.lines ++ [line] := by
    intro run line
    simp [Item.lines]
  have hlast : ∀ run : List Item, blank_outside false (run.flatMap Item.lines) = false →
      ∀ r ∈ runs run [], blank_outside false (r.flatMap Item.lines) = false := by
    intro run hrun r hr
    rw [runs] at hr
    split_ifs at hr
    · cases hr
    · rwa [List.mem_singleton.1 hr]
  induction lines with
  | nil =>
    intro run
    refine ⟨fun block hblock _ => ?_, fun hrun _ => hlast run hrun⟩
    rw [items, runs_of_not_blank rfl]
    exact hlast _ (by rwa [hfenced])
  | cons line lines ih =>
    intro run
    refine ⟨fun block hblock hinside => ?_, fun hrun houtside => ?_⟩
    · rw [items]
      have hmore : blank_outside false (run.flatMap Item.lines ++ (block ++ [line])) = false := by
        rw [← List.append_assoc, blank_outside_concat, hblock, hinside]
        simp
      have hafter := fence_after_concat (run.flatMap Item.lines ++ block) line
      rw [hinside, List.append_assoc] at hafter
      by_cases hfence : is_code_fence line = true
      · rw [if_pos hfence] at hafter ⊢
        rw [runs_of_not_blank rfl]
        exact (ih (run ++ [.fenced (block ++ [line])])).2 (by rwa [hfenced]) (by rwa [hfenced])
      · rw [if_neg hfence] at hafter ⊢
        exact (ih run).1 (block ++ [line]) hmore hafter
    · rw [items]
      have hmore := blank_outside_concat (run.flatMap Item.lines) line
      have hafter := fence_after_concat (run.flatMap Item.lines) line
      rw [hrun, Bool.false_or, houtside] at hmore
      rw [houtside] at hafter
      by_cases hfence : is_code_fence line = true
      · rw [if_pos hfence] at hafter ⊢
        rw [hfence, Bool.not_true, Bool.false_and, Bool.false_and] at hmore
        exact (ih run).1 [line] hmore hafter
      · rw [if_neg hfence] at hafter ⊢
        cases hblank : is_blank line with
        | true =>
          rw [if_pos rfl, runs_of_blank rfl]
          have hrest := (ih []).2 rfl rfl
          intro r hr
          rcases List.mem_append.1 hr with hr | hr
          · split_ifs at hr
            · cases hr
            · rwa [List.mem_singleton.1 hr]
          · exact hrest r hr
        | false =>
          rw [if_neg Bool.false_ne_true, runs_of_not_blank rfl]
          rw [hblank, Bool.and_false] at hmore
          exact (ih (run ++ [.plain line])).2 (by rwa [hplain]) (by rwa [hplain])

/-- **Paragraphs** are the runs of items between blank lines. -/
theorem split_into_paragraphs_eq (message : Str) :
    split_into_paragraphs message = (runs [] (items none (splitlines message))).map run_text := by
  have hfold := (foldl_paragraph_line (splitlines message) [] [] (by simp)).1
  rwa [List.nil_append] at hfold

/-- An item has white space only if it is a blank line. -/
theorem solid_items : (∀ item ∈ items none lines, item.is_blank = false → item.Solid)
      ∧ ∀ block, squash_all block ≠ [] →
        ∀ item ∈ items (some block) lines, item.is_blank = false → item.Solid := by
  induction lines with
  | nil =>
    refine ⟨by simp [items], fun block hblock item hitem _ => ?_⟩
    rw [items, List.mem_singleton] at hitem
    rwa [hitem]
  | cons line lines ih =>
    refine ⟨?_, fun block hblock => ?_⟩
    · rw [items]
      by_cases hfence : is_code_fence line = true
      · rw [if_pos hfence]
        exact ih.2 [line] (by
          rw [squash_all_singleton]
          exact not_blank_of_fence hfence)
      · rw [if_neg hfence]
        cases hblank : is_blank line with
        | true => exact List.forall_mem_cons.2 ⟨fun h => Bool.noConfusion h, ih.1⟩
        | false =>
          refine List.forall_mem_cons.2 ⟨fun _ => ?_, ih.1⟩
          show squash_all [line] ≠ []
          rw [squash_all_singleton]
          exact is_blank_false_iff.1 hblank
    · have hmore : squash_all (block ++ [line]) ≠ [] := by
        rw [squash_all_append]
        exact fun hnil => hblock (List.append_eq_nil_iff.1 hnil).1
      rw [items]
      split_ifs
      · exact List.forall_mem_cons.2 ⟨fun _ => hmore, ih.1⟩
      · exact ih.2 _ hmore

/-! ## The plan -/

/-- The runs of a message. -/
def message_runs (message : Str) : List (List Item) := runs [] (items none (splitlines message))

variable {message : Str}

theorem solid_of_mem_runs (h : run ∈ message_runs message) : run ≠ [] ∧ ∀ item ∈ run, item.Solid := by
  obtain ⟨hflat, hall⟩ := flatten_runs (items none (splitlines message)) [] (by simp)
  refine ⟨(hall run h).1, fun item hitem => ?_⟩
  have hmem : item ∈ (message_runs message).flatten := List.mem_flatten_of_mem h hitem
  rw [message_runs, hflat, List.nil_append] at hmem
  exact (solid_items (splitlines message)).1 item (List.mem_filter.1 hmem).1 ((hall run h).2 item hitem)

theorem squash_run_text_ne_nil (h : run ∈ message_runs message) : squash (run_text run) ≠ [] := by
  obtain ⟨hne, hsolid⟩ := solid_of_mem_runs h
  rw [squash_run_text]
  exact squash_all_flatMap_ne_nil hne hsolid

theorem lines_of_items : (items none lines).flatMap Item.lines = lines
      ∧ ∀ block, (items (some block) lines).flatMap Item.lines = block ++ lines := by
  induction lines with
  | nil => exact ⟨rfl, fun block => by rw [items, List.flatMap_singleton, List.append_nil]; rfl⟩
  | cons line lines ih =>
    refine ⟨?_, fun block => ?_⟩
    · rw [items]
      split_ifs
      · exact ih.2 [line]
      · rw [List.flatMap_cons, ih.1]
        rfl
      · rw [List.flatMap_cons, ih.1]
        rfl
    · rw [items]
      split_ifs
      · rw [List.flatMap_cons, ih.1, Item.lines, List.append_assoc, List.singleton_append]
      · rw [ih.2, List.append_assoc, List.singleton_append]

theorem blank_outside_run_text (h : run ∈ message_runs message) :
    blank_outside false (splitlines (run_text run)) = false := by
  refine blank_outside_text (fun line hline => ?_) ?_
  · obtain ⟨item, hitem, hin⟩ := List.mem_flatMap.1 hline
    obtain ⟨hflat, -⟩ := flatten_runs (items none (splitlines message)) [] (by simp)
    have hmem : item ∈ (message_runs message).flatten := List.mem_flatten_of_mem h hitem
    rw [message_runs, hflat, List.nil_append] at hmem
    refine (oneLine_of_splitlines : ∀ l ∈ splitlines message, OneLine l) line ?_
    rw [← (lines_of_items (splitlines message)).1]
    exact List.mem_flatMap.2 ⟨item, (List.mem_filter.1 hmem).1, hin⟩
  · exact (blank_outside_runs (splitlines message) []).2 rfl rfl run h

section Plan

variable {F : Type} (floats : Floats F)

variable {config : SimulatedTypingConfig F}

theorem map_delays (paragraphs : List Str) :
    ∀ {chunks : List (TypingChunk F)},
      (paragraphs.mapM fun para => (typing_delay_for floats para config).map fun delay =>
        (⟨delay, para⟩ : TypingChunk F)) = some chunks →
      chunks.map TypingChunk.content = paragraphs
        ∧ ∀ chunk ∈ chunks, typing_delay_for floats chunk.content config = some chunk.delay_s := by
  induction paragraphs with
  | nil =>
    intro chunks h
    rw [List.mapM_nil] at h
    cases h
    exact ⟨rfl, by simp⟩
  | cons para paragraphs ih =>
    intro chunks h
    rw [List.mapM_cons] at h
    simp only [Option.bind_eq_bind, Option.bind_eq_some_iff, Option.map_eq_some_iff, Option.pure_def,
      Option.some.injEq] at h
    obtain ⟨_, ⟨delay, hdelay, rfl⟩, rest, hrest, rfl⟩ := h
    obtain ⟨hcontents, hall⟩ := ih hrest
    exact ⟨by rw [List.map_cons, hcontents], List.forall_mem_cons.2 ⟨hdelay, hall⟩⟩

theorem delays_isSome_iff (paragraphs : List Str) :
    (paragraphs.mapM fun para => (typing_delay_for floats para config).map fun delay =>
        (⟨delay, para⟩ : TypingChunk F)).isSome = true
      ↔ ∀ para ∈ paragraphs, (typing_delay_for floats para config).isSome = true := by
  induction paragraphs with
  | nil => simp
  | cons para paragraphs ih =>
    rw [List.forall_mem_cons, ← ih, List.mapM_cons]
    cases typing_delay_for floats para config with
    | none => simp
    | some delay =>
      cases paragraphs.mapM fun para => (typing_delay_for floats para config).map fun delay =>
          (⟨delay, para⟩ : TypingChunk F) with
      | none => simp
      | some chunks => simp

/-- The message is kept: every chunk has something to send, nothing but white space is lost, each
chunk is a run of whole items, blank lines are where chunks end, and the delays are in bounds. -/
structure KeepsMessage (message : Str) (config : SimulatedTypingConfig F) (chunks : List (TypingChunk F)) :
    Prop where
  not_blank : ∀ chunk ∈ chunks, is_blank chunk.content = false
  same : squash_all (chunks.map TypingChunk.content) = squash message
  undivided : ∃ groups : List (List Item),
    groups.flatten = (items none (splitlines message)).filter (fun item => !item.is_blank)
      ∧ chunks.map TypingChunk.content = groups.map run_text
  no_blank_line : ∀ chunk ∈ chunks, blank_outside false (splitlines chunk.content) = false
  within : floats.le config.min_delay_s config.max_delay_s = true →
    ∀ chunk ∈ chunks, floats.le config.min_delay_s chunk.delay_s = true
      ∧ floats.le chunk.delay_s config.max_delay_s = true

theorem blank_of_no_runs {message : Str} : message_runs message = [] ↔ squash message = [] := by
  rw [← squash_split_into_paragraphs, split_into_paragraphs_eq]
  constructor
  · intro h
    rw [message_runs] at h
    rw [h]
    rfl
  · intro h
    rw [List.eq_nil_iff_forall_not_mem]
    intro run hrun
    exact squash_run_text_ne_nil hrun (squash_eq_nil_of_mem h (List.mem_map_of_mem hrun))

/-- The chunks of a plan are the runs of the message. -/
theorem plan_contents {message : Str} {chunks : List (TypingChunk F)}
    (henabled : config.enabled = true) (h : plan_typing floats message config = some chunks) :
    chunks.map TypingChunk.content = (message_runs message).map run_text
      ∧ ∀ chunk ∈ chunks, typing_delay_for floats chunk.content config = some chunk.delay_s := by
  rw [plan_typing] at h
  by_cases hempty : (strip message).isEmpty = true
  · rw [if_pos hempty] at h
    cases h
    rw [blank_of_no_runs.2 (strip_isEmpty_iff.1 hempty)]
    exact ⟨rfl, by simp⟩
  · rw [if_neg hempty, henabled, Bool.not_true, if_neg Bool.false_ne_true] at h
    obtain ⟨hcontents, hall⟩ := map_delays floats _ h
    rw [split_into_paragraphs_eq] at hcontents
    exact ⟨hcontents, hall⟩

theorem kept_of_plan {message : Str} {chunks : List (TypingChunk F)}
    (henabled : config.enabled = true) (h : plan_typing floats message config = some chunks) :
    KeepsMessage floats message config chunks := by
  obtain ⟨hcontents, hdelays⟩ := plan_contents floats henabled h
  have hrun : ∀ chunk ∈ chunks, ∃ run ∈ message_runs message, run_text run = chunk.content := by
    intro chunk hchunk
    have hmem := List.mem_map_of_mem (f := TypingChunk.content) hchunk
    rw [hcontents] at hmem
    exact List.mem_map.1 hmem
  refine ⟨fun chunk hchunk => ?_, ?_, ⟨message_runs message, ?_, hcontents⟩, fun chunk hchunk => ?_,
    fun hbounds chunk hchunk => delay_within floats (hdelays chunk hchunk) hbounds⟩
  · obtain ⟨run, hmem, htext⟩ := hrun chunk hchunk
    rw [← htext]
    exact is_blank_false_iff.2 (squash_run_text_ne_nil hmem)
  · rw [hcontents, message_runs, ← split_into_paragraphs_eq, squash_split_into_paragraphs]
  · exact (flatten_runs (items none (splitlines message)) [] (by simp)).1
  · obtain ⟨run, hmem, htext⟩ := hrun chunk hchunk
    rw [← htext]
    exact blank_outside_run_text hmem

/-- There is a plan unless a number is too large. -/
theorem plan_isSome_iff {message : Str} (henabled : config.enabled = true) :
    (plan_typing floats message config).isSome = true
      ↔ ∀ run ∈ message_runs message,
        (split_words (run_text run)).length < FLOAT_LIMIT ∧ config.wpm < FLOAT_LIMIT := by
  rw [plan_typing]
  by_cases hempty : (strip message).isEmpty = true
  · rw [if_pos hempty, blank_of_no_runs.2 (strip_isEmpty_iff.1 hempty)]
    exact iff_of_true rfl fun run hrun => absurd hrun List.not_mem_nil
  · rw [if_neg hempty, henabled, Bool.not_true, if_neg Bool.false_ne_true, delays_isSome_iff,
      split_into_paragraphs_eq, List.forall_mem_map]
    exact forall₂_congr fun run _ => delay_isSome_iff floats

/-- **A message that is typed** is kept if and only if it is blank, or its numbers of words and the
speed of typing are not too large for a float. -/
theorem plan_iff {F : Type} (floats : Floats F) (message : Str) (config : SimulatedTypingConfig F)
    (henabled : config.enabled = true) :
    (∃ chunks, plan_typing floats message config = some chunks ∧ KeepsMessage floats message config chunks)
      ↔ squash message = [] ∨ (config.wpm < FLOAT_LIMIT
        ∧ ∀ run ∈ message_runs message, (split_words (run_text run)).length < FLOAT_LIMIT) := by
  rw [← blank_of_no_runs]
  constructor
  · rintro ⟨chunks, hplan, -⟩
    have hsome := (plan_isSome_iff floats henabled).1 (Option.isSome_of_eq_some hplan)
    cases hruns : message_runs message with
    | nil => exact Or.inl rfl
    | cons run rest =>
      rw [hruns] at hsome
      exact Or.inr ⟨(hsome run List.mem_cons_self).2, fun r hr => (hsome r hr).1⟩
  · intro h
    have hsome : (plan_typing floats message config).isSome = true := by
      refine (plan_isSome_iff floats henabled).2 fun run hrun => ?_
      rcases h with hnone | ⟨hwpm, hwords⟩
      · rw [hnone] at hrun
        cases hrun
      · exact ⟨hwords run hrun, hwpm⟩
    obtain ⟨chunks, hplan⟩ := Option.isSome_iff_exists.1 hsome
    exact ⟨chunks, hplan, kept_of_plan floats henabled hplan⟩

end Plan

/-! ## With fractions -/

/-- Fractions in place of floats, with the range that floats have. -/
def fractions : Floats ℚ where
  of_int n := if n.natAbs < FLOAT_LIMIT then some n else none
  mul a b := a * b
  div a b := a / b
  lt a b := decide (a < b)
  le a b := decide (a ≤ b)
  sixty := 60
  zero := 0
  le_of_lt a b h := decide_eq_true (of_decide_eq_true h).le
  le_self a b _ := ⟨decide_eq_true (le_refl a), decide_eq_true (le_refl b)⟩
  of_int_isSome n := by
    split_ifs with h
    · exact iff_of_true rfl h
    · exact iff_of_false Bool.false_ne_true h

/-- A word at the speed there is without a setting. -/
theorem a_word_is_kept : ∃ chunks,
    plan_typing fractions (str "hi") ⟨true, 220, 2 / 5, 12⟩ = some chunks
      ∧ KeepsMessage fractions (str "hi") ⟨true, 220, 2 / 5, 12⟩ chunks := by
  have hruns : message_runs (str "hi") = [[.plain (str "hi")]] := by decide
  have hwords : (split_words (run_text [.plain (str "hi")])).length = 1 := by decide
  refine (plan_iff fractions (str "hi") ⟨true, 220, 2 / 5, 12⟩ rfl).2 (Or.inr ⟨?_, ?_⟩)
  · exact Int.ofNat_lt.2 (lt_float_limit (n := 220) (by norm_num))
  · rw [hruns, List.forall_mem_singleton, hwords]
    exact lt_float_limit (by norm_num)

/-- At a speed that is no float, nothing is sent of a message. -/
theorem too_fast_for_a_float : ¬ ∃ chunks,
    plan_typing fractions (str "hi") ⟨true, FLOAT_LIMIT, 2 / 5, 12⟩ = some chunks
      ∧ KeepsMessage fractions (str "hi") ⟨true, FLOAT_LIMIT, 2 / 5, 12⟩ chunks := by
  rintro ⟨chunks, hplan, -⟩
  have hne : message_runs (str "hi") ≠ [] := fun hnone => absurd (blank_of_no_runs.1 hnone) (by decide)
  obtain ⟨run, rest, hruns⟩ := List.exists_cons_of_ne_nil hne
  have hsome := (plan_isSome_iff fractions rfl).1 (Option.isSome_of_eq_some hplan)
  rw [hruns] at hsome
  exact absurd (hsome run List.mem_cons_self).2 (lt_irrefl _)

end AgentSpace.Discord
