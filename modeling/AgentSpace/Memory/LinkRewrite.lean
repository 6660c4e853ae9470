/-
What `parse_links` and `rewrite_links` do, in terms of the chunks of a body.

`parse_links_eq` reads the links off the chunks, `rewrite_links_eq` says the
rewritten body is the body with some targets replaced, and
`chunks_flatten_mapTarget` says the scanner sees in it exactly the replaced chunks.
-/
import AgentSpace.Memory.Links

set_option autoImplicit false

namespace AgentSpace.Memory

open Text

/-! ## The links of a body are its chunks -/

/-- The links of a cut whose body starts at offset `pos`. -/
def offsets (base_dir : List Text) (pos : ℕ) : List Chunk → List ParsedLink
  | [] => []
  | c :: cs =>
    let start := pos + c.before.length
    { text := c.text
      raw_target := c.target
      resolved := resolve_relative_target base_dir c.target
      target_start := start
      target_end := start + c.target.length } ::
      offsets base_dir (start + c.target.length + 1) cs

variable (base_dir : List Text)

theorem offsets_prepend (pos : ℕ) (s : Text) (d : Chunked) :
    offsets base_dir pos (d.prepend s).links = offsets base_dir (pos + s.length) d.links := by
  rcases d with ⟨_ | ⟨c, cs⟩, tail⟩
  · rfl
  · simp [Chunked.prepend, offsets, Chunk.before, Nat.add_assoc]

theorem chunks_flatten (prev : Option Char) (rest : Text) : (chunks prev rest).flatten = rest := by
  induction prev, rest using chunks_induction with
  | plain prev rest h => rw [chunks_of_not_mem h, Chunked.flatten_nil]
  | image prev pre after hpre himg ih =>
    rw [chunks_image hpre himg, Chunked.flatten_prepend, ih]
    simp
  | no_close prev pre after hpre himg hclose =>
    rw [chunks_no_close hpre himg hclose, Chunked.flatten_nil]
  | no_paren prev pre text after_close hpre himg htext hparen ih =>
    rw [chunks_no_paren hpre himg htext hparen, Chunked.flatten_prepend, ih]
    simp
  | no_close_paren prev pre text after_open hpre himg htext hclose =>
    rw [chunks_no_close_paren hpre himg htext hclose, Chunked.flatten_nil]
  | link prev pre text target after_paren hpre himg htext htarget ih =>
    rw [chunks_link hpre himg htext htarget, Chunked.flatten_cons, ih]
    simp [Chunk.flatten, Chunk.before]

theorem chunks_target_no_paren (prev : Option Char) (rest : Text) :
    ∀ c ∈ (chunks prev rest).links, ')' ∉ c.target := by
  suffices h : ∀ t ∈ (chunks prev rest).links.map Chunk.target, ')' ∉ t by
    intro c hc
    exact h c.target (List.mem_map_of_mem hc)
  induction prev, rest using chunks_induction with
  | plain prev rest h => simp [chunks_of_not_mem h]
  | image prev pre after hpre himg ih =>
    rwa [chunks_image hpre himg, Chunked.prepend_target]
  | no_close prev pre after hpre himg hclose => simp [chunks_no_close hpre himg hclose]
  | no_paren prev pre text after_close hpre himg htext hparen ih =>
    rwa [chunks_no_paren hpre himg htext hparen, Chunked.prepend_target]
  | no_close_paren prev pre text after_open hpre himg htext hclose =>
    simp [chunks_no_close_paren hpre himg htext hclose]
  | link prev pre text target after_paren hpre himg htext htarget ih =>
    rw [chunks_link hpre himg htext htarget]
    intro t ht
    rcases List.mem_cons.1 ht with rfl | ht
    · exact htarget
    · exact ih t ht

/-! ### The scanner's look at the character before a bracket -/

/-- The source's test for an image, `bracket_pos > 0` and `!` just before it, is
a test on the last character before the bracket. -/
theorem image_test (done pre rest : Text) (c : Char) : (0 < done.length + pre.length ∧
        (done ++ (pre ++ rest))[done.length + pre.length - 1]? = some c)
      ↔ (done.getLast?.toList ++ pre).getLast? = some c := by
  have hlast : (done.getLast?.toList ++ pre).getLast? = (done ++ pre).getLast? := by
    rcases List.eq_nil_or_concat done with rfl | ⟨init, last, rfl⟩
    · rfl
    · cases pre with
      | nil => simp
      | cons p ps => simp [List.getLast?_append, List.getLast?_cons]
  rw [hlast, ← List.append_assoc, List.getLast?_eq_getElem?, List.length_append]
  constructor
  · rintro ⟨hpos, h⟩
    rwa [List.getElem?_append_left (by rw [List.length_append]; omega)] at h
  · intro h
    have hpos : 0 < done.length + pre.length := by
      rcases Nat.eq_zero_or_pos (done.length + pre.length) with h0 | hpos
      · have hd : done = [] := List.eq_nil_of_length_eq_zero (by omega)
        have hp : pre = [] := List.eq_nil_of_length_eq_zero (by omega)
        simp [hd, hp] at h
      · exact hpos
    refine ⟨hpos, ?_⟩
    rwa [List.getElem?_append_left (by rw [List.length_append]; omega)]

theorem slice_append (done pre rest : Text) :
    slice (done ++ (pre ++ rest)) done.length (done.length + pre.length) = pre := by
  simp [slice]

/-- The loop of `parse_links`, entered with `done` behind the index and `rest`
ahead of it, finds the chunks of `rest`. -/
theorem parse_links_loop_eq (fuel : ℕ) (done rest : Text) (hfuel : rest.length < fuel) :
    parse_links_loop base_dir (done ++ rest) fuel done.length
      = offsets base_dir done.length (chunks done.getLast? rest).links := by
  induction fuel generalizing done rest with
  | zero => omega
  | succ fuel ih =>
    rw [parse_links_loop, List.drop_left, find_eq_split_once]
    cases hopen : split_once '[' rest with
    | none => simp [chunks_of_not_mem (split_once_eq_none.1 hopen), offsets]
    | some p =>
      obtain ⟨pre, after⟩ := p
      obtain ⟨rfl, hpre⟩ := split_once_eq_some.1 hopen
      simp only [List.length_append, List.length_cons] at hfuel
      -- the loop's next turn starts just after this bracket
      have hskip : parse_links_loop base_dir (done ++ (pre ++ '[' :: after)) fuel
            (done.length + pre.length + 1)
          = offsets base_dir done.length
              ((chunks (some '[') after).prepend (pre ++ ['['])).links := by
        have := ih (done ++ (pre ++ ['['])) after (by omega)
        simpa [offsets_prepend, Nat.add_assoc] using this
      simp only [Option.map_some, image_test]
      by_cases himg : (done.getLast?.toList ++ pre).getLast? = some '!'
      · rw [if_pos himg, hskip, chunks_image hpre himg]
      · rw [if_neg himg]
        have hdrop : (done ++ (pre ++ '[' :: after)).drop (done.length + pre.length + 1)
            = after := by
          rw [show done ++ (pre ++ '[' :: after) = (done ++ (pre ++ ['['])) ++ after by simp,
            List.drop_append_of_le_length (by simp [Nat.add_assoc])]
          simp [Nat.add_assoc]
        rw [hdrop, find_eq_split_once]
        cases hclose : split_once ']' after with
        | none => simp [chunks_no_close hpre himg (split_once_eq_none.1 hclose), offsets]
        | some p =>
          obtain ⟨text, after_close⟩ := p
          obtain ⟨rfl, htext⟩ := split_once_eq_some.1 hclose
          simp only [List.length_append, List.length_cons] at hfuel
          have hdrop' : ∀ k, (done ++ (pre ++ '[' :: (text ++ ']' :: after_close))).drop
                (done.length + pre.length + 1 + text.length + 1 + k)
              = after_close.drop k := by
            intro k
            rw [show done ++ (pre ++ '[' :: (text ++ ']' :: after_close))
                = (done ++ (pre ++ '[' :: (text ++ [']']))) ++ after_close by simp,
              show done.length + pre.length + 1 + text.length + 1 + k
                = (done ++ (pre ++ '[' :: (text ++ [']']))).length + k by simp; omega,
              List.drop_length_add_append]
          have hhead := hdrop' 0
          rw [Nat.add_zero, List.drop_zero] at hhead
          simp only [Option.map_some, hhead]
          by_cases hparen : after_close.head? = some '('
          · obtain ⟨after_open, rfl⟩ : ∃ after_open, after_close = '(' :: after_open := by
              cases after_close with
              | nil => simp at hparen
              | cons c cs => exact ⟨cs, by simpa using hparen⟩
            rw [if_neg (by simp), hdrop' 1, List.drop_one, List.tail_cons,
              find_eq_split_once]
            cases hcp : split_once ')' after_open with
            | none =>
              simp [chunks_no_close_paren hpre himg htext (split_once_eq_none.1 hcp),
                offsets]
            | some p =>
              obtain ⟨target, after_paren⟩ := p
              obtain ⟨rfl, htarget⟩ := split_once_eq_some.1 hcp
              simp only [List.length_append, List.length_cons] at hfuel
              have hnext := ih
                (done ++ (pre ++ '[' :: (text ++ ']' :: '(' :: (target ++ [')']))))
                after_paren (by omega)
              rw [chunks_link hpre himg htext htarget]
              simp only [Option.map_some, offsets]
              have hlen : (done ++ (pre ++ '[' ::
                    (text ++ ']' :: '(' :: (target ++ [')'])))).length
                  = done.length + pre.length + 1 + text.length + 1 + 1 + target.length
                    + 1 := by
                simp; omega
              have hbefore : done.length + (Chunk.mk pre text target).before.length
                  = done.length + pre.length + 1 + text.length + 1 + 1 := by
                simp [Chunk.before]; omega
              have htextslice : slice (done ++ (pre ++ '[' :: (text ++ ']' :: '(' ::
                    (target ++ ')' :: after_paren)))) (done.length + pre.length + 1)
                    (done.length + pre.length + 1 + text.length) = text := by
                have := slice_append (done ++ (pre ++ ['['])) text
                  (']' :: '(' :: (target ++ ')' :: after_paren))
                simpa [Nat.add_assoc] using this
              have htargetslice : slice (done ++ (pre ++ '[' :: (text ++ ']' :: '(' ::
                    (target ++ ')' :: after_paren))))
                    (done.length + pre.length + 1 + text.length + 1 + 1)
                    (done.length + pre.length + 1 + text.length + 1 + 1 + target.length)
                  = target := by
                have := slice_append (done ++ (pre ++ '[' :: (text ++ [']', '(']))) target
                  (')' :: after_paren)
                simpa [Nat.add_assoc, Nat.add_comm, Nat.add_left_comm] using this
              rw [htextslice, htargetslice, hbefore]
              have hlast : (done ++ (pre ++ '[' ::
                    (text ++ ']' :: '(' :: (target ++ [')'])))).getLast? = some ')' := by
                rw [show done ++ (pre ++ '[' :: (text ++ ']' :: '(' :: (target ++ [')'])))
                    = (done ++ (pre ++ '[' :: (text ++ ']' :: '(' :: target))) ++ [')']
                  by simp, List.getLast?_concat]
              rw [hlen, hlast] at hnext
              congr 1
              simpa using hnext
          · rw [if_pos hparen, hskip, chunks_no_paren hpre himg htext hparen]

theorem parse_links_eq (page_path : PagePath) (body : Text) :
    parse_links page_path body
      = offsets (base_dir_of page_path) 0 (chunks none body).links := by
  have := parse_links_loop_eq (base_dir_of page_path) (body.length + 1) [] body (by omega)
  simpa [parse_links] using this

theorem offsets_map_resolved (pos : ℕ) (cs : List Chunk) : (offsets base_dir pos cs).map ParsedLink.resolved
      = cs.map fun c => resolve_relative_target base_dir c.target := by
  induction cs generalizing pos with
  | nil => rfl
  | cons c cs ih => simp [offsets, ih]

/-- What the links of a body resolve to, link by link. -/
theorem parse_links_resolved (page_path : PagePath) (body : Text) :
    (parse_links page_path body).map ParsedLink.resolved
      = (chunks none body).links.map fun c =>
          resolve_relative_target (base_dir_of page_path) c.target := by
  rw [parse_links_eq, offsets_map_resolved]

/-! ## The rewritten body -/

/-- What `rewrite_links` puts in the place of a target: the path to
`destination` where the target led to `source`, and the target itself
otherwise. -/
def retarget (base_dir : List Text) (source destination : PagePath) (target : Text) : Text :=
  if resolve_relative_target base_dir target = some source then
    relative_target base_dir destination
  else target

section Rewrite

variable {base_dir : List Text} {source destination : PagePath}

/-- One turn after another, `rewrite_links` copies the body up to a link that
resolves to `source` and puts the new target after it. `kept` is what lies
between the cursor and the chunk the loop looks at. -/
theorem rewrite_loop_eq (base_dir : List Text) (source destination : PagePath)
    (body done kept : Text) (cs : List Chunk) (tail result : Text) (changed : Bool)
      (hbody : body = done ++ kept ++ (Chunked.mk cs tail).flatten) :
    ∃ acc, rewrite_loop base_dir body source destination
        (offsets base_dir (done.length + kept.length) cs) (result, done.length, changed) = acc
      ∧ acc.1 ++ body.drop acc.2.1
          = result ++ kept
              ++ ((Chunked.mk cs tail).mapTarget (retarget base_dir source destination)).flatten
      ∧ acc.2.2 = (changed || cs.any fun c =>
          resolve_relative_target base_dir c.target = some source) := by
  induction cs generalizing done kept result changed with
  | nil =>
    refine ⟨(result, done.length, changed), rfl, ?_, by simp⟩
    simp [hbody, Chunked.mapTarget]
  | cons c cs ih =>
    rw [Chunked.flatten_cons] at hbody
    have hlen : done.length + kept.length + c.before.length + c.target.length + 1
        = done.length + (kept ++ c.flatten).length := by
      simp [Chunk.flatten]; omega
    by_cases hres : resolve_relative_target base_dir c.target = some source
    · -- the link is rewritten: the cursor moves behind its target
      obtain ⟨acc, hacc, htext, hchanged⟩ := ih (done ++ kept ++ c.before ++ c.target) [')']
        (result ++ slice body done.length (done.length + kept.length + c.before.length)
          ++ relative_target base_dir destination) true
        (by rw [hbody]; simp [Chunk.flatten])
      refine ⟨acc, ?_, ?_, by simp [hchanged, hres]⟩
      · rw [← hacc, offsets, rewrite_loop]
        simp only [hres, ne_eq, not_true_eq_false, if_false]
        congr 1
        · congr 1
          simp; omega
        · simp; omega
      · have hslice : slice body done.length (done.length + kept.length + c.before.length)
            = kept ++ c.before := by
          have := slice_append done (kept ++ c.before)
            (c.target ++ ')' :: (Chunked.mk cs tail).flatten)
          rw [hbody]
          simpa [Chunk.flatten, Nat.add_assoc] using this
        rw [htext, hslice]
        simp [Chunked.mapTarget, Chunk.mapTarget, Chunk.flatten, Chunk.before, retarget, hres]
    · -- the link stays: the chunk joins what is kept
      obtain ⟨acc, hacc, htext, hchanged⟩ := ih done (kept ++ c.flatten) result changed
        (by rw [hbody]; simp)
      refine ⟨acc, ?_, ?_, by simp [hchanged, hres]⟩
      · rw [← hacc, offsets, rewrite_loop]
        simp only [hres, ne_eq, not_false_eq_true, if_true, hlen]
      · rw [htext]
        simp [Chunked.mapTarget, Chunk.mapTarget, Chunk.flatten, Chunk.before, retarget, hres]

/-- **The rewritten body** is the body with its targets replaced by `retarget`. -/
theorem rewrite_links_eq (page_path : PagePath) (body : Text) :
    rewrite_links page_path body source destination
      = (((chunks none body).mapTarget (retarget (base_dir_of page_path) source destination)).flatten,
          (chunks none body).links.any fun c =>
            resolve_relative_target (base_dir_of page_path) c.target = some source) := by
  obtain ⟨acc, hacc, htext, hchanged⟩ := rewrite_loop_eq (base_dir_of page_path)
    source destination body [] [] (chunks none body).links
    (chunks none body).tail [] false (by simpa using (chunks_flatten none body).symm)
  rw [rewrite_links, parse_links_eq]
  simp only [List.length_nil, Nat.add_zero] at hacc
  rw [hacc]
  exact Prod.ext htext (by simpa using hchanged)

end Rewrite

/-! ## Scanning what was rewritten -/

/-- A cut whose body starts with `text ++ ']' :: after_close`, where the bracket
is not followed by a parenthesis, has that bracket in front of its first link,
so another target in that link does not move it. -/
theorem flatten_mapTarget_no_paren {f : Text → Text} {d : Chunked} {text after_close : Text}
    (hd : d.flatten = text ++ ']' :: after_close) (htext : ']' ∉ text)
    (hparen : after_close.head? ≠ some '(') :
    ∃ after_close', (d.mapTarget f).flatten = text ++ ']' :: after_close'
      ∧ after_close'.head? ≠ some '(' := by
  rcases d with ⟨_ | ⟨c, cs⟩, tail⟩
  · exact ⟨after_close, by simpa [Chunked.mapTarget] using hd, hparen⟩
  · have hsplit : ∀ target rest, (Chunk.mk c.lead c.text target).flatten ++ rest
        = (c.lead ++ '[' :: c.text) ++ ']' :: '(' :: (target ++ ')' :: rest) := by
      intro target rest
      simp [Chunk.flatten, Chunk.before]
    rw [Chunked.flatten_cons, hsplit] at hd
    have hmem : ']' ∈ c.lead ++ '[' :: c.text := by
      by_contra hnot
      have h1 := split_once_append (b := '(' :: (c.target ++ ')' :: (Chunked.mk cs tail).flatten))
        hnot
      rw [hd, split_once_append htext] at h1
      obtain ⟨-, rfl⟩ : text = _ ∧ after_close = _ := by simpa using h1
      simp at hparen
    obtain ⟨⟨a, b⟩, hcut⟩ := Option.ne_none_iff_exists'.1
      (fun h => absurd hmem (split_once_eq_none.1 h))
    obtain ⟨hlead, ha⟩ := split_once_eq_some.1 hcut
    rw [hlead, List.append_assoc, List.cons_append] at hd
    have h1 := split_once_append
      (b := b ++ ']' :: '(' :: (c.target ++ ')' :: (Chunked.mk cs tail).flatten)) ha
    rw [hd, split_once_append htext] at h1
    obtain ⟨rfl, hclose⟩ : text = a ∧ after_close = _ := by simpa using h1
    refine ⟨b ++ ']' :: '(' :: (f c.target ++ ')' ::
      ((Chunked.mk cs tail).mapTarget f).flatten), ?_, ?_⟩
    · have := hsplit (f c.target) ((Chunked.mk cs tail).mapTarget f).flatten
      rw [hlead] at this
      simpa [Chunked.mapTarget, Chunk.mapTarget] using this
    · rw [hclose] at hparen
      cases b with
      | nil => simp
      | cons e b => simpa using hparen

theorem flatten_mapTarget_link {f : Text → Text} {pre text target : Text} {d : Chunked} :
    ((Chunked.mk (⟨pre, text, target⟩ :: d.links) d.tail).mapTarget f).flatten
      = pre ++ '[' :: (text ++ ']' :: '(' :: (f target ++ ')' :: (d.mapTarget f).flatten)) := by
  simp [Chunked.mapTarget, Chunk.mapTarget, Chunked.flatten, Chunk.flatten, Chunk.before]

/-- **The scanner finds the replaced chunks again**, whatever the new targets
are, as long as none of them contains a closing parenthesis. -/
theorem chunks_flatten_mapTarget (f : Text → Text) (hf : ∀ t, ')' ∉ t → ')' ∉ f t)
    (prev : Option Char) (rest : Text) :
    chunks prev ((chunks prev rest).mapTarget f).flatten = (chunks prev rest).mapTarget f := by
  induction prev, rest using chunks_induction with
  | plain prev rest h =>
    rw [chunks_of_not_mem h]
    exact chunks_of_not_mem h
  | image prev pre after hpre himg ih =>
    rw [chunks_image hpre himg, Chunked.mapTarget_prepend, Chunked.flatten_prepend,
      List.append_assoc, List.singleton_append, chunks_image hpre himg, ih]
  | no_close prev pre after hpre himg hclose =>
    rw [chunks_no_close hpre himg hclose]
    exact chunks_no_close hpre himg hclose
  | no_paren prev pre text after_close hpre himg htext hparen ih =>
    obtain ⟨after_close', hflat, hparen'⟩ := flatten_mapTarget_no_paren (f := f)
      (chunks_flatten (some '[') (text ++ ']' :: after_close)) htext hparen
    rw [chunks_no_paren hpre himg htext hparen, Chunked.mapTarget_prepend,
      Chunked.flatten_prepend, List.append_assoc, List.singleton_append, hflat,
      chunks_no_paren hpre himg htext hparen', ← hflat, ih]
  | no_close_paren prev pre text after_open hpre himg htext hclose =>
    rw [chunks_no_close_paren hpre himg htext hclose]
    exact chunks_no_close_paren hpre himg htext hclose
  | link prev pre text target after_paren hpre himg htext htarget ih =>
    rw [chunks_link hpre himg htext htarget]
    rw [flatten_mapTarget_link, chunks_link hpre himg htext (hf target htarget), ih]
    rfl

/-- The chunks of a rewritten body, if what replaces a target can be written. -/
theorem chunks_rewrite_links (page_path : PagePath) {source destination : PagePath} {body : Text}
    (h : ∀ c ∈ (chunks none body).links,
      resolve_relative_target (base_dir_of page_path) c.target = some source →
        ')' ∉ relative_target (base_dir_of page_path) destination) :
    chunks none (rewrite_links page_path body source destination).1
      = (chunks none body).mapTarget (retarget (base_dir_of page_path) source destination) := by
  rw [rewrite_links_eq]
  by_cases hleads : ∃ c ∈ (chunks none body).links,
      resolve_relative_target (base_dir_of page_path) c.target = some source
  · obtain ⟨c, hc, hresolved⟩ := hleads
    refine chunks_flatten_mapTarget _ (fun t ht => ?_) none body
    rw [retarget]
    split_ifs
    · exact h c hc hresolved
    · exact ht
  · -- no target is replaced
    have hsame : (chunks none body).mapTarget
        (retarget (base_dir_of page_path) source destination) = chunks none body := by
      refine Chunked.ext ((List.map_congr_left fun c hc => ?_).trans (List.map_id _)) rfl
      rw [Chunk.mapTarget, retarget, if_neg fun hresolved => hleads ⟨c, hc, hresolved⟩]
      rfl
    rw [hsame, chunks_flatten]

/-! ## Text after the last link -/

/-- A text the scanner has no use for. -/
def Inert (s : Text) : Prop := ∀ c ∈ s, c ≠ '[' ∧ c ≠ ']' ∧ c ≠ '(' ∧ c ≠ ')'

theorem chunks_append_inert {s : Text} (hs : Inert s) (prev : Option Char) (rest : Text) :
    chunks prev (rest ++ s) = ⟨(chunks prev rest).links, (chunks prev rest).tail ++ s⟩ := by
  have hno : ∀ {c : Char}, c = '[' ∨ c = ']' ∨ c = '(' ∨ c = ')' → c ∉ s := by
    intro c hc hcs
    have := hs c hcs
    tauto
  have hprep : ∀ (p : Text) (d : Chunked), (Chunked.mk d.links (d.tail ++ s)).prepend p
      = ⟨(d.prepend p).links, (d.prepend p).tail ++ s⟩ := by
    rintro p ⟨_ | ⟨c, cs⟩, tail⟩ <;> simp [Chunked.prepend]
  induction prev, rest using chunks_induction with
  | plain prev rest h =>
    rw [chunks_of_not_mem h, chunks_of_not_mem (by simp [h, hno])]
  | image prev pre after hpre himg ih =>
    rw [List.append_assoc, List.cons_append, chunks_image hpre himg, ih,
      chunks_image hpre himg, hprep]
  | no_close prev pre after hpre himg hclose =>
    rw [List.append_assoc, List.cons_append, chunks_no_close hpre himg hclose,
      chunks_no_close hpre himg (by simp [hclose, hno])]
    simp
  | no_paren prev pre text after_close hpre himg htext hparen ih =>
    have hparen' : (after_close ++ s).head? ≠ some '(' := by
      cases after_close with
      | nil => exact fun h => hno (by simp) (List.mem_of_head? h)
      | cons c cs => simpa using hparen
    have happ : (pre ++ '[' :: (text ++ ']' :: after_close)) ++ s
        = pre ++ '[' :: (text ++ ']' :: (after_close ++ s)) := by simp
    have happ' : text ++ ']' :: (after_close ++ s) = (text ++ ']' :: after_close) ++ s := by
      simp
    rw [happ, chunks_no_paren hpre himg htext hparen', happ', ih,
      chunks_no_paren hpre himg htext hparen, hprep]
  | no_close_paren prev pre text after_open hpre himg htext hclose =>
    have happ : (pre ++ '[' :: (text ++ ']' :: '(' :: after_open)) ++ s
        = pre ++ '[' :: (text ++ ']' :: '(' :: (after_open ++ s)) := by simp
    rw [happ, chunks_no_close_paren hpre himg htext (by simp [hclose, hno]),
      chunks_no_close_paren hpre himg htext hclose]
    simp
  | link prev pre text target after_paren hpre himg htext htarget ih =>
    have happ : (pre ++ '[' :: (text ++ ']' :: '(' :: (target ++ ')' :: after_paren))) ++ s
        = pre ++ '[' :: (text ++ ']' :: '(' :: (target ++ ')' :: (after_paren ++ s))) := by
      simp
    rw [happ, chunks_link hpre himg htext htarget, ih, chunks_link hpre himg htext htarget]

theorem parse_links_append_inert {s : Text} (hs : Inert s) (page_path : PagePath)
    (body : Text) : parse_links page_path (body ++ s) = parse_links page_path body := by
  rw [parse_links_eq, parse_links_eq, chunks_append_inert hs]

end AgentSpace.Memory
