/-
`rewrite_links` as an edit: what it leaves of a link besides its path.

Before and after the path of a target stand blanks, a `#fragment` or a `?query`. The
resolver cuts these off, and the rewriting puts the new target in the place of all of it.
`minimal_edit_iff` says when nothing but the path changes.
-/
import AgentSpace.Memory.WayBack

set_option autoImplicit false

namespace AgentSpace.Memory

open Text PagePath

/-! ## The parts of a target -/

/-- The blanks before the path. -/
def link_lead (target : Text) : Text := target.takeWhile is_whitespace

/-- The path of a target, as it is resolved. -/
def link_path (target : Text) : Text := without_fragment (trim target)

/-- What follows the path: a fragment or a query, and blanks. -/
def link_suffix (target : Text) : Text :=
  target.drop ((link_lead target).length + (link_path target).length)

theorem link_parts (target : Text) : link_lead target ++ link_path target ++ link_suffix target = target := by
  have hpath : link_path target <+: target.dropWhile is_whitespace :=
    (List.takeWhile_prefix _).trans (List.rdropWhile_prefix is_whitespace _)
  obtain ⟨rest, hrest⟩ := hpath
  have hsplit : target = link_lead target ++ link_path target ++ rest := by
    rw [List.append_assoc, hrest]
    exact List.takeWhile_append_dropWhile.symm
  have hdrop : link_suffix target = rest := by
    have hlength : List.drop (link_lead target ++ link_path target).length
        (link_lead target ++ link_path target ++ rest) = rest := List.drop_left
    rw [← hsplit, List.length_append] at hlength
    exact hlength
  rw [hdrop]
  exact hsplit.symm

theorem link_parts_of_plain {target : Text} (hpath : link_path target = target)
    (hhead : ∀ c ∈ target.head?, is_whitespace c = false) :
    link_lead target = [] ∧ link_suffix target = [] := by
  have hlead : link_lead target = [] := by
    unfold link_lead
    cases target with
    | nil => rfl
    | cons c rest =>
      rw [List.takeWhile_cons_of_neg]
      rw [hhead c rfl]
      exact Bool.false_ne_true
  have hparts := link_parts target
  rw [hlead, hpath, List.nil_append] at hparts
  exact ⟨hlead, List.append_right_eq_self.1 hparts⟩

/-! ## Links, read as pairs -/

/-- A link as it is read: its text and its target. -/
def Chunk.view (c : Chunk) : Text × Text := (c.text, c.target)

theorem map_view_prepend (s : Text) (d : Chunked) :
    (d.prepend s).links.map Chunk.view = d.links.map Chunk.view := by
  rcases d with ⟨_ | ⟨c, cs⟩, tail⟩
  · rfl
  · rfl

theorem map_view_mapTarget (f : Text → Text) (d : Chunked) :
    (d.mapTarget f).links.map Chunk.view = (d.links.map Chunk.view).map fun v => (v.1, f v.2) := by
  rw [Chunked.mapTarget, List.map_map, List.map_map]
  rfl

/-- What `parse_links` reports of each link, from its text and its target. -/
theorem map_parse_links {α : Type} (page_path : PagePath) (body : Text)
    (g : Text → Text → Option PagePath → α) :
    (parse_links page_path body).map (fun link => g link.text link.raw_target link.resolved)
      = ((chunks none body).links.map Chunk.view).map fun v =>
          g v.1 v.2 (resolve_relative_target (base_dir_of page_path) v.2) := by
  have hoffsets : ∀ pos cs, (offsets (base_dir_of page_path) pos cs).map
        (fun link => g link.text link.raw_target link.resolved)
      = (cs.map Chunk.view).map fun v =>
          g v.1 v.2 (resolve_relative_target (base_dir_of page_path) v.2) := by
    intro pos cs
    induction cs generalizing pos with
    | nil => rfl
    | cons c cs ih =>
      rw [offsets, List.map_cons, ih]
      rfl
  rw [parse_links_eq, hoffsets]

theorem cut_at_paren (t rest : Text) : ∃ more, t ++ ')' :: rest
    = t.takeWhile (fun c => c ≠ ')') ++ ')' :: more ∧ ')' ∉ t.takeWhile fun c => c ≠ ')' := by
  have hnot : ')' ∉ t.takeWhile fun c => c ≠ ')' := by
    intro hmem
    have hkept := List.mem_takeWhile_imp hmem
    simp at hkept
  refine ⟨(t.dropWhile (fun c => c ≠ ')') ++ ')' :: rest).tail, ?_, hnot⟩
  have hhead : ∃ more, t.dropWhile (fun c => c ≠ ')') ++ ')' :: rest = ')' :: more := by
    cases hdrop : t.dropWhile fun c => c ≠ ')' with
    | nil => exact ⟨rest, rfl⟩
    | cons c cs =>
      have hc : c = ')' := by
        have hneg := List.head_dropWhile_not (l := t) (fun c : Char => decide (c ≠ ')'))
          (by rw [hdrop]; exact List.cons_ne_nil c cs)
        simp only [hdrop, List.head_cons] at hneg
        simpa using hneg
      rw [hc]
      exact ⟨_, rfl⟩
  obtain ⟨more, hmore⟩ := hhead
  rw [hmore, List.tail_cons, ← hmore, ← List.append_assoc, List.takeWhile_append_dropWhile]

/-- **Scanning again**, whatever the new targets are: the links are found again up to the first
target that holds a parenthesis, and that one is cut there. -/
theorem views_until (f : Text → Text) (prev : Option Char) (rest : Text) (before : List (Text × Text))
    (v : Text × Text) (after : List (Text × Text))
    (hlinks : (chunks prev rest).links.map Chunk.view = before ++ v :: after)
    (hbefore : ∀ u ∈ before, ')' ∉ f u.2) :
    ∃ more, (chunks prev ((chunks prev rest).mapTarget f).flatten).links.map Chunk.view
      = before.map (fun u => (u.1, f u.2)) ++ (v.1, (f v.2).takeWhile fun c => c ≠ ')') :: more := by
  induction prev, rest using chunks_induction generalizing before with
  | plain prev rest h =>
    rw [chunks_of_not_mem h] at hlinks
    simp at hlinks
  | image prev pre rest hpre himg ih =>
    rw [chunks_image hpre himg, map_view_prepend] at hlinks
    obtain ⟨more, hmore⟩ := ih before hlinks hbefore
    refine ⟨more, ?_⟩
    rw [chunks_image hpre himg, Chunked.mapTarget_prepend, Chunked.flatten_prepend,
      List.append_assoc, List.singleton_append, chunks_image hpre himg, map_view_prepend, hmore]
  | no_close prev pre rest hpre himg hclose =>
    rw [chunks_no_close hpre himg hclose] at hlinks
    simp at hlinks
  | no_paren prev pre text after_close hpre himg htext hparen ih =>
    rw [chunks_no_paren hpre himg htext hparen, map_view_prepend] at hlinks
    obtain ⟨more, hmore⟩ := ih before hlinks hbefore
    obtain ⟨after_close', hflat, hparen'⟩ := flatten_mapTarget_no_paren (f := f)
      (chunks_flatten (some '[') (text ++ ']' :: after_close)) htext hparen
    refine ⟨more, ?_⟩
    rw [chunks_no_paren hpre himg htext hparen, Chunked.mapTarget_prepend,
      Chunked.flatten_prepend, List.append_assoc, List.singleton_append, hflat,
      chunks_no_paren hpre himg htext hparen', ← hflat, map_view_prepend, hmore]
  | no_close_paren prev pre text after_open hpre himg htext hclose =>
    rw [chunks_no_close_paren hpre himg htext hclose] at hlinks
    simp at hlinks
  | link prev pre text target after_paren hpre himg htext htarget ih =>
    rw [chunks_link hpre himg htext htarget] at hlinks
    rw [chunks_link hpre himg htext htarget, flatten_mapTarget_link]
    cases before with
    | nil =>
      obtain ⟨rfl, -⟩ := List.cons.inj hlinks
      obtain ⟨more, hcut, hnot⟩ := cut_at_paren (f target)
        ((chunks (some ')') after_paren).mapTarget f).flatten
      rw [hcut, chunks_link hpre himg htext hnot]
      exact ⟨_, rfl⟩
    | cons u before =>
      obtain ⟨rfl, hrest⟩ := List.cons.inj hlinks
      obtain ⟨more, hmore⟩ := ih before hrest fun w hw => hbefore w (List.mem_cons_of_mem _ hw)
      have hnot : ')' ∉ f target := hbefore _ List.mem_cons_self
      refine ⟨more, ?_⟩
      rw [chunks_link hpre himg htext hnot, List.map_cons, hmore]
      rfl

/-! ## The edit -/

section Edit

variable (page_path source destination : PagePath) (body : Text)

/-- A target with another path. -/
def replace_path (path : Text → Text) (target : Text) : Text :=
  if resolve_relative_target (base_dir_of page_path) target = some source then
    link_lead target ++ path target ++ link_suffix target
  else target

/-- What is promised: nothing but paths of links to the source is replaced, and the links are the
same ones afterwards, with what stands around their paths, those to the source redirected. -/
structure MinimalEdit : Prop where
  frame : ∃ path : Text → Text, (rewrite_links page_path body source destination).1
    = ((chunks none body).mapTarget (replace_path page_path source path)).flatten
  links : (parse_links page_path (rewrite_links page_path body source destination).1).map
      (fun link => (link.text, link_lead link.raw_target, link_suffix link.raw_target, link.resolved))
    = (parse_links page_path body).map fun link =>
        (link.text, link_lead link.raw_target, link_suffix link.raw_target,
          if link.resolved = some source then some destination else link.resolved)

/-- The condition on a link: if it leads to the source, its target is bare, and the way to the
destination can be written between parentheses. -/
def Editable (link : ParsedLink) : Prop :=
  link.resolved = some source →
    link_lead link.raw_target = [] ∧ link_suffix link.raw_target = []
      ∧ Linkable (base_dir_of page_path) destination
      ∧ ∀ segment ∈ way_down (base_dir_of page_path) destination, ')' ∉ segment

variable {page_path source destination body}

variable (page_path) in
/-- The links of the body, as pairs. -/
theorem mem_views_iff {v : Text × Text} :
    v ∈ (chunks none body).links.map Chunk.view
      ↔ ∃ link ∈ parse_links page_path body, v = (link.text, link.raw_target)
        ∧ link.resolved = resolve_relative_target (base_dir_of page_path) link.raw_target := by
  have hmap := map_parse_links page_path body fun text target resolved => (text, target, resolved)
  constructor
  · intro hv
    have hmem : (v.1, v.2, resolve_relative_target (base_dir_of page_path) v.2)
        ∈ (parse_links page_path body).map
          fun link => (link.text, link.raw_target, link.resolved) := by
      rw [hmap]
      exact List.mem_map.2 ⟨v, hv, rfl⟩
    obtain ⟨link, hlink, hsame⟩ := List.mem_map.1 hmem
    obtain ⟨htext, hrest⟩ := Prod.mk.inj hsame
    obtain ⟨htarget, hresolved⟩ := Prod.mk.inj hrest
    exact ⟨link, hlink, Prod.ext htext.symm htarget.symm, by rw [hresolved, htarget]⟩
  · rintro ⟨link, hlink, rfl, -⟩
    have hmem : (link.text, link.raw_target, link.resolved)
        ∈ (parse_links page_path body).map
          fun link => (link.text, link.raw_target, link.resolved) := List.mem_map.2 ⟨link, hlink, rfl⟩
    rw [hmap] at hmem
    obtain ⟨v, hv, hsame⟩ := List.mem_map.1 hmem
    obtain ⟨htext, hrest⟩ := Prod.mk.inj hsame
    obtain ⟨htarget, -⟩ := Prod.mk.inj hrest
    rwa [← htext, ← htarget]

theorem resolved_of_mem {link : ParsedLink} (h : link ∈ parse_links page_path body) :
    link.resolved = resolve_relative_target (base_dir_of page_path) link.raw_target := by
  have hmap := map_parse_links page_path body fun text target resolved => (text, target, resolved)
  have hmem : (link.text, link.raw_target, link.resolved)
      ∈ (parse_links page_path body).map
        fun link => (link.text, link.raw_target, link.resolved) := List.mem_map.2 ⟨link, h, rfl⟩
  rw [hmap] at hmem
  obtain ⟨v, -, hsame⟩ := List.mem_map.1 hmem
  obtain ⟨-, hrest⟩ := Prod.mk.inj hsame
  obtain ⟨htarget, hresolved⟩ := Prod.mk.inj hrest
  rw [← hresolved, ← htarget]

variable {base_dir : List Text}

theorem no_paren_relative_target (h : ∀ segment ∈ way_down base_dir destination, ')' ∉ segment) :
    ')' ∉ relative_target base_dir destination := by
  rw [relative_target_climb, down_text]
  intro hmem
  rcases List.mem_append.1 hmem with hmem | hmem
  · rcases mem_climb hmem with h | h
    · exact absurd h (by decide)
    · exact absurd h (by decide)
  rcases List.mem_append.1 hmem with hmem | hmem
  · rcases mem_join hmem with hmem | ⟨segment, hsegment, hmem⟩
    · exact absurd (List.mem_singleton.1 hmem) (by decide)
    · exact h segment hsegment hmem
  · simp [MARKDOWN_EXTENSION] at hmem

theorem trim_climb_append (n : ℕ) (t : Text) :
    ∃ below : Text, below.Sublist t ∧ trim (climb n ++ t) = climb n ++ below := by
  by_cases hn : n = 0
  · subst hn
    refine ⟨trim t, ?_, rfl⟩
    exact (List.rdropWhile_prefix is_whitespace _).sublist.trans (List.dropWhile_sublist _)
  · obtain ⟨m, rfl⟩ := Nat.exists_eq_succ_of_ne_zero hn
    have hstart : trim_start (climb (m + 1) ++ t) = climb (m + 1) ++ t := rfl
    refine ⟨t.rdropWhile is_whitespace, (List.rdropWhile_prefix is_whitespace t).sublist, ?_⟩
    rw [trim, hstart, trim_end]
    induction t using List.reverseRecOn with
    | nil =>
      have hlast : climb (m + 1) = climb m ++ ['.', '.'] ++ ['/'] := by
        rw [climb, List.replicate_succ', List.flatten_append, climb]
        simp
      rw [List.append_nil, hlast, List.rdropWhile_concat_neg _ _ _ (by decide), List.rdropWhile_nil,
        List.append_nil]
    | append_singleton t c ih =>
      rw [← List.append_assoc]
      by_cases hc : is_whitespace c = true
      · rw [List.rdropWhile_concat_pos _ _ _ hc, List.rdropWhile_concat_pos _ _ _ hc]
        exact ih rfl
      · rw [List.rdropWhile_concat_neg _ _ _ hc, List.rdropWhile_concat_neg _ _ _ hc,
          List.append_assoc]

/-- **A target cut at a parenthesis** leads to the destination only if there was none to cut at. -/
theorem no_paren_of_resolve_cut (h : resolve_relative_target base_dir
      ((relative_target base_dir destination).takeWhile fun c => c ≠ ')') = some destination) :
    ∀ segment ∈ way_down base_dir destination, ')' ∉ segment := by
  have hcut : (relative_target base_dir destination).takeWhile (fun c => c ≠ ')')
      = climb (ups base_dir destination)
        ++ (down_text base_dir destination).takeWhile fun c => c ≠ ')' := by
    rw [relative_target_climb]
    refine List.takeWhile_append_of_pos fun c hc => ?_
    rcases mem_climb hc with rfl | rfl <;> rfl
  rw [hcut] at h
  obtain ⟨below, hsub, htrim⟩ := trim_climb_append (ups base_dir destination)
    ((down_text base_dir destination).takeWhile fun c => c ≠ ')')
  have hfragment : without_fragment (trim (climb (ups base_dir destination)
        ++ (down_text base_dir destination).takeWhile fun c => c ≠ ')'))
      = climb (ups base_dir destination) ++ without_fragment below := by
    rw [htrim]
    unfold without_fragment
    refine List.takeWhile_append_of_pos fun c hc => ?_
    rcases mem_climb hc with rfl | rfl <;> rfl
  have hcount := countP_way_down_le (P := fun c => c == ')') rfl h hfragment
  have hless : (without_fragment below).countP (fun c => c == ')') ≤ _ :=
    ((List.takeWhile_sublist _).trans hsub).countP_le
  have hnone : ((down_text base_dir destination).takeWhile fun c => c ≠ ')').countP
      (fun c => c == ')') = 0 := by
    rw [List.countP_eq_zero]
    intro c hc
    have hkept := List.mem_takeWhile_imp hc
    simpa using hkept
  have hzero : (way_down base_dir destination).flatten.countP (fun c => c == ')') = 0 := by omega
  rw [List.countP_eq_zero] at hzero
  intro segment hsegment hc
  exact hzero _ (List.mem_flatten.2 ⟨segment, hsegment, hc⟩) rfl

variable (page_path source destination) in
/-- The first link to the source: the targets before it stay as they are. -/
theorem exists_first_view (h : ∃ v ∈ (chunks none body).links.map Chunk.view,
      resolve_relative_target (base_dir_of page_path) v.2 = some source) :
    ∃ before v after, (chunks none body).links.map Chunk.view = before ++ v :: after
      ∧ resolve_relative_target (base_dir_of page_path) v.2 = some source
      ∧ ∀ u ∈ before, ')' ∉ retarget (base_dir_of page_path) source destination u.2 := by
  obtain ⟨v, hv, hresolved⟩ := h
  let leads (u : Text × Text) : Bool :=
    decide (resolve_relative_target (base_dir_of page_path) u.2 = some source)
  have hfound : (((chunks none body).links.map Chunk.view).find? leads).isSome := by
    rw [List.find?_isSome]
    exact ⟨v, hv, decide_eq_true hresolved⟩
  obtain ⟨w, hw⟩ := Option.isSome_iff_exists.1 hfound
  obtain ⟨hleads, before, after, hsplit, hbefore⟩ := List.find?_eq_some_iff_append.1 hw
  refine ⟨before, w, after, hsplit, of_decide_eq_true hleads, ?_⟩
  intro u hu
  have hother : resolve_relative_target (base_dir_of page_path) u.2 ≠ some source := by
    simpa [leads] using hbefore u hu
  rw [retarget, if_neg hother]
  have hmem : u ∈ (chunks none body).links.map Chunk.view := by
    rw [hsplit]
    exact List.mem_append_left _ hu
  obtain ⟨c, hc, rfl⟩ := List.mem_map.1 hmem
  exact chunks_target_no_paren none body c hc

/-- The links of the new body, if no new target holds a parenthesis. -/
theorem views_rewrite_links (h : (∃ v ∈ (chunks none body).links.map Chunk.view,
      resolve_relative_target (base_dir_of page_path) v.2 = some source) →
      ')' ∉ relative_target (base_dir_of page_path) destination) :
    (chunks none (rewrite_links page_path body source destination).1).links.map Chunk.view
      = ((chunks none body).links.map Chunk.view).map fun v =>
          (v.1, retarget (base_dir_of page_path) source destination v.2) := by
  rw [chunks_rewrite_links page_path fun c hc hsource =>
    h ⟨_, List.mem_map.2 ⟨c, hc, rfl⟩, hsource⟩, map_view_mapTarget]

theorem link_parts_relative_target (h : Linkable base_dir destination) :
    link_lead (relative_target base_dir destination) = []
      ∧ link_suffix (relative_target base_dir destination) = [] :=
  link_parts_of_plain (without_fragment_relative_target (plain_relative_target h.plain) h.head) h.head

/-- **Minimal edits.** The rewriting is one exactly if each link to the source can be edited. -/
theorem minimal_edit_iff (page_path source destination : PagePath) (body : Text) :
    MinimalEdit page_path source destination body
      ↔ ∀ link ∈ parse_links page_path body, Editable page_path source destination link := by
  constructor
  · intro h link hlink hsource
    have hresolved := resolved_of_mem hlink
    have hview : (link.text, link.raw_target) ∈ (chunks none body).links.map Chunk.view :=
      (mem_views_iff page_path).2 ⟨link, hlink, rfl, hresolved⟩
    obtain ⟨before, v, after, hsplit, hv, hbefore⟩ := exists_first_view page_path
      source destination ⟨_, hview, hresolved.symm.trans hsource⟩
    obtain ⟨more, hmore⟩ := views_until _ none body before v after hsplit hbefore
    -- the first link to the source leads to the destination afterwards
    have hlinks := h.links
    rw [map_parse_links page_path _ fun text target resolved =>
        (text, link_lead target, link_suffix target, resolved),
      map_parse_links page_path body fun text target resolved =>
        (text, link_lead target, link_suffix target,
          if resolved = some source then some destination else resolved)] at hlinks
    have hfirst := hlinks
    rw [rewrite_links_eq, hmore, hsplit, List.map_append, List.map_append, List.map_cons,
      List.map_cons] at hfirst
    obtain ⟨-, hrest⟩ := List.append_inj hfirst (by simp)
    obtain ⟨hhead, -⟩ := List.cons.inj hrest
    have hcut : resolve_relative_target (base_dir_of page_path)
        ((relative_target (base_dir_of page_path) destination).takeWhile fun c => c ≠ ')')
          = some destination := by
      have hlast := (Prod.mk.inj (Prod.mk.inj (Prod.mk.inj hhead).2).2).2
      rwa [retarget, if_pos hv, if_pos hv] at hlast
    have hparen := no_paren_of_resolve_cut hcut
    have hnot := no_paren_relative_target hparen
    have hwhole : (relative_target (base_dir_of page_path) destination).takeWhile (fun c => c ≠ ')')
        = relative_target (base_dir_of page_path) destination := by
      rw [List.takeWhile_eq_self_iff]
      intro c hc
      have hne : c ≠ ')' := fun h => hnot (h ▸ hc)
      simpa using hne
    rw [hwhole] at hcut
    have hlinkable := linkable_of_resolve hcut
    -- so all links are read again, and what stands around their paths is as it was
    rw [views_rewrite_links fun _ => hnot, List.map_map] at hlinks
    have hthis := List.map_inj_left.1 hlinks _ hview
    simp only [Function.comp_apply] at hthis
    obtain ⟨-, hthis⟩ := Prod.mk.inj hthis
    obtain ⟨hlead, hthis⟩ := Prod.mk.inj hthis
    obtain ⟨hsuffix, -⟩ := Prod.mk.inj hthis
    rw [retarget, if_pos (hresolved.symm.trans hsource)] at hlead hsuffix
    obtain ⟨hlead', hsuffix'⟩ := link_parts_relative_target hlinkable
    exact ⟨hlead.symm.trans hlead', hsuffix.symm.trans hsuffix', hlinkable, hparen⟩
  · intro h
    have hview : ∀ v ∈ (chunks none body).links.map Chunk.view,
        resolve_relative_target (base_dir_of page_path) v.2 = some source →
        link_lead v.2 = [] ∧ link_suffix v.2 = [] ∧ Linkable (base_dir_of page_path) destination
          ∧ ∀ segment ∈ way_down (base_dir_of page_path) destination, ')' ∉ segment := by
      intro v hv hsource
      obtain ⟨link, hlink, rfl, hresolved⟩ := (mem_views_iff page_path).1 hv
      exact h link hlink (hresolved.trans hsource)
    constructor
    · refine ⟨fun _ => relative_target (base_dir_of page_path) destination, ?_⟩
      rw [rewrite_links_eq]
      have hsame : (chunks none body).mapTarget (retarget (base_dir_of page_path) source destination)
          = (chunks none body).mapTarget (replace_path page_path source
            fun _ => relative_target (base_dir_of page_path) destination) := by
        refine Chunked.ext ?_ rfl
        refine List.map_congr_left fun c hc => ?_
        refine Chunk.ext rfl rfl ?_
        rw [Chunk.mapTarget, Chunk.mapTarget, retarget, replace_path]
        by_cases hsource : resolve_relative_target (base_dir_of page_path) c.target = some source
        · obtain ⟨hlead, hsuffix, -⟩ := hview c.view (List.mem_map.2 ⟨c, hc, rfl⟩) hsource
          have hlead : link_lead c.target = [] := hlead
          have hsuffix : link_suffix c.target = [] := hsuffix
          rw [if_pos hsource, if_pos hsource, hlead, hsuffix, List.nil_append, List.append_nil]
        · rw [if_neg hsource, if_neg hsource]
      rw [hsame]
    · rw [map_parse_links page_path _ fun text target resolved =>
          (text, link_lead target, link_suffix target, resolved),
        map_parse_links page_path body fun text target resolved =>
          (text, link_lead target, link_suffix target,
            if resolved = some source then some destination else resolved),
        views_rewrite_links fun hleads => ?_, List.map_map]
      · refine List.map_congr_left fun v hv => ?_
        simp only [Function.comp_apply, retarget]
        by_cases hsource : resolve_relative_target (base_dir_of page_path) v.2 = some source
        · obtain ⟨hlead, hsuffix, hlinkable, -⟩ := hview v hv hsource
          obtain ⟨hlead', hsuffix'⟩ := link_parts_relative_target hlinkable
          rw [if_pos hsource, if_pos hsource, hlead, hsuffix, hlead', hsuffix', hlinkable.resolve]
        · rw [if_neg hsource, if_neg hsource]
      · obtain ⟨v, hv, hsource⟩ := hleads
        exact no_paren_relative_target (hview v hv hsource).2.2.2

end Edit

/-- Three pages at the root. -/
def sample_referrer : PagePath :=
  ⟨["index".toList], parse_segments_valid (by decide : parse_segments "index".toList = .ok ["index".toList])⟩

def sample_source : PagePath :=
  ⟨["plan".toList], parse_segments_valid (by decide : parse_segments "plan".toList = .ok ["plan".toList])⟩

def sample_destination : PagePath :=
  ⟨["goals".toList], parse_segments_valid (by decide : parse_segments "goals".toList = .ok ["goals".toList])⟩

/-- A link to a part of a page loses the part. -/
theorem fragment_dropped :
    ¬MinimalEdit sample_referrer sample_source sample_destination "[x](plan.md#next)".toList := by
  intro h
  have hsuffixes := congrArg (List.map fun entry => entry.2.2.1) h.links
  rw [List.map_map, List.map_map] at hsuffixes
  revert hsuffixes
  decide

/-! ## There and back -/

/-- **Moving there and back.** Rewriting links to one page, and then back, gives back the body if and
only if no link leads to the other page before, and every link to the first one is written as the
rewriting writes it. -/
theorem rewrite_links_back_iff {page_path source destination : PagePath} {body : Text}
    (hne : source ≠ destination) (hsource : LinkExpressible (base_dir_of page_path) source)
    (hdestination : LinkExpressible (base_dir_of page_path) destination) :
    (rewrite_links page_path (rewrite_links page_path body source destination).1 destination source).1
        = body
      ↔ ∀ link ∈ parse_links page_path body, link.resolved ≠ some destination
        ∧ (link.resolved = some source →
          link.raw_target = relative_target (base_dir_of page_path) source) := by
  have hparen {page : PagePath} (h : LinkExpressible (base_dir_of page_path) page) :
      ')' ∉ relative_target (base_dir_of page_path) page := fun hmem => (h.plain _ hmem).2.2 rfl
  have hthere := @chunks_rewrite_links page_path source _ body fun _ _ _ => hparen hdestination
  have hback : chunks none (rewrite_links page_path
      (rewrite_links page_path body source destination).1 destination source).1
        = ((chunks none body).mapTarget (retarget (base_dir_of page_path) source destination)).mapTarget
          (retarget (base_dir_of page_path) destination source) := by
    rw [chunks_rewrite_links page_path fun _ _ _ => hparen hsource, hthere]
  -- what becomes of one target on the way and back
  have htarget (target : Text) : retarget (base_dir_of page_path) destination source
        (retarget (base_dir_of page_path) source destination target) = target
      ↔ resolve_relative_target (base_dir_of page_path) target ≠ some destination
        ∧ (resolve_relative_target (base_dir_of page_path) target = some source →
          target = relative_target (base_dir_of page_path) source) := by
    by_cases hresolved : resolve_relative_target (base_dir_of page_path) target = some source
    · rw [retarget, resolve_retarget target fun _ => hdestination]
      simp [hresolved, hne, eq_comm]
    · rw [show retarget _ source destination target = target from if_neg hresolved, retarget]
      split_ifs with hother
      · have hmoved : relative_target (base_dir_of page_path) source ≠ target := by
          rintro rfl
          exact hresolved (resolve_relative_target_relative hsource)
        simp [hother, hmoved]
      · simp [hother, hresolved]
  have hbody : ∀ t, t = body ↔ chunks none t = chunks none body := fun t =>
    ⟨congrArg (chunks none), fun h => by
      rw [← chunks_flatten none t, h, chunks_flatten]⟩
  have hsame : chunks none (rewrite_links page_path
        (rewrite_links page_path body source destination).1 destination source).1 = chunks none body
      ↔ ∀ c ∈ (chunks none body).links, resolve_relative_target (base_dir_of page_path) c.target
        ≠ some destination ∧ (resolve_relative_target (base_dir_of page_path) c.target = some source →
          c.target = relative_target (base_dir_of page_path) source) := by
    rw [hback, Chunked.ext_iff]
    simp only [Chunked.mapTarget, List.map_map, and_true]
    nth_rewrite 2 [← List.map_id (chunks none body).links]
    rw [List.map_inj_left]
    refine forall₂_congr fun c _ => ?_
    rw [← htarget, Chunk.ext_iff]
    simp [Chunk.mapTarget]
  rw [hbody, hsame]
  constructor
  · intro h link hlink
    obtain ⟨c, hc, hview⟩ := List.mem_map.1
      ((mem_views_iff page_path).2 ⟨link, hlink, rfl, resolved_of_mem hlink⟩)
    obtain ⟨-, htarget⟩ := Prod.mk.inj hview
    rw [resolved_of_mem hlink, ← htarget]
    exact h c hc
  · intro h c hc
    obtain ⟨link, hlink, hview, hresolved⟩ := (mem_views_iff page_path).1
      (List.mem_map.2 ⟨c, hc, rfl⟩)
    obtain ⟨-, htarget⟩ := Prod.mk.inj hview
    rw [htarget, ← hresolved]
    exact h link hlink

/-- A link that is written as the rewriting writes it. -/
theorem rewrite_links_back_written :
    (rewrite_links sample_referrer (rewrite_links sample_referrer "[x](plan.md)".toList
      sample_source sample_destination).1 sample_destination sample_source).1 = "[x](plan.md)".toList := by
  have hplan : relative_target (base_dir_of sample_referrer) sample_source = "plan.md".toList := by decide
  have hgoals : relative_target (base_dir_of sample_referrer) sample_destination = "goals.md".toList := by
    decide
  have hsource : LinkExpressible (base_dir_of sample_referrer) sample_source := by
    refine ⟨by simp [hplan], ?_, by rw [hplan]; decide, by decide⟩
    rw [hplan]
    rintro c ⟨⟩
    decide
  have hdestination : LinkExpressible (base_dir_of sample_referrer) sample_destination := by
    refine ⟨by simp [hgoals], ?_, by rw [hgoals]; decide, by decide⟩
    rw [hgoals]
    rintro c ⟨⟩
    decide
  refine (rewrite_links_back_iff (by decide) hsource hdestination).2 ?_
  rw [hplan]
  decide

end AgentSpace.Memory
