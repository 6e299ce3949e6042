/-
A navigation bar and the components linked in it, one after the other, whatever their titles are.

A title may hold anything, also what looks like an element or the target of one. It stands behind the target of its own
link, so that what is found of the link starts with that target; and it stands behind all other elements, so that these
stay as they are.
- `targetOf?_linked`: what a link points at is read off its start.
- `apply_eq`: a component whose target is linked changes nothing, any other goes behind the last element.
- `step`, `run`: the elements and the targets there were stay in front, and what a sequence of components adds is enough
  for each of them to be found again.

Main result: `linked_all`.
-/
import Componentry.Proofs.Splice.Elements
import Componentry.Proofs.Splice.Inserting
import Componentry.Proofs.Text.Newlines

namespace Componentry.Navigation

open Text Listing

/-! ## Targets -/

/-- what an element of a navigation is called -/
def tag : Text := "router-link".toList

/-- the elements of a navigation, as texts -/
def texts (t : Text) : List Text := (elements tag t).map (·.textIn t)

/-- what the elements of a navigation point at -/
def links (t : Text) : List Text := Splice.targets (.element tag) .linkTarget t

/-- what the link of a component points at -/
def linkOf (c : Component) : Text := "/components/".toList ++ c.slug

theorem isTag_tag : IsTag tag := ⟨⟨'r', _, rfl, by decide⟩, by decide⟩

theorem links_eq (t : Text) : links t = (texts t).filterMap (Splice.targetOf? .linkTarget) := by
  rw [texts, List.filterMap_map]
  rfl

theorem mem_ends_linkTarget {b : Bool} {k e : Cursor} : e ∈ Pattern.linkTarget.ends b k ↔
    ∃ q part rest, k.rest = 't' :: 'o' :: '=' :: q :: (part ++ q :: rest) ∧ k.atWordEdge = true ∧ Index.IsQuote q ∧
      part ≠ [] ∧ (∀ c ∈ part, ¬Index.IsQuote c) ∧ e = ⟨some q, rest, (.key, part) :: (.quote, [q]) :: k.kept⟩ := by
  have hinside : ∀ c, (CharSet.noneOf ['\'', '"']).has c = true ↔ ¬Index.IsQuote c := by
    simp [CharSet.has, Index.IsQuote]
  simp only [Pattern.linkTarget, Pattern.mem_ends_andThen, Pattern.mem_ends_wordEdge, Pattern.mem_ends_text,
    Index.mem_ends_quotedPart (g := .key) (by decide), hinside]
  constructor
  · rintro ⟨m, ⟨m', ⟨hedge, rfl⟩, r, hk, rfl⟩, q, part, rest, hr, hq, hne, hpart, rfl⟩
    exact ⟨q, part, rest, by rw [hk, show r = q :: part ++ q :: rest from hr]; rfl, hedge, hq, hne, hpart, rfl⟩
  · rintro ⟨q, part, rest, hk, hedge, hq, hne, hpart, rfl⟩
    exact ⟨_, ⟨_, ⟨hedge, rfl⟩, _, hk, rfl⟩, q, part, rest, rfl, hq, hne, hpart, rfl⟩

theorem linkTarget_advances (b : Bool) : Pattern.linkTarget.Advances b := by
  intro k e he
  obtain ⟨q, part, rest, hk, -, -, -, -, rfl⟩ := mem_ends_linkTarget.1 he
  rw [hk]
  simp
  omega

/-- from a place that names a target it is read up to the next quote -/
theorem ends_linkTarget {b : Bool} {before : Option Char} {q : Char} {part rest : Text}
    (hedge : (⟨before, 't' :: 'o' :: '=' :: q :: (part ++ q :: rest), []⟩ : Cursor).atWordEdge = true)
    (hq : Index.IsQuote q) (hne : part ≠ []) (hpart : ∀ c ∈ part, ¬Index.IsQuote c) :
    ∃ more, Pattern.linkTarget.ends b ⟨before, 't' :: 'o' :: '=' :: q :: (part ++ q :: rest), []⟩ =
      ⟨some q, rest, [(.key, part), (.quote, [q])]⟩ :: more := by
  obtain ⟨e, more, hends⟩ := List.exists_cons_of_ne_nil (List.ne_nil_of_mem
    (mem_ends_linkTarget (b := b).2 ⟨q, part, rest, rfl, hedge, hq, hne, hpart, rfl⟩))
  obtain ⟨q', part', rest', hk, -, hq', -, hpart', rfl⟩ :=
    mem_ends_linkTarget.1 (by rw [hends]; exact List.mem_cons_self)
  simp only [List.cons.injEq, true_and] at hk
  obtain ⟨rfl, hcut⟩ := hk
  obtain ⟨rfl, -, rfl⟩ := append_cons_unique hpart hq hpart' hq hcut
  exact ⟨more, hends⟩

/-- **a target is read off the first place that can name one** -/
theorem targetOf?_linked {lead target more : Text}
    (hlead : ∀ v ∈ lead.tails, v.head? = some 't' → v.tail.head?.any (· ≠ 'o') = true)
    (hedge : lead.getLast?.any isWordChar = false) (hne : target ≠ []) (htarget : ∀ c ∈ target, ¬Index.IsQuote c) :
    Splice.targetOf? .linkTarget (lead ++ 't' :: 'o' :: '=' :: '"' :: (target ++ '"' :: more)) = some target := by
  have hskip : Pattern.linkTarget.scan false none 0 0 (lead ++ 't' :: 'o' :: '=' :: '"' :: (target ++ '"' :: more)) =
      Pattern.linkTarget.scan false (lead.getLast?.or none) (0 + lead.length) 0
        ('t' :: 'o' :: '=' :: '"' :: (target ++ '"' :: more)) := by
    -- no target is named before
    refine Pattern.scan_append_none (fun u v huv hv => List.eq_nil_iff_forall_not_mem.2 fun e he => ?_) 0
    obtain ⟨q, part, rest, hk, -⟩ := mem_ends_linkTarget.1 he
    obtain ⟨c, v, rfl⟩ := List.exists_cons_of_ne_nil hv
    simp only [List.cons_append, List.cons.injEq] at hk
    obtain ⟨rfl, hk⟩ := hk
    have hother := hlead ('t' :: v) ((List.mem_tails _ _).2 ⟨u, huv.symm⟩) rfl
    cases v with
    | nil => simp at hother
    | cons d v =>
      obtain rfl : d = 'o' := (List.cons.inj hk).1
      simp at hother
  have hplace : (⟨lead.getLast?.or none, 't' :: 'o' :: '=' :: '"' :: (target ++ '"' :: more), []⟩ : Cursor).atWordEdge =
      true := by
    rw [Cursor.atWordEdge_before (c := 't') rfl (by decide), Option.or_none]
    exact hedge
  obtain ⟨others, hends⟩ := ends_linkTarget (b := false) hplace (Or.inr rfl) hne htarget
  rw [Splice.targetOf?, Pattern.first?, Pattern.occurrences, hskip, Pattern.scan_some (linkTarget_advances false) hends]
  rfl

/-! ## The link of a component -/

/-- the start of a component's link, up to its target -/
def opening (c : Component) : Text := "<router-link to=\"".toList ++ linkOf c ++ ['"']

/-- the rest of it, up to its closing -/
def inside (c : Component) : Text :=
  " class=\"nav-item\" active-class=\"active\">\n          ".toList ++ c.pascalName ++ ' ' :: (c.title ++
    '\n' :: List.replicate 8 ' ')

section Link

variable {newline : Newline} {c : Component}

theorem fragment_eq (c : Component) :
    navigationFragment tag c = '\n' :: List.replicate 8 ' ' ++ (opening c ++ inside c ++ closing tag) := by
  have hstart : "\n        <".toList ++ tag ++ " to=\"/components/".toList =
      '\n' :: List.replicate 8 ' ' ++ ("<router-link to=\"".toList ++ "/components/".toList) := by decide
  have hmid : "\" class=\"nav-item\" active-class=\"active\">\n          ".toList =
      '"' :: " class=\"nav-item\" active-class=\"active\">\n          ".toList := by decide
  have hend : "\n        </".toList = '\n' :: List.replicate 8 ' ' ++ "</".toList := by decide
  unfold navigationFragment opening inside linkOf closing
  rw [hstart, hmid, hend]
  simp

theorem linkOf_facts (hc : Slug.IsName c.slug) : ∀ d ∈ linkOf c, ¬Index.IsQuote d ∧ isBlank d = false ∧ d ≠ '<' := by
  have hstart : ∀ d ∈ "/components/".toList, ¬Index.IsQuote d ∧ isBlank d = false ∧ d ≠ '<' := by
    unfold Index.IsQuote
    decide
  refine List.forall_mem_append.2 ⟨hstart, fun d hd => ?_⟩
  have hslug := hc.chars d hd
  refine ⟨?_, Slug.isBlank_of_isSlugChar hslug, ?_⟩
  · rintro (rfl | rfl) <;> revert hslug <;> decide
  · rintro rfl
    revert hslug
    decide

theorem linkOf_ne_nil (c : Component) : linkOf c ≠ [] := List.append_ne_nil_of_left_ne_nil (by decide) _

/-- behind its first character an opening has no other opening sign -/
theorem opening_eq (hc : Slug.IsName c.slug) : ∃ o, opening c = '<' :: 'r' :: o ∧ '<' ∉ o ∧ '\r' ∉ o ∧ '\n' ∉ o := by
  refine ⟨"outer-link to=\"".toList ++ linkOf c ++ ['"'], rfl, ?_⟩
  have hlink : ∀ d, isBlank d = true ∨ d = '<' → d ∉ linkOf c := by
    rintro d (hd | rfl) hm
    · simp [(linkOf_facts hc d hm).2.1] at hd
    · exact (linkOf_facts hc _ hm).2.2 rfl
  have h1 := hlink '<' (Or.inr rfl)
  have h2 := hlink '\r' (Or.inl (by decide))
  have h3 := hlink '\n' (Or.inl (by decide))
  simp only [List.mem_append, h1, h2, h3, or_false, not_or]
  decide

/-- the place in an opening at which the target is named -/
theorem opening_split (c : Component) (lead more : Text) : lead ++ (opening c ++ more) =
    (lead ++ "<router-link ".toList) ++ 't' :: 'o' :: '=' :: '"' :: (linkOf c ++ '"' :: more) := by
  have hstart : "<router-link to=\"".toList = "<router-link ".toList ++ ['t', 'o', '=', '"'] := by decide
  unfold opening
  rw [hstart]
  simp

/-- a component's target is what its link points at, behind white space or at the start of the text -/
theorem targetOf?_opening (hc : Slug.IsName c.slug) {lead : Text}
    (hlead : lead = [] ∨ lead = '\n' :: List.replicate 8 ' ')
    (more : Text) : Splice.targetOf? .linkTarget (lead ++ (opening c ++ more)) = some (linkOf c) := by
  have hplain : (∀ v ∈ (lead ++ "<router-link ".toList).tails, v.head? = some 't' → v.tail.head?.any (· ≠ 'o') = true) ∧
      (lead ++ "<router-link ".toList).getLast?.any isWordChar = false := by
    rcases hlead with rfl | rfl <;> decide
  rw [opening_split]
  exact targetOf?_linked hplain.1 hplain.2 (linkOf_ne_nil c) fun d hd => (linkOf_facts hc d hd).1

theorem getLast?_opening (c : Component) : (opening c).getLast? = some '"' := by
  unfold opening
  exact List.getLast?_concat

theorem withNewline_opening (hc : Slug.IsName c.slug) (newline : Newline) (t : Text) :
    withNewline newline (opening c ++ t) = opening c ++ withNewline newline t := by
  obtain ⟨o, ho, -, hr, hn⟩ := opening_eq hc
  have hend : (opening c).getLast? ≠ some '\r' := by
    rw [getLast?_opening]
    decide
  rw [withNewline_append _ (Or.inl hend),
    withNewline_of_notMem (w := opening c) (by rw [ho]; simpa using hr) (by rw [ho]; simpa using hn)]

theorem return_notMem_fragment (hc : Slug.IsName c.slug) (htitle : '\r' ∉ c.title) :
    '\r' ∉ navigationFragment tag c := by
  obtain ⟨o, ho, -, hr, -⟩ := opening_eq hc
  have hname : '\r' ∉ c.pascalName := Index.name_notMem hc (by decide)
  rw [fragment_eq, ho]
  unfold inside
  simp only [List.mem_append, List.mem_cons, hr, hname, htitle, false_or, or_false]
  decide

/-- the link of a component as it is put in -/
theorem withNewline_fragment (hc : Slug.IsName c.slug) (newline : Newline) :
    withNewline newline (navigationFragment tag c) = newline.text ++ List.replicate 8 ' ' ++
      (opening c ++ withNewline newline (inside c) ++ closing tag) := by
  have hclosing : withNewline newline (closing tag) = closing tag :=
    withNewline_of_notMem (by decide) (by decide) _
  have hblanks : withNewline newline (List.replicate 8 ' ') = List.replicate 8 ' ' :=
    withNewline_of_notMem (by decide) (by decide) _
  have hlead : (List.replicate 8 ' ').getLast? ≠ some '\r' := by decide
  have hend : (closing tag).head? ≠ some '\n' := by decide
  rw [fragment_eq, List.cons_append, withNewline_feed, withNewline_append _ (Or.inl hlead),
    withNewline_append _ (Or.inr hend), withNewline_opening hc, hclosing, hblanks]
  simp

theorem isElement_link (c : Component) (more : Text) : IsElement tag (opening c ++ more ++ closing tag) := by
  refine isElement_iff.2 ⟨' ', "to=\"".toList ++ linkOf c ++ ['"'] ++ more, ?_, Or.inl (by decide)⟩
  have hstart : "<router-link to=\"".toList = '<' :: (tag ++ [' ']) ++ "to=\"".toList := by decide
  unfold opening
  rw [hstart]
  simp

/-- a closing in an opened link stands behind its opening -/
theorem closing_of_opened (hc : Slug.IsName c.slug) {more : Text} (h : closing tag <:+: opening c ++ more) :
    closing tag <:+: more := by
  obtain ⟨o, ho, hplain, -⟩ := opening_eq hc
  rw [closing_eq] at h ⊢
  rw [ho, List.cons_append] at h
  rcases List.infix_cons_iff.1 h with h | h
  · exact absurd (List.cons_prefix_cons.1 (List.cons_prefix_cons.1 h).2).1 (by decide)
  · exact infix_of_append_left h (by simp [hplain])

/-- a closing that is not in the title of a link is nowhere in the link before its end -/
theorem closing_not_infix (hc : Slug.IsName c.slug) (htitle : ¬closing tag <:+: c.title) (newline : Newline) :
    ¬closing tag <:+: opening c ++ withNewline newline (inside c) := by
  have hunbroken : IsUnbroken (closing tag) := ⟨by decide, by decide, by decide⟩
  have hsign : '<' ∈ closing tag := by decide
  intro h
  have hraw := hunbroken.infix_of_withNewline (closing_of_opened hc h)
  unfold inside at hraw
  rcases infix_of_append_cons hraw (by decide) with hstart | hend
  · have hclass : '<' ∉ " class=\"nav-item\" active-class=\"active\">\n          ".toList := by decide
    have hname : '<' ∉ c.pascalName := Index.name_notMem hc (by decide)
    exact (List.mem_append.1 (hstart.subset hsign)).elim hclass hname
  · rcases infix_of_append_cons hend (by decide) with hend | hend
    · exact htitle hend
    · exact absurd (hend.subset hsign) (by decide)

/-- an element at the start of a link has the target in it -/
theorem exists_opening_append (hc : Slug.IsName c.slug) {more y r : Text} (hy : opening c ++ more = y ++ r)
    (helement : IsElement tag y) : ∃ a, y = opening c ++ a := by
  rcases List.append_eq_append_iff.1 hy with ⟨a, ha, -⟩ | ⟨a, ha, -⟩
  · exact ⟨a, ha⟩
  · -- the closing has an opening sign, and stands behind the first place
    obtain ⟨o, ho, hplain, -⟩ := opening_eq hc
    obtain ⟨d, body, rfl, -⟩ := isElement_iff.1 helement
    have hmem : '<' ∈ 'r' :: o := by
      rw [ho] at ha
      rw [(List.cons.inj ha).2, closing_eq]
      simp
    simp [hplain] at hmem

/-- the link of a component whose title has no closing is one element -/
theorem sole_element (hc : Slug.IsName c.slug) (htitle : ¬closing tag <:+: c.title) (newline : Newline) {z r : Text}
    (heq : opening c ++ withNewline newline (inside c) ++ closing tag = z ++ r) (hz : IsElement tag z) : r = [] := by
  have hnot := closing_not_infix hc htitle newline
  have hle := isTag_tag.length_le_of_closing (v := []) hnot (by simpa using heq) hz
  rw [heq, List.length_append] at hle
  exact List.length_eq_zero_iff.1 (by omega)

end Link

/-! ## One component -/

section Step

variable {root : Path} {t : Text} {c : Component} {m : Occurrence}

/-- **a component that is linked changes nothing, any other is put in behind the last element** -/
theorem apply_eq (hc : Slug.IsName c.slug) (hm : (elements tag t).getLast? = some m) :
    (Listing.navigation (Settings.standard root)).apply t c = .ok (if linkOf c ∈ links t then t else
      Splice.insertAt t m.stop (withNewline (.ofContent t) (navigationFragment tag c))) := by
  have hgiven : Splice.given? (some Pattern.linkTarget) = some Pattern.linkTarget := by decide
  have hkeeps : Pattern.linkTarget.keeps .key = true := by decide
  have htarget : Splice.targetOf? .linkTarget (navigationFragment tag c) = some (linkOf c) := by
    rw [fragment_eq, List.append_assoc (opening c)]
    exact targetOf?_opening hc (Or.inr rfl) _
  have hfirst : (Pattern.linkTarget.first? false (navigationFragment tag c)).isSome = true := by
    cases hfirst : Pattern.linkTarget.first? false (navigationFragment tag c) with
    | none => simp [Splice.targetOf?, hfirst] at htarget
    | some o => rfl
  have hstep : (linkStep tag).apply t c = .ok (if linkOf c ∈ links t then t else
      Splice.insertAt t m.stop (withNewline (.ofContent t) (navigationFragment tag c))) := by
    change Splice.afterLast (.element tag) (some .linkTarget) t (navigationFragment tag c) = _
    replace hm : ((Pattern.element tag).occurrences false t).getLast? = some m := hm
    simp only [Splice.afterLast, hm, hgiven, Option.filter_some, hfirst, if_true, hkeeps, htarget, Option.any_some,
      List.contains_iff_mem, Bool.not_true, Bool.false_eq_true, if_false]
    unfold links
    split_ifs <;> rfl
  exact applySteps_cons.2 ⟨_, hstep, rfl⟩

/-- **what is put in is matched from its start, so that it has the target of its component, and all of it is matched
unless its title closes it** -/
theorem exists_inserted (hc : Slug.IsName c.slug) (hm : (elements tag t).getLast? = some m) (newline : Newline) :
    let piece := withNewline newline (navigationFragment tag c)
    let t' := Splice.insertAt t m.stop piece
    ∃ y others more, Splice.targetOf? .linkTarget y = some (linkOf c) ∧ texts t' = texts t ++ y :: others ∧
      elements tag t' = elements tag t ++
        ⟨m.stop + (newline.text.length + 8), m.stop + (newline.text.length + 8) + y.length, []⟩ :: more ∧
      (¬closing tag <:+: c.title → more = [] ∧ newline.text.length + 8 + y.length = piece.length) := by
  intro piece t'
  obtain ⟨p, V, rfl, hstop, helements, hV⟩ := exists_last_element isTag_tag hm
  set u := p ++ closing tag with hu
  set lead := newline.text ++ List.replicate 8 ' ' with hlead
  set x := opening c ++ withNewline newline (inside c) ++ closing tag with hx
  have hpiece : piece = lead ++ x := withNewline_fragment hc newline
  have ht' : t' = u ++ (lead ++ x) ++ V := by
    change Splice.insertAt (u ++ V) m.stop piece = _
    rw [Splice.insertAt, hstop, List.take_left' rfl, List.drop_left' rfl, hpiece]
  have hsign : '<' ∉ lead := by
    cases newline <;> decide
  obtain ⟨y, r, more, hy, helement, hall, hsole⟩ :=
    elements_insert (p := p) isTag_tag hV hsign (isElement_link c (withNewline newline (inside c)))
  rw [← hu, helements, ← hx, ← ht'] at hall
  obtain ⟨a, rfl⟩ := exists_opening_append hc (by rw [← List.append_assoc, hy]) helement
  set y := opening c ++ a with hyeq
  have hleadlen : lead.length = newline.text.length + 8 := by simp [hlead]
  have hlen : (u ++ lead).length = m.stop + (newline.text.length + 8) := by
    rw [hstop, ← hleadlen]
    exact List.length_append
  have hold : (elements tag (u ++ V)).map (·.textIn t') = texts (u ++ V) := by
    refine List.map_congr_left fun o ho => ?_
    rw [← helements] at ho
    have hle := stop_le_of_mem_elements ho
    rw [ht', List.append_assoc u, textIn_append hle, textIn_append hle]
  have hnew : (Occurrence.mk (u ++ lead).length (u ++ lead ++ y).length []).textIn t' = y := by
    rw [ht', hx, hy, show u ++ (lead ++ (y ++ r)) ++ V = u ++ lead ++ y ++ (r ++ V) by simp]
    exact textIn_between _ _ _ _
  refine ⟨y, more.map (·.textIn t'), more, targetOf?_opening hc (Or.inl rfl) a, ?_, ?_, fun htitle => ?_⟩
  · rw [texts, hall, List.map_append, List.map_cons, hold, hnew]
  · rw [hall, show (u ++ lead ++ y).length = (u ++ lead).length + y.length from List.length_append, hlen]
  · refine ⟨hsole fun z r' hz hze => sole_element hc htitle newline hz hze, ?_⟩
    obtain rfl := sole_element hc htitle newline hy helement
    rw [hpiece, hx, hy, List.append_nil, ← hleadlen]
    exact List.length_append.symm

/-- what components leave as it is: the elements there were, their texts and their targets stay in front -/
structure Extends (t t' : Text) : Prop where
  elements : elements tag t <+: elements tag t'
  texts : texts t <+: texts t'
  links : links t <+: links t'

theorem Extends.refl (t : Text) : Extends t t := ⟨List.prefix_rfl, List.prefix_rfl, List.prefix_rfl⟩

theorem Extends.trans {t u v : Text} (h1 : Extends t u) (h2 : Extends u v) : Extends t v :=
  ⟨h1.elements.trans h2.elements, h1.texts.trans h2.texts, h1.links.trans h2.links⟩

theorem apply_of_nil (h : elements tag t = []) (c : Component) :
    (Listing.navigation (Settings.standard root)).apply t c = .ok t :=
  navigation_apply_of_no_element ((element_occurs_iff tag false t).not.1 (not_not.2 h))

/-- one component: it is linked afterwards if there are elements, and what was there stays in front -/
theorem step (root : Path) (hc : Slug.IsName c.slug) (t : Text) :
    ∃ t', (Listing.navigation (Settings.standard root)).apply t c = .ok t' ∧ Extends t t' ∧ (elements tag t ≠ [] → linkOf c ∈ links t') := by
  cases hm : (elements tag t).getLast? with
  | none =>
    have hnil := List.getLast?_eq_none_iff.1 hm
    exact ⟨t, apply_of_nil hnil c, Extends.refl t, fun h => absurd hnil h⟩
  | some m =>
    refine ⟨_, apply_eq hc hm, ?_⟩
    split_ifs with hlinked
    · exact ⟨Extends.refl t, fun _ => hlinked⟩
    · obtain ⟨y, others, more, htarget, htexts, helements, -⟩ := exists_inserted hc hm (.ofContent t)
      have hlinks : links (Splice.insertAt t m.stop (withNewline (.ofContent t) (navigationFragment tag c))) =
          links t ++ linkOf c :: others.filterMap (Splice.targetOf? .linkTarget) := by
        rw [links_eq, htexts, List.filterMap_append, List.filterMap_cons, htarget, ← links_eq]
      exact ⟨⟨⟨_, helements.symm⟩, ⟨_, htexts.symm⟩, ⟨_, hlinks.symm⟩⟩, fun _ => by simp [hlinks]⟩

theorem apply_of_linked (hc : Slug.IsName c.slug) (h : linkOf c ∈ links t) :
    (Listing.navigation (Settings.standard root)).apply t c = .ok t := by
  cases hm : (elements tag t).getLast? with
  | none => exact apply_of_nil (List.getLast?_eq_none_iff.1 hm) c
  | some m => rw [apply_eq hc hm, if_pos h]

end Step

/-! ## Any sequence of components -/

variable {root : Path} {t : Text} {cs : List Component}

/-- every sequence of components: what was there stays in front, and each of them is linked if there are elements -/
theorem run (root : Path) (hcs : ∀ c ∈ cs, Slug.IsName c.slug) (t : Text) :
    ∃ t', cs.foldlM (Listing.navigation (Settings.standard root)).apply t = .ok t' ∧ Extends t t' ∧
      (elements tag t ≠ [] → ∀ c ∈ cs, linkOf c ∈ links t') := by
  induction cs generalizing t with
  | nil => exact ⟨t, rfl, Extends.refl t, by simp⟩
  | cons c cs ih =>
    obtain ⟨u, hu, hext, hlinked⟩ := step root (hcs c List.mem_cons_self) t
    obtain ⟨v, hv, hext', hall⟩ := ih (fun d hd => hcs d (List.mem_cons_of_mem _ hd)) u
    refine ⟨v, by rw [List.foldlM_cons, hu]; exact hv, hext.trans hext', fun hne d hd => ?_⟩
    rcases List.mem_cons.1 hd with rfl | hd
    · exact hext'.links.subset (hlinked hne)
    · refine hall (fun hnil => hne ?_) d hd
      exact List.prefix_nil.1 (hnil ▸ hext.elements)

/-- a navigation without elements stays whatever is added -/
theorem run_of_nil (h : elements tag t = []) (cs : List Component) :
    cs.foldlM (Listing.navigation (Settings.standard root)).apply t = .ok t := by
  induction cs with
  | nil => rfl
  | cons c cs ih => rw [List.foldlM_cons, apply_of_nil h]; exact ih

/-- **a navigation without elements stays, and so does one in which a component is linked; any other component goes, in
the line ending of the text, right behind the last element, all elements before stay as they are, it is linked, and all
that is added is one element unless its title closes it; so every sequence of components with any titles is linked, the
targets there were stay in front, and none of them adds anything a second time** -/
theorem linked_all {c : Component} (hc : Slug.IsName c.slug) (hcs : ∀ c ∈ cs, Slug.IsName c.slug) :
    ((elements tag t = [] → (Listing.navigation (Settings.standard root)).apply t c = .ok t) ∧
      (linkOf c ∈ links t → (Listing.navigation (Settings.standard root)).apply t c = .ok t) ∧
      ∀ m, (elements tag t).getLast? = some m → linkOf c ∉ links t →
        let piece := withNewline (.ofContent t) (navigationFragment tag c)
        let t' := Splice.insertAt t m.stop piece
        (Listing.navigation (Settings.standard root)).apply t c = .ok t' ∧ Extends t t' ∧ linkOf c ∈ links t' ∧
          (¬closing tag <:+: c.title → elements tag t' = elements tag t ++
            [⟨m.stop + ((Newline.ofContent t).text.length + 8), m.stop + piece.length, []⟩])) ∧
    ∃ t', cs.foldlM (Listing.navigation (Settings.standard root)).apply t = .ok t' ∧ Extends t t' ∧
      (elements tag t ≠ [] → ∀ c ∈ cs, linkOf c ∈ links t') ∧
      ∀ c ∈ cs, (Listing.navigation (Settings.standard root)).apply t' c = .ok t' := by
  refine ⟨⟨fun h => apply_of_nil h c, apply_of_linked hc, fun m hm hlinked => ?_⟩, ?_⟩
  · intro piece t'
    have happly : (Listing.navigation (Settings.standard root)).apply t c = .ok t' := by
      rw [apply_eq hc hm, if_neg hlinked]
    obtain ⟨u, hu, hext, hlink⟩ := step root hc t
    obtain rfl : t' = u := Except.ok.inj (happly.symm.trans hu)
    refine ⟨happly, hext, hlink fun hnil => by simp [hnil] at hm, fun htitle => ?_⟩
    obtain ⟨y, -, more, -, -, helements, hone⟩ := exists_inserted hc hm (.ofContent t)
    obtain ⟨rfl, hlen⟩ := hone htitle
    rw [helements, Nat.add_assoc, hlen]
  · obtain ⟨t', hrun, hext, hlinked⟩ := run root hcs t
    refine ⟨t', hrun, hext, hlinked, fun d hd => ?_⟩
    by_cases hnil : elements tag t = []
    · obtain rfl : t = t' := Except.ok.inj ((run_of_nil hnil cs).symm.trans hrun)
      exact apply_of_nil hnil d
    · exact apply_of_linked (hcs d hd) (hlinked hnil d hd)

/-- a title that closes its own link and opens one to the next component, so that this one is linked already -/
theorem linked_all_title_of_links :
    let root : Path := .ofText "repo".toList
    let t := "<nav>\n  <router-link to=\"/\">Home</router-link>\n</nav>\n".toList
    let title := "</router-link> <router-link to='/components/bar'>".toList
    let cs : List Component := ["foo", "bar", "foo", "a-b"].map fun slug => ⟨slug.toList, title, [], []⟩
    (∀ c ∈ cs, Slug.IsName c.slug) ∧ elements tag t ≠ [] ∧
      (∃ t', cs.foldlM (Listing.navigation (Settings.standard root)).apply t = .ok t' ∧
        ∀ c ∈ cs, linkOf c ∈ links t' ∧ (Listing.navigation (Settings.standard root)).apply t' c = .ok t') ∧
      (cs.foldlM (Listing.navigation (Settings.standard root)).apply t).toOption.map links =
        some ["/".toList, "/components/foo".toList, "/components/bar".toList, "/components/a-b".toList,
          "/components/bar".toList] := by
  intro root t title cs
  have hcs : ∀ c ∈ cs, Slug.IsName c.slug := by decide +kernel
  have hne : elements tag t ≠ [] := by decide +kernel
  obtain ⟨-, t', hrun, -, hlinked, hagain⟩ := @linked_all root t cs _ (hcs _ List.mem_cons_self) hcs
  exact ⟨hcs, hne, ⟨t', hrun, fun c hc => ⟨hlinked hne c hc, hagain c hc⟩⟩, by decide +kernel⟩

end Componentry.Navigation
