/-
A route table and the routes added to it, one after the other.

A route is a needle of words that has its brace at the start alone, so that it is found in a table exactly if it was
there or has been added, and the route of one slug is never that of another (`present_appendChild`).
- `apply_eq`: one component adds its route behind the last child, unless it is present.
- `run`: a sequence of components adds the routes that are not in the table, each at its first use.

Main result: `routed_all`.
-/
import Componentry.Proofs.Splice.Collections
import Componentry.Proofs.Splice.Presence
import Componentry.Proofs.Splice.Registering
import Componentry.Proofs.Listing

namespace Componentry.Router

open Text Splice

/-! ## Routes -/

/-- what the children of a route are called -/
def key : Text := "children".toList

/-- the route of a component in a line ending -/
def route (newline : Newline) (c : Component) : Text := withNewline newline (Listing.routeFragment "pages".toList c)

/-- whether the route of a component counts as present in the children of a table -/
def present (body : Text) (c : Component) : Bool := isPresent (Listing.routeFragment "pages".toList c) body

/-- a text in quotes -/
def quoted (t : Text) : Text := '\'' :: (t ++ ['\''])

/-- how a route loads its page -/
def page (c : Component) : Text := "import('./pages/".toList ++ c.slug ++ "/index.md')".toList

/-- the rest of a route's words, behind its brace -/
def needle (c : Component) : Text :=
  " path: '".toList ++ (c.slug ++ '\'' :: (" name: ".toList ++ quoted c.pascalName ++ " component: () => ".toList ++
    page c ++ " \x7d".toList))

section Words

variable {c d : Component} {newline : Newline}

theorem isKey_key : IsKey key := ⟨by decide, by decide⟩

theorem fragment_eq (c : Component) : Listing.routeFragment "pages".toList c =
    "\n      \x7b\n        path:".toList ++ (' ' :: quoted c.slug ++ (",\n        name:".toList ++
      (' ' :: quoted c.pascalName ++ (",\n        component: () =>".toList ++
        (' ' :: page c ++ "\n      \x7d,".toList))))) := by
  have h1 : "\n      \x7b\n        path: '".toList = "\n      \x7b\n        path:".toList ++ [' ', '\''] := by decide
  have h2 : "',\n        name: '".toList = '\'' :: (",\n        name:".toList ++ [' ', '\'']) := by decide
  have h3 : "',\n        component: () => import('./".toList =
      '\'' :: (",\n        component: () =>".toList ++ (' ' :: "import('./".toList)) := by decide
  have h4 : "import('./pages/".toList = "import('./".toList ++ ("pages".toList ++ ['/']) := by decide
  have h5 : "/index.md')\n      \x7d,".toList = "/index.md')".toList ++ "\n      \x7d,".toList := by decide
  unfold Listing.routeFragment quoted page
  rw [h1, h2, h3, h4, h5]
  simp only [List.append_assoc, List.cons_append, List.nil_append]

theorem not_isGap {x : Char} (h : Slug.isSlugChar x = true ∨ Slug.isNameChar x = true) :
    isBlank x = false ∧ evenChar x = x := by
  have hblank : isBlank x = false := h.elim Slug.isBlank_of_isSlugChar Slug.isBlank_of_isNameChar
  have hsign : ∀ y, Slug.isSlugChar y = false ∧ Slug.isNameChar y = false → x ≠ y := by
    rintro y ⟨h1, h2⟩ rfl
    simp [h1, h2] at h
  refine ⟨hblank, ?_⟩
  unfold evenChar
  rw [if_neg (hsign '"' (by decide)), if_neg (not_or.2 ⟨hsign ',' (by decide), hsign ';' (by decide)⟩)]

theorem isPlain_quoted {w : Text} (hw : ∀ x ∈ w, Slug.isSlugChar x = true ∨ Slug.isNameChar x = true) :
    IsPlain (quoted w) := by
  refine ⟨by simp [quoted], List.forall_mem_cons.2 ⟨by decide, List.forall_mem_append.2 ⟨?_, ?_⟩⟩⟩
  · exact fun x hx => not_isGap (hw x hx)
  decide

theorem isPlain_page (hc : Slug.IsName c.slug) : IsPlain (page c) := by
  have hstart : ∀ x ∈ "import('./pages/".toList, isBlank x = false ∧ evenChar x = x := by decide
  have hend : ∀ x ∈ "/index.md')".toList, isBlank x = false ∧ evenChar x = x := by decide
  refine ⟨List.append_ne_nil_of_right_ne_nil _ (by decide), ?_⟩
  unfold page
  simp only [List.forall_mem_append]
  exact ⟨⟨hstart, fun x hx => not_isGap (Or.inl (hc.chars x hx))⟩, hend⟩

/-- the words of a route -/
theorem tokens_route (hc : Slug.IsName c.slug) (newline : Newline) : tokens (route newline c) =
    ["\x7b".toList, "path:".toList, quoted c.slug, "name:".toList, quoted c.pascalName, "component:".toList, "()".toList,
      "=>".toList, page c, "\x7d".toList] := by
  have h1 : tokens "\n      \x7b\n        path:".toList = ["\x7b".toList, "path:".toList] := by decide
  have h2 : tokens ",\n        name:".toList = ["name:".toList] := by decide
  have h3 : tokens ",\n        component: () =>".toList = ["component:".toList, "()".toList, "=>".toList] := by decide
  have h4 : tokens "\n      \x7d,".toList = ["\x7d".toList] := by decide
  have hslug := (isPlain_quoted fun x hx => Or.inl (hc.chars x hx)).tokens
  have hname := (isPlain_quoted fun x hx => Or.inr (Index.isName_pascalName hc x hx)).tokens
  have hpage := (isPlain_page hc).tokens
  rw [route, tokens_withNewline, fragment_eq, tokens_append rfl, tokens_append rfl, tokens_append rfl, tokens_append rfl,
    tokens_append rfl, tokens_append rfl, h1, hslug, h2, hname, h3, hpage, h4]
  rfl

/-- **a route is a brace with a needle, and the brace is nowhere else in it** -/
theorem evened_route (hc : Slug.IsName c.slug) (newline : Newline) : evened (route newline c) = '\x7b' :: needle c := by
  have h0 : "\x7b".toList = ['\x7b'] := by decide
  have h1 : " path: '".toList = ' ' :: ("path:".toList ++ [' ', '\'']) := by decide
  have h2 : " name: ".toList = ' ' :: ("name:".toList ++ [' ']) := by decide
  have h3 : " component: () => ".toList =
      ' ' :: ("component:".toList ++ (' ' :: ("()".toList ++ (' ' :: ("=>".toList ++ [' ']))))) := by
    decide
  have h4 : " \x7d".toList = ' ' :: "\x7d".toList := by decide
  rw [evened_eq, tokens_route hc]
  unfold needle quoted
  rw [h0, h1, h2, h3, h4]
  simp only [join, List.append_assoc, List.cons_append, List.nil_append]

theorem evened_fragment (hc : Slug.IsName c.slug) :
    evened (Listing.routeFragment "pages".toList c) = '\x7b' :: needle c := by
  rw [evened_eq, ← tokens_withNewline .lf, ← evened_eq]
  exact evened_route hc .lf

theorem brace_notMem_needle (hc : Slug.IsName c.slug) : '\x7b' ∉ needle c := by
  have hslug : '\x7b' ∉ c.slug := fun hm => absurd (hc.chars _ hm) (by decide)
  have hname : '\x7b' ∉ c.pascalName := Index.name_notMem hc (by decide)
  unfold needle quoted page
  simp only [List.mem_append, List.mem_cons, hslug, hname, false_or, or_false]
  decide

theorem getLast?_needle (c : Component) : ('\x7b' :: needle c).getLast? = some '\x7d' := by
  have hend : " \x7d".toList = [' '] ++ ['\x7d'] := by decide
  unfold needle
  rw [hend]
  simp only [← List.append_assoc, ← List.cons_append]
  exact List.getLast?_concat

theorem pascalName_congr (h : c.slug = d.slug) : c.pascalName = d.pascalName := by
  unfold Component.pascalName
  rw [h]

/-- the slug of a route is read off its needle -/
theorem needle_prefix_iff (hc : Slug.IsName c.slug) (hd : Slug.IsName d.slug) :
    needle c <+: needle d ↔ c.slug = d.slug := by
  have hquote : ∀ {e : Component}, Slug.IsName e.slug → '\'' ∉ e.slug := fun he hm => absurd (he.chars _ hm) (by decide)
  constructor
  · rintro ⟨r, hr⟩
    unfold needle at hr
    simp only [List.append_assoc, List.cons_append, List.append_cancel_left_eq] at hr
    exact (append_cons_unique_of_notMem (hquote hc) (hquote hd) hr).1
  · intro h
    have hneedle : needle c = needle d := by
      unfold needle page
      rw [h, pascalName_congr h]
    rw [hneedle]

end Words

/-! ## Children -/

section Children

variable {c d : Component} {newline : Newline}

/-- a route to any directory is a brace behind white space, and ends with a comma -/
theorem exists_fragment_eq (newline : Newline) (pagesDir : Text) (c : Component) : ∃ r,
    withNewline newline (Listing.routeFragment pagesDir c) =
      newline.text ++ List.replicate 6 ' ' ++ '\x7b' :: (r ++ [',']) := by
  obtain ⟨r, hr⟩ : ∃ r, Listing.routeFragment pagesDir c = '\n' :: List.replicate 6 ' ' ++ '\x7b' :: (r ++ [',']) := by
    have hstart : "\n      \x7b\n        path: '".toList =
        '\n' :: List.replicate 6 ' ' ++ '\x7b' :: "\n        path: '".toList := by
      decide
    have hend : "/index.md')\n      \x7d,".toList = "/index.md')\n      \x7d".toList ++ [','] := by decide
    unfold Listing.routeFragment
    rw [hstart, hend]
    refine ⟨"\n        path: '".toList ++ (c.slug ++ ("',\n        name: '".toList ++ (c.pascalName ++
      ("',\n        component: () => import('./".toList ++ (pagesDir ++ ('/' :: (c.slug ++
        "/index.md')\n      \x7d".toList))))))), ?_⟩
    simp only [List.append_assoc, List.cons_append, List.nil_append]
  have hblanks : withNewline newline (List.replicate 6 ' ') = List.replicate 6 ' ' :=
    withNewline_of_notMem (by decide) (by decide) _
  have hlead : (List.replicate 6 ' ').getLast? ≠ some '\r' := by decide
  refine ⟨withNewline newline r, ?_⟩
  rw [hr, List.cons_append, withNewline_feed, withNewline_append _ (Or.inl hlead), hblanks,
    withNewline_cons (by decide) (fun h => absurd h (by decide)), withNewline_append _ (Or.inr (by decide)),
    withNewline_of_notMem (w := [',']) (by decide) (by decide)]
  simp

theorem route_eq (newline : Newline) (c : Component) : ∃ r, route newline c =
    newline.text ++ List.replicate 6 ' ' ++ '\x7b' :: (r ++ [',']) :=
  exists_fragment_eq newline "pages".toList c

/-- a route has no bracket and no carriage return but that of its line ending -/
theorem notMem_fragment {x : Char} (hc : Slug.IsName c.slug) (hx : x = '[' ∨ x = ']' ∨ x = '\r') :
    x ∉ Listing.routeFragment "pages".toList c := by
  have hslug : x ∉ c.slug := fun hm => by
    have := hc.chars _ hm
    rcases hx with rfl | rfl | rfl <;> revert this <;> decide
  have hname : x ∉ c.pascalName := Index.name_notMem hc (by rcases hx with rfl | rfl | rfl <;> decide)
  rw [fragment_eq]
  unfold quoted page
  simp only [List.mem_append, List.mem_cons, hslug, hname, false_or, or_false]
  rcases hx with rfl | rfl | rfl <;> decide

theorem isChild_route (hc : Slug.IsName c.slug) (newline : Newline) : IsChild (route newline c) := by
  have hbreak : '[' ∉ newline.text ∧ ']' ∉ newline.text := by cases newline <;> decide
  obtain ⟨r, hr⟩ := route_eq newline c
  refine ⟨⟨newline.text ++ List.replicate 6 ' ', '\x7b', _, hr, ?_, ?_⟩, fun hm => ?_, fun hm => ?_, ?_⟩
  · cases newline <;> unfold Blanks <;> decide
  · unfold IsHeadChar
    decide
  · exact (mem_withNewline hm).elim (notMem_fragment hc (Or.inl rfl)) hbreak.1
  · exact (mem_withNewline hm).elim (notMem_fragment hc (Or.inr (Or.inl rfl))) hbreak.2
  · rw [hr, ← List.cons_append, ← List.append_assoc, List.getLast?_concat]

theorem return_notMem_child (hc : Slug.IsName c.slug) (filled : Text) : '\r' ∉ separator filled ++ route .lf c := by
  refine List.mem_append.not.2 (not_or.2 ⟨fun hm => ?_, return_notMem_lf (notMem_fragment hc (Or.inr (Or.inr rfl)))⟩)
  exact absurd (mem_separator hm) (by decide)

/-- **the route of a component is present with another child exactly if it is before, or is that child** -/
theorem present_appendChild (hc : Slug.IsName c.slug) (hd : Slug.IsName d.slug) (newline : Newline) (body : Text) :
    present (appendChild body (route newline d)) c = true ↔ present body c = true ∨ c.slug = d.slug := by
  obtain ⟨tail, hbody, ht, hf⟩ := exists_trimEnd body
  rw [hbody]
  generalize trimEnd body = filled at *
  have hgaps : ∀ x ∈ tail, isGap x = true := fun x hx => isGap_of_isBlank (ht x hx)
  have hchild : tokens (separator filled ++ route newline d) = tokens (route newline d) := by
    unfold separator
    split_ifs
    · exact tokens_gap_cons (by decide) _
    · rfl
  have hcut : (separator filled ++ route newline d).head?.all isGap = true := by
    obtain ⟨r, hr⟩ := route_eq newline d
    rw [hr]
    unfold separator
    split_ifs <;> cases newline <;> rfl
  have hevened : evened (separator filled ++ route newline d) = '\x7b' :: needle d := by
    rw [evened_eq, hchild, ← evened_eq, evened_route hd]
  have hlast : ('\x7b' :: needle c).getLast? ≠ some ' ' := by
    rw [getLast?_needle]
    decide
  rw [appendChild_filled hf ht, present, present, isPresent_congr (tokens_append_gaps hgaps),
    isPresent_congr (tokens_append_gaps hgaps), isPresent_append (evened_fragment hc) hevened
      (brace_notMem_needle hc) hlast (brace_notMem_needle hd) (by decide) hcut, needle_prefix_iff hc hd]

end Children

/-! ## One component -/

section Step

variable {root : Path} {c : Component} {x body rest : Text} {newline : Newline} {done : List Component}

/-- **a component adds its route to the collection, unless it is present** -/
theorem apply_eq (root : Path) (h : IsCollection key x body rest) (c : Component) :
    (Listing.router (Settings.standard root)).apply (x ++ body ++ ']' :: rest) c =
      .ok (x ++ (if present body c then body else
        appendChild body (route (.ofContent (x ++ body ++ ']' :: rest)) c)) ++ ']' :: rest) := by
  have hstep : (Listing.routeStep key "pages".toList).apply (x ++ body ++ ']' :: rest) c = _ := intoCollection_eq h _
  exact Listing.applySteps_cons.2 ⟨_, hstep, rfl⟩

/-- a route does not change the line ending of a table -/
theorem ofContent_appendChild (h : IsCollection key x body rest) (hc : Slug.IsName c.slug)
    (hnewline : Newline.ofContent (x ++ body ++ ']' :: rest) = newline) :
    Newline.ofContent (x ++ appendChild body (route newline c) ++ ']' :: rest) = newline := by
  obtain ⟨y, rfl⟩ := h.opens isKey_key
  obtain ⟨tail, hbody, ht, hf⟩ := exists_trimEnd body
  rw [hbody] at hnewline ⊢
  generalize trimEnd body = filled at *
  have hlast := getLast?_append_ne (c := '\r') (a := y ++ ['[']) (by simp) hf (by decide)
  have hchild : (separator filled ++ route newline c).getLast? ≠ some '\r' := by
    rw [List.getLast?_append, (isChild_route hc newline).last, Option.some_or]
    decide
  have hparts : y ++ ['['] ++ (filled ++ (separator filled ++ route newline c) ++ tail) ++ ']' :: rest =
      y ++ ['['] ++ filled ++ (separator filled ++ route newline c) ++ (tail ++ ']' :: rest) := by
    simp
  rw [appendChild_filled hf ht, hparts, ofContent_insert hlast hchild]
  · rw [← hnewline]
    simp
  · rintro hlf ⟨a, b, hab⟩
    obtain rfl : newline = .lf := by
      rw [← hnewline, ← hlf]
      simp
    have hreturn := return_notMem_child hc filled
    rw [hab] at hreturn
    simp at hreturn

/-- a table with the routes of some components -/
def table (newline : Newline) (x body rest : Text) (done : List Component) : Text :=
  x ++ withChildren body (done.map (route newline)) ++ ']' :: rest

/-- what holds of a table to which routes have been added -/
structure Reached (newline : Newline) (x body rest : Text) (done : List Component) : Prop where
  named : ∀ d ∈ done, Slug.IsName d.slug
  collection : IsCollection key x (withChildren body (done.map (route newline))) rest
  ofContent : Newline.ofContent (table newline x body rest done) = newline
  present_iff : ∀ c, Slug.IsName c.slug →
    (present (withChildren body (done.map (route newline))) c = true ↔
      present body c = true ∨ c.slug ∈ done.map Component.slug)

theorem Reached.start (h : IsCollection key x body rest) :
    Reached (.ofContent (x ++ body ++ ']' :: rest)) x body rest [] := by
  refine ⟨by simp, by rwa [List.map_nil, withChildren, if_pos rfl], ?_, fun c _ => ?_⟩
  · rw [table, List.map_nil, withChildren, if_pos rfl]
  · simp [withChildren]

/-- one component after the others -/
theorem Reached.apply (root : Path) (h : Reached newline x body rest done) (hc : Slug.IsName c.slug) :
    (present body c = true ∨ c.slug ∈ done.map Component.slug →
      (Listing.router (Settings.standard root)).apply (table newline x body rest done) c =
        .ok (table newline x body rest done)) ∧
    (¬(present body c = true ∨ c.slug ∈ done.map Component.slug) →
      (Listing.router (Settings.standard root)).apply (table newline x body rest done) c =
        .ok (table newline x body rest (done ++ [c])) ∧ Reached newline x body rest (done ++ [c])) := by
  have happly := apply_eq root h.collection c
  have hofContent := h.ofContent
  rw [table] at hofContent
  rw [hofContent] at happly
  have hgrown : withChildren body ((done ++ [c]).map (route newline)) =
      appendChild (withChildren body (done.map (route newline))) (route newline c) := by
    have hchildren : ∀ q ∈ done.map (route newline), IsChild q := by
      simp only [List.forall_mem_map]
      exact fun d hd => isChild_route (h.named d hd) newline
    rw [List.map_append, List.map_singleton, appendChild_withChildren hchildren]
  constructor
  · intro hold
    rwa [if_pos ((h.present_iff c hc).2 hold)] at happly
  · intro hnew
    rw [if_neg (fun hpresent => hnew ((h.present_iff c hc).1 hpresent)), ← hgrown] at happly
    refine ⟨happly, ?_, ?_, ?_, fun d hd => ?_⟩
    · exact List.forall_mem_append.2 ⟨h.named, by simpa using hc⟩
    · rw [hgrown]
      exact h.collection.append isKey_key (isChild_route hc newline)
    · rw [table, hgrown]
      exact ofContent_appendChild h.collection hc hofContent
    · rw [hgrown, present_appendChild hd hc, h.present_iff d hd, List.map_append, List.mem_append, or_assoc]
      simp

end Step

/-! ## Any sequence of components -/

/-- the components of a sequence whose routes are not in the children of a table, each at its first use -/
def newcomers (body : Text) (cs : List Component) : List Component :=
  Index.fresh Component.slug [] (cs.filter fun c => !present body c)

section Run

variable {root : Path} {x body rest : Text} {newline : Newline} {done cs : List Component}

theorem Reached.run (root : Path) (h : Reached newline x body rest done) (hcs : ∀ c ∈ cs, Slug.IsName c.slug) :
    let new := Index.fresh Component.slug (done.map Component.slug) (cs.filter fun c => !present body c)
    cs.foldlM (Listing.router (Settings.standard root)).apply (table newline x body rest done) =
      .ok (table newline x body rest (done ++ new)) ∧ Reached newline x body rest (done ++ new) := by
  induction cs generalizing done with
  | nil => simpa [Index.fresh] using ⟨rfl, h⟩
  | cons c cs ih =>
    intro new
    obtain ⟨hold, hnew⟩ := h.apply root (hcs c List.mem_cons_self)
    have hcs' : ∀ d ∈ cs, Slug.IsName d.slug := fun d hd => hcs d (List.mem_cons_of_mem _ hd)
    rw [List.foldlM_cons]
    by_cases hadd : present body c = true ∨ c.slug ∈ done.map Component.slug
    · have hsame : new = Index.fresh Component.slug (done.map Component.slug) (cs.filter fun c => !present body c) := by
        rcases hadd with hadd | hadd
        · simp [new, hadd]
        · cases hpresent : present body c
          · simp only [new, List.filter_cons, hpresent, Bool.not_false, if_true, Index.fresh, hadd]
          · simp [new, hpresent]
      rw [hold hadd, hsame]
      exact ih h hcs'
    · obtain ⟨happly, hreached⟩ := hnew hadd
      rw [not_or, Bool.not_eq_true] at hadd
      set later := Index.fresh Component.slug ((done ++ [c]).map Component.slug) (cs.filter fun c => !present body c)
        with hlater
      have hmore : new = c :: later := by
        simp only [new, hlater, List.filter_cons, hadd.1, Bool.not_false, if_true, Index.fresh, hadd.2, if_false,
          List.map_append, List.map_cons, List.map_nil]
      rw [happly, hmore, show done ++ c :: later = done ++ [c] ++ later by simp]
      exact ih hreached hcs'

theorem present_congr {c d : Component} (h : c.slug = d.slug) (body : Text) : present body c = present body d := by
  unfold present Listing.routeFragment
  rw [h, pascalName_congr h]

/-- a slug of the sequence is present, or that of a newcomer -/
theorem present_or_newcomer (body : Text) (cs : List Component) (c : Component) :
    present body c = true ∨ c.slug ∈ (newcomers body cs).map Component.slug ↔
      present body c = true ∨ c.slug ∈ cs.map Component.slug := by
  refine or_congr_right' fun hpresent => ?_
  rw [newcomers, Index.mem_fresh]
  constructor
  · rintro ⟨hslug, -⟩
    obtain ⟨d, hd, hslug⟩ := List.mem_map.1 hslug
    exact List.mem_map.2 ⟨d, (List.mem_filter.1 hd).1, hslug⟩
  · intro hslug
    obtain ⟨d, hd, hslug⟩ := List.mem_map.1 hslug
    rw [← present_congr hslug] at hpresent
    exact ⟨List.mem_map.2 ⟨d, List.mem_filter.2 ⟨hd, by simpa using hpresent⟩, hslug⟩, List.not_mem_nil⟩

/-- **where a router step succeeds once, every sequence of components is added: nothing outside the children changes,
the routes that are not there go behind the last child in the line ending of the file, each at its first use, the route
of one slug is never that of another, and none of the components adds anything a second time** -/
theorem routed_all {t t₀ : Text} {c₀ : Component} (h : (Listing.router (Settings.standard root)).apply t c₀ = .ok t₀)
    (hcs : ∀ c ∈ cs, Slug.IsName c.slug) : ∃ x body rest, t = x ++ body ++ ']' :: rest ∧ IsCollection key x body rest ∧
      let children := withChildren body ((newcomers body cs).map (route (.ofContent t)))
      let t' := x ++ children ++ ']' :: rest
      cs.foldlM (Listing.router (Settings.standard root)).apply t = .ok t' ∧
        (∀ c, Slug.IsName c.slug →
          (present children c = true ↔ present body c = true ∨ c.slug ∈ cs.map Component.slug)) ∧
        ∀ c ∈ cs, (Listing.router (Settings.standard root)).apply t' c = .ok t' := by
  obtain ⟨t₁, h₁, -⟩ := Listing.applySteps_cons.1 h
  obtain ⟨x, body, rest, rfl, hcollection⟩ := exists_collection h₁
  refine ⟨x, body, rest, rfl, hcollection, ?_⟩
  have hstart : table (.ofContent (x ++ body ++ ']' :: rest)) x body rest [] = x ++ body ++ ']' :: rest := by
    rw [table, List.map_nil, withChildren, if_pos rfl]
  obtain ⟨hrun, hreached⟩ := (Reached.start hcollection).run root hcs
  rw [hstart, List.nil_append] at hrun
  rw [List.nil_append] at hreached
  refine ⟨hrun, fun c hc => (hreached.present_iff c hc).trans (present_or_newcomer body cs c), fun c hc => ?_⟩
  exact (hreached.apply root (hcs c hc)).1
    ((present_or_newcomer body cs c).2 (Or.inr (List.mem_map_of_mem hc)))

/-- a table in CRLF with a child that lacks its comma, and one component given twice -/
theorem routed_all_crlf :
    let root : Path := .ofText "repo".toList
    let t := "children: [home\r\n]\r\n".toList
    let cs : List Component := ["a-b", "a-b"].map fun slug => ⟨slug.toList, "Title".toList, [], []⟩
    ((Listing.router (Settings.standard root)).apply t ⟨"b".toList, "Title".toList, [], []⟩).toOption.isSome = true ∧
      (∀ c ∈ cs, Slug.IsName c.slug) ∧
      (∃ t', cs.foldlM (Listing.router (Settings.standard root)).apply t = .ok t' ∧
        ∀ c ∈ cs, (Listing.router (Settings.standard root)).apply t' c = .ok t') ∧
      (cs.foldlM (Listing.router (Settings.standard root)).apply t).toOption = some
        ("children: [home,\r\n      \x7b\r\n        path: 'a-b',\r\n        name: 'AB',\r\n" ++
          "        component: () => import('./pages/a-b/index.md')\r\n      \x7d,\r\n]\r\n").toList := by
  intro root t cs
  have hcs : ∀ c ∈ cs, Slug.IsName c.slug := by decide +kernel
  have honce : ((Listing.router (Settings.standard root)).apply t
      ⟨"b".toList, "Title".toList, [], []⟩).toOption.isSome = true := by decide +kernel
  cases h : (Listing.router (Settings.standard root)).apply t ⟨"b".toList, "Title".toList, [], []⟩ with
  | error failure =>
    rw [h] at honce
    exact absurd honce (by simp [Except.toOption])
  | ok t₀ =>
    obtain ⟨x, body, rest, -, -, hrun, -, hagain⟩ := routed_all h hcs
    exact ⟨rfl, hcs, ⟨_, hrun, hagain⟩, by decide +kernel⟩

end Run

end Componentry.Router
