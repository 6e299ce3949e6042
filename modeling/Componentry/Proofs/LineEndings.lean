/-
What a component does to the line endings of a listing: nothing.

Every splice exchanges one part of a text, at a cut that parts no CRLF. What it puts there is written in the line ending
of the text, but for the entry of a list: a line of its own is only given to an entry where the list has one, so that no
line ending is needed in a list within one line.
- `insert_line_endings`: a piece put in behind anything but a carriage return.
- `importStep_line_endings`, `listStep_line_endings`, `router_line_endings`, `navigation_line_endings`: one splice after
  the other. A list can lose its last CRLF, and then there is no line feed left in it.

Main result: `apply_keeps_line_endings`.
-/
import Componentry.Proofs.Navigation
import Componentry.Proofs.Router
import Componentry.Proofs.Splice.Blocks

namespace Componentry.Listing

open Text

variable {t t' : Text} {c : Component}

/-- a piece that is put in, written in the line ending of the text -/
theorem insert_line_endings {a b : Text} (piece : Newline → Text) (ha : a.getLast? ≠ some '\r')
    (hcrlf : ¬HasBareFeed (piece .crlf)) :
    (HasCrlf (a ++ b) → ¬HasBareFeed (a ++ b) → ¬HasBareFeed (a ++ piece (.ofContent (a ++ b)) ++ b)) ∧
      ('\r' ∉ a ++ b → '\r' ∉ piece .lf → '\r' ∉ a ++ piece (.ofContent (a ++ b)) ++ b) := by
  constructor
  · intro hfound hbare
    rw [ofContent_eq_crlf_iff.2 hfound]
    rw [← List.append_nil a] at hbare
    exact not_hasBareFeed_replace hbare ha (Or.inl (by rwa [List.append_nil])) fun _ => hcrlf
  · intro hno hpiece
    rw [ofContent_eq_lf hno]
    simp only [List.mem_append, not_or] at hno ⊢
    exact ⟨⟨hno.1, hpiece⟩, hno.2⟩

/-! ## Imports -/

theorem importLine_eq_withNewline (hc : Slug.IsName c.slug) (newline : Newline) :
    Index.importLine newline c = withNewline newline ('\n' :: importFragment c) := by
  obtain ⟨hr, hn⟩ := Index.break_notMem_importFragment hc
  rw [withNewline_feed, withNewline_of_notMem hr hn, Index.importLine]

theorem importStep_line_endings (hc : Slug.IsName c.slug) (h : importStep.apply t c = .ok t') :
    (HasCrlf t → ¬HasBareFeed t → ¬HasBareFeed t') ∧ ('\r' ∉ t → '\r' ∉ t') := by
  obtain ⟨u, V, rfl, hu, -, -, -, rfl⟩ := Index.exists_block_of_afterImports hc h
  obtain ⟨x, hx, -, hreturn⟩ := hu.visible
  have hlast : u.getLast? ≠ some '\r' := by simpa [hx] using hreturn
  unfold Index.imported
  split_ifs
  · exact ⟨fun _ h => h, id⟩
  · simp only [importLine_eq_withNewline hc]
    obtain ⟨hfeed, hno⟩ := insert_line_endings (fun n => withNewline n ('\n' :: importFragment c)) (b := V) hlast
      (not_hasBareFeed_crlf _)
    refine ⟨hfeed, fun h => hno h (return_notMem_lf ?_)⟩
    simpa using (Index.break_notMem_importFragment hc).1

/-! ## Lists -/

section Lists

variable {newline : Newline} {body entry : Text}

/-- within one line an entry needs no line ending -/
theorem appendEntry_of_notMem (hbody : '\n' ∉ body) (n n' : Newline) (entry : Text) :
    Splice.appendEntry n body entry = Splice.appendEntry n' body entry := by
  have hstacked : Splice.isStacked body = false := by
    have hrest : '\n' ∉ body.dropWhile fun c => c = ' ' || c = '\t' :=
      fun hm => hbody ((List.dropWhile_sublist _).subset hm)
    unfold Splice.isStacked
    split
    · rename_i h
      rw [h] at hrest
      simp at hrest
    · rename_i h
      rw [h] at hrest
      simp at hrest
    · rfl
  simp [Splice.appendEntry, hstacked]

theorem not_hasBareFeed_gap {gap : Text} (h : Splice.IsGap .crlf gap) : ¬HasBareFeed gap := by
  rcases h with rfl | ⟨indent, rfl, -, hindent⟩
  · exact not_hasBareFeed_of_notMem (by decide)
  · have hline : Newline.crlf.text = withNewline .crlf ['\n'] := rfl
    intro hbare
    rcases hbare.of_append with hbare | hbare
    · rw [hline] at hbare
      exact not_hasBareFeed_crlf _ hbare
    · exact not_hasBareFeed_of_notMem hindent hbare

theorem not_hasBareFeed_appendEntry (hbody : ¬HasBareFeed body) (hnewline : newline = .lf → '\n' ∉ body)
    (hentry : '\n' ∉ entry) : ¬HasBareFeed (Splice.appendEntry newline body entry) := by
  have hcrlf : Splice.appendEntry newline body entry = Splice.appendEntry .crlf body entry := by
    cases newline with
    | crlf => rfl
    | lf => exact appendEntry_of_notMem (hnewline rfl) _ _ _
  rw [hcrlf]
  obtain ⟨tail, hsplit, ht, hf⟩ := exists_trimEnd body
  by_cases hfilled : trimEnd body = []
  · obtain ⟨pad, hpad, happend⟩ := Splice.appendEntry_blanks .crlf (trimEnd_eq_nil_iff.1 hfilled) entry
    rw [happend]
    refine not_hasBareFeed_of_notMem ?_
    rcases hpad with rfl | rfl <;> simp [hentry]
  · rw [hsplit] at hbody ⊢
    obtain ⟨gap, hgap, -, happend⟩ := Splice.appendEntry_filled .crlf hf hfilled ht entry
    have hlast : (trimEnd body).getLast? ≠ some '\r' := fun h => absurd (hf _ h) (by decide)
    rw [happend]
    rw [← List.append_nil (trimEnd body)] at hbody
    refine not_hasBareFeed_replace hbody hlast (Or.inl (by rwa [List.append_nil])) fun _ => ?_
    have hbare := not_hasBareFeed_gap hgap
    have hgapentry : ¬HasBareFeed (gap ++ entry) := fun h =>
      h.of_append.elim hbare (not_hasBareFeed_of_notMem hentry)
    unfold Splice.joined
    split_ifs
    · exact fun h => h.of_append.elim hgapentry (not_hasBareFeed_of_notMem (by decide))
    · rw [List.cons_append, ← List.singleton_append]
      exact fun h => h.of_append.elim (not_hasBareFeed_of_notMem (by decide)) hgapentry

theorem return_notMem_appendEntry (hbody : '\r' ∉ body) (hentry : '\r' ∉ entry) :
    '\r' ∉ Splice.appendEntry .lf body entry := by
  obtain ⟨tail, hsplit, -, -⟩ := exists_trimEnd body
  have hfilled : '\r' ∉ trimEnd body := fun hm => hbody (by rw [hsplit]; exact List.mem_append_left _ hm)
  have htail : '\r' ∉ body.drop (trimEnd body).length := fun hm => hbody (List.mem_of_mem_drop hm)
  have hindent : '\r' ∉ indentation (lastLine (trimEnd body)) := fun hm => by
    have hline : '\r' ∈ lastLine (trimEnd body) := (List.takeWhile_sublist _).subset hm
    exact hfilled (List.mem_reverse.1 ((List.takeWhile_sublist _).subset (List.mem_reverse.1 hline)))
  unfold Splice.appendEntry
  simp only
  split_ifs <;> simp [hfilled, htail, hindent, hentry, Newline.text]

end Lists

theorem listStep_line_endings (kind : Index.ListKind) (hc : Slug.IsName c.slug) (h : kind.step.apply t c = .ok t') :
    (¬HasBareFeed t → ¬HasBareFeed t') ∧ ('\r' ∉ t → '\r' ∉ t') := by
  have hn := Index.name_notMem (d := '\n') hc (by decide)
  have hr := Index.name_notMem (d := '\r') hc (by decide)
  obtain ⟨x, body, rest, rfl, hlist, -, rfl⟩ := Index.exists_list_of_step h
  obtain ⟨y, rfl⟩ := hlist.opens.ends
  have hcloser : (kind.closer :: rest).head? ≠ some '\n' := by cases kind <;> simp [Index.ListKind.closer]
  have hopener : (y ++ [kind.opener]).getLast? ≠ some '\r' := by
    rw [List.getLast?_concat]
    cases kind <;> decide
  unfold Index.entered
  split_ifs
  · exact ⟨id, id⟩
  · constructor
    · intro hbare
      refine not_hasBareFeed_replace hbare hopener (Or.inr hcloser) fun hbody => ?_
      refine not_hasBareFeed_appendEntry hbody (fun hlf hfeed => ?_) hn
      have hcrlf : ¬HasCrlf (y ++ [kind.opener] ++ body ++ kind.closer :: rest) := by
        rw [← ofContent_eq_crlf_iff, hlf]
        decide
      exact notMem_of_not_hasBareFeed hbare hcrlf (by simp [hfeed])
    · intro hno
      rw [ofContent_eq_lf hno]
      simp only [List.mem_append, not_or] at hno ⊢
      exact ⟨⟨hno.1.1, return_notMem_appendEntry hno.1.2 hr⟩, hno.2⟩

/-! ## Collections and elements -/

theorem router_line_endings {root : Path} (hc : Slug.IsName c.slug)
    (h : (router (Settings.standard root)).apply t c = .ok t') :
    (HasCrlf t → ¬HasBareFeed t → ¬HasBareFeed t') ∧ ('\r' ∉ t → '\r' ∉ t') := by
  obtain ⟨t₁, h₁, -⟩ := applySteps_cons.1 h
  obtain ⟨x, body, rest, rfl, hcollection⟩ := Splice.exists_collection h₁
  rw [Router.apply_eq root hcollection] at h
  obtain rfl := Except.ok.inj h
  split_ifs
  · exact ⟨fun _ h => h, id⟩
  · obtain ⟨y, rfl⟩ := hcollection.opens Router.isKey_key
    obtain ⟨tail, hbody, ht, hf⟩ := exists_trimEnd body
    have hlast := getLast?_append_ne (c := '\r') (a := y ++ ['[']) (by simp) hf (by decide)
    have hgrown : ∀ piece, Splice.appendChild body piece =
        trimEnd body ++ (Splice.separator (trimEnd body) ++ piece) ++ tail := by
      intro piece
      rw [← Splice.appendChild_filled hf ht, ← hbody]
    have hchild : ¬HasBareFeed (Splice.separator (trimEnd body) ++ Router.route .crlf c) := fun h =>
      h.of_append.elim (not_hasBareFeed_of_notMem fun hm => absurd (Splice.mem_separator hm) (by decide))
        (not_hasBareFeed_crlf _)
    obtain ⟨hfeed, hno⟩ := insert_line_endings (fun n => Splice.separator (trimEnd body) ++ Router.route n c)
      (b := tail ++ ']' :: rest) hlast hchild
    have htext : y ++ ['['] ++ body ++ ']' :: rest = y ++ ['['] ++ trimEnd body ++ (tail ++ ']' :: rest) := by
      conv_lhs => rw [hbody]
      simp
    rw [hgrown, htext]
    refine ⟨fun h1 h2 => ?_, fun h => ?_⟩
    · simpa using hfeed h1 h2
    · simpa using hno h (Router.return_notMem_child hc _)

theorem navigation_line_endings {root : Path} (hc : Slug.IsName c.slug)
    (h : (navigation (Settings.standard root)).apply t c = .ok t') :
    (HasCrlf t → ¬HasBareFeed t → ¬HasBareFeed t') ∧ ('\r' ∉ t → '\r' ∉ c.title → '\r' ∉ t') := by
  cases hm : (elements Navigation.tag t).getLast? with
  | none =>
    rw [Navigation.apply_of_nil (List.getLast?_eq_none_iff.1 hm)] at h
    obtain rfl := Except.ok.inj h
    exact ⟨fun _ h => h, fun h _ => h⟩
  | some m =>
    rw [Navigation.apply_eq hc hm] at h
    obtain rfl := Except.ok.inj h
    obtain ⟨p, V, rfl, hstop, -, -⟩ := exists_last_element Navigation.isTag_tag hm
    have hlast : (p ++ closing Navigation.tag).getLast? ≠ some '\r' := by
      rw [closing, ← List.append_assoc, List.getLast?_concat]
      decide
    have hinsert : ∀ piece, Splice.insertAt (p ++ closing Navigation.tag ++ V) m.stop piece =
        p ++ closing Navigation.tag ++ piece ++ V := by
      intro piece
      rw [Splice.insertAt, hstop, List.take_left' rfl, List.drop_left' rfl]
    rw [hinsert]
    split_ifs
    · exact ⟨fun _ h => h, fun h _ => h⟩
    · obtain ⟨hfeed, hno⟩ := insert_line_endings (fun n => withNewline n (navigationFragment Navigation.tag c)) (b := V)
        hlast (not_hasBareFeed_crlf _)
      exact ⟨hfeed, fun h htitle => hno h (return_notMem_lf (Navigation.return_notMem_fragment hc htitle))⟩

/-- **line endings are kept: a text in CRLF stays one, and a text without carriage returns gets none unless the title
has one** -/
theorem apply_keeps_line_endings {root : Path} {l : Listing} (hl : l ∈ all (Settings.standard root))
    (hc : Slug.IsName c.slug) (h : l.apply t c = .ok t') :
    (HasCrlf t → ¬HasBareFeed t → ¬HasBareFeed t') ∧ ('\r' ∉ t → '\r' ∉ c.title → '\r' ∉ t') := by
  simp only [all, List.mem_cons, List.not_mem_nil, or_false] at hl
  rcases hl with rfl | rfl | rfl
  · obtain ⟨t1, h1, h⟩ := applySteps_cons.1 h
    obtain ⟨t2, h2, h⟩ := applySteps_cons.1 h
    obtain ⟨t3, h3, h⟩ := applySteps_cons.1 h
    obtain rfl : t3 = t' := Except.ok.inj h
    obtain ⟨hfeed1, hreturn1⟩ := importStep_line_endings hc h1
    obtain ⟨hfeed2, hreturn2⟩ := listStep_line_endings .components hc h2
    obtain ⟨hfeed3, hreturn3⟩ := listStep_line_endings .exports hc h3
    exact ⟨fun hcrlf hbare => hfeed3 (hfeed2 (hfeed1 hcrlf hbare)), fun hno _ => hreturn3 (hreturn2 (hreturn1 hno))⟩
  · obtain ⟨hfeed, hreturn⟩ := router_line_endings hc h
    exact ⟨hfeed, fun hno _ => hreturn hno⟩
  · exact navigation_line_endings hc h

/-- an index in CRLF with a list over several lines, and a route table without carriage returns -/
theorem apply_keeps_line_endings_both :
    let settings := Settings.standard (.ofText "repo".toList)
    let c : Component := ⟨"foo".toList, "Foo".toList, [], []⟩
    let file := "import A from './a'\nconst components = [\n  A,\n]\nexport \x7b A \x7d\n".toList
    let file' := ("import A from './a'\nimport \x7b Foo \x7d from './foo'\n" ++
      "const components = [\n  A,\n  Foo,\n]\nexport \x7b A, Foo \x7d\n").toList
    let table := "children: []\n".toList
    let table' := ("children: [\n      \x7b\n        path: 'foo',\n        name: 'Foo',\n" ++
      "        component: () => import('./pages/foo/index.md')\n      \x7d,]\n").toList
    index settings ∈ all settings ∧ router settings ∈ all settings ∧ Slug.IsName c.slug ∧
      (index settings).apply (withNewline .crlf file) c = .ok (withNewline .crlf file') ∧
      HasCrlf (withNewline .crlf file) ∧ ¬HasBareFeed (withNewline .crlf file) ∧
      ¬HasBareFeed (withNewline .crlf file') ∧
      (router settings).apply table c = .ok table' ∧ '\r' ∉ table ∧ '\r' ∉ c.title ∧ '\r' ∉ table' := by
  intro settings c file file' table table'
  have hindex : index settings ∈ all settings := List.mem_cons_self
  have hrouter : router settings ∈ all settings := List.mem_cons_of_mem _ List.mem_cons_self
  have hc : Slug.IsName c.slug := by decide +kernel
  have hfile : (index settings).apply (withNewline .crlf file) c = .ok (withNewline .crlf file') :=
    ok_of_toOption (by decide +kernel)
  have hcrlf : HasCrlf (withNewline .crlf file) := ofContent_eq_crlf_iff.1 (by decide +kernel)
  have hbare : ¬HasBareFeed (withNewline .crlf file) := not_hasBareFeed_crlf file
  have htable : (router settings).apply table c = .ok table' := ok_of_toOption (by decide +kernel)
  have hreturn : '\r' ∉ table ∧ '\r' ∉ c.title := by decide +kernel
  exact ⟨hindex, hrouter, hc, hfile, hcrlf, hbare, (apply_keeps_line_endings hindex hc hfile).1 hcrlf hbare,
    htable, hreturn.1, hreturn.2, (apply_keeps_line_endings hrouter hc htable).2 hreturn.1 hreturn.2⟩

end Componentry.Listing
