/-
Presence survives reformatting.

A fragment counts as present in a text if it stands there up to white space, quotes and separators. That is a test on the
evened texts, where words at the ends of a piece may have grown together with what stands beside it.
- `folded_blank_cons`, `folded_visible_blank`, `folded_visible_visible`: the words of a text, joined again, character by
  character. Everything else is an induction along these three.
- `folded_infix`: what a piece is folded to stands in what the text is folded to.
- `exists_folded_of_infix`: and whatever stands there, and starts and ends visibly, comes of a piece.
- `isPresent_iff_piece`: so a fragment is present exactly if a piece of the text evens out to the same.

Main result: `intoCollection_same_iff`.
-/
import Componentry.Proofs.Keeping
import Componentry.Proofs.Splice.Presence

namespace Componentry

open Text

/-! ## Folding white space -/

namespace Text

variable {c d : Char} {a b t v w x : Text}

/-- a text with each run of white space made one space, and none at the ends -/
def folded (t : Text) : Text := join [' '] (words t)

theorem folded_blank_cons (hc : isBlank c = true) (t : Text) : folded (c :: t) = folded t := by
  rw [folded, words_blank_cons hc, folded]

theorem mem_folded (hc : isBlank c = false) : c ∈ folded t ↔ c ∈ t := by
  have hspace : c ∉ [' '] := by
    rintro hm
    rw [List.mem_singleton.1 hm] at hc
    exact absurd hc (by decide)
  rw [folded, mem_join_iff hspace, exists_mem_words hc]

theorem folded_eq_nil_iff : folded t = [] ↔ words t = [] := by
  refine ⟨fun h => words_blanks fun c hc => ?_, fun h => by rw [folded, h]; rfl⟩
  by_contra hvisible
  rw [Bool.not_eq_true] at hvisible
  have := (mem_folded hvisible).2 hc
  simp [h] at this

/-- a visible character with white space behind it, or nothing -/
theorem folded_visible_blank (hc : isBlank c = false) (ht : t.head?.all isBlank = true) :
    folded (c :: t) = if folded t = [] then [c] else c :: ' ' :: folded t := by
  rw [folded, words_visible_blank hc ht]
  by_cases hw : words t = []
  · rw [if_pos (folded_eq_nil_iff.2 hw), hw]
    rfl
  · rw [if_neg fun h => hw (folded_eq_nil_iff.1 h), join_cons hw]
    rfl

/-- a visible character in front of another one -/
theorem folded_visible_visible (hc : isBlank c = false) (hd : isBlank d = false) (t : Text) :
    folded (c :: d :: t) = c :: folded (d :: t) := by
  obtain ⟨w, ws, h1, h2⟩ := words_visible_visible hc hd t
  rw [folded, folded, h1, h2]
  by_cases hws : ws = []
  · subst hws
    rfl
  · rw [join_cons hws, join_cons hws]
    rfl

/-- the three ways in which a text begins, and how it is folded in each -/
theorem folded_cons_cases (c : Char) (t : Text) :
    (isBlank c = true ∧ folded (c :: t) = folded t) ∨
    (isBlank c = false ∧ (∃ d t', t = d :: t' ∧ isBlank d = false) ∧ folded (c :: t) = c :: folded t) ∨
    (isBlank c = false ∧ t.head?.all isBlank = true ∧
      folded (c :: t) = if folded t = [] then [c] else c :: ' ' :: folded t) := by
  by_cases hc : isBlank c = true
  · exact Or.inl ⟨hc, folded_blank_cons hc t⟩
  rw [Bool.not_eq_true] at hc
  by_cases ht : t.head?.all isBlank = true
  · exact Or.inr (Or.inr ⟨hc, ht, folded_visible_blank hc ht⟩)
  cases t with
  | nil => simp at ht
  | cons d t =>
    have hd : isBlank d = false := by simpa using ht
    exact Or.inr (Or.inl ⟨hc, ⟨d, t, rfl, hd⟩, folded_visible_visible hc hd t⟩)

/-- what is folded starts visibly -/
theorem head?_folded (t : Text) : (folded t).head?.any isBlank = false := by
  induction t with
  | nil => rfl
  | cons c t ih =>
    rcases folded_cons_cases c t with ⟨-, heq⟩ | ⟨hc, -, heq⟩ | ⟨hc, -, heq⟩
    · rwa [heq]
    · rw [heq]
      simpa using hc
    · rw [heq]
      split_ifs <;> simpa using hc

/-- and ends visibly -/
theorem getLast?_folded (t : Text) : (folded t).getLast?.any isBlank = false := by
  induction t with
  | nil => rfl
  | cons c t ih =>
    rcases folded_cons_cases c t with ⟨-, heq⟩ | ⟨hc, -, heq⟩ | ⟨hc, -, heq⟩
    · rwa [heq]
    · rw [heq]
      cases hf : folded t with
      | nil => simpa using hc
      | cons y f => rwa [List.getLast?_cons_cons, ← hf]
    · rw [heq]
      split_ifs with hf
      · simpa using hc
      · obtain ⟨y, f, hy⟩ := List.exists_cons_of_ne_nil hf
        rwa [hy, List.getLast?_cons_cons, List.getLast?_cons_cons, ← hy]

/-! ## Pieces -/

/-- more text in front leaves the folded text at the end -/
theorem folded_suffix_append (a x : Text) : folded x <:+ folded (a ++ x) := by
  induction a with
  | nil => exact List.suffix_refl _
  | cons c a ih =>
    refine ih.trans ?_
    rcases folded_cons_cases c (a ++ x) with ⟨-, heq⟩ | ⟨-, -, heq⟩ | ⟨-, -, heq⟩
    · rw [List.cons_append, heq]
    · rw [List.cons_append, heq]
      exact List.suffix_cons c _
    · rw [List.cons_append, heq]
      split_ifs with hf
      · rw [hf]
        exact List.nil_suffix
      · exact (List.suffix_cons ' ' _).trans (List.suffix_cons c _)

/-- more text behind leaves it at the start -/
theorem folded_prefix_append (x b : Text) : folded x <+: folded (x ++ b) := by
  induction x with
  | nil => exact List.nil_prefix
  | cons c x ih =>
    by_cases hc : isBlank c = true
    · rw [List.cons_append, folded_blank_cons hc, folded_blank_cons hc]
      exact ih
    rw [Bool.not_eq_true] at hc
    have hstart : ∀ y, [c] <+: folded (c :: y) := by
      intro y
      rcases folded_cons_cases c y with ⟨hblank, -⟩ | ⟨-, -, heq⟩ | ⟨-, -, heq⟩
      · simp [hc] at hblank
      · rw [heq]
        simp
      · rw [heq]
        split_ifs <;> simp
    cases x with
    | nil =>
      rw [folded_visible_blank hc rfl]
      exact hstart b
    | cons d x =>
      by_cases hd : isBlank d = true
      · rw [List.cons_append, folded_visible_blank hc (by simpa using hd)]
        split_ifs with hx
        · exact hstart _
        · rw [folded_visible_blank hc (by simpa using hd), if_neg]
          · exact (List.cons_prefix_cons.2 ⟨rfl, List.cons_prefix_cons.2 ⟨rfl, ih⟩⟩)
          · intro hnil
            exact hx (List.prefix_nil.1 (hnil ▸ ih))
      · rw [Bool.not_eq_true] at hd
        rw [List.cons_append, List.cons_append, folded_visible_visible hc hd, folded_visible_visible hc hd]
        exact List.cons_prefix_cons.2 ⟨rfl, ih⟩

/-- what a piece is folded to stands in what the text is folded to -/
theorem folded_infix (a x b : Text) : folded x <:+: folded (a ++ x ++ b) := by
  rw [List.append_assoc]
  exact (folded_prefix_append x b).isInfix.trans (folded_suffix_append a (x ++ b)).isInfix

/-- an end of the folded text that starts visibly comes of an end of the text -/
theorem exists_folded_of_suffix (hv : v ≠ []) (hhead : v.head?.any isBlank = false) (h : v <:+ folded t) :
    ∃ a x, t = a ++ x ∧ folded x = v := by
  induction t with
  | nil => exact absurd (List.suffix_nil.1 h) hv
  | cons c t ih =>
    have hlater : v <:+ folded t → ∃ a x, c :: t = a ++ x ∧ folded x = v := by
      intro h
      obtain ⟨a, x, rfl, hx⟩ := ih h
      exact ⟨c :: a, x, rfl, hx⟩
    rcases folded_cons_cases c t with ⟨-, heq⟩ | ⟨-, -, heq⟩ | ⟨-, -, heq⟩
    · exact hlater (heq ▸ h)
    · rw [heq] at h
      rcases List.suffix_cons_iff.1 h with rfl | h
      · exact ⟨[], c :: t, rfl, heq⟩
      · exact hlater h
    · split_ifs at heq with hf
      · rw [heq] at h
        rcases List.suffix_cons_iff.1 h with rfl | h
        · exact ⟨[], c :: t, rfl, heq⟩
        · exact absurd (List.suffix_nil.1 h) hv
      · rw [heq] at h
        rcases List.suffix_cons_iff.1 h with rfl | h
        · exact ⟨[], c :: t, rfl, heq⟩
        · rcases List.suffix_cons_iff.1 h with rfl | h
          · have hspace : isBlank ' ' = true := by decide
            simp [hspace] at hhead
          · exact hlater h

/-- a start of the folded text that ends visibly comes of a start of the text -/
theorem exists_folded_of_prefix (hv : v ≠ []) (hlast : v.getLast?.any isBlank = false) (h : v <+: folded x) :
    ∃ d b, x = d ++ b ∧ folded d = v := by
  induction x generalizing v with
  | nil => exact absurd (List.prefix_nil.1 h) hv
  | cons c x ih =>
    have hsingle : isBlank c = false → v = [c] → ∃ d b, c :: x = d ++ b ∧ folded d = v := by
      rintro hc rfl
      exact ⟨[c], x, rfl, folded_visible_blank hc rfl⟩
    rcases folded_cons_cases c x with ⟨hc, heq⟩ | ⟨hc, ⟨e, x', rfl, he⟩, heq⟩ | ⟨hc, hx, heq⟩
    · obtain ⟨d, b, rfl, hd⟩ := ih hv hlast (heq ▸ h)
      exact ⟨c :: d, b, rfl, by rw [folded_blank_cons hc, hd]⟩
    · rw [heq] at h
      obtain ⟨y, v, rfl⟩ := List.exists_cons_of_ne_nil hv
      obtain ⟨rfl, hrest⟩ := List.cons_prefix_cons.1 h
      cases v with
      | nil => exact hsingle hc rfl
      | cons z v =>
        obtain ⟨d, b, hdb, hd⟩ := ih (v := z :: v) (by simp) (by rwa [List.getLast?_cons_cons] at hlast) hrest
        cases d with
        | nil => simp [folded, words, join] at hd
        | cons e' d =>
          obtain ⟨rfl, rfl⟩ := List.cons.inj hdb
          exact ⟨y :: e :: d, b, rfl, by rw [folded_visible_visible hc he, hd]⟩
    · obtain ⟨y, v, rfl⟩ := List.exists_cons_of_ne_nil hv
      split_ifs at heq with hf
      · rw [heq] at h
        obtain ⟨rfl, hrest⟩ := List.cons_prefix_cons.1 h
        exact hsingle hc (by rw [List.prefix_nil.1 hrest])
      rw [heq] at h
      obtain ⟨rfl, hspace⟩ := List.cons_prefix_cons.1 h
      cases v with
      | nil => exact hsingle hc rfl
      | cons z v =>
        obtain ⟨rfl, hrest⟩ := List.cons_prefix_cons.1 hspace
        cases v with
        | nil =>
          have hblank : isBlank ' ' = true := by decide
          simp [hblank] at hlast
        | cons z v =>
          rw [List.getLast?_cons_cons, List.getLast?_cons_cons] at hlast
          obtain ⟨d, b, rfl, hd⟩ := ih (v := z :: v) (by simp) hlast hrest
          cases d with
          | nil => simp [folded, words, join] at hd
          | cons e d =>
            refine ⟨y :: e :: d, b, rfl, ?_⟩
            rw [folded_visible_blank hc (by simpa using hx), if_neg (by simp [hd]), hd]

/-- whatever stands in the folded text, and starts and ends visibly, comes of a piece of the text -/
theorem exists_folded_of_infix (hw : w ≠ []) (hhead : w.head?.any isBlank = false)
    (hlast : w.getLast?.any isBlank = false) (h : w <:+: folded t) : ∃ a d b, t = a ++ d ++ b ∧ folded d = w := by
  obtain ⟨s, r, hsr⟩ := h
  obtain ⟨y, w, rfl⟩ := List.exists_cons_of_ne_nil hw
  obtain ⟨a, x, rfl, hx⟩ := exists_folded_of_suffix (v := (y :: w) ++ r) (by simp) (by simpa using hhead)
    ⟨s, by rw [← hsr]; simp⟩
  obtain ⟨d, b, rfl, hd⟩ := exists_folded_of_prefix hw hlast (x := x) ⟨r, hx.symm⟩
  exact ⟨a, d, b, by simp, hd⟩

end Text

/-! ## Reformatted pieces -/

namespace Splice

variable {a b body content d fragment : Text}

theorem evened_eq_folded (t : Text) : evened t = folded (t.map evenChar) := rfl

/-- a fragment is present in a text exactly if a piece of the text evens out to the same -/
theorem isPresent_iff_piece (hne : evened fragment ≠ []) :
    isPresent fragment content = true ↔ ∃ a d b, content = a ++ d ++ b ∧ evened d = evened fragment := by
  rw [isPresent_iff]
  constructor
  · rintro ⟨-, hin⟩
    have hhead := head?_folded (fragment.map evenChar)
    have hlast := getLast?_folded (fragment.map evenChar)
    obtain ⟨a', d', b', hmap, hd⟩ := exists_folded_of_infix hne hhead hlast hin
    obtain ⟨ad, b, rfl, had, rfl⟩ := List.map_eq_append_iff.1 hmap
    obtain ⟨a, d, rfl, rfl, rfl⟩ := List.map_eq_append_iff.1 had
    exact ⟨a, d, b, rfl, hd⟩
  · rintro ⟨a, d, b, rfl, hd⟩
    refine ⟨hne, ?_⟩
    rw [← hd, evened_eq_folded, evened_eq_folded, List.map_append, List.map_append]
    exact folded_infix _ _ _

/-- a fragment of which something is left is written as something -/
theorem withNewline_ne_nil (hne : evened fragment ≠ []) (newline : Newline) : withNewline newline fragment ≠ [] := by
  intro hnil
  have htokens := tokens_withNewline newline fragment
  rw [hnil] at htokens
  exact hne (by rw [evened_eq, ← htokens]; rfl)

/-- a body with a fragment added is at least as long as the two together -/
theorem length_appendChild (body fragment : Text) : body.length + fragment.length ≤ (appendChild body fragment).length := by
  obtain ⟨tail, hbody, -⟩ := exists_trimEnd body
  have hdrop : body.length = (trimEnd body).length + (body.drop (trimEnd body).length).length := by
    rw [List.length_drop]
    have := congrArg List.length hbody
    rw [List.length_append] at this
    omega
  simp only [appendChild, List.length_append]
  omega

/-- **A text with one collection comes back as it is exactly if some piece of the collection's body evens out to the same
as the fragment**, whatever the anchor looks for; one that is a pattern is among these. -/
theorem intoCollection_same_iff {anchor : Anchor} {closer : Text} {m : Occurrence} {close : Nat}
    (hone : anchor.found false content = [m]) (hclose : indexFrom? closer content m.stop = some close)
    (hne : evened fragment ≠ []) :
    (anchor.intoCollection closer content fragment = some content ↔
      ∃ a d b, slice content m.stop close = a ++ d ++ b ∧ evened d = evened fragment) ∧
    ∀ p : Pattern, anchor = .ofPattern p → (intoCollection p closer content fragment = .ok content ↔
      ∃ a d b, slice content m.stop close = a ++ d ++ b ∧ evened d = evened fragment) := by
  have hany : anchor.intoCollection closer content fragment = some content ↔
      ∃ a d b, slice content m.stop close = a ++ d ++ b ∧ evened d = evened fragment := by
    rw [← isPresent_iff_piece hne, Anchor.intoCollection, hone]
    simp only [hclose]
    by_cases hpresent : isPresent fragment (slice content m.stop close) = true
    · simp [hpresent]
    rw [if_neg hpresent]
    refine ⟨fun h => ?_, fun h => absurd h hpresent⟩
    -- what is put in makes the text longer
    have hlength := congrArg List.length (Option.some.inj h)
    have hwhole := congrArg List.length (take_slice_drop content (le_indexFrom? hclose))
    have hlonger := length_appendChild (slice content m.stop close) (withNewline (.ofContent content) fragment)
    have hpositive := List.length_pos_of_ne_nil (withNewline_ne_nil hne (.ofContent content))
    simp only [List.length_append] at hlength hwhole
    omega
  refine ⟨hany, ?_⟩
  rintro p rfl
  rw [← hany, ← toOption_intoCollection]
  exact ⟨fun h => by rw [h]; rfl, Listing.ok_of_toOption⟩

/-- a route with other quotes and separators, on one line, grown together with what stands before and behind it -/
theorem intoCollection_same_grown_together :
    let anchor := Pattern.keyedList "children".toList
    let fragment := "\n  \x7b\n    path: 'card',\n    name: 'Card'\n  \x7d,".toList
    let piece := "\x7b path: \"card\";\tname: 'Card',\x7d".toList
    let content := "children: [...x".toList ++ piece ++ "y]".toList
    ∃ m close, (Anchor.ofPattern anchor).found false content = [m] ∧ indexFrom? [']'] content m.stop = some close ∧
      evened fragment ≠ [] ∧ evened piece = evened fragment ∧
      intoCollection anchor [']'] content fragment = .ok content := by
  intro anchor fragment piece content
  have hstops : (anchor.occurrences false content).map (·.stop) = [11] := by decide +kernel
  obtain ⟨m, hone, hstop⟩ := List.map_eq_singleton_iff.1 hstops
  have hclose : indexFrom? [']'] content m.stop = some 46 := by
    rw [hstop]
    decide +kernel
  have hne : evened fragment ≠ [] := by decide +kernel
  have hpiece : evened piece = evened fragment := by decide +kernel
  have hbody : slice content m.stop 46 = "...x".toList ++ piece ++ ['y'] := by
    rw [hstop]
    decide +kernel
  have hfound : (Anchor.ofPattern anchor).found false content = [m] := hone
  exact ⟨m, 46, hfound, hclose, hne, hpiece,
    ((intoCollection_same_iff hfound hclose hne).2 anchor rfl).2 ⟨"...x".toList, piece, ['y'], hbody, hpiece⟩⟩

end Splice

end Componentry
