/-
The line feeds of a text that is put together from parts, and of a text written in a line ending.

- `HasBareFeed.of_append`: joined texts have a bare line feed only if one of them has.
- `HasBareFeed.append_left`, `HasBareFeed.append_right`: and each of them shows in the whole, unless a CRLF is cut in two.
- `not_hasBareFeed_crlf`: a text written with CRLF has none.
-/
import Componentry.Proofs.Text.Pieces

namespace Componentry.Text

/-! ## Bare line feeds -/

/-- a line feed without a carriage return before it -/
def HasBareFeed (t : Text) : Prop := ∃ a b, t = a ++ '\n' :: b ∧ a.getLast? ≠ some '\r'

theorem not_hasBareFeed_of_notMem {t : Text} (h : '\n' ∉ t) : ¬HasBareFeed t := by
  rintro ⟨a, b, rfl, -⟩
  simp at h

theorem HasBareFeed.of_append {a b : Text} (h : HasBareFeed (a ++ b)) : HasBareFeed a ∨ HasBareFeed b := by
  obtain ⟨x, y, hxy, hx⟩ := h
  rcases List.append_eq_append_iff.1 hxy with ⟨d, rfl, hd⟩ | ⟨d, rfl, hd⟩
  · refine Or.inr ⟨d, y, hd, fun hlast => hx ?_⟩
    rw [List.getLast?_append, hlast, Option.some_or]
  · cases d with
    | nil => exact Or.inr ⟨[], y, hd.symm, by simp⟩
    | cons c d =>
      obtain ⟨rfl, -⟩ := List.cons.inj hd
      exact Or.inl ⟨x, d, rfl, hx⟩

theorem HasBareFeed.append_left {a : Text} (h : HasBareFeed a) (b : Text) : HasBareFeed (a ++ b) := by
  obtain ⟨x, y, rfl, hx⟩ := h
  exact ⟨x, y ++ b, by simp, hx⟩

theorem HasBareFeed.append_right {a b : Text} (h : HasBareFeed b) (hcut : a.getLast? ≠ some '\r' ∨ b.head? ≠ some '\n') :
    HasBareFeed (a ++ b) := by
  obtain ⟨x, y, rfl, hx⟩ := h
  refine ⟨a ++ x, y, by simp, ?_⟩
  rw [List.getLast?_append]
  cases x with
  | nil => simpa using hcut
  | cons c x => simpa [List.getLast?_cons] using hx

/-- a part that is exchanged brings no bare line feed with it -/
theorem not_hasBareFeed_replace {a b p r : Text} (h : ¬HasBareFeed (a ++ b ++ r)) (ha : a.getLast? ≠ some '\r')
    (hr : (a ++ b).getLast? ≠ some '\r' ∨ r.head? ≠ some '\n') (hp : ¬HasBareFeed b → ¬HasBareFeed p) :
    ¬HasBareFeed (a ++ p ++ r) := by
  intro hbare
  rcases hbare.of_append with hbare | hbare
  · rcases hbare.of_append with hbare | hbare
    · exact h ((hbare.append_left b).append_left r)
    · exact hp (fun hb => h ((hb.append_right (Or.inl ha)).append_left r)) hbare
  · exact h (hbare.append_right hr)

/-- without a CRLF every line feed is bare -/
theorem notMem_of_not_hasBareFeed {t : Text} (hbare : ¬HasBareFeed t) (hcrlf : ¬HasCrlf t) : '\n' ∉ t := by
  intro hm
  obtain ⟨a, b, rfl⟩ := List.append_of_mem hm
  refine hbare ⟨a, b, rfl, fun hlast => hcrlf ?_⟩
  obtain ⟨a, rfl⟩ := List.getLast?_eq_some_iff.1 hlast
  exact ⟨a, b, by simp⟩

theorem ofContent_eq_lf {t : Text} (h : '\r' ∉ t) : Newline.ofContent t = .lf := by
  cases hnewline : Newline.ofContent t with
  | lf => rfl
  | crlf =>
    obtain ⟨a, b, rfl⟩ := ofContent_eq_crlf_iff.1 hnewline
    simp at h

/-- the line ending of a text stays, if what is put in cuts no CRLF in two, and brings none into a text without one -/
theorem ofContent_insert {a z b : Text} (ha : a.getLast? ≠ some '\r') (hz : z.getLast? ≠ some '\r')
    (hcrlf : Newline.ofContent (a ++ b) = .lf → ¬HasCrlf z) :
    Newline.ofContent (a ++ z ++ b) = Newline.ofContent (a ++ b) := by
  cases hnewline : Newline.ofContent (a ++ b) with
  | crlf =>
    rw [ofContent_eq_crlf_iff, hasCrlf_append (Or.inl ha)] at hnewline
    rw [ofContent_eq_crlf_iff]
    rcases hnewline with h | h
    · exact h.of_infix ⟨[], z ++ b, by simp⟩
    · exact h.of_infix ⟨a ++ z, [], by simp⟩
  | lf =>
    have hnone : ¬HasCrlf (a ++ b) := fun h => by
      rw [← ofContent_eq_crlf_iff, hnewline] at h
      exact Newline.noConfusion h
    rw [hasCrlf_append (Or.inl ha), not_or] at hnone
    have hnone' : ¬HasCrlf (a ++ z ++ b) := by
      rw [List.append_assoc, hasCrlf_append (Or.inl ha), hasCrlf_append (Or.inl hz)]
      exact not_or.2 ⟨hnone.1, not_or.2 ⟨hcrlf hnewline, hnone.2⟩⟩
    cases hlf : Newline.ofContent (a ++ z ++ b) with
    | lf => rfl
    | crlf => exact absurd (ofContent_eq_crlf_iff.1 hlf) hnone'

/-! ## A text in a line ending -/

theorem mem_foldNewlines {c : Char} {t : Text} (h : c ∈ foldNewlines t) : c ∈ t := by
  induction t using foldNewlines.induct with
  | case1 => simp [foldNewlines] at h
  | case2 rest ih =>
    rw [foldNewlines, List.mem_cons] at h
    rcases h with rfl | h
    · simp
    · exact List.mem_cons_of_mem _ (List.mem_cons_of_mem _ (ih h))
  | case3 d rest hne ih =>
    rw [foldNewlines.eq_3 d rest hne, List.mem_cons] at h
    rcases h with rfl | h
    · exact List.mem_cons_self
    · exact List.mem_cons_of_mem _ (ih h)

/-- the characters of a text in a line ending -/
theorem mem_withNewline {c : Char} {newline : Newline} {t : Text} (h : c ∈ withNewline newline t) :
    c ∈ t ∨ c ∈ newline.text := by
  obtain ⟨d, hd, hc⟩ := List.mem_flatMap.1 h
  split_ifs at hc
  · exact Or.inr hc
  · rw [List.mem_singleton.1 hc]
    exact Or.inl (mem_foldNewlines hd)

theorem foldNewlines_append {a b : Text} (h : a.getLast? ≠ some '\r' ∨ b.head? ≠ some '\n') :
    foldNewlines (a ++ b) = foldNewlines a ++ foldNewlines b := by
  induction a using foldNewlines.induct with
  | case1 => rfl
  | case2 rest ih =>
    have hnext : rest.getLast? ≠ some '\r' ∨ b.head? ≠ some '\n' := by
      cases hl : rest.getLast? with
      | none => simp
      | some c => simpa [List.getLast?_cons, hl] using h
    rw [List.cons_append, List.cons_append, foldNewlines, foldNewlines, ih hnext, List.cons_append]
  | case3 c rest hne ih =>
    have hne' : ∀ r, c = '\r' → rest ++ b ≠ '\n' :: r := by
      rintro r rfl hr
      cases rest with
      | nil =>
        have hb : b.head? = some '\n' := by rw [show b = '\n' :: r from hr]; rfl
        simp [hb] at h
      | cons d rest =>
        obtain ⟨rfl, -⟩ := List.cons.inj hr
        exact hne rest rfl rfl
    have hnext : rest.getLast? ≠ some '\r' ∨ b.head? ≠ some '\n' := by
      cases hl : rest.getLast? with
      | none => simp
      | some d => simpa [List.getLast?_cons, hl] using h
    rw [List.cons_append, foldNewlines.eq_3 c rest hne, foldNewlines.eq_3 c (rest ++ b) hne', ih hnext,
      List.cons_append]

/-- a text in a line ending is that of its parts, unless a CRLF is cut in two -/
theorem withNewline_append (newline : Newline) {a b : Text} (h : a.getLast? ≠ some '\r' ∨ b.head? ≠ some '\n') :
    withNewline newline (a ++ b) = withNewline newline a ++ withNewline newline b := by
  rw [withNewline, foldNewlines_append h, List.flatMap_append, withNewline, withNewline]

theorem withNewline_feed (newline : Newline) (t : Text) :
    withNewline newline ('\n' :: t) = newline.text ++ withNewline newline t := by
  have happend := withNewline_append newline (a := ['\n']) (b := t) (Or.inl (by simp))
  have hfeed : withNewline newline ['\n'] = newline.text := by cases newline <;> rfl
  rwa [hfeed] at happend

/-- **a text written with CRLF has no bare line feed** -/
theorem not_hasBareFeed_crlf (t : Text) : ¬HasBareFeed (withNewline .crlf t) := by
  unfold withNewline
  induction foldNewlines t with
  | nil => exact not_hasBareFeed_of_notMem (by simp)
  | cons c t ih =>
    rw [List.flatMap_cons]
    intro h
    rcases h.of_append with h | h
    · split_ifs at h with hc
      · obtain ⟨a, b, hab, ha⟩ := h
        match a, hab with
        | [d], hab =>
          obtain rfl : '\r' = d := (List.cons.inj hab).1
          exact ha rfl
        | d :: d' :: a, hab => simp [Newline.text] at hab
      · exact not_hasBareFeed_of_notMem (by simpa using Ne.symm hc) h
    · exact ih h

/-- a text without carriage returns has none when it is written with LF -/
theorem return_notMem_lf {t : Text} (h : '\r' ∉ t) : '\r' ∉ withNewline .lf t := by
  intro hm
  rcases mem_withNewline hm with hm | hm
  · exact h hm
  · exact absurd hm (by decide)

/-! ## What has no line break -/

section Inside

variable {newline : Newline} {w t : Text}

theorem withNewline_cons {c : Char} (hn : c ≠ '\n') (hr : c = '\r' → t.head? ≠ some '\n') :
    withNewline newline (c :: t) = c :: withNewline newline t := by
  have hcut : [c].getLast? ≠ some '\r' ∨ t.head? ≠ some '\n' := by
    by_cases hc : c = '\r'
    · exact Or.inr (hr hc)
    · exact Or.inl (by simpa using hc)
  have happend := withNewline_append newline hcut
  have hkeep : withNewline newline [c] = [c] := by simp [withNewline, foldNewlines, hn]
  rwa [hkeep] at happend

/-- a character that is in no line ending stays -/
theorem mem_withNewline_of_mem {c : Char} (hn : c ≠ '\n') (hr : c ≠ '\r') (h : c ∈ t) : c ∈ withNewline newline t := by
  obtain ⟨a, b, rfl⟩ := List.append_of_mem h
  rw [withNewline_append newline (Or.inr (by simpa using hn)), withNewline_cons hn fun hc => absurd hc hr]
  simp

theorem withNewline_return_feed (t : Text) :
    withNewline newline ('\r' :: '\n' :: t) = newline.text ++ withNewline newline t := by
  simp [withNewline, foldNewlines]

/-- no line break is in a text, and the text is not empty -/
structure IsUnbroken (w : Text) : Prop where
  ne_nil : w ≠ []
  noReturn : '\r' ∉ w
  noFeed : '\n' ∉ w

theorem withNewline_of_notMem (hr : '\r' ∉ w) (hn : '\n' ∉ w) (newline : Newline) : withNewline newline w = w := by
  induction w with
  | nil => rfl
  | cons c w ih =>
    rw [List.mem_cons, not_or] at hr hn
    rw [withNewline_cons (Ne.symm hn.1) (fun hc => absurd hc.symm hr.1), ih hr.2 hn.2]

theorem prefix_of_withNewline (hr : '\r' ∉ w) (hn : '\n' ∉ w) (h : w <+: withNewline newline t) : w <+: t := by
  induction w generalizing t with
  | nil => exact List.nil_prefix
  | cons d w ih =>
    rw [List.mem_cons, not_or] at hr hn
    have hbreak : ∀ {x : Text}, ¬(d :: w <+: newline.text ++ x) := by
      intro x hx
      cases newline with
      | lf => exact hn.1 (List.cons_prefix_cons.1 hx).1.symm
      | crlf => exact hr.1 (List.cons_prefix_cons.1 hx).1.symm
    cases t using foldNewlines.fun_cases with
    | case1 => exact h
    | case2 rest =>
      rw [withNewline_return_feed] at h
      exact absurd h hbreak
    | case3 c rest hne =>
      by_cases hc : c = '\n'
      · rw [hc, withNewline_feed] at h
        exact absurd h hbreak
      · have hstart : c = '\r' → rest.head? ≠ some '\n' := fun hc hhead => by
          obtain ⟨r, rfl⟩ := List.head?_eq_some_iff.1 hhead
          exact hne r hc rfl
        rw [withNewline_cons hc hstart] at h
        obtain ⟨hd, htail⟩ := List.cons_prefix_cons.1 h
        exact List.cons_prefix_cons.2 ⟨hd, ih hr.2 hn.2 htail⟩

theorem IsUnbroken.infix_append (hw : IsUnbroken w) (h : w <:+: newline.text ++ t) : w <:+: t := by
  have hstep : ∀ {c : Char} {x : Text}, c = '\r' ∨ c = '\n' → w <:+: c :: x → w <:+: x := by
    intro c x hc hx
    rcases List.infix_cons_iff.1 hx with hx | hx
    · obtain ⟨d, w, rfl⟩ := List.exists_cons_of_ne_nil hw.ne_nil
      obtain rfl : d = c := (List.cons_prefix_cons.1 hx).1
      rcases hc with rfl | rfl
      · exact absurd List.mem_cons_self hw.noReturn
      · exact absurd List.mem_cons_self hw.noFeed
    · exact hx
  cases newline with
  | lf => exact hstep (Or.inr rfl) h
  | crlf => exact hstep (Or.inr rfl) (hstep (Or.inl rfl) h)

/-- **what has no line break is in a text in a line ending only if it is in the text** -/
theorem IsUnbroken.infix_of_withNewline (hw : IsUnbroken w) (h : w <:+: withNewline newline t) : w <:+: t := by
  induction t using foldNewlines.induct with
  | case1 => exact h
  | case2 rest ih =>
    rw [withNewline_return_feed] at h
    exact (ih (hw.infix_append h)).trans ⟨['\r', '\n'], [], by simp⟩
  | case3 c rest hne ih =>
    by_cases hc : c = '\n'
    · rw [hc, withNewline_feed] at h
      exact (ih (hw.infix_append h)).trans (List.suffix_cons c rest).isInfix
    · have hstart : c = '\r' → rest.head? ≠ some '\n' := fun hc hhead => by
        obtain ⟨r, rfl⟩ := List.head?_eq_some_iff.1 hhead
        exact hne r hc rfl
      rw [withNewline_cons hc hstart] at h
      rcases List.infix_cons_iff.1 h with h | h
      · rw [← withNewline_cons hc hstart] at h
        exact (prefix_of_withNewline hw.noReturn hw.noFeed h).isInfix
      · exact (ih h).trans (List.suffix_cons c rest).isInfix

end Inside

end Componentry.Text
