/-
An index as a frame: the text up to its last import, two lists that take fillings, and what follows.

- `Open`: whatever is filled in, there is one list of either kind and no import behind the last one.
- `Open.of_calm`: this holds if it does of one filling, with no more than calm white space in an empty list.
- `Open.insert`: it still does with one more import.
-/
import Componentry.Proofs.Splice.Entries
import Componentry.Proofs.Splice.Blocks

namespace Componentry.Index

open Text

/-! ## Slots -/

/-- one list of an index: what stands before its body, the body up to its last item, and the white space behind it -/
structure Slot where
  kind : ListKind
  lead : Text
  filled : Text
  tail : Text

namespace Slot

/-- the body with a filling -/
def body (s : Slot) (z : Text) : Text := s.filled ++ z ++ s.tail

/-- the text of the list through its closer -/
def text (s : Slot) (z : Text) : Text := s.lead ++ s.body z ++ [s.kind.closer]

/-- a list that opens by itself, and is empty if it has no item -/
structure Sound (s : Slot) : Prop where
  opens : Opens s.kind s.lead
  filled : Filled s.filled
  tail : Blanks s.tail
  hollow : s.filled = [] → s.tail = []
  closer : s.kind.closer ∉ s.filled

end Slot

/-- a filling that can follow the items of a list -/
structure Fits (newline : Newline) (filled z : Text) : Prop where
  inert : Inert z
  joint : z = [] ∨ z.head? = some ',' ∨ filled = [] ∨ filled.getLast? = some ','
  crlf : HasCrlf z → newline = .crlf
  ends : filled = [] ∨ z.getLast? ≠ some '\r'

theorem fits_nil (newline : Newline) (filled : Text) : Fits newline filled [] :=
  ⟨inert_blanks blanks_nil, Or.inl rfl, fun h => absurd h (not_hasCrlf_of_notMem (by simp)), Or.inr (by simp)⟩

/-- a filling that an empty list may have from the start -/
def IsCalmIn (s : Slot) (w : Text) : Prop := w = [] ∨ s.filled = [] ∧ Calm w

theorem IsCalmIn.fits {s : Slot} {w : Text} (h : IsCalmIn s w) (newline : Newline) : Fits newline s.filled w := by
  rcases h with rfl | ⟨hf, hw⟩
  · exact fits_nil _ _
  · exact ⟨inert_blanks fun c hc => (hw c hc).1, Or.inr (Or.inr (Or.inl hf)),
      fun h => absurd h (not_hasCrlf_of_notMem fun hm => (hw _ hm).2.1 rfl), Or.inl hf⟩

theorem IsCalmIn.not_hasCrlf {s : Slot} {w : Text} (h : IsCalmIn s w) : ¬HasCrlf w := by
  rcases h with rfl | ⟨-, hw⟩
  · exact not_hasCrlf_of_notMem (by simp)
  · exact not_hasCrlf_of_notMem fun hm => (hw _ hm).2.1 rfl

theorem Inert.of_comma {i : Text} (h : Inert (',' :: i)) : Inert i := by
  refine ⟨fun c hc => h.chars c (List.mem_cons_of_mem _ hc), fun a c b hi hc => ?_⟩
  obtain ⟨d, hd, hname⟩ := h.inner (',' :: a) c b (by rw [hi]; rfl) hc
  refine ⟨d, ?_, hname⟩
  rw [List.getLast?_cons] at hd
  cases hl : a.getLast? with
  | none =>
    obtain rfl : ',' = d := by simpa [hl] using hd
    exact absurd hname (by decide)
  | some x => simpa [hl] using hd

theorem isJoint_opener (kind : ListKind) : IsJoint kind.opener := by
  cases kind
  · exact Or.inr (Or.inl rfl)
  · exact Or.inr (Or.inr rfl)

/-- where lists open, they also do behind a text that ends in no word -/
theorem Opens.append_left {kind : ListKind} {a l : Text} (h : Opens kind l) (ha : a.getLast?.any isWordChar = false) :
    Opens kind (a ++ l) := by
  obtain ⟨u, v, rfl, hv, hedge⟩ := h
  refine ⟨a ++ u, v, by simp, hv, ?_⟩
  rw [List.getLast?_append]
  cases hu : u.getLast? with
  | none => simpa using ha
  | some c => simpa [hu] using hedge

/-- a list that is not empty, as a slot -/
theorem exists_filled_slot {kind : ListKind} {lead body : Text} (hopens : Opens kind lead) (hbody : kind.closer ∉ body)
    (hfilled : ¬Blanks body) : ∃ s : Slot, s.kind = kind ∧ s.lead = lead ∧ s.Sound ∧ s.body [] = body ∧
      s.filled = trimEnd body := by
  obtain ⟨tail, htail, hblanks, hf⟩ := exists_trimEnd body
  have hne : trimEnd body ≠ [] := fun h => hfilled (trimEnd_eq_nil_iff.1 h)
  refine ⟨⟨kind, lead, trimEnd body, tail⟩, rfl, rfl, ⟨hopens, hf, hblanks, fun h => absurd h hne, ?_⟩, ?_, rfl⟩
  · exact fun hm => hbody (by rw [htail]; exact List.mem_append_left _ hm)
  · simp [Slot.body, ← htail]

section Slot

variable {newline : Newline} {s : Slot} {a r z w : Text}

theorem Slot.Sound.closes (hs : s.Sound) (r : Text) : Closes (s.tail ++ s.kind.closer :: r) :=
  ⟨s.tail, s.kind.closer, r, rfl, hs.tail, by cases s.kind <;> simp [ListKind.closer]⟩

theorem Slot.Sound.closer_notMem (hs : s.Sound) (hz : Inert z) : s.kind.closer ∉ s.body z := by
  rw [Slot.body, List.mem_append, List.mem_append, not_or, not_or]
  exact ⟨⟨hs.closer, hz.closer_notMem s.kind⟩, (inert_blanks hs.tail).closer_notMem s.kind⟩

/-- a filling of a slot stands for a calm one -/
theorem Slot.Sound.refill (hs : s.Sound) (hz : Fits newline s.filled z) (hw : IsCalmIn s w) (a r : Text) :
    z = w ∨ ∃ p z' w', a ++ s.lead ++ s.filled ++ z = p ++ z' ∧ a ++ s.lead ++ s.filled ++ w = p ++ w' ∧
      Refill z' w' (s.tail ++ s.kind.closer :: r) := by
  by_cases hf : s.filled = []
  · -- an empty list: the joint is its opener
    obtain ⟨l, hl⟩ := hs.opens.ends
    have hcalm : Calm w := by
      rcases hw with rfl | hw
      · simp [Calm]
      · exact hw.2
    refine Or.inr ⟨a ++ l, s.kind.opener :: z, s.kind.opener :: w, by simp [hl, hf], by simp [hl, hf],
      ⟨s.kind.opener, z, rfl, isJoint_opener _, hz.inert, Or.inr ⟨w, rfl, hcalm⟩⟩, hs.closes r⟩
  · obtain rfl : w = [] := hw.resolve_right fun h => hf h.1
    rcases hz.joint with rfl | hz' | h | hcomma
    · exact Or.inl rfl
    · obtain ⟨i, rfl⟩ := List.head?_eq_some_iff.1 hz'
      exact Or.inr ⟨a ++ s.lead ++ s.filled, ',' :: i, [], rfl, rfl,
        ⟨',', i, rfl, Or.inl rfl, hz.inert.of_comma, Or.inl ⟨rfl, rfl⟩⟩, hs.closes r⟩
    · exact absurd h hf
    · obtain ⟨f, hf'⟩ := List.getLast?_eq_some_iff.1 hcomma
      exact Or.inr ⟨a ++ s.lead ++ f, ',' :: z, [','], by simp [hf'], by simp [hf'],
        ⟨',', z, rfl, Or.inl rfl, hz.inert, Or.inr ⟨[], rfl, by simp [Calm]⟩⟩, hs.closes r⟩

theorem Slot.append_text (s : Slot) (a z r : Text) :
    a ++ (s.text z ++ r) = a ++ s.lead ++ s.filled ++ z ++ (s.tail ++ s.kind.closer :: r) := by
  simp [Slot.text, Slot.body]

/-- lists that open up to a slot alone still do, whatever is filled in -/
theorem Sole.fill {kind : ListKind} {x : Text} (h : Sole kind (a ++ (s.text w ++ r)) x) (hs : s.Sound)
    (hz : Fits newline s.filled z) (hw : IsCalmIn s w) (hx : x.length ≤ (a ++ s.lead).length) :
    Sole kind (a ++ (s.text z ++ r)) x := by
  rw [Slot.append_text] at h ⊢
  rcases hs.refill hz hw a r with rfl | ⟨p, z', w', hpz, hpw, hrefill⟩
  · exact h
  · have hlen := congrArg List.length hpw
    simp only [List.length_append] at hlen hx
    rw [hpw, List.append_assoc] at h
    rw [hpz, List.append_assoc]
    exact h.refill hrefill (by rw [List.length_append]; omega)

/-- lists that open behind a slot alone still do, whatever is filled in -/
theorem Sole.fill_before {kind : ListKind} {y : Text} (h : Sole kind (a ++ (s.text w ++ r)) (a ++ (s.text w ++ y)))
    (hs : s.Sound) (hz : Fits newline s.filled z) (hw : IsCalmIn s w) :
    Sole kind (a ++ (s.text z ++ r)) (a ++ (s.text z ++ y)) := by
  simp only [Slot.append_text] at h ⊢
  rcases hs.refill hz hw a r with rfl | ⟨p, z', w', hpz, hpw, hrefill⟩
  · exact h
  · rw [hpw, List.append_assoc] at h
    rw [hpz, List.append_assoc]
    exact h.refill_before hrefill (by simp)

theorem Silent.fill (h : Silent (a ++ (s.text w ++ r))) (hs : s.Sound) (hz : Fits newline s.filled z) (hw : IsCalmIn s w) :
    Silent (a ++ (s.text z ++ r)) := by
  rw [Slot.append_text] at h ⊢
  rcases hs.refill hz hw a r with rfl | ⟨p, z', w', hpz, hpw, hrefill⟩
  · exact h
  · rw [hpw, List.append_assoc] at h
    rw [hpz, List.append_assoc]
    exact h.refill hrefill

/-- what closes a list before a slot does not depend on what is filled in -/
theorem isFromClause_fill (hs : s.Sound) (hz : Fits newline s.filled z) (hw : IsCalmIn s w) :
    IsFromClause (a ++ (s.text z ++ r)) ↔ IsFromClause (a ++ (s.text w ++ r)) := by
  rw [Slot.append_text, Slot.append_text]
  rcases hs.refill hz hw a r with rfl | ⟨p, z', w', hpz, hpw, hrefill⟩
  · exact Iff.rfl
  · rw [hpz, hpw, List.append_assoc, List.append_assoc, isFromClause_append hrefill.stops_left,
      isFromClause_append hrefill.stops_right]

theorem ofContent_congr {a b : Text} (h : HasCrlf a ↔ HasCrlf b) : Newline.ofContent a = Newline.ofContent b := by
  rw [← ofContent_eq_crlf_iff, ← ofContent_eq_crlf_iff] at h
  cases ha : Newline.ofContent a <;> cases hb : Newline.ofContent b <;> simp [ha, hb] at h ⊢

/-- a filling has no effect on the line ending that is detected -/
theorem Slot.Sound.hasCrlf (hs : s.Sound) (hz : Fits newline s.filled z) (a r : Text) :
    HasCrlf (a ++ (s.text z ++ r)) ↔ HasCrlf (a ++ (s.text [] ++ r)) ∨ HasCrlf z := by
  rw [Slot.append_text, Slot.append_text, List.append_nil]
  set front := a ++ s.lead ++ s.filled with hfront
  have hlast : front.getLast? ≠ some '\r' := by
    intro h
    by_cases hf : s.filled = []
    · obtain ⟨l, hl⟩ := hs.opens.ends
      have hopener : s.kind.opener = '\r' := by simpa [hfront, hf, hl, List.getLast?_append] using h
      exact (ne_break_of_isJoint (isJoint_opener s.kind)).2 hopener
    · obtain ⟨l, c, hl⟩ := (List.eq_nil_or_concat' s.filled).resolve_left hf
      obtain rfl : c = '\r' := by simpa [hfront, hl, List.getLast?_append] using h
      exact absurd (hs.filled '\r' (by simp [hl])) (by decide)
  have hend : (front ++ z).getLast? ≠ some '\r' ∨ (s.tail ++ s.kind.closer :: r).head? ≠ some '\n' := by
    rcases hz.ends with hf | hz
    · right
      rw [hs.hollow hf]
      cases s.kind <;> simp [ListKind.closer]
    · left
      rw [List.getLast?_append]
      cases hl : z.getLast? with
      | none => simpa using hlast
      | some c => simpa [hl] using hz
  rw [hasCrlf_append hend, hasCrlf_append (Or.inl hlast), hasCrlf_append (Or.inl hlast)]
  tauto

end Slot

/-! ## Frames -/

/-- two slots and what follows them -/
structure Frame where
  first : Slot
  second : Slot
  rest : Text

namespace Frame

/-- the text behind the imports -/
def lists (f : Frame) (z1 z2 : Text) : Text := f.first.text z1 ++ (f.second.text z2 ++ f.rest)

/-- the whole text -/
def text (f : Frame) (u z1 z2 : Text) : Text := u ++ f.lists z1 z2

/-- the slots are of the two kinds, and the first one starts where the line of the last import ends -/
structure Sound (f : Frame) : Prop where
  first : f.first.Sound
  second : f.second.Sound
  kinds : f.first.kind ≠ f.second.kind
  ends : EndsLine f.first.lead
  own : f.second.kind = .exports → ¬IsFromClause f.rest

theorem text_eq (f : Frame) (u z1 z2 : Text) : f.text u z1 z2 = u ++ (f.first.lead ++ f.first.body z1 ++
    [f.first.kind.closer] ++ (f.second.lead ++ f.second.body z2 ++ [f.second.kind.closer] ++ f.rest)) := by
  simp [text, lists, Slot.text]

/-- the text around the body of the first list -/
theorem text_first (f : Frame) (u z1 z2 : Text) : f.text u z1 z2 =
    u ++ f.first.lead ++ f.first.body z1 ++ f.first.kind.closer :: (f.second.text z2 ++ f.rest) := by
  simp [text, lists, Slot.text]

/-- the text around the body of the second list -/
theorem text_second (f : Frame) (u z1 z2 : Text) : f.text u z1 z2 =
    u ++ f.first.text z1 ++ f.second.lead ++ f.second.body z2 ++ f.second.kind.closer :: f.rest := by
  simp [text, lists, Slot.text]

end Frame

/-- an index whose lists take entries: whatever is filled in, lists open in the two slots alone and imports nowhere -/
structure Open (newline : Newline) (f : Frame) (u : Text) : Prop where
  imports : EndsBlock u
  first : ∀ z1 z2, Fits newline f.first.filled z1 → Fits newline f.second.filled z2 →
    Sole f.first.kind (f.text u z1 z2) (u ++ f.first.lead)
  second : ∀ z1 z2, Fits newline f.first.filled z1 → Fits newline f.second.filled z2 →
    Sole f.second.kind (f.text u z1 z2) (u ++ f.first.text z1 ++ f.second.lead)
  own : ∀ z2, Fits newline f.second.filled z2 → f.first.kind = .exports → ¬IsFromClause (f.second.text z2 ++ f.rest)
  silent : ∀ z1 z2, Fits newline f.first.filled z1 → Fits newline f.second.filled z2 → Silent (f.lists z1 z2)
  newline : Newline.ofContent (f.text u [] []) = newline

section Frame

variable {newline : Newline} {f : Frame} {u z1 z2 w1 w2 : Text}

theorem Frame.Sound.endsLine (h : f.Sound) (z1 z2 : Text) : EndsLine (f.lists z1 z2) := by
  obtain ⟨l, hl⟩ := h.first.opens.ends
  have hends := h.ends
  have hopener := ne_break_of_isJoint (isJoint_opener f.first.kind)
  rw [hl] at hends
  have := EndsLine.append_of_ne (q := []) hends hopener.1 hopener.2
    (f.first.kind.opener :: (f.first.body z1 ++ [f.first.kind.closer] ++ (f.second.text z2 ++ f.rest)))
  simpa [Frame.lists, Slot.text, hl] using this

/-- **one calm filling shows that an index takes entries** -/
theorem Open.of_calm (hf : f.Sound) (hu : EndsBlock u) (hw1 : IsCalmIn f.first w1) (hw2 : IsCalmIn f.second w2)
    (hfirst : Sole f.first.kind (f.text u w1 w2) (u ++ f.first.lead))
    (hsecond : Sole f.second.kind (f.text u w1 w2) (u ++ f.first.text w1 ++ f.second.lead))
    (hown : f.first.kind = .exports → ¬IsFromClause (f.second.text w2 ++ f.rest))
    (hsilent : Silent (f.lists w1 w2)) (hnewline : Newline.ofContent (f.text u w1 w2) = newline) : Open newline f u where
  imports := hu
  first z1 z2 hz1 hz2 := by
    have h1 : Sole f.first.kind (f.text u z1 w2) (u ++ f.first.lead) := Sole.fill hfirst hf.first hz1 hw1 le_rfl
    have := Sole.fill (a := u ++ f.first.text z1) (r := f.rest) (by simpa [Frame.text, Frame.lists] using h1) hf.second hz2
      hw2 (by simp [Slot.text])
    simpa [Frame.text, Frame.lists] using this
  second z1 z2 hz1 hz2 := by
    have h1 : Sole f.second.kind (f.text u z1 w2) (u ++ (f.first.text z1 ++ f.second.lead)) :=
      Sole.fill_before (by simpa [Frame.text, Frame.lists] using hsecond) hf.first hz1 hw1
    have := Sole.fill (a := u ++ f.first.text z1) (r := f.rest) (x := u ++ f.first.text z1 ++ f.second.lead)
      (by simpa [Frame.text, Frame.lists] using h1) hf.second hz2 hw2 le_rfl
    simpa [Frame.text, Frame.lists] using this
  own z2 hz2 hk := by
    have := isFromClause_fill (a := []) (r := f.rest) hf.second hz2 hw2
    simpa using this.not.2 (by simpa using hown hk)
  silent z1 z2 hz1 hz2 := by
    have h1 : Silent (f.lists z1 w2) := by
      have := Silent.fill (a := []) (r := f.second.text w2 ++ f.rest) (by simpa [Frame.lists] using hsilent) hf.first
        hz1 hw1
      simpa [Frame.lists] using this
    have := Silent.fill (a := f.first.text z1) (r := f.rest) (by simpa [Frame.lists] using h1) hf.second hz2 hw2
    simpa [Frame.lists] using this
  newline := by
    refine (ofContent_congr ?_).trans hnewline
    have h1 := hf.first.hasCrlf (hw1.fits newline) u (f.second.text w2 ++ f.rest)
    have h2 := hf.second.hasCrlf (hw2.fits newline) (u ++ f.first.text []) f.rest
    rw [or_iff_left hw1.not_hasCrlf] at h1
    rw [or_iff_left hw2.not_hasCrlf, List.append_assoc, List.append_assoc] at h2
    exact (h1.trans h2).symm

/-- the two lists of an index that takes entries -/
theorem Open.isList_first (h : Open newline f u) (hf : f.Sound) (hz1 : Fits newline f.first.filled z1)
    (hz2 : Fits newline f.second.filled z2) :
    IsList f.first.kind (u ++ f.first.lead) (f.first.body z1) (f.second.text z2 ++ f.rest) := by
  obtain ⟨c, hc, hword, -⟩ := h.imports.visible
  exact ⟨hf.first.opens.append_left (by simpa [hc] using hword), hf.first.closer_notMem hz1.inert, h.own z2 hz2⟩

theorem Frame.Sound.isList_second (hf : f.Sound) (hz2 : Fits newline f.second.filled z2) :
    IsList f.second.kind (u ++ f.first.text z1 ++ f.second.lead) (f.second.body z2) f.rest := by
  refine ⟨hf.second.opens.append_left ?_, hf.second.closer_notMem hz2.inert, hf.own⟩
  have : isWordChar f.first.kind.closer = false := by cases f.first.kind <;> decide
  simpa [Slot.text] using this

/-! ## One more import -/

/-- a line ending that is detected is still detected behind one more import -/
theorem ofContent_insert {c : Component} {V : Text} (hu : EndsBlock u) (hc : Slug.IsName c.slug)
    (h : Newline.ofContent (u ++ V) = newline) : Newline.ofContent (u ++ importLine newline c ++ V) = newline := by
  obtain ⟨x, hx, -, hxr⟩ := hu.visible
  have hlast : (u ++ importLine newline c).getLast? ≠ some '\r' := by
    simp [List.getLast?_append, getLast?_importLine]
  refine (ofContent_congr ?_).trans h
  rw [hasCrlf_append (Or.inl hlast), hasCrlf_append (Or.inl (by simp [hx, hxr])),
    hasCrlf_append (Or.inl (by simp [hx, hxr]))]
  cases newline with
  | lf =>
    have hline : ¬HasCrlf (importLine .lf c) := by
      rintro ⟨a, b, hab⟩
      have hmem : '\r' ∈ importLine .lf c := by
        rw [hab]
        simp
      simp [importLine, Newline.text, (break_notMem_importFragment hc).1] at hmem
    simp [hline]
  | crlf =>
    have hcrlf := ofContent_eq_crlf_iff.1 h
    rw [hasCrlf_append (Or.inl (by simp [hx, hxr]))] at hcrlf
    tauto

/-- **an index that takes entries still does with one more import** -/
theorem Open.insert {c : Component} (h : Open newline f u) (hf : f.Sound) (hc : Slug.IsName c.slug) :
    Open newline f (u ++ importLine newline c) := by
  obtain ⟨u0, m, q, source, rfl, hm⟩ := h.imports.last
  refine ⟨h.imports.insert hc newline, fun z1 z2 hz1 hz2 => ?_, fun z1 z2 hz1 hz2 => ?_, h.own, h.silent, ?_⟩
  · have hne : f.first.lead ≠ [] := by
      obtain ⟨l, hl⟩ := hf.first.opens.ends
      simp [hl]
    have := (h.first z1 z2 hz1 hz2).insert newline hc hm hne (hf.endsLine z1 z2)
    simpa [Frame.text] using this
  · have hne : f.first.text z1 ++ f.second.lead ≠ [] := by simp [Slot.text]
    have hsole := h.second z1 z2 hz1 hz2
    rw [Frame.text, List.append_assoc (_ ++ m)] at hsole
    have := hsole.insert newline hc hm hne (hf.endsLine z1 z2)
    simpa [Frame.text] using this
  · exact ofContent_insert h.imports hc h.newline

/-! ## One more entry -/

theorem Open.ofContent_eq (h : Open newline f u) (hf : f.Sound) (hz1 : Fits newline f.first.filled z1)
    (hz2 : Fits newline f.second.filled z2) : Newline.ofContent (f.text u z1 z2) = newline := by
  refine (ofContent_congr ?_).trans h.newline
  have hbase : HasCrlf (f.text u [] []) ↔ newline = .crlf := by rw [← h.newline, ofContent_eq_crlf_iff]
  have h1 : HasCrlf (f.text u z1 z2) ↔ HasCrlf (f.text u [] z2) ∨ HasCrlf z1 := hf.first.hasCrlf hz1 u _
  have h2 : HasCrlf (f.text u [] z2) ↔ HasCrlf (f.text u [] []) ∨ HasCrlf z2 := by
    have := hf.second.hasCrlf hz2 (u ++ f.first.text []) f.rest
    simpa [Frame.text, Frame.lists] using this
  rw [h1, h2, hbase]
  have := hz1.crlf
  have := hz2.crlf
  tauto

end Frame

theorem Inert.of_append {a b : Text} (h : Inert (a ++ b)) : Inert a :=
  ⟨fun c hc => h.chars c (List.mem_append_left _ hc), fun x c y hx hc => h.inner x c (y ++ b) (by simp [hx]) hc⟩

/-- what an entry adds behind the items of a list can be filled in there -/
theorem joined_fits {newline : Newline} (filled : Text) {gap entry : Text} (hgap : Splice.IsGap newline gap)
    (he : Inert entry) (hname : ∀ c ∈ entry, Slug.isNameChar c = true) (hne : entry ≠ []) :
    Inert (Splice.joined filled gap entry) ∧ (HasCrlf (Splice.joined filled gap entry) → newline = .crlf) ∧
      ∃ c, (Splice.joined filled gap entry).getLast? = some c ∧ c ≠ '\r' := by
  have hgi := inert_blanks hgap.blanks
  obtain ⟨front, x, rfl⟩ := (List.eq_nil_or_concat' entry).resolve_left hne
  have hx : x ≠ '\r' := by
    rintro rfl
    exact absurd (hname '\r' (by simp)) (by decide)
  have hhead : (front ++ [x]).head? ≠ some '\n' := fun h =>
    absurd (hname '\n' (List.mem_of_head? h)) (by decide)
  have hn : '\n' ∉ front ++ [x] := fun hm => absurd (hname _ hm) (by decide)
  -- a line ending in the gap is the one of the text
  have hcrlf : HasCrlf (gap ++ (front ++ [x])) → newline = .crlf := by
    rw [hasCrlf_append (Or.inr hhead)]
    rintro (h | h)
    · rcases hgap with rfl | ⟨indent, rfl, -, hin⟩
      · exact absurd h (not_hasCrlf_of_notMem (by decide))
      · cases newline with
        | crlf => rfl
        | lf =>
          rw [hasCrlf_append (Or.inl (by decide))] at h
          rcases h with ⟨a, b, h⟩ | h
          · have hr : '\r' ∈ Newline.lf.text := by simp [h]
            exact absurd hr (by decide)
          · exact absurd h (not_hasCrlf_of_notMem hin)
    · exact absurd h (not_hasCrlf_of_notMem hn)
  unfold Splice.joined
  split_ifs
  · refine ⟨(hgi.append he).append inert_comma, fun h => ?_, ',', by simp, by decide⟩
    rw [hasCrlf_append (Or.inr (by decide))] at h
    exact hcrlf (h.resolve_right (not_hasCrlf_of_notMem (by decide)))
  · refine ⟨?_, fun h => ?_, x, by simp [List.getLast?_cons, List.getLast?_append], hx⟩
    · have := (inert_comma.append hgi).append he
      simpa using this
    · have h : HasCrlf ([','] ++ (gap ++ (front ++ [x]))) := by simpa using h
      rw [hasCrlf_append (Or.inl (by decide))] at h
      exact hcrlf (h.resolve_left (not_hasCrlf_of_notMem (by decide)))

section Entry

variable {newline : Newline} {s : Slot} {z : Text} {entry : Text}

/-- an empty list with its first entry has one line, and nothing in it but the entry and white space -/
theorem appendEntry_empty {body : Text} (hbody : Blanks body) (he : Inert entry)
    (hname : ∀ c ∈ entry, Slug.isNameChar c = true) (newline : Newline) :
    Inert (Splice.appendEntry newline body entry) ∧ '\n' ∉ Splice.appendEntry newline body entry := by
  obtain ⟨pad, hpad, happend⟩ := Splice.appendEntry_blanks newline hbody entry
  have hblanks : Blanks pad ∧ '\n' ∉ pad := by
    rcases hpad with rfl | rfl
    · exact ⟨blanks_nil, by simp⟩
    · simp [Blanks]
      decide
  rw [happend]
  refine ⟨((inert_blanks hblanks.1).append he).append (inert_blanks hblanks.1), ?_⟩
  simp only [List.mem_append, not_or]
  exact ⟨⟨hblanks.2, fun hm => absurd (hname _ hm) (by decide)⟩, hblanks.2⟩

/-- the first entry of an empty list -/
theorem Slot.Sound.append_empty (hs : s.Sound) (hf : s.filled = []) (hz : Blanks z) (he : Inert entry)
    (hname : ∀ c ∈ entry, Slug.isNameChar c = true) :
    ∃ z', Fits newline s.filled z' ∧ s.body z' = Splice.appendEntry newline (s.body z) entry := by
  have hbody : s.body z = z := by simp [Slot.body, hf, hs.hollow hf]
  obtain ⟨hinert, hline⟩ := appendEntry_empty hz he hname newline
  refine ⟨Splice.appendEntry newline z entry,
    ⟨hinert, Or.inr (Or.inr (Or.inl hf)), fun h => absurd h (not_hasCrlf_of_notMem hline), Or.inl hf⟩, ?_⟩
  rw [hbody, Slot.body, hf, hs.hollow hf, List.nil_append, List.append_nil]

/-- one more entry behind the items of a list -/
theorem Slot.Sound.append_filled (hs : s.Sound) (hz : Fits newline s.filled z) (hne : s.filled ++ trimEnd z ≠ [])
    (he : Inert entry) (hname : ∀ c ∈ entry, Slug.isNameChar c = true) (hentry : entry ≠ []) :
    ∃ z', Fits newline s.filled z' ∧ s.body z' = Splice.appendEntry newline (s.body z) entry := by
  obtain ⟨zb, hzb, hblanks, hvisible⟩ := exists_trimEnd z
  set zf := trimEnd z with hzf
  have hfilled : Filled (s.filled ++ zf) := by
    intro c hc
    rw [List.getLast?_append] at hc
    cases hl : zf.getLast? with
    | none => exact hs.filled c (by simpa [hl] using hc)
    | some d => exact hvisible c (by simpa [hl] using hc)
  obtain ⟨gap, hgap, -, happend⟩ := Splice.appendEntry_filled newline hfilled hne (blanks_append.2 ⟨hblanks, hs.tail⟩) entry
  obtain ⟨hinert, hcrlf, x, hx, hxr⟩ := joined_fits (s.filled ++ zf) hgap he hname hentry
  have hbody : s.body z = s.filled ++ zf ++ (zb ++ s.tail) := by
    rw [Slot.body, hzb]
    simp
  set j := Splice.joined (s.filled ++ zf) gap entry with hj
  refine ⟨zf ++ (j ++ zb), ⟨?_, ?_, ?_, ?_⟩, by rw [hbody, happend]; simp [Slot.body]⟩
  · have hzinert := hz.inert
    rw [hzb] at hzinert
    exact hzinert.of_append.append (hinert.append (inert_blanks hblanks))
  · by_cases hzf0 : zf = []
    · by_cases hcomma : s.filled.getLast? = some ','
      · exact Or.inr (Or.inr (Or.inr hcomma))
      · right; left
        simp [hj, hzf0, Splice.joined, hcomma]
    · obtain ⟨d, zf', hd⟩ := List.exists_cons_of_ne_nil hzf0
      have hjoint := hz.joint
      rw [hzb, hd] at hjoint
      rw [hd]
      simpa using hjoint
  · have hzr : zf.getLast? ≠ some '\r' := fun h => absurd (hvisible '\r' h) (by decide)
    have hzcrlf := hz.crlf
    rw [hzb, hasCrlf_append (Or.inl hzr)] at hzcrlf
    rw [hasCrlf_append (Or.inl hzr), hasCrlf_append (Or.inl (by simp [hx, hxr]))]
    tauto
  · rcases hz.ends with hf | hend
    · exact Or.inl hf
    · right
      rw [List.getLast?_append, List.getLast?_append, hx]
      cases hl : zb.getLast? with
      | none => simpa using hxr
      | some d =>
        rw [hzb, List.getLast?_append, hl] at hend
        simpa using hend

/-- **a list with one more entry is the same slot with another filling** -/
theorem Slot.Sound.entered {c : Component} (hs : s.Sound) (hz : Fits newline s.filled z) (hc : Slug.IsName c.slug) :
    ∃ z', Fits newline s.filled z' ∧ s.body z' = entered newline (s.body z) c.pascalName := by
  have hne : c.pascalName ≠ [] := by
    obtain ⟨d, rest, h, -⟩ := hc.pascal_eq.1
    rw [Component.pascalName, h]
    simp
  unfold Index.entered
  split_ifs with hin
  · exact ⟨z, hz, rfl⟩
  by_cases hempty : s.filled ++ trimEnd z = []
  · obtain ⟨hf, hzf⟩ := List.append_eq_nil_iff.1 hempty
    exact hs.append_empty hf (trimEnd_eq_nil_iff.1 hzf) (inert_pascalName hc) (isName_pascalName hc)
  · exact hs.append_filled hz hempty (inert_pascalName hc) (isName_pascalName hc) hne

end Entry

end Componentry.Index
