/-
The index of a library takes components, in any number and order.

- `Indexed`: an index with one block of imports and, behind it, one list of either kind.
- `Steady`: the white space of an empty list over several lines, which goes when the list is filled, hides nothing.
- `apply_all`: every sequence of components is registered, and adds what is new at its first use and nothing else.
- `apply_all_raises`, `apply_all_quoted_list`, `apply_all_lone_return`: it can hide a second list or an import, and it can
  hold the only carriage return.
-/
import Componentry.Proofs.Splice.Registering

namespace Componentry.Index

open Text

/-! ## Layouts -/

/-- where an index has its imports and lists: the last import, the head of either list, and where its closer stands -/
structure Layout where
  last : Occurrence
  head : ListKind → Occurrence
  close : ListKind → Nat

/-- the lists that are found for a kind -/
def spans (kind : ListKind) (t : Text) : List Splice.ListSpan :=
  Splice.listSpans t kind.anchor [kind.closer] kind.reject

/-- an index with one block of imports, and behind it one list of either kind, the two of them apart -/
structure Indexed (t : Text) (l : Layout) : Prop where
  last : (imports t).getLast? = some l.last
  block : Splice.blockCount t (imports t) ≤ 1
  lists : ∀ kind, spans kind t = [⟨(l.head kind).stop, l.close kind⟩]
  heads : ∀ kind, l.head kind ∈ kind.anchor.occurrences false t
  behind : ∀ kind, l.last.stop ≤ (l.head kind).start
  apart : l.close .components < (l.head .exports).start ∨ l.close .exports < (l.head .components).start

deriving instance DecidableEq for Occurrence

instance {p : ListKind → Prop} [DecidablePred p] : Decidable (∀ kind, p kind) :=
  decidable_of_iff (p .components ∧ p .exports) ⟨fun h kind => by cases kind; exacts [h.1, h.2], fun h => ⟨h _, h _⟩⟩

instance (t : Text) (l : Layout) : Decidable (Indexed t l) :=
  decidable_of_iff (_ ∧ _ ∧ _ ∧ _ ∧ _ ∧ _)
    ⟨fun ⟨h1, h2, h3, h4, h5, h6⟩ => ⟨h1, h2, h3, h4, h5, h6⟩, fun h => ⟨h.1, h.2, h.3, h.4, h.5, h.6⟩⟩

/-- the other kind of list -/
def ListKind.other : ListKind → ListKind
  | .components => .exports
  | .exports => .components

namespace Layout

/-- the body of a list -/
def body (l : Layout) (t : Text) (kind : ListKind) : Text := slice t (l.head kind).stop (l.close kind)

/-- the kind of list that comes first -/
def leader (l : Layout) : ListKind :=
  if l.close .components < (l.head .exports).start then .components else .exports

/-- a text with more imports behind the last one and with other bodies in its lists -/
def write (l : Layout) (t added : Text) (bodies : ListKind → Text) : Text :=
  t.take l.last.stop ++ added ++ slice t l.last.stop (l.head l.leader).stop ++ bodies l.leader ++
    slice t (l.close l.leader) (l.head l.leader.other).stop ++ bodies l.leader.other ++ t.drop (l.close l.leader.other)

end Layout

/-- white space with a line break in it -/
def IsBreaking (b : Text) : Prop := Blanks b ∧ ('\n' ∈ b ∨ '\r' ∈ b)

instance (b : Text) : Decidable (IsBreaking b) := inferInstanceAs (Decidable ((∀ c ∈ b, _) ∧ _))

/-- a body without the white space of an empty list over several lines -/
def emptied (b : Text) : Text := if IsBreaking b then [] else b

/-! ## From positions to frames -/

theorem calm_emptied {b : Text} (hb : Blanks b) : Calm (emptied b) := by
  unfold emptied
  split_ifs with h
  · simp [Calm]
  · intro c hc
    have hno := not_or.1 fun hbreak => h ⟨hb, hbreak⟩
    exact ⟨hb c hc, fun e => hno.1 (e ▸ hc), fun e => hno.2 (e ▸ hc)⟩

/-- a list as a slot with a filling -/
theorem exists_slot {kind : ListKind} {lead body : Text} {newline : Newline} (hopens : Opens kind lead)
    (hbody : kind.closer ∉ body) (hcrlf : HasCrlf body → newline = .crlf) : ∃ (s : Slot) (z w : Text), s.kind = kind ∧
      s.lead = lead ∧ s.Sound ∧ Fits newline s.filled z ∧ s.body z = body ∧ IsCalmIn s w ∧ s.body w = emptied body := by
  by_cases hblank : Blanks body
  · -- an empty list: all of its body is filling
    refine ⟨⟨kind, lead, [], []⟩, body, emptied body, rfl, rfl,
      ⟨hopens, by simp [Filled], blanks_nil, fun _ => rfl, by simp⟩, ⟨inert_blanks hblank, Or.inr (Or.inr (Or.inl rfl)), hcrlf, Or.inl rfl⟩, by simp [Slot.body], Or.inr ⟨rfl, ?_⟩,
      by simp [Slot.body]⟩
    exact calm_emptied hblank
  · have hkeep : emptied body = body := if_neg fun h => hblank h.1
    obtain ⟨s, rfl, rfl, hs, hs', -⟩ := exists_filled_slot hopens hbody hblank
    exact ⟨s, [], [], rfl, rfl, hs, fits_nil _ _, hs', Or.inl rfl, by rw [hs', hkeep]⟩

/-- the one list of a kind, as a part of the text -/
theorem Indexed.exists_list {t : Text} {l : Layout} (h : Indexed t l) (kind : ListKind) : ∃ x v body rest,
    t = x ++ v ++ body ++ kind.closer :: rest ∧ IsHead kind v ∧ x.getLast?.any isWordChar = false ∧
      (l.head kind).start = x.length ∧ (l.head kind).stop = (x ++ v).length ∧
      l.close kind = (x ++ v ++ body).length ∧ IsList kind (x ++ v) body rest ∧ Sole kind t (x ++ v) := by
  obtain ⟨x, v, r, ht, hv, hedge, hstart, hstop⟩ := head_of_mem_occurrences (h.heads kind)
  have hspans := h.lists kind
  obtain ⟨x', body, rest, ht', hlist, hspan⟩ := mem_listSpans.1 (show _ ∈ spans kind t by
    rw [hspans]
    exact List.mem_singleton_self _)
  rw [Splice.ListSpan.mk.injEq] at hspan
  obtain rfl : x' = x ++ v := by
    rw [ht, List.append_assoc x'] at ht'
    exact (List.append_inj ht' (by rw [← hspan.1, hstop])).1.symm
  refine ⟨x, v, body, rest, ht', hv, hedge, hstart, hstop, by rw [hspan.2]; simp [Nat.add_assoc], hlist, ?_⟩
  rw [hspan.1, hspan.2, ht'] at hspans
  rw [ht']
  exact (listSpans_eq_singleton_iff.1 hspans).2

theorem Indexed.leader_apart {t : Text} {l : Layout} (h : Indexed t l) :
    l.close l.leader < (l.head l.leader.other).start := by
  unfold Layout.leader
  split_ifs with hlt
  · exact hlt
  · exact h.apart.resolve_left hlt

/-- the parts of an index: its imports, what leads to either list, their bodies, and the rest -/
structure Parts (t : Text) (l : Layout) (u lead1 body1 lead2 body2 rest : Text) : Prop where
  text : t = u ++ (lead1 ++ body1 ++ [l.leader.closer] ++ (lead2 ++ body2 ++ [l.leader.other.closer] ++ rest))
  last : l.last.stop = u.length
  headFirst : (l.head l.leader).stop = (u ++ lead1).length
  closeFirst : l.close l.leader = (u ++ lead1 ++ body1).length
  headSecond : (l.head l.leader.other).stop = (u ++ lead1 ++ body1 ++ [l.leader.closer] ++ lead2).length
  closeSecond : l.close l.leader.other = (u ++ lead1 ++ body1 ++ [l.leader.closer] ++ lead2 ++ body2).length

/-- **an index comes apart into its imports and its lists** -/
theorem Indexed.exists_parts {t : Text} {l : Layout} (h : Indexed t l) : ∃ u lead1 body1 lead2 body2 rest,
    Parts t l u lead1 body1 lead2 body2 rest ∧ EndsBlock u ∧ EndsLine lead1 ∧ Opens l.leader lead1 ∧
      Opens l.leader.other lead2 ∧
      IsList l.leader (u ++ lead1) body1 (lead2 ++ body2 ++ [l.leader.other.closer] ++ rest) ∧
      IsList l.leader.other (u ++ lead1 ++ body1 ++ [l.leader.closer] ++ lead2) body2 rest := by
  obtain ⟨u, V, ht, hblock, hV, -, hlast, -⟩ := exists_block h.last h.block
  obtain ⟨x1, v1, body1, r1, ht1, hv1, hedge1, hstart1, hstop1, hclose1, hlist1, -⟩ := h.exists_list l.leader
  obtain ⟨x2, v2, body2, r2, ht2, hv2, hedge2, hstart2, hstop2, hclose2, hlist2, -⟩ := h.exists_list l.leader.other
  have hbehind := h.behind l.leader
  have hapart := h.leader_apart
  rw [hlast, hstart1] at hbehind
  rw [hclose1, hstart2] at hapart
  -- the first list starts behind the imports, and the second one behind the first
  have hu : u <+: t := ⟨V, ht.symm⟩
  have hx1 : x1 <+: t := ⟨v1 ++ (body1 ++ l.leader.closer :: r1), by rw [ht1]; simp⟩
  have hx2 : x2 <+: t := ⟨v2 ++ (body2 ++ l.leader.other.closer :: r2), by rw [ht2]; simp⟩
  have hclosed : x1 ++ v1 ++ body1 ++ [l.leader.closer] <+: t := ⟨r1, by rw [ht1]; simp⟩
  obtain ⟨gap, rfl⟩ := List.prefix_of_prefix_length_le hu hx1 hbehind
  obtain ⟨mid, rfl⟩ := List.prefix_of_prefix_length_le hclosed hx2 (by simp at hapart ⊢; omega)
  have hr1 : r1 = mid ++ v2 ++ body2 ++ [l.leader.other.closer] ++ r2 := by
    have heq := ht1.symm.trans ht2
    simpa using heq
  have hVeq : V = gap ++ v1 ++ (body1 ++ l.leader.closer :: r1) := by
    have heq := ht.symm.trans ht1
    simpa using heq
  rw [hVeq] at hV
  subst hr1
  exact ⟨u, gap ++ v1, body1, mid ++ v2, body2, r2,
    ⟨by rw [ht1]; simp, hlast, by rw [hstop1]; simp, by rw [hclose1]; simp, by rw [hstop2]; simp, by rw [hclose2]; simp⟩,
    hblock, hV.of_append, ⟨gap, v1, rfl, hv1, any_getLast?_of_append hedge1⟩,
    ⟨mid, v2, rfl, hv2, any_getLast?_of_append hedge2⟩, by simpa using hlist1, by simpa using hlist2⟩

section Parts

variable {t : Text} {l : Layout} {u lead1 body1 lead2 body2 rest : Text}

theorem slice_append (a b c : Text) : slice (a ++ b ++ c) a.length (a ++ b).length = b := by
  rw [slice, List.take_left' rfl, List.drop_left' rfl]

theorem Parts.body_leader (h : Parts t l u lead1 body1 lead2 body2 rest) : l.body t l.leader = body1 := by
  rw [Layout.body, h.headFirst, h.closeFirst, h.text]
  have := slice_append (u ++ lead1) body1
    ([l.leader.closer] ++ (lead2 ++ body2 ++ [l.leader.other.closer] ++ rest))
  simpa using this

theorem Parts.body_other (h : Parts t l u lead1 body1 lead2 body2 rest) : l.body t l.leader.other = body2 := by
  rw [Layout.body, h.headSecond, h.closeSecond, h.text]
  have := slice_append (u ++ lead1 ++ body1 ++ [l.leader.closer] ++ lead2) body2 ([l.leader.other.closer] ++ rest)
  simpa using this

/-- what is written is between the parts that stay -/
theorem Parts.write (h : Parts t l u lead1 body1 lead2 body2 rest) (added : Text) (bodies : ListKind → Text) :
    l.write t added bodies = u ++ added ++ (lead1 ++ bodies l.leader ++ [l.leader.closer] ++
      (lead2 ++ bodies l.leader.other ++ [l.leader.other.closer] ++ rest)) := by
  have htake : t.take l.last.stop = u := by
    rw [h.last, h.text, List.take_left' rfl]
  have hlead1 : slice t l.last.stop (l.head l.leader).stop = lead1 := by
    have := slice_append u lead1 (body1 ++ [l.leader.closer] ++ (lead2 ++ body2 ++ [l.leader.other.closer] ++ rest))
    rw [h.last, h.headFirst, h.text]
    simpa using this
  have hlead2 : slice t (l.close l.leader) (l.head l.leader.other).stop = [l.leader.closer] ++ lead2 := by
    have := slice_append (u ++ lead1 ++ body1) ([l.leader.closer] ++ lead2) (body2 ++ [l.leader.other.closer] ++ rest)
    rw [h.closeFirst, h.headSecond, h.text]
    simpa using this
  have hdrop : t.drop (l.close l.leader.other) = [l.leader.other.closer] ++ rest := by
    have heq : t = u ++ lead1 ++ body1 ++ [l.leader.closer] ++ lead2 ++ body2 ++ ([l.leader.other.closer] ++ rest) := by
      rw [h.text]
      simp
    rw [h.closeSecond, heq, List.drop_left' rfl]
  rw [Layout.write, htake, hlead1, hlead2, hdrop]
  simp

end Parts

/-! ## Empty lists over several lines -/

/-- the text with the white space of such lists taken out -/
def Layout.emptied (l : Layout) (t : Text) : Text := l.write t [] fun kind => Index.emptied (l.body t kind)

/-- an index in which the white space of such lists hides nothing: without it, the same imports are found, one list of
either kind, and the same line ending -/
structure Steady (t : Text) (l : Layout) : Prop where
  imports : imports (l.emptied t) = imports t
  lists : ∀ kind, (spans kind (l.emptied t)).length = 1
  newline : Newline.ofContent (l.emptied t) = Newline.ofContent t

instance (t : Text) (l : Layout) : Decidable (Steady t l) :=
  decidable_of_iff (_ ∧ _ ∧ _) ⟨fun ⟨h1, h2, h3⟩ => ⟨h1, h2, h3⟩, fun h => ⟨h.1, h.2, h.3⟩⟩

/-- without such lists there is nothing to hide -/
theorem Indexed.steady {t : Text} {l : Layout} (h : Indexed t l) (hbreak : ∀ kind, ¬IsBreaking (l.body t kind)) :
    Steady t l := by
  obtain ⟨u, lead1, body1, lead2, body2, rest, hparts, -⟩ := h.exists_parts
  have hsame : l.emptied t = t := by
    rw [Layout.emptied, hparts.write, Index.emptied, if_neg (hbreak _), Index.emptied, if_neg (hbreak _),
      hparts.body_leader, hparts.body_other, List.append_nil]
    exact hparts.text.symm
  refine ⟨by rw [hsame], fun kind => ?_, by rw [hsame]⟩
  rw [hsame, h.lists kind, List.length_singleton]

/-- one list is found, and it is a given one -/
theorem sole_of_length {kind : ListKind} {x body rest : Text} (h : IsList kind x body rest)
    (hlen : (spans kind (x ++ body ++ kind.closer :: rest)).length = 1) :
    Sole kind (x ++ body ++ kind.closer :: rest) x := by
  obtain ⟨span, hspan⟩ := List.length_eq_one_iff.1 hlen
  have hmem : (⟨x.length, x.length + body.length⟩ : Splice.ListSpan) ∈
      spans kind (x ++ body ++ kind.closer :: rest) := mem_listSpans.2 ⟨x, body, rest, rfl, h, rfl⟩
  rw [hspan, List.mem_singleton] at hmem
  subst hmem
  exact (listSpans_eq_singleton_iff.1 hspan).2

/-- **a steady index takes entries** -/
theorem Indexed.exists_open {t : Text} {l : Layout} (h : Indexed t l) (hsteady : Steady t l) : ∃ f u z1 z2,
    Parts t l u f.first.lead (f.first.body z1) f.second.lead (f.second.body z2) f.rest ∧ f.Sound ∧
      f.first.kind = l.leader ∧ f.second.kind = l.leader.other ∧ Fits (.ofContent t) f.first.filled z1 ∧
      Fits (.ofContent t) f.second.filled z2 ∧ Open (.ofContent t) f u := by
  obtain ⟨u, lead1, body1, lead2, body2, rest, hparts, hblock, hends, hopens1, hopens2, hlist1, hlist2⟩ := h.exists_parts
  have hcrlf1 : HasCrlf body1 → Newline.ofContent t = .crlf := fun hb =>
    ofContent_eq_crlf_iff.2 (hb.of_infix ⟨u ++ lead1, _, by rw [hparts.text]; simp; rfl⟩)
  have hcrlf2 : HasCrlf body2 → Newline.ofContent t = .crlf := fun hb =>
    ofContent_eq_crlf_iff.2 (hb.of_infix ⟨u ++ lead1 ++ body1 ++ [l.leader.closer] ++ lead2, _, by
      rw [hparts.text]; simp; rfl⟩)
  obtain ⟨s1, z1, w1, hk1, rfl, hs1, hz1, rfl, hw1, he1⟩ := exists_slot hopens1 hlist1.body hcrlf1
  obtain ⟨s2, z2, w2, hk2, rfl, hs2, hz2, rfl, hw2, he2⟩ := exists_slot hopens2 hlist2.body hcrlf2
  have hsound : (Frame.mk s1 s2 rest).Sound := by
    refine ⟨hs1, hs2, ?_, hends, ?_⟩
    · rw [hk1, hk2]
      cases l.leader <;> simp [ListKind.other]
    · rw [hk2]
      exact hlist2.own
  have hempty : l.emptied t = (Frame.mk s1 s2 rest).text u w1 w2 := by
    rw [Layout.emptied, hparts.write, hparts.body_leader, hparts.body_other, ← he1, ← he2, ← hk2, ← hk1, List.append_nil,
      Frame.text_eq]
  -- the lists of the emptied text
  have hown : s1.kind = .exports → ¬IsFromClause (s2.text w2 ++ rest) := fun hk => by
    have hrest := hlist1.own (by rw [← hk1, hk])
    rw [← hk2] at hrest
    have := isFromClause_fill (a := []) (r := rest) hs2 hz2 hw2
    exact this.not.1 hrest
  have hempty1 : IsList s1.kind (u ++ s1.lead) (s1.body w1) (s2.text w2 ++ rest) :=
    ⟨by rw [hk1]; exact hlist1.opens, hs1.closer_notMem (hw1.fits .lf).inert, hown⟩
  have hempty2 : IsList s2.kind (u ++ s1.text w1 ++ s2.lead) (s2.body w2) rest :=
    hsound.isList_second (hw2.fits .lf)
  have hlength := hsteady.lists
  have himports := hsteady.imports
  have hnewline := hsteady.newline
  rw [hempty] at hlength himports hnewline
  refine ⟨⟨s1, s2, rest⟩, u, z1, z2, hparts, hsound, hk1, hk2, hz1, hz2,
    Open.of_calm hsound hblock hw1 hw2 ?_ ?_ hown ?_ hnewline⟩
  · have hone := hlength s1.kind
    rw [Frame.text_first] at hone ⊢
    exact sole_of_length hempty1 hone
  · have hone := hlength s2.kind
    rw [Frame.text_second] at hone ⊢
    exact sole_of_length hempty2 hone
  · exact silent_of_last (u := u) (himports ▸ h.last) hparts.last

/-! ## Sequences of components -/

/-- the text with what a sequence of components brings: the new imports behind the last one, and the new entries in the
lists -/
def Layout.extended (l : Layout) (t : Text) (cs : List Component) : Text :=
  l.write t (importLines (.ofContent t) (sources t) cs) fun kind => grown (.ofContent t) (l.body t kind) cs

/-- what a sequence of components makes of an index, as a frame -/
structure Reached (t : Text) (l : Layout) (cs : List Component) (f : Frame) (u z1 z2 : Text) : Prop where
  sound : f.Sound
  takes : Open (.ofContent t) f u
  fits1 : Fits (.ofContent t) f.first.filled z1
  fits2 : Fits (.ofContent t) f.second.filled z2
  kind1 : f.first.kind = l.leader
  kind2 : f.second.kind = l.leader.other
  body1 : f.first.body z1 = grown (.ofContent t) (l.body t l.leader) cs
  body2 : f.second.body z2 = grown (.ofContent t) (l.body t l.leader.other) cs
  origins : sources u = sources t ++ (fresh sourceOf (sources t) cs).map sourceOf
  text : l.extended t cs = f.text u z1 z2

/-- **a sequence of components extends a steady index** -/
theorem Indexed.exists_reached (root : Path) {t : Text} {l : Layout} {cs : List Component} (h : Indexed t l)
    (hsteady : Steady t l) (hcs : ∀ c ∈ cs, Slug.IsName c.slug) :
    cs.foldlM (Listing.index (Settings.standard root)).apply t = .ok (l.extended t cs) ∧
      ∃ f u z1 z2, Reached t l cs f u z1 z2 := by
  obtain ⟨f, u, y1, y2, hparts, hf, hk1, hk2, hy1, hy2, hopen⟩ := h.exists_open hsteady
  have ht : t = f.text u y1 y2 := by
    rw [hparts.text, ← hk2, ← hk1, f.text_eq]
  have hsources : sources t = sources u := by
    have himports := hopen.imports.imports_append (hf.endsLine y1 y2) (hopen.silent y1 y2 hy1 hy2)
    rw [ht, sources, Frame.text, himports, sources]
  obtain ⟨z1, z2, hz1, hz2, hb1, hb2, hopen', hnew, hrun⟩ := hopen.run root hf hy1 hy2 hcs
  rw [← hparts.body_leader] at hb1
  rw [← hparts.body_other] at hb2
  rw [← hsources] at hopen' hnew hrun
  have htext : l.extended t cs = f.text (u ++ importLines (.ofContent t) (sources t) cs) z1 z2 := by
    rw [Layout.extended, hparts.write, ← hb1, ← hb2, ← hk2, ← hk1, f.text_eq]
  rw [← ht, ← htext] at hrun
  exact ⟨hrun, f, _, z1, z2, hf, hopen', hz1, hz2, hk1, hk2, hb1, hb2, hnew, htext⟩

section Reached

variable {t : Text} {l : Layout} {cs : List Component} {f : Frame} {u z1 z2 : Text}

theorem Reached.sources_extended (h : Reached t l cs f u z1 z2) :
    sources (l.extended t cs) = sources t ++ (fresh sourceOf (sources t) cs).map sourceOf := by
  have himports := h.takes.imports.imports_append (h.sound.endsLine z1 z2) (h.takes.silent z1 z2 h.fits1 h.fits2)
  rw [h.text, ← h.origins, sources, Frame.text, himports, sources]

/-- one list is found, with a given body -/
theorem exists_span {kind : ListKind} {x body rest : Text} (hlist : IsList kind x body rest)
    (hsole : Sole kind (x ++ body ++ kind.closer :: rest) x) : ∃ start close,
      spans kind (x ++ body ++ kind.closer :: rest) = [⟨start, close⟩] ∧
        slice (x ++ body ++ kind.closer :: rest) start close = body := by
  refine ⟨x.length, x.length + body.length, listSpans_eq_singleton_iff.2 ⟨hlist, hsole⟩, ?_⟩
  rw [← List.length_append]
  exact slice_append x body (kind.closer :: rest)

/-- one list of either kind is found, with the entries of the sequence -/
theorem Reached.exists_span (h : Reached t l cs f u z1 z2) (kind : ListKind) : ∃ start close,
    spans kind (l.extended t cs) = [⟨start, close⟩] ∧
      slice (l.extended t cs) start close = grown (.ofContent t) (l.body t kind) cs := by
  have hfirst := h.takes.first z1 z2 h.fits1 h.fits2
  have hsecond := h.takes.second z1 z2 h.fits1 h.fits2
  rw [h.text]
  have hkind : kind = l.leader ∨ kind = l.leader.other := by cases kind <;> cases l.leader <;> simp [ListKind.other]
  rcases hkind with rfl | rfl
  · rw [f.text_first] at hfirst ⊢
    rw [← h.body1, ← h.kind1]
    exact Index.exists_span (h.takes.isList_first h.sound h.fits1 h.fits2) hfirst
  · rw [f.text_second] at hsecond ⊢
    rw [← h.body2, ← h.kind2]
    exact Index.exists_span (h.sound.isList_second h.fits2) hsecond

/-- a component of the sequence changes nothing any more -/
theorem Reached.apply_again (root : Path) {c : Component} (h : Reached t l cs f u z1 z2)
    (hcs : ∀ c ∈ cs, Slug.IsName c.slug) (hc : c ∈ cs) :
    (Listing.index (Settings.standard root)).apply (l.extended t cs) c = .ok (l.extended t cs) := by
  rw [h.text]
  refine h.takes.apply_again root h.sound h.fits1 h.fits2 (hcs c hc) ?_ ?_ ?_
  · rw [h.origins]
    exact mem_append_fresh hc
  · rw [h.body1, items_grown hcs]
    exact mem_append_fresh hc
  · rw [h.body2, items_grown hcs]
    exact mem_append_fresh hc

end Reached

/-- **every sequence of components is registered in a steady index: the new imports go behind the last one, the new
entries behind the old ones, each at its first use, nothing else changes, a repeated component changes nothing, and
the order decides only the order of what is new** -/
theorem apply_all {root : Path} {t : Text} {l : Layout} {cs : List Component} (h : Indexed t l) (hsteady : Steady t l)
    (hcs : ∀ c ∈ cs, Slug.IsName c.slug) :
    cs.foldlM (Listing.index (Settings.standard root)).apply t = .ok (l.extended t cs) ∧
      sources (l.extended t cs) = sources t ++ (fresh sourceOf (sources t) cs).map sourceOf ∧
      (∀ kind, ∃ start close, spans kind (l.extended t cs) = [⟨start, close⟩] ∧
        Splice.items (slice (l.extended t cs) start close) = Splice.items (l.body t kind) ++
          (fresh Component.pascalName (Splice.items (l.body t kind)) cs).map Component.pascalName) ∧
      (∀ c ∈ cs, (Listing.index (Settings.standard root)).apply (l.extended t cs) c = .ok (l.extended t cs)) ∧
      ∀ cs', cs.Perm cs' →
        cs'.foldlM (Listing.index (Settings.standard root)).apply t = .ok (l.extended t cs') ∧
        ((fresh sourceOf (sources t) cs).map sourceOf).Perm ((fresh sourceOf (sources t) cs').map sourceOf) ∧
        ∀ kind, ((fresh Component.pascalName (Splice.items (l.body t kind)) cs).map Component.pascalName).Perm
          ((fresh Component.pascalName (Splice.items (l.body t kind)) cs').map Component.pascalName) := by
  obtain ⟨hrun, f, u, z1, z2, hreached⟩ := h.exists_reached root hsteady hcs
  refine ⟨hrun, hreached.sources_extended, fun kind => ?_, fun c hc => hreached.apply_again root hcs hc,
    fun cs' hperm => ?_⟩
  · obtain ⟨start, close, hspan, hbody⟩ := hreached.exists_span kind
    exact ⟨start, close, hspan, by rw [hbody, items_grown hcs]⟩
  · have hcs' : ∀ c ∈ cs', Slug.IsName c.slug := fun c hc => hcs c (hperm.mem_iff.2 hc)
    exact ⟨(h.exists_reached root hsteady hcs').1, fresh_perm hperm, fun kind => fresh_perm hperm⟩

/-- a list over several lines with a comma behind its last entry, and an empty list over two lines -/
theorem apply_all_several_lines :
    let root : Path := .ofText "repo".toList
    let t := "import A from './a'\nconst components = [\n  A,\n]\nexport \x7b\n\x7d\n".toList
    let l : Layout := ⟨⟨0, 19, [(.source, "./a".toList), (.quote, ['\''])]⟩,
      fun | .components => ⟨20, 40, []⟩ | .exports => ⟨48, 56, []⟩, fun | .components => 46 | .exports => 57⟩
    let cs : List Component := ["foo", "a", "foo"].map fun slug => ⟨slug.toList, "Title".toList, [], []⟩
    Indexed t l ∧ Steady t l ∧ (∀ c ∈ cs, Slug.IsName c.slug) ∧
      cs.foldlM (Listing.index (Settings.standard root)).apply t = .ok (l.extended t cs) ∧
      l.extended t cs = ("import A from './a'\nimport \x7b Foo \x7d from './foo'\n" ++
        "const components = [\n  A,\n  Foo,\n]\nexport \x7bFoo, A\x7d\n").toList := by
  intro root t l cs
  have h : Indexed t l := by decide +kernel
  have hsteady : Steady t l := by decide +kernel
  have hcs : ∀ c ∈ cs, Slug.IsName c.slug := by decide +kernel
  exact ⟨h, hsteady, hcs, (apply_all h hsteady hcs).1, by decide +kernel⟩

/-- an empty list over two lines that hides the head of another one: the first component makes it visible, and the
second one finds two lists -/
theorem apply_all_raises :
    let root : Path := .ofText "repo".toList
    let t := "import A from 'a'\nconst components = [A]\nconst components: export \x7b\n\x7d = [ B ]\n".toList
    let l : Layout := ⟨⟨0, 17, [(.source, ['a']), (.quote, ['\''])]⟩,
      fun | .components => ⟨18, 38, []⟩ | .exports => ⟨59, 67, []⟩, fun | .components => 39 | .exports => 68⟩
    let cs : List Component := ["foo", "bar"].map fun slug => ⟨slug.toList, "Title".toList, [], []⟩
    Indexed t l ∧ (∀ c ∈ cs, Slug.IsName c.slug) ∧
      ∀ t', cs.foldlM (Listing.index (Settings.standard root)).apply t ≠ .ok t' := by
  intro root t l cs
  have hraise : (cs.foldlM (Listing.index (Settings.standard root)).apply t).toOption = none := by decide +kernel
  refine ⟨by decide +kernel, by decide +kernel, fun t' h => ?_⟩
  rw [h] at hraise
  exact absurd hraise (by simp [Except.toOption])

/-- an empty list over two lines inside of quotes: the first component makes it an import, so that not only the new
sources are added -/
theorem apply_all_quoted_list :
    let root : Path := .ofText "repo".toList
    let t := "import A from 'a'\nimport 'const components = [\n]'\nexport \x7b A \x7d\n".toList
    let l : Layout := ⟨⟨0, 17, [(.source, ['a']), (.quote, ['\''])]⟩,
      fun | .components => ⟨26, 46, []⟩ | .exports => ⟨50, 58, []⟩, fun | .components => 47 | .exports => 61⟩
    let cs : List Component := ["foo"].map fun slug => ⟨slug.toList, "Title".toList, [], []⟩
    Indexed t l ∧ (∀ c ∈ cs, Slug.IsName c.slug) ∧
      ((cs.foldlM (Listing.index (Settings.standard root)).apply t).toOption.map sources) =
        some [['a'], "./foo".toList, "const components = [Foo]".toList] := by
  decide +kernel

/-- an empty list over two lines with the only carriage return: two orders of the components differ in line endings -/
theorem apply_all_lone_return :
    let root : Path := .ofText "repo".toList
    let t := ("import A from 'a'\nimport \x7b Foo \x7d from './foo'\nconst components = [\r\n]\n" ++
      "export \x7b A \x7d\n").toList
    let l : Layout := ⟨⟨18, 45, [(.source, "./foo".toList), (.quote, ['\''])]⟩,
      fun | .components => ⟨46, 66, []⟩ | .exports => ⟨70, 78, []⟩, fun | .components => 68 | .exports => 81⟩
    let cs : List Component := ["foo", "bar"].map fun slug => ⟨slug.toList, "Title".toList, [], []⟩
    let endings (cs : List Component) :=
      (cs.foldlM (Listing.index (Settings.standard root)).apply t).toOption.map Newline.ofContent
    Indexed t l ∧ (∀ c ∈ cs, Slug.IsName c.slug) ∧ endings cs = some .lf ∧ endings cs.reverse = some .crlf := by
  decide +kernel

end Componentry.Index
