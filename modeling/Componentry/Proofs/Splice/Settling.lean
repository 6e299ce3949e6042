/-
What is left to do in a list of an index after an entry has gone into one: nothing in that list, and nothing in the
other one if it is still the only one of its kind.

- `Opens.behind`: a place where lists open behind another one has its head behind that place.
- `IsList.entered`, `step_again`: a list with an entry is still the only one of its kind, and takes the entry no more.
- `IsList.entered_beside`: a list that is found after an entry has gone into one of the other kind is the one that was
  there, and no item is lost.
- `mem_items_entered_exports`: nor is one of the component list if the export list was empty.
-/
import Componentry.Proofs.Splice.Registering

namespace Componentry.Index

open Text

/-! ## The list itself -/

section Own

variable {kind : ListKind} {x y body body' rest t t' : Text} {c : Component}

/-- a list that opens behind a place where lists of its kind open has its head behind that place -/
theorem Opens.behind (h : Opens kind x) (h' : Opens kind (x ++ y)) (hy : y ≠ []) :
    ∃ a v, y = a ++ v ∧ IsHead kind v ∧ (x ++ a).getLast?.any isWordChar = false := by
  obtain ⟨u, v, rfl, hv, -⟩ := h
  obtain ⟨u', v', heq, hv', hedge⟩ := h'
  rcases List.append_eq_append_iff.1 heq with ⟨a, rfl, rfl⟩ | ⟨d, hd, rfl⟩
  · exact ⟨a, v', rfl, hv', hedge⟩
  · by_cases hd0 : d = []
    · subst hd0
      exact ⟨[], y, rfl, hv', by rw [hd]; simpa using hedge⟩
    · -- the two heads overlap, and so end at the same place
      refine absurd ?_ hy
      rcases List.append_eq_append_iff.1 hd with ⟨w, rfl, rfl⟩ | ⟨w, rfl, rfl⟩
      · have hsame : w ++ d ++ y = w ++ (d ++ y ++ []) := by simp
        refine hv.end_unique hv' hsame ?_
        have := List.length_pos_of_ne_nil hd0
        simp
        omega
      · have hsame : w ++ v ++ y ++ [] = w ++ (v ++ y) := by simp
        refine (hv'.end_unique hv hsame ?_).symm
        have := List.length_pos_of_ne_nil hv.ne_nil
        simp
        omega

/-- a list that opens before another one of its kind is one whatever the body of that one is -/
theorem exists_list_around {x3 b r : Text} (hopens : Opens kind (x ++ x3)) (hx3 : x3 ≠ []) (hlist : IsList kind x b r)
    (hbody : kind.closer ∉ body) (hbody' : kind.closer ∉ body')
    (heq : x3 ++ (body' ++ kind.closer :: rest) = b ++ kind.closer :: r) :
    ∃ b' r', x3 ++ (body ++ kind.closer :: rest) = b' ++ kind.closer :: r' ∧ IsList kind x b' r' := by
  by_cases hclosed : kind.closer ∈ x3
  · -- it is closed before the other one opens
    obtain ⟨b', e, rfl, hb'⟩ := List.eq_append_cons_of_mem hclosed
    rw [List.append_assoc, List.cons_append] at heq
    obtain ⟨rfl, rfl⟩ := append_cons_unique_of_notMem hb' hlist.body heq
    refine ⟨b', e ++ (body ++ kind.closer :: rest), by simp, hlist.opens, hb', fun hk => ?_⟩
    subst hk
    obtain ⟨y, hy⟩ := hopens.ends
    obtain ⟨e, rfl⟩ : ∃ e', e = e' ++ ['\x7b'] := by
      rcases List.eq_nil_or_concat' e with rfl | ⟨e, d, rfl⟩
      · rw [← List.append_assoc] at hy
        exact absurd (List.append_inj' hy rfl).2 (by decide)
      · have hlast := congrArg List.getLast? hy
        refine ⟨e, ?_⟩
        obtain rfl : d = '\x7b' := by simpa [List.getLast?_append, List.getLast?_cons, ListKind.opener] using hlast
        rfl
    have hstops : ∀ q, Stops ('\x7b' :: q) := fun q => ⟨[], _, q, rfl, blanks_nil, by decide, by decide⟩
    have hown := hlist.own rfl
    rw [List.append_assoc, List.singleton_append, isFromClause_append (hstops _)] at hown ⊢
    exact hown
  · -- the closer of the other one closes it
    rw [← List.append_assoc] at heq
    obtain ⟨rfl, rfl⟩ := append_cons_unique_of_notMem (by simp [hclosed, hbody']) hlist.body heq
    exact ⟨x3 ++ body, rest, by simp, hlist.opens, by simp [hclosed, hbody], hlist.own⟩

/-- **a list that is the only one of its kind still is with any inert body** -/
theorem Sole.exchange (hsole : Sole kind (x ++ body ++ kind.closer :: rest) x) (h : IsList kind x body rest)
    (hbody' : Inert body') : Sole kind (x ++ body' ++ kind.closer :: rest) x := by
  intro x' b r ht hlist
  rw [List.append_assoc, List.append_assoc] at ht
  have hcloser := hbody'.closer_notMem kind
  rcases List.append_eq_append_iff.1 ht with ⟨y, rfl, hy⟩ | ⟨x3, rfl, hx3⟩
  · by_cases hy0 : y = []
    · rw [hy0, List.append_nil]
    obtain ⟨a, v, rfl, hv, hedge⟩ := h.opens.behind hlist.opens hy0
    obtain ⟨d, w, rfl, hlow, -⟩ := hv.starts
    have hne : d ≠ kind.closer := by
      rintro rfl
      cases kind <;> exact absurd hlow (by decide)
    rw [List.append_assoc] at hy
    rcases List.append_eq_append_iff.1 hy with ⟨e, rfl, he⟩ | ⟨e, rfl, he⟩
    · -- the head stands behind the closer
      obtain ⟨e, rfl⟩ : ∃ e', e = kind.closer :: e' := by
        cases e with
        | nil => exact absurd (List.cons.inj he).1.symm hne
        | cons z e => exact ⟨e, by rw [(List.cons.inj he).1]⟩
      have hopens : Opens kind (x ++ body ++ kind.closer :: e ++ d :: w) := by
        refine ⟨x ++ body ++ kind.closer :: e, d :: w, rfl, hv, ?_⟩
        simpa [List.getLast?_append, List.getLast?_cons] using hedge
      have hsame := hsole _ b r (by rw [(List.cons.inj he).2]; simp) ⟨hopens, hlist.body, hlist.own⟩
      have := congrArg List.length hsame
      simp only [List.length_append, List.length_cons] at this
      omega
    · -- the head stands in the body
      cases e with
      | nil => exact absurd (List.cons.inj he).1 hne
      | cons z e =>
        obtain rfl : d = z := (List.cons.inj he).1
        obtain ⟨z, hz, hname⟩ := hbody'.inner a d e rfl hlow
        rw [List.getLast?_append, hz, Option.some_or, Option.any_some, Slug.isWordChar_of_isNameChar hname] at hedge
        exact absurd hedge (by decide)
  · by_cases hx30 : x3 = []
    · rw [hx30, List.append_nil]
    · obtain ⟨b', r', heq, hlist'⟩ := exists_list_around h.opens hx30 hlist h.body hcloser hx3.symm
      refine hsole x' b' r' ?_ hlist'
      rw [List.append_assoc, List.append_assoc, heq, List.append_assoc]

/-- **a list with an entry is the only one of its kind, as it was without it** -/
theorem IsList.entered (h : IsList kind x body rest) (hsole : Sole kind (x ++ body ++ kind.closer :: rest) x)
    (hc : Slug.IsName c.slug) (newline : Newline) : IsList kind x (entered newline body c.pascalName) rest ∧
      Sole kind (x ++ entered newline body c.pascalName ++ kind.closer :: rest) x := by
  by_cases hin : c.pascalName ∈ Splice.items body
  · rw [Index.entered, if_pos hin]
    exact ⟨h, hsole⟩
  by_cases hblank : Blanks body
  · -- the entry takes the place of the white space
    have hinert := (appendEntry_empty hblank (inert_pascalName hc) (isName_pascalName hc) newline).1
    rw [Index.entered, if_neg hin]
    exact ⟨⟨h.opens, hinert.closer_notMem kind, h.own⟩, hsole.exchange h hinert⟩
  · -- the entry goes behind the items
    obtain ⟨s, rfl, rfl, hs, rfl, -⟩ := exists_filled_slot h.opens h.body hblank
    obtain ⟨z, hz, hbody⟩ := hs.entered (fits_nil newline s.filled) hc
    have hfill := Sole.fill (a := []) (r := rest) (by simpa [Slot.text] using hsole) hs hz (Or.inl rfl) le_rfl
    rw [← hbody]
    exact ⟨⟨h.opens, hs.closer_notMem hz.inert, h.own⟩, by simpa [Slot.text] using hfill⟩

theorem mem_items_entered (hc : Slug.IsName c.slug) (newline : Newline) (body : Text) :
    c.pascalName ∈ Splice.items (entered newline body c.pascalName) := by
  unfold Index.entered
  split_ifs with hin
  · exact hin
  · rw [Splice.items_appendEntry newline body (isName_pascalName hc) (pascalName_ne_nil hc)]
    simp

/-- a list of which an entry is an item takes it no more -/
theorem step_of_mem (h : IsList kind x body rest) (hsole : Sole kind (x ++ body ++ kind.closer :: rest) x)
    (hin : c.pascalName ∈ Splice.items body) :
    kind.step.apply (x ++ body ++ kind.closer :: rest) c = .ok (x ++ body ++ kind.closer :: rest) := by
  rw [step_apply, intoList_eq h hsole, Index.entered, if_pos hin]

/-- **an entry that a list has taken is taken no more** -/
theorem step_again (hc : Slug.IsName c.slug) (h : kind.step.apply t c = .ok t') : kind.step.apply t' c = .ok t' := by
  obtain ⟨x, body, rest, rfl, hlist, hsole, rfl⟩ := exists_list_of_step h
  obtain ⟨hlist', hsole'⟩ := hlist.entered hsole hc (.ofContent (x ++ body ++ kind.closer :: rest))
  exact step_of_mem hlist' hsole' (mem_items_entered hc _ _)

end Own

/-! ## The other list -/

section Beside

variable {n a b g g' : Text} {d : Char}

/-- a character that is visible is in the text without its outer white space -/
theorem mem_trim {t : Text} (hd : d ∈ t) (hvisible : isBlank d = false) : d ∈ trim t := by
  obtain ⟨tail, ht, hblanks, -⟩ := exists_trimEnd (trimStart t)
  have hstart : d ∈ trimStart t := by
    rw [← List.takeWhile_append_dropWhile (p := isBlank) (l := t)] at hd
    rcases List.mem_append.1 hd with hd | hd
    · simp [List.mem_takeWhile_imp hd] at hvisible
    · exact hd
  rw [ht] at hstart
  rcases List.mem_append.1 hstart with hd | hd
  · exact hd
  · simp [hblanks d hd] at hvisible

/-- a text without commas is one item at most, and has all that is visible of the text -/
theorem notMem_items (hd : d ∉ n) (hvisible : isBlank d = false) {t : Text} (ht : d ∈ t) (hcomma : ',' ∉ t) :
    n ∉ Splice.items t := by
  intro h
  simp only [Splice.items, splitAt_of_notMem hcomma, List.map_singleton, List.mem_filter, List.mem_singleton] at h
  rw [h.1] at hd
  exact hd (mem_trim ht hvisible)

/-- an item without a visible character stands on one side of it, and stays whatever is on the other side -/
theorem mem_items_beside (hd : d ∉ n) (hvisible : isBlank d = false) (hne : d ≠ ',') (hg : ',' ∉ g) (hg' : ',' ∉ g')
    (h : n ∈ Splice.items (a ++ (g ++ d :: (g' ++ b)))) :
    (∀ c, n ∈ Splice.items (a ++ c)) ∨ ∀ c, n ∈ Splice.items (c ++ b) := by
  have hbefore : ∀ {b : Text}, ',' ∉ b → n ∈ Splice.items (a ++ (g ++ d :: b)) → ∀ c, n ∈ Splice.items (a ++ c) := by
    intro b hb h c
    have hpiece : ∀ {a : Text}, ',' ∉ a → n ∉ Splice.items (a ++ (g ++ d :: b)) := fun ha =>
      notMem_items hd hvisible (by simp) (by simp [ha, hg, hb, Ne.symm hne])
    by_cases ha : ',' ∈ a
    · -- behind the last comma before the character there is the piece with it
      obtain ⟨r1, r2, hr, hno⟩ := List.eq_append_cons_of_mem (List.mem_reverse.2 ha)
      obtain rfl : a = r2.reverse ++ ',' :: r1.reverse := by
        rw [← List.reverse_reverse a, hr]
        simp
      rw [List.append_assoc, List.cons_append, Splice.items_append_comma, List.mem_append] at h ⊢
      exact Or.inl (h.resolve_right (hpiece (by simpa using hno)))
    · exact absurd h (hpiece ha)
  by_cases hb : ',' ∈ b
  · obtain ⟨b1, b2, rfl, hb1⟩ := List.eq_append_cons_of_mem hb
    rw [show a ++ (g ++ d :: (g' ++ (b1 ++ ',' :: b2))) = a ++ (g ++ d :: (g' ++ b1)) ++ ',' :: b2 by simp,
      Splice.items_append_comma, List.mem_append] at h
    rcases h with h | h
    · exact Or.inl (hbefore (by simp [hg', hb1]) h)
    · refine Or.inr fun c => ?_
      rw [← List.append_assoc, Splice.items_append_comma]
      exact List.mem_append_right _ h
  · exact Or.inl (hbefore (by simp [hg', hb]) h)

end Beside

section Other

variable {kind other : ListKind} {n x w z tail body rest y B r y' B' r' : Text} {c : Component}

/-- where a list of a text is after an exchange in a list of the other kind: at the same place before it, or behind it -/
def Follows (x w z y y' : Text) : Prop :=
  (y' = y ∧ y.length ≤ x.length) ∨ ∃ v, y = x ++ w ++ v ∧ y' = x ++ z ++ v

theorem closer_visible (kind : ListKind) : isBlank kind.closer = false ∧ kind.closer ≠ ',' := by
  cases kind <;> decide

theorem closer_ne (h : kind ≠ other) : kind.closer ≠ other.closer := by
  cases kind <;> cases other <;> first | exact absurd rfl h | decide

/-- **an item of a list stays when white space before the closer of the other kind gives way to an entry** -/
theorem Follows.mem_items (h : Follows x w z y y') (hkind : kind ≠ other) (hw : Blanks w) (ht : Blanks tail)
    (hz : Inert z) (hn : kind.closer ∉ n) (hB : other.closer ∉ B) (hB' : other.closer ∉ B')
    (heq : x ++ (w ++ (tail ++ kind.closer :: rest)) = y ++ (B ++ other.closer :: r))
    (heq' : x ++ (z ++ (tail ++ kind.closer :: rest)) = y' ++ (B' ++ other.closer :: r')) (hin : n ∈ Splice.items B) :
    n ∈ Splice.items B' := by
  obtain ⟨hvisible, hcomma⟩ := closer_visible kind
  have hz' : other.closer ∉ z := hz.closer_notMem other
  have hw' : other.closer ∉ w := (inert_blanks hw).closer_notMem other
  have ht' : other.closer ∉ tail := (inert_blanks ht).closer_notMem other
  rcases h with ⟨rfl, hlen⟩ | ⟨v, rfl, rfl⟩
  · obtain ⟨f, rfl⟩ : ∃ f, x = y' ++ f := by
      rcases List.append_eq_append_iff.1 heq with ⟨d, rfl, -⟩ | ⟨f, hf, -⟩
      · rw [List.length_append] at hlen
        obtain rfl : d = [] := List.length_eq_zero_iff.1 (by omega)
        exact ⟨[], by simp⟩
      · exact ⟨f, hf⟩
    rw [List.append_assoc, List.append_cancel_left_eq] at heq heq'
    by_cases hf : other.closer ∈ f
    · -- the list is closed before
      obtain ⟨f1, f2, rfl, hf1⟩ := List.eq_append_cons_of_mem hf
      rw [List.append_assoc, List.cons_append] at heq heq'
      rw [← (append_cons_unique_of_notMem hf1 hB' heq').1, (append_cons_unique_of_notMem hf1 hB heq).1]
      exact hin
    · -- the place is in one item of the list, and so is the closer of the other one
      obtain ⟨b, rfl, hb⟩ := cut_before (z := f ++ (w ++ tail)) (m := kind.closer :: rest) (by simpa using heq)
        (by simp [hf, hw', ht'])
      cases b with
      | nil => exact absurd (List.cons.inj hb).1 (closer_ne hkind)
      | cons e b =>
        obtain ⟨rfl, rfl⟩ := List.cons.inj hb
        have hb' : other.closer ∉ f ++ (z ++ (tail ++ kind.closer :: b)) := by
          simp only [List.mem_append, not_or] at hB ⊢
          exact ⟨hf, hz', ht', hB.2⟩
        obtain ⟨rfl, -⟩ := append_cons_unique_of_notMem hb' hB' (by simpa using heq')
        have hin' : n ∈ Splice.items (f ++ (w ++ tail ++ kind.closer :: ([] ++ b))) := by simpa using hin
        rcases mem_items_beside hn hvisible hcomma (Splice.comma_notMem_blanks (blanks_append.2 ⟨hw, ht⟩)) (by simp)
          hin' with hbefore | hbehind
        · exact hbefore _
        · have := hbehind (f ++ (z ++ (tail ++ [kind.closer])))
          simpa using this
  · simp only [List.append_assoc, List.append_cancel_left_eq] at heq heq'
    rw [heq, List.append_cancel_left_eq] at heq'
    rw [← (append_cons_unique_of_notMem hB hB' heq').1]
    exact hin

/-- a component list goes on over what is put into it, if that does not close it -/
theorem IsList.over {f m : Text} (h : IsList .components y B r) (hw : ']' ∉ w) (hz : ']' ∉ z)
    (heq : f ++ (w ++ m) = B ++ ']' :: r) : ∃ B' r', f ++ (z ++ m) = B' ++ ']' :: r' ∧ IsList .components y B' r' := by
  by_cases hclosed : ']' ∈ f
  · -- it is closed before
    obtain ⟨f1, f2, rfl, hf1⟩ := List.eq_append_cons_of_mem hclosed
    exact ⟨f1, f2 ++ (z ++ m), by simp, h.opens.isList hf1⟩
  · obtain ⟨b, rfl, rfl⟩ := cut_before (z := f ++ w) (by simpa using heq) (by simp [hclosed, hw])
    have hbody : ']' ∉ f ++ w ++ b := h.body
    simp only [List.mem_append, not_or] at hbody
    exact ⟨f ++ (z ++ b), r, by simp, h.opens.isList (by simp [hclosed, hz, hbody.2])⟩

/-- a component list that opens behind the items of an export list does so behind its brace -/
theorem Opens.behind_brace {p v m rest : Text} (h : Opens .components (p ++ v)) (hv : v ≠ []) (ht : Blanks tail)
    (heq : tail ++ '\x7d' :: rest = v ++ m) : ∃ e, v = tail ++ '\x7d' :: e := by
  obtain ⟨y, hy⟩ := h.ends
  obtain ⟨v, d, rfl⟩ := (List.eq_nil_or_concat' v).resolve_left hv
  rw [← List.append_assoc] at hy
  obtain rfl : d = '[' := by simpa [ListKind.opener] using (List.append_inj' hy rfl).2
  have htail : '[' ∉ tail := fun hm => absurd (ht _ hm) (by decide)
  obtain ⟨e, rfl, he⟩ := cut_before (b := v) (c := m) (by simpa using heq) htail
  cases e with
  | nil => exact absurd (List.cons.inj he).1 (by decide)
  | cons x e => exact ⟨e ++ ['['], by rw [← (List.cons.inj he).1]; simp⟩

/-- a component list is still one when an empty export list gets an entry -/
theorem IsList.follow_blank (h : IsList .components y B r) (hx : Opens .exports x) (hw : Blanks w) (hz : Inert z)
    (hline : '\n' ∉ z) (heq : x ++ (w ++ '\x7d' :: rest) = y ++ (B ++ ']' :: r)) : ∃ y' B' r',
      x ++ (z ++ '\x7d' :: rest) = y' ++ (B' ++ ']' :: r') ∧ IsList .components y' B' r' ∧ Follows x w z y y' := by
  rcases List.append_eq_append_iff.1 heq with ⟨y1, rfl, hy1⟩ | ⟨f, rfl, hf⟩
  · obtain ⟨x0, rfl⟩ := hx.ends
    have hne : y1 ≠ [] := by
      rintro rfl
      obtain ⟨l, hl⟩ := h.opens.ends
      rw [List.append_nil] at hl
      exact absurd (List.append_inj' hl rfl).2 (by decide)
    -- the head ends behind the brace
    obtain ⟨v, rfl⟩ := h.opens.behind_brace hne hw hy1
    obtain rfl : rest = v ++ (B ++ ']' :: r) := by simpa using hy1
    have hquiet : ∀ e ∈ '\x7b' :: z, e ≠ '=' ∧ e ≠ '\n' := by
      refine List.forall_mem_cons.2 ⟨by decide, fun e he => ⟨?_, fun hn => hline (hn ▸ he)⟩⟩
      rintro rfl
      exact hz.notMem (by decide) (by decide) (by decide) he
    have hopens : Opens .components (x0 ++ '\x7b' :: w ++ '\x7d' :: v) := by
      have := h.opens
      simpa [ListKind.opener] using this
    have hopens' := hopens.exchange (w := '\x7b' :: z) (Or.inr (Or.inr rfl)) (inert_blanks hw) hquiet rfl rfl (by simp)
    have hlist : IsList .components (x0 ++ [ListKind.exports.opener] ++ z ++ '\x7d' :: v) B r :=
      Opens.isList (by simpa [ListKind.opener] using hopens') h.body
    exact ⟨_, B, r, by simp, hlist, Or.inr ⟨_, by simp, rfl⟩⟩
  · obtain ⟨B', r', heq', hlist⟩ :=
      h.over ((inert_blanks hw).closer_notMem .components) (hz.closer_notMem .components) hf.symm
    exact ⟨y, B', r', by rw [List.append_assoc, heq'], hlist, Or.inl ⟨rfl, by simp⟩⟩

/-- a list that is found with an entry in a list of the other kind that is not empty was there without it -/
theorem Slot.Sound.follows {s : Slot} {newline : Newline} (hs : s.Sound) (hz : Fits newline s.filled z)
    (h' : IsList other y' B' r')
    (heq : s.lead ++ s.filled ++ ([] ++ (s.tail ++ s.kind.closer :: rest)) = y ++ (B ++ other.closer :: r))
    (hsole : Sole other (s.lead ++ s.filled ++ ([] ++ (s.tail ++ s.kind.closer :: rest))) y)
    (heq' : s.lead ++ s.filled ++ (z ++ (s.tail ++ s.kind.closer :: rest)) = y' ++ (B' ++ other.closer :: r')) :
    Follows (s.lead ++ s.filled) [] z y y' := by
  rcases hs.refill hz (Or.inl rfl) [] rest with rfl | ⟨p, z', w', hpz, hpw, hrefill⟩
  · obtain rfl := hsole y' B' r' (by rw [heq', List.append_assoc]) h'
    rcases List.append_eq_append_iff.1 heq with ⟨v, hv, -⟩ | ⟨v, hv, -⟩
    · exact Or.inr ⟨v, by simp [hv], by simp [hv]⟩
    · exact Or.inl ⟨rfl, by rw [hv]; simp⟩
  · rw [List.nil_append] at hpz hpw
    rw [List.append_nil] at hpw
    rw [← List.append_assoc, hpz, List.append_assoc] at heq'
    rcases h'.refill hrefill heq' with ⟨B'', r'', heq'', hlist, hlen⟩ | ⟨v, -, rfl, hv, hlist⟩
    · rw [← List.append_assoc, ← hpw] at heq''
      obtain rfl := hsole y' B'' r'' (by simpa using heq'') hlist
      exact Or.inl ⟨rfl, by rw [hpw]; exact hlen⟩
    · have htext := congrArg (p ++ w' ++ ·) hv
      obtain rfl := hsole (p ++ w' ++ v) B' r' (by simpa [hpw] using htext) hlist
      exact Or.inr ⟨v, by rw [hpw, List.append_nil], by rw [hpz]⟩

/-- it is the only one that follows -/
theorem Follows.unique {y'' : Text} (h : Follows x [] z y y') (h' : Follows x [] z y y'') (hy' : Opens kind y')
    (hy'' : Opens kind y'') (hz : Inert z) : y' = y'' := by
  -- no list opens at the end of the entry
  have hend : ∀ {v : Text}, Opens kind (x ++ z ++ v) → y = x ++ [] ++ v → y.length ≤ x.length → x ++ z ++ v = y := by
    rintro v hv rfl hlen
    obtain rfl : v = [] := by simpa using hlen
    rcases List.eq_nil_or_concat' z with rfl | ⟨z, d, rfl⟩
    · rfl
    · obtain ⟨w, hw⟩ := hv.ends
      obtain rfl : d = kind.opener := by simpa using congrArg List.getLast? hw
      have hopener : Slug.isNameChar kind.opener = false ∧ kind.opener ≠ ',' ∧ isBlank kind.opener = false := by
        cases kind <;> decide
      exact absurd (by simp) (hz.notMem hopener.1 hopener.2.1 hopener.2.2)
  rcases h with ⟨rfl, hlen⟩ | ⟨v, hv, rfl⟩ <;> rcases h' with ⟨rfl, hlen'⟩ | ⟨v', hv', rfl⟩
  · rfl
  · exact (hend hy'' hv' hlen).symm
  · exact hend hy' hv hlen'
  · rw [List.append_cancel_left (hv.symm.trans hv')]

/-- **a list that is found after an entry has gone into one of the other kind that is not empty is the only one, if it was
the only one before, and no item is lost** -/
theorem IsList.entered_beside {newline : Newline} (hlist : IsList kind x body rest) (hkind : kind ≠ other)
    (hc : Slug.IsName c.slug) (hfilled : ¬Blanks body) (h : IsList other y B r) (h' : IsList other y' B' r')
    (heq : x ++ body ++ kind.closer :: rest = y ++ B ++ other.closer :: r)
    (hsole : Sole other (x ++ body ++ kind.closer :: rest) y)
    (heq' : x ++ Index.entered newline body c.pascalName ++ kind.closer :: rest = y' ++ B' ++ other.closer :: r') :
    Sole other (x ++ Index.entered newline body c.pascalName ++ kind.closer :: rest) y' ∧
      ∀ n, kind.closer ∉ n → n ∈ Splice.items B → n ∈ Splice.items B' := by
  obtain ⟨s, rfl, rfl, hs, rfl, -⟩ := exists_filled_slot hlist.opens hlist.body hfilled
  obtain ⟨z, hz, hentered⟩ := hs.entered (fits_nil newline s.filled) hc
  rw [← hentered] at heq' ⊢
  have hplace : ∀ v, s.lead ++ s.body v ++ s.kind.closer :: rest =
      s.lead ++ s.filled ++ (v ++ (s.tail ++ s.kind.closer :: rest)) := fun v => by simp [Slot.body]
  rw [hplace, List.append_assoc y] at heq
  rw [hplace, List.append_assoc y'] at heq'
  rw [hplace] at hsole ⊢
  have hfollows := hs.follows hz h' heq hsole heq'
  refine ⟨fun y'' B'' r'' ht hlist'' => ?_, fun n hn hin =>
    hfollows.mem_items hkind blanks_nil hs.tail hz.inert hn h.body h'.body heq heq' hin⟩
  rw [List.append_assoc y''] at ht
  exact (hs.follows hz hlist'' heq hsole ht).unique hfollows hlist''.opens h'.opens hz.inert

/-- **where there is one component list before and after an entry goes into the export list, its items stay** -/
theorem mem_items_entered_exports {newline : Newline} (hc : Slug.IsName c.slug) (hn : '\x7d' ∉ n)
    (hexports : IsList .exports x body rest) (h : IsList .components y B r) (h' : IsList .components y' B' r')
    (heq : x ++ body ++ '\x7d' :: rest = y ++ B ++ ']' :: r) (hsole : Sole .components (x ++ body ++ '\x7d' :: rest) y)
    (heq' : x ++ entered newline body c.pascalName ++ '\x7d' :: rest = y' ++ B' ++ ']' :: r')
    (hsole' : Sole .components (x ++ entered newline body c.pascalName ++ '\x7d' :: rest) y')
    (hin : n ∈ Splice.items B) : n ∈ Splice.items B' := by
  by_cases hblank : Blanks body
  · -- the list stays and is the one that is found
    have hlisted : c.pascalName ∉ Splice.items body := by simp [Splice.items_blanks hblank]
    rw [Index.entered, if_neg hlisted] at heq' hsole'
    obtain ⟨hinert, hline⟩ := appendEntry_empty hblank (inert_pascalName hc) (isName_pascalName hc) newline
    rw [List.append_assoc] at heq heq' hsole'
    rw [List.append_assoc y] at heq
    rw [List.append_assoc y'] at heq'
    obtain ⟨y'', B'', r'', heq'', hlist, hfollows⟩ := h.follow_blank hexports.opens hblank hinert hline heq
    obtain rfl := hsole' y'' B'' r'' (by rw [heq'', List.append_assoc]; rfl) hlist
    have hbody := hfollows.mem_items (show ListKind.exports ≠ .components by decide) hblank blanks_nil hinert hn
      h.body hlist.body heq heq'' hin
    rwa [(append_cons_unique_of_notMem hlist.body h'.body (List.append_cancel_left (heq''.symm.trans heq'))).1] at hbody
  · exact (hexports.entered_beside (by decide) hc hblank h h' heq hsole heq').2 n hn hin

end Other

end Componentry.Index
