/-
The collection behind a key, and the children that are added to it.

- `mem_ends_keyedList`: its head is the key, a colon and a bracket, with white space between them, a word of its own.
- `occurrences_keyedList_append`: no head reads over white space into a character that is in no head, so that what follows
  from there on does not change the heads before.
- `exists_collection`, `intoCollection_eq`: a fragment goes into the only collection, and its text stays around it.
- `IsCollection.append`: with one more child it is the only one still.
-/
import Componentry.Proofs.Pattern.Heads
import Componentry.Proofs.Pattern.Scanning
import Componentry.Proofs.Text.Pieces
import Componentry.Splice.Keyed

namespace Componentry.Splice

open Text

/-! ## Heads -/

/-- a key that is a word -/
structure IsKey (key : Text) : Prop where
  ne_nil : key ≠ []
  chars : ∀ c ∈ key, isWordChar c = true

/-- the head of a collection -/
def IsKeyHead (key v : Text) : Prop := ∃ s s', v = key ++ s ++ ':' :: s' ++ ['['] ∧ Blanks s ∧ Blanks s'

variable {key v w x y z body rest : Text} {b : Bool}

/-- a head is read where its first character, the colon if the key is empty, has a word edge before it -/
theorem mem_ends_head {k e : Cursor} : e ∈ (Pattern.keyedList key).ends b k ↔
    ∃ v rest, k.rest = v ++ rest ∧ IsKeyHead key v ∧ k.atWordEdge = true ∧ e = k.after v rest := by
  simp only [Pattern.keyedList, Pattern.mem_ends_andThen, Pattern.mem_ends_wordEdge, Pattern.mem_ends_text,
    Pattern.mem_ends_many]
  constructor
  · rintro ⟨m4, ⟨m3, ⟨m2, ⟨m1, ⟨m0, ⟨hedge, rfl⟩, r1, h1, rfl⟩, s, r2, h2, hs, -, rfl⟩, r3, h3, rfl⟩, s', r4, h4, hs', -,
      rfl⟩, rest, h5, rfl⟩
    simp only [Cursor.after_rest] at h2 h3 h4 h5
    subst h5 h4 h3 h2
    refine ⟨_, rest, ?_, ⟨s, s', rfl, hs, hs'⟩, hedge, ?_⟩
    · rw [h1]
      simp
    · simp [Cursor.after_after]
  · rintro ⟨v, rest, h, ⟨s, s', rfl, hs, hs'⟩, hedge, rfl⟩
    have h1 : k.rest = key ++ (s ++ ([':'] ++ (s' ++ (['['] ++ rest)))) := by
      rw [h]
      simp
    refine ⟨_, ⟨_, ⟨_, ⟨_, ⟨_, ⟨hedge, rfl⟩, _, h1, rfl⟩, s, _, rfl, hs, by simp, rfl⟩, _, rfl, rfl⟩, s', _, rfl, hs',
      by simp,
      rfl⟩, rest, rfl, ?_⟩
    simp [Cursor.after_after]

theorem mem_ends_keyedList (hkey : IsKey key) {k e : Cursor} : e ∈ (Pattern.keyedList key).ends b k ↔
    ∃ v rest, k.rest = v ++ rest ∧ IsKeyHead key v ∧ k.before.any isWordChar = false ∧ e = k.after v rest := by
  obtain ⟨c, tail, rfl⟩ := List.exists_cons_of_ne_nil hkey.ne_nil
  have hc := hkey.chars c List.mem_cons_self
  have hedge : ∀ {v rest : Text}, k.rest = v ++ rest → IsKeyHead (c :: tail) v →
      (k.atWordEdge = true ↔ k.before.any isWordChar = false) := by
    rintro v rest h ⟨s, s', rfl, -⟩
    rw [Cursor.atWordEdge_before (c := c) (by rw [h]; simp; rfl) hc]
  rw [mem_ends_head]
  constructor
  · rintro ⟨v, rest, h, hv, hword, rfl⟩
    exact ⟨v, rest, h, hv, (hedge h hv).1 hword, rfl⟩
  · rintro ⟨v, rest, h, hv, hword, rfl⟩
    exact ⟨v, rest, h, hv, (hedge h hv).2 hword, rfl⟩

theorem keyedList_advances (key : Text) (b : Bool) : (Pattern.keyedList key).Advances b := by
  intro k e he
  obtain ⟨v, rest, hk, ⟨s, s', rfl, -⟩, -, rfl⟩ := mem_ends_head.1 he
  rw [hk]
  simp
  omega

/-- a character of a head -/
def IsHeadChar (c : Char) : Prop := isWordChar c = true ∨ isBlank c = true ∨ c = ':' ∨ c = '['

/-- a bracket is at the end of a head alone -/
theorem IsKeyHead.cut (hkey : IsKey key) (h : IsKeyHead key v) :
    ∃ a, v = a ++ ['['] ∧ '[' ∉ a ∧ ∀ c ∈ v, IsHeadChar c := by
  obtain ⟨s, s', rfl, hs, hs'⟩ := h
  refine ⟨key ++ s ++ ':' :: s', rfl, ?_, ?_⟩
  · simp only [List.mem_append, List.mem_cons, not_or]
    exact ⟨⟨fun hm => absurd (hkey.chars _ hm) (by decide), fun hm => absurd (hs _ hm) (by decide)⟩, by decide,
      fun hm => absurd (hs' _ hm) (by decide)⟩
  · simp only [List.forall_mem_append, List.forall_mem_cons]
    exact ⟨⟨⟨fun c hc => Or.inl (hkey.chars c hc), fun c hc => Or.inr (Or.inl (hs c hc))⟩, Or.inr (Or.inr (Or.inl rfl)),
      fun c hc => Or.inr (Or.inl (hs' c hc))⟩, Or.inr (Or.inr (Or.inr rfl)), by simp⟩

/-- white space, and then a character that is in no head -/
def Seals (y : Text) : Prop := ∃ a d r, y = a ++ d :: r ∧ Blanks a ∧ ¬IsHeadChar d

/-- no head reads into such a text -/
theorem Seals.not_isKeyHead (hkey : IsKey key) (hy : Seals y) (hw : w ≠ []) (hwy : w <+: y) :
    ¬IsKeyHead key (v ++ w) := by
  intro h
  obtain ⟨a, d, r, rfl, ha, hd⟩ := hy
  obtain ⟨front, hfront, -, hchars⟩ := h.cut hkey
  obtain ⟨w, c, rfl⟩ := (List.eq_nil_or_concat' w).resolve_left hw
  rw [← List.append_assoc] at hfront
  obtain ⟨-, hc⟩ := List.append_inj' hfront rfl
  obtain rfl : c = '[' := by simpa using hc
  obtain ⟨q, hq⟩ := hwy
  rcases List.append_eq_append_iff.1 hq with ⟨e, rfl, -⟩ | ⟨e, he, hrest⟩
  · exact absurd (ha '[' (by simp)) (by decide)
  · cases e with
    | nil =>
      rw [List.append_nil] at he
      exact absurd (ha '[' (by rw [← he]; simp)) (by decide)
    | cons d' e =>
      obtain ⟨rfl, -⟩ := List.cons.inj hrest
      exact hd (hchars d (by rw [he]; simp))

/-! ## The match from a place -/

theorem here_keyedList (hkey : IsKey key) {k : Cursor} (hk : k.rest = v ++ w) (hv : IsKeyHead key v)
    (hedge : k.before.any isWordChar = false) (position : Nat) :
    (Pattern.keyedList key).here b k position = [⟨position, position + v.length, k.kept⟩] := by
  have hmem : k.after v w ∈ (Pattern.keyedList key).ends b k := (mem_ends_keyedList hkey).2 ⟨v, w, hk, hv, hedge, rfl⟩
  obtain ⟨e, more, hends⟩ := List.exists_cons_of_ne_nil (List.ne_nil_of_mem hmem)
  obtain ⟨v', w', hk', hv', -, rfl⟩ := (mem_ends_keyedList hkey).1 (by rw [hends]; exact List.mem_cons_self)
  obtain ⟨a, rfl, ha, -⟩ := hv.cut hkey
  obtain ⟨a', rfl, ha', -⟩ := hv'.cut hkey
  obtain ⟨rfl, rfl⟩ := append_cons_unique_of_notMem (x := '[') ha ha' (by simpa using hk.symm.trans hk')
  rw [Pattern.here_some (keyedList_advances key b) hends, Pattern.found, hk]
  simp
  omega

theorem here_keyedList_append (hkey : IsKey key) (hy : Seals y) (hv : v ≠ []) (before : Option Char) (position : Nat) :
    (Pattern.keyedList key).here b ⟨before, v ++ y, []⟩ position =
      (Pattern.keyedList key).here b ⟨before, v, []⟩ position := by
  by_cases h : ∃ w r, v = w ++ r ∧ IsKeyHead key w ∧ before.any isWordChar = false
  · obtain ⟨w, r, rfl, hw, hedge⟩ := h
    rw [here_keyedList hkey (w := r ++ y) (by simp) hw hedge, here_keyedList hkey (w := r) rfl hw hedge]
  · have hnil : ∀ {t : Text}, (∀ w r, t = w ++ r → IsKeyHead key w → ¬before.any isWordChar = false) →
        (Pattern.keyedList key).here b ⟨before, t, []⟩ position = [] := by
      intro t ht
      refine Pattern.here_none (List.eq_nil_iff_forall_not_mem.2 fun e he => ?_) position
      obtain ⟨w, r, hk, hw, hedge, -⟩ := (mem_ends_keyedList hkey).1 he
      exact ht w r hk hw hedge
    rw [hnil fun w r hvy hw hedge => ?_, hnil fun w r hvw hw hedge => h ⟨w, r, hvw, hw, hedge⟩]
    rcases List.append_eq_append_iff.1 hvy with ⟨e, rfl, rfl⟩ | ⟨e, rfl, -⟩
    · cases e with
      | nil => exact h ⟨v, [], by simp, by simpa using hw, hedge⟩
      | cons d e => exact hy.not_isKeyHead hkey (by simp) (List.prefix_append _ _) hw
    · exact h ⟨w, e, rfl, hw, hedge⟩

/-- what follows from a character that is in no head on does not change the heads before it -/
theorem occurrences_keyedList_append (hkey : IsKey key) (hy : Seals y) (x : Text) :
    (Pattern.keyedList key).occurrences false (x ++ y) = (Pattern.keyedList key).occurrences false x ++
      (Pattern.keyedList key).scan false x.getLast? x.length 0 y :=
  Pattern.occurrences_append (keyedList_advances key false) fun _ _ _ hv _ => here_keyedList_append hkey hy hv _ _

/-! ## Collections -/

/-- the only collection of a key in a text: the text up to its body, the body, and what follows its closer -/
structure IsCollection (key x body rest : Text) : Prop where
  only : ∃ m, (Pattern.keyedList key).occurrences false (x ++ body ++ ']' :: rest) = [m] ∧ m.stop = x.length
  closed : ']' ∉ body

/-- where a fragment can be added, there is one collection -/
theorem exists_collection {t t' fragment : Text}
    (h : intoCollection (.keyedList key) [']'] t fragment = .ok t') :
    ∃ x body rest, t = x ++ body ++ ']' :: rest ∧ IsCollection key x body rest := by
  unfold intoCollection at h
  split at h
  · simp at h
  · rename_i m hm
    have hmem : m ∈ (Pattern.keyedList key).occurrences false t := by rw [hm]; exact List.mem_singleton_self m
    obtain ⟨u, v, e, more, rfl, he, rfl⟩ := Pattern.occurrences_sound (keyedList_advances key false) hmem
    obtain ⟨w, y, hv, -, -, rfl⟩ := mem_ends_head.1 (by rw [he]; exact List.mem_cons_self)
    simp only at hv
    subst hv
    have hstop : (Pattern.found ⟨u.getLast?, w ++ y, []⟩ (Cursor.after ⟨u.getLast?, w ++ y, []⟩ w y) u.length).stop =
        (u ++ w).length := by
      simp [Pattern.found]
    cases hclose : indexFrom? [']'] (u ++ (w ++ y))
        (Pattern.found ⟨u.getLast?, w ++ y, []⟩ (Cursor.after ⟨u.getLast?, w ++ y, []⟩ w y) u.length).stop with
    | none => simp [hclose] at h
    | some close =>
      rw [hstop, ← List.append_assoc] at hclose
      obtain ⟨body, rest, rfl, hbody, -⟩ := indexFrom?_singleton.1 hclose
      exact ⟨u ++ w, body, rest, by simp, ⟨_, by rw [← hm]; simp, hstop⟩, hbody⟩
  · simp at h

/-- what is before the body ends with the bracket of the head -/
theorem IsCollection.opens (hkey : IsKey key) (h : IsCollection key x body rest) : ∃ y, x = y ++ ['['] := by
  obtain ⟨⟨m, hm, hstop⟩, -⟩ := h
  have hmem : m ∈ (Pattern.keyedList key).occurrences false (x ++ body ++ ']' :: rest) := by
    rw [hm]
    exact List.mem_singleton_self m
  obtain ⟨u, v, e, more, ht, he, rfl⟩ := Pattern.occurrences_sound (keyedList_advances key false) hmem
  obtain ⟨w, r, hv, hw, -, rfl⟩ := (mem_ends_keyedList hkey).1 (by rw [he]; exact List.mem_cons_self)
  simp only at hv
  subst hv
  obtain ⟨a, rfl, -⟩ := hw.cut hkey
  have hlen : (u ++ (a ++ ['['])).length = x.length := by
    rw [← hstop]
    simp [Pattern.found]
    omega
  rw [List.append_assoc, ← List.append_assoc u] at ht
  exact ⟨u ++ a, by rw [(List.append_inj ht.symm hlen).1.symm]; simp⟩

/-- **a fragment that is not present goes into the collection, and nothing else changes** -/
theorem intoCollection_eq (h : IsCollection key x body rest) (fragment : Text) :
    intoCollection (.keyedList key) [']'] (x ++ body ++ ']' :: rest) fragment =
      .ok (x ++ (if isPresent fragment body then body else
        appendChild body (withNewline (.ofContent (x ++ body ++ ']' :: rest)) fragment)) ++ ']' :: rest) := by
  obtain ⟨⟨m, hm, hstop⟩, hbody⟩ := h
  have hclose : indexFrom? [']'] (x ++ body ++ ']' :: rest) m.stop = some (x.length + body.length) := by
    rw [hstop, List.append_assoc]
    exact indexFrom?_singleton.2 ⟨body, rest, rfl, hbody, rfl⟩
  have hslice : slice (x ++ body ++ ']' :: rest) m.stop (x.length + body.length) = body := by
    rw [slice, hstop, ← List.length_append, List.take_left' rfl, List.drop_left' rfl]
  have htake : (x ++ body ++ ']' :: rest).take m.stop = x := by
    rw [hstop, List.append_assoc, List.take_left' rfl]
  have hdrop : (x ++ body ++ ']' :: rest).drop (x.length + body.length) = ']' :: rest := by
    rw [← List.length_append, List.drop_left' rfl]
  unfold intoCollection
  simp only [hm, hclose, hslice, htake, hdrop]
  split_ifs <;> rfl

/-! ## Children -/

/-- the comma behind the last child of a collection, if it has none -/
def separator (filled : Text) : Text := if filled ≠ [] ∧ filled.getLast? ≠ some ',' then [','] else []

theorem mem_separator {c : Char} (h : c ∈ separator filled) : c = ',' := by
  unfold separator at h
  split_ifs at h
  · exact List.mem_singleton.1 h
  · exact absurd h List.not_mem_nil

/-- what can be added to a collection: it has no bracket, and ends with a comma -/
structure IsChild (p : Text) : Prop where
  seals : Seals p
  opener : '[' ∉ p
  closer : ']' ∉ p
  last : p.getLast? = some ','

variable {filled tail p : Text}

theorem appendChild_filled (hf : Filled filled) (ht : Blanks tail) (p : Text) :
    appendChild (filled ++ tail) p = filled ++ (separator filled ++ p) ++ tail := by
  simp [appendChild, trimEnd_filled_append hf ht, separator]

theorem Seals.append (h : Seals y) (z : Text) : Seals (y ++ z) := by
  obtain ⟨a, d, r, rfl, ha, hd⟩ := h
  exact ⟨a, d, r ++ z, by simp, ha, hd⟩

theorem not_isHeadChar : ¬IsHeadChar ']' ∧ ¬IsHeadChar ',' := by
  unfold IsHeadChar
  decide

theorem seals_separator (hp : Seals p) : Seals (separator filled ++ p) := by
  unfold separator
  split_ifs
  · exact ⟨[], ',', p, rfl, blanks_nil, not_isHeadChar.2⟩
  · exact hp

/-- what has no bracket brings no head with it -/
theorem scan_keyedList_insert (hkey : IsKey key) (hy : Seals y) (hz : '[' ∉ z) {before : Option Char} {position : Nat}
    (h : (Pattern.keyedList key).scan false before position 0 y = []) (position' : Nat) :
    (Pattern.keyedList key).scan false before position' 0 (z ++ y) = [] := by
  have hadvances := keyedList_advances key false
  rw [Pattern.scan_eq_nil_iff hadvances] at h ⊢
  intro u v huv
  refine List.eq_nil_iff_forall_not_mem.2 fun e he => ?_
  obtain ⟨w, r, rfl, hw, hedge, -⟩ : ∃ w r, v = w ++ r ∧ IsKeyHead key w ∧ _ ∧ _ := (mem_ends_keyedList hkey).1 he
  rcases List.append_eq_append_iff.1 huv with ⟨u', rfl, hu⟩ | ⟨z', rfl, hv⟩
  · rcases List.eq_nil_or_concat' u' with rfl | ⟨u', c, rfl⟩
    · -- no head starts where what follows begins
      obtain ⟨a, rfl, -⟩ := hw.cut hkey
      exact hy.not_isKeyHead hkey (v := []) (by simp) ⟨r, hu.symm⟩ hw
    · have hends := h (u' ++ [c]) (w ++ r) hu
      have hmem := (mem_ends_keyedList hkey (b := false)).2 ⟨w, r, rfl, hw, hedge, rfl⟩
      simp only [← List.append_assoc, List.getLast?_concat] at hmem hends
      rw [hends] at hmem
      simp at hmem
  · -- a head that starts in the piece would end in it, or read over its end
    rcases List.append_eq_append_iff.1 hv with ⟨a, rfl, -⟩ | ⟨a, rfl, ha⟩
    · obtain ⟨front, rfl, -⟩ := hw.cut hkey
      exact hz (by simp)
    · cases a with
      | nil =>
        obtain ⟨front, hfront, -⟩ := hw.cut hkey
        rw [List.append_nil] at hfront
        exact hz (by rw [hfront]; simp)
      | cons d a => exact hy.not_isKeyHead hkey (by simp) ⟨r, ha.symm⟩ hw

/-- **with one more child a collection is the only one of its text** -/
theorem IsCollection.append (hkey : IsKey key) (h : IsCollection key x body rest) (hp : IsChild p) :
    IsCollection key x (appendChild body p) rest := by
  obtain ⟨tail, hbody, ht, hf⟩ := exists_trimEnd body
  obtain ⟨⟨m, hm, hstop⟩, hclosed⟩ := h
  rw [hbody] at hm hclosed ⊢
  generalize trimEnd body = filled at *
  rw [appendChild_filled hf ht]
  have hrest : Seals (tail ++ ']' :: rest) := ⟨tail, ']', rest, rfl, ht, not_isHeadChar.1⟩
  have hseals : Seals (separator filled ++ p ++ (tail ++ ']' :: rest)) := (seals_separator hp.seals).append _
  have hcomma : '[' ∉ separator filled ++ p ∧ ']' ∉ separator filled ++ p := by
    have h1 := hp.opener
    have h2 := hp.closer
    unfold separator
    split_ifs <;> simp [h1, h2]
  rw [show x ++ (filled ++ tail) ++ ']' :: rest = x ++ filled ++ (tail ++ ']' :: rest) by simp,
    occurrences_keyedList_append hkey hrest] at hm
  -- the head is the one before the body, so that none is behind
  have hnone : (Pattern.keyedList key).scan false (x ++ filled).getLast? (x ++ filled).length 0
      (tail ++ ']' :: rest) = [] := by
    refine List.eq_nil_iff_forall_not_mem.2 fun o ho => ?_
    have hstart := (Pattern.scan_sorted (keyedList_advances key false) _ _ _ _).2 o ho
    obtain rfl : o = m := by
      have hmem := List.mem_append_right ((Pattern.keyedList key).occurrences false (x ++ filled)) ho
      rw [hm] at hmem
      exact List.mem_singleton.1 hmem
    obtain ⟨u, v, e, more, -, -, he, rfl⟩ := Pattern.scan_sound (keyedList_advances key false) ho
    have hlt := keyedList_advances key false _ e (by rw [he]; exact List.mem_cons_self)
    simp only [Pattern.found, List.length_append] at hstop hlt
    omega
  rw [hnone, List.append_nil] at hm
  refine ⟨⟨m, ?_, hstop⟩, ?_⟩
  · rw [show x ++ (filled ++ (separator filled ++ p) ++ tail) ++ ']' :: rest =
      x ++ filled ++ (separator filled ++ p ++ (tail ++ ']' :: rest)) by simp,
      occurrences_keyedList_append hkey hseals, hm, scan_keyedList_insert hkey hrest hcomma.1 hnone, List.append_nil]
  · rw [List.mem_append, not_or] at hclosed
    simp only [List.mem_append, not_or] at hcomma ⊢
    exact ⟨⟨hclosed.1, hcomma.2⟩, hclosed.2⟩

/-- a collection body with several children behind its last one -/
def withChildren (body : Text) (children : List Text) : Text :=
  if children = [] then body
  else trimEnd body ++ separator (trimEnd body) ++ children.flatten ++ body.drop (trimEnd body).length

theorem withChildren_filled (hf : Filled filled) (ht : Blanks tail) {children : List Text} (hne : children ≠ []) :
    withChildren (filled ++ tail) children = filled ++ separator filled ++ children.flatten ++ tail := by
  simp [withChildren, hne, trimEnd_filled_append hf ht]

/-- one child after the other -/
theorem appendChild_withChildren {children : List Text} (hchildren : ∀ q ∈ children, IsChild q) (body p : Text) :
    appendChild (withChildren body children) p = withChildren body (children ++ [p]) := by
  obtain ⟨tail, hbody, ht, hf⟩ := exists_trimEnd body
  rw [hbody]
  generalize trimEnd body = filled at *
  have hgrown := withChildren_filled hf ht (show children ++ [p] ≠ [] by simp)
  rw [hgrown]
  rcases List.eq_nil_or_concat' children with rfl | ⟨children, q, rfl⟩
  · rw [withChildren, if_pos rfl, appendChild_filled hf ht]
    simp
  · -- behind the last child there is its comma
    have hlast : (filled ++ separator filled ++ (children ++ [q]).flatten).getLast? = some ',' := by
      simp [List.getLast?_append, (hchildren q (by simp)).last]
    have hfilled : Filled (filled ++ separator filled ++ (children ++ [q]).flatten) := by
      intro c hc
      rw [hlast] at hc
      obtain rfl := Option.some.inj hc
      decide
    have hnone : separator (filled ++ separator filled ++ (children ++ [q]).flatten) = [] :=
      if_neg fun h => h.2 hlast
    rw [withChildren_filled hf ht (by simp), appendChild_filled hfilled ht, hnone]
    simp

end Componentry.Splice
