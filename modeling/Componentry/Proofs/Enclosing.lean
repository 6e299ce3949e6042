/-
What becomes of a route when the next one is added.

A collection ends at its first closing bracket, and a route names the directory of the pages, which is any text. So a
route can bring the bracket that closes the collection it stands in; then the next route goes into the middle of it.
- `stop_of_only`: whatever follows the head of the only collection, the next step finds the same head.
- `closed_behind_child`, `closed_inside_child`: the next child goes behind the last one, or, if that brought a closing
  bracket, before the bracket.
- `child_intact_iff`: so a child stays whole exactly if it has no closing bracket.

Main result: `inserted_intact_iff`.
-/
import Componentry.Proofs.Router

namespace Componentry

open Text

namespace Splice

variable {key v w x y body rest : Text}

/-! ## The same head -/

/-- at one place there is one head -/
theorem IsKeyHead.eq_of_append {v' w' : Text} (h : IsKeyHead key v) (h' : IsKeyHead key v')
    (heq : v ++ w = v' ++ w') : v = v' := by
  obtain ⟨s, r, rfl, hs, hr⟩ := h
  obtain ⟨s', r', rfl, hs', hr'⟩ := h'
  have hvisible : ∀ {b : Text}, Blanks b → ∀ c ∈ b, ¬isBlank c = false := fun hb c hc => by simp [hb c hc]
  simp only [List.append_assoc, List.cons_append, List.append_cancel_left_eq] at heq
  obtain ⟨rfl, -, heq⟩ := append_cons_unique (hvisible hs) (by decide) (hvisible hs') (by decide) heq
  obtain ⟨rfl, -, -⟩ := append_cons_unique (hvisible hr) (by decide) (hvisible hr') (by decide) heq
  rfl

/-- no head is in the middle of another one: its bracket would be in the key, and the key is as long as its own -/
theorem IsKeyHead.not_inside {a b : Text} (h : IsKeyHead key v) (hb : b ≠ []) : ¬IsKeyHead key (a ++ v ++ b) := by
  rintro ⟨s', r', heq, hs', hr'⟩
  obtain ⟨s, r, rfl, -, -⟩ := h
  obtain ⟨b, c, rfl⟩ := (List.eq_nil_or_concat' b).resolve_left hb
  rw [← List.append_assoc] at heq
  obtain ⟨heq, -⟩ := List.append_inj' heq rfl
  rw [List.append_assoc key s'] at heq
  rcases List.append_eq_append_iff.1 heq with ⟨e, hkey, -⟩ | ⟨e, hfront, hback⟩
  · have hlen := congrArg List.length hkey
    simp only [List.length_append, List.length_cons] at hlen
    omega
  · have hlen := congrArg List.length hfront
    simp only [List.length_append, List.length_cons, List.length_nil] at hlen
    obtain ⟨e, d, rfl⟩ := (List.eq_nil_or_concat' e).resolve_left fun he => by
      rw [he, List.length_nil] at hlen
      omega
    simp only [← List.append_assoc] at hfront
    obtain ⟨-, hd⟩ := List.append_inj' hfront rfl
    obtain rfl : '[' = d := (List.cons.inj hd).1
    have hmem : '[' ∈ s' ++ ':' :: r' := by rw [hback]; simp
    simp only [List.mem_append, List.mem_cons] at hmem
    rcases hmem with hm | hm | hm
    · exact absurd (hs' _ hm) (by decide)
    · exact absurd hm (by decide)
    · exact absurd (hr' _ hm) (by decide)

theorem atWordEdge_append (before : Option Char) (hv : v ≠ []) (y y' : Text) :
    (Cursor.mk before (v ++ y) []).atWordEdge = (Cursor.mk before (v ++ y') []).atWordEdge := by
  obtain ⟨c, v, rfl⟩ := List.exists_cons_of_ne_nil hv
  rfl

/-- the match of a head, with the text around it -/
theorem exists_head {t : Text} {m : Occurrence} (hm : m ∈ (Pattern.keyedList key).occurrences false t) :
    ∃ u v w, t = u ++ v ++ w ∧ IsKeyHead key v ∧ (Cursor.mk u.getLast? (v ++ w) []).atWordEdge = true ∧
      m.start = u.length ∧ m.stop = (u ++ v).length := by
  obtain ⟨u, z, e, more, rfl, he, rfl⟩ := Pattern.occurrences_sound (keyedList_advances key false) hm
  obtain ⟨v, w, rfl, hv, hedge, rfl⟩ : ∃ v w, z = v ++ w ∧ _ := mem_ends_head.1 (by rw [he]; exact List.mem_cons_self)
  exact ⟨u, v, w, (List.append_assoc u v w).symm, hv, hedge, rfl, by simp [Pattern.found]⟩

theorem exists_match_over {u : Text} (hv : IsKeyHead key v) (hedge : (Cursor.mk u.getLast? (v ++ w) []).atWordEdge = true) :
    ∃ m ∈ (Pattern.keyedList key).occurrences false (u ++ v ++ w), m.start ≤ u.length ∧ u.length < m.stop := by
  have hmem : (Cursor.mk u.getLast? (v ++ w) []).after v w ∈
      (Pattern.keyedList key).ends false ⟨u.getLast?, v ++ w, []⟩ := mem_ends_head.2 ⟨v, w, rfl, hv, hedge, rfl⟩
  rw [List.append_assoc]
  exact Pattern.occurrences_covers (keyedList_advances key false) (List.ne_nil_of_mem hmem)

theorem IsKeyHead.ne_nil (h : IsKeyHead key v) : v ≠ [] := by
  obtain ⟨s, r, rfl, -⟩ := h
  simp

/-- **where a text has one head before and after a change behind it, that head is the same** -/
theorem stop_of_only {y' : Text} {m m' : Occurrence}
    (h : (Pattern.keyedList key).occurrences false (x ++ y) = [m]) (hstop : m.stop = x.length)
    (h' : (Pattern.keyedList key).occurrences false (x ++ y') = [m']) : m'.stop = x.length := by
  obtain ⟨u, v, w, ht, hv, hedge, hstart, hend⟩ := exists_head (by rw [h]; exact List.mem_singleton_self m)
  obtain ⟨rfl, rfl⟩ := List.append_inj ht (by rw [← hstop, hend])
  obtain ⟨u', v', w', ht', hv', hedge', hstart', hend'⟩ := exists_head (by rw [h']; exact List.mem_singleton_self m')
  -- the old head can be read still, so the new one starts at it or reaches over it from before
  have hover : m'.start ≤ u.length := by
    rw [atWordEdge_append _ hv.ne_nil y y'] at hedge
    obtain ⟨o, ho, hle, -⟩ := exists_match_over hv hedge
    rw [h'] at ho
    rwa [← List.mem_singleton.1 ho]
  obtain ⟨a, rfl⟩ : ∃ a, u = u' ++ a := by
    rw [List.append_assoc, List.append_assoc] at ht'
    rw [hstart'] at hover
    obtain ⟨a, ha⟩ := List.prefix_of_prefix_length_le ⟨_, ht'.symm⟩ ⟨_, rfl⟩ hover
    exact ⟨a, ha.symm⟩
  simp only [List.append_assoc, List.append_cancel_left_eq] at ht'
  rw [hend', List.append_assoc]
  rw [← List.append_assoc] at ht'
  rcases List.append_eq_append_iff.1 ht' with ⟨b, rfl, -⟩ | ⟨b, hav, rfl⟩
  · by_cases hb : b = []
    · rw [hb, List.append_nil]
    · exact absurd hv' (hv.not_inside hb)
  · cases a with
    | nil => rw [List.nil_append, hv.eq_of_append hv' (w := []) (by simpa using hav)]
    | cons c a =>
      -- a head that starts before the old one and ends no later was there before the change
      have hold : u' ++ c :: a ++ v ++ y = u' ++ v' ++ (b ++ y) := by
        rw [List.append_assoc u', hav]
        simp
      rw [atWordEdge_append _ hv'.ne_nil _ (b ++ y)] at hedge'
      obtain ⟨o, ho, hle, -⟩ := exists_match_over hv' hedge'
      rw [← hold, h] at ho
      rw [List.mem_singleton.1 ho, hstart, List.length_append, List.length_cons] at hle
      omega

/-! ## The next child -/

variable {filled tail p q : Text}

theorem insertAt_behind (a b : Text) (n : Nat) (piece : Text) :
    insertAt (a ++ b) (a.length + n) piece = a ++ insertAt b n piece := by
  simp [insertAt, List.take_length_add_append, List.drop_length_add_append]

/-- a fragment that is not present goes in behind the last child -/
theorem intoCollection_inserts (h : IsCollection key x (filled ++ tail) rest) (hf : Filled filled) (ht : Blanks tail)
    {fragment t' : Text} (hnew : ¬isPresent fragment (filled ++ tail) = true)
    (h' : intoCollection (.keyedList key) [']'] (x ++ (filled ++ tail) ++ ']' :: rest) fragment = .ok t') :
    t' = insertAt (x ++ (filled ++ tail) ++ ']' :: rest) (x ++ filled).length
      (separator filled ++ withNewline (.ofContent (x ++ (filled ++ tail) ++ ']' :: rest)) fragment) := by
  rw [intoCollection_eq h, if_neg hnew, appendChild_filled hf ht] at h'
  rw [insertAt_body]
  exact (Except.ok.inj h').symm

/-- a child: something visible behind white space, and a comma at its end -/
structure IsEntry (sign : Char) (p : Text) : Prop where
  opens : ∃ ws r, p = ws ++ sign :: r ∧ Blanks ws
  visible : isBlank sign = false
  last : p.getLast? = some ','

theorem IsEntry.filled_append {sign : Char} (hp : IsEntry sign p) (a : Text) : Filled (a ++ p) := by
  intro c hc
  rw [List.getLast?_append, hp.last, Option.some_or] at hc
  obtain rfl := Option.some.inj hc
  decide

theorem separator_cases (filled : Text) : separator filled = [] ∨ separator filled = [','] := by
  unfold separator
  split_ifs
  · exact Or.inr rfl
  · exact Or.inl rfl

theorem separator_append {b : Text} (hb : b ≠ []) (a : Text) : separator (a ++ b) = separator b := by
  unfold separator
  rw [List.getLast?_append_of_ne_nil _ hb]
  simp [hb]

theorem evenChar_eq_bracket (d : Char) : evenChar d = ']' ↔ d = ']' := by
  unfold evenChar
  split_ifs with h1 h2
  · simp [h1]
  · rcases h2 with rfl | rfl <;> decide
  · rfl

theorem IsEntry.ne_nil {sign : Char} (hp : IsEntry sign p) : p ≠ [] := by
  rintro rfl
  simpa using hp.last

theorem separator_of_comma (h : filled.getLast? = some ',') : separator filled = [] := if_neg fun hne => hne.2 h

section Second

variable {sign : Char} {m : Occurrence} {fragment t t' : Text}

/-- behind a child without a closing bracket the collection goes on -/
theorem closed_behind_child (h : IsCollection key x (filled ++ tail) rest) (ht : Blanks tail) (hp : IsEntry sign p)
    (hopen : ']' ∉ p) (h₁ : t = x ++ (filled ++ (separator filled ++ p) ++ tail) ++ ']' :: rest)
    (h₂ : intoCollection (.keyedList key) [']'] t fragment = .ok t') :
    t' = t ∨ t' = insertAt t ((x ++ filled).length + (separator filled ++ p).length)
      (withNewline (.ofContent t) fragment) := by
  obtain ⟨x', body, rest', hsame, ⟨m, honly, -⟩, -⟩ := exists_collection h₂
  obtain ⟨⟨m₀, hm₀, hstop⟩, hclosed⟩ := h
  rw [← hsame, h₁, List.append_assoc] at honly
  rw [List.append_assoc] at hm₀
  have hcollection : IsCollection key x (filled ++ (separator filled ++ p) ++ tail) rest := by
    refine ⟨⟨m, by rwa [List.append_assoc], stop_of_only hm₀ hstop honly⟩, ?_⟩
    have hcomma : ']' ∉ separator filled := fun hm => absurd (mem_separator hm) (by decide)
    rw [List.mem_append, not_or] at hclosed
    simp [hclosed, hopen, hcomma]
  have hfilled : Filled (filled ++ (separator filled ++ p)) := by
    rw [← List.append_assoc]
    exact hp.filled_append _
  subst h₁
  by_cases hpresent : isPresent fragment (filled ++ (separator filled ++ p) ++ tail) = true
  · rw [intoCollection_eq hcollection, if_pos hpresent] at h₂
    exact Or.inl (Except.ok.inj h₂).symm
  · have hnone : separator (filled ++ (separator filled ++ p)) = [] :=
      separator_of_comma (by rw [← List.append_assoc, List.getLast?_append, hp.last, Option.some_or])
    have hlen : (x ++ (filled ++ (separator filled ++ p))).length =
        (x ++ filled).length + (separator filled ++ p).length := by simp [Nat.add_assoc]
    have hin := intoCollection_inserts hcollection hfilled ht hpresent h₂
    rw [hnone, List.nil_append, hlen] at hin
    exact Or.inr hin

/-- where a bracket stood behind white space, there is a child now -/
theorem not_prefix_of_inserted {ws g q r z : Text} (hq : IsEntry sign q) (hsign : sign ≠ ']') (hws : Blanks ws) :
    ¬g ++ ws ++ ']' :: r <+: g ++ (separator g ++ q) ++ z := by
  rintro ⟨z', hz⟩
  obtain ⟨ws', r', rfl, hws'⟩ := hq.opens
  have hinvisible : ∀ {b : Text}, Blanks b → ∀ c ∈ b, ¬isBlank c = false := fun hb c hc => by simp [hb c hc]
  simp only [List.append_assoc, List.cons_append, List.append_cancel_left_eq] at hz
  rcases separator_cases g with hnone | hcomma
  · rw [hnone, List.nil_append] at hz
    exact hsign (append_cons_unique (hinvisible hws) (by decide) (hinvisible hws') hq.visible hz).2.1.symm
  · rw [hcomma] at hz
    have hsame := append_cons_unique (hinvisible hws) (by decide) (hinvisible blanks_nil) (by decide) hz
    exact absurd hsame.2.1 (by decide)

/-- **a child with a closing bracket is the end of its own collection, so the next one goes into it** -/
theorem closed_inside_child (h : IsCollection key x (filled ++ tail) rest) (hp : IsEntry sign p)
    (hsign : sign ≠ ']') (hopen : ']' ∈ p)
    (h₁ : t = x ++ (filled ++ (separator filled ++ p) ++ tail) ++ ']' :: rest) (hfragment : ']' ∈ fragment)
    (h₂ : intoCollection (.keyedList key) [']'] t fragment = .ok t') :
    ∃ g ws r, p = g ++ ws ++ ']' :: r ∧ g ≠ [] ∧ Blanks ws ∧
      t' = insertAt t ((x ++ filled).length + (separator filled ++ g).length)
        (separator g ++ withNewline (.ofContent t) fragment) := by
  obtain ⟨x', body, rest', hsame, ⟨m, honly, -⟩, -⟩ := exists_collection h₂
  obtain ⟨⟨m₀, hm₀, hstop⟩, hclosed⟩ := h
  obtain ⟨front, r, rfl, hfront⟩ := List.eq_append_cons_of_mem hopen
  obtain ⟨ws, hcut, hws, hg⟩ := exists_trimEnd front
  -- something visible stands before the bracket
  have hne : trimEnd front ≠ [] := by
    intro hblank
    obtain ⟨ws', r', hp', hws'⟩ := hp.opens
    have hinvisible : ∀ {b : Text}, Blanks b → ∀ c ∈ b, ¬isBlank c = false := fun hb c hc => by simp [hb c hc]
    exact hsign (append_cons_unique (hinvisible (trimEnd_eq_nil_iff.1 hblank)) (by decide) (hinvisible hws') hp.visible
      hp').2.1.symm
  generalize trimEnd front = g at *
  subst hcut
  rw [List.mem_append, not_or] at hclosed hfront
  have htext : x ++ (filled ++ (separator filled ++ (g ++ ws ++ ']' :: r)) ++ tail) ++ ']' :: rest =
      x ++ (filled ++ (separator filled ++ g) ++ ws) ++ ']' :: (r ++ tail ++ ']' :: rest) := by simp
  rw [htext] at h₁
  have hcollection : IsCollection key x (filled ++ (separator filled ++ g) ++ ws) (r ++ tail ++ ']' :: rest) := by
    rw [← hsame, h₁, List.append_assoc] at honly
    rw [List.append_assoc] at hm₀
    refine ⟨⟨m, by rwa [List.append_assoc], stop_of_only hm₀ hstop honly⟩, ?_⟩
    have hcomma : ']' ∉ separator filled := fun hm => absurd (mem_separator hm) (by decide)
    simp [hclosed, hfront, hcomma]
  have hfilled : Filled (filled ++ (separator filled ++ g)) := by
    intro c hc
    rw [← List.append_assoc, List.getLast?_append_of_ne_nil _ hne] at hc
    exact hg c hc
  have hseparator : separator (filled ++ (separator filled ++ g)) = separator g := by
    rw [← List.append_assoc, separator_append hne]
  have hnew : ¬isPresent fragment (filled ++ (separator filled ++ g) ++ ws) = true := fun hpresent =>
    hcollection.closed (mem_of_isPresent hpresent (by decide) evenChar_eq_bracket hfragment)
  have hlen : (x ++ (filled ++ (separator filled ++ g))).length =
      (x ++ filled).length + (separator filled ++ g).length := by simp [Nat.add_assoc]
  subst h₁
  have hin := intoCollection_inserts hcollection hfilled hws hnew h₂
  rw [hseparator, hlen] at hin
  exact ⟨g, ws, r, rfl, hne, hws, hin⟩

/-- **a child stays whole when the next one is added exactly if it has no closing bracket** -/
theorem child_intact_iff (h : IsCollection key x (filled ++ tail) rest) (ht : Blanks tail) (hp : IsEntry sign p)
    (hsign : sign ≠ ']') (h₁ : t = x ++ (filled ++ (separator filled ++ p) ++ tail) ++ ']' :: rest)
    (hfragment : ']' ∈ p → ']' ∈ fragment) (hq : IsEntry sign (withNewline (.ofContent t) fragment))
    (h₂ : intoCollection (.keyedList key) [']'] t fragment = .ok t') :
    (separator filled ++ p <+: t'.drop (x ++ filled).length ↔ ']' ∉ p) ∧
      (t' = t ∨ ∃ place gap, (gap = [] ∨ gap = [',']) ∧
        t' = insertAt t place (gap ++ withNewline (.ofContent t) fragment) ∧ (x ++ filled).length < place ∧
        ((x ++ filled).length + (separator filled ++ p).length ≤ place ↔ ']' ∉ p)) := by
  have hstood : t = x ++ filled ++ (separator filled ++ p ++ (tail ++ ']' :: rest)) := by
    rw [h₁]
    simp
  by_cases hbracket : ']' ∈ p
  · obtain ⟨g, ws, r, rfl, hne, hws, hin⟩ := closed_inside_child h hp hsign hbracket h₁ (hfragment hbracket) h₂
    have hlen : 0 < g.length := List.length_pos_iff.2 hne
    have hstands : t'.drop (x ++ filled).length = separator filled ++
        (g ++ (separator g ++ withNewline (.ofContent t) fragment) ++ (ws ++ ']' :: (r ++ (tail ++ ']' :: rest)))) := by
      have hat : separator filled ++ (g ++ ws ++ ']' :: r) ++ (tail ++ ']' :: rest) =
          separator filled ++ g ++ (ws ++ ']' :: (r ++ (tail ++ ']' :: rest))) := by simp
      rw [hin]
      generalize withNewline (.ofContent t) fragment = q
      rw [hstood, insertAt_behind, List.drop_left' rfl, hat, insertAt_append]
      simp
    refine ⟨iff_of_false ?_ (not_not.2 hbracket), Or.inr ⟨_, separator g, separator_cases g, hin, ?_, ?_⟩⟩
    · rw [hstands, List.prefix_append_right_inj]
      exact not_prefix_of_inserted hq hsign hws
    · simp only [List.length_append]
      omega
    · refine iff_of_false ?_ (not_not.2 hbracket)
      simp only [List.length_append, List.length_cons]
      omega
  · have hlen : 0 < p.length := List.length_pos_iff.2 (hp.ne_nil)
    rcases closed_behind_child h ht hp hbracket h₁ h₂ with rfl | hin
    · refine ⟨iff_of_true ?_ hbracket, Or.inl rfl⟩
      rw [hstood, List.drop_left' rfl]
      exact List.prefix_append _ _
    · refine ⟨iff_of_true ?_ hbracket, Or.inr ⟨_, [], Or.inl rfl, hin, ?_, iff_of_true le_rfl hbracket⟩⟩
      · rw [hin]
        generalize withNewline (.ofContent t) fragment = q
        rw [hstood, insertAt_behind, List.drop_left' rfl, insertAt_append, List.append_assoc]
        exact List.prefix_append _ _
      · simp only [List.length_append]
        omega

end Second

end Splice

namespace Router

open Splice

variable {s : Settings} {c d : Component} {t t₁ t₂ : Text}

theorem isEntry_fragment (newline : Newline) (pagesDir : Text) (c : Component) :
    IsEntry '\x7b' (withNewline newline (Listing.routeFragment pagesDir c)) := by
  obtain ⟨r, hr⟩ := exists_fragment_eq newline pagesDir c
  refine ⟨⟨newline.text ++ List.replicate 6 ' ', r ++ [','], hr, ?_⟩, by decide, ?_⟩
  · cases newline <;> unfold Blanks <;> decide
  · rw [hr, ← List.cons_append, ← List.append_assoc, List.getLast?_concat]

theorem mem_fragment {x : Char} {pagesDir : Text} (h : x ∈ pagesDir) (c : Component) :
    x ∈ Listing.routeFragment pagesDir c :=
  List.mem_append_left _ (List.mem_append_left _ (List.mem_append_left _ (List.mem_append_right _ h)))

/-- a route has a closing bracket exactly if the directory of the pages has one -/
theorem bracket_mem_fragment (hc : Slug.IsName c.slug) (newline : Newline) (pagesDir : Text) :
    ']' ∈ withNewline newline (Listing.routeFragment pagesDir c) ↔ ']' ∈ pagesDir := by
  have hslug : ']' ∉ c.slug := fun hm => absurd (hc.chars _ hm) (by decide)
  have hname : ']' ∉ c.pascalName := Index.name_notMem hc (by decide)
  have hbreak : ']' ∉ newline.text := by cases newline <;> decide
  have hfragment : ']' ∈ Listing.routeFragment pagesDir c ↔ ']' ∈ pagesDir := by
    refine ⟨?_, fun hm => mem_fragment hm c⟩
    unfold Listing.routeFragment
    simp only [List.mem_append, hslug, hname, or_false]
    rintro (((((hm | hm) | hm) | hm) | hm) | hm)
    · exact absurd hm (by decide)
    · exact absurd hm (by decide)
    · exact absurd hm (by decide)
    · exact hm
    · exact absurd hm (by decide)
    · exact absurd hm (by decide)
  rw [← hfragment]
  exact ⟨fun hm => (mem_withNewline hm).resolve_right hbreak, mem_withNewline_of_mem (by decide) (by decide)⟩

/-- **an inserted route stays whole when the next one is added exactly if the directory of the pages has no closing
bracket: then the next one goes behind it, and otherwise into the middle of it** -/
theorem inserted_intact_iff (hc : Slug.IsName c.slug) (h₁ : (Listing.router s).apply t c = .ok t₁) (hnew : t₁ ≠ t)
    (h₂ : (Listing.router s).apply t₁ d = .ok t₂) : ∃ place gap, place ≤ t.length ∧ (gap = [] ∨ gap = [',']) ∧
      let inserted := gap ++ withNewline (.ofContent t) (Listing.routeFragment s.pagesDir c)
      t₁ = insertAt t place inserted ∧
        (inserted <+: t₂.drop place ↔ ']' ∉ s.pagesDir) ∧
        (t₂ = t₁ ∨ ∃ place' gap', (gap' = [] ∨ gap' = [',']) ∧
          t₂ = insertAt t₁ place' (gap' ++ withNewline (.ofContent t₁) (Listing.routeFragment s.pagesDir d)) ∧
          place < place' ∧ (place + inserted.length ≤ place' ↔ ']' ∉ s.pagesDir)) := by
  obtain ⟨t', hstep₁, hdone⟩ := Listing.applySteps_cons.1 h₁
  obtain rfl : t' = t₁ := Except.ok.inj hdone
  obtain ⟨t', hstep₂, hdone⟩ := Listing.applySteps_cons.1 h₂
  obtain rfl : t' = t₂ := Except.ok.inj hdone
  replace hstep₁ :
    intoCollection (.keyedList s.routeChildrenKey) [']'] t (Listing.routeFragment s.pagesDir c) = _ := hstep₁
  replace hstep₂ :
    intoCollection (.keyedList s.routeChildrenKey) [']'] _ (Listing.routeFragment s.pagesDir d) = _ := hstep₂
  obtain ⟨x, body, rest, rfl, hcollection⟩ := exists_collection hstep₁
  obtain ⟨tail, hbody, ht, hf⟩ := exists_trimEnd body
  generalize trimEnd body = filled at *
  subst hbody
  have hplace : (x ++ filled).length ≤ (x ++ (filled ++ tail) ++ ']' :: rest).length := by
    simp only [List.length_append]
    omega
  have hpresent : ¬isPresent (Listing.routeFragment s.pagesDir c) (filled ++ tail) = true := by
    intro hpresent
    rw [intoCollection_eq hcollection, if_pos hpresent] at hstep₁
    exact hnew (Except.ok.inj hstep₁).symm
  have hfirst := intoCollection_inserts hcollection hf ht hpresent hstep₁
  have hpage := bracket_mem_fragment hc (.ofContent (x ++ (filled ++ tail) ++ ']' :: rest)) s.pagesDir
  have hstood := hfirst.trans (insertAt_body _ _ _ _ _)
  have hentry := isEntry_fragment (.ofContent (x ++ (filled ++ tail) ++ ']' :: rest)) s.pagesDir c
  have hsign : '\x7b' ≠ ']' := by decide
  have hboth := child_intact_iff hcollection ht hentry hsign hstood (fun hm => mem_fragment (hpage.1 hm) d)
    (isEntry_fragment (.ofContent _) s.pagesDir d) hstep₂
  rw [hpage] at hboth
  exact ⟨(x ++ filled).length, separator filled, hplace, separator_cases filled, hfirst, hboth⟩

/-- two routes in a table in CRLF, whose child lacks its comma -/
theorem inserted_intact_crlf :
    let s := Settings.standard (.ofText "repo".toList)
    let a : Component := ⟨"a".toList, "First".toList, [], []⟩
    let b : Component := ⟨"b".toList, "Second".toList, [], []⟩
    let t := "children: [home\r\n]".toList
    let t₁ := "children: [home,".toList ++ withNewline .crlf (Listing.routeFragment s.pagesDir a) ++ "\r\n]".toList
    Slug.IsName a.slug ∧ (Listing.router s).apply t a = .ok t₁ ∧ t₁ ≠ t ∧ ∃ t₂, (Listing.router s).apply t₁ b = .ok t₂ ∧
      ∃ place gap, t₁ = insertAt t place (gap ++ withNewline .crlf (Listing.routeFragment s.pagesDir a)) ∧
        gap ++ withNewline .crlf (Listing.routeFragment s.pagesDir a) <+: t₂.drop place := by
  intro s a b t t₁
  have ha : Slug.IsName a.slug := by decide +kernel
  have h₁ : (Listing.router s).apply t a = .ok t₁ := Listing.ok_of_toOption (by decide +kernel)
  have hnew : t₁ ≠ t := by decide +kernel
  have hagain : ((Listing.router s).apply t₁ b).toOption.isSome = true := by decide +kernel
  have hbracket : ']' ∉ s.pagesDir := by decide
  obtain ⟨t₂, h₂⟩ := Option.isSome_iff_exists.1 hagain
  replace h₂ := Listing.ok_of_toOption h₂
  obtain ⟨place, gap, -, -, hin, hstands, -⟩ := inserted_intact_iff ha h₁ hnew h₂
  exact ⟨ha, h₁, hnew, t₂, h₂, place, gap, hin, hstands.2 hbracket⟩

/-- **a route in a directory of a name in brackets is torn apart by the next one** -/
theorem inserted_torn_apart :
    let s : Settings := { Settings.standard (.ofText "repo".toList) with pagesDir := "[lang]".toList }
    let a : Component := ⟨"a".toList, "First".toList, [], []⟩
    let b : Component := ⟨"b".toList, "Second".toList, [], []⟩
    let t₁ := "children: [".toList ++ Listing.routeFragment s.pagesDir a ++ "]\n".toList
    let t₂ := "children: [\n      \x7b\n        path: 'a',\n        name: 'A',\n".toList ++
      "        component: () => import('./[lang,".toList ++ Listing.routeFragment s.pagesDir b ++
      "]/a/index.md')\n      \x7d,]\n".toList
    Slug.IsName a.slug ∧ Slug.IsName b.slug ∧ a.slug ≠ b.slug ∧
      (Listing.router s).apply "children: []\n".toList a = .ok t₁ ∧ (Listing.router s).apply t₁ b = .ok t₂ ∧
      ¬Listing.routeFragment s.pagesDir a <+: t₂.drop "children: [".length := by
  intro s a b t₁ t₂
  refine ⟨by decide +kernel, by decide +kernel, by decide, ?_, ?_, ?_⟩
  · exact Listing.ok_of_toOption (by decide +kernel)
  · exact Listing.ok_of_toOption (by decide +kernel)
  · decide +kernel

end Router

end Componentry
