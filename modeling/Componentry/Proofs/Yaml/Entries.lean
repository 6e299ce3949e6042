/-
How a line is read that writes an entry of a mapping: a word, a colon, a space, and a plain scalar.
- `Lexer.AtLine`: a state in which such a line can come.
- `Lexer.run_entry`: the three tokens of the line, and what is put in front of them.
-/
import Componentry.Proofs.Slug
import Componentry.Proofs.Yaml.Stepping

namespace Componentry.Yaml

/-- a text of letters and digits, at least one -/
structure IsWord (t : Text) : Prop where
  chars : ∀ c ∈ t, Slug.isNameChar c = true
  filled : t ≠ []

/-! ## Words -/

section

variable {c : Char}

theorem ne_of_isNameChar (hc : Slug.isNameChar c = true) {d : Char} (hd : Slug.isNameChar d = false) : c ≠ d := by
  rintro rfl
  simp [hd] at hc

theorem isSpace_of_isNameChar (hc : Slug.isNameChar c = true) : isSpace c = false := by
  simp [isSpace, ne_of_isNameChar hc (d := ' ') (by decide), ne_of_isNameChar hc (d := '\t') (by decide)]

theorem isBreak_of_isNameChar (hc : Slug.isNameChar c = true) : isBreak c = false := by
  simp [isBreak, ne_of_isNameChar hc (d := '\n') (by decide), ne_of_isNameChar hc (d := '\r') (by decide),
    ne_of_isNameChar hc (d := '\u0085') (by decide), ne_of_isNameChar hc (d := '\u2028') (by decide),
    ne_of_isNameChar hc (d := '\u2029') (by decide)]

theorem isAllowed_of_isNameChar (hc : Slug.isNameChar c = true) : isAllowed c = true :=
  Text.ascii_all (P := fun c => Slug.isNameChar c = true → isAllowed c = true) (by decide +kernel)
    (Slug.ascii_of_isNameChar hc) hc

/-- a letter or digit starts a plain scalar -/
theorem startsPlain_of_isNameChar (hc : Slug.isNameChar c = true) (flow : Bool) (after : Text) :
    Lexer.startsPlain flow c after = true := by
  have hsigns : "-?:,[]\x7b\x7d#&*!|>'\"%@\x60".toList.contains c = false :=
    Text.ascii_all (P := fun c => Slug.isNameChar c = true → "-?:,[]\x7b\x7d#&*!|>'\"%@\x60".toList.contains c = false)
      (by decide +kernel) (Slug.ascii_of_isNameChar hc) hc
  unfold Lexer.startsPlain
  rw [isSpace_of_isNameChar hc, isBreak_of_isNameChar hc, hsigns]
  rfl

end

namespace Plain

/-- a word ends where a run ends -/
theorem run_word {key rest : Text} {d : Char} (hkey : ∀ c ∈ key, Slug.isNameChar c = true)
    (hd : endsRun false d rest = true) : run false (key ++ d :: rest) = (key, d :: rest) := by
  induction key with
  | nil => simp [run, hd]
  | cons c key ih =>
    have hc := hkey c List.mem_cons_self
    have hends : endsRun false c (key ++ d :: rest) = false := by
      simp [endsRun, isSpace_of_isNameChar hc, isBreak_of_isNameChar hc, ne_of_isNameChar hc (d := ':') (by decide)]
    rw [List.cons_append, run, hends, if_neg (by simp), ih fun e he => hkey e (List.mem_cons_of_mem c he)]

/-- a word before a colon is a scalar -/
theorem read_key {key rest : Text} (hkey : IsWord key) (indent : Int) :
    read false indent (key ++ ':' :: ' ' :: rest) = ⟨key, false, ':' :: ' ' :: rest⟩ := by
  have hrun : run false (key ++ ':' :: ' ' :: rest) = (key, ':' :: ' ' :: rest) := run_word hkey.chars rfl
  have hgap : gap (':' :: ' ' :: rest) = ⟨[], false, 0, false, ':' :: ' ' :: rest⟩ := rfl
  unfold read more
  simp only [hrun, if_neg hkey.filled, hgap]
  simp [Gap.ends]

end Plain

/-- a word stays on its line -/
theorem foldl_step_word {key : Text} (hkey : ∀ c ∈ key, Slug.isNameChar c = true) (p : Position) :
    key.foldl Position.step p = ⟨p.line, p.column + key.length, p.index + key.length⟩ := by
  induction key generalizing p with
  | nil => rfl
  | cons c key ih =>
    have hc := hkey c List.mem_cons_self
    have hstep : p.step c = ⟨p.line, p.column + 1, p.index + 1⟩ := by
      simp [Position.step, isBreak_of_isNameChar hc, ne_of_isNameChar hc (d := byteOrderMark) (by decide)]
    rw [List.foldl_cons, hstep, ih fun d hd => hkey d (List.mem_cons_of_mem c hd)]
    simp only [List.length_cons, Position.mk.injEq, true_and]
    omega

namespace Lexer

/-! ## Between tokens -/

variable {s : Lexer}

theorem goTo_append {a b : Text} (hs : s.rest = a ++ b) :
    s.goTo b = { s with rest := b, place := a.foldl Position.step s.place } := by
  simp [goTo, hs]

theorem goTo_self : s.goTo s.rest = s := by
  simp [goTo]

theorem skipBlank_of_visible {fuel : Nat} {c : Char} {rest : Text} (hs : skipSpaces s.rest = c :: rest) (hhash : c ≠ '#')
    (hbreak : isBreak c = false) : s.skipBlank (fuel + 1) = s.goTo (c :: rest) := by
  unfold skipBlank
  simp [hs, hhash, lineBreak?_eq_none hbreak]

/-- what is visible comes next -/
theorem toNext_of_visible {c : Char} {rest : Text} (hs : s.rest = c :: rest) (hspace : c ≠ ' ') (hhash : c ≠ '#')
    (hbreak : isBreak c = false) (hmark : c ≠ byteOrderMark) : s.toNext = s := by
  have hskip : skipSpaces s.rest = c :: rest := by simp [skipSpaces, hs, hspace]
  unfold toNext
  split
  · rename_i d after hs'
    obtain ⟨rfl, rfl⟩ := List.cons.inj (hs.symm.trans hs')
    simp only [hmark, and_false, if_false]
    rw [skipBlank_of_visible hskip hhash hbreak, ← hs, goTo_self]
  · rfl

/-- a space is skipped in front of what is visible -/
theorem toNext_of_space {c : Char} {rest : Text} (hs : s.rest = ' ' :: c :: rest) (hspace : c ≠ ' ') (hhash : c ≠ '#')
    (hbreak : isBreak c = false) : s.toNext = s.goTo (c :: rest) := by
  have hskip : skipSpaces s.rest = c :: rest := by simp [skipSpaces, hs, hspace]
  unfold toNext
  split
  · rename_i d after hs'
    obtain ⟨rfl, rfl⟩ := List.cons.inj (hs.symm.trans hs')
    rw [if_neg (by simp [byteOrderMark]), skipBlank_of_visible hskip hhash hbreak]
  · rename_i hnil
    simp [hs] at hnil

theorem dropStale_of_none (hmark : s.mark = none) (houter : s.outerMarks = []) : s.dropStale = .ok s := by
  obtain ⟨rest, place, tokens, indent, outerIndents, keyAllowed, mark, outerMarks⟩ := s
  obtain rfl : mark = none := hmark
  obtain rfl : outerMarks = [] := houter
  simp [dropStale]

theorem dropStale_of_fresh {m : KeyMark} (hmark : s.mark = some m) (houter : s.outerMarks = [])
    (hfresh : s.isStale m = false) : s.dropStale = .ok s := by
  obtain ⟨rest, place, tokens, indent, outerIndents, keyAllowed, mark, outerMarks⟩ := s
  obtain rfl : mark = some m := hmark
  obtain rfl : outerMarks = [] := houter
  simp [dropStale, hfresh, Option.filter]

theorem endBlocks_of_le {column : Int} (h : s.indent ≤ column) : s.endBlocks column = s := by
  obtain ⟨rest, place, tokens, indent, outerIndents, keyAllowed, mark, outerMarks⟩ := s
  have hunwind : unwind column indent outerIndents = (indent, outerIndents, 0) := by
    cases outerIndents with
    | nil => rfl
    | cons outer more => simp [unwind, not_lt.2 h]
  unfold endBlocks
  simp [hunwind]

/-- the next token, where nothing is to be done in front of it but to skip blanks -/
theorem next_of_settled {t : Lexer} {c : Char} {after : Text} (hnext : s.toNext = t) (hstale : t.dropStale = .ok t)
    (hindent : t.indent ≤ t.column) (hrest : t.rest = c :: after) :
    s.next = (t.token c after).map fun t => (t, true) := by
  unfold next
  rw [hnext, hstale]
  simp only [Except.bind, endBlocks_of_le hindent, hrest]

theorem token_of_isNameChar {c : Char} (hc : Slug.isNameChar c = true) (after : Text) :
    s.token c after = s.markable plain := by
  have hne : ∀ d, Slug.isNameChar d = false → c ≠ d := fun d hd => ne_of_isNameChar hc hd
  have hdocument : separatesDocuments (c :: after) = false := by
    simp [separatesDocuments, hne '-' (by decide), hne '.' (by decide)]
  unfold token
  simp [hdocument, startsPlain_of_isNameChar hc, hne '%' (by decide), hne '[' (by decide), hne '\x7b' (by decide),
    hne ']' (by decide), hne '\x7d' (by decide), hne ',' (by decide), hne '-' (by decide), hne '?' (by decide),
    hne ':' (by decide), hne '*' (by decide), hne '&' (by decide), hne '!' (by decide), hne '|' (by decide),
    hne '>' (by decide), hne '\'' (by decide), hne '"' (by decide)]

theorem token_colon {rest : Text} : s.token ':' (' ' :: rest) = s.value := by
  have hdocument : separatesDocuments (':' :: ' ' :: rest) = false := by simp [separatesDocuments]
  have hends : endsWord (' ' :: rest) = true := rfl
  unfold token
  simp [hdocument, hends]

/-! ## Entries -/

/-- a state in which a line can come that writes an entry of the outermost mapping, the first or another one -/
structure AtLine (s : Lexer) : Prop where
  column : s.place.column = 0
  allowed : s.keyAllowed = true
  mark : s.mark = none
  outer : s.outerMarks = []
  indents : s.indent = -1 ∧ s.outerIndents = [] ∨ s.indent = 0 ∧ s.outerIndents = [-1]

/-- the tokens of an entry, the last one first; the first entry starts the mapping -/
def entryTokens (s : Lexer) (key value : Text) : List Token :=
  [.scalar value true, .value, .scalar key true, .key] ++ (if s.indent < 0 then [.blockMapping] else []) ++ s.tokens

/-- the state behind an entry, at a place -/
def behindEntry (s : Lexer) (key : Text) (value : Plain.Reading) (place : Position) : Lexer :=
  { s with
    rest := value.rest
    place := place
    tokens := s.entryTokens key value.text
    indent := 0
    outerIndents := [-1]
    keyAllowed := value.crossed
    mark := none }

theorem setMark_of_allowed (hallowed : s.keyAllowed = true) (hmark : s.mark = none) : s.setMark =
    .ok { s with mark := some ⟨s.tokens.length, s.place, !s.inFlow && s.indent = s.column⟩ } := by
  obtain ⟨rest, place, tokens, indent, outerIndents, keyAllowed, mark, outerMarks⟩ := s
  obtain rfl : keyAllowed = true := hallowed
  obtain rfl : mark = none := hmark
  rfl

theorem plain_eq {r : Plain.Reading} (before : Text) (hread : Plain.read s.inFlow (s.indent + 1) s.rest = r)
    (hs : s.rest = before ++ r.rest) : s.plain = .ok { s with
      rest := r.rest
      place := before.foldl Position.step s.place
      tokens := .scalar r.text true :: s.tokens
      keyAllowed := r.crossed } := by
  unfold plain
  simp only [hread]
  rw [goTo_append hs]
  rfl

variable {key rest : Text}

/-- the key of an entry -/
theorem next_key (h : AtLine s) (hkey : IsWord key) (hs : s.rest = key ++ ':' :: ' ' :: rest) :
    s.next = .ok ({ s with
      rest := ':' :: ' ' :: rest
      place := ⟨s.place.line, key.length, s.place.index + key.length⟩
      tokens := .scalar key true :: s.tokens
      keyAllowed := false
      mark := some ⟨s.tokens.length, s.place, !s.inFlow && s.indent = s.column⟩ }, true) := by
  obtain ⟨c, key', rfl⟩ := List.exists_cons_of_ne_nil hkey.filled
  have hc := hkey.chars c List.mem_cons_self
  have htoNext : s.toNext = s := toNext_of_visible hs (ne_of_isNameChar hc (by decide)) (ne_of_isNameChar hc (by decide))
    (isBreak_of_isNameChar hc) (ne_of_isNameChar hc (by decide))
  have hindent : s.indent ≤ s.column := by
    have := h.indents
    simp only [column, h.column]
    omega
  rw [next_of_settled htoNext (dropStale_of_none h.mark h.outer) hindent hs, token_of_isNameChar hc]
  have hflow : s.inFlow = false := by simp [inFlow, h.outer]
  have hread : Plain.read s.inFlow (s.indent + 1) s.rest = ⟨c :: key', false, ':' :: ' ' :: rest⟩ := by
    rw [hflow, hs, Plain.read_key hkey]
  unfold markable
  rw [setMark_of_allowed h.allowed h.mark]
  simp only [Except.bind]
  rw [plain_eq (s := { s with keyAllowed := false, mark := _ }) (c :: key') hread hs]
  simp only [Except.map, foldl_step_word hkey.chars, h.column, Nat.zero_add]

/-- the state behind the sign of an entry, when its key is the last token -/
def behindSign (s : Lexer) (rest : Text) : Lexer :=
  { s with
    rest := rest
    place := s.place.step ':'
    tokens := [.value] ++ s.tokens.take 1 ++ (.key :: if s.indent < 0 then [.blockMapping] else []) ++ s.tokens.drop 1
    indent := 0
    outerIndents := [-1]
    keyAllowed := false
    mark := none }

/-- the sign behind a key: the key was marked at the start of the line, so the mapping starts there if it has not yet -/
theorem next_sign {m : KeyMark} (hrest : s.rest = ':' :: ' ' :: rest) (hmark : s.mark = some m)
    (hfresh : s.isStale m = false) (hcolumn : m.place.column = 0) (hnumber : s.tokens.length = m.token + 1)
    (houter : s.outerMarks = []) (hindents : s.indent = -1 ∧ s.outerIndents = [] ∨ s.indent = 0 ∧ s.outerIndents = [-1]) :
    s.next = .ok (s.behindSign (' ' :: rest), true) := by
  have hflow : s.inFlow = false := by simp [inFlow, houter]
  have hlater : s.tokens.length - m.token = 1 := by omega
  have hindent : s.indent ≤ s.column := by
    simp only [column]
    omega
  have htoNext := toNext_of_visible hrest (by decide) (by decide) (by decide) (by decide)
  rw [next_of_settled htoNext (dropStale_of_fresh hmark houter hfresh) hindent hrest, token_colon]
  unfold value behindSign
  simp only [hmark]
  rcases hindents with ⟨hindent, houters⟩ | ⟨hindent, houters⟩
  · have hstarts : s.startsBlock 0 = true := by simp [startsBlock, hflow, hindent]
    simp [hcolumn, hstarts, advance, goTo, emit, insertTokens, indented, hrest, hlater, hindent, houters, Except.map]
  · have hstarts : s.startsBlock 0 = false := by simp [startsBlock, hindent]
    simp [hcolumn, hstarts, advance, goTo, emit, insertTokens, hrest, hlater, hindent, houters, Except.map]

/-- the value behind a sign -/
theorem next_value {c : Char} (hc : Slug.isNameChar c = true) (hs : s.rest = ' ' :: c :: rest)
    (hallowed : s.keyAllowed = false) (hmark : s.mark = none) (houter : s.outerMarks = []) (hindent : s.indent = 0)
    {r : Plain.Reading} (hread : Plain.read false 1 (c :: rest) = r) (before : Text)
    (hbefore : c :: rest = before ++ r.rest) :
    s.next = .ok ({ s with
      rest := r.rest
      place := before.foldl Position.step (s.place.step ' ')
      tokens := .scalar r.text true :: s.tokens
      keyAllowed := r.crossed }, true) := by
  have htoNext : s.toNext = { s with rest := c :: rest, place := s.place.step ' ' } :=
    (toNext_of_space hs (ne_of_isNameChar hc (by decide)) (ne_of_isNameChar hc (by decide))
      (isBreak_of_isNameChar hc)).trans (goTo_append (a := [' ']) hs)
  have hcolumn : s.indent ≤ ((s.place.step ' ').column : Int) := by omega
  rw [next_of_settled htoNext (dropStale_of_none hmark houter) hcolumn rfl, token_of_isNameChar hc]
  have hset : ({ s with rest := c :: rest, place := s.place.step ' ' } : Lexer).setMark =
      .ok { s with rest := c :: rest, place := s.place.step ' ' } := by
    simp [setMark, hallowed]
  unfold markable
  rw [hset]
  simp only [Except.bind]
  have hflow : s.inFlow = false := by simp [inFlow, houter]
  rw [plain_eq (s := { s with rest := c :: rest, place := s.place.step ' ', keyAllowed := false }) (r := r) before ?_
    hbefore]
  · rfl
  · rw [← hread]
    change Plain.read s.inFlow (s.indent + 1) (c :: rest) = _
    rw [hflow, hindent, Int.zero_add]

theorem run_next {t : Lexer} (h : s.next = .ok (t, true)) (fuel : Nat) : run none (fuel + 1) s = run none fuel t := by
  conv_lhs => unfold run
  simp only [h]

/-- the tokens of an entry are read one after the other; its line must be short enough for a key -/
theorem run_entry (h : AtLine s) (hkey : IsWord key) (hshort : key.length ≤ 1024) {c : Char}
    (hc : Slug.isNameChar c = true) (hs : s.rest = key ++ ':' :: ' ' :: c :: rest) {r : Plain.Reading}
    (hread : Plain.read false 1 (c :: rest) = r) {before : Text} (hbefore : c :: rest = before ++ r.rest) :
    ∃ place, ∀ fuel, run none (fuel + 3) s = run none fuel (s.behindEntry key r (before.foldl Position.step place)) := by
  have hkeyed := next_key h hkey hs
  generalize hm : (⟨s.tokens.length, s.place, !s.inFlow && s.indent = s.column⟩ : KeyMark) = m at hkeyed
  generalize hu : ({ s with
    rest := ':' :: ' ' :: c :: rest
    place := ⟨s.place.line, key.length, s.place.index + key.length⟩
    tokens := .scalar key true :: s.tokens
    keyAllowed := false
    mark := some m } : Lexer) = u at hkeyed
  -- the key was marked on the same line, not too far back
  have hfresh : u.isStale m = false := by
    subst hu hm
    simpa [isStale] using hshort
  have hrest : u.rest = ':' :: ' ' :: c :: rest := by rw [← hu]
  have houter : u.outerMarks = [] := by rw [← hu, h.outer]
  have hsign : u.next = .ok (u.behindSign (' ' :: c :: rest), true) :=
    next_sign hrest (by rw [← hu]) hfresh (by rw [← hm, h.column]) (by simp [← hu, ← hm]) houter (hu ▸ h.indents)
  have hscalar := next_value (s := u.behindSign (' ' :: c :: rest)) hc rfl rfl rfl houter rfl hread before hbefore
  refine ⟨(u.place.step ':').step ' ', fun fuel => ?_⟩
  rw [run_next hkeyed, run_next hsign, run_next hscalar]
  congr 1
  subst hu
  simp [behindEntry, behindSign, entryTokens]

end Lexer

end Componentry.Yaml
