/-
Texts that are lost when they are written behind a key as they are.

The scalar behind a key ends where its block ends, or before. What it does not take is read on, and could still be read
as a text, by quotes or brackets, or in another document. None of that has the whole text again: there is not enough
left for it in front of the next line, and what a scalar takes from that line has other characters, or must be closed
there.
- `Sketch.Held`: what is so behind the first entry, and stays so step by step.
- `exists_scalar`: a text in a record is that of a scalar that is reached from there.

Main results: `notMem_of_not_holds`, and `notMem_of_length` for what is longer than all that is left.
-/
import Componentry.Proofs.Yaml.Consuming
import Componentry.Proofs.Yaml.Entries
import Componentry.Proofs.Yaml.Origins
import Componentry.Proofs.Yaml.PlainLine
import Componentry.Proofs.Yaml.Source

namespace Componentry.Yaml

/-! ## What a text needs to be read -/

/-- a text whose value is known has allowed characters only -/
theorem allowed_of_read {t : Text} {c : Contents} (h : read t = .ok c) : ∀ d ∈ t, isAllowed d = true :=
  Source.allowed_of_stop_eq_none (Source.stop_of_read h)

/-! ## What stays as it is -/

theorem Token.nesting_of_isMark {k : Token} (hk : k.isMark = true) : k.nesting = 0 := by
  cases k <;> first | rfl | simp [isMark] at hk

namespace Sketch

variable {a b : Sketch}

/-- the first token is no mark between documents -/
def Opened (s : Sketch) : Prop := ∃ k, s.tokens.getLast? = some k ∧ k.isMark = false

/-- as many brackets are open as the tokens have open -/
def Balanced (s : Sketch) : Prop := (s.tokens.map Token.nesting).sum = s.depth

/-- indentations of which the outermost block is not indented -/
def Rooted (indents : List Int) : Prop := ∃ inner outer, indents = inner ++ 0 :: outer ∧ ∀ i ∈ inner, 0 ≤ i

/-- a block is open that is not indented, or the document of it has ended -/
def Enclosed (s : Sketch) : Prop := (∃ k ∈ s.tokens, k.isMark = true) ∨ Rooted s.indents

theorem Rooted.nonneg {indent : Int} {outer : List Int} (h : Rooted (indent :: outer)) : 0 ≤ indent := by
  obtain ⟨inner, rest, heq, hinner⟩ := h
  cases inner with
  | nil => exact (List.cons.inj heq).1.ge
  | cons i inner => exact (List.cons.inj heq).1 ▸ hinner i List.mem_cons_self

theorem Rooted.tail {indent : Int} {outer : List Int} (h : Rooted (indent :: outer)) (hdeep : 0 < indent) :
    Rooted outer := by
  obtain ⟨inner, rest, heq, hinner⟩ := h
  cases inner with
  | nil =>
    have := (List.cons.inj heq).1
    omega
  | cons i inner => exact ⟨inner, rest, (List.cons.inj heq).2, fun j hj => hinner j (List.mem_cons_of_mem i hj)⟩

theorem Rooted.cons {indent : Int} {outer : List Int} (h : Rooted outer) (hindent : 0 ≤ indent) :
    Rooted (indent :: outer) := by
  obtain ⟨inner, rest, rfl, hinner⟩ := h
  exact ⟨indent :: inner, rest, rfl, List.forall_mem_cons.2 ⟨hindent, hinner⟩⟩

theorem Step.opened (h : Step a b) (ha : Opened a) : Opened b := by
  obtain ⟨first, hfirst, hmark⟩ := ha
  cases h with
  | skip => exact ⟨first, hfirst, hmark⟩
  | indent => exact ⟨first, hfirst, hmark⟩
  | sign tokens sign =>
    rename_i k later earlier
    rw [tokens] at hfirst
    cases earlier with
    | nil => exact ⟨k, by simp, sign.inner⟩
    | cons e earlier => exact ⟨first, by simpa [List.getLast?_append] using hfirst, hmark⟩
  | read reads =>
    rw [reads.eq]
    exact ⟨first, by simp [List.getLast?_cons, hfirst], hmark⟩
  | _ => exact ⟨first, by simp [List.getLast?_cons, List.getLast?_append, hfirst], hmark⟩

theorem Step.balanced (h : Step a b) (ha : Balanced a) : Balanced b := by
  unfold Balanced at ha ⊢
  cases h with
  | skip => exact ha
  | indent => exact ha
  | sign tokens sign =>
    rw [tokens] at ha
    simpa [sign.nesting] using ha
  | opening bracket => rcases bracket with rfl | rfl <;> simp [Token.nesting, ha] <;> omega
  | closing bracket rest inside =>
    rcases bracket with ⟨-, rfl⟩ | ⟨-, rfl⟩ <;> simp [Token.nesting, ha, inside]
  | mark hk =>
    have hends : Token.nesting .blockEnd = 0 := rfl
    simp [Token.nesting_of_isMark hk, hends, ha]
  | read reads =>
    rw [reads.eq]
    simpa [Token.nesting] using ha
  | _ => simpa [Token.nesting] using ha

theorem Step.enclosed (h : Step a b) (ha : Enclosed a) : Enclosed b := by
  rcases ha with ⟨k, hk, hmark⟩ | hrooted
  · exact Or.inl ⟨k, h.sublist.subset hk, hmark⟩
  · cases h with
    | dedent indents deep => exact Or.inr ((indents ▸ hrooted).tail deep)
    | indent nonneg => exact Or.inr (hrooted.cons nonneg)
    | mark hk => exact Or.inl ⟨_, List.mem_cons_self, hk⟩
    | read reads =>
      rw [reads.eq]
      exact Or.inr hrooted
    | _ => exact Or.inr hrooted

theorem Way.opened (h : Way a b) (ha : Opened a) : Opened b := by
  induction h with
  | refl => exact ha
  | tail _ hstep ih => exact hstep.opened ih

end Sketch

/-! ## Scalars too late -/

/-- a line of characters `A`, apart from its end and the signs of values, that is not indented and has nothing that
closes a bracket or a quote or starts a block scalar -/
structure Harmless (A : Char → Prop) (w : Text) : Prop where
  flush : FlushLeft w
  signs : ∀ c ∈ w, c ∉ "]\x7d'\"|>".toList
  tame : Plain.Tame A w
  space : A ' '
  inline : ∀ c, A c → isBreak c = false

section

variable {A : Char → Prop} {V w t : Text}

/-- what is left either begins in front of the line, or in it -/
theorem before_or_suffix (ht : t <:+ V ++ '\n' :: w) : Before w t ∨ t <:+ w := by
  rcases List.suffix_or_suffix_of_suffix ht (List.suffix_append V ('\n' :: w)) with h | ⟨u, rfl⟩
  · refine (List.suffix_cons_iff.1 h).imp_left ?_
    rintro rfl
    exact ⟨[], rfl⟩
  · exact Or.inl ⟨u, rfl⟩

/-- what is no longer than the line is in it -/
theorem suffix_of_length_le (ht : t <:+ V ++ '\n' :: w) (hlength : t.length ≤ w.length) : t <:+ w :=
  (before_or_suffix ht).resolve_left fun h => by
    have := h.length_lt
    omega

/-- a sign that is left stands in front of the line, and what follows it is in front of the line's beginning -/
theorem Harmless.before (hw : Harmless A w) {c : Char} (hc : c ∈ "]\x7d'\"|>".toList) (ht : c :: t <:+ V ++ '\n' :: w) :
    Before w t := by
  rcases before_or_suffix ht with h | h
  · refine h.of_cons ?_
    rintro rfl
    exact absurd hc (by decide)
  · exact absurd hc (hw.signs c (h.subset List.mem_cons_self))

/-- a plain scalar of a block does not have the text: there is not enough left in front of the line, and in the line
there are other characters -/
theorem Harmless.plain_ne (hw : Harmless A w) (hV : ∃ c ∈ V, ¬A c) (ht : t <:+ V ++ '\n' :: w)
    (hshort : t.length ≤ V.length + w.length) {indent : Int} (hindent : 1 ≤ indent) :
    (Plain.read false indent t).text ≠ V := by
  intro htext
  rcases before_or_suffix ht with h | h
  · have := Before.length_read hw.flush h hindent
    rw [htext] at this
    omega
  · obtain ⟨c, hc, hA⟩ := hV
    exact hA ((hw.tame.of_suffix h).mem_read hw.space hw.inline (htext ▸ hc))

/-- nor does a quoted one: its closing quote would be in the line -/
theorem Harmless.quoted_ne (hw : Harmless A w) {double : Bool} (ht : Quoted.mark double :: t <:+ V ++ '\n' :: w)
    (hshort : t.length < V.length + w.length) {text rest : Text} (hread : Quoted.read double t = .ok (text, rest)) :
    text ≠ V := by
  rintro rfl
  obtain ⟨hlength, hclosed⟩ := Quoted.read_closed hread
  have hquote : Quoted.mark double ∈ "]\x7d'\"|>".toList := by cases double <;> decide
  have hin : Quoted.mark double :: rest <:+ w := by
    refine suffix_of_length_le (hclosed.trans ((List.suffix_cons _ t).trans ht)) ?_
    simp only [List.length_cons] at hlength ⊢
    omega
  exact hw.signs _ (hin.subset List.mem_cons_self) hquote

/-- nor does a block scalar, which ends before the line -/
theorem Harmless.block_ne (hw : Harmless A w) {c : Char} (hc : c = '|' ∨ c = '>') (ht : c :: t <:+ V ++ '\n' :: w)
    (hshort : t.length < V.length + w.length) {folded : Bool} {parent : Int} {text rest : Text}
    (hread : Block.read? folded parent t = some (text, rest)) : text ≠ V := by
  rintro rfl
  have hbefore : Before w t := hw.before (by rcases hc with rfl | rfl <;> decide) ht
  have hleft := (Block.read?_before hw.flush hbefore hread).length_le
  have hlength := Block.length_read? hread
  simp only at hleft hlength
  omega

end

namespace Sketch

/-- a scalar with a text is there, but too late: a bracket is open and no more than the line is left, or the document
had ended before -/
def Late (V w : Text) (plain : Bool) (s : Sketch) : Prop :=
  s.rest.length ≤ w.length ∧ 0 < s.depth ∨ ∃ k, k.isMark = true ∧ [.scalar V plain, k].Sublist s.tokens

/-- a state behind the beginning of a text and a line, in which the text was not read in time -/
structure Held (V w : Text) (s : Sketch) : Prop where
  opened : Opened s
  balanced : Balanced s
  enclosed : Enclosed s
  reach : s.rest <:+ V ++ '\n' :: w
  short : s.rest.length ≤ V.length + w.length
  late : ∀ plain, .scalar V plain ∈ s.tokens → Late V w plain s

variable {A : Char → Prop} {V w : Text} {a b : Sketch}

/-- a plain scalar that has the text has it too late -/
theorem Held.late_plain (hw : Harmless A w) (hV : ∃ c ∈ V, ¬A c) (ha : Held V w a) {flow : Bool} {indent : Int}
    {outer : List Int} (hindents : a.indents = indent :: outer) (hblock : a.depth = 0 → flow = false)
    (htext : (Plain.read flow (indent + 1) a.rest).text = V) :
    Late V w true ⟨(Plain.read flow (indent + 1) a.rest).rest, .scalar V true :: a.tokens, a.indents, a.depth⟩ := by
  rcases ha.enclosed with ⟨k, hk, hmark⟩ | hrooted
  · exact Or.inr ⟨k, hmark, (List.singleton_sublist.2 hk).cons_cons _⟩
  · have hindent := (hindents ▸ hrooted).nonneg
    have hlength := Plain.length_read flow (indent + 1) a.rest
    rw [htext] at hlength
    refine Or.inl ⟨?_, Nat.pos_of_ne_zero fun hdepth => ?_⟩
    · have := ha.short
      simp only
      omega
    · obtain rfl := hblock hdepth
      exact hw.plain_ne hV ha.reach ha.short (by omega) htext

theorem Step.late (h : Step a b) (hw : Harmless A w) (hV : ∃ c ∈ V, ¬A c) (ha : Held V w a) {plain : Bool}
    (hmem : .scalar V plain ∈ b.tokens) : Late V w plain b := by
  rcases h.scalar_cases hmem with hmem | hreads
  · rcases ha.late plain hmem with ⟨hline, hopen⟩ | ⟨k, hk, hsub⟩
    · rcases h.depth_cases with hdepth | ⟨c, after, hc, hrest⟩
      · exact Or.inl ⟨h.suffix.length_le.trans hline, hopen.trans_le hdepth⟩
      · -- nothing in the line closes a bracket
        have hreach := suffix_of_length_le ha.reach hline
        rw [hrest] at hreach
        refine absurd ?_ (hw.signs c (hreach.subset List.mem_cons_self))
        rcases hc with rfl | rfl <;> decide
    · exact Or.inr ⟨k, hk, hsub.trans h.sublist⟩
  · have hreach := ha.reach
    have hshort := ha.short
    cases hreads with
    | plain indents block => exact ha.late_plain hw hV indents block rfl
    | quoted quote read =>
      rw [quote] at hreach hshort
      exact absurd rfl (hw.quoted_ne hreach hshort read)
    | block sign start read =>
      rw [start] at hreach hshort
      exact absurd rfl (hw.block_ne sign hreach hshort read)

theorem Step.held (h : Step a b) (hw : Harmless A w) (hV : ∃ c ∈ V, ¬A c) (ha : Held V w a) : Held V w b where
  opened := h.opened ha.opened
  balanced := h.balanced ha.balanced
  enclosed := h.enclosed ha.enclosed
  reach := h.suffix.trans ha.reach
  short := h.suffix.length_le.trans ha.short
  late _ hmem := h.late hw hV ha hmem

theorem Way.held (h : Way a b) (hw : Harmless A w) (hV : ∃ c ∈ V, ¬A c) (ha : Held V w a) : Held V w b := by
  induction h with
  | refl => exact ha
  | tail _ hstep ih => exact hstep.held hw hV ih

/-! ### Texts that are longer than what is left -/

/-- a text that was not read, and is longer than what is left -/
structure Exceeded (V : Text) (s : Sketch) : Prop where
  short : s.rest.length < V.length
  unread : ∀ plain, .scalar V plain ∉ s.tokens

theorem Way.exceeded (h : Way a b) (ha : Exceeded V a) : Exceeded V b := by
  induction h with
  | refl => exact ha
  | tail _ hstep ih =>
    refine ⟨hstep.suffix.length_le.trans_lt ih.short, fun plain hmem => ?_⟩
    rcases hstep.scalar_cases hmem with hmem | hreads
    · exact ih.unread plain hmem
    · have := hreads.length_le
      have := ih.short
      omega

end Sketch

/-! ## Behind the first entry -/

/-- what matters of the state behind the first entry of a text -/
def firstEntry (key : Text) (value : Plain.Reading) : Sketch :=
  ⟨value.rest, [.scalar value.text true, .value, .scalar key true, .key, .blockMapping], [0, -1], 0⟩

section

variable {key V w rest : Text} {c : Char}

/-- the tokens of a text that begins with an entry are reached from behind it, if they can be read -/
theorem exists_way (hkey : IsWord key) (hshort : key.length ≤ 1024) (hc : Slug.isNameChar c = true)
    (hreadable : ∀ k ∈ Token.ofText (key ++ ':' :: ' ' :: c :: rest) none, k.IsReadable) :
    ∃ t n, Sketch.Way (firstEntry key (Plain.read false 1 (c :: rest))) t ∧
      Token.ofText (key ++ ':' :: ' ' :: c :: rest) none = (List.replicate n Token.blockEnd ++ t.tokens).reverse := by
  have hline : Lexer.AtLine (.start (key ++ ':' :: ' ' :: c :: rest)) := ⟨rfl, rfl, rfl, rfl, Or.inl ⟨rfl, rfl⟩⟩
  have hsuffix := Plain.read_suffix_tail (Lexer.endsRun_of_startsPlain (startsPlain_of_isNameChar hc false rest)) 1
  obtain ⟨before, hbefore⟩ := hsuffix.trans (List.suffix_cons c rest)
  obtain ⟨place, hrun⟩ := Lexer.run_entry hline hkey hshort hc rfl rfl hbefore.symm
  have hfuel : (key ++ ':' :: ' ' :: c :: rest).length + 1 = key.length + rest.length + 1 + 3 := by
    simp only [List.length_append, List.length_cons]
    omega
  have hstart := List.length_pos_iff.2 hkey.filled
  unfold Token.ofText at hreadable ⊢
  rw [hfuel, hrun] at hreadable ⊢
  have hleft : (Lexer.behindEntry (.start (key ++ ':' :: ' ' :: c :: rest)) key (Plain.read false 1 (c :: rest))
      (before.foldl Position.step place)).rest.length < key.length + rest.length + 1 := by
    have := hsuffix.length_le
    simp only [Lexer.behindEntry]
    omega
  rcases Lexer.run_cases hleft with ⟨f, hf⟩ | ⟨-, t, n, hway, htokens⟩
  · exact absurd rfl (hreadable _ hf f)
  · exact ⟨t, n, hway, htokens⟩

/-- what a node has as its text stands among the nodes -/
theorem Document.mem_of_node {d : Document} {n : Nat} {tag : Tag} (hnode : d.node n = .scalar tag V) (hV : V ≠ []) :
    Node.scalar tag V ∈ d.nodes := by
  unfold Document.node at hnode
  rw [Array.getD_eq_getD_getElem?] at hnode
  cases hget : d.nodes[n]? with
  | none => simp [hget, hV.symm] at hnode
  | some node =>
    rw [hget] at hnode
    obtain rfl : node = .scalar tag V := hnode
    exact Array.mem_of_getElem? hget

/-- behind a mark that ends a document nothing follows but others -/
theorem not_sublist_of_inner {cs : List Token} (hinner : ∀ j ∈ cs, j.isMark = false) {k : Token} (hk : k.isMark = true)
    {plain : Bool} {n : Nat} : ¬[k, .scalar V plain].Sublist (cs ++ List.replicate n .documentEnd) := by
  intro hsub
  obtain ⟨inner, ends, hsplit, hin, hends⟩ := List.sublist_append_iff.1 hsub
  cases inner with
  | nil =>
    rw [List.nil_append] at hsplit
    have hmem := hends.subset (hsplit ▸ List.mem_cons_of_mem k List.mem_cons_self)
    simp at hmem
  | cons j inner =>
    obtain rfl := (List.cons.inj hsplit).1
    simpa [hk] using hinner k (hin.subset List.mem_cons_self)

/-- a text in an entry of a record is that of a scalar that is read from behind the first entry; all brackets are closed
in the end, and no document had ended before it -/
theorem exists_scalar (hkey : IsWord key) (hshort : key.length ≤ 1024) (hc : Slug.isNameChar c = true) {contents : Contents}
    (hread : read (key ++ ':' :: ' ' :: c :: rest) = .ok contents) {entries : List (Value × Value)}
    (hroot : contents.resolve contents.root = .record entries) {k : Value} (hentry : (k, .text V) ∈ entries) (hV : V ≠ []) :
    ∃ t plain, Sketch.Way (firstEntry key (Plain.read false 1 (c :: rest))) t ∧ .scalar V plain ∈ t.tokens ∧
      (t.tokens.map Token.nesting).sum = 0 ∧ ∀ k, k.isMark = true → ¬[.scalar V plain, k].Sublist t.tokens := by
  have hsource := Source.ofText_of_allowed (allowed_of_read hread)
  unfold read Source.read at hread
  simp only [hsource] at hread
  cases hd : Document.ofText (key ++ ':' :: ' ' :: c :: rest) none with
  | error f => simp [hd] at hread
  | ok d =>
    obtain ⟨t, n, hway, htokens⟩ := exists_way hkey hshort hc (Document.ofText_readable hd)
    cases d with
    | none =>
      -- a text without a document is null
      simp only [hd] at hread
      obtain rfl := Except.ok.inj hread
      simp [Contents.resolve] at hroot
    | some d =>
      simp only [hd] at hread
      obtain ⟨first, hfirst, hmark⟩ := Sketch.Way.opened hway ⟨.blockMapping, rfl, rfl⟩
      have hhead : ∀ k, (Token.ofText (key ++ ':' :: ' ' :: c :: rest) none).head? = some k → k.isMark = false := by
        intro k hk
        rw [htokens, List.head?_reverse, List.getLast?_append, hfirst] at hk
        obtain rfl : first = k := by simpa using hk
        exact hmark
      obtain ⟨⟨cs, m, hcs, hsum, hinner⟩, hcomes⟩ := Document.ofText_taken hhead hd
      obtain ⟨number, tag, hnode⟩ := (Document.contents_grounded hread hroot hentry).2
      obtain ⟨plain, hplain⟩ := (hcomes _ (Document.mem_of_node hnode hV) tag V rfl).resolve_left hV
      rw [htokens] at hplain hcs
      refine ⟨t, plain, hway, by simpa using hplain, ?_, fun k hk hsub => ?_⟩
      · have hall := congrArg (fun ks => (ks.map Token.nesting).sum) hcs
        simpa [Token.nesting, hsum] using hall
      · have hreversed : [k, .scalar V plain].Sublist (cs ++ List.replicate m .documentEnd) := by
          rw [← hcs]
          exact (hsub.trans (List.sublist_append_right ..)).reverse
        exact not_sublist_of_inner hinner hk hreversed

/-- **What a plain scalar does not hold is lost.** Where such a text is written behind a key as it is, in front of a line
that is harmless, no entry of the record has it. -/
theorem notMem_of_not_holds {A : Char → Prop} (hw : Harmless A w) (hkey : IsWord key) (hshort : key.length ≤ 1024)
    (hc : Slug.isNameChar c = true) (hne : key ≠ c :: V) (hother : ∃ d ∈ c :: V, ¬A d) (hholds : ¬Plain.Holds (c :: V))
    {contents : Contents} (hread : read (key ++ ':' :: ' ' :: c :: (V ++ '\n' :: w)) = .ok contents)
    {entries : List (Value × Value)} (hroot : contents.resolve contents.root = .record entries) (k : Value) :
    (k, .text (c :: V)) ∉ entries := by
  intro hentry
  obtain ⟨t, plain, hway, hscalar, hsum, hmarks⟩ := exists_scalar hkey hshort hc hread hroot hentry (List.cons_ne_nil c V)
  have hstarts := Lexer.endsRun_of_startsPlain (startsPlain_of_isNameChar hc false (V ++ '\n' :: w))
  have hsuffix := Plain.read_suffix_tail hstarts 1
  have hstart : Sketch.Held (c :: V) w (firstEntry key (Plain.read false 1 (c :: (V ++ '\n' :: w)))) := by
    refine ⟨⟨.blockMapping, rfl, rfl⟩, rfl, Or.inr ⟨[], [-1], rfl, by simp⟩, hsuffix.trans (List.suffix_cons c _), ?_, ?_⟩
    · have := hsuffix.length_le
      simp only [firstEntry, List.length_append, List.length_cons] at this ⊢
      omega
    · intro plain hmem
      simp only [firstEntry, List.mem_cons, Token.scalar.injEq, reduceCtorEq, List.not_mem_nil, or_false, false_or] at hmem
      rcases hmem with ⟨htext, -⟩ | ⟨htext, -⟩
      · exact absurd (Plain.holds_of_length hw.flush le_rfl (congrArg List.length htext.symm)) hholds
      · exact absurd htext.symm hne
  obtain ⟨-, hbalanced, -, -, -, hlate⟩ := hway.held hw hother hstart
  rcases hlate plain hscalar with ⟨-, hopen⟩ | ⟨k, hk, hsub⟩
  · have hdepth : (t.tokens.map Token.nesting).sum = t.depth := hbalanced
    omega
  · exact hmarks k hk hsub

/-- nor has an entry a text that is longer than the line, and all that follows, together -/
theorem notMem_of_length (hkey : IsWord key) (hshort : key.length ≤ 1024) (hc : Slug.isNameChar c = true) (hne : key ≠ V)
    (hlength : rest.length + 1 < V.length) {contents : Contents}
    (hread : read (key ++ ':' :: ' ' :: c :: rest) = .ok contents) {entries : List (Value × Value)}
    (hroot : contents.resolve contents.root = .record entries) (k : Value) : (k, .text V) ∉ entries := by
  intro hentry
  have hV : V ≠ [] := by
    rintro rfl
    simp at hlength
  obtain ⟨t, plain, hway, hscalar, -, -⟩ := exists_scalar hkey hshort hc hread hroot hentry hV
  have hread := Plain.length_read false 1 (c :: rest)
  rw [List.length_cons] at hread
  refine (hway.exceeded (V := V) ⟨?_, fun plain hmem => ?_⟩).unread plain hscalar
  · simp only [firstEntry]
    omega
  · simp only [firstEntry, List.mem_cons, Token.scalar.injEq, reduceCtorEq, List.not_mem_nil, or_false, false_or] at hmem
    rcases hmem with ⟨rfl, -⟩ | ⟨rfl, -⟩
    · omega
    · exact hne rfl

end

end Componentry.Yaml
