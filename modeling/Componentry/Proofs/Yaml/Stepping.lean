/-
The lexer step by step.

Of the lexer's state only a sketch matters for what tokens it can come to: what is left, the tokens, the indentations
and the number of open brackets.
- `Sketch.Step`: all that can happen to a sketch at a time. `Step.suffix`, `Step.sublist`, `Step.depth_cases` and
  `Step.scalar_cases` say what that means for each of its parts.
- `next_way`: a token is reached by such steps, and something is taken away for it.
- `run_cases`: so is all that is read, unless a token in it cannot be read.
-/
import Mathlib.Logic.Relation
import Componentry.Proofs.Yaml.Lexing
import Componentry.Proofs.Yaml.Extent

namespace Componentry.Yaml

namespace Token

/-- what a token adds to the number of open brackets -/
def nesting : Token → Int
  | .flowSequence | .flowMapping => 1
  | .flowSequenceEnd | .flowMappingEnd => -1
  | _ => 0

/-- whether a token stands between documents: a directive, or a line that separates them -/
def isMark : Token → Bool
  | .version _ | .handle .. | .reserved | .documentStart | .documentEnd => true
  | _ => false

/-- a token that is no text, no bracket and no mark between documents -/
structure IsSign (k : Token) : Prop where
  nesting : k.nesting = 0
  inner : k.isMark = false
  textless : ∀ text plain, k ≠ .scalar text plain

end Token

/-- what of the lexer's state matters: what is left, the tokens so far (the last one first), the indentation and those
around it, and the number of open brackets -/
structure Sketch where
  rest : Text
  tokens : List Token
  indents : List Int
  depth : Nat

/-- what of a state matters -/
def Lexer.sketch (s : Lexer) : Sketch := ⟨s.rest, s.tokens, s.indent :: s.outerIndents, s.outerMarks.length⟩

namespace Sketch

/-- a scalar is read, in one of the three styles -/
inductive Reads : Sketch → Sketch → Text → Bool → Prop where
  | plain {s : Sketch} {flow : Bool} {indent : Int} {outer : List Int} (indents : s.indents = indent :: outer)
      (block : s.depth = 0 → flow = false) :
    Reads s ⟨(Plain.read flow (indent + 1) s.rest).rest,
      .scalar (Plain.read flow (indent + 1) s.rest).text true :: s.tokens, s.indents, s.depth⟩
      (Plain.read flow (indent + 1) s.rest).text true
  | quoted {s : Sketch} {double : Bool} {after text rest : Text} (quote : s.rest = Quoted.mark double :: after)
      (read : Quoted.read double after = .ok (text, rest)) :
    Reads s ⟨rest, .scalar text false :: s.tokens, s.indents, s.depth⟩ text false
  | block {s : Sketch} {folded : Bool} {c : Char} {parent : Int} {after text rest : Text} (sign : c = '|' ∨ c = '>')
      (start : s.rest = c :: after) (read : Block.read? folded parent after = some (text, rest)) :
    Reads s ⟨rest, .scalar text false :: s.tokens, s.indents, s.depth⟩ text false

/-- nothing but what is left and the tokens changes -/
theorem Reads.eq {a b : Sketch} {text : Text} {plain : Bool} (h : Reads a b text plain) :
    b = ⟨b.rest, .scalar text plain :: a.tokens, a.indents, a.depth⟩ := by
  cases h <;> rfl

theorem Reads.suffix {a b : Sketch} {text : Text} {plain : Bool} (h : Reads a b text plain) : b.rest <:+ a.rest := by
  cases h with
  | plain => exact Plain.read_suffix ..
  | quoted quote read => exact quote ▸ (Quoted.pieces_suffix read).trans (List.suffix_cons _ _)
  | block sign start read => exact start ▸ (Block.read?_suffix read).trans (List.suffix_cons _ _)

/-- a scalar is no longer than what is taken away for it -/
theorem Reads.length_le {a b : Sketch} {text : Text} {plain : Bool} (h : Reads a b text plain) :
    text.length + b.rest.length ≤ a.rest.length := by
  cases h with
  | plain => exact Plain.length_read ..
  | quoted quote read =>
    have hlength := (Quoted.read_closed read).1
    rw [quote, List.length_cons]
    simp only at hlength ⊢
    omega
  | block sign start read =>
    have hlength := Block.length_read? read
    rw [start, List.length_cons]
    simp only at hlength ⊢
    omega

/-- one thing that happens: something is skipped, a block ends or begins, there is a token, or a scalar is read. A sign can
be put in front of tokens that are there already; a block that is not indented ends at a mark between documents only. -/
inductive Step : Sketch → Sketch → Prop where
  | skip {s : Sketch} {rest : Text} (suffix : rest <:+ s.rest) : Step s { s with rest := rest }
  | dedent {s : Sketch} {indent : Int} {outer : List Int} (indents : s.indents = indent :: outer) (deep : 0 < indent) :
    Step s { s with tokens := .blockEnd :: s.tokens, indents := outer }
  | indent {s : Sketch} {column : Int} (nonneg : 0 ≤ column) : Step s { s with indents := column :: s.indents }
  | sign {s : Sketch} {k : Token} {later earlier : List Token} (tokens : s.tokens = later ++ earlier) (sign : k.IsSign) :
    Step s { s with tokens := later ++ k :: earlier }
  | opening {s : Sketch} {k : Token} (bracket : k = .flowSequence ∨ k = .flowMapping) :
    Step s { s with tokens := k :: s.tokens, depth := s.depth + 1 }
  | closing {s : Sketch} {k : Token} {c : Char} {after : Text} {depth : Nat}
      (bracket : c = ']' ∧ k = .flowSequenceEnd ∨ c = '\x7d' ∧ k = .flowMappingEnd) (rest : s.rest = c :: after)
      (inside : s.depth = depth + 1) :
    Step s { s with rest := after, tokens := k :: s.tokens, depth := depth }
  | mark {s : Sketch} {k : Token} {ends : Nat} {indents : List Int} (mark : k.isMark = true) :
    Step s { s with tokens := k :: (List.replicate ends .blockEnd ++ s.tokens), indents := indents }
  | read {s s' : Sketch} {text : Text} {plain : Bool} (reads : Reads s s' text plain) : Step s s'

/-- a sign behind all other tokens -/
theorem Step.append {s : Sketch} {k : Token} (hk : k.IsSign) : Step s { s with tokens := k :: s.tokens } :=
  .sign (List.nil_append s.tokens).symm hk

theorem Step.suffix {a b : Sketch} (h : Step a b) : b.rest <:+ a.rest := by
  cases h with
  | skip suffix => exact suffix
  | closing bracket rest inside => exact rest ▸ List.suffix_cons _ _
  | read reads => exact reads.suffix
  | _ => exact List.suffix_refl _

/-- tokens stay, in their order -/
theorem Step.sublist {a b : Sketch} (h : Step a b) : a.tokens.Sublist b.tokens := by
  cases h with
  | skip => exact List.Sublist.refl _
  | indent => exact List.Sublist.refl _
  | sign tokens =>
    rw [tokens]
    exact (List.sublist_cons_self ..).append_left _
  | mark => exact (List.sublist_append_right ..).trans (List.sublist_cons_self ..)
  | read reads =>
    rw [reads.eq]
    exact List.sublist_cons_self ..
  | _ => exact List.sublist_cons_self ..

/-- brackets stay open, or what closes one is next -/
theorem Step.depth_cases {a b : Sketch} (h : Step a b) :
    a.depth ≤ b.depth ∨ ∃ c after, (c = ']' ∨ c = '\x7d') ∧ a.rest = c :: after := by
  cases h with
  | opening => exact Or.inl (Nat.le_succ _)
  | closing bracket rest => exact Or.inr ⟨_, _, bracket.imp And.left And.left, rest⟩
  | read reads =>
    rw [reads.eq]
    exact Or.inl le_rfl
  | _ => exact Or.inl le_rfl

/-- a scalar was there, or it is read -/
theorem Step.scalar_cases {a b : Sketch} (h : Step a b) {text : Text} {plain : Bool} (hmem : .scalar text plain ∈ b.tokens) :
    .scalar text plain ∈ a.tokens ∨ Reads a b text plain := by
  cases h with
  | skip => exact Or.inl hmem
  | dedent => exact Or.inl (by simpa using hmem)
  | indent => exact Or.inl hmem
  | sign tokens sign =>
    rw [tokens]
    exact Or.inl (by simpa [(sign.textless text plain).symm] using hmem)
  | opening bracket => rcases bracket with rfl | rfl <;> exact Or.inl (by simpa using hmem)
  | closing bracket => rcases bracket with ⟨-, rfl⟩ | ⟨-, rfl⟩ <;> exact Or.inl (by simpa using hmem)
  | mark hk =>
    simp only [List.mem_cons, List.mem_append, List.mem_replicate] at hmem
    rcases hmem with rfl | ⟨-, hmem⟩ | hmem
    · simp [Token.isMark] at hk
    · simp at hmem
    · exact Or.inl hmem
  | read reads =>
    rw [reads.eq] at hmem
    rcases List.mem_cons.1 hmem with heq | hmem
    · obtain ⟨rfl, rfl⟩ := Token.scalar.inj heq
      exact Or.inr reads
    · exact Or.inl hmem

/-- any number of steps -/
abbrev Way : Sketch → Sketch → Prop := Relation.ReflTransGen Step

theorem Way.suffix {a b : Sketch} (h : Way a b) : b.rest <:+ a.rest := by
  induction h with
  | refl => exact List.suffix_refl _
  | tail _ hstep ih => exact hstep.suffix.trans ih

end Sketch

namespace Lexer

open Sketch

variable {s : Lexer}

/-- a part of reading that leaves what matters as it is -/
abbrev Keeps (s : Lexer) : Except Fault Lexer → Prop := Ends (fun s' => s'.sketch = s.sketch) fun _ => True

/-- a part of reading that goes a way and takes something away -/
abbrev Leads (a : Sketch) : Except Fault Lexer → Prop :=
  Ends (fun s' => Way a s'.sketch ∧ s'.rest <:+ a.rest.drop 1) fun _ => True

/-! ## Between tokens -/

theorem dropStale_keeps (s : Lexer) : Keeps s s.dropStale := by
  unfold dropStale
  simp only
  split_ifs
  · trivial
  · simp [Ends, sketch]

theorem dropMark_keeps (s : Lexer) : Keeps s s.dropMark := by
  unfold dropMark
  split_ifs
  · trivial
  · simp [Ends, sketch]

theorem setMark_keeps (s : Lexer) : Keeps s s.setMark := by
  unfold setMark
  split_ifs
  · exact (dropMark_keeps s).map fun _ hs => hs
  · simp [Ends]

theorem skipBlank_way (s : Lexer) (fuel : Nat) : Way s.sketch (s.skipBlank fuel).sketch := by
  have hgoTo : ∀ {s : Lexer} {rest : Text}, rest <:+ s.rest → Way s.sketch (s.goTo rest).sketch :=
    fun h => .single (.skip h)
  induction fuel generalizing s with
  | zero => exact .refl
  | succ fuel ih =>
    have hcomment := (comment_suffix (skipSpaces s.rest)).trans (skipSpaces_suffix s.rest)
    unfold skipBlank
    simp only
    split
    · exact hgoTo hcomment
    · rename_i after hbreak
      have hnext := ih { s.goTo after with keyAllowed := (s.goTo after).keyAllowed || !(s.goTo after).inFlow }
      exact (hgoTo ((lineBreak?_suffix hbreak).trans hcomment)).trans hnext

theorem toNext_way (s : Lexer) : Way s.sketch s.toNext.sketch := by
  unfold toNext
  split
  · rename_i c rest hs
    have hrest : rest <:+ s.sketch.rest := by
      rw [sketch, hs]
      exact List.suffix_cons c rest
    simp only
    split_ifs
    · exact .head (.skip hrest) (skipBlank_way (s.goTo rest) _)
    · exact skipBlank_way s _
  · exact .refl

theorem unwind_way {column : Int} (h : 0 ≤ column) (rest : Text) (tokens : List Token) (indent : Int)
    (outer : List Int) : Way ⟨rest, tokens, indent :: outer, 0⟩
      ⟨rest, List.replicate (unwind column indent outer).2.2 .blockEnd ++ tokens,
        (unwind column indent outer).1 :: (unwind column indent outer).2.1, 0⟩ := by
  induction outer generalizing indent tokens with
  | nil => exact .refl
  | cons next outer ih =>
    unfold unwind
    split_ifs with hlt
    · refine .head (.dedent rfl (h.trans_lt hlt)) ((ih (.blockEnd :: tokens) next).trans ?_)
      simp only [List.replicate_succ', List.append_assoc, List.singleton_append]
      exact .refl
    · exact .refl

theorem endBlocks_way {column : Int} (h : 0 ≤ column) (s : Lexer) : Way s.sketch (s.endBlocks column).sketch := by
  unfold endBlocks
  split_ifs with hflow
  · exact .refl
  · have hdepth : s.outerMarks = [] := by simpa [inFlow] using hflow
    simpa [sketch, hdepth] using unwind_way h s.rest s.tokens s.indent s.outerIndents

/-! ## Tokens -/

theorem openFlow_leads (s : Lexer) {k : Token} (hk : k = .flowSequence ∨ k = .flowMapping) :
    Leads s.sketch (s.openFlow k) := by
  refine (setMark_keeps s).map fun s' hs => ?_
  rw [← hs]
  exact ⟨.head (.skip (List.drop_suffix 1 _)) (.single (.opening hk)), List.suffix_refl _⟩

theorem closeFlow_leads {c : Char} {after : Text} (hs : s.rest = c :: after) {k : Token}
    (hk : c = ']' ∧ k = .flowSequenceEnd ∨ c = '\x7d' ∧ k = .flowMappingEnd) : Leads s.sketch (s.closeFlow k) := by
  unfold closeFlow
  split
  · trivial
  · rename_i outer more houter
    have hstep : Step s.sketch ⟨after, k :: s.tokens, s.indent :: s.outerIndents, more.length⟩ :=
      .closing hk hs (by simp [sketch, houter])
    refine ⟨.single ?_, List.suffix_refl _⟩
    simpa only [sketch, advance, goTo, emit, hs, List.drop_one, List.tail_cons] using hstep

/-- a token of one character behind the others -/
theorem advance_leads (s : Lexer) {k : Token} (hk : k.IsSign) : Way s.sketch (s.advance 1 k).sketch :=
  .head (.skip (List.drop_suffix 1 s.rest)) (.single (.append hk))

theorem separator_leads (s : Lexer) : Leads s.sketch s.separator := by
  refine (dropMark_keeps s).map fun s' hs => ?_
  rw [← hs]
  exact ⟨advance_leads s' ⟨rfl, rfl, by simp⟩, List.suffix_refl _⟩

theorem blockSign_way (s : Lexer) {k : Token} (hk : k.IsSign) :
    Ends (fun s' => Way s.sketch s'.sketch ∧ s'.rest = s.rest) (fun _ => True) (s.blockSign k) := by
  have hcolumn : 0 ≤ s.column := by simp [column]
  unfold blockSign
  split_ifs
  · trivial
  · exact ⟨.head (.indent hcolumn) (.single (.append hk)), rfl⟩
  · exact ⟨.refl, rfl⟩

/-- a sign at which a block can start, and its token; whether a key may follow does not matter -/
theorem signed_leads (s : Lexer) {start k : Token} (hstart : start.IsSign) (hk : k.IsSign) (keyAllowed : Lexer → Bool) :
    Leads s.sketch ((s.blockSign start).bind fun s' =>
      s'.dropMark.map fun s'' => { s''.advance 1 k with keyAllowed := keyAllowed s'' }) := by
  refine (blockSign_way s hstart).bind fun s' hs => (dropMark_keeps s').map fun s'' hs' => ?_
  have hway := advance_leads s'' hk
  rw [hs'] at hway
  refine ⟨hs.1.trans hway, ?_⟩
  rw [show s.sketch.rest = s''.rest from (hs.2.symm.trans (congrArg Sketch.rest hs').symm)]
  exact List.suffix_refl _

theorem entry_leads (s : Lexer) : Leads s.sketch s.entry :=
  signed_leads s ⟨rfl, rfl, by simp⟩ ⟨rfl, rfl, by simp⟩ fun _ => true

theorem explicitKey_leads (s : Lexer) : Leads s.sketch s.explicitKey :=
  signed_leads s ⟨rfl, rfl, by simp⟩ ⟨rfl, rfl, by simp⟩ fun s => !s.inFlow

/-- the tokens that make a key of a marked one -/
theorem insertTokens_way (s : Lexer) (number : Nat) (ks : List Token) (hks : ∀ k ∈ ks, k.IsSign) :
    Way s.sketch (s.insertTokens number ks).sketch := by
  have hinsert : ∀ (later earlier : List Token), Way { s.sketch with tokens := later ++ earlier }
      { s.sketch with tokens := later ++ ks.reverse ++ earlier } := by
    intro later earlier
    induction ks generalizing earlier with
    | nil => simpa using .refl
    | cons k ks ih =>
      have hrest := ih (fun j hj => hks j (List.mem_cons_of_mem k hj)) (k :: earlier)
      refine .head (.sign rfl (hks k List.mem_cons_self)) ?_
      simpa using hrest
  have htokens := hinsert (s.tokens.take (s.tokens.length - number)) (s.tokens.drop (s.tokens.length - number))
  rw [List.take_append_drop] at htokens
  exact htokens

theorem value_leads (s : Lexer) : Leads s.sketch s.value := by
  have hvalue : Token.IsSign .value := ⟨rfl, rfl, by simp⟩
  have hkey : Token.IsSign .key := ⟨rfl, rfl, by simp⟩
  have hmapping : Token.IsSign .blockMapping := ⟨rfl, rfl, by simp⟩
  unfold value
  split
  · rename_i m _
    have hcolumn : (0 : Int) ≤ m.place.column := by simp
    simp only
    split_ifs
    · have hinsert := insertTokens_way (s.indented m.place.column) m.token [.blockMapping, .key]
        (by simp [hkey, hmapping])
      exact ⟨.head (.indent hcolumn) (hinsert.trans (advance_leads _ hvalue)), List.suffix_refl _⟩
    · have hinsert := insertTokens_way s m.token [.key] (by simp [hkey])
      exact ⟨hinsert.trans (advance_leads _ hvalue), List.suffix_refl _⟩
  · refine (blockSign_way s hmapping).map fun s' hs => ⟨hs.1.trans (advance_leads s' hvalue), ?_⟩
    rw [show s.sketch.rest = s'.rest from hs.2.symm]
    exact List.suffix_refl _

theorem markable_leads (s : Lexer) {read : Lexer → Except Fault Lexer}
    (hread : ∀ s', s'.sketch = s.sketch → Leads s'.sketch (read s')) : Leads s.sketch (s.markable read) := by
  refine (setMark_keeps s).bind fun s' hs => ?_
  rw [← hs]
  exact hread { s' with keyAllowed := false } hs

theorem name_leads (s : Lexer) {token : Text → Token} (htoken : ∀ n, (token n).IsSign) :
    Leads s.sketch (s.name token) := by
  unfold name
  split
  · trivial
  · rename_i n rest hname
    have hrest := Token.name?_suffix hname
    exact ⟨.head (.skip (hrest.trans (List.drop_suffix 1 _))) (.single (.append (htoken n))), hrest⟩

theorem handled?_eq {t : Text} {r : Token × Text} (h : Token.handled? t = some r) :
    ∃ handle suffix, r.1 = .tag handle suffix := by
  unfold Token.handled? at h
  split at h
  · simp at h
  · obtain ⟨q, -, rfl⟩ := Option.map_eq_some_iff.1 h
    exact ⟨_, _, rfl⟩

theorem openTag?_eq {t : Text} {r : Token × Text} (h : Token.openTag? t = some r) :
    ∃ handle suffix, r.1 = .tag handle suffix := by
  unfold Token.openTag? at h
  split at h
  · split at h
    · rw [← Option.some.inj h]
      exact ⟨_, _, rfl⟩
    · simp at h
  · split_ifs at h
    · rw [← Option.some.inj h]
      exact ⟨_, _, rfl⟩
    · exact handled?_eq h
    · obtain ⟨q, -, rfl⟩ := Option.map_eq_some_iff.1 h
      exact ⟨_, _, rfl⟩

/-- what is read as a tag is one, written out or not -/
theorem tag?_eq {t : Text} {r : Token × Text} (h : Token.tag? t = some r) :
    ∃ handle suffix, r.1 = .tag handle suffix := by
  unfold Token.tag? at h
  split at h
  · rename_i hsome
    split_ifs at h
    rw [← Option.some.inj h]
    exact openTag?_eq hsome
  · simp at h

theorem tag_leads (s : Lexer) : Leads s.sketch s.tag := by
  unfold tag
  split
  · trivial
  · rename_i token rest htag
    obtain ⟨handle, suffix, rfl⟩ := tag?_eq htag
    have hrest := (Token.tag?_suffix htag).1
    exact ⟨.head (.skip (hrest.trans (List.drop_suffix 1 _)))
      (.single (.append ⟨rfl, rfl, by simp⟩)), hrest⟩

theorem block_leads {c : Char} {after : Text} (hs : s.rest = c :: after) (hc : c = '|' ∨ c = '>') (folded : Bool) :
    Leads s.sketch (s.block folded) := by
  refine (dropMark_keeps s).bind fun s' hs' => ?_
  have hrest : s'.rest = c :: after := (congrArg Sketch.rest hs').trans hs
  have hdrop : s'.rest.drop 1 = after := by rw [hrest, List.drop_one, List.tail_cons]
  rw [← hs', hdrop]
  split
  · trivial
  · rename_i text rest hread
    refine ⟨.single (.read (.block hc hrest hread)), ?_⟩
    rw [show s'.sketch.rest = c :: after from hrest]
    exact Block.read?_suffix hread

theorem quoted_leads {double : Bool} {after : Text} (hs : s.rest = Quoted.mark double :: after) :
    Leads s.sketch (s.quoted double) := by
  unfold quoted
  rw [hs, List.drop_one, List.tail_cons]
  cases hread : Quoted.read double after with
  | error f => trivial
  | ok r =>
    refine ⟨.single (.read (.quoted hs hread)), ?_⟩
    rw [show s.sketch.rest = Quoted.mark double :: after from hs]
    exact Quoted.pieces_suffix hread

/-- what starts a plain scalar does not end it -/
theorem endsRun_of_startsPlain {flow : Bool} {c : Char} {after : Text} (h : startsPlain flow c after = true) :
    Plain.endsRun flow c after = false := by
  simp only [startsPlain, Bool.or_eq_true, Bool.and_eq_true, Bool.not_eq_true', decide_eq_true_eq] at h
  rcases h with h | ⟨hends, rfl | ⟨rfl, rfl | rfl⟩⟩
  · simp only [Bool.or_eq_false_iff] at h
    obtain ⟨⟨hspace, hbreak⟩, hsigns⟩ := h
    simp only [String.reduceToList, List.contains_cons, List.contains_nil, Bool.or_false, Bool.or_eq_false_iff,
      beq_eq_false_iff_ne] at hsigns
    simp [Plain.endsRun, Plain.isFlowMark, hspace, hbreak, hsigns]
  · simp [Plain.endsRun, isSpace, isBreak, Plain.isFlowMark]
  · simp [Plain.endsRun, isSpace, isBreak]
  · simp [Plain.endsRun, isSpace, isBreak, hends]

theorem plain_leads {c : Char} {after : Text} (hs : s.rest = c :: after) (hc : startsPlain s.inFlow c after = true) :
    Leads s.sketch s.plain := by
  refine ⟨.single (.read (.plain rfl fun hdepth => ?_)), ?_⟩
  · simpa [inFlow, sketch] using hdepth
  · have hread := Plain.read_suffix_tail (endsRun_of_startsPlain hc) (s.indent + 1)
    rw [← hs] at hread
    rw [show s.sketch.rest = c :: after from hs]
    exact hread

/-- the blocks that end where a mark stands -/
theorem endBlocks_sketch (s : Lexer) (column : Int) : ∃ n indents,
    (s.endBlocks column).sketch = ⟨s.rest, List.replicate n .blockEnd ++ s.tokens, indents, s.outerMarks.length⟩ := by
  unfold endBlocks
  split_ifs
  · exact ⟨0, _, rfl⟩
  · exact ⟨_, _, rfl⟩

theorem atDocument_leads (s : Lexer) {read : Lexer → Except Fault Lexer}
    (hread : ∀ s', s'.rest = s.rest → Ends (fun r => ∃ k, k.isMark = true ∧ r.rest <:+ s.rest.drop 1 ∧
      r.sketch = ⟨r.rest, k :: s'.tokens, s'.indent :: s'.outerIndents, s'.outerMarks.length⟩) (fun _ => True) (read s')) :
    Leads s.sketch (s.atDocument read) := by
  obtain ⟨n, indents, hends⟩ := endBlocks_sketch s (-1)
  refine (dropMark_keeps (s.endBlocks (-1))).bind fun s' hs => ?_
  rw [hends] at hs
  refine (hread { s' with keyAllowed := false } (congrArg Sketch.rest hs)).mono ?_ fun _ h => h
  rintro r ⟨k, hk, hrest, hr⟩
  have hmark : Step s.sketch
      ⟨s.rest, k :: (List.replicate n .blockEnd ++ s.tokens), indents, s.outerMarks.length⟩ := .mark hk
  refine ⟨.head hmark (.head (.skip (hrest.trans (List.drop_suffix 1 _))) ?_), hrest⟩
  simp only [sketch, Sketch.mk.injEq] at hs
  obtain ⟨-, htokens, hindents, hdepth⟩ := hs
  rw [hr]
  simp only [htokens, hindents, hdepth]
  exact .refl

theorem versionNumbers_isMark {t : Text} {r : Token × Text} (h : Token.versionNumbers t = .ok r) :
    r.1.isMark = true := by
  unfold Token.versionNumbers at h
  cases hmajor : Token.versionNumber (skipSpaces t) with
  | error f => simp [hmajor, Except.bind] at h
  | ok q =>
    rw [hmajor] at h
    simp only [Except.bind] at h
    split at h
    · rename_i rest _
      cases hminor : Token.versionNumber rest with
      | error f => simp [hminor] at h
      | ok q =>
        rw [hminor] at h
        simp only at h
        split_ifs at h
        rw [← Except.ok.inj h]
        rfl
    · simp at h

theorem handleMeaning?_isMark {t : Text} {r : Token × Text} (h : Token.handleMeaning? t = some r) :
    r.1.isMark = true := by
  unfold Token.handleMeaning? at h
  split at h
  · split at h
    · split_ifs at h
      rw [← Option.some.inj h]
      rfl
    · simp at h
  · simp at h

/-- what a directive means is a mark between documents, whatever its name -/
theorem directiveMeaning_isMark {name t : Text} {r : Token × Text} (h : Token.directiveMeaning name t = .ok r) :
    r.1.isMark = true := by
  unfold Token.directiveMeaning at h
  split_ifs at h
  · exact versionNumbers_isMark h
  · split at h
    · rename_i hsome
      rw [← Except.ok.inj h]
      exact handleMeaning?_isMark hsome
    · simp at h
  · rw [← Except.ok.inj h]
    rfl

theorem directive_isMark {t : Text} {r : Token × Text} (h : Token.directive t = .ok r) : r.1.isMark = true := by
  unfold Token.directive at h
  simp only at h
  split_ifs at h
  cases hm : Token.directiveMeaning (t.takeWhile isNameChar) (t.drop (t.takeWhile isNameChar).length) with
  | error f => simp [hm, Except.bind] at h
  | ok q =>
    rw [hm] at h
    simp only [Except.bind] at h
    split at h
    · rw [← Except.ok.inj h]
      change q.1.isMark = true
      exact directiveMeaning_isMark hm
    · simp at h

theorem directive_leads (s : Lexer) : Ends (fun r => ∃ k, k.isMark = true ∧ r.rest <:+ s.rest.drop 1 ∧
    r.sketch = ⟨r.rest, k :: s.tokens, s.indent :: s.outerIndents, s.outerMarks.length⟩) (fun _ => True) s.directive := by
  unfold directive
  cases hread : Token.directive (s.rest.drop 1) with
  | error f => trivial
  | ok r => exact ⟨r.1, directive_isMark hread, (Token.directive_suffix hread).1, rfl⟩

theorem token_leads {c : Char} {after : Text} (hs : s.rest = c :: after) : Leads s.sketch (s.token c after) := by
  have hrest : ∀ {s' : Lexer}, s'.sketch = s.sketch → s'.rest = c :: after := fun h => (congrArg Sketch.rest h).trans hs
  unfold token
  refine .ite (fun _ => atDocument_leads s fun s' hs' => ?_) <|
    .ite (fun _ => atDocument_leads s fun s' hs' => ?_) <|
    .ite (fun _ => openFlow_leads s (Or.inl rfl)) <|
    .ite (fun _ => openFlow_leads s (Or.inr rfl)) <|
    .ite (fun hc => closeFlow_leads hs (Or.inl ⟨hc, rfl⟩)) <|
    .ite (fun hc => closeFlow_leads hs (Or.inr ⟨hc, rfl⟩)) <|
    .ite (fun _ => separator_leads s) <|
    .ite (fun _ => entry_leads s) <|
    .ite (fun _ => explicitKey_leads s) <|
    .ite (fun _ => value_leads s) <|
    .ite (fun _ => markable_leads s fun s' _ => name_leads s' fun n => ⟨rfl, rfl, by simp⟩) <|
    .ite (fun _ => markable_leads s fun s' _ => name_leads s' fun n => ⟨rfl, rfl, by simp⟩) <|
    .ite (fun _ => markable_leads s fun s' _ => tag_leads s') <|
    .ite (fun hc => block_leads hs (Or.inl hc.1) false) <|
    .ite (fun hc => block_leads hs (Or.inr hc.1) true) <|
    .ite (fun hc => markable_leads s fun s' hs' => quoted_leads (by rw [hrest hs', hc]; rfl)) <|
    .ite (fun hc => markable_leads s fun s' hs' => quoted_leads (by rw [hrest hs', hc]; rfl)) <|
    .ite (fun hc => markable_leads s fun s' hs' => plain_leads (hrest hs') ?_) trivial
  · exact hs' ▸ directive_leads s'
  · refine ⟨if c = '-' then .documentStart else .documentEnd, by split_ifs <;> rfl, ?_, rfl⟩
    rw [← hs']
    exact (List.drop_suffix_drop_left s'.rest (by omega) : s'.rest.drop 3 <:+ s'.rest.drop 1)
  · have hflow : s'.inFlow = s.inFlow := by
      have hlength := congrArg Sketch.depth hs'
      simp only [sketch] at hlength
      simp only [inFlow, ne_eq, ← List.length_eq_zero_iff, hlength]
    rwa [hflow]

/-! ## Texts -/

/-- between two tokens there are steps -/
theorem settled_way {t : Lexer} (h : s.toNext.dropStale = .ok t) : Way s.sketch (t.endBlocks t.column).sketch := by
  have hkeeps := dropStale_keeps s.toNext
  rw [h] at hkeeps
  have hway := endBlocks_way (show 0 ≤ t.column by simp [column]) t
  rw [show t.sketch = s.toNext.sketch from hkeeps] at hway
  exact (toNext_way s).trans hway

/-- a token is reached by steps, and something is taken away for it -/
theorem next_way {s' : Lexer} (h : s.next = .ok (s', true)) :
    Way s.sketch s'.sketch ∧ s'.rest.length < s.rest.length := by
  unfold next at h
  cases hstale : s.toNext.dropStale with
  | error f => simp [hstale, Except.bind] at h
  | ok t =>
    rw [hstale] at h
    simp only [Except.bind] at h
    have hway := settled_way hstale
    generalize t.endBlocks t.column = u at h hway
    cases hrest : u.rest with
    | nil =>
      simp only [hrest] at h
      cases hdrop : (u.endBlocks (-1)).dropMark <;> simp [hdrop, Except.map] at h
    | cons c after =>
      simp only [hrest] at h
      have hleads := token_leads hrest
      cases htoken : u.token c after with
      | error f => simp [htoken, Except.map] at h
      | ok v =>
        rw [htoken] at h hleads
        obtain rfl : v = s' := congrArg Prod.fst (Except.ok.inj h)
        refine ⟨hway.trans hleads.1, ?_⟩
        have hlength := hleads.2.length_le
        have hsuffix := (Way.suffix hway).length_le
        simp only [sketch, hrest, List.drop_one, List.tail_cons, List.length_cons] at hlength hsuffix
        omega

/-- at the end of the text the blocks end -/
theorem next_end {s' : Lexer} (h : s.next = .ok (s', false)) : s'.rest = [] ∧
    ∃ t n, Way s.sketch t ∧ s'.tokens = List.replicate n .blockEnd ++ t.tokens := by
  unfold next at h
  cases hstale : s.toNext.dropStale with
  | error f => simp [hstale, Except.bind] at h
  | ok t =>
    rw [hstale] at h
    simp only [Except.bind] at h
    have hway := settled_way hstale
    generalize t.endBlocks t.column = u at h hway
    cases hrest : u.rest with
    | nil =>
      simp only [hrest] at h
      obtain ⟨n, indents, hends⟩ := endBlocks_sketch u (-1)
      have hkeeps := dropMark_keeps (u.endBlocks (-1))
      cases hdrop : (u.endBlocks (-1)).dropMark with
      | error f => simp [hdrop, Except.map] at h
      | ok v =>
        rw [hdrop] at h hkeeps
        obtain rfl : v = s' := congrArg Prod.fst (Except.ok.inj h)
        have hsketch := Eq.trans (show v.sketch = _ from hkeeps) hends
        exact ⟨(congrArg Sketch.rest hsketch).trans hrest, u.sketch, n, hway, congrArg Sketch.tokens hsketch⟩
    | cons c after =>
      simp only [hrest] at h
      cases htoken : u.token c after <;> simp [htoken, Except.map] at h

/-- all tokens of a text are reached by steps, and blocks that end at its end, unless one cannot be read; with enough
fuel that is so if the text stops -/
theorem run_cases {stop : Option Fault} {fuel : Nat} (hfuel : s.rest.length < fuel) :
    (∃ f, .unreadable f ∈ run stop fuel s) ∨ stop = none ∧ ∃ t n, Way s.sketch t ∧
      run stop fuel s = (List.replicate n Token.blockEnd ++ t.tokens).reverse := by
  have hblocked : ∀ (s : Lexer) (f : Fault), .unreadable f ∈ s.blocked f := by
    intro s f
    simp [blocked, insertTokens]
  induction fuel generalizing s with
  | zero => omega
  | succ fuel ih =>
    unfold run
    split
    · exact Or.inl ⟨_, hblocked s _⟩
    · exact Or.inl ⟨_, hblocked s _⟩
    · exact Or.inl ⟨_, hblocked s _⟩
    · rename_i next b f hnext
      split_ifs with hend
      · exact Or.inl ⟨_, hblocked s _⟩
      · cases b with
        | false => exact absurd (next_end hnext).1 hend
        | true =>
          obtain ⟨-, hlt⟩ := next_way hnext
          refine Or.inl ((ih (by omega)).resolve_right ?_)
          simp
    · rename_i next hnext
      obtain ⟨hway, hlt⟩ := next_way hnext
      refine (ih (by omega)).imp_right ?_
      rintro ⟨hstop, t, n, ht, htokens⟩
      exact ⟨hstop, t, n, hway.trans ht, htokens⟩
    · rename_i next hnext
      obtain ⟨-, t, n, hway, htokens⟩ := next_end hnext
      exact Or.inr ⟨rfl, t, n, hway, by rw [htokens]⟩

end Lexer

end Componentry.Yaml
