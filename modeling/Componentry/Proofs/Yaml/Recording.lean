/-
Two lines that each write an entry are read as a record of the two.
- `IsEntry`: a key and a value that can be written on a line as they are.
- `Lexer.run_line`: its tokens. `Token.ofText_lines`: those of both lines.
- `Read.run_record`: the document of these tokens.
- `recordDocument_contents`: its value.

Main result: `read_lines`.
-/
import Componentry.Proofs.Yaml.PlainLine
import Componentry.Proofs.Yaml.Source
import Componentry.Proofs.Yaml.Wording
import Componentry.Yaml.Value.Reading

namespace Componentry.Yaml

/-- a key and a value that can be written on a line as they are: a word, and a text that a plain scalar holds; both show
that they are texts -/
structure IsEntry (key value : Text) : Prop where
  word : IsWord key
  short : key.length ≤ 1024
  keyText : Tag.ofPlain Timestamp.isSpelling key = .text
  starts : value.head?.any Slug.isNameChar = true
  ends : value.getLast? ≠ some ' '
  holds : Plain.Holds value
  valueText : Tag.ofPlain Timestamp.isSpelling value = .text

/-- the line that writes an entry -/
def entryLine (key value : Text) : Text := key ++ ':' :: ' ' :: value ++ ['\n']

theorem mem_entryLine {key value : Text} {c : Char} :
    c ∈ entryLine key value ↔ c ∈ key ∨ c = ':' ∨ c = ' ' ∨ c ∈ value ∨ c = '\n' := by
  simp [entryLine]

theorem allowed_entryLine {key value : Text} (hkey : IsWord key) (hvalue : ∀ c ∈ value, isAllowed c = true) :
    ∀ c ∈ entryLine key value, isAllowed c = true := by
  intro c hc
  rcases mem_entryLine.1 hc with hc | rfl | rfl | hc | rfl
  · exact isAllowed_of_isNameChar (hkey.chars c hc)
  · decide
  · decide
  · exact hvalue c hc
  · decide

/-- such a line is not indented -/
theorem flushLeft_entryLine {key : Text} (hkey : IsWord key) (value : Text) : FlushLeft (entryLine key value) := by
  intro c hc
  obtain ⟨d, key', rfl⟩ := List.exists_cons_of_ne_nil hkey.filled
  obtain rfl : d = c := by simpa [entryLine] using hc
  have hname := hkey.chars d List.mem_cons_self
  exact ⟨ne_of_isNameChar hname (by decide), isBreak_of_isNameChar hname⟩

/-- a plain scalar holds a text behind a word and a space if it holds the text, unless that starts a comment -/
theorem Plain.holds_word_append {word t : Text} (hword : ∀ c ∈ word, Slug.isNameChar c = true) :
    Holds (word ++ ' ' :: t) ↔ Holds t ∧ t.head? ≠ some '#' := by
  induction word with
  | nil => simp [Holds, isBreak, and_comm]
  | cons c word ih =>
    have hc := hword c List.mem_cons_self
    rw [List.cons_append, Holds, ih fun d hd => hword d (List.mem_cons_of_mem c hd)]
    simp [isBreak_of_isNameChar hc, ne_of_isNameChar hc (d := '\t') (by decide), ne_of_isNameChar hc (d := ':') (by decide),
      ne_of_isNameChar hc (d := ' ') (by decide)]

/-! ## Tokens -/

namespace Lexer

variable {s : Lexer} {key value w : Text}

/-- the line of an entry is read, and another one can come -/
theorem run_line (h : AtLine s) (he : IsEntry key value) (hw : FlushLeft w) (hs : s.rest = entryLine key value ++ w) :
    ∃ place, AtLine (s.behindEntry key ⟨value, true, w⟩ place) ∧
      ∀ fuel, run none (fuel + 3) s = run none fuel (s.behindEntry key ⟨value, true, w⟩ place) := by
  obtain ⟨c, value', rfl, hc⟩ : ∃ c value', value = c :: value' ∧ Slug.isNameChar c = true := by
    cases value with
    | nil => exact absurd he.starts (by simp)
    | cons c value' => exact ⟨c, value', rfl, by simpa using he.starts⟩
  have hhead : (c :: value').head? ≠ some ' ' := by simpa using ne_of_isNameChar hc (d := ' ') (by decide)
  have hread : Plain.read false 1 (c :: value' ++ '\n' :: w) = ⟨c :: value', true, w⟩ :=
    Plain.read_of_holds hw le_rfl he.holds (List.cons_ne_nil c value') hhead he.ends
  have hrest : s.rest = key ++ ':' :: ' ' :: c :: (value' ++ '\n' :: w) := by simp [hs, entryLine]
  have hbefore : c :: (value' ++ '\n' :: w) = (c :: value' ++ ['\n']) ++ w := by simp
  obtain ⟨place, hrun⟩ := run_entry h he.word he.short hc hrest hread hbefore
  refine ⟨_, ⟨?_, rfl, rfl, h.outer, Or.inr ⟨rfl, rfl⟩⟩, hrun⟩
  -- the line ends in a line break
  simp [behindEntry, Position.step, show isBreak '\n' = true by decide]

/-- at the end of the text the mapping ends -/
theorem next_of_end (h : AtLine s) (hindent : s.indent = 0) (hs : s.rest = []) :
    s.next = .ok ({ s with indent := -1, outerIndents := [], tokens := .blockEnd :: s.tokens }, false) := by
  have htoNext : s.toNext = s := by
    unfold toNext
    rw [hs]
  have houter : s.outerIndents = [-1] := by
    rcases h.indents with ⟨hnone, -⟩ | ⟨-, houter⟩
    · omega
    · exact houter
  have hflow : s.inFlow = false := by simp [inFlow, h.outer]
  have hends : s.endBlocks (-1) = { s with indent := -1, outerIndents := [], tokens := .blockEnd :: s.tokens } := by
    unfold endBlocks
    rw [if_neg (by simp [hflow]), hindent, houter]
    rfl
  unfold next
  rw [htoNext, dropStale_of_none h.mark h.outer]
  simp only [Except.bind, endBlocks_of_le (show s.indent ≤ s.column by simp [column, hindent]), hs, hends]
  simp [dropMark, h.mark, Except.map]

end Lexer

variable {k v l u : Text}

/-- the tokens of two lines -/
theorem Token.ofText_lines (hfirst : IsEntry k v) (hsecond : IsEntry l u) :
    Token.ofText (entryLine k v ++ entryLine l u) none =
      [.blockMapping, .key, .scalar k true, .value, .scalar v true, .key, .scalar l true, .value, .scalar u true,
        .blockEnd] := by
  have hstart : Lexer.AtLine (.start (entryLine k v ++ entryLine l u)) := ⟨rfl, rfl, rfl, rfl, Or.inl ⟨rfl, rfl⟩⟩
  obtain ⟨place, hline, hrun⟩ := Lexer.run_line hstart hfirst (flushLeft_entryLine hsecond.word u) rfl
  generalize hs : Lexer.behindEntry (.start (entryLine k v ++ entryLine l u)) k ⟨v, true, entryLine l u⟩ place = s
    at hline hrun
  have hrest : s.rest = entryLine l u := by rw [← hs]; rfl
  obtain ⟨place', hline', hrun'⟩ := Lexer.run_line (w := []) hline hsecond (by simp [FlushLeft]) (by simpa using hrest)
  have hend := Lexer.next_of_end hline' rfl rfl
  obtain ⟨fuel, hfuel⟩ : ∃ fuel, (entryLine k v ++ entryLine l u).length + 1 = fuel + 1 + 3 + 3 := by
    have := List.length_pos_iff.2 hfirst.word.filled
    have := List.length_pos_iff.2 hsecond.word.filled
    refine ⟨(entryLine k v ++ entryLine l u).length - 6, ?_⟩
    simp only [entryLine, List.length_append, List.length_cons]
    omega
  unfold Token.ofText
  rw [hfuel, hrun, hrun']
  unfold Lexer.run
  simp only [hend]
  simp [← hs, Lexer.behindEntry, Lexer.entryTokens, Lexer.start]

/-! ## Nodes -/

/-- the node of a plain scalar without properties -/
def plainNode (text : Text) : Node := .scalar (Tag.ofPlain Timestamp.isSpelling text) text

/-- the document of two entries -/
def recordDocument (k v l u : Text) : Document :=
  ⟨0, #[.mapping .mapping 0, plainNode k, plainNode v, plainNode l, plainNode u], #[[(1, 2), (3, 4)]]⟩

namespace Read

variable {handles : List (Text × Text)} {anchors : List (Text × Nat)} {nodes : Array Node}
variable {lists : Array (List (Nat × Nat))} {rest : List Token}

theorem setIfInBounds_push (node node' : Node) : (nodes.push node).setIfInBounds nodes.size node' = nodes.push node' :=
  Array.ext' (by simp)

/-- a plain scalar is a node -/
theorem run_scalar (block flush : Bool) (fuel : Nat) (text : Text) :
    (node block flush (fuel + 1)).run ⟨.scalar text true :: rest, handles, anchors, nodes, lists⟩ =
      pure (nodes.size, ⟨rest, handles, anchors, nodes.push (plainNode text), lists⟩) := by
  unfold node
  simp [peek, properties, anchor?, tag?, reserve, skip, place, scalarTag, StateT.run_bind, setIfInBounds_push]
  rfl

/-- two plain scalars are an entry -/
theorem run_entry (fuel : Nat) (k v : Text) :
    (blockEntries (fuel + 2)).run
        ⟨.key :: .scalar k true :: .value :: .scalar v true :: rest, handles, anchors, nodes, lists⟩ =
      (((nodes.size, nodes.size + 1) :: ·) <$> blockEntries (fuel + 1)).run
        ⟨rest, handles, anchors, (nodes.push (plainNode k)).push (plainNode v), lists⟩ := by
  conv_lhs => unfold blockEntries
  simp [accept, sees, peek, skip, StateT.run_bind, run_scalar]

theorem run_blockEnd (fuel : Nat) :
    (blockEntries (fuel + 1)).run ⟨.blockEnd :: rest, handles, anchors, nodes, lists⟩ =
      pure ([], ⟨rest, handles, anchors, nodes, lists⟩) := by
  unfold blockEntries
  simp [accept, sees, peek, skip, StateT.run_bind, expect]

theorem run_record (fuel : Nat) (k v l u : Text) :
    (document (fuel + 5)).run
        ⟨[.blockMapping, .key, .scalar k true, .value, .scalar v true, .key, .scalar l true, .value, .scalar u true,
          .blockEnd], handles, anchors, #[], #[]⟩ =
      pure (some 0, ⟨[], usualHandles, anchors, (recordDocument k v l u).nodes, (recordDocument k v l u).lists⟩) := by
  unfold document node
  simp [peek, properties, anchor?, tag?, reserve, skip, place, StateT.run_bind, Read.mapping, run_entry, run_blockEnd]
  unfold endings
  simp [accept, sees, peek, collectionTag, isOpen, recordDocument]

end Read

theorem Document.ofText_lines (hfirst : IsEntry k v) (hsecond : IsEntry l u) :
    Document.ofText (entryLine k v ++ entryLine l u) none = .ok (some (recordDocument k v l u)) := by
  unfold Document.ofText
  rw [Token.ofText_lines hfirst hsecond]
  simp only [List.length_cons, List.length_nil]
  rw [Read.run_record 28]
  rfl

/-! ## Values -/

/-- a state in which the record is met, with the values of its keys and values so far, and what it holds -/
def recordFilling (k v l u : Text) (values : Array (Option Value)) (entries : Value) : Filling :=
  ⟨recordDocument k v l u, #[some (.shared 0)] ++ values, #[entries, .null, .null, .null, .null], []⟩

/-- what two entries hold -/
def recordContents (k v l u : Text) : Contents :=
  ⟨.shared 0, #[.record [(.text k, .text v), (.text l, .text u)], .null, .null, .null, .null]⟩

section

variable (hk : Tag.ofPlain Timestamp.isSpelling k = .text) (hv : Tag.ofPlain Timestamp.isSpelling v = .text)
variable (hl : Tag.ofPlain Timestamp.isSpelling l = .text) (hu : Tag.ofPlain Timestamp.isSpelling u = .text)
include hk hv hl hu

/-- all four scalars are texts -/
theorem recordDocument_eq : recordDocument k v l u =
    ⟨0, #[.mapping .mapping 0, .scalar .text k, .scalar .text v, .scalar .text l, .scalar .text u], #[[(1, 2), (3, 4)]]⟩ := by
  simp [recordDocument, plainNode, hk, hv, hl, hu]

/-- the entries are met one after the other; no key merges anything -/
theorem recordFilling_entries (hne : k ≠ l) :
    (recordFilling k v l u #[none, none, none, none] .null).meetEntries 0 =
      .ok (recordFilling k v l u #[some (.text k), some (.text v), some (.text l), some (.text u)] .null,
        [(.text k, .text v), (.text l, .text u)]) := by
  have hput : Value.put [(.text k, .text v)] (.text l) (.text u) = [(.text k, .text v), (.text l, .text u)] := by
    simp [Value.put, Value.same, hne]
  have hd := recordDocument_eq hk hv hl hu
  have hmerged : (recordDocument k v l u).merged 0 = .ok (recordDocument k v l u) := by
    rw [hd]
    rfl
  have hnode : (recordDocument k v l u).node 0 = .mapping .mapping 0 := rfl
  unfold Filling.meetEntries recordFilling
  simp only [hmerged, hnode, Except.bind]
  rw [← hput, hd]
  rfl

theorem recordDocument_contents (hne : k ≠ l) :
    (recordDocument k v l u).contents = .ok (recordContents k v l u) := by
  have hfill : (recordFilling k v l u #[none, none, none, none] .null).fill 0 =
      ((recordFilling k v l u #[none, none, none, none] .null).meetEntries 0).map
        fun r => r.1.hold 0 (.record r.2) := rfl
  have hcontents : (recordDocument k v l u).contents =
      (((recordFilling k v l u #[none, none, none, none] .null).fill 0).bind (Filling.fillAll 5)).map
        fun s => ⟨.shared 0, s.filled⟩ := by
    unfold Document.contents recordFilling
    rw [recordDocument_eq hk hv hl hu]
    rfl
  rw [hcontents, hfill, recordFilling_entries hk hv hl hu hne]
  rfl

end

/-- **Two lines of entries** are read as a record of two texts, if their keys differ and their characters are allowed. -/
theorem read_lines (hfirst : IsEntry k v) (hsecond : IsEntry l u) (hne : k ≠ l)
    (hallowed : ∀ c ∈ entryLine k v ++ entryLine l u, isAllowed c = true) :
    ∃ contents, read (entryLine k v ++ entryLine l u) = .ok contents ∧
      contents.resolve contents.root = .record [(.text k, .text v), (.text l, .text u)] := by
  refine ⟨recordContents k v l u, ?_, rfl⟩
  unfold read Source.read
  simp only [Source.ofText_of_allowed hallowed, Document.ofText_lines hfirst hsecond]
  exact recordDocument_contents hfirst.keyText hfirst.valueText hsecond.keyText hsecond.valueText hne

end Componentry.Yaml
