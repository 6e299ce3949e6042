/-
Why a YAML text cannot be read on.

Most texts that cannot be read on break a rule of the language. Apart from that there are two things that a text can hold
and that the language allows: an escape for a character beyond the last one, and a version with too many digits.
- `Quoted.read_error`, `Token.directive_error`: each where it is met.
- `ofText_unreadable`: every token that cannot be read comes from one of them, from a broken rule, or from what stops the
  text.
-/
import Componentry.Proofs.Numerals
import Componentry.Proofs.Yaml.Advancing

namespace Componentry

namespace Yaml

/-! ## Results -/

/-- a result as it is expected: a value of one kind, or a fault of another -/
def Ends {α : Type} (P : α → Prop) (E : Fault → Prop) : Except Fault α → Prop
  | .ok a => P a
  | .error f => E f

section

variable {α β : Type} {P : α → Prop} {Q : β → Prop} {E : Fault → Prop} {r : Except Fault α}

theorem Ends.bind (h : Ends P E r) {k : α → Except Fault β} (hk : ∀ a, P a → Ends Q E (k a)) : Ends Q E (r.bind k) := by
  cases r with
  | error f => exact h
  | ok a => exact hk a h

theorem Ends.map (h : Ends P E r) {k : α → β} (hk : ∀ a, P a → Q (k a)) : Ends Q E (r.map k) := by
  cases r with
  | error f => exact h
  | ok a => exact hk a h

theorem Ends.ite {p : Prop} [Decidable p] {r' : Except Fault α} (h : p → Ends P E r) (h' : Ends P E r') :
    Ends P E (if p then r else r') := by
  split_ifs with hp
  · exact h hp
  · exact h'

theorem Ends.mono (h : Ends P E r) {P' : α → Prop} {E' : Fault → Prop} (hP : ∀ a, P a → P' a) (hE : ∀ f, E f → E' f) :
    Ends P' E' r := by
  cases r with
  | error f => exact hE f h
  | ok a => exact hP a h

/-- step after step, with what every step keeps -/
theorem Ends.foldlM {xs : List β} {step : α → β → Except Fault α} {a : α} (ha : P a)
    (hstep : ∀ a x, P a → x ∈ xs → Ends P E (step a x)) : Ends P E (xs.foldlM step a) := by
  induction xs generalizing a with
  | nil => exact ha
  | cons x xs ih =>
    rw [List.foldlM_cons]
    exact (hstep a x ha List.mem_cons_self).bind fun a' ha' =>
      ih ha' fun b y hb hy => hstep b y hb (List.mem_cons_of_mem x hy)

end

/-- what keeps a text from being read on -/
inductive Blocks (t : Text) : Fault → Prop where
  | malformed : Blocks t .malformed
  | unfinished : Blocks t .unfinished
  | escape {digits : Text} (written : ['\\', 'U'] ++ digits <:+: t) (length : digits.length = 8)
      (hex : digits.all (Digit.isOf 16) = true) (beyond : 0x10FFFF < Digits.value 16 digits) :
    Blocks t (.noCharacter (Digits.value 16 digits))
  | version {numbers digits : Text} (written : "%YAML".toList ++ numbers ++ digits <:+: t)
      (numeric : ∀ c ∈ numbers, c = ' ' ∨ c = '.' ∨ Text.isDigit c = true) (decimal : digits.all Text.isDigit = true)
      (long : Token.digitLimit < digits.length) : Blocks t (.tooManyDigits digits.length)

theorem Blocks.mono {t u : Text} {f : Fault} (h : Blocks u f) (hu : u <:+: t) : Blocks t f := by
  cases h with
  | malformed => exact .malformed
  | unfinished => exact .unfinished
  | escape written length hex beyond => exact .escape (written.trans hu) length hex beyond
  | version written numeric decimal long => exact .version (written.trans hu) numeric decimal long

/-! ## Escapes -/

namespace Quoted

theorem character_error {code : Nat} {f : Fault} (h : character code = .error f) :
    0x10FFFF < code ∧ f = .noCharacter code := by
  unfold character at h
  split_ifs at h with hcode
  exact ⟨hcode, (Except.error.inj h).symm⟩

theorem codeLength?_some {c : Char} {n : Nat} (h : codeLength? c = some n) :
    c = 'x' ∧ n = 2 ∨ c = 'u' ∧ n = 4 ∨ c = 'U' ∧ n = 8 := by
  obtain ⟨before, after, hsplit, -⟩ := List.lookup_eq_some_iff.1 h
  have hmem : (c, n) ∈ [('x', 2), ('u', 4), ('U', 8)] := by simp [hsplit]
  simpa using hmem

/-- an escape that stands for no character is one of eight digits -/
theorem escape_error {t : Text} {f : Fault} (h : escape t = .error f) : Blocks ('\\' :: t) f := by
  unfold escape at h
  split at h
  · rw [← Except.error.inj h]
    exact .unfinished
  · rename_i c rest
    split at h
    · simp at h
    · rename_i n _ hlength
      simp only at h
      split_ifs at h with hhex hshort
      · rw [← Except.error.inj h]
        exact .malformed
      · rw [← Except.error.inj h]
        exact .unfinished
      · cases hc : character (Digits.value 16 (rest.take n)) with
        | ok d => simp [hc, Except.map] at h
        | error g =>
          rw [hc] at h
          rw [← Except.error.inj h]
          obtain ⟨hbeyond, rfl⟩ := character_error hc
          have hall : (rest.take n).all (Digit.isOf 16) = true := by simpa using hhex
          have hlen : (rest.take n).length = n := le_antisymm (List.length_take_le n rest) (not_lt.1 hshort)
          have hbound := Digits.value_lt hall
          rw [hlen] at hbound
          -- two or four digits do not get beyond the last character
          obtain ⟨rfl, rfl⟩ : c = 'U' ∧ n = 8 := by
            rcases codeLength?_some hlength with ⟨rfl, rfl⟩ | ⟨rfl, rfl⟩ | ⟨rfl, rfl⟩
            · omega
            · omega
            · exact ⟨rfl, rfl⟩
          refine .escape ?_ hlen hall hbeyond
          exact List.IsPrefix.isInfix ⟨rest.drop 8, by simp⟩
    · split at h
      · rw [← Except.error.inj h]
        exact .malformed
      · split at h
        · rw [← Except.error.inj h]
          exact .malformed
        · simp at h

theorem gap_error {t : Text} {f : Fault} (h : gap t = .error f) : f = .malformed := by
  unfold gap at h
  simp only at h
  split at h
  · simp at h
  · split at h
    · exact (Except.error.inj h).symm
    · simp at h

theorem piece_error {double : Bool} {t : Text} {f : Fault} (h : piece double t = .error f) : Blocks t f := by
  unfold piece at h
  split at h
  · rw [← Except.error.inj h]
    exact .unfinished
  · rename_i c rest
    split_ifs at h with _ _ _ hslash
    · cases hg : gap (c :: rest) with
      | ok q => simp [hg, Except.map] at h
      | error g =>
        rw [hg] at h
        rw [← Except.error.inj h, gap_error hg]
        exact .malformed
    · cases he : escape rest with
      | ok q => simp [he, Except.map] at h
      | error g =>
        rw [he] at h
        rw [← Except.error.inj h, hslash]
        exact escape_error he
    · split at h <;> simp at h

theorem pieces_error {double : Bool} {fuel : Nat} {t : Text} {f : Fault} (h : pieces double fuel t = .error f) :
    Blocks t f := by
  induction fuel generalizing t with
  | zero =>
    rw [← Except.error.inj h]
    exact .malformed
  | succ fuel ih =>
    unfold pieces at h
    split at h
    · rename_i hpiece
      rw [← Except.error.inj h]
      exact piece_error hpiece
    · simp at h
    · rename_i p rest hpiece
      have hrest : rest <:+ t := piece_suffix hpiece
      cases hp : pieces double fuel rest with
      | ok q => simp [hp, Except.map] at h
      | error g =>
        rw [hp] at h
        obtain rfl : g = f := Except.error.inj h
        exact (ih hp).mono hrest.isInfix

theorem read_error {double : Bool} {t : Text} {f : Fault} (h : read double t = .error f) : Blocks t f := pieces_error h

end Quoted

/-! ## Versions -/

namespace Token

theorem lineFault_cases (t : Text) : lineFault t = .malformed ∨ lineFault t = .unfinished := by
  unfold lineFault
  split_ifs
  · exact Or.inl rfl
  · exact Or.inr rfl

theorem Blocks.line (t u : Text) : Blocks t (lineFault u) := by
  rcases lineFault_cases u with h | h
  · rw [h]
    exact .malformed
  · rw [h]
    exact .unfinished

/-- a number that cannot be read breaks a rule, or has too many digits -/
theorem versionNumber_error {numbers t : Text} {f : Fault} (hn : ∀ c ∈ numbers, c = ' ' ∨ c = '.' ∨ Text.isDigit c = true)
    (h : versionNumber t = .error f) : Blocks ("%YAML".toList ++ numbers ++ t) f := by
  unfold versionNumber at h
  simp only at h
  split_ifs at h with hlong
  · rw [← Except.error.inj h]
    refine .version (List.IsPrefix.isInfix ?_) hn ?_ hlong
    · exact (List.prefix_append_right_inj _).2 (List.takeWhile_prefix _)
    · exact List.all_takeWhile
  · split at h
    · simp at h
    · rw [← Except.error.inj h]
      exact Blocks.line _ _

/-- what a number was read from -/
theorem versionNumber_digits {t : Text} {n : Nat} {rest : Text} (h : versionNumber t = .ok (n, rest)) :
    ∃ digits, t = digits ++ rest ∧ ∀ c ∈ digits, Text.isDigit c = true := by
  unfold versionNumber at h
  simp only at h
  split_ifs at h
  split at h
  · obtain ⟨-, rfl⟩ := Prod.mk.inj (Except.ok.inj h)
    exact ⟨t.takeWhile Text.isDigit, (List.prefix_iff_eq_append.1 (List.takeWhile_prefix _)).symm,
      List.all_eq_true.1 List.all_takeWhile⟩
  · simp at h

theorem versionNumbers_error {t : Text} {f : Fault} (h : versionNumbers t = .error f) :
    Blocks ("%YAML".toList ++ t) f := by
  have hspaces : t.takeWhile (· = ' ') ++ skipSpaces t = t := List.takeWhile_append_dropWhile
  have hspace : ∀ c ∈ t.takeWhile (· = ' '), c = ' ' ∨ c = '.' ∨ Text.isDigit c = true := by
    intro c hc
    have := List.all_eq_true.1 (List.all_takeWhile (l := t)) c hc
    exact Or.inl (by simpa using this)
  unfold versionNumbers at h
  cases hmajor : versionNumber (skipSpaces t) with
  | error g =>
    rw [hmajor] at h
    have hblocks := versionNumber_error hspace hmajor
    rw [List.append_assoc, hspaces] at hblocks
    rwa [← Except.error.inj h]
  | ok q =>
    obtain ⟨major, rest⟩ := q
    rw [hmajor] at h
    simp only [Except.bind] at h
    split at h
    · rename_i rest'
      cases hminor : versionNumber rest' with
      | error g =>
        rw [hminor] at h
        obtain ⟨digits, hdigits, hdecimal⟩ := versionNumber_digits hmajor
        have hnumbers : ∀ c ∈ t.takeWhile (· = ' ') ++ digits ++ ['.'], c = ' ' ∨ c = '.' ∨ Text.isDigit c = true := by
          intro c hc
          simp only [List.mem_append, List.mem_singleton] at hc
          rcases hc with (hc | hc) | hc
          · exact hspace c hc
          · exact Or.inr (Or.inr (hdecimal c hc))
          · exact Or.inr (Or.inl hc)
        have ht : t = t.takeWhile (· = ' ') ++ digits ++ ['.'] ++ rest' := by
          rw [List.append_assoc, List.append_assoc, List.singleton_append, ← hdigits, hspaces]
        have hblocks := versionNumber_error hnumbers hminor
        rw [List.append_assoc, ← ht] at hblocks
        rwa [← Except.error.inj h]
      | ok q =>
        rw [hminor] at h
        simp only at h
        split_ifs at h
        rw [← Except.error.inj h]
        exact Blocks.line _ _
    · rw [← Except.error.inj h]
      exact Blocks.line _ _

/-- a directive that cannot be read breaks a rule, or gives a version with too many digits -/
theorem directive_error {t : Text} {f : Fault} (h : directive t = .error f) : Blocks ('%' :: t) f := by
  unfold directive at h
  simp only at h
  split_ifs at h
  · rw [← Except.error.inj h]
    exact Blocks.line _ _
  · cases hm : directiveMeaning (t.takeWhile isNameChar) (t.drop (t.takeWhile isNameChar).length) with
    | error g =>
      rw [hm] at h
      rw [← Except.error.inj h]
      unfold directiveMeaning at hm
      split_ifs at hm with hname
      · have ht : "YAML".toList ++ t.drop (t.takeWhile isNameChar).length = t := by
          rw [← hname]
          exact List.prefix_iff_eq_append.1 (List.takeWhile_prefix _)
        have hblocks := versionNumbers_error hm
        rwa [show "%YAML".toList = '%' :: "YAML".toList from rfl, List.cons_append, ht] at hblocks
      · split at hm
        · simp at hm
        · rw [← Except.error.inj hm]
          exact Blocks.line _ _
    | ok q =>
      rw [hm] at h
      simp only [Except.bind] at h
      split at h
      · simp at h
      · rw [← Except.error.inj h]
        exact Blocks.line _ _

end Token

/-! ## Tokens -/

namespace Lexer

/-- a state on the way through a text: what is left is the end of it, and all tokens so far can be read -/
structure From (t : Text) (s : Lexer) : Prop where
  rest : s.rest <:+ t
  tokens : ∀ token ∈ s.tokens, token.IsReadable

/-- what comes of a step on the way through a text: a state on the way, or something that the text explains -/
abbrev Sound (t : Text) : Except Fault Lexer → Prop := Ends (From t) (Blocks t)

/-- a step that neither reads anything nor finds a token -/
abbrev Idle (s : Lexer) : Except Fault Lexer → Prop :=
  Ends (fun s' => s'.rest = s.rest ∧ s'.tokens = s.tokens) (· = .malformed)

variable {t : Text} {s : Lexer}

theorem From.start (t : Text) : From t (.start t) := ⟨List.suffix_refl t, by simp [Lexer.start]⟩

theorem From.idle (h : From t s) {s' : Lexer} (hrest : s'.rest = s.rest) (htokens : s'.tokens = s.tokens) : From t s' :=
  ⟨hrest ▸ h.rest, htokens ▸ h.tokens⟩

theorem From.goTo (h : From t s) {rest : Text} (hrest : rest <:+ s.rest) : From t (s.goTo rest) :=
  ⟨hrest.trans h.rest, h.tokens⟩

theorem From.emit (h : From t s) {token : Token} (htoken : token.IsReadable) : From t (s.emit token) := by
  refine ⟨h.rest, fun k hk => ?_⟩
  cases List.mem_cons.1 hk with
  | inl heq => exact heq ▸ htoken
  | inr hk => exact h.tokens k hk

theorem From.advance (h : From t s) (length : Nat) {token : Token} (htoken : token.IsReadable) :
    From t (s.advance length token) :=
  (h.goTo (List.drop_suffix length s.rest)).emit htoken

theorem From.insertTokens (h : From t s) (number : Nat) {tokens : List Token} (htokens : ∀ k ∈ tokens, k.IsReadable) :
    From t (s.insertTokens number tokens) := by
  refine ⟨h.rest, fun k hk => ?_⟩
  simp only [Lexer.insertTokens, List.mem_append, List.mem_reverse] at hk
  rcases hk with (hk | hk) | hk
  · exact h.tokens k (List.mem_of_mem_take hk)
  · exact htokens k hk
  · exact h.tokens k (List.mem_of_mem_drop hk)

theorem Idle.sound {r : Except Fault Lexer} (hr : Idle s r) (h : From t s) : Sound t r :=
  Ends.mono hr (fun _ hs => h.idle hs.1 hs.2) fun f hf => (show f = .malformed from hf) ▸ .malformed

theorem dropStale_idle (s : Lexer) : Idle s s.dropStale := by
  unfold dropStale
  simp only
  split_ifs
  · rfl
  · exact ⟨rfl, rfl⟩

theorem dropMark_idle (s : Lexer) : Idle s s.dropMark := by
  unfold dropMark
  split_ifs
  · rfl
  · exact ⟨rfl, rfl⟩

theorem setMark_idle (s : Lexer) : Idle s s.setMark := by
  unfold setMark
  split_ifs
  · exact (dropMark_idle s).map fun _ hs => hs
  · exact ⟨rfl, rfl⟩

theorem endBlocks_rest (s : Lexer) (column : Int) : (s.endBlocks column).rest = s.rest := by
  unfold endBlocks
  split_ifs <;> rfl

theorem From.endBlocks (h : From t s) (column : Int) : From t (s.endBlocks column) := by
  refine ⟨(endBlocks_rest s column).symm ▸ h.rest, fun k hk => ?_⟩
  unfold Lexer.endBlocks at hk
  split_ifs at hk
  · exact h.tokens k hk
  · simp only [List.mem_append, List.mem_replicate] at hk
    rcases hk with ⟨-, rfl⟩ | hk
    · simp [Token.IsReadable]
    · exact h.tokens k hk

theorem From.skipBlank (h : From t s) (fuel : Nat) : From t (s.skipBlank fuel) := by
  induction fuel generalizing s with
  | zero => exact h
  | succ fuel ih =>
    have hcomment := (comment_suffix (skipSpaces s.rest)).trans (skipSpaces_suffix s.rest)
    unfold Lexer.skipBlank
    simp only
    split
    · exact h.goTo hcomment
    · rename_i hbreak
      exact ih ((h.goTo ((lineBreak?_suffix hbreak).trans hcomment)).idle rfl rfl)

theorem From.toNext (h : From t s) : From t s.toNext := by
  unfold Lexer.toNext
  split
  · rename_i c rest hs
    simp only
    split_ifs
    · exact (h.goTo (hs ▸ List.suffix_cons c rest)).skipBlank _
    · exact h.skipBlank _
  · exact h

/-! Each kind of token, in the order in which they are looked for. -/

theorem atDocument_sound (h : From t s) {read : Lexer → Except Fault Lexer}
    (hread : ∀ s', s'.rest = s.rest → From t s' → Sound t (read s')) : Sound t (s.atDocument read) := by
  have hidle := dropMark_idle (s.endBlocks (-1))
  have hsound := hidle.sound (h.endBlocks (-1))
  unfold atDocument
  cases hd : (s.endBlocks (-1)).dropMark with
  | error f => rwa [hd] at hsound
  | ok s' =>
    rw [hd] at hidle hsound
    exact hread _ (hidle.1.trans (endBlocks_rest s (-1))) (From.idle hsound rfl rfl)

theorem directive_sound (h : From t s) {after : Text} (hs : s.rest = '%' :: after) : Sound t s.directive := by
  unfold Lexer.directive
  rw [hs, List.drop_one, List.tail_cons]
  cases hd : Token.directive after with
  | error f => exact (Token.directive_error hd).mono (hs ▸ h.rest).isInfix
  | ok r =>
    obtain ⟨hafter, hreadable⟩ := Token.directive_suffix hd
    exact (h.goTo (hs ▸ hafter.trans (List.suffix_cons '%' after))).emit hreadable

theorem openFlow_sound (h : From t s) {token : Token} (htoken : token.IsReadable) : Sound t (s.openFlow token) :=
  ((setMark_idle s).sound h).map fun _ hs => (hs.advance 1 htoken).idle rfl rfl

theorem closeFlow_sound (h : From t s) {token : Token} (htoken : token.IsReadable) : Sound t (s.closeFlow token) := by
  unfold closeFlow
  split
  · exact .malformed
  · exact (h.advance 1 htoken).idle rfl rfl

theorem separator_sound (h : From t s) : Sound t s.separator :=
  ((dropMark_idle s).sound h).map fun _ hs => (hs.advance 1 (by simp [Token.IsReadable])).idle rfl rfl

theorem blockSign_sound (h : From t s) {start : Token} (hstart : start.IsReadable) : Sound t (s.blockSign start) := by
  unfold blockSign
  split_ifs
  · exact .malformed
  · exact (h.idle rfl rfl : From t (s.indented s.column)).emit hstart
  · exact h

theorem entry_sound (h : From t s) : Sound t s.entry :=
  (blockSign_sound h (by simp [Token.IsReadable])).bind fun s hs =>
    ((dropMark_idle s).sound hs).map fun _ hs => (hs.advance 1 (by simp [Token.IsReadable])).idle rfl rfl

theorem explicitKey_sound (h : From t s) : Sound t s.explicitKey :=
  (blockSign_sound h (by simp [Token.IsReadable])).bind fun s hs =>
    ((dropMark_idle s).sound hs).map fun _ hs => (hs.advance 1 (by simp [Token.IsReadable])).idle rfl rfl

theorem value_sound (h : From t s) : Sound t s.value := by
  have hvalue : Token.IsReadable .value := by simp [Token.IsReadable]
  have hin : ∀ column, From t (s.indented column) := fun _ => h.idle rfl rfl
  unfold Lexer.value
  split
  · simp only
    split_ifs
    · exact (((hin _).insertTokens _ (by simp [Token.IsReadable])).advance 1 hvalue).idle rfl rfl
    · exact ((h.insertTokens _ (by simp [Token.IsReadable])).advance 1 hvalue).idle rfl rfl
  · exact (blockSign_sound h (by simp [Token.IsReadable])).map fun _ hs => (hs.advance 1 hvalue).idle rfl rfl

theorem markable_sound (h : From t s) {read : Lexer → Except Fault Lexer} (hread : ∀ s, From t s → Sound t (read s)) :
    Sound t (s.markable read) :=
  ((setMark_idle s).sound h).bind fun _ hs => hread _ (hs.idle rfl rfl)

theorem wordFault_blocks (t u : Text) : Blocks t (Token.wordFault u) := by
  unfold Token.wordFault
  split_ifs
  · exact .malformed
  · exact .unfinished

theorem name_sound (h : From t s) {token : Text → Token} (htoken : ∀ n, (token n).IsReadable) :
    Sound t (s.name token) := by
  unfold Lexer.name
  split
  · exact wordFault_blocks _ _
  · rename_i hname
    exact (h.goTo ((Token.name?_suffix hname).trans (List.drop_suffix 1 s.rest))).emit (htoken _)

theorem tag_sound (h : From t s) : Sound t s.tag := by
  unfold Lexer.tag
  split
  · exact wordFault_blocks _ _
  · rename_i htag
    obtain ⟨hrest, hreadable⟩ := Token.tag?_suffix htag
    exact (h.goTo (hrest.trans (List.drop_suffix 1 s.rest))).emit hreadable

theorem block_sound (h : From t s) (folded : Bool) : Sound t (s.block folded) := by
  refine ((dropMark_idle s).sound h).bind fun s hs => ?_
  split
  · exact .malformed
  · rename_i hblock
    have hrest := (Block.read?_suffix hblock).trans (List.drop_suffix 1 s.rest)
    exact ((hs.goTo hrest).emit (by simp [Token.IsReadable])).idle rfl rfl

theorem quoted_sound (h : From t s) (double : Bool) : Sound t (s.quoted double) := by
  have hrest := List.drop_suffix 1 s.rest
  unfold Lexer.quoted
  cases hq : Quoted.read double (s.rest.drop 1) with
  | error f => exact (Quoted.read_error hq).mono (hrest.trans h.rest).isInfix
  | ok r => exact (h.goTo ((Quoted.pieces_suffix hq).trans hrest)).emit (by simp [Token.IsReadable])

theorem plain_sound (h : From t s) : Sound t s.plain :=
  ((h.goTo (Plain.read_suffix s.inFlow (s.indent + 1) s.rest)).emit (by simp [Token.IsReadable])).idle rfl rfl

theorem token_sound (h : From t s) {c : Char} {after : Text} (hs : s.rest = c :: after) : Sound t (s.token c after) := by
  have hpercent : ∀ s' : Lexer, s'.rest = s.rest → c = '%' → s'.rest = '%' :: after := by
    intro s' hrest hc
    rw [hrest, hs, hc]
  unfold Lexer.token
  refine .ite (fun hc => atDocument_sound h fun s' hrest hs' => directive_sound hs' (hpercent s' hrest hc.1)) <|
    .ite (fun _ => atDocument_sound h fun s' _ hs' => hs'.advance 3 ?_) <|
    .ite (fun _ => openFlow_sound h (by simp [Token.IsReadable])) <|
    .ite (fun _ => openFlow_sound h (by simp [Token.IsReadable])) <|
    .ite (fun _ => closeFlow_sound h (by simp [Token.IsReadable])) <|
    .ite (fun _ => closeFlow_sound h (by simp [Token.IsReadable])) <|
    .ite (fun _ => separator_sound h) <|
    .ite (fun _ => entry_sound h) <|
    .ite (fun _ => explicitKey_sound h) <|
    .ite (fun _ => value_sound h) <|
    .ite (fun _ => markable_sound h fun _ hs => name_sound hs (by simp [Token.IsReadable])) <|
    .ite (fun _ => markable_sound h fun _ hs => name_sound hs (by simp [Token.IsReadable])) <|
    .ite (fun _ => markable_sound h fun _ hs => tag_sound hs) <|
    .ite (fun _ => block_sound h false) <|
    .ite (fun _ => block_sound h true) <|
    .ite (fun _ => markable_sound h fun _ hs => quoted_sound hs false) <|
    .ite (fun _ => markable_sound h fun _ hs => quoted_sound hs true) <|
    .ite (fun _ => markable_sound h fun _ hs => plain_sound hs) Blocks.malformed
  split_ifs <;> simp [Token.IsReadable]

theorem fst_map {r : Except Fault Lexer} {b : Bool} : (r.map fun s => (s, b)).map (·.1) = r := by
  cases r <;> rfl

/-- the state after the next token, whether there is one or not -/
theorem next_sound (h : From t s) : Sound t (s.next.map (·.1)) := by
  have hstale := (dropStale_idle s.toNext).sound h.toNext
  unfold Lexer.next
  cases hd : s.toNext.dropStale with
  | error f => rwa [hd] at hstale
  | ok s' =>
    rw [hd] at hstale
    have hs' : From t (s'.endBlocks s'.column) := From.endBlocks hstale _
    simp only [Except.bind]
    split
    · rw [fst_map]
      exact (dropMark_idle _).sound (hs'.endBlocks (-1))
    · rename_i hrest
      rw [fst_map]
      exact token_sound hs' hrest

/-- a token that cannot be read is left where the text explains it, or where the text stops -/
theorem blocked_unreadable (h : From t s) {f g : Fault} (hg : .unreadable g ∈ s.blocked f) : g = f := by
  simp only [blocked, Lexer.insertTokens, List.mem_reverse, List.mem_append, List.mem_reverse, List.mem_singleton] at hg
  rcases hg with (hg | hg) | hg
  · exact absurd rfl (h.tokens _ (List.mem_of_mem_take hg) g)
  · exact Token.unreadable.inj hg
  · exact absurd rfl (h.tokens _ (List.mem_of_mem_drop hg) g)

theorem run_unreadable {stop : Option Fault} {fuel : Nat} (h : From t s) {f : Fault}
    (hf : .unreadable f ∈ run stop fuel s) : stop = some f ∨ Blocks t f ∧ f ≠ .unfinished := by
  have hend : ∀ {s : Lexer}, From t s → .unreadable f ∉ s.tokens.reverse := by
    intro s hs hmem
    exact hs.tokens _ (List.mem_reverse.1 hmem) f rfl
  induction fuel generalizing s with
  | zero => exact absurd hf (hend h)
  | succ fuel ih =>
    have hnext := next_sound h
    unfold Lexer.run at hf
    split at hf
    · exact Or.inl (by rw [blocked_unreadable h hf])
    · rw [blocked_unreadable h hf]
      exact Or.inr ⟨.malformed, by simp⟩
    · rename_i stop _ _ g heq hstopped hunstopped
      rw [heq] at hnext
      rw [blocked_unreadable h hf]
      refine Or.inr ⟨hnext, ?_⟩
      cases stop with
      | none => exact hunstopped rfl
      | some f' => exact hstopped f' rfl
    · rename_i next b g heq
      rw [heq] at hnext
      split_ifs at hf
      · exact Or.inl (by rw [blocked_unreadable h hf])
      · exact ih hnext hf
    · rename_i next heq
      rw [heq] at hnext
      exact ih hnext hf
    · rename_i next heq
      rw [heq] at hnext
      exact absurd hf (hend hnext)

end Lexer

/-- **Tokens that cannot be read** come from what stops the text, or from something in it that the text explains. -/
theorem Token.ofText_unreadable {t : Text} {stop : Option Fault} {f : Fault}
    (h : .unreadable f ∈ Token.ofText t stop) : stop = some f ∨ Blocks t f ∧ f ≠ .unfinished :=
  Lexer.run_unreadable (.start t) h

end Yaml

end Componentry
