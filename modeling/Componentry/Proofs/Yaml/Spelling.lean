/-
Which scalars have no value of the kind that their spelling shows.

The spelling of a plain scalar shows its kind, and nearly always a value of that kind can be read from it.
- `Lacks`: what is left: a date or time that does not exist, underscores in the place of all digits, a number with too
  many digits, a decimal with too many sixtieths, and the signs that stand for no value at all.
- `whole_error`, `decimal_error`: the two kinds of numbers.
- `value_ofPlain_error`: all kinds.
-/
import Componentry.Proofs.Numerals
import Componentry.Proofs.Text.Pieces
import Componentry.Yaml.Value.Scalar

namespace Componentry

/-! ## Texts -/

namespace Text

/-- the lower case of a text in ASCII goes character by character -/
theorem lower_of_forall {t : Text} (h : ∀ c ∈ t, c.toNat < 128) : lower t = t.map Char.toLower := by
  have hafter : ∀ before, lowerAfter before t = t.map Char.toLower := by
    induction t with
    | nil => exact fun _ => rfl
    | cons c t ih =>
      intro before
      rw [lowerAfter, lowerChar, if_pos (h c List.mem_cons_self), ih fun d hd => h d (List.mem_cons_of_mem c hd)]
      rfl
  exact hafter []

theorem length_splitAt (sep : Char) (t : Text) : (splitAt sep t).length = t.count sep + 1 := by
  induction t with
  | nil => rfl
  | cons c t ih =>
    by_cases hc : c = sep
    · rw [hc, splitAt_cons_self, List.length_cons, ih, List.count_cons_self]
    · obtain ⟨first, pieces, hrest, hsplit⟩ := splitAt_cons hc t
      rw [hrest] at ih
      rw [hsplit, List.count_cons_of_ne hc, ← ih, List.length_cons, List.length_cons]

end Text

namespace Yaml.Scalar

theorem exists_of_mapM_error {ε α β : Type} {f : α → Except ε β} {xs : List α} {e : ε} (h : xs.mapM f = .error e) :
    ∃ x ∈ xs, f x = .error e := by
  induction xs with
  | nil => simp [pure, Except.pure] at h
  | cons x xs ih =>
    rw [List.mapM_cons] at h
    cases hx : f x with
    | error e' =>
      rw [hx] at h
      obtain rfl : e' = e := Except.error.inj h
      exact ⟨x, List.mem_cons_self, hx⟩
    | ok y =>
      cases hxs : xs.mapM f with
      | error e' =>
        rw [hx, hxs] at h
        obtain rfl : e' = e := Except.error.inj h
        obtain ⟨z, hz, hfz⟩ := ih hxs
        exact ⟨z, List.mem_cons_of_mem x hz, hfz⟩
      | ok ys =>
        rw [hx, hxs] at h
        simp [bind, Except.bind, pure, Except.pure] at h

theorem length_of_mapM {ε α β : Type} {f : α → Except ε β} {xs : List α} {ys : List β} (h : xs.mapM f = .ok ys) :
    ys.length = xs.length := by
  induction xs generalizing ys with
  | nil => rw [← Except.ok.inj h]; rfl
  | cons x xs ih =>
    rw [List.mapM_cons] at h
    cases hx : f x with
    | error e => simp [hx, bind, Except.bind] at h
    | ok y =>
      cases hxs : xs.mapM f with
      | error e => simp [hx, hxs, bind, Except.bind] at h
      | ok zs =>
        rw [hx, hxs] at h
        rw [← Except.ok.inj h, List.length_cons, List.length_cons, ih hxs]

/-! ## Underscores and signs -/

theorem mem_compact {c : Char} {t : Text} : c ∈ compact t ↔ c ∈ t ∧ c ≠ '_' := by simp [compact]

theorem compact_cons {c : Char} (hc : c ≠ '_') (t : Text) : compact (c :: t) = c :: compact t := by
  simp [compact, hc]

theorem compact_append (t u : Text) : compact (t ++ u) = compact t ++ compact u := List.filter_append ..

theorem compact_sublist (t : Text) : (compact t).Sublist t := List.filter_sublist

theorem splitAt_compact (t : Text) : Text.splitAt ':' (compact t) = (Text.splitAt ':' t).map compact := by
  induction t with
  | nil => rfl
  | cons c t ih =>
    by_cases hc : c = ':'
    · rw [hc, compact_cons (by decide), Text.splitAt_cons_self, Text.splitAt_cons_self, ih]
      rfl
    · obtain ⟨first, pieces, hrest, hsplit⟩ := Text.splitAt_cons hc t
      rw [hrest] at ih
      rw [hsplit]
      by_cases hunder : c = '_'
      · rw [hunder]
        simpa [compact] using ih
      · obtain ⟨first', pieces', hrest', hsplit'⟩ := Text.splitAt_cons hc (compact t)
        rw [hrest', List.map_cons] at ih
        rw [compact_cons hunder, hsplit', (List.cons.inj ih).1, (List.cons.inj ih).2, List.map_cons, compact_cons hunder]

/-- a digit in front of digits and underscores -/
theorem compact_of_isDigits {t : Text} (h : Tag.isDigits t = true) :
    compact t ≠ [] ∧ ∀ c ∈ compact t, Text.isDigit c = true := by
  obtain ⟨hhead, hall⟩ := Bool.and_eq_true_iff.1 h
  cases t with
  | nil => simp at hhead
  | cons c t =>
    have hc : Text.isDigit c = true := hhead
    refine ⟨?_, fun d hd => ?_⟩
    · rw [compact_cons (by rintro rfl; exact absurd hc (by decide))]
      simp
    · obtain ⟨hmem, hne⟩ := mem_compact.1 hd
      have := List.all_eq_true.1 hall d hmem
      simpa [hne] using this

theorem isDigits_of_isSixtieth {t : Text} (h : Tag.isSixtieth t = true) : Tag.isDigits t = true := by
  unfold Tag.isSixtieth at h
  split at h
  · rename_i c
    simp [Tag.isDigits, Tag.isSpaced, h]
  · rename_i c d
    simp only [Bool.and_eq_true, decide_eq_true_eq] at h
    obtain ⟨⟨hleast, hmost⟩, hd⟩ := h
    have hc : Text.isDigit c = true := by
      simp only [Text.isDigit, Bool.and_eq_true, decide_eq_true_eq]
      exact ⟨hleast, Char.le_trans hmost (by decide)⟩
    simp [Tag.isDigits, Tag.isSpaced, hc, hd]
  · simp at h

/-! ## Whole numbers -/

/-- what keeps a scalar from having the value that its spelling shows -/
inductive Lacks (t : Text) : Fault → Prop where
  | time {s : Timestamp} {why : TimeFault} (spells : Timestamp.read? t = some s) (wrong : s.fault? = some why) :
    Lacks t (.time why)
  | blank {base : Nat} {mark : Char} {rest : Text} (announced : Digits.mark? base = some mark)
      (spells : Tag.unsigned t = '0' :: mark :: rest) (only : ∀ c ∈ rest, c = '_') : Lacks t (.noWhole base [])
  | long {digits : Text} (within : digits.Sublist t) (decimal : ∀ c ∈ digits, Text.isDigit c = true)
      (long : digitLimit < digits.length) : Lacks t (.tooManyDigits digits.length)
  | sixtieths {places : Nat} (within : places ≤ t.count ':') (beyond : Binary64.ofNat? (60 ^ places) = none) :
    Lacks t .tooManySixtieths
  | sign (sign : t ∈ ["<<", "=", "!", "&", "*"].map String.toList) : Lacks t .malformed

theorem unsigned_sublist (t : Text) : (Tag.unsigned t).Sublist t := by
  unfold Tag.unsigned Digits.signed
  split
  · exact List.sublist_cons_self _ _
  · exact List.sublist_cons_self _ _
  · exact List.Sublist.refl t

/-- digits of a base are no number if there are none, or too many decimal ones -/
theorem wholeIn_error {base : Nat} (hbase : base ≤ 16) {t : Text} (hall : ∀ c ∈ t, Digit.isOf base c = true) {f : Fault}
    (h : wholeIn base t = .error f) :
    t = [] ∧ f = .noWhole base [] ∨ base = 10 ∧ digitLimit < t.length ∧ f = .tooManyDigits t.length := by
  have hdigits := List.all_eq_true.2 hall
  simp only [wholeIn, Digits.run_of_all hbase hdigits] at h
  split_ifs at h with hlong
  · exact Or.inr ⟨hlong.1, hlong.2, (Except.error.inj h).symm⟩
  · cases t with
    | nil => exact Or.inl ⟨rfl, (Except.error.inj h).symm⟩
    | cons c t => simp [Digits.Run.whole?] at h

theorem splitAt_cases {sep : Char} {t : Text} (h : t.contains sep = false) : Text.splitAt sep t = [t] :=
  Text.splitAt_of_notMem (by simpa using h)

/-- digits in parts of sixtieths are a number unless there are too many in one part -/
theorem decimals_error {t : Text} (hne : ∀ c, t.head? = some c → c ≠ '0')
    (hparts : ∀ part ∈ Text.splitAt ':' t, part ≠ [] ∧ ∀ c ∈ part, Text.isDigit c = true) {f : Fault}
    (h : unsignedWhole t = .error f) :
    ∃ part ∈ Text.splitAt ':' t, digitLimit < part.length ∧ f = .tooManyDigits part.length := by
  have hpart : ∃ part ∈ Text.splitAt ':' t, wholeIn 10 part = .error f := by
    unfold unsignedWhole at h
    split at h
    · exact absurd rfl (hparts [] (by simp [Text.splitAt])).1
    · exact absurd rfl (hne '0' rfl)
    · exact absurd rfl (hne '0' rfl)
    · exact absurd rfl (hne '0' rfl)
    · exact absurd rfl (hne '0' rfl)
    · split_ifs at h with hcolon
      · refine exists_of_mapM_error ?_
        cases hm : (Text.splitAt ':' t).mapM (wholeIn 10) with
        | ok ns => simp [hm, Functor.map, Except.map] at h
        | error g =>
          rw [hm] at h
          rw [← Except.error.inj h]
      · rw [splitAt_cases (by simpa using hcolon)]
        exact ⟨t, List.mem_singleton_self t, h⟩
  obtain ⟨part, hmem, herror⟩ := hpart
  obtain ⟨hsome, hdigits⟩ := hparts part hmem
  rcases wholeIn_error (by decide) (fun c hc => Digit.isOf_ten (hdigits c hc)) herror with ⟨hnil, -⟩ | ⟨-, hlong, rfl⟩
  · exact absurd hnil hsome
  · exact ⟨part, hmem, hlong, rfl⟩

/-- what a spelled number begins with, after its sign -/
def Opens (t : Text) : Prop := ∃ c rest, Tag.unsigned t = c :: rest ∧ (Text.isDigit c = true ∨ c = '.')

theorem ne_of_opening {c : Char} (h : Text.isDigit c = true ∨ c = '.') : c ≠ '_' ∧ c ≠ '-' ∧ c ≠ '+' := by
  rcases h with h | rfl
  · refine ⟨?_, ?_, ?_⟩ <;> (rintro rfl; exact absurd h (by decide))
  · decide

theorem signed_cases (t : Text) :
    (∃ u, t = '-' :: u) ∨ (∃ u, t = '+' :: u) ∨ ∀ c, t.head? = some c → c ≠ '-' ∧ c ≠ '+' := by
  cases t with
  | nil => exact Or.inr (Or.inr (by simp))
  | cons c u =>
    by_cases hminus : c = '-'
    · exact Or.inl ⟨u, by rw [hminus]⟩
    · by_cases hplus : c = '+'
      · exact Or.inr (Or.inl ⟨u, by rw [hplus]⟩)
      · exact Or.inr (Or.inr fun d hd => Option.some.inj hd ▸ ⟨hminus, hplus⟩)

/-- underscores do not hide a sign -/
theorem signed_compact {t : Text} (h : Opens t) :
    Digits.signed (compact t) = ((Digits.signed t).1, compact (Tag.unsigned t)) := by
  obtain ⟨c, rest, hu, hc⟩ := h
  rcases signed_cases t with ⟨u, rfl⟩ | ⟨u, rfl⟩ | hnone
  · rw [compact_cons (by decide)]
    rfl
  · rw [compact_cons (by decide)]
    rfl
  · obtain ⟨hunder, hminus, hplus⟩ := ne_of_opening hc
    rw [Tag.unsigned, Digits.signed_of_head hnone] at hu ⊢
    obtain rfl : t = c :: rest := hu
    refine Digits.signed_of_head fun d hd => ?_
    rw [compact_cons hunder] at hd
    rw [← Option.some.inj hd]
    exact ⟨hminus, hplus⟩

theorem compact_ne_nil {t : Text} (h : Opens t) : compact t ≠ [] ∧ compact (Tag.unsigned t) ≠ [] := by
  have hsigned := signed_compact h
  obtain ⟨c, rest, hu, hc⟩ := h
  have hne : compact (Tag.unsigned t) ≠ [] := by
    rw [hu, compact_cons (ne_of_opening hc).1]
    simp
  refine ⟨fun hnil => hne ?_, hne⟩
  rw [hnil] at hsigned
  exact (Prod.mk.inj hsigned).2.symm

/-- a text begins as its first piece does -/
theorem exists_opening {t first : Text} {pieces : List Text} (hsplit : Text.splitAt ':' t = first :: pieces)
    (hfirst : Tag.isDigits first = true) :
    ∃ c rest, Text.isDigit c = true ∧ first.head? = some c ∧ t = c :: rest := by
  cases first with
  | nil => simp [Tag.isDigits] at hfirst
  | cons c more =>
    have hc : Text.isDigit c = true := (Bool.and_eq_true_iff.1 hfirst).1
    rcases Text.splitAt_eq_cons hsplit with ⟨rfl, -⟩ | ⟨rest, rfl, -⟩
    · exact ⟨c, more, hc, rfl, rfl⟩
    · exact ⟨c, more ++ ':' :: rest, hc, rfl, rfl⟩

theorem opens_of_isDigits {t first : Text} {pieces : List Text}
    (hsplit : Text.splitAt ':' (Tag.unsigned t) = first :: pieces) (hfirst : Tag.isDigits first = true) : Opens t := by
  obtain ⟨c, rest, hc, -, hu⟩ := exists_opening hsplit hfirst
  exact ⟨c, rest, hu, Or.inl hc⟩

/-- a number in an announced base lacks digits if it has only underscores -/
theorem announced_error {t rest : Text} (base : Nat) {mark : Char} (hbase : base ≤ 16 ∧ base ≠ 10)
    (hmark : Digits.mark? base = some mark) (hu : Tag.unsigned t = '0' :: mark :: rest)
    (hall : ∀ c ∈ rest, Digit.isOf base c = true ∨ c = '_') {f : Fault} (he : wholeIn base (compact rest) = .error f) :
    Lacks t f := by
  have hdigits : ∀ c ∈ compact rest, Digit.isOf base c = true := by
    intro c hc
    obtain ⟨hmem, hne⟩ := mem_compact.1 hc
    exact (hall c hmem).resolve_right hne
  rcases wholeIn_error hbase.1 hdigits he with ⟨hnil, rfl⟩ | ⟨hten, -⟩
  · refine .blank hmark hu fun c hc => ?_
    by_contra hne
    exact List.not_mem_nil (hnil ▸ mem_compact.2 ⟨hc, hne⟩)
  · exact absurd hten hbase.2

/-- octal digits are always a number -/
theorem octal_ok {rest : Text} (hall : ∀ c ∈ rest, Digit.isOf 8 c = true) (f : Fault) :
    unsignedWhole ('0' :: rest) ≠ .error f := by
  intro he
  have hzero : ∀ c ∈ '0' :: rest, Digit.isOf 8 c = true := List.forall_mem_cons.2 ⟨by decide, hall⟩
  unfold unsignedWhole at he
  split at he
  · simp_all
  · simp at he
  · rename_i heq
    obtain ⟨-, rfl⟩ := List.cons.inj heq
    exact absurd (hall 'b' List.mem_cons_self) (by decide)
  · rename_i heq
    obtain ⟨-, rfl⟩ := List.cons.inj heq
    exact absurd (hall 'x' List.mem_cons_self) (by decide)
  · rcases wholeIn_error (by decide) hzero he with ⟨hnil, -⟩ | ⟨hten, -⟩
    · simp at hnil
    · exact absurd hten (by decide)
  · rename_i hother
    exact hother rest rfl

/-- a spelled whole number without its sign is a number, with these exceptions -/
theorem unsignedWhole_error {t : Text} (h : Tag.isWhole t = true) {f : Fault}
    (he : unsignedWhole (compact (Tag.unsigned t)) = .error f) : Lacks t f := by
  unfold Tag.isWhole at h
  split at h
  · rename_i rest hu
    simp only [Bool.and_eq_true, List.all_eq_true, Bool.or_eq_true, decide_eq_true_eq] at h
    rw [hu, compact_cons (by decide), compact_cons (by decide)] at he
    refine announced_error 2 (by decide) rfl hu (fun c hc => ?_) he
    rcases h.2 c hc with (rfl | rfl) | rfl <;> decide
  · rename_i rest hu
    simp only [Bool.and_eq_true, Tag.isSpaced, List.all_eq_true, Bool.or_eq_true, decide_eq_true_eq] at h
    rw [hu, compact_cons (by decide), compact_cons (by decide)] at he
    exact announced_error 16 (by decide) rfl hu h.2 he
  · rename_i rest _ _ hu
    simp only [Tag.isSpaced, List.all_eq_true, Bool.or_eq_true, decide_eq_true_eq] at h
    rw [hu, compact_cons (by decide)] at he
    refine absurd he (octal_ok (fun c hc => ?_) f)
    obtain ⟨hmem, hne⟩ := mem_compact.1 hc
    exact (h c hmem).resolve_right hne
  · split at h
    · rename_i first parts hsplit
      simp only [Bool.and_eq_true, List.all_eq_true] at h
      obtain ⟨⟨hhead, hfirst⟩, hparts⟩ := h
      have hpieces : ∀ part ∈ Text.splitAt ':' (compact (Tag.unsigned t)), part ≠ [] ∧
          ∀ c ∈ part, Text.isDigit c = true := by
        intro part hpart
        rw [splitAt_compact, hsplit] at hpart
        obtain ⟨piece, hpiece, rfl⟩ := List.mem_map.1 hpart
        refine compact_of_isDigits ?_
        rcases List.mem_cons.1 hpiece with rfl | hpiece
        · exact hfirst
        · exact isDigits_of_isSixtieth (hparts piece hpiece)
      have hne : ∀ c, (compact (Tag.unsigned t)).head? = some c → c ≠ '0' := by
        intro c hc
        obtain ⟨d, rest, hd, hfirst', hu⟩ := exists_opening hsplit hfirst
        rw [hu, compact_cons (ne_of_opening (Or.inl hd)).1] at hc
        rw [← Option.some.inj hc]
        simpa [hfirst'] using hhead
      obtain ⟨part, hmem, hlong, rfl⟩ := decimals_error hne hpieces he
      exact .long ((Text.mem_splitAt hmem).1.trans ((compact_sublist _).trans (unsigned_sublist t)))
        (hpieces part hmem).2 hlong
    · simp at h

theorem opens_of_isWhole {t : Text} (h : Tag.isWhole t = true) : Opens t := by
  unfold Tag.isWhole at h
  split at h
  · exact ⟨'0', _, ‹_›, by decide⟩
  · exact ⟨'0', _, ‹_›, by decide⟩
  · exact ⟨'0', _, ‹_›, by decide⟩
  · split at h
    · rename_i first parts hsplit
      simp only [Bool.and_eq_true] at h
      exact opens_of_isDigits hsplit h.1.2
    · simp at h

/-- a spelled whole number is a number, with these exceptions -/
theorem whole_error {t : Text} (h : Tag.isWhole t = true) {f : Fault} (he : whole t = .error f) : Lacks t f := by
  have hopens := opens_of_isWhole h
  simp only [whole, if_neg (compact_ne_nil hopens).1, signed_compact hopens] at he
  cases hu : unsignedWhole (compact (Tag.unsigned t)) with
  | ok n => simp [hu, Except.map] at he
  | error g =>
    rw [hu] at he
    obtain rfl : g = f := Except.error.inj he
    exact unsignedWhole_error h hu

/-! ## Decimals -/

open Binary64 (Numeral IsExponent numeralChars)

theorem isExponent_iff {t : Text} : Tag.isExponent t = true ↔ IsExponent t := by
  unfold Tag.isExponent IsExponent
  split
  · simp
  · simp [and_assoc]
  · rename_i hnil hthree
    refine iff_of_false (by simp) ?_
    rintro (rfl | ⟨e, sign, digits, rfl, -⟩)
    · exact hnil rfl
    · exact hthree e sign digits rfl

/-- what stands behind a point: digits and then an exponent, if underscores do not count -/
theorem compact_of_isFraction {t : Text} (h : Tag.isFraction t = true) : ':' ∉ t ∧ ∃ behind exponent,
    compact t = behind ++ exponent ∧ (∀ c ∈ behind, Text.isDigit c = true) ∧ IsExponent exponent := by
  let spaced : Char → Bool := fun c => Text.isDigit c || c = '_'
  have hexponent : IsExponent (t.dropWhile spaced) := isExponent_iff.1 h
  have hspaced : ∀ c ∈ t.takeWhile spaced, Text.isDigit c = true ∨ c = '_' := by
    intro c hc
    simpa [spaced] using List.mem_takeWhile_imp hc
  have hsame : compact (t.dropWhile spaced) = t.dropWhile spaced := by
    refine List.filter_eq_self.2 fun c hc => decide_eq_true ?_
    exact (by decide : ∀ d ∈ numeralChars, d ≠ '_') c (hexponent.mem hc)
  have hcut : t.takeWhile spaced ++ t.dropWhile spaced = t := List.takeWhile_append_dropWhile
  generalize t.takeWhile spaced = front, t.dropWhile spaced = exponent at *
  subst hcut
  refine ⟨?_, compact front, exponent, by rw [compact_append, hsame], fun c hc => ?_, hexponent⟩
  · rw [List.mem_append]
    rintro (hc | hc)
    · exact absurd (hspaced ':' hc) (by decide)
    · exact absurd (hexponent.mem hc) (by decide)
  · obtain ⟨hmem, hne⟩ := mem_compact.1 hc
    exact (hspaced c hmem).resolve_right hne

theorem numeral_of_isDigits {t : Text} (h : Tag.isDigits t = true) : Numeral (compact t) :=
  .whole (compact_of_isDigits h).2 (compact_of_isDigits h).1

/-- a point between digits and what may stand behind it -/
theorem numeral_of_isFraction {before after : Text} (hbefore : Tag.isDigits before = true)
    (hafter : Tag.isFraction after = true) : Numeral (compact (before ++ '.' :: after)) := by
  obtain ⟨-, behind, exponent, hcompact, hbehind, hexponent⟩ := compact_of_isFraction hafter
  obtain ⟨hne, hdigits⟩ := compact_of_isDigits hbefore
  rw [compact_append, compact_cons (by decide), hcompact]
  exact .pointed hdigits hbehind (Or.inl hne) hexponent

/-- digits and underscores behind a point -/
theorem isFraction_of_isSpaced {t : Text} (h : Tag.isSpaced Text.isDigit t = true) : Tag.isFraction t = true := by
  have hdrop : t.dropWhile (fun c => Text.isDigit c || c = '_') = [] :=
    List.dropWhile_eq_nil_iff.2 (List.all_eq_true.1 h)
  rw [Tag.isFraction, hdrop, Tag.isExponent]

/-- the parts of a decimal with a point are decimals, if underscores do not count -/
theorem numeral_of_isPointed {t : Text} (h : Tag.isPointed t = true) {part : Text} (hpart : part ∈ Text.splitAt ':' t) :
    Numeral (compact part) := by
  have hcut : t.takeWhile (· ≠ '.') ++ t.dropWhile (· ≠ '.') = t := List.takeWhile_append_dropWhile
  unfold Tag.isPointed at h
  split at h
  · rename_i after hdrop
    rw [hdrop] at hcut
    generalize t.takeWhile (· ≠ '.') = before at h hcut
    subst hcut
    split at h
    · simp at h
    · -- no colon: the decimal is its only part
      rename_i first hsplit
      obtain ⟨hfirst, hafter⟩ := Bool.and_eq_true_iff.1 h
      have hbefore : before = first := by
        rcases Text.splitAt_eq_cons hsplit with ⟨heq, -⟩ | ⟨rest, -, hrest⟩
        · exact heq
        · simpa [← hrest] using Text.length_splitAt ':' rest
      have hcolon : ':' ∉ before ++ '.' :: after := by
        rw [List.mem_append, List.mem_cons, not_or, not_or]
        exact ⟨hbefore ▸ (Text.mem_splitAt (hsplit ▸ List.mem_singleton_self first)).2, by decide,
          (compact_of_isFraction hafter).1⟩
      rw [Text.splitAt_of_notMem hcolon, List.mem_singleton] at hpart
      rw [hpart]
      exact numeral_of_isFraction (hbefore ▸ hfirst) hafter
    · -- sixtieths: the point is in the last part
      rename_i first parts hparts hsplit
      simp only [Bool.and_eq_true, List.all_eq_true] at h
      obtain ⟨⟨hfirst, hall⟩, hafter⟩ := h
      have hfraction := isFraction_of_isSpaced hafter
      have hcolon : ':' ∉ '.' :: after := by
        rw [List.mem_cons, not_or]
        exact ⟨by decide, (compact_of_isFraction hfraction).1⟩
      obtain ⟨pieces, last, hbefore, htogether⟩ := Text.splitAt_append_of_notMem hcolon before
      have hdigits : ∀ piece ∈ pieces ++ [last], Tag.isDigits piece = true := by
        intro piece hpiece
        rw [← hbefore, hsplit] at hpiece
        rcases List.mem_cons.1 hpiece with rfl | hpiece
        · exact hfirst
        · exact isDigits_of_isSixtieth (hall piece hpiece)
      rw [htogether] at hpart
      rcases List.mem_append.1 hpart with hpart | hpart
      · exact numeral_of_isDigits (hdigits part (List.mem_append_left _ hpart))
      · rw [List.mem_singleton.1 hpart]
        exact numeral_of_isFraction (hdigits last (by simp)) hfraction
  · simp at h

/-! Decimals are read in lower case, which changes no more than the letter of the exponent. -/

theorem map_toLower_of_digits {t : Text} (h : ∀ c ∈ t, Text.isDigit c = true) : t.map Char.toLower = t := by
  refine (List.map_congr_left fun c hc => ?_).trans (List.map_id t)
  exact (by decide : ∀ d ∈ numeralChars, Text.isDigit d = true → d.toLower = d) c (Binary64.isDigit_mem (h c hc)) (h c hc)

theorem isExponent_map_toLower {t : Text} (h : IsExponent t) : IsExponent (t.map Char.toLower) := by
  rcases h with rfl | ⟨e, sign, digits, rfl, he, hsign, hne, hdigits⟩
  · exact Or.inl rfl
  · refine Or.inr ⟨e.toLower, sign.toLower, digits, ?_, ?_, ?_, hne, hdigits⟩
    · rw [List.map_cons, List.map_cons, map_toLower_of_digits hdigits]
    · rcases he with rfl | rfl <;> decide
    · rcases hsign with rfl | rfl <;> decide

theorem numeral_map_toLower {t : Text} (h : Numeral t) : Numeral (t.map Char.toLower) := by
  cases h with
  | whole all some =>
    rw [map_toLower_of_digits all]
    exact .whole all some
  | pointed front back some ends =>
    rw [List.map_append, List.map_cons, List.map_append, map_toLower_of_digits front, map_toLower_of_digits back]
    exact .pointed front back some (isExponent_map_toLower ends)

/-- the characters of decimals in parts of sixtieths -/
def partChars : Text := ':' :: numeralChars

theorem mem_partChars {t : Text} (h : ∀ part ∈ Text.splitAt ':' t, Numeral part) {c : Char} (hc : c ∈ t) :
    c ∈ partChars := by
  by_cases hcolon : c = ':'
  · rw [hcolon]
    exact List.mem_cons_self
  · obtain ⟨part, hpart, hmem⟩ := Text.exists_mem_splitAt hc hcolon
    exact List.mem_cons_of_mem _ ((h part hpart).mem hmem)

theorem lower_of_partChars {t : Text} (h : ∀ c ∈ t, c ∈ partChars) : Text.lower t = t.map Char.toLower :=
  Text.lower_of_forall fun c hc => (by decide : ∀ d ∈ partChars, d.toNat < 128) c (h c hc)

theorem splitAt_map_toLower {t : Text} (h : ∀ c ∈ t, c ∈ partChars) :
    Text.splitAt ':' (t.map Char.toLower) = (Text.splitAt ':' t).map (List.map Char.toLower) := by
  induction t with
  | nil => rfl
  | cons c t ih =>
    have ih := ih fun d hd => h d (List.mem_cons_of_mem c hd)
    by_cases hc : c = ':'
    · rw [hc, List.map_cons, show Char.toLower ':' = ':' by decide, Text.splitAt_cons_self, Text.splitAt_cons_self, ih]
      rfl
    · have hlower : c.toLower ≠ ':' :=
        (by decide : ∀ d ∈ partChars, d ≠ ':' → d.toLower ≠ ':') c (h c List.mem_cons_self) hc
      obtain ⟨first, pieces, hrest, hsplit⟩ := Text.splitAt_cons hc t
      obtain ⟨first', pieces', hrest', hsplit'⟩ := Text.splitAt_cons hlower (t.map Char.toLower)
      rw [hrest, hrest', List.map_cons] at ih
      rw [List.map_cons, hsplit, hsplit', (List.cons.inj ih).1, (List.cons.inj ih).2, List.map_cons, List.map_cons]

/-- the sum of parts fails only if a weight is beyond all numbers -/
theorem sumSixtieths_error {sum : Binary64} {weight : Nat} {parts : List Binary64} {f : Fault}
    (h : sumSixtieths sum weight parts = .error f) :
    f = .tooManySixtieths ∧ ∃ places < parts.length, Binary64.ofNat? (weight * 60 ^ places) = none := by
  induction parts generalizing sum weight with
  | nil => simp [sumSixtieths] at h
  | cons part parts ih =>
    unfold sumSixtieths at h
    split at h
    · obtain ⟨hf, places, hlt, hnone⟩ := ih h
      refine ⟨hf, places + 1, Nat.succ_lt_succ hlt, ?_⟩
      rwa [pow_succ', ← mul_assoc]
    · rename_i hnone
      exact ⟨(Except.error.inj h).symm, 0, Nat.succ_pos _, by rwa [pow_zero, mul_one]⟩

theorem pointed_ok {t : Text} (h : Numeral t) (f : Fault) : pointed t ≠ .error f := by
  obtain ⟨x, hx⟩ := Option.isSome_iff_exists.1 (Binary64.ofText?_isSome h)
  simp [pointed, hx]

/-- decimals in parts of sixtieths are a decimal unless there are too many parts -/
theorem unsignedDecimal_error {t : Text} (hparts : ∀ part ∈ Text.splitAt ':' t, Numeral part) {f : Fault}
    (h : unsignedDecimal t = .error f) :
    f = .tooManySixtieths ∧ ∃ places ≤ t.count ':', Binary64.ofNat? (60 ^ places) = none := by
  unfold unsignedDecimal at h
  split_ifs at h with hinfinite hcolon
  · cases hm : (Text.splitAt ':' t).mapM pointed with
    | error g =>
      obtain ⟨part, hpart, hnone⟩ := exists_of_mapM_error hm
      exact absurd hnone (pointed_ok (hparts part hpart) g)
    | ok xs =>
      rw [hm] at h
      obtain ⟨hf, places, hlt, hnone⟩ := sumSixtieths_error h
      rw [List.length_reverse, length_of_mapM hm, Text.length_splitAt] at hlt
      rw [one_mul] at hnone
      exact ⟨hf, places, Nat.le_of_lt_succ hlt, hnone⟩
  · rw [splitAt_cases (by simpa using hcolon)] at hparts
    exact absurd h (pointed_ok (hparts t (List.mem_singleton_self t)) f)

theorem signed_map_toLower {t : Text} (h : ∀ c ∈ t, c ∈ partChars) :
    Digits.signed (t.map Char.toLower) = ((Digits.signed t).1, (Digits.signed t).2.map Char.toLower) := by
  rcases signed_cases t with ⟨u, rfl⟩ | ⟨u, rfl⟩ | hnone
  · rfl
  · rfl
  · rw [Digits.signed_of_head hnone]
    refine Digits.signed_of_head fun d hd => ?_
    rw [List.head?_map] at hd
    obtain ⟨c, hc, rfl⟩ := Option.map_eq_some_iff.1 hd
    obtain ⟨hminus, hplus⟩ := hnone c hc
    exact (by decide : ∀ e ∈ partChars, e ≠ '-' → e ≠ '+' → e.toLower ≠ '-' ∧ e.toLower ≠ '+') c
      (h c (List.mem_of_head? hc)) hminus hplus

/-- the parts of a number after its sign -/
def Parts (t : Text) : Prop := ∀ part ∈ Text.splitAt ':' (Tag.unsigned t), Numeral (compact part)

/-- the exceptions among decimals that are no names -/
theorem parts_error {node : Nat} {t : Text} (hopens : Opens t) (hparts : Parts t) {f : Fault}
    (he : decimal node t = .error f) : Lacks t f := by
  have hcompact : ∀ part ∈ Text.splitAt ':' (compact (Tag.unsigned t)), Numeral part := by
    intro part hpart
    rw [splitAt_compact] at hpart
    obtain ⟨piece, hpiece, rfl⟩ := List.mem_map.1 hpart
    exact hparts piece hpiece
  have hchars : ∀ c ∈ compact (Tag.unsigned t), c ∈ partChars := fun c => mem_partChars hcompact
  have hsigned : ∀ c ∈ compact t, c ∈ partChars := by
    rcases signed_cases t with ⟨u, rfl⟩ | ⟨u, rfl⟩ | hnone
    · rw [compact_cons (by decide)]
      exact List.forall_mem_cons.2 ⟨by decide, hchars⟩
    · rw [compact_cons (by decide)]
      exact List.forall_mem_cons.2 ⟨by decide, hchars⟩
    · rwa [Tag.unsigned, Digits.signed_of_head hnone] at hchars
  have hlower : ∀ part ∈ Text.splitAt ':' ((compact (Tag.unsigned t)).map Char.toLower), Numeral part := by
    intro part hpart
    rw [splitAt_map_toLower hchars] at hpart
    obtain ⟨piece, hpiece, rfl⟩ := List.mem_map.1 hpart
    exact numeral_map_toLower (hcompact piece hpiece)
  have hcount : ((compact (Tag.unsigned t)).map Char.toLower).count ':' ≤ t.count ':' := by
    have hlength := congrArg List.length (splitAt_map_toLower hchars)
    rw [List.length_map, Text.length_splitAt, Text.length_splitAt] at hlength
    rw [Nat.succ.inj hlength]
    exact ((compact_sublist _).trans (unsigned_sublist t)).count_le ':'
  simp only [decimal, lower_of_partChars hsigned, signed_map_toLower hsigned, signed_compact hopens] at he
  rw [if_neg (by simpa using (compact_ne_nil hopens).1)] at he
  split_ifs at he with hname
  cases hu : unsignedDecimal ((compact (Tag.unsigned t)).map Char.toLower) with
  | ok x => simp [hu, Except.map] at he
  | error g =>
    rw [hu] at he
    obtain rfl : g = f := Except.error.inj he
    obtain ⟨rfl, places, hle, hnone⟩ := unsignedDecimal_error hlower hu
    exact .sixtieths (hle.trans hcount) hnone

/-- the names of decimals, in any letter case and with any sign, are decimals -/
theorem named_ok {node : Nat} {t : Text} (h : (Digits.signed (Text.lower (compact t))).2 ∈ [".inf".toList, ".nan".toList])
    (f : Fault) : decimal node t ≠ .error f := by
  intro he
  unfold decimal at he
  generalize Text.lower (compact t) = digits at h he
  simp only at he
  split_ifs at he with hnil
  · rw [hnil] at h
    exact absurd h (by decide)
  · rename_i hname
    rcases List.mem_cons.1 h with hinfinite | h
    · rw [hinfinite, unsignedDecimal, if_pos rfl] at he
      simp [Except.map] at he
    · exact hname (List.mem_singleton.1 h)

theorem opens_of_isPointed {t : Text} (h : Tag.isPointed (Tag.unsigned t) = true) : Opens t := by
  have hcut : (Tag.unsigned t).takeWhile (· ≠ '.') ++ (Tag.unsigned t).dropWhile (· ≠ '.') = Tag.unsigned t :=
    List.takeWhile_append_dropWhile
  have hopening : ∀ {first pieces}, Text.splitAt ':' ((Tag.unsigned t).takeWhile (· ≠ '.')) = first :: pieces →
      Tag.isDigits first = true → Opens t := by
    intro first pieces hsplit hfirst
    obtain ⟨c, rest, hc, -, hbefore⟩ := exists_opening hsplit hfirst
    rw [hbefore] at hcut
    exact ⟨c, _, hcut.symm, Or.inl hc⟩
  unfold Tag.isPointed at h
  split at h
  · split at h
    · simp at h
    · rename_i hsplit
      exact hopening hsplit (Bool.and_eq_true_iff.1 h).1
    · rename_i hsplit
      simp only [Bool.and_eq_true] at h
      exact hopening hsplit h.1.1
  · simp at h

theorem infinite_ok {node : Nat} {t : Text} (h : Tag.isWord [".inf", ".Inf", ".INF"] (Tag.unsigned t) = true) (f : Fault) :
    decimal node t ≠ .error f := by
  have hnamed : ∀ w ∈ [".inf", ".Inf", ".INF"], ∀ sign ∈ [[], ['-'], ['+']],
      (Digits.signed (Text.lower (compact (sign ++ w.toList)))).2 ∈ [".inf".toList, ".nan".toList] := by decide +kernel
  obtain ⟨w, hw, hword⟩ := List.any_eq_true.1 h
  have hu : w.toList = Tag.unsigned t := of_decide_eq_true hword
  rcases signed_cases t with ⟨u, rfl⟩ | ⟨u, rfl⟩ | hnone
  · obtain rfl : w.toList = u := hu
    exact named_ok (hnamed w hw ['-'] (by simp)) f
  · obtain rfl : w.toList = u := hu
    exact named_ok (hnamed w hw ['+'] (by simp)) f
  · rw [Tag.unsigned, Digits.signed_of_head hnone] at hu
    obtain rfl : w.toList = t := hu
    exact named_ok (hnamed w hw [] (by simp)) f

theorem noNumber_ok {node : Nat} {t : Text} (h : Tag.isWord [".nan", ".NaN", ".NAN"] t = true) (f : Fault) :
    decimal node t ≠ .error f := by
  have hnamed : ∀ w ∈ [".nan", ".NaN", ".NAN"],
      (Digits.signed (Text.lower (compact w.toList))).2 ∈ [".inf".toList, ".nan".toList] := by decide +kernel
  obtain ⟨w, hw, hword⟩ := List.any_eq_true.1 h
  obtain rfl : w.toList = t := of_decide_eq_true hword
  exact named_ok (hnamed w hw) f

/-- a point in front of digits -/
theorem parts_of_point {c : Char} {rest : Text} (hc : Text.isDigit c = true) (hrest : Tag.isFraction rest = true) :
    Parts ('.' :: c :: rest) := by
  obtain ⟨hcolon, behind, exponent, hcompact, hbehind, hexponent⟩ := compact_of_isFraction hrest
  have hwhole : ':' ∉ '.' :: c :: rest := by
    rw [List.mem_cons, List.mem_cons, not_or, not_or]
    refine ⟨by decide, ?_, hcolon⟩
    rintro rfl
    exact absurd hc (by decide)
  intro part hpart
  rw [show Tag.unsigned ('.' :: c :: rest) = '.' :: c :: rest from rfl, Text.splitAt_of_notMem hwhole,
    List.mem_singleton] at hpart
  rw [hpart, compact_cons (by decide), compact_cons (ne_of_opening (Or.inl hc)).1, hcompact, ← List.cons_append]
  have hnone : ∀ d ∈ ([] : Text), Text.isDigit d = true := by simp
  exact .pointed hnone (List.forall_mem_cons.2 ⟨hc, hbehind⟩) (Or.inr (by simp)) hexponent

/-- a spelled decimal is a decimal, with these exceptions -/
theorem decimal_error {node : Nat} {t : Text} (h : Tag.isDecimal t = true) {f : Fault}
    (he : decimal node t = .error f) : Lacks t f := by
  unfold Tag.isDecimal at h
  rw [Bool.or_eq_true, Bool.or_eq_true, Bool.or_eq_true] at h
  rcases h with ((hpointed | hinfinite) | hnone) | hpoint
  · exact parts_error (opens_of_isPointed hpointed) (fun _ => numeral_of_isPointed hpointed) he
  · exact absurd he (infinite_ok hinfinite f)
  · exact absurd he (noNumber_ok hnone f)
  · split at hpoint
    · rename_i c rest
      obtain ⟨hc, hrest⟩ := Bool.and_eq_true_iff.1 hpoint
      exact parts_error ⟨'.', c :: rest, rfl, Or.inr rfl⟩ (parts_of_point hc hrest) he
    · simp at hpoint

/-! ## All kinds -/

theorem flag_ok {t : Text} (h : Tag.isWord Tag.flagWords t = true) (f : Fault) : flag t ≠ .error f := by
  have hflag : ∀ w ∈ Tag.flagWords, (flag w.toList).isOk = true := by decide +kernel
  obtain ⟨w, hw, hword⟩ := List.any_eq_true.1 h
  obtain rfl : w.toList = t := of_decide_eq_true hword
  intro he
  have := hflag w hw
  rw [he] at this
  simp [Except.isOk, Except.toBool] at this

theorem reverse_ne {t : Text} (hlast : t.getLast? ≠ some '\n') (before : Text) : t.reverse ≠ '\n' :: before := by
  intro hreverse
  rw [List.getLast?_eq_head?_reverse, hreverse] at hlast
  exact hlast rfl

theorem time_error {t : Text} (h : Timestamp.isSpelling t = true) (hlast : t.getLast? ≠ some '\n') {f : Fault}
    (he : Timestamp.ofText t = .error f) : Lacks t f := by
  have hreads : ∃ s, Timestamp.read? t = some s := by
    unfold Timestamp.isSpelling at h
    split at h
    · exact ⟨_, ‹_›⟩
    · exact ⟨_, ‹_›⟩
    · simp at h
  obtain ⟨s, hs⟩ := hreads
  unfold Timestamp.ofText at he
  split at he
  · rename_i before hreverse
    exact absurd hreverse (reverse_ne hlast before)
  · simp only [hs] at he
    split at he
    · rename_i why hwrong
      rw [← Except.error.inj he]
      exact .time hs hwrong
    · simp at he

/-- the kind of a spelling that does not end in a line break -/
theorem ofPlain_eq {t : Text} (hlast : t.getLast? ≠ some '\n') :
    Tag.ofPlain Timestamp.isSpelling t = Tag.ofSpelling Timestamp.isSpelling t := by
  unfold Tag.ofPlain
  rw [if_neg (by rintro rfl; exact hlast rfl)]
  split
  · rename_i before hreverse
    exact absurd hreverse (reverse_ne hlast before)
  · rfl

/-- **a scalar of the kind that its spelling shows has a value, with these exceptions** -/
theorem value_ofPlain_error {node : Nat} {t : Text} (hlast : t.getLast? ≠ some '\n') {f : Fault}
    (h : value node (Tag.ofPlain Timestamp.isSpelling t) t = .error f) : Lacks t f := by
  rw [ofPlain_eq hlast] at h
  unfold Tag.ofSpelling at h
  split_ifs at h with hflag hdecimal hwhole hmerge hnull htime hvalue hsign
  · exact absurd h (flag_ok hflag f)
  · exact decimal_error hdecimal h
  · exact whole_error hwhole h
  · rw [← Except.error.inj h]
    exact .sign (by simp [hmerge])
  · simp [value] at h
  · cases ht : Timestamp.ofText t with
    | ok s => simp [value, ht, Except.map] at h
    | error g =>
      simp only [value, ht] at h
      obtain rfl : g = f := Except.error.inj h
      exact time_error htime hlast ht
  · rw [← Except.error.inj h]
    exact .sign (by simp [hvalue])
  · obtain ⟨w, hw, hword⟩ := List.any_eq_true.1 hsign
    rw [← Except.error.inj h, ← of_decide_eq_true hword]
    refine .sign (List.mem_map_of_mem ?_)
    simp only [List.mem_cons] at hw ⊢
    tauto
  · simp [value] at h

end Yaml.Scalar

end Componentry
