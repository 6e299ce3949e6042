/-
Which texts write numbers.

- `Digits.value_lt`: digits write a number below the next power of their base.
- `Digits.run_of_all`: digits of a base are read from the first to the last one.
- `Binary64.ofText?_isSome`: so are digits with a point and an exponent.
-/
import Mathlib.Data.List.TakeWhile
import Mathlib.Tactic
import Componentry.Decimal.Binary64
import Componentry.Slug

namespace Componentry

namespace Digit

theorem isOf_lt {base : Nat} {c : Char} (h : isOf base c = true) : (value? c).getD 0 < base := by
  unfold isOf at h
  split at h
  · rename_i v hv
    simpa [hv] using h
  · simp at h

/-- a digit of a base up to sixteen is one of these -/
theorem mem_of_isOf {base : Nat} {c : Char} (hbase : base ≤ 16) (h : isOf base c = true) :
    c ∈ "0123456789abcdefABCDEF".toList := by
  have hlt := isOf_lt h
  unfold isOf at h
  split at h
  · rename_i v hv
    rw [hv, Option.getD_some] at hlt
    rw [← Char.ofNat_toNat c]
    unfold value? at hv
    generalize c.toNat = n at hv
    simp only at hv
    split_ifs at hv with hdigit hlower hcapital
    · obtain ⟨_, _⟩ := hdigit
      interval_cases n <;> decide
    · obtain rfl := Option.some.inj hv
      have : n ≤ 102 := by omega
      obtain ⟨_, _⟩ := hlower
      interval_cases n <;> decide
    · obtain rfl := Option.some.inj hv
      have : n ≤ 70 := by omega
      obtain ⟨_, _⟩ := hcapital
      interval_cases n <;> decide
  · simp at h

theorem isOf_ten {c : Char} (h : Text.isDigit c = true) : isOf 10 c = true := by
  simp only [Text.isDigit, Bool.and_eq_true, decide_eq_true_eq, Char.le_def, UInt32.le_iff_toNat_le] at h
  change 48 ≤ c.toNat ∧ c.toNat ≤ 57 at h
  simp only [isOf, value?, if_pos h, decide_eq_true_eq]
  omega

end Digit

namespace Digits

/-- digits write a number below the next power of their base -/
theorem value_lt {base : Nat} {digits : Text} (h : digits.all (Digit.isOf base) = true) :
    value base digits < base ^ digits.length := by
  have hfold : ∀ n, digits.foldl (fun n c => base * n + (Digit.value? c).getD 0) n < (n + 1) * base ^ digits.length := by
    induction digits with
    | nil => simp
    | cons c digits ih =>
      intro n
      rw [List.all_cons, Bool.and_eq_true] at h
      have hc := Digit.isOf_lt h.1
      calc (c :: digits).foldl (fun n c => base * n + (Digit.value? c).getD 0) n
          < (base * n + (Digit.value? c).getD 0 + 1) * base ^ digits.length := ih h.2 _
        _ ≤ (base * (n + 1)) * base ^ digits.length := by gcongr; nlinarith
        _ = (n + 1) * base ^ (c :: digits).length := by rw [List.length_cons, pow_succ]; ring
  simpa [value] using hfold 0

/-- a text in ASCII without blanks is read as it stands -/
theorem bare_of_forall {t : Text} (h : ∀ c ∈ t, 32 < c.toNat ∧ c.toNat < 128) : bare t = t := by
  have hmap : t.map Digit.inAscii = t := by
    refine (List.map_congr_left fun c hc => ?_).trans (List.map_id t)
    rw [Digit.inAscii, if_pos (h c hc).2, id]
  have hmargin : ∀ c ∈ t, isMargin c = false := by
    intro c hc
    have := (h c hc).1
    simp only [isMargin, List.contains_eq_mem, decide_eq_false_iff_not]
    simp
    omega
  have hdrop : ∀ s : Text, (∀ c ∈ s, isMargin c = false) → s.dropWhile isMargin = s := by
    intro s hs
    cases s with
    | nil => rfl
    | cons c s => rw [List.dropWhile_cons_of_neg (by simp [hs c])]
  rw [bare, hmap, hdrop t hmargin, hdrop t.reverse fun c hc => hmargin c (List.mem_reverse.1 hc), List.reverse_reverse]

/-- no digits announce a base -/
theorem unmarked_of_all {base : Nat} (hbase : base ≤ 16) {t : Text} (h : t.all (Digit.isOf base) = true) :
    unmarked base t = t := by
  unfold unmarked
  split
  · rename_i c rest
    refine if_neg fun hmark => ?_
    have hc : Digit.isOf base c = true := by
      rw [List.all_cons, List.all_cons, Bool.and_eq_true, Bool.and_eq_true] at h
      exact h.2.1
    have hmem := Digit.mem_of_isOf hbase hc
    unfold mark? at hmark
    split at hmark
    · exact absurd (Option.some.inj hmark).symm
        ((by decide : ∀ d ∈ "0123456789abcdefABCDEF".toList, Digit.isOf 2 d = true → d.toLower ≠ 'b') c hmem hc)
    · exact absurd (Option.some.inj hmark).symm
        ((by decide : ∀ d ∈ "0123456789abcdefABCDEF".toList, d.toLower ≠ 'o') c hmem)
    · exact absurd (Option.some.inj hmark).symm
        ((by decide : ∀ d ∈ "0123456789abcdefABCDEF".toList, d.toLower ≠ 'x') c hmem)
    · simp at hmark
  · rfl

/-- a text that does not begin with a sign -/
theorem signed_of_head {t : Text} (h : ∀ c, t.head? = some c → c ≠ '-' ∧ c ≠ '+') : signed t = (false, t) := by
  unfold signed
  split
  · exact absurd rfl (h '-' rfl).1
  · exact absurd rfl (h '+' rfl).2
  · rfl

/-- **digits of a base are read from the first to the last one** -/
theorem run_of_all {base : Nat} (hbase : base ≤ 16) {t : Text} (h : t.all (Digit.isOf base) = true) :
    run base t = ⟨false, t, true⟩ := by
  have hmem : ∀ c ∈ t, c ∈ "0123456789abcdefABCDEF".toList := fun c hc =>
    Digit.mem_of_isOf hbase (List.all_eq_true.1 h c hc)
  have hbare : bare t = t := bare_of_forall fun c hc =>
    (by decide : ∀ d ∈ "0123456789abcdefABCDEF".toList, 32 < d.toNat ∧ d.toNat < 128) c (hmem c hc)
  have hsign : signed t = (false, t) := signed_of_head fun c hc =>
    (by decide : ∀ d ∈ "0123456789abcdefABCDEF".toList, d ≠ '-' ∧ d ≠ '+') c (hmem c (List.mem_of_head? hc))
  have hdigits : t.takeWhile (Digit.isOf base) = t := List.takeWhile_eq_self_iff.2 (List.all_eq_true.1 h)
  simp only [run, hbare, hsign, unmarked_of_all hbase h, hdigits, decide_true]

end Digits

namespace Binary64

/-- an exponent: nothing, or a letter, a sign and digits -/
def IsExponent (t : Text) : Prop :=
  t = [] ∨ ∃ e sign digits, t = e :: sign :: digits ∧ (e = 'e' ∨ e = 'E') ∧ (sign = '-' ∨ sign = '+') ∧
    digits ≠ [] ∧ ∀ c ∈ digits, Text.isDigit c = true

/-- a decimal without a sign: digits, perhaps a point and more digits, and then perhaps an exponent; there is a digit
before or behind the point -/
inductive Numeral : Text → Prop where
  | whole {digits : Text} (all : ∀ c ∈ digits, Text.isDigit c = true) (some : digits ≠ []) : Numeral digits
  | pointed {before behind exponent : Text} (front : ∀ c ∈ before, Text.isDigit c = true)
      (back : ∀ c ∈ behind, Text.isDigit c = true) (some : before ≠ [] ∨ behind ≠ []) (ends : IsExponent exponent) :
    Numeral (before ++ '.' :: (behind ++ exponent))

/-- the characters of decimals -/
def numeralChars : Text := "0123456789.eE+-".toList

theorem isDigit_mem {c : Char} (h : Text.isDigit c = true) : c ∈ numeralChars := by
  have hmem := Digit.mem_of_isOf (by decide) (Digit.isOf_ten h)
  exact (by decide : ∀ d ∈ "0123456789abcdefABCDEF".toList, Text.isDigit d = true → d ∈ numeralChars) c hmem h

theorem IsExponent.mem {t : Text} (h : IsExponent t) {c : Char} (hc : c ∈ t) : c ∈ numeralChars := by
  rcases h with rfl | ⟨e, sign, digits, rfl, he, hsign, -, hdigits⟩
  · simp at hc
  · rcases List.mem_cons.1 hc with rfl | hc
    · rcases he with rfl | rfl <;> decide
    · rcases List.mem_cons.1 hc with rfl | hc
      · rcases hsign with rfl | rfl <;> decide
      · exact isDigit_mem (hdigits c hc)

theorem Numeral.mem {t : Text} (h : Numeral t) {c : Char} (hc : c ∈ t) : c ∈ numeralChars := by
  cases h with
  | whole all => exact isDigit_mem (all c hc)
  | pointed front back some ends =>
    rcases List.mem_append.1 hc with hc | hc
    · exact isDigit_mem (front c hc)
    · rcases List.mem_cons.1 hc with rfl | hc
      · decide
      · exact (List.mem_append.1 hc).elim (fun hc => isDigit_mem (back c hc)) ends.mem

/-- a decimal begins with a digit or a point -/
theorem Numeral.head {t : Text} (h : Numeral t) {c : Char} (hc : t.head? = some c) :
    Text.isDigit c = true ∨ c = '.' := by
  cases h with
  | whole all => exact Or.inl (all c (List.mem_of_head? hc))
  | @pointed before behind exponent front =>
    cases before with
    | nil => exact Or.inr (Option.some.inj hc).symm
    | cons d before => exact Or.inl (front c (by rw [← Option.some.inj hc]; exact List.mem_cons_self))

theorem exponentPart?_isSome {t : Text} (h : IsExponent t) : (exponentPart? t).isSome = true := by
  rcases h with rfl | ⟨e, sign, digits, rfl, he, hsign, hne, hdigits⟩
  · rfl
  · have hvalue : Digits.value? 10 digits = some (Digits.value 10 digits) :=
      if_pos ⟨hne, List.all_eq_true.2 fun c hc => Digit.isOf_ten (hdigits c hc)⟩
    have hletter : ¬(e ≠ 'e' ∧ e ≠ 'E') := by
      rintro ⟨h1, h2⟩
      exact he.elim h1 h2
    rcases hsign with rfl | rfl <;> simp [exponentPart?, hletter, Digits.signed, hvalue]

/-- digits are taken from a text up to where it goes on with something else -/
theorem take_digits {digits rest : Text} (hdigits : ∀ c ∈ digits, Text.isDigit c = true)
    (hrest : ∀ c, rest.head? = some c → Digit.isOf 10 c = false) :
    (digits ++ rest).takeWhile (Digit.isOf 10) = digits ∧ (digits ++ rest).dropWhile (Digit.isOf 10) = rest := by
  have hall : ∀ c ∈ digits, Digit.isOf 10 c = true := fun c hc => Digit.isOf_ten (hdigits c hc)
  rw [List.takeWhile_append_of_pos hall, List.dropWhile_append_of_pos hall]
  cases rest with
  | nil => simp
  | cons c rest =>
    have hc := hrest c rfl
    simp [hc]

theorem IsExponent.head {t : Text} (h : IsExponent t) {c : Char} (hc : t.head? = some c) :
    Digit.isOf 10 c = false := by
  rcases h with rfl | ⟨e, sign, digits, rfl, rfl | rfl, -⟩
  · simp at hc
  · rw [← Option.some.inj hc]
    decide
  · rw [← Option.some.inj hc]
    decide

theorem decimal?_isSome {t : Text} (h : Numeral t) (negative : Bool) : (decimal? negative t).isSome = true := by
  unfold decimal?
  cases h with
  | whole all some =>
    obtain ⟨htake, hdrop⟩ := @take_digits t [] all (by simp)
    rw [List.append_nil] at htake hdrop
    simp only [htake, hdrop]
    rw [if_neg (fun hnone => some hnone.1), Option.isSome_map]
    exact exponentPart?_isSome (Or.inl rfl)
  | @pointed before behind exponent front back some ends =>
    obtain ⟨htake, hdrop⟩ := @take_digits before ('.' :: (behind ++ exponent)) front (by simp; decide)
    obtain ⟨htake', hdrop'⟩ := take_digits back fun c hc => ends.head hc
    simp only [htake, hdrop, htake', hdrop']
    rw [if_neg (by tauto), Option.isSome_map]
    exact exponentPart?_isSome ends

/-- **a decimal without a sign writes a number** -/
theorem ofText?_isSome {t : Text} (h : Numeral t) : (ofText? t).isSome = true := by
  have hbare : Digits.bare t = t := Digits.bare_of_forall fun c hc =>
    (by decide : ∀ d ∈ numeralChars, 32 < d.toNat ∧ d.toNat < 128) c (h.mem hc)
  have hsign : Digits.signed t = (false, t) := by
    refine Digits.signed_of_head fun c hc => ?_
    rcases h.head hc with hdigit | rfl
    · constructor <;> (rintro rfl; exact absurd hdigit (by decide))
    · decide
  simp only [ofText?, hbare, hsign]
  split_ifs
  · rfl
  · rfl
  · exact decimal?_isSome h false

end Binary64

end Componentry
