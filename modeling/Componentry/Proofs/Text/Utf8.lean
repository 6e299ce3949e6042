/-
Text read from bytes gives the same bytes back.

- `encode_of_decode`: whatever can be read as UTF-8 is written as the bytes that it was read from.
- `decode_encode`: whatever is written can be read again, so no two texts are written alike (`encode_injective`).
-/
import Mathlib.Tactic
import Componentry.Text.Utf8

namespace Componentry.Utf8

/-! ## Characters -/

theorem toNat_ofNat {n : Nat} (h : n < 0xD800 ∨ 0xDFFF < n ∧ n < 0x110000) : (Char.ofNat n).toNat = n := by
  have hv : n.isValidChar := h
  unfold Char.ofNat
  rw [dif_pos hv]
  rfl

theorem ofNat_eq_byte {b : UInt8} {n : Nat} (h : n = b.toNat) : UInt8.ofNat n = b := by
  rw [h, UInt8.ofNat_toNat]

theorem encodeChar_one {b : UInt8} (h : b.toNat < 0x80) : encodeChar (Char.ofNat b.toNat) = [b] := by
  simp only [encodeChar, toNat_ofNat (n := b.toNat) (by omega)]
  rw [if_pos h, UInt8.ofNat_toNat]

theorem encodeChar_two {b b1 : UInt8} {x : Nat} (hb : b.toNat = 0xC0 + x) (hx : 2 ≤ x) (hx' : x < 32)
    (h1 : 0x80 ≤ b1.toNat ∧ b1.toNat ≤ 0xBF) : encodeChar (Char.ofNat (x * 64 + b1.toNat % 64)) = [b, b1] := by
  have hn := toNat_ofNat (n := x * 64 + b1.toNat % 64) (by omega)
  simp only [encodeChar, hn]
  rw [if_neg (by omega), if_pos (by omega), ofNat_eq_byte (b := b) (by omega), ofNat_eq_byte (b := b1) (by omega)]

theorem encodeChar_three {b b1 b2 : UInt8} {x : Nat} (hb : b.toNat = 0xE0 + x) (hx : x < 16)
    (h1 : 0x80 ≤ b1.toNat ∧ b1.toNat ≤ 0xBF) (h2 : 0x80 ≤ b2.toNat ∧ b2.toNat ≤ 0xBF)
    (hlow : x = 0 → 0xA0 ≤ b1.toNat) (hgap : x = 0xD → b1.toNat ≤ 0x9F) :
    encodeChar (Char.ofNat ((x * 64 + b1.toNat % 64) * 64 + b2.toNat % 64)) = [b, b1, b2] := by
  have hn := toNat_ofNat (n := (x * 64 + b1.toNat % 64) * 64 + b2.toNat % 64) (by omega)
  simp only [encodeChar, hn]
  rw [if_neg (by omega), if_neg (by omega), if_pos (by omega), ofNat_eq_byte (b := b) (by omega),
    ofNat_eq_byte (b := b1) (by omega), ofNat_eq_byte (b := b2) (by omega)]

theorem encodeChar_four {b b1 b2 b3 : UInt8} {x : Nat} (hb : b.toNat = 0xF0 + x) (hx : x ≤ 4)
    (h1 : 0x80 ≤ b1.toNat ∧ b1.toNat ≤ 0xBF) (h2 : 0x80 ≤ b2.toNat ∧ b2.toNat ≤ 0xBF)
    (h3 : 0x80 ≤ b3.toNat ∧ b3.toNat ≤ 0xBF) (hlow : x = 0 → 0x90 ≤ b1.toNat) (hhigh : x = 4 → b1.toNat ≤ 0x8F) :
    encodeChar (Char.ofNat (((x * 64 + b1.toNat % 64) * 64 + b2.toNat % 64) * 64 + b3.toNat % 64)) =
      [b, b1, b2, b3] := by
  have hn := toNat_ofNat (n := ((x * 64 + b1.toNat % 64) * 64 + b2.toNat % 64) * 64 + b3.toNat % 64) (by omega)
  simp only [encodeChar, hn]
  rw [if_neg (by omega), if_neg (by omega), if_neg (by omega), ofNat_eq_byte (b := b) (by omega),
    ofNat_eq_byte (b := b1) (by omega), ofNat_eq_byte (b := b2) (by omega), ofNat_eq_byte (b := b3) (by omega)]

/-! ## Reading -/

/-- inside a character another byte in its range follows, and reading goes on after it -/
theorem decodeFrom_inside {position start read owed bits low high : Nat} {first : UInt8} {bytes : List UInt8}
    {t : Text} (h : decodeFrom position (.inside first start read owed bits low high) bytes = .ok t) :
    ∃ b rest, bytes = b :: rest ∧ (low ≤ b.toNat ∧ b.toNat ≤ high) ∧
      (owed = 1 → ∃ t', t = Char.ofNat (bits * 64 + b.toNat % 64) :: t' ∧
        decodeFrom (position + 1) .between rest = .ok t') ∧
      (owed ≠ 1 → decodeFrom (position + 1)
        (.inside first start (read + 1) (owed - 1) (bits * 64 + b.toNat % 64) 0x80 0xBF) rest = .ok t) := by
  cases bytes with
  | nil => simp [decodeFrom] at h
  | cons b rest =>
    by_cases hb : low ≤ b.toNat ∧ b.toNat ≤ high
    · refine ⟨b, rest, rfl, hb, fun ho => ?_, fun ho => ?_⟩
      · simp only [decodeFrom, step, if_pos hb, if_pos ho] at h
        cases hr : decodeFrom (position + 1) .between rest with
        | error f => rw [hr] at h; simp at h
        | ok t' =>
          rw [hr] at h
          exact ⟨t', (Except.ok.inj h).symm, rfl⟩
      · simp only [decodeFrom, step, if_pos hb, if_neg ho] at h
        cases hr : decodeFrom (position + 1)
            (.inside first start (read + 1) (owed - 1) (bits * 64 + b.toNat % 64) 0x80 0xBF) rest with
        | error f => rw [hr] at h; simp at h
        | ok t' =>
          rw [hr] at h
          rw [Except.ok.inj h]
    · simp [decodeFrom, step, if_neg hb] at h

/-- what a first byte can announce -/
theorem lead?_cases {b : UInt8} {l : Lead} (h : lead? b = some l) :
    (l.more = 0 ∧ l.bits = b.toNat ∧ b.toNat < 0x80) ∨
    (l.more = 1 ∧ b.toNat = 0xC0 + l.bits ∧ 2 ≤ l.bits ∧ l.bits < 32 ∧ l.low = 0x80 ∧ l.high = 0xBF) ∨
    (l.more = 2 ∧ b.toNat = 0xE0 + l.bits ∧ l.bits < 16 ∧ 0x80 ≤ l.low ∧ l.high ≤ 0xBF ∧
      (l.bits = 0 → l.low = 0xA0) ∧ (l.bits = 0xD → l.high = 0x9F)) ∨
    (l.more = 3 ∧ b.toNat = 0xF0 + l.bits ∧ l.bits ≤ 4 ∧ 0x80 ≤ l.low ∧ l.high ≤ 0xBF ∧
      (l.bits = 0 → l.low = 0x90) ∧ (l.bits = 4 → l.high = 0x8F)) := by
  unfold lead? at h
  simp only at h
  split_ifs at h <;> obtain rfl := Option.some.inj h <;> simp <;> omega

/-- between characters the bytes of a whole character follow, and reading goes on after them -/
theorem decodeFrom_between {position : Nat} {b : UInt8} {rest : List UInt8} {t : Text}
    (h : decodeFrom position .between (b :: rest) = .ok t) :
    ∃ c after position' t', t = c :: t' ∧ b :: rest = encodeChar c ++ after ∧
      decodeFrom position' .between after = .ok t' := by
  simp only [decodeFrom, step] at h
  cases hl : lead? b with
  | none => rw [hl] at h; simp at h
  | some l =>
    rw [hl] at h
    simp only at h
    rcases lead?_cases hl with ⟨hm, hbits, hb⟩ | ⟨hm, hb, hx, hx', hlow, hhigh⟩ | ⟨hm, hb, hx, hlow, hhigh, h0, hD⟩ |
      ⟨hm, hb, hx, hlow, hhigh, h0, h4⟩
    · simp only [if_pos hm] at h
      cases hr : decodeFrom (position + 1) .between rest with
      | error f => rw [hr] at h; simp at h
      | ok t' =>
        rw [hr] at h
        exact ⟨_, rest, _, t', (Except.ok.inj h).symm, by rw [hbits, encodeChar_one hb]; rfl, hr⟩
    all_goals
      simp only [if_neg (show ¬l.more = 0 by omega)] at h
      cases hr : decodeFrom (position + 1) (.inside b position 1 l.more l.bits l.low l.high) rest with
      | error f => rw [hr] at h; simp at h
      | ok t' => ?_
      rw [hr] at h
      obtain rfl := Except.ok.inj h
      obtain ⟨b1, rest1, rfl, hb1, hlast, hmore⟩ := decodeFrom_inside hr
    · obtain ⟨t', rfl, ht'⟩ := hlast hm
      exact ⟨_, rest1, _, t', rfl, by rw [encodeChar_two hb hx hx' (by omega)]; rfl, ht'⟩
    · obtain ⟨b2, rest2, rfl, hb2, hlast, -⟩ := decodeFrom_inside (hmore (by omega))
      obtain ⟨t', rfl, ht'⟩ := hlast (by omega)
      exact ⟨_, rest2, _, t', rfl, by
        rw [encodeChar_three hb hx (by omega) hb2 (by omega) (by omega)]; rfl, ht'⟩
    · obtain ⟨b2, rest2, rfl, hb2, -, hmore⟩ := decodeFrom_inside (hmore (by omega))
      obtain ⟨b3, rest3, rfl, hb3, hlast, -⟩ := decodeFrom_inside (hmore (by omega))
      obtain ⟨t', rfl, ht'⟩ := hlast (by omega)
      exact ⟨_, rest3, _, t', rfl, by
        rw [encodeChar_four hb hx (by omega) hb2 hb3 (by omega) (by omega)]; rfl, ht'⟩

theorem encode_of_decodeFrom (n : Nat) {position : Nat} {bytes : List UInt8} {t : Text} (hn : bytes.length ≤ n)
    (h : decodeFrom position .between bytes = .ok t) : encode t = bytes := by
  induction n generalizing position bytes t with
  | zero =>
    obtain rfl : bytes = [] := List.length_eq_zero_iff.1 (Nat.le_zero.1 hn)
    obtain rfl : [] = t := Except.ok.inj h
    rfl
  | succ n ih =>
    cases bytes with
    | nil =>
      obtain rfl : [] = t := Except.ok.inj h
      rfl
    | cons b rest =>
      obtain ⟨c, after, position', t', rfl, hsplit, hrest⟩ := decodeFrom_between h
      have hlen : 0 < (encodeChar c).length := by
        unfold encodeChar
        simp only
        split_ifs <;> simp
      have hafter : after.length ≤ n := by
        have := congrArg List.length hsplit
        simp only [List.length_cons, List.length_append] at this hn
        omega
      rw [hsplit, encode, List.flatMap_cons, ← ih hafter hrest, encode]

/-- what can be read is written as the bytes that it was read from -/
theorem encode_of_decode {bytes : List UInt8} {t : Text} (h : decode bytes = .ok t) : encode t = bytes :=
  encode_of_decodeFrom bytes.length le_rfl h

/-! ## Reading what was written -/

theorem toNat_byte {n : Nat} (h : n < 256) : (UInt8.ofNat n).toNat = n := by
  rw [UInt8.toNat_ofNat']
  omega

theorem lead?_one {n : Nat} (h : n < 0x80) : lead? (UInt8.ofNat n) = some ⟨0, n, 0x80, 0xBF⟩ := by
  simp only [lead?, toNat_byte (n := n) (by omega), if_pos h]

theorem lead?_two {x : Nat} (h : 2 ≤ x) (h' : x < 32) : lead? (UInt8.ofNat (0xC0 + x)) = some ⟨1, x, 0x80, 0xBF⟩ := by
  simp only [lead?, toNat_byte (n := 0xC0 + x) (by omega)]
  rw [if_neg (by omega), if_neg (by omega), if_pos (by omega), Nat.add_sub_cancel_left]

theorem lead?_three {x : Nat} (h : x < 16) : ∃ low high, lead? (UInt8.ofNat (0xE0 + x)) = some ⟨2, x, low, high⟩ ∧
    (low = 0x80 ∨ x = 0 ∧ low = 0xA0) ∧ (high = 0xBF ∨ x = 0xD ∧ high = 0x9F) := by
  simp only [lead?, toNat_byte (n := 0xE0 + x) (by omega)]
  rw [if_neg (by omega), if_neg (by omega), if_neg (by omega)]
  split_ifs with h0 hD hrest
  · exact ⟨_, _, by rw [show x = 0 by omega], by omega, by omega⟩
  · exact ⟨_, _, by rw [show x = 0xD by omega], by omega, by omega⟩
  · exact ⟨_, _, by rw [Nat.add_sub_cancel_left], by omega, by omega⟩
  all_goals omega

theorem lead?_four {x : Nat} (h : x ≤ 4) : ∃ low high, lead? (UInt8.ofNat (0xF0 + x)) = some ⟨3, x, low, high⟩ ∧
    (low = 0x80 ∨ x = 0 ∧ low = 0x90) ∧ (high = 0xBF ∨ x = 4 ∧ high = 0x8F) := by
  simp only [lead?, toNat_byte (n := 0xF0 + x) (by omega)]
  rw [if_neg (by omega), if_neg (by omega), if_neg (by omega), if_neg (by omega), if_neg (by omega), if_neg (by omega)]
  split_ifs with h0 hrest h4
  · exact ⟨_, _, by rw [show x = 0 by omega], by omega, by omega⟩
  · exact ⟨_, _, by rw [Nat.add_sub_cancel_left], by omega, by omega⟩
  · exact ⟨_, _, by rw [show x = 4 by omega], by omega, by omega⟩
  · omega

theorem decodeFrom_lead {position more bits low high : Nat} {b : UInt8} {rest : List UInt8}
    (hl : lead? b = some ⟨more + 1, bits, low, high⟩) : decodeFrom position .between (b :: rest) =
      decodeFrom (position + 1) (.inside b position 1 (more + 1) bits low high) rest := by
  simp only [decodeFrom, step, hl, Nat.add_one_ne_zero, if_false]
  cases decodeFrom (position + 1) (.inside b position 1 (more + 1) bits low high) rest <;> rfl

section Inside

variable {position start read owed bits low high : Nat} {first b : UInt8} {rest : List UInt8}
  (hb : low ≤ b.toNat ∧ b.toNat ≤ high)
include hb

theorem decodeFrom_more : decodeFrom position (.inside first start read (owed + 2) bits low high) (b :: rest) =
    decodeFrom (position + 1) (.inside first start (read + 1) (owed + 1) (bits * 64 + b.toNat % 64) 0x80 0xBF) rest := by
  simp only [decodeFrom, step, if_pos hb, if_neg (show ¬owed + 2 = 1 by omega)]
  rw [show owed + 2 - 1 = owed + 1 from rfl]
  cases decodeFrom (position + 1) (.inside first start (read + 1) (owed + 1) (bits * 64 + b.toNat % 64) 0x80 0xBF)
    rest <;> rfl

theorem decodeFrom_last : decodeFrom position (.inside first start read 1 bits low high) (b :: rest) =
    (decodeFrom (position + 1) .between rest).map (Char.ofNat (bits * 64 + b.toNat % 64) :: ·) := by
  simp only [decodeFrom, step, if_pos hb, if_pos]
  cases decodeFrom (position + 1) .between rest <;> rfl

end Inside

/-- the bytes of a character are read as the character -/
theorem decodeFrom_encodeChar (position : Nat) (c : Char) (rest : List UInt8) : ∃ position',
    decodeFrom position .between (encodeChar c ++ rest) = (decodeFrom position' .between rest).map (c :: ·) := by
  have hvalid : c.toNat < 0xD800 ∨ 0xDFFF < c.toNat ∧ c.toNat < 0x110000 := c.valid
  have hback : Char.ofNat c.toNat = c := Char.ofNat_toNat c
  unfold encodeChar
  simp only
  split_ifs with h1 h2 h3
  · refine ⟨position + 1, ?_⟩
    simp only [List.cons_append, List.nil_append, decodeFrom, step, lead?_one h1, if_pos, hback]
    cases decodeFrom (position + 1) .between rest <;> rfl
  · refine ⟨position + 1 + 1, ?_⟩
    rw [List.cons_append, decodeFrom_lead (lead?_two (by omega) (by omega)), List.cons_append,
      decodeFrom_last (by rw [toNat_byte (by omega)]; omega), toNat_byte (by omega), List.nil_append,
      show c.toNat / 64 * 64 + (0x80 + c.toNat % 64) % 64 = c.toNat by omega, hback]
  · obtain ⟨low, high, hl, hlow, hhigh⟩ := lead?_three (x := c.toNat / 4096) (by omega)
    refine ⟨position + 1 + 1 + 1, ?_⟩
    rw [List.cons_append, decodeFrom_lead hl, List.cons_append,
      decodeFrom_more (by rw [toNat_byte (by omega)]; omega), List.cons_append,
      decodeFrom_last (by rw [toNat_byte (by omega)]; omega), toNat_byte (by omega), toNat_byte (by omega),
      List.nil_append,
      show (c.toNat / 4096 * 64 + (0x80 + c.toNat / 64 % 64) % 64) * 64 + (0x80 + c.toNat % 64) % 64 = c.toNat by omega,
      hback]
  · obtain ⟨low, high, hl, hlow, hhigh⟩ := lead?_four (x := c.toNat / 262144) (by omega)
    refine ⟨position + 1 + 1 + 1 + 1, ?_⟩
    rw [List.cons_append, decodeFrom_lead hl, List.cons_append,
      decodeFrom_more (by rw [toNat_byte (by omega)]; omega), List.cons_append,
      decodeFrom_more (by rw [toNat_byte (by omega)]; omega), List.cons_append,
      decodeFrom_last (by rw [toNat_byte (by omega)]; omega), toNat_byte (by omega), toNat_byte (by omega),
      toNat_byte (by omega), List.nil_append,
      show ((c.toNat / 262144 * 64 + (0x80 + c.toNat / 4096 % 64) % 64) * 64 + (0x80 + c.toNat / 64 % 64) % 64) * 64 +
        (0x80 + c.toNat % 64) % 64 = c.toNat by omega, hback]

theorem decodeFrom_encode (position : Nat) (t : Text) : decodeFrom position .between (encode t) = .ok t := by
  induction t generalizing position with
  | nil => rfl
  | cons c t ih =>
    obtain ⟨position', h⟩ := decodeFrom_encodeChar position c (encode t)
    rw [encode, List.flatMap_cons]
    rw [encode] at h ih
    rw [h, ih]
    rfl

/-- what is written can be read again -/
theorem decode_encode (t : Text) : decode (encode t) = .ok t := decodeFrom_encode 0 t

/-- no two texts are written alike -/
theorem encode_injective {t u : Text} (h : encode t = encode u) : t = u :=
  Except.ok.inj ((decode_encode t).symm.trans (h ▸ decode_encode u))

end Componentry.Utf8
