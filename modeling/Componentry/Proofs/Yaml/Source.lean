/-
What is read of the bytes of a settings file.

Bytes come in blocks, and a block can end inside a character, between a CR and its LF, or behind the first two bytes of a
surrogate, which is refused only in the next one.
- `decodeFrom_append`: what a block ends in is made up for by the next one.
- `ofBytes_of_decode`: the source of bytes that write a text is that text, with all its line endings read as LF; so no
  block shows.
- `decode_of_stop_eq_none`: bytes whose source does not stop are UTF-8.
- `ofBytes_of_short`: of bytes of one block that are no UTF-8 nothing can be read, so no other fault is met before them.
-/
import Componentry.Proofs.Text.Utf8
import Componentry.Yaml.Source

namespace Componentry

/-! ## Line endings of joined texts -/

/-- line endings are read apart in two texts, unless a CR and its LF are -/
theorem Text.universalNewlines_append {a b : Text} (h : a.getLast? ≠ some '\r' ∨ b.head? ≠ some '\n') :
    universalNewlines (a ++ b) = universalNewlines a ++ universalNewlines b := by
  induction a using universalNewlines.induct with
  | case1 => rfl
  | case2 rest ih =>
    have hlast : rest.getLast? ≠ some '\r' ∨ b.head? ≠ some '\n' := by
      refine h.imp_left fun hne heq => hne ?_
      simp [List.getLast?_cons, heq]
    simp only [List.cons_append, universalNewlines, ih hlast]
  | case3 rest hrest ih =>
    cases rest with
    | nil =>
      have hb : b.head? ≠ some '\n' := by simpa using h
      cases b with
      | nil => rfl
      | cons c b =>
        have hc : c ≠ '\n' := by simpa using hb
        simp only [List.cons_append, List.nil_append]
        rw [universalNewlines.eq_3 _ (by simpa using hc), universalNewlines.eq_3 _ (by simp)]
        rfl
    | cons c rest =>
      have hc : c ≠ '\n' := by
        rintro rfl
        exact hrest rest rfl
      have hlast : (c :: rest).getLast? ≠ some '\r' ∨ b.head? ≠ some '\n' := by
        refine h.imp_left fun hne heq => hne ?_
        simpa [List.getLast?_cons] using heq
      simp only [List.cons_append] at ih ⊢
      rw [universalNewlines.eq_3 _ (by simpa using hc), universalNewlines.eq_3 _ (by simpa using hc), ih hlast,
        List.cons_append]
  | case4 c rest _ hc ih =>
    have hlast : rest.getLast? ≠ some '\r' ∨ b.head? ≠ some '\n' := by
      refine h.imp_left fun hne heq => hne ?_
      simp [List.getLast?_cons, heq]
    rw [List.cons_append, universalNewlines.eq_4 _ _ (fun _ h => absurd h hc) hc,
      universalNewlines.eq_4 _ _ (fun _ h => absurd h hc) hc, ih hlast, List.cons_append]

namespace Utf8

/-! ## Bytes in blocks -/

/-- two states that differ at most in what they say about places -/
def State.Alike : State → State → Prop
  | .between, .between => True
  | .inside _ _ _ owed bits low high, .inside _ _ _ owed' bits' low' high' =>
    owed = owed' ∧ bits = bits' ∧ low = low' ∧ high = high'
  | .surrogate .., .surrogate .. => True
  | _, _ => False

theorem State.Alike.refl (s : State) : s.Alike s := by
  cases s <;> simp [State.Alike]

theorem State.Alike.symm {s s' : State} (h : s.Alike s') : s'.Alike s := by
  cases s <;> cases s' <;> simp_all [State.Alike]

theorem State.rebase_alike (s : State) : s.Alike s.rebase.1 := by
  cases s <;> simp [State.Alike, State.rebase]

/-- the place does not matter to whether a byte can be read, and to what it completes -/
theorem step_congr {s s' : State} (h : s.Alike s') (m n : Nat) (b : UInt8) :
    (∃ f f', step m s b = .error f ∧ step n s' b = .error f') ∨
      ∃ c next next', step m s b = .ok (c, next) ∧ step n s' b = .ok (c, next') ∧ next.Alike next' := by
  cases s with
  | between =>
    cases s' with
    | inside | surrogate => exact h.elim
    | between =>
      simp only [step]
      cases lead? b with
      | none => exact Or.inl ⟨_, _, rfl, rfl⟩
      | some l =>
        simp only
        split_ifs
        · exact Or.inr ⟨_, _, _, rfl, rfl, .refl _⟩
        · exact Or.inr ⟨_, _, _, rfl, rfl, rfl, rfl, rfl, rfl⟩
  | inside first start read owed bits low high =>
    cases s' with
    | between | surrogate => exact h.elim
    | inside first' start' read' owed' bits' low' high' =>
      obtain ⟨rfl, rfl, rfl, rfl⟩ := h
      simp only [step]
      split_ifs
      · exact Or.inr ⟨_, _, _, rfl, rfl, .refl _⟩
      · exact Or.inr ⟨_, _, _, rfl, rfl, rfl, rfl, rfl, rfl⟩
      · exact Or.inl ⟨_, _, rfl, rfl⟩
  | surrogate first start =>
    cases s' with
    | between | inside => exact h.elim
    | surrogate first' start' => exact Or.inl ⟨_, _, rfl, rfl⟩

/-- what bytes write does not depend on their place -/
theorem decodeFrom_congr {s s' : State} (h : s.Alike s') (m n : Nat) {bytes : List UInt8} {t : Text}
    (ht : decodeFrom m s bytes = .ok t) : decodeFrom n s' bytes = .ok t := by
  induction bytes generalizing m n s s' t with
  | nil =>
    cases s with
    | between =>
      cases s' with
      | between => exact ht
      | inside | surrogate => exact h.elim
    | inside | surrogate => simp [decodeFrom] at ht
  | cons b bytes ih =>
    unfold decodeFrom at ht ⊢
    rcases step_congr h m n b with ⟨f, f', hf, -⟩ | ⟨c, next, next', hc, hc', hnext⟩
    · simp [hf] at ht
    · rw [hc] at ht
      rw [hc']
      simp only at ht ⊢
      cases hx : decodeFrom (m + 1) next bytes with
      | error f => simp [hx] at ht
      | ok u =>
        rw [hx] at ht
        rw [ih hnext (m + 1) (n + 1) hx]
        exact ht

/-- a surrogate that the end of a block cuts off is refused after it as it would have been before -/
theorem decodeFrom_cut {m n : Nat} {s cut : State} {b : UInt8} {f : Fault} (h : step m s b = .error f)
    (hcut : s.cut? b = some cut) (rest : List UInt8) : decodeFrom n cut rest = .error f := by
  unfold State.cut? at hcut
  split at hcut
  · rename_i first start owed bits low high
    split_ifs at hcut
    obtain rfl := Option.some.inj hcut
    simp only [step] at h
    split_ifs at h
    obtain rfl := Except.error.inj h
    cases rest <;> rfl
  · simp at hcut

/-- a block and what comes after it: the block is read, and then the rest from the state it ends in -/
theorem decodeFrom_append (m : Nat) (s : State) (block rest : List UInt8) :
    decodeFrom m s (block ++ rest) =
      (decodePart m s block).bind fun r => (decodeFrom (m + block.length) r.2 rest).map (r.1 ++ ·) := by
  induction block generalizing m s with
  | nil =>
    simp only [List.nil_append, decodePart, Except.bind, List.length_nil, Nat.add_zero]
    cases decodeFrom m s rest <;> rfl
  | cons b block ih =>
    simp only [List.cons_append, decodeFrom, decodePart, List.length_cons]
    cases hstep : step m s b with
    | error f =>
      simp only
      split
      · rename_i cut hcut
        simp [Except.bind, Except.map, decodeFrom_cut hstep hcut]
      · rfl
    | ok r =>
      obtain ⟨c, next⟩ := r
      simp only [ih]
      rw [show m + 1 + block.length = m + (block.length + 1) by omega]
      cases decodePart (m + 1) next block with
      | error f => rfl
      | ok r =>
        simp only [Except.bind]
        cases decodeFrom (m + (block.length + 1)) r.2 rest with
        | error f => rfl
        | ok t => cases c <;> rfl

/-- a state with a byte that writes no character yet -/
def State.pending : State → Nat
  | .between => 0
  | _ => 1

end Utf8

namespace Yaml.Source

open Text

namespace Progress

/-- the text of a CR that is held back -/
def heldText (held : Bool) : Text := if held then ['\r'] else []

/-- a block settled: what is held back afterwards is the CR at its end, and the rest is read with LF -/
theorem exists_settled {body : Text} {held : Bool} (h : held = false → body.getLast? ≠ some '\r') (chars : Text) :
    ∃ body', body ++ heldText held ++ chars = body' ++ heldText (settle held chars).2 ∧
      universalNewlines body ++ (settle held chars).1 = universalNewlines body' ∧
      ((settle held chars).2 = false → body'.getLast? ≠ some '\r') := by
  by_cases hnil : chars = []
  · exact ⟨body, by simp [settle, hnil], by simp [settle, hnil], by simpa [settle, hnil] using h⟩
  · obtain ⟨all, hall, hsettle⟩ : ∃ all, all = heldText held ++ chars ∧ settle held chars =
        if all.getLast? = some '\r' then (universalNewlines all.dropLast, true) else (universalNewlines all, false) := by
      refine ⟨_, rfl, ?_⟩
      cases held <;> simp [settle, heldText, hnil]
    -- nothing is torn apart where the settled part is put behind what was read before
    have hjoin : ∀ part, part <+: all → universalNewlines body ++ universalNewlines part =
        universalNewlines (body ++ part) := by
      intro part hpart
      refine (universalNewlines_append ?_).symm
      cases held with
      | false => exact Or.inl (h rfl)
      | true =>
        refine Or.inr fun hhead => ?_
        cases part with
        | nil => simp at hhead
        | cons c part =>
          rw [hall] at hpart
          obtain ⟨rfl, -⟩ := List.cons_prefix_cons.1 hpart
          simp at hhead
    have hne : all ≠ [] := by simp [hall, hnil]
    rw [List.append_assoc, ← hall, hsettle]
    split_ifs with hlast
    · refine ⟨body ++ all.dropLast, ?_, hjoin _ (List.dropLast_prefix all), by simp⟩
      have hsplit := List.dropLast_append_getLast? _ hlast
      simp only [heldText, if_true, List.append_assoc, hsplit]
    · refine ⟨body ++ all, by simp [heldText], hjoin _ (List.prefix_refl all), fun _ => ?_⟩
      cases hx : all.getLast? with
      | none => simp [List.getLast?_eq_none_iff, hne] at hx
      | some c =>
        rw [List.getLast?_append, hx, Option.some_or]
        rwa [hx] at hlast

/-- the text `t` is on the way: some of it is read, with LF for its line endings and a CR at the end held back, and the
bytes that are left write the rest -/
structure Reads (p : Progress) (t : Text) : Prop where
  body : ∃ body rest, t = body ++ heldText p.held ++ rest ∧ p.chars.reverse = universalNewlines body ∧
    (p.held = false → body.getLast? ≠ some '\r') ∧ Utf8.decodeFrom 0 p.state p.bytes = .ok rest

/-- enough blocks for the bytes that are left -/
def Suffices (fuel : Nat) (bytes : List UInt8) : Prop :=
  bytes = [] ∧ 0 < fuel ∨ bytes.length + blockSize < blockSize * fuel

theorem Suffices.drop {fuel : Nat} {bytes : List UInt8} (h : Suffices (fuel + 1) bytes) (hne : bytes ≠ []) {size : Nat}
    (hsize : blockSize ≤ size) : Suffices fuel (bytes.drop size) := by
  replace h := h.resolve_left fun hnil => hne hnil.1
  unfold Suffices
  simp only [List.drop_eq_nil_iff, List.length_drop, blockSize] at *
  omega

theorem suffices_start (bytes : List UInt8) : Suffices (bytes.length / blockSize + 2) bytes := by
  refine Or.inr ?_
  have := Nat.div_add_mod bytes.length blockSize
  have := Nat.mod_lt bytes.length (show 0 < blockSize by decide)
  simp only [blockSize] at *
  omega

theorem blockSize_le_nextSize (p : Progress) : blockSize ≤ p.nextSize := by
  unfold nextSize
  exact le_max_left _ _

/-- reading to the end -/
theorem Reads.run {fuel : Nat} {p : Progress} {t : Text} (h : p.Reads t) (hf : Suffices fuel p.bytes) :
    run fuel p = ofText (universalNewlines t) := by
  induction fuel generalizing p with
  | zero => simp [Suffices] at hf
  | succ fuel ih =>
    obtain ⟨body, rest, ht, hchars, hheld, hrest⟩ := h
    have hdecode := Utf8.decodeFrom_congr p.state.rebase_alike 0 p.state.rebase.2 hrest
    unfold Progress.run
    by_cases hnil : p.bytes = []
    · rw [hnil] at hdecode
      simp only [hnil, List.isEmpty_nil, if_true, hdecode]
      have hempty : rest = [] := by
        cases hs : p.state.rebase.1 with
        | between => simpa [hs, Utf8.decodeFrom] using hdecode.symm
        | inside | surrogate => simp [hs, Utf8.decodeFrom] at hdecode
      have hall : p.all = universalNewlines t := by
        rw [ht, hempty, List.append_nil]
        cases hh : p.held with
        | false => simp [Progress.all, heldText, hh, hchars]
        | true =>
          rw [universalNewlines_append (Or.inr (by simp [heldText])), ← hchars]
          simp [Progress.all, heldText, hh, universalNewlines]
      rw [hall]
    · rw [← List.take_append_drop p.nextSize p.bytes, Utf8.decodeFrom_append] at hdecode
      simp only [List.isEmpty_iff, hnil, if_false]
      cases hpart : Utf8.decodePart p.state.rebase.2 p.state.rebase.1 (p.bytes.take p.nextSize) with
      | error f => simp [hpart, Except.bind] at hdecode
      | ok r =>
        obtain ⟨chars, state⟩ := r
        rw [hpart] at hdecode
        simp only [Except.bind] at hdecode
        cases hlater : Utf8.decodeFrom (p.state.rebase.2 + (p.bytes.take p.nextSize).length) state
            (p.bytes.drop p.nextSize) with
        | error f =>
        rw [hlater] at hdecode
        simp [Except.map] at hdecode
        | ok later =>
          rw [hlater] at hdecode
          obtain ⟨body', hbody, hsettled, hheld'⟩ := exists_settled hheld chars
          refine ih ⟨body', later, ?_, ?_, hheld', Utf8.decodeFrom_congr (.refl _) _ 0 hlater⟩
            (hf.drop hnil p.blockSize_le_nextSize)
          · rw [ht, ← hbody, ← Except.ok.inj hdecode, List.append_assoc _ chars]
          · simp [hchars, hsettled]

end Progress

/-- **The source of a file in UTF-8** is its text with LF for all line endings, however it is cut in blocks. -/
theorem ofBytes_of_decode {bytes : List UInt8} {t : Text} (h : Utf8.decode bytes = .ok t) :
    ofBytes bytes = ofText (universalNewlines t) := by
  exact Progress.Reads.run ⟨[], t, rfl, rfl, by simp, h⟩ (Progress.suffices_start bytes)

/-! ## What stops a source -/

theorem ofText_stop {t : Text} {f : Fault} (h : (ofText t).stop = some f) : f = .malformed := by
  unfold ofText at h
  split at h
  · exact (Option.some.inj h).symm
  · simp at h

/-- a text is read to its end exactly if all its characters are allowed -/
theorem ofText_of_allowed {t : Text} (h : ∀ c ∈ t, isAllowed c = true) : ofText t = ⟨t, none⟩ := by
  have hnone : t.findIdx? (fun c => !isAllowed c) = none :=
    List.findIdx?_eq_none_iff.2 fun c hc => by simp [h c hc]
  unfold ofText
  rw [hnone]

theorem allowed_of_stop_eq_none {t : Text} (h : (ofText t).stop = none) : ∀ c ∈ t, isAllowed c = true := by
  unfold ofText at h
  split at h
  · simp [stopped] at h
  · rename_i hnone
    intro c hc
    simpa using List.findIdx?_eq_none_iff.1 hnone c hc

/-! ## Bytes that are no UTF-8 -/

theorem before_stop_ne_none (t : Text) (g : Utf8.Fault) : (before t g).stop ≠ none := by
  unfold before
  split
  · split_ifs <;> simp [stopped]
  · simp [stopped]

/-- with enough blocks, bytes whose source does not stop write a text -/
theorem Progress.exists_of_run {fuel : Nat} {p : Progress} (hf : Suffices fuel p.bytes) (h : (run fuel p).stop = none) :
    ∃ t, Utf8.decodeFrom 0 p.state p.bytes = .ok t := by
  induction fuel generalizing p with
  | zero => simp [Suffices] at hf
  | succ fuel ih =>
    unfold Progress.run at h
    by_cases hnil : p.bytes = []
    · simp only [hnil, List.isEmpty_nil, if_true] at h
      split at h
      · rename_i t hend
        exact ⟨t, hnil ▸ Utf8.decodeFrom_congr p.state.rebase_alike.symm _ 0 hend⟩
      · exact absurd h (before_stop_ne_none _ _)
    · simp only [List.isEmpty_iff, hnil, if_false] at h
      split at h
      · exact absurd h (before_stop_ne_none _ _)
      · rename_i chars state hpart
        obtain ⟨later, hlater⟩ := ih (hf.drop hnil p.blockSize_le_nextSize) h
        have hall : Utf8.decodeFrom p.state.rebase.2 p.state.rebase.1 p.bytes = .ok (chars ++ later) := by
          rw [← List.take_append_drop p.nextSize p.bytes, Utf8.decodeFrom_append, hpart]
          simp only [Except.bind]
          rw [Utf8.decodeFrom_congr (.refl _) 0 _ hlater]
          rfl
        exact ⟨_, Utf8.decodeFrom_congr p.state.rebase_alike.symm _ 0 hall⟩

/-- a source that does not stop is one of UTF-8 -/
theorem decode_of_stop_eq_none {bytes : List UInt8} (h : (ofBytes bytes).stop = none) :
    ∃ t, Utf8.decode bytes = .ok t :=
  Progress.exists_of_run (Progress.suffices_start bytes) h

end Yaml.Source

end Componentry
