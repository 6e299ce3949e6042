/-
What a screen shows whatever stands in it.

Markup can keep a text from being shown: a tag may close what was never opened. Words without an opening bracket have no
tags, and a mark in a style of one word closes what it opens.
- `Screen.ShowsMarked`: that a screen shows such a mark with such words behind it. It is all that is asked of a screen.
- `piecesFrom_run`: the words of a text without brackets and backslashes are plain.

Main result: `usual_showsMarked`.
-/
import Componentry.Console.Screen
import Componentry.Proofs.Slug

namespace Componentry.Console

open Text

/-- a screen shows a mark in a style of one word, and words behind it that have no opening bracket -/
def Screen.ShowsMarked (screen : Screen) : Prop :=
  ∀ (style : String) (mark words : Text), style.toList ≠ [] → (∀ c ∈ style.toList, isLower c = true) →
    (∀ c ∈ mark, c ≠ '[' ∧ c ≠ '\\') → '[' ∉ words →
    ∃ shown, screen (.text (Markup.inStyle style mark ++ words)) = .ok shown

namespace Markup

/-! ## Pieces -/

theorem tag?_of_ne {c : Char} (hc : c ≠ '[') (rest : Text) : tag? (c :: rest) = none := by
  unfold tag?
  split
  · rename_i heq
    exact absurd (List.cons.inj heq).1 hc
  · rfl

theorem tag?_of_notMem {t : Text} (h : '[' ∉ t) : tag? t = none := by
  cases t with
  | nil => rfl
  | cons c rest => exact tag?_of_ne (List.ne_of_not_mem_cons h).symm rest

/-- without an opening bracket a text is plain -/
theorem piecesFrom_of_notMem {t : Text} (h : '[' ∉ t) (fuel position : Nat) (before : Text) :
    ∀ piece ∈ piecesFrom fuel position before t, ∃ u, piece = .plain u := by
  induction fuel generalizing position before t with
  | zero => simp [piecesFrom]
  | succ fuel ih =>
    cases t with
    | nil => simp [piecesFrom]
    | cons c rest =>
      have hdrop : ∀ n, '[' ∉ (c :: rest).drop n := fun n hm => h (List.mem_of_mem_drop hm)
      have hnext : '[' ∉ ((c :: rest).drop ((c :: rest).takeWhile (· = '\\')).length).drop 1 :=
        fun hm => hdrop _ (List.mem_of_mem_drop hm)
      simp only [piecesFrom, tag?_of_notMem (hdrop _)]
      exact ih hnext _ _

theorem exists_shownPieces {ps : List Piece} (h : ∀ piece ∈ ps, ∃ u, piece = .plain u) (opened : List Text) :
    ∃ t, shownPieces opened ps = .ok t := by
  induction ps with
  | nil => exact ⟨[], rfl⟩
  | cons piece ps ih =>
    obtain ⟨u, rfl⟩ := h piece List.mem_cons_self
    obtain ⟨t, ht⟩ := ih fun piece hp => h piece (List.mem_cons_of_mem _ hp)
    exact ⟨shownPlain u ++ t, by rw [shownPieces, ht]; rfl⟩

theorem piecesFrom_tag {words after t : Text} (htag : tag? t = some (words, after)) (ht : t.head? ≠ some '\\')
    (fuel position : Nat) (before : Text) : piecesFrom (fuel + 1) position before t =
      .plain before.reverse :: .plain [] :: .tag words position ::
        piecesFrom fuel (position + words.length + 2) [] after := by
  cases t with
  | nil => simp [tag?] at htag
  | cons c rest =>
    have hslashes : (c :: rest).takeWhile (· = '\\') = [] := by simpa using ht
    simp [piecesFrom, hslashes, htag, afterSlashes]

theorem piecesFrom_plain {c : Char} {rest : Text} (hc : c ≠ '\\') (htag : tag? (c :: rest) = none) (fuel position : Nat)
    (before : Text) : piecesFrom (fuel + 1) position before (c :: rest) =
      piecesFrom fuel (position + 1) (c :: before) rest := by
  have hslashes : (c :: rest).takeWhile (· = '\\') = [] := by simp [hc]
  simp [piecesFrom, hslashes, htag]

/-- a text without opening brackets and backslashes is plain, whatever follows it -/
theorem piecesFrom_run {mark : Text} (h : ∀ c ∈ mark, c ≠ '[' ∧ c ≠ '\\') (rest : Text) (fuel position : Nat)
    (before : Text) : piecesFrom (fuel + mark.length) position before (mark ++ rest) =
      piecesFrom fuel (position + mark.length) (mark.reverse ++ before) rest := by
  induction mark generalizing position before with
  | nil => rfl
  | cons c mark ih =>
    obtain ⟨hc, hmark⟩ := List.forall_mem_cons.1 h
    rw [List.length_cons, ← Nat.add_assoc, List.cons_append, piecesFrom_plain hc.2 (tag?_of_ne hc.1 _), ih hmark,
      List.reverse_cons, List.append_assoc, List.singleton_append, Nat.add_assoc position, Nat.add_comm 1]

/-- the words between brackets are a tag -/
theorem tag?_of_words (words : Text) (hstart : words.head?.any startsTag = true)
    (hwords : ∀ c ∈ words, c ≠ '[' ∧ c ≠ ']') (rest : Text) :
    tag? ('[' :: (words ++ ']' :: rest)) = some (words, rest) := by
  have hhead : (words ++ ']' :: rest).head?.any startsTag = true := by
    cases words with
    | nil => simp at hstart
    | cons c words => exact hstart
  have htake : (words ++ ']' :: rest).takeWhile (fun c => decide (c ≠ '[') && decide (c ≠ ']')) = words := by
    rw [List.takeWhile_append_of_pos (by simpa using hwords)]
    simp
  simp only [tag?, hhead, if_true, ne_eq, decide_not] at htake ⊢
  simp [htake]

/-! ## A mark in a style -/

variable {style mark words : Text}

theorem isLower_ne {c : Char} (h : isLower c = true) : c ≠ '[' ∧ c ≠ ']' ∧ c ≠ '/' ∧ c ≠ '=' := by
  refine ⟨?_, ?_, ?_, ?_⟩ <;> rintro rfl <;> exact absurd h (by decide)

/-- a tag with the word of a style opens it, and the one with a slash closes it -/
theorem afterTag?_of_style (hne : style ≠ []) (hlower : ∀ c ∈ style, isLower c = true) :
    ∃ name, afterTag? [] style = some [name] ∧ afterTag? [name] ('/' :: style) = some [] := by
  have hname : nameOf style = style := by
    rw [nameOf, List.takeWhile_eq_self_iff]
    intro c hc
    simpa using (isLower_ne (hlower c hc)).2.2.2
  have htrim : trim style = style := by
    have hvisible : ∀ c ∈ style, isBlank c = false := fun c hc =>
      Slug.isBlank_of_isNameChar (Slug.isNameChar_of_isLower (hlower c hc))
    exact trim_of_visible (fun c hc => hvisible c (List.mem_of_mem_head? hc))
      fun c hc => hvisible c (List.mem_of_getLast? hc)
  have hclosing : nameOf ('/' :: style) = '/' :: style := by
    rw [nameOf, List.takeWhile_cons_of_pos (by decide), ← nameOf, hname]
  refine ⟨styleName style, ?_, ?_⟩
  · unfold afterTag?
    rw [hname]
    split
    · rename_i heq
      exact absurd rfl (isLower_ne (hlower '/' (by simp))).2.2.1
    · rfl
  · unfold afterTag?
    rw [hclosing]
    simp [htrim, hne]

/-- a mark in a style comes apart into the tag that opens it, the mark, the tag that closes it, and the words behind -/
theorem exists_pieces {style : String} (hne : style.toList ≠ []) (hlower : ∀ c ∈ style.toList, isLower c = true)
    (hmark : ∀ c ∈ mark, c ≠ '[' ∧ c ≠ '\\') (words : Text) : ∃ fuel position, pieces (inStyle style mark ++ words) =
      [.plain [], .plain [], .tag style.toList 0, .plain mark, .plain [], .tag ('/' :: style.toList) position] ++
        piecesFrom fuel (position + ('/' :: style.toList).length + 2) [] words := by
  have htext : inStyle style mark ++ words =
      '[' :: (style.toList ++ ']' :: (mark ++ '[' :: (('/' :: style.toList) ++ ']' :: words))) := by
    simp [inStyle]
  have hfuel : (inStyle style mark ++ words).length + 1 =
      words.length + 2 * style.toList.length + 4 + 1 + mark.length + 1 := by
    rw [htext]
    simp only [List.length_append, List.length_cons]
    omega
  have hbrackets : ∀ c ∈ style.toList, c ≠ '[' ∧ c ≠ ']' := fun c hc =>
    ⟨(isLower_ne (hlower c hc)).1, (isLower_ne (hlower c hc)).2.1⟩
  have hstart : style.toList.head?.any startsTag = true := by
    obtain ⟨c, rest, hcons⟩ := List.exists_cons_of_ne_nil hne
    simp [hcons, startsTag, hlower c (by simp [hcons])]
  have hopening := tag?_of_words style.toList hstart hbrackets
  have hclosing := tag?_of_words ('/' :: style.toList) rfl (List.forall_mem_cons.2 ⟨by decide, hbrackets⟩)
  refine ⟨words.length + 2 * style.toList.length + 4, 0 + style.toList.length + 2 + mark.length, ?_⟩
  rw [pieces, hfuel, htext, piecesFrom_tag (hopening _) (by simp), piecesFrom_run hmark,
    piecesFrom_tag (hclosing _) (by simp), List.append_nil, List.reverse_reverse]
  rfl

/-- a mark in a style is shown, with words behind it that have no opening bracket -/
theorem exists_shown_marked {style : String} (hne : style.toList ≠ []) (hlower : ∀ c ∈ style.toList, isLower c = true)
    (hmark : ∀ c ∈ mark, c ≠ '[' ∧ c ≠ '\\') (hwords : '[' ∉ words) :
    ∃ t, shown (inStyle style mark ++ words) = .ok t := by
  obtain ⟨name, hopened, hclosed⟩ := afterTag?_of_style hne hlower
  obtain ⟨fuel, position, hpieces⟩ := exists_pieces hne hlower hmark words
  have hplain := piecesFrom_of_notMem hwords fuel (position + ('/' :: style.toList).length + 2) []
  obtain ⟨t, ht⟩ := exists_shownPieces hplain []
  rw [shown, hpieces]
  simp only [List.cons_append, List.nil_append, shownPieces, hopened, hclosed, ht]
  exact ⟨_, rfl⟩

end Markup

/-- **the usual screen shows a mark in a style of one word** -/
theorem Screen.usual_showsMarked : Screen.usual.ShowsMarked := by
  intro style mark words hne hlower hmark hwords
  obtain ⟨t, ht⟩ := Markup.exists_shown_marked hne hlower hmark hwords
  exact ⟨_, by rw [Screen.usual, Block.shown, ht]; rfl⟩

end Componentry.Console
