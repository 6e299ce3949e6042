/-
How a list is laid out after an entry has gone into it.

- `Stacked.appendEntry`: where the items stand on lines of their own, the entry is a line more, indented as the last one.
- `endsInComma_appendEntry`: a comma behind the last item is kept, and none is added.
- `step_keeps_list`: the list is the only one of its kind, before and after, and has the entry as its last item; nothing
  changes before its body and from its closer on.
-/
import Componentry.Proofs.Listing
import Componentry.Proofs.Splice.Settling

namespace Componentry

open Text

namespace Splice

/-! ## The last line -/

theorem lastLine_append {line : Text} (h : '\n' ∉ line) (above : Text) : lastLine (above ++ '\n' :: line) = line := by
  have hline : ∀ c ∈ line.reverse, decide (c ≠ '\n') = true := by
    intro c hc
    exact decide_eq_true (ne_of_mem_of_not_mem (List.mem_reverse.1 hc) h)
  rw [lastLine, List.reverse_append, List.reverse_cons, List.append_assoc, List.takeWhile_append_of_pos hline]
  simp

/-- a list body cut at the line of its last element: the lines above it, its indentation, what stands on it, and the
white space behind -/
structure Stacked (body above indent element tail : Text) : Prop where
  text : body = above ++ '\n' :: (indent ++ element) ++ tail
  indent : Blanks indent ∧ '\n' ∉ indent
  line : '\n' ∉ element
  starts : ∃ c rest, element = c :: rest ∧ isBlank c = false
  ends : Filled element
  tail : Blanks tail

theorem exists_lastLine {t : Text} (h : '\n' ∈ t) : ∃ above line, t = above ++ '\n' :: line ∧ '\n' ∉ line := by
  obtain ⟨before, behind, hreverse, hno⟩ := List.eq_append_cons_of_mem (List.mem_reverse.2 h)
  refine ⟨behind.reverse, before.reverse, ?_, by simpa using hno⟩
  rw [← List.reverse_reverse t, hreverse]
  simp

/-- the first line of a body with items ends before its last visible character -/
theorem feed_mem_trimEnd {body : Text} (h : isStacked body = true) (hfilled : ¬Blanks body) : '\n' ∈ trimEnd body := by
  obtain ⟨tail, hbody, -, hf⟩ := exists_trimEnd body
  have hne : trimEnd body ≠ [] := fun hnil => hfilled (trimEnd_eq_nil_iff.1 hnil)
  rw [hbody] at h
  have hstart : isStacked (trimEnd body ++ []) = true := isStacked_append hf hne [] h
  obtain ⟨s, newline, rest, heq, -⟩ := isStacked_iff.1 hstart
  rw [List.append_nil] at heq
  rw [heq]
  cases newline <;> simp [Newline.text]

/-- the last line of a text that does not end in white space has something on it -/
theorem dropWhile_ne_nil_of_filled {above line : Text} (hf : Filled (above ++ '\n' :: line)) :
    line.dropWhile isBlank ≠ [] := by
  intro hnil
  have hblank : Blanks ('\n' :: line) := List.forall_mem_cons.2 ⟨by decide, List.dropWhile_eq_nil_iff.1 hnil⟩
  obtain ⟨front, c, hlast⟩ := (List.eq_nil_or_concat' ('\n' :: line)).resolve_left (by simp)
  have hc : isBlank c = true := hblank c (by rw [hlast]; simp)
  have hend : isBlank c = false := hf c (by rw [hlast]; simp)
  rw [hc] at hend
  exact absurd hend (by decide)

/-- items on lines of their own have a last line -/
theorem exists_stacked {body : Text} (h : isStacked body = true) (hfilled : ¬Blanks body) :
    ∃ above indent element tail, Stacked body above indent element tail := by
  obtain ⟨tail, hbody, htail, hf⟩ := exists_trimEnd body
  obtain ⟨above, line, hcut, hline⟩ := exists_lastLine (feed_mem_trimEnd h hfilled)
  rw [hcut] at hf hbody
  obtain ⟨c, rest, hhead⟩ := List.exists_cons_of_ne_nil (dropWhile_ne_nil_of_filled hf)
  have hsplit : line.takeWhile isBlank ++ line.dropWhile isBlank = line := List.takeWhile_append_dropWhile
  rw [← hsplit] at hline hf hbody
  rw [List.mem_append, not_or] at hline
  refine ⟨above, line.takeWhile isBlank, line.dropWhile isBlank, tail, hbody,
    ⟨fun d hd => List.mem_takeWhile_imp hd, hline.1⟩, hline.2, ⟨c, rest, hhead, ?_⟩, ?_, htail⟩
  · have hfirst := List.head?_dropWhile_not isBlank line
    rw [hhead] at hfirst
    simpa using hfirst
  · intro d hd
    refine hf d ?_
    rw [← List.cons_append, ← List.append_assoc, List.getLast?_append, hd]
    rfl

/-- **an entry is a line more, indented as the line of the last element and with a comma if that line has one** -/
theorem Stacked.appendEntry {body above indent element tail : Text} (h : Stacked body above indent element tail)
    (hs : isStacked body = true) (newline : Newline) (entry : Text) :
    Splice.appendEntry newline body entry =
      above ++ '\n' :: (indent ++ element) ++ (if element.getLast? = some ',' then [] else [',']) ++
        newline.text ++ indent ++ entry ++ (if element.getLast? = some ',' then [','] else []) ++ tail := by
  obtain ⟨c, rest, hstarts, hc⟩ := h.starts
  have hfilled : Filled (above ++ '\n' :: (indent ++ element)) := by
    intro d hd
    refine h.ends d ?_
    rw [List.getLast?_append, List.getLast?_cons, List.getLast?_append, hstarts, List.getLast?_cons] at hd
    rw [hstarts, List.getLast?_cons]
    simpa using hd
  have hlast : (above ++ '\n' :: (indent ++ element)).getLast? = element.getLast? := by
    rw [List.getLast?_append, List.getLast?_cons, List.getLast?_append, hstarts, List.getLast?_cons]
    rfl
  have hline : '\n' ∉ indent ++ element := by
    rw [List.mem_append, not_or]
    exact ⟨h.indent.2, h.line⟩
  have hindent : indentation (lastLine (above ++ '\n' :: (indent ++ element))) = indent := by
    rw [lastLine_append hline, indentation, List.takeWhile_append_of_pos h.indent.1, hstarts,
      List.takeWhile_cons_of_neg (by simp [hc]), List.append_nil]
  rw [h.text] at hs ⊢
  simp only [Splice.appendEntry, trimEnd_filled_append hfilled h.tail, List.drop_left, hindent, hlast, hs, if_true]
  rw [if_neg (by simp)]
  split_ifs <;> simp

/-! ## The comma at the end -/

/-- a list body whose last visible character is a comma -/
def EndsInComma (body : Text) : Prop := (trimEnd body).getLast? = some ','

/-- **a body that is not empty ends in a comma exactly if it did without the entry** -/
theorem endsInComma_appendEntry (newline : Newline) {body entry : Text} (hfilled : ¬Blanks body)
    (he : ∀ c ∈ entry, Slug.isNameChar c = true) (hne : entry ≠ []) :
    EndsInComma (Splice.appendEntry newline body entry) ↔ EndsInComma body := by
  obtain ⟨tail, hbody, htail, hf⟩ := exists_trimEnd body
  have hvisible : trimEnd body ≠ [] := fun hnil => hfilled (trimEnd_eq_nil_iff.1 hnil)
  obtain ⟨gap, -, -, happend⟩ := appendEntry_filled newline hf hvisible htail entry
  rw [← hbody] at happend
  -- the entry ends in a letter or digit
  obtain ⟨front, d, hentry⟩ := (List.eq_nil_or_concat' entry).resolve_left hne
  have hd : Slug.isNameChar d = true := he d (by rw [hentry]; simp)
  have hcomma : d ≠ ',' := by
    rintro rfl
    exact absurd hd (by decide)
  have hlast : (trimEnd body ++ joined (trimEnd body) gap entry).getLast? =
      if (trimEnd body).getLast? = some ',' then some ',' else some d := by
    unfold joined
    split_ifs <;> simp [hentry, List.getLast?_append, List.getLast?_cons]
  have hjoined : Filled (trimEnd body ++ joined (trimEnd body) gap entry) := by
    intro c hc
    rw [hlast] at hc
    split_ifs at hc with hin
    · rw [← Option.some.inj hc]
      decide
    · rw [← Option.some.inj hc]
      exact Slug.isBlank_of_isNameChar hd
  rw [EndsInComma, happend, trimEnd_filled_append hjoined htail, hlast, EndsInComma]
  split_ifs with hin
  · exact iff_of_true rfl hin
  · exact iff_of_false (fun heq => hcomma (Option.some.inj heq)) hin

end Splice

namespace Index

/-! ## The list with its entry -/

section Entry

variable {kind : ListKind} {c : Component} {t t' : Text}

/-- **a list that takes an entry stays the only one at its place, keeps its items and its layout, and has the entry as its
last item** -/
theorem step_keeps_list (hc : Slug.IsName c.slug) (h : kind.step.apply t c = .ok t') :
    ∃ x body body' rest, t = x ++ body ++ kind.closer :: rest ∧ t' = x ++ body' ++ kind.closer :: rest ∧
      Splice.listSpans t kind.anchor [kind.closer] kind.reject = [⟨x.length, x.length + body.length⟩] ∧
      Splice.listSpans t' kind.anchor [kind.closer] kind.reject = [⟨x.length, x.length + body'.length⟩] ∧
      (c.pascalName ∈ Splice.items body → t' = t) ∧
      (c.pascalName ∉ Splice.items body → Splice.items body' = Splice.items body ++ [c.pascalName]) ∧
      (¬Blanks body → (Splice.EndsInComma body' ↔ Splice.EndsInComma body)) ∧
      (c.pascalName ∉ Splice.items body → ¬Blanks body → Splice.isStacked body = true →
        ∃ above indent element tail, Splice.Stacked body above indent element tail ∧
          body' = above ++ '\n' :: (indent ++ element) ++ (if element.getLast? = some ',' then [] else [',']) ++
            (Newline.ofContent t).text ++ indent ++ c.pascalName ++
            (if element.getLast? = some ',' then [','] else []) ++ tail) := by
  obtain ⟨x, body, rest, rfl, hlist, hsole, rfl⟩ := exists_list_of_step h
  generalize Newline.ofContent (x ++ body ++ kind.closer :: rest) = newline
  obtain ⟨hlist', hsole'⟩ := hlist.entered hsole hc newline
  have hname : ∀ d ∈ c.pascalName, Slug.isNameChar d = true := isName_pascalName hc
  have hne : c.pascalName ≠ [] := pascalName_ne_nil hc
  refine ⟨x, body, entered newline body c.pascalName, rest, rfl, rfl, listSpans_eq_singleton_iff.2 ⟨hlist, hsole⟩,
    listSpans_eq_singleton_iff.2 ⟨hlist', hsole'⟩, ?_, ?_, ?_, ?_⟩
  · intro hin
    rw [entered, if_pos hin]
  · intro hin
    rw [entered, if_neg hin]
    exact Splice.items_appendEntry newline body hname hne
  · intro hfilled
    unfold entered
    split_ifs
    · rfl
    · exact Splice.endsInComma_appendEntry newline hfilled hname hne
  · intro hin hfilled hstacked
    obtain ⟨above, indent, element, tail, hcut⟩ := Splice.exists_stacked hstacked hfilled
    refine ⟨above, indent, element, tail, hcut, ?_⟩
    rw [entered, if_neg hin]
    exact hcut.appendEntry hstacked newline c.pascalName

/-- an export list over several lines behind one that exports from elsewhere, with a comma at its end -/
theorem step_keeps_list_crlf :
    let x := "export \x7b X \x7d from './x'\r\nexport \x7b".toList
    let body := "\r\n  A,\r\n\t B ,\r\n".toList
    let body' := "\r\n  A,\r\n\t B ,\r\n\t DatePicker,\r\n".toList
    let rest := ";\r\n".toList
    let c : Component := ⟨"date-picker".toList, "Title".toList, [], []⟩
    Slug.IsName c.slug ∧
      ListKind.exports.step.apply (x ++ body ++ '\x7d' :: rest) c = .ok (x ++ body' ++ '\x7d' :: rest) ∧
      Splice.listSpans (x ++ body' ++ '\x7d' :: rest) .exportList ['\x7d'] (some .fromClause) =
        [⟨x.length, x.length + body'.length⟩] ∧
      Splice.items body' = Splice.items body ++ [c.pascalName] ∧
      (Splice.EndsInComma body' ↔ Splice.EndsInComma body) := by
  intro x body body' rest c
  have hc : Slug.IsName c.slug := by decide +kernel
  have h : ListKind.exports.step.apply (x ++ body ++ '\x7d' :: rest) c = .ok (x ++ body' ++ '\x7d' :: rest) :=
    Listing.ok_of_toOption (by decide +kernel)
  have hspan : Splice.listSpans (x ++ body ++ '\x7d' :: rest) .exportList ['\x7d'] (some .fromClause) =
      [⟨x.length, x.length + body.length⟩] := by decide +kernel
  have hnew : c.pascalName ∉ Splice.items body := by decide +kernel
  have hfilled : ¬Blanks body := by
    intro hblank
    exact absurd (hblank 'A' (by decide)) (by decide)
  obtain ⟨x₁, body₁, body₂, rest₁, ht, ht', hspans, hspans', -, hitems, hcomma, -⟩ := step_keeps_list hc h
  -- the list that is found is the one that was written down
  have hplace := List.cons.inj (hspan.symm.trans hspans)
  obtain ⟨hstart, hclose⟩ := Splice.ListSpan.mk.inj hplace.1
  simp only [List.append_assoc] at ht ht'
  obtain ⟨rfl, hbody⟩ := List.append_inj ht hstart
  obtain ⟨rfl, hrest⟩ := List.append_inj hbody (by omega)
  obtain ⟨-, rfl⟩ := List.cons.inj hrest
  obtain rfl : body' = body₂ := List.append_cancel_right (List.append_cancel_left ht')
  refine ⟨hc, h, hspans', hitems hnew, hcomma hfilled⟩

end Entry

end Index

end Componentry
