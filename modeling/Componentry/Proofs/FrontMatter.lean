/-
What the front matter of a documentation page says.

The title of a component is written behind its name as it is, without quotes. So the front matter says it exactly if it
is a line that needs none.
- `matter?`: the front matter of a page. `matter_docBody`: that of a documentation page, which a line of the title can cut
  short.
- `SaysTitle`: a text writes a mapping of a title and a description, with this title.
- `IsPlainLine`: a title that can be written as it is.

Main result: `docBody_says_iff`.
-/
import Componentry.Artifact
import Componentry.Proofs.Records
import Componentry.Proofs.Yaml.Losing
import Componentry.Proofs.Yaml.Recording

namespace Componentry.Artifact

open Text Yaml

/-! ## Front matter -/

/-- the line in front of front matter, and behind it -/
def fence : Text := "---".toList

/-- the front matter of a page: if its first line is a fence, the lines up to the next one -/
def matter? (page : Text) : Option Text :=
  match splitAt '\n' page with
  | first :: lines =>
    if first = fence ∧ fence ∈ lines then some ((lines.takeWhile (· ≠ fence)).flatMap (· ++ ['\n'])) else none
  | [] => none

/-- a text that writes, as YAML, a mapping with a title and a description and nothing else, with this title -/
def SaysTitle (matter title : Text) : Prop :=
  ∃ contents entries, read matter = .ok contents ∧ contents.resolve contents.root = .record entries ∧
    (entries.map (·.1)).Perm [.text "title".toList, .text "description".toList] ∧
    (.text "title".toList, .text title) ∈ entries

/-- a text that can stand in front matter as it is, behind a name: no characters that YAML does not allow, no line breaks
and tabs, no colon where a word ends and no number sign where one begins -/
structure IsPlainLine (t : Text) : Prop where
  chars : ∀ c ∈ t, isAllowed c = true ∧ isBreak c = false ∧ c ≠ '\t'
  colons : ¬[':', ' '] <:+: t ∧ t.getLast? ≠ some ':'
  signs : ¬[' ', '#'] <:+: t ∧ t.head? ≠ some '#'

instance (t : Text) : Decidable (IsPlainLine t) :=
  decidable_of_iff (_ ∧ _ ∧ _) ⟨fun ⟨h1, h2, h3⟩ => ⟨h1, h2, h3⟩, fun h => ⟨h.1, h.2, h.3⟩⟩

/-- that is, one that a plain scalar holds behind a name, of characters that are allowed -/
theorem isPlainLine_iff {name t : Text} (hname : ∀ c ∈ name, Slug.isNameChar c = true) :
    IsPlainLine t ↔ Plain.Holds (name ++ ' ' :: t) ∧ ∀ c ∈ t, isAllowed c = true := by
  rw [Plain.holds_word_append hname, Plain.holds_iff]
  constructor
  · rintro ⟨hchars, hcolons, hsigns, hhead⟩
    exact ⟨⟨⟨fun c hc => (hchars c hc).2, hcolons, hsigns⟩, hhead⟩, fun c hc => (hchars c hc).1⟩
  · rintro ⟨⟨⟨hchars, hcolons, hsigns⟩, hhead⟩, hallowed⟩
    exact ⟨fun c hc => ⟨hallowed c hc, hchars c hc⟩, hcolons, hsigns, hhead⟩

/-! ## Words and full stops -/

/-- the characters of sentences: letters, digits, spaces and full stops -/
def IsQuiet (c : Char) : Prop := Slug.isNameChar c = true ∨ c = ' ' ∨ c = '.'

theorem IsQuiet.isAllowed {c : Char} (hc : IsQuiet c) : isAllowed c = true := by
  rcases hc with hc | rfl | rfl
  · exact isAllowed_of_isNameChar hc
  · decide
  · decide

theorem IsQuiet.inline {c : Char} (hc : IsQuiet c) : isBreak c = false := by
  rcases hc with hc | rfl | rfl
  · exact isBreak_of_isNameChar hc
  · decide
  · decide

theorem IsQuiet.ne {c d : Char} (hc : IsQuiet c) (hd : Slug.isNameChar d = false) (hspace : d ≠ ' ') (hstop : d ≠ '.') :
    c ≠ d := by
  rcases hc with hc | rfl | rfl
  · exact ne_of_isNameChar hc hd
  · exact hspace.symm
  · exact hstop.symm

/-- a plain scalar holds such text -/
theorem holds_of_quiet {t : Text} (h : ∀ c ∈ t, IsQuiet c) : Plain.Holds t :=
  Plain.holds_of_forall fun c hc => ⟨(h c hc).inline, (h c hc).ne (by decide) (by decide) (by decide),
    (h c hc).ne (by decide) (by decide) (by decide), (h c hc).ne (by decide) (by decide) (by decide)⟩

/-- a line with an entry of such text is harmless -/
theorem harmless_entryLine {key value : Text} (hkey : IsWord key) (hvalue : ∀ c ∈ value, IsQuiet c) :
    Harmless IsQuiet (entryLine key value) where
  flush := flushLeft_entryLine hkey value
  signs := by
    have hquiet : ∀ c, IsQuiet c → c ∉ "]\x7d'\"|>".toList := by
      rintro c hc hmem
      have hall : ∀ d ∈ "]\x7d'\"|>".toList, Slug.isNameChar d = false ∧ d ≠ ' ' ∧ d ≠ '.' := by decide
      obtain ⟨hname, hspace, hstop⟩ := hall c hmem
      exact hc.ne hname hspace hstop rfl
    intro c hc
    rcases mem_entryLine.1 hc with hc | rfl | rfl | hc | rfl
    · exact hquiet c (Or.inl (hkey.chars c hc))
    · decide
    · decide
    · exact hquiet c (hvalue c hc)
    · decide
  tame := by
    have hend : Plain.Tame IsQuiet ['\n'] := .cons (Or.inr (Or.inr ⟨rfl, rfl⟩)) (by simp [Plain.Tame])
    have hbehind : Plain.Tame IsQuiet (' ' :: value ++ ['\n']) :=
      .append (List.forall_mem_cons.2 ⟨Or.inr (Or.inl rfl), hvalue⟩) hend
    have hline : entryLine key value = key ++ ':' :: (' ' :: value ++ ['\n']) := by simp [entryLine]
    rw [hline]
    exact .append (fun c hc => Or.inl (hkey.chars c hc)) (.cons (Or.inr (Or.inl ⟨rfl, rfl⟩)) hbehind)
  space := Or.inr (Or.inl rfl)
  inline := fun _ hc => hc.inline

/-! ## Pages -/

section

variable {a b tail : Text}

/-- a page of some lines and a last one in front of a fence -/
theorem matter?_eq (hb : '\n' ∉ b) : matter? (fence ++ '\n' :: (a ++ '\n' :: (b ++ '\n' :: (fence ++ '\n' :: tail)))) =
    some (((splitAt '\n' a ++ b :: fence :: splitAt '\n' tail).takeWhile (· ≠ fence)).flatMap (· ++ ['\n'])) := by
  have hfence : '\n' ∉ fence := by decide
  unfold matter?
  rw [splitAt_append_sep, splitAt_append_sep, splitAt_append_sep, splitAt_append_sep, splitAt_of_notMem hfence,
    splitAt_of_notMem hb]
  simp

/-- without a fence among them, all lines are front matter -/
theorem matter?_of_notMem (hb : '\n' ∉ b) (hne : b ≠ fence) (ha : fence ∉ splitAt '\n' a) :
    matter? (fence ++ '\n' :: (a ++ '\n' :: (b ++ '\n' :: (fence ++ '\n' :: tail)))) =
      some (a ++ ['\n'] ++ (b ++ ['\n'])) := by
  have hlines : (splitAt '\n' a ++ b :: fence :: splitAt '\n' tail).takeWhile (· ≠ fence) = splitAt '\n' a ++ [b] := by
    have hother : ∀ line ∈ splitAt '\n' a, decide (line ≠ fence) = true :=
      fun line hline => decide_eq_true fun heq => ha (heq ▸ hline)
    rw [List.takeWhile_append_of_pos hother]
    simp [hne]
  rw [matter?_eq hb, hlines, List.flatMap_append, flatMap_splitAt]
  simp

/-- a fence among them ends front matter -/
theorem matter?_of_mem (tail : Text) {p t : Text} (hb : '\n' ∉ b) (hp : '\n' ∉ p) (hfence : ¬p <+: fence)
    (h : fence ∈ splitAt '\n' (p ++ t)) : '\n' ∈ t ∧ ∃ m,
      matter? (fence ++ '\n' :: (p ++ t ++ '\n' :: (b ++ '\n' :: (fence ++ '\n' :: tail)))) = some (p ++ m) ∧
        m.length + fence.length ≤ t.length := by
  obtain ⟨first, pieces, hsplit, -⟩ := splitAt_cons (show 'a' ≠ '\n' by decide) t
  have hline := splitAt_append_left hp hsplit
  have hne : p ++ first ≠ fence := fun heq => hfence ⟨first, heq⟩
  rw [hline] at h
  obtain ⟨before, after, rfl, hbefore⟩ := List.eq_append_cons_of_mem ((List.mem_cons.1 h).resolve_left hne.symm)
  refine ⟨?_, first ++ ['\n'] ++ before.flatMap (· ++ ['\n']), ?_, ?_⟩
  · rcases splitAt_eq_cons hsplit with ⟨-, hnil⟩ | ⟨rest, rfl, -⟩
    · simp at hnil
    · simp
  · have hother : ∀ line ∈ before, decide (line ≠ fence) = true :=
      fun line hline => decide_eq_true fun heq => hbefore (heq ▸ hline)
    have hlines : (splitAt '\n' (p ++ t) ++ b :: fence :: splitAt '\n' tail).takeWhile (· ≠ fence) =
        (p ++ first) :: before := by
      rw [hline, List.cons_append, List.takeWhile_cons_of_pos (by simpa using hne), List.append_assoc,
        List.takeWhile_append_of_pos hother]
      simp
    rw [matter?_eq hb, hlines]
    simp
  · have hlength := congrArg List.length (flatMap_splitAt '\n' t)
    rw [hsplit] at hlength
    simp only [List.flatMap_cons, List.flatMap_append, List.length_append, List.length_cons, List.length_nil] at hlength ⊢
    omega

end

/-! ## Documentation pages -/

/-- the title of an accepted component is not empty and ends in something visible -/
theorem title_of_ofFields {fields : Fields} {c : Component} (h : Component.ofFields fields = .ok c) :
    c.title ≠ [] ∧ Filled c.title := by
  simp only [Component.ofFields, Checked.seq_eq_ok, Checked.map_eq_ok] at h
  obtain ⟨-, -, ⟨-, -, ⟨-, -, ⟨slug, -, rfl⟩, ⟨title, htitle, rfl⟩, rfl⟩, -, rfl⟩, -, rfl⟩ := h
  unfold Fields.required at htitle
  split at htitle
  · obtain ⟨-, hproblem⟩ := Datum.readCheckedText_eq_ok_iff.1 htitle
    refine ⟨fun hnil => ?_, filled_trim title⟩
    have htrimmed : trim title = [] := hnil
    have hblank : Title.isBlank title = true := List.all_eq_true.2 (blanks_trim.1 (htrimmed ▸ blanks_nil))
    simp [Title.problem?, hblank] at hproblem
  · simp [Datum.refuse] at htitle

/-- the text that describes a component -/
def description (c : Component) : Text := c.pascalName ++ " component.".toList

section

variable {c : Component}

/-- front matter is written as two entries -/
theorem frontMatter_eq (c : Component) : frontMatter c =
    entryLine "title".toList (c.pascalName ++ ' ' :: c.title) ++ entryLine "description".toList (description c) := by
  have htitle : "title: ".toList = "title".toList ++ [':', ' '] := rfl
  have hfeed : "\ndescription: ".toList = '\n' :: ("description".toList ++ [':', ' ']) := rfl
  have hend : " component.\n".toList = " component.".toList ++ ['\n'] := rfl
  unfold frontMatter entryLine description
  rw [htitle, hfeed, hend]
  simp only [List.append_assoc, List.cons_append, List.nil_append]

/-- a page begins with front matter between two fences -/
theorem docBody_eq (c : Component) :
    ∃ tail, docBody c = fence ++ '\n' :: (frontMatter c ++ (fence ++ '\n' :: tail)) := by
  have hopen : "---\n".toList = fence ++ ['\n'] := rfl
  have hclose : "---\n\n# ".toList = fence ++ '\n' :: "\n# ".toList := rfl
  unfold docBody
  rw [hopen, hclose]
  simp only [List.append_assoc, List.cons_append, List.nil_append]
  exact ⟨_, rfl⟩

/-- the front matter of a page is what is written there, unless a line of the title is a fence and cuts it short -/
theorem matter_docBody (hname : ∀ d ∈ c.pascalName, Slug.isNameChar d = true) :
    matter? (docBody c) = some (frontMatter c) ∨ '\n' ∈ c.title ∧ ∃ m,
      matter? (docBody c) = some ("title".toList ++ ':' :: ' ' :: (c.pascalName ++ ' ' :: m)) ∧
        m.length < c.title.length := by
  have hfeed : '\n' ∉ c.pascalName := fun hmem => absurd (hname _ hmem) (by decide)
  obtain ⟨tail, hdoc⟩ := docBody_eq c
  generalize ha : "title".toList ++ ':' :: ' ' :: (c.pascalName ++ [' ']) = p
  generalize hb : "description".toList ++ ':' :: ' ' :: description c = b
  have hmatter : frontMatter c = p ++ c.title ++ ['\n'] ++ (b ++ ['\n']) := by
    rw [frontMatter_eq, ← ha, ← hb]
    simp only [entryLine, List.append_assoc, List.cons_append, List.nil_append]
  have hpage : docBody c = fence ++ '\n' :: (p ++ c.title ++ '\n' :: (b ++ '\n' :: (fence ++ '\n' :: tail))) := by
    rw [hdoc, hmatter]
    simp only [List.append_assoc, List.cons_append, List.nil_append]
  have hpfeed : '\n' ∉ p := by
    rw [← ha]
    simp [hfeed]
  have hbfeed : '\n' ∉ b := by
    rw [← hb]
    simp [description, hfeed]
  have hne : b ≠ fence := by
    rw [← hb]
    simp [fence]
  by_cases hcut : fence ∈ splitAt '\n' (p ++ c.title)
  · have hfence : ¬p <+: fence := by
      rw [← ha]
      simp [fence]
    obtain ⟨hmem, m, hm, hlength⟩ := matter?_of_mem tail hbfeed hpfeed hfence hcut
    refine Or.inr ⟨hmem, m, ?_, ?_⟩
    · rw [hpage, hm, ← ha]
      simp
    · have : fence.length = 3 := rfl
      omega
  · rw [hpage, matter?_of_notMem hbfeed hne hcut, hmatter]
    exact Or.inl rfl

/-- the name of a component is letters and digits -/
theorem name_pascalName (hslug : Slug.IsName c.slug) : ∀ d ∈ c.pascalName, Slug.isNameChar d = true := hslug.pascal_eq.2

theorem getLast?_description (c : Component) : (description c).getLast? = some '.' := by
  rw [description, List.getLast?_append]
  rfl

/-- the description is quiet -/
theorem quiet_description (hname : ∀ d ∈ c.pascalName, Slug.isNameChar d = true) : ∀ d ∈ description c, IsQuiet d := by
  intro d hd
  rcases List.mem_append.1 hd with hd | hd
  · exact Or.inl (hname d hd)
  · have hall : ∀ d ∈ " component.".toList, Slug.isNameChar d = true ∨ d = ' ' ∨ d = '.' := by decide
    exact hall d hd

theorem isWord_title : IsWord "title".toList := ⟨by decide, by decide⟩

theorem isWord_description : IsWord "description".toList := ⟨by decide, by decide⟩

/-- the key itself has no space -/
theorem title_ne (name t : Text) : "title".toList ≠ name ++ ' ' :: t := by
  intro heq
  have hspace : ' ' ∈ "title".toList := heq ▸ by simp
  exact absurd hspace (by decide)

/-- what is written ends as the title does -/
theorem getLast?_title (htitle : c.title ≠ [] ∧ Filled c.title) :
    (c.pascalName ++ ' ' :: c.title).getLast? = c.title.getLast? := by
  obtain ⟨d, rest, hd⟩ := List.exists_cons_of_ne_nil htitle.1
  rw [hd, List.getLast?_append, List.getLast?_cons_cons, List.getLast?_cons]
  rfl

/-- the title is an entry as it is written, if a plain scalar holds it -/
theorem isEntry_title (hslug : Slug.IsName c.slug) (htitle : c.title ≠ [] ∧ Filled c.title)
    (hholds : Plain.Holds (c.pascalName ++ ' ' :: c.title)) : IsEntry "title".toList (c.pascalName ++ ' ' :: c.title) where
  word := isWord_title
  short := by decide
  keyText := by decide +kernel
  starts := by
    obtain ⟨⟨d, rest, hpascal, -, hd⟩, -⟩ := hslug.pascal_eq
    simp [Component.pascalName, hpascal, hd]
  ends := by
    rw [getLast?_title htitle]
    intro hlast
    exact absurd (htitle.2 ' ' hlast) (by decide)
  holds := hholds
  valueText := by
    refine Tag.ofPlain_of_word (name_pascalName hslug) ?_
    rw [getLast?_title htitle]
    intro hlast
    exact absurd (htitle.2 '\n' hlast) (by decide)

theorem isEntry_description (hslug : Slug.IsName c.slug) : IsEntry "description".toList (description c) where
  word := isWord_description
  short := by decide
  keyText := by decide +kernel
  starts := by
    obtain ⟨⟨d, rest, hpascal, -, hd⟩, -⟩ := hslug.pascal_eq
    simp [description, Component.pascalName, hpascal, hd]
  ends := by simp [getLast?_description]
  holds := holds_of_quiet (quiet_description (name_pascalName hslug))
  valueText := by
    refine Tag.ofPlain_of_word (name_pascalName hslug) ?_
    change (description c).getLast? ≠ some '\n'
    simp [getLast?_description]

/-- a title that can be written as it is is read -/
theorem saysTitle_of_isPlainLine (hslug : Slug.IsName c.slug) (htitle : c.title ≠ [] ∧ Filled c.title)
    (hplain : IsPlainLine c.title) : SaysTitle (frontMatter c) (c.pascalName ++ ' ' :: c.title) := by
  obtain ⟨hholds, hallowed⟩ := (isPlainLine_iff (name_pascalName hslug)).1 hplain
  have hentry := isEntry_title hslug htitle hholds
  have hname : ∀ d ∈ c.pascalName ++ ' ' :: c.title, isAllowed d = true := by
    intro d hd
    rcases List.mem_append.1 hd with hd | hd
    · exact isAllowed_of_isNameChar (name_pascalName hslug d hd)
    · rcases List.mem_cons.1 hd with rfl | hd
      · decide
      · exact hallowed d hd
  have hchars : ∀ d ∈ entryLine "title".toList (c.pascalName ++ ' ' :: c.title) ++
      entryLine "description".toList (description c), isAllowed d = true :=
    List.forall_mem_append.2 ⟨allowed_entryLine isWord_title hname,
      allowed_entryLine isWord_description fun d hd => (quiet_description (name_pascalName hslug) d hd).isAllowed⟩
  rw [frontMatter_eq]
  obtain ⟨contents, hread, hroot⟩ := read_lines hentry (isEntry_description hslug) (by decide) hchars
  exact ⟨contents, _, hread, hroot, List.Perm.refl _, List.mem_cons_self⟩

/-- and no other title is -/
theorem isPlainLine_of_saysTitle (hslug : Slug.IsName c.slug)
    (hsaid : SaysTitle (frontMatter c) (c.pascalName ++ ' ' :: c.title)) : IsPlainLine c.title := by
  obtain ⟨contents, entries, hread, hroot, -, hmem⟩ := hsaid
  have hname := name_pascalName hslug
  rw [frontMatter_eq] at hread
  have hallowed : ∀ d ∈ c.title, isAllowed d = true := fun d hd =>
    allowed_of_read hread d (List.mem_append_left _ (mem_entryLine.2 (by simp [hd])))
  refine (isPlainLine_iff hname).2 ⟨?_, hallowed⟩
  by_contra hholds
  obtain ⟨d, rest, hpascal⟩ : ∃ d rest, c.pascalName = d :: rest := by
    obtain ⟨⟨d, rest, hpascal, -⟩, -⟩ := hslug.pascal_eq
    exact ⟨d, rest, hpascal⟩
  -- a text of quiet characters would be held
  have hother : ∃ e ∈ c.pascalName ++ ' ' :: c.title, ¬IsQuiet e := by
    by_contra hquiet
    push Not at hquiet
    exact hholds (holds_of_quiet hquiet)
  have hharmless := harmless_entryLine isWord_description (quiet_description hname)
  rw [hpascal] at hread hmem hother hholds hname
  refine notMem_of_not_holds hharmless isWord_title (by decide) (hname d List.mem_cons_self)
    (title_ne (d :: rest) c.title) hother hholds ?_ hroot _ hmem
  simpa [entryLine] using hread

/-- **What the front matter of a documentation page says.** It is there, and is a mapping of a title and a description
with the name and title of the component as its title, exactly if the title can be written as it is. -/
theorem docBody_says_iff {fields : Fields} (hc : Component.ofFields fields = .ok c) (hslug : Slug.IsName c.slug) :
    ∃ matter, matter? (docBody c) = some matter ∧
      (SaysTitle matter (c.pascalName ++ ' ' :: c.title) ↔ IsPlainLine c.title) := by
  have htitle := title_of_ofFields hc
  have hname := name_pascalName hslug
  rcases matter_docBody hname with h | ⟨hfeed, m, h, hlength⟩
  · exact ⟨_, h, isPlainLine_of_saysTitle hslug, saysTitle_of_isPlainLine hslug htitle⟩
  · refine ⟨_, h, fun hsaid => ?_, fun hplain => absurd (hplain.chars '\n' hfeed).2.1 (by decide)⟩
    -- what is left is too short for the title
    obtain ⟨contents, entries, hread, hroot, -, hmem⟩ := hsaid
    obtain ⟨⟨d, rest, hpascal, -, hd⟩, -⟩ := hslug.pascal_eq
    rw [show c.pascalName = d :: rest from hpascal] at hread hmem
    refine absurd hmem (notMem_of_length isWord_title (by decide) hd (title_ne _ _) ?_ hread hroot _)
    simp only [List.append_eq, List.length_append, List.length_cons]
    omega

/-- a title with signs that could matter but do not -/
theorem docBody_says_iff_signs :
    let fields : Fields := [("slug".toList, .text "data-table".toList), ("title".toList, .text " C# ::x -y's \n".toList)]
    let title := "DataTable C# ::x -y's".toList
    ∃ c, Component.ofFields fields = .ok c ∧ Slug.IsName c.slug ∧ c.pascalName ++ ' ' :: c.title = title ∧
      ∃ matter, matter? (docBody c) = some matter ∧ SaysTitle matter title := by
  intro fields title
  have hc : Component.ofFields fields = .ok ⟨"data-table".toList, "C# ::x -y's".toList, "Kg".toList, "kg".toList⟩ := rfl
  obtain ⟨matter, hmatter, hiff⟩ := docBody_says_iff hc (by decide)
  exact ⟨_, hc, by decide, rfl, matter, hmatter, hiff.2 (by decide +kernel)⟩

/-- the front matter with a colon at the end of a word in the title cannot be read -/
theorem docBody_says_not :
    let fields : Fields := [("slug".toList, .text "card".toList), ("title".toList, .text "Input: text".toList)]
    ∃ c, Component.ofFields fields = .ok c ∧ Slug.IsName c.slug ∧
      matter? (docBody c) = some "title: Card Input: text\ndescription: Card component.\n".toList ∧
      (∀ contents, read "title: Card Input: text\ndescription: Card component.\n".toList ≠ .ok contents) ∧
      ¬∃ matter, matter? (docBody c) = some matter ∧ SaysTitle matter (c.pascalName ++ ' ' :: c.title) := by
  have hread : (read "title: Card Input: text\ndescription: Card component.\n".toList).toOption.isNone = true := by
    decide +kernel
  have hmatter : matter? (docBody ⟨"card".toList, "Input: text".toList, "Kg".toList, "kg".toList⟩) =
      some "title: Card Input: text\ndescription: Card component.\n".toList := by decide +kernel
  have hunread : ∀ contents, read "title: Card Input: text\ndescription: Card component.\n".toList ≠ .ok contents := by
    intro contents heq
    rw [heq] at hread
    simp [Except.toOption] at hread
  refine ⟨⟨"card".toList, "Input: text".toList, "Kg".toList, "kg".toList⟩, rfl, by decide, hmatter, hunread, ?_⟩
  rintro ⟨matter, hother, contents, entries, hsaid, -⟩
  obtain rfl := Option.some.inj (hmatter.symm.trans hother)
  exact hunread contents hsaid

end

end Componentry.Artifact
