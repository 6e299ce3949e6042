/-
Which texts are accepted as slugs and as tokens, and what names come of them.

A check looks at a text up to a line feed at its end, so that it accepts what its grammar says and each such text with
one more line feed.
- `chomp_iff`: what is looked at is of the grammar exactly if the text is, up to that line feed.
- `problem?_eq_none_iff`: a slug needs, besides, a character that is no hyphen, and the line feed is one.
- `isNameLike_pascal_iff`, `isNameLike_tag_iff`, `isNameLike_cssClass_iff`: the line feed goes into every name that is made of the
  text, and no other character does that is not a letter, a digit or a hyphen.

Main result: `accepted_iff`.
-/
import Componentry.Proofs.Naming
import Componentry.Proofs.Records

namespace Componentry

open Text

/-! ## The end of a text -/

namespace Text

/-- a text that has a property, or one that has it with a line feed behind it -/
def UpToFeed (P : Text → Prop) (t : Text) : Prop := ∃ s, P s ∧ (t = s ∨ t = s ++ ['\n'])

/-- what a check looks at has a property, of texts without line feeds, exactly if the text has it up to a line feed -/
theorem chomp_iff {P : Text → Prop} (hP : ∀ s, P s → '\n' ∉ s) {t : Text} : P (chomp t) ↔ UpToFeed P t := by
  unfold chomp
  split_ifs with hend
  · obtain ⟨front, rfl⟩ := List.getLast?_eq_some_iff.1 hend
    rw [List.dropLast_concat]
    constructor
    · exact fun h => ⟨front, h, Or.inr rfl⟩
    · rintro ⟨s, hs, rfl | heq⟩
      · exact absurd (by simp) (hP _ hs)
      · rwa [List.append_cancel_right heq]
  · constructor
    · exact fun h => ⟨t, h, Or.inl rfl⟩
    · rintro ⟨s, hs, rfl | rfl⟩
      · exact hs
      · exact absurd List.getLast?_concat hend

/-- letters, digits and hyphens of ASCII alone, and so a single line -/
def IsNameLike (t : Text) : Prop := ∀ c ∈ t, Slug.isNameChar c = true ∨ c = '-'

/-- such characters or line feeds -/
def IsNearlyNameLike (t : Text) : Prop := ∀ c ∈ t, (Slug.isNameChar c = true ∨ c = '-') ∨ c = '\n'

theorem IsNameLike.feed_notMem {t : Text} (h : IsNameLike t) : '\n' ∉ t := fun hm => absurd (h _ hm) (by decide)

theorem IsNearlyNameLike.isNameLike_iff {t : Text} (h : IsNearlyNameLike t) : IsNameLike t ↔ '\n' ∉ t := by
  refine ⟨IsNameLike.feed_notMem, fun hno c hc => (h c hc).resolve_right ?_⟩
  rintro rfl
  exact hno hc

theorem UpToFeed.isNearlyNameLike {P : Text → Prop} (hP : ∀ s, P s → IsNameLike s) {t : Text} (h : UpToFeed P t) :
    IsNearlyNameLike t := by
  obtain ⟨s, hs, rfl | rfl⟩ := h
  · exact fun c hc => Or.inl (hP _ hs c hc)
  · refine List.forall_mem_append.2 ⟨fun c hc => Or.inl (hP _ hs c hc), fun c hc => Or.inr ?_⟩
    exact List.mem_singleton.1 hc

end Text

/-! ## Slugs -/

namespace Slug

/-- a slug by its grammar: small letters, digits and hyphens, at least one of them -/
def IsSlug (s : Text) : Prop := s ≠ [] ∧ ∀ c ∈ s, isSlugChar c = true

theorem isNameLike_of_isSlugChar {s : Text} (h : ∀ c ∈ s, isSlugChar c = true) : IsNameLike s := fun c hc => by
  by_cases hhyphen : c = '-'
  · exact Or.inr hhyphen
  · exact Or.inl (isNameChar_of_isSlugChar (h c hc) hhyphen)

theorem IsSlug.isNameLike {s : Text} (h : IsSlug s) : IsNameLike s := isNameLike_of_isSlugChar h.2

theorem isValid_iff {slug : Text} : isValid slug = true ↔ UpToFeed IsSlug slug := by
  rw [← chomp_iff fun s hs => hs.isNameLike.feed_notMem]
  simp [isValid, IsSlug]

/-- **a slug is accepted if it has the form of one and is not of hyphens alone** -/
theorem problem?_eq_none_iff {slug : Text} :
    problem? slug = none ↔ UpToFeed IsSlug slug ∧ ∃ c ∈ slug, c ≠ '-' := by
  rw [← isValid_iff]
  have hempty : isValid [] = false := rfl
  unfold problem?
  split_ifs with h1 h2 h3
  · simp [h1, hempty]
  · simpa using fun h => absurd h (by simpa using h2)
  · simpa using fun _ => by simpa using h3
  · simpa using ⟨by simpa using h2, by simpa using h3⟩

theorem IsSlug.isNearlyNameLike {slug : Text} (h : UpToFeed IsSlug slug) : IsNearlyNameLike slug :=
  h.isNearlyNameLike fun _ hs => hs.isNameLike

/-- an accepted slug with a line feed has a name with one -/
theorem feed_mem_pascal_iff {slug : Text} (h : problem? slug = none) : '\n' ∈ pascal slug ↔ '\n' ∈ slug := by
  constructor
  · intro hm
    obtain ⟨piece, hp, hm⟩ := List.mem_flatMap.1 hm
    obtain ⟨hsub, hsep⟩ := mem_splitAt hp
    cases piece with
    | nil => simp [capitalised] at hm
    | cons c rest =>
      rw [List.mem_cons, not_or] at hsep
      rcases List.mem_append.1 hm with hm | hm
      · rcases mem_slug h (hsub.subset List.mem_cons_self) with hc | rfl
        · obtain ⟨d, hd, hname, -⟩ := upper_isSlugChar hc (Ne.symm hsep.1)
          rw [hd, List.mem_singleton] at hm
          exact absurd (hm ▸ hname) (by decide)
        · exact hsub.subset List.mem_cons_self
      · exact hsub.subset (List.mem_cons_of_mem c hm)
  · intro hm
    obtain ⟨piece, hp, hin⟩ := exists_mem_splitAt hm (show '\n' ≠ '-' by decide)
    refine List.mem_flatMap.2 ⟨piece, hp, ?_⟩
    cases piece with
    | nil => simp at hin
    | cons c rest =>
      rcases List.mem_cons.1 hin with rfl | hin
      · exact List.mem_append_left _ (by decide)
      · exact List.mem_append_right _ hin

theorem isNearlyNameLike_pascal {slug : Text} (h : problem? slug = none) : IsNearlyNameLike (pascal slug) :=
  fun _ hd => (mem_pascal h hd).imp_left Or.inl

theorem isNameLike_pascal_iff {slug : Text} (h : problem? slug = none) : IsNameLike (pascal slug) ↔ '\n' ∉ slug := by
  rw [(isNearlyNameLike_pascal h).isNameLike_iff, feed_mem_pascal_iff h]

theorem isNameLike_tag_iff {slug t : Text} (h : problem? slug = none) (ht : IsNearlyNameLike t) :
    IsNameLike (tag t slug) ↔ '\n' ∉ t ∧ '\n' ∉ slug := by
  rw [← ht.isNameLike_iff, ← isNameLike_pascal_iff h]
  exact List.forall_mem_append

theorem isNameLike_cssClass_iff {slug t : Text} (h : problem? slug = none) (ht : IsNearlyNameLike t) :
    IsNameLike (cssClass t slug) ↔ '\n' ∉ t ∧ '\n' ∉ slug := by
  rw [← ht.isNameLike_iff, ← (IsSlug.isNearlyNameLike (problem?_eq_none_iff.1 h).1).isNameLike_iff]
  unfold IsNameLike cssClass
  rw [List.forall_mem_append, List.forall_mem_cons]
  simp

end Slug

/-! ## Tokens -/

namespace Settings

variable {t : Text}

/-- a tag token by its grammar: a capital, then letters and digits -/
def IsTagToken (s : Text) : Prop :=
  ∃ c rest, s = c :: rest ∧ isCapital c = true ∧ ∀ d ∈ rest, Slug.isNameChar d = true

/-- a CSS token by its grammar: a small letter, then small letters, digits and hyphens -/
def IsCssToken (s : Text) : Prop :=
  ∃ c rest, s = c :: rest ∧ isLower c = true ∧ ∀ d ∈ rest, Slug.isSlugChar d = true

theorem IsTagToken.isNameLike {s : Text} (h : IsTagToken s) : IsNameLike s := by
  obtain ⟨c, rest, rfl, hc, hrest⟩ := h
  exact List.forall_mem_cons.2 ⟨Or.inl (by simp [Slug.isNameChar, hc]), fun d hd => Or.inl (hrest d hd)⟩

theorem IsCssToken.isNameLike {s : Text} (h : IsCssToken s) : IsNameLike s := by
  obtain ⟨c, rest, rfl, hc, hrest⟩ := h
  exact List.forall_mem_cons.2 ⟨Or.inl (Slug.isNameChar_of_isLower hc), Slug.isNameLike_of_isSlugChar hrest⟩

theorem isTagPrefix_iff : isTagPrefix t = true ↔ UpToFeed IsTagToken t := by
  rw [← chomp_iff fun s hs => hs.isNameLike.feed_notMem]
  unfold isTagPrefix IsTagToken
  cases chomp t with
  | nil => simp
  | cons c rest => simp [Slug.isNameChar, or_comm, or_left_comm]

theorem isCssPrefix_iff : isCssPrefix t = true ↔ UpToFeed IsCssToken t := by
  rw [← chomp_iff fun s hs => hs.isNameLike.feed_notMem]
  unfold isCssPrefix IsCssToken
  cases chomp t <;> simp

/-- **a slug or a token is accepted exactly if it is one by its grammar, or is one with a line feed behind it; of a slug
there must besides be more than hyphens; and the names that come of accepted ones are plain exactly if none of these has
the line feed** -/
theorem accepted_iff {fields : Fields} {s : Settings} (hs : ofFields fields = .ok s) (slug t u : Text) :
    (Slug.isValid slug = true ↔ UpToFeed Slug.IsSlug slug) ∧
    (Slug.problem? slug = none ↔ UpToFeed Slug.IsSlug slug ∧ ∃ c ∈ slug, c ≠ '-') ∧
    (∀ s', ofFields (("tag_prefix".toList, .text t) :: fields) = .ok s' ↔
      UpToFeed IsTagToken t ∧ s' = { s with tagPrefix := t }) ∧
    (∀ s', ofFields (("css_prefix".toList, .text u) :: fields) = .ok s' ↔
      UpToFeed IsCssToken u ∧ s' = { s with cssPrefix := u }) ∧
    (Slug.problem? slug = none → UpToFeed IsTagToken t → UpToFeed IsCssToken u →
      (IsNameLike (Slug.pascal slug) ↔ '\n' ∉ slug) ∧
      (IsNameLike (Slug.tag t slug) ↔ '\n' ∉ t ∧ '\n' ∉ slug) ∧
      (IsNameLike (Slug.cssClass u slug) ↔ '\n' ∉ u ∧ '\n' ∉ slug)) := by
  have hread := ofFields_eq_ok.1 hs
  refine ⟨Slug.isValid_iff, Slug.problem?_eq_none_iff, fun s' => ?_, fun s' => ?_, fun hslug ht hu => ?_⟩
  · rw [hread.ofFields_tagPrefix, isTagPrefix_iff]
  · rw [hread.ofFields_cssPrefix, isCssPrefix_iff]
  · exact ⟨Slug.isNameLike_pascal_iff hslug, Slug.isNameLike_tag_iff hslug (ht.isNearlyNameLike fun _ h => h.isNameLike),
      Slug.isNameLike_cssClass_iff hslug (hu.isNearlyNameLike fun _ h => h.isNameLike)⟩

/-- a slug and a tag token that end in a line feed, and a CSS token that does not -/
theorem accepted_iff_of_feeds :
    let fields : Fields := [("root".toList, .text "repo".toList)]
    let s := standard (.ofText "repo".toList)
    ofFields fields = .ok s ∧ Slug.problem? "date-picker\n".toList = none ∧ UpToFeed IsTagToken "Ui\n".toList ∧
      UpToFeed IsCssToken "ui".toList ∧
      ofFields (("tag_prefix".toList, .text "Ui\n".toList) :: fields) = .ok { s with tagPrefix := "Ui\n".toList } ∧
      ¬IsNameLike (Slug.pascal "date-picker\n".toList) ∧ ¬IsNameLike (Slug.tag "Ui\n".toList "date-picker\n".toList) ∧
      ¬IsNameLike (Slug.cssClass "ui".toList "date-picker\n".toList) := by
  intro fields s
  have hs : ofFields fields = .ok s := rfl
  have hslug : Slug.problem? "date-picker\n".toList = none := by decide +kernel
  have htag : UpToFeed IsTagToken "Ui\n".toList := isTagPrefix_iff.1 (by decide)
  have hcss : UpToFeed IsCssToken "ui".toList := isCssPrefix_iff.1 (by decide)
  obtain ⟨-, -, htoken, -, hnames⟩ := accepted_iff hs "date-picker\n".toList "Ui\n".toList "ui".toList
  obtain ⟨hpascal, htagName, hclass⟩ := hnames hslug htag hcss
  exact ⟨hs, hslug, htag, hcss, (htoken _).2 ⟨htag, rfl⟩, hpascal.not.2 (by decide), htagName.not.2 (by decide),
    hclass.not.2 (by decide)⟩

/-- a line feed at the end passes each check, even behind hyphens alone, and goes into the names -/
theorem accepted_with_feed :
    let fields : Fields := [("root".toList, .text "repo".toList)]
    (Slug.isValid "card\n".toList = true ∧ Slug.problem? "card\n".toList = none ∧ ¬Slug.IsSlug "card\n".toList) ∧
      (Slug.problem? "-\n".toList = none ∧ ∀ c ∈ "-\n".toList, Slug.isNameChar c = false) ∧
      ((∃ s, ofFields (("tag_prefix".toList, .text "Ui\n".toList) :: fields) = .ok s) ∧ ¬IsTagToken "Ui\n".toList) ∧
      ((∃ s, ofFields (("css_prefix".toList, .text "ui\n".toList) :: fields) = .ok s) ∧ ¬IsCssToken "ui\n".toList) ∧
      Slug.pascal "card\n".toList = "Card\n".toList ∧ Slug.tag "Ui".toList "card\n".toList = "UiCard\n".toList ∧
      Slug.cssClass "ui".toList "card\n".toList = "ui-card\n".toList := by
  have hfeed : ∀ {P : Text → Prop} {t : Text}, (∀ s, P s → IsNameLike s) → '\n' ∈ t → ¬P t :=
    fun hP hm ht => (hP _ ht).feed_notMem hm
  refine ⟨⟨by decide +kernel, by decide +kernel, hfeed (fun _ => Slug.IsSlug.isNameLike) (by decide)⟩,
    ⟨by decide +kernel, by decide⟩, ⟨⟨_, rfl⟩, hfeed (fun _ => IsTagToken.isNameLike) (by decide)⟩,
    ⟨⟨_, rfl⟩, hfeed (fun _ => IsCssToken.isNameLike) (by decide)⟩, by decide +kernel, by decide +kernel,
    by decide +kernel⟩

end Settings

end Componentry
