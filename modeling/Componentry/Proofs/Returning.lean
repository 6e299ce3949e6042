/-
Which runs return a verdict.

A run is to return a verdict whatever it meets, but it looks for the directories of its component before anything handles
a refusal, and it handles the system's refusals only.
- `createArtifacts_escaped_iff`, `updateListings_escaped_iff`: files and listings let something escape exactly if a path
  with a NUL character is reached.
- `run_returns_iff`: a run of the listings of a library returns its verdict exactly if it `Raises` nothing; with settings
  free of NUL characters that is up to the length of two paths alone (`run_raises_long_slug`).
-/
import Componentry.Proofs.Artifact
import Componentry.Proofs.FileTree.Refusing
import Componentry.Proofs.FileTree.Replacing
import Componentry.Proofs.Creation

namespace Componentry

open FileTree

/-! ## Steps that keep what they ask for -/

namespace Splice

theorem intoList_fault {anchor : Pattern} {closer : Text} {reject : Option Pattern} {content entry : Text} :
    intoList anchor closer reject content entry ≠ .error .noSuchGroup := by
  unfold intoList
  split
  · simp
  · simp only
    split_ifs <;> simp
  · simp

theorem intoCollection_fault {anchor : Pattern} {closer content fragment : Text} :
    intoCollection anchor closer content fragment ≠ .error .noSuchGroup := by
  unfold intoCollection
  split
  · simp
  · split
    · simp
    · simp only
      split_ifs <;> simp
  · simp

theorem afterImports_fault {anchor : Pattern} (h : anchor.keeps .source = true) {content statement : Text} :
    afterImports anchor content statement ≠ .error .noSuchGroup := by
  unfold afterImports
  simp only [h, Bool.not_true, Bool.false_eq_true, if_false]
  split
  · simp
  · cases sourceOf? statement with
    | some source => simp only; split_ifs <;> simp
    | none => simp only; split_ifs <;> simp

theorem afterLast_fault {anchor : Pattern} {key : Option Pattern} (h : ∀ k ∈ key, k.keeps .key = true)
    {content fragment : Text} : afterLast anchor key content fragment ≠ .error .noSuchGroup := by
  unfold afterLast
  split
  · simp
  · simp only
    split
    · rename_i k hk
      have hmem : k ∈ key := by
        rw [Option.filter_eq_some_iff, given?, Option.filter_eq_some_iff] at hk
        exact Option.mem_def.2 hk.1.1
      simp only [h k hmem, Bool.not_true, Bool.false_eq_true, if_false]
      split_ifs <;> simp
    · split_ifs <;> simp

end Splice

namespace Listing

/-- a listing none of whose steps asks for a part that its pattern does not keep -/
def IsSure (l : Listing) : Prop :=
  ∀ content c failure, l.apply content c = .error failure → failure.fault ≠ .noSuchGroup

theorem applySteps_fault (steps : List Step) (h : ∀ step ∈ steps, ∀ content c, step.apply content c ≠
    .error .noSuchGroup) {content : Text} {c : Component} {failure : Failure}
    (hf : applySteps content c steps = .error failure) : failure.fault ≠ .noSuchGroup := by
  induction steps generalizing content with
  | nil => simp [applySteps] at hf
  | cons step steps ih =>
    unfold applySteps at hf
    cases hs : step.apply content c with
    | error fault =>
      rw [hs] at hf
      rw [← Except.error.inj hf]
      rintro rfl
      exact h step List.mem_cons_self content c hs
    | ok next =>
      rw [hs] at hf
      exact ih (fun k hk => h k (List.mem_cons_of_mem _ hk)) hf

/-- the listings of a library ask for nothing that their patterns do not keep -/
theorem all_isSure (s : Settings) : ∀ l ∈ all s, l.IsSure := by
  have harray : ∀ content c, (arrayStep s.componentsListName).apply content c ≠ .error .noSuchGroup :=
    fun _ _ => Splice.intoList_fault
  have hexport : ∀ content c, exportStep.apply content c ≠ .error .noSuchGroup := fun _ _ => Splice.intoList_fault
  have himport : ∀ content c, importStep.apply content c ≠ .error .noSuchGroup :=
    fun _ _ => Splice.afterImports_fault (by decide)
  have hroute : ∀ content c, (routeStep s.routeChildrenKey s.pagesDir).apply content c ≠ .error .noSuchGroup :=
    fun _ _ => Splice.intoCollection_fault
  have hlink : ∀ content c, (linkStep s.navigationElement).apply content c ≠ .error .noSuchGroup :=
    fun _ _ => Splice.afterLast_fault (by simp; decide)
  intro l hl content c failure hf
  refine applySteps_fault l.steps (fun step hstep => ?_) hf
  simp only [all, List.mem_cons, List.not_mem_nil, or_false] at hl
  rcases hl with rfl | rfl | rfl
  · rcases List.mem_cons.1 hstep with rfl | hstep
    · exact himport
    · rcases List.mem_cons.1 hstep with rfl | hstep
      · exact harray
      · rw [show step = exportStep from List.mem_singleton.1 hstep]
        exact hexport
  · rw [show step = routeStep s.routeChildrenKey s.pagesDir from List.mem_singleton.1 hstep]
    exact hroute
  · rw [show step = linkStep s.navigationElement from List.mem_singleton.1 hstep]
    exact hlink

end Listing

/-- a formatter that goes through or fails as it should -/
def Formatter.Returns (format : Formatter) : Prop :=
  ∀ command dir t e, (format command dir t).2 ≠ some (.escaped e)

namespace Creation

/-! ## Files -/

theorem stop_escaped {doing : FileFailure.Doing} {p : Path} {e : Trouble} :
    (∃ x, FileFailure.stop doing p e = .escaped x) ↔ e.cause = .nulCharacter := by
  unfold FileFailure.stop Trouble.isSystem
  split_ifs with h
  · simpa using h
  · simpa using h

theorem makeParent_of_nul {w : Work} {p : Path} (h : p.parent.HasNul) (hp : ∀ q ∈ p.ancestors, w.tree.look q ≠
    .error .nameTooLong) : makeParent w p = (w, some (troubleAt p.parent .nulCharacter)) := by
  obtain ⟨missing, hm⟩ := firstMissing_ok_iff.2 hp
  simp [makeParent, hm, makeDirs_of_nul h]

/-- what refuses a parent, if anything -/
theorem makeParent_cause {w partly : Work} {p : Path} {e : Trouble} (h : makeParent w p = (partly, some e)) :
    e.cause = .nulCharacter ↔ p.parent.HasNul ∧ ∀ q ∈ p.ancestors, w.tree.look q ≠ .error .nameTooLong := by
  constructor
  · intro he
    have hprep := makeParent_preparing w p
    rw [h] at hprep
    cases hprep with
    | unasked asked => exact absurd he (by simp [firstMissing_cause asked])
    | @refused missing _ _ asked making =>
      refine ⟨?_, firstMissing_ok_iff.1 ⟨missing, asked⟩⟩
      by_contra hnul
      exact makeDirs_cause (t := w.tree) (e := e) hnul (by rw [making]) he
  · rintro ⟨hnul, hp⟩
    rw [makeParent_of_nul hnul hp] at h
    simp only [Prod.mk.injEq, Option.some.injEq] at h
    rw [← h.2]
    rfl

/-- an artifact lets something escape exactly if its path has a NUL character and its ancestors can be looked at -/
theorem createArtifact_cause {w partly : Work} {a : Artifact} (ha : a.path.parent.HasNul ↔ a.path.HasNul) {e : Trouble}
    (h : createArtifact w a = (partly, some e)) :
    e.cause = .nulCharacter ↔ a.path.HasNul ∧ ∀ q ∈ a.path.ancestors, w.tree.look q ≠ .error .nameTooLong := by
  have hfiling := createArtifact_filing w a
  rw [h] at hfiling
  cases hfiling with
  | stranded prepared =>
    rw [← ha]
    exact makeParent_cause prepared
  | refused prepared creating =>
    have hprep := makeParent_preparing w a.path
    rw [prepared] at hprep
    cases hprep with
    | @ready missing _ asked making =>
      -- the directory is there, so no NUL character is in the way
      have hnul : ¬a.path.HasNul := fun hnul => by
        simp [makeDirs_of_nul (ha.2 hnul)] at making
      exact iff_of_false (createFile_cause hnul creating) fun hboth => hnul hboth.1

/-- artifacts let something escape exactly if one is reached whose path has a NUL character -/
theorem createArtifacts_escaped_iff {w : Work} {as : List Artifact}
    (ha : ∀ a ∈ as, a.path.parent.HasNul ↔ a.path.HasNul) :
    (∃ partly e, createArtifacts w as = (partly, some (.escaped e))) ↔
      ∃ before a after made, as = before ++ a :: after ∧ createArtifacts w before = (made, none) ∧ a.path.HasNul ∧
        ∀ q ∈ a.path.ancestors, made.tree.look q ≠ .error .nameTooLong := by
  induction as generalizing w with
  | nil => simp [createArtifacts]
  | cons a as ih =>
    have hparent := ha a List.mem_cons_self
    have hrest := fun w => ih (w := w) fun b hb => ha b (List.mem_cons_of_mem _ hb)
    rcases createArtifacts_cons w a with ⟨next, hc, hstep⟩ | ⟨next, e, hc, hstep⟩
    · -- the first artifact went through, so no NUL character of its path was in the way
      have hclean : ¬(a.path.HasNul ∧ ∀ q ∈ a.path.ancestors, w.tree.look q ≠ .error .nameTooLong) := by
        rintro ⟨hnul, hp⟩
        simp [createArtifact, makeParent_of_nul (hparent.2 hnul) hp] at hc
      rw [hstep, hrest, exists_made_of_passed hstep, or_iff_right hclean]
    · rw [exists_made_of_stopped fun as => by simp [hstep], ← createArtifact_cause hparent hc,
        ← @stop_escaped .creating a.path e, hstep]
      simp

/-! ## Listings -/

theorem readText_escaped_iff {t : FileTree} {p : Path} : (∃ e, t.readText p = .error (.escaped e)) ↔ p.HasNul := by
  constructor
  · rintro ⟨e, h⟩
    by_contra hnul
    unfold readText at h
    cases hr : t.read p with
    | error f =>
      rw [hr] at h
      exact read_cause hnul hr (stop_escaped.1 ⟨e, Except.error.inj h⟩)
    | ok bytes =>
      rw [hr] at h
      simp only at h
      cases hd : Utf8.decode bytes <;> simp [hd] at h
  · intro hnul
    obtain ⟨e, he⟩ : ∃ e, FileFailure.stop .reading p (troubleAt p .nulCharacter) = .escaped e := stop_escaped.2 rfl
    exact ⟨e, by simp [readText, read_of_nul hnul, he]⟩

theorem replaceText_not_escaped {t : FileTree} (ht : t.Spelled) {p : Path} (h : ¬p.HasNul) {text : Text}
    {after : FileTree} {e : Escape} : t.replaceText p text ≠ (after, some (.escaped e)) := by
  intro hr
  have hcause := fun e => replace_cause (e := e) ht h (b := Utf8.encode text)
  unfold replaceText at hr
  cases hq : t.replace p (Utf8.encode text) with
  | mk u refused =>
    rw [hq] at hr hcause
    cases refused with
    | none => simp at hr
    | some f =>
      simp only [Prod.mk.injEq, Option.some.injEq] at hr
      exact hcause f rfl (stop_escaped.1 ⟨e, hr.2⟩)

theorem fileStop_escaped {stop : Stop FileFailure} : (∃ e, fileStop stop = .escaped e) ↔ ∃ e, stop = .escaped e := by
  cases stop <;> simp [fileStop]

/-- a listing lets something escape exactly if its path has a NUL character -/
theorem updateListing_escaped_iff {w : Work} (hw : w.tree.Spelled) {l : Listing} (hl : l.IsSure) (c : Component) :
    (∃ after e, updateListing w c l = (after, .error (.escaped e))) ↔ l.path.HasNul := by
  constructor
  · rintro ⟨after, e, h⟩
    by_contra hnul
    have hu := updateListing_update w c l
    rw [h] at hu
    -- what a listing lets escape comes from its file or from a step
    generalize hresult : Except.error (Stop.escaped e) = result at hu
    cases hu with
    | resting | replaced => simp at hresult
    | unread hread =>
      obtain ⟨x, rfl⟩ := fileStop_escaped.1 ⟨e, (Except.error.inj hresult).symm⟩
      exact hnul (readText_escaped_iff.1 ⟨x, hread⟩)
    | unspliced _ happly =>
      rw [if_neg (hl _ _ _ happly)] at hresult
      simp at hresult
    | refused _ _ _ hrep =>
      obtain ⟨x, rfl⟩ := fileStop_escaped.1 ⟨e, (Except.error.inj hresult).symm⟩
      exact replaceText_not_escaped hw hnul hrep
  · intro hnul
    obtain ⟨x, hx⟩ := readText_escaped_iff (t := w.tree).2 hnul
    exact ⟨w, x, by simp [updateListing, hx, fileStop]⟩

theorem replaceText_spelled {t : FileTree} (ht : t.Spelled) (p : Path) (text : Text) :
    (t.replaceText p text).1.Spelled := by
  obtain ⟨hcur, htok⟩ := replaceText_current t p text
  exact ⟨by rw [hcur]; exact ht.current, by rw [htok]; exact ht.token⟩

theorem updateListing_spelled {w : Work} (hw : w.tree.Spelled) (c : Component) (l : Listing) :
    (updateListing w c l).1.tree.Spelled := by
  have hu := updateListing_update w c l
  generalize updateListing w c l = x at hu ⊢
  cases hu with
  | unread | unspliced | resting => exact hw
  | @refused _ updated _ _ _ _ _ hrep | @replaced _ updated _ _ _ _ hrep =>
    have hr := replaceText_spelled hw l.path updated
    rwa [hrep] at hr

/-- listings let something escape exactly if one is reached whose path has a NUL character -/
theorem updateListings_escaped_iff {w : Work} (hw : w.tree.Spelled) {ls : List Listing} (hls : ∀ l ∈ ls, l.IsSure)
    (c : Component) : (∃ after e, updateListings w c ls = (after, .escaped e)) ↔
      ∃ before l rest done, ls = before ++ l :: rest ∧ updateListings w c before = (done, .finished) ∧
        l.path.HasNul := by
  induction ls generalizing w with
  | nil => simp [updateListings]
  | cons l ls ih =>
    have hhead := updateListing_escaped_iff hw (hls l List.mem_cons_self) c
    have hrest := fun {w : Work} (hw : w.tree.Spelled) => ih hw fun k hk => hls k (List.mem_cons_of_mem _ hk)
    -- the first listing lets nothing escape unless its path has a NUL character
    have hnul : ∀ {result}, (updateListing w c l).2 = result → (∀ e, result ≠ .error (.escaped e)) →
        ¬l.path.HasNul := by
      rintro _ rfl hresult h
      obtain ⟨after, e, hu⟩ := hhead.2 h
      exact hresult e (by rw [hu])
    rcases updateListings_cons w c l with ⟨o, next, hpassed, hstep⟩ | ⟨failure, hfailed, -, hstep⟩ | ⟨e, hescaped, hstep⟩
    · have hclean : ¬l.path.HasNul := by
        rcases hpassed.result with ho | ⟨failure, hf, -⟩
        · exact hnul ho (by simp)
        · exact hnul hf (by simp)
      rw [hstep, hrest (hpassed.tree ▸ updateListing_spelled hw c l), exists_reached_of_passed hstep, or_iff_right hclean]
    · rw [exists_reached_of_stopped fun ls => by simp [hstep]]
      exact iff_of_false (by simp [hstep]) (hnul hfailed (by simp))
    · have hu : updateListing w c l = ((updateListing w c l).1, .error (.escaped e)) := Prod.ext rfl hescaped
      rw [exists_reached_of_stopped fun ls => by simp [hstep]]
      exact iff_of_true ⟨_, e, hstep ls⟩ (hhead.1 ⟨_, e, hu⟩)

/-! ## Runs -/

/-- what makes a run raise something instead of returning its verdict: a directory of its component cannot even be
looked for, or it reaches an artifact or a listing whose path has a NUL character -/
inductive Raises (s : Settings) (ls : List Listing) (t : FileTree) (slug title : Text) : Prop where
  | component (slugOk : Slug.problem? slug = none) (titleOk : Title.isBlank title = false)
      (long : t.look (s.componentDir slug) = .error .nameTooLong)
  | doc (slugOk : Slug.problem? slug = none) (titleOk : Title.isBlank title = false)
      (absent : t.isPresent (s.componentDir slug) = .ok false) (long : t.look (s.docDir slug) = .error .nameTooLong)
  | artifact {before after : List Artifact} {a : Artifact} {made : Work}
      (valid : validate s t slug title = .ok (requested s slug title))
      (split : Artifact.all s (requested s slug title) = before ++ a :: after)
      (reached : createArtifacts (begun t (requested s slug title)) before = (made, none)) (nul : a.path.HasNul)
      (asked : ∀ q ∈ a.path.ancestors, made.tree.look q ≠ .error .nameTooLong)
  | listing {before rest : List Listing} {l : Listing} {made done : Work}
      (valid : validate s t slug title = .ok (requested s slug title))
      (created : createArtifacts (begun t (requested s slug title)) (Artifact.all s (requested s slug title)) =
        (made, none))
      (split : ls = before ++ l :: rest)
      (reached : updateListings (enter made .mutatingRegistries) (requested s slug title) before = (done, .finished))
      (nul : l.path.HasNul)

theorem validate_escaped_iff {s : Settings} {t : FileTree} {slug title : Text} :
    (∃ e, validate s t slug title = .error (.escaped e)) ↔
      Slug.problem? slug = none ∧ Title.isBlank title = false ∧
        (t.look (s.componentDir slug) = .error .nameTooLong ∨
          t.isPresent (s.componentDir slug) = .ok false ∧ t.look (s.docDir slug) = .error .nameTooLong) := by
  unfold validate
  cases hs : Slug.problem? slug with
  | some problem => simp
  | none =>
    cases ht : Title.isBlank title with
    | true => simp
    | false =>
      simp only [places, firstTaken, Bool.false_eq_true, if_false, true_and]
      cases hc : t.isPresent (s.componentDir slug) with
      | error e => simp [(isPresent_error_iff.1 hc).1]
      | ok here =>
        have hcomponent : t.look (s.componentDir slug) ≠ .error .nameTooLong := fun h => by
          rw [isPresent_error_iff.2 ⟨h, rfl⟩] at hc
          simp at hc
        cases here with
        | true => simp [hcomponent]
        | false =>
          cases hd : t.isPresent (s.docDir slug) with
          | error e => simp [(isPresent_error_iff.1 hd).1]
          | ok here =>
            have hdoc : t.look (s.docDir slug) ≠ .error .nameTooLong := fun h => by
              rw [isPresent_error_iff.2 ⟨h, rfl⟩] at hd
              simp at hd
            cases here <;> simp [hcomponent, hdoc]

theorem postProcess_returns {f : Option Formatter} (hf : ∀ format ∈ f, format.Returns) (w : Work) (s : Settings)
    (e : Escape) : (postProcess w s f).verdict ≠ .error e := by
  unfold postProcess
  simp only
  split
  · simp [report]
  · rename_i format
    split_ifs
    · simp [report]
    · split
      · simp
      · rename_i after x heq
        exact absurd (congrArg Prod.snd heq) (hf format rfl _ _ _ x)
      · simp

theorem created_spelled {t : FileTree} (ht : t.Sound) (hn : t.Spelled) {c : Component} {as : List Artifact} {made : Work}
    (created : createArtifacts (begun t c) as = (made, none)) : made.tree.Spelled := by
  have hmade := (begun_made ht c).createArtifacts as
  rw [created] at hmade
  exact ⟨by rw [hmade.records.grows.current]; exact hn.current, by rw [hmade.records.grows.token]; exact hn.token⟩

/-- the artifacts of a request that is accepted let something escape exactly if one is reached whose path has a NUL
character -/
theorem artifacts_escaped_iff {s : Settings} {t : FileTree} {slug title : Text}
    (accepted : validate s t slug title = .ok (requested s slug title)) :
    (∃ w e, createArtifacts (begun t (requested s slug title)) (Artifact.all s (requested s slug title)) =
        (w, some (.escaped e))) ↔
      ∃ before a after made, Artifact.all s (requested s slug title) = before ++ a :: after ∧
        createArtifacts (begun t (requested s slug title)) before = (made, none) ∧ a.path.HasNul ∧
        ∀ q ∈ a.path.ancestors, made.tree.look q ≠ .error .nameTooLong :=
  createArtifacts_escaped_iff fun _ ha =>
    Artifact.hasNul_parent (s := s) (c := requested s slug title) (validate_ok accepted).1 ha

section Escaping

variable {s : Settings} {ls : List Listing} {f : Option Formatter} {t : FileTree} {slug title : Text} {e : Escape}

theorem run_of_lookEscaped (refused : validate s t slug title = .error (.escaped e)) :
    (run s ls f t slug title).verdict = .error e := by
  unfold run
  rw [refused]
  rfl

theorem run_of_fileEscaped {w : Work} (accepted : validate s t slug title = .ok (requested s slug title))
    (stopped : createArtifacts (begun t (requested s slug title)) (Artifact.all s (requested s slug title)) =
      (w, some (.escaped e))) : (run s ls f t slug title).verdict = .error e := by
  have hstopped : createArtifacts (enter (checked t (requested s slug title)) .creatingFiles)
    (Artifact.all s (requested s slug title)) = (w, some (.escaped e)) := stopped
  rw [run_of_valid accepted, build, hstopped]
  rfl

theorem run_of_listingEscaped {made after : Work} (accepted : validate s t slug title = .ok (requested s slug title))
    (created : createArtifacts (begun t (requested s slug title)) (Artifact.all s (requested s slug title)) =
      (made, none))
    (stopped : updateListings (enter made .mutatingRegistries) (requested s slug title) ls = (after, .escaped e)) :
    (run s ls f t slug title).verdict = .error e := by
  have hcreated : createArtifacts (enter (checked t (requested s slug title)) .creatingFiles)
    (Artifact.all s (requested s slug title)) = (made, none) := created
  rw [run_of_valid accepted, build, hcreated]
  simp only [enlist, stopped]
  rfl

/-- a run raises something exactly for the reasons given -/
theorem run_raises_iff (hls : ∀ l ∈ ls, l.IsSure) (hf : ∀ format ∈ f, format.Returns) (ht : t.Sound) (hn : t.Spelled) :
    (∃ e, (run s ls f t slug title).verdict = .error e) ↔ Raises s ls t slug title := by
  constructor
  · rintro ⟨e, he⟩
    have hend := run_ending s ls f t slug title
    generalize run s ls f t slug title = r at he hend
    cases hend with
    | turnedDown | uncreated | unlisted => simp [undone] at he
    | finished => exact absurd he (postProcess_returns hf _ s e)
    | lookEscaped refused =>
      obtain ⟨hs, hb, hlong | ⟨habsent, hlong⟩⟩ := validate_escaped_iff.1 ⟨_, refused⟩
      · exact .component hs hb hlong
      · exact .doc hs hb habsent hlong
    | fileEscaped accepted stopped =>
      obtain ⟨before, a, after, made, hsplit, hreached, hnul, hasked⟩ := (artifacts_escaped_iff accepted).1 ⟨_, _, stopped⟩
      exact .artifact accepted hsplit hreached hnul hasked
    | @listingEscaped made _ _ accepted created stopped =>
      have hspelled : made.tree.Spelled := created_spelled ht hn created
      obtain ⟨before, l, rest, done, hsplit, hreached, hnul⟩ :=
        (updateListings_escaped_iff (w := enter made _) hspelled hls (requested s slug title)).1 ⟨_, _, stopped⟩
      exact .listing accepted created hsplit hreached hnul
  · intro hraises
    cases hraises with
    | component slugOk titleOk long =>
      obtain ⟨e, he⟩ := validate_escaped_iff.2 ⟨slugOk, titleOk, Or.inl long⟩
      exact ⟨e, run_of_lookEscaped he⟩
    | doc slugOk titleOk absent long =>
      obtain ⟨e, he⟩ := validate_escaped_iff.2 ⟨slugOk, titleOk, Or.inr ⟨absent, long⟩⟩
      exact ⟨e, run_of_lookEscaped he⟩
    | artifact valid split reached nul asked =>
      obtain ⟨w, e, he⟩ := (artifacts_escaped_iff valid).2 ⟨_, _, _, _, split, reached, nul, asked⟩
      exact ⟨e, run_of_fileEscaped valid he⟩
    | @listing before rest l made done valid created split reached nul =>
      have hspelled : made.tree.Spelled := created_spelled ht hn created
      obtain ⟨after, e, he⟩ := (updateListings_escaped_iff (w := enter made _) hspelled hls (requested s slug title)).2
        ⟨before, l, rest, done, split, reached, nul⟩
      exact ⟨e, run_of_listingEscaped valid created he⟩

end Escaping

theorem ok_iff_not_error {ε α : Type} {x : Except ε α} : (∃ v, x = .ok v) ↔ ¬∃ e, x = .error e := by
  cases x <;> simp

/-- **Which runs return.** A run of a library's listings returns its verdict exactly if it raises nothing. In a library
whose paths are free of NUL characters it returns unless slug and title are in order and one of the two directories of
the component, looked for in turn, has a name that is too long. -/
theorem run_returns_iff (s : Settings) {f : Option Formatter} (hf : ∀ format ∈ f, format.Returns) {t : FileTree}
    (ht : t.Sound) (hn : t.Spelled) (slug title : Text) :
    ((∃ v, (run s (Listing.all s) f t slug title).verdict = .ok v) ↔ ¬Raises s (Listing.all s) t slug title) ∧
    (¬(s.componentDir slug).HasNul → ¬(s.docDir slug).HasNul → (∀ l ∈ Listing.all s, ¬l.path.HasNul) →
      ((∃ v, (run s (Listing.all s) f t slug title).verdict = .ok v) ↔
        ¬(Slug.problem? slug = none ∧ Title.isBlank title = false ∧
          (t.look (s.componentDir slug) = .error .nameTooLong ∨
            t.isPresent (s.componentDir slug) = .ok false ∧ t.look (s.docDir slug) = .error .nameTooLong)))) := by
  have hiff : (∃ v, (run s (Listing.all s) f t slug title).verdict = .ok v) ↔
      ¬Raises s (Listing.all s) t slug title := by
    rw [ok_iff_not_error, run_raises_iff (Listing.all_isSure s) hf ht hn]
  refine ⟨hiff, fun hc hd hl => hiff.trans (not_congr ⟨?_, ?_⟩)⟩
  · rintro (⟨hs, hb, hlong⟩ | ⟨hs, hb, habsent, hlong⟩ | ⟨hvalid, hsplit, -, hnul, -⟩ | ⟨-, -, hsplit, -, hnul⟩)
    · exact ⟨hs, hb, Or.inl hlong⟩
    · exact ⟨hs, hb, Or.inr ⟨habsent, hlong⟩⟩
    · -- the directories of the component have no NUL character, so no artifact has one
      obtain ⟨dir, hdir, rest, -, hrest, hp⟩ := Artifact.all_place (s := s) (c := requested s slug title)
        (validate_ok hvalid).1 (hsplit ▸ List.mem_append_right _ List.mem_cons_self)
      rw [hp, Path.hasNul_of_place hrest] at hnul
      simp only [List.mem_cons, List.not_mem_nil, or_false] at hdir
      rcases hdir with rfl | rfl
      · exact absurd hnul hc
      · exact absurd hnul hd
    · exact absurd hnul (hl _ (hsplit ▸ List.mem_append_right _ List.mem_cons_self))
  · rintro ⟨hs, hb, hlong | ⟨habsent, hlong⟩⟩
    · exact .component hs hb hlong
    · exact .doc hs hb habsent hlong

/-- a library without an index: the run fails, and says so -/
theorem run_returns_without_index :
    let s := Settings.standard (.ofText "repo".toList)
    let f : Option Formatter := some fun _ _ t => (t, some (.handled .empty))
    let t : FileTree := ⟨[], ['0'], [(["repo".toList], .dir)]⟩
    (∀ format ∈ f, format.Returns) ∧ t.Sound ∧ t.Spelled ∧
      ∃ v, (run s (Listing.all s) f t "card".toList "Card".toList).verdict = .ok v := by
  intro s f t
  have hf : ∀ format ∈ f, format.Returns := by simp [f, Formatter.Returns]
  have ht : t.Sound := .of_entries (by decide) (by decide)
  have hn : t.Spelled := ⟨by decide, by decide⟩
  have hlist : ∀ l ∈ Listing.all s, ¬l.path.HasNul := by decide +kernel
  exact ⟨hf, ht, hn, ((run_returns_iff s hf ht hn "card".toList "Card".toList).2 (by decide) (by decide) hlist).2
    (by decide +kernel)⟩

/-- a slug of 256 letters in a library with components: the run raises the system's refusal to look for them -/
theorem run_raises_long_slug :
    let s := Settings.standard (.ofText "repo".toList)
    let t : FileTree := ⟨[], ['0'], [(["repo".toList], .dir), (["repo".toList, "packages".toList], .dir),
      (["repo".toList, "packages".toList, "components".toList], .dir),
      (["repo".toList, "packages".toList, "components".toList, "src".toList], .dir)]⟩
    t.Sound ∧ t.Spelled ∧
      ¬∃ v, (run s (Listing.all s) none t (List.replicate 256 'a') "Card".toList).verdict = .ok v := by
  intro s t
  refine ⟨.of_entries (by decide) (by decide), ⟨by decide, by decide⟩, fun ⟨v, hv⟩ => ?_⟩
  have hraised : (run s (Listing.all s) none t (List.replicate 256 'a') "Card".toList).verdict.toOption = none := by
    decide +kernel
  rw [hv] at hraised
  simp [Except.toOption] at hraised

end Creation

end Componentry
