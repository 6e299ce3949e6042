/-
What a run leaves that is done.

Settings, tree, slug and title are arbitrary, except that
- no path of the settings goes up;
- the three listings lie at three places, and none of them is where an artifact goes;
- a formatter leaves everything in the tree as it is.
Then all that the run does to the tree is what it says it did (`Completed`):
- `artifacts`: every artifact is new, and holds its text;
- `dirs`: the new directories are those that an artifact lacked;
- `others`: no other file is new, gone or changed, so no temporary file is left over;
- `listings`: a listing's file is as it was, or has been through all steps of the listing, and the outcome tells which
  (`Truthful`); it is skipped exactly if it is the navigation and has no element.

Main result: `run_completed`. `created_furnished` is the part about the artifacts alone.
-/
import Componentry.Proofs.Artifact
import Componentry.Proofs.Listing
import Componentry.Proofs.Updating
import Componentry.Proofs.Verdict

namespace Componentry.Creation

open FileTree

/-! ## Artifacts -/

/-- where a run stands that began at `t` and has made some artifacts: they are there, with the directories that they
lacked, and all else is as it was -/
structure Furnished (t : FileTree) (as : List Artifact) (w : Work) : Prop where
  grows : Grows t w.tree
  leads : ∀ a ∈ as, w.tree.locate a.path = .ok (t.place a.path)
  files : ∀ a ∈ as, t.get? (t.place a.path) = none ∧ w.tree.get? (t.place a.path) = some (.file (Utf8.encode a.body))
  dirs : ∀ l, t.get? l = none → (w.tree.get? l = some .dir ↔ ∃ a ∈ as, l <+: t.place a.path.parent)
  others : ∀ l, (∀ a ∈ as, l ≠ t.place a.path) → w.tree.content? l = t.content? l

theorem Furnished.refl {w : Work} (h : w.tree.Sound) : Furnished w.tree [] w :=
  ⟨.refl h, by simp, by simp, fun l hl => by simp [hl], fun _ _ => rfl⟩

/-- what stands where some artifacts lie, or above, stood there before them as a directory or not at all -/
theorem Furnished.dir_above {t : FileTree} {as : List Artifact} {w : Work} (h : Furnished t as w) {a : Artifact}
    (ha : a ∈ as) {l : Location} {e : Entry} (hl : t.get? l = some e) (hpre : l <+: t.place a.path.parent) :
    w.tree.get? l = some .dir := by
  obtain ⟨hnone, hfile⟩ := h.files a ha
  have habove : t.place a.path.parent <+: t.place a.path :=
    (List.prefix_append_right_inj _).2 (List.dropLast_prefix _)
  refine h.grows.sound.dir_of_prefix hfile (hpre.trans habove) ?_
  rintro rfl
  rw [hnone] at hl
  simp at hl

/-- more artifacts are made after some -/
theorem Furnished.trans {t : FileTree} {as bs : List Artifact} {w next : Work} (h : Furnished t as w)
    (k : Furnished w.tree bs next) : Furnished t (as ++ bs) next := by
  have hplace : ∀ p, w.tree.place p = t.place p := place_congr h.grows.current
  refine ⟨h.grows.trans k.grows, fun a ha => ?_, fun a ha => ?_, fun l hl => ⟨fun hdir => ?_, ?_⟩, fun l hl => ?_⟩
  · rcases List.mem_append.1 ha with ha | ha
    · exact k.grows.locate (h.leads a ha)
    · exact hplace a.path ▸ k.leads a ha
  · rcases List.mem_append.1 ha with ha | ha
    · obtain ⟨hnone, hfile⟩ := h.files a ha
      exact ⟨hnone, k.grows.keeps _ _ hfile⟩
    · obtain ⟨hnone, hfile⟩ := k.files a ha
      rw [hplace] at hnone hfile
      exact ⟨h.grows.get?_none hnone, hfile⟩
  · cases hw : w.tree.get? l with
    | none =>
      obtain ⟨b, hb, hpre⟩ := (k.dirs l hw).1 hdir
      exact ⟨b, List.mem_append_right _ hb, hplace _ ▸ hpre⟩
    | some e =>
      rw [k.grows.keeps l e hw] at hdir
      obtain ⟨a, ha, hpre⟩ := (h.dirs l hl).1 (hw.trans hdir)
      exact ⟨a, List.mem_append_left _ ha, hpre⟩
  · rintro ⟨a, ha, hpre⟩
    rcases List.mem_append.1 ha with ha | ha
    · exact k.grows.keeps _ _ ((h.dirs l hl).2 ⟨a, ha, hpre⟩)
    · rw [← hplace] at hpre
      cases hw : w.tree.get? l with
      | none => exact (k.dirs l hw).2 ⟨a, ha, hpre⟩
      | some e => exact k.dir_above ha hw hpre
  · rw [k.others l fun b hb => hplace b.path ▸ hl b (List.mem_append_right _ hb)]
    exact h.others l fun a ha => hl a (List.mem_append_left _ ha)

/-- an artifact is made in a directory that was made ready for it -/
theorem createArtifact_ok {w next : Work} {a : Artifact} (h : createArtifact w a = (next, none)) :
    ∃ ready, w.tree.makeDirs a.path.parent = (ready, none) ∧
      ready.createFile a.path (Utf8.encode a.body) = .ok next.tree := by
  have hfiling := createArtifact_filing w a
  rw [h] at hfiling
  cases hfiling with
  | made prepared creating =>
    have hprep := makeParent_preparing w a.path
    rw [prepared] at hprep
    cases hprep with
    | ready _ making => exact ⟨_, making, creating⟩

/-- one artifact that is made is there, with the directories that it lacked, and all else is as it was -/
theorem createArtifact_furnished {w next : Work} (hs : w.tree.Sound) {a : Artifact} (hp : a.path.IsPlain)
    (ha : createArtifact w a = (next, none)) : Furnished w.tree [a] next := by
  obtain ⟨ready, hmake, hcreate⟩ := createArtifact_ok ha
  have hdeep : Deepens w.tree ready := by
    have := Deepens.makeDirs hs a.path.parent
    rwa [hmake] at this
  have hlook : ready.look a.path.parent = .ok .dir := by
    have := look_makeDirs hs (p := a.path.parent) (by rw [hmake])
    rwa [hmake] at this
  obtain ⟨l, hl, hn, hnext⟩ := createFile_ok hcreate
  obtain rfl : l = w.tree.place a.path := (locate_plain hp hl).trans (place_congr hdeep.current a.path)
  have hne : w.tree.place a.path ≠ [] := by
    intro heq
    rw [heq] at hn
    simp at hn
  have hget : ∀ m, next.tree.get? m =
      if m = w.tree.place a.path then some (.file (Utf8.encode a.body)) else ready.get? m := by
    intro m
    rw [hnext]
    exact get?_set ready m _ hne
  have hstep : Grows ready next.tree := by
    rw [hnext]
    exact .set hdeep.sound hl hn _
  refine ⟨hdeep.toGrows.trans hstep, fun b hb => ?_, fun b hb => ?_, fun m hm => ⟨fun hdir => ?_, ?_⟩,
    fun m hm => ?_⟩
  · obtain rfl := List.mem_singleton.1 hb
    exact hstep.locate hl
  · obtain rfl := List.mem_singleton.1 hb
    exact ⟨hdeep.get?_none hn, by rw [hget, if_pos rfl]⟩
  · rw [hget] at hdir
    split_ifs at hdir
    · simp at hdir
    · exact ⟨a, by simp, makeDirs_plain hs hp.parent hm (by rw [hmake, hdir]; simp)⟩
  · rintro ⟨b, hb, hpre⟩
    obtain rfl := List.mem_singleton.1 hb
    obtain ⟨q, hq, hdir⟩ := look_ok.1 hlook
    obtain rfl : q = w.tree.place b.path.parent := (locate_plain hp.parent hq).trans (place_congr hdeep.current _)
    apply hstep.keeps
    by_cases heq : m = w.tree.place b.path.parent
    · exact heq ▸ hdir
    · exact hdeep.sound.dir_of_prefix hdir hpre heq
  · rw [content?_congr ((hget m).trans (if_neg (hm a (by simp))))]
    exact content?_deepens hdeep m

/-- artifacts that are all made are there, with the directories that they lacked, and all else is as it was -/
theorem createArtifacts_furnished {as : List Artifact} {w made : Work} (hs : w.tree.Sound)
    (hp : ∀ a ∈ as, a.path.IsPlain) (hc : createArtifacts w as = (made, none)) : Furnished w.tree as made := by
  induction as generalizing w with
  | nil =>
    obtain rfl : w = made := (Prod.mk.inj hc).1
    exact .refl hs
  | cons a as ih =>
    rcases createArtifacts_cons w a with ⟨next, ha, heq⟩ | ⟨next, e, -, heq⟩
    · have hfirst := createArtifact_furnished hs (hp a List.mem_cons_self) ha
      rw [heq] at hc
      exact hfirst.trans (ih hfirst.grows.sound (fun b hb => hp b (List.mem_cons_of_mem _ hb)) hc)
    · simp [heq] at hc

/-! ## Whole runs -/

/-- all that a run does to a tree is what it says it did -/
structure Completed (s : Settings) (t : FileTree) (slug title : Text) (r : FileTree) (v : Verdict) : Prop where
  artifacts : ∀ a ∈ Artifact.all s (requested s slug title),
    t.get? (t.place a.path) = none ∧ r.get? (t.place a.path) = some (.file (Utf8.encode a.body))
  dirs : ∀ l, r.get? l = some .dir ↔ t.get? l = some .dir ∨
    t.get? l = none ∧ ∃ a ∈ Artifact.all s (requested s slug title), l <+: t.place a.path.parent
  others : ∀ l, (∀ a ∈ Artifact.all s (requested s slug title), l ≠ t.place a.path) →
    (∀ k ∈ Listing.all s, l ≠ t.place k.path) → r.content? l = t.content? l
  /-- the turn of a listing comes in the tree that a run leaves with the listings before it -/
  listings : ∀ before k rest, Listing.all s = before ++ k :: rest → ∃ o, v.outcomes[before.length]? = some o ∧
    Truthful t (run s before none t slug title).tree r (requested s slug title) k o ∧
    (o.status = .skipped ↔ k = Listing.navigation s ∧
      ∃ text, t.readText k.path = .ok text ∧ ¬Listing.HasElement s.navigationElement text)

/-- the files that a run has made, and the verdict before it updates listings -/
theorem created_furnished {s : Settings} (hs : s.IsPlain) {t : FileTree} (ht : t.Sound) {slug title : Text}
    (accepted : validate s t slug title = .ok (requested s slug title)) {made : Work}
    (created : createArtifacts (begun t (requested s slug title)) (Artifact.all s (requested s slug title)) =
      (made, none)) : Furnished t (Artifact.all s (requested s slug title)) made ∧ made.verdict.outcomes = [] := by
  have hplain := Artifact.all_isPlain hs (c := requested s slug title) (validate_ok accepted).1
  obtain ⟨_, hv, -⟩ := createArtifacts_verdict created
  exact ⟨createArtifacts_furnished (w := begun t (requested s slug title)) ht hplain created, by rw [hv]; rfl⟩

/-- a formatter that leaves everything as it is does not matter to the tree -/
theorem postProcess_same {w : Work} {s : Settings} {f : Option Formatter}
    (hf : ∀ format ∈ f, ∀ u, Same (format s.formatCommand s.root u).1 u) : Same (postProcess w s f).tree w.tree := by
  intro l
  unfold postProcess
  cases f with
  | none => rfl
  | some format =>
    have hsame := hf format rfl w.tree l
    simp only
    split
    · rfl
    · rw [enter_tree]
      split <;> simp_all

/-- what a listing's outcome says when its turn has come, among others with other files -/
theorem listing_truthful {s : Settings} {ls : List Listing} (hls : ∀ k ∈ ls, k.path.IsPlain) {t : FileTree}
    (ht : t.Sound) {slug title : Text} (accepted : validate s t slug title = .ok (requested s slug title))
    {made after : Work}
    (created : createArtifacts (begun t (requested s slug title)) (Artifact.all s (requested s slug title)) =
      (made, none))
    (hmade : Furnished t (Artifact.all s (requested s slug title)) made)
    (listed : updateListings (enter made .mutatingRegistries) (requested s slug title) ls = (after, .finished))
    (hapart : (ls.map fun k => t.place k.path).Nodup)
    (hnew : ∀ k ∈ ls, ∀ a ∈ Artifact.all s (requested s slug title), t.place k.path ≠ t.place a.path)
    {r : FileTree} (hr : Same r after.tree) {before rest : List Listing} {k : Listing}
    (hsplit : ls = before ++ k :: rest) :
    ∃ o, after.verdict.outcomes[made.verdict.outcomes.length + before.length]? = some o ∧
      Truthful t (run s before none t slug title).tree r (requested s slug title) k o := by
  subst hsplit
  obtain ⟨mid, hmid, hrest⟩ := updateListings_append_finished listed
  obtain ⟨o, next, hpassed, hrest⟩ := updateListings_cons_finished hrest
  obtain ⟨earlier, hearlier, hpassedAll, -⟩ := updateListings_verdict hmid
  obtain ⟨later, hlater, -⟩ := updateListings_verdict hrest
  have hu : (run s before none t slug title).tree = mid.tree := by
    rw [run_finished accepted created hmid]
    rfl
  have hfirst := updateListings_frame (enter made .mutatingRegistries) (requested s slug title)
    fun l hl => hls l (List.mem_append_left _ hl)
  have hlast := updateListings_frame next (requested s slug title)
    fun l hl => hls l (List.mem_append_right _ (List.mem_cons_of_mem _ hl))
  rw [hmid] at hfirst
  rw [hrest] at hlast
  have hplace : ∀ p, made.tree.place p = t.place p := place_congr hmade.grows.current
  have hmidcur : mid.tree.current = t.current := hfirst.alike.current.trans hmade.grows.current
  have hk : k ∈ before ++ k :: rest := by simp
  have hstep := updateListing_frame mid (requested s slug title) (hls k hk)
  have hnextcur : next.tree.current = t.current := by
    rw [hpassed.tree]
    exact hstep.alike.current.trans hmidcur
  rw [List.map_append, List.map_cons, List.nodup_middle, List.nodup_cons, List.mem_append, not_or] at hapart
  refine ⟨o, ?_, hu ▸ hpassed.truthful ht (hfirst.alike.sound hmade.grows.sound) hmidcur (hls k hk) ?_ ?_⟩
  · have hlen : before.length = earlier.length := (hpassedAll rfl).length_eq
    rw [hlater, hpassed.verdict, hearlier]
    simp [enter, Verdict.enter, hlen]
  · rw [hfirst.content? (m := t.place k.path) (by simpa [hplace] using hapart.1.1)]
    exact hmade.others _ (hnew k hk)
  · rw [content?_congr (hr _)]
    exact hlast.content? (by simpa [place_congr hnextcur] using hapart.1.2)

/-- **A run that is done** has done what it says, and nothing else. -/
theorem run_completed {s : Settings} (hs : s.IsPlain) (hls : ∀ k ∈ Listing.all s, k.path.IsPlain)
    {f : Option Formatter} (hf : ∀ format ∈ f, ∀ u, Same (format s.formatCommand s.root u).1 u) {t : FileTree}
    (ht : t.Sound) {slug title : Text} {v : Verdict} (h : (run s (Listing.all s) f t slug title).verdict = .ok v)
    (hdone : v.phase = .done) (hapart : ((Listing.all s).map fun k => t.place k.path).Nodup)
    (hnew : ∀ k ∈ Listing.all s, ∀ a ∈ Artifact.all s (requested s slug title), t.place k.path ≠ t.place a.path) :
    Completed s t slug title (run s (Listing.all s) f t slug title).tree v := by
  obtain ⟨made, after, accepted, created, listed, hrun⟩ := run_done h hdone
  obtain ⟨hmade, houtcomes⟩ := created_furnished hs ht accepted created
  have hv : v.outcomes = after.verdict.outcomes := by
    rw [hrun] at h
    rw [(postProcess_verdict h).1]
  have hframe := updateListings_frame (enter made .mutatingRegistries) (requested s slug title) hls
  rw [listed] at hframe
  have hplace : ∀ p, made.tree.place p = t.place p := place_congr hmade.grows.current
  have hrest : ∀ l, (∀ k ∈ Listing.all s, l ≠ t.place k.path) → after.tree.get? l = made.tree.get? l := by
    intro l hl
    refine hframe.rest l fun hmem => ?_
    obtain ⟨k, hk, rfl⟩ := List.mem_map.1 hmem
    exact hl k hk (hplace k.path)
  have hsame : Same (run s (Listing.all s) f t slug title).tree after.tree := hrun ▸ postProcess_same hf
  generalize (run s (Listing.all s) f t slug title).tree = r at hsame ⊢
  refine ⟨fun a ha => ?_, fun l => ?_, fun l hl hl' => ?_, fun before k rest hsplit => ?_⟩
  · obtain ⟨hnone, hfile⟩ := hmade.files a ha
    refine ⟨hnone, ?_⟩
    rw [hsame, hrest _ fun k hk heq => hnew k hk a ha heq.symm, hfile]
  · rw [hsame, hframe.alike.dir, enter_tree]
    cases hl : t.get? l with
    | some e =>
      rw [hmade.grows.keeps l e hl]
      simp
    | none => simpa using hmade.dirs l hl
  · rw [content?_congr (hsame l), content?_congr (hrest l hl')]
    exact hmade.others l hl
  · obtain ⟨o, ho, htrue⟩ := listing_truthful hls ht accepted created hmade listed hapart hnew hsame hsplit
    refine ⟨o, by simpa [hv, houtcomes] using ho, htrue, ?_⟩
    have hk : k ∈ Listing.all s := by simp [hsplit]
    simp only [htrue.skipped, Listing.resting_iff hk]
    exact ⟨fun ⟨text, hread, hnav, hnone⟩ => ⟨hnav, text, hread, hnone⟩,
      fun ⟨hnav, text, hread, hnone⟩ => ⟨text, hread, hnav, hnone⟩⟩

/-- a run that updates the index, cannot update the router, and finds nothing to line up with in the navigation -/
theorem run_completed_all_ways :
    let s := Settings.standard (.ofText "repo".toList)
    let dirs := [["repo"], ["repo", "packages"], ["repo", "packages", "components"],
      ["repo", "packages", "components", "src"], ["repo", "packages", "docs"], ["repo", "packages", "docs", "src"],
      ["repo", "packages", "docs", "src", "components"]]
    let files := [(["repo", "packages", "components", "src", "index.ts"],
        "import A from 'a'\nconst components = [A]\nexport \x7b A \x7d\n"),
      (["repo", "packages", "docs", "src", "router.ts"], "export default []\n"),
      (["repo", "packages", "docs", "src", "components", "SideNav.vue"], "<nav></nav>\n")]
    let t : FileTree := ⟨[], ['0'], (dirs.map fun d => (d.map (·.toList), .dir)) ++
      files.map fun x => (x.1.map (·.toList), .file (Utf8.encode x.2.toList))⟩
    let f : Option Formatter := some fun _ _ t => (t, none)
    let r := run s (Listing.all s) f t "card".toList "Card".toList
    ∃ v, r.verdict = .ok v ∧ v.phase = .done ∧
      (r.verdict.toOption.map fun v => v.outcomes.map (·.status)) = some [.updated, .failed, .skipped] ∧
      Completed s t "card".toList "Card".toList r.tree v := by
  intro s dirs files t f r
  have hs : s.IsPlain := ⟨by decide, by decide, by decide, by decide⟩
  have hls : ∀ k ∈ Listing.all s, k.path.IsPlain := by decide +kernel
  have hf : ∀ format ∈ f, ∀ u, Same (format s.formatCommand s.root u).1 u := by
    rintro format hformat u
    obtain rfl := Option.some.inj hformat
    exact fun _ => rfl
  have ht : t.Sound := .of_entries (by decide +kernel) (by decide +kernel)
  have hfields : (r.verdict.toOption.map fun v => (v.phase, v.outcomes.map (·.status))) =
      some (.done, [.updated, .failed, .skipped]) := by decide +kernel
  obtain ⟨v, hv, hpair⟩ := Option.map_eq_some_iff.1 hfields
  obtain ⟨hdone, hstatus⟩ := Prod.mk.inj hpair
  replace hv := r.verdict_ok hv
  exact ⟨v, hv, hdone, by rw [hv]; exact congrArg some hstatus,
    run_completed hs hls hf ht hv hdone (by decide +kernel) (by decide +kernel)⟩

end Componentry.Creation
