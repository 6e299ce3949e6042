/-
What a failed verdict claims.

A run that fails undoes what it did, and its verdict should claim none of it. What was created is taken off the record;
the outcomes of listings stay there as they were.
- `updateListings_updated`: an outcome says "updated" exactly if the turn of a listing came that rewrites its file.
- `failed_claims_update_iff`: so does a failed verdict, and each such file has its old text back by then. With a fatal
  listing in the first place alone, as the listings of a library have it, no failed verdict says so.
-/
import Componentry.Proofs.Restoring
import Componentry.Proofs.Verdict

namespace Componentry.Creation

open FileTree

/-! ## Listings -/

/-- a listing rewrites its file: its steps change the text that is there, and the new text can be put in its place -/
def Rewrites (t : FileTree) (c : Component) (l : Listing) : Prop :=
  ∃ content updated, t.readText l.path = .ok content ∧ l.apply content c = .ok updated ∧ updated ≠ content ∧
    (t.replaceText l.path updated).2 = none

/-- an updated listing is one that rewrites its file -/
theorem updateListing_updated_iff (w : Work) (c : Component) (l : Listing) :
    (∃ o, (updateListing w c l).2 = .ok o ∧ o.status = .updated) ↔ Rewrites w.tree c l := by
  have h := updateListing_update w c l
  generalize updateListing w c l = r at h
  cases h with
  | unread read => simp [Rewrites, read]
  | unspliced read applied => simp [Rewrites, read, applied]
  | @resting content read applied =>
    have hrest : (restingOutcome l content).status ≠ .updated := by
      rw [restingOutcome_status]
      simp only [outcome]
      split_ifs <;> decide
    constructor
    · intro hrecord
      obtain ⟨o, ho, hupdated⟩ := hrecord
      rw [← Except.ok.inj ho] at hupdated
      exact absurd hupdated hrest
    · intro hrewrites
      obtain ⟨text, updated, hread, happlied, hchanged, -⟩ := hrewrites
      obtain rfl := Except.ok.inj (read.symm.trans hread)
      exact absurd (Except.ok.inj (happlied.symm.trans applied)) hchanged
  | refused read applied changed replaced => simp [Rewrites, read, applied, replaced]
  | replaced read applied changed replaced => simp [Rewrites, read, applied, changed, replaced, outcome]

/-- a listing that is passed is on record as updated exactly if it rewrites its file -/
theorem Passed.updated_iff {w next : Work} {c : Component} {l : Listing} {o : Outcome} (h : Passed w c l o next) :
    o.status = .updated ↔ Rewrites w.tree c l := by
  rw [← updateListing_updated_iff]
  rcases h.result with hok | ⟨failure, herror, -, rfl⟩
  · constructor
    · intro ho
      exact ⟨o, hok, ho⟩
    · intro hrecord
      obtain ⟨o', hok', ho'⟩ := hrecord
      rwa [Except.ok.inj (hok.symm.trans hok')]
  · simp [herror, outcome]

/-- some outcome of listings says "updated" exactly if the turn of a listing came that rewrites its file -/
theorem updateListings_updated {w after : Work} {c : Component} {ls : List Listing} {ending : ListingsEnd}
    (h : updateListings w c ls = (after, ending)) :
    ∃ os, after.verdict.outcomes = w.verdict.outcomes ++ os ∧ ((∃ o ∈ os, o.status = .updated) ↔
      ∃ before l rest done, ls = before ++ l :: rest ∧ updateListings w c before = (done, .finished) ∧
        Rewrites done.tree c l) := by
  induction ls generalizing w with
  | nil =>
    obtain ⟨rfl, -⟩ := Prod.mk.inj h
    exact ⟨[], by simp, by simp⟩
  | cons l ls ih =>
    have hverdict := (updateListing_verdict w c l).1
    rcases updateListings_cons w c l with ⟨o, next, hpassed, heq⟩ | ⟨failure, hfailed, -, heq⟩ | ⟨e, hescaped, heq⟩
    · obtain ⟨os, hos, hupdated⟩ := ih ((heq ls).symm.trans h)
      refine ⟨o :: os, by simp [hos, hpassed.verdict], ?_⟩
      rw [exists_reached_of_passed heq, List.exists_mem_cons_iff, hpassed.updated_iff, hupdated]
    · have hnot : ¬Rewrites w.tree c l := by
        simp [← updateListing_updated_iff, hfailed]
      rw [heq] at h
      obtain ⟨rfl, -⟩ := Prod.mk.inj h
      refine ⟨[outcome l .failed (some failure.message)], by simp [addOutcome, hverdict], ?_⟩
      rw [exists_reached_of_stopped fun ls => by simp [heq]]
      exact iff_of_false (by simp [outcome]) hnot
    · have hnot : ¬Rewrites w.tree c l := by
        simp [← updateListing_updated_iff, hescaped]
      rw [heq] at h
      obtain ⟨rfl, -⟩ := Prod.mk.inj h
      refine ⟨[], by simp [hverdict], ?_⟩
      rw [exists_reached_of_stopped fun ls => by simp [heq]]
      exact iff_of_false (by simp) hnot

/-! ## Runs -/

/-- a run rewrites the file of one of its listings: the turn of that listing comes, and it rewrites its file -/
inductive Rewritten (s : Settings) (ls : List Listing) (t : FileTree) (slug title : Text) : Prop where
  | listing {before rest : List Listing} {l : Listing} {made done : Work}
      (accepted : validate s t slug title = .ok (requested s slug title))
      (created : createArtifacts (begun t (requested s slug title)) (Artifact.all s (requested s slug title)) =
        (made, none))
      (split : ls = before ++ l :: rest)
      (reached : updateListings (enter made .mutatingRegistries) (requested s slug title) before = (done, .finished))
      (rewrites : Rewrites done.tree (requested s slug title) l)

section

variable {s : Settings} {ls : List Listing} {f : Option Formatter} {t : FileTree} {slug title : Text} {v : Verdict}

/-- a verdict that has an updated listing is one of a run that rewrites a file, and the other way round, whatever the
run came to -/
theorem updated_iff_rewritten (h : (run s ls f t slug title).verdict = .ok v) :
    (∃ o ∈ v.outcomes, o.status = .updated) ↔ Rewritten s ls t slug title := by
  have hend := run_ending s ls f t slug title
  generalize run s ls f t slug title = r at h hend
  -- a run that comes to its listings
  have hlisted : ∀ {made after : Work} {ending : ListingsEnd},
      validate s t slug title = .ok (requested s slug title) →
      createArtifacts (begun t (requested s slug title)) (Artifact.all s (requested s slug title)) = (made, none) →
      updateListings (enter made .mutatingRegistries) (requested s slug title) ls = (after, ending) →
      ((∃ o ∈ after.verdict.outcomes, o.status = .updated) ↔ Rewritten s ls t slug title) := by
    intro made after ending accepted created listed
    obtain ⟨_, hmade, -⟩ := createArtifacts_verdict created
    obtain ⟨os, hos, hupdated⟩ := updateListings_updated listed
    have hstart : (enter made .mutatingRegistries).verdict.outcomes = [] := by
      simp only [enter, hmade]
      rfl
    rw [hos, hstart, List.nil_append, hupdated]
    constructor
    · intro hreaches
      obtain ⟨before, l, rest, done, hsplit, hreached, hrewrites⟩ := hreaches
      exact .listing accepted created hsplit hreached hrewrites
    · intro hrewritten
      obtain ⟨-, created', hsplit, hreached, hrewrites⟩ := hrewritten
      obtain ⟨rfl, -⟩ := Prod.mk.inj (created.symm.trans created')
      exact ⟨_, _, _, _, hsplit, hreached, hrewrites⟩
  cases hend with
  | lookEscaped | fileEscaped | listingEscaped => simp [escape] at h
  | turnedDown refused =>
    rw [← Except.ok.inj h]
    refine iff_of_false (by simp [failed, Verdict.enter, Verdict.withError, enter, Verdict.fresh]) fun hrewritten => ?_
    obtain ⟨accepted, -⟩ := hrewritten
    simp [refused] at accepted
  | uncreated accepted stopped =>
    obtain ⟨_, hw, -⟩ := createArtifacts_verdict stopped
    rw [← Except.ok.inj h]
    refine iff_of_false (by simp [failed, Verdict.enter, Verdict.withError, hw, begun, checked, enter, Verdict.fresh])
      fun hrewritten => ?_
    obtain ⟨-, created, -⟩ := hrewritten
    simp [stopped] at created
  | unlisted accepted created stopped =>
    rw [← Except.ok.inj h]
    exact hlisted accepted created stopped
  | finished accepted created listed =>
    rw [(postProcess_verdict h).1]
    exact hlisted accepted created listed

/-- a run that failed has no outcome of a listing, or it failed at a listing -/
theorem Consistent.of_failed {r : Report} (h : Consistent s ls f t slug title r v) (hf : v.phase = .failed) :
    v.outcomes = [] ∨ v.history = unlistedCourse ∧ ∃ l, StoppedAt l ls v.outcomes := by
  have hhistory := h.history
  simp only [List.mem_cons, List.not_mem_nil, or_false] at hhistory
  rcases hhistory with hh | hh | hh | hh
  · exact Or.inl (h.unlisted (by simp [hh]))
  · exact Or.inl (h.unlisted (by simp [hh]))
  · exact Or.inr ⟨hh, h.stopped hh⟩
  · have hlast := h.phase
    rw [hh, hf] at hlast
    simp [doneCourse] at hlast

/-- where a fatal listing is the first, a run that fails at a listing fails at the first -/
theorem StoppedAt.single {l : Listing} {os : List Outcome} (h : StoppedAt l ls os)
    (hls : ∀ k ∈ ls.tail, k.fatal = false) : ∃ o, os = [o] ∧ o.status = .failed := by
  obtain ⟨before, rest, earlier, o, rfl, rfl, hpassed, -, hfailed, hfatal⟩ := h
  cases before with
  | nil =>
    cases hpassed
    exact ⟨o, rfl, hfailed⟩
  | cons first before =>
    have hnot : l.fatal = false := hls l (by simp)
    simp [hnot] at hfatal

/-- **What a failed verdict claims.** Nothing is on record as created. Some listing is on record as updated exactly if the
run rewrote the file of a listing before it failed; where a fatal listing is the first, none is. What such an outcome
says is not so: with all paths plain ones below the root, the tree is as it was. -/
theorem failed_claims_update_iff (h : (run s ls f t slug title).verdict = .ok v) (hf : v.phase = .failed) :
    v.created = [] ∧
      ((∀ o ∈ v.outcomes, o.status ≠ .updated) ↔ ¬Rewritten s ls t slug title) ∧
      ((∀ l ∈ ls.tail, l.fatal = false) → ∀ o ∈ v.outcomes, o.status ≠ .updated) ∧
      (s.IsPlain → (∀ l ∈ ls, l.path.IsPlain ∧ l.path.anchor = s.root.anchor) → t.Sound →
        (∃ o ∈ v.outcomes, o.status = .updated) → Same (run s ls f t slug title).tree t) := by
  have hconsistent := run_consistent h
  refine ⟨(hconsistent.failed hf).2.1, ?_, ?_, ?_⟩
  · rw [← updated_iff_rewritten h, not_exists]
    simp only [not_and]
  · intro hls o ho
    cases hconsistent.of_failed hf with
    | inl hnone => simp [hnone] at ho
    | inr hstopped =>
      obtain ⟨-, l, hl⟩ := hstopped
      obtain ⟨only, honly, hfailed⟩ := hl.single hls
      rw [honly, List.mem_singleton] at ho
      simp [ho, hfailed]
  · intro hs hls ht ⟨o, ho, _⟩
    cases hconsistent.of_failed hf with
    | inl hnone => simp [hnone] at ho
    | inr hstopped =>
      refine listing_failed_same hs hls f ht slug title ?_
      rw [Report.phases?, h]
      exact congrArg some hstopped.1

end

/-- a file that is rewritten, and then a listing without the list it asks for: the old text is back, and still the verdict
has the file as updated -/
theorem failed_claims_update_listed :
    let s := Settings.standard (.ofText "repo".toList)
    let t : FileTree := ⟨[], ['0'], [(["repo".toList], .dir), (["repo".toList, "list.ts".toList], .file [0x61, 0x0A])]⟩
    let listing (edit : Text → Except Splice.Fault Text) : Listing :=
      ⟨"list".toList, .ofText "repo/list.ts".toList, [⟨[], .own fun _ content _ => edit content, .exportList,
        Listing.entryFragment⟩], true⟩
    let ls := [listing fun content => .ok (content ++ ['b']), listing fun _ => .error (.noList .exportList)]
    let r := run s ls none t "card".toList "Card".toList
    ∃ v, r.verdict = .ok v ∧ v.phase = .failed ∧ v.outcomes.map (·.status) = [.updated, .failed] ∧ v.created = [] ∧
      Rewritten s ls t "card".toList "Card".toList ∧ Same r.tree t := by
  intro s t listing ls r
  have hs : s.IsPlain := ⟨by decide, by decide, by decide, by decide⟩
  have hls : ∀ l ∈ ls, l.path.IsPlain ∧ l.path.anchor = s.root.anchor := by decide
  have ht : t.Sound := .of_entries (by decide) (by decide)
  have hr : (r.verdict.toOption.map fun v => (v.phase, v.outcomes.map (·.status))) =
      some (.failed, [.updated, .failed]) := by
    decide +kernel
  obtain ⟨v, hv, heq⟩ := Option.map_eq_some_iff.1 hr
  obtain ⟨hphase, hstatus⟩ := Prod.mk.inj heq
  obtain ⟨hcreated, hclaims, -, hsame⟩ := failed_claims_update_iff (r.verdict_ok hv) hphase
  have hupdated : ∃ o ∈ v.outcomes, o.status = .updated := by
    rw [← List.mem_map, hstatus]
    decide
  refine ⟨v, r.verdict_ok hv, hphase, hstatus, hcreated, ?_, hsame hs hls ht hupdated⟩
  by_contra hnot
  obtain ⟨o, ho, hstatus⟩ := hupdated
  exact hclaims.2 hnot o ho hstatus

/-- a failed verdict may claim an update: the router file comes first, and there is no component index -/
theorem failed_claims_update_router :
    ¬∀ (s : Settings) (ls : List Listing) (f : Option Formatter) (t : FileTree) (slug title : Text) (v : Verdict),
      (run s ls f t slug title).verdict = .ok v → v.phase = .failed →
        v.created = [] ∧ ∀ o ∈ v.outcomes, o.status ≠ .updated := by
  intro hall
  let s := Settings.standard (.ofText "repo".toList)
  let t : FileTree := ⟨[], ['0'], [(["repo".toList], .dir), (["repo".toList, "packages".toList], .dir),
    (["repo".toList, "packages".toList, "docs".toList], .dir),
    (["repo".toList, "packages".toList, "docs".toList, "src".toList], .dir),
    (["repo".toList, "packages".toList, "docs".toList, "src".toList, "router.ts".toList],
      .file (Utf8.encode "const routes = \x7b children: [] \x7d\n".toList))]⟩
  let ls := [Listing.router s, Listing.index s]
  have hr : ((run s ls none t "card".toList "Card".toList).verdict.toOption.map fun v =>
      (v.phase, v.outcomes.map (·.status))) = some (.failed, [.updated, .failed]) := by
    decide +kernel
  obtain ⟨v, hv, heq⟩ := Option.map_eq_some_iff.1 hr
  obtain ⟨hphase, hstatus⟩ := Prod.mk.inj heq
  have hclaim := (hall s ls none t _ _ v (Report.verdict_ok _ hv) hphase).2
  have hupdated : ∃ o ∈ v.outcomes, o.status = .updated := by
    rw [← List.mem_map, hstatus]
    decide
  obtain ⟨o, ho, hstatus⟩ := hupdated
  exact hclaim o ho hstatus

end Componentry.Creation
