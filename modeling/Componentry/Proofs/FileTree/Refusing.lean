/-
Why an access is refused.

A NUL character in a path is noticed before the system is asked, and it is the only reason that is no refusal of the
system. So an access is refused for that reason exactly if its path has one:
- `locate_nul`, `makeDirs_cause`, `createFile_cause`, `read_cause`, `replace_cause`.
- `isPresent_error_iff`: whether a path leads to something can be asked unless a name on it, or the path, is too long.
-/
import Componentry.Proofs.FileTree.Walking

namespace Componentry

/-- a path with a NUL character in a component -/
def Path.HasNul (p : Path) : Prop := ∃ n ∈ p.names, '\x00' ∈ n

instance (p : Path) : Decidable p.HasNul := inferInstanceAs (Decidable (∃ n ∈ p.names, '\x00' ∈ n))

theorem Path.hasNul_iff {p : Path} : p.HasNul ↔ p.names.any (·.contains '\x00') = true := by
  simp [Path.HasNul]

namespace FileTree

variable {t : FileTree} {p : Path} {e : Trouble}

/-! ## Looking -/

theorem enter_cause {here : Location} {name : Text} {c : Cause} (h : t.enter here name = .error c) :
    c = .noEntry ∨ c = .notDirectory ∨ c = .nameTooLong := by
  unfold enter at h
  split at h
  · exact Or.inl (Except.error.inj h).symm
  · exact Or.inr (Or.inl (Except.error.inj h).symm)
  · split_ifs at h
    exact Or.inr (Or.inr (Except.error.inj h).symm)

theorem walk_cause {here : Location} {names : List Text} {c : Cause} (h : t.walk here names = .error c) :
    c = .noEntry ∨ c = .notDirectory ∨ c = .nameTooLong := by
  induction names generalizing here with
  | nil => simp [walk] at h
  | cons name names ih =>
    simp only [walk] at h
    cases hn : t.enter here name with
    | error d =>
      rw [hn] at h
      exact Except.error.inj h ▸ enter_cause hn
    | ok next =>
      rw [hn] at h
      exact ih h

/-- a path is refused for a NUL character exactly if it has one -/
theorem locate_nul : t.locate p = .error .nulCharacter ↔ p.HasNul := by
  rw [Path.hasNul_iff]
  unfold locate
  split_ifs with h0 h1
  · exact ⟨fun _ => h0, fun _ => rfl⟩
  · exact ⟨fun h => by simp at h, fun h => absurd h h0⟩
  · refine ⟨fun h => ?_, fun h => absurd h h0⟩
    rcases walk_cause h with h | h | h <;> simp at h

theorem locate_cause {c : Cause} (h : t.locate p = .error c) :
    c = .noEntry ∨ c = .notDirectory ∨ c = .nameTooLong ∨ c = .nulCharacter := by
  unfold locate at h
  split_ifs at h
  · exact Or.inr (Or.inr (Or.inr (Except.error.inj h).symm))
  · exact Or.inr (Or.inr (Or.inl (Except.error.inj h).symm))
  · rcases walk_cause h with h | h | h <;> simp [h]

theorem look_nul : t.look p = .error .nulCharacter ↔ p.HasNul := by
  rw [← locate_nul (t := t)]
  unfold look
  cases t.locate p with
  | error c => simp
  | ok l => cases hg : t.get? l <;> simp [hg]

theorem look_cause {c : Cause} (h : t.look p = .error c) :
    c = .noEntry ∨ c = .notDirectory ∨ c = .nameTooLong ∨ c = .nulCharacter := by
  unfold look at h
  cases hl : t.locate p with
  | error d =>
    rw [hl] at h
    exact Except.error.inj h ▸ locate_cause hl
  | ok l =>
    cases hg : t.get? l with
    | none => simp_all
    | some f => simp [hl, hg] at h

/-- whether a path leads to something can be asked unless something is too long -/
theorem isPresent_error_iff :
    t.isPresent p = .error e ↔ t.look p = .error .nameTooLong ∧ e = troubleAt p .nameTooLong := by
  unfold isPresent
  cases hl : t.look p with
  | ok f => simp
  | error c => rcases look_cause hl with rfl | rfl | rfl | rfl <;> simp [eq_comm]

theorem firstMissing_ok_iff {ps : List Path} :
    (∃ missing, t.firstMissing ps = .ok missing) ↔ ∀ q ∈ ps, t.look q ≠ .error .nameTooLong := by
  induction ps with
  | nil => simp [firstMissing]
  | cons q ps ih =>
    simp only [firstMissing, List.forall_mem_cons, ← ih]
    cases hq : t.isPresent q with
    | error e =>
      have := (isPresent_error_iff.1 hq).1
      simp [this]
    | ok here =>
      have hlook : t.look q ≠ .error .nameTooLong := fun h => by
        rw [isPresent_error_iff.2 ⟨h, rfl⟩] at hq
        simp at hq
      cases t.firstMissing ps with
      | error e => simp
      | ok inner => simp [hlook]

theorem firstMissing_cause {ps : List Path} (h : t.firstMissing ps = .error e) : e.cause = .nameTooLong := by
  induction ps with
  | nil => simp [firstMissing] at h
  | cons q ps ih =>
    simp only [firstMissing] at h
    cases hq : t.isPresent q with
    | error f =>
      rw [hq] at h
      rw [← Except.error.inj h, (isPresent_error_iff.1 hq).2]
      rfl
    | ok here =>
      rw [hq] at h
      cases hr : t.firstMissing ps with
      | error f =>
        rw [hr] at h
        exact ih (by rw [hr, ← Except.error.inj h])
      | ok inner => rw [hr] at h; simp at h

/-! ## Creating -/

theorem vacant_of_nul (h : p.HasNul) : t.vacant p = .error (troubleAt p .nulCharacter) := by
  simp [vacant, locate_nul.2 h]

theorem vacant_cause (h : ¬p.HasNul) (he : t.vacant p = .error e) : e.cause ≠ .nulCharacter := by
  unfold vacant at he
  cases hl : t.locate p with
  | error c =>
    rw [hl] at he
    rw [← Except.error.inj he]
    exact fun hc => h (locate_nul.1 (hl.trans (congrArg _ hc)))
  | ok l =>
    rw [hl] at he
    simp only at he
    split_ifs at he
    rw [← Except.error.inj he]
    simp [troubleAt]

theorem createFile_cause (h : ¬p.HasNul) {b : Bytes} (he : t.createFile p b = .error e) :
    e.cause ≠ .nulCharacter := by
  unfold createFile at he
  cases hv : t.vacant p with
  | ok l => rw [hv] at he; simp [Except.map] at he
  | error f =>
    rw [hv] at he
    exact vacant_cause h (hv.trans (congrArg _ (Except.error.inj he)))

theorem settleDir_of_nul (h : p.HasNul) : t.settleDir p = (t, some (troubleAt p .nulCharacter)) := by
  have hdir : t.leadsToDir p = false := by simp [leadsToDir, look_nul.2 h]
  simp [settleDir, makeDir, vacant_of_nul h, Except.map, hdir]

theorem settleDir_cause (h : ¬p.HasNul) (he : (t.settleDir p).2 = some e) : e.cause ≠ .nulCharacter := by
  unfold settleDir makeDir at he
  cases hv : t.vacant p with
  | ok l => rw [hv] at he; simp [Except.map] at he
  | error f =>
    rw [hv] at he
    simp only [Except.map] at he
    split_ifs at he
    exact vacant_cause h (hv.trans (congrArg _ (Option.some.inj he)))

theorem makeDirsAt_cause (a : Path.Anchor) (names : List Text) (h : ¬Path.HasNul ⟨a, names.reverse⟩)
    (he : (t.makeDirsAt a names).2 = some e) : e.cause ≠ .nulCharacter := by
  induction names generalizing e with
  | nil => exact settleDir_cause h he
  | cons name above ih =>
    have habove : ¬Path.HasNul ⟨a, above.reverse⟩ := fun ⟨n, hn, h0⟩ => h ⟨n, by simp_all, h0⟩
    have hmaking := makeDirsAt_making t a name above
    generalize t.makeDirsAt a (name :: above) = made at hmaking he
    cases hmaking with
    | atOnce => exact settleDir_cause h he
    | stopped => exact ih habove he
    | below => exact settleDir_cause h he

theorem makeDirs_of_nul (h : p.HasNul) : t.makeDirs p = (t, some (troubleAt p .nulCharacter)) := by
  have hp : (⟨p.anchor, p.names.reverse.reverse⟩ : Path) = p := by rw [List.reverse_reverse]
  have hsettle := settleDir_of_nul (t := t) h
  unfold makeDirs
  cases hn : p.names.reverse with
  | nil =>
    obtain ⟨n, hmem, -⟩ := h
    simp [List.reverse_eq_nil_iff.1 hn] at hmem
  | cons name above =>
    rw [hn] at hp
    rw [makeDirsAt]
    simp only [hp, hsettle]
    rfl

theorem makeDirs_cause (h : ¬p.HasNul) (he : (t.makeDirs p).2 = some e) : e.cause ≠ .nulCharacter :=
  makeDirsAt_cause p.anchor p.names.reverse (by rwa [List.reverse_reverse]) he

/-! ## Reading and replacing -/

theorem read_of_nul (h : p.HasNul) : t.read p = .error (troubleAt p .nulCharacter) := by
  simp [FileTree.read, look_nul.2 h]

theorem read_cause (h : ¬p.HasNul) (he : t.read p = .error e) : e.cause ≠ .nulCharacter := by
  unfold FileTree.read at he
  cases hl : t.look p with
  | error c =>
    rw [hl] at he
    rw [← Except.error.inj he]
    exact fun hc => h (look_nul.1 (hl.trans (congrArg _ hc)))
  | ok f =>
    rw [hl] at he
    cases f with
    | file b => simp at he
    | dir =>
      rw [← Except.error.inj he]
      simp [troubleAt]

theorem rename_cause {source target : Path} (hs : ¬source.HasNul) (ht : ¬target.HasNul)
    (he : t.rename source target = .error e) : e.cause ≠ .nulCharacter := by
  unfold rename at he
  cases hl : t.locate source with
  | error c =>
    rw [hl] at he
    simp only [Except.error.injEq] at he
    rw [← he]
    exact fun hc => hs (locate_nul.1 (hl.trans (congrArg _ hc)))
  | ok l =>
    rw [hl] at he
    cases hm : t.locate target with
    | error c =>
      rw [hm] at he
      simp only [Except.error.injEq] at he
      rw [← he]
      exact fun hc => ht (locate_nul.1 (hm.trans (congrArg _ hc)))
    | ok m =>
      rw [hm] at he
      simp only at he
      split_ifs at he
      · rw [← Except.error.inj he]
        simp
      · split at he <;> simp only [Except.error.injEq, reduceCtorEq] at he <;> rw [← he] <;> simp

theorem mem_collapse {names : List Text} {n : Text} (h : n ∈ Path.collapse names) : n ∈ names := by
  unfold Path.collapse at h
  have hall : ∀ (more kept : List Text), n ∈ more.foldl (fun kept name =>
      if name = ['.', '.'] then kept.dropLast else kept ++ [name]) kept → n ∈ kept ∨ n ∈ more := by
    intro more
    induction more with
    | nil => exact fun kept hk => Or.inl hk
    | cons name more ih =>
      intro kept hk
      rcases ih _ hk with hk | hk
      · simp only at hk
        split_ifs at hk
        · exact Or.inl (List.dropLast_subset _ hk)
        · rcases List.mem_append.1 hk with hk | hk
          · exact Or.inl hk
          · exact Or.inr (by simp [List.mem_singleton.1 hk])
      · exact Or.inr (List.mem_cons_of_mem _ hk)
  rcases hall names [] h with h | h
  · simp at h
  · exact h

/-- the names that a tree adds to a path have no NUL character -/
structure Spelled (t : FileTree) : Prop where
  current : ∀ n ∈ t.current, '\x00' ∉ n
  token : '\x00' ∉ t.token

theorem temporary_noNul (ht : t.Spelled) (h : ¬p.HasNul) : ¬(t.temporary p).HasNul := by
  rintro ⟨n, hn, h0⟩
  rcases List.mem_append.1 hn with hn | hn
  · have hmem : n ∈ t.current ∨ n ∈ p.parent.names := by
      unfold absolute at hn
      split at hn
      · exact List.mem_append.1 (mem_collapse hn)
      · exact Or.inr (mem_collapse hn)
    rcases hmem with hmem | hmem
    · exact ht.current n hmem h0
    · exact h ⟨n, List.dropLast_subset _ hmem, h0⟩
  · rw [List.mem_singleton.1 hn] at h0
    have hname : '\x00' ∉ p.name := by
      intro hx
      unfold Path.name at hx
      cases hl : p.names.getLast? with
      | none => simp [hl] at hx
      | some m =>
        rw [hl] at hx
        exact h ⟨m, List.mem_of_getLast? hl, hx⟩
    have htoken := ht.token
    simp_all

theorem replace_cause (ht : t.Spelled) (h : ¬p.HasNul) {b : Bytes} (he : (t.replace p b).2 = some e) :
    e.cause ≠ .nulCharacter := by
  have htemp := temporary_noNul ht h
  unfold replace at he
  simp only at he
  cases hc : t.createFile (t.temporary p) b with
  | error f =>
    rw [hc] at he
    exact createFile_cause htemp (hc.trans (congrArg _ (Option.some.inj he)))
  | ok written =>
    rw [hc] at he
    simp only at he
    cases hp : written.isPresent p with
    | error f =>
      rw [hp] at he
      rw [← Option.some.inj he, (isPresent_error_iff.1 hp).2]
      simp [troubleAt]
    | ok here =>
      rw [hp] at he
      simp only at he
      cases hr : written.rename (t.temporary p) p with
      | error f =>
        rw [hr] at he
        exact rename_cause htemp h (hr.trans (congrArg _ (Option.some.inj he)))
      | ok moved => rw [hr] at he; simp at he

end FileTree

end Componentry
