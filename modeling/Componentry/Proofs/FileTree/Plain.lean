/-
Plain paths: paths without `..`, which lead where they are spelled.

- `locate_plain`: a plain path leads to its names below the place it starts at, its `place`.
- `Sound.locate_of_entry`: what is found at the place of a plain path is found by the path.
- `Grows.made_below_missing`: the directories that a plain path was missing lie at or below its outermost missing one.
- `makeDirs_refused`: with names that fit, a plain directory is made with all it needs, or nothing is made at all.
-/
import Componentry.Proofs.FileTree.Walking

namespace Componentry

/-- a path that never goes up -/
def Path.IsPlain (p : Path) : Prop := ['.', '.'] ∉ p.names

instance (p : Path) : Decidable p.IsPlain := inferInstanceAs (Decidable (_ ∉ _))

namespace FileTree

theorem walk_plain {t : FileTree} {here l : Location} {names : List Text} (hp : ['.', '.'] ∉ names)
    (h : t.walk here names = .ok l) : l = here ++ names := by
  induction names generalizing here with
  | nil =>
    simp only [walk, Except.ok.injEq] at h
    simp [h]
  | cons name names ih =>
    simp only [List.mem_cons, not_or] at hp
    simp only [walk] at h
    cases hn : t.enter here name with
    | error c => simp [hn] at h
    | ok next =>
      rw [hn] at h
      unfold enter at hn
      split at hn
      · simp at hn
      · simp at hn
      · rw [if_neg (Ne.symm hp.1)] at hn
        split_ifs at hn
        rw [ih hp.2 h, ← Except.ok.inj hn]
        simp

/-- a plain path leads to its names below the place it starts at -/
theorem locate_plain {t : FileTree} {p : Path} {l : Location} (hp : p.IsPlain) (h : t.locate p = .ok l) :
    l = t.origin p ++ p.names :=
  walk_plain hp (walk_of_locate h)

/-- a walk through directories under names that fit -/
theorem walk_of_dirs {t : FileTree} {here : Location} {names : List Text} (hp : ['.', '.'] ∉ names)
    (hfit : ∀ n ∈ names, (Utf8.encode n).length ≤ nameLimit)
    (hdirs : ∀ k < names.length, t.get? (here ++ names.take k) = some .dir) :
    t.walk here names = .ok (here ++ names) := by
  induction names generalizing here with
  | nil => simp [walk]
  | cons name names ih =>
    simp only [List.mem_cons, not_or] at hp
    have hhere : t.get? here = some .dir := by simpa using hdirs 0 (by simp)
    have henter : t.enter here name = .ok (here ++ [name]) := by
      have := hfit name List.mem_cons_self
      simp [enter, hhere, Ne.symm hp.1, this]
    simp only [walk, henter]
    rw [ih hp.2 (fun n hn => hfit n (List.mem_cons_of_mem _ hn))]
    · simp
    · intro k hk
      have := hdirs (k + 1) (by simpa using hk)
      simpa using this

/-- where a plain path leads, if it leads anywhere -/
def place (t : FileTree) (p : Path) : Location := t.origin p ++ p.names

theorem place_congr {t u : FileTree} (h : u.current = t.current) (p : Path) : u.place p = t.place p := by
  simp only [place, origin, h]

/-- every location on the way to an entry is a directory -/
theorem Sound.dir_of_prefix {t : FileTree} (h : t.Sound) {l m : Location} {e : Entry} (hm : t.get? m = some e)
    (hl : l <+: m) (hne : l ≠ m) : t.get? l = some .dir := by
  induction m using List.reverseRecOn generalizing e with
  | nil => exact absurd (List.prefix_nil.1 hl) hne
  | append_singleton m n ih =>
    have hd := h.hung _ _ hm
    rw [List.dropLast_concat] at hd
    rcases List.prefix_concat_iff.1 hl with rfl | hl
    · exact absurd rfl hne
    · by_cases hlm : l = m
      · exact hlm ▸ hd
      · exact ih hd hl hlm

/-- the names of a plain path that lead somewhere lead there in every sound tree that has something there -/
theorem Sound.walk_of_entry {t u : FileTree} (hu : u.Sound) {here l : Location} {names : List Text}
    (hp : ['.', '.'] ∉ names) (h : t.walk here names = .ok l) {e : Entry} (he : u.get? l = some e) :
    u.walk here names = .ok l := by
  induction names generalizing here with
  | nil => exact h
  | cons name names ih =>
    have hl := walk_plain hp h
    simp only [List.mem_cons, not_or] at hp
    simp only [walk] at h ⊢
    cases hn : t.enter here name with
    | error c => simp [hn] at h
    | ok next =>
      rw [hn] at h
      have hdir : u.get? here = some .dir := by
        refine hu.dir_of_prefix he ⟨name :: names, hl.symm⟩ fun heq => ?_
        have := congrArg List.length (heq.trans hl)
        simp at this
      have henter : u.enter here name = .ok next := by
        rw [← hn]
        simp only [enter, hdir, (enter_ok hn).1]
      rw [henter]
      exact ih hp.2 h

theorem Sound.locate_of_entry {t u : FileTree} (hu : u.Sound) (hc : u.current = t.current) {p : Path} (hp : p.IsPlain)
    {l : Location} (h : t.locate p = .ok l) {e : Entry} (he : u.get? l = some e) : u.locate p = .ok l := by
  have ho : u.origin p = t.origin p := by simp [FileTree.origin, hc]
  unfold locate at h ⊢
  split_ifs at h ⊢
  rw [ho]
  exact hu.walk_of_entry hp h he

theorem look_parent {t : FileTree} {p : Path} (hne : p.names ≠ []) {l : Location} (h : t.locate p = .ok l) :
    t.look p.parent = .ok .dir := by
  obtain ⟨m, hm, hw⟩ := locate_take p.anchor p.names h (p.names.length - 1)
  rw [← List.dropLast_eq_take] at hm
  refine look_ok.2 ⟨m, hm, ?_⟩
  have hlast : p.names.drop (p.names.length - 1) = [p.names.getLast hne] := List.drop_length_sub_one hne
  rw [hlast] at hw
  simp only [walk] at hw
  cases hn : t.enter m (p.names.getLast hne) with
  | error c => simp [hn] at hw
  | ok next => exact (enter_ok hn).1

/-! ## What is made on the way to a plain directory -/

theorem settleDir_plain {t : FileTree} {p : Path} (hp : p.IsPlain) {l : Location} (hn : t.get? l = none)
    (hl : (t.settleDir p).1.get? l ≠ none) : l = t.origin p ++ p.names := by
  unfold settleDir makeDir at hl
  cases hv : t.vacant p with
  | ok m =>
    obtain ⟨hm, hmn⟩ := vacant_ok hv
    have hne : m ≠ [] := by rintro rfl; simp at hmn
    rw [hv] at hl
    simp only [Except.map, get?_set t l _ hne] at hl
    split_ifs at hl with hlm
    · exact hlm ▸ locate_plain hp hm
    · exact absurd hn hl
  | error e =>
    rw [hv] at hl
    simp only [Except.map] at hl
    split_ifs at hl <;> exact absurd hn hl

/-- what is made on the way to a plain directory lies on the way to it -/
theorem makeDirsAt_plain {t : FileTree} (h : t.Sound) (a : Path.Anchor) (names : List Text)
    (hp : ['.', '.'] ∉ names) {l : Location} (hn : t.get? l = none) (hl : (t.makeDirsAt a names).1.get? l ≠ none) :
    l <+: t.origin ⟨a, []⟩ ++ names.reverse := by
  induction names with
  | nil =>
    have := settleDir_plain (p := ⟨a, []⟩) (by simp [Path.IsPlain]) hn hl
    exact ⟨[], by simpa using this⟩
  | cons name above ih =>
    have hplain : Path.IsPlain ⟨a, (name :: above).reverse⟩ := by
      simpa [Path.IsPlain, and_comm] using hp
    have hlonger : t.origin ⟨a, []⟩ ++ above.reverse <+: t.origin ⟨a, []⟩ ++ (name :: above).reverse := by
      simp
    have habove := ih fun hm => hp (List.mem_cons_of_mem _ hm)
    have hmaking := makeDirsAt_making t a name above
    generalize t.makeDirsAt a (name :: above) = made at hmaking hl
    cases hmaking with
    | atOnce => exact ⟨[], by rw [settleDir_plain hplain hn hl]; simp [origin]⟩
    | stopped => exact (habove hl).trans hlonger
    | below =>
      by_cases hready : (t.makeDirsAt a above).1.get? l = none
      · have hcurrent := (Deepens.makeDirsAt h a above).1.current
        exact ⟨[], by rw [settleDir_plain hplain hready hl]; simp [origin, hcurrent]⟩
      · exact (habove hready).trans hlonger

theorem makeDirs_plain {t : FileTree} (h : t.Sound) {p : Path} (hp : p.IsPlain) {l : Location} (hn : t.get? l = none)
    (hl : (t.makeDirs p).1.get? l ≠ none) : l <+: t.origin p ++ p.names := by
  have := makeDirsAt_plain h p.anchor p.names.reverse (by simpa [Path.IsPlain] using hp) hn hl
  rwa [List.reverse_reverse] at this

/-- what is missing on the way to a place is spelled by the path, past where the path starts -/
theorem Sound.spelled_of_missing {t : FileTree} (h : t.Sound) {p : Path} {l : Location} (hn : t.get? l = none)
    (hl : l <+: t.place p) : ∃ j ≤ p.names.length, 0 < j ∧ l = t.origin p ++ p.names.take j := by
  have hpast : ¬l <+: t.origin p := fun hpre => by
    have := h.none_below hn hpre
    rw [h.origin] at this
    simp at this
  obtain ⟨rest, hrest⟩ := hl
  rcases List.append_eq_append_iff.1 hrest with ⟨more, hmore, -⟩ | ⟨names, hnames, hall⟩
  · exact absurd ⟨more, hmore.symm⟩ hpast
  · have hpre : names <+: p.names := ⟨rest, hall.symm⟩
    refine ⟨names.length, hpre.length_le, List.length_pos_iff.2 ?_, ?_⟩
    · rintro rfl
      exact hpast (by simp [hnames])
    · rw [hnames, ← List.prefix_iff_eq_take.1 hpre]

/-- the directories that a plain path was missing lie at or below its outermost missing ancestor -/
theorem Grows.made_below_missing {t u : FileTree} (h : Grows t u) (ht : t.Sound) {p : Path} (hp : p.parent.IsPlain)
    {missing : Option Path} (hm : t.firstMissing p.ancestors = .ok missing) (hu : u.look p.parent = .ok .dir)
    {l : Location} (hn : t.get? l = none) (hl : l <+: t.origin p ++ p.parent.names) :
    ∃ d ∈ missing, ∃ m, t.locate d = .ok m ∧ m <+: l := by
  obtain ⟨j, hj, rfl⟩ : ∃ j < p.names.length, l = t.origin p ++ p.names.take j := by
    obtain ⟨j, hj, hpos, rfl⟩ := ht.spelled_of_missing (p := p.parent) hn hl
    simp only [Path.parent, List.length_dropLast] at hj
    refine ⟨j, by omega, ?_⟩
    simp only [Path.parent, List.dropLast_eq_take, List.take_take, min_eq_left hj]
    rfl
  have hplain : ∀ k ≤ j, Path.IsPlain ⟨p.anchor, p.names.take k⟩ := by
    intro k hk hup
    refine hp (List.mem_of_mem_take (i := k) ?_)
    simp only [Path.parent, List.dropLast_eq_take, List.take_take]
    rwa [min_eq_left (by omega)]
  have habsent : t.isPresent ⟨p.anchor, p.names.take j⟩ ≠ .ok true := by
    intro hj'
    obtain ⟨m, e, hm, he⟩ := isPresent_true hj'
    rw [locate_plain (hplain j le_rfl) hm] at he
    exact absurd (hn.symm.trans he) (by simp)
  cases missing with
  | none =>
    refine absurd (firstMissing_none hm _ ?_) habsent
    exact List.mem_map.2 ⟨j, List.mem_range.2 hj, rfl⟩
  | some d =>
    obtain ⟨k, hk, rfl, -, houter⟩ := firstMissing_ancestors hm
    obtain ⟨m, hmd, -⟩ := h.firstMissing hm hu
    have hkj : k ≤ j := by
      by_contra hlt
      exact habsent (houter j (by omega))
    refine ⟨_, rfl, m, hmd, ?_⟩
    rw [locate_plain (hplain k hkj) hmd]
    exact (List.prefix_append_right_inj _).2 (List.take_prefix_take_left hkj)

/-! ## A plain directory under names that fit -/

/-- a path that leads somewhere leads to a directory or nothing, or its directory is not made -/
theorem file_of_settleDir_refused {t : FileTree} {p : Path} {e : Trouble} (h : (t.settleDir p).2 = some e)
    {l : Location} (hl : t.locate p = .ok l) : ∃ c, t.get? l = some (.file c) := by
  cases hg : t.get? l with
  | none => simp [settleDir, makeDir, vacant, hl, hg, Except.map] at h
  | some f =>
    cases f with
    | file c => exact ⟨c, rfl⟩
    | dir =>
      have hdir : t.leadsToDir p = true := leadsToDir_iff.2 (look_ok.2 ⟨l, hl, hg⟩)
      simp [settleDir, makeDir, vacant, hl, hg, Except.map, hdir, troubleAt] at h

/-- a path that only lacks an entry is spelled well, so that its walk decides in every tree -/
theorem makeDir_noEntry {t : FileTree} {p : Path} {e : Trouble} (h : t.makeDir p = .error e)
    (he : e.cause = .noEntry) :
    t.locate p = .error .noEntry ∧ ∀ u : FileTree, u.locate p = u.walk (u.origin p) p.names := by
  have hl : t.locate p = .error .noEntry := by
    unfold makeDir vacant at h
    cases hl : t.locate p with
    | error c =>
      simp only [hl, Except.map, Except.error.injEq] at h
      rw [← h] at he
      exact congrArg _ he
    | ok l =>
      simp only [hl] at h
      split_ifs at h
      · simp only [Except.map, Except.error.injEq] at h
        rw [← h] at he
        simp [troubleAt] at he
      · simp [Except.map] at h
  refine ⟨hl, fun u => ?_⟩
  unfold locate at hl ⊢
  split_ifs at hl ⊢ <;> simp_all

/-- in a sound tree, a well-spelled plain path with names that fit leads to its place once something is there -/
theorem Sound.locate_place {t : FileTree} (h : t.Sound) {p : Path} (hp : p.IsPlain)
    (hfit : ∀ n ∈ p.names, (Utf8.encode n).length ≤ nameLimit)
    (hspelled : t.locate p = t.walk (t.origin p) p.names) {e : Entry} (he : t.get? (t.place p) = some e) :
    t.locate p = .ok (t.place p) := by
  rw [hspelled]
  refine walk_of_dirs hp hfit fun k hk => h.dir_of_prefix he ?_ fun heq => ?_
  · exact (List.prefix_append_right_inj _).2 (List.take_prefix k p.names)
  · have := congrArg List.length heq
    simp only [place, List.length_append, List.length_take] at this
    omega

/-- a directory that was refused for want of one above it is not refused once that one is there -/
theorem Deepens.settleDir_below {t u : FileTree} (h : t.Sound) (hg : Deepens t u) {p : Path} (hp : p.IsPlain)
    (hne : p.names ≠ []) (hfit : ∀ n ∈ p.names, (Utf8.encode n).length ≤ nameLimit) {e : Trouble}
    (hmake : t.makeDir p = .error e) (hcause : e.cause = .noEntry) (habove : u.look p.parent = .ok .dir) :
    (u.settleDir p).2 = none := by
  obtain ⟨habsent, hspelled⟩ := makeDir_noEntry hmake hcause
  obtain ⟨m, hm, hdir⟩ := look_ok.1 habove
  obtain ⟨last, hnames⟩ : ∃ last, p.names = p.parent.names ++ [last] :=
    ⟨_, (List.dropLast_concat_getLast hne).symm⟩
  have hlast : last ∈ p.names := by simp [hnames]
  have henter : u.enter m last = .ok (m ++ [last]) := by
    have hup : last ≠ ['.', '.'] := fun hup => hp (hup ▸ hlast)
    simp [enter, hdir, hup, hfit _ hlast]
  have hlead : u.locate p = .ok (m ++ [last]) := by
    rw [hspelled u, hnames, walk_append]
    have hw : u.walk (u.origin p) p.parent.names = .ok m := walk_of_locate hm
    simp [hw, Except.bind, walk, henter]
  cases hr : (u.settleDir p).2 with
  | none => rfl
  | some f =>
    -- only a file can be in the way, and it was there before, so the path led to it from the start
    obtain ⟨c, hfile⟩ := file_of_settleDir_refused hr hlead
    rw [locate_plain hp hlead] at hfile
    have hold : t.get? (t.place p) = some (.file c) := by
      rw [← place_congr hg.current p]
      exact hg.file_before hfile
    rw [h.locate_place hp hfit (hspelled t) hold] at habsent
    simp at habsent

/-- with names that fit, a plain directory is made with all it needs, or nothing is made at all -/
theorem makeDirsAt_refused {t : FileTree} (h : t.Sound) (a : Path.Anchor) (names : List Text)
    (hp : ['.', '.'] ∉ names) (hfit : ∀ n ∈ names, (Utf8.encode n).length ≤ nameLimit) {e : Trouble}
    (he : (t.makeDirsAt a names).2 = some e) : (t.makeDirsAt a names).1 = t := by
  induction names generalizing e with
  | nil => exact (settleDir_refused he).1
  | cons name above ih =>
    have habove : ['.', '.'] ∉ above := fun hm => hp (List.mem_cons_of_mem _ hm)
    have hmaking := makeDirsAt_making t a name above
    generalize t.makeDirsAt a (name :: above) = made at hmaking he ⊢
    cases hmaking with
    | atOnce => exact (settleDir_refused he).1
    | stopped _ _ refused => exact ih habove (fun n hn => hfit n (List.mem_cons_of_mem _ hn)) refused
    | below lacks cause ready =>
      obtain ⟨hdeep, hlook⟩ := Deepens.makeDirsAt h a above
      have hdone := hdeep.settleDir_below h (p := ⟨a, (name :: above).reverse⟩)
        (by simpa [Path.IsPlain, and_comm] using hp) (by simp) (by simpa [or_comm] using hfit) lacks cause
        (by simpa [Path.parent] using hlook ready)
      exact absurd (he.symm.trans hdone) (by simp)

theorem makeDirs_refused {t : FileTree} (h : t.Sound) {p : Path} (hp : p.IsPlain)
    (hfit : ∀ n ∈ p.names, (Utf8.encode n).length ≤ nameLimit) {e : Trouble} (he : (t.makeDirs p).2 = some e) :
    (t.makeDirs p).1 = t :=
  makeDirsAt_refused h p.anchor p.names.reverse (by simpa [Path.IsPlain] using hp) (by simpa using hfit) he

end FileTree

end Componentry
