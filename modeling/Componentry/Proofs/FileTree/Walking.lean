/-
Walking trees that grow.

A tree is sound if every entry hangs in a directory and the place that relative paths start at is a directory. A tree
grows into another if the other one keeps all its entries. Results:
- `Sound.none_below`: below a location that holds nothing there is nothing.
- `locate_mono`: a path leads to the same location in every tree that keeps the directories.
- `Grows.set`: a new entry at the end of a path makes a sound tree grow.
- `makeDirsAt_making`: a directory is settled at once, or not for want of one above it, or once that one is there.
- `Deepens.makeDirs`, `look_makeDirs`: making a directory with the missing ones above it makes the tree grow by
  directories only, also where it stops half way; where it goes through, the path leads to a directory.
- `Grows.firstMissing`: the outermost missing ancestor of a path whose directory could be made is a single new
  directory in one that was there.
-/
import Mathlib.Tactic
import Componentry.Journal

namespace Componentry.FileTree

/-! ## Sound trees -/

/-- every entry hangs in a directory, and relative paths start at one -/
structure Sound (t : FileTree) : Prop where
  hung : ∀ l e, t.get? l = some e → t.get? l.dropLast = some .dir
  based : t.get? t.current = some .dir

/-- the second tree is sound and keeps every entry of the first -/
structure Grows (t u : FileTree) : Prop where
  current : u.current = t.current
  token : u.token = t.token
  keeps : ∀ l e, t.get? l = some e → u.get? l = some e
  sound : u.Sound

@[simp] theorem get?_nil (t : FileTree) : t.get? [] = some .dir := by simp [get?]

theorem lookup_mem {es : List (Location × Entry)} {l : Location} {e : Entry} (h : es.lookup l = some e) :
    (l, e) ∈ es := by
  obtain ⟨before, after, rfl, -⟩ := List.lookup_eq_some_iff.1 h
  simp

/-- soundness by a look at every entry -/
theorem Sound.of_entries {t : FileTree} (h : ∀ x ∈ t.entries, t.get? x.1.dropLast = some .dir)
    (hc : t.get? t.current = some .dir) : t.Sound := by
  refine ⟨fun l e hl => ?_, hc⟩
  unfold get? at hl
  split_ifs at hl with hnil
  · simp [hnil]
  · exact h (l, e) (lookup_mem hl)

theorem Grows.refl {t : FileTree} (h : t.Sound) : Grows t t := ⟨rfl, rfl, fun _ _ hl => hl, h⟩

theorem Grows.trans {t u v : FileTree} (h : Grows t u) (k : Grows u v) : Grows t v :=
  ⟨k.current.trans h.current, k.token.trans h.token, fun l e hl => k.keeps l e (h.keeps l e hl), k.sound⟩

theorem Grows.get?_none {t u : FileTree} (h : Grows t u) {l : Location} (hl : u.get? l = none) : t.get? l = none := by
  cases ht : t.get? l with
  | none => rfl
  | some e => rw [h.keeps l e ht] at hl; simp at hl

/-- below a location that holds nothing there is nothing -/
theorem Sound.none_below {t : FileTree} (h : t.Sound) {l m : Location} (hl : t.get? l = none) (hm : l <+: m) :
    t.get? m = none := by
  induction m using List.reverseRecOn with
  | nil => rw [List.prefix_nil.1 hm] at hl; simp at hl
  | append_singleton m n ih =>
    rcases List.prefix_concat_iff.1 hm with rfl | hm
    · exact hl
    · cases hn : t.get? (m ++ [n]) with
      | none => rfl
      | some e =>
        have := h.hung _ _ hn
        rw [List.dropLast_concat, ih hm] at this
        simp at this

theorem set_current (t : FileTree) (l : Location) (e : Entry) : (t.set l e).current = t.current := rfl

/-! ## Walking -/

theorem enter_mono {t u : FileTree} (h : ∀ l, t.get? l = some .dir → u.get? l = some .dir) {here next : Location}
    {name : Text} (hn : t.enter here name = .ok next) : u.enter here name = .ok next := by
  unfold enter at hn ⊢
  split at hn
  · simp at hn
  · simp at hn
  · rename_i hd
    rw [h here hd]
    exact hn

theorem walk_mono {t u : FileTree} (h : ∀ l, t.get? l = some .dir → u.get? l = some .dir) {here l : Location}
    {names : List Text} (hw : t.walk here names = .ok l) : u.walk here names = .ok l := by
  induction names generalizing here with
  | nil => exact hw
  | cons name names ih =>
    simp only [walk] at hw ⊢
    cases hn : t.enter here name with
    | error c => simp [hn] at hw
    | ok next =>
      rw [hn] at hw
      rw [enter_mono h hn]
      exact ih hw

/-- a path leads to the same location in every tree that keeps the directories -/
theorem locate_mono {t u : FileTree} (hc : u.current = t.current)
    (h : ∀ l, t.get? l = some .dir → u.get? l = some .dir) {p : Path} {l : Location} (hp : t.locate p = .ok l) :
    u.locate p = .ok l := by
  have ho : u.origin p = t.origin p := by simp [origin, hc]
  unfold locate at hp ⊢
  split_ifs at hp ⊢ with h0 h1
  rw [ho]
  exact walk_mono h hp

theorem Grows.locate {t u : FileTree} (h : Grows t u) {p : Path} {l : Location} (hp : t.locate p = .ok l) :
    u.locate p = .ok l :=
  locate_mono h.current (fun m hm => h.keeps m .dir hm) hp

theorem walk_append (t : FileTree) (here : Location) (names more : List Text) :
    t.walk here (names ++ more) = (t.walk here names).bind fun next => t.walk next more := by
  induction names generalizing here with
  | nil => rfl
  | cons name names ih =>
    simp only [List.cons_append, walk]
    cases t.enter here name with
    | error c => rfl
    | ok next => exact ih next

theorem enter_ok {t : FileTree} {here next : Location} {name : Text} (h : t.enter here name = .ok next) :
    t.get? here = some .dir ∧ (next = here.dropLast ∨ next = here ++ [name]) := by
  unfold enter at h
  split at h
  · simp at h
  · simp at h
  · rename_i hd
    refine ⟨hd, ?_⟩
    split_ifs at h
    · exact Or.inl (Except.ok.inj h).symm
    · exact Or.inr (Except.ok.inj h).symm

/-- the location a walk ends at lies in a directory -/
theorem Sound.dropLast_of_walk {t : FileTree} (h : t.Sound) {here l : Location} {names : List Text}
    (hh : t.get? here.dropLast = some .dir) (hw : t.walk here names = .ok l) : t.get? l.dropLast = some .dir := by
  induction names generalizing here with
  | nil =>
    simp only [walk, Except.ok.injEq] at hw
    exact hw ▸ hh
  | cons name names ih =>
    simp only [walk] at hw
    cases hn : t.enter here name with
    | error c => simp [hn] at hw
    | ok next =>
      rw [hn] at hw
      obtain ⟨hd, rfl | rfl⟩ := enter_ok hn
      · exact ih (h.hung _ _ (h.hung _ _ hd)) hw
      · exact ih (by rw [List.dropLast_concat]; exact hd) hw

theorem Sound.origin {t : FileTree} (h : t.Sound) (p : Path) : t.get? (t.origin p) = some .dir := by
  unfold FileTree.origin
  split_ifs
  · exact h.based
  · exact get?_nil t

theorem walk_of_locate {t : FileTree} {p : Path} {l : Location} (h : t.locate p = .ok l) :
    t.walk (t.origin p) p.names = .ok l := by
  unfold FileTree.locate at h
  split_ifs at h
  exact h

theorem Sound.dropLast_of_locate {t : FileTree} (h : t.Sound) {p : Path} {l : Location} (hp : t.locate p = .ok l) :
    t.get? l.dropLast = some .dir :=
  h.dropLast_of_walk (h.hung _ _ (h.origin p)) (walk_of_locate hp)

/-- a new entry where a path ends -/
theorem Grows.set {t : FileTree} (h : t.Sound) {p : Path} {l : Location} (hp : t.locate p = .ok l)
    (hl : t.get? l = none) (e : Entry) : Grows t (t.set l e) := by
  have hne : l ≠ [] := by rintro rfl; simp at hl
  have hkeep : ∀ m f, t.get? m = some f → (t.set l e).get? m = some f := by
    intro m f hm
    have : m ≠ l := by rintro rfl; rw [hl] at hm; simp at hm
    rw [get?_set t m e hne, if_neg this, hm]
  refine ⟨rfl, rfl, hkeep, fun m f hm => ?_, hkeep _ _ h.based⟩
  rw [get?_set t m e hne] at hm
  split_ifs at hm with hml
  · subst hml
    exact hkeep _ _ (h.dropLast_of_locate hp)
  · exact hkeep _ _ (h.hung m f hm)

/-! ## Looking -/

theorem look_ok {t : FileTree} {p : Path} {e : Entry} :
    t.look p = .ok e ↔ ∃ l, t.locate p = .ok l ∧ t.get? l = some e := by
  unfold look
  cases hl : t.locate p with
  | error c => simp
  | ok l => cases hg : t.get? l <;> simp [hg]

theorem isPresent_true {t : FileTree} {p : Path} (h : t.isPresent p = .ok true) :
    ∃ l e, t.locate p = .ok l ∧ t.get? l = some e := by
  unfold isPresent at h
  split at h
  · rename_i e he
    obtain ⟨l, hl, hg⟩ := look_ok.1 he
    exact ⟨l, e, hl, hg⟩
  all_goals simp at h

theorem isPresent_false {t : FileTree} {p : Path} (h : t.isPresent p = .ok false) {l : Location}
    (hl : t.locate p = .ok l) : t.get? l = none := by
  cases hg : t.get? l with
  | none => rfl
  | some e =>
    have : t.look p = .ok e := look_ok.2 ⟨l, hl, hg⟩
    simp [isPresent, this] at h

theorem leadsToDir_iff {t : FileTree} {p : Path} : t.leadsToDir p = true ↔ t.look p = .ok .dir := by
  unfold leadsToDir
  split <;> simp_all

theorem vacant_ok {t : FileTree} {p : Path} {l : Location} (h : t.vacant p = .ok l) :
    t.locate p = .ok l ∧ t.get? l = none := by
  unfold vacant at h
  split at h
  · simp at h
  · rename_i m hm
    split_ifs at h with hs
    simp only [Except.ok.injEq] at h
    subst h
    exact ⟨hm, by simpa using hs⟩

/-! ## Making directories -/

/-- the second tree is the first and more directories -/
structure Deepens (t u : FileTree) : Prop extends Grows t u where
  fresh : ∀ l e, t.get? l = none → u.get? l = some e → e = .dir

theorem Deepens.refl {t : FileTree} (h : t.Sound) : Deepens t t :=
  ⟨.refl h, fun l e hn hs => by rw [hn] at hs; simp at hs⟩

theorem Deepens.trans {t u v : FileTree} (h : Deepens t u) (k : Deepens u v) : Deepens t v := by
  refine ⟨h.toGrows.trans k.toGrows, fun l e hn hs => ?_⟩
  cases hu : u.get? l with
  | none => exact k.fresh l e hu hs
  | some f =>
    have hf := h.fresh l f hn hu
    rw [k.keeps l f hu] at hs
    exact (Option.some.inj hs) ▸ hf

/-- directories are all that is new, so a file was there before -/
theorem Deepens.file_before {t u : FileTree} (h : Deepens t u) {l : Location} {c : Bytes}
    (hu : u.get? l = some (.file c)) : t.get? l = some (.file c) := by
  cases hl : t.get? l with
  | none => exact absurd (h.fresh _ _ hl hu) (by simp)
  | some e => rw [← h.keeps _ _ hl, hu]

theorem Deepens.settleDir {t : FileTree} (h : t.Sound) (p : Path) :
    Deepens t (t.settleDir p).1 ∧ ((t.settleDir p).2 = none → (t.settleDir p).1.look p = .ok .dir) := by
  unfold FileTree.settleDir makeDir
  cases hv : t.vacant p with
  | ok l =>
    obtain ⟨hl, hn⟩ := vacant_ok hv
    have hne : l ≠ [] := by rintro rfl; simp at hn
    have hg := Grows.set h hl hn .dir
    refine ⟨⟨hg, fun m e hm hs => ?_⟩, fun _ => look_ok.2 ⟨l, hg.locate hl, ?_⟩⟩
    · simp only [Except.map, get?_set t m _ hne] at hs
      split_ifs at hs
      · exact (Option.some.inj hs).symm
      · rw [hm] at hs; simp at hs
    · simp [Except.map, get?_set t l _ hne]
  | error e =>
    simp only [Except.map]
    split_ifs with hd
    · exact ⟨.refl h, fun _ => leadsToDir_iff.1 hd.2⟩
    · exact ⟨.refl h, fun hx => by simp at hx⟩

theorem settleDir_refused {t : FileTree} {p : Path} {e : Trouble} (h : (t.settleDir p).2 = some e) :
    (t.settleDir p).1 = t ∧ t.makeDir p = .error e := by
  unfold settleDir at h ⊢
  cases hm : t.makeDir p with
  | ok u => simp [hm] at h
  | error f =>
    rw [hm] at h
    simp only at h ⊢
    split_ifs at h ⊢
    simp only [Option.some.injEq] at h
    exact ⟨rfl, by rw [h]⟩

/-- how the directory at a path is made, with the missing ones above it -/
inductive Making (t : FileTree) (a : Path.Anchor) (name : Text) (above : List Text) :
    FileTree × Option Trouble → Prop where
  /-- it is there or made at once, or refused, but not for want of one above it -/
  | atOnce (other : ∀ e, (t.settleDir ⟨a, (name :: above).reverse⟩).2 = some e → e.cause ≠ .noEntry) :
    Making t a name above (t.settleDir ⟨a, (name :: above).reverse⟩)
  /-- one above it is missing and refused -/
  | stopped {e f : Trouble} (lacks : t.makeDir ⟨a, (name :: above).reverse⟩ = .error e) (cause : e.cause = .noEntry)
      (refused : (t.makeDirsAt a above).2 = some f) : Making t a name above (t.makeDirsAt a above)
  /-- one above it was missing, and it is settled once that one is there -/
  | below {e : Trouble} (lacks : t.makeDir ⟨a, (name :: above).reverse⟩ = .error e) (cause : e.cause = .noEntry)
      (ready : (t.makeDirsAt a above).2 = none) :
    Making t a name above ((t.makeDirsAt a above).1.settleDir ⟨a, (name :: above).reverse⟩)

theorem makeDirsAt_making (t : FileTree) (a : Path.Anchor) (name : Text) (above : List Text) :
    Making t a name above (t.makeDirsAt a (name :: above)) := by
  have hatOnce := @Making.atOnce t a name above
  rw [FileTree.makeDirsAt]
  cases hq : t.settleDir ⟨a, (name :: above).reverse⟩ with
  | mk same refused =>
    rw [hq] at hatOnce
    cases refused with
    | none => exact hatOnce fun e he => by simp at he
    | some e =>
      simp only
      split_ifs with he
      · obtain ⟨hsame, hlacks⟩ := settleDir_refused (t := t) (by rw [hq])
        rw [hq] at hsame
        obtain rfl : same = t := hsame
        have hstopped := fun f => @Making.stopped same a name above e f hlacks he
        have hbelow := Making.below hlacks he
        cases hr : same.makeDirsAt a above with
        | mk ready stopped =>
          rw [hr] at hstopped hbelow
          cases stopped with
          | some f => exact hstopped f rfl
          | none => exact hbelow rfl
      · exact hatOnce fun f hf => Option.some.inj hf ▸ he

theorem Deepens.makeDirsAt {t : FileTree} (h : t.Sound) (a : Path.Anchor) (names : List Text) :
    Deepens t (t.makeDirsAt a names).1 ∧
      ((t.makeDirsAt a names).2 = none → (t.makeDirsAt a names).1.look ⟨a, names.reverse⟩ = .ok .dir) := by
  induction names with
  | nil => exact Deepens.settleDir h _
  | cons name above ih =>
    have hmaking := makeDirsAt_making t a name above
    generalize t.makeDirsAt a (name :: above) = made at hmaking ⊢
    cases hmaking with
    | atOnce => exact Deepens.settleDir h _
    | stopped _ _ refused => exact ⟨ih.1, fun hdone => by simp [refused] at hdone⟩
    | below =>
      obtain ⟨hsettled, hlook⟩ := Deepens.settleDir ih.1.sound ⟨a, (name :: above).reverse⟩
      exact ⟨ih.1.trans hsettled, hlook⟩

/-- making a directory with the missing ones above it adds directories only, also where it stops half way -/
theorem Deepens.makeDirs {t : FileTree} (h : t.Sound) (p : Path) : Deepens t (t.makeDirs p).1 :=
  (Deepens.makeDirsAt h p.anchor p.names.reverse).1

theorem look_makeDirs {t : FileTree} (h : t.Sound) {p : Path} (hp : (t.makeDirs p).2 = none) :
    (t.makeDirs p).1.look p = .ok .dir := by
  have := (Deepens.makeDirsAt h p.anchor p.names.reverse).2 hp
  rwa [List.reverse_reverse] at this

/-! ## The outermost missing ancestor -/

theorem firstMissing_some {t : FileTree} {ps : List Path} {d : Path} (h : t.firstMissing ps = .ok (some d)) :
    ∃ before after, ps = before ++ d :: after ∧ (∀ q ∈ before, t.isPresent q = .ok true) ∧
      t.isPresent d = .ok false := by
  induction ps with
  | nil => simp [firstMissing] at h
  | cons p ps ih =>
    simp only [firstMissing] at h
    cases hp : t.isPresent p with
    | error e => simp [hp] at h
    | ok here =>
      rw [hp] at h
      cases hi : t.firstMissing ps with
      | error e => simp [hi] at h
      | ok inner =>
        simp only [hi, Except.ok.injEq] at h
        cases here with
        | false =>
          simp only [Bool.false_eq_true, if_false, Option.some.injEq] at h
          subst h
          exact ⟨[], ps, rfl, by simp, hp⟩
        | true =>
          simp only [if_true] at h
          obtain ⟨before, after, rfl, hb, hd⟩ := ih (by rw [hi, h])
          exact ⟨p :: before, after, rfl, by simpa [hp] using hb, hd⟩

theorem firstMissing_none {t : FileTree} {ps : List Path} (h : t.firstMissing ps = .ok none) :
    ∀ q ∈ ps, t.isPresent q = .ok true := by
  induction ps with
  | nil => simp
  | cons p ps ih =>
    simp only [firstMissing] at h
    cases hp : t.isPresent p with
    | error e => simp [hp] at h
    | ok here =>
      rw [hp] at h
      cases hi : t.firstMissing ps with
      | error e => simp [hi] at h
      | ok inner =>
        simp only [hi, Except.ok.injEq] at h
        cases here with
        | false => simp at h
        | true =>
          simp only [if_true] at h
          simpa [hp] using ih (by rw [hi, h])

theorem firstMissing_ancestors {t : FileTree} {p d : Path} (h : t.firstMissing p.ancestors = .ok (some d)) :
    ∃ k < p.names.length, d = ⟨p.anchor, p.names.take k⟩ ∧ t.isPresent d = .ok false ∧
      ∀ j < k, t.isPresent ⟨p.anchor, p.names.take j⟩ = .ok true := by
  obtain ⟨before, after, hsplit, hb, hd⟩ := firstMissing_some h
  have hlen : before.length < p.names.length := by
    have := congrArg List.length hsplit
    simp only [Path.ancestors, List.length_map, List.length_range, List.length_append, List.length_cons] at this
    omega
  have hget : ∀ j < p.names.length, p.ancestors[j]? = some ⟨p.anchor, p.names.take j⟩ := by
    intro j hj
    simp [Path.ancestors, List.getElem?_range hj]
  refine ⟨before.length, hlen, ?_, hd, fun j hj => hb _ ?_⟩
  · have := hget _ hlen
    rw [hsplit, List.getElem?_append_right (le_refl _), Nat.sub_self] at this
    simpa using this
  · have := hget j (hj.trans hlen)
    rw [hsplit, List.getElem?_append_left hj] at this
    exact List.mem_of_getElem? this

/-! ## Prefixes of a path that leads somewhere -/

theorem prefix_join_of_take (sep : Text) (pieces : List Text) (k : Nat) :
    Text.join sep (pieces.take k) <+: Text.join sep pieces := by
  induction pieces generalizing k with
  | nil => simp
  | cons piece pieces ih =>
    cases k with
    | zero => simp [Text.join]
    | succ k =>
      cases pieces with
      | nil => simp
      | cons next pieces =>
        cases k with
        | zero => simp [Text.join]
        | succ k =>
          have := ih (k + 1)
          simpa [Text.join, List.append_assoc] using this

theorem text_take_length (a : Path.Anchor) (names : List Text) (k : Nat)
    (h : (Utf8.encode (⟨a, names⟩ : Path).text).length < pathLimit) :
    (Utf8.encode (⟨a, names.take k⟩ : Path).text).length < pathLimit := by
  unfold Path.text at h ⊢
  simp only at h ⊢
  by_cases h1 : a = .here ∧ names.take k = []
  · rw [if_pos h1]
    decide
  · have h0 : ¬(a = .here ∧ names = []) := fun h0 => h1 ⟨h0.1, by simp [h0.2]⟩
    rw [if_neg h0] at h
    rw [if_neg h1]
    have hpre := (List.prefix_append_right_inj a.text).2 (prefix_join_of_take ['/'] names k)
    obtain ⟨rest, hr⟩ := hpre
    rw [← hr] at h
    simp only [Utf8.encode, List.flatMap_append, List.length_append] at h ⊢
    omega

theorem locate_take {t : FileTree} (a : Path.Anchor) (names : List Text) {l : Location}
    (h : t.locate ⟨a, names⟩ = .ok l) (k : Nat) :
    ∃ m, t.locate ⟨a, names.take k⟩ = .ok m ∧ t.walk m (names.drop k) = .ok l := by
  have hw := walk_of_locate h
  rw [show (⟨a, names⟩ : Path).names = names.take k ++ names.drop k from (List.take_append_drop k names).symm,
    walk_append] at hw
  unfold locate at h
  split_ifs at h with h0 h1
  have hnul : ((names.take k).any (·.contains '\x00')) = false := by
    simp only [List.any_eq_true, not_exists, not_and, Bool.not_eq_true] at h0
    simp only [List.any_eq_false, Bool.not_eq_true]
    exact fun x hx => h0 x (List.mem_of_mem_take hx)
  have hlen := text_take_length a names k (by omega)
  cases hm : t.walk (t.origin ⟨a, names⟩) (names.take k) with
  | error c => rw [hm] at hw; simp [Except.bind] at hw
  | ok m =>
    rw [hm] at hw
    refine ⟨m, ?_, hw⟩
    unfold locate
    simp only [hnul, Bool.false_eq_true, if_false, if_neg (not_le.2 hlen)]
    exact hm

/-- what a path's spelling allows in one tree it allows in every tree -/
theorem locate_eq_walk {u : FileTree} {p : Path} {l : Location} (h : u.locate p = .ok l) (t : FileTree) :
    t.locate p = t.walk (t.origin p) p.names := by
  unfold locate at h ⊢
  split_ifs at h ⊢
  rfl

theorem dir_of_walk {t : FileTree} {here l : Location} {names : List Text} (h : t.walk here names = .ok l)
    (hl : t.get? l = some .dir) : t.get? here = some .dir := by
  cases names with
  | nil =>
    simp only [walk, Except.ok.injEq] at h
    exact h ▸ hl
  | cons name names =>
    simp only [walk] at h
    cases hn : t.enter here name with
    | error c => simp [hn] at h
    | ok next => exact (enter_ok hn).1

theorem enter_congr {t u : FileTree} {here : Location} (h : t.get? here = u.get? here) (name : Text) :
    t.enter here name = u.enter here name := by
  unfold enter
  rw [h]

/-- the outermost missing ancestor of a path whose directory could be made is a new directory in an old one -/
theorem Grows.firstMissing {t u : FileTree} (h : Grows t u) {p d : Path}
    (hd : t.firstMissing p.ancestors = .ok (some d)) (hu : u.look p.parent = .ok .dir) :
    ∃ l, t.locate d = .ok l ∧ t.get? l = none ∧ u.get? l = some .dir := by
  obtain ⟨k, hk, rfl, hmissing, houter⟩ := firstMissing_ancestors hd
  obtain ⟨l, hl, hdir⟩ := look_ok.1 hu
  have htake : ∀ j ≤ k, p.parent.names.take j = p.names.take j := by
    intro j hj
    simp only [Path.parent, List.dropLast_eq_take, List.take_take]
    congr 1
    omega
  -- the walk to the parent in the grown tree, cut at the missing ancestor
  obtain ⟨m, hm, hrest⟩ := locate_take p.anchor p.parent.names hl k
  rw [htake k le_rfl] at hm
  have hmdir := dir_of_walk hrest hdir
  have hsame : t.locate ⟨p.anchor, p.names.take k⟩ = .ok m := by
    have horigin : u.origin ⟨p.anchor, p.names.take k⟩ = t.origin ⟨p.anchor, p.names.take k⟩ := by
      simp [FileTree.origin, h.current]
    have hwalk := walk_of_locate hm
    rw [locate_eq_walk hm t]
    cases k with
    | zero =>
      rw [← hwalk, horigin]
      rfl
    | succ j =>
      obtain ⟨m', e, hm', he⟩ := isPresent_true (houter j (Nat.lt_succ_self j))
      obtain ⟨n, hn⟩ : ∃ n, p.names.take (j + 1) = p.names.take j ++ [n] :=
        ⟨p.names[j], (List.take_append_getElem (by omega)).symm⟩
      simp only [hn, walk_append] at hwalk ⊢
      have hwu : u.walk (u.origin ⟨p.anchor, p.names.take j ++ [n]⟩) (p.names.take j) = .ok m' :=
        walk_of_locate (h.locate hm')
      have hwt : t.walk (t.origin ⟨p.anchor, p.names.take j ++ [n]⟩) (p.names.take j) = .ok m' := walk_of_locate hm'
      rw [hwu] at hwalk
      rw [hwt]
      simp only [Except.bind, walk] at hwalk ⊢
      cases hnext : u.enter m' n with
      | error c => rw [hnext] at hwalk; simp at hwalk
      | ok next =>
        rw [enter_congr ((he.trans (h.keeps _ _ he).symm)) n, hnext]
        rw [hnext] at hwalk
        exact hwalk
  exact ⟨m, hsame, isPresent_false hmissing hsame, hmdir⟩

end Componentry.FileTree
