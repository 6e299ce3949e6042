/-
The matches in a text, found from left to right.

For a pattern that always reads something (`Advances`):
- `scan_sound`, `scan_sorted`: every match found is one at its place, and they follow one another.
- `scan_covers`: wherever a match could start, one was found that reaches over the place.
- `scan_congr`: in two texts with a common start, the matches in that start are the same if the pattern matches the same
  at each of its places.
- `occurrences_sound`, `occurrences_sorted`, `occurrences_covers`: the same of the matches in a whole text.
- `occurrences_append`: those of a text whose matches do not depend on what follows, and those behind it.
-/
import Componentry.Proofs.Pattern.Ends

namespace Componentry.Pattern

/-- a pattern whose matches are never empty -/
def Advances (p : Pattern) (byLine : Bool) : Prop := ∀ k, ∀ e ∈ p.ends byLine k, e.rest.length < k.rest.length

/-- the match from a cursor to one of its ends -/
def found (k e : Cursor) (position : Nat) : Occurrence := ⟨position, position + (k.rest.length - e.rest.length), e.kept⟩

variable {p : Pattern} {byLine : Bool}

theorem here_none {k : Cursor} (h : p.ends byLine k = []) (position : Nat) : p.here byLine k position = [] := by
  simp [here, h]

theorem here_some (hp : p.Advances byLine) {k e : Cursor} {more : List Cursor} (h : p.ends byLine k = e :: more)
    (position : Nat) : p.here byLine k position = [found k e position] := by
  have hlt := hp k e (by simp [h])
  simp [here, h, hlt, found]

theorem scan_nil (hp : p.Advances byLine) (before : Option Char) (position skip : Nat) :
    p.scan byLine before position skip [] = [] := by
  unfold scan
  cases he : p.ends byLine ⟨before, [], []⟩ with
  | nil => exact here_none he position
  | cons e more =>
    have hlt := hp _ e (by rw [he]; exact List.mem_cons_self)
    simp at hlt

theorem scan_skip (before : Option Char) (position skip : Nat) (c : Char) (rest : Text) :
    p.scan byLine before position (skip + 1) (c :: rest) = p.scan byLine (some c) (position + 1) skip rest := rfl

theorem scan_zero (before : Option Char) (position : Nat) (c : Char) (rest : Text) :
    p.scan byLine before position 0 (c :: rest) = p.here byLine ⟨before, c :: rest, []⟩ position ++
      p.scan byLine (some c) (position + 1) ((((p.here byLine ⟨before, c :: rest, []⟩ position).getLast?.map
        (·.stop)).getD position) - (position + 1)) rest := rfl

theorem scan_none {before : Option Char} {c : Char} {rest : Text} (h : p.ends byLine ⟨before, c :: rest, []⟩ = [])
    (position : Nat) :
    p.scan byLine before position 0 (c :: rest) = p.scan byLine (some c) (position + 1) 0 rest := by
  simp [scan_zero, here_none h]

theorem scan_some (hp : p.Advances byLine) {before : Option Char} {c : Char} {rest : Text} {e : Cursor}
    {more : List Cursor} (h : p.ends byLine ⟨before, c :: rest, []⟩ = e :: more) (position : Nat) :
    p.scan byLine before position 0 (c :: rest) = found ⟨before, c :: rest, []⟩ e position ::
      p.scan byLine (some c) (position + 1) (rest.length - e.rest.length) rest := by
  have hlt := hp _ e (by rw [h]; exact List.mem_cons_self)
  have hskip : (found ⟨before, c :: rest, []⟩ e position).stop - (position + 1) = rest.length - e.rest.length := by
    simp only [found, List.length_cons] at hlt ⊢
    omega
  rw [← hskip]
  simp [scan_zero, here_some hp h]

/-- where no match starts, the scan goes on behind -/
theorem scan_append_none {x y : Text} {before : Option Char}
    (h : ∀ u v, x = u ++ v → v ≠ [] → p.ends byLine ⟨u.getLast?.or before, v ++ y, []⟩ = []) (position : Nat) :
    p.scan byLine before position 0 (x ++ y) = p.scan byLine (x.getLast?.or before) (position + x.length) 0 y := by
  induction x generalizing before position with
  | nil => rfl
  | cons c x ih =>
    have hlater : ∀ u v, x = u ++ v → v ≠ [] → p.ends byLine ⟨u.getLast?.or (some c), v ++ y, []⟩ = [] := by
      intro u v hx hv
      have := h (c :: u) v (by rw [hx]; rfl) hv
      rwa [Cursor.getLast?_cons_or] at this
    have hnext := ih hlater (position + 1)
    have hfirst : p.ends byLine ⟨before, c :: (x ++ y), []⟩ = [] := h [] (c :: x) rfl (by simp)
    rw [List.cons_append, scan_none hfirst, hnext, Cursor.getLast?_cons_or, List.length_cons, Nat.add_assoc,
      Nat.add_comm 1]

theorem scan_skip_append (x y : Text) (before : Option Char) (position : Nat) :
    p.scan byLine before position x.length (x ++ y) =
      p.scan byLine (x.getLast?.or before) (position + x.length) 0 y := by
  induction x generalizing before position with
  | nil => rfl
  | cons c x ih =>
    rw [List.length_cons, List.cons_append, scan_skip, ih, Cursor.getLast?_cons_or, Nat.add_assoc, Nat.add_comm 1]

/-- where a match starts, the scan goes on behind it -/
theorem scan_append_here {x y : Text} {before : Option Char} {position : Nat} {o : Occurrence} (hx : x ≠ [])
    (h : p.here byLine ⟨before, x ++ y, []⟩ position = [o]) (hstop : o.stop = position + x.length) :
    p.scan byLine before position 0 (x ++ y) =
      o :: p.scan byLine (x.getLast?.or before) (position + x.length) 0 y := by
  obtain ⟨c, x, rfl⟩ := List.exists_cons_of_ne_nil hx
  have hskip : o.stop - (position + 1) = x.length := by
    rw [hstop, List.length_cons]
    omega
  have hscan : p.scan byLine before position 0 (c :: x ++ y) =
      o :: p.scan byLine (some c) (position + 1) x.length (x ++ y) := by
    rw [← hskip]
    rw [List.cons_append] at h ⊢
    simp [scan_zero, h]
  rw [hscan, scan_skip_append, Cursor.getLast?_cons_or, List.length_cons, Nat.add_assoc, Nat.add_comm 1]

/-- every match found is one at its place -/
theorem scan_sound (hp : p.Advances byLine) {before : Option Char} {position skip : Nat} {t : Text} {o : Occurrence}
    (ho : o ∈ p.scan byLine before position skip t) :
    ∃ u v e more, t = u ++ v ∧ skip ≤ u.length ∧ p.ends byLine ⟨u.getLast?.or before, v, []⟩ = e :: more ∧
      o = found ⟨u.getLast?.or before, v, []⟩ e (position + u.length) := by
  induction t generalizing before position skip with
  | nil => simp [scan_nil hp] at ho
  | cons c rest ih =>
    -- a match in the rest is one here, one character further on
    have hlater : ∀ {skip' : Nat}, o ∈ p.scan byLine (some c) (position + 1) skip' rest → skip ≤ skip' + 1 →
        ∃ u v e more, c :: rest = u ++ v ∧ skip ≤ u.length ∧ p.ends byLine ⟨u.getLast?.or before, v, []⟩ = e :: more ∧
          o = found ⟨u.getLast?.or before, v, []⟩ e (position + u.length) := by
      intro skip' h hs
      obtain ⟨u, v, e, more, rfl, hlen, he, rfl⟩ := ih h
      refine ⟨c :: u, v, e, more, rfl, by simp; omega, ?_, ?_⟩
      · rwa [Cursor.getLast?_cons_or]
      · rw [Cursor.getLast?_cons_or, List.length_cons, Nat.add_assoc, Nat.add_comm 1]
    cases skip with
    | succ skip => exact hlater ho le_rfl
    | zero =>
      cases he : p.ends byLine ⟨before, c :: rest, []⟩ with
      | nil =>
        rw [scan_none he] at ho
        exact hlater ho (Nat.zero_le _)
      | cons e more =>
        rw [scan_some hp he] at ho
        rcases List.mem_cons.1 ho with rfl | ho
        · exact ⟨[], c :: rest, e, more, rfl, le_rfl, he, rfl⟩
        · exact hlater ho (Nat.zero_le _)

/-- the matches found follow one another -/
theorem scan_sorted (hp : p.Advances byLine) (before : Option Char) (position skip : Nat) (t : Text) :
    (p.scan byLine before position skip t).Pairwise (fun a b => a.stop ≤ b.start) ∧
      ∀ o ∈ p.scan byLine before position skip t, position + skip ≤ o.start := by
  induction t generalizing before position skip with
  | nil => simp [scan_nil hp]
  | cons c rest ih =>
    cases skip with
    | succ skip =>
      obtain ⟨hsorted, hstart⟩ := ih (some c) (position + 1) skip
      exact ⟨hsorted, fun o ho => by have := hstart o ho; omega⟩
    | zero =>
      cases he : p.ends byLine ⟨before, c :: rest, []⟩ with
      | nil =>
        obtain ⟨hsorted, hstart⟩ := ih (some c) (position + 1) 0
        rw [scan_none he]
        exact ⟨hsorted, fun o ho => by have := hstart o ho; omega⟩
      | cons e more =>
        obtain ⟨hsorted, hstart⟩ := ih (some c) (position + 1) (rest.length - e.rest.length)
        have hlt := hp _ e (by rw [he]; exact List.mem_cons_self)
        rw [scan_some hp he]
        refine ⟨List.pairwise_cons.2 ⟨fun o ho => ?_, hsorted⟩, fun o ho => ?_⟩
        · have := hstart o ho
          simp only [found, List.length_cons] at hlt ⊢
          omega
        · rcases List.mem_cons.1 ho with rfl | ho
          · simp [found]
          · have := hstart o ho
            omega

/-- wherever a match could start, one was found that reaches over the place -/
theorem scan_covers (hp : p.Advances byLine) {before : Option Char} {position skip : Nat} {t u v : Text}
    (ht : t = u ++ v) (hskip : skip ≤ u.length) (hne : p.ends byLine ⟨u.getLast?.or before, v, []⟩ ≠ []) :
    ∃ o ∈ p.scan byLine before position skip t, o.start ≤ position + u.length ∧ position + u.length < o.stop := by
  induction t generalizing before position skip u with
  | nil =>
    obtain ⟨rfl, rfl⟩ := List.append_eq_nil_iff.1 ht.symm
    obtain ⟨e, he⟩ := List.exists_mem_of_ne_nil _ hne
    exact absurd (hp _ e he) (by simp)
  | cons c rest ih =>
    cases u with
    | nil =>
      obtain rfl : v = c :: rest := ht.symm
      obtain rfl : skip = 0 := Nat.le_zero.1 hskip
      simp only [List.getLast?_nil, Option.none_or] at hne
      obtain ⟨e, more, he⟩ := List.exists_cons_of_ne_nil hne
      have hlt := hp _ e (by rw [he]; exact List.mem_cons_self)
      refine ⟨found ⟨before, c :: rest, []⟩ e position, ?_, ?_⟩
      · rw [scan_some hp he]
        exact List.mem_cons_self
      · simp only [found, List.length_nil, List.length_cons] at hlt ⊢
        omega
    | cons d u =>
      obtain ⟨rfl, hrest⟩ := List.cons.inj ht
      rw [Cursor.getLast?_cons_or] at hne
      have hlater : ∀ {skip' : Nat}, skip' ≤ u.length →
          ∃ o ∈ p.scan byLine (some c) (position + 1) skip' rest,
            o.start ≤ position + (c :: u).length ∧ position + (c :: u).length < o.stop := by
        intro skip' hs
        obtain ⟨o, ho, hstart, hstop⟩ : ∃ o ∈ p.scan byLine (some c) (position + 1) skip' rest,
            o.start ≤ position + 1 + u.length ∧ position + 1 + u.length < o.stop := ih hrest hs hne
        refine ⟨o, ho, ?_, ?_⟩ <;> rw [List.length_cons] <;> omega
      cases skip with
      | succ skip => exact hlater (by simpa using hskip)
      | zero =>
        cases he : p.ends byLine ⟨before, c :: rest, []⟩ with
        | nil =>
          rw [scan_none he]
          exact hlater (Nat.zero_le _)
        | cons e more =>
          rw [scan_some hp he]
          -- the place lies inside the match that starts here, or after it
          by_cases hin : rest.length - e.rest.length ≤ u.length
          · obtain ⟨o, ho, hover⟩ := hlater hin
            exact ⟨o, List.mem_cons_of_mem _ ho, hover⟩
          · refine ⟨_, List.mem_cons_self, ?_, ?_⟩ <;> simp only [found, List.length_cons] <;> omega

/-- there is no match exactly if none could start anywhere -/
theorem scan_eq_nil_iff (hp : p.Advances byLine) {before : Option Char} {position : Nat} {t : Text} :
    p.scan byLine before position 0 t = [] ↔
      ∀ u v, t = u ++ v → p.ends byLine ⟨u.getLast?.or before, v, []⟩ = [] := by
  constructor
  · intro h u v ht
    by_contra hne
    obtain ⟨o, ho, -⟩ : ∃ o ∈ p.scan byLine before position 0 t, _ := scan_covers hp ht (Nat.zero_le _) hne
    rw [h] at ho
    simp at ho
  · intro h
    refine List.eq_nil_iff_forall_not_mem.2 fun o ho => ?_
    obtain ⟨u, v, e, more, ht, -, he, -⟩ := scan_sound hp ho
    rw [h u v ht] at he
    simp at he

/-- the matches in a common start of two texts, each of them one at its place. What is skipped after it is what the last
match still covers. -/
theorem scan_congr (x : Text) {y y' : Text} (before : Option Char) (position skip : Nat)
    (h : ∀ u v, x = u ++ v → v ≠ [] → p.here byLine ⟨u.getLast?.or before, v ++ y, []⟩ (position + u.length) =
      p.here byLine ⟨u.getLast?.or before, v ++ y', []⟩ (position + u.length)) :
    ∃ found skip',
      p.scan byLine before position skip (x ++ y) =
        found ++ p.scan byLine (x.getLast?.or before) (position + x.length) skip' y ∧
      p.scan byLine before position skip (x ++ y') =
        found ++ p.scan byLine (x.getLast?.or before) (position + x.length) skip' y' ∧
      (∀ o ∈ found, ∃ u v, x = u ++ v ∧ v ≠ [] ∧
        o ∈ p.here byLine ⟨u.getLast?.or before, v ++ y, []⟩ (position + u.length)) ∧
      (found = [] → skip' = skip - x.length) ∧
      ∀ o, found.getLast? = some o → skip' = o.stop - (position + x.length) := by
  induction x generalizing before position skip with
  | nil => exact ⟨[], skip, rfl, rfl, by simp, fun _ => rfl, by simp⟩
  | cons c x ih =>
    have hlater := fun skip' => ih (some c) (position + 1) skip' fun u v hx hv => by
      have := h (c :: u) v (by rw [hx]; rfl) hv
      rwa [Cursor.getLast?_cons_or, List.length_cons, Nat.add_comm u.length, ← Nat.add_assoc] at this
    have hlen : ∀ n, position + 1 + n = position + (n + 1) := fun n => by omega
    -- a match further on stands behind the first character
    have hbehind : ∀ o, (∃ u v, x = u ++ v ∧ v ≠ [] ∧
        o ∈ p.here byLine ⟨u.getLast?.or (some c), v ++ y, []⟩ (position + 1 + u.length)) →
        ∃ u v, c :: x = u ++ v ∧ v ≠ [] ∧
          o ∈ p.here byLine ⟨u.getLast?.or before, v ++ y, []⟩ (position + u.length) := by
      rintro o ⟨u, v, rfl, hv, ho⟩
      exact ⟨c :: u, v, rfl, hv, by rwa [Cursor.getLast?_cons_or, List.length_cons, ← hlen]⟩
    simp only [Cursor.getLast?_cons_or, List.cons_append, List.length_cons, hlen] at hlater hbehind ⊢
    cases skip with
    | succ skip =>
      obtain ⟨L, skip', h1, h2, hin, h3, h4⟩ := hlater skip
      exact ⟨L, skip', h1, h2, fun o ho => hbehind o (hin o ho), fun hL => by rw [h3 hL]; omega, h4⟩
    | zero =>
      have hhead := h [] (c :: x) rfl (by simp)
      simp only [List.getLast?_nil, Option.none_or, List.length_nil, Nat.add_zero, List.cons_append] at hhead
      rw [scan_zero, scan_zero, ← hhead]
      have hmem : ∀ o ∈ p.here byLine ⟨before, c :: (x ++ y), []⟩ position, ∃ u v, c :: x = u ++ v ∧ v ≠ [] ∧
          o ∈ p.here byLine ⟨u.getLast?.or before, v ++ y, []⟩ (position + u.length) :=
        fun o ho => ⟨[], c :: x, rfl, by simp, ho⟩
      generalize p.here byLine ⟨before, c :: (x ++ y), []⟩ position = first at hmem
      obtain ⟨L, skip', h1, h2, hin, h3, h4⟩ := hlater ((first.getLast?.map (·.stop)).getD position - (position + 1))
      refine ⟨first ++ L, skip', by rw [h1, List.append_assoc], by rw [h2, List.append_assoc], fun o ho => ?_,
        fun hL => ?_, fun o ho => ?_⟩
      · exact (List.mem_append.1 ho).elim (hmem o) fun ho => hbehind o (hin o ho)
      · obtain ⟨rfl, rfl⟩ := List.append_eq_nil_iff.1 hL
        rw [h3 rfl]
        simp
      · rcases List.eq_nil_or_concat' L with rfl | ⟨L, a, rfl⟩
        · rw [List.append_nil] at ho
          rw [h3 rfl, ho]
          simp only [Option.map_some, Option.getD_some]
          omega
        · rw [← List.append_assoc, List.getLast?_concat] at ho
          exact h4 o (by rw [List.getLast?_concat, ho])

/-! ## Whole texts -/

theorem occurrences_sound (hp : p.Advances byLine) {t : Text} {o : Occurrence} (ho : o ∈ p.occurrences byLine t) :
    ∃ u v e more, t = u ++ v ∧ p.ends byLine ⟨u.getLast?, v, []⟩ = e :: more ∧
      o = found ⟨u.getLast?, v, []⟩ e u.length := by
  obtain ⟨u, v, e, more, ht, -, he, rfl⟩ := scan_sound hp ho
  rw [Option.or_none] at he ⊢
  exact ⟨u, v, e, more, ht, he, by rw [Nat.zero_add]⟩

theorem occurrences_sorted (hp : p.Advances byLine) (t : Text) :
    (p.occurrences byLine t).Pairwise fun a b => a.stop ≤ b.start := (scan_sorted hp none 0 0 t).1

theorem occurrences_covers (hp : p.Advances byLine) {u v : Text} (hne : p.ends byLine ⟨u.getLast?, v, []⟩ ≠ []) :
    ∃ o ∈ p.occurrences byLine (u ++ v), o.start ≤ u.length ∧ u.length < o.stop := by
  have hscan : ∃ o ∈ p.scan byLine none 0 0 (u ++ v), o.start ≤ 0 + u.length ∧ 0 + u.length < o.stop :=
    scan_covers hp rfl (Nat.zero_le _) (by rwa [Option.or_none])
  rwa [Nat.zero_add] at hscan

theorem stop_le_of_mem_here {k : Cursor} {position : Nat} {o : Occurrence} (ho : o ∈ p.here byLine k position) :
    o.stop ≤ position + k.rest.length := by
  have hfound : ∀ e : Cursor, position + (k.rest.length - e.rest.length) ≤ position + k.rest.length := fun e => by omega
  unfold here at ho
  cases hends : p.ends byLine k with
  | nil => simp [hends] at ho
  | cons e more =>
    simp only [hends] at ho
    split_ifs at ho
    · rw [List.mem_singleton.1 ho]
      exact hfound e
    · rcases List.mem_cons.1 ho with rfl | ho
      · exact hfound e
      · obtain ⟨e', -, rfl⟩ := List.mem_map.1 ho
        exact hfound e'

/-- the matches of a text in which each is the same whatever follows, and those behind it -/
theorem occurrences_append (hp : p.Advances byLine) {x y : Text}
    (h : ∀ u v, x = u ++ v → v ≠ [] → ∀ position, p.here byLine ⟨u.getLast?, v ++ y, []⟩ position =
      p.here byLine ⟨u.getLast?, v, []⟩ position) :
    p.occurrences byLine (x ++ y) = p.occurrences byLine x ++ p.scan byLine x.getLast? x.length 0 y := by
  obtain ⟨found, skip, h1, h2, hin, h3, h4⟩ := @scan_congr p byLine x y [] none 0 0
    fun u v hx hv => by
      rw [Option.or_none, List.append_nil]
      exact h u v hx hv _
  have hskip : skip = 0 := by
    rcases List.eq_nil_or_concat' found with rfl | ⟨found, o, rfl⟩
    · rw [h3 rfl, Nat.zero_sub]
    · obtain ⟨u, v, hx, hv, ho⟩ := hin o (by simp)
      rw [Option.or_none, h u v hx hv] at ho
      have hstop := stop_le_of_mem_here ho
      rw [h4 o (by simp), hx, List.length_append]
      simp only at hstop
      omega
  rw [List.append_nil, scan_nil hp, List.append_nil] at h2
  rw [occurrences, occurrences, h1, h2, hskip, Option.or_none, Nat.zero_add]

end Componentry.Pattern
