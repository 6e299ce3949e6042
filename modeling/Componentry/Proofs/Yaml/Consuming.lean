/-
What of the tokens a document takes.

Reading goes through the tokens in order and leaves none out.
- `Takes`: what holds after a part of reading, given what holds before it.
- `Past`: how far reading has come in some tokens, and that the texts of the nodes so far are among them.
- `takesNodes`: a node takes brackets in pairs and nothing that stands between documents.

Main results: `Document.ofText_readable` and `Document.ofText_taken`; with the former `Source.stop_of_read`.
-/
import Componentry.Proofs.Yaml.Stepping
import Componentry.Yaml.Value.Reading

namespace Componentry.Yaml

namespace Read

/-- what holds after a part of reading that does not break off, given what holds before it -/
def Takes {α : Type} (P : Reader → Prop) (m : Read α) (Q : Reader → Prop) : Prop :=
  ∀ r, P r → match m.run r with
    | .ok (_, r') => Q r'
    | .error _ => True

section

variable {α β : Type} {P Q R : Reader → Prop}

theorem Takes.pure (a : α) : Takes P (Pure.pure a : Read α) P := fun _ hr => hr

theorem Takes.throw {f : Fault} : Takes P (throw f : Read α) Q := fun _ _ => trivial

theorem Takes.any (m : Read α) : Takes P m fun _ => True := by
  intro r _
  cases m.run r <;> trivial

theorem Takes.bind {m : Read α} {k : α → Read β} (hm : Takes P m Q) (hk : ∀ a, Takes Q (k a) R) :
    Takes P (m >>= k) R := by
  intro r hr
  have hstep := hm r hr
  rw [StateT.run_bind]
  cases hx : m.run r with
  | error f => trivial
  | ok x =>
    rw [hx] at hstep
    exact hk x.1 x.2 hstep

theorem Takes.map_bind {γ : Type} {m : Read α} {g : α → β} {k : β → Read γ} (hm : Takes P m Q)
    (hk : ∀ a, Takes Q (k (g a)) R) : Takes P (g <$> m >>= k) R := by
  rw [bind_map_left]
  exact hm.bind hk

theorem Takes.mono {m : Read α} {P' Q' : Reader → Prop} (hm : Takes P m Q) (hP : ∀ r, P' r → P r)
    (hQ : ∀ r, Q r → Q' r) : Takes P' m Q' := by
  intro r hr
  have hstep := hm r (hP r hr)
  cases hx : m.run r with
  | error f => trivial
  | ok x =>
    rw [hx] at hstep
    exact hQ x.2 hstep

theorem Takes.ite {p : Prop} [Decidable p] {m n : Read α} (hm : Takes P m Q) (hn : Takes P n Q) :
    Takes P (if p then m else n) Q := by
  split_ifs
  · exact hm
  · exact hn

theorem Takes.get_bind {k : Reader → Read α} (hk : ∀ r, P r → Takes (· = r) (k r) Q) : Takes P (get >>= k) Q :=
  fun r hr => hk r hr r rfl

theorem Takes.set {r : Reader} (hr : Q r) : Takes P (set r : Read PUnit) Q := fun _ _ => hr

theorem Takes.modify {g : Reader → Reader} (hg : ∀ r, P r → Q (g r)) : Takes P (modify g : Read PUnit) Q :=
  fun r hr => hg r hr

end

/-- a node whose text is among some tokens, or empty -/
def Comes (T : List Token) (node : Node) : Prop :=
  ∀ tag text, node = .scalar tag text → text = [] ∨ ∃ plain, .scalar text plain ∈ T

/-- a state in which reading has come past some of the tokens `T`, all of a kind, with `k` brackets open in them; what
the next token is may be known -/
structure Past (T : List Token) (A : Token → Prop) (k : Int) (next : Option Token) (r : Reader) : Prop where
  taken : ∃ cs, T = cs ++ r.tokens ∧ (cs.map Token.nesting).sum = k ∧ ∀ c ∈ cs, c.IsReadable ∧ A c
  next : ∀ c, next = some c → r.tokens.head? = some c ∧ c.IsReadable
  nodes : ∀ node ∈ r.nodes, Comes T node

section

variable {T : List Token} {A : Token → Prop} {k l : Int} {next : Option Token} {α : Type} {Q : Reader → Prop}

theorem Past.forget {r : Reader} (h : Past T A k next r) : Past T A k none r := ⟨h.taken, by simp, h.nodes⟩

/-- what does not concern the tokens and nodes may change -/
theorem Past.of_eq {r r' : Reader} (h : Past T A k next r) (htokens : r'.tokens = r.tokens) (hnodes : r'.nodes = r.nodes) :
    Past T A k next r' :=
  ⟨htokens ▸ h.taken, htokens ▸ h.next, hnodes ▸ h.nodes⟩

theorem Takes.forget {m : Read α} (h : Takes (Past T A k none) m Q) : Takes (Past T A k next) m Q :=
  h.mono (fun _ hr => hr.forget) fun _ hr => hr

/-- what is next can be read, or reading breaks off -/
theorem run_peek (r : Reader) : (∃ f, peek.run r = .error f) ∨
    peek.run r = .ok (r.tokens.head?, r) ∧ ∀ c, r.tokens.head? = some c → c.IsReadable := by
  obtain ⟨tokens, handles, anchors, nodes, lists⟩ := r
  cases tokens with
  | nil => exact Or.inr ⟨rfl, by simp⟩
  | cons c rest =>
    cases c with
    | unreadable f => exact Or.inl ⟨f, rfl⟩
    | _ => exact Or.inr ⟨rfl, by simp [Token.IsReadable]⟩

theorem peek_bind {P : Reader → Prop} {f : Option Token → Read α}
    (h : ∀ token, (∀ c, token = some c → c.IsReadable) → Takes (fun r => P r ∧ r.tokens.head? = token) (f token) Q) :
    Takes P (peek >>= f) Q := by
  intro r hr
  rw [StateT.run_bind]
  rcases run_peek r with ⟨f, hpeek⟩ | ⟨hpeek, hreadable⟩
  · rw [hpeek]
    trivial
  · rw [hpeek]
    exact h _ hreadable r ⟨hr, rfl⟩

/-- the next token is known once it is looked at -/
theorem peek_known {f : Option Token → Read α} (h : ∀ token, Takes (Past T A k token) (f token) Q) :
    Takes (Past T A k none) (peek >>= f) Q :=
  peek_bind fun token hreadable => (h token).mono
    (fun _ hr => ⟨hr.1.taken, fun c hc => ⟨hr.2.trans hc, hreadable c hc⟩, hr.1.nodes⟩) fun _ hr => hr

/-- the next token is taken if it is the one given, and else left -/
theorem accept_bind {P P' : Reader → Prop} {c : Token} {m n : Read α}
    (hskip : ∀ r, P r → r.tokens.head? = some c → c.IsReadable → P' { r with tokens := r.tokens.drop 1 })
    (hfound : Takes P' m Q) (hnone : Takes P n Q) : Takes P (do if ← accept c then m else n) Q := by
  unfold accept sees
  simp only [bind_assoc]
  refine peek_bind fun token hreadable => ?_
  cases token with
  | none =>
    simp only [pure_bind, Bool.false_eq_true, if_false]
    exact hnone.mono (fun _ hr => hr.1) fun _ hr => hr
  | some d =>
    simp only [pure_bind, List.contains_cons, List.contains_nil, Bool.or_false, beq_iff_eq]
    by_cases hd : d = c
    · subst hd
      rw [if_pos rfl, bind_assoc]
      refine Takes.bind (.modify fun r hr => hskip r hr.1 hr.2 (hreadable d rfl)) fun _ => ?_
      simpa using hfound
    · rw [if_neg hd]
      simpa using hnone.mono (fun _ hr => hr.1) fun _ hr => hr

theorem Past.skip {r : Reader} {c : Token} (h : Past T A k none r) (hhead : r.tokens.head? = some c)
    (hreadable : c.IsReadable) (hc : A c) : Past T A (k + c.nesting) none { r with tokens := r.tokens.drop 1 } := by
  obtain ⟨⟨cs, hT, hsum, hcs⟩, -, hnodes⟩ := h
  obtain ⟨rest, hrest⟩ := List.head?_eq_some_iff.1 hhead
  refine ⟨⟨cs ++ [c], ?_, ?_, ?_⟩, by simp, hnodes⟩
  · simp [hT, hrest]
  · simp [hsum]
  · intro d hd
    rcases List.mem_append.1 hd with hd | hd
    · exact hcs d hd
    · exact List.mem_singleton.1 hd ▸ ⟨hreadable, hc⟩

theorem skip_takes {c : Token} (hc : A c) (hl : l = k + c.nesting) :
    Takes (Past T A k (some c)) skip (Past T A l none) := by
  refine .modify fun r hr => ?_
  obtain ⟨hhead, hreadable⟩ := hr.next c rfl
  exact hl ▸ hr.forget.skip hhead hreadable hc

theorem skip_flat {c : Token} (hc : A c) (hflat : c.nesting = 0) :
    Takes (Past T A k (some c)) skip (Past T A k none) :=
  skip_takes hc (by omega)

theorem sees_bind (tokens : List Token) {f : Bool → Read α} (h : ∀ found, Takes (Past T A k none) (f found) Q) :
    Takes (Past T A k none) (sees tokens >>= f) Q := by
  unfold sees
  rw [bind_assoc]
  refine peek_known fun token => .forget ?_
  cases token with
  | some token => exact (Takes.pure _).bind h
  | none => exact (Takes.pure _).bind h

theorem accept_takes {c : Token} (hc : A c) {m n : Read α} (hl : l = k + c.nesting)
    (hfound : Takes (Past T A l none) m Q) (hnone : Takes (Past T A k none) n Q) :
    Takes (Past T A k none) (do if ← accept c then m else n) Q :=
  accept_bind (fun _ hr hhead hreadable => hl ▸ hr.skip hhead hreadable hc) hfound hnone

theorem accept_flat {c : Token} (hc : A c) (hflat : c.nesting = 0) {m n : Read α}
    (hfound : Takes (Past T A k none) m Q) (hnone : Takes (Past T A k none) n Q) :
    Takes (Past T A k none) (do if ← accept c then m else n) Q :=
  accept_takes hc (by omega) hfound hnone

/-- a bracket is closed, or something else comes -/
theorem accept_close {c : Token} (hc : A c) (hclose : c.nesting = -1) {m n : Read α}
    (hfound : Takes (Past T A k none) m Q) (hnone : Takes (Past T A (k + 1) none) n Q) :
    Takes (Past T A (k + 1) none) (do if ← accept c then m else n) Q :=
  accept_takes hc (by omega) hfound hnone

theorem expect_flat {c : Token} (hc : A c) (hflat : c.nesting = 0) :
    Takes (Past T A k none) (expect c) (Past T A k none) :=
  accept_flat hc hflat (.pure _) .throw

/-! ## What stands before a node -/

section

variable (hA : ∀ c : Token, c.isMark = false → A c)

include hA

theorem anchor?_takes : Takes (Past T A k none) anchor? (Past T A k none) := by
  refine peek_known fun token => ?_
  split
  · exact (skip_flat (hA _ rfl) rfl).bind fun _ => .pure _
  · exact .forget (.pure _)

theorem tag?_takes : Takes (Past T A k none) tag? (Past T A k none) := by
  refine peek_known fun token => ?_
  split
  · exact (skip_flat (hA _ rfl) rfl).bind fun _ => .pure _
  · exact .forget (.pure _)

theorem properties_takes : Takes (Past T A k none) properties (Past T A k none) := by
  refine (anchor?_takes hA).bind fun anchor => ?_
  cases anchor with
  | some name => exact (tag?_takes hA).bind fun _ => .pure _
  | none =>
    refine (tag?_takes hA).bind fun tag => ?_
    cases tag with
    | some tag => exact (anchor?_takes hA).bind fun _ => .pure _
    | none => exact .pure _

end

theorem spelled_takes (tag : Option Text × Text) : Takes (Past T A k next) (spelled tag) (Past T A k next) := by
  unfold spelled
  split
  · exact .pure _
  · refine .get_bind fun r hr => ?_
    split
    · exact (Takes.pure _).mono (fun _ h => h) fun _ h => h ▸ hr
    · exact .throw

theorem comes_nil (tag : Tag) : Comes T (.scalar tag []) := by
  rintro tag text heq
  exact Or.inl (Node.scalar.inj heq).2.symm

theorem comes_sequence (tag : Tag) (items : List Nat) : Comes T (.sequence tag items) := by
  rintro tag' text heq
  simp at heq

theorem comes_mapping (tag : Tag) (list : Nat) : Comes T (.mapping tag list) := by
  rintro tag' text heq
  simp at heq

theorem reserve_takes : Takes (Past T A k next) reserve (Past T A k next) := by
  refine .get_bind fun r hr => ?_
  refine Takes.bind (.set (Q := Past T A k next) ?_) fun _ => .pure _
  refine ⟨hr.taken, hr.next, fun node hnode => ?_⟩
  rcases Array.mem_push.1 hnode with hnode | rfl
  · exact hr.nodes node hnode
  · exact comes_nil _

theorem place_takes (number : Nat) {node : Node} (hnode : Comes T node) :
    Takes (Past T A k none) (place number node) (Past T A k none) := by
  refine Takes.bind (.modify (Q := Past T A k none) fun r hr => ?_) fun _ => .pure _
  refine ⟨hr.taken, hr.next, fun node' hnode' => ?_⟩
  rcases Array.mem_or_eq_of_mem_setIfInBounds hnode' with hmem | rfl
  · exact hr.nodes node' hmem
  · exact hnode

theorem add_takes {node : Node} (hnode : Comes T node) : Takes (Past T A k none) (add node) (Past T A k none) :=
  reserve_takes.bind fun number => place_takes number hnode

theorem mapping_bind (tag : Tag) (entries : List (Nat × Nat)) {f : Node → Read α}
    (h : ∀ list, Takes (Past T A k none) (f (.mapping tag list)) Q) :
    Takes (Past T A k none) (mapping tag entries >>= f) Q := by
  intro r hr
  exact h r.lists.size { r with lists := r.lists.push entries } (hr.of_eq rfl rfl)

theorem declare_takes (number : Nat) (name : Text) :
    Takes (Past T A k next) (declare number name) (Past T A k next) := by
  refine .get_bind fun r hr => ?_
  exact .ite .throw (.set (hr.of_eq rfl rfl))

theorem refer_takes (name : Text) : Takes (Past T A k none) (refer name) (Past T A k none) := by
  refine .get_bind fun r hr => ?_
  split
  · exact (Takes.pure _).mono (fun _ h => h) fun _ h => h ▸ hr
  · exact .throw

theorem unwritten_bind (isBare : Bool) (tag : Option Text) {f : Node → Read α}
    (h : ∀ tag, Takes (Past T A k none) (f (.scalar tag [])) Q) :
    Takes (Past T A k none) (unwritten isBare tag >>= f) Q := by
  cases isBare with
  | true => exact (Takes.throw (Q := fun _ => False)).bind fun _ _ h => h.elim
  | false => exact h _

theorem absent_takes : Takes (Past T A k none) absent (Past T A k none) := add_takes (comes_nil _)

/-! ## Nodes -/

/-- what each part of reading nodes takes, with some fuel: brackets that it opens it closes, and those that were opened
for it -/
structure TakesNodes (T : List Token) (A : Token → Prop) (fuel : Nat) : Prop where
  node : ∀ k block flush, Takes (Past T A k none) (node block flush fuel) (Past T A k none)
  blockItems : ∀ k, Takes (Past T A k none) (blockItems fuel) (Past T A k none)
  flushItems : ∀ k, Takes (Past T A k none) (flushItems fuel) (Past T A k none)
  blockEntries : ∀ k, Takes (Past T A k none) (blockEntries fuel) (Past T A k none)
  flowPair : ∀ k stop, Takes (Past T A k none) (flowPair stop fuel) (Past T A k none)
  flowItems : ∀ k first, Takes (Past T A (k + 1) none) (flowItems first fuel) (Past T A k none)
  flowEntries : ∀ k first, Takes (Past T A (k + 1) none) (flowEntries first fuel) (Past T A k none)

/-- the text of a scalar is among the tokens -/
theorem scalar_takes (hA : ∀ c : Token, c.isMark = false → A c) {text : Text} {plain : Bool} {tag : Tag} {number : Nat} :
    Takes (Past T A k (some (.scalar text plain))) (do
      skip
      let content ← (pure (Node.scalar tag text) : Read Node)
      place number content) (Past T A k none) := by
  intro r hr
  obtain ⟨cs, hT, -⟩ := hr.taken
  obtain ⟨rest, hrest⟩ := List.head?_eq_some_iff.1 (hr.next _ rfl).1
  have hnode : Comes T (.scalar tag text) := by
    rintro tag' text' heq
    obtain ⟨-, rfl⟩ := Node.scalar.inj heq
    exact Or.inr ⟨plain, by simp [hT, hrest]⟩
  have hplace := (skip_flat (T := T) (k := k) (hA (.scalar text plain) rfl) rfl).bind fun _ =>
    place_takes number hnode
  simpa only [pure_bind] using hplace r hr

section

variable (hA : ∀ c : Token, c.isMark = false → A c) {fuel : Nat} (ih : TakesNodes T A fuel)

include hA ih

theorem node_takes (block flush : Bool) : Takes (Past T A k none) (node block flush (fuel + 1)) (Past T A k none) := by
  unfold Read.node
  refine peek_known fun token => ?_
  split
  · exact (skip_flat (hA _ rfl) rfl).bind fun _ => refer_takes _
  · refine .forget ((properties_takes hA).bind fun properties => ?_)
    obtain ⟨anchor, tag⟩ := properties
    refine Takes.bind (Q := Past T A k none) ?_ fun tag => peek_known fun first => reserve_takes.bind fun number => ?_
    · cases tag with
      | none => exact .pure _
      | some tag =>
        have hmap : Takes (Past T A k none) (some <$> spelled tag >>= pure) (Past T A k none) :=
          (spelled_takes tag).map_bind fun _ => .pure _
        simpa using hmap
    · have hunwritten : ∀ {next : Option Token} (isBare : Bool),
          Takes (Past T A k next) (unwritten isBare tag >>= place number) (Past T A k none) := fun isBare =>
        .forget (unwritten_bind isBare tag fun _ => place_takes number (comes_nil _))
      cases anchor
      case' some name => refine (declare_takes number name).bind fun _ => ?_
      -- what the node holds, by the token it begins with
      all_goals
        split
        · exact scalar_takes hA
        · exact (skip_takes (hA _ rfl) rfl).bind fun _ => (ih.flowItems k true).map_bind fun _ =>
            place_takes number (comes_sequence _ _)
        · exact (skip_takes (hA _ rfl) rfl).bind fun _ => (ih.flowEntries k true).bind fun _ =>
            mapping_bind _ _ fun _ => place_takes number (comes_mapping _ _)
        · exact .ite (.forget ((ih.flushItems k).map_bind fun _ => place_takes number (comes_sequence _ _)))
            (hunwritten _)
        · exact .ite ((skip_flat (hA _ rfl) rfl).bind fun _ =>
            (ih.blockItems k).map_bind fun _ => place_takes number (comes_sequence _ _)) (hunwritten _)
        · exact .ite ((skip_flat (hA _ rfl) rfl).bind fun _ => (ih.blockEntries k).bind fun _ =>
            mapping_bind _ _ fun _ => place_takes number (comes_mapping _ _)) (hunwritten _)
        · exact hunwritten _

theorem blockItems_takes : Takes (Past T A k none) (blockItems (fuel + 1)) (Past T A k none) := by
  have hrest : ∀ item, Takes (Past T A k none) (do pure (item :: (← blockItems fuel)) : Read (List Nat))
      (Past T A k none) := fun item => (ih.blockItems k).bind fun _ => .pure _
  unfold Read.blockItems
  refine accept_flat (hA _ rfl) rfl ?_ ?_
  · exact sees_bind _ fun _ => .ite (absent_takes.bind hrest) ((ih.node k true false).bind hrest)
  · exact (expect_flat (hA _ rfl) rfl).bind fun _ => .pure _

theorem flushItems_takes : Takes (Past T A k none) (flushItems (fuel + 1)) (Past T A k none) := by
  have hrest : ∀ item, Takes (Past T A k none) (do pure (item :: (← flushItems fuel)) : Read (List Nat))
      (Past T A k none) := fun item => (ih.flushItems k).bind fun _ => .pure _
  unfold Read.flushItems
  refine accept_flat (hA _ rfl) rfl ?_ (.pure _)
  exact sees_bind _ fun _ => .ite (absent_takes.bind hrest) ((ih.node k true false).bind hrest)

theorem blockEntries_takes : Takes (Past T A k none) (blockEntries (fuel + 1)) (Past T A k none) := by
  have hrest : ∀ key value, Takes (Past T A k none)
      (do pure ((key, value) :: (← blockEntries fuel)) : Read (List (Nat × Nat))) (Past T A k none) :=
    fun key value => (ih.blockEntries k).bind fun _ => .pure _
  have hvalue : ∀ key, Takes (Past T A k none) (do
      let value ← if ← accept .value then
          (if ← sees [.key, .value, .blockEnd] then absent else node true true fuel) else absent
      pure ((key, value) :: (← blockEntries fuel))) (Past T A k none) := by
    intro key
    refine accept_flat (hA _ rfl) rfl ?_ (absent_takes.bind (hrest key))
    exact sees_bind _ fun _ => Takes.bind (.ite absent_takes (ih.node k true true)) (hrest key)
  unfold Read.blockEntries
  refine accept_flat (hA _ rfl) rfl ?_ ?_
  · exact sees_bind _ fun _ => .ite (absent_takes.bind hvalue) ((ih.node k true true).bind hvalue)
  · exact (expect_flat (hA _ rfl) rfl).bind fun _ => .pure _

theorem flowPair_takes (stop : Token) : Takes (Past T A k none) (flowPair stop (fuel + 1)) (Past T A k none) := by
  have hvalue : ∀ key : Nat, Takes (Past T A k none) (do
      let value ← if ← accept .value then
          (if ← sees [.separator, stop] then absent else node false false fuel) else absent
      pure (key, value)) (Past T A k none) := by
    intro key
    refine accept_flat (hA _ rfl) rfl ?_ (absent_takes.bind fun _ => .pure _)
    exact sees_bind _ fun _ => Takes.bind (.ite absent_takes (ih.node k false false)) fun _ => .pure _
  unfold Read.flowPair
  exact sees_bind _ fun _ => .ite (absent_takes.bind hvalue) ((ih.node k false false).bind hvalue)

theorem flowItems_takes (first : Bool) :
    Takes (Past T A (k + 1) none) (flowItems first (fuel + 1)) (Past T A k none) := by
  have hrest : ∀ item, Takes (Past T A (k + 1) none) (do pure (item :: (← flowItems false fuel)) : Read (List Nat))
      (Past T A k none) := fun item => (ih.flowItems k false).bind fun _ => .pure _
  have hitem : Takes (Past T A (k + 1) none) (do
      if ← accept .key then
        let pair ← flowPair .flowSequenceEnd fuel
        let item ← add (← mapping .mapping [pair])
        pure (item :: (← flowItems false fuel))
      else if ← accept .flowSequenceEnd then pure []
      else
        let item ← node false false fuel
        pure (item :: (← flowItems false fuel))) (Past T A k none) := by
    refine accept_flat (hA _ rfl) rfl ?_ ?_
    · exact (ih.flowPair (k + 1) _).bind fun _ => mapping_bind _ _ fun _ => (add_takes (comes_mapping _ _)).bind hrest
    · exact accept_close (hA _ rfl) rfl (.pure _) ((ih.node (k + 1) false false).bind hrest)
  unfold Read.flowItems
  refine accept_close (hA _ rfl) rfl (.pure _) ?_
  exact .ite hitem ((expect_flat (hA _ rfl) rfl).bind fun _ => hitem)

theorem flowEntries_takes (first : Bool) :
    Takes (Past T A (k + 1) none) (flowEntries first (fuel + 1)) (Past T A k none) := by
  have hrest : ∀ entry, Takes (Past T A (k + 1) none)
      (do pure (entry :: (← flowEntries false fuel)) : Read (List (Nat × Nat))) (Past T A k none) := fun entry =>
    (ih.flowEntries k false).bind fun _ => .pure _
  have hentry : Takes (Past T A (k + 1) none) (do
      if ← accept .key then
        let pair ← flowPair .flowMappingEnd fuel
        pure (pair :: (← flowEntries false fuel))
      else if ← accept .flowMappingEnd then pure []
      else
        let key ← node false false fuel
        let value ← absent
        pure ((key, value) :: (← flowEntries false fuel))) (Past T A k none) := by
    refine accept_flat (hA _ rfl) rfl ?_ ?_
    · exact (ih.flowPair (k + 1) _).bind hrest
    · refine accept_close (hA _ rfl) rfl (.pure _) ?_
      exact (ih.node (k + 1) false false).bind fun key => absent_takes.bind fun value => hrest (key, value)
  unfold Read.flowEntries
  refine accept_close (hA _ rfl) rfl (.pure _) ?_
  exact .ite hentry ((expect_flat (hA _ rfl) rfl).bind fun _ => hentry)

end

theorem takesNodes (hA : ∀ c : Token, c.isMark = false → A c) (fuel : Nat) : TakesNodes T A fuel := by
  induction fuel with
  | zero =>
    exact ⟨fun _ _ _ => .throw, fun _ => .throw, fun _ => .throw, fun _ => .throw, fun _ _ => .throw, fun _ _ => .throw,
      fun _ _ => .throw⟩
  | succ fuel ih =>
    exact ⟨fun _ => node_takes hA ih, fun _ => blockItems_takes hA ih, fun _ => flushItems_takes hA ih,
      fun _ => blockEntries_takes hA ih, fun _ => flowPair_takes hA ih, fun _ => flowItems_takes hA ih,
      fun _ => flowEntries_takes hA ih⟩

/-! ## Documents -/

section

variable (hA : ∀ c : Token, A c)

include hA

theorem directives_takes (versioned : Bool) (fuel : Nat) :
    Takes (Past T A k none) (directives versioned fuel) (Past T A k none) := by
  induction fuel generalizing versioned with
  | zero => exact .throw
  | succ fuel ih =>
    have hthrow : ∀ {m : Read Unit}, Takes (Past T A k none) (do throw .malformed; m) (Past T A k none) :=
      (Takes.throw (Q := fun _ => False)).bind fun _ _ h => h.elim
    unfold directives
    refine peek_known fun token => ?_
    split
    · exact (skip_flat (hA _) rfl).bind fun _ => .ite hthrow (ih true)
    · rename_i name stem
      refine (skip_flat (hA _) rfl).bind fun _ => .get_bind fun r hr => ?_
      have hset : Takes (· = r) (do
          set { r with handles := (name, stem) :: r.handles }
          directives versioned fuel) (Past T A k none) :=
        Takes.bind (.set (Q := Past T A k none) (hr.of_eq rfl rfl)) fun _ => ih versioned
      exact .ite ((Takes.throw (Q := fun _ => False)).bind fun _ _ h => h.elim) hset
    · exact (skip_flat (hA _) rfl).bind fun _ => ih versioned
    · exact .modify fun r hr => hr.forget.of_eq rfl rfl

theorem heading_takes (fuel : Nat) : Takes (Past T A k none) (heading fuel) (Past T A k none) := by
  refine Takes.bind (.modify (Q := Past T A k none) fun r hr => hr.of_eq rfl rfl) fun _ => ?_
  exact (directives_takes hA false fuel).bind fun _ => expect_flat (hA _) rfl

theorem content_takes (fuel : Nat) : Takes (Past T A k none) (content fuel) (Past T A k none) := by
  refine peek_known fun token => .forget ?_
  split
  all_goals first
    | exact absent_takes
    | exact (takesNodes (fun c _ => hA c) fuel).node k true false

theorem endings_takes (fuel : Nat) : Takes (Past T A k none) (endings fuel) (Past T A k none) := by
  induction fuel with
  | zero => exact .pure _
  | succ fuel ih => exact accept_flat (hA _) rfl ih (.pure _)

end

/-- behind the root of a document only lines that end it may come -/
theorem ending_takes {P E : Reader → Prop} {fuel root : Nat} (h : Takes P (endings fuel) E) :
    Takes P (do
      endings fuel
      match ← peek with
      | none => pure (some root)
      | _ => do
        heading fuel
        throw .malformed) fun r => E r ∧ r.tokens = [] := by
  refine h.bind fun _ => peek_bind fun token _ => ?_
  split
  · exact (Takes.pure _).mono (fun r hr => ⟨hr.1, List.head?_eq_none_iff.1 hr.2⟩) fun _ hr => hr
  · exact (Takes.any _).bind fun _ => .throw

/-- a document takes all tokens -/
theorem document_takes (hA : ∀ c : Token, A c) (fuel : Nat) :
    Takes (Past T A k none) (document fuel) fun r => Past T A k none r ∧ r.tokens = [] := by
  unfold document
  refine peek_bind fun first _ => ?_
  split
  · exact (Takes.pure _).mono (fun r hr => ⟨hr.1, List.head?_eq_none_iff.1 hr.2⟩) fun _ hr => hr
  · refine Takes.mono (P := Past T A k none) ?_ (fun _ hr => hr.1) fun _ hr => hr
    split
    all_goals first
      | exact (heading_takes hA fuel).bind fun _ => (content_takes hA fuel).bind fun root =>
          ending_takes (endings_takes hA fuel)
      | exact Takes.bind (.modify (Q := Past T A k none) fun r hr => hr.of_eq rfl rfl) fun _ =>
          ((takesNodes (fun c _ => hA c) fuel).node k true false).bind fun root => ending_takes (endings_takes hA fuel)

/-- reading has come past all of a document but lines that end it, and maybe some of these -/
structure Ended (T : List Token) (r : Reader) : Prop where
  taken : ∃ cs n, T = cs ++ List.replicate n .documentEnd ++ r.tokens ∧ (cs.map Token.nesting).sum = 0 ∧
    ∀ c ∈ cs, c.isMark = false
  nodes : ∀ node ∈ r.nodes, Comes T node

theorem endings_ended (fuel : Nat) : Takes (Ended T) (endings fuel) (Ended T) := by
  induction fuel with
  | zero => exact .pure _
  | succ fuel ih =>
    refine accept_bind (fun r hr hhead _ => ?_) ih (.pure _)
    obtain ⟨⟨cs, n, hT, hsum, hinner⟩, hnodes⟩ := hr
    obtain ⟨rest, hrest⟩ := List.head?_eq_some_iff.1 hhead
    refine ⟨⟨cs, n + 1, ?_, hsum, hinner⟩, hnodes⟩
    simp [hT, hrest, List.replicate_succ']

/-- tokens that do not begin with a mark between documents are taken as one document -/
theorem document_ended (hfirst : ∀ c, T.head? = some c → c.isMark = false) (fuel : Nat) :
    Takes (fun r => r.tokens = T ∧ r.nodes = #[]) (document fuel) fun r => Ended T r ∧ r.tokens = [] := by
  have hmark : ∀ {c : Token} {m : Read (Option Nat)} {R : Reader → Prop}, c.isMark = true →
      Takes (fun r => (r.tokens = T ∧ r.nodes = #[]) ∧ r.tokens.head? = some c) m R := by
    rintro c m R hc r ⟨⟨rfl, -⟩, hhead⟩
    simp [hfirst c hhead] at hc
  unfold document
  refine peek_bind fun first _ => ?_
  split
  · refine (Takes.pure _).mono (fun r hr => ?_) fun _ hr => hr
    obtain ⟨⟨rfl, hnodes⟩, hhead⟩ := hr
    exact ⟨⟨⟨[], 0, by simp, rfl, by simp⟩, by simp [hnodes]⟩, List.head?_eq_none_iff.1 hhead⟩
  · split
    · exact hmark rfl
    · exact hmark rfl
    · exact hmark rfl
    · exact hmark rfl
    · refine Takes.bind (.modify (Q := Past T (fun c => c.isMark = false) 0 none) fun r hr => ?_) fun _ => ?_
      · exact ⟨⟨[], by simp [hr.1.1], rfl, by simp⟩, by simp, by simp [hr.1.2]⟩
      · refine ((takesNodes (fun _ hc => hc) fuel).node 0 true false).bind fun root => ?_
        refine ending_takes ((endings_ended fuel).mono (fun r hr => ?_) fun _ hr => hr)
        obtain ⟨cs, hT, hsum, hinner⟩ := hr.taken
        exact ⟨⟨cs, 0, by simpa using hT, hsum, fun c hc => (hinner c hc).2⟩, hr.nodes⟩

end

end Read

/-- a text that has a document has no token that cannot be read -/
theorem Document.ofText_readable {t : Text} {stop : Option Fault} {d : Option Document}
    (h : Document.ofText t stop = .ok d) : ∀ c ∈ Token.ofText t stop, c.IsReadable := by
  have htakes := Read.document_takes (T := Token.ofText t stop) (A := fun _ => True) (k := 0) (fun _ => trivial)
    (3 * (Token.ofText t stop).length + 3) ⟨Token.ofText t stop, [], [], #[], #[]⟩
    ⟨⟨[], by simp, rfl, by simp⟩, by simp, by simp⟩
  have hall : ∀ {r}, Read.Past (Token.ofText t stop) (fun _ => True) 0 none r ∧ r.tokens = [] →
      ∀ c ∈ Token.ofText t stop, c.IsReadable := by
    rintro r ⟨⟨⟨cs, hT, -, hcs⟩, -, -⟩, htokens⟩ c hc
    rw [htokens, List.append_nil] at hT
    exact (hcs c (hT ▸ hc)).1
  unfold Document.ofText at h
  simp only at h
  split at h
  · simp at h
  · rename_i heq
    rw [heq] at htakes
    exact hall htakes
  · rename_i heq
    rw [heq] at htakes
    exact hall htakes

/-- what a document is written by: tokens in which all brackets are closed and nothing stands between documents, and lines
that end it. The texts of its nodes are among them. -/
theorem Document.ofText_taken {t : Text} {stop : Option Fault} {d : Document}
    (hfirst : ∀ c, (Token.ofText t stop).head? = some c → c.isMark = false)
    (h : Document.ofText t stop = .ok (some d)) :
    (∃ cs n, Token.ofText t stop = cs ++ List.replicate n .documentEnd ∧ (cs.map Token.nesting).sum = 0 ∧
      ∀ c ∈ cs, c.isMark = false) ∧ ∀ node ∈ d.nodes, Read.Comes (Token.ofText t stop) node := by
  have htakes := Read.document_ended hfirst (3 * (Token.ofText t stop).length + 3)
    ⟨Token.ofText t stop, [], [], #[], #[]⟩ ⟨rfl, rfl⟩
  unfold Document.ofText at h
  simp only at h
  split at h
  · simp at h
  · simp at h
  · rename_i heq
    rw [heq] at htakes
    obtain ⟨⟨⟨cs, n, hT, hsum, hinner⟩, hnodes⟩, htokens⟩ := htakes
    obtain rfl := Option.some.inj (Except.ok.inj h)
    exact ⟨⟨cs, n, by rw [hT, htokens, List.append_nil], hsum, hinner⟩, hnodes⟩

/-- a source whose value is known is read to its end -/
theorem Source.stop_of_read {s : Source} {c : Contents} (h : s.read = .ok c) : s.stop = none := by
  unfold Source.read at h
  cases hd : Document.ofText s.text s.stop with
  | error f => simp [hd] at h
  | ok d =>
    have hreadable := Document.ofText_readable hd
    have hcases := @Lexer.run_cases (.start s.text) s.stop (s.text.length + 1) (Nat.lt_succ_self s.text.length)
    rcases hcases with ⟨f, hf⟩ | ⟨hstop, -⟩
    · exact absurd rfl (hreadable _ hf f)
    · exact hstop

end Componentry.Yaml
