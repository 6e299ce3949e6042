/-
Why tokens write no document.

Reading breaks off at a token that cannot be read, or where the tokens break a rule of the language.
- `Safe`: a part of reading that breaks off for no other reason, whatever it has come to so far.
- `document_safe`: so is reading as a whole.
- `Document.ofText_error`: a text without a document stops, or something in it keeps it from being read on.
-/
import Componentry.Proofs.Yaml.Lexing
import Componentry.Yaml.Node.Reading

namespace Componentry.Yaml

namespace Read

/-- a state of reading in which all tokens that cannot be read are so for an expected reason -/
def Expected (A : Fault → Prop) (r : Reader) : Prop := ∀ f, .unreadable f ∈ r.tokens → A f

/-- a part of reading that breaks off for expected reasons only, and leaves no other tokens -/
def Safe {α : Type} (A : Fault → Prop) (m : Read α) : Prop :=
  ∀ r, Expected A r → match m.run r with
    | .ok (_, r') => Expected A r'
    | .error f => A f

section

variable {A : Fault → Prop} {α β : Type}

theorem Safe.pure (a : α) : Safe A (Pure.pure a : Read α) := fun _ hr => hr

theorem Safe.throw {f : Fault} (h : A f) : Safe A (throw f : Read α) := fun _ _ => h

theorem Safe.bind {m : Read α} {k : α → Read β} (hm : Safe A m) (hk : ∀ a, Safe A (k a)) : Safe A (m >>= k) := by
  intro r hr
  have hstep := hm r hr
  rw [StateT.run_bind]
  cases hx : m.run r with
  | error f => rwa [hx] at hstep
  | ok x =>
    rw [hx] at hstep
    exact hk x.1 x.2 hstep

theorem Safe.map {m : Read α} (hm : Safe A m) (k : α → β) : Safe A (k <$> m) := by
  intro r hr
  have hstep := hm r hr
  rw [StateT.run_map]
  cases hx : m.run r with
  | error f => rwa [hx] at hstep
  | ok x => rwa [hx] at hstep

theorem Safe.get_bind {k : Reader → Read β} (hk : ∀ r, Expected A r → Safe A (k r)) : Safe A (get >>= k) :=
  fun r hr => hk r hr r hr

theorem Safe.set {r : Reader} (hr : Expected A r) : Safe A (set r : Read PUnit) := fun _ _ => hr

theorem Safe.modify {g : Reader → Reader} (hg : ∀ r, (g r).tokens ⊆ r.tokens) : Safe A (modify g : Read PUnit) :=
  fun r hr f hf => hr f (hg r hf)

theorem Safe.ite {p : Prop} [Decidable p] {m n : Read α} (hm : Safe A m) (hn : Safe A n) :
    Safe A (if p then m else n) := by
  split_ifs
  · exact hm
  · exact hn

theorem peek_safe : Safe A peek := by
  refine .get_bind fun r hr => ?_
  split
  · rename_i f rest htokens
    exact .throw (hr f (htokens ▸ List.mem_cons_self))
  · exact .pure _
  · exact .pure _

theorem skip_safe : Safe A skip := .modify fun r => List.drop_subset 1 r.tokens

theorem sees_safe (tokens : List Token) : Safe A (sees tokens) := by
  refine peek_safe.bind fun token => ?_
  cases token with
  | some token => exact .pure _
  | none => exact .pure _

theorem accept_safe (token : Token) : Safe A (accept token) :=
  (sees_safe [token]).bind fun _ => .ite (skip_safe.bind fun _ => .pure _) (.pure _)

theorem expect_safe (hA : A .malformed) (token : Token) : Safe A (expect token) := by
  unfold expect
  refine (accept_safe token).bind fun found => ?_
  exact .ite (.pure _) (.throw hA)

/-! ## What stands before a node -/

theorem anchor?_safe : Safe A anchor? := by
  refine peek_safe.bind fun token => ?_
  split
  · exact skip_safe.bind fun _ => .pure _
  · exact .pure _

theorem tag?_safe : Safe A tag? := by
  refine peek_safe.bind fun token => ?_
  split
  · exact skip_safe.bind fun _ => .pure _
  · exact .pure _

theorem properties_safe : Safe A properties := by
  refine anchor?_safe.bind fun anchor => ?_
  cases anchor with
  | some name => exact tag?_safe.bind fun _ => .pure _
  | none =>
    refine tag?_safe.bind fun tag => ?_
    cases tag with
    | some tag => exact anchor?_safe.bind fun _ => .pure _
    | none => exact .pure _

theorem spelled_safe (hA : A .malformed) (tag : Option Text × Text) : Safe A (spelled tag) := by
  unfold spelled
  split
  · exact .pure _
  · refine .get_bind fun r _ => ?_
    split
    · exact .pure _
    · exact .throw hA

theorem reserve_safe : Safe A reserve := by
  refine .get_bind fun r hr => ?_
  refine Safe.bind (.set ?_) fun _ => .pure _
  exact hr

theorem place_safe (number : Nat) (node : Node) : Safe A (place number node) := by
  refine Safe.bind (.modify ?_) fun _ => .pure _
  exact fun r => List.Subset.refl r.tokens

theorem add_safe (node : Node) : Safe A (add node) := reserve_safe.bind fun number => place_safe number node

theorem mapping_safe (tag : Tag) (entries : List (Nat × Nat)) : Safe A (mapping tag entries) := by
  refine .get_bind fun r hr => ?_
  refine Safe.bind (.set ?_) fun _ => .pure _
  exact hr

theorem declare_safe (hA : A .malformed) (number : Nat) (name : Text) : Safe A (declare number name) := by
  refine .get_bind fun r hr => ?_
  exact .ite (.throw hA) (.set hr)

theorem refer_safe (hA : A .malformed) (name : Text) : Safe A (refer name) := by
  refine .get_bind fun r _ => ?_
  split
  · exact .pure _
  · exact .throw hA

theorem unwritten_safe (hA : A .malformed) (isBare : Bool) (tag : Option Text) : Safe A (unwritten isBare tag) :=
  .ite (.throw hA) (.pure _)

theorem absent_safe : Safe A absent := add_safe _

/-! ## Nodes -/

/-- the parts of reading nodes, with some fuel -/
structure SafeNodes (A : Fault → Prop) (fuel : Nat) : Prop where
  node : ∀ block flush, Safe A (node block flush fuel)
  blockItems : Safe A (blockItems fuel)
  flushItems : Safe A (flushItems fuel)
  blockEntries : Safe A (blockEntries fuel)
  flowPair : ∀ stop, Safe A (flowPair stop fuel)
  flowItems : ∀ first, Safe A (flowItems first fuel)
  flowEntries : ∀ first, Safe A (flowEntries first fuel)

theorem node_safe (hA : A .malformed) {fuel : Nat} (ih : SafeNodes A fuel) (block flush : Bool) :
    Safe A (node block flush (fuel + 1)) := by
  unfold Read.node
  refine peek_safe.bind fun token => ?_
  split
  · exact skip_safe.bind fun _ => refer_safe hA _
  · refine properties_safe.bind fun properties => ?_
    obtain ⟨anchor, tag⟩ := properties
    refine Safe.bind ?_ fun tag => peek_safe.bind fun first => reserve_safe.bind fun number => ?_
    · cases tag with
      | none => exact .pure _
      | some tag => exact (spelled_safe hA tag).map some
    · have hplace : ∀ content, Safe A (place number content) := place_safe number
      have hunwritten : ∀ isBare, Safe A (unwritten isBare tag >>= place number) := fun isBare =>
        (unwritten_safe hA isBare tag).bind hplace
      cases anchor
      case' some name => refine (declare_safe hA number name).bind fun _ => ?_
      -- what the node holds, by the token it begins with
      all_goals
        split
        · exact skip_safe.bind fun _ => (Safe.pure _).bind hplace
        · exact skip_safe.bind fun _ => ((ih.flowItems true).map _).bind hplace
        · exact skip_safe.bind fun _ => (ih.flowEntries true).bind fun _ => (mapping_safe _ _).bind hplace
        · exact .ite ((ih.flushItems.map _).bind hplace) (hunwritten _)
        · exact .ite (skip_safe.bind fun _ => (ih.blockItems.map _).bind hplace) (hunwritten _)
        · exact .ite (skip_safe.bind fun _ => ih.blockEntries.bind fun _ => (mapping_safe _ _).bind hplace)
            (hunwritten _)
        · exact hunwritten _

theorem blockItems_safe (hA : A .malformed) {fuel : Nat} (ih : SafeNodes A fuel) : Safe A (blockItems (fuel + 1)) := by
  unfold Read.blockItems
  refine (accept_safe _).bind fun found => .ite ?_ ?_
  · have hrest : ∀ item, Safe A (do pure (item :: (← blockItems fuel)) : Read (List Nat)) := fun item =>
      ih.blockItems.bind fun _ => .pure _
    exact (sees_safe _).bind fun _ => .ite (absent_safe.bind hrest) ((ih.node true false).bind hrest)
  · exact (expect_safe hA _).bind fun _ => .pure _

theorem flushItems_safe {fuel : Nat} (ih : SafeNodes A fuel) : Safe A (flushItems (fuel + 1)) := by
  unfold Read.flushItems
  refine (accept_safe _).bind fun found => .ite ?_ (.pure _)
  have hrest : ∀ item, Safe A (do pure (item :: (← flushItems fuel)) : Read (List Nat)) := fun item =>
    ih.flushItems.bind fun _ => .pure _
  exact (sees_safe _).bind fun _ => .ite (absent_safe.bind hrest) ((ih.node true false).bind hrest)

theorem blockEntries_safe (hA : A .malformed) {fuel : Nat} (ih : SafeNodes A fuel) :
    Safe A (blockEntries (fuel + 1)) := by
  unfold Read.blockEntries
  refine (accept_safe _).bind fun found => .ite ?_ ?_
  · have hrest : ∀ key value, Safe A (do pure ((key, value) :: (← blockEntries fuel)) : Read (List (Nat × Nat))) :=
      fun key value => ih.blockEntries.bind fun _ => .pure _
    have hvalue : ∀ key, Safe A (do
        let value ← if ← accept .value then
            (if ← sees [.key, .value, .blockEnd] then absent else node true true fuel) else absent
        pure ((key, value) :: (← blockEntries fuel))) := by
      intro key
      refine (accept_safe _).bind fun _ => .ite ?_ (absent_safe.bind (hrest key))
      exact (sees_safe _).bind fun _ => Safe.bind (.ite absent_safe (ih.node true true)) (hrest key)
    exact (sees_safe _).bind fun _ => .ite (absent_safe.bind hvalue) ((ih.node true true).bind hvalue)
  · exact (expect_safe hA _).bind fun _ => .pure _

theorem flowPair_safe {fuel : Nat} (ih : SafeNodes A fuel) (stop : Token) : Safe A (flowPair stop (fuel + 1)) := by
  unfold Read.flowPair
  have hvalue : ∀ key : Nat, Safe A (do
      let value ← if ← accept .value then
          (if ← sees [.separator, stop] then absent else node false false fuel) else absent
      pure (key, value)) := by
    intro key
    refine (accept_safe _).bind fun _ => .ite ?_ (absent_safe.bind fun _ => .pure _)
    exact (sees_safe _).bind fun _ => Safe.bind (.ite absent_safe (ih.node false false)) fun _ => .pure _
  exact (sees_safe _).bind fun _ => .ite (absent_safe.bind hvalue) ((ih.node false false).bind hvalue)

theorem flowItems_safe (hA : A .malformed) {fuel : Nat} (ih : SafeNodes A fuel) (first : Bool) :
    Safe A (flowItems first (fuel + 1)) := by
  unfold Read.flowItems
  have hrest : ∀ item, Safe A (do pure (item :: (← flowItems false fuel)) : Read (List Nat)) := fun item =>
    (ih.flowItems false).bind fun _ => .pure _
  have hitem : Safe A (do
      if ← accept .key then
        let pair ← flowPair .flowSequenceEnd fuel
        let item ← add (← mapping .mapping [pair])
        pure (item :: (← flowItems false fuel))
      else if ← accept .flowSequenceEnd then pure []
      else
        let item ← node false false fuel
        pure (item :: (← flowItems false fuel))) := by
    refine (accept_safe _).bind fun _ => .ite ?_ ?_
    · exact (ih.flowPair _).bind fun _ => (mapping_safe _ _).bind fun _ => (add_safe _).bind hrest
    · exact (accept_safe _).bind fun _ => .ite (.pure _) ((ih.node false false).bind hrest)
  refine (accept_safe _).bind fun _ => .ite (.pure _) ?_
  exact .ite hitem ((expect_safe hA _).bind fun _ => hitem)

theorem flowEntries_safe (hA : A .malformed) {fuel : Nat} (ih : SafeNodes A fuel) (first : Bool) :
    Safe A (flowEntries first (fuel + 1)) := by
  unfold Read.flowEntries
  have hrest : ∀ entry, Safe A (do pure (entry :: (← flowEntries false fuel)) : Read (List (Nat × Nat))) := fun entry =>
    (ih.flowEntries false).bind fun _ => .pure _
  have hentry : Safe A (do
      if ← accept .key then
        let pair ← flowPair .flowMappingEnd fuel
        pure (pair :: (← flowEntries false fuel))
      else if ← accept .flowMappingEnd then pure []
      else
        let key ← node false false fuel
        let value ← absent
        pure ((key, value) :: (← flowEntries false fuel))) := by
    refine (accept_safe _).bind fun _ => .ite ?_ ?_
    · exact (ih.flowPair _).bind hrest
    · refine (accept_safe _).bind fun _ => .ite (.pure _) ?_
      exact (ih.node false false).bind fun key => absent_safe.bind fun value => hrest (key, value)
  refine (accept_safe _).bind fun _ => .ite (.pure _) ?_
  exact .ite hentry ((expect_safe hA _).bind fun _ => hentry)

theorem safeNodes (hA : A .malformed) (fuel : Nat) : SafeNodes A fuel := by
  induction fuel with
  | zero =>
    exact ⟨fun _ _ => .throw hA, .throw hA, .throw hA, .throw hA, fun _ => .throw hA, fun _ => .throw hA,
      fun _ => .throw hA⟩
  | succ fuel ih =>
    exact ⟨node_safe hA ih, blockItems_safe hA ih, flushItems_safe ih, blockEntries_safe hA ih, flowPair_safe ih,
      flowItems_safe hA ih, flowEntries_safe hA ih⟩

/-! ## Documents -/

theorem directives_safe (hA : A .malformed) (versioned : Bool) (fuel : Nat) : Safe A (directives versioned fuel) := by
  induction fuel generalizing versioned with
  | zero => exact .throw hA
  | succ fuel ih =>
    unfold directives
    refine peek_safe.bind fun token => ?_
    split
    · exact skip_safe.bind fun _ => .ite ((Safe.throw hA).bind fun _ => ih true) (ih true)
    · rename_i name stem
      refine skip_safe.bind fun _ => .get_bind fun r hr => ?_
      have hset : Safe A (do
          set { r with handles := (name, stem) :: r.handles }
          directives versioned fuel) := Safe.bind (.set hr) fun _ => ih versioned
      exact .ite ((Safe.throw hA).bind fun _ => hset) hset
    · exact skip_safe.bind fun _ => ih versioned
    · exact .modify fun r => List.Subset.refl r.tokens

theorem content_safe (hA : A .malformed) (fuel : Nat) : Safe A (content fuel) := by
  refine peek_safe.bind fun token => ?_
  split
  all_goals first
    | exact absent_safe
    | exact (safeNodes hA fuel).node true false

theorem heading_safe (hA : A .malformed) (fuel : Nat) : Safe A (heading fuel) := by
  refine Safe.bind (.modify ?_) fun _ => (directives_safe hA false fuel).bind fun _ => expect_safe hA _
  exact fun r => List.Subset.refl r.tokens

theorem endings_safe (fuel : Nat) : Safe A (endings fuel) := by
  induction fuel with
  | zero => exact .pure _
  | succ fuel ih => exact (accept_safe _).bind fun _ => .ite ih (.pure _)

theorem document_safe (hA : A .malformed) (fuel : Nat) : Safe A (document fuel) := by
  have hbare : ∀ r : Reader, ({ r with handles := usualHandles } : Reader).tokens ⊆ r.tokens := fun r =>
    List.Subset.refl r.tokens
  unfold document
  refine peek_safe.bind fun first => ?_
  split
  · exact .pure _
  · split
    all_goals first
      | refine (heading_safe hA fuel).bind fun _ => (content_safe hA fuel).bind fun root => ?_
      | refine (Safe.modify hbare).bind fun _ => ((safeNodes hA fuel).node true false).bind fun root => ?_
    -- behind the root only the end may come
    all_goals
      refine (endings_safe fuel).bind fun _ => peek_safe.bind fun token => ?_
      split
      · exact .pure _
      · exact (heading_safe hA fuel).bind fun _ => .throw hA

end

end Read

/-- **Why a text has no document**: it stops, something in it keeps it from being read on, or it breaks a rule. -/
theorem Document.ofText_error {t : Text} {stop : Option Fault} {f : Fault} (h : Document.ofText t stop = .error f) :
    stop = some f ∨ Blocks t f ∧ f ≠ .unfinished := by
  let A : Fault → Prop := fun f => stop = some f ∨ Blocks t f ∧ f ≠ .unfinished
  have hsafe := Read.document_safe (A := A) (Or.inr ⟨.malformed, by simp⟩) (3 * (Token.ofText t stop).length + 3)
    ⟨Token.ofText t stop, [], [], #[], #[]⟩ fun f hf => Token.ofText_unreadable hf
  unfold Document.ofText at h
  simp only at h
  split at h
  · rename_i heq
    rw [heq] at hsafe
    rwa [← Except.error.inj h]
  · simp at h
  · simp at h

end Componentry.Yaml
