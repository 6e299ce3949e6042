/-
The moves of a verdict, made by any calls one after the other.

A call moves the verdict to a phase, or fails it. From a fresh verdict on, whatever is called:
- `Coherent`: the phase is the last one of the history, and a final phase stands nowhere but at its end;
- `history_prefix`: the history only grows;
- `call_of_final`, `call_of_open`: in a final phase every call is refused, and in any other none is. A refused move
  changes nothing. A refused failure does: it leaves its error, since that goes on record before the move is tried.

Main result: `refused_intact_iff`. A refused failure puts an error even on a verdict that is done (`refused_not_intact`).
-/
import Mathlib.Tactic
import Componentry.Verdict

namespace Componentry.Verdict

/-! ## Calls -/

/-- a call on a verdict: a move to a phase, or a failure -/
inductive Call where
  | advance (phase : Phase)
  | fail (message : Text) (path : Option Path)
  deriving DecidableEq

/-- the phase that a call asks for -/
def Call.target : Call → Phase
  | .advance p => p
  | .fail .. => .failed

/-- the verdict with the error of a call on record, if the call has one -/
def noting (v : Verdict) : Call → Verdict
  | .advance _ => v
  | .fail message path => v.withError message path

/-- the verdict after a call, and the refusal if the call is refused -/
def call (v : Verdict) : Call → Verdict × Option Finished
  | .advance p =>
    match v.advance p with
    | .ok moved => (moved, none)
    | .error refused => (v, some refused)
  | .fail message path => v.fail message path

/-- the verdict after some calls, refused or not -/
def after (calls : List Call) : Verdict := calls.foldl (fun v c => (v.call c).1) fresh

variable {v : Verdict} {c : Call}

/-- in a final phase a call is refused -/
theorem call_of_final (h : v.phase.isFinal = true) : v.call c = (v.noting c, some ⟨v.phase⟩) := by
  cases c with
  | advance p => simp [call, noting, advance, h]
  | fail message path => simp [call, noting, Verdict.fail, advance, withError, h]

/-- in any other phase it moves the verdict -/
theorem call_of_open (h : v.phase.isFinal = false) : v.call c = ((v.noting c).enter c.target, none) := by
  cases c with
  | advance p => simp [call, noting, advance, Call.target, h]
  | fail message path => simp [call, noting, Verdict.fail, advance, withError, Call.target, h]

@[simp] theorem noting_phase : (v.noting c).phase = v.phase := by cases c <;> rfl

@[simp] theorem noting_history : (v.noting c).history = v.history := by cases c <;> rfl

/-- a call is refused exactly in a final phase -/
theorem refused_iff : (v.call c).2.isSome = true ↔ v.phase.isFinal = true := by
  cases h : v.phase.isFinal with
  | true => simp [call_of_final h]
  | false => simp [call_of_open h]

/-- what a call would put on record is there already: nothing, or its error with the path -/
def Call.IsOnRecord (v : Verdict) : Call → Prop
  | .advance _ => True
  | .fail message path => v.error = some message ∧ v.errorPath = path

/-- noting the error of a call changes nothing exactly if it is on record -/
theorem noting_eq_iff : v.noting c = v ↔ c.IsOnRecord v := by
  cases c with
  | advance p => simp [noting, Call.IsOnRecord]
  | fail message path =>
    constructor
    · intro h
      have herror := congrArg Verdict.error h
      have hpath := congrArg Verdict.errorPath h
      exact ⟨herror.symm, hpath.symm⟩
    · rintro ⟨herror, hpath⟩
      simp only [noting, withError, ← herror, ← hpath]

/-! ## One call -/

/-- the phase is the last one of the history, and a final phase stands nowhere but at its end, so there is at most one -/
structure Coherent (v : Verdict) : Prop where
  last : v.history.getLast? = some v.phase
  inner : ∀ p ∈ v.history.dropLast, p.isFinal = false

theorem Coherent.fresh : Coherent fresh := ⟨rfl, by simp [Verdict.fresh]⟩

theorem Coherent.noting (h : Coherent v) (c : Call) : Coherent (v.noting c) :=
  ⟨by simpa using h.last, by simpa using h.inner⟩

theorem Coherent.enter (h : Coherent v) (hopen : v.phase.isFinal = false) (p : Phase) : Coherent (v.enter p) := by
  refine ⟨by simp [Verdict.enter], fun q hq => ?_⟩
  have hsplit : v.history.dropLast ++ [v.phase] = v.history := List.dropLast_append_getLast? _ h.last
  simp only [Verdict.enter, List.dropLast_concat] at hq
  rw [← hsplit, List.mem_append, List.mem_singleton] at hq
  rcases hq with hq | rfl
  · exact h.inner q hq
  · exact hopen

/-- a call keeps a verdict coherent -/
theorem Coherent.call (h : Coherent v) (c : Call) : Coherent (v.call c).1 := by
  cases hfinal : v.phase.isFinal with
  | true =>
    rw [call_of_final hfinal]
    exact h.noting c
  | false =>
    rw [call_of_open hfinal]
    exact (h.noting c).enter (by simpa using hfinal) c.target

theorem history_prefix_call (v : Verdict) (c : Call) : v.history <+: (v.call c).1.history := by
  cases hfinal : v.phase.isFinal with
  | true => simp [call_of_final hfinal]
  | false => simp [call_of_open hfinal, enter]

/-- an error is on record after a call exactly if there was one before, or the call is a failure -/
theorem error_call_eq_none (v : Verdict) (c : Call) :
    (v.call c).1.error = none ↔ v.error = none ∧ ∃ p, c = .advance p := by
  have hnoting : (v.call c).1.error = (v.noting c).error := by
    cases hfinal : v.phase.isFinal with
    | true => rw [call_of_final hfinal]
    | false =>
      rw [call_of_open hfinal]
      rfl
  rw [hnoting]
  cases c with
  | advance p => simp [noting]
  | fail message path => simp [noting, withError]

/-! ## Any calls -/

theorem after_append (calls more : List Call) :
    after (calls ++ more) = more.foldl (fun v c => (v.call c).1) (after calls) := List.foldl_append

theorem after_coherent (calls : List Call) : Coherent (after calls) := by
  induction calls using List.reverseRecOn with
  | nil => exact .fresh
  | append_singleton calls c ih =>
    rw [after_append]
    exact ih.call c

/-- the history only grows -/
theorem history_prefix (calls more : List Call) : (after calls).history <+: (after (calls ++ more)).history := by
  induction more using List.reverseRecOn with
  | nil => simp
  | append_singleton more c ih =>
    rw [← List.append_assoc, after_append (calls ++ more)]
    exact ih.trans (history_prefix_call _ c)

/-- there is no error exactly as long as no failure was called -/
theorem error_after_eq_none (calls : List Call) : (after calls).error = none ↔ ∀ c ∈ calls, ∃ p, c = .advance p := by
  induction calls using List.reverseRecOn with
  | nil => simp [after, fresh]
  | append_singleton calls c ih =>
    rw [after_append, List.foldl_cons, List.foldl_nil, error_call_eq_none, ih]
    simp [or_imp, forall_and]

/-- **Moves of a verdict.** Whatever is called from a fresh verdict on, it is coherent and its history only grows. A call
is refused exactly in a final phase, and else takes the verdict to the phase it asks for. A refused call leaves every
field but the error and its path, and leaves these too exactly if it is a move, or a failure that is on record already.
So a verdict that is done has no error exactly if no failure was ever called. -/
theorem refused_intact_iff (calls : List Call) :
    Coherent (after calls) ∧
    (∀ more, (after calls).history <+: (after (calls ++ more)).history) ∧
    (∀ c, ((after calls).call c).2.isSome = (after calls).phase.isFinal) ∧
    (∀ c, ((after calls).call c).2 = none → ((after calls).call c).1.phase = c.target) ∧
    (∀ c, ((after calls).call c).2.isSome = true →
      (∃ error path, ((after calls).call c).1 = { after calls with error := error, errorPath := path }) ∧
      (((after calls).call c).1 = after calls ↔ c.IsOnRecord (after calls))) ∧
    ((after calls).phase = .done → ((after calls).error = none ↔ ∀ c ∈ calls, ∃ p, c = .advance p)) := by
  refine ⟨after_coherent calls, history_prefix calls, fun c => Bool.eq_iff_iff.2 refused_iff, fun c hmoved => ?_,
    fun c hrefused => ?_, fun _ => error_after_eq_none calls⟩
  · cases hfinal : (after calls).phase.isFinal with
    | true => simp [call_of_final hfinal] at hmoved
    | false =>
      rw [call_of_open hfinal]
      rfl
  · rw [call_of_final (refused_iff.1 hrefused)]
    refine ⟨?_, noting_eq_iff⟩
    cases c with
    | advance p => exact ⟨_, _, rfl⟩
    | fail message path => exact ⟨some message, path, rfl⟩

/-- a failure is on record: the same one is refused and changes nothing, another one takes its place -/
theorem refused_intact_iff_failed_twice :
    let failure : Call := .fail "no index".toList none
    let v := after [.advance .validating, failure, .advance .done]
    v.history = [.collectingInput, .validating, .failed] ∧
      (v.call failure).2 = some ⟨.failed⟩ ∧ (v.call failure).1 = v ∧
      (v.call (.fail "no router".toList none)).1 ≠ v := by
  intro failure v
  obtain ⟨-, -, -, -, hrefused, -⟩ := refused_intact_iff [.advance .validating, failure, .advance .done]
  exact ⟨by decide, by decide, (hrefused failure (by decide)).2.2 ⟨rfl, rfl⟩,
    fun h => absurd ((hrefused _ (by decide)).2.1 h).1 (by decide)⟩

/-- a verdict that is done gets an error from a failure that is refused -/
theorem refused_not_intact :
    let v := after [.advance .done]
    let (w, refusal) := v.call (.fail "late".toList none)
    refusal = some ⟨.done⟩ ∧ w ≠ v ∧ w = after [.advance .done, .fail "late".toList none] ∧ w.phase = .done ∧
      w.error = some "late".toList := by
  decide

end Componentry.Verdict
