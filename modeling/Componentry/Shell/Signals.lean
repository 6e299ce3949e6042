/-
Signals: their names, what they do to a process that has not asked for them, and the words for a process that ended by
one.
-/
import Componentry.Shell.State

namespace Componentry.Shell.Signals

/-- one more than the greatest signal -/
def count : Nat := 65

/-- the name of a signal, a number where it has none; zero stands for the end of a shell -/
def nameOf (n : Nat) : Text :=
  let named := ["EXIT", "HUP", "INT", "QUIT", "ILL", "TRAP", "ABRT", "BUS", "FPE", "KILL", "USR1", "SEGV", "USR2", "PIPE",
    "ALRM", "TERM", "16", "CHLD", "CONT", "STOP", "TSTP", "TTIN", "TTOU", "URG", "XCPU", "XFSZ", "VTALRM", "PROF", "WINCH",
    "IO", "PWR", "SYS", "32", "33", "RTMIN"]
  match named[n]? with
  | some name => name.toList
  | none =>
    if n < 50 then "RTMIN+".toList ++ Text.ofNat (n - 34)
    else if n < 64 then "RTMAX-".toList ++ Text.ofNat (64 - n)
    else "RTMAX".toList

/-- the signal that a number or a name in any case stands for, not below a least one -/
def ofText? (least : Nat) (t : Text) : Option Nat :=
  match number? t with
  | some n => if t.all Char.isDigit && least ≤ n && n < count then some n else none
  | none => ((List.range count).drop least).find? fun n => nameOf n = t.map Char.toUpper

/-- whether a process goes on as before when it gets a signal that it has not asked for -/
def isHarmless (n : Nat) : Bool := [0, 17, 18, 19, 20, 21, 22, 23, 28].contains n

/-- whether a process can ask for a signal -/
def canBeCaught (n : Nat) : Bool := n ≠ 9 && n ≠ 19

/-- the words for a process that ended by a signal, if anything is said about it -/
def words? (n : Nat) : Option Text :=
  let described : List (Nat × String) :=
    [(1, "Hangup"), (3, "Quit"), (4, "Illegal instruction"), (5, "Trace/breakpoint trap"), (6, "Aborted"),
      (7, "Bus error"), (8, "Floating point exception"), (9, "Killed"), (10, "User defined signal 1"),
      (11, "Segmentation fault"), (12, "User defined signal 2"), (14, "Alarm clock"), (15, "Terminated"),
      (16, "Stack fault"), (24, "CPU time limit exceeded"), (25, "File size limit exceeded"),
      (26, "Virtual timer expired"), (27, "Profiling timer expired"), (29, "I/O possible"), (30, "Power failure"),
      (31, "Bad system call")]
  if n = 2 || n = 13 then none
  else some (match described.lookup n with
    | some words => words.toList
    | none =>
      if n < 34 then "Unknown signal ".toList ++ Text.ofNat n else "Real-time signal ".toList ++ Text.ofNat (n - 34))

/-! ## Sending -/

/-- how `kill` is called -/
def usage : Text :=
  "Usage: kill [-s sigspec | -signum | -sigspec] [pid | job]... or\nkill -l [exitstatus]".toList

/-- the options of `kill`: whether signals are listed, the signal that is sent, and the other words -/
def options : List Text → Run (Bool × Option Nat × List Text)
  | ['-', '-'] :: rest => return (false, none, rest)
  | ['-', 'l'] :: rest => do
    let (_, signal, words) ← options rest
    return (true, signal, words)
  | ('-' :: 's' :: c :: name) :: rest => do
    match ofText? 0 (c :: name) with
    | none => fail ("invalid signal number or name: ".toList ++ c :: name)
    | some n =>
      let (list, signal, words) ← options rest
      return (list, signal.or (some n), words)
  | [['-', 's']] => fail "No arg for -s option".toList
  | ['-', 's'] :: name :: rest => do
    match ofText? 0 name with
    | none => fail ("invalid signal number or name: ".toList ++ name)
    | some n =>
      let (list, signal, words) ← options rest
      return (list, signal.or (some n), words)
  | ('-' :: c :: _) :: _ => fail ("Illegal option -".toList ++ [c])
  | words => return (false, none, words)

/-- sends signals to processes: each one waits until the process looks for it -/
def send (signal : Nat) : List Text → Run Nat
  | [] => return 0
  | w :: rest => do
    if w.head? = some '%' then fail ("No such job: ".toList ++ w)
    let n ← Shell.count w
    let s ← get
    if s.process = n || s.elders.contains n then
      set { s with due := s.due ++ [(n, signal)] }
      send signal rest
    else if s.background.isSome && n = s.process + 1 then send signal rest
    else
      complain "No such process\n".toList
      let _ ← send signal rest
      return 1

def kill (words : List Text) : Run Nat := do
  let (list, signal, words) ← match words with
    | ('-' :: name) :: rest =>
      match ofText? 0 name with
      | some n => pure (false, some n, rest)
      | none => options words
    | _ => options words
  if list then
    match words with
    | [] =>
      let _ ← write 1 ("0\n".toList ++ ((List.range count).drop 1).flatMap fun n => nameOf n ++ ['\n'])
      return 0
    | w :: _ =>
      let n ← Shell.count w
      let n := if n > 128 then n - 128 else n
      if n = 0 || n ≥ count then fail ("invalid signal number or exit status: ".toList ++ w)
      let _ ← write 1 (nameOf n ++ ['\n'])
      return 0
  else if words.isEmpty then fail usage
  else send (signal.getD 15) words

/-! ## Catching -/

/-- `trap`: what is run when a signal comes, or when the shell is over -/
def trap (words : List Text) : Run Nat := do
  match words with
  | [] =>
    let s ← get
    let shown := (List.range count).filterMap fun n => (s.traps.lookup n).map fun action =>
      "trap -- ".toList ++ singleQuoted action ++ ' ' :: nameOf n ++ ['\n']
    let _ ← write 1 shown.flatten
    return 0
  | first :: rest =>
    let isNumber := first.all Char.isDigit && (ofText? 0 first).isSome
    let (action, names) := if rest.isEmpty || isNumber then (none, first :: rest)
      else (if first = ['-'] then none else some first, rest)
    for name in names do
      match ofText? 0 name with
      | none =>
        let _ ← write 2 ("trap: ".toList ++ name ++ ": bad trap\n".toList)
        return 1
      | some n => modify fun s => s.catching n action
    return 0

end Componentry.Shell.Signals
