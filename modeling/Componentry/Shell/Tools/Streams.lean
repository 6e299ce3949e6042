/-
Commands that read streams of text and write others: whole files, their first and last lines, counts, orders and
exchanges of characters.
-/
import Componentry.Shell.Arithmetic
import Componentry.Shell.Tools.Basic

namespace Componentry.Shell.Tools

/-- a message about a file that names it first -/
def about (path : Text) (cause : FileTree.Cause) : Text :=
  spelled path ++ ": ".toList ++ because cause

/-! ## Whole files -/

/-- a number in a column -/
def column (width n : Nat) : Text :=
  let digits := Text.ofNat n
  List.replicate (width - digits.length) ' ' ++ digits

/-- the pieces of a text that end with a newline each, the last one perhaps without -/
def pieces (t : Text) : List Text :=
  let ls := Text.splitAt '\n' t
  ls.dropLast.map (· ++ ['\n']) ++ if ls.getLast? = some [] then [] else ls.getLast?.toList

/-- lines with their numbers in front, those without content left out of the count if `filled` is set -/
def numbered (filled : Bool) (n : Nat) : List Text → List Text
  | [] => []
  | l :: rest =>
    if filled && l = ['\n'] then l :: numbered filled n rest
    else (column 6 n ++ '\t' :: l) :: numbered filled (n + 1) rest

def cat : Tool := withOptions 1 ⟨"AbeEnstTuv", "", [("number", 'n'), ("show-ends", 'E')], true⟩ fun r => do
  let mut code := 0
  let mut all : Text := []
  let changed := r.options.any fun o => o.1 ≠ 'u' && o.1 ≠ 'v'
  for path in (if r.operands.isEmpty then [['-']] else r.operands) do
    match ← inputOf path with
    | .ok t => if changed then all := all ++ t else print t
    | .error cause =>
      warn (about path cause)
      code := 1
  if changed then
    let ends := r.has 'A' || r.has 'e' || r.has 'E'
    let tabs := r.has 'A' || r.has 't' || r.has 'T'
    let squeezed := if r.has 's' then
        (pieces all).foldl (fun (kept : List Text) l =>
          if l = ['\n'] && kept.getLast? = some ['\n'] then kept else kept ++ [l]) []
      else pieces all
    let shown := squeezed.map fun l => l.flatMap fun c =>
      if c = '\n' then (if ends then ['$', '\n'] else ['\n']) else if c = '\t' && tabs then ['^', 'I'] else [c]
    let empty (l : Text) : Text := if l = ['$', '\n'] then ['\n'] else l
    let lines := if r.has 'b' then numbered true 1 (shown.map empty)
      else if r.has 'n' then numbered false 1 shown
      else shown
    print lines.flatten
  return code

def tee : Tool := withOptions 1 ⟨"aip", "", [("append", 'a')], true⟩ fun r => do
  let t := (← readAll 0).getD []
  let mut code := 0
  for path in r.operands do
    match ← placeFor path with
    | .ok l =>
      change fun tree => match tree.get? l with
        | some (.file content) => tree.set l (.file (if r.has 'a' then content ++ bytesOf t else bytesOf t))
        | _ => tree.set l (.file (bytesOf t))
    | .error cause =>
      warn (about path cause)
      code := 1
  print t
  return code

/-! ## First and last lines -/

/-- a count of lines or characters, from the start or from the end -/
structure Measure where
  chars : Bool
  signed : Option Char
  count : Nat

/-- a number with a sign, and perhaps a unit, in front of a count -/
def measure? (chars : Bool) (t : Text) : Option Measure :=
  let (sign, t) := match t with
    | '-' :: rest => (some '-', rest)
    | '+' :: rest => (some '+', rest)
    | t => (none, t)
  (number? t).map fun n => ⟨chars, sign, n⟩

/-- words in which a count that is written as an option of its own stands after `-n` -/
def plainCounts (signs : List Char) : List Text → List Text
  | (s :: c :: more) :: rest =>
    if signs.contains s && c.isDigit then
      ['-', 'n'] :: (if s = '+' then s :: c :: more else c :: more) :: rest
    else (s :: c :: more) :: rest
  | words => words

/-- writes a part of each input, with a title where there are several -/
def partsOfEach (r : Request) (m : Measure) (part : Measure → Text → Text) : Run Nat := do
  let titled := (r.operands.length > 1 || r.has 'v') && !r.has 'q'
  let mut code := 0
  let mut first := true
  for path in (if r.operands.isEmpty then [['-']] else r.operands) do
    let title (broken : Bool) : Text :=
      if titled then
        (if broken then ['\n'] else []) ++ "==> ".toList ++
          (if path = ['-'] then "standard input".toList else path) ++ " <==\n".toList
      else []
    match ← inputOf path with
    | .ok t =>
      print (title (!first) ++ part m t)
      first := false
    | .error .isDirectory =>
      print (title (!first))
      warn ("error reading ".toList ++ quoted path ++ ": ".toList ++ because .isDirectory)
      first := false
      code := 1
    | .error cause =>
      warn ("cannot open ".toList ++ quoted path ++ " for reading: ".toList ++ because cause)
      code := 1
  return code

/-- the measure that the options of a request ask for -/
def measured (r : Request) (act : Measure → Run Nat) : Run Nat := do
  let (chars, value) := match r.options.reverse.find? fun o => o.1 = 'c' || o.1 = 'n' with
    | some (c, v) => (c == 'c', v)
    | none => (false, "10".toList)
  match measure? chars value with
  | some m => act m
  | none =>
    let unit := if chars then "bytes" else "lines"
    warn ("invalid number of ".toList ++ unit.toList ++ ": ".toList ++ marked value)
    return 1

def head : Tool := fun words =>
  withOptions 1 ⟨"qvz", "cn", [("lines", 'n'), ("bytes", 'c'), ("quiet", 'q')], true⟩
    (fun r => measured r fun m => partsOfEach r m fun m t =>
      if m.chars then (if m.signed = some '-' then t.take (t.length - m.count) else t.take m.count)
      else
        let ls := pieces t
        (if m.signed = some '-' then ls.take (ls.length - m.count) else ls.take m.count).flatten)
    (plainCounts ['-'] words)

def tail : Tool := fun words =>
  withOptions 1 ⟨"fFqvz", "cns", [("lines", 'n'), ("bytes", 'c'), ("quiet", 'q')], true⟩
    (fun r => measured r fun m => partsOfEach r m fun m t =>
      if m.chars then (if m.signed = some '+' then t.drop (m.count - 1) else t.drop (t.length - m.count))
      else
        let ls := pieces t
        (if m.signed = some '+' then ls.drop (m.count - 1) else ls.drop (ls.length - m.count)).flatten)
    (plainCounts ['-', '+'] words)

/-! ## Counts -/

/-- the number of words between blanks -/
def wordCount (t : Text) : Nat :=
  let blank (c : Char) : Bool := c == ' ' || ('\t' ≤ c && c ≤ '\r')
  (t.zip (' ' :: t)).countP fun (c, before) => !blank c && blank before

def wc : Tool := withOptions 1 ⟨"clLmw", "", [("lines", 'l'), ("words", 'w'), ("bytes", 'c'), ("chars", 'm')], true⟩
  fun r => do
    let every := r.options.isEmpty
    let length (t : Text) : Nat := ((linesOf t).map List.length).foldl max 0
    let counts (t : Text) : List Nat :=
      (if every || r.has 'l' then [(t.filter (· = '\n')).length] else []) ++
      (if every || r.has 'w' then [wordCount t] else []) ++
      (if r.has 'm' then [(gathered t).length] else []) ++
      (if every || r.has 'c' then [t.length] else []) ++
      (if r.has 'L' then [length t] else [])
    let columns := (counts []).length
    let paths := if r.operands.isEmpty then [[]] else r.operands
    let isInput (path : Text) : Bool := path.isEmpty || path = ['-']
    let s ← get
    let fromFile := match (s.channel? 0).bind (s.channels[·]?) with
      | some (.file ..) => true
      | _ => false
    let wide := paths.any fun path =>
      if isInput path then !fromFile
      else match s.tree.lookSpelled (gathered path) with
        | .ok .dir => true
        | _ => false
    let sizes := paths.map fun path =>
      if isInput path then (((s.channel? 0).bind (s.channels[·]?)).bind s.readable).getD [] |>.length
      else match s.tree.lookSpelled (gathered path) with
        | .ok (.file content) => content.length
        | _ => 0
    let width := if columns = 1 && r.operands.length ≤ 1 then 1 else if wide then 7
      else (Text.ofNat (sizes.foldl (· + ·) 0)).length
    let line (ns : List Nat) (name : Text) : Text :=
      Text.join [' '] (ns.map (column width)) ++ (if name.isEmpty then [] else ' ' :: name) ++ ['\n']
    let mut sums := List.replicate columns 0
    let mut code := 0
    for path in paths do
      match ← inputOf (if path.isEmpty then ['-'] else path) with
      | .ok t =>
        print (line (counts t) path)
        sums := List.zipWith (· + ·) sums (counts t)
      | .error cause =>
        warn (about path cause)
        if cause = .isDirectory then print (line (counts []) path)
        code := 1
    if r.operands.length > 1 then print (line sums "total".toList)
    return code

/-! ## Orders -/

/-- a key to sort by: fields from one to another, and how they are compared -/
structure SortKey where
  first : Nat
  last : Option Nat
  numeric : Bool
  reversed : Bool
  folded : Bool

/-- the key that a word spells, with the comparison of the command where it names none -/
def sortKey? (r : Request) (t : Text) : Option SortKey :=
  let digits := t.takeWhile Char.isDigit
  let rest := t.drop digits.length
  let skip := rest.dropWhile fun c => c = '.' || c.isDigit
  let flags := skip.takeWhile (· ≠ ',')
  let after := (skip.drop flags.length).drop 1
  let lastDigits := after.takeWhile Char.isDigit
  let lastFlags := (after.drop lastDigits.length).dropWhile fun c => c = '.' || c.isDigit
  let all := flags ++ lastFlags
  (number? digits).map fun n =>
    ⟨n, if lastDigits.isEmpty then none else number? lastDigits,
      if all.isEmpty then r.has 'n' || r.has 'g' else all.contains 'n' || all.contains 'g',
      if all.isEmpty then r.has 'r' else all.contains 'r',
      if all.isEmpty then r.has 'f' else all.contains 'f'⟩

/-- the fields of a line: between separators, or runs of blanks with what follows them -/
def sortFields (separator : Option Char) (line : Text) : List Text :=
  match separator with
  | some c => Text.splitAt c line
  | none =>
    let rec go (sofar : Text) (blank : Bool) : Text → List Text
      | [] => [sofar.reverse]
      | c :: rest =>
        let isBlank := c = ' ' || c = '\t'
        if isBlank && !blank && !sofar.isEmpty then sofar.reverse :: go [c] true rest
        else go (c :: sofar) isBlank rest
    go [] true line

/-- the part of a line that a key compares -/
def SortKey.part (k : SortKey) (separator : Option Char) (line : Text) : Text :=
  let fields := (sortFields separator line).drop (k.first - 1)
  let fields := match k.last with | some n => fields.take (n + 1 - k.first) | none => fields
  match separator with
  | some c => Text.join [c] fields
  | none => fields.flatten

/-- a decimal number at the start of a text, in units of a fixed small fraction -/
def decimal (t : Text) : Int :=
  let t := t.dropWhile fun c => c = ' ' || c = '\t'
  let (negative, t) := match t with | '-' :: rest => (true, rest) | t => (false, t)
  let whole := t.takeWhile Char.isDigit
  let part := match t.drop whole.length with
    | '.' :: rest => (rest.takeWhile Char.isDigit).take 12
    | _ => []
  let digits := whole ++ part ++ List.replicate (12 - part.length) '0'
  let n : Int := digits.foldl (fun n c => n * 10 + (c.toNat - '0'.toNat)) 0
  if negative then -n else n

/-- how two lines compare by a key -/
def SortKey.compare (k : SortKey) (separator : Option Char) (a b : Text) : Ordering :=
  let (a, b) := (k.part separator a, k.part separator b)
  let fold (t : Text) : Text := if k.folded then t.map Char.toUpper else t
  let order := if k.numeric then Ord.compare (decimal a) (decimal b)
    else if fold a = fold b then .eq else if Text.before (fold a) (fold b) then .lt else .gt
  if k.reversed then order.swap else order

def sort : Tool := withOptions 2
  ⟨"bcCdfghimMnrRsuVz", "kotSTy", [("reverse", 'r'), ("unique", 'u'), ("numeric-sort", 'n'), ("output", 'o'),
    ("key", 'k'), ("field-separator", 't'), ("ignore-case", 'f'), ("check", 'c')], true⟩ fun r => do
    let mut all : List Text := []
    let mut broken := false
    for path in (if r.operands.isEmpty then [['-']] else r.operands) do
      if !broken then
        match ← inputOf path with
        | .ok t => all := all ++ linesOf t
        | .error .isDirectory =>
          warn ("read failed: ".toList ++ spelled path ++ ": ".toList ++ because .isDirectory)
          broken := true
        | .error cause =>
          warn ("cannot read: ".toList ++ spelled path ++ ": ".toList ++ because cause)
          broken := true
    if broken then return 2
    let separator := (r.value? 't').bind List.head?
    let keys := (r.options.filter fun o => o.1 = 'k').filterMap fun o => sortKey? r o.2
    let whole : SortKey := ⟨1, none, r.has 'n' || r.has 'g', r.has 'r', r.has 'f'⟩
    let bare : SortKey := ⟨1, none, false, r.has 'r', false⟩
    let byKeys (a b : Text) : Ordering :=
      (if keys.isEmpty then [whole] else keys).foldl (fun o k => o.then (k.compare separator a b)) .eq
    let order (a b : Text) : Ordering :=
      if r.has 'u' || r.has 's' then byKeys a b else (byKeys a b).then (bare.compare none a b)
    if r.has 'c' || r.has 'C' then
      let wrong := (all.zip (all.drop 1)).findIdx? fun (a, b) =>
        order a b = .gt || (r.has 'u' && order a b = .eq)
      match wrong with
      | none => return 0
      | some i =>
        if r.has 'c' then
          warn ((r.operands.head?.getD ['-']) ++ ':' :: Text.ofNat (i + 2) ++ ": disorder: ".toList ++
            (all[i + 1]?).getD [])
        return 1
    else
      let sorted := all.mergeSort fun a b => order a b != .gt
      let kept := if r.has 'u' then
          sorted.foldl (fun (kept : List Text) l =>
            match kept.getLast? with
            | some k => if byKeys k l = .eq then kept else kept ++ [l]
            | none => [l]) []
        else sorted
      match r.value? 'o' with
      | none =>
        print (ofLines kept)
        return 0
      | some path =>
        match ← placeFor path with
        | .ok l =>
          change (·.set l (.file (bytesOf (ofLines kept))))
          return 0
        | .error cause =>
          warn ("open failed: ".toList ++ spelled path ++ ": ".toList ++ because cause)
          return 2

/-- runs of lines that count as equal, each with its first line and its length -/
def runs (same : Text → Text → Bool) : List Text → List (Text × Nat)
  | [] => []
  | l :: rest =>
    match runs same rest with
    | (first, n) :: more => if same l first then (l, n + 1) :: more else (l, 1) :: (first, n) :: more
    | [] => [(l, 1)]

def uniq : Tool := withOptions 1
  ⟨"cdDiuz", "fsw", [("count", 'c'), ("repeated", 'd'), ("unique", 'u'), ("ignore-case", 'i')], true⟩ fun r => do
    match ← inputOf (r.operands.headD ['-']) with
    | .error cause =>
      warn (about (r.operands.headD []) cause)
      return 1
    | .ok t =>
      let fold (t : Text) : Text := if r.has 'i' then t.map Char.toUpper else t
      let kept := (runs (fun a b => fold a = fold b) (linesOf t)).filter fun (_, n) =>
        (!r.has 'd' || n > 1) && (!r.has 'u' || n = 1)
      let out := ofLines (kept.map fun (l, n) => (if r.has 'c' then column 7 n ++ [' '] else []) ++ l)
      match r.operands.tail.head? with
      | none =>
        print out
        return 0
      | some path =>
        match ← placeFor path with
        | .ok l =>
          change (·.set l (.file (bytesOf out)))
          return 0
        | .error cause =>
          warn (about path cause)
          return 1

/-! ## Characters and fields -/

/-- the characters of a class -/
def classOf (name : Text) : List Char :=
  let all := (List.range 256).map Char.ofNat
  let upper := all.filter Char.isUpper
  let lower := all.filter Char.isLower
  let digit := all.filter Char.isDigit
  match String.ofList name with
  | "upper" => upper
  | "lower" => lower
  | "digit" => digit
  | "alpha" => upper ++ lower
  | "alnum" => digit ++ upper ++ lower
  | "space" => ['\t', '\n', '\x0b', '\x0c', '\r', ' ']
  | "blank" => ['\t', ' ']
  | "punct" => all.filter fun c => 33 ≤ c.toNat && c.toNat < 127 && !c.isAlphanum
  | "cntrl" => all.filter fun c => c.toNat < 32 || c.toNat = 127
  | "print" => all.filter fun c => 32 ≤ c.toNat && c.toNat < 127
  | "graph" => all.filter fun c => 33 ≤ c.toNat && c.toNat < 127
  | "xdigit" => digit ++ "ABCDEFabcdef".toList
  | _ => []

/-- the characters that a text lists, with escapes read; those that come from one are marked. The fuel is its length. -/
def unescaped : Nat → Text → List (Char × Bool)
  | 0, _ => []
  | _, [] => []
  | fuel + 1, '\\' :: c :: rest =>
    match c with
    | 'n' => ('\n', true) :: unescaped fuel rest
    | 't' => ('\t', true) :: unescaped fuel rest
    | 'r' => ('\r', true) :: unescaped fuel rest
    | 'a' => ('\x07', true) :: unescaped fuel rest
    | 'b' => ('\x08', true) :: unescaped fuel rest
    | 'f' => ('\x0c', true) :: unescaped fuel rest
    | 'v' => ('\x0b', true) :: unescaped fuel rest
    | c =>
      if '0' ≤ c && c ≤ '7' then
        let digits := ((c :: rest).take 3).takeWhile fun c => '0' ≤ c && c ≤ '7'
        let n := digits.foldl (fun n c => n * 8 + (c.toNat - '0'.toNat)) 0
        (Char.ofNat (n % 256), true) :: unescaped fuel ((c :: rest).drop digits.length)
      else (c, true) :: unescaped fuel rest
  | fuel + 1, c :: rest => (c, false) :: unescaped fuel rest

/-- the characters of a set of `tr`, with ranges and classes spelled out; the fuel is the number of signs -/
def setOf : Nat → List (Char × Bool) → List Char
  | 0, _ => []
  | _, [] => []
  | fuel + 1, ('[', false) :: (':', false) :: rest =>
    let name := (rest.takeWhile fun s => s.1.isAlpha).map (·.1)
    match rest.drop name.length with
    | (':', false) :: (']', false) :: more => classOf name ++ setOf fuel more
    | _ => '[' :: setOf fuel ((':', false) :: rest)
  | fuel + 1, (a, _) :: ('-', false) :: (b, mark) :: rest =>
    if a ≤ b then (List.range (b.toNat - a.toNat + 1)).map (fun n => Char.ofNat (a.toNat + n)) ++ setOf fuel rest
    else a :: '-' :: setOf fuel ((b, mark) :: rest)
  | fuel + 1, (c, _) :: rest => c :: setOf fuel rest

/-- the set that a word spells -/
def charsOf (t : Text) : List Char := let signs := unescaped t.length t; setOf signs.length signs

/-- runs of the same character of a set made one character -/
def squeezed (set : Char → Bool) : Text → Text
  | a :: b :: rest => if a = b && set a then squeezed set (b :: rest) else a :: squeezed set (b :: rest)
  | t => t

def tr : Tool := withOptions 1
  ⟨"cCdst", "", [("delete", 'd'), ("squeeze-repeats", 's'), ("complement", 'c')], false⟩ fun r => do
    let complement := r.has 'c' || r.has 'C'
    match r.operands with
    | [] => misused 1 "missing operand".toList
    | first :: more =>
      let listed := charsOf first
      let chosen (c : Char) : Bool := listed.contains c != complement
      let second := more.head?.map charsOf
      if second.isNone && !r.has 'd' && !r.has 's' then
        warn ("missing operand after ".toList ++ marked first)
        say "Two strings must be given when translating.".toList
        say (← hint)
        return 1
      else
        let t := (← readAll 0).getD []
        let all := if complement then (List.range 256).map Char.ofNat |>.filter chosen else listed
        let last := (second.getD []).getLastD ' '
        let change (c : Char) : Char :=
          match all.reverse.findIdx? (· = c) with
          | none => c
          | some i => ((second.getD [])[all.length - 1 - i]?).getD last
        let out := if r.has 'd' then
            let kept := t.filter fun c => !chosen c
            if r.has 's' then squeezed ((second.getD []).contains ·) kept else kept
          else match second with
            | some set =>
              let changed := if set.isEmpty then t else t.map change
              if r.has 's' then squeezed (set.contains ·) changed else changed
            | none => squeezed chosen t
        print out
        return 0

/-- the ranges of a list such as `1,3-5,7-` -/
def rangesOf (t : Text) : List (Nat × Option Nat) :=
  (Text.splitAt ',' t).filterMap fun piece =>
    let a := piece.takeWhile (· ≠ '-')
    if a.length = piece.length then (number? a).map fun n => (n, some n)
    else
      let b := piece.drop (a.length + 1)
      some ((number? a).getD 1, if b.isEmpty then none else number? b)

def cut : Tool := withOptions 1
  ⟨"nsz", "bcdf", [("delimiter", 'd'), ("fields", 'f'), ("characters", 'c'), ("bytes", 'b')], true⟩ fun r => do
    let chosen (ranges : List (Nat × Option Nat)) (n : Nat) : Bool :=
      ranges.any fun (a, b) => a ≤ n && match b with | some b => n ≤ b | none => true
    let kept {α : Type} (ranges : List (Nat × Option Nat)) (l : List α) : List α :=
      ((l.zip (List.range l.length)).filter fun (_, i) => chosen ranges (i + 1)).map (·.1)
    match r.value? 'f', (r.value? 'c').or (r.value? 'b') with
    | none, none => misused 1 "you must specify a list of bytes, characters, or fields".toList
    | some fields, _ =>
      let d := ((r.value? 'd').bind List.head?).getD '\t'
      eachInput r.operands 1 about fun _ t =>
        print (ofLines ((linesOf t).filterMap fun l =>
          if !l.contains d then (if r.has 's' then none else some l)
          else some (Text.join [d] (kept (rangesOf fields) (Text.splitAt d l)))))
    | none, some chars =>
      eachInput r.operands 1 about fun _ t =>
        print (ofLines ((linesOf t).map fun l => kept (rangesOf chars) l))

def rev : Tool := withOptions 1 ⟨"", "", [], true⟩ fun r =>
  eachInput r.operands 1 (fun path cause => "cannot open ".toList ++ path ++ ": ".toList ++ because cause) fun _ t =>
    print ((pieces t).flatMap fun l => if l.getLast? = some '\n' then l.dropLast.reverse ++ ['\n'] else l.reverse)

def tac : Tool := withOptions 1 ⟨"", "", [], true⟩ fun r =>
  eachInput r.operands 1 (fun path cause =>
    "failed to open ".toList ++ quoted path ++ " for reading: ".toList ++ because cause) fun _ t =>
    print (pieces t).reverse.flatten

/-! ## Words -/

/-- a text without an ending, unless it is nothing else -/
def withoutEnding (ending t : Text) : Text :=
  if ending.length < t.length && ending.reverse.isPrefixOf t.reverse then t.take (t.length - ending.length) else t

def basename : Tool := withOptions 1 ⟨"az", "s", [("multiple", 'a'), ("suffix", 's')], false⟩ fun r => do
  let several := r.has 'a' || r.has 's'
  match r.operands with
  | [] => misused 1 "missing operand".toList
  | first :: rest =>
    if several then
      print (ofLines (r.operands.map fun w => withoutEnding ((r.value? 's').getD []) (baseName w)))
      return 0
    else match rest with
      | [] =>
        print (baseName first ++ ['\n'])
        return 0
      | [ending] =>
        print (withoutEnding ending (baseName first) ++ ['\n'])
        return 0
      | _ :: extra :: _ => misused 1 ("extra operand ".toList ++ marked extra)

def dirname : Tool := withOptions 1 ⟨"z", "", [], true⟩ fun r => do
  if r.operands.isEmpty then misused 1 "missing operand".toList
  else
    print (ofLines (r.operands.map dirName))
    return 0

def seq : Tool := fun words => do
  let rec split : List Text → Text × Bool × List Text
    | ['-', 's'] :: s :: rest => let (_, wide, left) := split rest; (s, wide, left)
    | ('-' :: 's' :: s) :: rest => let (_, wide, left) := split rest; (s, wide, left)
    | ['-', 'w'] :: rest => let (s, _, left) := split rest; (s, true, left)
    | rest => (['\n'], false, rest)
  let (separator, wide, operands) := split words
  let number (t : Text) : Option Int :=
    match Expression.signed? t with
    | some (n, []) => some n
    | _ => none
  match operands.find? fun w => (number w).isNone with
  | some w => misused 1 ("invalid floating point argument: ".toList ++ marked w)
  | none =>
    let go (first step last : Int) : Run Nat := do
      let count := if step > 0 then (last - first) / step + 1 else if step < 0 then (first - last) / (-step) + 1 else 0
      let ns := (List.range count.toNat).map fun (i : Nat) => Text.ofInt (first + step * (i : Int))
      let width := (ns.map List.length).foldl max 0
      let ns := if wide then ns.map fun n => List.replicate (width - n.length) '0' ++ n else ns
      if !ns.isEmpty then print (Text.join separator ns ++ ['\n'])
      return 0
    match operands.filterMap number with
    | [] => misused 1 "missing operand".toList
    | [last] => go 1 1 last
    | [first, last] => go first 1 last
    | [first, step, last] => go first step last
    | _ => misused 1 ("extra operand ".toList ++ marked (operands.getD 3 []))

end Componentry.Shell.Tools
