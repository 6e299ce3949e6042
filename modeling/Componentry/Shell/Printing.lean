/-
Printing words: escapes after a backslash, and formats whose directives take words one after the other.
-/
import Componentry.Shell.Arithmetic

namespace Componentry.Shell.Printing

/-- the character a letter after a backslash stands for -/
def control? : Char → Option Char
  | 'a' => some '\x07'
  | 'b' => some '\x08'
  | 'e' => some '\x1b'
  | 'f' => some '\x0c'
  | 'n' => some '\n'
  | 'r' => some '\r'
  | 't' => some '\t'
  | 'v' => some '\x0b'
  | '\\' => some '\\'
  | _ => none

/-- whether a character is an octal digit -/
def isOctal (c : Char) : Bool := '0' ≤ c && c ≤ '7'

/-- the character of up to three octal digits, and what follows them -/
def octal (t : Text) : Char × Text :=
  let digits := (t.take 3).takeWhile isOctal
  (Char.ofNat (digits.foldl (fun n c => n * 8 + (c.toNat - '0'.toNat)) 0 % 256), t.drop digits.length)

/-- the character after a backslash and what follows it; a backslash that means nothing stands for itself -/
def escape (t : Text) : Char × Text :=
  match t with
  | [] => ('\\', [])
  | c :: rest =>
    match control? c with
    | some d => (d, rest)
    | none => if isOctal c then octal t else ('\\', t)

/-- a text with its escapes read, and whether printing goes on after it: `\c` ends it. A zero in front of octal digits
does not count as one of them. The fuel is the length of the text. -/
def unescape : Nat → Text → Text × Bool
  | 0, _ => ([], true)
  | _, [] => ([], true)
  | _ + 1, '\\' :: 'c' :: _ => ([], false)
  | fuel + 1, '\\' :: '0' :: rest =>
    let (c, rest) := octal rest
    let (more, on) := unescape fuel rest
    (c :: more, on)
  | fuel + 1, '\\' :: rest =>
    let (c, rest) := escape rest
    let (more, on) := unescape fuel rest
    (c :: more, on)
  | fuel + 1, c :: rest =>
    let (more, on) := unescape fuel rest
    (c :: more, on)

/-- words with blanks between them, escapes read, up to one that ends printing -/
def spoken : List Text → Text × Bool
  | [] => ([], true)
  | w :: rest =>
    match unescape w.length w with
    | (t, false) => (t, false)
    | (t, true) =>
      if rest.isEmpty then (t, true)
      else let (more, on) := spoken rest; (t ++ ' ' :: more, on)

/-- the words of an echo, one line unless the first is `-n` -/
def echoed (words : List Text) : Text :=
  let (words, newline) := match words with
    | ['-', 'n'] :: rest => (rest, false)
    | words => (words, true)
  let (t, on) := spoken words
  t ++ if newline && on then ['\n'] else []

/-! ## Directives -/

/-- how a directive lays its value out -/
structure Layout where
  left : Bool
  plus : Bool
  space : Bool
  alternative : Bool
  zero : Bool
  width : Nat
  precision : Option Nat

/-- a text filled up to the width of a layout -/
def Layout.fill (l : Layout) (t : Text) : Text :=
  let blanks := List.replicate (l.width - t.length) ' '
  if l.left then t ++ blanks else blanks ++ t

/-- a number filled up with zeros after its sign where the layout says so -/
def Layout.fillNumber (l : Layout) (zeros : Bool) (sign digits : Text) : Text :=
  if zeros && l.zero && !l.left then sign ++ List.replicate (l.width - sign.length - digits.length) '0' ++ digits
  else l.fill (sign ++ digits)

/-- the sign of a number that has one -/
def Layout.sign (l : Layout) (negative : Bool) : Text :=
  if negative then ['-'] else if l.plus then ['+'] else if l.space then [' '] else []

/-- digits, at least as many as the precision asks for -/
def Layout.digits (l : Layout) (n : Nat) (t : Text) : Text :=
  if n = 0 && l.precision = some 0 then [] else List.replicate (l.precision.getD 1 - t.length) '0' ++ t

/-- a whole number as a directive writes it -/
def Layout.whole (l : Layout) (directive : Char) (n : Int) : Text :=
  let bits := Expression.bits n
  match directive with
  | 'o' =>
    let t := l.digits bits (Nat.toDigits 8 bits)
    l.fillNumber l.precision.isNone [] (if l.alternative && t.head? ≠ some '0' then '0' :: t else t)
  | 'u' => l.fillNumber l.precision.isNone [] (l.digits bits (Nat.toDigits 10 bits))
  | 'x' =>
    l.fillNumber l.precision.isNone (if l.alternative && bits ≠ 0 then ['0', 'x'] else [])
      (l.digits bits (Nat.toDigits 16 bits))
  | 'X' =>
    l.fillNumber l.precision.isNone (if l.alternative && bits ≠ 0 then ['0', 'X'] else [])
      ((l.digits bits (Nat.toDigits 16 bits)).map Char.toUpper)
  | _ => l.fillNumber l.precision.isNone (l.sign (n < 0)) (l.digits n.natAbs (Nat.toDigits 10 n.natAbs))

/-- a decimal fraction, as a numerator over a power of ten, at the start of a text, and what follows it -/
def fraction (t : Text) : Option (Bool × Nat × Nat × Text) :=
  let t := t.dropWhile Expression.isSpace
  let (negative, t) := match t with
    | '-' :: rest => (true, rest)
    | '+' :: rest => (false, rest)
    | t => (false, t)
  let whole := t.takeWhile Char.isDigit
  let rest := t.drop whole.length
  let (part, rest) := match rest with
    | '.' :: after => let part := after.takeWhile Char.isDigit; (part, after.drop part.length)
    | rest => ([], rest)
  if whole.isEmpty && part.isEmpty then none
  else some (negative, Expression.valueOf 10 whole * Nat.pow 10 part.length + part.foldl (fun n c =>
    n * 10 + (c.toNat - '0'.toNat)) 0, part.length, rest)

/-- a fraction with as many places as the layout asks for, a half going to the even neighbour -/
def Layout.fixed (l : Layout) (negative : Bool) (numerator scale : Nat) : Text :=
  let places := l.precision.getD 6
  let unit := Nat.pow 10 scale
  let scaled := numerator * Nat.pow 10 places
  let q := scaled / unit
  let r := scaled % unit
  let q := if 2 * r > unit || (2 * r = unit && q % 2 = 1) then q + 1 else q
  let digits := Nat.toDigits 10 q
  let digits := List.replicate (places + 1 - digits.length) '0' ++ digits
  let body := digits.take (digits.length - places) ++
    if places = 0 then [] else '.' :: digits.drop (digits.length - places)
  l.fillNumber true (l.sign negative) body

/-! ## Formats -/

/-- what a format has printed: the text, the words that are left, the problems found, and how printing ended if it did
not go on to the end of the format -/
structure Progress where
  out : Text
  words : List Text
  problems : List Text
  ended : Option Nat

/-- the next word, if any, and the progress without it -/
def Progress.take (p : Progress) : Option Text × Progress := (p.words.head?, { p with words := p.words.tail })

/-- the progress with a text printed -/
def Progress.print (p : Progress) (t : Text) : Progress := { p with out := p.out ++ t }

/-- the progress with a problem of a word -/
def Progress.report (p : Progress) (word words : Text) : Progress := { p with problems := p.problems ++ [word ++ words] }

/-- the problem of a word that is no number, or only starts with one -/
def Progress.check (p : Progress) (word : Text) (rest : Option Text) : Progress :=
  match rest with
  | none => if word.isEmpty then p else p.report word ": expected numeric value".toList
  | some [] => p
  | some _ => p.report word ": not completely converted".toList

/-- the next word as a whole number; a quote in front of a character stands for its number -/
def Progress.number (p : Progress) : Int × Progress :=
  match p.take with
  | (none, p) => (0, p)
  | (some ('"' :: c :: _), p) | (some ('\'' :: c :: _), p) => (c.toNat, p)
  | (some w, p) =>
    let read := Expression.signed? w
    ((read.map (·.1)).getD 0, p.check w (read.map (·.2)))

/-- a number in a directive, or the next word for a star, and what follows -/
def measure (p : Progress) (t : Text) : Option Int × Text × Progress :=
  match t with
  | '*' :: rest => let (n, p) := p.number; (some n, rest, p)
  | t =>
    let digits := t.takeWhile Char.isDigit
    (if digits.isEmpty then none else some (Expression.valueOf 10 digits), t.drop digits.length, p)

/-- the value of a directive in its layout -/
def Progress.direct (p : Progress) (l : Layout) (directive : Char) : Progress :=
  let cut (t : Text) : Text := match l.precision with | some n => t.take n | none => t
  match directive with
  | 's' =>
    let (w, p) := p.take
    p.print (l.fill (cut (w.getD [])))
  | 'b' =>
    let (w, p) := p.take
    let w := w.getD []
    let (t, on) := unescape w.length w
    let p := p.print (l.fill (cut t))
    if on then p else { p with ended := some 0 }
  | 'c' =>
    let (w, p) := p.take
    p.print (l.fill [(w.getD []).headD '\x00'])
  | 'f' | 'F' =>
    let (w, p) := p.take
    let w := w.getD []
    match fraction w with
    | some (negative, numerator, scale, rest) =>
      (p.check w (some rest)).print (l.fixed negative numerator scale)
    | none => (p.check w none).print (l.fixed false 0 0)
  | directive =>
    let (n, p) := p.number
    p.print (l.whole directive n)

/-- a directive after its percent sign, and what follows it; `start` is the text from the sign on -/
def directive (p : Progress) (start t : Text) : Progress × Text :=
  let flags := t.takeWhile fun c => "#-+ 0".toList.contains c
  let t := t.drop flags.length
  let (width, t, p) := measure p t
  let (precision, t, p) := match t with
    | '.' :: rest =>
      let (n, rest, p) := measure p rest
      (some (n.getD 0), rest, p)
    | t => (none, t, p)
  match t with
  | [] => ({ p with problems := p.problems ++ ["missing format character".toList], ended := some 2 }, [])
  | c :: rest =>
    if "sbcfFdiouxX".toList.contains c then
      let width := width.getD 0
      let precision := match precision with
        | some n => if n < 0 then none else some n.toNat
        | none => none
      let l : Layout := ⟨flags.contains '-' || width < 0, flags.contains '+', flags.contains ' ', flags.contains '#',
        flags.contains '0', width.natAbs, precision⟩
      (p.direct l c, rest)
    else
      let spelled := start.take (start.length - rest.length)
      ({ p.report spelled ": invalid directive".toList with ended := some 2 }, [])

/-- a format with its directives filled from the words; the fuel is the length of the format -/
def filled (p : Progress) : Nat → Text → Progress
  | 0, _ => p
  | _, [] => p
  | fuel + 1, '\\' :: rest => let (c, rest) := escape rest; filled (p.print [c]) fuel rest
  | fuel + 1, '%' :: '%' :: rest => filled (p.print ['%']) fuel rest
  | fuel + 1, '%' :: rest =>
    let (p, rest) := directive p ('%' :: rest) rest
    if p.ended.isSome then p else filled p fuel rest
  | fuel + 1, c :: rest => filled (p.print [c]) fuel rest

/-- a format used as often as its words last; the fuel is the number of words -/
def repeated (p : Progress) (format : Text) : Nat → Progress
  | 0 => filled p format.length format
  | fuel + 1 =>
    let after := filled p format.length format
    if after.ended.isSome || after.words.isEmpty || after.words.length = p.words.length then after
    else repeated after format fuel

/-- what a format prints with words, the problems found, and the status that follows -/
def printed (format : Text) (words : List Text) : Text × List Text × Nat :=
  let p := repeated ⟨[], words, [], none⟩ format words.length
  (p.out, p.problems, p.ended.getD 0 |> fun n => if n = 0 && !p.problems.isEmpty then 1 else n)

end Componentry.Shell.Printing
