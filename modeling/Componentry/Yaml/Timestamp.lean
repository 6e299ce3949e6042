/-
Dates and times of day: their spelling, which of them exist, and how they are written.

A date is `2020-01-02`. A time follows it after `T` or blanks, with seconds and perhaps fractions of them, and may end
in its distance from universal time. As a plain scalar a date needs two digits for month and day if no time follows.
-/
import Componentry.Yaml.Character
import Componentry.Yaml.Fault
import Componentry.Decimal.Digits

namespace Componentry.Yaml

/-- a day -/
structure Date where
  year : Nat
  month : Nat
  day : Nat
  deriving DecidableEq

/-- a time of day, with its minutes ahead of universal time if they are known -/
structure Clock where
  hour : Nat
  minute : Nat
  second : Nat
  micro : Nat
  offset : Option Int
  deriving DecidableEq

/-- a day, or a time on it -/
structure Timestamp where
  date : Date
  clock : Option Clock
  deriving DecidableEq

namespace Timestamp

/-! ## Reading -/

/-- a number of between `least` and `most` digits in front, and what follows it -/
def number? (least most : Nat) (t : Text) : Option (Nat × Text) :=
  let d := (t.takeWhile Text.isDigit).take most
  if least ≤ d.length then some (Digits.value 10 d, t.drop d.length) else none

/-- a number after a sign, and what follows it -/
def after? (sign : Char) (least most : Nat) (t : Text) : Option (Nat × Text) :=
  match t with
  | c :: rest => if c = sign then number? least most rest else none
  | [] => none

/-- the millionths that digits after a point write; more than six digits do not matter -/
def micros (t : Text) : Nat := Digits.value 10 (t.take 6 ++ List.replicate (6 - t.length) '0')

/-- the distance from universal time after its sign: hours, and perhaps minutes -/
def span? (t : Text) : Option Nat :=
  match number? 1 2 t with
  | some (hours, []) => some (hours * 60)
  | some (hours, rest) =>
    match after? ':' 2 2 rest with
    | some (minutes, []) => some (hours * 60 + minutes)
    | _ => none
  | none => none

/-- the end of a time: nothing, or after any blanks `Z` or a signed distance from universal time -/
def offset? (t : Text) : Option (Option Int) :=
  if t = [] then some none
  else match t.dropWhile isSpace with
    | ['Z'] => some (some 0)
    | '+' :: rest => (span? rest).map fun n => some (n : Int)
    | '-' :: rest => (span? rest).map fun n => some (-(n : Int))
    | _ => none

/-- the digits after a point, if there is one, and what follows them -/
def fraction (t : Text) : Text × Text :=
  match t with
  | '.' :: rest => (rest.takeWhile Text.isDigit, rest.dropWhile Text.isDigit)
  | _ => ([], t)

/-- a time of day after what separates it from the date -/
def clock? (t : Text) : Option Clock :=
  match number? 1 2 t with
  | none => none
  | some (hour, rest) =>
    match after? ':' 2 2 rest with
    | none => none
    | some (minute, rest) =>
      match after? ':' 2 2 rest with
      | none => none
      | some (second, rest) =>
        let (part, rest) := fraction rest
        (offset? rest).map fun offset => ⟨hour, minute, second, micros part, offset⟩

/-- what follows the `T` or the blanks between a date and a time -/
def separated? (t : Text) : Option Text :=
  match t with
  | 'T' :: rest | 't' :: rest => some rest
  | c :: rest => if isSpace c then some (rest.dropWhile isSpace) else none
  | [] => none

/-- the date or time that a text spells, whether it exists or not -/
def read? (t : Text) : Option Timestamp :=
  match number? 4 4 t with
  | none => none
  | some (year, rest) =>
    match after? '-' 1 2 rest with
    | none => none
    | some (month, rest) =>
      match after? '-' 1 2 rest with
      | none => none
      | some (day, []) => some ⟨⟨year, month, day⟩, none⟩
      | some (day, rest) =>
        (separated? rest).bind fun rest => (clock? rest).map fun clock => ⟨⟨year, month, day⟩, some clock⟩

/-- whether a plain scalar is a date or time -/
def isSpelling (t : Text) : Bool :=
  match read? t with
  | some ⟨_, some _⟩ => true
  | some ⟨_, none⟩ => t.length = 10
  | none => false

/-! ## Which dates and times exist -/

/-- whether a year has 366 days -/
def isLeap (year : Nat) : Bool := year % 4 = 0 && (year % 100 ≠ 0 || year % 400 = 0)

/-- the number of days in a month -/
def daysIn (year month : Nat) : Nat :=
  if month = 2 then (if isLeap year then 29 else 28)
  else if [4, 6, 9, 11].contains month then 30
  else 31

/-- what is wrong with a date -/
def dateFault? (d : Date) : Option TimeFault :=
  if d.year = 0 then some .year
  else if d.month = 0 ∨ 12 < d.month then some .month
  else if d.day = 0 ∨ daysIn d.year d.month < d.day then some .day
  else none

/-- what is wrong with a distance from universal time -/
def offsetFault? (c : Clock) : Option TimeFault :=
  match c.offset with
  | some minutes => if 24 * 60 ≤ minutes.natAbs then some (.offset minutes) else none
  | none => none

/-- what is wrong with a time of day -/
def clockFault? (c : Clock) : Option TimeFault :=
  if 23 < c.hour then some .hour
  else if 59 < c.minute then some .minute
  else if 59 < c.second then some .second
  else none

/-- what is wrong with a date or time; the distance from universal time is looked at first -/
def fault? (t : Timestamp) : Option TimeFault :=
  match t.clock with
  | none => dateFault? t.date
  | some c => offsetFault? c <|> dateFault? t.date <|> clockFault? c

/-- the date or time that a text spells, if it exists; one line break at its end does not matter -/
def ofText (t : Text) : Except Fault Timestamp :=
  let spelling := match t.reverse with
    | '\n' :: before => before.reverse
    | _ => t
  match read? spelling with
  | none => .error .noTime
  | some time =>
    match time.fault? with
    | some f => .error (.time f)
    | none => .ok time

/-! ## The same time -/

/-- the days from the beginning of year 1 to a date -/
def dayNumber (d : Date) : Nat :=
  let past := d.year - 1
  past * 365 + past / 4 - past / 100 + past / 400 +
    (List.range (d.month - 1)).foldl (fun days m => days + daysIn d.year (m + 1)) 0 + d.day

/-- the millionths of seconds from the beginning of year 1 to a time, by its own clock -/
def localMicros (d : Date) (c : Clock) : Int :=
  (((dayNumber d * 24 + c.hour) * 60 + c.minute) * 60 + c.second) * 1000000 + c.micro

/-- whether two timestamps are the same moment; one with a known distance from universal time is never the same as
one without -/
def same (s t : Timestamp) : Bool :=
  match s.clock, t.clock with
  | none, none => s.date = t.date
  | some c, some d =>
    match c.offset, d.offset with
    | none, none => localMicros s.date c = localMicros t.date d
    | some m, some n => localMicros s.date c - m * 60000000 = localMicros t.date d - n * 60000000
    | _, _ => false
  | _, _ => false

/-! ## Writing -/

/-- the distance from universal time, as it stands in messages -/
def zoneText (minutes : Int) : Text :=
  if minutes = 0 then "datetime.timezone.utc".toList
  else "datetime.timezone(".toList ++ spanText minutes ++ [')']

/-- a timestamp, as it stands in messages: seconds and their fractions only as far as they are needed -/
def quoted (t : Timestamp) : Text :=
  let commas (parts : List Text) : Text := Text.join ", ".toList parts
  let date := [t.date.year, t.date.month, t.date.day].map Text.ofNat
  match t.clock with
  | none => "datetime.date(".toList ++ commas date ++ [')']
  | some c =>
    let parts := if c.micro ≠ 0 then [c.second, c.micro] else if c.second ≠ 0 then [c.second] else []
    let zone := match c.offset with
      | some minutes => ["tzinfo=".toList ++ zoneText minutes]
      | none => []
    "datetime.datetime(".toList ++ commas (date ++ ([c.hour, c.minute] ++ parts).map Text.ofNat ++ zone) ++ [')']

/-- digits of a number, zeros in front -/
def padded (digits n : Nat) : Text :=
  let d := Text.ofNat n
  List.replicate (digits - d.length) '0' ++ d

/-- a timestamp as plain text -/
def text (t : Timestamp) : Text :=
  let date := padded 4 t.date.year ++ ['-'] ++ padded 2 t.date.month ++ ['-'] ++ padded 2 t.date.day
  match t.clock with
  | none => date
  | some c =>
    let fraction := if c.micro = 0 then [] else '.' :: padded 6 c.micro
    let zone := match c.offset with
      | none => []
      | some m => (if m < 0 then '-' else '+') :: padded 2 (m.natAbs / 60) ++ [':'] ++ padded 2 (m.natAbs % 60)
    date ++ [' '] ++ padded 2 c.hour ++ [':'] ++ padded 2 c.minute ++ [':'] ++ padded 2 c.second ++ fraction ++ zone

end Timestamp

end Componentry.Yaml
