/-
Why a YAML text has no value.

A text that breaks the rules of the language is malformed, whatever the rule, and its bytes can be no text at all. A
text that keeps them can still hold a
scalar that writes no value of its kind: a character beyond the last one, a date that does not exist, a number without
digits, a scalar that stands for itself. The last of these has no end, as nesting that the call stack is too short for.
-/
import Componentry.Text.Quoted
import Componentry.Text.Utf8

namespace Componentry.Yaml

/-- why a date or time of day does not exist -/
inductive TimeFault where
  | year
  | month
  | day
  | hour
  | minute
  | second
  | offset (minutes : Int)
  deriving DecidableEq

/-- why a text has no value; it is unfinished where it ends inside a token -/
inductive Fault where
  | malformed
  | unfinished
  | undecodable (fault : Utf8.Fault)
  | noCharacter (code : Nat)
  | noFlag (word : Text)
  | noTime
  | composedTime
  | noDigits
  | noWhole (base : Nat) (text : Text)
  | tooManyDigits (count : Nat)
  | noDecimal (text : Text)
  | tooManySixtieths
  | endless
  | time (fault : TimeFault)
  deriving DecidableEq

/-- a span of minutes as days and seconds, the seconds never negative -/
def spanText (minutes : Int) : Text :=
  let seconds := minutes * 60
  let days := Int.fdiv seconds 86400
  let rest := Int.fmod seconds 86400
  let parts := (if days = 0 then [] else ["days=".toList ++ Text.ofInt days]) ++
    (if rest = 0 then [] else ["seconds=".toList ++ Text.ofInt rest])
  "datetime.timedelta(".toList ++ (if parts = [] then ['0'] else Text.join ", ".toList parts) ++ [')']

/-- the wording of a fault in a date or time -/
def TimeFault.message : TimeFault → Text
  | .year => "year 0 is out of range".toList
  | .month => "month must be in 1..12".toList
  | .day => "day is out of range for month".toList
  | .hour => "hour must be in 0..23".toList
  | .minute => "minute must be in 0..59".toList
  | .second => "second must be in 0..59".toList
  | .offset minutes =>
    "offset must be a timedelta strictly between -timedelta(hours=24) and timedelta(hours=24), not ".toList ++
    spanText minutes ++ ['.']

/-- the greatest number of characters of a quoted text in the wording about whole numbers -/
def quotationLimit : Nat := 200

/-- the wording of a fault -/
def Fault.message : Fault → Text
  | .malformed => "malformed".toList
  | .unfinished => "unfinished".toList
  | .undecodable f => f.message
  | .noCharacter code =>
    if code < 2147483648 then "chr() arg not in range(0x110000)".toList
    else "Python int too large to convert to C int".toList
  | .noFlag word => Text.quoted word
  | .noTime => "'NoneType' object has no attribute 'groupdict'".toList
  | .composedTime => "expected string or bytes-like object, got 'list'".toList
  | .noDigits => "string index out of range".toList
  | .noWhole base text =>
    "invalid literal for int() with base ".toList ++ Text.ofNat base ++ ": ".toList ++
    (Text.quoted text).take quotationLimit
  | .tooManyDigits count =>
    "Exceeds the limit (4300 digits) for integer string conversion: value has ".toList ++ Text.ofNat count ++
    " digits; use sys.set_int_max_str_digits() to increase the limit".toList
  | .noDecimal text => "could not convert string to float: ".toList ++ Text.quoted text
  | .tooManySixtieths => "int too large to convert to float".toList
  | .endless => "maximum recursion depth exceeded".toList
  | .time fault => fault.message

end Componentry.Yaml
