/-
Arithmetic in scripts: whole numbers of 64 bits that wrap around, variables by their names, and the operators with their
precedence.

`Expression.read` makes an expression of a text, and `Expression.value` evaluates it. The side of `&&`, `||` and `?` that
is not asked for is not evaluated.
-/
import Componentry.Shell.State

namespace Componentry.Shell

/-- the operators between two operands, a loose one after a tight one -/
inductive Operation where
  | times | over | modulo
  | plus | minus
  | left | right
  | less | atMost | greater | atLeast
  | same | differs
  | bothBits
  | oneBit
  | anyBit
  deriving DecidableEq

/-- how loosely an operator binds -/
def Operation.looseness : Operation → Nat
  | .times | .over | .modulo => 0
  | .plus | .minus => 1
  | .left | .right => 2
  | .less | .atMost | .greater | .atLeast => 3
  | .same | .differs => 4
  | .bothBits => 5
  | .oneBit => 6
  | .anyBit => 7

/-- the pieces of an expression -/
inductive Expression.Token where
  | number (n : Int)
  | name (t : Text)
  | operation (o : Operation)
  | assign (o : Option Operation)
  | mark (t : String)
  | unknown
  deriving DecidableEq

/-- an arithmetic expression -/
inductive Expression where
  | number (n : Int)
  | name (t : Text)
  | negative (e : Expression)
  | inverted (e : Expression)
  | flipped (e : Expression)
  | operation (o : Operation) (a b : Expression)
  | both (a b : Expression)
  | either (a b : Expression)
  | choice (condition yes no : Expression)
  | assign (name : Text) (o : Option Operation) (e : Expression)

namespace Expression

/-- a number among those of 64 bits -/
def wrap (n : Int) : Int := n.bmod (Nat.pow 2 64)

/-- the greatest of the numbers of 64 bits -/
def greatest : Nat := Nat.pow 2 63 - 1

/-- the value of a digit in bases up to sixteen -/
def digit? (c : Char) : Option Nat :=
  if c.isDigit then some (c.toNat - '0'.toNat)
  else if 'a' ≤ c && c ≤ 'f' then some (c.toNat - 'a'.toNat + 10)
  else if 'A' ≤ c && c ≤ 'F' then some (c.toNat - 'A'.toNat + 10)
  else none

/-- the digits of a base at the start of a text -/
def digits (base : Nat) (t : Text) : Text := t.takeWhile fun c => (digit? c).any (· < base)

/-- the value of digits in a base, no greater than the greatest number -/
def valueOf (base : Nat) (t : Text) : Nat := min greatest (t.foldl (fun n c => n * base + (digit? c).getD 0) 0)

/-- a number without a sign at the start of a text and what follows it: hexadecimal after `0x`, octal after another
zero, decimal otherwise; none where no digit stands -/
def numeral? (t : Text) : Option (Nat × Text) :=
  match t with
  | '0' :: x :: rest =>
    let hex := digits 16 rest
    if (x = 'x' || x = 'X') && !hex.isEmpty then some (valueOf 16 hex, rest.drop hex.length)
    else let octal := digits 8 t; some (valueOf 8 octal, t.drop octal.length)
  | t =>
    let decimal := digits 10 t
    if decimal.isEmpty then none else some (valueOf 10 decimal, t.drop decimal.length)

/-- whether a character is passed over in front of a number -/
def isSpace (c : Char) : Bool := c == ' ' || ('\t' ≤ c && c ≤ '\r')

/-- a number with blanks and a sign in front, and what follows it -/
def signed? (t : Text) : Option (Int × Text) :=
  match t.dropWhile isSpace with
  | '-' :: rest => (numeral? rest).map fun (n, left) => (-(n : Int), left)
  | '+' :: rest => (numeral? rest).map fun (n, left) => ((n : Int), left)
  | rest => (numeral? rest).map fun (n, left) => ((n : Int), left)

/-- the number a whole text is, blanks around it; an empty text is zero -/
def ofText? (t : Text) : Option Int :=
  match signed? t with
  | some (n, left) => if left.all isSpace then some n else none
  | none => if t.all isSpace then some 0 else none

/-! ## Reading -/

/-- the signs, the longest first -/
def signs : List (String × Token) :=
  [("<<=", .assign (some .left)), (">>=", .assign (some .right)),
    ("<<", .operation .left), (">>", .operation .right), ("<=", .operation .atMost), (">=", .operation .atLeast),
    ("==", .operation .same), ("!=", .operation .differs), ("&&", .mark "&&"), ("||", .mark "||"),
    ("+=", .assign (some .plus)), ("-=", .assign (some .minus)), ("*=", .assign (some .times)),
    ("/=", .assign (some .over)), ("%=", .assign (some .modulo)), ("&=", .assign (some .bothBits)),
    ("|=", .assign (some .anyBit)), ("^=", .assign (some .oneBit)),
    ("=", .assign none), ("+", .operation .plus), ("-", .operation .minus), ("*", .operation .times),
    ("/", .operation .over), ("%", .operation .modulo), ("<", .operation .less), (">", .operation .greater),
    ("&", .operation .bothBits), ("|", .operation .anyBit), ("^", .operation .oneBit), ("!", .mark "!"),
    ("~", .mark "~"), ("?", .mark "?"), (":", .mark ":"), ("(", .mark "("), (")", .mark ")")]

/-- the pieces of a text, up to a character that starts none; the fuel is the length of the text -/
def tokens : Nat → Text → List Token
  | 0, _ => []
  | _, [] => []
  | fuel + 1, c :: rest =>
    if c = ' ' || c = '\t' || c = '\n' then tokens fuel rest
    else if startsName c then
      let name := (c :: rest).takeWhile inName
      .name name :: tokens fuel ((c :: rest).drop name.length)
    else if c.isDigit then
      match numeral? (c :: rest) with
      | some (n, left) => .number n :: tokens fuel left
      | none => [.unknown]
    else
      match signs.find? fun s => s.1.toList.isPrefixOf (c :: rest) with
      | some (s, t) => t :: tokens fuel ((c :: rest).drop s.length)
      | none => [.unknown]

/-- a part of the tokens read as an expression, with those left, or the words for what is wrong -/
abbrev Reads := List Token → Except Text (Expression × List Token)

mutual

/-- an assignment, or an expression that is none -/
def assignment : Nat → Reads
  | 0, _ => .error "expecting primary".toList
  | fuel + 1, .name t :: .assign o :: rest => do
    let (e, left) ← assignment fuel rest
    return (.assign t o e, left)
  | fuel + 1, ts => conditional fuel ts

/-- a choice between two expressions, or an expression that is none -/
def conditional : Nat → Reads
  | 0, _ => .error "expecting primary".toList
  | fuel + 1, ts => do
    match ← disjunction fuel ts with
    | (c, .mark "?" :: rest) =>
      match ← assignment fuel rest with
      | (yes, .mark ":" :: rest) =>
        let (no, left) ← conditional fuel rest
        return (.choice c yes no, left)
      | _ => .error "expecting ':'".toList
    | other => return other

/-- operands of `||` -/
def disjunction : Nat → Reads
  | 0, _ => .error "expecting primary".toList
  | fuel + 1, ts => do
    match ← conjunction fuel ts with
    | (a, .mark "||" :: rest) =>
      let (b, left) ← disjunction fuel rest
      return (.either a b, left)
    | other => return other

/-- operands of `&&` -/
def conjunction : Nat → Reads
  | 0, _ => .error "expecting primary".toList
  | fuel + 1, ts => do
    let (first, rest) ← operand fuel ts
    match ← operations fuel 7 first rest with
    | (a, .mark "&&" :: rest) =>
      let (b, left) ← conjunction fuel rest
      return (.both a b, left)
    | other => return other

/-- the operators that bind no looser than a bound, from the left, after a first operand -/
def operations : Nat → Nat → Expression → Reads
  | 0, _, _, _ => .error "expecting primary".toList
  | fuel + 1, bound, a, .operation o :: rest => do
    if o.looseness ≤ bound then
      let (first, rest) ← operand fuel rest
      let (b, rest) ← if o.looseness = 0 then pure (first, rest) else operations fuel (o.looseness - 1) first rest
      operations fuel bound (.operation o a b) rest
    else return (a, .operation o :: rest)
  | _ + 1, _, a, ts => .ok (a, ts)

/-- a number, a variable, an expression in parentheses, or one of these with signs in front -/
def operand : Nat → Reads
  | 0, _ => .error "expecting primary".toList
  | fuel + 1, ts => do
    match ts with
    | .number n :: rest => return (.number n, rest)
    | .name t :: rest => return (.name t, rest)
    | .mark "(" :: rest =>
      match ← assignment fuel rest with
      | (e, .mark ")" :: left) => return (e, left)
      | _ => .error "expecting ')'".toList
    | .operation .plus :: rest => operand fuel rest
    | .operation .minus :: rest => return ((← operand fuel rest).map .negative id)
    | .mark "!" :: rest => return ((← operand fuel rest).map .inverted id)
    | .mark "~" :: rest => return ((← operand fuel rest).map .flipped id)
    | _ => .error "expecting primary".toList

end

/-- the expression that a whole text is -/
def read (t : Text) : Except Text Expression := do
  let ts := tokens (t.length + 1) t
  match ← assignment (12 * ts.length + 12) ts with
  | (e, []) => return e
  | _ => .error "expecting EOF".toList

/-! ## Evaluation -/

/-- the bits of a number as a number of 64 bits -/
def bits (n : Int) : Nat := (n % (Nat.pow 2 64 : Nat)).toNat

/-- whether something holds, as a number -/
def ofBool (b : Bool) : Int := if b then 1 else 0

/-- the value of an operator, none for a division by zero -/
def result? (o : Operation) (a b : Int) : Option Int :=
  match o with
  | .times => some (wrap (a * b))
  | .over => if b = 0 then none else some (wrap (a.tdiv b))
  | .modulo => if b = 0 then none else some (wrap (a.tmod b))
  | .plus => some (wrap (a + b))
  | .minus => some (wrap (a - b))
  | .left => some (wrap (a * (Nat.pow 2 (bits b % 64) : Nat)))
  | .right => some (a / (Nat.pow 2 (bits b % 64) : Nat))
  | .less => some (ofBool (a < b))
  | .atMost => some (ofBool (a ≤ b))
  | .greater => some (ofBool (a > b))
  | .atLeast => some (ofBool (a ≥ b))
  | .same => some (ofBool (a = b))
  | .differs => some (ofBool (a ≠ b))
  | .bothBits => some (wrap (bits a &&& bits b : Nat))
  | .oneBit => some (wrap (bits a ^^^ bits b : Nat))
  | .anyBit => some (wrap (bits a ||| bits b : Nat))

/-- fails with words about an expression -/
def wrong {α : Type} (t words : Text) : Run α :=
  fail ("arithmetic expression: ".toList ++ words ++ ": \"".toList ++ t ++ ['"'])

/-- the number that a variable holds, zero if it has no value -/
def held (name : Text) : Run Int := do
  let value := ((← get).value? name).getD []
  match ofText? value with
  | some n => return n
  | none => fail ("Illegal number: ".toList ++ value)

/-- the value of an expression; the text of the whole of it is for messages -/
def value (t : Text) : Expression → Run Int
  | .number n => return n
  | .name v => held v
  | .negative e => do return wrap (-(← value t e))
  | .inverted e => do return ofBool ((← value t e) = 0)
  | .flipped e => do return wrap (-(← value t e) - 1)
  | .operation o a b => do
    let m ← value t a
    let n ← value t b
    match result? o m n with
    | some r => return r
    | none => wrong t "division by zero".toList
  | .both a b => do
    if (← value t a) = 0 then return 0 else return ofBool ((← value t b) ≠ 0)
  | .either a b => do
    if (← value t a) ≠ 0 then return 1 else return ofBool ((← value t b) ≠ 0)
  | .choice c yes no => do
    if (← value t c) ≠ 0 then value t yes else value t no
  | .assign v o e => do
    let n ← value t e
    match o with
    | none =>
      Shell.assign v (Text.ofInt n)
      return n
    | some o =>
      let m ← held v
      match result? o m n with
      | some r =>
        Shell.assign v (Text.ofInt r)
        return r
      | none => wrong t "division by zero".toList

/-- the value of the expression that a text is -/
def ofText (t : Text) : Run Int := do
  match read t with
  | .ok e => value t e
  | .error words => wrong t words

end Expression

end Componentry.Shell
