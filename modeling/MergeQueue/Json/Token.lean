import MergeQueue.Text.Basic

/-!
# Tokens of JSON

A value is a list of tokens, both when it is read and when it is written. A string that was read
has no value if it holds half a surrogate pair or bytes outside UTF-8. The token `broken` stands
where a text breaks off inside a token or where no token begins.
-/
namespace MergeQueue.Json

open Text

/-!
## Numbers of JSON

A number written without fraction and exponent that fits 64 bits, signed or unsigned, is an
integer; minus zero is not. Every other number is taken as a double. What counts of it here is
only whether it fits one: the significand keeps its leading digits as long as they fit 64 bits, and
is then scaled by a power of ten, both rounded to 53 bits.
-/

inductive Number
  | integer (n : Int)
  | fraction
  | overflow
deriving DecidableEq, Repr

/-- Rounds to 53 significant bits, ties to even. -/
def round53 (n : Nat) : Nat :=
  if n.log2 < 53 then n
  else
    let unit := 1 <<< (n.log2 - 52)
    let q := n / unit
    let r := n % unit
    let up := unit < 2 * r ∨ (unit = 2 * r ∧ q % 2 = 1)
    (if up then q + 1 else q) * unit

/-- Reads digits onto a significand as long as it fits 64 bits. The significand, and how many
digits were left out. -/
def fitDigits (significand : Nat) : List Char → Nat × Nat
  | [] => (significand, 0)
  | d :: ds =>
    let next := significand * 10 + (d.toNat - '0'.toNat)
    if next < UInt64.size then fitDigits next ds else (significand, ds.length + 1)

def exceedsDouble (significand : Nat) (exponent : Int) : Bool :=
  if significand = 0 ∨ exponent < 0 then false
  else if 308 < exponent then true
  else 1 <<< 1024 ≤ round53 (round53 significand * round53 (Nat.pow 10 exponent.toNat))

/-- The number with these digits before the point, behind it, and this exponent. -/
def Number.ofParts (negative : Bool) (whole : List Char) (places : Option (List Char))
    (exponent : Option Int) : Number :=
  let value : Int := if negative then -(ofDecimal whole : Int) else ofDecimal whole
  let fits : Bool :=
    if negative then value < 0 ∧ Int64.minValue.toInt ≤ value else value < UInt64.size
  if places.isNone ∧ exponent.isNone ∧ fits then .integer value
  else
    let places := places.getD []
    let (significand, left) := fitDigits 0 whole
    let (significand, ignored) := fitDigits significand places
    let scale : Int := left - (places.length - ignored : Nat) + exponent.getD 0
    if exceedsDouble significand scale then .overflow else .fraction

/-! ## Tokens -/

inductive Token
  | openList
  | closeList
  | openObject
  | closeObject
  | comma
  | colon
  | null
  | bool (b : Bool)
  | number (n : Number)
  | string (s : Option String)
  | broken
deriving DecidableEq, Repr

/-!
## Writing tokens

Two layouts of the same tokens: the compact one without any space, and the wide one with every
member on a line of its own, two more spaces in for each level, where an empty list stays closed.
In strings only the quote, the backslash and the controls below the space are escaped.
-/

def escapeChar (c : Char) : List Char :=
  match c with
  | '"' => ['\\', '"']
  | '\\' => ['\\', '\\']
  | '\x08' => ['\\', 'b']
  | '\x0c' => ['\\', 'f']
  | '\n' => ['\\', 'n']
  | '\r' => ['\\', 'r']
  | '\t' => ['\\', 't']
  | c =>
    if c.toNat < 0x20 then
      ['\\', 'u', '0', '0', Nat.digitChar (c.toNat / 16), Nat.digitChar (c.toNat % 16)]
    else [c]

def integerText : Int → List Char
  | .ofNat n => decimal n
  | .negSucc n => '-' :: decimal (n + 1)

/-- A token by itself. What was read but has no value has no written form. -/
def Token.text : Token → List Char
  | .openList => ['[']
  | .closeList => [']']
  | .openObject => ['\x7b']
  | .closeObject => ['\x7d']
  | .comma => [',']
  | .colon => [':']
  | .null => ['n', 'u', 'l', 'l']
  | .bool true => ['t', 'r', 'u', 'e']
  | .bool false => ['f', 'a', 'l', 's', 'e']
  | .number (.integer n) => integerText n
  | .number _ => []
  | .string (some s) => '"' :: s.toList.flatMap escapeChar ++ ['"']
  | .string none => []
  | .broken => []

def compact (ts : List Token) : List Char := ts.flatMap Token.text

def newline (depth : Nat) : List Char := '\n' :: List.replicate (2 * depth) ' '

def wideFrom (depth : Nat) : List Token → List Char
  | [] => []
  | .openList :: .closeList :: ts => '[' :: ']' :: wideFrom depth ts
  | .openObject :: .closeObject :: ts => '\x7b' :: '\x7d' :: wideFrom depth ts
  | .openList :: ts => '[' :: newline (depth + 1) ++ wideFrom (depth + 1) ts
  | .openObject :: ts => '\x7b' :: newline (depth + 1) ++ wideFrom (depth + 1) ts
  | .closeList :: ts => newline (depth - 1) ++ ']' :: wideFrom (depth - 1) ts
  | .closeObject :: ts => newline (depth - 1) ++ '\x7d' :: wideFrom (depth - 1) ts
  | .comma :: ts => ',' :: newline depth ++ wideFrom depth ts
  | .colon :: ts => ':' :: ' ' :: wideFrom depth ts
  | t :: ts => t.text ++ wideFrom depth ts

/-- Every member on a line of its own. -/
def wide (ts : List Token) : List Char := wideFrom 0 ts

end MergeQueue.Json
