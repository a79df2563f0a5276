import PeerCache.Toml.Quotation
import PeerCache.Toml.Table

/-!
Numbers of TOML: integers in four bases, which must fit 64 bits with a sign, and floats. Underscores
stand between digits only. A float too large for a double is refused when it is positive.
-/

namespace PeerCache.Toml

def isDigit (c : Char) : Bool :=
  '0' ≤ c && c ≤ '9'

/-- Further digits after a first one, without the underscores between them. -/
def moreDigits (isDigit : Char → Bool) : Reader (List Char)
  | '_' :: d :: rest =>
    if isDigit d then (moreDigits isDigit rest).map fun (ds, rest) => (d :: ds, rest) else none
  | ['_'] => none
  | c :: rest =>
    if isDigit c then (moreDigits isDigit rest).map fun (ds, rest) => (c :: ds, rest)
    else some ([], c :: rest)
  | [] => some ([], [])

/-- Digits, at least one, without the underscores between them. -/
def digits (isDigit : Char → Bool) : Reader (List Char)
  | c :: rest =>
    if isDigit c then (moreDigits isDigit rest).map fun (ds, rest) => (c :: ds, rest) else none
  | [] => none

/-- The number that digits write in a base. -/
def digitsValue (base : Nat) (ds : List Char) : Nat :=
  ds.foldl (fun n d => base * n + (Text.hexDigit? d).getD 0) 0

/-- A sign, if there is one, and whether it is a minus. -/
def sign : List Char → Bool × List Char
  | '+' :: rest => (false, rest)
  | '-' :: rest => (true, rest)
  | cs => (false, cs)

/-- The digits of a decimal integer: a zero stands alone. -/
def decimalDigits : Reader (List Char)
  | '0' :: rest => some (['0'], rest)
  | cs => digits isDigit cs

/-- Whether an integer fits 64 bits with a sign. -/
def fitsWord (n : Int) : Bool :=
  -9223372036854775808 ≤ n && n ≤ 9223372036854775807

/-- A natural number in a base, behind the mark of the base. -/
def basedInteger (base : Nat) (isDigit : Char → Bool) : Reader Node := fun cs =>
  match digits isDigit cs with
  | some (ds, rest) =>
    let n : Int := digitsValue base ds
    if fitsWord n then some (.integer n, rest) else none
  | none => none

def integer : Reader Node
  | '0' :: 'x' :: rest => basedInteger 16 (fun c => (Text.hexDigit? c).isSome) rest
  | '0' :: 'o' :: rest => basedInteger 8 (fun c => '0' ≤ c && c ≤ '7') rest
  | '0' :: 'b' :: rest => basedInteger 2 (fun c => c = '0' || c = '1') rest
  | cs =>
    let (negative, cs) := sign cs
    match decimalDigits cs with
    | some (ds, rest) =>
      let magnitude : Int := digitsValue 10 ds
      let n := if negative then -magnitude else magnitude
      if fitsWord n then some (.integer n, rest) else none
    | none => none

/-- The least number that a double rounds to infinity: halfway from the largest double to the next
power of two. -/
def doubleOverflow : Nat :=
  1 <<< 1024 - 1 <<< 970

/-- Whether `digits · 10 ^ exponent` is too large for a double. Far from the bound the number of
digits decides, so that no huge power is computed. -/
def overflowsDouble (ds : List Char) (exponent : Int) : Bool :=
  let significand := digitsValue 10 ds
  let places : Int := (ds.dropWhile (· = '0')).length + exponent
  if significand = 0 then false
  else if 400 < places then true
  else if places < 300 then false
  else if 0 ≤ exponent then doubleOverflow ≤ significand * Nat.pow 10 exponent.toNat
  else doubleOverflow * Nat.pow 10 (-exponent).toNat ≤ significand

/-- An exponent behind its mark. -/
def exponentPart : Reader Int := fun cs =>
  let (negative, cs) := sign cs
  (digits isDigit cs).map fun (ds, rest) =>
    let magnitude : Int := digitsValue 10 ds
    (if negative then -magnitude else magnitude, rest)

/-- An exponent with its mark, zero if there is none. -/
def exponent : Reader Int
  | 'e' :: rest => exponentPart rest
  | 'E' :: rest => exponentPart rest
  | cs => some (0, cs)

/-- What makes a number a float: a fraction, an exponent, or both. Answers the digits after the
point and the exponent. -/
def floatTail : Reader (List Char × Int)
  | '.' :: rest => do
    let (fraction, rest) ← digits isDigit rest
    let (power, rest) ← exponent rest
    return ((fraction, power), rest)
  | 'e' :: rest => (exponentPart rest).map fun (power, rest) => (([], power), rest)
  | 'E' :: rest => (exponentPart rest).map fun (power, rest) => (([], power), rest)
  | _ => none

/-- A float that has no digits. -/
def namedFloat : Reader Node
  | 'i' :: 'n' :: 'f' :: rest => some (.float, rest)
  | 'n' :: 'a' :: 'n' :: rest => some (.float, rest)
  | _ => none

def float : Reader Node := fun cs =>
  let (negative, unsigned) := sign cs
  let written := do
    let (whole, rest) ← decimalDigits unsigned
    let ((fraction, power), rest) ← floatTail rest
    if !negative && overflowsDouble (whole ++ fraction) (power - fraction.length) then none
    else some (Node.float, rest)
  written.or (namedFloat unsigned)

end PeerCache.Toml
