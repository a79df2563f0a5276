import PeerCache.Pattern.Basic
import PeerCache.Text.Alphanumeric
import PeerCache.Text.HexDigit

/-!
Single symbols of a pattern: characters, and what a backslash makes of those after it.

Punctuation behind a backslash stands for itself, a letter for a control character, a place or a
set, and hexadecimal digits behind `x`, `u` or `U` for the code of a character. No symbol is written
with braces.
-/

namespace PeerCache.Pattern

/-- The text behind the blanks and comments that come next. A comment starts with a number sign and
ends with its line. -/
def skipBlanks (inComment : Bool) : List Char → List Char
  | [] => []
  | c :: rest =>
    if inComment then skipBlanks (c ≠ '\n') rest
    else if c = '#' then skipBlanks true rest
    else if Text.isBlank c then skipBlanks false rest
    else c :: rest

/-- The text from the next character on that counts. -/
def skip (spaced : Bool) (text : List Char) : List Char :=
  if spaced then skipBlanks false text else text

/-- The number that so many hexadecimal digits write behind those that make up `front`. -/
def readCode (spaced : Bool) : Nat → Nat → List Char → Option (Nat × List Char)
  | 0, front, text => some (front, text)
  | digits + 1, front, text =>
    match skip spaced text with
    | [] => none
    | c :: rest =>
      match Text.hexDigit? c with
      | some digit => readCode spaced digits (16 * front + digit) rest
      | none => none

/-- A character given by its code in so many digits; two are the code of a byte. -/
def readCoded (spaced : Bool) (digits : Nat) (text : List Char) : Option (Pattern × List Char) :=
  match readCode spaced digits 0 text with
  | some (code, rest) =>
    if code.isValidChar then some (literal (Char.ofNat code) (digits = 2), rest) else none
  | none => none

/-- What a character behind a backslash stands for. -/
def escaped? (c : Char) : Option Pattern :=
  match c with
  | 'a' => some (literal '\x07' false)
  | 'f' => some (literal '\x0c' false)
  | 'n' => some (literal '\n' false)
  | 'r' => some (literal '\r' false)
  | 't' => some (literal '\t' false)
  | 'v' => some (literal '\x0b' false)
  | 'd' | 's' | 'w' => some (oneOf (.shorthand false))
  | 'D' | 'S' | 'W' => some (oneOf (.shorthand true))
  | 'A' | 'z' => some (place false)
  | 'b' | 'B' | '<' | '>' => some (place true)
  | c => if c.toNat < 128 && !c.isAlphanum then some (literal c false) else none

/-- The symbol behind a backslash. -/
def readEscape (spaced : Bool) : List Char → Option (Pattern × List Char)
  | [] => none
  | 'x' :: rest => readCoded spaced 2 rest
  | 'u' :: rest => readCoded spaced 4 rest
  | 'U' :: rest => readCoded spaced 8 rest
  | c :: rest => (escaped? c).map fun symbol => (symbol, rest)

end PeerCache.Pattern
