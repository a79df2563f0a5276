import PeerCache.Pattern.Parser

/-!
Values that a directive may ask for: a number, which a field must equal, or a pattern, which the
text of a field must match. Truth values are patterns too.
-/

namespace PeerCache.Log

/-- A text without a sign in front of it. -/
def unsigned : List Char → List Char
  | '+' :: rest | '-' :: rest => rest
  | text => text

/-- Whether a text is an exponent of ten or nothing. -/
def isExponent : List Char → Bool
  | [] => true
  | c :: rest =>
    (c = 'e' || c = 'E') && !(unsigned rest).isEmpty && (unsigned rest).all Char.isDigit

/-- Whether a text is a decimal number without a sign: digits with a point before, between or behind
them, and an exponent. -/
def isDecimal (text : List Char) : Bool :=
  let whole := text.takeWhile Char.isDigit
  match text.dropWhile Char.isDigit with
  | '.' :: rest =>
    !(whole.isEmpty && (rest.takeWhile Char.isDigit).isEmpty) &&
      isExponent (rest.dropWhile Char.isDigit)
  | rest => !whole.isEmpty && isExponent rest

/-- Whether a text is a number. Infinity is one, and so is the value that is none. -/
def isNumber (text : List Char) : Bool :=
  ["inf", "infinity", "nan"].contains (String.ofList ((unsigned text).map Char.toLower)) ||
    isDecimal (unsigned text)

/-- Whether a directive may ask for a value. -/
def isValuePattern (text : List Char) : Bool :=
  isNumber text || Pattern.isValid text

example : isValuePattern "+1.5e3".toList = true := by decide +kernel
example : isValuePattern "+-1".toList = false := by decide +kernel

end PeerCache.Log
