import PeerCache.Text.ExtendingMark
import PeerCache.Text.Printable

/-!
Texts in double quotes. A quote, a backslash and the common controls have short escapes; any other
character that would not show as itself, or would run into its neighbour, is written as its code in
braces. The single quote stands as it is.
-/

namespace PeerCache.Text

/-- A code in lower-case hexadecimal digits, in braces. -/
def codeEscape (c : Char) : List Char :=
  ['\\', 'u', '\x7b'] ++ Nat.toDigits 16 c.toNat ++ ['\x7d']

/-- A character as a quoted text shows it. -/
def escape (c : Char) : List Char :=
  match c with
  | '\x00' => ['\\', '0']
  | '\t' => ['\\', 't']
  | '\n' => ['\\', 'n']
  | '\r' => ['\\', 'r']
  | '"' => ['\\', '"']
  | '\\' => ['\\', '\\']
  | c => if isExtendingMark c || !isPrintable c then codeEscape c else [c]

/-- A text in double quotes. -/
def quoted (s : String) : String :=
  "\"" ++ String.ofList (s.toList.flatMap escape) ++ "\""

end PeerCache.Text
