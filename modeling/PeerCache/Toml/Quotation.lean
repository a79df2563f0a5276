import PeerCache.Text.HexDigit
import PeerCache.Toml.Layout

/-!
Quoted texts of TOML. Between double quotes a backslash starts an escape; between single quotes it
is a character like any other. Three quotes open a text that runs over several lines; it drops a
line end right after them, and a backslash at the end of a line drops the line end and the space
after it.
-/

namespace PeerCache.Toml

/-- A character written as its code in exactly `n` hexadecimal digits. -/
def codePoint (n : Nat) : Reader Char := fun cs => do
  let digits ← (cs.take n).mapM Text.hexDigit?
  let code := digits.foldl (fun code d => 16 * code + d) 0
  if digits.length = n ∧ code.isValidChar then some (Char.ofNat code, cs.drop n) else none

/-- The character that an escape stands for; the backslash has been read. -/
def escape : Reader Char
  | 'b' :: rest => some ('\x08', rest)
  | 'f' :: rest => some ('\x0c', rest)
  | 'n' :: rest => some ('\n', rest)
  | 'r' :: rest => some ('\r', rest)
  | 't' :: rest => some ('\t', rest)
  | '"' :: rest => some ('"', rest)
  | '\\' :: rest => some ('\\', rest)
  | 'u' :: rest => codePoint 4 rest
  | 'U' :: rest => codePoint 8 rest
  | _ => none

theorem codePoint_length_le {n : Nat} {cs rest : List Char} {c : Char}
    (h : codePoint n cs = some (c, rest)) : rest.length ≤ cs.length := by
  obtain ⟨digits, _, h⟩ := Option.bind_eq_some_iff.1 h
  dsimp only at h
  split at h
  · cases h
    exact List.length_drop ▸ Nat.sub_le _ _
  · cases h

/-- An escape takes up at least one character. -/
theorem escape_length_lt {cs rest : List Char} {c : Char} (h : escape cs = some (c, rest)) :
    rest.length < cs.length := by
  unfold escape at h
  split at h
  · cases h; exact Nat.lt_succ_self _
  · cases h; exact Nat.lt_succ_self _
  · cases h; exact Nat.lt_succ_self _
  · cases h; exact Nat.lt_succ_self _
  · cases h; exact Nat.lt_succ_self _
  · cases h; exact Nat.lt_succ_self _
  · cases h; exact Nat.lt_succ_self _
  · exact Nat.lt_succ_of_le (codePoint_length_le h)
  · exact Nat.lt_succ_of_le (codePoint_length_le h)
  · cases h

/-- The double quote, which admits escapes. -/
def basicQuote : Char := '"'

/-- The single quote. -/
def literalQuote : Char := '\x27'

/-- Puts characters in front of what a reader found. -/
def prepend (front : List Char) (found : Option (List Char × List Char)) :
    Option (List Char × List Char) :=
  found.map fun (text, rest) => (front ++ text, rest)

/-- The rest of a text on one line, up to its closing quote. -/
def lineText (quote : Char) (cs : List Char) : Option (List Char × List Char) :=
  match cs with
  | [] => none
  | c :: rest =>
    if c = quote then some ([], rest)
    else if c = '\\' ∧ quote = basicQuote then
      match h : escape rest with
      | some (escaped, after) =>
        have := escape_length_lt h
        prepend [escaped] (lineText quote after)
      | none => none
    else if isPlain c then prepend [c] (lineText quote rest)
    else none
  termination_by cs.length

/-- The rest of a text over several lines, up to its three closing quotes. One or two quotes in a
row belong to the text, also right before the closing ones. `fuel` bounds the characters read. -/
def blockText (quote : Char) : Nat → Reader (List Char)
  | 0, _ => none
  | _ + 1, [] => none
  | fuel + 1, c :: rest =>
    if c = quote then
      let quotes := 1 + (rest.takeWhile (· = quote)).length
      let after := rest.dropWhile (· = quote)
      if quotes ≤ 2 then prepend (List.replicate quotes quote) (blockText quote fuel after)
      else if quotes ≤ 5 then some (List.replicate (quotes - 3) quote, after)
      else none
    else if c = '\\' ∧ quote = basicQuote then
      match escape rest with
      | some (escaped, rest) => prepend [escaped] (blockText quote fuel rest)
      | none =>
        match newline? (skipBlanks rest) with
        | some rest => blockText quote fuel (skipSpace rest)
        | none => none
    else
      match newline? (c :: rest) with
      | some rest => prepend ['\n'] (blockText quote fuel rest)
      | none => if isPlain c then prepend [c] (blockText quote fuel rest) else none

/-- A text on one line in the given quotes. -/
def lineString (quote : Char) : Reader String
  | [] => none
  | c :: rest =>
    if c = quote then
      (lineText quote rest).map fun (text, rest) => (String.ofList text, rest)
    else none

/-- A text in the given quotes, over several lines if three of them open it. -/
def quotedString (quote : Char) : Reader String := fun cs =>
  if cs.take 3 = [quote, quote, quote] then
    let body := cs.drop 3
    let body := (newline? body).getD body
    (blockText quote (body.length + 1) body).map fun (text, rest) => (String.ofList text, rest)
  else lineString quote cs

/-! ### Keys -/

/-- A character of a key that stands without quotes. -/
def isBareKeyChar (c : Char) : Bool :=
  ('A' ≤ c && c ≤ 'Z') || ('a' ≤ c && c ≤ 'z') || ('0' ≤ c && c ≤ '9') || c = '-' || c = '_'

/-- One part of a key. -/
def keyPart : Reader String := fun cs =>
  match cs with
  | [] => none
  | c :: _ =>
    if c = basicQuote ∨ c = literalQuote then lineString c cs
    else if isBareKeyChar c then
      some (String.ofList (cs.takeWhile isBareKeyChar), cs.dropWhile isBareKeyChar)
    else none

/-- The parts of a key, joined by dots, with blanks around each of them, at most `bound` many. -/
def keyParts : Nat → Reader (List String)
  | 0, _ => none
  | bound + 1, cs =>
    match keyPart (skipBlanks cs) with
    | none => none
    | some (part, rest) =>
      match skipBlanks rest with
      | '.' :: rest => (keyParts bound rest).map fun (parts, rest) => (part :: parts, rest)
      | rest => some ([part], rest)

/-- A key of this many parts is refused, and so is a value in which this many arrays and tables are
nested in each other. -/
def nestingLimit : Nat := 80

/-- A key: the parts that lead to it, and its own name. -/
def keyPath : Reader (List String × String) := fun cs =>
  match keyParts (nestingLimit - 1) cs with
  | some (parts, rest) => (parts.getLast?).map fun name => ((parts.dropLast, name), rest)
  | none => none

end PeerCache.Toml
