import PeerCache.Pattern.Symbol

/-!
Sets of characters in brackets: characters, ranges, named sets and further brackets side by side,
and operations between such unions, of which the first comes first.

A closing bracket right behind the opening one is a character of the set, and so are the hyphens
there; no set is written as nothing. The negating circumflex may stand in between.
-/

namespace PeerCache.Pattern

/-- The names of the sets that `[:name:]` stands for inside brackets. -/
def setNames : List String :=
  ["alnum", "alpha", "ascii", "blank", "cntrl", "digit", "graph", "lower", "print", "punct",
    "space", "upper", "word", "xdigit"]

/-- A named set behind its opening bracket, if there is one. -/
def readNamed? : List Char → Option (CharSet × List Char)
  | ':' :: rest =>
    let negated := rest.head? = some '^'
    let rest := if negated then rest.drop 1 else rest
    match rest.dropWhile (· ≠ ':') with
    | ':' :: ']' :: behind =>
      if setNames.contains (String.ofList (rest.takeWhile (· ≠ ':'))) then
        some (.named negated, behind)
      else none
    | _ => none
  | _ => none

/-- A symbol inside brackets, where only the backslash is special. -/
def readMember (spaced : Bool) : List Char → Option (Pattern × List Char)
  | [] => none
  | '\\' :: rest => readEscape spaced rest
  | c :: rest => some (literal c false, rest)

/-- The set that a symbol stands for. -/
def toSet? : Pattern → Option CharSet
  | literal c _ => some (.range c c)
  | oneOf set => some set
  | _ => none

/-- The characters from one up to another. -/
def range? : Pattern → Pattern → Option CharSet
  | literal first _, literal last _ =>
    if first.toNat ≤ last.toNat then some (.range first last) else none
  | _, _ => none

/-- Whether a hyphen joins the characters on its two sides to a range. It does not in front of a
closing bracket or another hyphen. Here a number sign hides no more than itself. -/
def joins (spaced : Bool) (behind : List Char) : Bool :=
  let next :=
    if spaced then
      match behind.dropWhile Text.isBlank with
      | '#' :: rest => rest.dropWhile Text.isBlank
      | rest => rest
    else behind
  next.head? ≠ some ']' && next.head? ≠ some '-'

/-- A symbol inside brackets, or a range between two. -/
def readRange (spaced : Bool) (text : List Char) : Option (CharSet × List Char) :=
  match readMember spaced text with
  | none => none
  | some (first, rest) =>
    match skip spaced rest with
    | '-' :: behind =>
      if joins spaced behind then
        match readMember spaced (skip spaced behind) with
        | some (last, rest) => (range? first last).map fun set => (set, rest)
        | none => none
      else (toSet? first).map fun set => (set, '-' :: behind)
    | rest => (toSet? first).map fun set => (set, rest)

/-- The set of some members, the last of them first. One member is a set by itself. -/
def unionOf : List CharSet → CharSet
  | [set] => set
  | members => .union members.reverse

/-- The set of some members, the last of them first, and of the operation whose right side they
are. -/
def closeSet (left : Option CharSet) (members : List CharSet) : CharSet :=
  match left with
  | some left => .combined left (unionOf members)
  | none => unionOf members

/-- Whether a character written twice is an operation on sets. -/
def isOperation (c : Char) : Bool :=
  c = '&' || c = '-' || c = '~'

/-- Whether a set behind its opening bracket is negated, and the text after the sign of that. -/
def readNegation (spaced : Bool) (text : List Char) : Bool × List Char :=
  match skip spaced text with
  | '^' :: rest => (true, rest)
  | rest => (false, rest)

/-- The rest of a set in brackets, up to its closing one. `left` waits for the right side of its
operation; while the set is `fresh`, only hyphens have been read. `fuel` bounds the characters. -/
def readSet (spaced : Bool) : Nat → Bool → Option CharSet → List CharSet → List Char →
    Option (CharSet × List Char)
  | 0, _, _, _, _ => none
  | fuel + 1, fresh, left, members, text =>
    match skip spaced text with
    | [] => none
    | '[' :: rest =>
      match readNamed? rest with
      | some (set, rest) => readSet spaced fuel false left (set :: members) rest
      | none =>
        let (negated, rest) := readNegation spaced rest
        match readSet spaced fuel true none [] rest with
        | some (set, rest) =>
          readSet spaced fuel false left (.bracket negated set :: members) rest
        | none => none
    | c :: rest =>
      if fresh && (c = '-' || (c = ']' && members.isEmpty)) then
        readSet spaced fuel (c = '-') left (.range c c :: members) rest
      else if c = ']' then some (closeSet left members, rest)
      else if isOperation c && rest.head? = some c then
        readSet spaced fuel false (some (closeSet left members)) [] (rest.drop 1)
      else
        match readRange spaced (c :: rest) with
        | some (set, rest) => readSet spaced fuel false left (set :: members) rest
        | none => none

/-- A set in brackets, behind its opening one. -/
def readBracket (spaced : Bool) (text : List Char) : Option (CharSet × List Char) :=
  let (negated, text) := readNegation spaced text
  (readSet spaced (text.length + 1) true none [] text).map fun (set, rest) =>
    (.bracket negated set, rest)

end PeerCache.Pattern
