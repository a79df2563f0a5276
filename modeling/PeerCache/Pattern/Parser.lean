import PeerCache.Pattern.Bracket

/-!
Reading patterns. A pattern is a choice of sequences; the parts of a sequence are symbols, sets in
brackets and groups in parentheses, each with signs of repetition behind it.

Counts of repetitions are written in braces, and an opening brace outside brackets is always the
start of one. Patterns occur where a closing brace would end them, so none has a count.
-/

namespace PeerCache.Pattern

/-! ### Groups -/

/-- Switches up to the sign that ends them, which comes with them. Behind a hyphen flags are
switched off; there is one hyphen at most, and a flag behind it. No flag is named twice. -/
def readSwitches (off : Bool) (read : Switches) : List Char → Option (Switches × Char × List Char)
  | [] => none
  | c :: rest =>
    if c = ':' ∨ c = ')' then
      if off && read.all (·.2) then none else some (read.reverse, c, rest)
    else if c = '-' then
      if off then none else readSwitches true read rest
    else
      match Flag.ofLetter? c with
      | none => none
      | some flag =>
        if (read.lookup flag).isSome then none
        else readSwitches off ((flag, !off) :: read) rest

/-- Whether a text can name a group: letters, digits and a few signs, with a letter or an underscore
in front. -/
def isGroupName : List Char → Bool
  | [] => false
  | c :: rest =>
    (c = '_' || Text.isAlphabetic c) &&
      rest.all fun c => ['_', '.', '[', ']'].contains c || Text.isAlphanumeric c

/-- The name of a group, up to the sign that closes it. -/
def readGroupName (text : List Char) : Option (String × List Char) :=
  let name := text.takeWhile (· ≠ '>')
  match text.dropWhile (· ≠ '>') with
  | [] => none
  | _ :: rest => if isGroupName name then some (String.ofList name, rest) else none

/-- What an opening parenthesis begins. -/
inductive Opening where
  | switches (changes : Switches)
  | group (name : Option String) (changes : Switches)

/-- What stands behind an opening parenthesis, up to the body of the group if it opens one. -/
def readOpening : List Char → Option (Opening × List Char)
  | '?' :: 'P' :: '<' :: rest | '?' :: '<' :: rest =>
    (readGroupName rest).map fun (name, rest) => (.group (some name) [], rest)
  | '?' :: rest =>
    match readSwitches false [] rest with
    | none => none
    | some (changes, last, rest) =>
      if last = ':' then some (.group none changes, rest)
      else if changes.isEmpty then none
      else some (.switches changes, rest)
  | rest => some (.group none [], rest)

/-! ### Sequences and choices -/

/-- The pattern of some parts in a row, the last of them first. -/
def sequenceOf : List Pattern → Pattern
  | [] => empty
  | [part] => part
  | parts => sequence parts.reverse

/-- The pattern of some branches, the last of them first and still in parts. -/
def choiceOf (branches parts : List Pattern) : Pattern :=
  match branches with
  | [] => sequenceOf parts
  | branches => choice (sequenceOf parts :: branches).reverse

/-- Whether a sign of repetition may follow a part. -/
def isRepeatable : Pattern → Bool
  | switches _ => false
  | _ => true

/-- A pattern up to the end of the text or the parenthesis that closes its group. What has been read
of it, `branches` and then the `parts` of one more, is given with the last of them first. `fuel`
bounds the characters. -/
def readBody : Nat → Bool → List Pattern → List Pattern → List Char →
    Option (Pattern × List Char)
  | 0, _, _, _, _ => none
  | fuel + 1, spaced, branches, parts, text =>
    match skip spaced text with
    | [] => some (choiceOf branches parts, [])
    | ')' :: rest => some (choiceOf branches parts, ')' :: rest)
    | '(' :: rest =>
      match readOpening (skip spaced rest) with
      | none => none
      | some (.switches changes, rest) =>
        readBody fuel (changes.after .spaced spaced) branches (switches changes :: parts) rest
      | some (.group name changes, rest) =>
        match readBody fuel (changes.after .spaced spaced) [] [] rest with
        | some (body, ')' :: rest) =>
          readBody fuel spaced branches (group name changes body :: parts) rest
        | _ => none
    | '|' :: rest => readBody fuel spaced (sequenceOf parts :: branches) [] rest
    | '[' :: rest =>
      match readBracket spaced rest with
      | some (set, rest) => readBody fuel spaced branches (oneOf set :: parts) rest
      | none => none
    | '\x7b' :: _ => none
    | '\\' :: rest =>
      match readEscape spaced rest with
      | some (symbol, rest) => readBody fuel spaced branches (symbol :: parts) rest
      | none => none
    | '.' :: rest => readBody fuel spaced branches (anyChar :: parts) rest
    | c :: rest =>
      if c = '?' ∨ c = '*' ∨ c = '+' then
        match parts with
        | [] => none
        | part :: parts =>
          if isRepeatable part then
            readBody fuel spaced branches (repeated part :: parts)
              (if rest.head? = some '?' then rest.drop 1 else rest)
          else none
      else if c = '^' ∨ c = '$' then readBody fuel spaced branches (place false :: parts) rest
      else readBody fuel spaced branches (literal c false :: parts) rest

/-- The pattern that a text writes. -/
def parse? (text : List Char) : Option Pattern :=
  match readBody (text.length + 1) false [] [] text with
  | some (pattern, []) => some pattern
  | _ => none

/-- Whether a text writes a pattern that a matcher can be built for. -/
def isValid (text : List Char) : Bool :=
  (parse? text).any isSupported

example : isValid "(?<first>a|b)*[^k-m]".toList = true := by decide +kernel
example : isValid "[]&&[[:alpha:]]]".toList = true := by decide +kernel
example : isValid "a|*".toList = false := by decide +kernel
example : isValid "(?<a>x)(?<a>y)".toList = false := by decide +kernel
example : isValid "\\d".toList = false ∧ isValid "(?-u)\\d".toList = true := by decide +kernel

end PeerCache.Pattern
