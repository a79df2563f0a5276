import PeerCache.Pattern.CharSet

/-!
Patterns that describe texts, and the patterns a matcher can be built for.

A matcher is an automaton over the bytes of UTF-8 text. It follows a pattern of bounded depth, knows
the edges of words only where ASCII is meant, and never stops inside a character.
-/

namespace PeerCache

/-- A pattern, as far as it matters for building a matcher. -/
inductive Pattern where
  | empty
  /-- Switches flags for the rest of the group that it stands in. -/
  | switches (changes : Switches)
  /-- One character; `asByte` if it is written as the code of a byte. -/
  | literal (c : Char) (asByte : Bool)
  | anyChar
  /-- A place between characters: an end of the text or of a line, or the edge of a word. -/
  | place (ofWord : Bool)
  | oneOf (set : CharSet)
  /-- A part in parentheses, with flags of its own. -/
  | group (name : Option String) (changes : Switches) (body : Pattern)
  | repeated (body : Pattern)
  | sequence (parts : List Pattern)
  | choice (branches : List Pattern)
  deriving Inhabited

namespace Pattern

mutual

/-- How deep patterns are nested in each other. -/
def depth : Pattern → Nat
  | empty | switches _ | literal _ _ | anyChar | place _ => 0
  | oneOf set => set.depth
  | group _ _ body | repeated body => body.depth + 1
  | sequence parts | choice parts => depthOfAll parts + 1

/-- The depth of the deepest of some patterns. -/
def depthOfAll : List Pattern → Nat
  | [] => 0
  | pattern :: rest => Nat.max pattern.depth (depthOfAll rest)

end

mutual

/-- The names of the groups in a pattern. -/
def names : Pattern → List String
  | group name _ body => name.toList ++ body.names
  | repeated body => body.names
  | sequence parts | choice parts => namesOfAll parts
  | _ => []

/-- The names of the groups in some patterns. -/
def namesOfAll : List Pattern → List String
  | [] => []
  | pattern :: rest => pattern.names ++ namesOfAll rest

end

/-- Whether a matcher can look for one character. Where ASCII is meant, a byte beyond it would be
part of a character only. -/
def isSupportedLiteral (mode : Mode) (c : Char) (asByte : Bool) : Bool :=
  if mode.unicode then !mode.ignoreCase else !asByte || c.toNat < 128

mutual

/-- The mode behind a pattern that is read in `mode`, if a matcher can be built for it. The switches
in a group end with it, those in a branch hold in the later branches too. -/
def modeAfter? (mode : Mode) : Pattern → Option Mode
  | empty => some mode
  | switches changes => some (mode.set changes)
  | literal c asByte => if isSupportedLiteral mode c asByte then some mode else none
  | anyChar => if mode.unicode then some mode else none
  | place ofWord => if ofWord && mode.unicode then none else some mode
  | oneOf set => if set.isSupported mode then some mode else none
  | group _ changes body => (body.modeAfter? (mode.set changes)).map fun _ => mode
  | repeated body => body.modeAfter? mode
  | sequence parts | choice parts => modeAfterAll? mode parts

/-- The mode behind some patterns, one after the other. -/
def modeAfterAll? (mode : Mode) : List Pattern → Option Mode
  | [] => some mode
  | pattern :: rest => (pattern.modeAfter? mode).bind fun mode => modeAfterAll? mode rest

end

/-- Patterns that are nested deeper are refused. -/
def depthLimit : Nat := 250

/-- Whether no text is in a list twice. -/
def areDistinct : List String → Bool
  | [] => true
  | name :: rest => !rest.contains name && areDistinct rest

/-- Whether a matcher can be built for a pattern. -/
def isSupported (pattern : Pattern) : Bool :=
  pattern.depth ≤ depthLimit && areDistinct pattern.names && (pattern.modeAfter? {}).isSome

end Pattern

end PeerCache
