import PeerCache.Pattern.Mode

/-!
Sets of characters in a pattern: what stands for any one character out of several.

A named set, such as the digits, is kept without its name, since all of them are supported alike.
-/

namespace PeerCache

/-- A set of characters. -/
inductive CharSet where
  /-- The characters from the first one up to the last one. -/
  | range (first last : Char)
  /-- A set named in full inside brackets, or all characters but those. -/
  | named (negated : Bool)
  /-- A set named by a letter behind a backslash, or all characters but those. -/
  | shorthand (negated : Bool)
  /-- A set in brackets, or all characters but those. -/
  | bracket (negated : Bool) (inside : CharSet)
  | union (members : List CharSet)
  /-- What an operation makes of two sets: their intersection or one of their differences. -/
  | combined (left right : CharSet)
  deriving Inhabited

namespace CharSet

mutual

/-- How deep sets are nested in each other. -/
def depth : CharSet → Nat
  | range _ _ | named _ | shorthand _ => 0
  | bracket _ inside => inside.depth + 1
  | union members => if members.isEmpty then 0 else depthOfAll members + 1
  | combined left right => Nat.max left.depth right.depth + 1

/-- The depth of the deepest of some sets. -/
def depthOfAll : List CharSet → Nat
  | [] => 0
  | set :: rest => Nat.max set.depth (depthOfAll rest)

end

mutual

/-- Whether a matcher can tell which characters are in a set. Case cannot be ignored where all of
Unicode is meant; where ASCII is meant, a set must not reach beyond it, and so must not be a
complement. -/
def isSupported (mode : Mode) : CharSet → Bool
  | range _ last => if mode.unicode then !mode.ignoreCase else last.toNat < 128
  | named negated => if mode.unicode then !mode.ignoreCase else !negated
  | shorthand negated => !mode.unicode && !negated
  | bracket negated inside => (mode.unicode || !negated) && inside.isSupported mode
  | union members => areSupported mode members
  | combined left right => left.isSupported mode && right.isSupported mode

/-- Whether all of some sets are supported. -/
def areSupported (mode : Mode) : List CharSet → Bool
  | [] => true
  | set :: rest => set.isSupported mode && areSupported mode rest

end

end CharSet

end PeerCache
