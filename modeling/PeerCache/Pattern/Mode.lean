/-!
Flags of a pattern, and the mode that they put its parts in.

A matcher knows no tables of Unicode. So there are two modes: one in which a character is any that
Unicode has, but nothing is known of its kind or of its other case, and one in which only ASCII
characters are told apart, and those in full.
-/

namespace PeerCache

/-- What a pattern can switch on and off. -/
inductive Flag where
  | ignoreCase
  /-- The places at the two ends of a text are also those at the ends of its lines. -/
  | multiLine
  /-- The dot stands for line ends too. -/
  | dotAll
  /-- Repetitions take as little as they can. -/
  | lazy
  | unicode
  /-- A carriage return ends a line as well. -/
  | crlf
  /-- Blanks and comments between the parts of a pattern do not count. -/
  | spaced
  deriving DecidableEq, Repr

def Flag.ofLetter? : Char → Option Flag
  | 'i' => some .ignoreCase
  | 'm' => some .multiLine
  | 's' => some .dotAll
  | 'U' => some .lazy
  | 'u' => some .unicode
  | 'R' => some .crlf
  | 'x' => some .spaced
  | _ => none

/-- Flags, each with whether it is switched on. -/
abbrev Switches := List (Flag × Bool)

/-- What a flag is set to after some switches, given what it was before. -/
def Switches.after (switches : Switches) (flag : Flag) (before : Bool) : Bool :=
  (switches.lookup flag).getD before

/-- The flags that decide what a part of a pattern may be. -/
structure Mode where
  unicode : Bool := true
  ignoreCase : Bool := false
  deriving DecidableEq, Repr

/-- The mode after some switches. -/
def Mode.set (mode : Mode) (switches : Switches) : Mode where
  unicode := switches.after .unicode mode.unicode
  ignoreCase := switches.after .ignoreCase mode.ignoreCase

end PeerCache
