import PeerCache.Log.Event
import PeerCache.Log.ValuePattern
import PeerCache.Text.Alphanumeric
import PeerCache.Text.Bytes

/-!
Directives: requests to hear the events of some part of the library up to some level.

A directive is written as a level, as a target with or without a level, or with a bracket that
names a span and a field: `warn`, `cache=trace`, `flight[call{key}]=debug`. Without a level it
asks for everything. A field may come with a value, and then the value has to be one that can be
asked for.

Places in a directive are found without the blanks around it, while its parts are cut from the text
as it stands, at the same positions in bytes. So a directive with blanks in front names what nobody
emits, or a level that does not exist; and if the cut goes through a blank or another character of
several bytes, there is no part to be read.
-/

namespace PeerCache.Log

/-- The loudest and all quieter levels that are heard, `none` if nothing is. -/
abbrev Threshold := Option Level

/-- Whether events of a level are heard. -/
def Threshold.admits (threshold : Threshold) (level : Level) : Bool :=
  match threshold with
  | some most => level.rank ≤ most.rank
  | none => false

/-- A field that an event must have, and whether a value is asked for as well. -/
structure FieldMatch where
  name : String
  hasValue : Bool
  deriving DecidableEq, Repr

/-- One request. -/
structure Directive where
  /-- How the targets begin that it is about, all if `none`. -/
  target : Option String := none
  /-- The span that events must be inside of. -/
  inSpan : Option String := none
  field : Option FieldMatch := none
  threshold : Threshold := some .trace
  deriving DecidableEq, Repr

/-! ### Levels -/

/-- The thresholds in the order of the numbers that stand for them. -/
def numberedThresholds : List Threshold :=
  [none, some .error, some .warn, some .info, some .debug, some .trace]

/-- The names of the thresholds, in the same order. -/
def thresholdNames : List String :=
  ["off", "error", "warn", "info", "debug", "trace"]

/-- The number that digits write, with or without a plus sign in front. -/
def plainNumber? (text : List Char) : Option Nat :=
  let digits := if text.head? = some '+' then text.drop 1 else text
  if digits ≠ [] ∧ digits.all Char.isDigit then
    some (digits.foldl (fun n d => 10 * n + (d.toNat - '0'.toNat)) 0)
  else none

/-- The threshold that a text names, in letters of either case or as a number. -/
def threshold? (text : List Char) : Option Threshold :=
  match (plainNumber? text).bind (numberedThresholds[·]?) with
  | some threshold => some threshold
  | none =>
    (thresholdNames.zip numberedThresholds).lookup (String.ofList (text.map Char.toLower))

/-! ### Reading a directive -/

/-- The first position from `first` on that holds one of the given characters, and which. -/
def findFrom (text : List Char) (first : Nat) (wanted : List Char) : Option (Nat × Char) :=
  let skipped := (text.drop first).takeWhile fun c => !wanted.contains c
  let place := first + skipped.length
  (text[place]?).map fun c => (place, c)

/-- A text without the blanks around it. -/
def trim (text : List Char) : List Char :=
  ((text.dropWhile Text.isBlank).reverse.dropWhile Text.isBlank).reverse

/-- What is read, nothing if it is refused, or the position at which it could not be cut. -/
abbrev Reading (α : Type) := Except Text.InnerPosition (Option α)

/-- The part of `text` at the positions that two places have in its trimmed form. -/
def cut (text trimmed : List Char) (first last : Nat) : Except Text.InnerPosition (List Char) :=
  Text.slice text (Text.byteSize (trimmed.take first)) (Text.byteSize (trimmed.take last))

/-- The rest of `text` from the position on that a place has in its trimmed form. -/
def cutFrom (text trimmed : List Char) (first : Nat) : Except Text.InnerPosition (List Char) :=
  Text.slice text (Text.byteSize (trimmed.take first)) (Text.byteSize text)

/-- The threshold written behind an equals sign; nothing there stands for everything. -/
def thresholdAfterSign? (text : List Char) : Option Threshold :=
  if text.isEmpty then some (some .trace) else threshold? text

/-- What may follow a target with a bracket: a level or nothing. `place` is where it begins. -/
def readLevel (text trimmed : List Char) (place : Nat) (directive : Directive) :
    Reading Directive :=
  match trimmed[place]? with
  | none => .ok (some directive)
  | some '=' =>
    match cutFrom text trimmed (place + 1) with
    | .error inner => .error inner
    | .ok level =>
      .ok ((thresholdAfterSign? level).map fun threshold => { directive with threshold })
  | some _ => .ok none

/-- A field as a bracket names it, with the value that is asked for behind an equals sign. A second
equals sign ends the value. -/
def fieldMatch? (text : List Char) : Option FieldMatch :=
  match text.splitOn '=' with
  | [] => none
  | [name] => some ⟨String.ofList name, false⟩
  | name :: value :: _ =>
    if isValuePattern value then some ⟨String.ofList name, true⟩ else none

/-- What follows the opening brace of a field: its name, and a value to ask for. -/
def readField (text trimmed : List Char) (place : Nat) (directive : Directive) :
    Reading Directive :=
  match findFrom trimmed place ['\x7d'] with
  | none => .ok none
  | some (stop, _) =>
    match cut text trimmed place stop with
    | .error inner => .error inner
    | .ok field =>
      match fieldMatch? field with
      | none => .ok none
      | some fieldMatch =>
        if field.isEmpty ∨ trimmed[stop + 1]? ≠ some ']' then .ok none
        else readLevel text trimmed (stop + 2) { directive with field := some fieldMatch }

/-- A bracket behind its opening: the name of a span, a field in braces, or both. -/
def readBracket (text trimmed : List Char) (place : Nat) (directive : Directive) :
    Reading Directive :=
  match findFrom trimmed place [']', '\x7b'] with
  | none => .ok none
  | some (stop, mark) =>
    match cut text trimmed place stop with
    | .error inner => .error inner
    | .ok name =>
      let inSpan := some (String.ofList name)
      if mark = ']' then readLevel text trimmed (stop + 1) { directive with inSpan }
      else if name.isEmpty then readField text trimmed (stop + 1) directive
      else readField text trimmed (stop + 1) { directive with inSpan }

/-- Whether a directive may begin with a character, a bracket apart. -/
def mayBegin (c : Char) : Bool :=
  c = '-' || c = ':' || c = '_' || Text.isAlphanumeric c

/-- The directive that a text writes. -/
def Directive.parse (text : List Char) : Reading Directive :=
  let trimmed := trim text
  match trimmed with
  | [] => .ok none
  | '[' :: _ => readBracket text trimmed 1 {}
  | c :: _ =>
    if mayBegin c then
      match findFrom trimmed 0 ['=', '['] with
      | none =>
        match threshold? text with
        | some threshold => .ok (some { threshold })
        | none => .ok (some { target := some (String.ofList text) })
      | some (stop, mark) =>
        match cut text trimmed 0 stop with
        | .error inner => .error inner
        | .ok target =>
          let directive : Directive := { target := some (String.ofList target) }
          if mark = '=' then readLevel text trimmed stop directive
          else readBracket text trimmed (stop + 1) directive
    else .ok none

end PeerCache.Log
