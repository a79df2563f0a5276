import PeerCache.Log.Filter
import PeerCache.Text.Quoted

/-!
A console that prints the events its filter hears, one line each. It is installed once; a later
attempt to install another one changes nothing.
-/

namespace PeerCache.Log

/-- The value of a field as a line shows it. -/
def FieldValue.render : FieldValue → String
  | number n => toString n
  | text s => Text.quoted s

/-- An event as a line. -/
def Event.line (event : Event) : String :=
  event.level.name ++ " " ++ event.target ++ ": " ++ event.message ++
    String.join (event.fields.map fun (name, value) => " " ++ name ++ "=" ++ value.render)

/-- The installed filter, if there is one. -/
structure Console where
  filter : Option Filter := none

namespace Console

/-- The filter of the environment if it has one that can be read, else that of `level`. -/
def chooseFilter (environment : Option String) (level : String) :
    Except Text.InnerPosition Filter :=
  match environment with
  | none => Filter.parseLossy level
  | some text =>
    match Filter.parse text with
    | .error inner => .error inner
    | .ok (some filter) => .ok filter
    | .ok none => Filter.parseLossy level

/-- Installs a console, unless there is one, and tells whether it did. Its filter is read in either
case. -/
def install (console : Console) (environment : Option String) (level : String) :
    Except Text.InnerPosition (Console × Bool) :=
  (chooseFilter environment level).map fun filter =>
    match console.filter with
    | some _ => (console, false)
    | none => (⟨some filter⟩, true)

/-- The lines that the console prints for a series of events. -/
def lines (console : Console) (events : List Event) : List String :=
  match console.filter with
  | some filter => (events.filter filter.hears).map Event.line
  | none => []

end Console

end PeerCache.Log
