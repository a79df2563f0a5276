import PeerCache.Log.Directive

/-!
Filters: lists of directives, of which the most specific one that an event concerns decides whether
the event is heard.

A longer target is more specific than a shorter one, and asking for a field more specific than not
asking; of directives that differ only in their level the last one holds. A directive that asks for
a span, or for the value of a field, is never about an event by itself.
-/

namespace PeerCache.Log

/-- Directives in the order they were given. -/
abbrev Filter := List Directive

namespace Directive

/-- The names of an event's fields; its message is one of them. -/
def fieldNames (event : Event) : List String :=
  "message" :: event.fields.map Prod.fst

/-- Whether an event is one that the directive decides about. -/
def concerns (directive : Directive) (event : Event) : Bool :=
  directive.inSpan.isNone &&
  (match directive.target with
    | some target => target.toList.isPrefixOf event.target.toList
    | none => true) &&
  (match directive.field with
    | some field => !field.hasValue && (fieldNames event).contains field.name
    | none => true)

/-- Whether a directive is at least as specific as another about the same event. Of two that ask
for different fields, the one with the later name counts as more specific. -/
def atLeastAsSpecific (a b : Directive) : Bool :=
  let size (d : Directive) : Nat := match d.target with
    | some target => target.length + 1
    | none => 0
  if size a ≠ size b then size b < size a
  else
    match a.field, b.field with
    | _, none => true
    | none, some _ => false
    | some f, some g => g.name ≤ f.name

end Directive

namespace Filter

/-- The directive that decides about an event. -/
def deciding (filter : Filter) (event : Event) : Option Directive :=
  (filter.filter (·.concerns event)).foldl
    (fun best directive =>
      match best with
      | none => some directive
      | some other => if directive.atLeastAsSpecific other then some directive else some other)
    none

/-- Whether an event is heard. Without a directive that concerns it only errors would be, and the
library emits none. -/
def hears (filter : Filter) (event : Event) : Bool :=
  match filter.deciding event with
  | some directive => directive.threshold.admits event.level
  | none => false

/-- The directives of a text, separated by commas; empty ones do not count. -/
def parts (text : String) : List (List Char) :=
  (text.toList.splitOn ',').filter fun part => !part.isEmpty

/-- The filter of some directives, if all of them can be read. -/
def ofAll : List (List Char) → Reading Filter
  | [] => .ok (some [])
  | part :: rest =>
    match Directive.parse part with
    | .error inner => .error inner
    | .ok none => .ok none
    | .ok (some directive) => (ofAll rest).map fun filter => filter.map (directive :: ·)

/-- The filter of those of some directives that can be read. -/
def ofReadable : List (List Char) → Except Text.InnerPosition Filter
  | [] => .ok []
  | part :: rest =>
    match Directive.parse part with
    | .error inner => .error inner
    | .ok none => ofReadable rest
    | .ok (some directive) => (ofReadable rest).map (directive :: ·)

/-- The filter that a text writes, if all its directives can be read. -/
def parse (text : String) : Reading Filter :=
  ofAll (parts text)

/-- The filter of those directives of a text that can be read. -/
def parseLossy (text : String) : Except Text.InnerPosition Filter :=
  ofReadable (parts text)

end Filter

end PeerCache.Log
