import PeerCache.Toml.Value

/-!
TOML documents: `parse?` reads a text into the table it describes. The text is a list of lines that
open a table, open one more of a list of tables, or define a key in the table opened last; the
lines are then carried out one after the other.
-/

namespace PeerCache.Toml

/-- What a line of a document says. -/
inductive Statement where
  | openTable (path : List String) (key : String)
  | openElement (path : List String) (key : String)
  | define (path : List String) (key : String) (value : Node)

/-- A header behind its opening bracket, or brackets, up to the end of its line. -/
def header (close : List Char → Option (List Char)) : Reader (List String × String) :=
  fun cs => do
    let (path, cs) ← keyPath cs
    let cs ← close cs
    let cs ← restOfLine? cs
    return (path, cs)

/-- Two closing brackets with nothing between them. -/
def closeDouble (cs : List Char) : Option (List Char) :=
  (mark ']' cs).bind (mark ']')

/-- A line that says something. -/
def statement : Reader Statement
  | '[' :: '[' :: rest =>
    (header closeDouble rest).map fun ((path, key), rest) => (.openElement path key, rest)
  | '[' :: rest =>
    (header (mark ']') rest).map fun ((path, key), rest) => (.openTable path key, rest)
  | cs => do
    let (((path, key), value), cs) ← definition value cs
    let cs ← restOfLine? cs
    return (.define path key value, cs)

/-- All statements of a text. `fuel` bounds the lines. -/
def statements : Nat → List Char → Option (List Statement)
  | 0, _ => none
  | fuel + 1, cs =>
    match skipBlanks cs with
    | [] => some []
    | '#' :: rest => (lineEnd? (skipComment ('#' :: rest))).bind (statements fuel)
    | cs =>
      match newline? cs with
      | some rest => statements fuel rest
      | none =>
        match statement cs with
        | some (s, rest) => (statements fuel rest).map (s :: ·)
        | none => none

/-- A document under way: all of it, and the path of the table opened last. -/
structure Draft where
  root : Table := ⟨.header, []⟩
  current : List String := []

/-- Carries out a statement. -/
def Draft.perform (draft : Draft) : Statement → Option Draft
  | .openTable path key =>
    (draft.root.openTable path key).map fun root => ⟨root, path ++ [key]⟩
  | .openElement path key =>
    (draft.root.openElement path key).map fun root => ⟨root, path ++ [key]⟩
  | .define path key value =>
    (Table.alter false (·.define path key value) draft.current draft.root).map fun root =>
      { draft with root }

/-- A byte order mark, which may stand at the very beginning. -/
def byteOrderMark : Char := '\ufeff'

/-- Drops a byte order mark. -/
def dropMark : List Char → List Char
  | c :: rest => if c = byteOrderMark then rest else c :: rest
  | [] => []

/-- The table that a text describes, `none` if the text is no TOML. -/
def parse? (text : String) : Option Table := do
  let cs := dropMark text.toList
  let lines ← statements (cs.length + 1) cs
  let draft ← lines.foldlM Draft.perform {}
  return draft.root

end PeerCache.Toml
