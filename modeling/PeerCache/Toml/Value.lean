import PeerCache.Toml.Moment

/-!
Values of TOML. Arrays may run over several lines, hold comments and end in a comma; a table
between braces stays on one line, holds none and does not. How deep they may nest is bounded, and
that bound is what the reader of a value counts down.
-/

namespace PeerCache.Toml

/-- A value that holds no other values. -/
def scalar : Reader Node := fun cs =>
  match cs with
  | [] => none
  | c :: rest =>
    if c = basicQuote ∨ c = literalQuote then
      (quotedString c cs).map fun (s, rest) => (.text s, rest)
    else if c = '+' ∨ c = '-' ∨ isDigit c then
      (moment cs).or ((float cs).or (integer cs))
    else
      match c, rest with
      | 't', 'r' :: 'u' :: 'e' :: rest => some (.boolean true, rest)
      | 'f', 'a' :: 'l' :: 's' :: 'e' :: rest => some (.boolean false, rest)
      | _, _ => namedFloat cs

/-- The rest of an array. `fuel` bounds its elements. -/
def arrayItems (element : Reader Node) : Nat → Reader (List Node)
  | 0, _ => none
  | fuel + 1, cs =>
    match skipTrivia cs with
    | ']' :: rest => some ([], rest)
    | cs =>
      match element cs with
      | none => none
      | some (item, rest) =>
        match skipTrivia rest with
        | ']' :: rest => some ([item], rest)
        | ',' :: rest =>
          (arrayItems element fuel rest).map fun (items, rest) => (item :: items, rest)
        | _ => none

/-- A key with its value, as it stands in a table. -/
def definition (element : Reader Node) : Reader ((List String × String) × Node) := fun cs => do
  let (path, cs) ← keyPath cs
  let cs ← mark '=' cs
  let (value, cs) ← element (skipBlanks cs)
  return ((path, value), cs)

/-- The definitions of a table between braces, at least one. `fuel` bounds their number. -/
def inlineDefinitions (element : Reader Node) : Nat → Table → Reader Table
  | 0, _, _ => none
  | fuel + 1, table, cs =>
    match definition element cs with
    | none => none
    | some (((path, key), value), rest) =>
      match table.define path key value with
      | none => none
      | some table =>
        match skipBlanks rest with
        | '\x7d' :: rest => some (table, rest)
        | ',' :: rest => inlineDefinitions element fuel table rest
        | _ => none

/-- The rest of a table between braces. -/
def inlineTable (element : Reader Node) : Reader Table := fun cs =>
  match skipBlanks cs with
  | '\x7d' :: rest => some (⟨.inline, []⟩, rest)
  | cs => inlineDefinitions element (cs.length + 1) ⟨.inline, []⟩ cs

/-- A value in which fewer than `depth` arrays and tables are nested in each other. -/
def valueWithin : Nat → Reader Node
  | 0, _ => none
  | depth + 1, cs =>
    match cs with
    | '[' :: rest =>
      if depth = 0 then none
      else
        (arrayItems (valueWithin depth) (rest.length + 1) rest).map fun (items, rest) =>
          (.array items, rest)
    | '\x7b' :: rest =>
      if depth = 0 then none
      else (inlineTable (valueWithin depth) rest).map fun (table, rest) => (table.toNode, rest)
    | _ => scalar cs

/-- A value. -/
def value : Reader Node :=
  valueWithin nestingLimit

end PeerCache.Toml
