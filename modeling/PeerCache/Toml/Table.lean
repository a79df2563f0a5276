/-!
What a TOML document holds, and which keys may be defined where.

A table remembers how it came to be, because that decides what may still be added to it: under a
header of its own, implied by a longer header, by a dotted key, or between braces. `Table.alter`
walks along a path of keys and changes the table at its end, `Table.define` gives a key a value,
and `Table.openTable` and `Table.openElement` do the work of the two kinds of header.
-/

namespace PeerCache.Toml

/-- How a table came to be. -/
inductive TableKind where
  /-- By a header that names it. The whole document counts as one. -/
  | header
  /-- By a header that names a table inside it. -/
  | implied
  /-- By a dotted key. -/
  | dotted
  /-- Between braces; nothing is added to it later. -/
  | inline
  deriving DecidableEq, Repr

/-- Whether a path may lead through a table of this kind to something new inside it. A dotted key
may not reach into a table that has a header. -/
def TableKind.admits (kind : TableKind) (byDottedKey : Bool) : Bool :=
  match kind with
  | header => !byDottedKey
  | implied | dotted => true
  | inline => false

/-- A value of a document. Floats and moments are recognised but not computed with. -/
inductive Node where
  | text (s : String)
  | integer (n : Int)
  | boolean (b : Bool)
  | float
  /-- A date, a time of day, or both. -/
  | moment
  | array (items : List Node)
  | table (kind : TableKind) (entries : List (String × Node))
  /-- Tables collected under one doubled header; the last one is still open, and before it come the
  earlier ones, the latest first. -/
  | tables (last : List (String × Node)) (earlier : List (List (String × Node)))

/-- Keys with their values, in the order they were defined. -/
abbrev Entries := List (String × Node)

/-- A table on its own. -/
structure Table where
  kind : TableKind
  entries : Entries

namespace Table

/-- A table as a value of the table around it. -/
def toNode (table : Table) : Node :=
  .table table.kind table.entries

def get? (table : Table) (key : String) : Option Node :=
  table.entries.lookup key

/-- Gives a key a value in place of the one it has, or as the last key. -/
def put (table : Table) (key : String) (node : Node) : Table :=
  if (table.get? key).isSome then
    { table with entries := table.entries.map fun e => if e.1 = key then (key, node) else e }
  else
    { table with entries := table.entries ++ [(key, node)] }

/-- Changes the table at the end of a path. Tables missing on the way are made: dotted ones by a
dotted key, implied ones by a header. Through tables collected under one header the path leads
into the last of them. -/
def alter (byDottedKey : Bool) (edit : Table → Option Table) : List String → Table → Option Table
  | [], table => edit table
  | key :: path, table =>
    match table.get? key with
    | none =>
      let made : Table := ⟨if byDottedKey then .dotted else .implied, []⟩
      (alter byDottedKey edit path made).map fun child => table.put key child.toNode
    | some (.table kind entries) =>
      if kind.admits byDottedKey then
        (alter byDottedKey edit path ⟨kind, entries⟩).map fun child => table.put key child.toNode
      else none
    | some (.tables last earlier) =>
      (alter byDottedKey edit path ⟨.header, last⟩).map fun child =>
        table.put key (.tables child.entries earlier)
    | some _ => none

/-- Gives a new key a value; with a path before it, only in a table that dotted keys have made. -/
def define (table : Table) (path : List String) (key : String) (node : Node) : Option Table :=
  alter true
    (fun target =>
      if (target.kind = .dotted ↔ path ≠ []) ∧ (target.get? key).isNone then
        some (target.put key node)
      else none)
    path table

/-- Opens the table that a header names. It must be new, or implied by longer headers so far. -/
def openTable (table : Table) (path : List String) (key : String) : Option Table :=
  alter false
    (fun target =>
      match target.get? key with
      | none => some (target.put key (.table .header []))
      | some (.table .implied entries) => some (target.put key (.table .header entries))
      | some _ => none)
    path table

/-- Opens one more of the tables that a doubled header collects. -/
def openElement (table : Table) (path : List String) (key : String) : Option Table :=
  alter false
    (fun target =>
      match target.get? key with
      | none => some (target.put key (.tables [] []))
      | some (.tables last earlier) => some (target.put key (.tables [] (last :: earlier)))
      | some _ => none)
    path table

end Table

end PeerCache.Toml
