import PeerCache.Config.Basic
import PeerCache.Toml.Document

/-!
Reading settings from TOML. A section is a table of settings by name, or an array of them in their
fixed order. A setting that is not there has its default; one that nobody knows is ignored; one of
the wrong type makes the whole configuration malformed.
-/

namespace PeerCache

open Toml (Node)

/-- The settings of a section: by name or by position. -/
inductive Section where
  | named (entries : List (String × Node))
  | listed (items : List Node)

namespace Section

/-- Reads a value as a section. A moment counts as a table of one setting that nobody knows. -/
def ofNode? : Node → Option Section
  | .table _ entries => some (.named entries)
  | .array items => some (.listed items)
  | .tables last earlier =>
    some (.listed ((last :: earlier).reverse.map fun entries => .table .header entries))
  | .moment => some (.named [])
  | _ => none

/-- The value given to a setting, if there is one. -/
def get? (settings : Section) (name : String) (position : Nat) : Option Node :=
  match settings with
  | named entries => entries.lookup name
  | listed items => items[position]?

/-- A setting read by `read`, or its default; `none` if it is there and has the wrong type. -/
def setting {α : Type} (settings : Section) (name : String) (position : Nat) (default : α)
    (read : Node → Option α) : Option α :=
  match settings.get? name position with
  | some node => read node
  | none => some default

end Section

namespace Toml.Node

/-- A number that counts something. -/
def count? : Node → Option Nat
  | .integer n => if 0 ≤ n then some n.toNat else none
  | _ => none

def text? : Node → Option String
  | .text s => some s
  | _ => none

def texts? : Node → Option (List String)
  | .array items => items.mapM text?
  | _ => none

end Toml.Node

/-- The settings of a ring, in the order replicas, hash, nodes. -/
def RingSettings.ofNode? (node : Node) : Option RingSettings := do
  let settings ← Section.ofNode? node
  let defaults : RingSettings := {}
  let replicas ← settings.setting "replicas" 0 defaults.replicas Node.count?
  let hash ← settings.setting "hash" 1 defaults.hash Node.text?
  let nodes ← settings.setting "nodes" 2 defaults.nodes Node.texts?
  return { replicas, hash, nodes }

def CacheSettings.ofNode? (node : Node) : Option CacheSettings := do
  let settings ← Section.ofNode? node
  let defaults : CacheSettings := {}
  let maxEntries ← settings.setting "max_entries" 0 defaults.maxEntries Node.count?
  return { maxEntries }

def LogSettings.ofNode? (node : Node) : Option LogSettings := do
  let settings ← Section.ofNode? node
  let defaults : LogSettings := {}
  let level ← settings.setting "level" 0 defaults.level Node.text?
  return { level }

namespace Config

/-- The settings in a table of sections. -/
def ofTable? (table : Toml.Table) : Option Config := do
  let sections := Section.named table.entries
  let ring ← sections.setting "ring" 0 {} RingSettings.ofNode?
  let cache ← sections.setting "cache" 1 {} CacheSettings.ofNode?
  let log ← sections.setting "log" 2 {} LogSettings.ofNode?
  return { ring, cache, log }

/-- The settings that a TOML text gives. -/
def ofToml (text : String) : Except ConfigError Config :=
  match (Toml.parse? text).bind ofTable? with
  | some config => .ok config
  | none => .error .malformed

/-- What stands where a configuration file is looked for. -/
inductive Source where
  /-- No file was asked for. -/
  | unspecified
  | missing
  | directory
  | file (bytes : ByteArray)

/-- The settings at a place, the defaults if none was given. -/
def load : Source → Except ConfigError Config
  | .unspecified => .ok {}
  | .missing => .error (.unreadable .notFound)
  | .directory => .error (.unreadable .isDirectory)
  | .file bytes =>
    match String.fromUTF8? bytes with
    | some text => ofToml text
    | none => .error (.unreadable .invalidUtf8)

end Config

end PeerCache
