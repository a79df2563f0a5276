import PeerCache.Cache.Shared
import PeerCache.Checksum.Blake3
import PeerCache.Checksum.Crc32
import PeerCache.Ring.Basic
import PeerCache.Text.Quoted

/-!
Settings for a ring, a cache and a log, each with a default, and the rings and caches built from
them.
-/

namespace PeerCache

/-- The ring to build. -/
structure RingSettings where
  /-- How many positions every node gets. -/
  replicas : Nat := 50
  /-- The name of the hash function. All peers must use the same one to agree on owners. -/
  hash : String := "crc32"
  /-- The nodes to begin with. -/
  nodes : List String := []
  deriving DecidableEq, Repr

/-- The caches to build. -/
structure CacheSettings where
  /-- The most pairs held at a time; with 0 there is no bound. -/
  maxEntries : Nat := 10000
  deriving DecidableEq, Repr

/-- What to log. -/
structure LogSettings where
  level : String := "info"
  deriving DecidableEq, Repr

/-- All settings. -/
structure Config where
  ring : RingSettings := {}
  cache : CacheSettings := {}
  log : LogSettings := {}
  deriving DecidableEq, Repr

/-- Why a configuration file cannot be read. -/
inductive ReadFailure where
  | notFound
  | isDirectory
  | invalidUtf8
  deriving DecidableEq, Repr

def ReadFailure.message : ReadFailure → String
  | notFound => "No such file or directory (os error 2)"
  | isDirectory => "Is a directory (os error 21)"
  | invalidUtf8 => "stream did not contain valid UTF-8"

/-- Why there is no configuration, or nothing can be built from it. -/
inductive ConfigError where
  | unreadable (failure : ReadFailure)
  /-- The text is no TOML, or a setting does not have its type. -/
  | malformed
  | ring (error : RingError)
  | unknownHash (name : String)
  deriving DecidableEq, Repr

def ConfigError.message : ConfigError → String
  | unreadable failure => "failed to read config: " ++ failure.message
  | malformed => "invalid config"
  | ring error => "ring error: " ++ error.message
  | unknownHash name =>
    "unknown hash function " ++ Text.quoted name ++ ", expected \"crc32\" or \"blake3\""

namespace Config

/-- The hash function that the settings name. -/
def hashFn (config : Config) : Except ConfigError HashFn :=
  if config.ring.hash = "crc32" then .ok Checksum.crc32
  else if config.ring.hash = "blake3" then .ok Checksum.blake3
  else .error (.unknownHash config.ring.hash)

/-- The ring of the settings, with its nodes. An unknown hash function is told before a missing
replica count. -/
def buildRing (config : Config) : Except ConfigError Ring := do
  let hash ← config.hashFn
  let ring ← (Ring.empty? config.ring.replicas hash).mapError ConfigError.ring
  return ring.addNodes config.ring.nodes

variable {κ ν : Type} [BEq κ] [Hashable κ]

/-- A cache of the size of the settings. -/
def buildCache (config : Config) : Cache κ ν :=
  .empty config.cache.maxEntries

/-- A shared cache of the size of the settings. -/
def buildSharedCache (config : Config) : SharedCache κ ν :=
  .empty config.cache.maxEntries

end Config

end PeerCache
