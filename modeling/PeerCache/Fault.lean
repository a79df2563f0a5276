/-!
Faults: the ways an operation can stop before it has an answer, and the text that says so.

A fault is not an answer of the domain. It ends the operation on the spot, and a lock that the
operation held at that moment stays poisoned: nobody knows what was left half done behind it.
-/

namespace PeerCache

/-- The locks that a fault under way leaves poisoned. -/
inductive Lock where
  /-- Guards the calls in flight. -/
  | callMap
  /-- Guards a shared cache. -/
  | cache
  /-- Makes the writers of a shared ring take turns. -/
  | ringWriter
  deriving DecidableEq, Repr

/-- What taking a poisoned lock says. -/
def Lock.complaint : Lock → String
  | callMap => "call map lock poisoned"
  | cache => "cache lock poisoned"
  | ringWriter => "ring writer lock poisoned"

/-- What can be wrong with a slot that a recency list reaches for. -/
inductive SlotFault where
  | vacant
  | outOfRange (slot size : Nat)
  /-- The count of linked nodes would drop below zero. -/
  | countBelowZero
  deriving DecidableEq, Repr

def SlotFault.message : SlotFault → String
  | vacant => "recency list slot is vacant"
  | outOfRange slot size =>
    "index out of bounds: the len is " ++ toString size ++ " but the index is " ++ toString slot
  | countBelowZero => "attempt to subtract with overflow"

/-- Why an operation stopped before it had an answer. -/
inductive Fault where
  /-- Code handed to the library failed with a text of its own. -/
  | raised (text : String)
  /-- A result could not be copied for those who wait for it. -/
  | copyFailed
  | poisoned (lock : Lock)
  | slot (fault : SlotFault)
  /-- A key was routed in a cluster without peers. -/
  | noPeers
  /-- A peer was named that is not there. -/
  | unknownPeer
  /-- A cluster was asked for with no position per node. -/
  | zeroReplicas
  deriving DecidableEq, Repr

def Fault.message : Fault → String
  | raised text => text
  | copyFailed => "clone failed"
  | poisoned lock => lock.complaint ++ ": PoisonError \x7b .. \x7d"
  | slot fault => fault.message
  | noPeers => "cluster has peers"
  | unknownPeer => "no entry found for key"
  | zeroReplicas => "replicas >= 1: ZeroReplicas"

end PeerCache
