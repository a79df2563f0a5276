import PeerCache.Ring.Shared

/-!
Histories of a shared ring: everything that can be done to it, as values, what each thing done
answers, and the snapshots that readers keep on the way.
-/

namespace PeerCache

/-- Something done to a shared ring. -/
inductive RingOp where
  | write (change : RingWrite)
  | lookup (key : String)
  /-- A snapshot is taken and kept. -/
  | snapshot

namespace RingOp

/-- The write, if it is one. -/
def write? : RingOp → Option RingWrite
  | .write change => some change
  | _ => none

def isSnapshot : RingOp → Bool
  | .snapshot => true
  | _ => false

end RingOp

/-- What something done to a shared ring answers. -/
inductive RingAnswer where
  | written
  | owner (id : Option String)
  | taken (snapshot : Snapshot)

/-- A shared ring, and the snapshots kept of it in the order in which they were taken. -/
structure RingSession where
  shared : SharedRing
  kept : List Snapshot := []

namespace RingSession

/-- Shares a ring of which nobody keeps a snapshot yet. -/
def ofRing (ring : Ring) : RingSession :=
  ⟨.ofRing ring, []⟩

/-- Does something to a shared ring. -/
def apply (session : RingSession) : RingOp → Step RingSession RingAnswer
  | .write change =>
    ((session.shared.write change).map fun () => .written).within (⟨·, session.kept⟩)
  | .lookup key => .done session (.owner (session.shared.lookup key))
  | .snapshot =>
    let now := session.shared.snapshot
    .done ⟨session.shared, session.kept ++ [now]⟩ (.taken now)

/-- What is left at the end of a history. -/
def after (session : RingSession) (ops : List RingOp) : RingSession :=
  ops.foldl (fun session op => (session.apply op).state) session

@[simp] theorem after_nil (session : RingSession) : session.after [] = session := rfl

@[simp] theorem after_cons (session : RingSession) (op : RingOp) (ops : List RingOp) :
    session.after (op :: ops) = (session.apply op).state.after ops := rfl

/-- The back of a history goes on from what its front leaves. -/
theorem after_append (session : RingSession) (front back : List RingOp) :
    session.after (front ++ back) = (session.after front).after back := by
  rw [after, List.foldl_append]
  rfl

end RingSession

end PeerCache
