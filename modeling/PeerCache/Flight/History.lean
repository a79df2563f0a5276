import PeerCache.Flight.Poll

/-!
Histories of a flight: everything that can be done to it from outside, as values, and what each
thing done leaves behind.
-/

namespace PeerCache

/-- Something done to a flight. -/
inductive FlightOp (ν ε : Type) where
  | spawn (id : TaskId) (key : String) (outcome : Option (Outcome ν ε))
      (startFault : Option String)
  | poll (id : TaskId)
  | resolve (id : TaskId) (outcome : Outcome ν ε)
  | abandon (id : TaskId)

/-- What something done to a flight answers. -/
inductive FlightAnswer (ν ε : Type) where
  | done
  | polled (answer : Poll ν ε)
  /-- Whether there was a task to drop. -/
  | abandoned (there : Bool)

/-- What something done to a flight leaves behind. -/
structure FlightStep (ν ε : Type) where
  flight : Flight ν ε
  answer : FlightAnswer ν ε
  /-- The tasks whose computation was started. -/
  started : List TaskId := []
  events : List Log.Event := []

namespace Flight

variable {ν ε : Type}

/-- Does something to a flight. -/
def apply (flight : Flight ν ε) : FlightOp ν ε → FlightStep ν ε
  | .spawn id key outcome startFault =>
    { flight := flight.spawn id key outcome startFault, answer := .done }
  | .poll id =>
    let polled := flight.poll id
    { flight := polled.flight
      answer := .polled polled.answer
      started := if polled.started then [id] else []
      events := polled.events }
  | .resolve id outcome => { flight := flight.resolve id outcome, answer := .done }
  | .abandon id =>
    let (flight, there) := flight.abandon id
    { flight, answer := .abandoned there }

/-- The steps of a history, in order. -/
def play (flight : Flight ν ε) : List (FlightOp ν ε) → List (FlightStep ν ε)
  | [] => []
  | op :: ops =>
    let step := flight.apply op
    step :: step.flight.play ops

/-- The flight at the end of a history. -/
def after (flight : Flight ν ε) (ops : List (FlightOp ν ε)) : Flight ν ε :=
  ops.foldl (fun flight op => (flight.apply op).flight) flight

@[simp] theorem after_nil (flight : Flight ν ε) : flight.after [] = flight := rfl

@[simp] theorem after_cons (flight : Flight ν ε) (op : FlightOp ν ε) (ops : List (FlightOp ν ε)) :
    flight.after (op :: ops) = (flight.apply op).flight.after ops := rfl

/-- The back of a history goes on from the flight that its front leaves. -/
theorem after_append (flight : Flight ν ε) (front back : List (FlightOp ν ε)) :
    flight.after (front ++ back) = (flight.after front).after back := by
  rw [after, List.foldl_append]
  rfl

@[simp] theorem length_play (flight : Flight ν ε) (ops : List (FlightOp ν ε)) :
    (flight.play ops).length = ops.length := by
  induction ops generalizing flight with
  | nil => rfl
  | cons op ops ih => rw [play, List.length_cons, ih, List.length_cons]

end Flight

end PeerCache
