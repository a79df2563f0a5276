import PeerCache.Fault
import PeerCache.Log.Event

/-!
What an operation leaves behind: the new state, which exists whether the operation finished or
not, its answer or the fault that ended it, and the events it reported on the way.
-/

namespace PeerCache

/-- The result of one operation on a state of type `σ` with an answer of type `α`. -/
structure Step (σ α : Type) where
  state : σ
  answer : Except Fault α
  events : List Log.Event := []

namespace Step

variable {σ τ α β : Type}

/-- A step that answers `a` and reports nothing. -/
def done (s : σ) (a : α) : Step σ α :=
  ⟨s, .ok a, []⟩

/-- A step that ends in a fault and reports nothing. -/
def stop (s : σ) (f : Fault) : Step σ α :=
  ⟨s, .error f, []⟩

/-- Reads the state that a step leaves as part of a larger one. -/
def within (step : Step σ α) (embed : σ → τ) : Step τ α :=
  ⟨embed step.state, step.answer, step.events⟩

/-- Changes the answer, if there is one. -/
def map (step : Step σ α) (f : α → β) : Step σ β :=
  ⟨step.state, step.answer.map f, step.events⟩

/-- Goes on with the answer and the state, unless a fault has ended the work. -/
def andThen (step : Step σ α) (next : α → σ → Step σ β) : Step σ β :=
  match step.answer with
  | .error f => ⟨step.state, .error f, step.events⟩
  | .ok a =>
    let rest := next a step.state
    ⟨rest.state, rest.answer, step.events ++ rest.events⟩

@[simp] theorem andThen_done (s : σ) (a : α) (next : α → σ → Step σ β) :
    (done s a).andThen next = next a s := by
  simp [andThen, done]

@[simp] theorem andThen_stop (s : σ) (f : Fault) (next : α → σ → Step σ β) :
    (stop s f).andThen next = stop s f := by
  simp [andThen, stop]

/-- Work that has an answer goes on with it. -/
theorem andThen_of_ok {step : Step σ α} {a : α} (h : step.answer = .ok a)
    (next : α → σ → Step σ β) :
    (step.andThen next).state = (next a step.state).state ∧
      (step.andThen next).answer = (next a step.state).answer := by
  simp [andThen, h]

end Step

/-- Runs an operation once for every element of a list, in order, until one ends in a fault. -/
def Step.forEach {σ ι α : Type} (items : List ι) (run : ι → σ → Step σ α) (s : σ) :
    Step σ (List α) :=
  match items with
  | [] => .done s []
  | item :: rest =>
    (run item s).andThen fun a s => (Step.forEach rest run s).map (a :: ·)

/-- After an element whose work has an answer the rest are worked on, from the state that it left.
-/
theorem Step.forEach_cons_of_ok {σ ι α : Type} {item : ι} {run : ι → σ → Step σ α} {s : σ} {a : α}
    (h : (run item s).answer = .ok a) (rest : List ι) :
    (forEach (item :: rest) run s).state = (forEach rest run (run item s).state).state ∧
      (forEach (item :: rest) run s).answer =
        (forEach rest run (run item s).state).answer.map (a :: ·) :=
  andThen_of_ok h _

end PeerCache
