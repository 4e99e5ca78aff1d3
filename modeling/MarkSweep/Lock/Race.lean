import MarkSweep.Fault
import MarkSweep.Routine

namespace MarkSweep

variable {σ α : Type}

/-- Reads a value, and writes in a second step what `f` makes of it. Where `f` has a fault nothing
is written. -/
def Routine.ofUpdate (f : σ → Except Fault (α × σ)) : Routine σ (Except Fault α) := do
  let seen ← .atomic fun value => (value, value)
  match f seen with
  | .ok (a, value) => .atomic fun _ => (.ok a, value)
  | .error fault => return .error fault

/-- What a thread does while it holds a lock. The lock is acquired by exchanging false for true in
the flag and given back by storing false. -/
structure CriticalSection (σ α : Type) : Type 1 where
  /-- Whether the thread waits for the lock; otherwise it skips the section if the lock is taken. -/
  waits : Bool := true
  body : Routine σ (Except Fault α)

/-- The critical sections before a thread that has gone through one; a fault ends the thread. -/
def CriticalSection.after (result : Except Fault α) (rest : List (CriticalSection σ α)) :
    List (CriticalSection σ α) :=
  match result with
  | .ok _ => rest
  | .error _ => []

/-- What a racing thread is doing in its next critical section. -/
inductive RacerStage (σ α : Type) : Type 1
  /-- It is about to exchange the flag. -/
  | trying
  /-- It watches the flag. -/
  | watching
  /-- It holds the lock, and this is left for it to do before it gives the lock back. -/
  | holding (rest : Routine σ (Except Fault α))

/-- A racing thread. -/
structure Racer (σ α : Type) : Type 1 where
  /-- The critical sections before it, the one under way included. -/
  sections : List (CriticalSection σ α)
  /-- How far it is in the first of them. -/
  stage : RacerStage σ α := .trying
  /-- What came of those behind it, in order; there is nothing to tell of one that was skipped. -/
  answers : List (Option (Except Fault α)) := []

/-- Threads that race for one lock. -/
structure Race (σ α : Type) : Type 1 where
  /-- The flag. -/
  locked : Bool := false
  /-- What the lock guards. -/
  value : σ
  racers : List (Racer σ α)

/-- The next step of a thread, if it can take one, with the flag and the value after it. Decision 0
lets an exchange succeed whenever the flag is free; a thread that does not wait makes sure of that
itself. -/
def Racer.step (choice : Choice) (racer : Racer σ α) (locked : Bool) (value : σ) :
    Option (Racer σ α × Bool × σ) :=
  match racer.sections, racer.stage with
  | [], _ => none
  | current :: rest, .trying =>
    if current.waits then
      if locked ∨ choice ≠ 0 then some ({ racer with stage := .watching }, locked, value)
      else some ({ racer with stage := .holding current.body }, true, value)
    else if locked then some (⟨rest, .trying, racer.answers ++ [none]⟩, locked, value)
    else some ({ racer with stage := .holding current.body }, true, value)
  | _ :: _, .watching =>
    if locked then none else some ({ racer with stage := .trying }, locked, value)
  | _ :: _, .holding (.step act next) =>
    (act choice value).map fun (b, value) =>
      ({ racer with stage := .holding (next b) }, locked, value)
  | _ :: rest, .holding (.done result) =>
    some (⟨CriticalSection.after result rest, .trying, racer.answers ++ [some result]⟩, false,
      value)

namespace Race

/-- Threads with these critical sections before them, and the lock free. -/
def start (value : σ) (programs : List (List (CriticalSection σ α))) : Race σ α where
  value
  racers := programs.map fun sections => { sections }

/-- A step of one of the threads, if it can take one. -/
def step (choice : Choice) (i : Nat) (race : Race σ α) : Option (Race σ α) :=
  race.racers[i]?.bind fun racer =>
    (racer.step choice race.locked race.value).map fun (racer, locked, value) =>
      ⟨locked, value, race.racers.set i racer⟩

/-- The step of the first thread that can take one, in the ordinary course. -/
def firstStep? (race : Race σ α) : Option (Race σ α) :=
  (List.range race.racers.length).findSome? (race.step 0 ·)

/-- Takes steps until no thread can, and at most `fuel` of them. The first thread that can goes
before all others, so none is interrupted inside a critical section. -/
def run : (fuel : Nat) → Race σ α → Race σ α
  | 0, race => race
  | fuel + 1, race =>
    match race.firstStep? with
    | some race => race.run fuel
    | none => race

end Race

end MarkSweep
