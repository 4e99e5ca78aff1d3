import MarkSweep.Duration
import MarkSweep.Safepoint.Registry

namespace MarkSweep

/-- The counters of the barrier. The last arrival of a round starts the next generation, which ends
the wait of everyone counted in the round. -/
structure Barrier where
  /-- Threads that wait in the current round. -/
  arrived : Nat := 0
  /-- How many rounds are complete. -/
  generation : UInt64 := 0
deriving DecidableEq, Repr

namespace Barrier

/-- Counts an arrival against a quorum. It completes the round if the quorum is reached. -/
def arrive (barrier : Barrier) (expected : Nat) : Bool × Barrier :=
  if barrier.arrived + 1 < expected then
    (false, { barrier with arrived := barrier.arrived + 1 })
  else
    (true, ⟨0, barrier.generation + 1⟩)

/-- Takes an arrival back. -/
def withdraw (barrier : Barrier) : Except Fault Barrier :=
  match barrier.arrived with
  | 0 => .error .subtractOverflow
  | n + 1 => .ok { barrier with arrived := n }

end Barrier

/-- The barrier and the count that is its quorum. -/
structure Safepoint where
  registry : Registry := {}
  barrier : Barrier := {}
deriving DecidableEq, Repr

namespace Safepoint

/-- How many threads a round waits for. -/
def expected (safepoint : Safepoint) : Nat := safepoint.registry.count

def render (safepoint : Safepoint) : String :=
  "Safepoint \x7b arrived: " ++ toString safepoint.barrier.arrived ++ ", generation: "
    ++ toString safepoint.barrier.generation.toNat ++ ", expected: "
    ++ toString safepoint.expected ++ " \x7d"

/-- Arrives. The answer is the generation to wait out, or nothing if the round is complete. -/
def enterRound : Call Safepoint (Option UInt64) :=
  .atomic fun safepoint =>
    match safepoint.barrier.arrive safepoint.expected with
    | (true, barrier) => (none, { safepoint with barrier })
    | (false, barrier) => (some barrier.generation, { safepoint with barrier })

/-- Arrives and waits until every registered thread has. -/
def arriveAndWait : Call Safepoint Unit := do
  match ← enterRound with
  | none => return ()
  | some generation =>
    .await fun safepoint =>
      if safepoint.barrier.generation = generation then none else some ((), safepoint)

/-- What a waiting thread with a time limit can do: go on if its generation is over, and otherwise
take its arrival back when the environment decides that the limit has passed. -/
def resumeOrWithdraw (generation : UInt64) (choice : Choice) (safepoint : Safepoint) :
    Option (Except Fault (Except Failure Unit) × Safepoint) :=
  if safepoint.barrier.generation = generation then
    match choice with
    | 0 => none
    | _ + 1 =>
      match safepoint.barrier.withdraw with
      | .error fault => some (.error fault, safepoint)
      | .ok barrier =>
        some
          (.ok (.error (.safepointTimeout safepoint.barrier.arrived safepoint.expected)),
            { safepoint with barrier })
  else
    some (.ok (.ok ()), safepoint)

/-- Arrives and waits for at most `limit` on a clock that reads `now` at first. -/
def arriveAndWaitFor (now limit : Duration) : Call Safepoint (Except Failure Unit) := do
  unless now.reachesDeadline limit do
    Call.fault .deadlineOverflow
  match ← enterRound with
  | none => return .ok ()
  | some generation => (← Call.choose (resumeOrWithdraw generation) : Except _ _)

end Safepoint

end MarkSweep
