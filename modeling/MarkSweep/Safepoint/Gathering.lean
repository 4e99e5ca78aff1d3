import MarkSweep.Safepoint.Barrier

namespace MarkSweep

/-- How a wait at the safepoint came out. -/
abbrev Departure := Except Failure Unit

/-- A thread that has arrived and not left. -/
structure Arrival where
  /-- Its number, in order of arrival. -/
  id : Nat
  thread : Thread := {}
  rest : Call Safepoint Departure

/-- A safepoint and the threads that wait at it. -/
structure Gathering where
  safepoint : Safepoint
  /-- What the clock reads. -/
  now : Duration
  /-- The threads that wait, the earliest first. -/
  waiting : List Arrival := []
  arrivals : Nat := 0
  /-- The threads that have left and how, since this was last asked for. -/
  departed : List (Nat × Departure) := []

namespace Gathering

/-- Lets a thread go on until it has to wait or leaves. A thread whose arrival meets a fault ends,
and nobody hears of it. -/
def resume (gathering : Gathering) (arrival : Arrival) : Gathering :=
  match Routine.advance arrival.rest (arrival.thread, gathering.safepoint) with
  | (.done (.ok departure), _, safepoint) =>
    { gathering with
      safepoint
      departed := gathering.departed ++ [(arrival.id, departure)] }
  | (.done (.error _), _, safepoint) => { gathering with safepoint }
  | (rest, thread, safepoint) =>
    { gathering with
      safepoint
      waiting := gathering.waiting ++ [{ arrival with thread, rest }] }

/-- Lets every thread go on until it has to wait or leaves. -/
def settle (gathering : Gathering) : Gathering :=
  gathering.waiting.foldl resume { gathering with waiting := [] }

/-- A new thread arrives, with a time limit or without; the answer is its number. -/
def arrive (gathering : Gathering) (limit : Option Duration) : Nat × Gathering :=
  let rest : Call Safepoint Departure :=
    match limit with
    | some limit => Safepoint.arriveAndWaitFor gathering.now limit
    | none => .ok <$> Safepoint.arriveAndWait
  (gathering.arrivals,
    { gathering with arrivals := gathering.arrivals + 1 }.resume { id := gathering.arrivals, rest })

/-- The threads that have left since this was last asked for, by number. -/
def takeDeparted (gathering : Gathering) : List (Nat × Departure) × Gathering :=
  (gathering.departed.mergeSort fun a b => a.1 ≤ b.1, { gathering with departed := [] })

/-- Runs a call of another thread on the safepoint; nothing happens if it would never return. -/
def call {α : Type} (gathering : Gathering) (call : Call Safepoint α) :
    Option (Except Fault α × Gathering) :=
  (Routine.run id call ({}, gathering.safepoint)).map fun (result, _, safepoint) =>
    (result, { gathering with safepoint })

end Gathering

end MarkSweep
