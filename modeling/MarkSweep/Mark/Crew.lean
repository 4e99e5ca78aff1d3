import MarkSweep.Mark.Tracer

namespace MarkSweep

/-- A tracer that is at work or has come to its end. -/
inductive Tracing
  /-- It has still steps to take. -/
  | working (tracer : Tracer)
  /-- It has marked this many entries, or met a missing one. -/
  | ended (result : Except Fault Nat)

/-- Tracers and the mark sets that they share. -/
structure Crew where
  marks : Marks
  members : List Tracing

namespace Crew

/-- A crew whose tracers have all their cells before them. -/
def start (marks : Marks) (rows : List (List Slot)) : Crew :=
  ⟨marks, rows.map fun cells => .working (.start cells)⟩

/-- A step of one of the tracers, unless it has come to its end. -/
def step (heap : Heap) (i : Nat) (crew : Crew) : Option Crew :=
  match crew.members[i]? with
  | some (.working tracer) =>
    match tracer.step {} heap crew.marks with
    | some (.ok (tracer, marks)) => some ⟨marks, crew.members.set i (.working tracer)⟩
    | some (.error fault) =>
      some { crew with members := crew.members.set i (.ended (.error fault)) }
    | none => some { crew with members := crew.members.set i (.ended (.ok tracer.marked)) }
  | some (.ended _) | none => none

/-- Lets the tracers go on, each to its end before the next. The answer is what became of them. -/
def finish (heap : Heap) (crew : Crew) : List (Except Fault Nat) × Marks :=
  crew.members.foldr
    (fun member rest marks =>
      match member with
      | .working tracer =>
        let (result, marks) := tracer.run {} heap marks
        let (results, marks) := rest marks
        (result :: results, marks)
      | .ended result =>
        let (results, marks) := rest marks
        (result :: results, marks))
    (fun marks => ([], marks)) crew.marks

end Crew

end MarkSweep
