import MarkSweep.Cycle.World
import MarkSweep.Mark.Crew

namespace MarkSweep.World

/-- One step of a tracer. The answer is the tracer after it or, at its end, how many entries it
marked. -/
def stepTracer (sheet : Sheet) (tracer : Tracer) : Call World (Tracer ⊕ Nat) :=
  .attemptAs fun thread world =>
    match tracer.step thread world.heap (world.sheet sheet) with
    | some (.ok (tracer, marks)) => (.ok (.inl tracer), world.setSheet sheet marks)
    | some (.error fault) => (.error fault, world)
    | none => (.ok (.inr tracer.marked), world)

/-- Lets a tracer take up to `budget` steps, the one that finds it finished included. -/
def traceWithin (sheet : Sheet) : (budget : Nat) → Tracer → Call World Nat
  | 0, _ => .await fun _ => none
  | budget + 1, tracer => do
    match ← stepTracer sheet tracer with
    | .inl tracer => traceWithin sheet budget tracer
    | .inr marked => return marked

/-- Marks what some cells reach. The answer is how many entries this call marked. A tracer that
nobody disturbs takes no more steps than its weight; how many more it takes because of others is up
to the environment. -/
def trace (sheet : Sheet) (cells : List Slot) : Call World Nat := do
  let budget ← .choose fun more world =>
    some ((Tracer.start cells).weight world.heap (world.sheet sheet) + 1 + more, world)
  traceWithin sheet budget (.start cells)

/-- Marks what some cells reach, for each of them on a thread of its own, while nothing else
happens. The answer is how many entries were marked together, or the fault of the first cell that
met one. -/
def traceEach (sheet : Sheet) (cells : List Slot) : Call World Nat :=
  .attempt fun world =>
    let crew := Crew.start (world.sheet sheet) (cells.map fun cell => [cell])
    let (results, marks) := crew.finish world.heap
    (results.foldlM (fun sum result => (sum + ·) <$> result) 0, world.setSheet sheet marks)

/-- A budget above the weight of a tracer lets it do what it does alone. -/
theorem run_traceWithin (settle : Thread × World → Thread × World) (thread : Thread)
    (sheet : Sheet) {budget : Nat} {tracer : Tracer} {world : World}
    (hweight : tracer.weight world.heap (world.sheet sheet) < budget) :
    Routine.run settle (traceWithin sheet budget tracer) (thread, world) =
      some ((tracer.run thread world.heap (world.sheet sheet)).1, thread,
        world.setSheet sheet (tracer.run thread world.heap (world.sheet sheet)).2) := by
  induction budget generalizing tracer world with
  | zero => omega
  | succ budget ih =>
    simp only [traceWithin, stepTracer, Call.attemptAs, bind, ExceptT.bind, ExceptT.mk,
      Routine.atomic, Routine.bind, Routine.run]
    rcases hstep : tracer.step thread world.heap (world.sheet sheet) with
      _ | fault | ⟨tracer', marks⟩
    · rw [Tracer.run_of_step_none hstep, setSheet_sheet]
      rfl
    · rw [Tracer.run_of_step_error hstep, setSheet_sheet]
      rfl
    · have hlt := Tracer.step_weight hstep
      rw [Tracer.run_of_step_ok hstep]
      have hrest : tracer'.weight (world.setSheet sheet marks).heap
          ((world.setSheet sheet marks).sheet sheet) < budget := by
        simp only [heap_setSheet, sheet_setSheet, if_pos]
        omega
      have hrun := ih hrest
      simp only [heap_setSheet, sheet_setSheet, if_pos, setSheet_setSheet] at hrun
      exact hrun

/-- A thread that nobody disturbs marks what a tracer alone marks, and ends as it does. -/
theorem run_trace (settle : Thread × World → Thread × World) (thread : Thread) (sheet : Sheet)
    (cells : List Slot) (world : World) :
    Routine.run settle (trace sheet cells) (thread, world) =
      some (((Tracer.start cells).run thread world.heap (world.sheet sheet)).1, thread,
        world.setSheet sheet
          ((Tracer.start cells).run thread world.heap (world.sheet sheet)).2) := by
  simp only [trace, Call.choose, bind, ExceptT.bind, ExceptT.mk, ExceptT.lift, Routine.choose,
    Functor.map, Routine.bind, Routine.run]
  exact run_traceWithin settle thread sheet (Nat.lt_succ_self _)

end MarkSweep.World
