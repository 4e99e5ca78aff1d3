import MarkSweep.Mark.Weight

namespace MarkSweep

/-- A marker at work.

It visits slots one by one, and an entry that a visit marks for the first time goes on the worklist,
so that only the tracer that marked an entry ever descends into it. When no slot is left to visit,
the latest entry of the worklist is read and its slots are visited next. -/
structure Tracer where
  pending : List Slot
  /-- Entries marked here and not yet descended into, the latest first. -/
  worklist : List Ref := []
  /-- How many entries were marked here for the first time. -/
  marked : Nat := 0
deriving DecidableEq, Repr

namespace Tracer

/-- A tracer that has all of `cells` before it. -/
def start (cells : List Slot) : Tracer := { pending := cells }

/-- The next step of a tracer, or nothing when it has finished. -/
def step (thread : Thread) (heap : Heap) (marks : Marks) (tracer : Tracer) :
    Option (Except Fault (Tracer × Marks)) :=
  match tracer.pending, tracer.worklist with
  | none :: rest, _ => some (.ok ({ tracer with pending := rest }, marks))
  | some ref :: rest, worklist =>
    match thread.checkEnter .marks with
    | .error fault => some (.error fault)
    | .ok () =>
      match marks.insert ref with
      | (true, marks) =>
        some (.ok (⟨rest, ref :: worklist, tracer.marked + 1⟩, marks))
      | (false, marks) => some (.ok ({ tracer with pending := rest }, marks))
  | [], ref :: rest =>
    match thread.checkEnter .heap with
    | .error fault => some (.error fault)
    | .ok () =>
      match heap.slotsOf? ref with
      | some cells => some (.ok (⟨cells, rest, tracer.marked⟩, marks))
      | none => some (.error (.missingEntry ref))
  | [], [] => none

/-- What it costs to descend into an entry of the worklist. -/
def refWeight (heap : Heap) (ref : Ref) : Nat :=
  match heap.slotsOf? ref with
  | some cells => entryWeight cells
  | none => 1

/-- The weight of what the heap holds unmarked. -/
def heapWeight (heap : Heap) (marks : Marks) : Nat :=
  unmarkedWeight heap.objects marks.objects + unmarkedWeight heap.arrays marks.arrays

/-- A bound on the steps that a tracer can still take. -/
def weight (heap : Heap) (marks : Marks) (tracer : Tracer) : Nat :=
  heapWeight heap marks + total (refWeight heap) tracer.worklist
    + slotWeight * tracer.pending.length

/-- A mark leaves no more of the heap unmarked. -/
theorem heapWeight_insert_le (heap : Heap) (marks : Marks) (ref : Ref) :
    heapWeight heap (marks.insert ref).2 ≤ heapWeight heap marks := by
  cases ref with
  | object offset =>
    have := unmarkedWeight_insert_le heap.objects marks.objects offset
    simp only [heapWeight, Marks.insert]; omega
  | array offset =>
    have := unmarkedWeight_insert_le heap.arrays marks.arrays offset
    simp only [heapWeight, Marks.insert]; omega

/-- A new mark takes the weight of its entry away, and costs a missing entry nothing. -/
theorem heapWeight_insert_add (heap : Heap) {marks : Marks} {ref : Ref}
    (hnew : marks.contains ref = false) :
    heapWeight heap (marks.insert ref).2 + refWeight heap ref ≤ heapWeight heap marks + 1 := by
  have hle := heapWeight_insert_le heap marks ref
  cases ref with
  | object offset =>
    cases hentry : heap.objects[offset]? with
    | none => simp only [refWeight, Heap.slotsOf?, hentry, Option.map_none]; omega
    | some entry =>
      have := unmarkedWeight_insert_add hentry hnew
      simp only [heapWeight, Marks.insert, refWeight, Heap.slotsOf?, hentry, Option.map_some]
      omega
  | array offset =>
    cases hentry : heap.arrays[offset]? with
    | none => simp only [refWeight, Heap.slotsOf?, hentry, Option.map_none]; omega
    | some entry =>
      have := unmarkedWeight_insert_add hentry hnew
      simp only [heapWeight, Marks.insert, refWeight, Heap.slotsOf?, hentry, Option.map_some]
      omega

/-- Every step leaves less to do. -/
theorem step_weight {thread : Thread} {heap : Heap} {marks marks' : Marks}
    {tracer tracer' : Tracer}
    (hstep : tracer.step thread heap marks = some (.ok (tracer', marks'))) :
    tracer'.weight heap marks' < tracer.weight heap marks := by
  obtain ⟨pending, worklist, marked⟩ := tracer
  rcases pending with _ | ⟨_ | ref, rest⟩
  · rcases worklist with _ | ⟨ref, rest⟩
    · cases hstep
    · simp only [step] at hstep
      split at hstep
      · cases hstep
      · split at hstep
        · next cells hcells =>
          cases hstep
          simp only [weight, total_cons, refWeight, hcells, entryWeight,
            List.length_nil]
          omega
        · cases hstep
  · cases hstep
    simp [weight, slotWeight]
  · simp only [step] at hstep
    split at hstep
    · cases hstep
    · split at hstep
      · next hinsert =>
        cases hstep
        have hnew : marks.contains ref = false := by
          simpa using congrArg Prod.fst hinsert
        have := heapWeight_insert_add heap hnew
        rw [hinsert] at this
        simp only [weight, slotWeight, total_cons, List.length_cons] at this ⊢
        omega
      · next hinsert =>
        cases hstep
        have := heapWeight_insert_le heap marks ref
        rw [hinsert] at this
        simp only [weight, slotWeight, List.length_cons] at this ⊢
        omega

/-- No step leaves more of the heap unmarked. -/
theorem step_heapWeight_le {thread : Thread} {heap : Heap} {marks marks' : Marks}
    {tracer tracer' : Tracer}
    (hstep : tracer.step thread heap marks = some (.ok (tracer', marks'))) :
    heapWeight heap marks' ≤ heapWeight heap marks := by
  obtain ⟨pending, worklist, marked⟩ := tracer
  rcases pending with _ | ⟨_ | ref, rest⟩
  · rcases worklist with _ | ⟨ref, rest⟩
    · cases hstep
    · simp only [step] at hstep
      repeat' split at hstep
      all_goals cases hstep
      exact Nat.le_refl _
  · cases hstep; exact Nat.le_refl _
  · have hle := heapWeight_insert_le heap marks ref
    simp only [step] at hstep
    split at hstep
    · cases hstep
    · split at hstep <;> next hinsert => cases hstep; rw [hinsert] at hle; exact hle

/-- A tracer has at least what is unmarked of the heap before it. -/
theorem heapWeight_le_weight (heap : Heap) (marks : Marks) (tracer : Tracer) :
    heapWeight heap marks ≤ tracer.weight heap marks := by
  simp only [weight, Nat.add_assoc, Nat.le_add_right]

/-- A tracer that starts has before it what is unmarked of the heap, and its cells. -/
theorem weight_start (heap : Heap) (marks : Marks) (cells : List Slot) :
    (start cells).weight heap marks = heapWeight heap marks + slotWeight * cells.length := by
  simp [weight, start]

theorem weight_start_nil (heap : Heap) (marks : Marks) :
    (start []).weight heap marks = heapWeight heap marks := by
  simp [weight_start]

/-- Runs a tracer alone. The answer is how many entries it marked; where it meets a missing entry
it abandons its worklist, and what is marked stays marked. -/
def run (thread : Thread) (heap : Heap) (marks : Marks) (tracer : Tracer) :
    Except Fault Nat × Marks :=
  match _h : tracer.step thread heap marks with
  | none => (.ok tracer.marked, marks)
  | some (.error fault) => (.error fault, marks)
  | some (.ok (tracer', marks')) => run thread heap marks' tracer'
termination_by tracer.weight heap marks
decreasing_by exact step_weight _h

variable {thread : Thread} {heap : Heap} {marks : Marks} {tracer : Tracer}

theorem run_of_step_none (hstep : tracer.step thread heap marks = none) :
    tracer.run thread heap marks = (.ok tracer.marked, marks) := by
  rw [run]
  split <;> simp_all

theorem run_of_step_error {fault : Fault}
    (hstep : tracer.step thread heap marks = some (.error fault)) :
    tracer.run thread heap marks = (.error fault, marks) := by
  rw [run]
  split <;> simp_all

theorem run_of_step_ok {tracer' : Tracer} {marks' : Marks}
    (hstep : tracer.step thread heap marks = some (.ok (tracer', marks'))) :
    tracer.run thread heap marks = tracer'.run thread heap marks' := by
  rw [run]
  split <;> simp_all

end Tracer

end MarkSweep
