import MarkSweep.Cycle.World
import MarkSweep.Heap.Sweep
import MarkSweep.Mark.Tracer
import MarkSweep.Pool.Settle

namespace MarkSweep

/-- A marking job at work. It reads one row at a time and traces it before it reads the next. -/
structure Marking where
  sheet : Sheet
  /-- The rows that it has still to read. -/
  rows : List RootRow
  /-- Its tracer on the row read last. -/
  tracer : Tracer := .start []
  slotsRead : Nat := 0
deriving DecidableEq, Repr

/-- A task of a collection. -/
inductive Job
  /-- Marks what a number of root rows reach. -/
  | mark (marking : Marking)
  /-- Marks what the static fields of the loaded classes reach. -/
  | markStatics (sheet : Sheet)
  | sweep (region : Region) (live : LiveSet)

namespace Job

/-- The job that marks what one row of a frame reaches. -/
def markRow (sheet : Sheet) (id : FrameId) (row : FrameRow) : Job :=
  .mark { sheet, rows := [.frame id row] }

def stepMarking (thread : Thread) (world : World) (marking : Marking) : Move Job World Tally :=
  match marking.tracer.step thread world.heap (world.sheet marking.sheet) with
  | some (.ok (tracer, marks)) =>
    .next (world.setSheet marking.sheet marks) (.mark { marking with tracer })
  | some (.error fault) => .finish world (.fault fault.payload)
  | none =>
    match marking.rows with
    | [] => .finish world (.value ⟨marking.slotsRead, 0⟩)
    | row :: rows =>
      match thread.checkEnter .heap with
      | .error fault => .finish world (.fault fault.payload)
      | .ok () =>
        let cells := world.rootSlots row
        .next world
          (.mark
            { marking with
              rows, tracer := .start cells, slotsRead := marking.slotsRead + cells.length })

def step (thread : Thread) (world : World) : Job → Move Job World Tally
  | .mark marking => stepMarking thread world marking
  | .markStatics sheet => .next world (.mark { sheet, rows := world.staticRows })
  | .sweep region live =>
    match thread.checkEnter .heap with
    | .error fault => .finish world (.fault fault.payload)
    | .ok () =>
      let (tally, heap) := world.heap.erase live region
      .finish { world with heap } (.value tally)

/-- What it costs to read and trace a row. -/
def rowWeight (world : World) (row : RootRow) : Nat :=
  slotWeight * (world.rootSlots row).length + 1

/-- What a job has still to do. -/
def weight (world : World) : Job → Nat
  | .mark marking =>
    marking.tracer.weight world.heap (world.sheet marking.sheet)
      + total (rowWeight world) marking.rows
  | .markStatics sheet =>
    Tracer.heapWeight world.heap (world.sheet sheet)
      + total (rowWeight world) world.staticRows + 1
  | .sweep _ _ => 0

/-- A world in which no job has more to do than in another. -/
structure Eases (after before : World) : Prop where
  /-- No pair of mark sets leaves more of the heap unmarked. -/
  heapWeight_le : ∀ sheet, Tracer.heapWeight after.heap (after.sheet sheet) ≤
    Tracer.heapWeight before.heap (before.sheet sheet)
  /-- No entry has more slots. -/
  refWeight_le : ∀ ref, Tracer.refWeight after.heap ref ≤ Tracer.refWeight before.heap ref
  /-- The roots are the same. -/
  rootSlots_eq : ∀ row, after.rootSlots row = before.rootSlots row
  /-- The same classes are loaded. -/
  staticRows_eq : after.staticRows = before.staticRows

theorem Eases.refl (world : World) : Eases world world :=
  ⟨fun _ => Nat.le_refl _, fun _ => Nat.le_refl _, fun _ => rfl, rfl⟩

/-- A world that eases another one leaves no job more to do. -/
theorem Eases.weight_le {after before : World} (h : Eases after before) (job : Job) :
    job.weight after ≤ job.weight before := by
  have hrow : rowWeight after = rowWeight before := by
    funext row
    simp only [rowWeight, h.rootSlots_eq]
  cases job with
  | mark marking =>
    have hheap := h.heapWeight_le marking.sheet
    have hrefs := total_le_total h.refWeight_le marking.tracer.worklist
    simp only [weight, Tracer.weight, hrow]
    omega
  | markStatics sheet =>
    have hheap := h.heapWeight_le sheet
    simp only [weight, h.staticRows_eq, hrow]
    omega
  | sweep region live => exact Nat.le_refl _

/-- Marking eases the world. -/
theorem eases_setSheet {world : World} {sheet : Sheet} {marks : Marks}
    (hle : Tracer.heapWeight world.heap marks ≤
      Tracer.heapWeight world.heap (world.sheet sheet)) :
    Eases (world.setSheet sheet marks) world where
  heapWeight_le other := by
    rw [World.heap_setSheet, World.sheet_setSheet]
    split
    · next h => rw [h]; exact hle
    · exact Nat.le_refl _
  refWeight_le ref := Nat.le_of_eq (by rw [World.heap_setSheet])
  rootSlots_eq := World.rootSlots_setSheet world sheet marks
  staticRows_eq := World.staticRows_setSheet world sheet marks

/-- What is left of a filtered container has the slots that it had. -/
private theorem map_slots_filter_le {α : Type} [HasSlots α] (entries : Container α)
    (keep : Offset → α → Bool) (offset : Offset) :
    (entries.filter keep)[offset]?.map slots = none ∨
      (entries.filter keep)[offset]?.map slots = entries[offset]?.map slots := by
  rw [Std.ExtTreeMap.getElem?_filter']
  cases entries[offset]? with
  | none => exact .inl rfl
  | some entry =>
    rw [Option.filter_some]
    split
    · exact .inr rfl
    · exact .inl rfl

/-- Sweeping eases the world. -/
theorem eases_erase (world : World) (live : LiveSet) (region : Region) :
    Eases { world with heap := (world.heap.erase live region).2 } world where
  heapWeight_le sheet := by
    have hobjects := unmarkedWeight_filter_le world.heap.objects (world.sheet sheet).objects
      fun offset _ => Heap.keeps live .objects offset
    have harrays := unmarkedWeight_filter_le world.heap.arrays (world.sheet sheet).arrays
      fun offset _ => Heap.keeps live .arrays offset
    cases sheet <;> cases region <;>
      simp only [Tracer.heapWeight, Heap.erase, Container.eraseDead, World.sheet]
        at hobjects harrays ⊢ <;> omega
  refWeight_le ref := by
    have hobjects := map_slots_filter_le world.heap.objects
      (fun offset _ => Heap.keeps live .objects offset)
    have harrays := map_slots_filter_le world.heap.arrays
      (fun offset _ => Heap.keeps live .arrays offset)
    have hpos : 1 ≤ Tracer.refWeight world.heap ref := by
      unfold Tracer.refWeight
      split
      · simp [entryWeight]
      · exact Nat.le_refl _
    cases ref with
    | object offset =>
      cases region
      · rcases hobjects offset with h | h
        · simpa only [Tracer.refWeight, Heap.slotsOf?, Heap.erase, Container.eraseDead, h]
            using hpos
        · simp only [Tracer.refWeight, Heap.slotsOf?, Heap.erase, Container.eraseDead, h]
          exact Nat.le_refl _
      · exact Nat.le_refl _
      · exact Nat.le_refl _
    | array offset =>
      cases region
      · exact Nat.le_refl _
      · rcases harrays offset with h | h
        · simpa only [Tracer.refWeight, Heap.slotsOf?, Heap.erase, Container.eraseDead, h]
            using hpos
        · simp only [Tracer.refWeight, Heap.slotsOf?, Heap.erase, Container.eraseDead, h]
          exact Nat.le_refl _
      · exact Nat.le_refl _
  rootSlots_eq _ := rfl
  staticRows_eq := rfl

/-- A step of a marking job leaves it and every other job less or as much to do. -/
theorem stepMarking_next {thread : Thread} {world world' : World} {marking : Marking} {rest : Job}
    (hstep : stepMarking thread world marking = .next world' rest) :
    rest.weight world' < (Job.mark marking).weight world ∧ Eases world' world := by
  unfold stepMarking at hstep
  split at hstep
  · next tracer marks htracer =>
    cases hstep
    have hlt := Tracer.step_weight htracer
    have heases := eases_setSheet (Tracer.step_heapWeight_le htracer)
    refine ⟨?_, heases⟩
    have hrow : rowWeight (world.setSheet marking.sheet marks) = rowWeight world := by
      funext row
      simp only [rowWeight, World.rootSlots_setSheet]
    simp only [weight, World.heap_setSheet, World.sheet_setSheet, if_true, hrow]
    omega
  · cases hstep
  · next htracer =>
    split at hstep
    · cases hstep
    · next row rows hrows =>
      split at hstep
      · cases hstep
      · cases hstep
        refine ⟨?_, .refl _⟩
        have := Tracer.heapWeight_le_weight world.heap (world.sheet marking.sheet) marking.tracer
        simp only [weight, Tracer.weight_start, hrows, total_cons, rowWeight]
        omega

/-- A job that goes on has less to do, and leaves every other job no more. -/
theorem eases_of_next {thread : Thread} {world world' : World} {job rest : Job}
    (hstep : step thread world job = .next world' rest) :
    rest.weight world' < job.weight world ∧ Eases world' world := by
  cases job with
  | mark marking => exact stepMarking_next hstep
  | markStatics sheet =>
    cases hstep
    refine ⟨?_, .refl _⟩
    simp only [weight, ← Tracer.weight_start_nil]
    omega
  | sweep region live => simp only [step] at hstep; split at hstep <;> cases hstep

/-- A job that ends leaves every other job no more to do. -/
theorem eases_of_finish {thread : Thread} {world world' : World} {job : Job}
    {outcome : Outcome Tally} (hstep : step thread world job = .finish world' outcome) :
    Eases world' world := by
  cases job with
  | mark marking =>
    simp only [step, stepMarking] at hstep
    repeat' split at hstep
    all_goals cases hstep
    all_goals exact .refl _
  | markStatics sheet => cases hstep
  | sweep region live =>
    simp only [step] at hstep
    split at hstep
    · cases hstep; exact .refl _
    · cases hstep; exact eases_erase world live region

/-- How the jobs of a collection behave in a pool. -/
def body : Body Job World Tally where
  step _ := step

/-- No job waits or asks anything of its pool. -/
theorem body_isPlain : Job.body.IsPlain := by
  intro name thread world job
  cases job with
  | mark marking =>
    simp only [body, step, stepMarking]
    repeat' split
    all_goals first
      | exact .inl ⟨_, _, rfl⟩
      | exact .inr ⟨_, _, rfl⟩
  | markStatics sheet => exact .inl ⟨_, _, rfl⟩
  | sweep region live =>
    simp only [body, step]
    split
    · exact .inr ⟨_, _, rfl⟩
    · exact .inr ⟨_, _, rfl⟩

/-- What is unmarked and unread bounds the steps of a job. -/
instance : body.Sized :=
  body_isPlain.sized weight (fun hstep => (eases_of_next hstep).1)
    (fun hstep => (eases_of_next hstep).2.weight_le)
    (fun hstep => (eases_of_finish hstep).weight_le)

end Job

end MarkSweep
