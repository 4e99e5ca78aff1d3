import MarkSweep.Proofs.Cycle.History

namespace MarkSweep

/-- What is left of a heap when exactly the entries that the roots reach are kept. -/
structure Heap.Retained (heap : Heap) (roots : List Slot) (heap' : Heap) : Prop where
  objects : ∀ offset entry, heap'.objects[offset]? = some entry ↔
    heap.objects[offset]? = some entry ∧ heap.Reaches roots (.object offset)
  arrays : ∀ offset entry, heap'.arrays[offset]? = some entry ↔
    heap.arrays[offset]? = some entry ∧ heap.Reaches roots (.array offset)
  monitors : ∀ offset monitor, heap'.monitors[offset]? = some monitor ↔
    heap.monitors[offset]? = some monitor ∧
      (heap.Reaches roots (.object offset) ∨ heap.Reaches roots (.array offset))
  nextOffset : heap'.nextOffset = heap.nextOffset

/-- A sweep by what the roots reach retains exactly that. -/
theorem Heap.retained_retain {heap : Heap} {roots : List Slot} {live : LiveSet}
    (hlive : ∀ ref, live.contains ref = true ↔ heap.Reaches roots ref) :
    heap.Retained roots (heap.retain live) where
  objects := by
    intro offset entry
    have hkept := hlive (.object offset)
    simp only [retain, erase, Container.eraseDead, Std.ExtTreeMap.getElem?_filter',
      Option.filter_eq_some_iff, keeps]
    exact and_congr_right fun _ => hkept
  arrays := by
    intro offset entry
    have hkept := hlive (.array offset)
    simp only [retain, erase, Container.eraseDead, Std.ExtTreeMap.getElem?_filter',
      Option.filter_eq_some_iff, keeps]
    exact and_congr_right fun _ => hkept
  monitors := by
    intro offset monitor
    have hobject := hlive (.object offset)
    have harray := hlive (.array offset)
    simp only [retain, erase, Container.eraseDead, Std.ExtTreeMap.getElem?_filter',
      Option.filter_eq_some_iff, keeps, Bool.or_eq_true]
    exact and_congr_right fun _ => or_congr hobject harray
  nextOffset := rfl

/-- What is retained holds what it held. -/
theorem Heap.Retained.slotsOf?_eq {heap heap' : Heap} {roots : List Slot}
    (hretained : heap.Retained roots heap') {ref : Ref} (hreach : heap.Reaches roots ref) :
    heap'.slotsOf? ref = heap.slotsOf? ref := by
  cases ref with
  | object offset =>
    have hsame : heap'.objects[offset]? = heap.objects[offset]? := by
      apply Option.ext
      intro entry
      rw [hretained.objects, and_iff_left hreach]
    simp only [slotsOf?, hsame]
  | array offset =>
    have hsame : heap'.arrays[offset]? = heap.arrays[offset]? := by
      apply Option.ext
      intro entry
      rw [hretained.arrays, and_iff_left hreach]
    simp only [slotsOf?, hsame]

/-- The roots reach what they have reached. -/
theorem Heap.Retained.reaches_iff {heap heap' : Heap} {roots : List Slot}
    (hretained : heap.Retained roots heap') (ref : Ref) :
    heap'.Reaches roots ref ↔ heap.Reaches roots ref := by
  constructor
  · intro hreach
    refine hreach.of_closed (fun ref hmem => .root hmem) ?_
    intro ref cells hreach hcells next hmem
    rw [hretained.slotsOf?_eq hreach] at hcells
    exact .child hreach hcells hmem
  · intro hreach
    induction hreach with
    | root hmem => exact .root hmem
    | child hreach hcells hmem ih =>
      rw [← hretained.slotsOf?_eq hreach] at hcells
      exact .child ih hcells hmem

/-- What is retained refers to nothing that is not. -/
theorem Heap.Retained.intact {heap heap' : Heap} {roots : List Slot}
    (hretained : heap.Retained roots heap') (hintact : heap.Intact roots) :
    heap'.Intact roots := by
  intro ref hreach
  rw [hretained.reaches_iff] at hreach
  rw [← slotsOf?_isSome, hretained.slotsOf?_eq hreach, slotsOf?_isSome]
  exact hintact ref hreach

namespace Machine

open Call

/-- No collection makes a reference dangle. -/
theorem Outcome.intact {before after : World} {callStacks : List CallStack}
    {result : Except Fault (Option Metrics)} (houtcome : Outcome before callStacks result after)
    (hintact : before.heap.Intact (before.roots callStacks)) :
    after.heap.Intact (after.roots callStacks) := by
  cases houtcome with
  | unasked _ => exact hintact
  | collected _ hfound => exact (Heap.retained_retain hfound.live).intact hintact
  | failed _ _ _ => exact hintact

/-- A collection that gives metrics has kept what the roots reach, with all that it holds, and
nothing else, and has left the roots alone. -/
theorem collectStacks_retains {machine machine' : Machine} {t t' : Thread}
    {callStacks : List CallStack} {policy : Policy} {metrics : Metrics}
    (hreach : Reachable machine)
    (hreturns : Routine.Returns (Beside (Around False)) (collectStacks callStacks policy)
      (t, machine) (.ok (some metrics)) (t', machine')) :
    machine.env.heap.Retained (machine.env.roots callStacks) machine'.env.heap ∧
      machine'.env.frames = machine.env.frames ∧
      machine'.env.methods = machine.env.methods := by
  obtain ⟨-, hcollected⟩ := hreach.ready.collect hreturns
  obtain ⟨found, hfound, hheap, hframes, hmethods⟩ := hcollected metrics rfl
  refine ⟨?_, hframes, hmethods⟩
  rw [hheap]
  exact Heap.retained_retain hfound.live

/-- A collector with two workers on `Heap.knot`, whose roots are the cells of one frame, after an
earlier marking has left a mark on the object that no root reaches. -/
def knotted : Machine where
  pool := Pool.create 2 "gc-worker"
  env :=
    { heap := Heap.knot
      frames := #[⟨#[some (.object 1)], #[some (.array 1)], none⟩]
      marks := (Marks.insert {} (.object 2)).2
      cycle := { pressure := true }
      config := .withWorkers 2 }

theorem reachable_knotted : Reachable knotted := by
  have hpool : Pool.create? 2 "gc-worker" = .ok (Pool.create 2 "gc-worker" : Pool Job Tally) :=
    rfl
  have hnew : Reachable ⟨Pool.create 2 "gc-worker", { knotted.env with marks := {} }⟩ :=
    .create hpool rfl
  exact hnew.edit rfl

/-- Its workers alone can bring a collection to an end. -/
theorem exists_returns_knotted :
    ∃ metrics t' machine', Routine.Returns (Beside (Around True))
      (collectStacks [[0]] .markAndSweep) ({}, knotted) (.ok (some metrics)) (t', machine') := by
  have hends := (reachable_knotted.ready.quiet rfl).ends_collect (t := {}) (Nat.zero_le _) [[0]]
    .markAndSweep
  obtain ⟨result, ⟨t', machine'⟩, hreturns, hfinished⟩ := hends.exists_returns
  have houtcome : Outcome knotted.env [[0]] result machine'.env := hfinished.outcome
  have hfound : ∃ metrics, result = .ok (some metrics) := by
    obtain ⟨metrics?, rfl⟩ := houtcome.exists_ok Heap.knot_intact
    generalize machine'.env = world at houtcome
    cases houtcome with
    | unasked hpressure => cases hpressure
    | collected _ _ => exact ⟨_, rfl⟩
  obtain ⟨metrics, rfl⟩ := hfound
  exact ⟨metrics, t', machine', hreturns⟩

/-- What the roots of the knot reach is kept, and the object that only an old mark speaks for is
erased. -/
theorem collectStacks_retains_knot :
    ∃ metrics t' machine',
      Routine.Returns (Beside (Around False)) (collectStacks [[0]] .markAndSweep) ({}, knotted)
        (.ok (some metrics)) (t', machine') ∧
      Heap.knot.Retained [some (.object 1), some (.array 1)] machine'.env.heap ∧
      machine'.env.heap.objects[(2 : Offset)]? = none := by
  obtain ⟨metrics, t', machine', hreturns⟩ := exists_returns_knotted
  have hcompany : Routine.Returns (Beside (Around False)) (collectStacks [[0]] .markAndSweep)
      ({}, knotted) (.ok (some metrics)) (t', machine') := by
    apply hreturns.mono
    exact fun _ _ hstep => ⟨hstep.1, .inl (workerStep_of_around hstep.2)⟩
  have hretained := (collectStacks_retains reachable_knotted hcompany).1
  refine ⟨metrics, t', machine', hcompany, hretained, ?_⟩
  cases hentry : machine'.env.heap.objects[(2 : Offset)]? with
  | none => rfl
  | some entry =>
    have hreach := ((hretained.objects 2 entry).1 hentry).2
    cases Heap.knot_reaches hreach with
    | inl heq => cases heq
    | inr heq => cases heq

end Machine

end MarkSweep
