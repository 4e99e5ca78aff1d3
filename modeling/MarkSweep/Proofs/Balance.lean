import MarkSweep.Proofs.Cycle.Counting
import MarkSweep.Proofs.Cycle.Purge
import MarkSweep.Proofs.Retention

namespace MarkSweep.Machine

open Call

/-- What metrics say of the heap before and after a collection. -/
structure Balanced (before : World) (callStacks : List CallStack) (metrics : Metrics)
    (after : World) : Prop where
  objects : before.heap.objects.size = after.heap.objects.size + metrics.objectsReclaimed
  arrays : before.heap.arrays.size = after.heap.arrays.size + metrics.arraysReclaimed
  monitors : before.heap.monitors.size = after.heap.monitors.size + metrics.monitorsReclaimed
  objectsMarked : metrics.objectsMarked = after.heap.objects.size
  arraysMarked : metrics.arraysMarked = after.heap.arrays.size
  /-- Released are the elements of the arrays that have vanished, each array counted once. -/
  elements : ∃ vanished : List (Offset × ArrayEntry), vanished.Nodup ∧
    (∀ offset array, (offset, array) ∈ vanished ↔
      before.heap.arrays[offset]? = some array ∧ after.heap.arrays[offset]? = none) ∧
    metrics.elementsReleased = total (fun entry => entry.2.length) vanished
  frames : metrics.framesScanned = total List.length callStacks

variable {before after : World} {callStacks : List CallStack} {metrics : Metrics}
  {found : MarkResult} {machine machine' : Machine} {t t' : Thread} {policy : Policy}
  {log : List Metrics}

/-- The counts of a collection agree with the heap before and after it. -/
theorem Gathered.balanced (hgathered : Gathered before callStacks metrics found after) :
    Balanced before callStacks metrics after := by
  obtain ⟨hfound, ⟨cycle, rfl⟩, hheap, -, -⟩ := hgathered
  obtain ⟨⟨objects, hobjects, hobjectsLost⟩, ⟨arrays, harrays, harraysLost⟩,
    ⟨monitors, hmonitors, hmonitorsLost⟩, -⟩ := before.heap.purged_retain found.live
  rw [Tally.mk.injEq] at hobjectsLost harraysLost hmonitorsLost
  -- A mark is a mark of an entry that exists, since the roots reach no other.
  have hthere : ∀ ref, found.live.contains ref = true → before.heap.contains ref = true :=
    fun ref hlive => hfound.intact ref ((hfound.live ref).1 hlive)
  constructor
  case objects =>
    rw [hheap, hobjects.size_eq]
    exact congrArg _ hobjectsLost.1.symm
  case arrays =>
    rw [hheap, harrays.size_eq]
    exact congrArg _ harraysLost.1.symm
  case monitors =>
    rw [hheap, hmonitors.size_eq]
    exact congrArg _ hmonitorsLost.1.symm
  case objectsMarked =>
    rw [hheap, hobjects.size_live fun offset => hthere (.object offset)]
    exact hfound.objects
  case arraysMarked =>
    rw [hheap, harrays.size_live fun offset => hthere (.array offset)]
    exact hfound.arrays
  case elements =>
    rw [hheap]
    exact ⟨arrays, harrays.once, harrays.mem_lost_iff_gone, harraysLost.2⟩
  case frames => exact hfound.frames.trans (length_flatten_eq_total callStacks)

/-- The roots of a world are known from its frames and classes. -/
theorem roots_eq (hframes : after.frames = before.frames)
    (hmethods : after.methods = before.methods) (callStacks : List CallStack) :
    after.roots callStacks = before.roots callStacks := by
  have hslots : after.rootSlots = before.rootSlots := by
    funext row
    cases row <;> simp only [World.rootSlots, hframes, hmethods]
  simp only [World.roots, World.rowSlots, World.rootRows, World.staticRows, hslots, hmethods]

/-- A collection from where another one has left the heap finds the same and erases nothing. -/
theorem Gathered.again {before' after' : World} {metrics' : Metrics} {found' : MarkResult}
    (hgathered : Gathered before callStacks metrics found after)
    (hagain : Gathered before' callStacks metrics' found' after')
    (hheap : before'.heap = after.heap) (hframes : before'.frames = after.frames)
    (hmethods : before'.methods = after.methods) :
    metrics' = { metrics with
      objectsReclaimed := 0, arraysReclaimed := 0, elementsReleased := 0, monitorsReclaimed := 0
      totalCollections := metrics'.totalCollections } := by
  have hroots : before'.roots callStacks = before.roots callStacks :=
    roots_eq (hframes.trans hgathered.frames) (hmethods.trans hgathered.methods) callStacks
  have hretained := Heap.retained_retain hgathered.reached.live
  have hlive : found'.live = found.live := by
    apply Marks.ext_contains
    intro ref
    rw [Bool.eq_iff_iff, hagain.reached.live, hgathered.reached.live, hheap, hgathered.heap, hroots]
    exact hretained.reaches_iff ref
  have hdead : before'.heap.deadStats found.live = ⟨0, 0, 0, 0⟩ := by
    rw [hheap, hgathered.heap]
    exact (before.heap.purged_retain found.live).again (Heap.purged_retain _ _)
  obtain ⟨hfound, ⟨cycle, rfl⟩, -⟩ := hgathered
  obtain ⟨hfound', ⟨cycle', rfl⟩, -⟩ := hagain
  simp only [Found.report, Found.metrics, hlive, hdead, hfound.frames, hfound'.frames,
    hfound.objects, hfound'.objects, hfound.arrays, hfound'.arrays]

/-- The metrics that a collection has given, if any. -/
def reported : Except Fault (Option Metrics) → List Metrics
  | .ok (some metrics) => [metrics]
  | _ => []

/-- A collector between its collections, with the metrics that it has given, the latest first. What
goes on meanwhile is what `Reachable` allows, but nobody else counts collections. -/
inductive Logged : List Metrics → Machine → Prop
  | create {workers : Nat} {name : String} {pool : Pool Job Tally} {world : World}
      (hpool : Pool.create? workers name = .ok pool) (hnew : world.cycle = {}) :
      Logged [] ⟨pool, world⟩
  | around {log : List Metrics} {machine machine' : Machine} (hbefore : Logged log machine)
      (hstep : Accompanied machine machine') : Logged log machine'
  | edit {log : List Metrics} {pool : Pool Job Tally} {world world' : World}
      (hbefore : Logged log ⟨pool, world⟩) (hbusy : world'.cycle.busy = world.cycle.busy)
      (htotal : world'.cycle.total = world.cycle.total) : Logged log ⟨pool, world'⟩
  | lend {log : List Metrics} {pool pool' : Pool Job Tally} {world : World}
      (hbefore : Logged log ⟨pool, world⟩) (hfree : world.cycle.busy = false)
      (hidle : Unoccupied ⟨pool', world⟩) : Logged log ⟨pool', world⟩
  | collect {log : List Metrics} {machine machine' : Machine} {t t' : Thread}
      {callStacks : List CallStack} {policy : Policy} {result : Except Fault (Option Metrics)}
      (hbefore : Logged log machine)
      (hreturns : Routine.Returns (Beside Accompanied) (collectStacks callStacks policy)
        (t, machine) result (t', machine')) : Logged (reported result ++ log) machine'

/-- The number that the latest metrics give for the collections so far. -/
def lastTotal : List Metrics → Nat
  | [] => 0
  | metrics :: _ => metrics.totalCollections

/-- What can come of a call while bystanders leave the counts alone can come of it in any
company. -/
theorem returns_around {result : Except Fault (Option Metrics)}
    (hreturns : Routine.Returns (Beside Accompanied) (collectStacks callStacks policy)
      (t, machine) result (t', machine')) :
    Routine.Returns (Beside (Around False)) (collectStacks callStacks policy) (t, machine) result
      (t', machine') :=
  hreturns.mono fun _ _ hstep => ⟨hstep.1, hstep.2.around⟩

/-- A collector of which a log is kept is reachable. -/
theorem Logged.reachable (hlogged : Logged log machine) : Reachable machine := by
  induction hlogged with
  | create hpool hnew => exact .create hpool (by rw [hnew])
  | around _ hstep ih => exact ih.around hstep.around
  | edit _ hbusy _ ih => exact ih.edit hbusy
  | lend _ hfree hidle ih => exact ih.lend hfree hidle
  | collect _ hreturns ih => exact ih.collect (returns_around hreturns)

/-- A collector has counted the collections that it has given metrics for. -/
theorem Logged.counts (hlogged : Logged log machine) : Counts (lastTotal log) machine := by
  induction hlogged with
  | @create workers name pool world hpool hnew =>
    obtain rfl := Pool.eq_create hpool
    exact ⟨(calm_create workers name).1.plain, congrArg CycleState.total hnew⟩
  | around _ hstep ih => exact stable_counts _ ({}, _) ({}, _) ih ⟨rfl, hstep⟩
  | edit _ _ htotal ih => exact ⟨ih.1, htotal.trans ih.2⟩
  | lend _ _ hidle ih => exact ⟨hidle.calm.plain, ih.2⟩
  | @collect log machine machine' t t' callStacks policy result _ hreturns ih =>
    have hcounted := (attains_collectStacks_counts t callStacks policy ih).of_returns hreturns
    obtain fault | _ | metrics := result
    · exact hcounted
    · exact hcounted
    · obtain ⟨htotal, hcounts⟩ := hcounted
      change Counts metrics.totalCollections machine'
      rwa [htotal]

/-- What metrics are worth: they balance, they count one more collection than the latest ones, and
a collection with nothing changed in between would give the same and reclaim nothing. -/
structure Accounted (log : List Metrics) (machine : Machine) (callStacks : List CallStack)
    (metrics : Metrics) (machine' : Machine) : Prop where
  balanced : Balanced machine.env callStacks metrics machine'.env
  total : metrics.totalCollections = lastTotal log + 1
  again : ∀ (machine₁ machine₂ : Machine) (t t' : Thread) (policy : Policy) (metrics' : Metrics),
    Reachable machine₁ → machine₁.env.heap = machine'.env.heap →
      machine₁.env.frames = machine'.env.frames → machine₁.env.methods = machine'.env.methods →
      Routine.Returns (Beside (Around False)) (collectStacks callStacks policy) (t, machine₁)
        (.ok (some metrics')) (t', machine₂) →
      metrics' = { metrics with
        objectsReclaimed := 0, arraysReclaimed := 0, elementsReleased := 0, monitorsReclaimed := 0
        totalCollections := metrics'.totalCollections }

/-- For each kind the marked and the reclaimed entries of a collection that gives metrics are those
before it, the marked ones are those after it, and each collection counts one more than the one
before. -/
theorem collectStacks_balances (hlogged : Logged log machine)
    (hreturns : Routine.Returns (Beside Accompanied) (collectStacks callStacks policy)
      (t, machine) (.ok (some metrics)) (t', machine')) :
    Accounted log machine callStacks metrics machine' := by
  obtain ⟨-, hgather⟩ := hlogged.reachable.ready.gather (returns_around hreturns)
  obtain ⟨found, hgathered⟩ := hgather metrics rfl
  constructor
  case balanced => exact hgathered.balanced
  case total =>
    have hcounts := attains_collectStacks_counts t callStacks policy hlogged.counts
    exact (hcounts.of_returns hreturns).1
  case again =>
    intro machine₁ machine₂ t₁ t₂ policy' metrics' hreach hheap hframes hmethods hagain
    obtain ⟨-, hgather'⟩ := hreach.ready.gather hagain
    obtain ⟨found', hgathered'⟩ := hgather' metrics' rfl
    exact hgathered.again hgathered' hheap hframes hmethods

theorem logged_knotted : Logged [] knotted := by
  have hpool : Pool.create? 2 "gc-worker" = .ok (Pool.create 2 "gc-worker" : Pool Job Tally) :=
    rfl
  have hnew : Logged [] ⟨Pool.create 2 "gc-worker", { knotted.env with cycle := {} }⟩ :=
    .create hpool rfl
  exact hnew.edit rfl rfl

/-- Of the two objects of the knot one is marked and one is reclaimed, whatever mark an earlier
marking has left behind. -/
theorem collectStacks_balances_knot :
    ∃ metrics t' machine',
      Routine.Returns (Beside Accompanied) (collectStacks [[0]] .markAndSweep) ({}, knotted)
        (.ok (some metrics)) (t', machine') ∧
      Accounted [] knotted [[0]] metrics machine' ∧
      metrics.objectsMarked + metrics.objectsReclaimed = 2 ∧ metrics.totalCollections = 1 := by
  obtain ⟨metrics, t', machine', hreturns⟩ := exists_returns_knotted
  have hcompany : Routine.Returns (Beside Accompanied) (collectStacks [[0]] .markAndSweep)
      ({}, knotted) (.ok (some metrics)) (t', machine') := by
    apply hreturns.mono
    exact fun _ _ hstep => ⟨hstep.1, .inl (workerStep_of_around hstep.2)⟩
  have haccounted := collectStacks_balances logged_knotted hcompany
  refine ⟨metrics, t', machine', hcompany, haccounted, ?_, haccounted.total⟩
  rw [haccounted.balanced.objectsMarked, ← haccounted.balanced.objects]
  rfl

end MarkSweep.Machine
