import MarkSweep.Proofs.Cycle.Phases

namespace MarkSweep.Machine

open Call

variable {α : Type} {alone : Prop} {ended : List Bool} {before : World} {t : Thread}
  {L : Pool Job Tally → Prop} {P : Ledger Job World Tally → Prop} {callStacks : List CallStack}

/-- What a thread has reported at the end of a mark phase that did not fail. -/
def marked (t : Thread) (before : World) (found : MarkResult) : Thread :=
  ((markBegun t before.heap).report
    (.event (.markEnd found.objects found.arrays found.frames))).report (.left (.phase .mark))

/-- What a thread has reported at the end of both phases. -/
def swept (t : Thread) (before : World) (found : MarkResult) : Thread :=
  ((sweepBegun (marked t before found) found).report
    (.event (.sweepEnd (before.heap.deadStats found.live).objects
      (before.heap.deadStats found.live).arrays
      (before.heap.deadStats found.live).monitors))).report (.left (.phase .sweep))

/-- The end of both phases: with `H` if they did not fail, and else with `H'`. -/
def PhasesEnd (alone : Prop) (L : Pool Job Tally → Prop) (before : World)
    (callStacks : List CallStack) (H : MarkResult → Heap → Marks → Prop) (H' : Heap → Marks → Prop)
    (t : Thread) : Post Machine Metrics := fun result t' machine =>
  match result with
  | .ok metrics => ∃ found, Found before callStacks found ∧ metrics = Found.metrics before found ∧
      t' = swept t before found ∧ Holds alone L (Resting .collector alone before (H found)) machine
  | .error fault => ∃ failure, fault = .failed failure ∧ t'.held = t.held ∧
      (alone → t' = (markBegun t before.heap).report (.left (.phase .mark))) ∧
      Holds alone L (Broken alone before callStacks H' failure) machine

private theorem stable_phasesEnd {H : MarkResult → Heap → Marks → Prop} {H' : Heap → Marks → Prop}
    {t' : Thread} {result : Except Fault Metrics} (hbusy : before.cycle.busy = true)
    (hL : Steady L) :
    Stable (Around alone) (PhasesEnd alone L before callStacks H H' t result t') := by
  cases result with
  | error fault =>
    rintro machine machine' ⟨failure, hfault, hheld, ht, hholds⟩ haround
    exact ⟨failure, hfault, hheld, ht,
      stable_holds hL (kept_broken hbusy) machine machine' hholds haround⟩
  | ok metrics =>
    rintro machine machine' ⟨found, hfound, hmetrics, ht, hholds⟩ haround
    exact ⟨found, hfound, hmetrics, ht,
      stable_holds hL (kept_resting hbusy) machine machine' hholds haround⟩

/-- Both phases, from a pool at rest. -/
theorem meets_runPhases {H : Heap → Marks → Prop} (hbusy : before.cycle.busy = true)
    (hrank : t.held.rank ≤ Level.cycle.rank)
    (hheap : ∀ heap marks, H heap marks → heap = before.heap) (callStacks : List CallStack) :
    Meets (Around alone) alone (Holds alone (Pool.Open ended) (Resting .collector alone before H)) t
      (runPhases callStacks)
      (PhasesEnd alone (Pool.Alert ended) before callStacks
        (fun found heap _ => heap = before.heap.retain found.live)
        (fun heap _ => heap = before.heap) t) := by
  refine meets_bind_yields _ (meets_clear_resting hbusy (steady_open ended)
    (Nat.le_trans hrank (by decide)) hheap) fun _ => ?_
  refine meets_bind_yields _ (meets_signalWork (kept_resting hbusy)) fun _ => ?_
  refine meets_bind (meets_markPhase hbusy hrank callStacks) ?_ ?_
  · rintro found t' machine ⟨t₁, rfl, rfl, hfound, hholds⟩
    refine meets_bind (meets_sweepPhase (t := marked t before found) hbusy found) ?_ ?_ machine
      hholds
    · rintro stats t' machine ⟨t₁, rfl, rfl, rfl, hholds⟩
      exact ⟨found, hfound, rfl, rfl, hholds⟩
    · rintro fault t' machine ⟨t₁, rfl, rfl, rfl, hholds⟩
      refine ⟨.poolShutDown, rfl, rfl, fun halone => absurd halone hholds.ledger.1, ?_⟩
      exact hholds.mono fun l hl => ⟨hl, .inl hl⟩
  · rintro fault t' machine ⟨t₁, rfl, rfl, failure, rfl, hholds⟩
    exact ⟨failure, rfl, rfl, fun _ => rfl, hholds⟩

/-- The collector is put back to rest after a collection that did not fail. -/
private theorem meets_rest_resting {H : Heap → Marks → Prop} {rest : Heap}
    (hbusy : before.cycle.busy = true) (hrank : t.held.rank ≤ Level.cycle.rank)
    (hheap : ∀ heap marks, H heap marks → heap = rest) :
    Meets (Around alone) alone
      (Holds alone (Pool.Alert ended) (Resting .collector alone before H)) t
      Machine.rest
      (Yields t fun _ => Holds alone (Pool.Dozing ended)
        (Resting .collector alone before fun heap marks => heap = rest ∧ marks = {})) :=
  meets_bind_yields _ (meets_clear_resting hbusy (steady_alert ended)
    (Nat.le_trans hrank (by decide)) hheap) fun _ => meets_signalWait (kept_resting hbusy)

/-- The collector is put back to rest after a collection that has failed. -/
private theorem meets_rest_broken {failure : Failure} (hbusy : before.cycle.busy = true)
    (hrank : t.held.rank ≤ Level.cycle.rank) :
    Meets (Around alone) alone
      (Holds alone (Pool.Alert ended)
        (Broken alone before callStacks (fun heap _ => heap = before.heap) failure)) t
      Machine.rest
      (Yields t fun _ => Holds alone (Pool.Dozing ended)
        (Broken alone before callStacks (fun heap marks => heap = before.heap ∧ marks = {})
          failure)) := by
  refine meets_bind_yields _ (meets_clear (R := Broken alone before callStacks
    (fun heap marks => heap = before.heap ∧ marks.objects = ∅) failure) (steady_alert ended)
    (kept_broken hbusy) (kept_broken hbusy) (kept_broken hbusy) (Nat.le_trans hrank (by decide))
    ?_ ?_) fun _ => meets_signalWait (kept_broken hbusy)
  · rintro l ⟨hexcused, hrest⟩
    refine ⟨hexcused, hrest.imp (fun hl => hl) fun hrest => ?_⟩
    exact hrest.onMarks (fun marks => { marks with objects := ∅ })
      fun heap marks hheap => ⟨hheap, rfl⟩
  · rintro l ⟨hexcused, hrest⟩
    refine ⟨hexcused, hrest.imp (fun hl => hl) fun hrest => ?_⟩
    refine hrest.onMarks (fun marks => { marks with arrays := ∅ }) fun heap marks hcontents => ?_
    exact ⟨hcontents.1, congrArg (fun objects => (⟨objects, ∅⟩ : Marks)) hcontents.2⟩

/-- Both phases, after which the collector is at rest again. -/
theorem meets_runCycle {H : Heap → Marks → Prop} (hbusy : before.cycle.busy = true)
    (hrank : t.held.rank ≤ Level.cycle.rank)
    (hheap : ∀ heap marks, H heap marks → heap = before.heap) (callStacks : List CallStack)
    (policy : Policy) :
    Meets (Around alone) alone (Holds alone (Pool.Open ended) (Resting .collector alone before H)) t
      (runCycle callStacks policy)
      (fun result t' machine => ∃ t₁, t' = t₁.report (.left (.collection policy)) ∧
        PhasesEnd alone (Pool.Dozing ended) before callStacks
          (fun found heap marks => heap = before.heap.retain found.live ∧ marks = {})
          (fun heap marks => heap = before.heap ∧ marks = {})
          (t.report (.opened (.collection policy))) result t₁ machine) := by
  have hopened : (t.report (.opened (.collection policy))).held.rank ≤ Level.cycle.rank := hrank
  refine meets_inSpan (stable_holds (steady_open ended) (kept_resting hbusy)) ?_
    (fun result t' => stable_phasesEnd hbusy (steady_dozing ended))
    fun result t' machine hend => ⟨t', rfl, hend⟩
  refine meets_andFinally (meets_runPhases hbusy hopened hheap callStacks) fun result t' => ?_
  cases result with
  | ok metrics =>
    rintro machine ⟨found, hfound, hmetrics, rfl, hholds⟩
    have hrest := meets_rest_resting hbusy
      (t := swept (t.report (.opened (.collection policy))) before found) hrank
      (fun _ _ hcontents => hcontents) machine hholds
    apply hrest.mono
    rintro result' ⟨t', machine'⟩ ⟨undone, rfl, rfl, hholds'⟩
    exact ⟨found, hfound, hmetrics, rfl, hholds'⟩
  | error fault =>
    rintro machine ⟨failure, rfl, hheld, ht, hholds⟩
    have hrest := meets_rest_broken hbusy (t := t') (hheld ▸ hrank) machine hholds
    apply hrest.mono
    rintro result' ⟨t'', machine'⟩ ⟨undone, rfl, rfl, hholds'⟩
    exact ⟨failure, rfl, hheld, ht, hholds'⟩

/-- Between collections nobody holds the cycle lock, the pool has nothing left to do, and the heap,
the roots and the marks are those of `world`; if the collector is alone, so is all the rest. -/
structure Idle (alone : Prop) (world : World) (l : Ledger Job World Tally) : Prop where
  tasks : l.tasks = []
  places : l.places = []
  free : l.env.cycle.busy = false
  heap : l.env.heap = world.heap
  frames : l.env.frames = world.frames
  methods : l.env.methods = world.methods
  marks : l.env.marks = world.marks
  alone : alone → l.env = world

/-- A pool that is idle stays so as long as nobody queues anything. -/
theorem kept_idle (world : World) : Kept alone (Idle alone world) where
  toKept := Ledger.kept_of_rest fun _ hidle => ⟨hidle.tasks, hidle.places⟩
  spared := by
    intro hothers l world' shut hidle hspared _
    exact ⟨hidle.tasks, hidle.places, hspared.busy.trans hidle.free,
      hspared.heap.trans hidle.heap, hspared.frames.trans hidle.frames,
      hspared.methods.trans hidle.methods, hspared.marks.trans hidle.marks,
      fun halone => absurd halone hothers⟩

/-- The world in which a thread has taken the cycle lock and found `cycle`. -/
def locked (world : World) (cycle : CycleState) : World :=
  { world with cycle := { cycle with busy := true } }

/-- Whoever takes the cycle lock finds the pool at rest. -/
theorem Idle.lock {world : World} {l : Ledger Job World Tally} (hidle : Idle alone world l) :
    Resting .collector alone (locked world l.env.cycle)
      (fun heap marks => heap = world.heap ∧ marks = world.marks)
      { l with env := locked l.env l.env.cycle } := by
  refine ⟨hidle.tasks, hidle.places, ⟨hidle.frames, hidle.methods, rfl, ?_⟩, hidle.heap,
    hidle.marks⟩
  intro halone
  rw [hidle.alone halone]
  exact (World.setSheet_sheet _ _).symm

/-- Whoever gives the cycle lock back leaves the pool at rest. -/
theorem Resting.unlock {world : World} {cycle : CycleState} {rest : Heap} {marks : Marks}
    {l : Ledger Job World Tally}
    (hrest : Resting .collector alone (locked world cycle)
      (fun heap own => heap = rest ∧ own = marks) l) :
    Idle alone { world with heap := rest, marks, cycle := { cycle with busy := false } }
      { l with env := { l.env with cycle := { l.env.cycle with busy := false } } } := by
  obtain ⟨htasks, hplaces, huntouched, hheap, hmarks⟩ := hrest
  refine ⟨htasks, hplaces, rfl, hheap, huntouched.frames, huntouched.methods, hmarks, ?_⟩
  intro halone
  have hsame := huntouched.alone halone
  rw [hheap, hmarks] at hsame
  simp only [hsame, locked, World.setSheet]

/-- A call that holds the cycle lock from beginning to end. -/
theorem meets_withCycleLock {A B : Machine → Prop} {body : Call Machine α} {R Q : Post Machine α}
    (hrank : t.held.rank ≤ Level.cycle.rank) (hA : Stable (Around alone) A)
    (hfree : alone → ∀ machine, A machine → machine.env.cycle.busy = false)
    (hlock : ∀ machine, A machine → machine.env.cycle.busy = false →
      B { machine with env := locked machine.env machine.env.cycle })
    (hbody : Meets (Around alone) alone B { t with held := .cycle :: t.held } body R)
    (hR : ∀ result t', Stable (Around alone) (R result t'))
    (hQ : ∀ result t', Stable (Around alone) (Q result t'))
    (hunlock : ∀ result t' machine, R result t' machine → Q result t'
      { machine with
        env := { machine.env with cycle := { machine.env.cycle with busy := false } } }) :
    Meets (Around alone) alone A t (withCycleLock body)
      (fun result t' machine => ∃ t₁, t' = t₁.leave .cycle ∧ Q result t₁ machine) := by
  apply meets_guarded (Thread.enter_of_rank_le hrank) hA (R := Q) ?_ hQ
  · intro result t' machine hend
    exact ⟨t', rfl, hend⟩
  apply meets_bind_yields { t with held := .cycle :: t.held } (B := fun _ => B)
  · apply meets_await hA
    · intro halone machine hmachine hwait
      simp only [hfree halone machine hmachine, Bool.false_eq_true, if_false] at hwait
      cases hwait
    · intro machine hmachine a machine' hstep
      cases hbusy : machine.env.cycle.busy with
      | true =>
        simp only [hbusy, if_true] at hstep
        cases hstep
      | false =>
        simp only [hbusy, Bool.false_eq_true, if_false, Option.some.injEq, Prod.mk.injEq] at hstep
        obtain ⟨-, rfl⟩ := hstep
        exact ⟨a, rfl, rfl, hlock machine hmachine hbusy⟩
  · intro _
    apply meets_andFinally hbody
    intro result t'
    apply meets_update (hR result t')
    intro machine hend
    exact hunlock result t' machine hend

/-- The thread that holds the cycle lock sees what it found. -/
private theorem meets_readCycle {H : Heap → Marks → Prop} (f : CycleState → α)
    (hbusy : before.cycle.busy = true) (hL : Steady L) :
    Meets (Around alone) alone (Holds alone L (Resting .collector alone before H)) t (readCycle f)
      (Yields t fun a machine => a = f before.cycle ∧
        Holds alone L (Resting .collector alone before H) machine) := by
  refine meets_read (f := fun machine : Machine => f machine.env.cycle)
    (stable_holds hL (kept_resting hbusy)) ?_
  intro machine hholds
  exact ⟨_, rfl, rfl, congrArg f hholds.ledger.untouched.cycle, hholds⟩

/-- A pool that is left alone is not shut down. -/
private theorem meets_inspectShutDown {H : Heap → Marks → Prop} (hbusy : before.cycle.busy = true) :
    Meets (Around alone) alone (Holds alone (Pool.Open ended) (Resting .collector alone before H)) t
      (Pool.inspect (·.shutDown))
      (Yields t fun shut machine => (alone → shut = false) ∧
        Holds alone (Pool.Open ended) (Resting .collector alone before H) machine) := by
  apply meets_read (stable_holds (steady_open ended) (kept_resting hbusy))
  intro machine hholds
  exact ⟨_, rfl, rfl, fun halone => (hholds.level halone).opened, hholds⟩

/-- What the cycle lock protects after a collection that has not failed. -/
def counted (cycle : CycleState) (metrics : Metrics) : CycleState :=
  { cycle with pressure := false, total := cycle.total + 1, lastMetrics := some metrics }

/-- The metrics of a collection that found `cycle` when it took the lock. -/
def Found.report (world : World) (cycle : CycleState) (found : MarkResult) : Metrics :=
  { Found.metrics world found with totalCollections := cycle.total + 1 }

/-- The end of a collection by a thread that still holds the cycle lock. -/
private def LockedEnd (alone : Prop) (ended : List Bool) (world : World)
    (callStacks : List CallStack) (t : Thread) : Post Machine (Option Metrics) :=
  fun result t' machine => t'.held = t.held ∧
    ∃ cycle : CycleState, cycle.busy = false ∧ (alone → cycle = world.cycle) ∧
      match result with
      | .ok none => (alone → cycle.pressure = false) ∧
          Holds alone (Pool.Open ended)
            (Resting .collector alone (locked world cycle) fun heap marks =>
              heap = world.heap ∧ marks = world.marks) machine
      | .ok (some metrics) => cycle.pressure = true ∧ ∃ found, Found world callStacks found ∧
          metrics = Found.report world cycle found ∧
          Holds alone (Pool.Dozing ended)
            (Resting .collector alone (locked world (counted cycle metrics)) fun heap marks =>
              heap = world.heap.retain found.live ∧ marks = {}) machine
      | .error fault => cycle.pressure = true ∧ ∃ failure, fault = .failed failure ∧
          Holds alone (Pool.Dozing ended)
            (Broken alone (locked world cycle) callStacks
              (fun heap marks => heap = world.heap ∧ marks = {}) failure) machine

/-- The end of a collection that began when the pool was at rest. It has failed only if the roots
reach a missing entry or somebody else has shut the pool down. -/
def Collected (alone : Prop) (ended : List Bool) (world : World) (callStacks : List CallStack)
    (t : Thread) : Post Machine (Option Metrics) :=
  fun result t' machine => t'.held = t.held ∧
    ∃ cycle : CycleState, (alone → cycle = world.cycle) ∧
      match result with
      | .ok none => (alone → cycle.pressure = false) ∧
          Holds alone (Pool.Open ended) (Idle alone world) machine
      | .ok (some metrics) => cycle.pressure = true ∧ ∃ found, Found world callStacks found ∧
          metrics = Found.report world cycle found ∧
          Holds alone (Pool.Dozing ended)
            (Idle alone
              { world with
                heap := world.heap.retain found.live, marks := {}, cycle := counted cycle metrics })
            machine
      | .error fault => cycle.pressure = true ∧ ∃ failure, fault = .failed failure ∧
          Holds alone (Pool.Dozing ended)
            (fun l => Excused alone world.heap (world.roots callStacks) l.shutDown failure ∧
              (¬alone ∧ l.shutDown = true ∨ Idle alone { world with marks := {} } l)) machine

private theorem stable_lockedEnd {world : World} {t' : Thread}
    {result : Except Fault (Option Metrics)} :
    Stable (Around alone) (LockedEnd alone ended world callStacks t result t') := by
  intro machine machine' hend haround
  obtain ⟨hheld, cycle, hfree, hcycle, hend⟩ := hend
  refine ⟨hheld, cycle, hfree, hcycle, ?_⟩
  obtain fault | _ | metrics := result
  · obtain ⟨hpressure, failure, hfault, hholds⟩ := hend
    exact ⟨hpressure, failure, hfault,
      stable_holds (steady_dozing ended) (kept_broken rfl) machine machine' hholds haround⟩
  · obtain ⟨hpressure, hholds⟩ := hend
    exact ⟨hpressure,
      stable_holds (steady_open ended) (kept_resting rfl) machine machine' hholds haround⟩
  · obtain ⟨hpressure, found, hfound, hmetrics, hholds⟩ := hend
    exact ⟨hpressure, found, hfound, hmetrics,
      stable_holds (steady_dozing ended) (kept_resting rfl) machine machine' hholds haround⟩

theorem stable_collected {world : World} {t' : Thread}
    {result : Except Fault (Option Metrics)} :
    Stable (Around alone) (Collected alone ended world callStacks t result t') := by
  intro machine machine' hend haround
  obtain ⟨hheld, cycle, hcycle, hend⟩ := hend
  refine ⟨hheld, cycle, hcycle, ?_⟩
  obtain fault | _ | metrics := result
  · obtain ⟨hpressure, failure, hfault, hholds⟩ := hend
    exact ⟨hpressure, failure, hfault, stable_holds (steady_dozing ended)
      (kept_excused (kept_idle _)) machine machine' hholds haround⟩
  · obtain ⟨hpressure, hholds⟩ := hend
    exact ⟨hpressure,
      stable_holds (steady_open ended) (kept_idle _) machine machine' hholds haround⟩
  · obtain ⟨hpressure, found, hfound, hmetrics, hholds⟩ := hend
    exact ⟨hpressure, found, hfound, hmetrics,
      stable_holds (steady_dozing ended) (kept_idle _) machine machine' hholds haround⟩

/-- A collection that has not failed is counted. -/
private theorem meets_count {world : World} {cycle : CycleState} (found : MarkResult) :
    Meets (Around alone) alone
      (Holds alone (Pool.Dozing ended)
        (Resting .collector alone (locked world cycle) fun heap marks =>
          heap = world.heap.retain found.live ∧ marks = {})) t
      (onWorld <| .atomic fun after =>
        let total := after.cycle.total + 1
        let metrics := { Found.metrics world found with totalCollections := total }
        (some metrics,
          { after with
            cycle := { after.cycle with pressure := false, total, lastMetrics := some metrics } }))
      (Yields t fun metrics machine => metrics = some (Found.report world cycle found) ∧
        Holds alone (Pool.Dozing ended)
          (Resting .collector alone (locked world (counted cycle (Found.report world cycle found)))
            fun heap marks => heap = world.heap.retain found.live ∧ marks = {}) machine) := by
  have hkept : Kept alone (Resting .collector alone (locked world cycle) fun heap marks =>
      heap = world.heap.retain found.live ∧ marks = {}) := kept_resting rfl
  refine meets_atomic (f := fun machine : Machine =>
    (some { Found.metrics world found with totalCollections := machine.env.cycle.total + 1 },
      { machine with env := { machine.env with cycle := (counted machine.env.cycle
        { Found.metrics world found with totalCollections := machine.env.cycle.total + 1 }) } }))
    (stable_holds (steady_dozing ended) hkept) ?_
  intro machine hholds
  obtain ⟨htasks, hplaces, huntouched, hcontents⟩ := hholds.ledger
  have hcycle : machine.env.cycle = { cycle with busy := true } := huntouched.cycle
  refine ⟨_, rfl, rfl, ?_, hholds.calm, hholds.level, htasks, hplaces, ⟨huntouched.frames,
    huntouched.methods, ?_, fun halone => ?_⟩, hcontents⟩
  · rw [hcycle]
    rfl
  · simp only [Worksite.ledger, hcycle]
    rfl
  · have hsame : machine.env = _ := huntouched.alone halone
    simp only [Worksite.ledger, hcycle]
    rw [hsame]
    rfl

/-- What a thread that offers to collect does once it holds the cycle lock. -/
def collectLocked (callStacks : List CallStack) (policy : Policy) :
    Call Machine (Option Metrics) := do
  if !(← readCycle (·.pressure)) then
    return none
  if ← Pool.inspect (·.shutDown) then
    emit .collectionAfterShutdown
    return none
  let metrics ← runCycle callStacks policy
  onWorld <| .atomic fun world =>
    let total := world.cycle.total + 1
    let metrics := { metrics with totalCollections := total }
    (some metrics,
      { world with
        cycle := { world.cycle with pressure := false, total, lastMetrics := some metrics } })

/-- A call that collects does everything with the cycle lock held. -/
theorem collectStacks_eq (callStacks : List CallStack) (policy : Policy) :
    collectStacks callStacks policy = withCycleLock (collectLocked callStacks policy) := rfl

/-- What a thread does that holds the cycle lock of a pool at rest. -/
private theorem meets_collectLocked {world : World} {cycle : CycleState}
    (hfree : cycle.busy = false) (hcycle : alone → cycle = world.cycle)
    (hrank : t.held.rank ≤ Level.cycle.rank)
    (callStacks : List CallStack) (policy : Policy) :
    Meets (Around alone) alone
      (Holds alone (Pool.Open ended)
        (Resting .collector alone (locked world cycle) fun heap marks =>
          heap = world.heap ∧ marks = world.marks)) t
      (collectLocked callStacks policy)
      (LockedEnd alone ended world callStacks t) := by
  have hbusy : (locked world cycle).cycle.busy = true := rfl
  refine meets_bind_yields t (meets_readCycle _ hbusy (steady_open ended)) fun pressure => ?_
  refine meets_given fun hpressure => ?_
  cases pressure with
  | false =>
    apply meets_pure
    intro machine hholds
    exact ⟨rfl, cycle, hfree, hcycle, fun _ => hpressure.symm, hholds⟩
  | true =>
    refine meets_bind_yields t (meets_inspectShutDown hbusy) fun shut => ?_
    refine meets_given fun hshut => ?_
    cases shut with
    | true =>
      have hothers : ¬alone := fun halone => Bool.noConfusion (hshut halone)
      refine meets_bind_yields _ (meets_emit (stable_holds (steady_open ended)
        (kept_resting hbusy))) fun _ => meets_pure ?_
      intro machine hholds
      exact ⟨rfl, cycle, hfree, hcycle, fun halone => absurd halone hothers, hholds⟩
    | false =>
      refine meets_bind (meets_runCycle hbusy hrank (fun _ _ hcontents => hcontents.1) callStacks
        policy) ?_ ?_
      · intro metrics t' machine hend
        obtain ⟨t₁, rfl, found, hfound, rfl, rfl, hholds⟩ := hend
        apply (meets_count found machine hholds).mono
        intro result after hend
        obtain ⟨_, rfl, hthread, rfl, hholds⟩ := hend
        have hheld : after.1.held = t.held := by
          rw [hthread]
          rfl
        refine ⟨hheld, cycle, hfree, hcycle, hpressure.symm, found, ?_, rfl, hholds⟩
        exact ⟨hfound.frames, hfound.objects, hfound.arrays, hfound.intact, hfound.live⟩
      · intro fault t' machine hend
        obtain ⟨t₁, rfl, failure, hfailure, hheld, -, hholds⟩ := hend
        exact ⟨hheld, cycle, hfree, hcycle, hpressure.symm, failure, hfailure, hholds⟩

/-- To be idle depends on the parts of the world that a collection looks at. -/
theorem Idle.congr {world world' : World} {l : Ledger Job World Tally}
    (hidle : Idle alone world l) (hheap : world'.heap = world.heap)
    (hframes : world'.frames = world.frames) (hmethods : world'.methods = world.methods)
    (hmarks : world'.marks = world.marks) (halone : alone → world' = world) :
    Idle alone world' l :=
  ⟨hidle.tasks, hidle.places, hidle.free, hidle.heap.trans hheap.symm,
    hidle.frames.trans hframes.symm, hidle.methods.trans hmethods.symm,
    hidle.marks.trans hmarks.symm, fun h => (hidle.alone h).trans (halone h).symm⟩

private theorem unlocked_eq {cycle : CycleState} (hfree : cycle.busy = false) :
    { cycle with busy := false } = cycle := by
  rw [← hfree]

/-- A collection that begins when the pool is at rest. -/
theorem meets_collectStacks {world : World} (hrank : t.held.rank ≤ Level.cycle.rank)
    (callStacks : List CallStack) (policy : Policy) :
    Meets (Around alone) alone (Holds alone (Pool.Open ended) (Idle alone world)) t
      (collectStacks callStacks policy) (Collected alone ended world callStacks t) := by
  have hheld : Held.rank (.cycle :: t.held) ≤ Level.cycle.rank := by
    rw [Held.rank_cons]
    omega
  have hidle : Stable (Around alone) (Holds alone (Pool.Open ended) (Idle alone world)) :=
    stable_holds (steady_open ended) (kept_idle world)
  have hlocked := meets_withCycleLock (Q := Collected alone ended world callStacks
    { t with held := .cycle :: t.held }) hrank hidle (fun _ _ hholds => hholds.ledger.free)
    (B := fun machine => ∃ cycle : CycleState, cycle.busy = false ∧
      (alone → cycle = world.cycle) ∧ Holds alone (Pool.Open ended) (Resting .collector alone
        (locked world cycle) fun heap marks => heap = world.heap ∧ marks = world.marks) machine)
    ?_ (meets_exists fun cycle => meets_given fun hfree => meets_given fun hcycle =>
      meets_collectLocked hfree hcycle hheld callStacks policy)
    (fun _ _ => stable_lockedEnd) (fun _ _ => stable_collected) ?_
  · apply hlocked.mono_post
    intro result t' machine hend
    obtain ⟨t₁, rfl, hheld, hend⟩ := hend
    refine ⟨?_, hend⟩
    obtain ⟨held, trace⟩ := t₁
    subst hheld
    rw [Thread.leave_cons]
  · intro machine hholds hfree
    refine ⟨machine.env.cycle, hfree, fun halone => ?_, hholds.calm, hholds.level,
      hholds.ledger.lock⟩
    exact congrArg World.cycle (hholds.ledger.alone halone)
  · intro result t' machine hend
    obtain ⟨hheld, cycle, hfree, hcycle, hend⟩ := hend
    refine ⟨hheld, cycle, hcycle, ?_⟩
    obtain fault | _ | metrics := result
    · obtain ⟨hpressure, failure, hfault, hholds⟩ := hend
      obtain ⟨hexcused, hrest⟩ := hholds.ledger
      refine ⟨hpressure, failure, hfault, hholds.calm, hholds.level, hexcused,
        hrest.imp (fun hshut => hshut) fun hrest => ?_⟩
      refine hrest.unlock.congr rfl rfl rfl rfl fun halone => ?_
      rw [unlocked_eq hfree, hcycle halone]
    · obtain ⟨hpressure, hholds⟩ := hend
      refine ⟨hpressure, hholds.calm, hholds.level, ?_⟩
      refine hholds.ledger.unlock.congr rfl rfl rfl rfl fun halone => ?_
      rw [unlocked_eq hfree, hcycle halone]
    · obtain ⟨hpressure, found, hfound, hmetrics, hholds⟩ := hend
      refine ⟨hpressure, found, hfound, hmetrics, hholds.calm, hholds.level, ?_⟩
      refine hholds.ledger.unlock.congr rfl rfl rfl rfl fun halone => ?_
      rw [unlocked_eq (show (counted cycle metrics).busy = false from hfree)]

/-- Once the pool is shut down nothing is collected. -/
private theorem meets_collectLocked_shutDown (hL : Steady L) (callStacks : List CallStack)
    (policy : Policy) :
    Meets (Around alone) alone (Holds alone L fun l => ¬alone ∧ l.shutDown = true) t
      (collectLocked callStacks policy)
      (fun result _ machine => result = .ok none ∧
        Holds alone L (fun l => ¬alone ∧ l.shutDown = true) machine) := by
  have hstable : Stable (Around alone) (Holds alone L fun l => ¬alone ∧ l.shutDown = true) :=
    stable_holds hL kept_shutDown
  refine meets_bind_yields t (B := fun _ => Holds alone L fun l => ¬alone ∧ l.shutDown = true)
    (meets_read (f := fun machine : Machine => machine.env.cycle.pressure) hstable
      fun machine hholds => ⟨_, rfl, rfl, hholds⟩) fun pressure => ?_
  cases pressure with
  | false =>
    apply meets_pure
    intro machine hholds
    exact ⟨rfl, hholds⟩
  | true =>
    refine meets_bind_yields t (B := fun shut machine => shut = true ∧
      Holds alone L (fun l => ¬alone ∧ l.shutDown = true) machine)
      (meets_read hstable fun machine hholds => ⟨_, rfl, rfl, hholds.ledger.2, hholds⟩)
      fun shut => meets_given fun hshut => ?_
    subst hshut
    refine meets_bind_yields _ (meets_emit hstable) fun _ => meets_pure ?_
    intro machine hholds
    exact ⟨rfl, hholds⟩

/-- Nobody collects after the pool was shut down. -/
theorem meets_collectStacks_shutDown (hrank : t.held.rank ≤ Level.cycle.rank) (hL : Steady L)
    (callStacks : List CallStack) (policy : Policy) :
    Meets (Around alone) alone (Holds alone L fun l => ¬alone ∧ l.shutDown = true) t
      (collectStacks callStacks policy)
      (fun result _ machine => result = .ok none ∧
        Holds alone L (fun l => ¬alone ∧ l.shutDown = true) machine) := by
  have hstable : Stable (Around alone) (Holds alone L fun l => ¬alone ∧ l.shutDown = true) :=
    stable_holds hL kept_shutDown
  have hend : ∀ result : Except Fault (Option Metrics), Stable (Around alone) fun machine =>
      result = .ok none ∧ Holds alone L (fun l => ¬alone ∧ l.shutDown = true) machine := by
    intro result machine machine' hmachine haround
    exact ⟨hmachine.1, hstable machine machine' hmachine.2 haround⟩
  rw [collectStacks_eq]
  refine (meets_withCycleLock hrank hstable ?_ ?_
    (meets_collectLocked_shutDown hL callStacks policy) (fun result _ => hend result)
    (fun result _ => hend result) ?_).mono_post ?_
  · intro halone machine hholds
    exact absurd halone hholds.ledger.1
  · intro machine hholds _
    exact ⟨hholds.calm, hholds.level, hholds.ledger⟩
  · intro result t' machine hmachine
    exact ⟨hmachine.1, hmachine.2.calm, hmachine.2.level, hmachine.2.ledger⟩
  · intro result t' machine hmachine
    obtain ⟨_, -, hmachine⟩ := hmachine
    exact hmachine

end MarkSweep.Machine
