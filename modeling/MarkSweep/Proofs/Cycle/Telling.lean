import MarkSweep.Proofs.Cycle.History
import MarkSweep.Proofs.Cycle.Sharing

namespace MarkSweep

/-- Reports these records, one after another. -/
def Thread.recount (thread : Thread) (records : List Record) : Thread :=
  { thread with trace := records.reverse ++ thread.trace }

namespace Machine

open Call
open Routine (Attains)

variable {t : Thread} {machine before : Machine} {world : World}
  {P : Ledger Job World Tally → Prop} {callStacks : List CallStack} {policy : Policy}
  {held : Held} {closed closed' rested : Prop} {records : List Record}

/-- What is reported of a phase that finds so many values. -/
def phaseRecords (phase : Phase) (values : Nat) (events : List Event) : List Record :=
  .opened (.phase phase) :: .event (.phaseStart phase values) :: events.map .event ++
    [.left (.phase phase)]

/-- What is reported of the phases of a collection that begins in a world, by what they come to. -/
inductive Recounts (rested : Prop) (before : World) (callStacks : List CallStack) :
    Except Fault Metrics → List Record → Prop
  | completed (metrics : Metrics) :
      Recounts rested before callStacks (.ok metrics)
        (phaseRecords .mark (before.heap.objects.size + before.heap.arrays.size)
            [.markEnd metrics.objectsMarked metrics.arraysMarked metrics.framesScanned] ++
          phaseRecords .sweep (metrics.objectsMarked + metrics.arraysMarked)
            [.sweepEnd metrics.objectsReclaimed metrics.arraysReclaimed metrics.monitorsReclaimed])
  /-- The mark phase has failed. -/
  | unmarked (failure : Failure) :
      Recounts rested before callStacks (.error (.failed failure))
        (phaseRecords .mark (before.heap.objects.size + before.heap.arrays.size) [])
  /-- The sweep phase has failed, after a mark phase that has not. If the pool was `rested`, nobody
  else has marked. -/
  | unswept {found : MarkResult} (hfound : rested → Found before callStacks found) :
      Recounts rested before callStacks (.error (.failed .poolShutDown))
        (phaseRecords .mark (before.heap.objects.size + before.heap.arrays.size)
            [.markEnd found.objects found.arrays found.frames] ++
          phaseRecords .sweep (found.objects + found.arrays) [])

/-- It does not matter to what is reported that the lock is held. -/
theorem Recounts.unlock {cycle : CycleState} {result : Except Fault Metrics}
    (hrecounts : Recounts rested (locked world cycle) callStacks result records) :
    Recounts rested world callStacks result records := by
  cases hrecounts with
  | completed metrics => exact .completed metrics
  | unmarked failure => exact .unmarked failure
  | @unswept found hfound =>
    refine .unswept fun hrested => ?_
    have hfound := hfound hrested
    exact ⟨hfound.frames, hfound.objects, hfound.arrays, hfound.intact, hfound.live⟩

/-- It does not matter either how many collections there were. -/
theorem Recounts.count {metrics : Metrics}
    (hrecounts : Recounts rested world callStacks (.ok metrics) records) (total : Nat) :
    Recounts rested world callStacks (.ok { metrics with totalCollections := total }) records := by
  cases hrecounts with
  | completed _ => exact .completed { metrics with totalCollections := total }

/-- The pool was shut down, or nobody sweeps. -/
def Usable (l : Ledger Job World Tally) : Prop := l.shutDown = true ∨ Shared [] l

theorem kept_usable : Kept False Usable := kept_closed.or kept_shared

theorem Usable.setEnv {l : Ledger Job World Tally} (hl : Usable l) (env : World) :
    Usable { l with env } :=
  hl.imp (fun hshut => hshut) fun hl => hl.setEnv env l.shutDown

/-- The end of the phases of a collection, which the thread has recounted between `opening` and
`closing`. -/
def Recounted (opening closing : List Record) (rested : Prop) (world : World)
    (callStacks : List CallStack) (t : Thread) : Post Machine Metrics := fun result t' machine =>
  (∃ records, t' = t.recount (opening ++ records ++ closing) ∧
    Recounts rested world callStacks result records) ∧ Shows Usable machine

private theorem stable_recounted {opening closing : List Record} {result : Except Fault Metrics}
    {t' : Thread} :
    Stable (Around False) (Recounted opening closing rested world callStacks t result t') :=
  fun _ _ hend haround => ⟨hend.1, stable_holds steady_true kept_usable _ _ hend.2 haround⟩

/-- A thread recounts the phases that it goes through, as far as it comes. -/
theorem meets_runPhases_recounted {H : Heap → Marks → Prop} (hbusy : world.cycle.busy = true)
    (hrank : t.held.rank ≤ Level.cycle.rank)
    (hheap : ∀ heap marks, H heap marks → heap = world.heap) (callStacks : List CallStack) :
    Meets (Around False) False (Shows (Resting .collector False world H)) t
      (runPhases callStacks) (Recounted [] [] rested world callStacks t) := by
  refine Meets.mono (A := Holds False (Pool.Open []) (Resting .collector False world H)) ?_
    (fun _ hholds => hholds.relevel) fun _ _ _ hend => hend
  refine meets_bind_yields _ (meets_clear_resting hbusy (steady_open [])
    (Nat.le_trans hrank (by decide)) hheap) fun _ => ?_
  refine meets_bind_yields _ (meets_signalWork (kept_resting hbusy)) fun _ => ?_
  refine meets_bind (meets_markPhase hbusy hrank callStacks) ?_ ?_
  · rintro found t' machine ⟨t₁, rfl, rfl, hfound, hholds⟩
    refine meets_bind (meets_sweepPhase (t := marked t world found) hbusy found) ?_ ?_ machine
      hholds
    · rintro stats t' machine ⟨t₁, rfl, rfl, -, hholds⟩
      exact ⟨⟨_, rfl, .completed _⟩,
        hholds.relevel.mono fun l hrest => .inr (shared_of_idle hrest.tasks)⟩
    · rintro fault t' machine ⟨t₁, rfl, rfl, rfl, hholds⟩
      exact ⟨⟨_, rfl, .unswept fun _ => hfound⟩, hholds.relevel.mono fun l hshut => .inl hshut.2⟩
  · rintro fault t' machine ⟨t₁, rfl, rfl, failure, rfl, hholds⟩
    refine ⟨⟨_, rfl, .unmarked failure⟩, hholds.relevel.mono fun l hbroken => ?_⟩
    exact hbroken.2.imp (·.2) fun hrest => shared_of_idle hrest.tasks

/-- The end of a phase in a pool that others have tasks in. The thread has reported how the phase
ended, or the phase has failed as `fails` says. -/
private def Reported {α : Type} (t : Thread) (event : α → Event) (fails : Failure → Prop)
    (P : Ledger Job World Tally → Prop) : Post Machine α := fun result t' machine =>
  Holds False (Pool.Alert []) P machine ∧
    match result with
    | .ok a => t' = t.report (.event (event a))
    | .error fault => t' = t ∧ ∃ failure, fault = .failed failure ∧ fails failure

private theorem stable_reported {α : Type} {event : α → Event} {fails : Failure → Prop}
    (hP : Kept False P) (result : Except Fault α) (t' : Thread) :
    Stable (Around False) (Reported t event fails P result t') :=
  fun _ _ hend haround => ⟨stable_holds (steady_alert []) hP _ _ hend.1 haround, hend.2⟩

/-- What is left of a mark phase when the scan has answered. -/
private theorem meets_countAndFreeze_lent {heap : Heap} (hrank : t.held.rank ≤ Level.cycle.rank)
    (frames : Nat) :
    Meets (Around False) False (Holds False (Pool.Alert []) (Lent heap)) t
      (do
        let objects ← onMarks .collector (Marks.countKind .object)
        let arrays ← onMarks .collector (Marks.countKind .array)
        let live ← onMarks .collector Marks.freeze
        emit (.markEnd objects arrays frames)
        return ⟨frames, objects, arrays, live⟩)
      (Reported t (fun found : MarkResult => .markEnd found.objects found.arrays found.frames)
        (fun _ => True) (Lent heap)) := by
  have hmarks : ∀ {β : Type} (f : Marks → β × Marks),
      Meets (Around False) False (Holds False (Pool.Alert []) (Lent heap)) t
        (onMarks .collector (guarded .marks (atomic f)))
        (Yields t fun _ => Holds False (Pool.Alert []) (Lent heap)) := by
    intro β f
    refine meets_onMarks (B := fun _ => Lent heap) (steady_alert []) kept_lent.firm
      (fun _ => kept_lent.firm) (Nat.le_trans hrank (by decide)) fun l hl => ?_
    exact ⟨hl.1.setEnv _ l.shutDown, hl.2⟩
  refine meets_bind_yields _ (hmarks _) fun objects => ?_
  refine meets_bind_yields _ (hmarks _) fun arrays => ?_
  rw [onMarks_freeze]
  refine meets_bind_yields t (B := fun _ => Holds False (Pool.Alert []) (Lent heap)) ?_
    fun live => ?_
  · refine meets_bind_yields _ (hmarks _) fun objects => ?_
    refine meets_bind_yields _ (hmarks _) fun arrays => ?_
    exact meets_pure fun machine hholds => ⟨_, rfl, rfl, hholds⟩
  refine meets_bind_yields _ (meets_emit (stable_holds (steady_alert []) kept_lent)) fun _ => ?_
  exact meets_pure fun machine hholds => ⟨hholds, rfl⟩

/-- A mark phase in a pool that others have tasks in. -/
private theorem meets_markPhase_lent {heap : Heap} (hrank : t.held.rank ≤ Level.cycle.rank)
    (callStacks : List CallStack) :
    Meets (Around False) False (Holds False (Pool.Alert []) (Lent heap)) t (markPhase callStacks)
      (fun result t' machine => ∃ t₁, t' = t₁.report (.left (.phase .mark)) ∧
        Reported (markBegun t heap)
          (fun found : MarkResult => .markEnd found.objects found.arrays found.frames)
          (fun _ => True) (Lent heap) result t₁ machine) := by
  have hkept : Kept False (Lent heap) := kept_lent
  have hstable := stable_holds (steady_alert []) hkept
  refine meets_inSpan hstable ?_ (fun result t' => stable_reported kept_lent result t')
    fun result t' machine hend => ⟨t', rfl, hend⟩
  refine meets_bind_yields _ (meets_readStats (steady_alert []) kept_lent.firm
    (Nat.le_trans hrank (by decide)) fun _ hl => hl.2) fun stats => ?_
  refine meets_given fun hstats => ?_
  subst hstats
  refine meets_bind_yields _ (meets_emit hstable) fun _ => ?_
  refine meets_bind_yields _ (carries_scan_lent .collector callStacks _) fun answer => ?_
  cases answer with
  | error failure => exact meets_fault fun machine hholds => ⟨hholds, rfl, failure, rfl, trivial⟩
  | ok found => exact meets_countAndFreeze_lent (t := markBegun t heap) hrank found.frames

/-- A sweep phase in a pool that others have tasks in. -/
private theorem meets_sweepPhase_shared (found : MarkResult) :
    Meets (Around False) False (Holds False (Pool.Alert []) (Shared [])) t (sweepPhase found)
      (fun result t' machine => ∃ t₁, t' = t₁.report (.left (.phase .sweep)) ∧
        Reported (sweepBegun t found)
          (fun swept : SweepStats => .sweepEnd swept.objects swept.arrays swept.monitors)
          (· = .poolShutDown) (Shared []) result t₁ machine) := by
  have hkept : Kept False (Shared []) := kept_shared
  have hstable := stable_holds (steady_alert []) hkept
  refine meets_inSpan hstable ?_ (fun result t' => stable_reported kept_shared result t')
    fun result t' machine hend => ⟨t', rfl, hend⟩
  refine meets_bind_yields _ (meets_emit hstable) fun _ => ?_
  refine meets_bind_yields _ (carries_sweep_shared found.live _) fun answer machine hholds => ?_
  obtain ⟨hfails, hshared⟩ := hholds.ledger
  have hafter : Holds False (Pool.Alert []) (Shared []) machine :=
    ⟨hholds.calm, hholds.level, hshared⟩
  cases answer with
  | error failure =>
    exact meets_fault (fun machine hholds => ⟨hholds, rfl, failure, rfl, hfails failure rfl⟩)
      machine hafter
  | ok swept =>
    refine meets_bind_yields _ (meets_emit hstable) (fun _ => ?_) machine hafter
    exact meets_pure fun machine hholds => ⟨hholds, rfl⟩

/-- In a pool that others have tasks in, too, a thread recounts the phases that it goes through. -/
theorem meets_runPhases_lent (world : World) (hrank : t.held.rank ≤ Level.cycle.rank)
    (callStacks : List CallStack) (hrested : ¬rested) :
    Meets (Around False) False (Shows (Lent world.heap)) t
      (runPhases callStacks) (Recounted [] [] rested world callStacks t) := by
  refine Meets.mono (A := Holds False (Pool.Open []) (Lent world.heap)) ?_
    (fun _ hholds => hholds.relevel) fun _ _ _ hend => hend
  have hmarks : ∀ (l : Ledger Job World Tally) (marks : Marks), Lent world.heap l →
      Lent world.heap { l with env := { l.env with marks } } :=
    fun l marks hl => ⟨hl.1.setEnv _ l.shutDown, hl.2⟩
  refine meets_bind_yields _ (meets_clear (steady_open []) kept_lent kept_lent kept_lent
    (Nat.le_trans hrank (by decide)) (fun l hl => hmarks l _ hl) fun l hl => hmarks l _ hl)
    fun _ => ?_
  refine meets_bind_yields _ (meets_signalWork kept_lent) fun _ => ?_
  refine meets_bind (meets_markPhase_lent hrank callStacks) ?_ ?_
  · rintro found t' machine ⟨t₁, rfl, hholds, rfl⟩
    refine meets_bind (meets_sweepPhase_shared found) ?_ ?_ machine (hholds.mono fun _ hl => hl.1)
    · rintro stats t' machine ⟨t₁, rfl, hholds, rfl⟩
      exact ⟨⟨_, rfl, .completed _⟩, hholds.relevel.mono fun l hl => .inr hl⟩
    · rintro fault t' machine ⟨t₁, rfl, hholds, rfl, failure, rfl, rfl⟩
      exact ⟨⟨_, rfl, .unswept fun h => absurd h hrested⟩,
        hholds.relevel.mono fun l hl => .inr hl⟩
  · rintro fault t' machine ⟨t₁, rfl, hholds, rfl, failure, rfl, -⟩
    exact ⟨⟨_, rfl, .unmarked failure⟩, hholds.relevel.mono fun l hl => .inr hl.1⟩

/-- To put the collector back to rest is nothing to report. -/
theorem meets_rest_silent (hrank : t.held.rank ≤ Level.cycle.rank) :
    Meets (Around False) False (Shows Usable) t Machine.rest
      (Yields t fun _ => Shows Usable) := by
  have hclear : Meets (Around False) False (Holds False (Pool.Alert []) Usable) t
      (onMarks .collector Marks.clear)
      (Yields t fun _ => Holds False (Pool.Alert []) Usable) :=
    meets_clear (steady_alert []) kept_usable kept_usable kept_usable
      (Nat.le_trans hrank (by decide)) (fun _ hl => hl.setEnv _) fun _ hl => hl.setEnv _
  refine (meets_bind_yields t hclear fun _ => meets_signalWait kept_usable).mono
    (fun machine hholds => hholds.relevel) ?_
  rintro result t' machine ⟨value, hvalue, ht, hholds⟩
  exact ⟨value, hvalue, ht, hholds.relevel⟩

/-- A collection is recounted between the two records of its span. -/
theorem meets_runCycle_recounted (hP : Kept False P) (policy : Policy)
    (hphases : ∀ t : Thread, t.held.rank ≤ Level.cycle.rank → Meets (Around False) False (Shows P) t
      (runPhases callStacks) (Recounted [] [] rested world callStacks t))
    (hrank : t.held.rank ≤ Level.cycle.rank) :
    Meets (Around False) False (Shows P) t (runCycle callStacks policy)
      (Recounted [.opened (.collection policy)] [.left (.collection policy)] rested world callStacks
        t) := by
  refine meets_inSpan (R := Recounted [.opened (.collection policy)] [] rested world callStacks t)
    (stable_holds steady_true hP) ?_ (fun _ _ => stable_recounted) ?_
  · refine meets_andFinally (hphases _ hrank) ?_
    rintro result t' machine ⟨⟨records, rfl, hrecounts⟩, hshows⟩
    have hrest := meets_rest_silent (t := (t.report (.opened (.collection policy))).recount
      ([] ++ records ++ [])) hrank machine hshows
    apply hrest.mono
    rintro _ ⟨_, machine'⟩ ⟨_, rfl, rfl, hshows'⟩
    refine ⟨⟨records, ?_, hrecounts⟩, hshows'⟩
    simp [Thread.recount, Thread.report]
  · rintro result t' machine ⟨⟨records, rfl, hrecounts⟩, hshows⟩
    refine ⟨⟨records, ?_, hrecounts⟩, hshows⟩
    simp [Thread.recount, Thread.report]

/-- A step of a worker, or of a bystander who leaves alone what the cycle lock protects. -/
def Unprompted (machine machine' : Machine) : Prop :=
  (∃ choice i, Worksite.workerStep Job.body choice i machine = some machine') ∨
    Bystanding machine machine' ∧ machine'.env.cycle = machine.env.cycle

theorem Unprompted.around {machine machine' : Machine} (hstep : Unprompted machine machine') :
    Around False machine machine' :=
  hstep.imp id fun hstep => ⟨id, hstep.1⟩

/-- Company that does not ask for collections leaves alone what the cycle lock protects. -/
theorem Unprompted.cycle {machine machine' : Machine} (hstep : Unprompted machine machine') :
    machine'.env.cycle = machine.env.cycle := by
  obtain ⟨choice, i, hstep⟩ | ⟨-, hcycle⟩ := hstep
  · obtain henv | ⟨name, thread, job, hbody⟩ := Worksite.workerStep_env hstep
    · rw [henv]
    · exact Job.step_cycle hbody
  · exact hcycle

theorem stable_unprompted (hP : Kept False P) (t : Thread) (cycle : CycleState) :
    Stable (Beside Unprompted) fun x => x.1 = t ∧ Shows P x.2 ∧ x.2.env.cycle = cycle := by
  rintro x y ⟨hthread, hholds, hcycle⟩ ⟨hsame, hstep⟩
  exact ⟨hsame.trans hthread, stable_holds steady_true hP _ _ hholds hstep.around,
    hstep.cycle.trans hcycle⟩

/-- Nobody has anything to do in the pool. -/
def Rested (machine : Machine) : Prop := machine.ledger.tasks = [] ∧ machine.ledger.places = []

/-- What a thread that holds `held` reports when it offers to collect, by what comes of it. It is
too late to collect only if the pool was `closed`. -/
inductive Narrates (held : Held) (before : Machine) (callStacks : List CallStack) (policy : Policy)
    (closed : Prop) : Except Fault (Option Metrics) → List Record → Prop
  /-- The thread holds a level above the cycle lock. -/
  | refused (hrank : Level.cycle.rank < held.rank) :
      Narrates held before callStacks policy closed (.error (.lockOrder .cycle held.rank)) []
  | unasked (hunasked : before.env.cycle.pressure = false) :
      Narrates held before callStacks policy closed (.ok none) []
  | late (hasked : before.env.cycle.pressure = true) (hclosed : closed) :
      Narrates held before callStacks policy closed (.ok none) [.event .collectionAfterShutdown]
  | begun (result : Except Fault Metrics) {records : List Record}
      (hasked : before.env.cycle.pressure = true) (hopen : before.pool.shutDown = false)
      (hrecounts : Recounts before.Rested before.env callStacks result records) :
      Narrates held before callStacks policy closed (result.map some)
        (.opened (.collection policy) :: records ++ [.left (.collection policy)])

theorem Narrates.mono {result : Except Fault (Option Metrics)}
    (hnarrates : Narrates held before callStacks policy closed result records)
    (hclosed : closed → closed') :
    Narrates held before callStacks policy closed' result records := by
  cases hnarrates with
  | refused hrank => exact .refused hrank
  | unasked hunasked => exact .unasked hunasked
  | late hasked h => exact .late hasked (hclosed h)
  | begun result hasked hopen hrecounts => exact .begun result hasked hopen hrecounts

/-- The end of a call by a thread that held `held` when it made the call. -/
def NarrationEnd (held : Held) (before : Machine) (callStacks : List CallStack) (policy : Policy)
    (t : Thread) (result : Except Fault (Option Metrics)) (x : Thread × Machine) : Prop :=
  ∃ records, x.1 = t.recount records ∧ Shows (fun l =>
    Narrates held before callStacks policy (l.shutDown = true) result records ∧ Usable l) x.2

theorem kept_narrates {result : Except Fault (Option Metrics)} :
    Kept False fun l : Ledger Job World Tally =>
      Narrates held before callStacks policy (l.shutDown = true) result records where
  similar := fun h hsimilar => h.mono fun hshut => hsimilar.shutDown.trans hshut
  turn := by
    intro l l' h hturn
    refine h.mono fun hshut => ?_
    cases hturn <;> exact hshut
  spared := fun _ _ _ _ h _ hkeeps => h.mono hkeeps

theorem stable_narrationEnd {result : Except Fault (Option Metrics)} :
    Stable (Beside Unprompted) (NarrationEnd held before callStacks policy t result) := by
  rintro x y ⟨records, hthread, hholds⟩ ⟨hsame, hstep⟩
  exact ⟨records, hsame.trans hthread,
    stable_holds steady_true (kept_narrates.and kept_usable) _ _ hholds hstep.around⟩

/-- The pool was shut down, or it was open before, and if it was at rest then it has been at rest
since. -/
def Awaiting (before : Machine) (l : Ledger Job World Tally) : Prop :=
  l.shutDown = true ∨ before.pool.shutDown = false ∧
    (Idle False before.env l ∨ ¬before.Rested ∧ Lent before.env.heap l)

/-- The same when the lock has been taken. -/
def Underway (before : Machine) (l : Ledger Job World Tally) : Prop :=
  l.shutDown = true ∨ before.pool.shutDown = false ∧
    (Resting .collector False (locked before.env before.env.cycle)
      (fun heap marks => heap = before.env.heap ∧ marks = before.env.marks) l ∨
      ¬before.Rested ∧ Lent before.env.heap l)

theorem kept_awaiting (before : Machine) : Kept False (Awaiting before) :=
  kept_closed.or ((kept_const _).and ((kept_idle before.env).or ((kept_const _).and kept_lent)))

theorem kept_underway (before : Machine) : Kept False (Underway before) :=
  kept_closed.or ((kept_const _).and ((kept_resting rfl).or ((kept_const _).and kept_lent)))

theorem Awaiting.usable {l : Ledger Job World Tally} (hl : Awaiting before l) : Usable l := by
  obtain hshut | ⟨-, hidle | ⟨-, hlent⟩⟩ := hl
  · exact .inl hshut
  · exact .inr (shared_of_idle hidle.tasks)
  · exact .inr hlent.1

theorem Underway.usable {l : Ledger Job World Tally} (hl : Underway before l) : Usable l := by
  obtain hshut | ⟨-, hrest | ⟨-, hlent⟩⟩ := hl
  · exact .inl hshut
  · exact .inr (shared_of_idle hrest.tasks)
  · exact .inr hlent.1

/-- A collection that is under way is recounted, whoever has tasks in the pool. -/
theorem Underway.attains_runCycle (callStacks : List CallStack) (policy : Policy)
    (hopen : machine.pool.shutDown = false) (hholds : Shows (Underway before) machine)
    (hrank : t.held.rank ≤ Level.cycle.rank) :
    Attains (Beside (Around False)) False
      (fun result x => before.pool.shutDown = false ∧
        Recounted [.opened (.collection policy)] [.left (.collection policy)] before.Rested
          (locked before.env before.env.cycle) callStacks t result x.1 x.2)
      (runCycle callStacks policy) (t, machine) := by
  obtain hshut | ⟨hbefore, hunderway⟩ := hholds.ledger
  · cases hopen.symm.trans hshut
  have hrun : Meets (Around False) False (fun machine => Shows (Resting .collector False
      (locked before.env before.env.cycle)
      (fun heap marks => heap = before.env.heap ∧ marks = before.env.marks)) machine ∨
      ¬before.Rested ∧ Shows (Lent before.env.heap) machine) t (runCycle callStacks policy)
      (Recounted [.opened (.collection policy)] [.left (.collection policy)] before.Rested
        (locked before.env before.env.cycle) callStacks t) := by
    rintro machine (hrest | ⟨hrested, hlent⟩)
    · exact meets_runCycle_recounted (kept_resting rfl) policy (fun _ hrank =>
        meets_runPhases_recounted rfl hrank (fun _ _ hcontents => hcontents.1) callStacks) hrank
        machine hrest
    · exact meets_runCycle_recounted kept_lent policy (fun _ hrank =>
        meets_runPhases_lent (locked before.env before.env.cycle) hrank callStacks hrested)
        hrank machine hlent
  refine (hrun machine (hunderway.imp ?_ ?_)).mono fun result x hend => ⟨hbefore, hend⟩
  · exact fun hrest => ⟨hholds.calm, hholds.level, hrest⟩
  · exact fun hlent => ⟨hlent.1, hholds.calm, hholds.level, hlent.2⟩

/-- What a thread reports while it holds the cycle lock. -/
theorem attains_collectLocked_narrates (held : Held) (hrank : t.held.rank ≤ Level.cycle.rank)
    (hholds : Shows (Underway before) machine)
    (hcycle : machine.env.cycle = { before.env.cycle with busy := true }) :
    Attains (Beside Unprompted) False (NarrationEnd held before callStacks policy t)
      (collectLocked callStacks policy) (t, machine) := by
  have hstable := stable_unprompted (kept_underway before) t { before.env.cycle with busy := true }
  refine attains_bind (attains_atomic (f := fun machine => (machine.env.cycle.pressure, machine))
    hstable ⟨rfl, hholds, hcycle⟩ ?_)
  rintro t₁ machine ⟨rfl, hholds, hcycle⟩
  have hpressure : machine.env.cycle.pressure = before.env.cycle.pressure := by
    rw [hcycle]
  dsimp only
  cases hasked : before.env.cycle.pressure with
  | false =>
    rw [hpressure, hasked]
    exact ⟨[], rfl, hholds.mono fun _ hl => ⟨.unasked hasked, hl.usable⟩⟩
  | true =>
    rw [hpressure, hasked]
    refine attains_bind (attains_atomic (f := fun machine => (machine.pool.shutDown, machine))
      hstable ⟨rfl, hholds, hcycle⟩ ?_)
    rintro t₂ machine ⟨rfl, hholds, hcycle⟩
    dsimp only
    cases hshut : machine.pool.shutDown with
    | true =>
      have hclosed : Shows (fun l => l.shutDown = true) machine :=
        ⟨hholds.calm, hholds.level, hshut⟩
      refine attains_bind (attains_onThread (stable_unprompted kept_closed t₂ _)
        ⟨rfl, hclosed, hcycle⟩ ?_)
      rintro t₃ machine ⟨rfl, hclosed, -⟩
      exact ⟨[.event .collectionAfterShutdown], rfl,
        hclosed.mono fun _ h => ⟨.late hasked h, .inl h⟩⟩
    | false =>
      have hrun := Underway.attains_runCycle callStacks policy hshut hholds hrank
      refine attains_bind ((hrun.mono_env fun _ _ hstep => ⟨hstep.1, hstep.2.around⟩).mono ?_)
      rintro (fault | metrics) ⟨t₃, machine⟩ ⟨hopen, ⟨records, hthread, hrecounts⟩, hshows⟩
      · exact ⟨_, hthread, hshows.mono fun _ hl =>
          ⟨.begun (.error fault) hasked hopen hrecounts.unlock, hl⟩⟩
      · simp only [onWorld_atomic]
        refine attains_atomic (stable_unprompted kept_usable t₃ machine.env.cycle)
          ⟨rfl, hshows, rfl⟩ ?_
        rintro t₄ machine ⟨rfl, hshows, -⟩
        exact ⟨_, hthread, hshows.calm, hshows.level,
          .begun (.ok _) hasked hopen (hrecounts.unlock.count _), hshows.ledger.setEnv _⟩

/-- What is always true of a collector between its collections, whoever has tasks in its pool. -/
structure Receptive (machine : Machine) : Prop where
  usable : Shows Usable machine
  free : machine.env.cycle.busy = false

/-- What a thread reports that offers to collect, as long as nobody else asks for a collection or
collects meanwhile. -/
theorem Receptive.attains_narrates (hready : Receptive before) (t : Thread)
    (callStacks : List CallStack) (policy : Policy) :
    Attains (Beside Unprompted) False
      (fun result x => NarrationEnd t.held before callStacks policy t result x ∧
        x.2.env.cycle.busy = false)
      (collectStacks callStacks policy) (t, before) := by
  have hawaiting : Shows (Awaiting before) before := by
    refine ⟨hready.usable.calm, hready.usable.level, ?_⟩
    obtain hshut | hshared := hready.usable.ledger
    · exact .inl hshut
    cases hshut : before.pool.shutDown with
    | true => exact .inl hshut
    | false =>
      refine .inr ⟨hshut, ?_⟩
      by_cases hrested : before.Rested
      · exact .inl ⟨hrested.1, hrested.2, hready.free, rfl, rfl, rfl, rfl, False.elim⟩
      · exact .inr ⟨hrested, hshared, rfl⟩
  rw [collectStacks_eq]
  have hstable := fun t => stable_unprompted (kept_awaiting before) t before.env.cycle
  refine attains_bind (attains_onThread (hstable t) ⟨rfl, hawaiting, rfl⟩ ?_)
  rintro t machine ⟨rfl, hholds, hcycle⟩
  by_cases hrank : t.held.rank ≤ Level.cycle.rank
  case neg =>
    have hlt := Nat.not_le.1 hrank
    rw [Thread.enter_of_lt_rank hlt]
    exact ⟨⟨[], rfl, hholds.mono fun _ hl => ⟨.refused hlt, hl.usable⟩⟩,
      (congrArg CycleState.busy hcycle).trans hready.free⟩
  rw [Thread.enter_of_rank_le hrank]
  have hheld : Held.rank (.cycle :: t.held) ≤ Level.cycle.rank := by
    rw [Held.rank_cons]
    exact Nat.max_le.2 ⟨Nat.le_refl _, hrank⟩
  refine attains_andFinally (Attains.mono (Q := fun result x =>
    NarrationEnd t.held before callStacks policy { t with held := .cycle :: t.held } result x ∧
      x.2.env.cycle.busy = false) ?locked fun result x hend => ?left)
  case locked =>
    refine attains_bind (attains_await (hstable { t with held := .cycle :: t.held })
      ⟨rfl, hholds, hcycle⟩ ?_)
    rintro t₁ machine₁ ⟨hthread, hholds, hcycle⟩ _ machine₂ hlock
    obtain rfl : t₁ = { t with held := .cycle :: t.held } := hthread
    split at hlock
    · cases hlock
    · cases hlock
      have hunderway : Shows (Underway before)
          { machine₁ with env := locked machine₁.env machine₁.env.cycle } := by
        refine ⟨hholds.calm, hholds.level, hholds.ledger.imp (fun hshut => hshut) ?_⟩
        rintro ⟨hopen, hidle | ⟨hrested, hlent⟩⟩
        · refine ⟨hopen, .inl ?_⟩
          rw [← hcycle]
          exact hidle.lock
        · exact ⟨hopen, .inr ⟨hrested, hlent.1.setEnv _ machine₁.pool.shutDown, hlent.2⟩⟩
      have hlocked : (locked machine₁.env machine₁.env.cycle).cycle =
          { before.env.cycle with busy := true } := by
        rw [← hcycle]
        rfl
      refine attains_andFinally ((attains_collectLocked_narrates t.held hheld hunderway
        hlocked).mono fun result x hend => ?_)
      refine attains_atomic stable_narrationEnd hend ?_
      rintro t₂ machine ⟨records, hthread, hshows⟩
      exact ⟨⟨records, hthread, hshows.calm, hshows.level, hshows.ledger.1,
        hshows.ledger.2.setEnv _⟩, rfl⟩
  case left =>
    have hfree : Stable (Beside Unprompted) fun y =>
        NarrationEnd t.held before callStacks policy { t with held := .cycle :: t.held } result y ∧
          y.2.env.cycle.busy = false := by
      rintro y z ⟨hy, hbusy⟩ hstep
      exact ⟨stable_narrationEnd y z hy hstep,
        (congrArg CycleState.busy hstep.2.cycle).trans hbusy⟩
    refine attains_onThread hfree hend ?_
    rintro t₁ machine ⟨⟨records, rfl, hshows⟩, hbusy⟩
    exact ⟨⟨records, Thread.leave_cons _ _ _, hshows⟩, hbusy⟩

end Machine

end MarkSweep
