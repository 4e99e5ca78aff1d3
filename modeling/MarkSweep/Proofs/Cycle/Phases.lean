import MarkSweep.Cycle.Collect
import MarkSweep.Proofs.Cycle.Sweep

namespace MarkSweep.Machine

open Call

variable {α : Type} {env : Machine → Machine → Prop} {alone : Prop} {ended : List Bool}
  {before : World} {t : Thread} {L : Pool Job Tally → Prop} {P : Ledger Job World Tally → Prop}
  {callStacks : List CallStack} {live : LiveSet}

theorem onWorld_atomic (f : World → α × World) :
    onWorld (atomic f) = atomic fun machine : Machine =>
      ((f machine.env).1, { machine with env := (f machine.env).2 }) := rfl

theorem onMarks_guarded (f : Marks → α × Marks) :
    onMarks .collector (guarded .marks (atomic f)) =
      guarded .marks (atomic fun machine : Machine => ((f machine.env.marks).1,
        { machine with env := { machine.env with marks := (f machine.env.marks).2 } })) := by
  simp only [onMarks, onWorld]
  rw [focus_guarded fun _ => rfl, focus_guarded fun _ => rfl]
  rfl

theorem onHeap_readStats : onHeap Heap.readStats =
    guarded .heap (atomic fun machine : Machine => (machine.env.heap.stats, machine)) := by
  simp only [onHeap, onWorld, Heap.readStats]
  rw [focus_guarded fun _ => rfl, focus_guarded fun _ => rfl]
  rfl

theorem onMarks_clear : onMarks .collector Marks.clear = (do
    onMarks .collector (Marks.clearKind .object)
    onMarks .collector (Marks.clearKind .array)) := by
  simp only [onMarks, onWorld, Marks.clear]
  rw [focus_bind, focus_bind]

/-- The marks are moved out in two steps, one for each kind. -/
theorem onMarks_freeze : onMarks .collector Marks.freeze = (do
    let objects ← onMarks .collector (Marks.takeKind .object)
    let arrays ← onMarks .collector (Marks.takeKind .array)
    return ⟨objects, arrays⟩) := by
  simp only [onMarks, onWorld, Marks.freeze, focus_bind]
  rfl

/-- One access to the mark sets of the collector. -/
theorem meets_onMarks {f : Marks → α × Marks} {B : α → Ledger Job World Tally → Prop}
    (hL : Steady L) (hP : Firm env alone P) (hB : ∀ a, Firm env alone (B a))
    (hrank : t.held.rank ≤ Level.marks.rank)
    (hf : ∀ l, P l →
      B (f l.env.marks).1 { l with env := { l.env with marks := (f l.env.marks).2 } }) :
    Meets env alone (Holds alone L P) t (onMarks .collector (guarded .marks (atomic f)))
      (Yields t fun a => Holds alone L (B a)) := by
  rw [onMarks_guarded]
  refine meets_guarded_atomic (Thread.enter_of_rank_le hrank) (hP.stable hL)
    (fun a => (hB a).stable hL) ?_
  exact fun machine hholds => ⟨hholds.calm, hholds.level, hf _ hholds.ledger⟩

/-- A look at the sizes of the containers. -/
theorem meets_readStats {heap : Heap} (hL : Steady L) (hP : Firm env alone P)
    (hrank : t.held.rank ≤ Level.heap.rank) (hheap : ∀ l, P l → l.env.heap = heap) :
    Meets env alone (Holds alone L P) t (onHeap Heap.readStats)
      (Yields t fun stats machine => stats = heap.stats ∧ Holds alone L P machine) := by
  rw [onHeap_readStats]
  have hstable := hP.stable hL
  refine meets_guarded_atomic (Thread.enter_of_rank_le hrank) hstable ?_ ?_
  · rintro stats machine machine' ⟨rfl, hholds⟩ haround
    exact ⟨rfl, hstable machine machine' hholds haround⟩
  · intro machine hholds
    exact ⟨congrArg Heap.stats (hheap machine.ledger hholds.ledger), hholds⟩

/-- A mark phase up to the end of its scan. -/
def comb (callStacks : List CallStack) : Call Machine (Except Failure RootScan) := do
  let stats ← onHeap Heap.readStats
  emit (.phaseStart .mark (stats.objects + stats.arrays))
  scan .collector callStacks

/-- What is left of a mark phase when its scan has succeeded. -/
def takeStock (found : RootScan) : Call Machine MarkResult := do
  let objects ← onMarks .collector (Marks.countKind .object)
  let arrays ← onMarks .collector (Marks.countKind .array)
  let live ← onMarks .collector Marks.freeze
  emit (.markEnd objects arrays found.frames)
  return ⟨found.frames, objects, arrays, live⟩

theorem markPhase_eq (callStacks : List CallStack) :
    markPhase callStacks = inSpan (.phase .mark) (do
      let found ← orFault (← comb callStacks)
      takeStock found) := by
  simp only [markPhase, comb, takeStock, bind_assoc]

/-- To forget the marks of both kinds takes two steps. -/
theorem meets_clear {R B : Ledger Job World Tally → Prop} (hL : Steady L) (hP : Kept alone P)
    (hR : Kept alone R) (hB : Kept alone B) (hrank : t.held.rank ≤ Level.marks.rank)
    (hobjects : ∀ l, P l →
      R { l with env := { l.env with marks := { l.env.marks with objects := ∅ } } })
    (harrays : ∀ l, R l →
      B { l with env := { l.env with marks := { l.env.marks with arrays := ∅ } } }) :
    Meets (Around alone) alone (Holds alone L P) t (onMarks .collector Marks.clear)
      (Yields t fun _ => Holds alone L B) := by
  rw [onMarks_clear]
  refine meets_bind_yields t (meets_onMarks (B := fun _ => R) hL hP.firm (fun _ => hR.firm)
    hrank hobjects)
    fun _ => ?_
  exact meets_onMarks (B := fun _ => B) hL hR.firm (fun _ => hB.firm) hrank harrays

/-- The marks of a pool at rest are forgotten. -/
theorem meets_clear_resting {H : Heap → Marks → Prop} {rest : Heap}
    (hbusy : before.cycle.busy = true) (hL : Steady L) (hrank : t.held.rank ≤ Level.marks.rank)
    (hheap : ∀ heap marks, H heap marks → heap = rest) :
    Meets (Around alone) alone (Holds alone L (Resting .collector alone before H)) t
      (onMarks .collector Marks.clear)
      (Yields t fun _ => Holds alone L
        (Resting .collector alone before fun heap marks => heap = rest ∧ marks = {})) := by
  refine meets_clear (R := Resting .collector alone before fun heap marks => heap = rest ∧
    marks.objects = ∅) hL (kept_resting hbusy) (kept_resting hbusy) (kept_resting hbusy) hrank ?_ ?_
  · exact fun l hrest => hrest.onMarks (fun marks => { marks with objects := ∅ })
      fun heap marks hcontents => ⟨hheap heap marks hcontents, rfl⟩
  · refine fun l hrest => hrest.onMarks (fun marks => { marks with arrays := ∅ }) ?_
    intro heap marks hcontents
    exact ⟨hcontents.1, congrArg (fun objects => (⟨objects, ∅⟩ : Marks)) hcontents.2⟩

/-- A look at the marks of a pool at rest. -/
theorem meets_countKind {marks : Marks} (hbusy : before.cycle.busy = true) (hL : Steady L)
    (hrank : t.held.rank ≤ Level.marks.rank) (kind : EntryKind) :
    Meets (Around alone) alone
      (Holds alone L
        (Resting .collector alone before fun heap own => heap = before.heap ∧ own = marks)) t
      (onMarks .collector (Marks.countKind kind))
      (Yields t fun count machine => count = (marks.ofKind kind).size ∧
        Holds alone L
          (Resting .collector alone before fun heap own => heap = before.heap ∧ own = marks)
          machine) := by
  refine (meets_onMarks (B := fun count => Resting .collector alone before fun heap own =>
    (heap = before.heap ∧ own = marks) ∧ count = (marks.ofKind kind).size) hL
    (kept_resting hbusy).firm (fun _ => (kept_resting hbusy).firm) hrank ?_).mono_post ?_
  · intro l hrest
    have hsame : l.env.marks = marks := hrest.contents.2
    refine hrest.onMarks id fun heap own hcontents => ⟨hcontents, ?_⟩
    rw [hsame]
  · intro result t' machine hend
    obtain ⟨count, hcount, ht, hholds⟩ := hend
    exact ⟨count, hcount, ht, hholds.ledger.contents.2,
      hholds.mono fun l hrest => hrest.mono fun _ _ hcontents => hcontents.1⟩

/-- The marks of a pool at rest are moved out, in two steps. -/
theorem meets_freeze {marks : Marks} (hbusy : before.cycle.busy = true) (hL : Steady L)
    (hrank : t.held.rank ≤ Level.marks.rank) :
    Meets (Around alone) alone
      (Holds alone L
        (Resting .collector alone before fun heap own => heap = before.heap ∧ own = marks)) t
      (onMarks .collector Marks.freeze)
      (Yields t fun live machine => live = marks ∧
        Holds alone L
          (Resting .collector alone before fun heap own => heap = before.heap ∧ own = {})
          machine) := by
  rw [onMarks_freeze]
  refine meets_bind_yields t (meets_onMarks (B := fun objects => Resting .collector alone before
    fun heap own => heap = before.heap ∧ own = ⟨∅, marks.arrays⟩ ∧ objects = marks.objects) hL
    (kept_resting hbusy).firm (fun _ => (kept_resting hbusy).firm) hrank ?_) fun objects => ?_
  · intro l hrest
    have hobjects := congrArg Marks.objects hrest.contents.2
    refine hrest.onMarks (fun own => { own with objects := ∅ }) fun heap own hcontents => ?_
    exact ⟨hcontents.1, congrArg (fun own : Marks => (⟨∅, own.arrays⟩ : Marks)) hcontents.2,
      hobjects⟩
  refine meets_bind_yields t (meets_onMarks (B := fun arrays => Resting .collector alone before
    fun heap own => heap = before.heap ∧ own = {} ∧
      objects = marks.objects ∧ arrays = marks.arrays) hL
    (kept_resting hbusy).firm (fun _ => (kept_resting hbusy).firm) hrank ?_) fun arrays => ?_
  · intro l hrest
    have harrays := congrArg Marks.arrays hrest.contents.2.1
    refine hrest.onMarks (fun own => { own with arrays := ∅ }) fun heap own hcontents => ?_
    exact ⟨hcontents.1, congrArg (fun own : Marks => (⟨own.objects, ∅⟩ : Marks)) hcontents.2.1,
      hcontents.2.2, harrays⟩
  · refine meets_pure fun machine hholds => ?_
    obtain ⟨-, -, hobjects, harrays⟩ := hholds.ledger.contents
    refine ⟨⟨objects, arrays⟩, rfl, rfl, ?_, hholds.mono fun l hrest => hrest.mono ?_⟩
    · rw [hobjects, harrays]
    · exact fun _ _ hcontents => ⟨hcontents.1, hcontents.2.1⟩

/-- What a mark phase finds when it does not fail. -/
structure Found (before : World) (callStacks : List CallStack) (found : MarkResult) : Prop where
  frames : found.frames = callStacks.flatten.length
  objects : found.objects = found.live.objects.size
  arrays : found.arrays = found.live.arrays.size
  intact : before.heap.Intact (before.roots callStacks)
  live : ∀ ref, found.live.contains ref = true ↔ before.heap.Reaches (before.roots callStacks) ref

/-- What holds once a failure is known, unless somebody else has shut the pool down. -/
theorem kept_excused {heap : Heap} {roots : List Slot} {failure : Failure} (hP : Kept alone P) :
    Kept alone fun l => Excused alone heap roots l.shutDown failure ∧
      (¬alone ∧ l.shutDown = true ∨ P l) := by
  refine Kept.and ?_ (kept_shutDown.or hP)
  cases failure with
  | poolShutDown => exact kept_shutDown
  | _ => exact kept_const _

/-- What a collection has come to that has failed: it is at rest with `H`, or somebody else has shut
the pool down. -/
def Broken (alone : Prop) (before : World) (callStacks : List CallStack)
    (H : Heap → Marks → Prop) (failure : Failure) (l : Ledger Job World Tally) : Prop :=
  Excused alone before.heap (before.roots callStacks) l.shutDown failure ∧
    (¬alone ∧ l.shutDown = true ∨ Resting .collector alone before H l)

theorem kept_broken {H : Heap → Marks → Prop} {failure : Failure}
    (hbusy : before.cycle.busy = true) :
    Kept alone (Broken alone before callStacks H failure) :=
  kept_excused (kept_resting hbusy)

/-- What a thread has reported when a mark phase begins to scan. -/
def markBegun (t : Thread) (heap : Heap) : Thread :=
  (t.report (.opened (.phase .mark))).report
    (.event (.phaseStart .mark (heap.stats.objects + heap.stats.arrays)))

/-- The end of a mark phase. -/
def MarkEnd (alone : Prop) (ended : List Bool) (before : World) (callStacks : List CallStack)
    (t : Thread) : Post Machine MarkResult := fun result t' machine =>
  match result with
  | .ok found =>
    t' = (markBegun t before.heap).report
      (.event (.markEnd found.objects found.arrays found.frames)) ∧
      Found before callStacks found ∧
      Holds alone (Pool.Alert ended)
        (Resting .collector alone before fun heap marks => heap = before.heap ∧ marks = {}) machine
  | .error fault =>
    t' = markBegun t before.heap ∧ ∃ failure, fault = .failed failure ∧
      Holds alone (Pool.Alert ended)
        (Broken alone before callStacks (fun heap _ => heap = before.heap) failure) machine

private theorem stable_markEnd {t' : Thread} {result : Except Fault MarkResult}
    (hbusy : before.cycle.busy = true) :
    Stable (Around alone) (MarkEnd alone ended before callStacks t result t') := by
  cases result with
  | error fault =>
    rintro machine machine' ⟨ht, failure, hfault, hholds⟩ haround
    exact ⟨ht, failure, hfault,
      stable_holds (steady_alert ended) (kept_broken hbusy) machine machine' hholds haround⟩
  | ok found =>
    rintro machine machine' ⟨ht, hfound, hholds⟩ haround
    exact ⟨ht, hfound,
      stable_holds (steady_alert ended) (kept_resting hbusy) machine machine' hholds haround⟩

/-- What is left of a mark phase when the scan has answered. -/
private theorem meets_countAndFreeze {marks : Marks} {found : RootScan}
    (hbusy : before.cycle.busy = true) (hrank : t.held.rank ≤ Level.cycle.rank)
    (hframes : found.frames = callStacks.flatten.length)
    (hintact : before.heap.Intact (before.roots callStacks))
    (hmarks : ∀ ref, marks.contains ref = true ↔
      before.heap.Reaches (before.roots callStacks) ref) :
    Meets (Around alone) alone
      (Holds alone (Pool.Alert ended)
        (Resting .collector alone before fun heap own => heap = before.heap ∧ own = marks))
      (markBegun t before.heap) (takeStock found) (MarkEnd alone ended before callStacks t) := by
  have hmarksRank : (markBegun t before.heap).held.rank ≤ Level.marks.rank :=
    Nat.le_trans hrank (by decide)
  have hsteady := steady_alert ended
  refine meets_bind_yields _ (meets_countKind hbusy hsteady hmarksRank .object) fun objects => ?_
  refine meets_given fun hobjects => ?_
  refine meets_bind_yields _ (meets_countKind hbusy hsteady hmarksRank .array) fun arrays => ?_
  refine meets_given fun harrays => ?_
  refine meets_bind_yields _ (meets_freeze hbusy hsteady hmarksRank) fun live => ?_
  refine meets_given fun hlive => ?_
  subst hlive
  refine meets_bind_yields _ (meets_emit (stable_holds hsteady (kept_resting hbusy))) fun _ => ?_
  exact meets_pure fun machine hholds =>
    ⟨rfl, ⟨hframes, hobjects, harrays, hintact, hmarks⟩, hholds⟩

/-- The mark phase finds what the roots reach, or fails and leaves the heap as it was. -/
theorem meets_markPhase (hbusy : before.cycle.busy = true)
    (hrank : t.held.rank ≤ Level.cycle.rank) (callStacks : List CallStack) :
    Meets (Around alone) alone
      (Holds alone (Pool.Alert ended)
        (Resting .collector alone before fun heap marks => heap = before.heap ∧ marks = {})) t
      (markPhase callStacks)
      (fun result t' machine => ∃ t₁, t' = t₁.report (.left (.phase .mark)) ∧
        MarkEnd alone ended before callStacks t result t₁ machine) := by
  have hsteady := steady_alert ended
  refine meets_inSpan (stable_holds hsteady (kept_resting hbusy)) ?_
    (fun result t' => stable_markEnd hbusy) fun result t' machine hend => ⟨t', rfl, hend⟩
  have hstats : Meets (Around alone) alone (Holds alone (Pool.Alert ended)
      (Resting .collector alone before fun heap marks => heap = before.heap ∧ marks = {}))
      (t.report (.opened (.phase .mark))) (onHeap Heap.readStats)
      (Yields _ fun stats machine => stats = before.heap.stats ∧ _) :=
    meets_readStats hsteady (kept_resting hbusy).firm (Nat.le_trans hrank (by decide))
      fun _ hrest => hrest.contents.1
  refine meets_bind_yields _ hstats fun stats => meets_given fun hsame => ?_
  subst hsame
  refine meets_bind_yields _ (meets_emit (stable_holds hsteady (kept_resting hbusy))) fun _ => ?_
  refine meets_bind_yields _ (carries_scan (World.guards_of_busy hbusy) callStacks _)
    fun answer => ?_
  cases answer with
  | error failure =>
    exact meets_fault fun machine hholds =>
      ⟨rfl, failure, rfl, hholds.mono fun l hl => hl.1⟩
  | ok found =>
    refine Meets.mono (A := fun machine => ∃ marks : Marks,
      (found.frames = callStacks.flatten.length ∧ before.heap.Intact (before.roots callStacks) ∧
        ∀ ref, marks.contains ref = true ↔
          before.heap.Reaches (before.roots callStacks) ref) ∧
      Holds alone (Pool.Alert ended)
        (Resting .collector alone before fun heap own => heap = before.heap ∧ own = marks) machine)
      (meets_exists fun marks => meets_given fun hscan =>
        meets_countAndFreeze hbusy hrank hscan.1 hscan.2.1 hscan.2.2) ?_ fun _ _ _ hend => hend
    rintro machine ⟨hcalm, hlevel, ⟨-, hrest⟩, hframes⟩
    obtain ⟨hheap, hintact, hexact⟩ := hrest.contents
    rw [hheap] at hintact hexact
    exact ⟨machine.env.marks, ⟨hframes found rfl, hintact, hexact⟩, hcalm, hlevel,
      hrest.tasks, hrest.places, hrest.untouched, hheap, rfl⟩

/-- What a thread has reported when a sweep phase begins to sweep. -/
def sweepBegun (t : Thread) (found : MarkResult) : Thread :=
  (t.report (.opened (.phase .sweep))).report
    (.event (.phaseStart .sweep (found.objects + found.arrays)))

/-- The end of a sweep phase. -/
def SweepEnd (alone : Prop) (ended : List Bool) (before : World) (found : MarkResult) (t : Thread) :
    Post Machine SweepStats := fun result t' machine =>
  match result with
  | .ok swept =>
    t' = (sweepBegun t found).report
      (.event (.sweepEnd swept.objects swept.arrays swept.monitors)) ∧
      swept = before.heap.deadStats found.live ∧
      Holds alone (Pool.Alert ended)
        (Resting .collector alone before fun heap _ => heap = before.heap.retain found.live) machine
  | .error fault =>
    t' = sweepBegun t found ∧ fault = .failed .poolShutDown ∧
      Holds alone (Pool.Alert ended) (fun l => ¬alone ∧ l.shutDown = true) machine

private theorem stable_sweepEnd {found : MarkResult} {t' : Thread}
    {result : Except Fault SweepStats} (hbusy : before.cycle.busy = true) :
    Stable (Around alone) (SweepEnd alone ended before found t result t') := by
  cases result with
  | error fault =>
    rintro machine machine' ⟨ht, hfault, hholds⟩ haround
    exact ⟨ht, hfault,
      stable_holds (steady_alert ended) kept_shutDown machine machine' hholds haround⟩
  | ok swept =>
    rintro machine machine' ⟨ht, hswept, hholds⟩ haround
    exact ⟨ht, hswept,
      stable_holds (steady_alert ended) (kept_resting hbusy) machine machine' hholds haround⟩

/-- The sweep phase leaves what was found. -/
theorem meets_sweepPhase (hbusy : before.cycle.busy = true) (found : MarkResult) :
    Meets (Around alone) alone
      (Holds alone (Pool.Alert ended)
        (Resting .collector alone before fun heap marks => heap = before.heap ∧ marks = {})) t
      (sweepPhase found)
      (fun result t' machine => ∃ t₁, t' = t₁.report (.left (.phase .sweep)) ∧
        SweepEnd alone ended before found t result t₁ machine) := by
  have hsteady := steady_alert ended
  refine meets_inSpan (stable_holds hsteady (kept_resting hbusy)) ?_
    (fun result t' => stable_sweepEnd hbusy) fun result t' machine hend => ⟨t', rfl, hend⟩
  refine meets_bind_yields _ (meets_emit (stable_holds hsteady (kept_resting hbusy))) fun _ => ?_
  refine meets_bind_yields _ (carries_sweep hbusy (fun _ _ hcontents => hcontents.1) found.live _)
    fun answer => ?_
  cases answer with
  | error failure =>
    refine meets_fault fun machine hholds => ?_
    obtain ⟨rfl, hshut⟩ := hholds.ledger
    exact ⟨rfl, rfl, hholds.calm, hholds.level, hshut⟩
  | ok swept =>
    have hreported : swept = before.heap.deadStats found.live → Meets (Around alone) alone
        (Holds alone (Pool.Alert ended)
          (Resting .collector alone before fun heap _ => heap = before.heap.retain found.live))
        (sweepBegun t found)
        (do
          emit (.sweepEnd swept.objects swept.arrays swept.monitors)
          return swept)
        (SweepEnd alone ended before found t) := by
      intro hswept
      refine meets_bind_yields _ (meets_emit (stable_holds hsteady (kept_resting hbusy)))
        fun _ => ?_
      exact meets_pure fun machine hholds => ⟨rfl, hswept, hholds⟩
    refine Meets.mono (meets_given hreported) ?_ fun _ _ _ hend => hend
    exact fun machine hholds =>
      ⟨hholds.ledger.1, hholds.mono fun l hl => hl.2⟩

/-- The metrics of a collection, apart from how many there were. -/
def Found.metrics (before : World) (found : MarkResult) : Metrics where
  objectsMarked := found.objects
  arraysMarked := found.arrays
  objectsReclaimed := (before.heap.deadStats found.live).objects
  arraysReclaimed := (before.heap.deadStats found.live).arrays
  elementsReleased := (before.heap.deadStats found.live).elements
  monitorsReclaimed := (before.heap.deadStats found.live).monitors
  framesScanned := found.frames

end MarkSweep.Machine
