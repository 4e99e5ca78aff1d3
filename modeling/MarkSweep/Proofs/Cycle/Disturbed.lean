import MarkSweep.Proofs.Company.Handover
import MarkSweep.Proofs.Cycle.History
import MarkSweep.Proofs.Cycle.Meddling

namespace MarkSweep

/-- Whether the thread of a collection is at the marks while it traces. It only is to take stock,
as the tracing itself is left to the workers. -/
def Thread.isTakingStock (caller thread : Thread) : Bool :=
  decide (caller.progress thread = .tracing) && thread.held.contains .marks

namespace Machine

open Call
open Routine (Attains HandsOver attains_of_forall handsOver_of_forall)

variable {α : Type} {caller t t' : Thread} {progress : Progress} {listed : Ref → Prop}
  {world before : World} {machine machine' : Machine} {heap : Heap} {roots : List Slot}
  {live : LiveSet} {P : Ledger Job World Tally → Prop} {marks : Prop} {tasks : Task Job → Prop}
  {records : Record → Prop} {x y : Thread × Machine} {callStacks : List CallStack}
  {policy : Policy}

/-- What is live is as it was in `heap`, and the pool has nothing to do but to sweep what is not. -/
abbrev Sparing (heap : Heap) (live : LiveSet) : Ledger Job World Tally → Prop :=
  Confined live (heap.Preserved live)

theorem kept_sparing (heap : Heap) (live : LiveSet) : Kept False (Sparing heap live) :=
  kept_confined fun _ region hpreserved => hpreserved.erase region

/-- Whatever the roots reach in `heap` is live, and what is live is spared. -/
def Spares (heap : Heap) (roots : List Slot) (machine : Machine) : Prop :=
  ∃ live : LiveSet, (∀ ref, heap.Reaches roots ref → live.contains ref = true) ∧
    Shows (Sparing heap live) machine

/-- What is spared is in the heap. -/
theorem Spares.setEnv {env : World} (hspares : Spares heap roots machine)
    (hheap : env.heap = machine.env.heap) : Spares heap roots { machine with env } := by
  obtain ⟨live, hlive, hcalm, hlevel, hpreserved, htasks⟩ := hspares
  refine ⟨live, hlive, hcalm, hlevel, ?_, htasks⟩
  have hsame : env.heap = (Worksite.ledger machine).env.heap := hheap
  exact hsame ▸ hpreserved

/-- What is live is spared by whatever goes on around. -/
theorem stable_sparing (heap : Heap) (live : LiveSet) (t : Thread) :
    Stable (Disturbed caller listed) fun x => x.1 = t ∧ Shows (Sparing heap live) x.2 :=
  stable_disturbed (kept_sparing heap live)
    (fun _ _ hsparing => ⟨hsparing.heap, hsparing.tasks⟩) t

/-- What the roots reach is spared, whatever goes on around. -/
theorem stable_spares : Stable (Disturbed caller listed) fun x => Spares heap roots x.2 := by
  rintro x y ⟨live, hlive, hholds⟩ hstep
  exact ⟨live, hlive, (stable_sparing heap live x.1 x y ⟨rfl, hholds⟩ hstep).2⟩

theorem Chore.spares (hchore : Chore marks (fun _ => False) records x y)
    (hx : Spares heap roots x.2) : Spares heap roots y.2 := by
  obtain ⟨live, hlive, hholds⟩ := hx
  exact ⟨live, hlive, (hchore.mono (fun _ => False.elim) fun _ hrecord => hrecord).confined hholds⟩

/-- A call that ends with a value of which `p` holds has spared what the roots reach. -/
def Sparingly (heap : Heap) (roots : List Slot) (p : α → Prop) (result : Except Fault α)
    (x : Thread × Machine) : Prop :=
  ∀ a, result = .ok a → p a → Spares heap roots x.2

theorem stable_sparingly (p : α → Prop) (result : Except Fault α) :
    Stable (Disturbed caller listed) (Sparingly heap roots p result) :=
  fun x y hx hstep a hresult ha => stable_spares x y (hx a hresult ha) hstep

/-- A call has not ended with a value of which `p` holds. -/
def Fruitless (p : α → Prop) (result : Except Fault α) : Prop :=
  ∀ a, result = .ok a → ¬p a

/-- What the thread of a collection does up to the moment when it begins to take stock. From when
it traces it erases nothing and takes no mark away. -/
structure Treads (caller : Thread) (heap : Heap) (x y : Thread × Machine) : Prop where
  enters : caller.progress x.1 ≠ .tracing → caller.progress y.1 = .tracing →
    Shows (Unerased heap) y.2
  stays : caller.progress x.1 = .tracing → caller.progress y.1 = .tracing
  unerased : caller.progress x.1 = .tracing → Shows (Unerased heap) x.2 →
    Shows (Unerased heap) y.2
  marks : caller.progress x.1 = .tracing → ∀ ref, x.2.env.marks.contains ref = true →
    y.2.env.marks.contains ref = true

/-- Whoever does not trace is bound to nothing. -/
theorem treads_of_ne (hx : caller.progress x.1 ≠ .tracing) (hy : caller.progress y.1 ≠ .tracing) :
    Treads caller heap x y where
  enters _ htracing := absurd htracing hy
  stays htracing := absurd htracing hx
  unerased htracing := absurd htracing hx
  marks htracing := absurd htracing hx

/-- What a collection and those who mark at will keep to. Noted is what others have marked while it
traced, and when it begins to take stock they have to be through with that. -/
def truce (caller : Thread) (heap : Heap) : Handover (List Ref) (Thread × Machine) where
  before x y := x.1 ⊆ y.1 ∧ Disturbed caller (· ∈ y.1) x.2 y.2
  after := Disturbed caller fun _ => True
  move := Treads caller heap
  gate x := caller.isTakingStock x.1 = true
  check x := ∀ ref ∈ x.1, heap.Opened x.2.2.env.marks ref

/-- What is not about the marks is left alone. -/
theorem stable_truce (hP : Kept False P)
    (hmarks : ∀ l marks, P l → P { l with env := { l.env with marks } }) (t : Thread) :
    Stable (truce caller heap).before fun x => x.2.1 = t ∧ Shows P x.2.2 :=
  fun x y hx hstep => stable_disturbed hP hmarks t x.2 y.2 hx hstep.2

/-- While a collection clears the marks they are left alone. -/
theorem stable_cleared (hP : Kept False P) (hclearing : caller.IsAt .clearing t) :
    Stable (truce caller heap).before fun x => x.2.1 = t ∧ Shows P x.2.2 := by
  rintro x y ⟨rfl, hholds⟩ ⟨-, hstep⟩
  obtain ⟨⟨hthread, haround⟩, -⟩ := hstep.around hclearing
  exact ⟨hthread, stable_holds steady_true hP _ _ hholds haround⟩

/-- A collection that has cleared the marks goes on to trace. -/
theorem treads_report (hclearing : caller.IsAt .clearing t)
    (hholds : Shows (Unerased heap) machine) :
    Treads caller heap (t, machine) (t.report (.opened (.phase .mark)), machine) := by
  have hfree := hclearing.ne_tracing nofun
  exact ⟨fun _ _ => hholds, fun htracing => absurd htracing hfree,
    fun htracing => absurd htracing hfree, fun htracing => absurd htracing hfree⟩

section Parts

variable {call : Call Machine α} {x : List Ref × Thread × Machine}
  {Q' : Except Fault α → Thread × Machine → Prop}

/-- Chores that report events leave a collection as far as it has come. -/
theorem Chore.isAt {x y : Thread × Machine} (hchore : Chore marks tasks IsEvent x y)
    (hx : caller.IsAt progress x.1) : caller.IsAt progress y.1 := by
  cases hchore with
  | hold held => exact hx.hold held
  | mark _ _ | stir _ _ | note _ | queue _ => exact hx
  | report hrecord =>
    obtain ⟨event, rfl⟩ := hrecord
    exact hx.report (.event event)

theorem Chore.treads {x y : Thread × Machine} (hchore : Chore False Labels IsEvent x y)
    (hx : caller.IsAt .tracing x.1) : Treads caller heap x y where
  enters hfree := absurd hx.progress hfree
  stays _ := (hchore.isAt hx).progress
  unerased _ := hchore.unerased
  marks _ ref hmarked := by
    cases hchore with
    | hold _ | report _ | stir _ _ | note _ | queue _ => exact hmarked
    | mark hmarks _ => exact hmarks.elim

/-- While a collection clears the marks it is disturbed by nobody who marks. -/
theorem handsOver_clearing {Q : Except Fault α → Thread × Machine → Prop}
    (hcall : Attains (Beside (Around False)) False Q call x.2)
    (hchores : Chores True tasks IsEvent call)
    (hclearing : caller.IsAt .clearing x.2.1) :
    HandsOver (truce caller heap) (fun result y => caller.IsAt .clearing y.2.1 ∧ Q result y.2) Q'
      call x := by
  have hmoves : Call.Respects (fun x y => caller.IsAt .clearing x.1 →
      caller.IsAt .clearing y.1 ∧ (truce caller heap).move x y) Busy call := by
    refine Routine.Respects.mono hchores fun x y hchore hx => ⟨hchore.isAt hx, ?_⟩
    exact treads_of_ne (hx.ne_tracing nofun) ((hchore.isAt hx).ne_tracing nofun)
  refine (Routine.handsOver_of_attains (fun x => caller.IsAt .clearing x.1)
    (fun _ (_ : Unit) => True) (fun _ => Beside (Around False)) (fun _ _ => hcall) hmoves hclearing
    ?_).mono (fun result y hy => ?_) fun _ _ hy => hy
  · intro y z hy hstep
    obtain ⟨hbeside, hz⟩ := hstep.2.around hy
    exact ⟨hz, fun _ _ => ⟨trivial, hbeside⟩⟩
  · exact ⟨hy.1, hy.2 () trivial⟩

/-- While it traces others may mark, and what they have marked in the end has bounded all along what
they might mark. -/
theorem handsOver_tracing {Q : List Ref → Except Fault α → Thread × Machine → Prop}
    (hcall : ∀ entries, x.1 ⊆ entries →
      Attains (Beside (Tampered (· ∈ entries))) False (Q entries) call x.2)
    (hchores : Chores False Labels IsEvent call)
    (htracing : caller.IsAt .tracing x.2.1) :
    HandsOver (truce caller heap) (fun result y => caller.IsAt .tracing y.2.1 ∧
      ∀ entries, y.1 ⊆ entries → Q entries result y.2) Q' call x := by
  have hmoves : Call.Respects (fun x y => caller.IsAt .tracing x.1 →
      caller.IsAt .tracing y.1 ∧ (truce caller heap).move x y) Busy call :=
    Routine.Respects.mono hchores fun x y hchore hx => ⟨hchore.isAt hx, hchore.treads hx⟩
  refine Routine.handsOver_of_attains (fun x => caller.IsAt .tracing x.1)
    (fun (noted entries : List Ref) => noted ⊆ entries)
    (fun entries => Beside (Tampered (· ∈ entries))) hcall hmoves htracing ?_
  intro y z hy hstep
  refine ⟨(hstep.2.tampered hy).2, fun entries hbounds => ⟨fun _ hmem => ?_, ?_⟩⟩
  · exact hbounds (hstep.1 hmem)
  · exact ((hstep.2.mono fun _ hmem => hbounds hmem).tampered hy).1

end Parts

/-- The pool has nothing to do, and nothing has been swept. -/
abbrev Unswept (before : World) : Ledger Job World Tally → Prop :=
  Resting .collector False before fun heap _ => heap = before.heap

/-- Whether anything has been swept is not about the marks. -/
theorem unswept_setMarks (l : Ledger Job World Tally) (marks : Marks) (hrest : Unswept before l) :
    Unswept before { l with env := { l.env with marks } } :=
  hrest.onMarks (fun _ => marks) fun _ _ hheap => hheap

theorem stable_unswept (hbusy : before.cycle.busy = true) (t : Thread) :
    Stable (Disturbed caller listed) fun x => x.1 = t ∧ Shows (Unswept before) x.2 :=
  stable_disturbed (kept_resting hbusy) unswept_setMarks t

/-- What a collection does before its mark phase. -/
def prepare : Call Machine Unit := do
  onMarks .collector Marks.clear
  Pool.signalWork

/-- The part of a collection that relies on the marks. -/
def marking (callStacks : List CallStack) : Call Machine MarkResult := do
  prepare
  markPhase callStacks

/-- The phases are the part that relies on the marks, and a sweep by what that part has found. -/
theorem runPhases_eq (callStacks : List CallStack) : runPhases callStacks = (do
    let found ← marking callStacks
    let swept ← sweepPhase found
    return {
      objectsMarked := found.objects
      arraysMarked := found.arrays
      objectsReclaimed := swept.objects
      arraysReclaimed := swept.arrays
      elementsReleased := swept.elements
      monitorsReclaimed := swept.monitors
      framesScanned := found.frames }) := by
  simp only [runPhases, marking, prepare, bind_assoc]

/-- What was found when nothing has been swept: whatever the roots reach is live. -/
def Stocked (before : World) (roots : List Slot) (result : Except Fault MarkResult)
    (x : Thread × Machine) : Prop :=
  ∀ found, result = .ok found →
    (∀ ref, before.heap.Reaches roots ref → found.live.contains ref = true) ∧
      Shows (Unswept before) x.2

theorem stable_stocked (hbusy : before.cycle.busy = true) (result : Except Fault MarkResult) :
    Stable (Disturbed caller listed) (Stocked before roots result) := by
  intro x y hx hstep found hfound
  obtain ⟨hlive, hholds⟩ := hx found hfound
  exact ⟨hlive, (stable_unswept hbusy x.1 x y ⟨rfl, hholds⟩ hstep).2⟩

/-- The scan of a collection is over. Its roots and what they reach are marked, as if somebody had
still to descend into what others have marked. -/
def Raked (before : World) (callStacks : List CallStack) (t : Thread)
    (x : List Ref × Thread × Machine) : Prop :=
  x.2.1 = t ∧ ∀ entries, x.1 ⊆ entries → Shows (Resting .collector False before
    (Combed before (before.scope callStacks entries) (before.roots callStacks) entries)) x.2.2

theorem stable_raked (hbusy : before.cycle.busy = true) (htracing : caller.IsAt .tracing t) :
    Stable (truce caller heap).before (Raked before callStacks t) := by
  rintro x y ⟨hthread, hcombed⟩ ⟨hsub, hstep⟩
  have hx : caller.IsAt .tracing x.2.1 := hthread.symm ▸ htracing
  refine ⟨hstep.1.trans hthread, fun entries hbounds => ?_⟩
  have hfirm : Firm (Tampered (· ∈ entries)) False (Resting .collector False before
      (Combed before (before.scope callStacks entries) (before.roots callStacks) entries)) :=
    firm_resting hbusy fun heap marks ref hmem hmarked =>
      hmarked.insert hmem (World.reaches_scope callStacks hmem)
  exact hfirm.stable steady_true _ _ (hcombed entries fun _ hmem => hbounds (hsub hmem))
    ((hstep.mono fun _ hmem => hbounds hmem).tampered hx).1.2

/-- When those who have marked are through, what the roots reach is marked. -/
theorem Raked.marked {x : List Ref × Thread × Machine} (hraked : Raked before callStacks t x)
    (hopened : ∀ ref ∈ x.1, before.heap.Opened x.2.2.env.marks ref) {ref : Ref}
    (hreach : before.heap.Reaches (before.roots callStacks) ref) :
    x.2.2.env.marks.contains ref = true :=
  ((hraked.2 x.1 fun _ hmem => hmem).ledger.contents.covers.strike hopened
    |>.marked_of_reaches hreach).1

/-- To take stock begins at the marks, and from then on others may mark whatever they like. -/
theorem handsOver_takeStock {found : RootScan} {x : List Ref × Thread × Machine}
    {Q : Except Fault MarkResult → List Ref × Thread × Machine → Prop}
    (hbusy : before.cycle.busy = true) (hrank : t.held.rank ≤ Level.cycle.rank)
    (htracing : caller.IsAt .tracing t) (hraked : Raked before callStacks t x) :
    HandsOver (truce caller before.heap) Q (Stocked before (before.roots callStacks))
      (takeStock found) x := by
  have hopens : Routine.OpensGate (truce caller before.heap) (Raked before callStacks t)
      (onMarks .collector (Marks.countKind .object)) := by
    unfold Marks.countKind Call.read
    rw [onMarks_guarded]
    refine opensGate_guarded fun noted t' machine hraked => ?_
    obtain rfl := hraked.1
    refine ⟨_, Thread.enter_of_rank_le (Nat.le_trans hrank (by decide)), ?_⟩
    exact Bool.and_eq_true_iff.2 ⟨decide_eq_true htracing.progress, rfl⟩
  refine Routine.handsOver_of_opensGate (hopens.bind _) (stable_raked hbusy htracing) hraked ?_
  rintro ⟨noted, t', machine⟩ hraked hopened
  obtain rfl := hraked.1
  have hholds := hraked.2 noted fun _ hmem => hmem
  have hmeets : Attains (Beside (Tampered fun _ => True)) False
      (Stocked before (before.roots callStacks)) (takeStock found) (t', machine) := by
    refine meets_takeStock (before.roots callStacks) hbusy hrank machine
      ⟨hholds.calm, hholds.level, ?_⟩
    have hrest := hholds.ledger
    exact ⟨hrest.tasks, hrest.places, hrest.untouched, hrest.contents.heap,
      fun ref => hraked.marked hopened⟩
  have hchores : Chores True (fun _ => True) IsEvent (takeStock found) := chores_takeStock found
  have hstays : Call.Respects (fun x y => caller.IsAt .tracing x.1 → caller.IsAt .tracing y.1)
      Busy (takeStock found) := Routine.Respects.mono hchores fun _ _ => Chore.isAt
  exact hmeets.within hstays htracing fun x y hx hstep => hstep.tampered hx

/-- The pool has nothing to do, nothing has been swept, and nothing is marked. -/
abbrev Blank (before : World) : Ledger Job World Tally → Prop :=
  Resting .collector False before fun heap marks => heap = before.heap ∧ marks = {}

theorem meets_prepare (hbusy : before.cycle.busy = true) (hrank : t.held.rank ≤ Level.cycle.rank) :
    Meets (Around False) False (Shows (Unswept before)) t prepare
      (Yields t fun _ => Shows (Blank before)) := by
  refine meets_bind_yields _ (meets_clear_resting hbusy steady_true
    (Nat.le_trans hrank (by decide)) fun _ _ hheap => hheap) fun _ => ?_
  have hsignal : Meets (Around False) False (Holds False (Pool.Open []) (Blank before)) t
      Pool.signalWork _ := meets_signalWork (kept_resting hbusy)
  refine hsignal.mono (fun _ hcleared => hcleared.relevel) ?_
  rintro _ _ _ ⟨a, rfl, rfl, hcleared⟩
  exact ⟨a, rfl, rfl, hcleared.relevel⟩

/-- The scan of a collection, from when others may mark. -/
theorem handsOver_comb {noted : List Ref}
    {Q' : Except Fault (Except Failure RootScan) → Thread × Machine → Prop}
    (hbusy : before.cycle.busy = true) (hrank : t.held.rank ≤ Level.cycle.rank)
    (htracing : caller.IsAt .tracing t) (hblank : Shows (Blank before) machine) :
    HandsOver (truce caller before.heap) (fun result x => caller.IsAt .tracing x.2.1 ∧
      x.2.1.held = t.held ∧ ∃ answer, result = .ok answer ∧
        ∀ found, answer = .ok found → Raked before callStacks x.2.1 x) Q'
      (comb callStacks) (noted, t, machine) := by
  have hunmarked : ∀ entries : List Ref, Shows (Resting .collector False before fun heap marks =>
      heap = before.heap ∧ ∀ ref, marks.contains ref = true → ref ∈ entries) machine := by
    refine fun entries => hblank.mono fun l hrest => hrest.mono fun heap marks hcontents => ?_
    refine ⟨hcontents.1, fun ref hmarked => ?_⟩
    rw [hcontents.2, Marks.contains_empty] at hmarked
    cases hmarked
  refine (handsOver_tracing (fun entries _ => meets_comb entries hbusy hrank callStacks machine
    (hunmarked entries)) (chores_comb callStacks) htracing).mono ?_ fun _ _ hend => hend
  rintro result ⟨noted, t', machine⟩ ⟨htracing, hends⟩
  obtain ⟨hheld, answer, rfl, -⟩ := hends noted fun _ hmem => hmem
  refine ⟨htracing, hheld, answer, rfl, fun found hfound => ⟨rfl, fun entries hsub => ?_⟩⟩
  obtain ⟨-, _, heq, hraked⟩ := hends entries hsub
  cases heq
  exact hraked found hfound

/-- A mark phase is disturbed by those who mark until it takes stock, and finds what the roots reach
if these are through by then. -/
theorem handsOver_markPhase {noted : List Ref} (hbusy : before.cycle.busy = true)
    (hrank : t.held.rank ≤ Level.cycle.rank) (hclearing : caller.IsAt .clearing t)
    (hblank : Shows (Blank before) machine) :
    HandsOver (truce caller before.heap) (fun result _ => Fruitless (fun _ => True) result)
      (Stocked before (before.roots callStacks)) (markPhase callStacks) (noted, t, machine) := by
  have hempty : ∀ l, Blank before l → Unerased before.heap l := by
    refine fun l hrest => ⟨hrest.contents.1, fun task hmem => ?_⟩
    rw [hrest.tasks] at hmem
    cases hmem
  rw [markPhase_eq]
  refine handsOver_bind (handsOver_onThread (stable_cleared (kept_resting hbusy) hclearing)
    ⟨rfl, hblank⟩ ?_)
  rintro noted' t' machine' ⟨hthread, hblank'⟩
  obtain rfl : t' = t := hthread
  refine ⟨treads_report hclearing (hblank'.mono hempty), ?_⟩
  -- From here on others may mark.
  have htracing : caller.IsAt .tracing (t'.report (.opened (.phase .mark))) :=
    hclearing.report (.opened (.phase .mark))
  refine handsOver_andFinally_of_keeps (fun _ => nofun) (fun result z hfree found hfound =>
    absurd trivial (hfree found hfound)) (handsOver_bind ?_) fun result y hstocked =>
      attains_onThread (stable_stocked hbusy result) hstocked fun _ _ hstocked => hstocked
  refine (handsOver_comb (t := t'.report (.opened (.phase .mark))) hbusy hrank htracing
    hblank').mono ?_ fun _ _ hend => hend
  rintro result x ⟨htracing, hheld, answer, rfl, hraked⟩
  cases answer with
  | error failure => exact fun _ => nofun
  | ok found => exact handsOver_takeStock hbusy (hheld ▸ hrank) htracing (hraked found rfl)

/-- From its beginning to the end of its mark phase a collection is disturbed by those who mark only
while it traces. -/
theorem handsOver_marking {noted : List Ref} (hbusy : before.cycle.busy = true)
    (hrank : t.held.rank ≤ Level.cycle.rank) (hclearing : caller.IsAt .clearing t)
    (hholds : Shows (Unswept before) machine) :
    HandsOver (truce caller before.heap) (fun result _ => Fruitless (fun _ => True) result)
      (Stocked before (before.roots callStacks)) (marking callStacks) (noted, t, machine) := by
  have hchores : Chores True (fun _ => True) IsEvent prepare :=
    respects_bind chores_clear fun _ => chores_signalWork
  refine handsOver_bind ((handsOver_clearing (meets_prepare hbusy hrank machine hholds) hchores
    hclearing).mono ?_ fun _ _ hend => hend)
  rintro result ⟨noted', t', machine'⟩ ⟨-, _, rfl, rfl, hblank⟩
  exact handsOver_markPhase hbusy hrank hclearing hblank

/-- The sweep goes by the marks that were moved out, whatever happens to the others. -/
theorem attains_sweepPhase (found : MarkResult) (hholds : Shows (Unswept before) x.2) :
    Attains (Disturbed caller listed) False (fun _ y => Shows (Sparing before.heap found.live) y.2)
      (sweepPhase found) x := by
  have hheap : x.2.env.heap = before.heap := hholds.ledger.contents
  have hsparing : Shows (Sparing before.heap found.live) x.2 := by
    refine ⟨hholds.calm, hholds.level, ?_, ?_⟩
    · have hsame : (Worksite.ledger x.2).env.heap = before.heap := hheap
      rw [hsame]
      exact .refl _ _
    · intro task hmem
      rw [hholds.ledger.tasks] at hmem
      cases hmem
  have hchores : Chores False (Sweeps found.live) (fun _ => True) (sweepPhase found) :=
    chores_sweepPhase found
  have hsweep : Call.Respects (fun x y => Shows (Sparing before.heap found.live) x.2 →
      Shows (Sparing before.heap found.live) y.2) Busy (sweepPhase found) :=
    Routine.Respects.mono hchores fun _ _ => Chore.confined
  refine hsweep.attains (fun x y hx hstep => ?_) hsparing
  exact (stable_sparing before.heap found.live x.1 x y ⟨rfl, hx⟩ hstep).2

/-- What is undone at the end of a call spares what the call has spared. -/
theorem handsOver_andFinally_spares {p : α → Prop} {body : Call Machine α}
    {cleanup : Call Machine Unit} {barred : Thread × Machine → Prop}
    {x : List Ref × Thread × Machine}
    (hbody : HandsOver (truce caller heap) (fun result _ => Fruitless p result)
      (Sparingly heap roots p) body x)
    (hcleanup : Call.Respects (fun x y => Spares heap roots x.2 → Spares heap roots y.2) barred
      cleanup) :
    HandsOver (truce caller heap) (fun result _ => Fruitless p result) (Sparingly heap roots p)
      (body.andFinally cleanup) x := by
  refine handsOver_andFinally_of_keeps (fun _ => nofun)
    (fun result z hfree a hresult ha => absurd ha (hfree a hresult)) hbody fun result y hy => ?_
  -- A body that has not spared the roots has not ended with such a value, and promises nothing.
  by_cases hspares : Spares heap roots y.2
  · exact (hcleanup.attains stable_spares hspares).mono fun _ _ hz _ _ _ => hz
  · exact attains_of_forall fun _ _ a hresult ha => absurd (hy a hresult ha) hspares

/-- A collection spares what the roots reach, if those who mark keep the truce. -/
theorem handsOver_runCycle {noted : List Ref} (hbusy : before.cycle.busy = true)
    (hrank : t.held.rank ≤ Level.cycle.rank) (haside : caller.IsAt .aside t)
    (hholds : Shows (Unswept before) machine) :
    HandsOver (truce caller before.heap) (fun result _ => Fruitless (fun _ => True) result)
      (Sparingly before.heap (before.roots callStacks) fun _ => True)
      (runCycle callStacks policy) (noted, t, machine) := by
  have hundo : ∀ {cleanup : Call Machine Unit},
      Chores True (fun _ => False) (fun _ => True) cleanup →
        Call.Respects (fun x y => Spares before.heap (before.roots callStacks) x.2 →
          Spares before.heap (before.roots callStacks) y.2) Busy cleanup :=
    fun hcleanup => Routine.Respects.mono hcleanup fun _ _ => Chore.spares
  have hstable : Stable (truce caller before.heap).before fun x =>
      x.2.1 = t ∧ Shows (Unswept before) x.2.2 :=
    stable_truce (kept_resting hbusy) unswept_setMarks t
  refine handsOver_bind (handsOver_onThread hstable ⟨rfl, hholds⟩ ?_)
  rintro noted' t' machine' ⟨hthread, hunswept⟩
  obtain rfl : t' = t := hthread
  have hclearing : caller.IsAt .clearing (t'.report (.opened (.collection policy))) :=
    haside.report (.opened (.collection policy))
  refine ⟨treads_of_ne (haside.ne_tracing nofun) (hclearing.ne_tracing nofun), ?_⟩
  refine handsOver_andFinally_spares (handsOver_andFinally_spares ?_ (hundo chores_rest))
    (hundo (respects_onThread exists_busy fun _ _ => .report trivial))
  rw [runPhases_eq]
  refine handsOver_bind ((handsOver_marking (t := t'.report (.opened (.collection policy))) hbusy
    hrank hclearing hunswept).mono ?_ ?_)
  · rintro (e | found) x hfree
    · exact nofun
    · exact absurd trivial (hfree found rfl)
  · rintro (e | found) x hstocked
    · exact nofun
    obtain ⟨hlive, hafter⟩ := hstocked found rfl
    refine attains_bind ((attains_sweepPhase found hafter).mono ?_)
    rintro (e | swept) y hy
    · exact nofun
    · exact fun _ _ _ => ⟨found.live, hlive, hy⟩

/-- The world as it was when the lock was taken, apart from the marks: the pool is shut down, or it
has nothing to do. -/
def UnderLock (world : World) (l : Ledger Job World Tally) : Prop :=
  l.shutDown = true ∨ ∃ marks cycle, Resting .collector False (locked { world with marks } cycle)
    (fun heap _ => heap = world.heap) l

/-- The world before the lock is taken, apart from the marks. -/
def BeforeLock (world : World) (l : Ledger Job World Tally) : Prop :=
  l.shutDown = true ∨ ∃ marks, Idle False { world with marks } l

/-- Changes of the marks leave a machine under the lock as it was apart from the marks. -/
theorem stable_underLock (world : World) (t : Thread) :
    Stable (truce caller heap).before fun x => x.2.1 = t ∧ Shows (UnderLock world) x.2.2 := by
  refine stable_truce (kept_closed.or (.exists fun _ => .exists fun _ => kept_resting rfl)) ?_ t
  rintro l marks (hshut | ⟨own, cycle, hrest⟩)
  · exact .inl hshut
  · exact .inr ⟨own, cycle, hrest.onMarks (fun _ => marks) fun _ _ hheap => hheap⟩

theorem stable_beforeLock (world : World) (t : Thread) :
    Stable (truce caller heap).before fun x => x.2.1 = t ∧ Shows (BeforeLock world) x.2.2 := by
  refine stable_truce (kept_closed.or (.exists fun _ => kept_idle _)) ?_ t
  rintro l marks (hshut | ⟨own, hidle⟩)
  · exact .inl hshut
  · exact .inr ⟨marks, hidle.tasks, hidle.places, hidle.free, hidle.heap, hidle.frames,
      hidle.methods, rfl, False.elim⟩

/-- What a thread does that holds the cycle lock. -/
theorem handsOver_collectLocked {noted : List Ref} (hrank : t.held.rank ≤ Level.cycle.rank)
    (haside : caller.IsAt .aside t) (hholds : Shows (UnderLock world) machine) :
    HandsOver (truce caller world.heap)
      (fun result _ => Fruitless (fun metrics : Option Metrics => metrics.isSome = true) result)
      (Sparingly world.heap (world.roots callStacks) fun metrics => metrics.isSome = true)
      (collectLocked callStacks policy) (noted, t, machine) := by
  have hfree := haside.ne_tracing nofun
  have hnone : Fruitless (fun metrics : Option Metrics => metrics.isSome = true) (.ok none) := by
    rintro _ ⟨⟩ ⟨⟩
  refine handsOver_bind (handsOver_atomic
    (f := fun machine => (machine.env.cycle.pressure, machine)) (stable_underLock world t)
    ⟨rfl, hholds⟩ ?_)
  rintro noted₁ t₁ machine₁ ⟨hthread, hasked⟩
  obtain rfl : t₁ = t := hthread
  refine ⟨treads_of_ne hfree hfree, ?_⟩
  cases machine₁.env.cycle.pressure with
  | false => exact hnone
  | true =>
    refine handsOver_bind (handsOver_atomic (f := fun machine => (machine.pool.shutDown, machine))
      (stable_underLock world t₁) ⟨rfl, hasked⟩ ?_)
    rintro noted₂ t₂ machine₂ ⟨hthread, hopen⟩
    obtain rfl : t₂ = t₁ := hthread
    refine ⟨treads_of_ne hfree hfree, ?_⟩
    cases hshut : machine₂.pool.shutDown with
    | true =>
      refine handsOver_bind (handsOver_onThread (stable_underLock world t₂) ⟨rfl, hopen⟩ ?_)
      rintro noted₃ t₃ machine₃ ⟨hthread, -⟩
      obtain rfl : t₃ = t₂ := hthread
      have hafter := haside.report (.event .collectionAfterShutdown)
      exact ⟨treads_of_ne hfree (hafter.ne_tracing nofun), hnone⟩
    | false =>
      obtain hclosed | ⟨marks, cycle, hrest⟩ := hopen.ledger
      · cases hshut.symm.trans hclosed
      · have hunswept : Shows (Unswept (locked { world with marks } cycle)) machine₂ :=
          ⟨hopen.calm, hopen.level, hrest⟩
        have hcycle : HandsOver (truce caller (locked { world with marks } cycle).heap) _ _
            (runCycle callStacks policy) (noted₂, t₂, machine₂) :=
          handsOver_runCycle rfl hrank haside hunswept
        refine handsOver_bind (hcycle.mono ?_ ?_)
        · rintro (e | metrics) y hy
          · exact nofun
          · exact absurd trivial (hy metrics rfl)
        · rintro (e | metrics) y hy
          · exact nofun
          · simp only [onWorld_atomic]
            refine attains_atomic stable_spares (hy metrics rfl trivial) ?_
            intro t machine hspares _ _ _
            exact hspares.setEnv rfl

/-- A call that collects spares what the roots reach, if those who mark keep the truce. -/
theorem Ready.handsOver_collectStacks (hready : Ready machine) (caller : Thread)
    (callStacks : List CallStack) (policy : Policy) (noted : List Ref) :
    HandsOver (truce caller machine.env.heap)
      (fun result _ => Fruitless (fun metrics => metrics.isSome = true) result)
      (Sparingly machine.env.heap (machine.env.roots callStacks) fun metrics =>
        metrics.isSome = true)
      (collectStacks callStacks policy) (noted, caller, machine) := by
  have haside := Thread.isAt_self caller
  have hbefore : Shows (BeforeLock machine.env) machine := by
    refine ⟨hready.calm, hready.level, hready.ledger.imp (fun hshut => hshut) ?_⟩
    rintro ⟨htasks, hplaces, hfree⟩
    exact ⟨machine.env.marks, htasks, hplaces, hfree, rfl, rfl, rfl, rfl, False.elim⟩
  rw [collectStacks_eq]
  generalize machine.env = world at hbefore ⊢
  refine handsOver_bind (handsOver_onThread (stable_beforeLock world caller) ⟨rfl, hbefore⟩ ?_)
  rintro noted₁ t machine₁ ⟨hthread, hbefore₁⟩
  obtain rfl : t = caller := hthread
  by_cases hrank : t.held.rank ≤ Level.cycle.rank
  case neg =>
    rw [Thread.enter_of_lt_rank (Nat.not_le.1 hrank)]
    exact ⟨treads_of_ne (haside.ne_tracing nofun) (haside.ne_tracing nofun), nofun⟩
  rw [Thread.enter_of_rank_le hrank]
  have hinside : t.IsAt .aside { t with held := .cycle :: t.held } := haside.hold _
  refine ⟨treads_of_ne (haside.ne_tracing nofun) (hinside.ne_tracing nofun), ?_⟩
  refine handsOver_andFinally_spares (handsOver_bind ?_)
    (respects_onThread exists_busy fun _ _ hspares => hspares)
  refine handsOver_await (stable_beforeLock world _) ⟨rfl, hbefore₁⟩ ?_
  rintro noted₂ t₂ machine₂ ⟨hthread, hbefore₂⟩ _ machine₃ hlock
  obtain rfl : t₂ = { t with held := .cycle :: t.held } := hthread
  have hheld : Held.rank (.cycle :: t.held) ≤ Level.cycle.rank := by
    rw [Held.rank_cons]
    exact Nat.max_le.2 ⟨Nat.le_refl _, hrank⟩
  split at hlock
  · cases hlock
  · cases hlock
    refine ⟨treads_of_ne (hinside.ne_tracing nofun) (hinside.ne_tracing nofun), ?_⟩
    refine handsOver_andFinally_spares (handsOver_collectLocked hheld hinside ?_)
      (respects_atomic exists_busy fun _ _ hspares => hspares.setEnv rfl)
    refine ⟨hbefore₂.calm, hbefore₂.level, hbefore₂.ledger.imp (fun hshut => hshut) ?_⟩
    rintro ⟨marks, hidle⟩
    exact ⟨marks, _, hidle.lock.mono fun _ _ hcontents => hcontents.1⟩

end Machine

end MarkSweep
