import MarkSweep.Proofs.Cycle.Scan

namespace MarkSweep

namespace Heap

/-- What a sweep of all containers leaves. -/
def retain (heap : Heap) (live : LiveSet) : Heap :=
  (((heap.erase live .objects).2.erase live .arrays).2.erase live .monitors).2

/-- What a sweep of all containers gives up. -/
def deadStats (heap : Heap) (live : LiveSet) : SweepStats where
  objects := (heap.erase live .objects).1.entries
  arrays := (heap.erase live .arrays).1.entries
  elements := (heap.erase live .arrays).1.elements
  monitors := (heap.erase live .monitors).1.entries

/-- Two heaps with the same entries in one container. -/
def Shares (heap heap' : Heap) : Region → Prop
  | .objects => heap'.objects = heap.objects
  | .arrays => heap'.arrays = heap.arrays
  | .monitors => heap'.monitors = heap.monitors

variable {heap heap' : Heap} {live : LiveSet} {region other : Region}

theorem Shares.refl (heap : Heap) (region : Region) : Shares heap heap region := by
  cases region <;> rfl

/-- To sweep a container takes nothing but the container into account. -/
theorem Shares.erase (hshares : Shares heap heap' region) (live : LiveSet) :
    (heap'.erase live region).1 = (heap.erase live region).1 ∧
      Shares (heap.erase live region).2 (heap'.erase live region).2 region := by
  cases region with
  | objects =>
    have hobjects : heap'.objects = heap.objects := hshares
    simp only [Heap.erase, Shares, hobjects, and_self]
  | arrays =>
    have harrays : heap'.arrays = heap.arrays := hshares
    simp only [Heap.erase, Shares, harrays, and_self]
  | monitors =>
    have hmonitors : heap'.monitors = heap.monitors := hshares
    simp only [Heap.erase, Shares, hmonitors, and_self]

/-- To sweep a container leaves the others alone. -/
theorem Shares.erase_of_ne (hshares : Shares heap heap' region) (hne : other ≠ region)
    (live : LiveSet) : Shares heap (heap'.erase live other).2 region := by
  cases region <;> cases other <;> first | exact absurd rfl hne | exact hshares

/-- A heap all of whose containers are swept. -/
theorem eq_retain (hoffset : heap'.nextOffset = heap.nextOffset)
    (hswept : ∀ region, Shares (heap.erase live region).2 heap' region) :
    heap' = heap.retain live := by
  obtain ⟨objects, arrays, monitors, nextOffset⟩ := heap'
  have hobjects := hswept .objects
  have harrays := hswept .arrays
  have hmonitors := hswept .monitors
  simp only [Shares] at hobjects harrays hmonitors
  subst hobjects harrays hmonitors hoffset
  rfl

end Heap

namespace Machine

/-- What a container is once the job that sweeps it has answered. -/
def Erased (alone : Prop) (before after : Heap) (live : LiveSet) (shut : Bool) (region : Region) :
    Except Failure Tally → Prop
  | .ok tally => tally = (before.erase live region).1 ∧
      (before.erase live region).2.Shares after region
  | .error failure => failure = .poolShutDown ∧ ¬alone ∧ shut = true

/-- A property of worlds that has nothing to do with the heap and that bystanders keep, if there are
any. -/
structure Aloof (alone : Prop) (U : World → Prop) : Prop where
  setHeap : ∀ world heap, U world → U { world with heap }
  spared : ¬alone → ∀ world world', U world → world.Spared world' → U world'

theorem aloof_true (alone : Prop) : Aloof alone fun _ => True :=
  ⟨fun _ _ _ => trivial, fun _ _ _ _ _ => trivial⟩

/-- The rest of the world has nothing to do with the heap. -/
theorem aloof_untouched {alone : Prop} {before : World} (hbusy : before.cycle.busy = true) :
    Aloof alone (before.Untouched .collector alone) where
  setHeap _ heap huntouched := huntouched.setHeap heap
  spared hothers _ _ huntouched hspared := huntouched.spared hothers hbusy hspared

/-- A sweep that began with the heap `before` is so far with each container. The rest of the world
satisfies `U`.

The three jobs of a sweep touch one container each, so that they may take their steps in any
order. -/
structure Sweeping (alone : Prop) (U : World → Prop) (before : Heap) (live : LiveSet)
    (handling : Region → Handling Tally) (l : Ledger Job World Tally) : Prop where
  world : U l.env
  nextOffset : l.env.heap.nextOffset = before.nextOffset
  tasks : ∀ task ∈ l.tasks, ∃ region id, handling region = .issued id ∧
    task = ⟨.handle id, .sweep region live, 0⟩
  places : l.places = []
  distinct : ∀ region other id, (handling region).id? = some id → (handling other).id? = some id →
    region = other
  below : ∀ region id, (handling region).id? = some id → id < l.board.nextHandle
  regions : ∀ region, l.Tracks (before.Shares l.env.heap region)
    (Erased alone before l.env.heap live l.shutDown region) (handling region)

variable {alone : Prop} {ended : List Bool} {U : World → Prop} {before : Heap} {live : LiveSet}
  {handling : Region → Handling Tally} {l l' : Ledger Job World Tally} {region other : Region}
  {id : HandleId}

/-- A sweep does not depend on which groups and handles others have on the board. -/
theorem Sweeping.similar (hsweep : Sweeping alone U before live handling l)
    (hsimilar : l.Similar l') : Sweeping alone U before live handling l' := by
  obtain ⟨env, tasks, places, board, shut⟩ := l
  obtain ⟨env', tasks', places', board', shut'⟩ := l'
  obtain ⟨rfl, htasks, hplaces, rfl, rfl⟩ := hsimilar
  refine ⟨hsweep.world, hsweep.nextOffset, ?_, ?_, hsweep.distinct, hsweep.below, ?_⟩
  · exact fun task hmem => hsweep.tasks task (htasks.mem_iff.2 hmem)
  · have hnone : places = [] := hsweep.places
    rw [hnone] at hplaces
    exact hplaces.symm.eq_nil
  · intro region
    refine (hsweep.regions region).mono (fun _ _ => rfl) ?_ (fun h => h) fun _ h => h
    exact fun _ _ => (htasks.countP_eq _).symm

/-- Each handle is in use for one container. -/
private theorem Sweeping.id_ne {id' : HandleId}
    (hsweep : Sweeping alone U before live handling l) (hid : (handling region).id? = some id)
    (hne : other ≠ region) (hid' : (handling other).id? = some id') : id ≠ id' := by
  rintro rfl
  exact hne (hsweep.distinct other region id hid' hid)

/-- The job that sweeps a container ends in one step. -/
theorem step_sweep {name : String} {thread : Thread} {env : World}
    (hfree : thread.held = []) :
    Job.body.step name thread env (.sweep region live) =
      .finish { env with heap := (env.heap.erase live region).2 }
        (.value (env.heap.erase live region).1) := by
  simp only [Job.body, Job.step, thread.checkEnter_of_held_nil hfree]

/-- The job that sweeps a container sweeps it for its handle, and leaves the others alone. -/
private theorem Sweeping.finish {env : World} {tasks : List (Task Job)} {places : List GroupId}
    {board : Board Tally} {shut : Bool} (hU : Aloof alone U)
    (hregion : handling region = .issued id)
    (hsweep : Sweeping alone U before live handling
      ⟨env, ⟨.handle id, .sweep region live, 0⟩ :: tasks, places, board, shut⟩) :
    Sweeping alone U before live handling
      ⟨{ env with heap := (env.heap.erase live region).2 }, tasks, places,
        board.tell id (.delivered (.value (env.heap.erase live region).1)), shut⟩ := by
  refine ⟨hU.setHeap _ _ hsweep.world, ?_, ?_, hsweep.places, hsweep.distinct, hsweep.below, ?_⟩
  · exact (Heap.nextOffset_erase _ _ _).trans hsweep.nextOffset
  · exact fun task hmem => hsweep.tasks task (List.mem_cons_of_mem _ hmem)
  · intro other
    have hother := hsweep.regions other
    by_cases hsame : region = other
    · subst hsame
      rw [hregion] at hother ⊢
      apply Ledger.Tracks.finish hother rfl
      intro hshares answer hanswer
      cases hanswer
      exact Heap.Shares.erase hshares live
    · have hne : ∀ id', (handling other).id? = some id' → id ≠ id' :=
        fun _ => hsweep.id_ne (by rw [hregion]; rfl) (Ne.symm hsame)
      refine hother.mono ?_ ?_ (fun hshares => hshares.erase_of_ne hsame live) ?_
      · intro id' hid'
        exact Board.getElem?_tell.trans (if_neg (hne id' hid'))
      · intro id' hissued
        rw [Ledger.countOf_cons, if_neg]
        · rfl
        · intro heq
          exact hne id' (by rw [hissued]; rfl) (Audience.handle.inj heq)
      · intro answer herased
        cases answer with
        | error failure => exact herased
        | ok tally => exact ⟨herased.1, herased.2.erase_of_ne hsame live⟩

/-- The workers keep a sweep going, and bystanders do not disturb it. -/
theorem kept_sweeping (hU : Aloof alone U) :
    Kept alone (Sweeping alone U before live handling) where
  similar := Sweeping.similar
  turn := by
    intro l l' hsweep hturn
    cases hturn with
    | advance hfree hstep =>
      obtain ⟨region, id, -, rfl⟩ := hsweep.tasks _ List.mem_cons_self
      rw [step_sweep hfree] at hstep
      cases hstep
    | finish hfree hstep =>
      obtain ⟨region, id, hregion, rfl⟩ := hsweep.tasks _ List.mem_cons_self
      rw [step_sweep hfree] at hstep
      cases hstep
      exact hsweep.finish hU hregion
    | leave => cases hsweep.places
  spared := by
    intro hothers l world shut hsweep hspared hshut
    refine ⟨hU.spared hothers _ _ hsweep.world hspared, ?_, hsweep.tasks, hsweep.places,
      hsweep.distinct, hsweep.below, ?_⟩
    · rw [hspared.heap]
      exact hsweep.nextOffset
    · intro region
      refine (hsweep.regions region).mono (fun _ _ => rfl) (fun _ _ => rfl) ?_ ?_
      · rw [hspared.heap]
        exact fun hshares => hshares
      · intro answer herased
        rw [hspared.heap]
        cases answer with
        | error failure => exact ⟨herased.1, hothers, hshut herased.2.2⟩
        | ok tally => exact herased

/-- A sweep begins with every container as it was. -/
theorem sweeping_of_rest (hworld : U l.env) (htasks : l.tasks = []) (hplaces : l.places = []) :
    Sweeping alone U l.env.heap live (fun _ => .unissued) l where
  world := hworld
  nextOffset := rfl
  tasks task hmem := by
    rw [htasks] at hmem
    cases hmem
  places := hplaces
  distinct := by
    rintro region other id ⟨⟩
  below := by
    rintro region id ⟨⟩
  regions region := Heap.Shares.refl _ region

/-- Nobody answers to a handle whose task was not submitted. -/
private theorem Sweeping.countOf_eq_zero (hsweep : Sweeping alone U before live handling l)
    (hregion : handling region = .opened id) : l.countOf (.handle id) = 0 := by
  refine List.countP_eq_zero.2 fun task hmem haudience => ?_
  obtain ⟨other, id', hother, rfl⟩ := hsweep.tasks task hmem
  obtain rfl : id' = id := Audience.handle.inj (of_decide_eq_true haudience)
  have hsame := hsweep.distinct region other id' (by rw [hregion]; rfl) (by rw [hother]; rfl)
  rw [← hsame, hregion] at hother
  cases hother

/-- A sweep goes on with one container. The handle in use for it stays the same or is new, and
nothing happens to the others. -/
private theorem Sweeping.update {next : Handling Tally}
    (hsweep : Sweeping alone U before live handling l) (henv : l'.env = l.env)
    (hplaces : l'.places = l.places) (hshut : l'.shutDown = l.shutDown)
    (hgrown : l.board.nextHandle ≤ l'.board.nextHandle)
    (hnext : ∀ id, next.id? = some id → (handling region).id? = some id ∨
      id = l.board.nextHandle ∧ id < l'.board.nextHandle)
    (htasks : ∀ task ∈ l'.tasks,
      (∃ id, next = .issued id ∧ task = ⟨.handle id, .sweep region live, 0⟩) ∨
        task ∈ l.tasks ∧ ∀ id, handling region = .issued id → task.audience ≠ .handle id)
    (hothers : ∀ other ≠ region, ∀ id, (handling other).id? = some id →
      l'.board.handles[id]? = l.board.handles[id]? ∧
        l'.countOf (.handle id) = l.countOf (.handle id))
    (htracks : l'.Tracks (before.Shares l.env.heap region)
      (Erased alone before l.env.heap live l.shutDown region) next) :
    Sweeping alone U before live (Function.update handling region next) l' := by
  -- A handle that is new to the container is new to all.
  have hunused : ∀ other ≠ region, ∀ id, (handling other).id? = some id →
      next.id? ≠ some id := by
    intro other hne id hid hnew
    obtain hsame | ⟨hfresh, -⟩ := hnext id hnew
    · exact hsweep.id_ne hsame hne hid rfl
    · exact Nat.ne_of_lt (hsweep.below other id hid) hfresh
  refine ⟨henv ▸ hsweep.world, henv ▸ hsweep.nextOffset, ?_, hplaces.trans hsweep.places,
    ?_, ?_, ?_⟩
  · intro task hmem
    obtain ⟨id, rfl, rfl⟩ | ⟨hmem, hother⟩ := htasks task hmem
    · exact ⟨region, id, Function.update_self _ _ _, rfl⟩
    · obtain ⟨other, id, hissued, rfl⟩ := hsweep.tasks task hmem
      refine ⟨other, id, ?_, rfl⟩
      rw [Function.update_of_ne, hissued]
      rintro rfl
      exact hother id hissued rfl
  · intro first second id hfirst hsecond
    by_cases heq : first = region <;> by_cases heq' : second = region
    · rw [heq, heq']
    · rw [heq, Function.update_self] at hfirst
      rw [Function.update_of_ne heq'] at hsecond
      exact absurd hfirst (hunused second heq' id hsecond)
    · rw [heq', Function.update_self] at hsecond
      rw [Function.update_of_ne heq] at hfirst
      exact absurd hsecond (hunused first heq id hfirst)
    · rw [Function.update_of_ne heq] at hfirst
      rw [Function.update_of_ne heq'] at hsecond
      exact hsweep.distinct first second id hfirst hsecond
  · intro other id hid
    by_cases heq : other = region
    · rw [heq, Function.update_self] at hid
      obtain hsame | ⟨-, hlt⟩ := hnext id hid
      · exact Nat.lt_of_lt_of_le (hsweep.below region id hsame) hgrown
      · exact hlt
    · rw [Function.update_of_ne heq] at hid
      exact Nat.lt_of_lt_of_le (hsweep.below other id hid) hgrown
  · intro other
    by_cases heq : other = region
    · subst heq
      rw [Function.update_self, henv, hshut]
      exact htracks
    · rw [Function.update_of_ne heq, henv, hshut]
      refine (hsweep.regions other).mono (fun id hid => (hothers other heq id hid).1) ?_
        (fun hshares => hshares) fun _ herased => herased
      intro id hissued
      exact (hothers other heq id (by rw [hissued]; rfl)).2

/-- The next job gets a handle of its own. -/
theorem Sweeping.openRegion (hsweep : Sweeping alone U before live handling l)
    (hregion : handling region = .unissued) :
    Sweeping alone U before live
      (Function.update handling region (.opened l.board.nextHandle))
      { l with board := l.board.openHandle.2 } := by
  have hwaiting := hsweep.regions region
  rw [hregion] at hwaiting
  refine hsweep.update rfl rfl rfl (Nat.le_succ _) ?_ ?_ ?_ ⟨?_, hwaiting⟩
  · intro id hid
    cases hid
    exact .inr ⟨rfl, Nat.lt_succ_self _⟩
  · intro task hmem
    refine .inr ⟨hmem, fun id hissued => ?_⟩
    rw [hregion] at hissued
    cases hissued
  · intro other _ id hid
    refine ⟨Board.getElem?_openHandle.trans (if_neg ?_), rfl⟩
    exact Nat.ne_of_gt (hsweep.below other id hid)
  · rw [Board.getElem?_openHandle, if_pos rfl]

/-- The next job is submitted. -/
theorem Sweeping.issueRegion (hregion : handling region = .opened id)
    (hsweep : Sweeping alone U before live handling l) :
    Sweeping alone U before live (Function.update handling region (.issued id))
      { l with tasks := ⟨.handle id, .sweep region live, 0⟩ :: l.tasks } := by
  have hopened := hsweep.regions region
  rw [hregion] at hopened
  have hid : (handling region).id? = some id := by
    rw [hregion]
    rfl
  refine hsweep.update rfl rfl rfl (Nat.le_refl _) (fun _ hnext => .inl (hid.trans hnext)) ?_ ?_
    ⟨.awaited, hopened.1, ?_, hopened.2⟩
  · intro task hmem
    obtain rfl | hmem := List.mem_cons.1 hmem
    · exact .inl ⟨id, rfl, rfl⟩
    · refine .inr ⟨hmem, fun id' hissued => ?_⟩
      rw [hregion] at hissued
      cases hissued
  · intro other hne id' hid'
    refine ⟨rfl, ?_⟩
    rw [Ledger.countOf_cons, if_neg]
    · rfl
    · exact fun hsame => hsweep.id_ne hid hne hid' (Audience.handle.inj hsame)
  · rw [Ledger.countOf_cons, if_pos rfl]
    exact congrArg (· + 1) (hsweep.countOf_eq_zero hregion)

/-- The pool has refused the next job, because somebody else has shut it down. -/
theorem Sweeping.loseRegion (hothers : ¬alone) (hshut : l.shutDown = true)
    (hregion : handling region = .opened id) (hsweep : Sweeping alone U before live handling l) :
    Sweeping alone U before live (Function.update handling region (.issued id))
      { l with board := l.board.tell id .lost } := by
  have hopened := hsweep.regions region
  rw [hregion] at hopened
  have hid : (handling region).id? = some id := by
    rw [hregion]
    rfl
  refine hsweep.update rfl rfl rfl (Nat.le_refl _) (fun _ hnext => .inl (hid.trans hnext)) ?_ ?_
    ⟨.lost, ?_, hsweep.countOf_eq_zero hregion, rfl, hothers, hshut⟩
  · intro task hmem
    refine .inr ⟨hmem, fun id' hissued => ?_⟩
    rw [hregion] at hissued
    cases hissued
  · intro other hne id' hid'
    exact ⟨Board.getElem?_tell.trans (if_neg (hsweep.id_ne hid hne hid')), rfl⟩
  · rw [Board.getElem?_tell, if_pos rfl, hopened.1, Option.map_some]

/-- The job of a container has answered. -/
theorem Sweeping.joinRegion {delivery : Delivery Tally} {answer : Except Failure Tally}
    (hregion : handling region = .issued id) (hsweep : Sweeping alone U before live handling l)
    (hget : l.board.handles[id]? = some delivery) (hanswer : delivery.answer? = some answer) :
    Sweeping alone U before live (Function.update handling region (.joined answer))
      { l with board := l.board.dropHandle id } := by
  have hissued := hsweep.regions region
  rw [hregion] at hissued
  obtain ⟨hnone, herased⟩ := hissued.answer hget hanswer
  have hid : (handling region).id? = some id := by
    rw [hregion]
    rfl
  refine hsweep.update rfl rfl rfl (Nat.le_refl _) ?_ ?_ ?_ herased
  · intro id' hnext
    cases hnext
  · intro task hmem
    refine .inr ⟨hmem, fun id' hissued' haudience => ?_⟩
    rw [hregion] at hissued'
    cases hissued'
    exact List.countP_eq_zero.1 hnone task hmem (decide_eq_true haudience)
  · intro other hne id' hid'
    exact ⟨Board.getElem?_dropHandle.trans (if_neg (hsweep.id_ne hid hne hid')), rfl⟩

/-- The sweep of one more container is handed out. -/
private theorem carries_submitSweep (hU : Aloof alone U)
    (hregion : handling region = .unissued) :
    Carries alone ended (Sweeping alone U before live handling) (Pool.submit (.sweep region live) 0)
      fun id => Sweeping alone U before live (Function.update handling region (.issued id)) := by
  have hopened : ∀ id, Kept alone
      (Sweeping alone U before live (Function.update handling region (.opened id))) :=
    fun _ => kept_sweeping hU
  refine carries_submit (kept_sweeping hU).firm (fun id => (hopened id).firm)
    (fun _ => (kept_sweeping hU).firm) (fun id => ((hopened id).and kept_closed).firm)
    (fun _ hsweep => hsweep.openRegion hregion) ?_ ?_
  · intro id l hsweep
    have hissued := hsweep.issueRegion (Function.update_self _ _ _)
    rwa [Function.update_idem] at hissued
  · intro hothers id l hsweep hshut
    have hissued := hsweep.loseRegion hothers hshut (Function.update_self _ _ _)
    rwa [Function.update_idem] at hissued

/-- The answer of the job of one container tells what has become of the container. -/
private theorem carries_joinSweep (region : Region) (hU : Aloof alone U)
    (hregion : handling region = .issued id) :
    Carries alone ended (Sweeping alone U before live handling) (Pool.tryJoin id)
      fun answer =>
        Sweeping alone U before live (Function.update handling region (.joined answer)) := by
  refine carries_tryJoin (kept_sweeping hU).firm (fun _ _ _ haround => haround) ?_ ?_
  · intro _ l hsweep
    have hissued := hsweep.regions region
    rw [hregion] at hissued
    exact hissued.exists_delivery
  · exact fun l delivery answer hsweep hget hanswer => hsweep.joinRegion hregion hget hanswer

/-- What a sweep that began with the heap `before` leaves behind, by its answer. -/
structure Cleared (alone : Prop) (U : World → Prop) (before : Heap) (live : LiveSet)
    (answer : Except Failure SweepStats) (l : Ledger Job World Tally) : Prop where
  tasks : l.tasks = []
  places : l.places = []
  world : U l.env
  answer : match answer with
    | .ok swept => swept = before.deadStats live ∧ l.env.heap = before.retain live
    | .error failure => failure = .poolShutDown ∧ ¬alone ∧ l.shutDown = true

/-- A sweep all of whose jobs have answered has swept every container, or was refused. -/
theorem Sweeping.close (hsweep : Sweeping alone U before live handling l)
    (answers : Region → Except Failure Tally)
    (hjoined : ∀ region, handling region = .joined (answers region)) :
    Cleared alone U before live
      (do
        let objects ← answers .objects
        let arrays ← answers .arrays
        let monitors ← answers .monitors
        return ⟨objects.entries, arrays.entries, arrays.elements, monitors.entries⟩) l := by
  have herased : ∀ region, Erased alone before l.env.heap live l.shutDown region
      (answers region) := by
    intro region
    have htracks := hsweep.regions region
    rw [hjoined] at htracks
    exact htracks
  have htasks : l.tasks = [] := by
    refine List.eq_nil_iff_forall_not_mem.2 fun task hmem => ?_
    obtain ⟨region, id, hissued, -⟩ := hsweep.tasks task hmem
    rw [hjoined] at hissued
    cases hissued
  have hobjects := herased .objects
  have harrays := herased .arrays
  have hmonitors := herased .monitors
  refine ⟨htasks, hsweep.places, hsweep.world, ?_⟩
  cases heq : answers .objects with
  | error failure =>
    rw [heq] at hobjects
    exact hobjects
  | ok objects =>
    cases heq' : answers .arrays with
    | error failure =>
      rw [heq'] at harrays
      exact harrays
    | ok arrays =>
      cases heq'' : answers .monitors with
      | error failure =>
        rw [heq''] at hmonitors
        exact hmonitors
      | ok monitors =>
        rw [heq] at hobjects
        rw [heq'] at harrays
        rw [heq''] at hmonitors
        constructor
        · rw [hobjects.1, harrays.1, hmonitors.1]
          rfl
        · refine Heap.eq_retain hsweep.nextOffset fun region => ?_
          cases region
          · exact hobjects.2
          · exact harrays.2
          · exact hmonitors.2

/-- A sweep that begins on a pool without work leaves of every container what is live. -/
theorem carries_cleared (hU : Aloof alone U) (before : Heap) (live : LiveSet) :
    Carries alone ended
      (fun l => l.tasks = [] ∧ l.places = [] ∧ U l.env ∧ l.env.heap = before) (sweep live)
      (Cleared alone U before live) := by
  have hbegin : Carries alone ended (Sweeping alone U before live fun _ => .unissued) (sweep live)
      (Cleared alone U before live) := by
    refine carries_bind (carries_submitSweep hU rfl) fun objects => ?_
    refine carries_bind (carries_submitSweep hU (by simp [Function.update])) fun arrays => ?_
    refine carries_bind (carries_submitSweep hU (by simp [Function.update])) fun monitors => ?_
    refine carries_bind (carries_joinSweep .objects hU (by simp [Function.update]))
      fun forObjects => ?_
    refine carries_bind (carries_joinSweep .arrays hU (by simp [Function.update]))
      fun forArrays => ?_
    refine carries_bind (carries_joinSweep .monitors hU (by simp [Function.update]))
      fun forMonitors => ?_
    refine carries_pure fun l hsweep => ?_
    let answers : Region → Except Failure Tally
      | .objects => forObjects
      | .arrays => forArrays
      | .monitors => forMonitors
    refine hsweep.close answers fun region => ?_
    cases region <;> simp [Function.update, answers]
  refine hbegin.mono ?_ fun _ _ hcleared => hcleared
  rintro l ⟨htasks, hplaces, hworld, rfl⟩
  exact sweeping_of_rest hworld htasks hplaces

/-- What a sweep by whoever holds the cycle lock leaves behind, by its answer. -/
def Swept (alone : Prop) (before : World) (live : LiveSet) (answer : Except Failure SweepStats)
    (l : Ledger Job World Tally) : Prop :=
  match answer with
  | .ok swept => swept = before.heap.deadStats live ∧
      Resting .collector alone before (fun heap _ => heap = before.heap.retain live) l
  | .error failure => failure = .poolShutDown ∧ ¬alone ∧ l.shutDown = true

/-- A sweep that begins at rest leaves of every container what is live. -/
theorem carries_sweep {before : World} {H : Heap → Marks → Prop}
    (hbusy : before.cycle.busy = true) (hheap : ∀ heap marks, H heap marks → heap = before.heap)
    (live : LiveSet) :
    Carries alone ended (Resting .collector alone before H) (sweep live)
      (Swept alone before live) := by
  refine (carries_cleared (aloof_untouched hbusy) before.heap live).mono ?_ ?_
  · intro l hrest
    exact ⟨hrest.tasks, hrest.places, hrest.untouched, hheap _ _ hrest.contents⟩
  · intro answer l hcleared
    have hanswer := hcleared.answer
    cases answer with
    | error failure => exact hanswer
    | ok swept =>
      exact ⟨hanswer.1, hcleared.tasks, hcleared.places, hcleared.world, hanswer.2⟩

end Machine

end MarkSweep
