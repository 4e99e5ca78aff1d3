import MarkSweep.Proofs.Cycle.Neutral
import MarkSweep.Proofs.Cycle.Purge

namespace MarkSweep.Machine

variable {alone : Prop} {marks : Prop} {live : LiveSet} {heap : Heap} {H : Heap → Prop}
  {tasks : Task Job → Prop} {records : Record → Prop} {x y : Thread × Machine}

/-- The pool is calm and its ledger satisfies `P`, in any company. -/
abbrev Shows (P : Ledger Job World Tally → Prop) : Machine → Prop := Holds False (fun _ => True) P

/-- The heap satisfies `H`, and the pool has nothing to do but to sweep what is not live. -/
structure Confined (live : LiveSet) (H : Heap → Prop) (l : Ledger Job World Tally) : Prop where
  heap : H l.env.heap
  tasks : ∀ task ∈ l.tasks, Sweeps live task

theorem Confined.similar {l l' : Ledger Job World Tally} (hl : Confined live H l)
    (hsimilar : l.Similar l') : Confined live H l' :=
  ⟨hsimilar.env ▸ hl.heap, fun task hmem => hl.tasks task (hsimilar.tasks.mem_iff.2 hmem)⟩

theorem kept_confined (hH : ∀ heap region, H heap → H (heap.erase live region).2) :
    Kept alone (Confined live H) where
  similar := Confined.similar
  turn := by
    intro l l' hconfined hturn
    cases hturn with
    | @advance _ _ task _ _ _ _ _ _ _ hfree hstep =>
      obtain ⟨-, region, hsweep⟩ := hconfined.tasks task List.mem_cons_self
      rw [hsweep, step_sweep hfree] at hstep
      cases hstep
    | @finish env _ task _ _ _ _ _ _ _ hfree hstep =>
      obtain ⟨-, region, hsweep⟩ := hconfined.tasks task List.mem_cons_self
      rw [hsweep, step_sweep hfree] at hstep
      cases hstep
      refine ⟨hH env.heap region hconfined.heap, fun other hmem => ?_⟩
      exact hconfined.tasks other (List.mem_cons_of_mem _ hmem)
    | leave => exact ⟨hconfined.heap, hconfined.tasks⟩
  spared := by
    intro _ l world shut hconfined hspared _
    refine ⟨?_, hconfined.tasks⟩
    rw [hspared.heap]
    exact hconfined.heap

/-- The heap is `heap`, and the pool has nothing to do that erases entries. -/
structure Unerased (heap : Heap) (l : Ledger Job World Tally) : Prop where
  heap : l.env.heap = heap
  tasks : ∀ task ∈ l.tasks, task.body.isSweep = false

theorem kept_unerased : Kept alone (Unerased heap) where
  similar := fun hl hsimilar =>
    ⟨hsimilar.env ▸ hl.heap, fun task hmem => hl.tasks task (hsimilar.tasks.mem_iff.2 hmem)⟩
  turn := by
    rintro l l' ⟨rfl, htasks⟩ hturn
    cases hturn with
    | advance _ hstep =>
      obtain ⟨hheap, hrest⟩ := Job.step_next_of_marks (htasks _ List.mem_cons_self) hstep
      refine ⟨hheap, fun task hmem => ?_⟩
      obtain rfl | hmem := List.mem_cons.1 hmem
      · exact hrest
      · exact htasks task (List.mem_cons_of_mem _ hmem)
    | finish _ hstep =>
      exact ⟨Job.step_finish_of_marks (htasks _ List.mem_cons_self) hstep,
        fun task hmem => htasks task (List.mem_cons_of_mem _ hmem)⟩
    | leave => exact ⟨rfl, htasks⟩
  spared := fun _ _ _ _ hl hspared _ => ⟨hspared.heap.trans hl.heap, hl.tasks⟩

/-- A chore keeps what depends neither on the marks nor on the board, and what a task that it queues
does not change. -/
theorem Chore.shows {P : Ledger Job World Tally → Prop} (hchore : Chore marks tasks records x y)
    (hheard : ∀ task, tasks task → task.audience ≠ .nobody)
    (hsimilar : ∀ l l', P l → Ledger.Similar l l' → P l')
    (hboard : ∀ l board, P l → P { l with board })
    (hmarks : ∀ l left, P l → P { l with env := { l.env with marks := left } })
    (hqueue : ∀ l task, tasks task → P l → P { l with tasks := task :: l.tasks })
    (hx : Shows P x.2) : Shows P y.2 := by
  obtain ⟨hcalm, hlevel, hledger⟩ := hx
  cases hchore with
  | hold _ | report _ => exact ⟨hcalm, hlevel, hledger⟩
  | mark _ left => exact ⟨hcalm, hlevel, hmarks _ left hledger⟩
  | stir hstirred hshut =>
    exact Holds.of_stirred (L := fun _ => True) ⟨hcalm, hlevel, hledger⟩ hstirred hshut
      fun _ _ => trivial
  | note board => exact ⟨hcalm.setBoard board, hlevel, hboard _ board hledger⟩
  | @queue _ machine task htask =>
    refine ⟨hcalm.accept (hheard task htask), hlevel, ?_⟩
    refine hsimilar _ _ (hboard _ (machine.pool.board.enlist task.audience)
      (hqueue _ task htask hledger)) ?_
    exact ⟨rfl, (Pool.inFlight_accept machine.pool task).symm, .refl _, rfl, rfl⟩

/-- A chore that queues nothing but sweeps leaves the heap alone. -/
theorem Chore.confined (hchore : Chore marks (Sweeps live) records x y)
    (hx : Shows (Confined live H) x.2) : Shows (Confined live H) y.2 := by
  refine hchore.shows (fun _ hsweep => hsweep.1) (fun _ _ => Confined.similar)
    (fun _ _ hl => ⟨hl.heap, hl.tasks⟩) (fun _ _ hl => ⟨hl.heap, hl.tasks⟩) ?_ hx
  intro l task hsweep hl
  refine ⟨hl.heap, fun other hmem => ?_⟩
  obtain rfl | hmem := List.mem_cons.1 hmem
  · exact hsweep
  · exact hl.tasks other hmem

/-- A chore that queues nothing but tasks that mark erases nothing. -/
theorem Chore.unerased (hchore : Chore marks Labels records x y)
    (hx : Shows (Unerased heap) x.2) : Shows (Unerased heap) y.2 := by
  have hkept : Kept False (Unerased heap) := kept_unerased
  refine hchore.shows (fun _ hlabel => hlabel.1) (fun _ _ => hkept.similar)
    (fun _ _ hl => ⟨hl.heap, hl.tasks⟩) (fun _ _ hl => ⟨hl.heap, hl.tasks⟩) ?_ hx
  intro l task hlabel hl
  refine ⟨hl.heap, fun other hmem => ?_⟩
  obtain rfl | hmem := List.mem_cons.1 hmem
  · exact hlabel.2
  · exact hl.tasks other hmem

end MarkSweep.Machine
