import MarkSweep.Proofs.Cycle.Quiet

namespace MarkSweep.Machine

open Call

/-- The pool is calm and has nothing to do. -/
structure Unoccupied (machine : Machine) : Prop where
  calm : machine.pool.Calm
  idle : machine.pool.inFlight = []
  vacant : machine.pool.places = []

/-- The states of a collector between its collections.

Between collections the world may be edited in every way, others may use the pool, and their tasks
may kill some of its workers. -/
inductive Reachable : Machine → Prop
  /-- The workers of the pool have just started, and nobody holds the cycle lock. -/
  | create {workers : Nat} {name : String} {pool : Pool Job Tally} {world : World}
      (hpool : Pool.create? workers name = .ok pool) (hfree : world.cycle.busy = false) :
      Reachable ⟨pool, world⟩
  /-- A worker takes a step, or a bystander wakes workers, sets flags or shuts the pool down. -/
  | around {machine machine' : Machine} (hbefore : Reachable machine)
      (haround : Around False machine machine') : Reachable machine'
  /-- The world is edited by threads that do not hold the cycle lock. -/
  | edit {pool : Pool Job Tally} {world world' : World} (hbefore : Reachable ⟨pool, world⟩)
      (hbusy : world'.cycle.busy = world.cycle.busy) : Reachable ⟨pool, world'⟩
  /-- Others use the pool for tasks of their own, which may kill workers, until it is unoccupied. -/
  | lend {pool pool' : Pool Job Tally} {world : World} (hbefore : Reachable ⟨pool, world⟩)
      (hfree : world.cycle.busy = false) (hidle : Unoccupied ⟨pool', world⟩) :
      Reachable ⟨pool', world⟩
  /-- A thread has offered to collect, and has got metrics, nothing or a fault. -/
  | collect {machine machine' : Machine} {t t' : Thread} {callStacks : List CallStack}
      {policy : Policy} {result : Except Fault (Option Metrics)} (hbefore : Reachable machine)
      (hreturns : Routine.Returns (Beside (Around False)) (collectStacks callStacks policy)
        (t, machine) result (t', machine')) : Reachable machine'

/-- The pool was shut down, or has nothing left to do while nobody holds the cycle lock. -/
def Settled (l : Ledger Job World Tally) : Prop :=
  l.shutDown = true ∨ l.tasks = [] ∧ l.places = [] ∧ l.env.cycle.busy = false

theorem kept_settled : Kept False Settled :=
  kept_closed.or
    { toKept := Ledger.kept_of_rest fun _ hrest => ⟨hrest.1, hrest.2.1⟩
      spared := fun _ _ _ _ hrest hspared _ =>
        ⟨hrest.1, hrest.2.1, hspared.busy.trans hrest.2.2⟩ }

/-- What is always true of a collector between its collections. -/
abbrev Ready : Machine → Prop := Holds False (fun _ => True) Settled

/-- The workers of a new pool have nothing to do. -/
theorem calm_create (workers : Nat) (name : String) :
    (Pool.create workers name : Pool Job Tally).Calm ∧
      (Pool.create workers name : Pool Job Tally).inFlight = [] ∧
      (Pool.create workers name : Pool Job Tally).places = [] := by
  have hworkers : ∀ worker ∈ (Pool.create workers name : Pool Job Tally).workers, worker = {} := by
    intro worker hmem
    exact List.eq_of_mem_replicate hmem
  have hflight : (Pool.create workers name : Pool Job Tally).inFlight = [] := by
    refine List.filterMap_eq_nil_iff.2 fun worker hmem => ?_
    rw [hworkers worker hmem]
    rfl
  refine ⟨⟨rfl, fun _ => ⟨{}, ?_, rfl⟩, ?_, ?_, ?_⟩, hflight, ?_⟩
  · exact List.mem_replicate.2 ⟨by simp only [Pool.clampWorkers]; omega, rfl⟩
  · intro task hmem
    rw [hflight] at hmem
    cases hmem
  · intro worker hmem
    rw [hworkers worker hmem]
    rfl
  · intro worker hmem
    rw [hworkers worker hmem]
  · refine List.filterMap_eq_nil_iff.2 fun worker hmem => ?_
    rw [hworkers worker hmem]
    rfl

/-- A new collector is ready. -/
theorem ready_create {workers : Nat} {name : String} {pool : Pool Job Tally} {world : World}
    (hpool : Pool.create? workers name = .ok pool) (hfree : world.cycle.busy = false) :
    Ready ⟨pool, world⟩ := by
  obtain rfl := Pool.eq_create hpool
  obtain ⟨hcalm, hflight, hplaces⟩ := calm_create workers name
  exact ⟨hcalm, fun _ => trivial, .inr ⟨hflight, hplaces, hfree⟩⟩

/-- What a collection that gives metrics has done. -/
structure Gathered (before : World) (callStacks : List CallStack) (metrics : Metrics)
    (found : MarkResult) (after : World) : Prop where
  reached : Found before callStacks found
  report : ∃ cycle, metrics = Found.report before cycle found
  heap : after.heap = before.heap.retain found.live
  frames : after.frames = before.frames
  methods : after.methods = before.methods

/-- How a collection ends in any company, from any state between collections. -/
theorem Ready.gather {machine machine' : Machine} {t t' : Thread} {callStacks : List CallStack}
    {policy : Policy} {result : Except Fault (Option Metrics)} (hready : Ready machine)
    (hreturns : Routine.Returns (Beside (Around False)) (collectStacks callStacks policy)
      (t, machine) result (t', machine')) :
    Ready machine' ∧ ∀ metrics, result = .ok (some metrics) →
      ∃ found, Gathered machine.env callStacks metrics found machine'.env := by
  obtain ⟨hcalm, hnone, hsettled⟩ := hready
  by_cases hrank : t.held.rank ≤ Level.cycle.rank
  · obtain hshut | ⟨htasks, hplaces, hfree⟩ := hsettled
    · have hcollect : Meets (Around False) False _ t (collectStacks callStacks policy) _ :=
        meets_collectStacks_shutDown hrank steady_true callStacks policy
      obtain ⟨rfl, hholds⟩ := (hcollect machine ⟨hcalm, hnone, id, hshut⟩).of_returns hreturns
      refine ⟨⟨hholds.calm, hholds.level, .inl hholds.ledger.2⟩, ?_⟩
      intro metrics heq
      cases heq
    · have hcollect : Meets (Around False) False
          (Holds False (Pool.Open []) (Idle False machine.env)) t
          (collectStacks callStacks policy) _ := meets_collectStacks hrank callStacks policy
      have hidle : Idle False machine.env machine.ledger :=
        ⟨htasks, hplaces, hfree, rfl, rfl, rfl, rfl, fun _ => rfl⟩
      have hend := (hcollect machine ⟨hcalm, False.elim, hidle⟩).of_returns hreturns
      obtain ⟨-, cycle, -, hend⟩ := hend
      obtain fault | _ | metrics := result
      · obtain ⟨-, failure, rfl, hholds⟩ := hend
        refine ⟨⟨hholds.calm, hnone, ?_⟩, ?_⟩
        · obtain hshut | hidle := hholds.ledger.2
          · exact .inl hshut.2
          · exact .inr ⟨hidle.tasks, hidle.places, hidle.free⟩
        · intro metrics heq
          cases heq
      · have hidle := hend.2.ledger
        refine ⟨⟨hend.2.calm, hnone, .inr ⟨hidle.tasks, hidle.places, hidle.free⟩⟩, ?_⟩
        intro metrics heq
        cases heq
      · obtain ⟨-, found, hfound, hreport, hholds⟩ := hend
        have hidle := hholds.ledger
        refine ⟨⟨hholds.calm, hnone, .inr ⟨hidle.tasks, hidle.places, hidle.free⟩⟩, ?_⟩
        intro metrics' heq
        cases heq
        exact ⟨found, hfound, ⟨cycle, hreport⟩, hidle.heap, hidle.frames, hidle.methods⟩
  · have hrefused : Meets (Around False) False Ready t (collectStacks callStacks policy)
        fun result _ machine => (∀ metrics, result ≠ .ok (some metrics)) ∧ Ready machine :=
      meets_guarded_of_error (Thread.enter_of_lt_rank (Nat.not_le.1 hrank))
        (stable_holds steady_true kept_settled) fun machine hready =>
          ⟨nofun, hready⟩
    obtain ⟨hother, hready⟩ := (hrefused machine ⟨hcalm, hnone, hsettled⟩).of_returns hreturns
    exact ⟨hready, fun metrics heq => absurd heq (hother metrics)⟩

/-- A collection leaves its collector ready, and if it gives metrics it has kept what the marks
say. -/
theorem Ready.collect {machine machine' : Machine} {t t' : Thread} {callStacks : List CallStack}
    {policy : Policy} {result : Except Fault (Option Metrics)} (hready : Ready machine)
    (hreturns : Routine.Returns (Beside (Around False)) (collectStacks callStacks policy)
      (t, machine) result (t', machine')) :
    Ready machine' ∧ ∀ metrics, result = .ok (some metrics) →
      ∃ found, Found machine.env callStacks found ∧
        machine'.env.heap = machine.env.heap.retain found.live ∧
        machine'.env.frames = machine.env.frames ∧ machine'.env.methods = machine.env.methods := by
  obtain ⟨hafter, hgather⟩ := hready.gather hreturns
  refine ⟨hafter, fun metrics hmetrics => ?_⟩
  obtain ⟨found, hgathered⟩ := hgather metrics hmetrics
  exact ⟨found, hgathered.reached, hgathered.heap, hgathered.frames, hgathered.methods⟩

/-- Whatever has happened, a collector is ready between its collections. -/
theorem Reachable.ready {machine : Machine} (hreach : Reachable machine) : Ready machine := by
  induction hreach with
  | create hpool hfree => exact ready_create hpool hfree
  | around _ haround ih => exact stable_holds steady_true kept_settled _ _ ih haround
  | edit _ hbusy ih =>
    obtain ⟨hcalm, hnone, hsettled⟩ := ih
    refine ⟨hcalm, hnone, hsettled.imp id ?_⟩
    intro hrest
    exact ⟨hrest.1, hrest.2.1, hbusy.trans hrest.2.2⟩
  | lend _ hfree hidle _ =>
    exact ⟨hidle.calm, fun _ => trivial, .inr ⟨hidle.idle, hidle.vacant, hfree⟩⟩
  | collect _ hreturns ih => exact (ih.gather hreturns).1

variable {machine : Machine}

/-- A collector that is ready and open is quiet. -/
theorem Ready.quiet (hready : Ready machine) (hopen : machine.pool.shutDown = false) :
    Quiet (machine.pool.workers.map (·.stage.isOver)) machine.env machine := by
  obtain ⟨hcalm, -, hsettled⟩ := hready
  obtain ⟨worker, hmem, hlive⟩ := hcalm.manned hopen
  refine ⟨hcalm, fun _ => ⟨hopen, rfl, List.mem_map.2 ⟨worker, hmem, hlive⟩⟩, ?_⟩
  obtain hshut | ⟨htasks, hplaces, hfree⟩ := hsettled
  · have hclosed : machine.pool.shutDown = true := hshut
    rw [hopen] at hclosed
    cases hclosed
  · exact ⟨htasks, hplaces, hfree, rfl, rfl, rfl, rfl, fun _ => rfl⟩

/-- A quiet collector is ready and open. -/
theorem Quiet.ready {ended : List Bool} {world : World} (hquiet : Quiet ended world machine) :
    Ready machine ∧ machine.pool.shutDown = false := by
  refine ⟨⟨hquiet.calm, fun _ => trivial, .inr ?_⟩, (hquiet.level trivial).opened⟩
  exact ⟨hquiet.ledger.tasks, hquiet.ledger.places, hquiet.ledger.free⟩

end MarkSweep.Machine
