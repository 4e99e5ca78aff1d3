import MarkSweep.Proofs.Cycle.History
import MarkSweep.Proofs.Cycle.Neutral

namespace MarkSweep.Machine

open Call
open Routine (Attains)

variable {t : Thread} {machine : Machine} {count : Nat} {callStacks : List CallStack}
  {policy : Policy}

/-- A step of a worker, or of a bystander that does not collect. -/
def Accompanied (machine machine' : Machine) : Prop :=
  (∃ choice i, Worksite.workerStep Job.body choice i machine = some machine') ∨
    Bystanding machine machine' ∧ machine'.env.cycle.total = machine.env.cycle.total

/-- Company that does not collect is company. -/
theorem Accompanied.around {machine machine' : Machine} (hstep : Accompanied machine machine') :
    Around False machine machine' :=
  hstep.imp id fun hstep => ⟨id, hstep.1⟩

/-- So many collections were counted. -/
def Counts (count : Nat) (machine : Machine) : Prop :=
  machine.pool.Plain ∧ machine.env.cycle.total = count

theorem stable_counts (count : Nat) :
    Stable (Beside Accompanied) fun x : Thread × Machine => Counts count x.2 := by
  rintro x y ⟨hplain, htotal⟩ ⟨-, ⟨choice, i, hstep⟩ | ⟨hstep, hsame⟩⟩
  · have hneutral := neutral_workerStep hplain hstep
    exact ⟨hneutral.plain hplain, (congrArg CycleState.total hneutral.cycle).trans htotal⟩
  · exact ⟨hstep.pool.plain hplain, hsame.trans htotal⟩

/-- The work of a collection leaves the count of collections alone. -/
theorem Neutral.counts {machine machine' : Machine} (hneutral : Neutral machine machine')
    (hcounts : Counts count machine) : Counts count machine' :=
  ⟨hneutral.plain hcounts.1, (congrArg CycleState.total hneutral.cycle).trans hcounts.2⟩

/-- How the count stands after a collection that began at `count`. -/
def CountedOn (count : Nat) (result : Except Fault (Option Metrics)) (x : Thread × Machine) :
    Prop :=
  match result with
  | .ok (some metrics) => metrics.totalCollections = count + 1 ∧ Counts (count + 1) x.2
  | _ => Counts count x.2

theorem stable_countedOn (count : Nat) (result : Except Fault (Option Metrics)) :
    Stable (Beside Accompanied) (CountedOn count result) := by
  obtain fault | _ | metrics := result
  · exact stable_counts count
  · exact stable_counts count
  · intro x y hx hstep
    exact ⟨hx.1, stable_counts (count + 1) x y hx.2 hstep⟩

theorem CountedOn.of_counts {result : Except Fault (Option Metrics)} {x y : Thread × Machine}
    (hx : CountedOn count result x) (hcounts : ∀ n, Counts n x.2 → Counts n y.2) :
    CountedOn count result y := by
  obtain fault | _ | metrics := result
  · exact hcounts count hx
  · exact hcounts count hx
  · exact ⟨hx.1, hcounts (count + 1) hx.2⟩

/-- What a thread does that holds the cycle lock. -/
theorem attains_collectLocked_counts (hcounts : Counts count machine) :
    Attains (Beside Accompanied) False (CountedOn count) (collectLocked callStacks policy)
      (t, machine) := by
  refine attains_bind (attains_atomic (f := fun machine => (machine.env.cycle.pressure, machine))
    (stable_counts count) hcounts ?_)
  intro t machine hcounts
  cases machine.env.cycle.pressure with
  | false => exact hcounts
  | true =>
    refine attains_bind (attains_atomic (f := fun machine => (machine.pool.shutDown, machine))
      (stable_counts count) hcounts ?_)
    intro t machine hcounts
    cases machine.pool.shutDown with
    | true =>
      exact attains_bind (attains_onThread (stable_counts count) hcounts fun t machine hcounts =>
        hcounts)
    | false =>
      have hcycle : Call.Respects (fun x y => Counts count x.2 → Counts count y.2) Busy
          (runCycle callStacks policy) :=
        Routine.Respects.mono (isNeutral_runCycle callStacks policy)
          fun x y hneutral hcounts => hneutral.counts hcounts
      refine attains_bind ((hcycle.attains (stable_counts count) hcounts).mono ?_)
      rintro (fault | metrics) x hcounts
      · exact hcounts
      · simp only [onWorld_atomic]
        refine attains_atomic (stable_counts count) hcounts ?_
        rintro t machine ⟨hplain, htotal⟩
        exact ⟨congrArg (· + 1) htotal, hplain, congrArg (· + 1) htotal⟩

/-- A collection in the company of those who leave the count alone. -/
theorem attains_collectStacks_counts (t : Thread) (callStacks : List CallStack) (policy : Policy)
    (hcounts : Counts count machine) :
    Attains (Beside Accompanied) False (CountedOn count) (collectStacks callStacks policy)
      (t, machine) := by
  rw [collectStacks_eq]
  refine attains_bind (attains_onThread (stable_counts count) hcounts ?_)
  intro t machine hcounts
  cases t.enter .cycle with
  | error fault => exact hcounts
  | ok t =>
    refine attains_andFinally (Attains.mono ?_ fun result x hx =>
      attains_onThread (stable_countedOn count result) hx fun t machine hx => hx)
    refine attains_bind (attains_await (stable_counts count) hcounts ?_)
    intro t machine hcounts _ machine' hlock
    split at hlock
    · cases hlock
    · cases hlock
      apply attains_andFinally
      apply (attains_collectLocked_counts _).mono
      · intro result x hx
        unfold update
        apply attains_atomic (stable_countedOn count result) hx
        exact fun t machine hx => hx.of_counts fun n hcounts => hcounts
      · exact hcounts

end MarkSweep.Machine
