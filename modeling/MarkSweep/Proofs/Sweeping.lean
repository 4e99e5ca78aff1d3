import MarkSweep.Proofs.Cycle.Confined
import MarkSweep.Proofs.Cycle.History
import MarkSweep.Proofs.Pool.Attending

namespace MarkSweep.Machine

open Call

variable {live : LiveSet} {machine now : Machine} {t : Thread}

/-- A sweep that was begun with `machine` may come to a moment with `now`, in any company. -/
def SweepsThrough (live : LiveSet) (machine now : Machine) : Prop :=
  ∃ t rest t', Relation.ReflTransGen (Routine.Together (Beside (Around False)))
    (sweep live, t, machine) (rest, t', now)

/-- A sweep that was begun with `machine` may answer with these counts, in any company. -/
def SweepsTo (live : LiveSet) (machine : Machine) (stats : SweepStats) (after : Machine) : Prop :=
  ∃ t t', Routine.Returns (Beside (Around False)) (sweep live) (t, machine) (.ok (.ok stats))
    (t', after)

/-- What comes of a sweep that is begun with `machine`. -/
structure Purges (live : LiveSet) (machine : Machine) : Prop where
  /-- At every moment each container is untouched or swept. -/
  midway : ∀ now, SweepsThrough live machine now → machine.env.heap.Midway live now.env.heap
  /-- No live entry is ever erased. -/
  preserved : ∀ now, SweepsThrough live machine now →
    machine.env.heap.Preserved live now.env.heap
  /-- An answer with counts is exact. Any other says that the pool is shut down. -/
  answer : ∀ t t' result after,
    Routine.Returns (Beside (Around False)) (sweep live) (t, machine) result (t', after) →
      t' = t ∧ Unoccupied after ∧
        ((∃ stats, result = .ok (.ok stats) ∧
            machine.env.heap.Purged live stats after.env.heap) ∨
          result = .ok (.error .poolShutDown) ∧ after.pool.shutDown = true)
  /-- The same sweep on the heap that is left changes nothing. -/
  again : ∀ stats after, SweepsTo live machine stats after → ∀ later, Unoccupied later →
    later.env.heap = after.env.heap →
      (∀ now, SweepsThrough live later now → now.env.heap = later.env.heap) ∧
        ∀ stats' after', SweepsTo live later stats' after' → stats' = ⟨0, 0, 0, 0⟩
  /-- With an open pool at work and nobody else around, there is always such an answer. -/
  ends : machine.pool.Ready → ∀ t, Routine.Ends (Beside (Around True))
    (fun result after => ∃ stats, result = .ok (.ok stats) ∧
      machine.env.heap.Purged live stats after.2.env.heap) (sweep live) (t, machine)

/-- Every step around a sweep and of the sweep itself leaves the heap midway. -/
theorem Unoccupied.midway (hidle : Unoccupied machine) (hsweeps : SweepsThrough live machine now) :
    machine.env.heap.Midway live now.env.heap := by
  obtain ⟨t, rest, t', hsteps⟩ := hsweeps
  have hchores : Chores False (Sweeps live) (fun _ => True) (sweep live) := chores_sweep live
  have hsweep : Call.Respects (fun x y =>
      Shows (Confined live (machine.env.heap.Midway live)) x.2 →
        Shows (Confined live (machine.env.heap.Midway live)) y.2) Busy (sweep live) :=
    Routine.Respects.mono hchores fun _ _ => Chore.confined
  have hstable : Stable (Beside (Around False)) fun x : Thread × Machine =>
      Shows (Confined live (machine.env.heap.Midway live)) x.2 :=
    fun x y hx hstep => stable_holds steady_true
      (kept_confined fun _ region hmidway => hmidway.erase region) x.2 y.2 hx hstep.2
  have hbegin : Shows (Confined live (machine.env.heap.Midway live)) machine := by
    refine ⟨hidle.calm, fun _ => trivial, .refl _ _, fun task hmem => ?_⟩
    have hnone : (Worksite.ledger machine).tasks = [] := hidle.idle
    rw [hnone] at hmem
    cases hmem
  exact (hsweep.holds hstable (s := (t, machine)) hbegin hsteps).ledger.heap

/-- What a sweep answers and leaves, in company or alone. -/
theorem Unoccupied.attains {alone : Prop} (hidle : Unoccupied machine) (ended : List Bool)
    (halert : alone → machine.pool.Alert ended) (live : LiveSet) (t : Thread) :
    Routine.Attains (Beside (Around alone)) alone
      (fun result after => after.1 = t ∧ ∃ answer, result = .ok answer ∧
        Holds alone (Pool.Alert ended)
          (Cleared alone (fun _ => True) machine.env.heap live answer) after.2)
      (sweep live) (t, machine) := by
  have hcarries : Carries alone ended _ (sweep live)
      (Cleared alone (fun _ => True) machine.env.heap live) :=
    carries_cleared (aloof_true alone) machine.env.heap live
  refine (hcarries t machine ?_).mono ?_
  · exact ⟨hidle.calm, halert, hidle.idle, hidle.vacant, trivial, rfl⟩
  · rintro result after ⟨answer, rfl, ht, hholds⟩
    exact ⟨ht, answer, rfl, hholds⟩

/-- The counts of a sweep are those of what its heap has lost. -/
theorem Cleared.purged {alone : Prop} {U : World → Prop} {before : Heap} {stats : SweepStats}
    {l : Ledger Job World Tally} (hcleared : Cleared alone U before live (.ok stats) l) :
    before.Purged live stats l.env.heap := by
  obtain ⟨hstats, hheap⟩ := hcleared.answer
  rw [hstats, hheap]
  exact before.purged_retain live

/-- A sweep by the only user of a pool answers with counts, or says that the pool was shut down. -/
theorem Unoccupied.answer (hidle : Unoccupied machine)
    {t t' : Thread} {result : Except Fault (Except Failure SweepStats)} {after : Machine}
    (hreturns : Routine.Returns (Beside (Around False)) (sweep live) (t, machine) result
      (t', after)) :
    t' = t ∧ Unoccupied after ∧
      ((∃ stats, result = .ok (.ok stats) ∧ machine.env.heap.Purged live stats after.env.heap) ∨
        result = .ok (.error .poolShutDown) ∧ after.pool.shutDown = true) := by
  obtain ⟨ht, answer, rfl, hholds⟩ :=
    (hidle.attains [] False.elim live t).of_returns hreturns
  refine ⟨ht, ⟨hholds.calm, hholds.ledger.tasks, hholds.ledger.places⟩, ?_⟩
  cases answer with
  | ok stats => exact .inl ⟨stats, rfl, hholds.ledger.purged⟩
  | error failure =>
    obtain ⟨rfl, -, hshut⟩ := hholds.ledger.answer
    exact .inr ⟨rfl, hshut⟩

/-- A sweep that answers with counts has purged the heap. -/
theorem Unoccupied.purged {stats : SweepStats} {after : Machine} (hidle : Unoccupied machine)
    (hsweeps : SweepsTo live machine stats after) :
    machine.env.heap.Purged live stats after.env.heap := by
  obtain ⟨t, t', hreturns⟩ := hsweeps
  obtain ⟨-, -, ⟨_, hresult, hpurged⟩ | ⟨hresult, -⟩⟩ := hidle.answer hreturns
  · cases hresult
    exact hpurged
  · cases hresult

/-- A sweep by any live set, on a pool that has nothing else to do, erases exactly what is not live
and counts it, or answers that somebody has shut the pool down and has then erased nothing else. -/
theorem sweep_purges (hidle : Unoccupied machine) (live : LiveSet) : Purges live machine where
  midway now hsweeps := hidle.midway hsweeps
  preserved now hsweeps := (hidle.midway hsweeps).preserved
  answer t t' result after hreturns := hidle.answer hreturns
  again := by
    intro stats after hsweeps later hlater hsame
    have hpurged := hidle.purged hsweeps
    rw [← hsame] at hpurged
    constructor
    · intro now hthrough
      exact hpurged.eq_of_midway (hlater.midway hthrough)
    · intro stats' after' hagain
      exact hpurged.again (hlater.purged hagain)
  ends := by
    intro hready t
    refine ((hidle.attains _ (fun _ => hready.alert) live t).mono ?_).ends wellFounded_beside
    rintro result after ⟨-, answer, rfl, hholds⟩
    cases answer with
    | ok stats => exact ⟨stats, rfl, hholds.ledger.purged⟩
    | error failure =>
      obtain ⟨-, hothers, -⟩ := hholds.ledger.answer
      exact absurd trivial hothers

/-- A heap on which a sweep has two workers. Of its arrays one has more storage than elements. -/
def littered : Machine where
  pool := { Pool.create 2 "gc-worker" with workEnabled := true }
  env :=
    { heap :=
        { objects := ((∅ : Container ObjectEntry).insert 1 {}).insert 2 {}
          arrays :=
            ((∅ : Container ArrayEntry).insert 2 (.ofStorage #[none])).insert 3
              ⟨2, #[none, none, none], by decide⟩
          monitors := (((∅ : Container Monitor).insert 1 {}).insert 2 {}).insert 3 {} }
      config := .withWorkers 2 }

/-- An object and an array are live, and so is an object that is not there. -/
def chosen : LiveSet where
  objects := (∅ : OffsetSet).insert 1 |>.insert 9
  arrays := (∅ : OffsetSet).insert 2

theorem unoccupied_littered : Unoccupied littered := by
  obtain ⟨hcalm, hidle, hvacant⟩ := calm_create 2 "gc-worker"
  exact ⟨⟨hcalm.kept, hcalm.manned, hcalm.heard, hcalm.plain, hcalm.free⟩, hidle, hvacant⟩

theorem ready_littered : littered.pool.Ready := by
  obtain ⟨worker, hmem, hlive⟩ := unoccupied_littered.calm.manned rfl
  exact ⟨rfl, rfl, ⟨worker, hmem, hlive⟩, unoccupied_littered.idle, unoccupied_littered.vacant⟩

/-- One object, one array of two elements and one monitor are swept; the second sweep finds
nothing. -/
theorem sweep_purges_littered :
    Unoccupied littered ∧ Purges chosen littered ∧
      ∃ after, SweepsTo chosen littered ⟨1, 1, 2, 1⟩ after := by
  have hpurges : Purges chosen littered := sweep_purges unoccupied_littered chosen
  refine ⟨unoccupied_littered, hpurges, ?_⟩
  obtain ⟨result, ⟨t', after⟩, hreturns, stats, rfl, hpurged⟩ :=
    (hpurges.ends ready_littered {}).exists_returns
  have hstats : stats = ⟨1, 1, 2, 1⟩ := hpurged.stats_eq.trans (by decide +kernel)
  rw [hstats] at hreturns
  refine ⟨after, {}, t', hreturns.mono ?_⟩
  exact fun _ _ hstep => ⟨hstep.1, .inl (workerStep_of_around hstep.2)⟩

end MarkSweep.Machine
