import MarkSweep.Proofs.Cycle.History
import MarkSweep.Proofs.Cycle.Resemblance

namespace MarkSweep

/-- Whether some reference that the roots reach names no entry. -/
def Heap.Dangles (heap : Heap) (roots : List Slot) : Prop :=
  ∃ ref, heap.Reaches roots ref ∧ heap.contains ref = false

namespace Machine

open Call

variable {ended : List Bool} {world world₁ world₂ : World}
  {machine machine' machine₁ machine₂ : Machine} {t t' : Thread} {callStacks : List CallStack}
  {result : Except Fault (Option Metrics)}

/-- Whatever a collection comes to with one pool it can come to with another, in the same world or
in one that differs in the marks only. Then the worlds differ in the marks at most, and not at all
if they did not before. -/
def Imitates (pool₁ pool₂ : Pool Job Tally) : Prop :=
  ∀ (world : World) (marks : Marks) (t t' : Thread) (callStacks : List CallStack)
    (policy : Policy) (result : Except Fault (Option Metrics)) (machine₁ : Machine),
    Routine.Returns (Beside (Around True)) (collectStacks callStacks policy) (t, ⟨pool₁, world⟩)
      result (t', machine₁) →
    ∃ machine₂ marks', Routine.Returns (Beside (Around True)) (collectStacks callStacks policy)
        (t, ⟨pool₂, { world with marks }⟩) result (t', machine₂) ∧
      machine₂.env = { machine₁.env with marks := marks' } ∧
      (marks = world.marks → marks' = machine₁.env.marks)

/-- A quiet machine is at rest. -/
theorem Quiet.atRest (hquiet : Quiet ended world machine) : AtRest (Pool.Open ended) machine :=
  hquiet.mono fun _ hidle => ⟨hidle.tasks, hidle.places⟩

/-- Pools in which the same workers have ended and that have nothing left to do cannot be told
apart. -/
theorem Quiet.imitates (hquiet₁ : Quiet ended world₁ machine₁)
    (hquiet₂ : Quiet ended world₂ machine₂) : Imitates machine₁.pool machine₂.pool := by
  intro world marks t t' callStacks policy result after hreturns
  have hresembling : Resembling
      (World.Agrees fun marks₁ marks₂ => marks = world.marks → marks₂ = marks₁) (Pool.Open ended)
      ⟨machine₁.pool, world⟩ ⟨machine₂.pool, { world with marks }⟩ :=
    ⟨⟨marks, rfl, fun hmarks => hmarks⟩, hquiet₁.atRest.setEnv world, hquiet₂.atRest.setEnv _⟩
  obtain ⟨result', after', hreturns', -, hmatch⟩ := mirrors_collectStacks
    (fun _ _ => rfl) callStacks policy t _ _ rfl hresembling _ _ _ hreturns
  cases hmatch with
  | ok hend =>
    obtain ⟨rfl, hresembling'⟩ := hend
    obtain ⟨marks', hworld, hmarks⟩ := hresembling'.worlds
    exact ⟨after', marks', hreturns', hworld, hmarks⟩
  | error hresembling' =>
    obtain ⟨marks', hworld, hmarks⟩ := hresembling'.worlds
    exact ⟨after', marks', hreturns', hworld, hmarks⟩

/-- What a collection that has failed leaves behind: the world that it began in without marks, the
lock free, the pressure raised, the workers sent to rest with nothing left to do, and no trace of
itself for later collections. -/
structure Undone (t : Thread) (machine : Machine) (t' : Thread) (machine' : Machine) : Prop where
  env : machine'.env = { machine.env with marks := {} }
  free : machine'.env.cycle.busy = false
  pressure : machine'.env.cycle.pressure = true
  disabled : machine'.pool.workEnabled = false
  opened : machine'.pool.shutDown = false
  tasks : machine'.pool.inFlight = []
  places : machine'.pool.places = []
  held : t'.held = t.held
  later : Imitates machine'.pool machine.pool
  earlier : Imitates machine.pool machine'.pool

/-- A collection fails where the roots reach a missing entry, and nowhere else. -/
theorem Outcome.error_iff {before after : World} (houtcome : Outcome before callStacks result after)
    (hpressure : before.cycle.pressure = true) :
    (∃ fault, result = .error fault) ↔ before.heap.Dangles (before.roots callStacks) := by
  cases houtcome with
  | unasked hunasked =>
    rw [hpressure] at hunasked
    cases hunasked
  | collected _ hfound =>
    constructor
    · intro hfault
      obtain ⟨fault, hfault⟩ := hfault
      cases hfault
    · intro hdangles
      obtain ⟨ref, hreach, hmissing⟩ := hdangles
      rw [hfound.intact ref hreach] at hmissing
      cases hmissing
  | failed _ hreach hmissing =>
    constructor
    · intro _
      exact ⟨_, hreach, hmissing⟩
    · intro _
      exact ⟨_, rfl⟩

/-- A collection that fails on a quiet machine has undone all that it did. -/
theorem Finished.undone {fault : Fault} (hquiet : Quiet ended machine.env machine)
    (hpressure : machine.env.cycle.pressure = true)
    (hfinished : Finished ended machine.env callStacks t (.error fault) t' machine') :
    Undone t machine t' machine' := by
  have henv : machine'.env = { machine.env with marks := {} } := by
    have houtcome := hfinished.outcome
    generalize machine'.env = after at houtcome
    cases houtcome with
    | failed _ _ _ => rfl
  have hafter := hfinished.quiet
  exact {
    env := henv
    free := hafter.ledger.free
    pressure := by
      rw [henv]
      exact hpressure
    disabled := hfinished.dozing hpressure
    opened := (hafter.level trivial).opened
    tasks := hafter.ledger.tasks
    places := hafter.ledger.places
    held := hfinished.held
    later := hafter.imitates hquiet
    earlier := hquiet.imitates hafter }

/-- A collection that was asked for comes to an end in every course of events. It fails if and only
if the roots reach a reference whose entry is missing, and then undoes all that it did. -/
theorem collectStacks_fails_iff (hreach : Reachable machine)
    (hopen : machine.pool.shutDown = false) (hpressure : machine.env.cycle.pressure = true)
    (hrank : t.held.rank ≤ Level.cycle.rank) (callStacks : List CallStack) (policy : Policy) :
    Routine.Ends (Beside (Around True))
      (fun result after =>
        ((∃ fault, result = .error fault) ↔
          machine.env.heap.Dangles (machine.env.roots callStacks)) ∧
        ∀ fault, result = .error fault → Undone t machine after.1 after.2)
      (collectStacks callStacks policy) (t, machine) := by
  have hquiet := hreach.ready.quiet hopen
  have hcollect := meets_collectQuietly hrank callStacks policy machine hquiet
  refine (hcollect.mono ?_).ends wellFounded_beside
  intro result after hfinished
  refine ⟨hfinished.outcome.error_iff hpressure, ?_⟩
  intro fault hfault
  subst hfault
  exact hfinished.undone hquiet hpressure

/-- A collector with two workers that was asked to collect an empty heap, while a cell of a frame
refers to an object. -/
def severed : Machine where
  pool := Pool.create 2 "gc-worker"
  env :=
    { frames := #[⟨#[some (.object 1)], #[], none⟩]
      cycle := { pressure := true }
      config := .withWorkers 2 }

theorem reachable_severed : Reachable severed := by
  have hpool : Pool.create? 2 "gc-worker" = .ok (Pool.create 2 "gc-worker" : Pool Job Tally) :=
    rfl
  exact .create hpool rfl

/-- Its roots reach an object that is not there. -/
theorem dangles_severed : severed.env.heap.Dangles (severed.env.roots [[0]]) :=
  ⟨.object 1, .root (by decide), by decide⟩

/-- A root with a field that refers to nothing: the collection fails and leaves everything as it
was. -/
theorem collectStacks_fails_severed :
    ∃ fault t' machine',
      Routine.Returns (Beside (Around True)) (collectStacks [[0]] .markAndSweep) ({}, severed)
        (.error fault) (t', machine') ∧
      Undone {} severed t' machine' := by
  have hends := collectStacks_fails_iff reachable_severed rfl rfl (t := {}) (Nat.zero_le _) [[0]]
    .markAndSweep
  obtain ⟨result, ⟨t', machine'⟩, hreturns, hfails, hundone⟩ := hends.exists_returns
  obtain ⟨fault, rfl⟩ := hfails.2 dangles_severed
  exact ⟨fault, t', machine', hreturns, hundone fault rfl⟩

end Machine

end MarkSweep
