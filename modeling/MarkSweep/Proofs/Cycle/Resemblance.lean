import MarkSweep.Proofs.Cycle.Collection
import MarkSweep.Proofs.Cycle.Toiling

namespace MarkSweep

/-- Worlds that differ at most in the marks of the collector, which correspond by `M`. -/
def World.Agrees (M : Marks → Marks → Prop) (world₁ world₂ : World) : Prop :=
  ∃ marks, world₂ = { world₁ with marks } ∧ M world₁.marks marks

namespace Machine

open Call

variable {α : Type} {held : Held} {ended : List Bool} {machine machine' : Machine}
  {L L' : Pool Job Tally → Prop} {φ ψ : World → World → Prop} {M : Marks → Marks → Prop}
  {E : Machine → Machine → Prop}

/-- The pool has nothing left to do. -/
abbrev AtRest (L : Pool Job Tally → Prop) : Machine → Prop :=
  Holds True L fun l => l.tasks = [] ∧ l.places = []

/-- Workers that have nothing to do leave the world alone. -/
theorem AtRest.around (hL : Steady L) (hrest : AtRest L machine)
    (haround : Around True machine machine') : AtRest L machine' ∧ machine'.env = machine.env := by
  have hkept : Kept True fun l : Ledger Job World Tally =>
      l.tasks = [] ∧ l.places = [] ∧ l.env = machine.env :=
    ⟨Ledger.kept_of_rest fun _ hl => ⟨hl.1, hl.2.1⟩, fun hothers => absurd trivial hothers⟩
  have hafter := stable_holds hL hkept machine machine'
    ⟨hrest.calm, hrest.level, hrest.ledger.1, hrest.ledger.2, rfl⟩ haround
  exact ⟨⟨hafter.calm, hafter.level, hafter.ledger.1, hafter.ledger.2.1⟩, hafter.ledger.2.2⟩

/-- What is done to the world does not concern a pool at rest. -/
theorem AtRest.setEnv (hrest : AtRest L machine) (env : World) :
    AtRest L { machine with env } :=
  ⟨hrest.calm, hrest.level, hrest.ledger⟩

/-- Two pools at rest in worlds that correspond by `φ`. -/
structure Resembling (φ : World → World → Prop) (L : Pool Job Tally → Prop)
    (machine₁ machine₂ : Machine) : Prop where
  worlds : φ machine₁.env machine₂.env
  rest₁ : AtRest L machine₁
  rest₂ : AtRest L machine₂

theorem follows_resembling (hL : Steady L) : Follows (Around True) (Resembling φ L) := by
  intro machine₁ machine₂ machine₁' hresembling haround
  obtain ⟨hrest, henv⟩ := hresembling.rest₁.around hL haround
  refine ⟨machine₂, .refl, ?_, hrest, hresembling.rest₂⟩
  rw [henv]
  exact hresembling.worlds

/-- A step on the world that has the same answer in both. -/
theorem mirrors_world {f : World → α × World} (hL : Steady L)
    (hf : ∀ world₁ world₂, φ world₁ world₂ →
      (f world₂).1 = (f world₁).1 ∧ ψ (f world₁).2 (f world₂).2) :
    Mirrors (Around True) held (Resembling φ L) (onWorld (atomic f)) (onWorld (atomic f))
      (fun a₁ a₂ machine₁ machine₂ => a₂ = a₁ ∧ Resembling ψ L machine₁ machine₂) E := by
  unfold onWorld
  rw [focus_atomic]
  refine mirrors_atomic (follows_resembling hL) fun machine₁ machine₂ hresembling => ?_
  obtain ⟨hsame, hworlds⟩ := hf _ _ hresembling.worlds
  exact ⟨hsame, hworlds, hresembling.rest₁.setEnv _, hresembling.rest₂.setEnv _⟩

/-- A change of the flags of both pools, after which the workers may be woken. -/
theorem mirrors_change {f : Pool Job Tally → Pool Job Tally} (hL : Steady L)
    (hf : ∀ pool, L pool → pool.Stirred (f pool) ∧ (f pool).shutDown = pool.shutDown ∧
      L' (f pool)) :
    Mirrors (Around True) held (Resembling φ L) (Pool.change f) (Pool.change f)
      (fun _ _ => Resembling φ L') E := by
  refine mirrors_update (follows_resembling hL) fun machine₁ machine₂ hresembling => ?_
  have hrest : ∀ {machine : Machine}, AtRest L machine →
      AtRest L' { machine with pool := f machine.pool } := by
    intro machine hrest
    obtain ⟨hstirred, hshut, hlevel⟩ := hf _ (hrest.level trivial)
    exact hrest.of_stirred hstirred hshut fun _ _ => hlevel
  exact ⟨hresembling.worlds, hrest hresembling.rest₁, hrest hresembling.rest₂⟩

/-- Workers that are called to work from a resemblance toil alike. -/
theorem mirrors_signalWork (hφ : ∀ world₁ world₂, φ world₁ world₂ → world₂ = world₁) :
    Mirrors (Around True) held (Resembling φ (Pool.Open ended)) Pool.signalWork Pool.signalWork
      (fun _ _ machine₁ machine₂ => ∃ o₁ o₂, Toiling o₁ o₂ ⟨0, 0⟩ machine₁ machine₂) E := by
  refine mirrors_bind (W := fun _ _ => Resembling φ (Pool.Able ended)) ?_ fun _ _ => ?_
  · refine mirrors_change (steady_open ended) fun pool hopen => ?_
    exact ⟨Pool.stirred_of_workers rfl rfl rfl rfl, rfl,
      ⟨⟨hopen.opened, hopen.crew, hopen.manned⟩, rfl⟩⟩
  · unfold Pool.notifyAll
    apply mirrors_update (follows_resembling (steady_able ended))
    intro machine₁ machine₂ hresembling
    exact ⟨_, _, hφ _ _ hresembling.worlds, Pool.alike_wakeAll hresembling.rest₁.calm
      hresembling.rest₂.calm (hresembling.rest₁.level trivial) (hresembling.rest₂.level trivial)
      hresembling.rest₁.ledger hresembling.rest₂.ledger⟩

theorem mirrors_signalWait :
    Mirrors (Around True) held (Resembling φ (Pool.Alert ended)) Pool.signalWait Pool.signalWait
      (fun _ _ => Resembling φ (Pool.Dozing ended)) E := by
  refine mirrors_change (steady_alert ended) fun pool halert => ?_
  exact ⟨Pool.stirred_of_workers rfl rfl rfl rfl, rfl,
    ⟨⟨halert.opened, halert.crew, halert.manned⟩, rfl⟩⟩

/-- Worlds in which the cycle lock is held and that differ at most in the marks. -/
def Locked (M : Marks → Marks → Prop) (world₁ world₂ : World) : Prop :=
  world₁.cycle.busy = true ∧ world₁.Agrees M world₂

/-- Worlds that differ in equal marks are the same. -/
theorem Locked.eq {world₁ world₂ : World} (hlocked : Locked Eq world₁ world₂) :
    world₂ = world₁ := by
  obtain ⟨-, marks, rfl, hmarks⟩ := hlocked
  rw [← hmarks]

/-- Once the marks are forgotten the worlds are the same. -/
theorem mirrors_clear (hL : Steady L) (hrank : held.rank ≤ Level.marks.rank) :
    Mirrors (Around True) held (Resembling (Locked M) L) (onMarks .collector Marks.clear)
      (onMarks .collector Marks.clear) (fun _ _ => Resembling (Locked Eq) L) E := by
  have hfollows : ∀ φ, Follows (Around True) (Resembling φ L) := fun φ => follows_resembling hL
  rw [onMarks_clear]
  refine mirrors_bind (W := fun _ _ => Resembling (Locked fun marks₁ marks₂ =>
    marks₂.objects = marks₁.objects) L) ?_ fun _ _ => ?_
  · unfold Marks.clearKind Call.update
    rw [onMarks_guarded]
    refine mirrors_guarded_atomic hrank (hfollows _) (fun _ _ => hfollows _) ?_
    intro machine₁ machine₂ hresembling
    refine ⟨?_, hresembling.rest₁.setEnv _, hresembling.rest₂.setEnv _⟩
    obtain ⟨hbusy, marks, hworld, -⟩ := hresembling.worlds
    rw [hworld]
    exact ⟨hbusy, _, rfl, rfl⟩
  · unfold Marks.clearKind Call.update
    rw [onMarks_guarded]
    refine mirrors_guarded_atomic hrank (hfollows _) (fun _ _ => hfollows _) ?_
    intro machine₁ machine₂ hresembling
    refine ⟨?_, hresembling.rest₁.setEnv _, hresembling.rest₂.setEnv _⟩
    obtain ⟨hbusy, marks, hworld, hobjects⟩ := hresembling.worlds
    rw [hworld]
    exact ⟨hbusy, _, rfl, congrArg (fun objects => (⟨objects, ∅⟩ : Marks)) hobjects.symm⟩

/-- Both phases leave a pool at rest, whether they fail or not. -/
theorem meets_runPhases_atRest {t : Thread} (hrank : t.held.rank ≤ Level.cycle.rank)
    (callStacks : List CallStack) :
    Meets (Around True) True
      (fun machine => machine.env.cycle.busy = true ∧ AtRest (Pool.Open ended) machine) t
      (runPhases callStacks)
      (fun _ _ machine => machine.env.cycle.busy = true ∧ AtRest (Pool.Alert ended) machine) := by
  intro machine hmachine
  obtain ⟨hbusy, hrest⟩ := hmachine
  have hphases : Meets (Around True) True (Holds True (Pool.Open ended)
      (Resting .collector True machine.env fun heap _ => heap = machine.env.heap)) t
      (runPhases callStacks) _ :=
    meets_runPhases hbusy hrank (fun _ _ hheap => hheap) callStacks
  have hend := hphases machine ⟨hrest.calm, hrest.level, hrest.ledger.1, hrest.ledger.2,
    World.Untouched.refl .collector True _, rfl⟩
  have hrested : ∀ {H : Heap → Marks → Prop} {after : Machine}, after.pool.Calm →
      (True → after.pool.Alert ended) → Resting .collector True machine.env H after.ledger →
        after.env.cycle.busy = true ∧ AtRest (Pool.Alert ended) after := by
    intro H after hcalm hlevel hresting
    refine ⟨?_, hcalm, hlevel, hresting.tasks, hresting.places⟩
    exact (congrArg CycleState.busy hresting.untouched.cycle).trans hbusy
  apply hend.mono
  intro result after hend
  cases result with
  | ok metrics =>
    obtain ⟨found, -, -, -, hholds⟩ := hend
    exact hrested hholds.calm hholds.level hholds.ledger
  | error fault =>
    obtain ⟨failure, -, -, -, hholds⟩ := hend
    obtain ⟨-, ⟨hothers, -⟩ | hresting⟩ := hholds.ledger
    · exact absurd trivial hothers
    · exact hrested hholds.calm hholds.level hresting

/-- Both phases come out the same. -/
theorem mirrors_runPhases (hrank : held.rank ≤ Level.cycle.rank) (callStacks : List CallStack) :
    Mirrors (Around True) held (Resembling (Locked M) (Pool.Open ended)) (runPhases callStacks)
      (runPhases callStacks)
      (fun metrics₁ metrics₂ machine₁ machine₂ => metrics₂ = metrics₁ ∧
        Resembling (Locked Eq) (Pool.Alert ended) machine₁ machine₂)
      (Resembling (Locked Eq) (Pool.Alert ended)) := by
  have hphases : Mirrors (Around True) held (Resembling (Locked M) (Pool.Open ended))
      (runPhases callStacks) (runPhases callStacks)
      (fun metrics₁ metrics₂ machine₁ machine₂ => metrics₂ = metrics₁ ∧
        ∃ o₁ o₂, Toils o₁ o₂ machine₁ machine₂)
      (fun machine₁ machine₂ => ∃ o₁ o₂, Toils o₁ o₂ machine₁ machine₂) := by
    refine mirrors_bind (mirrors_clear (steady_open ended) (Nat.le_trans hrank (by decide)))
      fun _ _ => ?_
    refine mirrors_bind (mirrors_signalWork fun _ _ hlocked => hlocked.eq) fun _ _ => ?_
    refine mirrors_exists fun o₁ => mirrors_exists fun o₂ => ?_
    refine Mirrors.mono (E := Toils o₁ o₂) ?_ (fun _ _ htoiling => htoiling)
      (fun metrics₁ metrics₂ machine₁ machine₂ (hend : metrics₂ = metrics₁ ∧
        Toils o₁ o₂ machine₁ machine₂) => ⟨hend.1, o₁, o₂, hend.2⟩)
      fun _ _ htoils => ⟨o₁, o₂, htoils⟩
    refine mirrors_bind_same (mirrors_markPhase hrank callStacks) fun found => ?_
    refine mirrors_bind_same (mirrors_sweepPhase found) fun swept => ?_
    exact mirrors_pure fun _ _ htoiling => ⟨rfl, _, htoiling⟩
  have hmeets : ∀ t : Thread, t.held = held → Meets (Around True) True
      (fun machine => machine.env.cycle.busy = true ∧ AtRest (Pool.Open ended) machine) t
      (runPhases callStacks)
      (fun _ _ machine => machine.env.cycle.busy = true ∧ AtRest (Pool.Alert ended) machine) :=
    fun t hheld => meets_runPhases_atRest (hheld ▸ hrank) callStacks
  have hresembling : ∀ {machine₁ machine₂ : Machine},
      (∃ o₁ o₂, Toils o₁ o₂ machine₁ machine₂) →
      (machine₁.env.cycle.busy = true ∧ AtRest (Pool.Alert ended) machine₁) →
      (machine₂.env.cycle.busy = true ∧ AtRest (Pool.Alert ended) machine₂) →
      Resembling (Locked Eq) (Pool.Alert ended) machine₁ machine₂ := by
    intro machine₁ machine₂ htoils hrest₁ hrest₂
    obtain ⟨o₁, o₂, n, henv, -⟩ := htoils
    exact ⟨⟨hrest₁.1, _, henv, rfl⟩, hrest₁.2, hrest₂.2⟩
  refine (hphases.and_meets ?_ hmeets hmeets).mono (fun _ _ hresembling => hresembling) ?_ ?_
  · intro machine₁ machine₂ hresembling
    obtain ⟨hbusy, marks, hworld, -⟩ := hresembling.worlds
    refine ⟨⟨hbusy, hresembling.rest₁⟩, ?_, hresembling.rest₂⟩
    rw [hworld]
    exact hbusy
  · intro metrics₁ metrics₂ machine₁ machine₂ hend
    exact ⟨hend.1.1, hresembling hend.1.2 hend.2.1 hend.2.2⟩
  · intro machine₁ machine₂ hend
    exact hresembling hend.1 hend.2.1 hend.2.2

/-- After a collection neither machine has any marks left, so that they agree in all. -/
theorem mirrors_rest (hrank : held.rank ≤ Level.cycle.rank) :
    Mirrors (Around True) held (Resembling (Locked M) (Pool.Alert ended)) rest rest
      (fun _ _ => Resembling (Locked Eq) (Pool.Dozing ended)) E :=
  mirrors_bind (mirrors_clear (steady_alert ended) (Nat.le_trans hrank (by decide)))
    fun _ _ => mirrors_signalWait

/-- A whole collection comes out the same. -/
theorem mirrors_runCycle (hrank : held.rank ≤ Level.cycle.rank) (callStacks : List CallStack)
    (policy : Policy) :
    Mirrors (Around True) held (Resembling (Locked M) (Pool.Open ended))
      (runCycle callStacks policy) (runCycle callStacks policy)
      (fun metrics₁ metrics₂ machine₁ machine₂ => metrics₂ = metrics₁ ∧
        Resembling (Locked Eq) (Pool.Dozing ended) machine₁ machine₂)
      (Resembling (Locked Eq) (Pool.Dozing ended)) := by
  have hdozing : Follows (Around True) (Resembling (Locked Eq) (Pool.Dozing ended)) :=
    follows_resembling (steady_dozing ended)
  refine mirrors_inSpan (follows_resembling (steady_open ended)) ?_ (fun _ _ => hdozing.given)
    hdozing
  refine mirrors_andFinally (mirrors_runPhases hrank callStacks) ?_ (mirrors_rest hrank)
  intro metrics₁ metrics₂
  refine mirrors_given fun hsame => ?_
  exact (mirrors_rest hrank).mono (fun _ _ hresembling => hresembling)
    (fun _ _ _ _ hend => ⟨hsame, hend⟩) fun _ _ hend => hend

theorem Resembling.mono (hφ : ∀ world₁ world₂, φ world₁ world₂ → ψ world₁ world₂)
    (hL : ∀ pool, L pool → L' pool) {machine₁ machine₂ : Machine}
    (hresembling : Resembling φ L machine₁ machine₂) : Resembling ψ L' machine₁ machine₂ :=
  ⟨hφ _ _ hresembling.worlds, hresembling.rest₁.mono_level (hL _),
    hresembling.rest₂.mono_level (hL _)⟩

/-- A collection that has not failed is counted in both worlds. -/
private theorem mirrors_count (metrics : Metrics) :
    Mirrors (Around True) held (Resembling (Locked Eq) (Pool.Dozing ended))
      (onWorld <| .atomic fun world =>
        let total := world.cycle.total + 1
        let metrics := { metrics with totalCollections := total }
        (some metrics,
          { world with
            cycle := { world.cycle with pressure := false, total, lastMetrics := some metrics } }))
      (onWorld <| .atomic fun world =>
        let total := world.cycle.total + 1
        let metrics := { metrics with totalCollections := total }
        (some metrics,
          { world with
            cycle := { world.cycle with pressure := false, total, lastMetrics := some metrics } }))
      (fun metrics₁ metrics₂ machine₁ machine₂ => metrics₂ = metrics₁ ∧
        Resembling (Locked Eq) (Pool.Dozing ended) machine₁ machine₂) E := by
  apply mirrors_world (steady_dozing ended)
  intro world₁ world₂ hlocked
  obtain rfl := hlocked.eq
  exact ⟨rfl, hlocked.1, _, rfl, rfl⟩

/-- A thread that holds the cycle lock brings two machines that differ in marks to the same
answer. -/
theorem mirrors_collectLocked (hM : ∀ marks, M marks marks) (hrank : held.rank ≤ Level.cycle.rank)
    (callStacks : List CallStack) (policy : Policy) :
    Mirrors (Around True) held (Resembling (Locked M) (Pool.Open ended))
      (collectLocked callStacks policy) (collectLocked callStacks policy)
      (fun result₁ result₂ machine₁ machine₂ => result₂ = result₁ ∧
        Resembling (Locked M) (Pool.Open ended) machine₁ machine₂)
      (Resembling (Locked M) (Pool.Open ended)) := by
  have hweaken : ∀ {machine₁ machine₂ : Machine},
      Resembling (Locked Eq) (Pool.Dozing ended) machine₁ machine₂ →
        Resembling (Locked M) (Pool.Open ended) machine₁ machine₂ := by
    intro machine₁ machine₂ hresembling
    refine hresembling.mono ?_ fun _ hdozing => hdozing.toOpen
    intro world₁ world₂ hlocked
    obtain ⟨hbusy, marks, hworld, rfl⟩ := hlocked
    exact ⟨hbusy, _, hworld, hM _⟩
  have hpressure : Mirrors (Around True) held (Resembling (Locked M) (Pool.Open ended))
      (readCycle (·.pressure)) (readCycle (·.pressure))
      (fun a₁ a₂ machine₁ machine₂ => a₂ = a₁ ∧
        Resembling (Locked M) (Pool.Open ended) machine₁ machine₂)
      (Resembling (Locked M) (Pool.Open ended)) := by
    refine mirrors_world (f := fun world => (world.cycle.pressure, world)) (steady_open ended) ?_
    intro world₁ world₂ hlocked
    refine ⟨?_, hlocked⟩
    obtain ⟨-, marks, hworld, -⟩ := hlocked
    rw [hworld]
  refine mirrors_bind_same hpressure fun pressure => ?_
  cases pressure with
  | false => exact mirrors_pure fun _ _ hresembling => ⟨rfl, hresembling⟩
  | true =>
    have hshut : Mirrors (Around True) held (Resembling (Locked M) (Pool.Open ended))
        (Pool.inspect (·.shutDown)) (Pool.inspect (·.shutDown))
        (fun shut₁ shut₂ machine₁ machine₂ => shut₁ = false ∧ shut₂ = false ∧
          Resembling (Locked M) (Pool.Open ended) machine₁ machine₂)
        (Resembling (Locked M) (Pool.Open ended)) := by
      unfold Pool.inspect Call.read
      apply mirrors_atomic (follows_resembling (steady_open ended))
      intro machine₁ machine₂ hresembling
      exact ⟨(hresembling.rest₁.level trivial).opened, (hresembling.rest₂.level trivial).opened,
        hresembling⟩
    apply mirrors_bind_at false false hshut
    refine mirrors_bind_same ((mirrors_runCycle hrank callStacks policy).mono
      (fun _ _ hresembling => hresembling) (fun _ _ _ _ hend => hend) fun _ _ => hweaken)
      fun metrics => ?_
    exact (mirrors_count metrics).mono (fun _ _ hresembling => hresembling)
      (fun _ _ _ _ hend => ⟨hend.1, hweaken hend.2⟩) fun _ _ hend => hend

/-- A collection has the same outcomes on machines that resemble each other, and leaves machines
that resemble each other. A thread that may not take the cycle lock is refused by both. -/
theorem mirrors_collectStacks (hM : ∀ marks, M marks marks) (callStacks : List CallStack)
    (policy : Policy) :
    Mirrors (Around True) held (Resembling (World.Agrees M) (Pool.Open ended))
      (collectStacks callStacks policy) (collectStacks callStacks policy)
      (fun result₁ result₂ machine₁ machine₂ => result₂ = result₁ ∧
        Resembling (World.Agrees M) (Pool.Open ended) machine₁ machine₂)
      (Resembling (World.Agrees M) (Pool.Open ended)) := by
  have hopen : ∀ φ, Follows (Around True) (Resembling φ (Pool.Open ended)) :=
    fun φ => follows_resembling (steady_open ended)
  have hunlock : ∀ {machine₁ machine₂ : Machine},
      Resembling (Locked M) (Pool.Open ended) machine₁ machine₂ →
        Resembling (World.Agrees M) (Pool.Open ended)
          { machine₁ with
            env := { machine₁.env with cycle := { machine₁.env.cycle with busy := false } } }
          { machine₂ with
            env := { machine₂.env with cycle := { machine₂.env.cycle with busy := false } } } := by
    intro machine₁ machine₂ hresembling
    obtain ⟨-, marks, hworld, hmarks⟩ := hresembling.worlds
    refine ⟨⟨marks, ?_, hmarks⟩, hresembling.rest₁.setEnv _, hresembling.rest₂.setEnv _⟩
    rw [hworld]
  rw [collectStacks_eq]
  refine mirrors_guarded (hopen _) (fun _ _ _ hresembling => hresembling) (fun hrank => ?_)
    (fun _ _ => (hopen _).given) (hopen _)
  have hinside : Held.rank (.cycle :: held) ≤ Level.cycle.rank := by
    rw [Held.rank_cons]
    omega
  refine mirrors_bind (W := fun _ _ => Resembling (Locked M) (Pool.Open ended)) ?_
    fun _ _ => mirrors_andFinally (mirrors_collectLocked hM hinside callStacks policy) ?_ ?_
  · refine mirrors_await (hopen _) fun machine₁ machine₂ hresembling a machine₁' hstep => ?_
    obtain ⟨marks, hworld, hmarks⟩ := hresembling.worlds
    have hcycle : machine₂.env.cycle = machine₁.env.cycle := by
      rw [hworld]
    cases hbusy : machine₁.env.cycle.busy with
    | true =>
      simp only [hbusy, if_true] at hstep
      cases hstep
    | false =>
      simp only [hbusy, Bool.false_eq_true, if_false] at hstep
      cases hstep
      simp only [hcycle, hbusy, Bool.false_eq_true, if_false]
      refine ⟨(), _, rfl, ⟨rfl, marks, ?_, hmarks⟩, hresembling.rest₁.setEnv _,
        hresembling.rest₂.setEnv _⟩
      rw [hworld]
  · intro result₁ result₂
    refine mirrors_given fun hsame => ?_
    refine mirrors_update (hopen _) fun machine₁ machine₂ hresembling => ?_
    exact ⟨hsame, hunlock hresembling⟩
  · exact mirrors_update (hopen _) fun machine₁ machine₂ => hunlock

end Machine

end MarkSweep
