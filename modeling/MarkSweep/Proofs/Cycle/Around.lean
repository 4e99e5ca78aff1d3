import MarkSweep.Cycle.Machine
import MarkSweep.Proofs.Company.Call
import MarkSweep.Proofs.Marking.Jobs
import MarkSweep.Proofs.Pool.Progress

namespace MarkSweep

/-- What bystanders leave alone. -/
structure World.Spared (world world' : World) : Prop where
  heap : world'.heap = world.heap
  frames : world'.frames = world.frames
  methods : world'.methods = world.methods
  marks : world'.marks = world.marks
  busy : world'.cycle.busy = world.cycle.busy
  cycle : world.cycle.busy = true → world'.cycle = world.cycle

namespace Machine

/-- A step of a bystander. -/
structure Bystanding (machine machine' : Machine) : Prop where
  pool : machine.pool.Stirred machine'.pool
  shutDown : machine.pool.shutDown = true → machine'.pool.shutDown = true
  world : machine.env.Spared machine'.env

/-- A step of a worker or, if the collector is not alone, of a bystander.

Bystanders may wake workers, change the flags of the pool, shut it down, and change the parts of the
world that a collection does not look at. -/
def Around (alone : Prop) (machine machine' : Machine) : Prop :=
  (∃ choice i, Worksite.workerStep Job.body choice i machine = some machine') ∨
    ¬alone ∧ Bystanding machine machine'

/-- A property of ledgers that workers keep, and bystanders if there are any. -/
structure Kept (alone : Prop) (P : Ledger Job World Tally → Prop) : Prop extends
    Ledger.Kept Job.body P where
  spared : ¬alone → ∀ {l world shut}, P l → l.env.Spared world →
    (l.shutDown = true → shut = true) → P { l with env := world, shutDown := shut }

/-- A property of calm pools that workers keep. -/
def Steady (L : Pool Job Tally → Prop) : Prop :=
  ∀ ⦃machine machine' : Machine⦄ ⦃choice : Choice⦄ ⦃i : Nat⦄, machine.pool.Calm →
    Worksite.workerStep Job.body choice i machine = some machine' → L machine.pool →
      L machine'.pool

/-- The pool is calm and its ledger satisfies `P`. If the collector is alone, the pool satisfies
`L`. -/
structure Holds (alone : Prop) (L : Pool Job Tally → Prop) (P : Ledger Job World Tally → Prop)
    (machine : Machine) : Prop where
  calm : machine.pool.Calm
  level : alone → L machine.pool
  ledger : P machine.ledger

variable {alone : Prop} {L L' : Pool Job Tally → Prop} {P P' : Ledger Job World Tally → Prop}
  {machine machine' : Machine}

theorem steady_open (ended : List Bool) : Steady (Pool.Open ended) :=
  fun _ _ _ _ hcalm hstep => Worksite.workerStep_open Job.body_isPlain hcalm hstep

theorem steady_dozing (ended : List Bool) : Steady (Pool.Dozing ended) :=
  fun _ _ _ _ hcalm hstep => Worksite.workerStep_dozing Job.body_isPlain hcalm hstep

theorem steady_able (ended : List Bool) : Steady (Pool.Able ended) :=
  fun _ _ _ _ hcalm hstep => Worksite.workerStep_able Job.body_isPlain hcalm hstep

theorem steady_alert (ended : List Bool) : Steady (Pool.Alert ended) :=
  fun _ _ _ _ hcalm hstep => Worksite.workerStep_alert Job.body_isPlain hcalm hstep

theorem steady_true : Steady fun _ => True := fun _ _ _ _ _ _ _ => trivial

theorem kept_const (p : Prop) : Kept alone fun _ => p where
  similar := fun hp _ => hp
  turn := fun hp _ => hp
  spared := fun _ _ _ _ hp _ _ => hp

theorem Kept.and (hP : Kept alone P) (hP' : Kept alone P') : Kept alone fun l => P l ∧ P' l where
  similar := fun hl hsimilar => ⟨hP.similar hl.1 hsimilar, hP'.similar hl.2 hsimilar⟩
  turn := fun hl hturn => ⟨hP.turn hl.1 hturn, hP'.turn hl.2 hturn⟩
  spared := fun hothers _ _ _ hl hspared hkeeps =>
    ⟨hP.spared hothers hl.1 hspared hkeeps, hP'.spared hothers hl.2 hspared hkeeps⟩

theorem Kept.or (hP : Kept alone P) (hP' : Kept alone P') : Kept alone fun l => P l ∨ P' l where
  similar := fun hl hsimilar =>
    hl.imp (fun hl => hP.similar hl hsimilar) fun hl => hP'.similar hl hsimilar
  turn := fun hl hturn => hl.imp (fun hl => hP.turn hl hturn) fun hl => hP'.turn hl hturn
  spared := fun hothers _ _ _ hl hspared hkeeps =>
    hl.imp (fun hl => hP.spared hothers hl hspared hkeeps)
      fun hl => hP'.spared hothers hl hspared hkeeps

theorem Kept.exists {ι : Type} {P : ι → Ledger Job World Tally → Prop}
    (hP : ∀ i, Kept alone (P i)) : Kept alone fun l => ∃ i, P i l where
  similar := fun ⟨i, hl⟩ hsimilar => ⟨i, (hP i).similar hl hsimilar⟩
  turn := fun ⟨i, hl⟩ hturn => ⟨i, (hP i).turn hl hturn⟩
  spared := fun hothers _ _ _ ⟨i, hl⟩ hspared hkeeps => ⟨i, (hP i).spared hothers hl hspared hkeeps⟩

/-- A pool that was shut down stays so. -/
theorem kept_closed : Kept alone fun l => l.shutDown = true where
  similar := fun hshut hsimilar => hsimilar.shutDown.trans hshut
  turn := by
    intro l l' hshut hturn
    cases hturn <;> exact hshut
  spared := fun _ _ _ _ hshut _ hkeeps => hkeeps hshut

/-- A pool that somebody else has shut down stays so, whatever else becomes of it. -/
theorem kept_shutDown : Kept alone fun l => ¬alone ∧ l.shutDown = true :=
  (kept_const _).and kept_closed

theorem Holds.mono (hholds : Holds alone L P machine) (hP : ∀ l, P l → P' l) :
    Holds alone L P' machine :=
  ⟨hholds.calm, hholds.level, hP _ hholds.ledger⟩

theorem Holds.mono_level (hholds : Holds alone L P machine)
    (hL : L machine.pool → L' machine.pool) : Holds alone L' P machine :=
  ⟨hholds.calm, fun halone => hL (hholds.level halone), hholds.ledger⟩

/-- In company the pool need not be at any level. -/
theorem Holds.relevel (hholds : Holds False L P machine) : Holds False L' P machine :=
  ⟨hholds.calm, False.elim, hholds.ledger⟩

/-- Wake-ups and changes of the flags do not concern the ledger. -/
theorem Holds.of_stirred {pool : Pool Job Tally} (hholds : Holds alone L P machine)
    (hstirred : machine.pool.Stirred pool) (hshut : pool.shutDown = machine.pool.shutDown)
    (hL : alone → L machine.pool → L' pool) : Holds alone L' P { machine with pool } := by
  refine ⟨hstirred.calm hshut.trans hholds.calm, fun halone => hL halone (hholds.level halone), ?_⟩
  have hsame : Worksite.ledger { machine with pool } = machine.ledger := by
    simp only [Worksite.ledger, hstirred.inFlight, hstirred.places, hstirred.board, hshut]
  rw [hsame]
  exact hholds.ledger

theorem stable_holds (hL : Steady L) (hP : Kept alone P) :
    Stable (Around alone) (Holds alone L P) := by
  rintro machine machine' ⟨hcalm, hlevel, hledger⟩ (⟨choice, i, hstep⟩ | ⟨hothers, hstep⟩)
  · exact ⟨Worksite.workerStep_calm Job.body_isPlain hcalm hstep,
      fun halone => hL hcalm hstep (hlevel halone),
      Worksite.workerStep_ledger Job.body_isPlain hP.toKept hcalm hstep hledger⟩
  · refine ⟨hstep.pool.calm hstep.shutDown hcalm, fun halone => absurd halone hothers, ?_⟩
    have hsame : machine'.ledger =
        { machine.ledger with env := machine'.env, shutDown := machine'.pool.shutDown } := by
      simp only [Worksite.ledger, hstep.pool.inFlight, hstep.pool.places, hstep.pool.board]
    rw [hsame]
    exact hP.spared hothers hledger hstep.world hstep.shutDown

/-- A property of ledgers that these surroundings keep, at whatever level the pool is. -/
structure Firm (env : Machine → Machine → Prop) (alone : Prop)
    (P : Ledger Job World Tally → Prop) : Prop where
  similar : ∀ {l l'}, P l → Ledger.Similar l l' → P l'
  stable : ∀ {L}, Steady L → Stable env (Holds alone L P)

theorem Kept.firm (hP : Kept alone P) : Firm (Around alone) alone P :=
  ⟨hP.similar, fun hL => stable_holds hL hP⟩

theorem Firm.and {env : Machine → Machine → Prop} (hP : Firm env alone P)
    (hP' : Firm env alone P') : Firm env alone fun l => P l ∧ P' l where
  similar := fun hl hsimilar => ⟨hP.similar hl.1 hsimilar, hP'.similar hl.2 hsimilar⟩
  stable := by
    rintro L hL machine machine' ⟨hcalm, hlevel, hledger⟩ hstep
    have hholds := hP.stable hL machine machine' ⟨hcalm, hlevel, hledger.1⟩ hstep
    have hholds' := hP'.stable hL machine machine' ⟨hcalm, hlevel, hledger.2⟩ hstep
    exact ⟨hholds.calm, hholds.level, hholds.ledger, hholds'.ledger⟩

/-- Around a collector that is alone, only the workers do anything. -/
theorem workerStep_of_around (haround : Around True machine machine') :
    ∃ choice i, Worksite.workerStep Job.body choice i machine = some machine' :=
  haround.resolve_right fun hothers => hothers.1 trivial

/-- The surroundings of a collector that is alone come to rest. -/
theorem wellFounded_around : WellFounded fun machine' machine => Around True machine machine' :=
  Subrelation.wf workerStep_of_around (Worksite.wellFounded_workerStep Job.body)

/-- A collector that is alone with an alert pool may wait while anything is left to do. -/
theorem exists_around {ended : List Bool} (halone : alone)
    (hholds : Holds alone (Pool.Alert ended) P machine)
    (hleft : machine.ledger.tasks ≠ [] ∨ machine.ledger.places ≠ []) :
    ∃ machine', Around alone machine machine' := by
  obtain ⟨i, machine', hstep⟩ := Worksite.exists_workerStep Job.body_isPlain hholds.calm
    (hholds.level halone) hleft
  exact ⟨machine', .inl ⟨0, i, hstep⟩⟩

end Machine

end MarkSweep
