import MarkSweep.Proofs.Mutator.Roots
import MarkSweep.Proofs.Retention

namespace MarkSweep

/-- What a mutator does that leaves the chain of frames alone. -/
inductive Mutation
  /-- It loads a class, possibly in place of another of the same name. -/
  | load (info : ClassInfo)
  /-- It allocates an object and stores the reference in a cell of a frame at once. -/
  | allocateObject (object : ObjectEntry) (frame : FrameId) (row : FrameRow) (index : Nat)
  /-- It allocates an array and stores the reference in a cell of a frame at once. -/
  | allocateArray (array : ArrayEntry) (frame : FrameId) (row : FrameRow) (index : Nat)
  /-- It writes into a cell of a frame. -/
  | writeRow (frame : FrameId) (row : FrameRow) (index : Nat) (value : Slot)
  /-- It sets a static field of a class. -/
  | writeStatic (id : ClassId) (key : Nat) (value : Slot)
  /-- It overwrites a field of an object. -/
  | writeField (offset : Offset) (index : Nat) (value : Slot)
  /-- It overwrites an element of an array. -/
  | writeElement (offset : Offset) (index : Nat) (value : Slot)
  /-- It asks for a collection. -/
  | request
  /-- It offers to collect over all stacks. -/
  | collect (policy : Policy)

namespace Mutation

open Machine

/-- Stores a new reference in a cell of a frame. -/
def storeIn (frame : FrameId) (row : FrameRow) (index : Nat) (allocate : Call Heap Ref) :
    Call Machine Unit := do
  let ref ← onHeap allocate
  let _ ← onFrames (Frames.writeRow frame row index (some ref))

/-- What a mutator runs for a mutation. -/
def call (callStacks : List CallStack) : Mutation → Call Machine Unit
  | load info => do
    let _ ← onMethods (.atomic (·.load info))
  | allocateObject object frame row index => storeIn frame row index (Heap.allocateObject object)
  | allocateArray array frame row index => storeIn frame row index (Heap.allocateArray array)
  | writeRow frame row index value => do
    let _ ← onFrames (Frames.writeRow frame row index value)
  | writeStatic id key value => onMethods (MethodArea.writeStatic id key value)
  | writeField offset index value => do
    let _ ← onHeap (Heap.writeField offset index value)
  | writeElement offset index value => do
    let _ ← onHeap (Heap.writeElement offset index value)
  | request => requestCollection
  | collect policy => do
    let _ ← collectStacks callStacks policy

/-- The slots that a mutation writes or brings with it. -/
def written : Mutation → List Slot
  | load info => info.staticSlots
  | allocateObject object _ _ _ => slots object
  | allocateArray array _ _ _ => slots array
  | writeRow _ _ _ value | writeStatic _ _ value | writeField _ _ value
  | writeElement _ _ value => [value]
  | request | collect _ => []

end Mutation

/-- A collector and the stacks of its mutators. -/
structure Runtime where
  machine : Machine
  callStacks : List CallStack

namespace Runtime

open Call Machine

/-- What the roots are now. -/
def roots (runtime : Runtime) : List Slot := runtime.machine.env.roots runtime.callStacks

/-- A step of a mutator that writes null and references that the roots reach, or of a worker. -/
inductive Step : Runtime → Runtime → Prop
  /-- A frame is put on a stack; a frame that cannot have its cells leaves the stack empty. -/
  | push {machine : Machine} {callStacks : List CallStack} {stack stack' : CallStack}
      {frames : Frames} {answer : Except Fault FrameId} {i operands locals : Nat}
      (hstack : callStacks[i]? = some stack)
      (hpush : machine.env.frames.push stack operands locals = ((answer, stack'), frames)) :
      Step ⟨machine, callStacks⟩
        ⟨{ machine with env := { machine.env with frames } }, callStacks.set i stack'⟩
  /-- A frame is taken off a stack. -/
  | pop {machine : Machine} {callStacks : List CallStack} {frame : FrameId} {stack : CallStack}
      {i : Nat} (hstack : callStacks[i]? = some (frame :: stack)) :
      Step ⟨machine, callStacks⟩ ⟨machine, callStacks.set i stack⟩
  /-- A thread that holds no lock acts, while the workers go on. -/
  | act {machine machine' : Machine} {callStacks : List CallStack} {mutation : Mutation}
      {t t' : Thread} {result : Except Fault Unit}
      (hreached : ∀ ref, some ref ∈ mutation.written →
        machine.env.heap.Reaches (machine.env.roots callStacks) ref)
      (hheld : t.held = [])
      (hreturns : Routine.Returns (Beside (Around True)) (mutation.call callStacks) (t, machine)
        result (t', machine')) : Step ⟨machine, callStacks⟩ ⟨machine', callStacks⟩
  /-- A worker goes on while no thread acts. -/
  | work {machine machine' : Machine} {callStacks : List CallStack}
      (haround : Around True machine machine') : Step ⟨machine, callStacks⟩ ⟨machine', callStacks⟩

/-- The machine is between collections, and every reference that the roots reach names an entry. -/
structure Sound (runtime : Runtime) : Prop where
  ready : Ready runtime.machine
  opened : runtime.machine.pool.shutDown = false
  intact : runtime.machine.env.heap.Intact runtime.roots

end Runtime

namespace Machine

open Call

variable {ended : List Bool} {world : World} {callStacks : List CallStack} {t : Thread}

/-- The machine is quiet, and every reference that the roots reach names an entry. -/
def Unharmed (ended : List Bool) (callStacks : List CallStack) (machine : Machine) : Prop :=
  ∃ world, Quiet ended world machine ∧ world.heap.Intact (world.roots callStacks)

/-- To write a slot into a cell is harmless where everything would be intact with the slot as
another root. -/
private theorem meets_writeUnharmed {value : Slot} (hheld : t.held = [])
    (hintact : world.heap.Intact (value :: world.roots callStacks)) (frame : FrameId)
    (row : FrameRow) (index : Nat) :
    Meets (Around True) True (Quiet ended world) t
      (do let _ ← onFrames (Frames.writeRow frame row index value))
      fun _ _ => Unharmed ended callStacks := by
  refine meets_discard ((meets_onFrames (Frames.meets_writeRow hheld frame row index value)).mono
    (fun _ hquiet => hquiet) ?_)
  intro result t' machine hend
  obtain ⟨frames, ⟨_, -, -, rfl⟩, hquiet⟩ := hend
  refine ⟨_, hquiet, hintact.of_roots fun ref hmem => .root ?_⟩
  obtain heq | hold := World.mem_roots_setRow hmem
  · exact heq ▸ List.mem_cons_self
  · exact List.mem_cons_of_mem _ hold

/-- What is allocated and made a root at once does no harm. -/
private theorem meets_storeIn {cells : List Slot} {allocate : Call Heap Ref} (hheld : t.held = [])
    (hintact : world.heap.Intact (world.roots callStacks))
    (hcells : ∀ ref, some ref ∈ cells → world.heap.Reaches (world.roots callStacks) ref)
    (hallocate : Meets Nobody True (fun before => before = world.heap) t allocate
      (world.heap.Allocated cells t)) (frame : FrameId) (row : FrameRow) (index : Nat) :
    Meets (Around True) True (Quiet ended world) t (Mutation.storeIn frame row index allocate)
      fun _ _ => Unharmed ended callStacks := by
  refine meets_bind (meets_onHeap hallocate) ?_ ?_
  · intro ref t'
    refine meets_exists fun heap => meets_given fun hallocated => ?_
    obtain ⟨rfl, hstored⟩ := hallocated
    apply meets_writeUnharmed hheld
    apply hstored.intact hintact hcells
    intro next hmem
    obtain heq | hold := List.mem_cons.1 hmem
    · exact .inr (Option.some.inj heq)
    · exact .inl (.root hold)
  · intro fault t' machine hend
    obtain ⟨heap, ⟨-, hslots⟩, hquiet⟩ := hend
    refine ⟨_, hquiet, ?_⟩
    have hover : world.heap.Overwritten none heap := .of_slotsOf? hslots
    refine hover.intact hintact fun ref heq => ?_
    cases heq

private theorem meets_writeIn {call : Call Heap Bool} {value : Slot}
    (hintact : world.heap.Intact (world.roots callStacks))
    (hvalue : ∀ ref, value = some ref → world.heap.Reaches (world.roots callStacks) ref)
    (hcall : Meets Nobody True (fun before => before = world.heap) t call
      (Yields t fun _ after => world.heap.Overwritten value after)) :
    Meets (Around True) True (Quiet ended world) t (do let _ ← onHeap call)
      fun _ _ => Unharmed ended callStacks := by
  refine meets_discard ((meets_onHeap hcall).mono_post ?_)
  intro result t' machine hend
  obtain ⟨heap, ⟨_, -, -, hover⟩, hquiet⟩ := hend
  exact ⟨_, hquiet, hover.intact hintact hvalue⟩

private theorem meets_requestCollection (hheld : t.held = [])
    (hintact : world.heap.Intact (world.roots callStacks)) :
    Meets (Around True) True (Quiet ended world) t requestCollection
      fun _ _ => Unharmed ended callStacks := by
  refine meets_guarded (Thread.enter_of_held_nil hheld) stable_quiet
    (R := fun _ _ => Quiet ended { world with cycle := { world.cycle with pressure := true } })
    ?_ (fun _ _ => stable_quiet) fun _ _ _ hquiet => ⟨_, hquiet, hintact⟩
  apply meets_await stable_quiet
  · intro _ machine hquiet hwait
    have hfree : machine.env.cycle.busy = false := hquiet.ledger.free
    simp only [hfree, Bool.false_eq_true, if_false] at hwait
    cases hwait
  · intro machine hquiet a machine' hstep
    have hfree : machine.env.cycle.busy = false := hquiet.ledger.free
    simp only [hfree, Bool.false_eq_true, if_false, Option.some.injEq, Prod.mk.injEq] at hstep
    obtain ⟨-, rfl⟩ := hstep
    have henv := hquiet.env_eq
    have hworld : world.cycle.busy = false := henv ▸ hfree
    obtain ⟨hcalm, hlevel, hidle⟩ := hquiet
    refine ⟨hcalm, hlevel, hidle.tasks, hidle.places, rfl, hidle.heap, hidle.frames,
      hidle.methods, hidle.marks, fun _ => ?_⟩
    simp only [Worksite.ledger, henv, hworld]

/-- A collection does no harm, and does not fault. -/
private theorem meets_collect (hheld : t.held = [])
    (hintact : world.heap.Intact (world.roots callStacks)) (policy : Policy) :
    Meets (Around True) True (Quiet ended world) t (collectStacks callStacks policy)
      fun result _ machine => (∃ metrics?, result = .ok metrics?) ∧
        Unharmed ended callStacks machine := by
  have hrank : t.held.rank ≤ Level.cycle.rank := by
    rw [hheld]
    exact Nat.zero_le _
  apply (meets_collectQuietly hrank callStacks policy).mono_post
  intro result t' machine hend
  exact ⟨hend.outcome.exists_ok hintact, _, hend.quiet, hend.outcome.intact hintact⟩

private theorem meets_load {info : ClassInfo}
    (hintact : world.heap.Intact (world.roots callStacks))
    (hreached : ∀ ref, some ref ∈ info.staticSlots →
      world.heap.Reaches (world.roots callStacks) ref) :
    Meets (Around True) True (Quiet ended world) t
      (do let _ ← onMethods (.atomic (·.load info))) fun _ _ => Unharmed ended callStacks := by
  have hload : Meets Nobody True (fun before => before = world.methods) t
      (atomic (·.load info) : Call MethodArea ClassId)
      (Yields t fun _ after => after = (world.methods.load info).2) :=
    meets_atomic (stable_nobody _) fun before hbefore => ⟨_, rfl, rfl, hbefore ▸ rfl⟩
  refine meets_discard ((meets_onMethods hload).mono_post ?_)
  intro result t' machine hend
  obtain ⟨methods, ⟨_, -, -, rfl⟩, hquiet⟩ := hend
  refine ⟨_, hquiet, hintact.of_roots fun ref hmem => ?_⟩
  obtain hpreset | hold := World.mem_roots_load hmem
  · exact hreached ref hpreset
  · exact .root hold

/-- What a mutator does keeps every reference that the roots reach from dangling. -/
theorem meets_mutation {mutation : Mutation} (hheld : t.held = [])
    (hintact : world.heap.Intact (world.roots callStacks))
    (hreached : ∀ ref, some ref ∈ mutation.written →
      world.heap.Reaches (world.roots callStacks) ref) :
    Meets (Around True) True (Quiet ended world) t (mutation.call callStacks)
      fun _ _ => Unharmed ended callStacks := by
  have hwritten : ∀ {value : Slot} {ref : Ref}, value ∈ mutation.written → value = some ref →
      world.heap.Reaches (world.roots callStacks) ref := by
    intro value ref hmem heq
    subst heq
    exact hreached ref hmem
  cases mutation with
  | load info => exact meets_load hintact hreached
  | allocateObject object frame row index =>
    exact meets_storeIn hheld hintact hreached (Heap.meets_allocated (.object object) t) frame row
      index
  | allocateArray array frame row index =>
    exact meets_storeIn hheld hintact hreached (Heap.meets_allocated (.array array) t) frame row
      index
  | writeRow frame row index value =>
    apply meets_writeUnharmed hheld
    apply hintact.of_roots
    intro ref hmem
    obtain heq | hold := List.mem_cons.1 hmem
    · exact hwritten List.mem_cons_self heq.symm
    · exact .root hold
  | writeStatic id key value =>
    refine (meets_onMethods (MethodArea.meets_writeStatic hheld id key value)).mono
      (fun _ hquiet => hquiet) ?_
    intro result t' machine hend
    obtain ⟨methods, ⟨_, -, -, rfl⟩, hquiet⟩ := hend
    refine ⟨_, hquiet, hintact.of_roots fun ref hmem => ?_⟩
    obtain heq | hold := World.mem_roots_setStatic hmem
    · exact hwritten List.mem_cons_self heq.symm
    · exact .root hold
  | writeField offset index value =>
    exact meets_writeIn hintact (fun ref heq => hwritten List.mem_cons_self heq)
      (Heap.meets_writeField hheld offset index value)
  | writeElement offset index value =>
    exact meets_writeIn hintact (fun ref heq => hwritten List.mem_cons_self heq)
      (Heap.meets_writeElement hheld offset index value)
  | request => exact meets_requestCollection hheld hintact
  | collect policy =>
    refine meets_discard ((meets_collect hheld hintact policy).mono_post ?_)
    exact fun _ _ _ hend => hend.2

/-- A quiet machine without dangling references is sound. -/
theorem Quiet.sound {machine : Machine} (hquiet : Quiet ended world machine)
    (hintact : world.heap.Intact (world.roots callStacks)) :
    Runtime.Sound ⟨machine, callStacks⟩ := by
  obtain ⟨hready, hopen⟩ := hquiet.ready
  refine ⟨hready, hopen, ?_⟩
  rw [← hquiet.env_eq] at hintact
  exact hintact

end Machine

namespace Runtime

open Call Machine

variable {runtime runtime' : Runtime}

/-- Whatever the mutator does next, no reference dangles that the roots reach. -/
theorem Sound.step (hsound : Sound runtime) (hstep : Step runtime runtime') : Sound runtime' := by
  obtain ⟨hready, hopen, hintact⟩ := hsound
  cases hstep with
  | @push machine callStacks stack stack' frames answer i operands locals hstack hpush =>
    obtain ⟨hcalm, hnone, hsettled⟩ := hready
    refine ⟨⟨hcalm, hnone, hsettled⟩, hopen, hintact.of_roots fun ref hmem => ?_⟩
    obtain hnull | hold := World.mem_roots_push hstack hpush hmem
    · cases hnull
    · exact .root hold
  | @pop machine callStacks frame stack i hstack =>
    refine ⟨hready, hopen, hintact.of_roots fun ref hmem => .root ?_⟩
    refine World.roots_subset ?_ hmem
    intro id hid
    obtain ⟨other, hother, hin⟩ := List.mem_flatten.1 hid
    obtain hother | rfl := List.mem_or_eq_of_mem_set hother
    · exact List.mem_flatten.2 ⟨other, hother, hin⟩
    · exact List.mem_flatten.2 ⟨_, List.mem_of_getElem? hstack, List.mem_cons_of_mem _ hin⟩
  | act hreached hheld hreturns =>
    obtain ⟨world, hquiet, hintact⟩ := (meets_mutation hheld hintact hreached _
      (hready.quiet hopen)).of_returns hreturns
    exact hquiet.sound hintact
  | work haround => exact (stable_quiet _ _ (hready.quiet hopen) haround).sound hintact

theorem Sound.run (hsound : Sound runtime) (hrun : Relation.ReflTransGen Step runtime runtime') :
    Sound runtime' := by
  induction hrun with
  | refl => exact hsound
  | tail _ hstep ih => exact ih.step hstep

/-- Where there are no frames and no classes, the roots reach nothing. -/
theorem sound_create {config : Config} {threads mutators : Nat} {machine : Machine}
    (hcreate : Machine.create? config threads = .ok machine) :
    Sound ⟨machine, List.replicate mutators []⟩ := by
  unfold Machine.create? at hcreate
  cases hpool : (Pool.create? config.workers config.workerName : Except Fault (Pool Job Tally)) with
  | error fault =>
    rw [hpool] at hcreate
    cases hcreate
  | ok pool =>
    rw [hpool] at hcreate
    cases hcreate
    refine ⟨ready_create hpool rfl, ?_, ?_⟩
    · rw [Pool.eq_create hpool]
      rfl
    · intro ref hreach
      refine (hreach.of_closed (P := fun _ => False) ?_ fun _ _ hnever => hnever.elim).elim
      intro ref hmem
      obtain ⟨frame, hframe, -⟩ | ⟨id, hloaded, -⟩ := World.mem_roots.1 hmem
      · obtain ⟨stack, hstack, hframe⟩ := List.mem_flatten.1 hframe
        rw [List.eq_of_mem_replicate hstack] at hframe
        cases hframe
      · obtain ⟨name, hget⟩ := (mem_values_iff _ _).1 hloaded
        have hempty : (∅ : Std.ExtTreeMap String ClassId)[name]? = some id := hget
        rw [Std.ExtTreeMap.getElem?_empty] at hempty
        cases hempty

/-- In every state of a run that begins with nothing, the references that the roots reach name
entries, and a collection over all stacks comes to an end without a fault. -/
theorem run_never_dangles {config : Config} {threads mutators : Nat} {machine : Machine}
    (hcreate : Machine.create? config threads = .ok machine)
    (hrun : Relation.ReflTransGen Step ⟨machine, List.replicate mutators []⟩ runtime) :
    runtime.machine.env.heap.Intact runtime.roots ∧
      ∀ (t : Thread) (policy : Policy), t.held = [] →
        Routine.Ends (Beside (Around True)) (fun result _ => ∃ metrics?, result = .ok metrics?)
          (collectStacks runtime.callStacks policy) (t, runtime.machine) := by
  obtain ⟨hready, hopen, hintact⟩ := (sound_create hcreate).run hrun
  refine ⟨hintact, fun t policy hheld => ?_⟩
  have hcollect := meets_collect hheld hintact policy runtime.machine (hready.quiet hopen)
  refine (hcollect.mono ?_).ends wellFounded_beside
  intro result after hend
  exact hend.1

/-- A heap in which the first offsets have been given to objects with one field each. -/
def singles : (count : Nat) → Heap
  | 0 => {}
  | count + 1 =>
    { (singles count).putObject (.ofNat (count + 1)) ⟨#[none]⟩ with
      nextOffset := .ofNat (count + 2) }

/-- A collector with two workers and one mutator, in whose world this much is there. -/
def scene (objects : Nat) (frames : Frames) (methods : MethodArea) (pressure : Bool) :
    Machine where
  pool := Pool.create 2 "gc-worker"
  env :=
    { config := .withWorkers 2
      safepoint := { registry := ⟨1⟩ }
      heap := singles objects
      frames
      methods
      cycle := { pressure } }

/-- A frame that holds the first object. -/
def lower : Frame := ⟨#[some (.object 1)], #[], none⟩

/-- A frame above it that holds the second object. -/
def upper : Frame := ⟨#[some (.object 2)], #[], some 0⟩

/-- A class whose only static field refers to the second object. -/
def holding : ClassInfo where
  name := "A"
  statics := (∅ : Std.ExtTreeMap Nat Slot).insert 0 (some (.object 2))

/-- Nothing is loaded but `holding`. -/
def loaded : MethodArea := (({} : MethodArea).load holding).2

/-- A class of the same name was loaded in its place. -/
def replaced : MethodArea := (loaded.load { name := "A" }).2

/-- Of two objects the first is held by the frame that is left, and a collection was asked for. -/
def seeded : Machine := scene 2 #[lower, upper] replaced true

/-- A mutation that a thread goes through by itself. -/
theorem Step.of_returns {machine machine' : Machine} {callStacks : List CallStack}
    (mutation : Mutation)
    (hreached : ∀ ref, some ref ∈ mutation.written →
      machine.env.heap.Reaches (machine.env.roots callStacks) ref)
    (hreturns : Routine.Returns (Beside (Around True)) (mutation.call callStacks) ({}, machine)
      (.ok ()) ({}, machine')) : Step ⟨machine, callStacks⟩ ⟨machine', callStacks⟩ :=
  .act hreached rfl hreturns

/-- The mutator pushes two frames and stores a new object in each of them. It loads a class that
refers to the second object, pops the second frame, loads another class in place of that one, and
asks for a collection. -/
theorem run_seeded :
    Relation.ReflTransGen Step ⟨Machine.create (.withWorkers 2) 1, [[]]⟩ ⟨seeded, [[0]]⟩ := by
  have hlower : Frames.push #[] [] 1 0 = ((.ok 0, [0]), #[⟨#[none], #[], none⟩]) := rfl
  have hupper : Frames.push #[lower] [0] 1 0 =
      ((.ok 1, [1, 0]), #[lower, ⟨#[none], #[], some 0⟩]) := rfl
  have hpush : Step ⟨scene 0 #[] {} false, [[]]⟩
      ⟨scene 0 #[⟨#[none], #[], none⟩] {} false, [[0]]⟩ :=
    .push (i := 0) rfl hlower
  have hstore : Step ⟨scene 0 #[⟨#[none], #[], none⟩] {} false, [[0]]⟩
      ⟨scene 1 #[lower] {} false, [[0]]⟩ :=
    .of_returns (.allocateObject ⟨#[none]⟩ 0 .operands 0)
      (fun _ hmem => nomatch List.mem_singleton.1 hmem) (Routine.returns_of_advance rfl)
  have hpush' : Step ⟨scene 1 #[lower] {} false, [[0]]⟩
      ⟨scene 1 #[lower, ⟨#[none], #[], some 0⟩] {} false, [[1, 0]]⟩ :=
    .push (i := 0) rfl hupper
  have hstore' : Step ⟨scene 1 #[lower, ⟨#[none], #[], some 0⟩] {} false, [[1, 0]]⟩
      ⟨scene 2 #[lower, upper] {} false, [[1, 0]]⟩ :=
    .of_returns (.allocateObject ⟨#[none]⟩ 1 .operands 0)
      (fun _ hmem => nomatch List.mem_singleton.1 hmem) (Routine.returns_of_advance rfl)
  have hload : Step ⟨scene 2 #[lower, upper] {} false, [[1, 0]]⟩
      ⟨scene 2 #[lower, upper] loaded false, [[1, 0]]⟩ := by
    refine .of_returns (.load holding) ?_ (Routine.returns_of_advance rfl)
    intro ref hmem
    have hslots : (Mutation.load holding).written = [some (.object 2)] := by decide
    rw [hslots] at hmem
    obtain rfl := Option.some.inj (List.mem_singleton.1 hmem)
    exact .root (World.mem_roots.2 (.inl ⟨1, by decide, .operands, List.mem_singleton.2 rfl⟩))
  have hpop : Step ⟨scene 2 #[lower, upper] loaded false, [[1, 0]]⟩
      ⟨scene 2 #[lower, upper] loaded false, [[0]]⟩ :=
    .pop (i := 0) rfl
  have hreplace : Step ⟨scene 2 #[lower, upper] loaded false, [[0]]⟩
      ⟨scene 2 #[lower, upper] replaced false, [[0]]⟩ := by
    refine .of_returns (.load { name := "A" }) ?_ (Routine.returns_of_advance rfl)
    intro ref hmem
    have hslots : (Mutation.load { name := "A" }).written = [] := by decide
    rw [hslots] at hmem
    cases hmem
  have hrequest : Step ⟨scene 2 #[lower, upper] replaced false, [[0]]⟩ ⟨seeded, [[0]]⟩ :=
    .of_returns .request nofun (Routine.returns_of_advance rfl)
  exact (((((((Relation.ReflTransGen.single hpush).tail hstore).tail hpush').tail hstore').tail
    hload).tail hpop).tail hreplace).tail hrequest

/-- The roots of `seeded` do not reach the second object: nothing refers to it but the cell of a
frame that was popped and the static field of a class that was replaced. -/
theorem not_reaches_seeded : ¬ seeded.env.heap.Reaches (seeded.env.roots [[0]]) (.object 2) := by
  intro hreach
  have hroots : seeded.env.roots [[0]] = [some (.object 1)] := by decide
  have hslots : seeded.env.heap.slotsOf? (.object 1) = some [none] := by decide
  rw [hroots] at hreach
  have hfirst : Ref.object 2 = .object 1 := by
    apply hreach.of_closed (P := fun ref => ref = .object 1)
    · exact fun _ hmem => Option.some.inj (List.mem_singleton.1 hmem)
    · intro ref cells heq hcells next hmem
      rw [heq, hslots] at hcells
      cases hcells
      cases List.mem_singleton.1 hmem
  cases hfirst

/-- Its workers alone can bring the collection to an end that was asked for. -/
theorem exists_run_collected :
    ∃ machine, Relation.ReflTransGen Step ⟨Machine.create (.withWorkers 2) 1, [[]]⟩
      ⟨machine, [[0]]⟩ ∧ seeded.env.heap.Retained (seeded.env.roots [[0]]) machine.env.heap := by
  have hcreate : Machine.create? (.withWorkers 2) 1 = .ok (Machine.create (.withWorkers 2) 1) := rfl
  have hnew : Sound ⟨Machine.create (.withWorkers 2) 1, List.replicate 1 []⟩ := sound_create hcreate
  have hsound : Sound ⟨seeded, [[0]]⟩ := hnew.run run_seeded
  obtain ⟨hready, hopen, hintact⟩ := hsound
  obtain ⟨ended, hquiet⟩ : ∃ ended, Quiet ended seeded.env seeded := ⟨_, hready.quiet hopen⟩
  have hcollect : Meets (Around True) True (Quiet ended seeded.env) {}
      (Mutation.call [[0]] (.collect .markAndSweep))
      fun _ _ machine => ∃ result, Machine.Outcome seeded.env [[0]] result machine.env :=
    meets_discard ((meets_collectQuietly (Nat.zero_le _) [[0]] .markAndSweep).mono_post
      fun result _ _ hfinished => ⟨result, hfinished.outcome⟩)
  obtain ⟨_, ⟨t', machine⟩, hreturns, result, houtcome⟩ :=
    ((hcollect seeded hquiet).ends wellFounded_beside).exists_returns
  have hwritten : ∀ ref, some ref ∈ (Mutation.collect .markAndSweep).written →
      seeded.env.heap.Reaches (seeded.env.roots [[0]]) ref := nofun
  have hstep : Step ⟨seeded, [[0]]⟩ ⟨machine, [[0]]⟩ := .act hwritten rfl hreturns
  refine ⟨machine, run_seeded.tail hstep, ?_⟩
  replace houtcome : Machine.Outcome seeded.env [[0]] result machine.env := houtcome
  generalize machine.env = world at houtcome ⊢
  cases houtcome with
  | unasked hpressure => cases hpressure
  | collected _ hfound => exact Heap.retained_retain hfound.live
  | failed _ hreach hmissing =>
    rw [hintact _ hreach] at hmissing
    cases hmissing

/-- The first object is still there after the collection and the second is not, nothing dangles,
and the next collection comes to an end as well. -/
theorem run_never_dangles_seeded :
    ∃ machine, Relation.ReflTransGen Step ⟨Machine.create (.withWorkers 2) 1, [[]]⟩
        ⟨machine, [[0]]⟩ ∧
      machine.env.heap.objects[(1 : Offset)]? = some ⟨#[none]⟩ ∧
      machine.env.heap.objects[(2 : Offset)]? = none ∧
      machine.env.heap.Intact (machine.env.roots [[0]]) ∧
      ∀ (t : Thread) (policy : Policy), t.held = [] →
        Routine.Ends (Beside (Around True)) (fun result _ => ∃ metrics?, result = .ok metrics?)
          (collectStacks [[0]] policy) (t, machine) := by
  have hcreate : Machine.create? (.withWorkers 2) 1 = .ok (Machine.create (.withWorkers 2) 1) := rfl
  obtain ⟨machine, hrun, hretained⟩ := exists_run_collected
  have hstart : Relation.ReflTransGen Step
      ⟨Machine.create (.withWorkers 2) 1, List.replicate 1 []⟩ ⟨machine, [[0]]⟩ := hrun
  have hsafe := run_never_dangles hcreate hstart
  refine ⟨machine, hrun, (hretained.objects 1 _).2 ⟨rfl, .root (by decide)⟩, ?_, hsafe⟩
  refine Option.eq_none_iff_forall_not_mem.2 fun entry hentry => ?_
  exact not_reaches_seeded ((hretained.objects 2 entry).1 hentry).2

end Runtime

end MarkSweep
