import MarkSweep.Proofs.Forum.Operations
import MarkSweep.Proofs.Marking.Jobs
import MarkSweep.Proofs.Mutator.Blank
import MarkSweep.Proofs.Mutator.Storing
import MarkSweep.Proofs.Pool.Shadow

namespace MarkSweep

open Call

variable {α : Type}

namespace World

/-- The world with nothing in the hidden cells of its heap. -/
def blank (world : World) : World := { world with heap := world.heap.blank }

/-- Every array has the shape of the one that was in its place before, unless it is new. -/
def KeepsShapes (new : ArrayEntry → Prop) (before after : World) : Prop :=
  before.heap.KeepsShapes new after.heap

variable {new : ArrayEntry → Prop}

theorem keepsShapes_refl (world : World) : world.KeepsShapes new world :=
  world.heap.keepsShapes_refl

theorem keepsShapes_setSheet (world : World) (sheet : Sheet) (marks : Marks) :
    world.KeepsShapes new (world.setSheet sheet marks) := by
  refine Heap.keepsShapes_of_arrays_eq ?_
  rw [heap_setSheet]

@[simp] theorem sheet_blank (world : World) (sheet : Sheet) :
    world.blank.sheet sheet = world.sheet sheet := by
  cases sheet <;> rfl

/-- Marks can be set under the veil. -/
theorem setSheet_blank (world : World) (sheet : Sheet) (marks : Marks) :
    world.blank.setSheet sheet marks = (world.setSheet sheet marks).blank := by
  cases sheet <;> rfl

/-- A tracer reads elements only. -/
theorem tracer_step_blank (thread : Thread) (world : World) (sheet : Sheet) (tracer : Tracer) :
    tracer.step thread world.blank.heap (world.blank.sheet sheet) =
      tracer.step thread world.heap (world.sheet sheet) := by
  rw [sheet_blank]
  exact Heap.step_blank thread world.heap (world.sheet sheet) tracer

end World

namespace Job

/-- A task does the same with nothing in the hidden cells. -/
theorem step_blank (thread : Thread) (world : World) (job : Job) :
    job.step thread world.blank = (job.step thread world).veiled World.blank := by
  cases job with
  | mark marking =>
    simp only [step, stepMarking, World.tracer_step_blank]
    cases marking.tracer.step thread world.heap (world.sheet marking.sheet) with
    | none =>
      cases marking.rows with
      | nil => rfl
      | cons row rows =>
        simp only
        cases thread.checkEnter .heap <;> rfl
    | some after =>
      cases after with
      | error fault => rfl
      | ok after => simp only [World.setSheet_blank]; rfl
  | markStatics sheet => rfl
  | sweep region live =>
    simp only [step]
    cases thread.checkEnter .heap with
    | error fault => rfl
    | ok _ =>
      have herase := Heap.blank_erase world.heap live region
      simp only [World.blank, herase]
      rfl

/-- A task leaves the shapes of the arrays alone. -/
theorem step_keepsShapes {thread : Thread} {world world' : World} {job : Job}
    (hstep : (∃ rest, job.step thread world = .next world' rest) ∨
      ∃ outcome, job.step thread world = .finish world' outcome) :
    world.KeepsShapes (fun _ => False) world' := by
  obtain rfl | ⟨sheet, marks, rfl⟩ | ⟨live, region, rfl⟩ := step_changes hstep
  · exact World.keepsShapes_refl _
  · exact World.keepsShapes_setSheet world sheet marks
  · exact world.heap.keepsShapes_erase live region

end Job

namespace Heap

/-- A call that makes nothing of hidden cells, and leaves the shapes of the arrays alone. -/
abbrev Blind (call : Call Heap α) : Prop := Call.Blind blank (KeepsShapes fun _ => False) call

theorem blind_guarded_atomic {f : Heap → α × Heap}
    (hf : ∀ heap, f heap.blank = Prod.map id blank (f heap))
    (hmoves : ∀ heap : Heap, heap.KeepsShapes (fun _ => False) (f heap).2) :
    Blind (guarded .heap (atomic f)) :=
  shadows_guarded keepsShapes_refl (shadows_atomic hf hmoves)

theorem blind_guarded_read {f : Heap → α} (hf : ∀ heap, f heap.blank = f heap) :
    Blind (guarded .heap (read f)) :=
  shadows_guarded keepsShapes_refl (shadows_read keepsShapes_refl hf)

theorem blind_readElements (offset : Offset) : Blind (readElements offset) := by
  refine blind_guarded_read fun heap => ?_
  rw [getElem?_arrays_blank, Option.map_map]
  refine congrArg (Option.map · _) (funext fun array => ?_)
  exact congrArg (Prod.mk array.length) array.elements_blank

theorem blind_hasMonitor (offset : Offset) : Blind (hasMonitor offset) :=
  blind_guarded_read fun _ => rfl

theorem blind_insertMonitor (offset : Offset) (monitor : Monitor) :
    Blind (insertMonitor offset monitor) :=
  blind_guarded_atomic (fun _ => rfl) fun _ => keepsShapes_of_arrays_eq rfl

theorem blind_useMonitor {ω : Type} (offset : Offset) (f : Monitor → Except Fault ω × Monitor) :
    Blind (useMonitor offset f) :=
  shadows_guarded keepsShapes_refl (shadows_attempt (fun heap => heap.blank_withMonitor offset f)
    fun heap => heap.keepsShapes_withMonitor offset f)

/-- The entry with nothing in its hidden cells. -/
def Entry.blank : Entry → Entry
  | object payload => object payload
  | array payload => array payload.blank

theorem blank_put (entry : Entry) (offset : Offset) (heap : Heap) :
    entry.blank.put offset heap.blank = (entry.put offset heap).blank := by
  cases entry with
  | object payload => rfl
  | array payload => exact blank_putArray heap offset payload

theorem keepsShapes_put (entry : Entry) (offset : Offset) (heap : Heap) :
    heap.KeepsShapes (fun array => entry = .array array) (entry.put offset heap) := by
  cases entry with
  | object payload => exact keepsShapes_of_arrays_eq rfl
  | array payload => exact keepsShapes_putArray heap offset (.inl rfl)

/-- The deposit of an entry with nothing in its hidden cells. -/
def Deposit.blank : Deposit → Deposit
  | insert offset entry => insert offset entry.blank
  | allocate entry => allocate entry.blank

/-- The entries are the same but for cells that arrays have past their elements. -/
inductive Entry.Alike : Entry → Entry → Prop
  | object (payload : ObjectEntry) : Alike (object payload) (object payload)
  | array {payload payload' : ArrayEntry} (hpayload : payload.Alike payload') :
      Alike (array payload) (array payload')

/-- The deposits store entries that are the same but for such cells. -/
inductive Deposit.Alike : Deposit → Deposit → Prop
  | insert (offset : Offset) {entry entry' : Entry} (hentry : entry.Alike entry') :
      Alike (insert offset entry) (insert offset entry')
  | allocate {entry entry' : Entry} (hentry : entry.Alike entry') :
      Alike (allocate entry) (allocate entry')

/-- Entries that are alike are the same under the veil. -/
theorem Entry.Alike.blank_eq {entry entry' : Entry} (halike : entry.Alike entry') :
    entry'.blank = entry.blank := by
  cases halike with
  | object payload => rfl
  | array hpayload => exact congrArg Entry.array (ArrayEntry.alike_iff_blank_eq.1 hpayload)

theorem Deposit.Alike.blank_eq {deposit deposit' : Deposit} (halike : deposit.Alike deposit') :
    deposit'.blank = deposit.blank := by
  cases halike with
  | insert offset hentry => exact congrArg (Deposit.insert offset) hentry.blank_eq
  | allocate hentry => exact congrArg Deposit.allocate hentry.blank_eq

/-- To store an entry leaves of the heap what there is to be seen of it. -/
theorem shadows_deposit (deposit : Deposit) :
    Shadows blank (KeepsShapes fun array => deposit.entry = .array array) deposit.call
      deposit.blank.call := by
  have hinsert : ∀ offset entry,
      Shadows blank (KeepsShapes fun array => entry = .array array)
        (Deposit.insert offset entry).call (Deposit.insert offset entry.blank).call := by
    intro offset entry
    rw [Deposit.call_insert, Deposit.call_insert]
    refine shadows_guarded keepsShapes_refl (shadows_bind ?reserve fun _ =>
      shadows_bind ?put fun _ => ?ref)
    case reserve =>
      refine shadows_attempt ?_ ?_
      · intro heap
        cases nextAfter offset <;> rfl
      · intro heap
        refine keepsShapes_of_arrays_eq ?_
        cases nextAfter offset <;> rfl
    case put => exact shadows_update (blank_put entry offset) (keepsShapes_put entry offset)
    case ref =>
      have href : entry.blank.ref offset = entry.ref offset := by cases entry <;> rfl
      rw [href]
      exact shadows_pure _
  cases deposit with
  | insert offset entry => exact hinsert offset entry
  | allocate entry =>
    rw [Deposit.blank, Deposit.call_allocate, Deposit.call_allocate]
    refine shadows_bind (shadows_atomic (fun _ => rfl) fun _ => keepsShapes_of_arrays_eq rfl) ?_
    exact fun offset => hinsert offset entry

end Heap

/-- A tracer is given the same time, and takes the same steps. -/
theorem World.blind_trace (sheet : Sheet) (cells : List Slot) :
    Call.Blind blank (KeepsShapes fun _ => False) (trace sheet cells) := by
  have hwithin : ∀ (budget : Nat) (tracer : Tracer),
      Call.Blind blank (KeepsShapes fun _ => False) (traceWithin sheet budget tracer) := by
    intro budget
    induction budget with
    | zero => exact fun _ => shadows_await (fun _ => rfl) fun _ _ _ hact => nomatch hact
    | succ budget ih =>
      intro tracer
      refine shadows_bind (shadows_attemptAs ?_ ?_) ?_
      · intro thread world
        simp only [tracer_step_blank, setSheet_blank]
        rcases tracer.step thread world.heap (world.sheet sheet) with _ | fault | ⟨tracer, marks⟩
        · rfl
        · rfl
        · rfl
      · intro thread world
        rcases tracer.step thread world.heap (world.sheet sheet) with _ | fault | ⟨tracer, marks⟩
        · exact keepsShapes_refl world
        · exact keepsShapes_refl world
        · exact keepsShapes_setSheet world sheet marks
      · rintro (tracer | marked)
        · exact ih tracer
        · exact shadows_pure marked
  refine shadows_bind (shadows_choose ?_ ?_) fun budget => hwithin budget _
  · intro choice world
    have hweight : (Tracer.start cells).weight world.blank.heap (world.blank.sheet sheet) =
        (Tracer.start cells).weight world.heap (world.sheet sheet) := by
      rw [Tracer.weight_start, Tracer.weight_start, sheet_blank]
      exact congrArg (· + _) (world.heap.heapWeight_blank (world.sheet sheet))
    simp only [hweight]
    rfl
  · rintro choice world more world' ⟨⟩
    exact keepsShapes_refl world

namespace Machine

/-- The machine with nothing in the hidden cells of its heap. -/
def blank : Machine → Machine := Worksite.veiled World.blank

/-- The machines are the same but for cells that arrays have past their elements. -/
structure Alike (machine machine' : Machine) : Prop where
  heap : machine.env.heap.Alike machine'.env.heap
  pool : machine'.pool = machine.pool
  env : machine'.env = { machine.env with heap := machine'.env.heap }

/-- Machines are alike if they are the same under the veil. -/
theorem alike_iff_blank_eq {machine machine' : Machine} :
    machine.Alike machine' ↔ machine'.blank = machine.blank := by
  constructor
  · intro halike
    have hheap := Heap.alike_iff_blank_eq.1 halike.heap
    simp only [blank, Worksite.veiled, World.blank]
    rw [halike.env, halike.pool, hheap]
  · intro hblank
    obtain ⟨hpool, henv⟩ := Worksite.mk.inj hblank
    have hheap : machine'.env.heap.blank = machine.env.heap.blank := congrArg World.heap henv
    have hrest := congrArg (fun world : World => { world with heap := machine'.env.heap }) henv
    exact ⟨Heap.alike_iff_blank_eq.2 hheap, hpool, hrest⟩

/-- Every array has the shape of the one that was in its place before, unless it is new. -/
def KeepsShapes (new : ArrayEntry → Prop) (before after : Machine) : Prop :=
  before.env.KeepsShapes new after.env

variable {new : ArrayEntry → Prop}

theorem keepsShapes_refl (machine : Machine) : machine.KeepsShapes new machine :=
  machine.env.keepsShapes_refl

/-- A call that makes nothing of hidden cells, and leaves the shapes of the arrays alone. -/
abbrev Blind (call : Call Machine α) : Prop := Call.Blind blank (KeepsShapes fun _ => False) call

theorem blind_pool {call : Call Machine α} (hcall : Pool.Blind World.blank call) : Blind call := by
  refine hcall.mono fun machine machine' henv => ?_
  rw [KeepsShapes, henv]
  exact machine.env.keepsShapes_refl

theorem shadows_onWorld {call call' : Call World α}
    (hcall : Shadows World.blank (World.KeepsShapes new) call call') :
    Shadows blank (KeepsShapes new) (onWorld call) (onWorld call') :=
  shadows_focus (fun _ => rfl) (fun _ _ => rfl) (fun _ _ h => h) hcall

theorem shadows_onHeap {call call' : Call Heap α}
    (hcall : Shadows Heap.blank (Heap.KeepsShapes new) call call') :
    Shadows blank (KeepsShapes new) (onHeap call) (onHeap call') :=
  shadows_onWorld (shadows_focus (fun _ => rfl) (fun _ _ => rfl) (fun _ _ h => h) hcall)

/-- A call on a part of the world that the heap is no part of. -/
theorem blind_onPart {S : Type} {get : World → S} {set : S → World → World} (call : Call S α)
    (hget : ∀ world, get world.blank = get world)
    (hset : ∀ s world, set s world.blank = (set s world).blank)
    (hheap : ∀ s world, (set s world).heap = world.heap) :
    Blind (onWorld (call.focus get set)) := by
  refine shadows_onWorld (shadows_focus hget hset ?_ (blind_id call))
  intro s world _
  exact Heap.keepsShapes_of_arrays_eq (congrArg Heap.arrays (hheap s world))

theorem blind_onFrames (call : Call Frames α) : Blind (onFrames call) :=
  blind_onPart call (fun _ => rfl) (fun _ _ => rfl) fun _ _ => rfl

theorem blind_onMethods (call : Call MethodArea α) : Blind (onMethods call) :=
  blind_onPart call (fun _ => rfl) (fun _ _ => rfl) fun _ _ => rfl

theorem blind_onMarks (sheet : Sheet) (call : Call Marks α) : Blind (onMarks sheet call) :=
  blind_onPart call (fun world => world.sheet_blank sheet)
    (fun marks world => world.setSheet_blank sheet marks)
    fun marks world => world.heap_setSheet sheet marks

theorem blind_readStats : Blind (onHeap Heap.readStats) :=
  shadows_onHeap (Heap.blind_guarded_read Heap.stats_blank)

theorem blind_emit (event : Event) : Blind (emit event) := shadows_emit keepsShapes_refl event

theorem blind_scan (sheet : Sheet) (callStacks : List CallStack) :
    Blind (scan sheet callStacks) := by
  have hspawn : ∀ group frames, Blind (spawnFrames sheet group frames) := by
    intro group frames
    induction frames with
    | nil => exact shadows_pure _
    | cons frame frames ih =>
      refine shadows_bind (blind_pool (Pool.blind_spawnMember group _ 0)) ?_
      rintro (failure | ⟨⟩)
      · exact shadows_pure _
      · refine shadows_bind (blind_pool (Pool.blind_spawnMember group _ 0)) ?_
        rintro (failure | ⟨⟩)
        · exact shadows_pure _
        · exact ih
  refine shadows_bind (blind_pool Pool.blind_newGroup) fun group => ?_
  refine shadows_bind (hspawn group callStacks.flatten) ?_
  rintro (failure | ⟨⟩)
  · exact shadows_bind (blind_pool (Pool.blind_abandonGroup group)) fun _ => shadows_pure _
  · refine shadows_bind (blind_pool (Pool.blind_submit _ 0)) fun id => ?_
    refine shadows_bind (blind_pool (Pool.blind_tryJoin id)) fun statics => ?_
    exact shadows_bind (blind_pool (Pool.blind_waitGroup group)) fun frames => shadows_pure _

theorem blind_sweep (live : LiveSet) : Blind (sweep live) := by
  refine shadows_bind (blind_pool (Pool.blind_submit _ 0)) fun objects => ?_
  refine shadows_bind (blind_pool (Pool.blind_submit _ 0)) fun arrays => ?_
  refine shadows_bind (blind_pool (Pool.blind_submit _ 0)) fun monitors => ?_
  refine shadows_bind (blind_pool (Pool.blind_tryJoin objects)) fun objects => ?_
  refine shadows_bind (blind_pool (Pool.blind_tryJoin arrays)) fun arrays => ?_
  exact shadows_bind (blind_pool (Pool.blind_tryJoin monitors)) fun monitors => shadows_pure _

theorem blind_markPhase (callStacks : List CallStack) : Blind (markPhase callStacks) := by
  refine shadows_inSpan keepsShapes_refl (shadows_bind blind_readStats fun stats => ?_)
  refine shadows_bind (blind_emit _) fun _ => ?_
  refine shadows_bind (blind_scan .collector callStacks) fun answer => ?_
  refine shadows_bind (shadows_orFault answer) fun scan => ?_
  refine shadows_bind (blind_onMarks .collector _) fun objects => ?_
  refine shadows_bind (blind_onMarks .collector _) fun arrays => ?_
  refine shadows_bind (blind_onMarks .collector _) fun live => ?_
  exact shadows_bind (blind_emit _) fun _ => shadows_pure _

theorem blind_sweepPhase (found : MarkResult) : Blind (sweepPhase found) := by
  refine shadows_inSpan keepsShapes_refl (shadows_bind (blind_emit _) fun _ => ?_)
  refine shadows_bind (blind_sweep found.live) fun answer => ?_
  refine shadows_bind (shadows_orFault answer) fun swept => ?_
  exact shadows_bind (blind_emit _) fun _ => shadows_pure _

/-- No phase of a collection sees what is behind the elements. -/
theorem blind_runCycle (callStacks : List CallStack) (policy : Policy) :
    Blind (runCycle callStacks policy) := by
  refine shadows_inSpan keepsShapes_refl (shadows_andFinally ?phases ?rest)
  case phases =>
    refine shadows_bind (blind_onMarks .collector _) fun _ => ?_
    refine shadows_bind (blind_pool Pool.blind_signalWork) fun _ => ?_
    refine shadows_bind (blind_markPhase callStacks) fun found => ?_
    exact shadows_bind (blind_sweepPhase found) fun swept => shadows_pure _
  case rest =>
    exact shadows_bind (blind_onMarks .collector _) fun _ => blind_pool Pool.blind_signalWait

/-- Whether the cycle lock is free has nothing to do with the heap. -/
theorem blind_onCycle (f : CycleState → α × CycleState) : Blind (onCycle f) := by
  refine shadows_guarded keepsShapes_refl (shadows_await ?_ ?_)
  · intro machine
    change (if machine.env.cycle.busy then _ else _) = _
    split <;> rfl
  · intro machine a machine' hact
    split at hact <;> cases hact
    exact keepsShapes_refl machine

theorem blind_withCycleLock {body : Call Machine α} (hbody : Blind body) :
    Blind (withCycleLock body) := by
  refine shadows_guarded keepsShapes_refl (shadows_bind (shadows_await ?_ ?_) fun _ => ?_)
  · intro machine
    change (if machine.env.cycle.busy then _ else _) = _
    split <;> rfl
  · intro machine a machine' hact
    split at hact <;> cases hact
    exact keepsShapes_refl machine
  · exact shadows_andFinally hbody (shadows_update (fun _ => rfl) keepsShapes_refl)

/-- An offer to collect neither sees nor tells what is behind the elements. -/
theorem blind_collectStacks (callStacks : List CallStack) (policy : Policy) :
    Blind (collectStacks callStacks policy) := by
  refine blind_withCycleLock (shadows_bind ?pressure ?_)
  case pressure => exact shadows_onWorld (shadows_read World.keepsShapes_refl fun _ => rfl)
  rintro (_ | _)
  · exact shadows_pure none
  · refine shadows_bind (blind_pool (Pool.blind_inspect _)) ?_
    rintro (_ | _)
    · refine shadows_bind (blind_runCycle callStacks policy) fun metrics => ?_
      exact shadows_onWorld (shadows_atomic (fun _ => rfl) World.keepsShapes_refl)
    · exact shadows_bind (blind_emit _) fun _ => shadows_pure none

theorem blind_notifyAllocation : Blind notifyAllocation := by
  refine shadows_bind ?condition fun condition => shadows_bind blind_readStats fun stats => ?_
  case condition => exact shadows_onWorld (shadows_read World.keepsShapes_refl fun _ => rfl)
  refine shadows_bind (shadows_ofExcept _) ?_
  rintro (_ | _)
  · exact shadows_pure false
  · exact shadows_bind (blind_onCycle _) fun _ => shadows_pure true

end Machine

namespace Forum

open Machine

variable {ω : Type}

namespace Operation

/-- The operation with nothing in the hidden cells of what it stores. -/
def blank : Operation ω → Operation ω
  | store deposit => store deposit.blank
  | operation => operation

/-- Whether an operation stores this array. -/
def Stores : Operation ω → ArrayEntry → Prop
  | store deposit, array => deposit.entry = .array array
  | _, _ => False

end Operation

theorem shadows_answering {new : ArrayEntry → Prop} {respond : α → Response ω}
    {call call' : Call Machine α} (hcall : Shadows Machine.blank (KeepsShapes new) call call') :
    Shadows Machine.blank (KeepsShapes new) (answering respond call) (answering respond call') :=
  shadows_bind hcall fun a => shadows_pure (respond a)

/-- An operation does on the machine when blank what it does on the machine, and the only array that
it brings in is one that it stores. -/
theorem shadows_call (operation : Operation ω) :
    Shadows Machine.blank (KeepsShapes operation.Stores) operation.call operation.blank.call := by
  cases operation with
  | store deposit => exact shadows_answering (shadows_onHeap (Heap.shadows_deposit deposit))
  | insertMonitor offset monitor =>
    exact shadows_answering (shadows_onHeap (Heap.blind_insertMonitor offset monitor))
  | writeField offset index value =>
    exact shadows_answering (shadows_onHeap (Heap.blind_guarded_atomic
      (fun heap => heap.blank_setField offset index value)
      fun heap => heap.keepsShapes_setField offset index value))
  | writeElement offset index value =>
    exact shadows_answering (shadows_onHeap (Heap.blind_guarded_atomic
      (fun heap => heap.blank_setElement offset index value)
      fun heap => heap.keepsShapes_setElement offset index value))
  | readFields offset =>
    exact shadows_answering (shadows_onHeap (Heap.blind_guarded_read
      fun heap => heap.slotsOf?_blank _))
  | readElements offset =>
    exact shadows_answering (shadows_onHeap (Heap.blind_readElements offset))
  | hasEntry ref =>
    exact shadows_answering (shadows_onHeap (Heap.blind_guarded_read
      fun heap => heap.contains_blank ref))
  | hasMonitor offset => exact shadows_answering (shadows_onHeap (Heap.blind_hasMonitor offset))
  | useMonitor offset use =>
    exact shadows_answering (shadows_onHeap (Heap.blind_useMonitor offset use.run))
  | readStats => exact shadows_answering blind_readStats
  | sweepRegion live region =>
    exact shadows_answering (shadows_onHeap (Heap.blind_guarded_atomic
      (fun heap => heap.blank_erase live region) fun heap => heap.keepsShapes_erase live region))
  | pushFrame _ _ _ | writeRow _ _ _ _ | readRow _ _ => exact shadows_answering (blind_onFrames _)
  | loadClass _ | writeStatic _ _ _ | readStatics _ => exact shadows_answering (blind_onMethods _)
  | mark sheet _ | isMarked sheet _ | countMarks sheet _ | clearKind sheet _ | clearMarks sheet
  | freezeMarks sheet => exact shadows_answering (blind_onMarks sheet _)
  | trace sheet cells => exact shadows_answering (shadows_onWorld (World.blind_trace sheet cells))
  | scan sheet callStacks => exact shadows_answering (blind_scan sheet callStacks)
  | sweep live => exact shadows_answering (blind_sweep live)
  | signalWork => exact shadows_answering (blind_pool Pool.blind_signalWork)
  | signalWait => exact shadows_answering (blind_pool Pool.blind_signalWait)
  | requestCollection | isCollectionRequested | lastMetrics | totalCollections =>
    exact shadows_answering (blind_onCycle _)
  | notifyAllocation => exact shadows_answering blind_notifyAllocation
  | collectStacks callStacks policy =>
    exact shadows_answering (blind_collectStacks callStacks policy)
  | shutdown => exact shadows_answering (blind_withCycleLock (blind_pool Pool.blind_finalize))

end Forum

end MarkSweep
