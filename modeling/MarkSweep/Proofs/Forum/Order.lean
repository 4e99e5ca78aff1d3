import MarkSweep.Proofs.Forum.Operations
import MarkSweep.Proofs.Marking.Jobs
import MarkSweep.Proofs.Pool.Order

namespace MarkSweep

open Call

variable {α : Type} {start : Numbering} {calm : Prop} {V : α → Prop} {held : Held} {level : Level}

/-- The wording of a missing entry is not that of a lock out of order. -/
theorem not_tellsDisorder_missingEntry (ref : Ref) :
    ¬TellsDisorder (Fault.missingEntry ref).payload.message := by
  rintro ⟨level, held, heq⟩
  have hhead := congrArg (fun message => message.toList.head?) heq
  simp [Fault.payload, Payload.message] at hhead

/-- A task of a collection faults only where an entry is missing. -/
theorem Job.isOrderly_body : Job.body.IsOrderly := by
  intro name thread world job world' payload hfree hstep
  change job.step thread world = .finish world' (.fault payload) at hstep
  have hmissing : ∃ ref, payload = (Fault.missingEntry ref).payload := by
    cases job with
    | mark marking =>
      have hmarks : Marks marking.sheet (.mark marking) := rfl
      obtain ⟨-, ⟨⟨_, hvalue, -⟩, -⟩ | ⟨ref, -, -, hfault⟩⟩ := step_finish hmarks hfree hstep
      · cases hvalue
      · cases hfault
        exact ⟨ref, rfl⟩
    | markStatics sheet => cases hstep
    | sweep region live =>
      simp only [step, Thread.checkEnter_of_held_nil thread hfree] at hstep
      cases hstep
  obtain ⟨ref, rfl⟩ := hmissing
  exact not_tellsDisorder_missingEntry ref

/-- The condition on which an allocation asks for a collection is the standard one. -/
def World.IsStandard (world : World) : Prop := world.condition = standardCondition

/-- Whether a collection is asked for in the standard way has nothing to do with marks. -/
theorem World.isStandard_setSheet {world : World} {sheet : Sheet} {marks : Marks}
    (h : world.IsStandard) : (world.setSheet sheet marks).IsStandard := by
  cases sheet <;> exact h

/-- The tasks of a collection have no say in the condition. -/
theorem Job.preserves_isStandard : Job.body.Preserves World.IsStandard := by
  intro name thread world job world' hstandard hstep
  obtain rfl | ⟨sheet, marks, rfl⟩ | ⟨live, region, rfl⟩ := step_changes hstep
  · exact hstandard
  · exact World.isStandard_setSheet hstandard
  · exact hstandard

/-- Nothing is required of a part of the world. -/
abbrev Anyhow {S : Type} (_ : S) : Prop := True

section Parts

/-- A single step with a level held. -/
theorem tidy_guarded_atomic {S : Type} {f : S → α × S} (hrank : calm → held.rank ≤ level.rank) :
    Tidy Anyhow calm Anyhow held (guarded level (atomic f)) :=
  tidy_guarded hrank (tidy_atomic fun _ _ => ⟨trivial, trivial⟩)

/-- Storing an entry is tidy below the level of the heap. -/
theorem Heap.Deposit.tidy_call (hrank : calm → held.rank ≤ Level.heap.rank)
    (deposit : Heap.Deposit) : Tidy Anyhow calm Anyhow held deposit.call := by
  have hinsert : ∀ offset entry, Tidy Anyhow calm Anyhow held
      (Heap.Deposit.insert offset entry).call := by
    intro offset entry
    rw [call_insert]
    refine tidy_guarded hrank (tidy_seq (tidy_attempt fun heap _ => ⟨trivial, ?_⟩) fun _ =>
      tidy_seq (tidy_update fun _ _ => trivial) fun _ => tidy_pure trivial)
    unfold nextAfter
    by_cases hlast : offset.toNat + 1 < UInt64.size
    · rw [if_pos hlast]
      trivial
    · rw [if_neg hlast]
      exact fun _ => not_false
  cases deposit with
  | insert offset entry => exact hinsert offset entry
  | allocate entry =>
    rw [call_allocate]
    exact tidy_seq (tidy_atomic fun _ _ => ⟨trivial, trivial⟩) fun offset => hinsert offset entry

/-- What is done with a monitor takes no lock. -/
theorem Heap.tidy_useMonitor {ω : Type} (hrank : calm → held.rank ≤ Level.heap.rank)
    (offset : Offset) (use : Heap.Use ω) :
    Tidy Anyhow calm Anyhow held (Heap.useMonitor offset use.run) := by
  refine tidy_guarded hrank (tidy_attempt fun heap _ => ⟨trivial, ?_⟩)
  unfold Heap.withMonitor
  split
  · next monitor _ =>
    rcases hrun : (use.run monitor).1 with fault | a
    · simp only [hrun]
      exact fun _ => use.lockless monitor fault hrun
    · simp only [hrun]
      trivial
  · trivial

/-- Clearing marks is tidy below the level of the marks. -/
theorem Marks.tidy_clear (hrank : calm → held.rank ≤ Level.marks.rank) :
    Tidy Anyhow calm Anyhow held Marks.clear :=
  tidy_seq (tidy_guarded_atomic hrank) fun _ => tidy_guarded_atomic hrank

theorem Marks.tidy_freeze (hrank : calm → held.rank ≤ Level.marks.rank) :
    Tidy Anyhow calm Anyhow held Marks.freeze :=
  tidy_seq (tidy_guarded_atomic hrank) fun _ =>
    tidy_seq (tidy_guarded_atomic hrank) fun _ => tidy_pure trivial

/-- A tracer enters one level at a time, and a missing entry is all that can stop it. -/
theorem World.tidy_trace (hrank : calm → held.rank ≤ Level.heap.rank) (sheet : Sheet)
    (cells : List Slot) : Tidy World.IsStandard calm Anyhow held (World.trace sheet cells) := by
  have hwithin : ∀ (budget : Nat) (tracer : Tracer),
      Tidy World.IsStandard calm Anyhow held (World.traceWithin sheet budget tracer) := by
    intro budget
    induction budget with
    | zero => exact fun _ => tidy_await fun _ _ _ _ hact => nomatch hact
    | succ budget ih =>
      intro tracer
      refine tidy_seq (tidy_attemptAs ?_) ?_
      · intro t world hheld hworld
        rcases htracer : tracer.step t world.heap (world.sheet sheet) with
          _ | fault | ⟨tracer', marks⟩
        · exact ⟨hworld, trivial⟩
        · refine ⟨hworld, fun hcalm => ?_⟩
          obtain ⟨ref, -, -, rfl⟩ := Tracer.exists_missing_of_step (hheld ▸ hrank hcalm) htracer
          exact not_false
        · exact ⟨isStandard_setSheet hworld, trivial⟩
      · rintro (tracer | marked)
        · exact ih tracer
        · exact tidy_pure trivial
  refine tidy_seq (tidy_choose ?_) fun budget => hwithin budget _
  intro choice world more world' hworld hact
  cases hact
  exact ⟨hworld, trivial⟩

end Parts

namespace Machine

/-- The workers hold no lock level, nobody has heard since the numbers were `start` of a task that
asked for one out of order, and an allocation asks for a collection on the standard condition. -/
abbrev InOrder (start : Numbering) : Machine → Prop := Worksite.InOrder start World.IsStandard

theorem tidy_onWorld {call : Call World α} (hcall : Tidy World.IsStandard calm V held call) :
    Tidy (InOrder start) calm V held (onWorld call) :=
  tidy_focus (fun _ h => h.env) (fun _ _ h hworld => ⟨h.pool, hworld⟩) hcall

/-- A call on a part of the world that has no say in the condition. -/
theorem tidy_onPart {S : Type} {get : World → S} {set : S → World → World} {call : Call S α}
    (hset : ∀ s world, world.IsStandard → (set s world).IsStandard)
    (hcall : Tidy Anyhow calm V held call) :
    Tidy (InOrder start) calm V held (onWorld (call.focus get set)) :=
  tidy_onWorld (tidy_focus (fun _ _ => trivial) (fun s world h _ => hset s world h) hcall)

theorem tidy_onHeap {call : Call Heap α} (hcall : Tidy Anyhow calm V held call) :
    Tidy (InOrder start) calm V held (onHeap call) :=
  tidy_onPart (fun _ _ h => h) hcall

theorem tidy_onFrames {call : Call Frames α} (hcall : Tidy Anyhow calm V held call) :
    Tidy (InOrder start) calm V held (onFrames call) :=
  tidy_onPart (fun _ _ h => h) hcall

theorem tidy_onMethods {call : Call MethodArea α} (hcall : Tidy Anyhow calm V held call) :
    Tidy (InOrder start) calm V held (onMethods call) :=
  tidy_onPart (fun _ _ h => h) hcall

theorem tidy_onMarks {sheet : Sheet} {call : Call Marks α} (hcall : Tidy Anyhow calm V held call) :
    Tidy (InOrder start) calm V held (onMarks sheet call) :=
  tidy_onPart (fun _ _ h => World.isStandard_setSheet h) hcall

theorem tidy_scan (sheet : Sheet) (callStacks : List CallStack) :
    Tidy (InOrder start) calm AnswerInOrder held (scan sheet callStacks) := by
  have hspawn : ∀ group frames,
      Tidy (InOrder start) calm AnswerInOrder held (spawnFrames sheet group frames) := by
    intro group frames
    induction frames with
    | nil => exact tidy_pure (answerInOrder_ok ())
    | cons frame frames ih =>
      refine tidy_bind (Pool.tidy_spawnMember group _ 0) ?_
      rintro (failure | ⟨⟩) hanswer
      · exact tidy_pure hanswer
      · refine tidy_bind (Pool.tidy_spawnMember group _ 0) ?_
        rintro (failure | ⟨⟩) hanswer
        · exact tidy_pure hanswer
        · exact ih
  refine tidy_bind Pool.tidy_newGroup fun group hgroup => ?_
  refine tidy_bind (hspawn group callStacks.flatten) ?_
  rintro (failure | ⟨⟩) hanswer
  · refine tidy_seq (Pool.tidy_abandonGroup group) fun _ => tidy_pure ?_
    rintro other ⟨⟩
    exact hanswer failure rfl
  · refine tidy_bind (Pool.tidy_submit _ 0) fun id hid => ?_
    refine tidy_bind (Pool.tidy_tryJoin hid) fun statics hstatics => ?_
    refine tidy_bind (Pool.tidy_waitGroup hgroup) fun frames hframes => tidy_pure ?_
    obtain failure | tally := statics
    · rintro other ⟨⟩
      exact hstatics failure rfl
    · obtain failure | ⟨⟩ := frames
      · rintro other ⟨⟩
        exact hframes failure rfl
      · exact answerInOrder_ok _

theorem tidy_sweep (live : LiveSet) :
    Tidy (InOrder start) calm AnswerInOrder held (sweep live) := by
  refine tidy_bind (Pool.tidy_submit _ 0) fun objects hobjects => ?_
  refine tidy_bind (Pool.tidy_submit _ 0) fun arrays harrays => ?_
  refine tidy_bind (Pool.tidy_submit _ 0) fun monitors hmonitors => ?_
  refine tidy_bind (Pool.tidy_tryJoin hobjects) fun objects hobjects => ?_
  refine tidy_bind (Pool.tidy_tryJoin harrays) fun arrays harrays => ?_
  refine tidy_bind (Pool.tidy_tryJoin hmonitors) fun monitors hmonitors => tidy_pure ?_
  obtain failure | objects := objects
  · rintro other ⟨⟩
    exact hobjects failure rfl
  · obtain failure | arrays := arrays
    · rintro other ⟨⟩
      exact harrays failure rfl
    · obtain failure | monitors := monitors
      · rintro other ⟨⟩
        exact hmonitors failure rfl
      · exact answerInOrder_ok _

section Collector

variable (hrank : calm → held.rank ≤ Level.cycle.rank)

include hrank

theorem rank_le_heap : calm → held.rank ≤ Level.heap.rank :=
  fun hcalm => Nat.le_succ_of_le (hrank hcalm)

theorem rank_le_marks : calm → held.rank ≤ Level.marks.rank :=
  fun hcalm => Nat.le_succ_of_le (rank_le_heap hrank hcalm)

theorem tidy_readStats : Tidy (InOrder start) calm Anyhow held (onHeap Heap.readStats) :=
  tidy_onHeap (tidy_guarded_atomic (rank_le_heap hrank))

theorem tidy_markPhase (callStacks : List CallStack) :
    Tidy (InOrder start) calm Anyhow held (markPhase callStacks) := by
  have hmarks := rank_le_marks hrank
  refine tidy_inSpan (tidy_seq (tidy_readStats hrank) fun _ => tidy_seq tidy_emit fun _ => ?_)
  refine tidy_bind (tidy_scan .collector callStacks) fun answer hanswer => ?_
  refine tidy_seq (tidy_orFault (fun _ _ => trivial) hanswer) fun scan => ?_
  refine tidy_seq (tidy_onMarks (tidy_guarded_atomic hmarks)) fun _ => ?_
  refine tidy_seq (tidy_onMarks (tidy_guarded_atomic hmarks)) fun _ => ?_
  refine tidy_seq (tidy_onMarks (Marks.tidy_freeze hmarks)) fun _ => ?_
  exact tidy_seq tidy_emit fun _ => tidy_pure trivial

omit hrank in
theorem tidy_sweepPhase (found : MarkResult) :
    Tidy (InOrder start) calm Anyhow held (sweepPhase found) := by
  refine tidy_inSpan (tidy_seq tidy_emit fun _ => ?_)
  refine tidy_bind (tidy_sweep found.live) fun answer hanswer => ?_
  refine tidy_seq (tidy_orFault (fun _ _ => trivial) hanswer) fun swept => ?_
  exact tidy_seq tidy_emit fun _ => tidy_pure trivial

theorem tidy_clear : Tidy (InOrder start) calm Anyhow held (onMarks .collector Marks.clear) :=
  tidy_onMarks (Marks.tidy_clear (rank_le_marks hrank))

/-- The collector is put to rest on both exits of its phases. -/
theorem tidy_runCycle (callStacks : List CallStack) (policy : Policy) :
    Tidy (InOrder start) calm Anyhow held (runCycle callStacks policy) := by
  refine tidy_inSpan (tidy_andFinally ?phases ?rest)
  case phases =>
    refine tidy_seq (tidy_clear hrank) fun _ => tidy_seq Pool.tidy_signalWork fun _ => ?_
    refine tidy_seq (tidy_markPhase hrank callStacks) fun found => ?_
    exact tidy_seq (tidy_sweepPhase found) fun _ => tidy_pure trivial
  case rest => exact tidy_seq (tidy_clear hrank) fun _ => Pool.tidy_signalWait

theorem tidy_onCycle (f : CycleState → α × CycleState) :
    Tidy (InOrder start) calm Anyhow held (onCycle f) := by
  refine tidy_guarded hrank (tidy_await ?_)
  intro machine a machine' h hact
  split at hact
  · cases hact
  · cases hact
    exact ⟨⟨h.pool, h.env⟩, trivial⟩

/-- Whoever holds the cycle lock may still enter every level. -/
theorem tidy_withCycleLock {body : Call Machine α}
    (hbody : Tidy (InOrder start) calm Anyhow (.cycle :: held) body) :
    Tidy (InOrder start) calm Anyhow held (withCycleLock body) := by
  refine tidy_guarded hrank (tidy_seq (tidy_await ?_) fun _ => ?_)
  · intro machine a machine' h hact
    split at hact
    · cases hact
    · cases hact
      exact ⟨⟨h.pool, h.env⟩, trivial⟩
  · exact tidy_andFinally hbody (tidy_update fun _ h => ⟨h.pool, h.env⟩)

/-- An offer to collect is tidy on every exit. -/
theorem tidy_collectStacks (callStacks : List CallStack) (policy : Policy) :
    Tidy (InOrder start) calm Anyhow held (collectStacks callStacks policy) := by
  have hinside : calm → Held.rank (.cycle :: held) ≤ Level.cycle.rank :=
    fun hcalm => Held.rank_cons_le (hrank hcalm) (Nat.le_refl _)
  refine tidy_withCycleLock hrank ?_
  refine tidy_seq (tidy_onWorld (tidy_read fun _ _ => trivial)) ?_
  rintro (_ | _)
  · exact tidy_pure trivial
  · refine tidy_seq (Pool.tidy_inspect _) ?_
    rintro (_ | _)
    · refine tidy_seq (tidy_runCycle hinside callStacks policy) fun metrics => ?_
      exact tidy_onWorld (tidy_atomic fun _ h => ⟨h, trivial⟩)
    · exact tidy_seq tidy_emit fun _ => tidy_pure trivial

/-- The heap level is given back before the level of the cycle lock is asked for. -/
theorem tidy_notifyAllocation : Tidy (InOrder start) calm Anyhow held notifyAllocation := by
  refine tidy_bind (W := fun condition => condition = standardCondition)
    (tidy_onWorld (tidy_read fun _ h => h)) ?_
  rintro condition rfl
  refine tidy_seq (tidy_readStats hrank) fun stats => ?_
  refine tidy_seq (tidy_ofExcept ?_) ?_
  · unfold standardCondition HeapStats.values addCounts
    split
    · trivial
    · exact fun _ => not_false
  · rintro (_ | _)
    · exact tidy_pure trivial
    · exact tidy_seq (tidy_onCycle hrank _) fun _ => tidy_pure trivial

end Collector

end Machine

namespace Forum

open Machine

/-- A response does not pass on that a task asked for a lock out of order. -/
def Response.InOrder {ω : Type} : Response ω → Prop
  | scanned answer => AnswerInOrder answer
  | swept answer => AnswerInOrder answer
  | pushed (.error fault, _) => ¬fault.IsDisorder
  | _ => True

theorem tidy_answering {ω : Type} {W : α → Prop} {respond : α → Response ω}
    {call : Call Machine α} (hcall : Tidy (Machine.InOrder start) calm W held call)
    (hrespond : ∀ a, W a → (respond a).InOrder) :
    Tidy (Machine.InOrder start) calm Response.InOrder held (answering respond call) :=
  tidy_bind hcall fun a ha => tidy_pure (hrespond a ha)

/-- A frame that cannot have its cells is not about the order of locks. -/
theorem pushed_inOrder {ω : Type} (frames : Frames) (stack : CallStack) (operands locals : Nat) :
    (Response.pushed (frames.push stack operands locals).1 : Response ω).InOrder := by
  unfold Frames.push Frame.nulls nullCells checkCapacity
  by_cases hoperands : operands * cellBytes ≤ pieceLimit
  · by_cases hlocals : locals * cellBytes ≤ pieceLimit
    · simp only [if_pos hoperands, if_pos hlocals]
      trivial
    · simp only [if_pos hoperands, if_neg hlocals]
      exact not_false
  · simp only [if_neg hoperands]
    exact not_false

/-- However an operation nests the lock levels, it keeps their order and gives all of them back. -/
theorem tidy_call {ω : Type} (hrank : calm → held.rank ≤ Level.cycle.rank)
    (operation : Operation ω) :
    Tidy (Machine.InOrder start) calm Response.InOrder held operation.call := by
  have hheap := rank_le_heap hrank
  have hmarks := rank_le_marks hrank
  cases operation with
  | store deposit =>
    exact tidy_answering (tidy_onHeap (deposit.tidy_call hheap)) fun _ _ => trivial
  | useMonitor offset use =>
    exact tidy_answering (tidy_onHeap (Heap.tidy_useMonitor hheap offset use)) fun _ _ => trivial
  | insertMonitor _ _ | writeField _ _ _ | writeElement _ _ _ | readFields _ | readElements _
  | hasEntry _ | hasMonitor _ | readStats | sweepRegion _ _ =>
    exact tidy_answering (tidy_onHeap (tidy_guarded_atomic hheap)) fun _ _ => trivial
  | pushFrame stack operands locals =>
    refine tidy_answering (W := fun pushed => (Response.pushed pushed : Response ω).InOrder)
      (tidy_onFrames (tidy_atomic fun frames _ => ⟨trivial, ?_⟩)) fun _ h => h
    exact pushed_inOrder frames stack operands locals
  | writeRow _ _ _ _ | readRow _ _ =>
    exact tidy_answering (tidy_onFrames (tidy_guarded_atomic hheap)) fun _ _ => trivial
  | loadClass info =>
    exact tidy_answering (tidy_onMethods (tidy_atomic fun _ _ => ⟨trivial, trivial⟩))
      fun _ (_ : True) => trivial
  | writeStatic _ _ _ | readStatics _ =>
    exact tidy_answering (tidy_onMethods (tidy_guarded_atomic hheap)) fun _ _ => trivial
  | mark _ _ | isMarked _ _ | countMarks _ _ | clearKind _ _ =>
    exact tidy_answering (tidy_onMarks (tidy_guarded_atomic hmarks)) fun _ _ => trivial
  | clearMarks _ => exact tidy_answering (tidy_onMarks (Marks.tidy_clear hmarks)) fun _ _ => trivial
  | freezeMarks _ =>
    exact tidy_answering (tidy_onMarks (Marks.tidy_freeze hmarks)) fun _ _ => trivial
  | trace sheet cells =>
    exact tidy_answering (tidy_onWorld (World.tidy_trace hheap sheet cells)) fun _ _ => trivial
  | scan sheet callStacks => exact tidy_answering (tidy_scan sheet callStacks) fun _ h => h
  | sweep live => exact tidy_answering (tidy_sweep live) fun _ h => h
  | signalWork => exact tidy_answering Pool.tidy_signalWork fun _ _ => trivial
  | signalWait => exact tidy_answering Pool.tidy_signalWait fun _ _ => trivial
  | requestCollection | isCollectionRequested | lastMetrics | totalCollections =>
    exact tidy_answering (tidy_onCycle hrank _) fun _ _ => trivial
  | notifyAllocation => exact tidy_answering (tidy_notifyAllocation hrank) fun _ _ => trivial
  | collectStacks callStacks policy =>
    exact tidy_answering (tidy_collectStacks hrank callStacks policy) fun _ _ => trivial
  | shutdown =>
    exact tidy_answering (tidy_withCycleLock hrank Pool.tidy_finalize) fun _ _ => trivial

end Forum

end MarkSweep
