import MarkSweep.Proofs.Forum.Order

namespace MarkSweep.Forum

variable {ω : Type} {forum forum' : Forum ω} {turn : Turn ω} {machine : Machine} {start : Numbering}

/-- From where it stands, a call is going to give back what it has entered, and it keeps the order
if its caller held nothing. -/
def IsTidy (start : Numbering) (visit : Visit (Operation ω) Machine (Response ω)) : Prop :=
  visit.rest.Keeps (Call.tidiness (Machine.InOrder start))
    (fun held result => held = visit.caller.held ∧
      Call.Clean (visit.caller.held = []) Response.InOrder result)
    visit.thread.held

/-- The machine is in order, and all calls are tidy. -/
structure Tidied (start : Numbering) (forum : Forum ω) : Prop where
  machine : forum.machine.InOrder start
  visits : ∀ visit ∈ forum.visits, IsTidy start visit

/-- Every operation is tidy. -/
theorem isTidy_call (operation : Operation ω) (caller : Thread) :
    IsTidy start ⟨operation, caller, caller, operation.call⟩ := by
  refine tidy_call ?_ operation
  intro hfree
  exact Thread.rank_le_of_held_nil hfree

/-- A step of a tidy call keeps the machine in order and the call tidy. -/
theorem IsTidy.step {visit visit' : Visit (Operation ω) Machine (Response ω)}
    {machine' : Machine} (htidy : IsTidy start visit) (horder : machine.InOrder start)
    (hstep : visit.Step machine visit' machine') :
    IsTidy start visit' ∧ machine'.InOrder start := by
  obtain ⟨held, ⟨hheld, horder'⟩, hkeeps⟩ := hstep.keeps htidy ⟨rfl, horder⟩
  unfold IsTidy
  rw [hstep.errand_eq.2, hheld]
  exact ⟨hkeeps, horder'⟩

/-- Every turn leaves the machine in order and all calls tidy. -/
theorem Tidied.next (h : forum.Tidied start) (hnext : forum.next? turn = some forum') :
    forum'.Tidied start := by
  cases turn with
  | call operation caller =>
    cases hnext
    refine ⟨h.machine, ?_⟩
    intro visit hmem
    obtain hmem | hmem := List.mem_append.1 hmem
    · exact h.visits visit hmem
    · rw [List.mem_singleton.1 hmem]
      exact isTidy_call operation caller
  | go i choice =>
    obtain ⟨visit, hget, hmap⟩ := Option.bind_eq_some_iff.1 hnext
    obtain ⟨⟨visit', machine⟩, hvisit, rfl⟩ := Option.map_eq_some_iff.1 hmap
    obtain ⟨htidy, horder⟩ :=
      (h.visits visit (List.mem_of_getElem? hget)).step h.machine (.of_next? hvisit)
    refine ⟨horder, ?_⟩
    intro other hmem
    obtain hmem | rfl := List.mem_or_eq_of_mem_set hmem
    · exact h.visits other hmem
    · exact htidy
  | work i choice =>
    obtain ⟨machine, hwork, rfl⟩ := Option.map_eq_some_iff.1 hnext
    refine ⟨?_, h.visits⟩
    exact Worksite.workerStep_inOrder Job.isOrderly_body Job.preserves_isStandard h.machine hwork
  | rouse i =>
    cases hnext
    exact ⟨⟨h.machine.pool.stirred (Pool.stirred_modify _ i), h.machine.env⟩, h.visits⟩

/-- Calls stay tidy throughout a run. -/
theorem Tidied.run {turns : List (Turn ω)} (h : forum.Tidied start)
    (hrun : forum.run turns = some forum') : forum'.Tidied start := by
  induction turns generalizing forum with
  | nil =>
    cases hrun
    exact h
  | cons turn turns ih =>
    obtain ⟨next, hnext, hrest⟩ := Option.bind_eq_some_iff.1 hrun
    exact ih (h.next hnext) hrest

/-- What the order of the lock levels comes to at a moment of a run. -/
structure Orderly (forum : Forum ω) : Prop where
  /-- The workers hold no level. -/
  workers : ∀ worker ∈ forum.machine.pool.workers, worker.thread.held = []
  /-- No worker is about to end a task that asked for a level out of order. -/
  tasks : ∀ (i : Nat) (payload : Payload),
    forum.machine.outcome? Job.body i = some (.fault payload) → ¬TellsDisorder payload.message
  /-- A call that has returned or unwound has given back what it entered. -/
  returned : ∀ visit ∈ forum.visits, ∀ result, visit.answer? = some result →
    visit.thread.held = visit.caller.held
  /-- If its caller held nothing, neither it nor a task that it waited for has asked for a level out
  of order. -/
  answers : ∀ visit ∈ forum.visits, ∀ result, visit.answer? = some result →
    Call.Clean (visit.caller.held = []) Response.InOrder result

/-- Where all calls are tidy nobody asks for a lock out of order. -/
theorem Tidied.orderly (h : forum.Tidied start) : forum.Orderly where
  workers := h.machine.pool.free
  tasks _ _ houtcome := Worksite.outcome?_inOrder Job.isOrderly_body h.machine.pool houtcome
  returned visit hmem _ hanswer := (Visit.ends_of_answer? (h.visits visit hmem) hanswer).1
  answers visit hmem _ hanswer := (Visit.ends_of_answer? (h.visits visit hmem) hanswer).2

/-- A collector with one worker that was asked to collect an empty heap, while a cell of a frame
refers to an object. -/
def unmoored : Machine where
  pool := Pool.create 1 "gc-worker"
  env :=
    { frames := #[⟨#[some (.object 1)], #[], none⟩]
      cycle := { pressure := true }
      config := .withWorkers 1 }

/-- A collection that unwinds. -/
def unwinding : List (Turn Unit) :=
  [.call (.collectStacks [[0]] .markAndSweep) {}] ++ .replicate 26 (.go 0 0) ++
    .replicate 12 (.work 0 0) ++ .replicate 13 (.go 0 0)

/-- Whether the first call was made by a thread that held nothing, and has unwound. -/
def hasUnwound (forum : Forum ω) : Bool :=
  match forum.visits[0]? with
  | some visit =>
    match visit.answer? with
    | some (.error _) => visit.caller.held.isEmpty
    | _ => false
  | none => false

/-- Some call by a thread that held nothing has ended in a fault. -/
theorem exists_fault_of_hasUnwound (hunwound : forum.hasUnwound = true) :
    ∃ visit ∈ forum.visits, visit.caller.held = [] ∧
      ∃ fault, visit.answer? = some (.error fault) := by
  unfold hasUnwound at hunwound
  split at hunwound
  · next visit hget =>
    split at hunwound
    · next fault hanswer =>
      exact ⟨visit, List.mem_of_getElem? hget, List.isEmpty_iff.1 hunwound, fault, hanswer⟩
    · cases hunwound
  · cases hunwound

/-- At every moment of every run the order of the lock levels is kept, whatever the machine was like
at its beginning: only its workers must not hold a level, its pool must not know of handles and
groups that it has still to open, and its condition must be the standard one. -/
theorem run_orderly {turns : List (Turn ω)}
    (hfree : ∀ worker ∈ machine.pool.workers, worker.thread.held = [])
    (hfresh : machine.pool.board.IsFresh) (hcondition : machine.env.condition = standardCondition)
    (hrun : run { machine } turns = some forum) : forum.Orderly := by
  have hstart : Tidied machine.pool.board.numbering ({ machine } : Forum ω) :=
    ⟨⟨⟨hfree, Board.inOrder_numbering hfresh⟩, hcondition⟩, nofun⟩
  exact (hstart.run hrun).orderly

/-- A collection finds a root that refers to nothing and unwinds, but not for a lock out of
order. -/
theorem run_orderly_unmoored :
    ∃ forum : Forum Unit, run { machine := unmoored } unwinding = some forum ∧ forum.Orderly ∧
      ∃ visit ∈ forum.visits, visit.caller.held = [] ∧ visit.thread.held = [] ∧
        ∃ fault, visit.answer? = some (.error fault) ∧ ¬fault.IsDisorder := by
  have hreplay : ((run { machine := unmoored } unwinding).map hasUnwound) = some true := by
    decide +kernel
  obtain ⟨forum, hrun, hunwound⟩ := Option.map_eq_some_iff.1 hreplay
  have hfree : ∀ worker ∈ unmoored.pool.workers, worker.thread.held = [] := by
    intro worker hmem
    rw [List.eq_of_mem_replicate hmem]
  have hfresh : unmoored.pool.board.IsFresh :=
    ⟨fun _ _ => Std.ExtTreeMap.getElem?_empty, fun _ _ => Std.ExtTreeMap.getElem?_empty⟩
  have horderly := run_orderly hfree hfresh rfl hrun
  obtain ⟨visit, hmem, hheld, fault, hanswer⟩ := exists_fault_of_hasUnwound hunwound
  refine ⟨forum, hrun, horderly, visit, hmem, hheld, ?_, fault, hanswer, ?_⟩
  · rw [horderly.returned visit hmem _ hanswer, hheld]
  · exact horderly.answers visit hmem _ hanswer hheld

end MarkSweep.Forum
