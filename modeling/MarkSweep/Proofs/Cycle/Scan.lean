import MarkSweep.Cycle.Scan
import MarkSweep.Proofs.Cycle.Handling

namespace MarkSweep

namespace World

/-- The places whose slots are roots: the rows of every frame of the stacks and the static fields of
every loaded class. -/
def rootRows (world : World) (callStacks : List CallStack) : List RootRow :=
  callStacks.flatten.flatMap (fun id => [.frame id .operands, .frame id .locals])
    ++ world.staticRows

/-- The roots of a collection. -/
def roots (world : World) (callStacks : List CallStack) : List Slot :=
  world.rowSlots (world.rootRows callStacks)

/-- Nothing but the heap and a pair of mark sets has changed, as far as a scan looks at the world
or, if whoever scans is alone, at all. -/
structure Untouched (sheet : Sheet) (alone : Prop) (before after : World) : Prop where
  frames : after.frames = before.frames
  methods : after.methods = before.methods
  cycle : after.cycle = before.cycle
  alone : alone →
    after = World.setSheet { before with heap := after.heap } sheet (after.sheet sheet)

theorem Untouched.refl (sheet : Sheet) (alone : Prop) (world : World) :
    Untouched sheet alone world world :=
  ⟨rfl, rfl, rfl, fun _ => (World.setSheet_sheet world sheet).symm⟩

theorem Untouched.setSheet {sheet : Sheet} {alone : Prop} {before after : World}
    (huntouched : Untouched sheet alone before after) (marks : Marks) :
    Untouched sheet alone before (after.setSheet sheet marks) := by
  cases sheet <;>
    refine ⟨huntouched.frames, huntouched.methods, huntouched.cycle, fun halone => ?_⟩ <;>
    have hafter := huntouched.alone halone <;>
    simp only [World.setSheet, World.sheet] at hafter ⊢ <;>
    rw [hafter]

theorem Untouched.setHeap {sheet : Sheet} {alone : Prop} {before after : World}
    (huntouched : Untouched sheet alone before after) (heap : Heap) :
    Untouched sheet alone before { after with heap } where
  frames := huntouched.frames
  methods := huntouched.methods
  cycle := huntouched.cycle
  alone halone := by
    have hafter := huntouched.alone halone
    cases sheet <;> simp only [World.setSheet, World.sheet] at hafter ⊢ <;> rw [hafter]

/-- What the cycle lock protects is left alone by bystanders while the lock is held. -/
theorem Untouched.spared {sheet : Sheet} {alone : Prop} {before after world : World}
    (hothers : ¬alone) (hbusy : before.cycle.busy = true)
    (huntouched : Untouched sheet alone before after) (hspared : after.Spared world) :
    Untouched sheet alone before world where
  frames := hspared.frames.trans huntouched.frames
  methods := hspared.methods.trans huntouched.methods
  cycle := (hspared.cycle (huntouched.cycle ▸ hbusy)).trans huntouched.cycle
  alone halone := absurd halone hothers

/-- Whoever scans is alone, or holds the cycle lock and marks into the mark sets of the collector,
so that bystanders leave the marks alone. -/
def Guards (sheet : Sheet) (alone : Prop) (before : World) : Prop :=
  ¬alone → before.cycle.busy = true ∧ sheet = .collector

/-- Whoever holds the cycle lock guards the marks of the collector. -/
theorem guards_of_busy {alone : Prop} {before : World} (hbusy : before.cycle.busy = true) :
    before.Guards .collector alone :=
  fun _ => ⟨hbusy, rfl⟩

/-- Bystanders leave the marks alone that are guarded. -/
theorem Guards.sheet_eq {sheet : Sheet} {alone : Prop} {before world world' : World}
    (hguards : before.Guards sheet alone) (hothers : ¬alone) (hspared : world.Spared world') :
    world'.sheet sheet = world.sheet sheet := by
  rw [(hguards hothers).2]
  exact hspared.marks

end World

namespace Machine

/-- A failure that a scan may report: of a job that met a missing entry, or of the pool if somebody
else has shut it down. -/
def Excused (alone : Prop) (heap : Heap) (roots : List Slot) (shut : Bool) : Failure → Prop
  | .taskFaulted message => ∃ ref, heap.Reaches roots ref ∧ heap.contains ref = false ∧
      (Fault.missingEntry ref).payload.message = message
  | .poolShutDown => ¬alone ∧ shut = true
  | _ => False

/-- What the job for the static fields may answer: how many slots there are, or why it has
failed. -/
def Answered (alone : Prop) (before : World) (roots : List Slot) (shut : Bool) :
    Except Failure Tally → Prop
  | .ok tally => tally.entries = (before.rowSlots before.staticRows).length
  | .error failure => Excused alone before.heap roots shut failure

/-- Whether the handle of the static job or a member of the group has told of a failure. -/
def Failed (l : Ledger Job World Tally) (group : GroupId) (handling : Handling Tally) : Prop :=
  (∃ members, l.board.groups[group]? = some members ∧ members.faults ≠ []) ∨
    match handling with
    | .issued id => ∃ delivery failure, l.board.handles[id]? = some delivery ∧
        delivery.answer? = some (.error failure)
    | .joined answer => ∃ failure, answer = .error failure
    | _ => False

/-- A scan from the world `before` has handed out `rows`. Nothing is marked but what `roots` reach,
and others may have marked what is `listed`.

A job that meets a missing entry abandons what it had before it, while the others pass over what it
had marked. So a scan that fails anywhere keeps `Frontier` alone, and its failure names an entry
that the roots reach; a scan that does not fail keeps `Covers` for the rows that it has handed out,
as if somebody had still to descend into all that is listed. -/
structure Scanning (sheet : Sheet) (alone : Prop) (before : World) (roots : List Slot)
    (listed : List Ref) (group : GroupId) (handling : Handling Tally) (rows : List RootRow)
    (l : Ledger Job World Tally) : Prop where
  untouched : before.Untouched sheet alone l.env
  heap : l.env.heap = before.heap
  tasks : ∀ task ∈ l.tasks, task.body.Marks sheet ∧
    (task.audience = .group group ∨ ∃ id, handling = .issued id ∧ task.audience = .handle id ∧
      task.body.slotCount before = (before.rowSlots before.staticRows).length)
  places : ∀ place ∈ l.places, place = group
  frontier : Frontier before.heap roots (l.env.sheet sheet) (l.tasks.map (·.body.agenda before))
  covers : Failed l group handling ∨
    Covers before.heap (before.rowSlots rows) (l.env.sheet sheet)
      (l.tasks.map (·.body.agenda before) ++ [⟨[], listed⟩])
  members : ∃ members, l.board.groups[group]? = some members ∧
    members.pending = l.countOf (.group group) + l.places.length ∧
    ∀ message ∈ members.faults,
      Excused alone before.heap roots l.shutDown (.taskFaulted message)
  statics : l.Tracks True (Answered alone before roots l.shutDown) handling

variable {sheet : Sheet} {alone : Prop} {ended : List Bool} {before : World} {roots : List Slot}
  {listed : List Ref} {group : GroupId} {handling : Handling Tally} {rows : List RootRow}
  {l l' : Ledger Job World Tally}

/-- A scan does not depend on which groups and handles others have on the board. -/
theorem Scanning.similar (hscan : Scanning sheet alone before roots listed group handling rows l)
    (hsimilar : l.Similar l') :
    Scanning sheet alone before roots listed group handling rows l' := by
  obtain ⟨env, tasks, places, board, shut⟩ := l
  obtain ⟨env', tasks', places', board', shut'⟩ := l'
  obtain ⟨rfl, htasks, hplaces, rfl, rfl⟩ := hsimilar
  have hagendas := htasks.map (·.body.agenda before)
  have hcount : ∀ audience, Ledger.countOf ⟨env', tasks', places', board', shut'⟩ audience =
      Ledger.countOf ⟨env', tasks, places, board', shut'⟩ audience :=
    fun audience => (htasks.countP_eq _).symm
  refine ⟨hscan.untouched, hscan.heap, ?_, ?_, ?_, ?_, ?_, ?_⟩
  · exact fun task hmem => hscan.tasks task (htasks.mem_iff.2 hmem)
  · exact fun place hmem => hscan.places place (hplaces.mem_iff.2 hmem)
  · exact hscan.frontier.of_subset hagendas.symm.subset
  · refine hscan.covers.imp id fun hcovers => hcovers.of_subset ?_
    exact (hagendas.append_right [⟨[], listed⟩]).subset
  · obtain ⟨members, hget, hpending, hfaults⟩ := hscan.members
    refine ⟨members, hget, ?_, hfaults⟩
    rw [hcount, ← hplaces.length_eq]
    exact hpending
  · exact hscan.statics.mono (fun _ _ => rfl) (fun _ _ => hcount _) id fun _ => id

/-- A marking job that goes on marks only what the roots reach, and loses nothing. -/
private theorem Scanning.advance {env env' : World} {task : Task Job} {rest : Job}
    {tasks : List (Task Job)} {places : List GroupId} {board : Board Tally} {shut : Bool}
    {thread : Thread}
    (hscan : Scanning sheet alone before roots listed group handling rows
      ⟨env, task :: tasks, places, board, shut⟩)
    (hfree : thread.held = []) (hstep : task.body.step thread env = .next env' rest) :
    Scanning sheet alone before roots listed group handling rows
      ⟨env', { task with body := rest } :: tasks, places, board, shut⟩ := by
  obtain ⟨hmarks, haudience⟩ := hscan.tasks task List.mem_cons_self
  obtain ⟨hmarks', hslots, marks, rfl, hmove⟩ := Job.step_next hmarks hfree hstep
  have huntouched : before.Untouched sheet alone env := hscan.untouched
  have hheap : env.heap = before.heap := hscan.heap
  have hagenda := Job.agenda_congr huntouched.frames huntouched.methods
  have hslotCount := Job.slotCount_congr huntouched.frames huntouched.methods
  rw [hagenda, hagenda, hheap] at hmove
  rw [hslotCount, hslotCount] at hslots
  have hcount : ∀ audience,
      Ledger.countOf
          ⟨env.setSheet sheet marks, { task with body := rest } :: tasks, places, board, shut⟩
          audience =
        Ledger.countOf ⟨env, task :: tasks, places, board, shut⟩ audience := by
    intro audience
    simp only [Ledger.countOf_cons]
    rfl
  have hsheet : (env.setSheet sheet marks).sheet sheet = marks := by
    rw [World.sheet_setSheet, if_pos rfl]
  refine ⟨huntouched.setSheet marks, (World.heap_setSheet env sheet marks).trans hheap, ?_,
    hscan.places, ?_, ?_, ?_, ?_⟩
  · intro other hmem
    obtain rfl | hmem := List.mem_cons.1 hmem
    · refine ⟨hmarks', haudience.imp id ?_⟩
      rintro ⟨id, hid, haudience, hslotCount⟩
      exact ⟨id, hid, haudience, hslots.trans hslotCount⟩
    · exact hscan.tasks other (List.mem_cons_of_mem _ hmem)
  · have hfrontier : Frontier before.heap roots (env.sheet sheet)
        (task.body.agenda before :: tasks.map (·.body.agenda before)) := hscan.frontier
    rw [hsheet, List.map_cons]
    obtain ⟨rfl, hsame⟩ | ⟨opened, hmove⟩ := hmove
    · rw [hsame]
      exact hfrontier
    · exact hfrontier.step hmove
  · refine hscan.covers.imp id fun hcovers => ?_
    replace hcovers : Covers before.heap (before.rowSlots rows) (env.sheet sheet)
        (task.body.agenda before ::
          (tasks.map (·.body.agenda before) ++ [⟨[], listed⟩])) := hcovers
    rw [hsheet, List.map_cons, List.cons_append]
    obtain ⟨rfl, hsame⟩ | ⟨opened, hmove⟩ := hmove
    · rw [hsame]
      exact hcovers
    · exact hcovers.step hmove
  · obtain ⟨members, hget, hpending, hfaults⟩ := hscan.members
    exact ⟨members, hget, by rw [hcount]; exact hpending, hfaults⟩
  · exact hscan.statics.mono (fun _ _ => rfl) (fun _ _ => hcount _) id fun _ => id

/-- The ways in which a marking job may end. -/
private inductive Ending (before : World) (roots : List Slot) (job : Job) : Outcome Tally → Prop
  /-- Nothing is left before it. -/
  | clear {tally : Tally} (hpending : (job.agenda before).pending = [])
      (hworklist : (job.agenda before).worklist = [])
      (hcount : tally.entries = job.slotCount before) : Ending before roots job (.value tally)
  /-- It has met a missing entry that the roots reach. -/
  | missing {ref : Ref} (hreach : before.heap.Reaches roots ref)
      (hmissing : before.heap.contains ref = false) :
      Ending before roots job (.fault (Fault.missingEntry ref).payload)

/-- A job of a scan that ends leaves the world as it is, with an outcome that the scan may
report. -/
private theorem Scanning.ending {env env' : World} {task : Task Job}
    {tasks : List (Task Job)} {places : List GroupId} {board : Board Tally} {shut : Bool}
    {thread : Thread} {outcome : Outcome Tally}
    (hscan : Scanning sheet alone before roots listed group handling rows
      ⟨env, task :: tasks, places, board, shut⟩)
    (hfree : thread.held = []) (hstep : task.body.step thread env = .finish env' outcome) :
    env' = env ∧ Ending before roots task.body outcome := by
  obtain ⟨hmarks, -⟩ := hscan.tasks task List.mem_cons_self
  obtain ⟨rfl, hend⟩ := Job.step_finish hmarks hfree hstep
  have huntouched : before.Untouched sheet alone env' := hscan.untouched
  have hheap : env'.heap = before.heap := hscan.heap
  have hagenda := Job.agenda_congr huntouched.frames huntouched.methods task.body
  rw [hagenda, hheap, Job.slotCount_congr huntouched.frames huntouched.methods] at hend
  refine ⟨rfl, ?_⟩
  obtain ⟨⟨tally, rfl, hcount⟩, hpending, hworklist⟩ | ⟨ref, hlisted, hmissing, rfl⟩ := hend
  · exact .clear hpending hworklist hcount
  · exact .missing (hscan.frontier.worklist _ List.mem_cons_self ref hlisted) hmissing

/-- The end of a member of the group leaves its place, and its fault is recorded. -/
private theorem Scanning.finishMember {env : World} {task : Task Job} {tasks : List (Task Job)}
    {places : List GroupId} {board : Board Tally} {shut : Bool} {outcome : Outcome Tally}
    (hscan : Scanning sheet alone before roots listed group handling rows
      ⟨env, task :: tasks, places, board, shut⟩)
    (hend : Ending before roots task.body outcome)
    (haudience : task.audience = .group group) :
    Scanning sheet alone before roots listed group handling rows
      ⟨env, tasks, group :: places, board.hear (.group group) outcome, shut⟩ := by
  have hhandles : (board.hear (.group group) outcome).handles = board.handles := by
    cases outcome <;> rfl
  obtain ⟨members, hget, hpending, hfaults⟩ := hscan.members
  rw [Ledger.countOf_cons, if_pos haudience] at hpending
  have hrecorded : ∀ payload, (board.hear (.group group) (.fault payload)).groups[group]? =
      some { members with faults := members.faults ++ [payload.message] } := by
    intro payload
    have hget' : board.groups[group]? = some members := hget
    simp only [Board.hear, Board.recordFault, Board.getElem?_onGroup, if_true, hget',
      Option.map_some]
  refine ⟨hscan.untouched, hscan.heap, ?_, ?_, ?_, ?_, ?_, ?_⟩
  · exact fun other hmem => hscan.tasks other (List.mem_cons_of_mem _ hmem)
  · intro place hmem
    obtain rfl | hmem := List.mem_cons.1 hmem
    · rfl
    · exact hscan.places place hmem
  · exact hscan.frontier.of_subset (List.subset_cons_self _ _)
  · cases hend with
    | clear hpending hworklist _ =>
      exact hscan.covers.imp id fun hcovers => hcovers.drop_cons hpending hworklist
    | missing _ _ =>
      exact .inl (.inl ⟨_, hrecorded _,
        List.append_ne_nil_of_right_ne_nil _ (List.cons_ne_nil _ _)⟩)
  · have hpending' : members.pending =
        Ledger.countOf ⟨env, tasks, group :: places, board.hear (.group group) outcome, shut⟩
          (.group group) + (group :: places).length := by
      simp only [List.length_cons, Ledger.countOf] at hpending ⊢
      omega
    cases hend with
    | clear _ _ _ => exact ⟨members, hget, hpending', hfaults⟩
    | @missing ref hreach hmissing =>
      refine ⟨_, hrecorded _, hpending', fun message hmem => ?_⟩
      obtain hmem | hmem := List.mem_append.1 hmem
      · exact hfaults message hmem
      · rw [List.mem_singleton.1 hmem]
        exact ⟨ref, hreach, hmissing, rfl⟩
  · refine hscan.statics.mono ?_ ?_ id fun _ => id
    · intro id _
      rw [hhandles]
    · intro id _
      rw [Ledger.countOf_cons, if_neg (by rw [haudience]; exact Audience.noConfusion)]
      rfl

/-- The end of the static job is told to its handle. -/
private theorem Scanning.finishStatics {env : World} {task : Task Job} {tasks : List (Task Job)}
    {places : List GroupId} {board : Board Tally} {shut : Bool} {outcome : Outcome Tally}
    {id : HandleId}
    (hscan : Scanning sheet alone before roots listed group (.issued id) rows
      ⟨env, task :: tasks, places, board, shut⟩)
    (hend : Ending before roots task.body outcome) (haudience : task.audience = .handle id)
    (hmine : task.body.slotCount before = (before.rowSlots before.staticRows).length) :
    Scanning sheet alone before roots listed group (.issued id) rows
      ⟨env, tasks, places, board.tell id (.delivered outcome), shut⟩ := by
  have hcountOf : Ledger.countOf ⟨env, tasks, places, board.tell id (.delivered outcome), shut⟩
      (.group group) = Ledger.countOf ⟨env, task :: tasks, places, board, shut⟩ (.group group) := by
    rw [Ledger.countOf_cons, if_neg (by rw [haudience]; exact Audience.noConfusion)]
    rfl
  refine ⟨hscan.untouched, hscan.heap, ?_, hscan.places, ?_, ?_, ?_, ?_⟩
  · exact fun other hmem => hscan.tasks other (List.mem_cons_of_mem _ hmem)
  · exact hscan.frontier.of_subset (List.subset_cons_self _ _)
  · obtain ⟨delivery, hget, -⟩ := hscan.statics
    have hget' : board.handles[id]? = some delivery := hget
    have htold : (board.tell id (.delivered outcome)).handles[id]? = some (.delivered outcome) := by
      rw [Board.getElem?_tell, if_pos rfl, hget', Option.map_some]
    cases hend with
    | missing _ _ => exact .inl (.inr ⟨_, _, htold, rfl⟩)
    | clear hpending hworklist _ =>
      obtain hfailed | hcovers := hscan.covers
      · refine .inl (hfailed.imp (fun hfaulted => hfaulted) ?_)
        rintro ⟨delivery, failure, hget, hanswer⟩
        -- The handle of a job that is still at work has no answer yet.
        have hnone := (hscan.statics.answer hget hanswer).1
        rw [Ledger.countOf_cons, if_pos haudience] at hnone
        cases hnone
      · exact .inr (hcovers.drop_cons hpending hworklist)
  · obtain ⟨members, hget, hpending, hfaults⟩ := hscan.members
    refine ⟨members, hget, ?_, hfaults⟩
    rw [hcountOf]
    exact hpending
  · apply Ledger.Tracks.finish hscan.statics haudience
    rintro - answer hanswer
    cases hend with
    | clear _ _ hcount =>
      cases hanswer
      exact hcount.trans hmine
    | @missing ref hreach hmissing =>
      cases hanswer
      exact ⟨ref, hreach, hmissing, rfl⟩

/-- A place that is given up no longer counts. -/
private theorem Scanning.leave {env : World} {tasks : List (Task Job)} {place : GroupId}
    {places : List GroupId} {board : Board Tally} {shut : Bool}
    (hscan : Scanning sheet alone before roots listed group handling rows
      ⟨env, tasks, place :: places, board, shut⟩) :
    Scanning sheet alone before roots listed group handling rows
      ⟨env, tasks, places, board.leaveGroup place, shut⟩ := by
  obtain rfl : place = group := hscan.places place List.mem_cons_self
  obtain ⟨members, hget, hpending, hfaults⟩ := hscan.members
  have hleft : (board.leaveGroup place).groups[place]? =
      some { members with pending := members.pending - 1 } := by
    have hget' : board.groups[place]? = some members := hget
    simp only [Board.leaveGroup, Board.getElem?_onGroup, if_true, hget', Option.map_some]
  refine ⟨hscan.untouched, hscan.heap, hscan.tasks, ?_, hscan.frontier, ?_, ?_, ?_⟩
  · exact fun other hmem => hscan.places other (List.mem_cons_of_mem _ hmem)
  · refine hscan.covers.imp (fun hfailed => hfailed.imp ?_ id) id
    rintro ⟨members', hget', hfaulted⟩
    rw [hget] at hget'
    cases hget'
    exact ⟨_, hleft, hfaulted⟩
  · refine ⟨_, hleft, ?_, hfaults⟩
    simp only [List.length_cons, Ledger.countOf] at hpending ⊢
    omega
  · exact hscan.statics.mono (fun _ _ => rfl) (fun _ _ => rfl) id fun _ => id

/-- The workers keep a scan going, and bystanders do not disturb it. -/
theorem kept_scanning (hguards : before.Guards sheet alone) :
    Kept alone (Scanning sheet alone before roots listed group handling rows) where
  similar := Scanning.similar
  turn := by
    intro l l' hscan hturn
    cases hturn with
    | advance hfree hstep => exact hscan.advance hfree hstep
    | @finish env env' task outcome tasks places board shut name thread hfree hstep =>
      obtain ⟨rfl, hend⟩ := hscan.ending hfree hstep
      obtain haudience | ⟨id, rfl, haudience, hmine⟩ := (hscan.tasks task List.mem_cons_self).2
      · rw [haudience]
        exact hscan.finishMember hend haudience
      · rw [haudience]
        exact hscan.finishStatics hend haudience hmine
    | leave => exact hscan.leave
  spared := by
    intro hothers l world shut hscan hspared hshut
    have hexcused : ∀ failure, Excused alone before.heap roots l.shutDown failure →
        Excused alone before.heap roots shut failure := by
      intro failure hexcused
      cases failure with
      | poolShutDown => exact ⟨hothers, hshut hexcused.2⟩
      | _ => exact hexcused
    have huntouched := hscan.untouched.spared hothers (hguards hothers).1 hspared
    refine ⟨huntouched, hspared.heap.trans hscan.heap, hscan.tasks, hscan.places, ?_, ?_, ?_, ?_⟩
    · rw [hguards.sheet_eq hothers hspared]
      exact hscan.frontier
    · rw [hguards.sheet_eq hothers hspared]
      exact hscan.covers
    · obtain ⟨members, hget, hpending, hfaults⟩ := hscan.members
      exact ⟨members, hget, hpending, fun message hmem => hexcused _ (hfaults message hmem)⟩
    · refine hscan.statics.mono (fun _ _ => rfl) (fun _ _ => rfl) id fun answer hanswered => ?_
      cases answer with
      | ok tally => exact hanswered
      | error failure => exact hexcused failure hanswered

/-- Others may mark what is listed. -/
theorem Scanning.meddle {ref : Ref} (hlisted : ref ∈ listed)
    (hreach : before.heap.Reaches roots ref)
    (hscan : Scanning sheet alone before roots listed group handling rows l) :
    Scanning sheet alone before roots listed group handling rows
      { l with env := l.env.setSheet sheet ((l.env.sheet sheet).insert ref).2 } := by
  have hsheet : ∀ marks, (l.env.setSheet sheet marks).sheet sheet = marks := by
    intro marks
    rw [World.sheet_setSheet, if_pos rfl]
  refine ⟨hscan.untouched.setSheet _, (World.heap_setSheet l.env sheet _).trans hscan.heap,
    hscan.tasks, hscan.places, ?_, hscan.covers.imp id fun hcovers => ?_, hscan.members,
    hscan.statics⟩
  · rw [hsheet]
    exact hscan.frontier.insert hreach
  · rw [hsheet]
    exact hcovers.insert (List.mem_append_right _ (List.mem_singleton.2 rfl)) hlisted

/-- The pool has nothing left to do, and of the world nothing has changed but the heap and the
marks, which satisfy `H`. -/
structure Resting (sheet : Sheet) (alone : Prop) (before : World) (H : Heap → Marks → Prop)
    (l : Ledger Job World Tally) : Prop where
  tasks : l.tasks = []
  places : l.places = []
  untouched : before.Untouched sheet alone l.env
  contents : H l.env.heap (l.env.sheet sheet)

theorem kept_resting_of_guards {H : Heap → Marks → Prop} (hguards : before.Guards sheet alone) :
    Kept alone (Resting sheet alone before H) where
  toKept := Ledger.kept_of_rest fun _ hrest => ⟨hrest.tasks, hrest.places⟩
  spared := by
    intro hothers l world shut hrest hspared _
    have huntouched := hrest.untouched.spared hothers (hguards hothers).1 hspared
    refine ⟨hrest.tasks, hrest.places, huntouched, ?_⟩
    rw [hspared.heap, hguards.sheet_eq hothers hspared]
    exact hrest.contents

theorem kept_resting {H : Heap → Marks → Prop} (hbusy : before.cycle.busy = true) :
    Kept alone (Resting .collector alone before H) :=
  kept_resting_of_guards (World.guards_of_busy hbusy)

theorem Resting.mono {H H' : Heap → Marks → Prop} (hrest : Resting sheet alone before H l)
    (hH : ∀ heap marks, H heap marks → H' heap marks) : Resting sheet alone before H' l :=
  ⟨hrest.tasks, hrest.places, hrest.untouched, hH _ _ hrest.contents⟩

/-- What is done to the marks leaves a pool at rest. -/
theorem Resting.onMarks {H H' : Heap → Marks → Prop} (f : Marks → Marks)
    (hrest : Resting .collector alone before H l)
    (hH : ∀ heap marks, H heap marks → H' heap (f marks)) :
    Resting .collector alone before H' { l with env := { l.env with marks := f l.env.marks } } :=
  ⟨hrest.tasks, hrest.places, hrest.untouched.setSheet _, hH _ _ hrest.contents⟩

/-- A scan begins with nothing handed out, and nothing marked but what is listed. -/
theorem Resting.scanning (hlisted : ∀ ref ∈ listed, before.heap.Reaches roots ref)
    (hrest : Resting sheet alone before (fun heap marks => heap = before.heap ∧
      ∀ ref, marks.contains ref = true → ref ∈ listed) l) :
    Scanning sheet alone before roots listed l.board.nextGroup .unissued []
      { l with board := l.board.openGroup.2 } := by
  obtain ⟨htasks, hplaces, huntouched, hheap, hmarks⟩ := hrest
  have hnobody : ∀ agenda, agenda ∉ l.tasks.map (·.body.agenda before) := by
    intro agenda hmem
    rw [htasks] at hmem
    cases hmem
  refine ⟨huntouched, hheap, ?_, ?_, ?_, .inr ?_, ?_, trivial⟩
  · intro task hmem
    rw [htasks] at hmem
    cases hmem
  · intro place hmem
    rw [hplaces] at hmem
    cases hmem
  · exact ⟨fun ref hmarked => hlisted ref (hmarks ref hmarked),
      fun agenda hmem => absurd hmem (hnobody agenda),
      fun agenda hmem => absurd hmem (hnobody agenda)⟩
  · refine ⟨fun ref hmem => ?_, fun ref hmarked => ?_⟩
    · cases hmem
    · exact .inl ⟨⟨[], listed⟩, List.mem_append_right _ (List.mem_singleton.2 rfl),
        hmarks ref hmarked⟩
  · refine ⟨{}, ?_, ?_, fun message hmem => ?_⟩
    · rw [Board.getElem?_openGroup, if_pos rfl]
    · rw [Ledger.countOf, htasks, hplaces]
      rfl
    · cases hmem

/-- A row is handed out as a job of its own. -/
theorem Scanning.spawn (hscan : Scanning sheet alone before roots listed group .unissued rows l)
    (frame : FrameId) (row : FrameRow)
    (hcells : ∀ ref, some ref ∈ before.rootSlots (.frame frame row) →
      before.heap.Reaches roots ref) :
    Scanning sheet alone before roots listed group .unissued (rows ++ [.frame frame row])
      { l with
        tasks := ⟨.group group, Job.markRow sheet frame row, 0⟩ :: l.tasks
        board := l.board.joinGroup group } := by
  obtain ⟨members, hget, hpending, hfaults⟩ := hscan.members
  have hjoined : (l.board.joinGroup group).groups[group]? =
      some { members with spawned := members.spawned + 1, pending := members.pending + 1 } := by
    simp only [Board.joinGroup, Board.getElem?_onGroup, if_true, hget, Option.map_some]
  have hagenda : (Job.markRow sheet frame row).agenda before =
      ⟨before.rootSlots (.frame frame row), []⟩ := by
    simp only [Job.markRow, Job.agenda, Tracer.toAgenda, Tracer.start, World.rowSlots,
      List.flatMap_cons, List.flatMap_nil, List.append_nil, List.nil_append]
  refine ⟨hscan.untouched, hscan.heap, ?_, hscan.places, ?_, ?_, ?_, trivial⟩
  · intro task hmem
    obtain rfl | hmem := List.mem_cons.1 hmem
    · exact ⟨rfl, .inl rfl⟩
    · exact hscan.tasks task hmem
  · rw [List.map_cons, hagenda]
    exact hscan.frontier.add hcells
  · obtain hfailed | hcovers := hscan.covers
    · refine .inl (hfailed.imp ?_ id)
      rintro ⟨members', hget', hfaulted⟩
      rw [hget] at hget'
      cases hget'
      exact ⟨_, hjoined, hfaulted⟩
    · right
      rw [List.map_cons, List.cons_append, hagenda]
      have hrows : before.rowSlots (rows ++ [.frame frame row]) =
          before.rowSlots rows ++ before.rootSlots (.frame frame row) := by
        simp only [World.rowSlots, List.flatMap_append, List.flatMap_cons, List.flatMap_nil,
          List.append_nil]
      rw [hrows]
      exact hcovers.add
  · refine ⟨_, hjoined, ?_, hfaults⟩
    rw [Ledger.countOf_cons, if_pos rfl]
    simp only [Ledger.countOf] at hpending ⊢
    omega

/-- The job for the static fields gets a handle before it is submitted. -/
theorem Scanning.openStatics
    (hscan : Scanning sheet alone before roots listed group .unissued rows l) :
    Scanning sheet alone before roots listed group (.opened l.board.nextHandle) rows
      { l with board := l.board.openHandle.2 } := by
  refine ⟨hscan.untouched, hscan.heap, ?_, hscan.places, hscan.frontier, ?_, hscan.members, ?_⟩
  · intro task hmem
    obtain ⟨hmarks, haudience | ⟨id, hid, -⟩⟩ := hscan.tasks task hmem
    · exact ⟨hmarks, .inl haudience⟩
    · cases hid
  · exact hscan.covers
  · refine ⟨?_, trivial⟩
    rw [Board.getElem?_openHandle, if_pos rfl]

/-- The job for the static fields is handed out. -/
theorem Scanning.issueStatics {id : HandleId}
    (hscan : Scanning sheet alone before roots listed group (.opened id) rows l)
    (hcells : ∀ ref, some ref ∈ before.rowSlots before.staticRows →
      before.heap.Reaches roots ref) :
    Scanning sheet alone before roots listed group (.issued id) (rows ++ before.staticRows)
      { l with tasks := ⟨.handle id, .markStatics sheet, 0⟩ :: l.tasks } := by
  have hmine : l.countOf (.handle id) = 0 := by
    refine List.countP_eq_zero.2 fun task hmem haudience => ?_
    obtain ⟨-, hgroup | ⟨id', hid, -⟩⟩ := hscan.tasks task hmem
    · rw [hgroup] at haudience
      cases of_decide_eq_true haudience
    · cases hid
  refine ⟨hscan.untouched, hscan.heap, ?_, hscan.places, hscan.frontier.add hcells, ?_, ?_, ?_⟩
  · intro task hmem
    obtain rfl | hmem := List.mem_cons.1 hmem
    · exact ⟨rfl, .inr ⟨id, rfl, rfl, rfl⟩⟩
    · obtain ⟨hmarks, haudience | ⟨id', hid, -⟩⟩ := hscan.tasks task hmem
      · exact ⟨hmarks, .inl haudience⟩
      · cases hid
  · obtain (hgroup | hnever) | hcovers := hscan.covers
    · exact .inl (.inl hgroup)
    · exact hnever.elim
    · right
      have hrows : before.rowSlots (rows ++ before.staticRows) =
          before.rowSlots rows ++ before.rowSlots before.staticRows := by
        simp only [World.rowSlots, List.flatMap_append]
      rw [hrows]
      exact hcovers.add
  · obtain ⟨members, hget, hpending, hfaults⟩ := hscan.members
    refine ⟨members, hget, ?_, hfaults⟩
    rw [Ledger.countOf_cons, if_neg Audience.noConfusion]
    exact hpending
  · refine ⟨.awaited, hscan.statics.1, ?_, trivial⟩
    rw [Ledger.countOf_cons, if_pos rfl]
    exact congrArg (· + 1) hmine

/-- The pool has refused the job for the static fields, because somebody else has shut it down. -/
theorem Scanning.loseStatics {id : HandleId} (hothers : ¬alone) (hshut : l.shutDown = true)
    (hscan : Scanning sheet alone before roots listed group (.opened id) rows l) :
    Scanning sheet alone before roots listed group (.issued id) (rows ++ before.staticRows)
      { l with board := l.board.tell id .lost } := by
  have hlost : (l.board.tell id .lost).handles[id]? = some .lost := by
    rw [Board.getElem?_tell, if_pos rfl, hscan.statics.1, Option.map_some]
  have hgroup : ∀ task ∈ l.tasks, task.audience = .group group := by
    intro task hmem
    obtain ⟨-, haudience | ⟨id', hid, -⟩⟩ := hscan.tasks task hmem
    · exact haudience
    · cases hid
  refine ⟨hscan.untouched, hscan.heap, ?_, hscan.places, hscan.frontier, ?_, hscan.members, ?_⟩
  · exact fun task hmem => ⟨(hscan.tasks task hmem).1, .inl (hgroup task hmem)⟩
  · exact .inl (.inr ⟨_, _, hlost, rfl⟩)
  · refine ⟨.lost, hlost, ?_, ?_⟩
    · refine List.countP_eq_zero.2 fun task hmem haudience => ?_
      rw [hgroup task hmem] at haudience
      cases of_decide_eq_true haudience
    · exact ⟨hothers, hshut⟩

/-- The job for the static fields has answered. -/
theorem Scanning.joinStatics {id : HandleId} {delivery : Delivery Tally}
    {answer : Except Failure Tally}
    (hscan : Scanning sheet alone before roots listed group (.issued id) rows l)
    (hget : l.board.handles[id]? = some delivery) (hanswer : delivery.answer? = some answer) :
    Scanning sheet alone before roots listed group (.joined answer) rows
      { l with board := l.board.dropHandle id } := by
  obtain ⟨hnone, hexcused⟩ := hscan.statics.answer hget hanswer
  refine ⟨hscan.untouched, hscan.heap, ?_, hscan.places, hscan.frontier, ?_, hscan.members,
    hexcused⟩
  · intro task hmem
    obtain ⟨hmarks, haudience | ⟨id', hid, haudience, -⟩⟩ := hscan.tasks task hmem
    · exact ⟨hmarks, .inl haudience⟩
    · cases hid
      exact absurd (decide_eq_true haudience) (List.countP_eq_zero.1 hnone task hmem)
  · refine hscan.covers.imp (fun hfailed => hfailed.imp (fun hgroup => hgroup) ?_) fun hcovers =>
      hcovers
    rintro ⟨delivery', failure, hget', hanswer'⟩
    rw [hget] at hget'
    cases hget'
    rw [hanswer] at hanswer'
    exact ⟨failure, Option.some.inj hanswer'⟩

/-- What a scan leaves behind, by its answer. One that succeeds leaves `H`. -/
def ScanEnd (sheet : Sheet) (alone : Prop) (before : World) (roots : List Slot)
    (H : Heap → Marks → Prop) (answer : Except Failure RootScan) (l : Ledger Job World Tally) :
    Prop :=
  match answer with
  | .ok found => found.staticSlots = (before.rowSlots before.staticRows).length ∧
      Resting sheet alone before H l
  | .error failure => Excused alone before.heap roots l.shutDown failure ∧
      (¬alone ∧ l.shutDown = true ∨ Resting sheet alone before (fun heap _ => heap = before.heap) l)

/-- What a scan leaves behind, by its answer, if nobody else marks. -/
abbrev Scanned (sheet : Sheet) (alone : Prop) (before : World) (roots : List Slot)
    (answer : Except Failure RootScan) (l : Ledger Job World Tally) : Prop :=
  ScanEnd sheet alone before roots (fun heap marks => heap = before.heap ∧ heap.Intact roots ∧
    ∀ ref, marks.contains ref = true ↔ heap.Reaches roots ref) answer l

/-- What is marked after a scan that has succeeded, if others may have marked what is listed. -/
structure Combed (before : World) (roots cells : List Slot) (listed : List Ref) (heap : Heap)
    (marks : Marks) : Prop where
  heap : heap = before.heap
  marked : ∀ ref, marks.contains ref = true → before.heap.Reaches roots ref
  covers : Covers before.heap cells marks [⟨[], listed⟩]

/-- A scan whose group has no members left has nothing left to do. It has failed, or everything
that the rows reach is marked, as if somebody had still to descend into what is listed. -/
theorem Scanning.close {answer : Except Failure Tally} {members : Group} (frames : Nat)
    (hscan : Scanning sheet alone before roots listed group (.joined answer) rows l)
    (hget : l.board.groups[group]? = some members) (hnone : members.pending = 0) :
    ScanEnd sheet alone before roots (Combed before roots (before.rowSlots rows) listed)
      (do
        let tally ← answer
        members.answer
        return ⟨frames, tally.entries⟩)
      { l with board := l.board.dropGroup group } := by
  obtain ⟨members', hget', hpending, hfaults⟩ := hscan.members
  rw [hget] at hget'
  cases hget'
  have hmine : ∀ task ∈ l.tasks, task.audience = .group group := by
    intro task hmem
    obtain ⟨-, haudience | ⟨id', hid, -⟩⟩ := hscan.tasks task hmem
    · exact haudience
    · cases hid
  have htasks : l.tasks = [] := by
    refine List.eq_nil_iff_forall_not_mem.2 fun task hmem => ?_
    have hcount : l.countOf (.group group) = 0 := by omega
    exact List.countP_eq_zero.1 hcount task hmem (decide_eq_true (hmine task hmem))
  have hplaces : l.places = [] := List.eq_nil_of_length_eq_zero (by omega)
  have hrest : ∀ {H : Heap → Marks → Prop}, H before.heap (l.env.sheet sheet) →
      Resting sheet alone before H { l with board := l.board.dropGroup group } := by
    intro H hcontents
    refine ⟨htasks, hplaces, hscan.untouched, ?_⟩
    rw [hscan.heap]
    exact hcontents
  cases answer with
  | error failure => exact ⟨hscan.statics, .inr (hrest rfl)⟩
  | ok tally =>
    cases hfailed : members.faults with
    | cons message later =>
      have hanswer : members.answer = .error (.taskFaulted message) := by
        rw [Group.answer, hfailed]
      rw [hanswer]
      exact ⟨hfaults message (by rw [hfailed]; exact List.mem_cons_self), .inr (hrest rfl)⟩
    | nil =>
      have hanswer : members.answer = .ok () := by
        rw [Group.answer, hfailed]
      rw [hanswer]
      have hcovers : Covers before.heap (before.rowSlots rows) (l.env.sheet sheet)
          [⟨[], listed⟩] := by
        obtain (⟨members', hget', hfaulted⟩ | ⟨failure, heq⟩) | hcovers := hscan.covers
        · rw [hget] at hget'
          cases hget'
          exact absurd hfailed hfaulted
        · cases heq
        · rw [htasks] at hcovers
          exact hcovers
      exact ⟨hscan.statics, hrest ⟨rfl, hscan.frontier.marked, hcovers⟩⟩

/-- What the jobs of frames leave behind once they are handed out, by the answer. -/
private def Spawned (sheet : Sheet) (alone : Prop) (before : World) (roots : List Slot)
    (listed : List Ref) (group : GroupId) (rows : List RootRow) :
    Except Failure Unit → Ledger Job World Tally → Prop
  | .ok () => Scanning sheet alone before roots listed group .unissued rows
  | .error failure => fun l => failure = .poolShutDown ∧ ¬alone ∧ l.shutDown = true

/-- Surroundings that keep a scan going, in which others mark no more than what is listed. -/
structure Benign (env : Machine → Machine → Prop) (sheet : Sheet) (alone : Prop) (before : World)
    (roots : List Slot) (listed : List Ref) : Prop where
  alive : alone → ∀ machine machine', Around alone machine machine' → env machine machine'
  closed : Firm env alone fun l => l.shutDown = true
  resting : Firm env alone (Resting sheet alone before fun heap marks => heap = before.heap ∧
    ∀ ref, marks.contains ref = true → ref ∈ listed)
  scanning : ∀ group handling rows,
    Firm env alone (Scanning sheet alone before roots listed group handling rows)
  reaches : ∀ ref ∈ listed, before.heap.Reaches roots ref

/-- Workers and bystanders keep a scan going. -/
theorem benign_around (hguards : before.Guards sheet alone) :
    Benign (Around alone) sheet alone before roots [] where
  alive _ _ _ haround := haround
  closed := kept_closed.firm
  resting := (kept_resting_of_guards hguards).firm
  scanning _ _ _ := (kept_scanning hguards).firm
  reaches := List.forall_mem_nil _

section

variable {env : Machine → Machine → Prop}

/-- One more row is handed out. -/
private theorem carries_spawnRow (henv : Benign env sheet alone before roots listed)
    {frame : FrameId} {row : FrameRow}
    (hcells : ∀ ref, some ref ∈ before.rootSlots (.frame frame row) →
      before.heap.Reaches roots ref) :
    CarriesIn env alone ended (Scanning sheet alone before roots listed group .unissued rows)
      (Pool.spawnMember group (Job.markRow sheet frame row) 0)
      (Spawned sheet alone before roots listed group (rows ++ [.frame frame row])) :=
  carries_spawnMember (henv.scanning _ _ _) (henv.scanning _ _ _)
    (fun _ hscan => hscan.spawn frame row hcells)
    (fun hothers _ _ hshut => ⟨rfl, hothers, hshut⟩)

/-- Both rows of every frame are handed out. -/
private theorem carries_spawnFrames (henv : Benign env sheet alone before roots listed)
    {frames : List FrameId}
    (hcells : ∀ frame ∈ frames, ∀ row ref, some ref ∈ before.rootSlots (.frame frame row) →
      before.heap.Reaches roots ref) :
    CarriesIn env alone ended (Scanning sheet alone before roots listed group .unissued rows)
      (spawnFrames sheet group frames)
      (Spawned sheet alone before roots listed group
        (rows ++ frames.flatMap fun id => [.frame id .operands, .frame id .locals])) := by
  induction frames generalizing rows with
  | nil =>
    rw [List.flatMap_nil, List.append_nil]
    exact carries_pure fun _ hscan => hscan
  | cons frame frames ih =>
    have hhere := hcells frame List.mem_cons_self
    refine carries_bind (carries_spawnRow henv (hhere .operands)) fun answer => ?_
    cases answer with
    | error failure => exact carries_pure fun _ hrefused => hrefused
    | ok _ =>
      refine carries_bind (carries_spawnRow henv (hhere .locals)) fun answer => ?_
      cases answer with
      | error failure => exact carries_pure fun _ hrefused => hrefused
      | ok _ =>
        have hrows : rows ++ (frame :: frames).flatMap
            (fun id => [RootRow.frame id .operands, .frame id .locals]) =
              rows ++ [.frame frame .operands] ++ [.frame frame .locals]
                ++ frames.flatMap fun id => [RootRow.frame id .operands, .frame id .locals] := by
          simp only [List.flatMap_cons, List.append_assoc, List.cons_append, List.nil_append]
        rw [hrows]
        exact ih fun frame' hmem => hcells frame' (List.mem_cons_of_mem _ hmem)

/-- What a scan reports of the group that it waits for, once the static job has answered. -/
private theorem carries_closeGroup (henv : Benign env sheet alone before roots listed)
    (frames : Nat) (answer : Except Failure Tally) :
    CarriesIn env alone ended
      (Scanning sheet alone before roots listed group (.joined answer) rows)
      (Pool.waitGroup group)
      (fun members => ScanEnd sheet alone before roots
        (Combed before roots (before.rowSlots rows) listed) (do
        let tally ← answer
        members
        return ⟨frames, tally.entries⟩)) := by
  refine carries_waitGroup (henv.scanning _ _ _) henv.alive ?_ ?_
  · intro _ l hscan
    obtain ⟨members, hget, hpending, -⟩ := hscan.members
    refine ⟨members, hget, fun hmembers => ?_⟩
    by_contra hidle
    obtain ⟨htasks, hplaces⟩ := not_or.1 hidle
    rw [hpending, Ledger.countOf, not_not.1 htasks, not_not.1 hplaces] at hmembers
    exact hmembers rfl
  · intro l members hscan hget hnone
    exact hscan.close frames hget hnone

/-- The job for the static fields is handed out and waited for. -/
private theorem carries_joinStatics (henv : Benign env sheet alone before roots listed)
    (hcells : ∀ ref, some ref ∈ before.rowSlots before.staticRows →
      before.heap.Reaches roots ref)
    {f : Except Failure Tally → Call Machine (Except Failure RootScan)}
    {P' : Except Failure RootScan → Ledger Job World Tally → Prop}
    (hthen : ∀ answer, CarriesIn env alone ended
      (Scanning sheet alone before roots listed group (.joined answer)
        (rows ++ before.staticRows))
      (f answer) P') :
    CarriesIn env alone ended (Scanning sheet alone before roots listed group .unissued rows)
      (do
        let statics ← Pool.submit (.markStatics sheet) 0
        let statics ← Pool.tryJoin statics
        f statics) P' := by
  refine carries_bind (R := fun id => Scanning sheet alone before roots listed group (.issued id)
    (rows ++ before.staticRows)) ?_ fun id => ?_
  · exact carries_submit (henv.scanning _ _ _) (fun _ => henv.scanning _ _ _)
      (fun _ => henv.scanning _ _ _) (fun _ => (henv.scanning _ _ _).and henv.closed)
      (fun _ hscan => hscan.openStatics) (fun _ _ hscan => hscan.issueStatics hcells)
      (fun hothers _ _ hscan hshut => hscan.loseStatics hothers hshut)
  · refine carries_bind (R := fun answer => Scanning sheet alone before roots listed group
      (.joined answer) (rows ++ before.staticRows)) ?_ hthen
    exact carries_tryJoin (henv.scanning _ _ _) henv.alive
      (fun _ _ hscan => hscan.statics.exists_delivery)
      (fun _ _ _ hscan hget hanswer => hscan.joinStatics hget hanswer)

/-- A scan whose jobs were refused gives up its group. -/
private theorem carries_abandon (henv : Benign env sheet alone before roots listed)
    {H : Heap → Marks → Prop} (failure : Failure) (frames : Nat) :
    CarriesIn env alone ended (fun l => failure = .poolShutDown ∧ ¬alone ∧ l.shutDown = true)
      (do
        Pool.abandonGroup group
        return .error failure)
      (fun answer l => ScanEnd sheet alone before roots H answer l ∧
        ∀ found, answer = .ok found → found.frames = frames) := by
  refine carries_given fun hfailure => carries_given fun hothers => ?_
  refine carries_bind (R := fun _ l => l.shutDown = true) ?_ fun _ => ?_
  · exact carries_abandonGroup henv.closed fun _ hshut => hshut
  refine carries_pure fun l hshut => ?_
  rw [hfailure]
  refine ⟨⟨⟨hothers, hshut⟩, .inl ⟨hothers, hshut⟩⟩, fun found heq => ?_⟩
  cases heq

/-- A scan that begins with nothing marked but what is listed marks what the roots of the stacks
reach, as if somebody had still to descend into what is listed, or reports a missing entry. -/
theorem carries_scan_among (henv : Benign env sheet alone before roots listed)
    (callStacks : List CallStack)
    (hroots : ∀ slot ∈ before.roots callStacks, slot ∈ roots) :
    CarriesIn env alone ended
      (Resting sheet alone before fun heap marks => heap = before.heap ∧
        ∀ ref, marks.contains ref = true → ref ∈ listed)
      (scan sheet callStacks)
      (fun answer l => ScanEnd sheet alone before roots
          (Combed before roots (before.roots callStacks) listed) answer l ∧
        ∀ found, answer = .ok found → found.frames = callStacks.flatten.length) := by
  have hreaches : ∀ row ∈ before.rootRows callStacks, ∀ ref, some ref ∈ before.rootSlots row →
      before.heap.Reaches roots ref := by
    intro row hrow ref hmem
    exact .root (hroots _ (List.mem_flatMap.2 ⟨row, hrow, hmem⟩))
  refine carries_bind (R := fun group =>
    Scanning sheet alone before roots listed group .unissued []) ?_ ?_
  · exact carries_newGroup henv.resting fun _ hrest => hrest.scanning henv.reaches
  intro group
  refine carries_bind (carries_spawnFrames henv ?_) fun answer => ?_
  · intro frame hframe row ref hmem
    refine hreaches (.frame frame row) (List.mem_append_left _ ?_) ref hmem
    refine List.mem_flatMap.2 ⟨frame, hframe, ?_⟩
    cases row <;> simp
  rw [List.nil_append]
  cases answer with
  | error failure => exact carries_abandon henv failure _
  | ok _ =>
    refine carries_joinStatics henv ?_ fun statics => ?_
    · intro ref hmem
      obtain ⟨row, hrow, hslot⟩ := List.mem_flatMap.1 hmem
      exact hreaches row (List.mem_append_right _ hrow) ref hslot
    · refine carries_bind (carries_closeGroup henv callStacks.flatten.length statics)
        fun members => carries_pure fun l hscanned => ⟨hscanned, fun found heq => ?_⟩
      cases statics with
      | error failure => cases heq
      | ok tally =>
        cases members with
        | error failure => cases heq
        | ok _ =>
          cases heq
          rfl

end

/-- A scan that begins at rest marks what the roots reach, or reports a missing entry that they
reach. -/
theorem carries_scan (hguards : before.Guards sheet alone) (callStacks : List CallStack) :
    Carries alone ended
      (Resting sheet alone before fun heap marks => heap = before.heap ∧ marks = {})
      (scan sheet callStacks)
      (fun answer l => Scanned sheet alone before (before.roots callStacks) answer l ∧
        ∀ found, answer = .ok found → found.frames = callStacks.flatten.length) := by
  refine (carries_scan_among (benign_around hguards) callStacks fun _ hslot => hslot).mono ?_ ?_
  · refine fun l hrest => hrest.mono fun heap marks hcontents => ?_
    refine ⟨hcontents.1, fun ref hmarked => ?_⟩
    rw [hcontents.2, Marks.contains_empty] at hmarked
    cases hmarked
  · rintro answer l ⟨hend, hframes⟩
    refine ⟨?_, hframes⟩
    cases answer with
    | error failure => exact hend
    | ok found =>
      refine ⟨hend.1, hend.2.mono fun heap marks hcombed => ?_⟩
      obtain rfl := hcombed.heap
      have hcovers := hcombed.covers.drop_cons rfl rfl
      exact ⟨rfl, fun ref hreach => (hcovers.marked_of_reaches hreach).2,
        fun ref => ⟨hcombed.marked ref, fun hreach => (hcovers.marked_of_reaches hreach).1⟩⟩

end Machine

end MarkSweep
