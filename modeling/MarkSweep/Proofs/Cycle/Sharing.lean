import MarkSweep.Proofs.Cycle.Confined
import MarkSweep.Proofs.Pool.Books

namespace MarkSweep

namespace Ledger

variable {β ε ρ : Type} {B : Body β ε ρ} {l l' : Ledger β ε ρ} {id : HandleId} {task : Task β}

/-- Each handle is for one task, which is gone once the handle has an answer, and a handle that was
not given out is for none. -/
structure Numbered (l : Ledger β ε ρ) : Prop where
  single : ∀ id, l.countOf (.handle id) ≤ 1
  fresh : ∀ id, l.board.nextHandle ≤ id → l.countOf (.handle id) = 0
  answered : ∀ id delivery answer, l.board.handles[id]? = some delivery →
    delivery.answer? = some answer → l.countOf (.handle id) = 0

/-- A handle that waits for a task that is still to be queued. -/
structure Opened (id : HandleId) (l : Ledger β ε ρ) : Prop where
  awaited : l.board.handles[id]? = some .awaited
  unused : l.countOf (.handle id) = 0
  below : id < l.board.nextHandle

/-- No task answers to whom none is counted for. -/
theorem audience_ne {audience : Audience} (hnone : l.countOf audience = 0) (hmem : task ∈ l.tasks) :
    task.audience ≠ audience :=
  fun heq => List.countP_eq_zero.1 hnone task hmem (decide_eq_true heq)

theorem Similar.countOf (hsimilar : Similar l l') (audience : Audience) :
    l'.countOf audience = l.countOf audience :=
  (hsimilar.tasks.countP_eq _).symm

/-- A handle that is for no task stays so. -/
theorem Turn.countOf_eq_zero (hturn : Turn B l l') (hnone : l.countOf (.handle id) = 0) :
    l'.countOf (.handle id) = 0 := by
  cases hturn with
  | advance _ _ =>
    rw [countOf_cons] at hnone ⊢
    exact hnone
  | finish _ _ =>
    rw [countOf_cons] at hnone
    exact Nat.eq_zero_of_add_eq_zero_right hnone
  | leave => exact hnone

/-- A worker gives out no handles, and tells only the handle of a task that ends. -/
theorem Turn.handles (hturn : Turn B l l') (id : HandleId) :
    l'.board.nextHandle = l.board.nextHandle ∧
      (l.countOf (.handle id) = 0 → l'.board.handles[id]? = l.board.handles[id]?) := by
  cases hturn with
  | advance _ _ => exact ⟨rfl, fun _ => rfl⟩
  | @finish env _ task _ _ _ _ _ _ _ _ _ =>
    refine ⟨Board.nextHandle_hear _ _ _, fun hnone => Board.handles_hear_of_ne fun haudience => ?_⟩
    rw [countOf_cons, if_pos haudience] at hnone
    cases hnone
  | leave => exact ⟨rfl, fun _ => rfl⟩

theorem Numbered.similar (hl : l.Numbered) (hsimilar : Similar l l') : l'.Numbered := by
  refine ⟨fun id => ?_, fun id hid => ?_, fun id delivery answer hget hanswer => ?_⟩
  · rw [hsimilar.countOf]
    exact hl.single id
  · rw [hsimilar.countOf]
    exact hl.fresh id (hsimilar.board ▸ hid)
  · rw [hsimilar.countOf]
    exact hl.answered id delivery answer (hsimilar.board ▸ hget) hanswer

/-- The workers keep the numbers in order. -/
theorem Numbered.turn (hl : l.Numbered) (hturn : Turn B l l') : l'.Numbered := by
  refine ⟨fun id => ?_, fun id hid => ?_, fun id delivery answer hget hanswer => ?_⟩
  · refine Nat.le_trans ?_ (hl.single id)
    cases hturn with
    | advance _ _ =>
      rw [countOf_cons, countOf_cons]
      exact Nat.le_refl _
    | finish _ _ =>
      rw [countOf_cons]
      exact Nat.le_add_right _ _
    | leave => exact Nat.le_refl _
  · refine hturn.countOf_eq_zero (hl.fresh id ?_)
    rw [← (hturn.handles id).1]
    exact hid
  · cases hcount : l.countOf (.handle id) with
    | zero => exact hturn.countOf_eq_zero hcount
    | succ n =>
      -- The handle has still been waiting before the turn, which has ended its one task.
      have hone := hl.single id
      cases hturn with
      | advance _ _ =>
        rw [hl.answered id delivery answer hget hanswer] at hcount
        cases hcount
      | @finish _ _ task outcome tasks _ board _ _ _ _ _ =>
        by_cases haudience : task.audience = .handle id
        · rw [countOf_cons, if_pos haudience] at hone
          exact Nat.eq_zero_of_le_zero (Nat.le_of_succ_le_succ hone)
        · have hbefore : board.handles[id]? = some delivery :=
            (Board.handles_hear_of_ne haudience).symm.trans hget
          rw [hl.answered id delivery answer hbefore hanswer] at hcount
          cases hcount
      | leave =>
        rw [hl.answered id delivery answer hget hanswer] at hcount
        cases hcount

/-- Nothing about the numbers depends on the groups. -/
theorem Numbered.setBoard (hl : l.Numbered) {board : Board ρ}
    (hhandles : board.handles = l.board.handles) (hnext : board.nextHandle = l.board.nextHandle) :
    Numbered { l with board } := by
  refine ⟨hl.single, fun id hid => hl.fresh id ?_, fun id delivery answer hget => ?_⟩
  · rw [← hnext]
    exact hid
  · refine hl.answered id delivery answer ?_
    rw [← hhandles]
    exact hget

/-- A new handle is for no task yet. -/
theorem Numbered.openHandle (hl : l.Numbered) :
    Numbered { l with board := l.board.openHandle.2 } ∧
      Opened l.board.nextHandle { l with board := l.board.openHandle.2 } := by
  have hunused := hl.fresh _ (Nat.le_refl _)
  refine ⟨⟨hl.single, fun id hid => hl.fresh id (Nat.le_of_succ_le hid), ?_⟩,
    ⟨by rw [Board.getElem?_openHandle, if_pos rfl], hunused, Nat.lt_succ_self _⟩⟩
  intro id delivery answer hget hanswer
  rw [Board.getElem?_openHandle] at hget
  split at hget
  · next heq => exact heq ▸ hunused
  · exact hl.answered id delivery answer hget hanswer

/-- A handle that is for no task may be told of anything. -/
theorem Numbered.tell (hl : l.Numbered) (hunused : l.countOf (.handle id) = 0)
    (delivery : Delivery ρ) : Numbered { l with board := l.board.tell id delivery } := by
  refine ⟨hl.single, hl.fresh, fun other found answer hget hanswer => ?_⟩
  rw [Board.getElem?_tell] at hget
  split at hget
  · next heq => exact heq ▸ hunused
  · exact hl.answered other found answer hget hanswer

theorem Numbered.dropHandle (hl : l.Numbered) (id : HandleId) :
    Numbered { l with board := l.board.dropHandle id } := by
  refine ⟨hl.single, hl.fresh, fun other found answer hget hanswer => ?_⟩
  rw [Board.getElem?_dropHandle] at hget
  split at hget
  · cases hget
  · exact hl.answered other found answer hget hanswer

/-- A task is queued for a group, or for a handle that waits for it. -/
theorem Numbered.queue (hl : l.Numbered)
    (hopened : ∀ id, task.audience = .handle id → Opened id l) :
    Numbered { l with tasks := task :: l.tasks } := by
  refine ⟨fun id => ?_, fun id hid => ?_, fun id delivery answer hget hanswer => ?_⟩ <;>
    rw [countOf_cons] <;> split
  · next haudience => exact Nat.le_of_eq (congrArg (· + 1) (hopened id haudience).unused)
  · exact hl.single id
  · next haudience => exact absurd hid (Nat.not_le.2 (hopened id haudience).below)
  · exact hl.fresh id hid
  · next haudience =>
    have hawaited : l.board.handles[id]? = some delivery := hget
    rw [(hopened id haudience).awaited] at hawaited
    cases hawaited
    cases hanswer
  · exact hl.answered id delivery answer hget hanswer

end Ledger

namespace Machine

/-- A ledger that others may have tasks in. The sweeps among its tasks are those that answer to the
handles in `owed`. -/
structure Shared (owed : List HandleId) (l : Ledger Job World Tally) : Prop where
  numbered : l.Numbered
  sweeps : ∀ task ∈ l.tasks, task.body.isSweep = true ↔ ∃ id ∈ owed, task.audience = .handle id
  below : ∀ id ∈ owed, id < l.board.nextHandle
  /-- A sweep does not fail. -/
  refused : ∀ id ∈ owed, ∀ delivery failure, l.board.handles[id]? = some delivery →
    delivery.answer? = some (.error failure) → failure = .poolShutDown

variable {alone : Prop} {ended : List Bool} {owed owed' : List HandleId}
  {l l' : Ledger Job World Tally} {id : HandleId} {live : LiveSet} {heap : Heap}

/-- Nothing is wrong with the handles of a ledger without tasks. -/
theorem shared_of_idle (htasks : l.tasks = []) : Shared [] l := by
  have hnone : ∀ audience, l.countOf audience = 0 := by
    intro audience
    rw [Ledger.countOf, htasks]
    rfl
  refine ⟨⟨fun id => (hnone _).trans_le (Nat.zero_le _), fun id _ => hnone _,
    fun id _ _ _ _ => hnone _⟩, fun task hmem => ?_, List.forall_mem_nil _,
    List.forall_mem_nil _⟩
  rw [htasks] at hmem
  cases hmem

theorem Shared.similar (hl : Shared owed l) (hsimilar : l.Similar l') : Shared owed l' where
  numbered := hl.numbered.similar hsimilar
  sweeps task hmem := hl.sweeps task (hsimilar.tasks.mem_iff.2 hmem)
  below := hsimilar.board ▸ hl.below
  refused := hsimilar.board ▸ hl.refused

/-- A task that ends is a sweep that has swept, or leaves the heap and the handles of the sweeps
alone. -/
theorem Shared.finish {env env' : World} {task : Task Job} {tasks : List (Task Job)}
    {places : List GroupId} {board : Board Tally} {shut : Bool} {thread : Thread}
    {outcome : MarkSweep.Outcome Tally} (hl : Shared owed ⟨env, task :: tasks, places, board, shut⟩)
    (hfree : thread.held = []) (hstep : task.body.step thread env = .finish env' outcome) :
    ∀ id ∈ owed, ∀ delivery failure,
      (board.hear task.audience outcome).handles[id]? = some delivery →
        delivery.answer? = some (.error failure) → failure = .poolShutDown := by
  intro id hid delivery failure hget hanswer
  by_cases haudience : task.audience = .handle id
  · have hsweep := (hl.sweeps task List.mem_cons_self).2 ⟨id, hid, haudience⟩
    obtain ⟨audience, body, owners⟩ := task
    obtain rfl : audience = .handle id := haudience
    cases body with
    | mark _ | markStatics _ => cases hsweep
    | sweep region live =>
      have hended : Job.body.step "" thread env (.sweep region live) = .finish env' outcome := hstep
      rw [step_sweep hfree] at hended
      cases hended
      simp only [Board.hear, Board.getElem?_tell, if_true] at hget
      obtain ⟨_, -, rfl⟩ := Option.map_eq_some_iff.1 hget
      cases hanswer
  · rw [Board.handles_hear_of_ne haudience] at hget
    exact hl.refused id hid delivery failure hget hanswer

theorem Shared.setEnv (hl : Shared owed l) (env : World) (shut : Bool) :
    Shared owed { l with env, shutDown := shut } :=
  ⟨⟨hl.numbered.single, hl.numbered.fresh, hl.numbered.answered⟩, hl.sweeps, hl.below, hl.refused⟩

/-- The workers leave the tasks of others what they are. -/
theorem kept_shared : Kept alone (Shared owed) where
  similar := Shared.similar
  turn := by
    intro l l' hl hturn
    have hnext := (hturn.handles 0).1
    refine ⟨hl.numbered.turn hturn, ?_, fun id hid => hnext ▸ hl.below id hid, ?_⟩
    · intro task hmem
      cases hturn with
      | @advance env env' first rest tasks _ _ _ _ _ hfree hstep =>
        obtain rfl | hmem := List.mem_cons.1 hmem
        · have hfirst := hl.sweeps first List.mem_cons_self
          cases hbody : first.body.isSweep with
          | false =>
            rw [(Job.step_next_of_marks hbody hstep).2, ← hfirst, hbody]
          | true =>
            obtain ⟨audience, body, owners⟩ := first
            cases body with
            | mark _ | markStatics _ => cases hbody
            | sweep region live =>
              rw [step_sweep hfree] at hstep
              cases hstep
        · exact hl.sweeps task (List.mem_cons_of_mem _ hmem)
      | finish _ _ => exact hl.sweeps task (List.mem_cons_of_mem _ hmem)
      | leave => exact hl.sweeps task hmem
    · cases hturn with
      | advance _ _ => exact hl.refused
      | finish hfree hstep => exact hl.finish hfree hstep
      | leave => exact hl.refused
  spared := fun _ _ _ _ hl _ _ => hl.setEnv _ _

/-- Where nobody sweeps, the heap stays as it is. -/
def Lent (heap : Heap) (l : Ledger Job World Tally) : Prop := Shared [] l ∧ l.env.heap = heap

theorem kept_lent : Kept alone (Lent heap) where
  similar := fun hl hsimilar => ⟨hl.1.similar hsimilar, hsimilar.env ▸ hl.2⟩
  turn := by
    intro l l' hl hturn
    have hmarks : ∀ task ∈ l.tasks, task.body.isSweep = false := by
      intro task hmem
      refine Bool.eq_false_iff.2 fun hsweep => ?_
      obtain ⟨id, hid, -⟩ := (hl.1.sweeps task hmem).1 hsweep
      cases hid
    have hkept : Kept alone (Unerased heap) := kept_unerased
    exact ⟨(kept_shared : Kept alone (Shared [])).turn hl.1 hturn,
      (hkept.turn ⟨hl.2, hmarks⟩ hturn).heap⟩
  spared := fun _ _ _ _ hl hspared _ => ⟨hl.1.setEnv _ _, hspared.heap.trans hl.2⟩

theorem kept_opened : Kept alone (Ledger.Opened id) where
  similar := fun hl hsimilar =>
    ⟨hsimilar.board ▸ hl.awaited, (hsimilar.countOf _).trans hl.unused, hsimilar.board ▸ hl.below⟩
  turn := by
    intro l l' hl hturn
    obtain ⟨hnext, hsame⟩ := hturn.handles id
    refine ⟨(hsame hl.unused).trans hl.awaited, hturn.countOf_eq_zero hl.unused, ?_⟩
    rw [hnext]
    exact hl.below
  spared := fun _ _ _ _ hl _ _ => ⟨hl.awaited, hl.unused, hl.below⟩

theorem Shared.setBoard (hl : Shared owed l) {board : Board Tally}
    (hhandles : board.handles = l.board.handles) (hnext : board.nextHandle = l.board.nextHandle) :
    Shared owed { l with board } :=
  ⟨hl.numbered.setBoard hhandles hnext, hl.sweeps, hnext ▸ hl.below, hhandles ▸ hl.refused⟩

theorem Shared.openHandle (hl : Shared owed l) :
    Shared owed { l with board := l.board.openHandle.2 } := by
  refine ⟨hl.numbered.openHandle.1, hl.sweeps, fun id hid => Nat.lt_succ_of_lt (hl.below id hid),
    fun id hid delivery failure hget hanswer => ?_⟩
  rw [Board.getElem?_openHandle, if_neg (Nat.ne_of_gt (hl.below id hid))] at hget
  exact hl.refused id hid delivery failure hget hanswer

/-- A task that marks is queued. -/
theorem Shared.queue (hl : Shared [] l) {task : Task Job} (hmarks : task.body.isSweep = false)
    (hopened : ∀ id, task.audience = .handle id → Ledger.Opened id l) :
    Shared [] { l with tasks := task :: l.tasks } := by
  refine ⟨hl.numbered.queue hopened, fun other hmem => ?_, hl.below, hl.refused⟩
  obtain rfl | hmem := List.mem_cons.1 hmem
  · simp [hmarks]
  · exact hl.sweeps other hmem

/-- A handle that is for no task makes no difference. -/
theorem Shared.sweeps_cons (hl : Shared owed l) (hunused : l.countOf (.handle id) = 0)
    {task : Task Job} (hmem : task ∈ l.tasks) :
    task.body.isSweep = true ↔ ∃ other ∈ id :: owed, task.audience = .handle other := by
  rw [hl.sweeps task hmem]
  refine ⟨fun ⟨other, hother, haudience⟩ => ⟨other, List.mem_cons_of_mem _ hother, haudience⟩, ?_⟩
  rintro ⟨other, hother, haudience⟩
  obtain rfl | hother := List.mem_cons.1 hother
  · exact absurd haudience (Ledger.audience_ne hunused hmem)
  · exact ⟨other, hother, haudience⟩

/-- A task that sweeps is queued. -/
theorem Shared.queueSweep (hl : Shared owed l) (hopened : Ledger.Opened id l) (region : Region) :
    Shared (id :: owed) { l with tasks := ⟨.handle id, .sweep region live, 0⟩ :: l.tasks } := by
  refine ⟨hl.numbered.queue fun other haudience => ?_, fun task hmem => ?_, fun other hmem => ?_,
    fun other hmem delivery failure hget hanswer => ?_⟩
  · obtain rfl := Audience.handle.inj haudience
    exact hopened
  · obtain rfl | hmem := List.mem_cons.1 hmem
    · exact ⟨fun _ => ⟨id, List.mem_cons_self, rfl⟩, fun _ => rfl⟩
    · exact hl.sweeps_cons hopened.unused hmem
  · obtain rfl | hmem := List.mem_cons.1 hmem
    · exact hopened.below
    · exact hl.below other hmem
  · obtain rfl | hmem := List.mem_cons.1 hmem
    · have hawaited : l.board.handles[other]? = some delivery := hget
      rw [hopened.awaited] at hawaited
      cases hawaited
      cases hanswer
    · exact hl.refused other hmem delivery failure hget hanswer

/-- The pool has refused a sweep. -/
theorem Shared.lose (hl : Shared owed l) (hopened : Ledger.Opened id l) :
    Shared (id :: owed) { l with board := l.board.tell id .lost } := by
  refine ⟨hl.numbered.tell hopened.unused _, fun task hmem => hl.sweeps_cons hopened.unused hmem,
    fun other hmem => ?_, fun other hmem delivery failure hget hanswer => ?_⟩
  · obtain rfl | hmem := List.mem_cons.1 hmem
    · exact hopened.below
    · exact hl.below other hmem
  · rw [Board.getElem?_tell] at hget
    split at hget
    · obtain ⟨_, -, rfl⟩ := Option.map_eq_some_iff.1 hget
      cases hanswer
      rfl
    · next hne =>
      obtain rfl | hmem := List.mem_cons.1 hmem
      · exact absurd rfl hne
      · exact hl.refused other hmem delivery failure hget hanswer

/-- A sweep has answered, and is gone. -/
theorem Shared.join (hl : Shared (owed ++ [id]) l) {delivery : Delivery Tally}
    {answer : Except Failure Tally} (hget : l.board.handles[id]? = some delivery)
    (hanswer : delivery.answer? = some answer) :
    (∀ failure, answer = .error failure → failure = .poolShutDown) ∧
      Shared owed { l with board := l.board.dropHandle id } := by
  have hid : id ∈ owed ++ [id] := List.mem_append_right _ (List.mem_singleton.2 rfl)
  refine ⟨fun failure hfailure => ?_, hl.numbered.dropHandle id, fun task hmem => ?_,
    fun other hmem => hl.below other (List.mem_append_left _ hmem),
    fun other hmem found failure hfound => ?_⟩
  · exact hl.refused id hid delivery failure hget (hfailure ▸ hanswer)
  · rw [hl.sweeps task hmem]
    refine ⟨?_, fun ⟨other, hother, haudience⟩ =>
      ⟨other, List.mem_append_left _ hother, haudience⟩⟩
    rintro ⟨other, hother, haudience⟩
    obtain hother | hother := List.mem_append.1 hother
    · exact ⟨other, hother, haudience⟩
    · obtain rfl := List.mem_singleton.1 hother
      exact absurd haudience
        (Ledger.audience_ne (hl.numbered.answered other delivery answer hget hanswer) hmem)
  · rw [Board.getElem?_dropHandle] at hfound
    split at hfound
    · cases hfound
    · exact hl.refused other (List.mem_append_left _ hmem) found failure hfound

theorem Lent.setBoard (hl : Lent heap l) {board : Board Tally}
    (hhandles : board.handles = l.board.handles) (hnext : board.nextHandle = l.board.nextHandle) :
    Lent heap { l with board } :=
  ⟨hl.1.setBoard hhandles hnext, hl.2⟩

/-- A sweep is handed out among the tasks of others. -/
private theorem carries_submitOwed (region : Region) :
    Carries False ended (Shared owed) (Pool.submit (.sweep region live) 0)
      fun id => Shared (id :: owed) := by
  have hopened : ∀ id, Kept False fun l => Shared owed l ∧ Ledger.Opened id l := fun _ =>
    kept_shared.and kept_opened
  refine carries_submit kept_shared.firm (fun id => (hopened id).firm) (fun _ => kept_shared.firm)
    (fun id => ((hopened id).and kept_closed).firm) ?_ ?_ ?_
  · exact fun l hl => ⟨hl.openHandle, hl.numbered.openHandle.2⟩
  · exact fun id l hl => hl.1.queueSweep hl.2 region
  · exact fun _ id l hl _ => hl.1.lose hl.2

private theorem carries_joinOwed (owed : List HandleId) (id : HandleId) :
    Carries False ended (Shared (owed ++ [id])) (Pool.tryJoin id) fun answer l =>
      (∀ failure, answer = .error failure → failure = .poolShutDown) ∧ Shared owed l := by
  refine carries_tryJoin kept_shared.firm False.elim False.elim ?_
  exact fun l delivery answer hl hget hanswer => hl.join hget hanswer

/-- A sweep among the tasks of others is done when it answers, and fails only if the pool was shut
down. -/
theorem carries_sweep_shared (live : LiveSet) :
    Carries False ended (Shared []) (sweep live) fun answer l =>
      (∀ failure, answer = .error failure → failure = .poolShutDown) ∧ Shared [] l := by
  refine carries_bind (carries_submitOwed .objects) fun objects => ?_
  refine carries_bind (carries_submitOwed .arrays) fun arrays => ?_
  refine carries_bind (carries_submitOwed .monitors) fun monitors => ?_
  refine carries_bind (carries_joinOwed [monitors, arrays] objects) fun forObjects => ?_
  refine carries_given fun hobjects => ?_
  refine carries_bind (carries_joinOwed [monitors] arrays) fun forArrays => ?_
  refine carries_given fun harrays => ?_
  refine carries_bind (carries_joinOwed [] monitors) fun forMonitors => ?_
  refine carries_given fun hmonitors => ?_
  refine carries_pure fun l hl => ⟨?_, hl⟩
  cases forObjects with
  | error failure =>
    rintro _ ⟨⟩
    exact hobjects failure rfl
  | ok _ =>
    cases forArrays with
    | error failure =>
      rintro _ ⟨⟩
      exact harrays failure rfl
    | ok _ =>
      cases forMonitors with
      | error failure =>
        rintro _ ⟨⟩
        exact hmonitors failure rfl
      | ok _ => exact nofun

/-- The jobs of frames are handed out among the tasks of others. -/
private theorem carries_spawnFrames_lent (sheet : Sheet) (group : GroupId) (frames : List FrameId) :
    Carries False ended (Lent heap) (spawnFrames sheet group frames) fun _ => Lent heap := by
  have hspawn : ∀ frame row, Carries False ended (Lent heap)
      (Pool.spawnMember group (Job.markRow sheet frame row) 0) fun _ => Lent heap := by
    intro frame row
    refine carries_spawnMember kept_lent.firm kept_lent.firm ?_ fun _ _ hl _ => hl
    intro l hl
    have hqueued : Lent heap
        { l with tasks := ⟨.group group, Job.markRow sheet frame row, 0⟩ :: l.tasks } :=
      ⟨hl.1.queue rfl nofun, hl.2⟩
    exact hqueued.setBoard rfl rfl
  induction frames with
  | nil => exact carries_pure fun _ hl => hl
  | cons frame frames ih =>
    refine carries_bind (hspawn frame .operands) fun answer => ?_
    cases answer with
    | error failure => exact carries_pure fun _ hl => hl
    | ok _ =>
      refine carries_bind (hspawn frame .locals) fun answer => ?_
      cases answer with
      | error failure => exact carries_pure fun _ hl => hl
      | ok _ => exact ih

/-- Whatever comes of a scan among the tasks of others, the heap stays as it is. -/
theorem carries_scan_lent (sheet : Sheet) (callStacks : List CallStack) :
    Carries False ended (Lent heap) (scan sheet callStacks) fun _ => Lent heap := by
  refine carries_bind (R := fun _ => Lent heap)
    (carries_newGroup kept_lent.firm fun l hl => hl.setBoard rfl rfl) fun group => ?_
  refine carries_bind (carries_spawnFrames_lent sheet group _) fun answer => ?_
  cases answer with
  | error failure =>
    refine carries_bind (R := fun _ => Lent heap)
      (carries_abandonGroup kept_lent.firm fun l hl => hl.setBoard rfl rfl) fun _ => ?_
    exact carries_pure fun _ hl => hl
  | ok _ =>
    refine carries_bind (R := fun _ => Lent heap) ?submit fun id => ?_
    case submit =>
      have hopened : ∀ id, Kept False fun l => Lent heap l ∧ Ledger.Opened id l := fun _ =>
        kept_lent.and kept_opened
      refine carries_submit kept_lent.firm (fun id => (hopened id).firm) (fun _ => kept_lent.firm)
        (fun id => ((hopened id).and kept_closed).firm) ?_ ?_ ?_
      · exact fun l hl => ⟨⟨hl.1.openHandle, hl.2⟩, hl.1.numbered.openHandle.2⟩
      · intro id l hl
        refine ⟨hl.1.1.queue rfl fun other haudience => ?_, hl.1.2⟩
        obtain rfl := Audience.handle.inj haudience
        exact hl.2
      · exact fun _ id l hl _ => ⟨⟨hl.1.1.numbered.tell hl.2.unused _, hl.1.1.sweeps, nofun, nofun⟩,
          hl.1.2⟩
    refine carries_bind (R := fun _ => Lent heap)
      (carries_tryJoin kept_lent.firm False.elim False.elim ?_) fun statics => ?_
    · exact fun l _ _ hl _ _ => ⟨⟨hl.1.numbered.dropHandle id, hl.1.sweeps, nofun, nofun⟩, hl.2⟩
    refine carries_bind (R := fun _ => Lent heap)
      (carries_waitGroup kept_lent.firm False.elim False.elim ?_)
      fun members => carries_pure fun _ hl => hl
    exact fun l _ hl _ _ => hl.setBoard rfl rfl

end Machine

end MarkSweep
