import MarkSweep.Proofs.Company.Mirror
import MarkSweep.Proofs.Cycle.Phases
import MarkSweep.Proofs.Pool.Likeness

namespace MarkSweep

theorem Tracer.step_congr {thread thread' : Thread} (hfree : thread.held = [])
    (hfree' : thread'.held = []) (heap : Heap) (marks : Marks) (tracer : Tracer) :
    tracer.step thread' heap marks = tracer.step thread heap marks := by
  simp only [Tracer.step, thread.checkEnter_of_held_nil hfree,
    thread'.checkEnter_of_held_nil hfree']

/-- Jobs go on in the same way whichever worker runs them. -/
theorem Job.body_isBlind : Job.body.IsBlind := by
  intro name name' thread thread' world job hfree hfree'
  cases job with
  | mark marking =>
    simp only [Job.body, Job.step, Job.stepMarking, Tracer.step_congr hfree hfree',
      thread.checkEnter_of_held_nil hfree, thread'.checkEnter_of_held_nil hfree']
  | markStatics sheet => rfl
  | sweep region live =>
    simp only [Job.body, Job.step, thread.checkEnter_of_held_nil hfree,
      thread'.checkEnter_of_held_nil hfree']

namespace Machine

open Call

variable {α β : Type} {held : Held} {o₁ o₂ n : Numbering} {machine₁ machine₂ : Machine}
  {V : α → β → Machine → Machine → Prop} {E : Machine → Machine → Prop}

/-- Two machines with the same world whose pools work alike. -/
def Toiling (o₁ o₂ n : Numbering) (machine₁ machine₂ : Machine) : Prop :=
  machine₂.env = machine₁.env ∧ Pool.Alike o₁ o₂ n machine₁.pool machine₂.pool

theorem follows_toiling : Follows (Around True) (Toiling o₁ o₂ n) := by
  intro machine₁ machine₂ machine₁' htoiling haround
  obtain ⟨henv, halike⟩ := htoiling
  obtain ⟨choice, i, hstep⟩ := workerStep_of_around haround
  obtain ⟨machine₂', hstep', halike', henv'⟩ := Worksite.exists_workerStep_of_alike
    Job.body_isPlain Job.body_isBlind halike henv hstep
  exact ⟨machine₂', .single (.inl ⟨choice, i, hstep'⟩), henv', halike'⟩

/-- From machines that toil alike the calls have the same value, after which the machines toil alike
with these many handles and groups opened. -/
def Keeps (held : Held) (o₁ o₂ n n' : Numbering) (call₁ call₂ : Call Machine α) : Prop :=
  ∀ E, Mirrors (Around True) held (Toiling o₁ o₂ n) call₁ call₂
    (fun a₁ a₂ machine₁ machine₂ => a₂ = a₁ ∧ Toiling o₁ o₂ n' machine₁ machine₂) E

/-- A step that changes the boards in the same way. -/
theorem mirrors_board {n' : Numbering} {f : Board Tally → α × Board Tally}
    {g : Board Tally → β × Board Tally} {a : α} {b : β}
    (hboard : ∀ board₁ board₂, Board.Alike o₁ o₂ n board₁ board₂ →
      (f board₁).1 = a ∧ (g board₂).1 = b ∧ Board.Alike o₁ o₂ n' (f board₁).2 (g board₂).2) :
    Mirrors (Around True) held (Toiling o₁ o₂ n)
      (Pool.exchange fun pool => ((f pool.board).1, { pool with board := (f pool.board).2 }))
      (Pool.exchange fun pool => ((g pool.board).1, { pool with board := (g pool.board).2 }))
      (fun a' b' machine₁ machine₂ => a' = a ∧ b' = b ∧ Toiling o₁ o₂ n' machine₁ machine₂) E := by
  refine mirrors_atomic follows_toiling fun machine₁ machine₂ htoiling => ?_
  obtain ⟨henv, halike⟩ := htoiling
  obtain ⟨ha, hb, hboard'⟩ := hboard _ _ halike.board
  exact ⟨ha, hb, henv, halike.working₁.setBoard _, halike.working₂.setBoard _, halike.queue,
    halike.workers, hboard'⟩

theorem mirrors_newGroup :
    Mirrors (Around True) held (Toiling o₁ o₂ n) Pool.newGroup Pool.newGroup
      (fun id₁ id₂ machine₁ machine₂ => id₁ = o₁.group + n.group ∧ id₂ = o₂.group + n.group ∧
        Toiling o₁ o₂ { n with group := n.group + 1 } machine₁ machine₂) E :=
  mirrors_board (f := Board.openGroup) (g := Board.openGroup) fun _ _ hboard =>
    ⟨hboard.nextGroup₁, hboard.nextGroup₂, hboard.openGroup⟩

theorem mirrors_notifyOne : Keeps held o₁ o₂ n n Pool.notifyOne Pool.notifyOne := by
  intro E
  refine mirrors_choose follows_toiling fun choice machine₁ machine₂ htoiling => ?_
  exact ⟨rfl, htoiling.1, htoiling.2.wakeOne choice⟩

/-- Tasks that are alike are accepted by both pools. -/
theorem mirrors_enqueue {task₁ task₂ : Task Job} (htask : Task.Alike o₁ o₂ task₁ task₂)
    (hheard₁ : task₁.audience ≠ .nobody) (hheard₂ : task₂.audience ≠ .nobody) :
    Mirrors (Around True) held (Toiling o₁ o₂ n) (Pool.enqueue task₁) (Pool.enqueue task₂)
      (fun accepted₁ accepted₂ machine₁ machine₂ => accepted₁ = true ∧ accepted₂ = true ∧
        Toiling o₁ o₂ n machine₁ machine₂) E := by
  refine mirrors_bind_at (P := Toiling o₁ o₂ n) (some true) (some true) ?_ ?_
  · refine mirrors_atomic follows_toiling fun machine₁ machine₂ htoiling => ?_
    obtain ⟨henv, halike⟩ := htoiling
    obtain ⟨after₁, after₂, hoffer₁, hoffer₂, halike'⟩ := halike.offer? htask hheard₁ hheard₂
    simp only [hoffer₁, hoffer₂]
    exact ⟨congrArg some halike'.working₁.enabled, congrArg some halike'.working₂.enabled, henv,
      halike'⟩
  · refine mirrors_bind_same (mirrors_notifyOne E) fun _ => mirrors_pure ?_
    intro machine₁ machine₂ htoiling
    exact ⟨rfl, rfl, htoiling⟩

theorem mirrors_spawnMember (k : Nat) (body : Job) (owners : Nat) :
    Mirrors (Around True) held (Toiling o₁ o₂ n) (Pool.spawnMember (o₁.group + k) body owners)
      (Pool.spawnMember (o₂.group + k) body owners)
      (fun answer₁ answer₂ machine₁ machine₂ => answer₁ = .ok () ∧ answer₂ = .ok () ∧
        Toiling o₁ o₂ n machine₁ machine₂) E := by
  refine mirrors_bind_at true true
    (mirrors_enqueue ⟨.group k, rfl⟩ (by simp) (by simp)) ?_
  exact mirrors_pure fun machine₁ machine₂ htoiling => ⟨rfl, rfl, htoiling⟩

theorem mirrors_submit (body : Job) (owners : Nat) :
    Mirrors (Around True) held (Toiling o₁ o₂ n) (Pool.submit body owners)
      (Pool.submit body owners)
      (fun id₁ id₂ machine₁ machine₂ => id₁ = o₁.handle + n.handle ∧ id₂ = o₂.handle + n.handle ∧
        Toiling o₁ o₂ { n with handle := n.handle + 1 } machine₁ machine₂) E := by
  refine mirrors_bind_at (o₁.handle + n.handle) (o₂.handle + n.handle)
    (mirrors_board (f := Board.openHandle) (g := Board.openHandle) fun _ _ hboard =>
      ⟨hboard.nextHandle₁, hboard.nextHandle₂, hboard.openHandle⟩) ?_
  refine mirrors_bind_at true true
    (mirrors_enqueue ⟨.handle n.handle, rfl⟩ (by simp) (by simp)) ?_
  exact mirrors_pure fun machine₁ machine₂ htoiling => ⟨rfl, rfl, htoiling⟩

/-- The handles that were opened together have the same answer. -/
theorem mirrors_tryJoin {k : Nat} (hk : k < n.handle) :
    Keeps held o₁ o₂ n n (Pool.tryJoin (o₁.handle + k)) (Pool.tryJoin (o₂.handle + k)) := by
  intro E
  refine mirrors_bind_same (P := fun _ => Toiling o₁ o₂ n) ?_ ?_
  · apply mirrors_await follows_toiling
    intro machine₁ machine₂ htoiling outcome machine₁' hstep
    obtain ⟨henv, halike⟩ := htoiling
    have hdropped : Toiling o₁ o₂ n
        { machine₁ with pool := { machine₁.pool with
          board := machine₁.pool.board.dropHandle (o₁.handle + k) } }
        { machine₂ with pool := { machine₂.pool with
          board := machine₂.pool.board.dropHandle (o₂.handle + k) } } :=
      ⟨henv, halike.working₁.setBoard _, halike.working₂.setBoard _, halike.queue, halike.workers,
        halike.board.dropHandle k⟩
    rw [halike.board.handles k hk]
    cases hget : machine₁.pool.board.handles[o₁.handle + k]? with
    | none =>
      simp only [hget] at hstep
      cases hstep
    | some delivery =>
      simp only [hget] at hstep
      cases delivery with
      | awaited => cases hstep
      | delivered outcome' | lost =>
        cases hstep
        exact ⟨_, _, rfl, rfl, hdropped⟩
  · intro outcome
    match outcome with
    | some (.value result) => exact mirrors_pure fun _ _ htoiling => ⟨rfl, htoiling⟩
    | some (.fault payload) => exact mirrors_pure fun _ _ htoiling => ⟨rfl, htoiling⟩
    | none => exact mirrors_pure fun _ _ htoiling => ⟨rfl, htoiling⟩

/-- The groups that were opened together have the same answer. -/
theorem mirrors_waitGroup {k : Nat} (hk : k < n.group) :
    Keeps held o₁ o₂ n n (Pool.waitGroup (o₁.group + k)) (Pool.waitGroup (o₂.group + k)) := by
  intro E
  refine mirrors_await follows_toiling fun machine₁ machine₂ htoiling answer machine₁' hstep => ?_
  obtain ⟨henv, halike⟩ := htoiling
  have hdropped : Toiling o₁ o₂ n
      { machine₁ with pool := { machine₁.pool with
        board := machine₁.pool.board.dropGroup (o₁.group + k) } }
      { machine₂ with pool := { machine₂.pool with
        board := machine₂.pool.board.dropGroup (o₂.group + k) } } :=
    ⟨henv, halike.working₁.setBoard _, halike.working₂.setBoard _, halike.queue, halike.workers,
      halike.board.dropGroup k⟩
  rw [halike.board.groups k hk]
  cases hget : machine₁.pool.board.groups[o₁.group + k]? with
  | none =>
    simp only [hget] at hstep
    cases hstep
  | some group =>
    simp only [hget] at hstep
    by_cases hnone : group.pending = 0
    · simp only [if_pos hnone] at hstep ⊢
      cases hstep
      exact ⟨_, _, rfl, rfl, hdropped⟩
    · simp only [if_neg hnone] at hstep
      cases hstep

/-- The jobs of all frames are queued in both groups. -/
theorem mirrors_spawnFrames (sheet : Sheet) (k : Nat) (frames : List FrameId) :
    Mirrors (Around True) held (Toiling o₁ o₂ n) (spawnFrames sheet (o₁.group + k) frames)
      (spawnFrames sheet (o₂.group + k) frames)
      (fun answer₁ answer₂ machine₁ machine₂ => answer₁ = .ok () ∧ answer₂ = .ok () ∧
        Toiling o₁ o₂ n machine₁ machine₂) E := by
  induction frames with
  | nil => exact mirrors_pure fun _ _ htoiling => ⟨rfl, rfl, htoiling⟩
  | cons frame frames ih =>
    apply mirrors_bind_at (.ok ()) (.ok ()) (mirrors_spawnMember k _ 0)
    exact mirrors_bind_at (.ok ()) (.ok ()) (mirrors_spawnMember k _ 0) ih

/-- A scan of the roots opens a group and a handle. -/
theorem mirrors_scan (sheet : Sheet) (callStacks : List CallStack) :
    Keeps held o₁ o₂ n ⟨n.handle + 1, n.group + 1⟩ (scan sheet callStacks)
      (scan sheet callStacks) := by
  intro E
  apply mirrors_bind_at _ _ mirrors_newGroup
  apply mirrors_bind_at (.ok ()) (.ok ()) (mirrors_spawnFrames sheet n.group _)
  apply mirrors_bind_at _ _ (mirrors_submit _ 0)
  refine mirrors_bind_same (mirrors_tryJoin (Nat.lt_succ_self n.handle) E) fun statics => ?_
  refine mirrors_bind_same (mirrors_waitGroup (Nat.lt_succ_self n.group) E) fun frames => ?_
  exact mirrors_pure fun _ _ htoiling => ⟨rfl, htoiling⟩

/-- A sweep opens three handles. -/
theorem mirrors_sweep (live : LiveSet) :
    Keeps held o₁ o₂ n { n with handle := n.handle + 3 } (sweep live) (sweep live) := by
  intro E
  apply mirrors_bind_at _ _ (mirrors_submit _ 0)
  apply mirrors_bind_at _ _ (mirrors_submit _ 0)
  apply mirrors_bind_at _ _ (mirrors_submit _ 0)
  have hjoin : ∀ k < 3, Keeps held o₁ o₂ { n with handle := n.handle + 3 }
      { n with handle := n.handle + 3 } (Pool.tryJoin (o₁.handle + (n.handle + k)))
      (Pool.tryJoin (o₂.handle + (n.handle + k))) := by
    intro k hk
    exact mirrors_tryJoin (Nat.add_lt_add_left hk n.handle)
  refine mirrors_bind_same (hjoin 0 (by decide) E) fun objects => ?_
  refine mirrors_bind_same (hjoin 1 (by decide) E) fun arrays => ?_
  refine mirrors_bind_same (hjoin 2 (by decide) E) fun monitors => ?_
  exact mirrors_pure fun _ _ htoiling => ⟨rfl, htoiling⟩

/-- One access to the mark sets of the collector. -/
theorem mirrors_onMarks (hrank : held.rank ≤ Level.marks.rank) (f : Marks → α × Marks) :
    Keeps held o₁ o₂ n n (onMarks .collector (guarded .marks (atomic f)))
      (onMarks .collector (guarded .marks (atomic f))) := by
  intro E
  rw [onMarks_guarded]
  refine mirrors_guarded_atomic hrank follows_toiling (fun _ _ => follows_toiling.given) ?_
  intro machine₁ machine₂ htoiling
  obtain ⟨henv, halike⟩ := htoiling
  rw [henv]
  exact ⟨rfl, rfl, halike⟩

theorem mirrors_readStats (hrank : held.rank ≤ Level.heap.rank) :
    Keeps held o₁ o₂ n n (onHeap Heap.readStats) (onHeap Heap.readStats) := by
  intro E
  rw [onHeap_readStats]
  refine mirrors_guarded_atomic hrank follows_toiling (fun _ _ => follows_toiling.given) ?_
  intro machine₁ machine₂ htoiling
  exact ⟨congrArg (fun world => world.heap.stats) htoiling.1, htoiling⟩

theorem mirrors_freeze (hrank : held.rank ≤ Level.marks.rank) :
    Keeps held o₁ o₂ n n (onMarks .collector Marks.freeze) (onMarks .collector Marks.freeze) := by
  intro E
  rw [onMarks_freeze]
  refine mirrors_bind_same (mirrors_onMarks hrank _ E) fun objects => ?_
  refine mirrors_bind_same (mirrors_onMarks hrank _ E) fun arrays => ?_
  exact mirrors_pure fun _ _ htoiling => ⟨rfl, htoiling⟩

/-- Two machines that toil alike with any number of handles and groups opened. -/
def Toils (o₁ o₂ : Numbering) (machine₁ machine₂ : Machine) : Prop :=
  ∃ n, Toiling o₁ o₂ n machine₁ machine₂

theorem follows_toils : Follows (Around True) (Toils o₁ o₂) :=
  Follows.exists fun _ => follows_toiling

theorem mirrors_report {event : Event} : Mirrors (Around True) held (Toiling o₁ o₂ n)
    (emit event) (emit event) (fun _ _ => Toiling o₁ o₂ n) (Toils o₁ o₂) :=
  (mirrors_emit follows_toiling).mono (fun _ _ htoiling => htoiling)
    (fun _ _ _ _ htoiling => htoiling) fun _ _ htoiling => ⟨n, htoiling⟩

/-- An answer is the same value or the same fault for both. -/
theorem mirrors_orFault (answer : Except Failure α) :
    Mirrors (Around True) held (Toiling o₁ o₂ n) (orFault answer) (orFault answer)
      (fun a₁ a₂ machine₁ machine₂ => a₂ = a₁ ∧ Toiling o₁ o₂ n machine₁ machine₂)
      (Toils o₁ o₂) := by
  cases answer with
  | ok a => exact mirrors_pure fun _ _ htoiling => ⟨rfl, htoiling⟩
  | error failure => exact mirrors_fault fun _ _ htoiling => ⟨n, htoiling⟩

/-- The mark phase finds the same in both worlds. -/
theorem mirrors_markPhase (hrank : held.rank ≤ Level.cycle.rank) (callStacks : List CallStack) :
    Mirrors (Around True) held (Toiling o₁ o₂ n) (markPhase callStacks) (markPhase callStacks)
      (fun found₁ found₂ machine₁ machine₂ => found₂ = found₁ ∧
        Toiling o₁ o₂ ⟨n.handle + 1, n.group + 1⟩ machine₁ machine₂) (Toils o₁ o₂) := by
  have hheap : held.rank ≤ Level.heap.rank := Nat.le_trans hrank (by decide)
  have hmarks : held.rank ≤ Level.marks.rank := Nat.le_trans hrank (by decide)
  refine mirrors_inSpan follows_toiling ?_ (fun _ _ => follows_toiling.given) follows_toils
  refine mirrors_bind_same (mirrors_readStats hheap _) fun stats => ?_
  refine mirrors_bind mirrors_report fun _ _ => ?_
  refine mirrors_bind_same (mirrors_scan _ _ _) fun answer => ?_
  refine mirrors_bind_same (mirrors_orFault answer) fun found => ?_
  refine mirrors_bind_same (mirrors_onMarks hmarks _ _) fun objects => ?_
  refine mirrors_bind_same (mirrors_onMarks hmarks _ _) fun arrays => ?_
  refine mirrors_bind_same (mirrors_freeze hmarks _) fun live => ?_
  refine mirrors_bind mirrors_report fun _ _ => ?_
  exact mirrors_pure fun _ _ htoiling => ⟨rfl, htoiling⟩

/-- The sweep phase erases the same in both worlds. -/
theorem mirrors_sweepPhase (found : MarkResult) :
    Mirrors (Around True) held (Toiling o₁ o₂ n) (sweepPhase found) (sweepPhase found)
      (fun swept₁ swept₂ machine₁ machine₂ => swept₂ = swept₁ ∧
        Toiling o₁ o₂ { n with handle := n.handle + 3 } machine₁ machine₂) (Toils o₁ o₂) := by
  refine mirrors_inSpan follows_toiling ?_ (fun _ _ => follows_toiling.given) follows_toils
  refine mirrors_bind mirrors_report fun _ _ => ?_
  refine mirrors_bind_same (mirrors_sweep _ _) fun answer => ?_
  refine mirrors_bind_same (mirrors_orFault answer) fun swept => ?_
  refine mirrors_bind mirrors_report fun _ _ => ?_
  exact mirrors_pure fun _ _ htoiling => ⟨rfl, htoiling⟩

end Machine

end MarkSweep
