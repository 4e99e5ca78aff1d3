import MarkSweep.Proofs.Pool.Labour
import MarkSweep.Proofs.Pool.Diary

namespace MarkSweep

variable {β ε ρ α : Type}

/-- A worker takes a step. -/
def Worksite.Toils (B : Body β ε ρ) (s s' : Worksite β ε ρ) : Prop :=
  ∃ choice i, s.workerStep B choice i = some s'

namespace Pool

variable {pool pool' p : Pool β ρ} {worker : Worker β} {stage : Stage β}

/-- The workers hold no lock and are not in the middle of anything that concerns the pool as a
whole. -/
def Tame (pool : Pool β ρ) : Prop :=
  ∀ worker ∈ pool.workers, worker.stage.isPlain = true ∧ worker.thread.held = []

theorem tame_create (workers : Nat) (name : String) : (create workers name : Pool β ρ).Tame := by
  intro worker hmem
  rw [List.eq_of_mem_replicate hmem]
  exact ⟨rfl, rfl⟩

theorem Tame.of_workers (htame : pool.Tame) (hworkers : pool'.workers = pool.workers) :
    pool'.Tame := by
  unfold Tame
  rw [hworkers]
  exact htame

theorem Tame.setStage (htame : pool.Tame) (hworkers : p.workers = pool.workers)
    (hmem : worker ∈ pool.workers) (hstage : stage.isPlain = true) (i : Nat) :
    (p.setStage i worker stage).Tame := by
  intro other hother
  obtain hother | rfl := List.mem_or_eq_of_mem_set hother
  · rw [hworkers] at hother
    exact htame other hother
  · exact ⟨hstage, (htame worker hmem).2⟩

theorem Tame.collapse (htame : pool.Tame) : pool.collapse.Tame := by
  unfold Pool.collapse
  split
  · exact htame
  · exact htame

theorem Stirred.tame (hstirred : pool.Stirred pool') (htame : pool.Tame) : pool'.Tame := by
  intro worker' hmem
  obtain ⟨worker, hbefore, rfl | rfl⟩ := hstirred.exists_worker hmem
  · exact htame _ hbefore
  · obtain ⟨hplain, hfree⟩ := htame worker hbefore
    obtain ⟨stage, thread⟩ := worker
    cases stage with
    | parked => exact ⟨rfl, hfree⟩
    | _ => exact ⟨hplain, hfree⟩

/-- A client lets the workers be, or wakes them. -/
theorem Moves.tame {errand : Errand β} {k k' : Standing ρ} {t t' : Thread}
    (hmoves : Moves errand k t pool k' t' pool') (htame : pool.Tame) : pool'.Tame := by
  cases hmoves with
  | wakeOne choice => exact (stirred_wakeOne pool choice).tame htame
  | wakeAll => exact (stirred_wakeAll pool).tame htame
  | announce => exact (stirred_wakeAll pool).tame htame
  | release =>
    have hreleased : Tame { pool with released := true } := htame.of_workers rfl
    exact hreleased.collapse
  | _ => exact htame.of_workers rfl

/-- An emptied queue is no longer than it was. -/
theorem length_collapse_le (pool : Pool β ρ) :
    pool.collapse.queue.toList.length ≤ pool.queue.toList.length := by
  unfold collapse
  split
  · exact Nat.zero_le _
  · exact Nat.le_refl _

/-- The pool takes work, somebody is there to do it, and there is none. -/
structure Ready (pool : Pool β ρ) : Prop where
  opened : pool.shutDown = false
  enabled : pool.workEnabled = true
  manned : ∃ worker ∈ pool.workers, worker.stage.isOver = false
  idle : pool.inFlight = []
  vacant : pool.places = []

/-- Whether a pool is ready has nothing to do with its board. -/
theorem Ready.setBoard (hready : pool.Ready) (board : Board ρ) : Ready { pool with board } :=
  ⟨hready.opened, hready.enabled, hready.manned, hready.idle, hready.vacant⟩

/-- A ready pool that somebody keeps is calm. -/
theorem Ready.calm (hready : pool.Ready) (htame : pool.Tame) (hkept : pool.released = false) :
    pool.Calm where
  kept := hkept
  manned _ := hready.manned
  heard := by simp [hready.idle]
  plain worker hmem := (htame worker hmem).1
  free worker hmem := (htame worker hmem).2

/-- A ready pool is alert. -/
theorem Ready.alert (hready : pool.Ready) :
    pool.Alert (pool.workers.map (·.stage.isOver)) := by
  have hqueue : pool.queue.toList = [] := (List.append_eq_nil_iff.1 hready.idle).1
  have hmanned : false ∈ pool.workers.map (·.stage.isOver) := by
    obtain ⟨worker, hmem, hlive⟩ := hready.manned
    rw [← hlive]
    exact List.mem_map_of_mem hmem
  exact ⟨⟨⟨hready.opened, rfl, hmanned⟩, hready.enabled⟩, fun hne => absurd hqueue hne⟩

theorem grown_eq_nil (hle : pool'.queue.toList.length ≤ pool.queue.toList.length) :
    pool.grown pool' = [] :=
  List.drop_eq_nil_of_le hle

end Pool

/-- A worker whose tasks compute and end stays tame, and it queues nothing. -/
theorem Worksite.workerStep_tame {B : Body β ε ρ} {s s' : Worksite β ε ρ} {choice : Choice}
    {i : Nat} (hB : B.IsPlain) (htame : s.pool.Tame) (hstep : s.workerStep B choice i = some s') :
    s'.pool.Tame ∧ s'.pool.queue.toList.length ≤ s.pool.queue.toList.length := by
  unfold workerStep at hstep
  split at hstep
  · cases hstep
  · next worker hget =>
    have hmem := List.mem_of_getElem? hget
    have hplain := (htame worker hmem).1
    split at hstep
    · next draining hstage =>
      cases hstep
      unfold Pool.look
      split
      · next task queue hpop =>
        refine ⟨htame.setStage (p := { s.pool with queue }) rfl hmem rfl i, ?_⟩
        split at hpop
        · rw [Fifo.toList_of_pop? hpop]
          exact Nat.le_succ _
        · cases hpop
      · split
        · exact ⟨(htame.setStage rfl hmem rfl i).collapse, Pool.length_collapse_le _⟩
        · exact ⟨htame.setStage rfl hmem rfl i, Nat.le_refl _⟩
    · next task hstage =>
      obtain ⟨env, rest, hbody⟩ | ⟨env, outcome, hbody⟩ :=
        hB (s.pool.workerName i) worker.thread s.env task.body
      · rw [hbody] at hstep
        cases hstep
        exact ⟨htame.setStage rfl hmem rfl i, Nat.le_refl _⟩
      · rw [hbody] at hstep
        cases hstep
        rw [Plant.conclude_eq]
        split
        · refine ⟨Pool.Tame.collapse ?_, Pool.length_collapse_le _⟩
          exact htame.setStage rfl hmem rfl i
        · refine ⟨htame.setStage rfl hmem ?_ i, Nat.le_refl _⟩
          cases task.audience <;> rfl
    · next task hstage => cases (congrArg Stage.isPlain hstage).symm.trans hplain
    · next task hstage => cases (congrArg Stage.isPlain hstage).symm.trans hplain
    · next last closing task hstage => cases (congrArg Stage.isPlain hstage).symm.trans hplain
    · next group hstage =>
      cases hstep
      exact ⟨htame.setStage rfl hmem rfl i, Nat.le_refl _⟩
    · cases hstep
    · cases hstep
    · cases hstep

/-- A group that is not given up stays on the board. -/
theorem Board.Deal.lists_group {board board' : Board ρ} {change : Change ρ} {g : GroupId}
    (hdeal : board.Deal change board') (hlisted : (board.groups[g]?).isSome = true)
    (hspared : .group g ∉ change.consumed) : (board'.groups[g]?).isSome = true := by
  obtain ⟨-, hlists⟩ | ⟨-, -, hlists⟩ := hdeal.lists_cases (.group g)
  · rw [decide_eq_true hspared, Bool.and_true] at hlists
    exact hlists.trans hlisted
  · exact hlists

namespace Pool

/-- A call that has made a group queues members of no other one, and the group is there until the
call gives it up. Workers that are tame stay so. -/
def minding : Discipline (Option GroupId) (Thread × Worksite β ε ρ) where
  relies g? x := ∀ g, g? = some g → (x.2.pool.board.groups[g]?).isSome = true
  prompt _ := False
  barred _ := True
  moves _ g? x g?' y :=
    (∀ queued ∈ x.2.pool.grown y.2.pool, ∀ g, queued.audience = .group g → g? = some g) ∧
      (∀ g, g?' = some g → (y.2.pool.board.groups[g]?).isSome = true) ∧
        (x.2.pool.Tame → y.2.pool.Tame)

section Minding

variable {errand : Errand β} {k : Standing ρ} {g? : Option GroupId}
  {E : Standing ρ → Except Fault α → Prop}

/-- Only who spawns a member of a group queues one. -/
theorem Errand.spawns_of_queued {task : Task β} {g : GroupId} (hmem : task ∈ errand.queued k)
    (haudience : task.audience = .group g) :
    ∃ body owners, errand = .spawnMember g body owners := by
  unfold Errand.queued at hmem
  split at hmem
  case h_7 => cases hmem
  all_goals
    obtain rfl := List.mem_singleton.1 hmem
    cases haudience
  all_goals exact ⟨_, _, rfl⟩

/-- A member of a group is queued by a call for that group. -/
theorem Moves.spawns_of_grown {t t' : Thread} {k' : Standing ρ} {pool pool' : Pool β ρ}
    {queued : Task β} {g : GroupId} (hmoves : Moves errand k t pool k' t' pool')
    (hmem : queued ∈ pool.grown pool') (haudience : queued.audience = .group g) :
    ∃ body owners, errand = .spawnMember g body owners := by
  obtain ⟨added, htraffic, hqueued⟩ := hmoves.traffic
  rw [htraffic.grown_eq] at hmem
  apply Errand.spawns_of_queued (k := k') _ haudience
  rw [hqueued]
  exact List.mem_append_right _ hmem

/-- Whoever spawns members of a group minds it. -/
theorem keeps_minding_spawn {call : Routine (Thread × Worksite β ε ρ) (Except Fault α)}
    {group : GroupId} {body : β} {owners : Nat}
    (hcall : call.Keeps (discipline (.spawnMember group body owners)) E k) :
    call.Keeps minding (fun g? result => g? = some group ∧ ∃ k', E k' result) (some group) := by
  induction call generalizing k with
  | done result => exact ⟨rfl, k, hcall⟩
  | step act next ih =>
    refine ⟨False.elim, ?_⟩
    intro choice x b x' hrelies hact
    obtain ⟨k', ⟨-, hmoves⟩, hnext⟩ := hcall.2 choice x b x' trivial hact
    have hown : ∀ queued ∈ x.2.pool.grown x'.2.pool, ∀ g, queued.audience = .group g →
        some group = some g := by
      intro queued hmem g haudience
      obtain ⟨_, _, herrand⟩ := hmoves.spawns_of_grown hmem haudience
      cases herrand
      rfl
    have hhas : ∀ queued ∈ x.2.pool.grown x'.2.pool, x.2.pool.board.Has queued.audience :=
      fun queued hmem g haudience => hrelies g (hown queued hmem g haudience)
    obtain ⟨change, htrade, -, hconsumed, -⟩ := hmoves.trade hhas
    refine ⟨some group, ⟨hown, fun g hg => ?_, hmoves.tame⟩, ih b hnext⟩
    exact htrade.deal.lists_group (hrelies g hg) fun hmem => hconsumed _ hmem

/-- Who spawns no members need not mind any group. -/
theorem keeps_minding {call : Routine (Thread × Worksite β ε ρ) (Except Fault α)}
    (hcall : call.Keeps (discipline errand) E k)
    (hspawns : ∀ g body owners, errand ≠ .spawnMember g body owners) :
    call.Keeps minding (fun _ result => ∃ k', E k' result) g? := by
  induction call generalizing k g? with
  | done result => exact ⟨k, hcall⟩
  | step act next ih =>
    refine ⟨False.elim, ?_⟩
    intro choice x b x' _ hact
    obtain ⟨k', ⟨-, hmoves⟩, hnext⟩ := hcall.2 choice x b x' trivial hact
    refine ⟨none, ⟨?_, nofun, hmoves.tame⟩, ih b hnext⟩
    intro queued hmem g haudience
    obtain ⟨body, owners, herrand⟩ := hmoves.spawns_of_grown hmem haudience
    exact absurd herrand (hspawns g body owners)

/-- Whoever has made a group may mind it. -/
theorem keeps_minding_newGroup :
    Call.Keeps minding (fun g? result => ∃ g, g? = some g ∧ result = .ok g)
      (newGroup : Call (Worksite β ε ρ) GroupId) none := by
  refine ⟨False.elim, ?_⟩
  rintro choice ⟨t, s⟩ b ⟨t', s'⟩ _ hact
  cases hact
  refine ⟨some s.pool.board.nextGroup, ⟨?_, ?_, id⟩, _, rfl, rfl⟩
  · intro queued hmem
    have hnone : queued ∈ s.pool.queue.toList.drop s.pool.queue.toList.length := hmem
    rw [List.drop_length] at hnone
    cases hnone
  · intro g hg
    cases hg
    change (s.pool.board.openGroup.2.groups[s.pool.board.nextGroup]?).isSome = true
    rw [Board.getElem?_openGroup, if_pos rfl]
    rfl

end Minding

end Pool

namespace Estate

variable {B : Body β ε ρ} {e e' : Estate β ε ρ} {p i : Nat}

/-- A step of a call or of a worker of its pool. -/
inductive Serves (B : Body β ε ρ) (p i : Nat) (e : Estate β ε ρ) : Estate β ε ρ → Prop
  /-- The call takes its next step. -/
  | call {c : Plant β ε ρ} {visit visit' : Visit (Pool.Errand β) (Worksite β ε ρ) (Pool.Answer ρ)}
      {site : Worksite β ε ρ} (hplant : e.plants[p]? = some c) (hget : c.visits[i]? = some visit)
      (hstep : visit.Step (e.view c).site visit' site)
      (hhas : ∀ queued ∈ c.site.pool.grown site.pool, e.board.Has queued.audience) :
      Serves B p i e
        (e.update p (.client i)
          { (e.view c).advance (.client i) site with visits := c.visits.set i visit' })
  /-- A worker takes a step. -/
  | work {c : Plant β ε ρ} {choice : Choice} {j : Nat} {site : Worksite β ε ρ}
      (hplant : e.plants[p]? = some c)
      (hstep : Worksite.workerStep B choice j (e.view c).site = some site)
      (hhas : ∀ queued ∈ c.site.pool.grown site.pool, e.board.Has queued.audience) :
      Serves B p i e
        { e.update p (.worker j)
            (((e.view c).advance (.worker j) site).record j (c.site.pool.stage j)
              (site.pool.stage j)) with
          ends := e.ends ++ ((e.view c).ending? B p j).toList }

/-- What serves a call is a step of the estate. -/
theorem Serves.step (h : Serves B p i e e') : Step B e e' := by
  cases h with
  | call hplant hget hstep hhas => exact .call hplant hget hstep hhas
  | work hplant hstep hhas => exact .work hplant hstep hhas

/-- Every course of events leads to an answer of the call: none goes on forever before it, and none
comes to a point where nothing can happen. When the call has just been answered, `Q` holds. -/
inductive Answers (B : Body β ε ρ) (p i : Nat)
    (Q : Except Fault (Pool.Answer ρ) → Estate β ε ρ → Prop) : Estate β ε ρ → Prop
  /-- The call has been answered. -/
  | done {e : Estate β ε ρ} {visit : Visit (Pool.Errand β) (Worksite β ε ρ) (Pool.Answer ρ)}
      {result : Except Fault (Pool.Answer ρ)} (hget : e.visit? p i = some visit)
      (hanswer : visit.answer? = some result) (hpost : Q result e) : Answers B p i Q e
  /-- It has not, but something can happen, and whatever does leads to an answer. -/
  | step {e : Estate β ε ρ} {visit : Visit (Pool.Errand β) (Worksite β ε ρ) (Pool.Answer ρ)}
      (hget : e.visit? p i = some visit) (hnone : visit.answer? = none)
      (hcan : ∃ e', Serves B p i e e') (hall : ∀ e', Serves B p i e e' → Answers B p i Q e') :
      Answers B p i Q e

theorem Answers.mono {Q Q' : Except Fault (Pool.Answer ρ) → Estate β ε ρ → Prop}
    (h : Answers B p i Q e) (hpost : ∀ result e', Q result e' → Q' result e') :
    Answers B p i Q' e := by
  induction h with
  | done hget hanswer hQ => exact .done hget hanswer (hpost _ _ hQ)
  | step hget hnone hcan _ ih => exact .step hget hnone hcan ih

/-- The call is `visit` now, its pool is at `site`, and its workers are tame; it minds its group,
and that is there. -/
structure Engaged (e : Estate β ε ρ) (p i : Nat)
    (visit : Visit (Pool.Errand β) (Worksite β ε ρ) (Pool.Answer ρ)) (site : Worksite β ε ρ) :
    Prop where
  place : ∃ c, e.plants[p]? = some c ∧ c.visits[i]? = some visit ∧ (e.view c).site = site
  tame : site.pool.Tame
  minds : ∃ g?, visit.rest.Keeps Pool.minding (fun _ _ => True) g? ∧
    ∀ g, g? = some g → (site.pool.board.groups[g]?).isSome = true

section Engaged

variable {visit visit' : Visit (Pool.Errand β) (Worksite β ε ρ) (Pool.Answer ρ)}
  {site site' : Worksite β ε ρ}

/-- A call that has just been made minds no group yet. -/
theorem Engaged.receive {c : Plant β ε ρ} (hplant : e.plants[p]? = some c)
    (htame : c.site.pool.Tame) (hkeeps : visit.rest.Keeps Pool.minding (fun _ _ => True) none) :
    Engaged (e.receive p visit) p c.visits.length visit (e.view c).site := by
  rw [receive_eq hplant]
  have hlt := (List.getElem?_eq_some_iff.1 hplant).1
  exact ⟨⟨_, List.getElem?_set_self hlt, List.getElem?_concat_length, rfl⟩, htame.of_workers rfl,
    none, hkeeps, nofun⟩

/-- What a call queues that minds its group may be queued. -/
theorem Engaged.has (h : Engaged e p i visit site) (hstep : visit.Step site visit' site') :
    ∀ queued ∈ site.pool.grown site'.pool, site.pool.board.Has queued.audience := by
  obtain ⟨g?, hkeeps, hlisted⟩ := h.minds
  obtain ⟨_, ⟨hown, -, -⟩, -⟩ := hstep.keeps hkeeps hlisted
  exact fun queued hmem g haudience => hlisted g (hown queued hmem g haudience)

/-- A worker whose tasks compute and end queues nothing. -/
theorem Engaged.has_of_toils (hB : B.IsPlain) (h : Engaged e p i visit site) {choice : Choice}
    {j : Nat} (hstep : site.workerStep B choice j = some site') :
    ∀ queued ∈ site.pool.grown site'.pool, site.pool.board.Has queued.audience := by
  rw [Pool.grown_eq_nil (Worksite.workerStep_tame hB h.tame hstep).2]
  exact nofun

/-- Whatever can happen at the pool can happen on the estate. -/
theorem Engaged.exists_serves (hB : B.IsPlain) (h : Engaged e p i visit site)
    (hgoes : (∃ visit' site', visit.Step site visit' site') ∨ ∃ site', site.Toils B site') :
    ∃ e', Serves B p i e e' := by
  obtain ⟨c, hplant, hget, rfl⟩ := h.place
  obtain ⟨visit', site', hstep⟩ | ⟨site', choice, j, hstep⟩ := hgoes
  · exact ⟨_, .call hplant hget hstep (h.has hstep)⟩
  · exact ⟨_, .work hplant hstep (h.has_of_toils hB hstep)⟩

/-- Whatever happens on the estate happens at the pool. -/
theorem Engaged.serves (hB : B.IsPlain) (h : Engaged e p i visit site)
    (hserves : Serves B p i e e') : ∃ visit' site', Engaged e' p i visit' site' ∧
      (visit.Step site visit' site' ∨ visit' = visit ∧ site.Toils B site') := by
  obtain ⟨c, hplant, hget, rfl⟩ := h.place
  have hlt := (List.getElem?_eq_some_iff.1 hplant).1
  obtain ⟨g?, hkeeps, hlisted⟩ := h.minds
  cases hserves with
  | @call c' visit₀ visit' site' hplant' hget' hstep hhas =>
    obtain rfl := Option.some.inj (hplant.symm.trans hplant')
    obtain rfl := Option.some.inj (hget.symm.trans hget')
    obtain ⟨g?', ⟨-, hlisted', htame⟩, hkeeps'⟩ := hstep.keeps hkeeps hlisted
    refine ⟨visit', site', ⟨⟨_, List.getElem?_set_self hlt, ?_, rfl⟩, htame h.tame, g?', hkeeps',
      hlisted'⟩, .inl hstep⟩
    exact List.getElem?_set_self (List.getElem?_eq_some_iff.1 hget).1
  | @work c' choice j site' hplant' hstep hhas =>
    obtain rfl := Option.some.inj (hplant.symm.trans hplant')
    obtain ⟨hsite, hvisits, -, -⟩ :=
      Plant.record_eq ((e.view c).advance (.worker j) site') j (c.site.pool.stage j)
        (site'.pool.stage j)
    obtain ⟨change, htrade, htoils, -⟩ := Worksite.workerStep_trade hstep hhas
    refine ⟨visit, site', ⟨⟨_, List.getElem?_set_self hlt, ?_, ?_⟩,
      (Worksite.workerStep_tame hB h.tame hstep).1, g?, hkeeps, fun g hg => ?_⟩,
      .inr ⟨rfl, choice, j, hstep⟩⟩
    · rw [hvisits]
      exact hget
    · exact hsite
    · apply htrade.deal.lists_group (hlisted g hg)
      rw [htoils.consumed]
      exact List.not_mem_nil

/-- A pool that is not shut down still has an owner. -/
theorem Upheld.released_eq_false {crew : List (Attended β ε ρ)} (h : Upheld e crew)
    {c : Plant β ε ρ} (hplant : e.plants[p]? = some c) (hopen : c.site.pool.shutDown = false) :
    c.site.pool.released = false := by
  obtain ⟨x, hx, rfl⟩ := h.exists_attended hplant
  have hsealed := (h.orderly x (List.mem_of_getElem? hx)).sealed
  by_contra hreleased
  rw [hsealed.released (Bool.eq_true_of_not_eq_false hreleased)] at hopen
  cases hopen

/-- The workers of every pool stay tame, whatever calls and workers do. -/
theorem tame_of_passes (hB : B.IsPlain) {crew crew' : List (Attended β ε ρ)}
    (hupheld : Upheld e crew) (hpasses : Passes B e crew e' crew')
    (htame : ∀ c ∈ e.plants, c.site.pool.Tame) : ∀ c ∈ e'.plants, c.site.pool.Tame := by
  have hset : ∀ {q x} {c' : Plant β ε ρ}, crew[q]? = some x →
      (x.plant.site.pool.Tame → c'.site.pool.Tame) → ∀ c ∈ e.plants.set q c', c.site.pool.Tame := by
    intro q x c' hget hafter c hmem
    obtain hmem | rfl := List.mem_or_eq_of_mem_set hmem
    · exact htame c hmem
    · exact hafter (htame _ (List.mem_of_getElem? (hupheld.getElem?_plants hget)))
  cases hpasses with
  | @found workers name _ hpool =>
    obtain rfl := Pool.eq_create hpool
    exact List.forall_mem_append.2
      ⟨htame, List.forall_mem_singleton.2 (Pool.tame_create workers name)⟩
  | arrive hget visit => exact hset hget id
  | call hget _ _ _ hmoves _ => exact hset hget fun h => hmoves.tame (h.of_workers rfl)
  | @work _ _ x _ _ hget hstep _ =>
    refine hset hget fun h => ?_
    have htame : (e.view x.plant).site.pool.Tame := h.of_workers rfl
    rw [(Plant.record_eq _ _ _ _).1]
    exact (Worksite.workerStep_tame hB htame hstep).1
  | rouse hget i => exact hset hget fun h => (Pool.stirred_modify _ i).tame h
  | others env => exact htame

/-- Where tasks ask nothing of their pools, all pools are tame on every run. -/
theorem exists_custody_tame (hB : B.IsPlain) {env : ε}
    (hrun : Relation.ReflTransGen (Step B) { env } e) :
    ∃ crew, Custody B e crew ∧ ∀ c ∈ e.plants, c.site.pool.Tame :=
  run_induction (fun hcustody _ hpasses _ => tame_of_passes hB hcustody.upheld hpasses) nofun hrun

/-- Only the call has queued members of the groups that were made after `made` others. -/
def Sole (e : Estate β ε ρ) (made p i : Nat) : Prop :=
  ∀ (q : Nat) c, e.plants[q]? = some c → ∀ entry ∈ c.accepted,
    (q = p ∧ entry.1 = .client i) ∨ ∀ g, entry.2.audience = .group g → g < made

/-- Nobody has queued a member of a group that is not there yet. -/
theorem Upheld.sole {crew : List (Attended β ε ρ)} (h : Upheld e crew) (p i : Nat) :
    e.Sole e.board.nextGroup p i := by
  intro q c hplant entry hmem
  refine .inr fun g haudience => ?_
  by_contra hunmade
  have hnone := ((h.sound.members g).unmade (Nat.le_of_not_lt hunmade)).1
  rw [(h.books_eq g).1, members, List.sum_eq_zero_iff, List.forall_mem_map] at hnone
  refine List.count_eq_zero.1 (hnone c (List.mem_of_getElem? hplant)) ?_
  rw [← haudience]
  exact List.mem_map_of_mem hmem

/-- A call that has just been made is the only one that is under way. -/
theorem Sole.receive {made : Nat} (h : e.Sole made p i) {c : Plant β ε ρ}
    (hplant : e.plants[p]? = some c)
    (visit : Visit (Pool.Errand β) (Worksite β ε ρ) (Pool.Answer ρ)) :
    (e.receive p visit).Sole made p i := by
  rw [receive_eq hplant]
  intro q c' hget
  obtain ⟨rfl, rfl⟩ | ⟨-, hget⟩ := getElem?_set_cases hget
  · exact h p c hplant
  · exact h q c' hget

/-- It stays so as long as nobody but the call and the workers of its pool does anything. -/
theorem Sole.serves {made : Nat} (hB : B.IsPlain) (h : e.Sole made p i)
    (hengaged : Engaged e p i visit site) (hserves : Serves B p i e e') : e'.Sole made p i := by
  obtain ⟨c, hplant, -, rfl⟩ := hengaged.place
  cases hserves with
  | @call c' _ _ site' hplant' hget hstep hhas =>
    intro q d hd
    obtain ⟨rfl, rfl⟩ | ⟨-, hd⟩ := getElem?_set_cases hd
    · refine List.forall_mem_append.2 ⟨h p c' hplant', fun entry hmem => ?_⟩
      obtain ⟨queued, -, rfl⟩ := List.mem_map.1 hmem
      exact .inl ⟨rfl, rfl⟩
    · exact h q d hd
  | @work c' choice j site' hplant' hstep hhas =>
    obtain rfl := Option.some.inj (hplant.symm.trans hplant')
    have hnone : c.site.pool.grown site'.pool = [] :=
      Pool.grown_eq_nil (Worksite.workerStep_tame hB hengaged.tame hstep).2
    intro q d hd
    obtain ⟨rfl, rfl⟩ | ⟨-, hd⟩ := getElem?_set_cases hd
    · rw [(Plant.record_eq _ _ _ _).2.2.1]
      refine List.forall_mem_append.2 ⟨h p c hplant, fun entry hmem => ?_⟩
      obtain ⟨queued, hqueued, -⟩ := List.mem_map.1 hmem
      have hqueued : queued ∈ c.site.pool.grown site'.pool := hqueued
      rw [hnone] at hqueued
      cases hqueued
    · exact h q d hd

section Attribution

variable {crew : List (Attended β ε ρ)} {c : Plant β ε ρ} {ending : Ending β ρ}

/-- A member of a group that has ended was queued by the only call that queues any. -/
theorem Upheld.entry_of_group {made g : Nat} (h : Upheld e crew) (hsole : e.Sole made p i)
    (hmade : made ≤ g) (hplant : e.plants[p]? = some c) (hending : ending ∈ e.ends)
    (haudience : ending.task.audience = .group g) :
    ending.plant = p ∧ c.accepted[ending.place]? = some (.client i, ending.task) := by
  obtain ⟨y, origin, hy, -, hentry⟩ := h.exists_entry hending
  have hplant' := h.getElem?_plants hy
  obtain ⟨rfl, rfl⟩ | hold := hsole ending.plant y.plant hplant' _ (List.mem_of_getElem? hentry)
  · obtain rfl := Option.some.inj (hplant.symm.trans hplant')
    exact ⟨rfl, hentry⟩
  · exact absurd (hold g haudience) (Nat.not_lt.2 hmade)

/-- The task of a handle that has ended was queued where the handle was made. -/
theorem Upheld.entry_of_handle {id : HandleId} {task : Task β} (h : Upheld e crew)
    (hhomed : Homed e crew) (hplant : e.plants[p]? = some c)
    (hmine : task ∈ c.acceptedFrom (.client i)) (htask : task.audience = .handle id)
    (hending : ending ∈ e.ends) (haudience : ending.task.audience = .handle id) :
    ending.plant = p ∧ c.accepted[ending.place]? = some (.client i, ending.task) := by
  obtain ⟨x, hx, rfl⟩ := h.exists_attended hplant
  obtain ⟨y, origin, hy, -, hentry⟩ := h.exists_entry hending
  obtain ⟨⟨own, task'⟩, hown, rfl⟩ := List.mem_map.1 hmine
  obtain ⟨hown, horigin⟩ := List.mem_filter.1 hown
  have hhome := hhomed.accepted hx hown htask
  have hhome' := hhomed.accepted hy (List.mem_of_getElem? hentry) haudience
  obtain ⟨hp, rfl⟩ := Prod.mk.inj (Option.some.inj (hhome'.symm.trans hhome))
  rw [hp, hx] at hy
  cases hy
  rw [← of_decide_eq_true horigin]
  exact ⟨hp, hentry⟩

end Attribution

/-- A call that must end in the company of the workers comes to an answer on the estate. -/
theorem answers_of_ends (hB : B.IsPlain)
    {Q : Except Fault (Pool.Answer ρ) → Thread × Worksite β ε ρ → Prop}
    {call : Routine (Thread × Worksite β ε ρ) (Except Fault (Pool.Answer ρ))}
    {x : Thread × Worksite β ε ρ}
    (hends : Routine.Ends (Call.Beside (Worksite.Toils B)) Q call x) {I : Estate β ε ρ → Prop}
    (hI : ∀ {e e' visit site}, I e → Engaged e p i visit site → Serves B p i e e' → I e')
    (he : I e) (hrest : visit.rest = call) (hthread : visit.thread = x.1)
    (h : Engaged e p i visit x.2) :
    Answers B p i (fun result e' => I e' ∧ ∃ thread site visit', Q result (thread, site) ∧
      visit'.answer? = some result ∧ Engaged e' p i visit' site) e := by
  induction hends generalizing e visit with
  | @done result x hpost =>
    obtain ⟨c, hplant, hget, -⟩ := h.place
    have hanswer : visit.answer? = some result := by rw [Visit.answer?, hrest]
    exact .done (visit?_eq_some_iff.2 ⟨c, hplant, hget⟩) hanswer
      ⟨he, x.1, x.2, visit, hpost, hanswer, h⟩
  | @step γ act next x hcan _ ih =>
    obtain ⟨thread, site⟩ := x
    obtain ⟨errand, caller, thread', rest⟩ := visit
    obtain ⟨rfl, rfl⟩ : rest = .step act next ∧ thread' = thread := ⟨hrest, hthread⟩
    obtain ⟨c, hplant, hget, -⟩ := h.place
    refine .step (visit?_eq_some_iff.2 ⟨c, hplant, hget⟩) rfl ?_ ?_
    · apply h.exists_serves hB
      obtain ⟨after, hstep⟩ := hcan
      cases hstep with
      | own hact => exact .inl ⟨_, _, .own hact⟩
      | others hothers => exact .inr ⟨_, hothers.2⟩
    · intro e' hserves
      have he' := hI he h hserves
      obtain ⟨visit', site', h', hstep | ⟨rfl, htoils⟩⟩ := h.serves hB hserves
      · cases hstep with
        | own hact => exact ih _ _ (.own hact) he' rfl rfl h'
      · exact ih _ (thread', site') (.others ⟨rfl, htoils⟩) he' rfl rfl h'

end Engaged

end Estate

end MarkSweep
