import MarkSweep.Proofs.Cycle.Neutral
import MarkSweep.Proofs.Pool.Chronicle
import MarkSweep.Proofs.Pool.Scenes
import MarkSweep.Proofs.Wakeups

namespace MarkSweep

variable {β ε ρ : Type}

namespace Plant

variable {B : Body β ε ρ} {fate : Nat → Outcome ρ} {c c' : Plant β ε ρ} {i : Nat}

/-- What the workers go by and do. -/
def scene (c : Plant β ε ρ) : Scene β ρ :=
  ⟨c.site.pool.gauge, c.site.pool.workerCount, c.places, c.begun, c.site.pool.board⟩

/-- What can happen while no client does anything and nobody else changes what the tasks share. -/
inductive Labours (B : Body β ε ρ) : Plant β ε ρ → Plant β ε ρ → Prop
  /-- A worker takes a step. -/
  | work {c : Plant β ε ρ} {choice : Choice} {i : Nat} {site : Worksite β ε ρ}
      (hstep : Worksite.workerStep B choice i c.site = some site) :
      Labours B c
        ((c.advance (.worker i) site).record i (c.site.pool.stage i) (site.pool.stage i))
  /-- A worker wakes up although nobody woke it. -/
  | rouse {c : Plant β ε ρ} (i : Nat) :
      Labours B c
        { c with
          site.pool.workers := c.site.pool.workers.modify i Worker.woken }

/-- The tasks that workers are at compute and end; none of them waits, asks anything of the pool, or
is in the middle of such a request. -/
def Modest (B : Body β ε ρ) (c : Plant β ε ρ) : Prop :=
  ∀ i worker task, c.site.pool.workers[i]? = some worker →
    worker.stage.underway? = some task → worker.stage = .running task ∧
      ((∃ env rest, B.step (c.site.pool.workerName i) worker.thread c.site.env task.body =
          .next env rest) ∨
        ∃ env outcome, B.step (c.site.pool.workerName i) worker.thread c.site.env task.body =
          .finish env outcome)

/-- Tasks end as `fate` says, by the numbers under which they were begun. -/
def Foretells (B : Body β ε ρ) (fate : Nat → Outcome ρ) (c : Plant β ε ρ) : Prop :=
  ∀ i k outcome, c.post i = some k → c.site.outcome? B i = some outcome → outcome = fate k

/-- How many workers are left. -/
def live (c : Plant β ε ρ) : Nat := c.site.pool.workers.countP fun worker => !worker.stage.isOver

/-- No worker can go on. -/
def AtRest (B : Body β ε ρ) (c : Plant β ε ρ) : Prop :=
  ∀ choice i, Worksite.workerStep B choice i c.site = none

theorem places_update {stage : Nat → Stage β} {post : Nat → Option Nat} {after : Stage β}
    {post? : Option Nat} :
    (fun j => (Function.update stage i after j, Function.update post i post? j)) =
      Function.update (fun j => (stage j, post j)) i (after, post?) := by
  funext j
  by_cases hj : j = i
  · subst hj
    simp
  · simp [hj]

/-- A task ends, and its worker with it or not. -/
theorem conclude_eq (pool : Pool β ρ) (worker : Worker β) (audience : Audience)
    (outcome : Outcome ρ) :
    pool.conclude i worker audience outcome =
      if audience == .nobody && outcome.isFault then
        (Pool.setStage { pool with board := pool.board.hear audience outcome } i worker
          .dead).collapse
      else
        Pool.setStage { pool with board := pool.board.hear audience outcome } i worker
          audience.after := by
  cases audience <;> cases outcome <;> rfl

section Record

variable {worker worker' : Worker β} {before after : Stage β} {p : Pool β ρ} {env : ε}
  {post? : Option Nat} {begun : List (Task β)} (hget : c.site.pool.workers[i]? = some worker)
  (hbefore : worker.stage = before) (hworkers : p.workers = c.site.pool.workers)
  (hbegun : c.begun ++ before.begun after = begun)

include hget hbefore hworkers hbegun

/-- A worker goes from one stage to another, and its pool changes to `p` otherwise. -/
theorem scene_record (site : Worksite β ε ρ)
    (hsite : site.pool.stage = (p.setStage i worker' after).stage)
    (hcrew : site.pool.workerCount = c.site.pool.workerCount)
    (hpost : ((c.advance (.worker i) site).record i before after).post =
      Function.update c.post i post?) :
    ((c.advance (.worker i) site).record i (c.site.pool.stage i) (site.pool.stage i)).scene =
      { gauge := site.pool.gauge
        crew := c.site.pool.workerCount
        places := Function.update c.places i (after, post?)
        begun
        board := site.pool.board } := by
  have hafter : site.pool.stage = Function.update c.site.pool.stage i after :=
    hsite.trans (Pool.stage_setStage_eq hget hworkers)
  have hstage : site.pool.stage i = after := by rw [hafter, Function.update_self]
  rw [hstage, Pool.stage_of_getElem? hget, hbefore]
  obtain ⟨hrecorded, -, -, hrecord⟩ := record_eq (c.advance (.worker i) site) i before after
  have hplaces : ((c.advance (.worker i) site).record i before after).places =
      Function.update c.places i (after, post?) := by
    unfold places
    rw [hrecorded, hpost]
    simp only [advance, hafter]
    exact places_update
  rw [scene, hplaces, hrecord, hrecorded]
  simp only [advance, hcrew, hbegun]

/-- A worker goes on. -/
theorem collapses_setStage (worker' : Worker β)
    (hpost :
      ((c.advance (.worker i) ⟨p.setStage i worker' after, env⟩).record i before after).post =
        Function.update c.post i post?) :
    Scene.Collapses
      { gauge := p.gauge
        crew := c.site.pool.workerCount
        places := Function.update c.places i (after, post?)
        begun
        board := p.board }
      ((c.advance (.worker i) ⟨p.setStage i worker' after, env⟩).record i (c.site.pool.stage i)
        ((p.setStage i worker' after).stage i)).scene := by
  rw [scene_record hget hbefore hworkers hbegun ⟨p.setStage i worker' after, env⟩ rfl ?_ hpost]
  · exact .stays
  · rw [Pool.workerCount, Pool.workerCount, Pool.setStage, List.length_set, hworkers]

/-- A worker goes on and may be the last one. -/
theorem collapses_collapse (worker' : Worker β)
    (hpost : ((c.advance (.worker i) ⟨(p.setStage i worker' after).collapse, env⟩).record i before
      after).post = Function.update c.post i post?) :
    Scene.Collapses
      { gauge := p.gauge
        crew := c.site.pool.workerCount
        places := Function.update c.places i (after, post?)
        begun
        board := p.board }
      ((c.advance (.worker i) ⟨(p.setStage i worker' after).collapse, env⟩).record i
        (c.site.pool.stage i) ((p.setStage i worker' after).collapse.stage i)).scene := by
  have hcrew : (p.setStage i worker' after).workerCount = c.site.pool.workerCount := by
    rw [Pool.workerCount, Pool.workerCount, Pool.setStage, List.length_set, hworkers]
  rw [scene_record hget hbefore hworkers hbegun ⟨(p.setStage i worker' after).collapse, env⟩
    (Pool.stage_collapse _) ?_ hpost]
  · unfold Pool.collapse
    split
    · next hdeserted =>
      obtain ⟨hreleased, hover⟩ := Bool.and_eq_true_iff.1 hdeserted
      refine .drops hreleased fun j => ?_
      have hplace : (Function.update c.places i (after, post?) j).1 =
          (p.setStage i worker' after).stage j := by
        rw [Pool.stage_setStage_eq hget hworkers]
        by_cases hj : j = i
        · rw [hj, Function.update_self, Function.update_self]
        · rw [Function.update_of_ne hj, Function.update_of_ne hj]
          rfl
      rw [hplace]
      exact Pool.stage_of_workers (P := (·.isOver = true)) (List.all_eq_true.1 hover) rfl j
    · exact .stays
  · obtain hsame | ⟨-, board, hcollapse⟩ := (p.setStage i worker' after).collapse_eq
    · rw [hsame]
      exact hcrew
    · rw [hcollapse]
      exact hcrew

end Record

section Goes

variable {worker : Worker β} (hget : c.site.pool.workers[i]? = some worker)

include hget

/-- A worker that looks at the queue takes what it may, and parks or exits otherwise. -/
theorem goes_look {draining : Bool} (hstage : worker.stage = .awake draining) :
    ∃ s, Scene.Goes B fate i c.scene s ∧
      Scene.Collapses s
        ((c.advance (.worker i) { c.site with pool := c.site.pool.look i worker draining }).record i
          (c.site.pool.stage i) ((c.site.pool.look i worker draining).stage i)).scene := by
  have hbefore : c.scene.places i = (.awake draining, c.post i) :=
    Prod.ext ((Pool.stage_of_getElem? hget).trans hstage) rfl
  unfold Pool.look
  split
  · next task queue hpop =>
    split at hpop
    · next hmay =>
      exact ⟨_, .take hbefore hmay (Fifo.toList_of_pop? hpop),
        collapses_setStage (p := { c.site.pool with queue }) hget hstage rfl rfl worker rfl⟩
    · cases hpop
  · next hpop =>
    have hnone : (c.site.pool.workEnabled || draining) = true →
        c.site.pool.queue.toList = [] := by
      intro hmay
      rw [if_pos hmay] at hpop
      exact Fifo.pop?_eq_none_iff.1 hpop
    have hgoes : Scene.Goes B fate i c.scene _ := .rest hbefore hnone
    have hkept := Function.update_eq_self i c.post
    split
    · next hshut =>
      rw [if_pos (show c.scene.gauge.shutDown = true from hshut)] at hgoes
      exact ⟨_, hgoes, collapses_collapse hget hstage rfl (List.append_nil _) worker hkept.symm⟩
    · next hopen =>
      rw [if_neg (show ¬c.scene.gauge.shutDown = true from hopen)] at hgoes
      exact ⟨_, hgoes, collapses_setStage hget hstage rfl (List.append_nil _) worker hkept.symm⟩

/-- A worker that ends a task takes the next one, gives up its place in a group, or dies. -/
theorem goes_conclude {task : Task β} (hstage : worker.stage = .running task) {k : Nat}
    (hk : c.post i = some k) (env : ε) :
    ∃ s, Scene.Goes B fate i c.scene s ∧
      Scene.Collapses s
        ((c.advance (.worker i)
          ⟨c.site.pool.conclude i worker task.audience (fate k), env⟩).record i
            (c.site.pool.stage i)
            ((c.site.pool.conclude i worker task.audience (fate k)).stage i)).scene := by
  have hgoes : Scene.Goes B fate i c.scene _ :=
    .finish (Prod.ext ((Pool.stage_of_getElem? hget).trans hstage) hk)
  rw [conclude_eq]
  split
  · next hends =>
    rw [if_pos (show Task.ends fate (task, k) = true from hends)] at hgoes
    exact ⟨_, hgoes, collapses_collapse
      (p := { c.site.pool with board := c.site.pool.board.hear task.audience (fate k) })
      hget hstage rfl (List.append_nil _) worker rfl⟩
  · next hends =>
    rw [if_neg (show ¬Task.ends fate (task, k) = true from hends)] at hgoes
    refine ⟨_, hgoes, collapses_setStage
      (p := { c.site.pool with board := c.site.pool.board.hear task.audience (fate k) })
      hget hstage rfl ?_ worker ?_⟩
    · cases task.audience <;> exact List.append_nil _
    · cases task.audience <;> rfl

/-- The outcome of a step that ends a task. -/
theorem outcome?_of_finish {task : Task β} (hstage : worker.stage = .running task) {env : ε}
    {outcome : Outcome ρ}
    (hmove : B.step (c.site.pool.workerName i) worker.thread c.site.env task.body =
      .finish env outcome) :
    c.site.outcome? B i = some outcome := by
  obtain ⟨before, thread⟩ := worker
  dsimp only at hstage
  subst hstage
  simp only [Worksite.outcome?, hget, hmove]

end Goes

/-- A worker of a modest plant goes on as the scene allows. -/
theorem scene_of_workerStep {choice : Choice} {site : Worksite β ε ρ} (hmodest : c.Modest B)
    (hforetold : c.Foretells B fate)
    (hposted : ∀ i, (c.post i).isSome = (c.site.pool.stage i).underway?.isSome)
    (hstep : Worksite.workerStep B choice i c.site = some site) :
    i < c.scene.crew ∧ ∃ s, Scene.Goes B fate i c.scene s ∧
      Scene.Collapses s
        ((c.advance (.worker i) site).record i (c.site.pool.stage i)
          (site.pool.stage i)).scene := by
  unfold Worksite.workerStep at hstep
  split at hstep
  · cases hstep
  · next worker hget =>
    have hfound := Pool.stage_of_getElem? hget
    refine ⟨(List.getElem?_eq_some_iff.1 hget).1, ?_⟩
    have hbusy : ∀ task, worker.stage.underway? = some task → worker.stage = .running task :=
      fun task htask => (hmodest i worker task hget htask).1
    split at hstep
    · next draining hstage =>
      cases hstep
      exact goes_look hget hstage
    · next task hstage =>
      have hpost := hposted i
      rw [hfound, hstage] at hpost
      obtain ⟨k, hk⟩ := Option.isSome_iff_exists.1 hpost
      obtain ⟨env, rest, hmove⟩ | ⟨env, outcome, hmove⟩ :=
        (hmodest i worker task hget (by rw [hstage]; rfl)).2
      · rw [hmove] at hstep
        cases hstep
        have hkept : Function.update c.post i (some k) = c.post := by
          rw [← hk, Function.update_eq_self]
        exact ⟨_, .advance (Prod.ext (hfound.trans hstage) hk) ⟨_, _, _, _, hmove⟩,
          collapses_setStage hget hstage rfl (List.append_nil _) worker hkept.symm⟩
      · rw [hmove] at hstep
        cases hstep
        obtain rfl := hforetold i k outcome hk (outcome?_of_finish hget hstage hmove)
        exact goes_conclude hget hstage hk env
    · next task hstage => cases hstage.symm.trans (hbusy task (by rw [hstage]; rfl))
    · next task hstage => cases hstage.symm.trans (hbusy task (by rw [hstage]; rfl))
    · next last closing task hstage => cases hstage.symm.trans (hbusy task (by rw [hstage]; rfl))
    · next group hstage =>
      cases hstep
      have hkept := Function.update_eq_self i c.post
      refine ⟨_, .leave (Prod.ext (hfound.trans hstage) rfl), ?_⟩
      exact collapses_setStage
        (p := { c.site.pool with board := c.site.pool.board.leaveGroup group })
        hget hstage rfl (List.append_nil _) worker hkept.symm
    · cases hstep
    · cases hstep
    · cases hstep

variable {stands stands' : Nat → Pool.Standing ρ}

/-- What the workers do is part of what can happen. -/
theorem Labours.passes (h : Labours B c c') (stands : Nat → Pool.Standing ρ) :
    Passes B c stands c' stands := by
  cases h with
  | work hstep => exact .work hstep
  | rouse i => exact .rouse i

/-- The history stays in order while workers are left to themselves. -/
theorem Orderly.labours (horderly : c.Orderly stands) (h : Labours B c c') :
    c'.Orderly stands := by
  cases h with
  | work hstep => exact horderly.work hstep
  | rouse i => exact horderly.rouse i

/-- Tasks that always compute or end never ask anything of the pool. -/
theorem modest_of_plain (hB : B.IsPlain) (hplain : c.site.pool.Plain) : c.Modest B := by
  intro i worker task hget hunderway
  have hstage := hplain worker (List.mem_of_getElem? hget)
  refine ⟨?_, hB _ _ _ _⟩
  generalize worker.stage = stage at hstage hunderway
  cases stage with
  | running => cases hunderway; rfl
  | signalling | announcing | closing => cases hstage
  | _ => cases hunderway

/-- Workers whose tasks ask nothing of their pool never concern it. -/
theorem plain_of_run (hB : B.IsPlain) (hplain : c.site.pool.Plain)
    (hrun : Relation.ReflTransGen (Labours B) c c') : c'.site.pool.Plain := by
  induction hrun with
  | refl => exact hplain
  | tail _ hstep ih =>
    cases hstep with
    | work hstep =>
      rw [(record_eq _ _ _ _).1]
      exact (Worksite.workerStep_plain hB ih hstep).1
    | rouse i => exact (Pool.stirred_modify _ i).plain ih

/-- Some workers take a step each, one after the other, in the ordinary course. -/
def toil (B : Body β ε ρ) (c : Plant β ε ρ) : List Nat → Option (Plant β ε ρ)
  | [] => some c
  | i :: turns => (Worksite.workerStep B 0 i c.site).bind fun site =>
    toil B ((c.advance (.worker i) site).record i (c.site.pool.stage i) (site.pool.stage i)) turns

/-- Turns of workers are a run. -/
theorem run_of_toil {turns : List Nat} (htoil : c.toil B turns = some c') :
    Relation.ReflTransGen (Labours B) c c' := by
  induction turns generalizing c with
  | nil =>
    cases htoil
    exact .refl
  | cons i turns ih =>
    obtain ⟨site, hstep, hrest⟩ := Option.bind_eq_some_iff.1 htoil
    exact .head (.work hstep) (ih hrest)

/-- No call has anybody to wake. -/
def Quiet (stands : Nat → Pool.Standing ρ) : Prop :=
  ∀ i, (stands i).isQueued = false ∧ (stands i).isAnnouncing = false ∧ (stands i).isClosing = false

/-- A worker of a modest plant wakes nobody. -/
theorem Modest.isWaking (hmodest : c.Modest B) (i : Nat) :
    (c.site.pool.stage i).isWaking = false := by
  unfold Pool.stage
  split
  · next worker hget =>
    cases hwaking : worker.stage.isWaking with
    | false => rfl
    | true =>
      have hrunning := hmodest i worker
      generalize worker.stage = stage at hwaking hrunning
      cases stage with
      | signalling task | announcing task | closing _ _ task =>
        cases (hrunning task hget rfl).1
      | _ => cases hwaking
  · rfl

/-- Where a worker is parked that may take a task, enough others are on their way already. -/
theorem Watchful.length_le_hands (hwatchful : c.Watchful stands) (hmodest : c.Modest B)
    (hquiet : Quiet stands) (fate : Nat → Outcome ρ) (hparked : c.site.pool.stage i = .parked)
    (henabled : c.site.pool.workEnabled = true) :
    c.site.pool.queue.toList.length ≤ c.scene.hands fate := by
  have hready := hwatchful.watch.work henabled
    (fun j => (Stage.calm_of_isWaking_eq_false (hmodest.isWaking j)).1) (fun j => (hquiet j).2.1)
    ⟨i, hparked⟩
  rw [headcount_eq_zero fun j => (hquiet j).1] at hready
  refine hready.trans ?_
  have hlt : ∀ j, Stage.isReady (c.site.pool.stage j) = true → j < c.site.pool.workerCount := by
    refine fun j hj => Pool.lt_of_stage_ne fun hexited => ?_
    rw [hexited] at hj
    cases hj
  rw [Nat.add_zero, headcount_eq_sum hlt]
  refine Finset.sum_le_sum fun j _ => ?_
  have hwaking := hmodest.isWaking j
  change _ ≤ (Stage.isHand c.site.pool.workEnabled fate (c.site.pool.stage j, c.post j)).toNat
  rw [henabled]
  generalize c.site.pool.stage j = stage at hwaking
  cases stage with
  | awake draining => exact Nat.le_refl _
  | signalling task => cases hwaking
  | _ => exact Nat.zero_le _

/-- A worker that wakes up by itself changes nothing about what is going to happen. -/
theorem scene_rouse (c : Plant β ε ρ) (i : Nat) :
    scene { c with site.pool.workers := c.site.pool.workers.modify i Worker.woken } =
      { c.scene with
        places := Function.update c.places i ((c.site.pool.stage i).woken, c.post i) } := by
  have hplaces : places { c with site.pool.workers := c.site.pool.workers.modify i Worker.woken } =
      Function.update c.places i ((c.site.pool.stage i).woken, c.post i) := by
    unfold places
    rw [← places_update, Function.update_eq_self]
    simp only [Pool.stage_modify]
  simp only [scene, hplaces, Pool.workerCount, List.length_modify]
  rfl

/-- Whatever the workers of a modest plant do was bound to come. -/
theorem Labours.keeps (hmodest : c.Modest B) (hforetold : c.Foretells B fate)
    (horderly : c.Orderly stands) (hwatchful : c.Watchful stands') (hquiet : Quiet stands')
    (h : Labours B c c') : Scene.Keeps fate c.scene c'.scene := by
  cases h with
  | work hstep =>
    obtain ⟨hi, s, hgoes, hcollapses⟩ :=
      scene_of_workerStep hmodest hforetold horderly.posted.isSome_post hstep
    refine (hgoes.keeps hi).trans (hcollapses.keeps ?_)
    cases hgoes <;> exact horderly.sealed.released
  | rouse i =>
    rw [scene_rouse]
    by_cases hparked : c.site.pool.stage i = .parked
    · have hi : i < c.scene.crew := Pool.lt_of_stage_ne (by rw [hparked]; exact nofun)
      rw [hparked]
      exact Scene.keeps_rouse hi (Prod.ext hparked rfl)
        (hwatchful.length_le_hands hmodest hquiet fate hparked)
    · rw [Stage.woken_of_ne hparked]
      have hsame : Function.update c.places i (c.site.pool.stage i, c.post i) = c.places :=
        Function.update_eq_self i c.places
      rw [hsame]
      exact .refl c.scene

/-- Whatever the workers do from here on was bound to come. -/
theorem keeps_of_run (horderly : c.Orderly stands) (hwatchful : c.Watchful stands')
    (hquiet : Quiet stands')
    (hmodest : ∀ c', Relation.ReflTransGen (Labours B) c c' → c'.Modest B)
    (hforetold : ∀ c', Relation.ReflTransGen (Labours B) c c' → c'.Foretells B fate)
    (hrun : Relation.ReflTransGen (Labours B) c c') :
    Scene.Keeps fate c.scene c'.scene ∧ c'.Orderly stands ∧ c'.Watchful stands' := by
  induction hrun with
  | refl => exact ⟨.refl _, horderly, hwatchful⟩
  | tail hbefore hstep ih =>
    obtain ⟨hkeeps, horderly, hwatchful⟩ := ih
    exact ⟨hkeeps.trans (hstep.keeps (hmodest _ hbefore) (hforetold _ hbefore) horderly hwatchful
      hquiet), horderly.labours hstep, hwatchful.step (hstep.passes stands')⟩

/-- Where no worker can go on, all of them are parked or over. -/
theorem AtRest.cases (hrest : c.AtRest B) (hmodest : c.Modest B) (i : Nat) :
    c.site.pool.stage i = .parked ∨ (c.site.pool.stage i).isOver = true := by
  cases hget : c.site.pool.workers[i]? with
  | none =>
    refine .inr ?_
    rw [Pool.stage, hget]
    rfl
  | some worker =>
    have hstuck := hrest 0 i
    have hgoes := hmodest i worker
    rw [Pool.stage_of_getElem? hget]
    unfold Worksite.workerStep at hstuck
    rw [hget] at hstuck
    obtain ⟨stage, thread⟩ := worker
    cases stage with
    | parked => exact .inl rfl
    | exited | dead => exact .inr rfl
    | running task =>
      obtain ⟨env, rest, hmove⟩ | ⟨env, outcome, hmove⟩ := (hgoes task hget rfl).2 <;>
        simp only [hmove] at hstuck <;> cases hstuck
    | signalling task | announcing task => cases (hgoes task hget rfl).1
    | closing last closing task => cases (hgoes task hget rfl).1
    | awake | leaving => cases hstuck

/-- Where all workers are parked or over, none of them can go on. -/
theorem atRest_of_workers
    (hworkers : ∀ worker ∈ c.site.pool.workers,
      worker.stage.isParked = true ∨ worker.stage.isOver = true) : c.AtRest B := by
  intro choice i
  unfold Worksite.workerStep
  split
  · rfl
  · next worker hget =>
    have hstage := hworkers worker (List.mem_of_getElem? hget)
    generalize worker.stage = stage at hstage
    cases stage with
    | parked | exited | dead => rfl
    | _ => obtain h | h := hstage <;> cases h

/-- The workers are counted by their places. -/
theorem tally_stage (c : Plant β ε ρ) (q : Stage β → Bool) :
    c.scene.tally (fun place => (q place.1).toNat) =
      c.site.pool.workers.countP fun worker => q worker.stage := by
  have hstage : ∀ i, c.site.pool.stage i =
      c.site.pool.workers[i]?.elim Stage.exited (·.stage) := by
    intro i
    unfold Pool.stage
    cases c.site.pool.workers[i]? <;> rfl
  refine Eq.trans (Finset.sum_congr rfl fun i _ => ?_)
    (sum_range_eq_countP c.site.pool.workers fun worker? =>
      q (worker?.elim Stage.exited (·.stage)))
  exact congrArg (fun stage => (q stage).toNat) (hstage i)

/-- What is left when the workers have come to rest. -/
theorem AtRest.outlook (hrest : c.AtRest B) (hmodest : c.Modest B) (horderly : c.Orderly stands)
    (hwatchful : c.Watchful stands') (hquiet : Quiet stands') (fate : Nat → Outcome ρ) :
    c.scene.outlook fate = ⟨c.begun, c.site.pool.queue.toList, c.live⟩ ∧ c.scene.news fate = 0 := by
  have hcases := hrest.cases hmodest
  have hover : c.site.pool.shutDown = true → ∀ i, (c.site.pool.stage i).isOver = true := by
    refine fun hshut i => (hcases i).resolve_left fun hparked => ?_
    obtain ⟨j, hclosing⟩ | ⟨j, hclosing⟩ := hwatchful.watch.shut hshut ⟨i, hparked⟩
    · cases (Stage.calm_of_isWaking_eq_false (hmodest.isWaking j)).2.symm.trans hclosing
    · cases (hquiet j).2.2.symm.trans hclosing
  obtain ⟨houtlook, hnews⟩ := Scene.outlook_of_rest (s := c.scene) fate hcases hover
    fun hreleased => horderly.deserted ⟨hreleased, hover (horderly.sealed.released hreleased)⟩
  refine ⟨houtlook.trans ?_, hnews⟩
  rw [c.tally_stage fun stage => !stage.isOver]
  rfl

/-- A handle is told no more often than tasks answer to it. -/
theorem countP_news_le (c : Plant β ε ρ) (fate : Nat → Outcome ρ) (id : HandleId) :
    (c.scene.news fate).countP (·.isTold id) ≤ c.site.pool.seats.count (.handle id) := by
  have hseated : (c.site.pool.workers.filterMap (·.stage.seat?)).count (.handle id) =
      c.scene.tally fun place => (place.1.seat? == some (.handle id)).toNat := by
    rw [List.count_filterMap, c.tally_stage fun stage => stage.seat? == some (.handle id)]
  rw [Pool.seats, List.count_append, hseated]
  exact Scene.countP_news_le fate c.scene id

end Plant

end MarkSweep
