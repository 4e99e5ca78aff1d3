import MarkSweep.Proofs.Attrition
import MarkSweep.Proofs.Pool.Deals

namespace MarkSweep

variable {β ε ρ : Type}

/-- Whether a call is about to queue or to drop a task of an audience. -/
def Pool.Standing.claims (audience : Audience) (k : Pool.Standing ρ) : Bool :=
  k.seat? == some audience

/-- A call has a place taken or not. -/
theorem Pool.Standing.toNat_claims (audience : Audience) (k : Pool.Standing ρ) :
    (k.claims audience).toNat = k.seat?.toList.count audience := by
  unfold claims
  cases k.seat? with
  | none => rfl
  | some other =>
    rw [Option.toList_some, List.count_singleton]
    by_cases heq : other = audience <;> simp [heq]

section Ending

variable {B : Body β ε ρ} {choice : Choice} {i : Nat} {s s' : Worksite β ε ρ}

/-- A worker that has ended its task is at no task. -/
theorem Pool.underway?_stage_conclude {pool : Pool β ρ} {worker worker' : Worker β}
    (hget : pool.workers[i]? = some worker) (audience : Audience) (outcome : Outcome ρ) :
    ((pool.conclude i worker' audience outcome).stage i).underway? = none := by
  have hset : ∀ {p : Pool β ρ} {after : Stage β}, p.workers = pool.workers →
      after.underway? = none → ((p.setStage i worker' after).stage i).underway? = none := by
    intro p after hworkers hafter
    rw [stage_setStage_eq hget hworkers, Function.update_self, hafter]
  unfold conclude
  split
  · exact hset rfl rfl
  · rw [stage_collapse]
    exact hset rfl rfl
  · exact hset rfl rfl
  · exact hset rfl rfl
  · exact hset rfl rfl

namespace Worksite

/-- A worker that ends a task is at that task. -/
theorem exists_running_of_outcome? {outcome : Outcome ρ}
    (houtcome : s.outcome? B i = some outcome) :
    ∃ worker task, s.pool.workers[i]? = some worker ∧ worker.stage = .running task ∧
      ∃ env, B.step (s.pool.workerName i) worker.thread s.env task.body = .finish env outcome := by
  unfold outcome? at houtcome
  split at houtcome
  · next task thread hget =>
    split at houtcome
    · next env outcome' hmove =>
      cases houtcome
      exact ⟨_, task, hget, rfl, env, hmove⟩
    · cases houtcome
  · cases houtcome

/-- A worker ends its task in the step in which the task says how it ends. -/
theorem hasEnded_workerStep (hstep : s.workerStep B choice i = some s') :
    (s.pool.stage i).hasEnded (s'.pool.stage i) = (s.outcome? B i).isSome := by
  cases houtcome : s.outcome? B i with
  | none =>
    have hturn := (workerStep_shift hstep).turnover
    unfold Stage.hasEnded
    cases hturn with
    | begins hbefore hafter =>
      rw [hbefore]
      rfl
    | goes hbefore hsame =>
      have hafter := congrArg Option.isSome hsame
      rw [Stage.audience?, Stage.audience?, Option.isSome_map, Option.isSome_map, hbefore] at hafter
      rw [hbefore, Option.isNone_eq_false_iff.2 hafter]
      rfl
    | ends _ hsome => cases houtcome.symm.trans hsome
    | rests hbefore =>
      rw [hbefore.1]
      rfl
  | some outcome =>
    obtain ⟨worker, task, hget, hstage, env, hmove⟩ := exists_running_of_outcome? houtcome
    unfold workerStep at hstep
    rw [hget] at hstep
    dsimp only at hstep
    rw [hstage] at hstep
    dsimp only at hstep
    rw [hmove] at hstep
    cases hstep
    unfold Stage.hasEnded
    rw [Pool.stage_of_getElem? hget, hstage]
    dsimp only
    rw [Pool.underway?_stage_conclude hget]
    rfl

end Worksite

end Ending

namespace Plant

variable {B : Body β ε ρ} {c : Plant β ε ρ} {stands : Nat → Pool.Standing ρ}

/-- The history agrees with the pool. -/
structure Orderly (c : Plant β ε ρ) (stands : Nat → Pool.Standing ρ) : Prop where
  sealed : c.site.pool.Sealed
  hasShut : ∀ i, (stands i).HasShut → c.site.pool.shutDown = true
  flow : ∃ dropped, c.accepted.map (·.2) = c.begun ++ c.site.pool.queue.toList ++ dropped ∧
    (dropped ≠ [] → c.site.pool.Deserted)
  deserted : c.site.pool.Deserted → c.site.pool.queue.toList = []
  posted : Posted c.site.pool.stage c.begun.length c.post c.ended
  audience : ∀ i k, c.post i = some k →
    (c.site.pool.stage i).audience? = c.begun[k]?.map (·.audience)
  few : ∀ audience, Few (Pool.Standing.claims audience) stands
  /-- Nobody but a call claims anything. -/
  strangers : ∀ i, c.visits.length ≤ i → (stands i).seat? = none

theorem Orderly.start {workers : Nat} {name : String} {pool : Pool β ρ}
    (hpool : Pool.create? workers name = .ok pool) (env : ε) :
    Orderly { site := ⟨pool, env⟩ } fun _ => .ready := by
  have hposted := (Closing.start hpool env).1.posted
  obtain rfl := Pool.eq_create hpool
  refine ⟨⟨nofun, ?_⟩, fun _ => False.elim, ⟨[], rfl, nofun⟩, fun _ => rfl, hposted, nofun,
    fun _ => few_of_none fun _ => rfl, fun _ _ => rfl⟩
  intro i last closing task hclosing
  obtain h | h := stage_create (β := β) (ρ := ρ) workers name i <;> cases h.symm.trans hclosing

/-- Neither the board nor what the tasks share has to do with the history. -/
theorem Orderly.setBoard (h : c.Orderly stands) (board : Board ρ) (env : ε) :
    Orderly { c with site := ⟨{ c.site.pool with board }, env⟩ } stands :=
  ⟨⟨h.sealed.released, h.sealed.closing⟩, h.hasShut, h.flow, h.deserted, h.posted, h.audience,
    h.few, h.strangers⟩

/-- A call is made. -/
theorem Orderly.arrive (h : c.Orderly stands)
    (visit : Visit (Pool.Errand β) (Worksite β ε ρ) (Pool.Answer ρ)) :
    Orderly { c with visits := c.visits ++ [visit] }
      (Function.update stands c.visits.length visit.errand.start) := by
  have hstart : ¬(visit.errand.start : Pool.Standing ρ).HasShut := by
    cases visit.errand with
    | finalize => exact fun hk => hk rfl
    | _ => exact id
  refine ⟨h.sealed, ?_, h.flow, h.deserted, h.posted, h.audience, fun audience =>
    (h.few audience).update, fun i hi => ?_⟩
  · exact (Function.forall_update_iff stands fun _ k => k.HasShut → _).2
      ⟨fun hk => absurd hk hstart, fun j _ => h.hasShut j⟩
  · rw [List.length_append, List.length_singleton] at hi
    rw [Function.update_of_ne (by omega)]
    exact h.strangers i (by omega)

/-- A call takes a step. -/
theorem Orderly.call (h : c.Orderly stands) {errand : Pool.Errand β} {k₀ k : Pool.Standing ρ}
    {t t' : Thread} {site : Worksite β ε ρ} {i : Nat} (hi : i < c.visits.length)
    (hshut : k₀.HasShut → c.site.pool.shutDown = true)
    (hmoves : Pool.Moves errand k₀ t c.site.pool k t' site.pool) (origin : Origin)
    (visit : Visit (Pool.Errand β) (Worksite β ε ρ) (Pool.Answer ρ)) :
    Orderly { c.advance origin site with visits := c.visits.set i visit }
      (Function.update stands i k) := by
  have htended := hmoves.tended
  obtain ⟨added, htraffic, -⟩ := hmoves.traffic
  refine ⟨hmoves.sealed hshut h.sealed, ?hasShut, ?flow, hmoves.deserted h.sealed h.deserted,
    ?posted, ?audience, fun audience => (h.few audience).update, ?strangers⟩
  case strangers =>
    intro j hj
    rw [List.length_set] at hj
    rw [Function.update_of_ne (by omega)]
    exact h.strangers j hj
  case hasShut =>
    refine (Function.forall_update_iff stands fun _ k => k.HasShut → _).2 ⟨?_, ?_⟩
    · exact hmoves.hasShut hshut
    · exact fun j _ hj => htended.shutDown (h.hasShut j hj)
  case flow =>
    obtain ⟨dropped, hflow, hdropped⟩ := h.flow
    obtain ⟨dropped', hflow', hdropped'⟩ := htraffic.flow h.sealed
      (fun hdeserted => hdeserted.tended htended) hflow hdropped
    refine ⟨dropped', ?_, hdropped'⟩
    rw [List.append_nil] at hflow'
    exact ((map_accepted_advance c _ site).trans (by rw [htraffic.grown_eq])).trans hflow'
  case posted => exact h.posted.congr fun j => congrArg Option.isSome (htended.underway?_eq j)
  case audience =>
    intro j k hk
    exact (congrArg (Option.map _) (htended.underway?_eq j)).trans (h.audience j k hk)

/-- A worker takes a step. -/
theorem Orderly.work (h : c.Orderly stands) {choice : Choice} {i : Nat} {site : Worksite β ε ρ}
    (hstep : Worksite.workerStep B choice i c.site = some site) :
    Orderly ((c.advance (.worker i) site).record i (c.site.pool.stage i) (site.pool.stage i))
      stands := by
  have hdeed := Worksite.workerStep_deed hstep
  have hdeserted := (Worksite.workerStep_shift hstep).deserted
  have hothers : ∀ j ≠ i, (site.pool.stage j).underway? = (c.site.pool.stage j).underway? := by
    intro j hj
    obtain hsame | ⟨hparked, hawake⟩ := hdeed.others j hj
    · rw [hsame]
    · rw [hparked, hawake]
      rfl
  have hrecorded := recorded_work hstep
  have hposted := posted_record (c := c.advance (.worker i) site) h.posted fun j hj =>
    congrArg Option.isSome (hothers j hj)
  obtain ⟨hsite, hvisits, haccepted, hbegun⟩ :=
    record_eq (c.advance (.worker i) site) i (c.site.pool.stage i) (site.pool.stage i)
  generalize (c.advance (.worker i) site).record i (c.site.pool.stage i) (site.pool.stage i) = c'
    at hrecorded hposted hsite hvisits haccepted hbegun ⊢
  subst hsite
  refine ⟨hdeed.sealed h.sealed, fun j hj => hdeed.shutDown (h.hasShut j hj), ?flow, hdeserted,
    hposted, ?audience, h.few, fun j hj => h.strangers j (hvisits ▸ hj)⟩
  case flow =>
    obtain ⟨dropped, hflow, hdropped⟩ := h.flow
    obtain ⟨added, htraffic⟩ := hdeed.traffic
    have hstays : c.site.pool.Deserted → c'.site.pool.Deserted := fun hbefore =>
      absurd (hdeed.active.symm.trans (hbefore.2 i)) nofun
    obtain ⟨dropped', hflow', hdropped'⟩ := htraffic.flow h.sealed hstays hflow hdropped
    refine ⟨dropped', ?_, hdropped'⟩
    rw [haccepted, hbegun, map_accepted_advance, htraffic.grown_eq]
    exact hflow'
  case audience =>
    exact audience_of_recorded h.posted h.audience hrecorded fun j hj =>
      congrArg (Option.map _) (hothers j hj)

/-- A worker that is about to end a task is at one that was begun. -/
theorem Orderly.exists_begun (h : c.Orderly stands) {i : Nat} {outcome : Outcome ρ}
    (houtcome : c.site.outcome? B i = some outcome) :
    ∃ k task, c.post i = some k ∧ c.begun[k]? = some task ∧
      c.site.ending? B i = some (task.audience, outcome) := by
  obtain ⟨worker, running, hget, hstage, -⟩ := Worksite.exists_running_of_outcome? houtcome
  have hrunning := (Pool.stage_of_getElem? hget).trans hstage
  have hpost := h.posted.isSome_post i
  rw [hrunning] at hpost
  obtain ⟨k, hk⟩ := Option.isSome_iff_exists.1 hpost
  have haudience := h.audience i k hk
  rw [hrunning] at haudience
  obtain ⟨task, htask, hsame⟩ := Option.map_eq_some_iff.1 haudience.symm
  refine ⟨k, task, hk, htask, ?_⟩
  unfold Worksite.ending?
  rw [hrunning, houtcome, hsame]
  rfl

/-- A step notes as ended what its worker has ended. -/
theorem ended_record_eq (c : Plant β ε ρ) (i : Nat) (before after : Stage β) :
    (c.record i before after).ended =
      c.ended ++ if before.hasEnded after then (c.post i).toList else [] := by
  unfold record
  split
  · next task rest hbegun =>
    have hbefore : before.underway? = none := by
      unfold Stage.begun at hbegun
      split at hbegun
      · next hbefore _ => exact hbefore
      · cases hbegun
    unfold Stage.hasEnded
    rw [hbefore]
    exact (List.append_nil _).symm
  · split
    · rfl
    · exact (List.append_nil _).symm

/-- A worker wakes up although nobody woke it. -/
theorem Orderly.rouse (h : c.Orderly stands) (i : Nat) :
    Orderly { c with site.pool.workers := c.site.pool.workers.modify i Worker.woken } stands := by
  have htended := Pool.tended_modify c.site.pool i
  refine ⟨htended.sealed h.sealed h.sealed.released, h.hasShut, ?flow, ?deserted, ?posted,
    ?audience, h.few, h.strangers⟩
  case flow =>
    obtain ⟨dropped, hflow, hdropped⟩ := h.flow
    exact ⟨dropped, hflow, fun hne => (hdropped hne).tended htended⟩
  case deserted =>
    exact fun hdeserted => h.deserted ⟨hdeserted.1, fun j =>
      (htended.isOver j).symm.trans (hdeserted.2 j)⟩
  case posted => exact h.posted.congr fun j => congrArg Option.isSome (htended.underway?_eq j)
  case audience =>
    intro j k hk
    exact (congrArg (Option.map _) (htended.underway?_eq j)).trans (h.audience j k hk)

end Plant

end MarkSweep
