import MarkSweep.Proofs.Acceptance
import MarkSweep.Proofs.Pool.Headcount
import MarkSweep.Proofs.Pool.Shifts

namespace MarkSweep

variable {β ε ρ : Type}

namespace Stage

/-- Whether a worker is on its way to the queue, or on its way to send another one there. -/
def isReady : Stage β → Bool
  | awake _ | signalling _ => true
  | _ => false

/-- Whether a worker has set a flag and has still to wake every worker. -/
def isAnnouncing : Stage β → Bool
  | announcing _ | closing _ .flagged _ => true
  | _ => false

/-- Whether a worker has shut the pool down and has still to wake every worker. -/
def isClosing : Stage β → Bool
  | closing _ .flagged _ => true
  | _ => false

/-- A worker that is at a task and has nobody to wake is not on its way to the queue. -/
theorem calm_of_audience? {stage : Stage β} (haudience : stage.audience?.isSome = true)
    (hquiet : stage.isWaking = false) :
    stage ≠ .parked ∧ stage.isReady = false ∧ stage.isAnnouncing = false ∧
      stage.isClosing = false := by
  cases stage with
  | running task => exact ⟨nofun, rfl, rfl, rfl⟩
  | closing last closing task =>
    cases closing with
    | flagged => cases hquiet
    | _ => exact ⟨nofun, rfl, rfl, rfl⟩
  | signalling task => cases hquiet
  | announcing task => cases hquiet
  | _ => cases haudience

/-- A worker that wakes nobody announces nothing and closes nothing. -/
theorem calm_of_isWaking_eq_false {stage : Stage β} (hquiet : stage.isWaking = false) :
    stage.isAnnouncing = false ∧ stage.isClosing = false := by
  rcases stage with _ | _ | _ | _ | ⟨_, _ | _ | _ | _, _⟩ | _ | _ | _ | _ <;>
    first | exact ⟨rfl, rfl⟩ | cases hquiet

/-- A worker that is over is not on its way to the queue. -/
theorem isReady_of_isOver {stage : Stage β} (hover : stage.isOver = true) :
    stage.isReady = false := by
  cases stage <;> first | rfl | cases hover

end Stage

namespace Pool

theorem few_ready (pool : Pool β ρ) : Few Stage.isReady pool.stage := by
  refine (Set.finite_lt_nat pool.workers.length).subset fun i hready => ?_
  refine lt_of_stage_ne fun hexited => ?_
  rw [Set.mem_ofPred_eq, hexited] at hready
  cases hready

namespace Standing

/-- Whether a call has queued a task and has still to wake a worker for it. -/
def isQueued : Standing ρ → Bool
  | queued _ => true
  | _ => false

/-- Whether a call has set a flag and has still to wake every worker. -/
def isAnnouncing : Standing ρ → Bool
  | enabled | closing .flagged => true
  | _ => false

/-- Whether a call has shut the pool down and has still to wake every worker. -/
def isClosing : Standing ρ → Bool
  | closing .flagged => true
  | _ => false

theorem calm_of_not_isWaking {k : Standing ρ} (hquiet : ¬k.IsWaking) :
    k.isQueued = false ∧ k.isAnnouncing = false ∧ k.isClosing = false := by
  rcases k with _ | _ | _ | _ | _ | _ | _ | ⟨_ | _ | _ | _⟩ <;>
    first | exact ⟨rfl, rfl, rfl⟩ | exact absurd trivial hquiet

end Standing

/-- A call that is about to queue a task has nobody to wake. -/
theorem Errand.calm_of_task? {errand : Errand β} {k : Standing ρ} {task : Task β}
    (htask : errand.task? k = some task) :
    k.isQueued = false ∧ k.isAnnouncing = false ∧ k.isClosing = false := by
  cases k with
  | ready => exact ⟨rfl, rfl, rfl⟩
  | opened id => exact ⟨rfl, rfl, rfl⟩
  | _ => cases errand <;> cases htask

/-- As long as some worker is parked, somebody is on the way for each task that may be taken, with
`slack` to spare, or will wake every worker; and somebody will wake every worker if the pool is shut
down. -/
structure Watch (slack : Nat) (gauge : Gauge β) (stage : Nat → Stage β)
    (stands : Nat → Standing ρ) : Prop where
  ready : Few Stage.isReady stage
  queued : Few Standing.isQueued stands
  work : gauge.enabled = true → (∀ i, (stage i).isAnnouncing = false) →
    (∀ i, (stands i).isAnnouncing = false) → (∃ i, stage i = .parked) →
      gauge.queue.length + slack ≤
        headcount Stage.isReady stage + headcount Standing.isQueued stands
  shut : gauge.shutDown = true → (∃ i, stage i = .parked) →
    (∃ i, (stage i).isClosing = true) ∨ ∃ i, (stands i).isClosing = true

namespace Watch

variable {slack slack' : Nat} {gauge gauge' : Gauge β} {stage : Nat → Stage β}
  {stands : Nat → Standing ρ} {i : Nat} {before after : Stage β} {k k' : Standing ρ}

/-- Nobody has to be woken. -/
theorem of_awake (hready : Few Stage.isReady stage) (hqueued : Few Standing.isQueued stands)
    (hawake : ∀ j, stage j ≠ .parked) : Watch slack gauge stage stands :=
  ⟨hready, hqueued, fun _ _ _ ⟨j, hparked⟩ => absurd hparked (hawake j),
    fun _ ⟨j, hparked⟩ => absurd hparked (hawake j)⟩

theorem mono (h : Watch slack' gauge stage stands) (hle : slack ≤ slack') :
    Watch slack gauge stage stands :=
  { h with
    work := fun hlit hstage hstands hparked =>
      (Nat.add_le_add_left hle _).trans (h.work hlit hstage hstands hparked) }

/-- A worker moves on. -/
theorem worker (h : Watch slack gauge stage stands) (hbefore : stage i = before)
    (hwork : gauge'.enabled = true → after.isAnnouncing = false →
      gauge'.queue.length + slack' = 0 ∨
        after ≠ .parked ∧ gauge.enabled = true ∧ before.isAnnouncing = false ∧
          gauge'.queue.length + slack' + before.isReady.toNat ≤
            gauge.queue.length + slack + after.isReady.toNat)
    (hshut : gauge'.shutDown = true → after ≠ .parked ∧
      (after.isClosing = true ∨ gauge.shutDown = true ∧ before.isClosing = false)) :
    Watch slack' gauge' (Function.update stage i after) stands := by
  have hother : ∀ {j}, after ≠ .parked → Function.update stage i after j = .parked →
      stage j = .parked := by
    intro j hafter hparked
    by_cases hj : j = i
    · rw [hj, Function.update_self] at hparked
      exact absurd hparked hafter
    · rwa [Function.update_of_ne hj] at hparked
  refine ⟨h.ready.update, h.queued, ?_, ?_⟩
  · rintro hlit hstage hstands ⟨j, hparked⟩
    have hself := hstage i
    rw [Function.update_self] at hself
    obtain hnone | ⟨hafter, hlit', hquiet, hle⟩ := hwork hlit hself
    · rw [hnone]
      exact Nat.zero_le _
    · have hstage' : ∀ j, (stage j).isAnnouncing = false := by
        intro j
        by_cases hj : j = i
        · rw [hj, hbefore, hquiet]
        · have hsame := hstage j
          rwa [Function.update_of_ne hj] at hsame
      have hcredit := h.work hlit' hstage' hstands ⟨j, hother hafter hparked⟩
      have hcount := headcount_update h.ready i after
      rw [hbefore] at hcount
      omega
  · rintro hdown ⟨j, hparked⟩
    obtain ⟨hafter, hclosing | ⟨hdown', hquiet⟩⟩ := hshut hdown
    · exact .inl ⟨i, by rw [Function.update_self, hclosing]⟩
    · obtain ⟨j', hclosing⟩ | hcall := h.shut hdown' ⟨j, hother hafter hparked⟩
      · have hj : j' ≠ i := by
          rintro rfl
          rw [hbefore, hquiet] at hclosing
          cases hclosing
        exact .inl ⟨j', by rw [Function.update_of_ne hj, hclosing]⟩
      · exact .inr hcall

/-- A call moves on. -/
theorem client (h : Watch slack gauge stage stands) (hk : stands i = k)
    (hwork : gauge'.enabled = true → k'.isAnnouncing = false →
      gauge.enabled = true ∧ k.isAnnouncing = false ∧
        gauge'.queue.length + slack' + k.isQueued.toNat ≤
          gauge.queue.length + slack + k'.isQueued.toNat)
    (hshut : gauge'.shutDown = true →
      k'.isClosing = true ∨ gauge.shutDown = true ∧ k.isClosing = false) :
    Watch slack' gauge' stage (Function.update stands i k') := by
  refine ⟨h.ready, h.queued.update, ?_, ?_⟩
  · rintro hlit hstage hstands hparked
    have hself := hstands i
    rw [Function.update_self] at hself
    obtain ⟨hlit', hquiet, hle⟩ := hwork hlit hself
    have hstands' : ∀ j, (stands j).isAnnouncing = false := by
      intro j
      by_cases hj : j = i
      · rw [hj, hk, hquiet]
      · have hsame := hstands j
        rwa [Function.update_of_ne hj] at hsame
    have hcredit := h.work hlit' hstage hstands' hparked
    have hcount := headcount_update h.queued i k'
    rw [hk] at hcount
    omega
  · intro hdown hparked
    obtain hclosing | ⟨hdown', hquiet⟩ := hshut hdown
    · exact .inr ⟨i, by rw [Function.update_self, hclosing]⟩
    · obtain hworker | ⟨j, hclosing⟩ := h.shut hdown' hparked
      · exact .inl hworker
      · have hj : j ≠ i := by
          rintro rfl
          rw [hk, hquiet] at hclosing
          cases hclosing
        exact .inr ⟨j, by rw [Function.update_of_ne hj, hclosing]⟩

/-- A call that has nobody to wake moves on. -/
theorem idle (h : Watch slack gauge stage stands) (hk : stands i = k)
    (hcalm : k.isQueued = false ∧ k.isAnnouncing = false ∧ k.isClosing = false)
    (hqueue : gauge'.queue.length ≤ gauge.queue.length)
    (hlit : gauge'.enabled = true → gauge.enabled = true)
    (hdown : gauge'.shutDown = true → gauge.shutDown = true) :
    Watch slack gauge' stage (Function.update stands i k') := by
  obtain ⟨hqueued, hannouncing, hclosing⟩ := hcalm
  refine h.client hk (fun h' _ => ⟨hlit h', hannouncing, ?_⟩) fun h' => .inr ⟨hdown h', hclosing⟩
  rw [hqueued]
  exact (Nat.add_le_add_right hqueue slack).trans (Nat.le_add_right _ _)

/-- A worker is woken. -/
theorem rouse (h : Watch slack gauge stage stands) (hparked : stage i = .parked) :
    Watch (slack + 1) gauge (Function.update stage i (.awake false)) stands :=
  h.worker hparked (fun hlit _ => .inr ⟨nofun, hlit, rfl, by rfl⟩)
    fun hdown => ⟨nofun, .inr ⟨hdown, rfl⟩⟩

/-- A worker that parks has found nothing to take, and the pool is not shut down. -/
theorem park (h : Watch 0 gauge stage stands) (hbefore : stage i = before)
    (hnone : gauge.enabled = true → gauge.queue = []) (hopen : gauge.shutDown = false) :
    Watch 0 gauge (Function.update stage i .parked) stands := by
  refine h.worker hbefore (fun hlit _ => .inl ?_) fun hdown => absurd (hopen.symm.trans hdown) nofun
  rw [hnone hlit]
  rfl

/-- A worker that was at a task, and had nobody to wake, goes on or ends it. -/
theorem task (h : Watch 0 gauge stage stands) (hbefore : stage i = before)
    (hcalm : before.isReady = false ∧ before.isAnnouncing = false ∧ before.isClosing = false)
    (hafter : after ≠ .parked) (hqueue : gauge'.queue.length ≤ gauge.queue.length)
    (hlit : gauge'.enabled = true → gauge.enabled = true)
    (hdown : gauge'.shutDown = true → gauge.shutDown = true) :
    Watch 0 gauge' (Function.update stage i after) stands := by
  obtain ⟨hready, hannouncing, hclosing⟩ := hcalm
  refine h.worker hbefore (fun h' _ => .inr ⟨hafter, hlit h', hannouncing, ?_⟩)
    fun h' => ⟨hafter, .inr ⟨hdown h', hclosing⟩⟩
  rw [hready]
  exact hqueue.trans (Nat.le_add_right _ _)

/-- What workers do keeps the balance. -/
theorem shift {pool pool' : Pool β ρ} {outcome? : Option (Outcome ρ)}
    (h : Watch 0 pool.gauge pool.stage stands) (hshift : Shift i outcome? pool pool') :
    Watch 0 pool'.gauge pool'.stage stands := by
  cases hshift with
  | take hbefore hqueue hgauge hafter =>
    rw [hgauge, hafter]
    refine h.worker hbefore (fun hlit _ => .inr ⟨nofun, hlit, rfl, ?_⟩)
      fun hdown => ⟨nofun, .inr ⟨hdown, rfl⟩⟩
    rw [hqueue]
    rfl
  | park hbefore hnone hopen hgauge hafter =>
    rw [hgauge, hafter]
    exact h.park hbefore hnone hopen
  | exit hbefore hnone hshut hgauge hafter =>
    rw [hafter]
    obtain hgauge | hgauge := hgauge.gauge_eq <;> rw [hgauge]
    · exact h.worker hbefore (fun hlit _ => .inl (by rw [hnone hlit]; rfl))
        fun hdown => ⟨nofun, .inr ⟨hdown, rfl⟩⟩
    · exact h.worker hbefore (fun _ _ => .inl rfl) fun hdown => ⟨nofun, .inr ⟨hdown, rfl⟩⟩
  | go hbefore hquiet hsame hreleased hgauge hafter =>
    rw [hgauge, hafter]
    obtain ⟨-, hcalm⟩ := Stage.calm_of_audience? hbefore hquiet.1
    obtain ⟨hawake, -⟩ := Stage.calm_of_audience? (hsame ▸ hbefore) hquiet.2
    exact h.task rfl hcalm hawake le_rfl id id
  | push hbefore hsame hopen hgauge hafter =>
    rw [hgauge, hafter]
    split
    · refine h.worker hbefore (fun hlit _ => .inr ⟨nofun, hlit, rfl, ?_⟩)
        fun hdown => ⟨nofun, .inr ⟨hdown, rfl⟩⟩
      rw [List.length_append]
      rfl
    · next hlit =>
      exact h.worker hbefore (fun hlit' => absurd hlit' hlit)
        fun hdown => ⟨nofun, .inr ⟨hdown, rfl⟩⟩
  | enableWork hbefore hsame hgauge hafter =>
    rw [hgauge, hafter]
    exact h.worker hbefore (fun _ hquiet => absurd hquiet nofun)
      fun hdown => ⟨nofun, .inr ⟨hdown, rfl⟩⟩
  | disableWork hbefore hsame hgauge hafter =>
    rw [hgauge, hafter]
    exact h.task hbefore ⟨rfl, rfl, rfl⟩ nofun le_rfl nofun id
  | beginShutdown hbefore hgauge hafter =>
    rw [hgauge, hafter]
    exact h.worker hbefore (fun _ hquiet => absurd hquiet nofun) fun _ => ⟨nofun, .inl rfl⟩
  | @wakeOne task hbefore hgauge hafter =>
    rw [hgauge]
    obtain ⟨j, hne, hparked, hafter⟩ | ⟨hnone, hafter⟩ := hafter <;> rw [hafter]
    · -- The worker that is woken makes up for the one that no longer has to wake it.
      have hbefore' : Function.update pool.stage j (.awake false) i = .signalling task := by
        rw [Function.update_of_ne hne, hbefore]
      rw [Function.update_comm hne]
      exact (h.rouse hparked).worker hbefore' (fun hlit _ => .inr ⟨nofun, hlit, rfl, le_rfl⟩)
        fun hdown => ⟨nofun, .inr ⟨hdown, rfl⟩⟩
    · refine .of_awake h.ready.update h.queued fun j => ?_
      by_cases hj : j = i
      · rw [hj, Function.update_self]
        exact nofun
      · rw [Function.update_of_ne hj]
        exact hnone j
  | wakeAll hbefore hquiet hunderway hsame hgauge hafter =>
    refine .of_awake (few_ready pool') h.queued fun j => ?_
    rw [hafter]
    by_cases hj : j = i
    · rw [hj, Function.update_self]
      exact (Stage.calm_of_audience? hunderway hquiet).1
    · rw [Function.update_of_ne hj]
      exact Stage.woken_ne_parked _
  | @conclude task outcome after hbefore houtcome halive hends hgauge hafter =>
    rw [hgauge, hafter]
    have hawake : after ≠ .parked := by
      obtain rfl | ⟨group, rfl⟩ := hends <;> exact nofun
    exact h.task hbefore ⟨rfl, rfl, rfl⟩ hawake le_rfl id id
  | die hbefore houtcome hnobody hfault hgauge hafter =>
    rw [hafter]
    obtain hgauge | hgauge := hgauge.gauge_eq <;> rw [hgauge]
    · exact h.task hbefore ⟨rfl, rfl, rfl⟩ nofun le_rfl id id
    · exact h.task hbefore ⟨rfl, rfl, rfl⟩ nofun (Nat.zero_le _) id id
  | leave hbefore hgauge hafter =>
    rw [hgauge, hafter]
    exact h.task hbefore ⟨rfl, rfl, rfl⟩ nofun le_rfl id id

/-- What clients do keeps the balance. -/
theorem moves {pool pool' : Pool β ρ} {errand : Errand β} {t t' : Thread}
    (h : Watch 0 pool.gauge pool.stage stands)
    (hmoves : Moves errand (stands i) t pool k' t' pool') :
    Watch 0 pool'.gauge pool'.stage (Function.update stands i k') := by
  have hannounced : Watch 0 pool.gauge pool.wakeAll.stage (Function.update stands i k') := by
    refine .of_awake (few_ready pool.wakeAll) h.queued.update fun j => ?_
    rw [stage_wakeAll]
    exact Stage.woken_ne_parked _
  generalize hk : stands i = k at hmoves
  cases hmoves with
  | @accept _ _ _ task htask hopen =>
    obtain ⟨hqueued, hannouncing, hclosing⟩ := Errand.calm_of_task? htask
    have hgauge : (pool.accept task).gauge =
        { pool.gauge with queue := pool.gauge.queue ++ [task] } :=
      congrArg (fun queue => { pool.gauge with queue }) (Fifo.toList_push pool.queue task)
    rw [hgauge]
    refine h.client hk (fun hlit _ => ⟨hlit, hannouncing, ?_⟩) fun hdown => .inr ⟨hdown, hclosing⟩
    have hlit : pool.workEnabled = true := hlit
    rw [hqueued, if_pos hlit, List.length_append]
    rfl
  | wakeOne choice =>
    rw [gauge_wakeOne]
    obtain ⟨j, hparked, hafter⟩ | ⟨hnone, hsame⟩ := pool.stage_wakeOne choice
    · rw [hafter]
      exact (h.rouse hparked).client hk (fun hlit _ => ⟨hlit, rfl, le_rfl⟩)
        fun hdown => .inr ⟨hdown, rfl⟩
    · rw [hsame]
      exact .of_awake h.ready h.queued.update hnone
  | enableWork =>
    exact h.client hk (fun _ hquiet => absurd hquiet nofun) fun hdown => .inr ⟨hdown, rfl⟩
  | wakeAll => exact hannounced
  | disableWork => exact h.idle hk ⟨rfl, rfl, rfl⟩ le_rfl nofun id
  | beginShutdown =>
    exact h.client hk (fun _ hquiet => absurd hquiet nofun) fun _ => .inl rfl
  | announce => exact hannounced
  | release =>
    have habandons : Abandons { pool with released := true } pool.release := abandons_collapse rfl
    rw [show pool.release.stage = pool.stage from stage_collapse _]
    obtain hgauge | hgauge := habandons.gauge_eq <;> rw [hgauge]
    · exact h.idle hk ⟨rfl, rfl, rfl⟩ le_rfl id id
    · exact h.idle hk ⟨rfl, rfl, rfl⟩ (Nat.zero_le _) id id
  | refuse htask => exact h.idle hk (Errand.calm_of_task? htask) le_rfl id id
  | _ => exact h.idle hk ⟨rfl, rfl, rfl⟩ le_rfl id id

end Watch

/-- Whatever the pool is like, the next step of the call can be taken, and it wakes workers. -/
def Wakes (visit : Visit (Errand β) (Worksite β ε ρ) (Answer ρ)) : Prop :=
  ∀ s, ∃ choice visit' s', visit.next? choice s = some (visit', s') ∧
    (s'.pool = s.pool.wakeAll ∨ ∃ choice', s'.pool = s.pool.wakeOne choice')

/-- A call that has ended wakes nobody. -/
theorem not_wakes_of_answer? {visit : Visit (Errand β) (Worksite β ε ρ) (Answer ρ)}
    (s : Worksite β ε ρ) (hended : visit.answer?.isSome = true) : ¬Wakes visit := by
  intro hwakes
  obtain ⟨choice, visit', s', hnext, -⟩ := hwakes s
  obtain ⟨errand, caller, thread, rest⟩ := visit
  cases rest with
  | done result => cases hnext
  | step act next => cases hended

/-- A call that is about to wake somebody does so in its next step. -/
theorem Moves.wakes {errand : Errand β} {k k' : Standing ρ} {t t' : Thread} {pool pool' : Pool β ρ}
    (hmoves : Moves errand k t pool k' t' pool') (hk : k.IsWaking) :
    pool' = pool.wakeAll ∨ ∃ choice, pool' = pool.wakeOne choice := by
  cases hmoves with
  | wakeOne choice => exact .inr ⟨choice, rfl⟩
  | wakeAll => exact .inl rfl
  | announce => exact .inl rfl
  | accept htask => cases k <;> first | exact hk.elim | cases errand <;> cases htask
  | refuse htask => cases k <;> first | exact hk.elim | cases errand <;> cases htask
  | _ => exact hk.elim

/-- A call that stands where it has to wake workers does so next. -/
theorem wakes_of_isWaking {visit : Visit (Errand β) (Worksite β ε ρ) (Answer ρ)} {k : Standing ρ}
    (hkeeps : visit.rest.Keeps (discipline visit.errand) (Ends visit.errand) k)
    (hk : k.IsWaking) : Wakes visit := by
  intro s
  have hanswer : visit.answer? = none := by
    by_contra hended
    obtain ⟨result, hanswer⟩ := Option.ne_none_iff_exists'.1 hended
    have hends := Visit.ends_of_answer? hkeeps hanswer
    generalize visit.errand = errand at hends
    cases hends <;> exact hk
  obtain ⟨visit', s', hstep⟩ := Visit.exists_step hkeeps hk hanswer s
  obtain ⟨choice, hnext⟩ := hstep.exists_next?
  obtain ⟨k', ⟨-, hmoves⟩, -⟩ := hstep.keeps hkeeps trivial
  exact ⟨choice, visit', s', hnext, hmoves.wakes hk⟩

end Pool

namespace Plant

variable {B : Body β ε ρ} {c c' : Plant β ε ρ} {stands stands' : Nat → Pool.Standing ρ}

/-- The workers and the calls are in balance with the queue. -/
structure Watchful (c : Plant β ε ρ) (stands : Nat → Pool.Standing ρ) : Prop where
  watch : Pool.Watch 0 c.site.pool.gauge c.site.pool.stage stands
  absent : ∀ i, c.visits.length ≤ i → stands i = .ready

/-- Whatever happens next, the watch is kept. -/
theorem Watchful.step (h : c.Watchful stands) (hpasses : Passes B c stands c' stands') :
    c'.Watchful stands' := by
  cases hpasses with
  | arrive errand caller =>
    refine ⟨h.watch.idle (h.absent _ le_rfl) ⟨rfl, rfl, rfl⟩ le_rfl id id, fun i hi => ?_⟩
    rw [List.length_append, List.length_singleton] at hi
    rw [Function.update_of_ne (by omega)]
    exact h.absent i (by omega)
  | call hget herrand hcaller hmoves =>
    refine ⟨h.watch.moves hmoves, fun i hi => ?_⟩
    rw [List.length_set] at hi
    have hlt := (List.getElem?_eq_some_iff.1 hget).1
    rw [Function.update_of_ne (Nat.ne_of_gt (hlt.trans_le hi))]
    exact h.absent i hi
  | @work choice i site hstep =>
    obtain ⟨hsite, hvisits, -, -⟩ :=
      record_eq (c.advance (.worker i) site) i (c.site.pool.stage i) (site.pool.stage i)
    refine ⟨?_, fun j hj => h.absent j (hvisits ▸ hj)⟩
    rw [hsite]
    exact h.watch.shift (Worksite.workerStep_shift hstep)
  | rouse i =>
    refine ⟨?_, h.absent⟩
    dsimp only
    rw [Pool.stage_modify]
    by_cases hparked : c.site.pool.stage i = .parked
    · rw [hparked]
      exact (h.watch.rouse hparked).mono (Nat.zero_le _)
    · rw [Stage.woken_of_ne hparked, Function.update_eq_self]
      exact h.watch
  | others env => exact ⟨h.watch, h.absent⟩

theorem Watchful.start {workers : Nat} {name : String} {pool : Pool β ρ}
    (hpool : Pool.create? workers name = .ok pool) (env : ε) :
    Watchful { site := ⟨pool, env⟩ } fun _ => .ready := by
  obtain rfl := Pool.eq_create hpool
  refine ⟨.of_awake (Pool.few_ready _) (few_of_none fun _ => rfl) fun i hparked => ?_,
    fun _ _ => rfl⟩
  obtain hawake | hexited := stage_create (β := β) (ρ := ρ) workers name i
  · cases hawake.symm.trans hparked
  · cases hexited.symm.trans hparked

/-- In every course of events on a new pool, where no call is between a critical section and its
wake-up: if the work flag is set and tasks are queued, then all workers are over or one that is not
over is not parked; and if the pool is shut down, then no worker is parked. -/
theorem run_wakes {workers : Nat} {name : String} {pool : Pool β ρ} {env : ε}
    (hpool : Pool.create? workers name = .ok pool) {c : Plant β ε ρ}
    (hrun : Relation.ReflTransGen (Step B) { site := ⟨pool, env⟩ } c)
    (hclients : ∀ visit ∈ c.visits, ¬Pool.Wakes visit)
    (hworkers : ∀ i, (c.site.pool.stage i).isWaking = false) :
    (c.site.pool.workEnabled = true → c.site.pool.queue.toList ≠ [] →
      (∀ i, (c.site.pool.stage i).isOver = true) ∨
        ∃ i, (c.site.pool.stage i).isOver = false ∧ c.site.pool.stage i ≠ .parked) ∧
      (c.site.pool.shutDown = true → ∀ i, c.site.pool.stage i ≠ .parked) := by
  obtain ⟨stands, hkeeps, hwatchful⟩ :=
    run_induction (P := Watchful) Watchful.step disciplined_nil (Watchful.start hpool env) hrun
  have hstands : ∀ i, (stands i).isQueued = false ∧ (stands i).isAnnouncing = false ∧
      (stands i).isClosing = false := by
    refine fun i => Pool.Standing.calm_of_not_isWaking fun hwaking => ?_
    obtain hlt | hge := Nat.lt_or_ge i c.visits.length
    · have hget := List.getElem?_eq_getElem hlt
      exact hclients _ (List.getElem_mem hlt) (Pool.wakes_of_isWaking (hkeeps i _ hget) hwaking)
    · rw [hwatchful.absent i hge] at hwaking
      exact hwaking
  have hstage := fun i => Stage.calm_of_isWaking_eq_false (hworkers i)
  refine ⟨fun hlit hqueued => ?_, fun hdown i hparked => ?_⟩
  · by_contra hstuck
    rw [not_or, not_forall, not_exists] at hstuck
    obtain ⟨⟨i, hlive⟩, hnone⟩ := hstuck
    have hparked : ∀ j, (c.site.pool.stage j).isOver ≠ true → c.site.pool.stage j = .parked :=
      fun j hj => not_ne_iff.1 fun hne => hnone j ⟨Bool.not_eq_true _ ▸ hj, hne⟩
    have hready : ∀ j, (c.site.pool.stage j).isReady = false := by
      intro j
      by_cases hover : (c.site.pool.stage j).isOver = true
      · exact Stage.isReady_of_isOver hover
      · rw [hparked j hover]
        rfl
    have hcredit := hwatchful.watch.work hlit (fun j => (hstage j).1) (fun j => (hstands j).2.1)
      ⟨i, hparked i hlive⟩
    rw [headcount_eq_zero hready, headcount_eq_zero fun j => (hstands j).1] at hcredit
    exact hqueued (List.length_eq_zero_iff.1 (Nat.le_zero.1 hcredit))
  · obtain ⟨j, hclosing⟩ | ⟨j, hclosing⟩ := hwatchful.watch.shut hdown ⟨i, hparked⟩
    · cases (hstage j).2.symm.trans hclosing
    · cases (hstands j).2.2.symm.trans hclosing

/-- Two workers were parked when tasks came; a task that faulted has ended the one of them, and the
other will find the next task. -/
theorem run_wakes_severed :
    ∃ (pool : Pool (Script Unit) Unit) (c : Plant (Script Unit) Workshop Unit),
      Pool.create? 2 "pool" = .ok pool ∧
      Relation.ReflTransGen (Step Script.body) { site := ⟨pool, {}⟩ } c ∧
      (∀ visit ∈ c.visits, ¬Pool.Wakes visit) ∧
      (∀ i, (c.site.pool.stage i).isWaking = false) ∧
      c.site.pool.workEnabled = true ∧ c.site.pool.queued = 1 ∧ c.site.pool.isOver 0 = true ∧
      ((∀ i, (c.site.pool.stage i).isOver = true) ∨
        ∃ i, (c.site.pool.stage i).isOver = false ∧ c.site.pool.stage i ≠ .parked) := by
  have hpool : Pool.create? 2 "pool" = .ok (Pool.create 2 "pool" : Pool (Script Unit) Unit) := rfl
  obtain ⟨c, hrun, hended, hworkers, hlit, hqueued, hover⟩ :
      ∃ c : Plant (Script Unit) Workshop Unit,
        Relation.ReflTransGen (Step Script.body) { site := ⟨Pool.create 2 "pool", {}⟩ } c ∧
        (∀ visit ∈ c.visits, visit.answer?.isSome = true) ∧
        (∀ worker ∈ c.site.pool.workers, worker.stage.isWaking = false) ∧
        c.site.pool.workEnabled = true ∧ c.site.pool.queued = 1 ∧
        c.site.pool.isOver 0 = true := by
    have hparked := Relation.ReflTransGen.single (Step.ordinary (B := Script.body (ρ := Unit))
      (c := { site := ⟨Pool.create 2 "pool", {}⟩ }) 0 rfl)
    have hasleep := hparked.tail (.ordinary 1 rfl)
    have hcalled := hasleep.tail (.arrive (.execute ⟨[], fun _ => .fault (.text "broken")⟩ 0) {})
    have hqueued := hcalled.tail (.call (i := 0) rfl (.ordinary rfl))
    have hagain := hqueued.tail (.arrive (.execute ⟨[], fun _ => .value ()⟩ 0) {})
    have hnext := hagain.tail (.call (i := 1) rfl (.ordinary rfl))
    have henabling := hnext.tail (.arrive .signalWork {})
    have henabled := henabling.tail (.call (i := 2) rfl (.ordinary rfl))
    have hawake := henabled.tail (.call (i := 2) rfl (.ordinary rfl))
    have hbegun := hawake.tail (.ordinary 0 rfl)
    have hdead := hbegun.tail (.ordinary 0 rfl)
    refine ⟨_, hdead, ?_, ?_, rfl, rfl, rfl⟩
    · exact List.forall_mem_cons.2 ⟨rfl, List.forall_mem_cons.2 ⟨rfl,
        List.forall_mem_singleton.2 rfl⟩⟩
    · exact List.forall_mem_cons.2 ⟨rfl, List.forall_mem_singleton.2 rfl⟩
  have hclients : ∀ visit ∈ c.visits, ¬Pool.Wakes visit := fun visit hmem =>
    Pool.not_wakes_of_answer? c.site (hended visit hmem)
  have hstages : ∀ i, (c.site.pool.stage i).isWaking = false :=
    Pool.stage_of_workers (P := (·.isWaking = false)) hworkers rfl
  have hempty : c.site.pool.queue.toList ≠ [] := by
    intro hnil
    have hsize := c.site.pool.queue.length_toList
    rw [hnil, show c.site.pool.queue.size = 1 from hqueued] at hsize
    cases hsize
  exact ⟨_, c, hpool, hrun, hclients, hstages, hlit, hqueued, hover,
    (run_wakes hpool hrun hclients hstages).1 hlit hempty⟩

end Plant

end MarkSweep
