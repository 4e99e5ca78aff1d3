import MarkSweep.Proofs.Acceptance

namespace MarkSweep

variable {β ε ρ : Type}

namespace Pool

variable {pool pool' : Pool β ρ} {added taken : List (Task β)}

theorem isOver_eq (pool : Pool β ρ) (i : Nat) : pool.isOver i = (pool.stage i).isOver := by
  unfold isOver stage
  cases pool.workers[i]? <;> rfl

/-- A pool that is shut down and has nothing queued goes on so. -/
theorem Traffic.toList_eq_nil (htraffic : Traffic pool pool' added taken)
    (hshut : pool.shutDown = true) (hempty : pool.queue.toList = []) :
    pool'.queue.toList = [] := by
  have hnone : added = [] := by
    by_contra hne
    exact absurd (hshut.symm.trans (htraffic.shutDown_eq_false hne)) nofun
  obtain ⟨dropped, hbalance, -⟩ := htraffic.balance
  rw [hempty, hnone, List.append_nil] at hbalance
  have hall := List.append_eq_nil_iff.1 hbalance.symm
  exact (List.append_eq_nil_iff.1 hall.1).2

/-- Nothing is lost of what is queued if nothing is queued when the pool is dropped. -/
theorem Traffic.flow_of_kept (htraffic : Traffic pool pool' added taken)
    (hkept : pool'.Deserted → pool.queue.toList = []) {accepted begun : List (Task β)}
    (hflow : accepted = begun ++ pool.queue.toList) :
    accepted ++ added = begun ++ taken ++ pool'.queue.toList := by
  cases htraffic with
  | same hqueue => rw [hflow, hqueue, List.append_nil, List.append_nil]
  | push _ hqueue => rw [hflow, hqueue, Fifo.toList_push, List.append_nil, List.append_assoc]
  | pop hpop =>
    rw [hflow, Fifo.toList_of_pop? hpop, List.append_nil, List.append_assoc, List.singleton_append]
  | drop hqueue hdeserted => rw [hflow, hkept hdeserted, hqueue, List.append_nil]

/-- Whether a call knows that a worker is over. -/
def Standing.HasJoined (j : Nat) : Standing ρ → Prop
  | closing (.joining left) => j ∉ left
  | reporting _ | closed true => True
  | _ => False

/-- Nobody but the first to ask gets workers to join, and every worker that has exited has found the
pool shut down and nothing queued. -/
structure Draining (pool : Pool β ρ) : Prop where
  crew : 0 < pool.workers.length
  unjoined : pool.unjoined = [] ∨ pool.unjoined = List.range pool.workers.length
  exited : ∀ i < pool.workers.length, pool.stage i = .exited →
    pool.shutDown = true ∧ pool.queue.toList = []

section Moves

variable {errand : Errand β} {k k' : Standing ρ} {t t' : Thread}

/-- Tending to a pool makes nobody exit. -/
theorem Tended.stage_eq_exited (htended : Tended pool pool') {i : Nat}
    (hexited : pool'.stage i = .exited) : pool.stage i = .exited := by
  obtain hsame | ⟨-, hawake⟩ := htended.stage i
  · exact hsame.symm.trans hexited
  · cases hawake.symm.trans hexited

/-- What others do to a pool does not make it drain any less. -/
theorem Draining.tended (h : pool.Draining) (htended : Tended pool pool')
    (htraffic : Traffic pool pool' added taken) : pool'.Draining := by
  refine ⟨htended.length ▸ h.crew, ?_, ?_⟩
  · rw [htended.length]
    exact htended.unjoined.elim (fun hsame => hsame ▸ h.unjoined) .inl
  · intro i hi hexited
    rw [htended.length] at hi
    obtain ⟨hshut, hempty⟩ := h.exited i hi (htended.stage_eq_exited hexited)
    exact ⟨htended.shutDown hshut, htraffic.toList_eq_nil hshut hempty⟩

/-- A call that joins workers waits for each of them. -/
theorem Moves.hasJoined (hmoves : Moves errand k t pool k' t' pool') (h : pool.Draining) {j : Nat}
    (hj : j < pool.workers.length)
    (hover : k.HasJoined j → (pool.stage j).isOver = true) (hk : k'.HasJoined j) :
    (pool.stage j).isOver = true := by
  cases hmoves with
  | takeWorkers hsome =>
    obtain hnone | hall := h.unjoined
    · exact absurd hnone hsome
    · exact absurd (hall ▸ List.mem_range.2 hj) hk
  | @joinWorker i left _ _ hjoined =>
    by_cases hji : j = i
    · rw [hji, ← isOver_eq]
      exact hjoined
    · exact hover fun hmem => (List.mem_cons.1 hmem).elim hji hk
  | joinedAll => exact hover List.not_mem_nil
  | report => exact hover trivial
  | accept =>
    split at hk
    · exact hk.elim
    · exact hk.elim
  | _ => exact hk.elim

/-- A call that closes a pool reports it only where it has joined the workers. -/
theorem Moves.reported (hmoves : Moves errand k t pool k' t' pool') (herrand : errand = .finalize)
    {caller : Thread} (hreported : k = .closed true ∨ t = caller) :
    k' = .closed true ∨ t' = caller := by
  have hsilent : k ≠ .closed true → t = caller := fun hne => hreported.resolve_left hne
  cases hmoves with
  | report => exact .inl rfl
  | release hother => exact absurd (herrand.symm.trans hother) nofun
  | accept htask =>
    subst herrand
    cases htask
  | refuse htask =>
    subst herrand
    cases htask
  | _ => exact .inr (hsilent nofun)

end Moves

/-- Nor does a worker that finds the work flag set. -/
theorem Draining.deed (h : pool.Draining) {i : Nat} (hdeed : Deed i pool pool')
    (henabled : pool.shutDown = true → pool.workEnabled = true) : pool'.Draining := by
  obtain ⟨added, htraffic⟩ := hdeed.traffic
  refine ⟨hdeed.length ▸ h.crew, ?_, ?_⟩
  · rw [hdeed.length]
    exact hdeed.unjoined.elim (fun hsame => hsame ▸ h.unjoined) .inl
  · intro j hj hexited
    rw [hdeed.length] at hj
    obtain ⟨hshut, hempty⟩ : pool.shutDown = true ∧ pool.queue.toList = [] := by
      -- A worker that exits has looked at the queue, since the work flag was set.
      by_cases hji : j = i
      · subst hji
        obtain ⟨hshut, hempty⟩ := hdeed.exited hexited
        exact ⟨hshut, hempty (henabled hshut)⟩
      · obtain hsame | ⟨-, hawake⟩ := hdeed.others j hji
        · exact h.exited j hj (hsame.symm.trans hexited)
        · cases hawake.symm.trans hexited
    exact ⟨hdeed.shutDown hshut, htraffic.toList_eq_nil hshut hempty⟩

/-- A worker that is over stays over. -/
theorem Deed.isOver {i j : Nat} (hdeed : Deed i pool pool') (hover : (pool.stage j).isOver = true) :
    (pool'.stage j).isOver = true := by
  have hj : j ≠ i := by
    rintro rfl
    exact absurd (hdeed.active.symm.trans hover) nofun
  obtain hsame | ⟨hparked, -⟩ := hdeed.others j hj
  · rwa [hsame]
  · rw [hparked] at hover
    cases hover

/-- A worker's deed takes nobody else to a task or away from it. -/
theorem Deed.isSome_underway? {i : Nat} (hdeed : Deed i pool pool') (j : Nat) (hj : j ≠ i) :
    (pool'.stage j).underway?.isSome = (pool.stage j).underway?.isSome := by
  obtain hsame | ⟨hparked, hawake⟩ := hdeed.others j hj
  · rw [hsame]
  · rw [hparked, hawake]
    rfl

/-- A worker that is over and not dead has exited. -/
theorem eq_exited_of_isOver {i : Nat} (hover : (pool.stage i).isOver = true)
    (halive : pool.stage i ≠ .dead) : pool.stage i = .exited := by
  generalize pool.stage i = stage at hover halive
  cases stage with
  | exited => rfl
  | dead => exact absurd rfl halive
  | _ => cases hover

/-- Workers that do not die leave nothing in the queue that could be dropped. -/
theorem Draining.toList_eq_nil (h : pool.Draining) (halive : ∀ i, pool.stage i ≠ .dead)
    (hover : ∀ i < pool.workers.length, (pool.stage i).isOver = true) :
    pool.queue.toList = [] :=
  (h.exited 0 h.crew (eq_exited_of_isOver (hover 0 h.crew) (halive 0))).2

end Pool

/-- The posts of the workers tell which of the tasks that were begun have not ended. -/
structure Posted (stage : Nat → Stage β) (begun : Nat) (post : Nat → Option Nat)
    (ended : List Nat) : Prop where
  isSome_post : ∀ i, (post i).isSome = (stage i).underway?.isSome
  once : ended.Nodup
  lt_iff : ∀ k, k < begun ↔ k ∈ ended ∨ ∃ i, post i = some k
  apart : ∀ i k, post i = some k → k ∉ ended
  alone : ∀ i j k, post i = some k → post j = some k → i = j

namespace Posted

variable {stage stage' : Nat → Stage β} {begun : Nat} {post : Nat → Option Nat} {ended : List Nat}

/-- The books about workers at tasks do not depend on anything else about the workers. -/
theorem congr (h : Posted stage begun post ended)
    (hstage : ∀ i, (stage' i).underway?.isSome = (stage i).underway?.isSome) :
    Posted stage' begun post ended :=
  { h with isSome_post := fun i => (h.isSome_post i).trans (hstage i).symm }

variable {i : Nat}

/-- They agree again after one worker has come to a task or left it. -/
theorem isSome_update (h : Posted stage begun post ended) {after : Option Nat}
    (hafter : after.isSome = (stage' i).underway?.isSome)
    (hothers : ∀ j, j ≠ i → (stage' j).underway?.isSome = (stage j).underway?.isSome) :
    ∀ j, (Function.update post i after j).isSome = (stage' j).underway?.isSome :=
  (Function.forall_update_iff post fun j (k : Option Nat) =>
    k.isSome = (stage' j).underway?.isSome).2
      ⟨hafter, fun j hj => (h.isSome_post j).trans (hothers j hj).symm⟩

/-- A worker begins a task. -/
theorem begin (h : Posted stage begun post ended) (hbefore : post i = none)
    (hafter : (stage' i).underway?.isSome = true)
    (hothers : ∀ j, j ≠ i → (stage' j).underway?.isSome = (stage j).underway?.isSome) :
    Posted stage' (begun + 1) (Function.update post i (some begun)) ended := by
  have hfresh : ∀ j, post j ≠ some begun := by
    intro j hj
    exact absurd ((h.lt_iff begun).2 (.inr ⟨j, hj⟩)) (Nat.lt_irrefl begun)
  have hcases : ∀ {j k}, Function.update post i (some begun) j = some k →
      j = i ∧ k = begun ∨ post j = some k := by
    intro j k hj
    by_cases hji : j = i
    · rw [hji, Function.update_self] at hj
      exact .inl ⟨hji, (Option.some.inj hj).symm⟩
    · rw [Function.update_of_ne hji] at hj
      exact .inr hj
  refine ⟨h.isSome_update hafter.symm hothers, h.once, ?lt, ?apart, ?alone⟩
  case lt =>
    intro k
    constructor
    · intro hk
      obtain rfl | hk := Nat.lt_succ_iff_lt_or_eq.1 hk |>.symm
      · exact .inr ⟨i, Function.update_self ..⟩
      · refine ((h.lt_iff k).1 hk).imp_right ?_
        rintro ⟨j, hj⟩
        have hne : j ≠ i := by
          rintro rfl
          cases hbefore.symm.trans hj
        exact ⟨j, by rw [Function.update_of_ne hne, hj]⟩
    · rintro (hended | ⟨j, hj⟩)
      · exact Nat.lt_succ_of_lt ((h.lt_iff k).2 (.inl hended))
      · obtain ⟨-, rfl⟩ | hj := hcases hj
        · exact Nat.lt_succ_self k
        · exact Nat.lt_succ_of_lt ((h.lt_iff k).2 (.inr ⟨j, hj⟩))
  case apart =>
    intro j k hj hended
    obtain ⟨-, rfl⟩ | hj := hcases hj
    · exact absurd ((h.lt_iff k).2 (.inl hended)) (Nat.lt_irrefl k)
    · exact h.apart j k hj hended
  case alone =>
    intro j j' k hj hj'
    obtain ⟨hji, heq⟩ | hkept := hcases hj <;> obtain ⟨hji', heq'⟩ | hkept' := hcases hj'
    · rw [hji, hji']
    · exact absurd (heq ▸ hkept') (hfresh j')
    · exact absurd (heq' ▸ hkept) (hfresh j)
    · exact h.alone j j' k hkept hkept'

/-- A worker ends its task. -/
theorem finish (h : Posted stage begun post ended) {k : Nat} (hbefore : post i = some k)
    (hafter : (stage' i).underway?.isSome = false)
    (hothers : ∀ j, j ≠ i → (stage' j).underway?.isSome = (stage j).underway?.isSome) :
    Posted stage' begun (Function.update post i none) (ended ++ [k]) := by
  have hleft : ∀ {j k'}, Function.update post i none j = some k' → j ≠ i ∧ post j = some k' := by
    intro j k' hj
    by_cases hji : j = i
    · rw [hji, Function.update_self] at hj
      cases hj
    · rw [Function.update_of_ne hji] at hj
      exact ⟨hji, hj⟩
  refine ⟨h.isSome_update hafter.symm hothers, ?once, ?lt, ?apart, ?alone⟩
  case once =>
    refine List.nodup_append.2 ⟨h.once, by simp, ?_⟩
    intro a ha b hb
    rw [List.mem_singleton.1 hb]
    rintro rfl
    exact h.apart i a hbefore ha
  case lt =>
    intro k'
    rw [h.lt_iff, List.mem_append, List.mem_singleton]
    constructor
    · rintro (hended | ⟨j, hj⟩)
      · exact .inl (.inl hended)
      · by_cases hji : j = i
        · rw [hji] at hj
          exact .inl (.inr (Option.some.inj (hj.symm.trans hbefore)))
        · exact .inr ⟨j, by rw [Function.update_of_ne hji, hj]⟩
    · rintro ((hended | rfl) | ⟨j, hj⟩)
      · exact .inl hended
      · exact .inr ⟨i, hbefore⟩
      · exact .inr ⟨j, (hleft hj).2⟩
  case apart =>
    intro j k' hj hended
    obtain ⟨hji, hj⟩ := hleft hj
    obtain hended | heq := List.mem_append.1 hended
    · exact h.apart j k' hj hended
    · rw [List.mem_singleton.1 heq] at hj
      exact hji (h.alone j i k hj hbefore)
  case alone =>
    intro j j' k' hj hj'
    exact h.alone j j' k' (hleft hj).2 (hleft hj').2

/-- Once nobody is at a task, each task that was begun has ended once. -/
theorem perm_range (h : Posted stage begun post ended)
    (hidle : ∀ i, (stage i).underway? = none) : ended.Perm (List.range begun) := by
  refine (List.perm_ext_iff_of_nodup h.once List.nodup_range).2 fun k => ?_
  rw [List.mem_range, h.lt_iff]
  refine (or_iff_left ?_).symm
  rintro ⟨i, hi⟩
  have hsome := h.isSome_post i
  rw [hi, hidle i] at hsome
  cases hsome

end Posted

namespace Plant

variable {B : Body β ε ρ} {c c' : Plant β ε ρ} {stands stands' : Nat → Pool.Standing ρ}

/-- No worker has died, and if the pool is shut down then its work flag is set. -/
structure Steady (c : Plant β ε ρ) : Prop where
  enabled : c.site.pool.shutDown = true → c.site.pool.workEnabled = true
  alive : ∀ worker ∈ c.site.pool.workers, worker.stage ≠ .dead

/-- In a steady pool no worker is dead. -/
theorem Steady.stage_ne_dead (hsteady : c.Steady) (i : Nat) : c.site.pool.stage i ≠ .dead :=
  Pool.stage_of_workers (P := (· ≠ .dead)) hsteady.alive nofun i

/-- What a call that has closed the pool and joined the workers can rely on. -/
structure Drained (c : Plant β ε ρ) : Prop where
  empty : c.site.pool.queue.toList = []
  exited : ∀ i, c.site.pool.stage i = .exited
  begun_eq : c.begun = c.accepted.map (·.2)
  /-- Every accepted task has ended, each of them once. -/
  ended_perm : c.ended.Perm (List.range c.accepted.length)

/-- The pool drains, and its calls know of it. -/
structure Closing (c : Plant β ε ρ) (stands : Nat → Pool.Standing ρ) : Prop where
  draining : c.site.pool.Draining
  flow : c.accepted.map (·.2) = c.begun ++ c.site.pool.queue.toList
  posted : Posted c.site.pool.stage c.begun.length c.post c.ended
  joined : ∀ i, ∀ j < c.site.pool.workers.length, (stands i).HasJoined j →
    (c.site.pool.stage j).isOver = true
  reported : ∀ (i : Nat) (visit : Visit (Pool.Errand β) (Worksite β ε ρ) (Pool.Answer ρ)),
    c.visits[i]? = some visit → visit.errand = .finalize →
      stands i = .closed true ∨ visit.thread = visit.caller

/-- The posts after a worker has gone from one stage to another. -/
theorem posted_record {i : Nat} {stage' : Nat → Stage β} {stage : Nat → Stage β}
    (h : Posted stage c.begun.length c.post c.ended)
    (hothers : ∀ j, j ≠ i → (stage' j).underway?.isSome = (stage j).underway?.isSome) :
    Posted stage' (c.record i (stage i) (stage' i)).begun.length
      (c.record i (stage i) (stage' i)).post (c.record i (stage i) (stage' i)).ended := by
  have hpost := h.isSome_post i
  unfold record Stage.begun Stage.hasEnded
  cases hbefore : (stage i).underway? with
  | none =>
    cases hafter : (stage' i).underway? with
    | none =>
      refine h.congr fun j => ?_
      by_cases hj : j = i
      · rw [hj, hbefore, hafter]
      · exact hothers j hj
    | some task =>
      simp only [List.length_append, List.length_singleton]
      rw [hbefore] at hpost
      exact h.begin (Option.not_isSome_iff_eq_none.1 (by simp [hpost])) (by rw [hafter]; rfl)
        hothers
  | some task =>
    cases hafter : (stage' i).underway? with
    | none =>
      rw [hbefore] at hpost
      obtain ⟨k, hk⟩ := Option.isSome_iff_exists.1 hpost
      simp only [hk]
      exact h.finish hk (by rw [hafter]; rfl) hothers
    | some task' =>
      refine h.congr fun j => ?_
      by_cases hj : j = i
      · rw [hj, hbefore, hafter]
        rfl
      · exact hothers j hj

/-- Nothing is queued when nobody keeps the pool any more. -/
theorem Closing.toList_eq_nil (h : c.Closing stands) (hsteady : c.Steady) {pool : Pool β ρ}
    (htended : Pool.Tended c.site.pool pool) (hdeserted : pool.Deserted) :
    c.site.pool.queue.toList = [] := by
  refine h.draining.toList_eq_nil hsteady.stage_ne_dead fun j _ => ?_
  rw [← htended.isOver]
  exact hdeserted.2 j

/-- Workers that a call has joined stay over. -/
theorem Closing.isOver_of_tended (h : c.Closing stands) {pool : Pool β ρ}
    (htended : Pool.Tended c.site.pool pool) (i : Nat) :
    ∀ j < pool.workers.length, (stands i).HasJoined j → (pool.stage j).isOver = true := by
  intro j hj hk
  rw [htended.length] at hj
  rw [htended.isOver]
  exact h.joined i j hj hk

/-- A call that has just been made has joined nobody. -/
theorem Closing.arrive (h : c.Closing stands) (errand : Pool.Errand β) (caller : Thread) :
    Closing { c with visits := c.visits ++ [⟨errand, caller, caller, errand.call⟩] }
      (Function.update stands c.visits.length errand.start) := by
  refine ⟨h.draining, h.flow, h.posted, ?joined, ?reported⟩
  case joined =>
    refine (Function.forall_update_iff stands fun _ k =>
      ∀ j < c.site.pool.workers.length, k.HasJoined j → (c.site.pool.stage j).isOver = true).2
        ⟨?_, fun i _ => h.joined i⟩
    intro j _ hk
    cases errand <;> exact hk.elim
  case reported =>
    intro i visit hget herrand
    obtain ⟨rfl, rfl⟩ | ⟨hi, hget⟩ := getElem?_concat_cases hget
    · exact .inr rfl
    · rw [Function.update_of_ne hi]
      exact h.reported i visit hget herrand

section Call

variable {i : Nat} {visit visit' : Visit (Pool.Errand β) (Worksite β ε ρ) (Pool.Answer ρ)}
  {site : Worksite β ε ρ} {k : Pool.Standing ρ}

/-- A closing call goes on only when the worker that it waits for is over. -/
theorem Closing.call (h : c.Closing stands) (hsteady : c.Steady) (hget : c.visits[i]? = some visit)
    (herrand : visit'.errand = visit.errand) (hcaller : visit'.caller = visit.caller)
    (hmoves : Pool.Moves visit.errand (stands i) visit.thread c.site.pool k visit'.thread
      site.pool) :
    Closing { c.advance (.client i) site with visits := c.visits.set i visit' }
      (Function.update stands i k) := by
  have htended := hmoves.tended
  obtain ⟨added, htraffic, -⟩ := hmoves.traffic
  refine ⟨h.draining.tended htended htraffic, ?flow, ?posted, ?joined, ?reported⟩
  case flow =>
    have hflow := htraffic.flow_of_kept (h.toList_eq_nil hsteady htended) h.flow
    rw [List.append_nil] at hflow
    exact ((map_accepted_advance c _ site).trans (by rw [htraffic.grown_eq])).trans hflow
  case posted =>
    exact h.posted.congr fun j => congrArg Option.isSome (htended.underway?_eq j)
  case joined =>
    refine (Function.forall_update_iff stands fun _ k =>
      ∀ j < site.pool.workers.length, k.HasJoined j → (site.pool.stage j).isOver = true).2
        ⟨?_, fun i' _ => h.isOver_of_tended htended i'⟩
    intro j hj hk
    rw [htended.length] at hj
    rw [htended.isOver]
    exact hmoves.hasJoined h.draining hj (h.joined i j hj) hk
  case reported =>
    intro j other hother hfinalize
    obtain ⟨rfl, rfl⟩ | ⟨hj, hother⟩ := getElem?_set_cases hother
    · rw [herrand] at hfinalize
      rw [Function.update_self, hcaller]
      exact hmoves.reported hfinalize (h.reported i visit hget hfinalize)
    · rw [Function.update_of_ne (Ne.symm hj)]
      exact h.reported j other hother hfinalize

end Call

/-- A worker exits only when nothing is left that was accepted. -/
theorem Closing.work (h : c.Closing stands) {choice : Choice} {i : Nat} {site : Worksite β ε ρ}
    (hstep : Worksite.workerStep B choice i c.site = some site)
    (henabled : c.site.pool.shutDown = true → c.site.pool.workEnabled = true)
    (halive : site.pool.stage i ≠ .dead) :
    Closing ((c.advance (.worker i) site).record i (c.site.pool.stage i) (site.pool.stage i))
      stands := by
  obtain ⟨hsite, hvisits, haccepted, hbegun⟩ :=
    record_eq (c.advance (.worker i) site) i (c.site.pool.stage i) (site.pool.stage i)
  have hdeed := Worksite.workerStep_deed hstep
  obtain ⟨added, htraffic⟩ := hdeed.traffic
  refine ⟨?draining, ?flow, ?posted, ?joined, ?reported⟩
  case draining =>
    rw [hsite]
    exact h.draining.deed hdeed henabled
  case flow =>
    -- Only the last worker to exit can drop the queue, and it has found nothing in it.
    have hempty : site.pool.Deserted → c.site.pool.queue.toList = [] := by
      intro hdeserted
      obtain ⟨hshut, hempty⟩ := hdeed.exited (Pool.eq_exited_of_isOver (hdeserted.2 i) halive)
      exact hempty (henabled hshut)
    rw [haccepted, hsite, hbegun, map_accepted_advance, htraffic.grown_eq]
    exact htraffic.flow_of_kept hempty h.flow
  case posted =>
    rw [hsite]
    exact posted_record (c := c.advance (.worker i) site) h.posted hdeed.isSome_underway?
  case joined =>
    rw [hsite]
    intro i' j hj hk
    change j < site.pool.workers.length at hj
    rw [hdeed.length] at hj
    exact hdeed.isOver (h.joined i' j hj hk)
  case reported =>
    intro j visit hget
    rw [hvisits] at hget
    exact h.reported j visit hget

/-- A worker that wakes up by itself leaves a closing pool closing. -/
theorem Closing.rouse (h : c.Closing stands) (i : Nat) :
    Closing { c with site.pool.workers := c.site.pool.workers.modify i Worker.woken } stands := by
  have htended := Pool.tended_modify c.site.pool i
  exact ⟨h.draining.tended htended (.same rfl), h.flow,
    h.posted.congr fun j => congrArg Option.isSome (htended.underway?_eq j),
    h.isOver_of_tended htended, h.reported⟩

/-- A pool goes on draining as long as it is steady. -/
theorem Closing.step (h : c.Closing stands) (hpasses : Passes B c stands c' stands')
    (hbefore : c.Steady) (hafter : c'.Steady) : c'.Closing stands' := by
  cases hpasses with
  | arrive errand caller => exact h.arrive errand caller
  | call hget herrand hcaller hmoves => exact h.call hbefore hget herrand hcaller hmoves
  | @work choice i site hstep =>
    have halive := hafter.stage_ne_dead i
    rw [(record_eq (c.advance (.worker i) site) i _ _).1] at halive
    exact h.work hstep hbefore.enabled halive
  | rouse i => exact h.rouse i
  | others env => exact ⟨h.draining, h.flow, h.posted, h.joined, h.reported⟩

theorem Closing.start {workers : Nat} {name : String} {pool : Pool β ρ}
    (hpool : Pool.create? workers name = .ok pool) (env : ε) :
    Closing { site := ⟨pool, env⟩ } (fun _ => .ready) ∧ Steady { site := ⟨pool, env⟩ } := by
  obtain rfl := Pool.eq_create hpool
  have hlength : (Pool.create workers name : Pool β ρ).workers.length = max workers 1 :=
    List.length_replicate
  have hstage : ∀ i, ((Pool.create workers name : Pool β ρ).stage i).underway? = none := by
    intro i
    obtain h | h := stage_create (β := β) (ρ := ρ) workers name i <;> rw [h] <;> rfl
  refine ⟨⟨⟨?crew, ?unjoined, ?exited⟩, rfl, ?posted, fun _ _ _ => False.elim, nofun⟩, nofun,
    ?alive⟩
  case crew =>
    rw [hlength]
    omega
  case unjoined => exact .inr (by rw [hlength]; rfl)
  case exited =>
    intro i hi hexited
    rw [Pool.stage_of_getElem? (List.getElem?_eq_getElem hi)] at hexited
    rw [List.eq_of_mem_replicate (List.getElem_mem hi)] at hexited
    cases hexited
  case posted =>
    refine ⟨fun i => (congrArg Option.isSome (hstage i)).symm, List.nodup_nil, ?_, nofun, nofun⟩
    intro k
    simp
  case alive =>
    intro worker hmem
    rw [List.eq_of_mem_replicate hmem]
    exact nofun

/-- A pool drains however the steps come, as long as it stays steady. -/
theorem Closing.run {workers : Nat} {name : String} {pool : Pool β ρ} {env : ε}
    (hpool : Pool.create? workers name = .ok pool)
    (hrun : Relation.ReflTransGen (fun c c' => Step B c c' ∧ c'.Steady) { site := ⟨pool, env⟩ } c) :
    ∃ stands, c.Disciplined stands ∧ c.Closing stands ∧ c.Steady := by
  obtain ⟨hclosing, hsteady⟩ := Closing.start hpool env
  induction hrun with
  | refl => exact ⟨_, disciplined_nil, hclosing, hsteady⟩
  | tail _ hstep ih =>
    obtain ⟨stands, hkeeps, hbefore, hsteady⟩ := ih
    obtain ⟨stands', hpasses, hkeeps'⟩ := hkeeps.step hstep.1
    exact ⟨stands', hkeeps', hbefore.step hpasses hsteady hstep.2, hstep.2⟩

/-- In every steady course of events on a new pool, whoever has closed it and joined its workers
finds everything done that was ever accepted. -/
theorem run_drains {workers : Nat} {name : String} {pool : Pool β ρ} {env : ε}
    (hpool : Pool.create? workers name = .ok pool) {c : Plant β ε ρ}
    (hrun : Relation.ReflTransGen (fun c c' => Step B c c' ∧ c'.Steady) { site := ⟨pool, env⟩ } c)
    {visit : Visit (Pool.Errand β) (Worksite β ε ρ) (Pool.Answer ρ)} (hmem : visit ∈ c.visits)
    (herrand : visit.errand = .finalize) (hreported : visit.thread ≠ visit.caller) :
    c.Drained := by
  obtain ⟨stands, -, hclosing, hsteady⟩ := Closing.run hpool hrun
  obtain ⟨i, hget⟩ := List.mem_iff_getElem?.1 hmem
  have hclosed := (hclosing.reported i visit hget herrand).resolve_right hreported
  have hover : ∀ j < c.site.pool.workers.length, (c.site.pool.stage j).isOver = true :=
    fun j hj => hclosing.joined i j hj (hclosed ▸ trivial)
  have hexited : ∀ j, c.site.pool.stage j = .exited := by
    intro j
    by_cases hj : j < c.site.pool.workers.length
    · exact Pool.eq_exited_of_isOver (hover j hj) (hsteady.stage_ne_dead j)
    · rw [Pool.stage, List.getElem?_eq_none (Nat.not_lt.1 hj)]
  have hempty := hclosing.draining.toList_eq_nil hsteady.stage_ne_dead hover
  have hflow := hclosing.flow
  rw [hempty, List.append_nil] at hflow
  refine ⟨hempty, hexited, hflow.symm, ?_⟩
  have hlength : c.accepted.length = c.begun.length := by
    rw [← hflow, List.length_map]
  rw [hlength]
  exact hclosing.posted.perm_range fun j => by rw [hexited j]; rfl

/-- An owner closes a pool while a task is queued that nobody has begun: the task has ended when the
call returns. -/
theorem run_drains_queued :
    ∃ (pool : Pool (Script Unit) Unit) (c : Plant (Script Unit) Workshop Unit),
      Pool.create? 1 "pool" = .ok pool ∧
      Relation.ReflTransGen (fun c c' => Step Script.body c c' ∧ c'.Steady)
        { site := ⟨pool, {}⟩ } c ∧
      c.accepted.length = 1 ∧ c.Drained := by
  have hpool : Pool.create? 1 "pool" = .ok (Pool.create 1 "pool" : Pool (Script Unit) Unit) := rfl
  have hcalled := Relation.ReflTransGen.single
    (r := fun c c' => Step (Script.body (ρ := Unit)) c c' ∧ c'.Steady)
    ⟨Step.arrive (c := { site := ⟨Pool.create 1 "pool", {}⟩ })
      (.execute ⟨[], fun _ => .value ()⟩ 0) {}, ⟨nofun, List.forall_mem_singleton.2 nofun⟩⟩
  have haccepted := hcalled.tail
    ⟨.call (i := 0) rfl (.ordinary rfl), ⟨nofun, List.forall_mem_singleton.2 nofun⟩⟩
  have hclosing := haccepted.tail
    ⟨.arrive .finalize {}, ⟨nofun, List.forall_mem_singleton.2 nofun⟩⟩
  have hflagged := hclosing.tail
    ⟨.call (i := 1) rfl (.ordinary rfl), ⟨fun _ => rfl, List.forall_mem_singleton.2 nofun⟩⟩
  have hannounced := hflagged.tail
    ⟨.call (i := 1) rfl (.ordinary rfl), ⟨fun _ => rfl, List.forall_mem_singleton.2 nofun⟩⟩
  have htaken := hannounced.tail
    ⟨.call (i := 1) rfl (.ordinary rfl), ⟨fun _ => rfl, List.forall_mem_singleton.2 nofun⟩⟩
  have hbegun := htaken.tail
    ⟨.ordinary 0 rfl, ⟨fun _ => rfl, List.forall_mem_singleton.2 nofun⟩⟩
  have hended := hbegun.tail
    ⟨.ordinary 0 rfl, ⟨fun _ => rfl, List.forall_mem_singleton.2 nofun⟩⟩
  have hexited := hended.tail
    ⟨.ordinary 0 rfl, ⟨fun _ => rfl, List.forall_mem_singleton.2 nofun⟩⟩
  have hjoined := hexited.tail
    ⟨.call (i := 1) rfl (.ordinary rfl), ⟨fun _ => rfl, List.forall_mem_singleton.2 nofun⟩⟩
  have hnamed := hjoined.tail
    ⟨.call (i := 1) rfl (.ordinary rfl), ⟨fun _ => rfl, List.forall_mem_singleton.2 nofun⟩⟩
  have hreported := hnamed.tail
    ⟨.call (i := 1) rfl (.ordinary rfl), ⟨fun _ => rfl, List.forall_mem_singleton.2 nofun⟩⟩
  refine ⟨_, _, hpool, hreported, rfl, ?_⟩
  exact run_drains hpool hreported (List.mem_of_getElem? (i := 1) rfl) rfl nofun

/-- One call clears the work flag between two steps of another one that closes the pool: the worker
exits without looking at the queue, and the task that was accepted is never begun. -/
theorem run_strands :
    ∃ c : Plant (Script Unit) Workshop Unit,
      Relation.ReflTransGen (Step Script.body) { site := ⟨Pool.create 1 "pool", {}⟩ } c ∧
      c.visits.map (·.answer?) =
        [some (.ok (.verdict (.ok ()))), some (.ok .done), some (.ok .done)] ∧
      c.visits.map (·.errand) = [.execute ⟨[], fun _ => .value ()⟩ 0, .finalize, .signalWait] ∧
      c.accepted.length = 1 ∧ c.begun = [] ∧ c.ended = [] ∧ c.site.pool.queued = 1 := by
  have hcalled := Relation.ReflTransGen.single (Step.arrive (B := Script.body (ρ := Unit))
    (c := { site := ⟨Pool.create 1 "pool", {}⟩ }) (.execute ⟨[], fun _ => .value ()⟩ 0) {})
  have haccepted := hcalled.tail (.call (i := 0) rfl (.ordinary rfl))
  have hclosing := haccepted.tail (.arrive .finalize {})
  have hflagged := hclosing.tail (.call (i := 1) rfl (.ordinary rfl))
  have hcleared := hflagged.tail (.arrive .signalWait {})
  have hdisabled := hcleared.tail (.call (i := 2) rfl (.ordinary rfl))
  have hannounced := hdisabled.tail (.call (i := 1) rfl (.ordinary rfl))
  have htaken := hannounced.tail (.call (i := 1) rfl (.ordinary rfl))
  have hexited := htaken.tail (.ordinary 0 rfl)
  have hjoined := hexited.tail (.call (i := 1) rfl (.ordinary rfl))
  have hnamed := hjoined.tail (.call (i := 1) rfl (.ordinary rfl))
  have hreported := hnamed.tail (.call (i := 1) rfl (.ordinary rfl))
  exact ⟨_, hreported, rfl, rfl, rfl, rfl, rfl, rfl⟩

end Plant

end MarkSweep
