import Mathlib.Data.List.NodupEquivFin
import MarkSweep.Proofs.Pool.Estate

namespace MarkSweep

variable {β ε ρ : Type}

/-- What a list holds at most once it holds at one place. -/
theorem eq_of_count_le_one {α : Type} [DecidableEq α] {l : List α} {a : α} {i j : Nat}
    (hcount : l.count a ≤ 1) (hi : l[i]? = some a) (hj : l[j]? = some a) : i = j := by
  obtain ⟨hi, hai⟩ := List.getElem?_eq_some_iff.1 hi
  obtain ⟨hj, haj⟩ := List.getElem?_eq_some_iff.1 hj
  have hone : ∀ {m n : Nat} (hm : m < l.length) (hn : n < l.length), l[m] = a → l[n] = a →
      ¬m < n := by
    intro m n hm hn ham han hlt
    have hduplicate : l.Duplicate a :=
      List.duplicate_iff_exists_distinct_get.2 ⟨⟨m, hm⟩, ⟨n, hn⟩, hlt, ham.symm, han.symm⟩
    exact absurd (List.duplicate_iff_two_le_count.1 hduplicate) (by omega)
  have hle := hone hi hj hai haj
  have hge := hone hj hi haj hai
  omega

/-- What a list holds somewhere, a longer one holds at the same place. -/
theorem getElem?_of_isPrefix {α : Type*} {l m : List α} {i : Nat} {a : α} (hlonger : l <+: m)
    (hget : l[i]? = some a) : m[i]? = some a := by
  obtain ⟨more, rfl⟩ := hlonger
  rw [List.getElem?_append_left (List.getElem?_eq_some_iff.1 hget).1]
  exact hget

namespace Plant

variable {c c' : Plant β ε ρ} {stands : Nat → Pool.Standing ρ} {audience : Audience}

/-- A task that was begun keeps its place among the accepted ones. -/
theorem Orderly.accepted_of_begun (h : c.Orderly stands) {k : Nat} {task : Task β}
    (hbegun : c.begun[k]? = some task) : ∃ origin, c.accepted[k]? = some (origin, task) := by
  obtain ⟨dropped, hflow, -⟩ := h.flow
  have hget : (c.accepted.map (·.2))[k]? = some task := by
    rw [hflow, List.append_assoc,
      List.getElem?_append_left (List.getElem?_eq_some_iff.1 hbegun).1]
    exact hbegun
  rw [List.getElem?_map] at hget
  obtain ⟨⟨origin, _⟩, hentry, rfl⟩ := Option.map_eq_some_iff.1 hget
  exact ⟨origin, hentry⟩

/-- Where no task of an audience is queued or running, every such task that was accepted has ended,
or it was dropped when nobody kept the pool any more. -/
theorem Orderly.settled (h : c.Orderly stands) (hnone : audience ∉ c.site.pool.seats) {k : Nat}
    {entry : Origin × Task β} (hget : c.accepted[k]? = some entry)
    (haudience : entry.2.audience = audience) :
    k ∈ c.ended ∧ c.begun[k]? = some entry.2 ∨ c.begun.length ≤ k ∧ c.site.pool.Deserted := by
  obtain ⟨dropped, hflow, hdropped⟩ := h.flow
  have htask : (c.accepted.map (·.2))[k]? = some entry.2 := by rw [List.getElem?_map, hget]; rfl
  rw [hflow, List.append_assoc] at htask
  simp only [Pool.seats, List.mem_append, not_or] at hnone
  obtain ⟨hqueue, hworkers⟩ := hnone
  by_cases hk : k < c.begun.length
  · rw [List.getElem?_append_left hk] at htask
    refine .inl ⟨((h.posted.lt_iff k).1 hk).resolve_right ?_, htask⟩
    rintro ⟨i, hi⟩
    have hstage := h.audience i k hi
    rw [htask, Option.map_some, haudience] at hstage
    refine hworkers ?_
    unfold Pool.stage at hstage
    split at hstage
    · next worker hworker =>
      refine List.mem_filterMap.2 ⟨worker, List.mem_of_getElem? hworker, ?_⟩
      obtain ⟨task, hunderway, hsame⟩ := Option.map_eq_some_iff.1 hstage
      rw [Stage.seat?_of_underway? hunderway, hsame]
    · cases hstage
  · refine .inr ⟨Nat.not_lt.1 hk, hdropped fun hnil => ?_⟩
    rw [hnil, List.append_nil, List.getElem?_append_right (Nat.not_lt.1 hk)] at htask
    exact hqueue (List.mem_map.2 ⟨entry.2, List.mem_of_getElem? htask, haudience⟩)

/-- A task of a handle that is queued or running was accepted. -/
theorem Orderly.mem_accepted (h : c.Orderly stands) {id : HandleId}
    (hseat : .handle id ∈ c.site.pool.seats) :
    .handle id ∈ c.accepted.map (·.2.audience) := by
  obtain ⟨dropped, hflow, -⟩ := h.flow
  have hmem : ∀ {task : Task β}, task ∈ c.begun ++ c.site.pool.queue.toList →
      task.audience = .handle id → .handle id ∈ c.accepted.map (·.2.audience) := by
    intro task htask haudience
    have haccepted : task ∈ c.accepted.map (·.2) := hflow ▸ List.mem_append_left _ htask
    obtain ⟨entry, hentry, rfl⟩ := List.mem_map.1 haccepted
    exact List.mem_map.2 ⟨entry, hentry, haudience⟩
  obtain hqueued | hworking := List.mem_append.1 hseat
  · obtain ⟨task, htask, haudience⟩ := List.mem_map.1 hqueued
    exact hmem (List.mem_append_right _ htask) haudience
  · obtain ⟨worker, hworker, hstage⟩ := List.mem_filterMap.1 hworking
    obtain ⟨i, hget⟩ := List.mem_iff_getElem?.1 hworker
    have haudience : (c.site.pool.stage i).audience? = some (.handle id) := by
      rw [Pool.stage_of_getElem? hget]
      generalize worker.stage = stage at hstage
      cases stage <;> first | exact hstage | cases hstage
    have hpost := h.posted.isSome_post i
    rw [← Option.isSome_map (f := fun task : Task β => task.audience)] at hpost
    change (c.post i).isSome = (c.site.pool.stage i).audience?.isSome at hpost
    rw [haudience] at hpost
    obtain ⟨k, hk⟩ := Option.isSome_iff_exists.1 hpost
    have hbegun := h.audience i k hk
    rw [haudience] at hbegun
    obtain ⟨task, htask, hsame⟩ := Option.map_eq_some_iff.1 hbegun.symm
    exact hmem (List.mem_append_left _ (List.mem_of_getElem? htask)) hsame

/-- Where nobody keeps a pool any more, nothing is queued or running. -/
theorem Orderly.seats_of_deserted (h : c.Orderly stands) (hdeserted : c.site.pool.Deserted) :
    c.site.pool.seats = [] := by
  have hworkers : c.site.pool.workers.filterMap (·.stage.seat?) = [] := by
    refine List.filterMap_eq_nil_iff.2 fun worker hmem => ?_
    obtain ⟨i, hget⟩ := List.mem_iff_getElem?.1 hmem
    have hover := hdeserted.2 i
    rw [Pool.stage_of_getElem? hget] at hover
    generalize worker.stage = stage at hover
    cases stage <;> first | rfl | cases hover
  rw [Pool.seats, h.deserted hdeserted, hworkers]
  rfl

/-- What becomes of the history of a pool, whoever takes a step. -/
structure Follows (c c' : Plant β ε ρ) : Prop where
  accepted : c.accepted <+: c'.accepted
  begun : c.begun <+: c'.begun
  ended : c.ended <+: c'.ended
  shutDown : c.site.pool.shutDown = true →
    c'.site.pool.shutDown = true ∧ c'.accepted = c.accepted
  deserted : c.site.pool.Deserted → c'.site.pool.Deserted ∧ c'.begun = c.begun

theorem Follows.refl (c : Plant β ε ρ) : c.Follows c :=
  ⟨List.prefix_refl _, List.prefix_refl _, List.prefix_refl _, fun h => ⟨h, rfl⟩,
    fun h => ⟨h, rfl⟩⟩

end Plant

/-- What a worker makes for its task in one step: no handle, or one whose task is queued, or one
whose task is dropped because the pool is shut down. -/
theorem Board.Deal.nextHandle_cases {board board' : Board ρ} {change : Change ρ}
    (hdeal : board.Deal change board') (hceded : change.ceded = [])
    (hclaimed : change.claimed = []) :
    (board'.nextHandle = board.nextHandle ∧ ∀ id, .handle id ∉ change.accepted) ∨
    (board'.nextHandle = board.nextHandle + 1 ∧
      (change.accepted = [.handle board.nextHandle] ∨
        change.accepted = [] ∧ change.spurned ≠ [])) := by
  cases hdeal with
  | still => exact .inl ⟨rfl, fun _ => List.not_mem_nil⟩
  | @accept audience hanonymous =>
    refine .inl ⟨?_, fun id hid => hanonymous id (List.mem_singleton.1 hid).symm⟩
    cases audience <;> rfl
  | claim => cases hclaimed
  | enroll => cases hceded
  | disown => cases hceded
  | submit => exact .inr ⟨rfl, .inl rfl⟩
  | spurn => exact .inr ⟨rfl, .inr ⟨rfl, nofun⟩⟩
  | finish => exact .inl ⟨nextHandle_hear _ _ _, fun _ => List.not_mem_nil⟩
  | leave => exact .inl ⟨rfl, fun _ => List.not_mem_nil⟩
  | drop dropped =>
    exact .inl ⟨(foldl_dismiss_eq dropped board).2.2.1, fun _ => List.not_mem_nil⟩
  | openGroup => exact .inl ⟨rfl, fun _ => List.not_mem_nil⟩
  | dropHandle => exact .inl ⟨rfl, fun _ => List.not_mem_nil⟩
  | dropGroup => exact .inl ⟨rfl, fun _ => List.not_mem_nil⟩

namespace Pool

variable {pool pool' : Pool β ρ}

/-- The handle that a call has made for its task. -/
def Standing.bears? : Standing ρ → Option HandleId
  | opened id | lost id => some id
  | queued id? | accepted id? | refused id? => id?
  | _ => none

/-- A pool that is shut down adds nothing to its queue. -/
theorem Traffic.grown_of_shutDown {added taken : List (Task β)}
    (htraffic : Traffic pool pool' added taken) (hshut : pool.shutDown = true) :
    pool.grown pool' = [] := by
  rw [htraffic.grown_eq]
  by_contra hne
  exact absurd (hshut.symm.trans (htraffic.shutDown_eq_false hne)) nofun

section Moves

variable {errand : Errand β} {k k' : Standing ρ} {t t' : Thread}

/-- A call makes one handle at most, before anything else. -/
theorem Moves.nextHandle_cases (hmoves : Moves errand k t pool k' t' pool') :
    (pool'.board.nextHandle = pool.board.nextHandle ∧
      ∀ id, k'.bears? = some id → k.bears? = some id) ∨
    (pool'.board.nextHandle = pool.board.nextHandle + 1 ∧
      k' = .opened pool.board.nextHandle) := by
  cases hmoves with
  | openHandle => exact .inr ⟨rfl, rfl⟩
  | @accept _ _ _ task htask hopen =>
    refine .inl ⟨?_, fun id hid => ?_⟩
    · obtain ⟨audience, body, owners⟩ := task
      cases audience <;> rfl
    · have hhandle : k.handle? = some id := by split at hid <;> exact hid
      cases k <;> first | exact hhandle | cases hhandle
  | refuse =>
    refine .inl ⟨rfl, fun id hid => ?_⟩
    have hhandle : k.handle? = some id := hid
    cases k <;> first | exact hhandle | cases hhandle
  | wakeOne choice =>
    exact .inl ⟨congrArg Board.nextHandle (stirred_wakeOne pool choice).board, fun _ => id⟩
  | tellLost => exact .inl ⟨rfl, fun _ => id⟩
  | release =>
    obtain ⟨dropped, htrade⟩ := trade_release pool
    obtain ⟨hnext, -⟩ | ⟨-, hnew | ⟨-, hnew⟩⟩ := htrade.deal.nextHandle_cases rfl rfl
    · exact .inl ⟨hnext, nofun⟩
    · cases hnew
    · exact absurd rfl hnew
  | _ => exact .inl ⟨rfl, nofun⟩

/-- The task that a call queues for a handle is the one that the handle was made for. -/
theorem Moves.eq_opened (hmoves : Moves errand k t pool k' t' pool') {task : Task β}
    (hmem : task ∈ pool.grown pool') {id : HandleId} (haudience : task.audience = .handle id) :
    k = .opened id := by
  have hkept : pool'.queue = pool.queue → k = .opened id := by
    intro hqueue
    rw [grown_of_queue_eq hqueue] at hmem
    cases hmem
  cases hmoves with
  | @accept _ _ _ other htask hopen =>
    rw [grown_accept, List.mem_singleton] at hmem
    subst hmem
    obtain ⟨id', rfl, hsame⟩ | ⟨-, -, hanonymous⟩ := Errand.task?_audience htask
    · cases hsame.symm.trans haudience
      rfl
    · exact absurd haudience (hanonymous id)
  | release =>
    have hnone : pool.grown pool.release = [] := by
      unfold Pool.release
      exact grown_collapse (grown_of_queue_eq rfl)
    rw [hnone] at hmem
    cases hmem
  | wakeOne choice => exact hkept (stirred_wakeOne pool choice).queue
  | _ => exact hkept rfl

/-- A call that has made a handle queues its task next, unless the pool is shut down. -/
theorem Moves.queues_of_opened {id : HandleId}
    (hmoves : Moves errand (.opened id) t pool k' t' pool') :
    pool.shutDown = true ∨ .handle id ∈ (pool.grown pool').map (·.audience) := by
  generalize hk : (.opened id : Standing ρ) = k at hmoves
  cases hmoves with
  | @accept _ _ _ task htask hopen =>
    subst hk
    obtain ⟨_, hid, haudience⟩ | ⟨-, hnone, -⟩ := Errand.task?_audience htask
    · cases hid
      rw [grown_accept, List.map_singleton, haudience]
      exact .inr (List.mem_singleton_self _)
    · cases hnone
  | refuse _ hshut => exact .inl hshut
  | _ => cases hk

end Moves

end Pool

namespace Estate

variable {B : Body β ε ρ} {e e' : Estate β ε ρ} {crew crew' : List (Attended β ε ρ)} {p : Nat}
  {x x' : Attended β ε ρ}

theorem Upheld.getElem?_plants (h : Upheld e crew) (hget : crew[p]? = some x) :
    e.plants[p]? = some x.plant := by
  rw [h.plants, List.getElem?_map, hget]
  rfl

theorem Upheld.exists_attended (h : Upheld e crew) {c : Plant β ε ρ}
    (hplant : e.plants[p]? = some c) : ∃ x, crew[p]? = some x ∧ x.plant = c := by
  rw [h.plants, List.getElem?_map] at hplant
  exact Option.map_eq_some_iff.1 hplant

section Follows

variable {i : Nat}

theorem follows_call {errand : Pool.Errand β} {k k' : Pool.Standing ρ} {t t' : Thread}
    {site : Worksite β ε ρ}
    (hmoves : Pool.Moves errand k t (e.view x.plant).site.pool k' t' site.pool) (origin : Origin)
    (visits : List (Visit (Pool.Errand β) (Worksite β ε ρ) (Pool.Answer ρ))) :
    x.plant.Follows { (e.view x.plant).advance origin site with visits } := by
  have htended := hmoves.tended
  obtain ⟨added, htraffic, -⟩ := hmoves.traffic
  have hstays : (e.view x.plant).site.pool.Deserted → site.pool.Deserted :=
    fun hdeserted => hdeserted.tended htended
  refine ⟨List.prefix_append _ _, List.prefix_refl _, List.prefix_refl _, fun hshut => ?_,
    fun hdeserted => ⟨hstays hdeserted, rfl⟩⟩
  refine ⟨htended.shutDown hshut, ?_⟩
  simp only [Plant.advance, htraffic.grown_of_shutDown hshut, List.map_nil, List.append_nil]
  rfl

theorem follows_work {choice : Choice} {site : Worksite β ε ρ}
    (hstep : Worksite.workerStep B choice i (e.view x.plant).site = some site) :
    x.plant.Follows (((e.view x.plant).advance (.worker i) site).record i
      (x.plant.site.pool.stage i) (site.pool.stage i)) := by
  have hdeed := Worksite.workerStep_deed hstep
  obtain ⟨added, htraffic⟩ := hdeed.traffic
  obtain ⟨hsite, -, haccepted, hbegun⟩ :=
    Plant.record_eq ((e.view x.plant).advance (.worker i) site) i (x.plant.site.pool.stage i)
      (site.pool.stage i)
  have hended := Plant.ended_record_eq ((e.view x.plant).advance (.worker i) site) i
    (x.plant.site.pool.stage i) (site.pool.stage i)
  refine ⟨?_, ?_, ?_, fun hshut => ⟨?_, ?_⟩, fun hdeserted => ?_⟩
  · rw [haccepted]
    exact List.prefix_append _ _
  · rw [hbegun]
    exact List.prefix_append _ _
  · rw [hended]
    exact List.prefix_append _ _
  · rw [hsite]
    exact hdeed.shutDown hshut
  · rw [haccepted]
    simp only [Plant.advance, htraffic.grown_of_shutDown hshut, List.map_nil, List.append_nil]
    rfl
  · -- A worker that takes a step is not over.
    cases hdeed.active.symm.trans (hdeserted.2 i)

theorem follows_arrive (c : Plant β ε ρ)
    (visits : List (Visit (Pool.Errand β) (Worksite β ε ρ) (Pool.Answer ρ))) :
    c.Follows { c with visits } :=
  ⟨List.prefix_refl _, List.prefix_refl _, List.prefix_refl _, fun hshut => ⟨hshut, rfl⟩,
    fun hdeserted => ⟨hdeserted, rfl⟩⟩

theorem follows_rouse (c : Plant β ε ρ) (i : Nat) :
    c.Follows { c with site.pool.workers := c.site.pool.workers.modify i Worker.woken } := by
  have htended := Pool.tended_modify c.site.pool i
  exact ⟨List.prefix_refl _, List.prefix_refl _, List.prefix_refl _, fun hshut => ⟨hshut, rfl⟩,
    fun hdeserted => ⟨hdeserted.tended htended, rfl⟩⟩

/-- Every plant goes on or stays as it is. -/
theorem Passes.follows (hpasses : Passes B e crew e' crew') (hget : crew[p]? = some x) :
    ∃ x', crew'[p]? = some x' ∧ x.plant.Follows x'.plant := by
  have hset : ∀ {q : Nat} {y y' : Attended β ε ρ}, crew[q]? = some y → y.plant.Follows y'.plant →
      ∃ x', (crew.set q y')[p]? = some x' ∧ x.plant.Follows x'.plant := by
    intro q y y' hy hfollows
    by_cases hq : q = p
    · subst hq
      rw [hget] at hy
      cases hy
      exact ⟨y', List.getElem?_set_self (List.getElem?_eq_some_iff.1 hget).1, hfollows⟩
    · exact ⟨x, (List.getElem?_set_ne hq).trans hget, .refl _⟩
  cases hpasses with
  | found =>
    have hlt := (List.getElem?_eq_some_iff.1 hget).1
    exact ⟨x, (List.getElem?_append_left hlt).trans hget, .refl _⟩
  | arrive hy => exact hset hy (follows_arrive _ _)
  | call hy _ _ _ hmoves => exact hset hy (follows_call hmoves _ _)
  | work hy hstep => exact hset hy (follows_work hstep)
  | rouse hy i => exact hset hy (follows_rouse _ i)
  | others => exact ⟨x, hget, .refl _⟩

end Follows

/-- What the estate has noted it keeps. -/
theorem Passes.noted (hpasses : Passes B e crew e' crew') :
    e.homes <+: e'.homes ∧ e.ends <+: e'.ends := by
  cases hpasses with
  | call => exact ⟨List.prefix_append _ _, List.prefix_refl _⟩
  | work => exact ⟨List.prefix_append _ _, List.prefix_append _ _⟩
  | _ => exact ⟨List.prefix_refl _, List.prefix_refl _⟩

/-- The estate knows where each handle was made; its task was accepted there or dropped because the
pool is shut down, unless the call that has made it has still to queue it. -/
structure Homed (e : Estate β ε ρ) (crew : List (Attended β ε ρ)) : Prop where
  length : e.homes.length = e.board.nextHandle
  stands : ∀ {p : Nat} {x : Attended β ε ρ} {i : Nat} {id : HandleId},
    crew[p]? = some x → (x.stands i).bears? = some id → e.homes[id]? = some (p, .client i)
  accepted : ∀ {p : Nat} {x : Attended β ε ρ} {entry : Origin × Task β} {id : HandleId},
    crew[p]? = some x → entry ∈ x.plant.accepted → entry.2.audience = .handle id →
      e.homes[id]? = some (p, entry.1)
  made : ∀ {id : HandleId} {p : Nat} {origin : Origin}, e.homes[id]? = some (p, origin) →
    ∃ x : Attended β ε ρ, crew[p]? = some x ∧
    (x.plant.site.pool.shutDown = true ∨ .handle id ∈ x.plant.accepted.map (·.2.audience) ∨
      ∃ i, x.stands i = .opened id)

theorem Homed.start (env : ε) : Homed ({ env } : Estate β ε ρ) [] :=
  ⟨rfl, nofun, nofun, nofun⟩

/-- A step at one of the plants, which may make a handle there. -/
theorem Homed.set (h : Homed e crew) (hget : crew[p]? = some x)
    (hfollows : x.plant.Follows x'.plant) (origin : Origin) {made : Nat} (hmade : made ≤ 1)
    (hhomes : e'.homes = e.homes ++ List.replicate made (p, origin))
    (hnext : e'.board.nextHandle = e.board.nextHandle + made)
    (hstands : ∀ i id, (x'.stands i).bears? = some id → (x.stands i).bears? = some id ∨
      origin = .client i ∧ made = 1 ∧ id = e.board.nextHandle)
    (haccepted : ∀ entry ∈ x'.plant.accepted, ∀ id, entry.2.audience = .handle id →
      entry ∈ x.plant.accepted ∨ entry.1 = origin ∧ (e.homes[id]? = some (p, origin) ∨
        made = 1 ∧ id = e.board.nextHandle))
    (hopened : ∀ id, (∃ i, x.stands i = .opened id) ∨ made = 1 ∧ id = e.board.nextHandle →
      x'.plant.site.pool.shutDown = true ∨ .handle id ∈ x'.plant.accepted.map (·.2.audience) ∨
        ∃ i, x'.stands i = .opened id) : Homed e' (crew.set p x') := by
  have hlt := (List.getElem?_eq_some_iff.1 hget).1
  have hkept : ∀ {id : HandleId} {home : Nat × Origin}, e.homes[id]? = some home →
      e'.homes[id]? = some home := by
    intro id home hhome
    rw [hhomes, List.getElem?_append_left (List.getElem?_eq_some_iff.1 hhome).1]
    exact hhome
  have hnew : made = 1 → e'.homes[e.board.nextHandle]? = some (p, origin) := by
    rintro rfl
    rw [hhomes, ← h.length]
    exact List.getElem?_concat_length
  refine ⟨?length, ?stands, ?accepted, ?made⟩
  case length => rw [hhomes, List.length_append, List.length_replicate, h.length, hnext]
  case stands =>
    intro q y i id hy hid
    obtain ⟨rfl, rfl⟩ | ⟨-, hy⟩ := getElem?_set_cases hy
    · obtain hid | ⟨rfl, hone, rfl⟩ := hstands i id hid
      · exact hkept (h.stands hget hid)
      · exact hnew hone
    · exact hkept (h.stands hy hid)
  case accepted =>
    intro q y entry id hy hmem haudience
    obtain ⟨rfl, rfl⟩ | ⟨-, hy⟩ := getElem?_set_cases hy
    · obtain hmem | ⟨hfrom, hhome | ⟨hone, rfl⟩⟩ := haccepted entry hmem id haudience
      · exact hkept (h.accepted hget hmem haudience)
      · exact hfrom ▸ hkept hhome
      · exact hfrom ▸ hnew hone
    · exact hkept (h.accepted hy hmem haudience)
  case made =>
    intro id q home hhome
    rw [hhomes] at hhome
    by_cases hid : id < e.homes.length
    · rw [List.getElem?_append_left hid] at hhome
      obtain ⟨y, hy, hknown⟩ := h.made hhome
      by_cases hq : p = q
      · subst hq
        rw [hget] at hy
        cases hy
        refine ⟨x', List.getElem?_set_self hlt, ?_⟩
        obtain hshut | hmem | hopen := hknown
        · exact .inl (hfollows.shutDown hshut).1
        · exact .inr (.inl ((hfollows.accepted.map _).subset hmem))
        · exact hopened id (.inl hopen)
      · exact ⟨y, (List.getElem?_set_ne hq).trans hy, hknown⟩
    · rw [List.getElem?_append_right (Nat.not_lt.1 hid), List.getElem?_replicate] at hhome
      split at hhome
      · next hbound =>
        cases hhome
        have hge := Nat.not_lt.1 hid
        have hid : id = e.homes.length := by
          generalize e.homes.length = n at hbound hge
          exact Nat.le_antisymm (Nat.sub_eq_zero_iff_le.1 (by omega)) hge
        exact ⟨x', List.getElem?_set_self hlt, hopened id (.inr ⟨by omega, hid.trans h.length⟩)⟩
      · cases hhome

/-- A step that makes no handle and queues no task. -/
theorem Homed.still (h : Homed e crew) (hget : crew[p]? = some x)
    (hfollows : x.plant.Follows x'.plant) (hhomes : e'.homes = e.homes)
    (hboard : e'.board = e.board)
    (hstands : ∀ i id, (x'.stands i).bears? = some id → (x.stands i).bears? = some id)
    (hopened : ∀ i id, x.stands i = .opened id → x'.stands i = .opened id)
    (haccepted : x'.plant.accepted = x.plant.accepted) : Homed e' (crew.set p x') := by
  refine h.set hget hfollows (.client 0) (Nat.zero_le 1)
    (hhomes.trans (List.append_nil _).symm) (congrArg _ hboard)
    (fun i id hid => .inl (hstands i id hid))
    (fun entry hmem _ _ => .inl (haccepted ▸ hmem)) ?_
  rintro id (⟨i, hi⟩ | ⟨hone, -⟩)
  · exact .inr (.inr ⟨i, hopened i id hi⟩)
  · cases hone

/-- The estate notes which handles were made, at which pool and at whose hands. -/
theorem homes_update {origin : Origin} {c : Plant β ε ρ} {made : Nat}
    (hnext : c.site.pool.board.nextHandle = e.board.nextHandle + made) :
    (e.update p origin c).homes = e.homes ++ List.replicate made (p, origin) := by
  rw [update, hnext, Nat.add_sub_cancel_left]

/-- A call that begins an errand bears no handle. -/
theorem Resumes.bears {errand : Pool.Errand β} {k k₀ : Pool.Standing ρ} {id : HandleId}
    (hresumes : Resumes errand k k₀) (hid : k₀.bears? = some id) : k.bears? = some id := by
  cases hresumes with
  | goesOn => exact hid
  | begins => cases errand <;> cases hid

/-- A call that is to queue the task of a handle does not begin another errand. -/
theorem Resumes.eq_opened {errand : Pool.Errand β} {k₀ : Pool.Standing ρ} {id : HandleId}
    (hresumes : Resumes errand (.opened id) k₀) : k₀ = .opened id := by
  cases hresumes with
  | goesOn => rfl
  | begins hnone => cases hnone

/-- A call that makes a handle queues its task at the same pool. -/
theorem Homed.call (h : Homed e crew) (hget : crew[p]? = some x) {i : Nat}
    {errand : Pool.Errand β} {k₀ k : Pool.Standing ρ} {t t' : Thread} {site : Worksite β ε ρ}
    (hresumes : Resumes errand (x.stands i) k₀)
    (hmoves : Pool.Moves errand k₀ t (e.view x.plant).site.pool k t' site.pool)
    (visits : List (Visit (Pool.Errand β) (Worksite β ε ρ) (Pool.Answer ρ))) :
    Homed
      (e.update p (.client i) { (e.view x.plant).advance (.client i) site with visits })
      (crew.set p ⟨{ (e.view x.plant).advance (.client i) site with visits },
        Function.update x.stands i k⟩) := by
  have haccepted : ∀ entry ∈ ((e.view x.plant).advance (.client i) site).accepted, ∀ id,
      entry.2.audience = .handle id →
        entry ∈ x.plant.accepted ∨ entry.1 = .client i ∧ e.homes[id]? = some (p, .client i) := by
    intro entry hmem id haudience
    obtain hmem | hmem := List.mem_append.1 hmem
    · exact .inl hmem
    · obtain ⟨task, htask, rfl⟩ := List.mem_map.1 hmem
      have hopen := hmoves.eq_opened htask haudience
      exact .inr ⟨rfl, h.stands hget (hresumes.bears (by rw [hopen]; rfl))⟩
  have hopened : ∀ id, (∃ j, x.stands j = .opened id) → site.pool.shutDown = true ∨
      .handle id ∈ ((e.view x.plant).advance (.client i) site).accepted.map (·.2.audience) ∨
        ∃ j, Function.update x.stands i k j = .opened id := by
    rintro id ⟨j, hj⟩
    by_cases hji : j = i
    · subst hji
      rw [hj] at hresumes
      obtain rfl := hresumes.eq_opened
      obtain hshut | hqueued := hmoves.queues_of_opened
      · exact .inl (hmoves.tended.shutDown hshut)
      · obtain ⟨task, htask, haudience⟩ := List.mem_map.1 hqueued
        refine .inr (.inl (List.mem_map.2 ⟨(.client j, task), List.mem_append_right _ ?_,
          haudience⟩))
        exact List.mem_map.2 ⟨task, htask, rfl⟩
    · exact .inr (.inr ⟨j, (Function.update_of_ne hji _ _).trans hj⟩)
  have hothers : ∀ j id, (Function.update x.stands i k j).bears? = some id →
      (x.stands j).bears? = some id ∨ j = i ∧ k.bears? = some id := by
    intro j id hid
    by_cases hj : j = i
    · subst hj
      rw [Function.update_self] at hid
      exact .inr ⟨rfl, hid⟩
    · rw [Function.update_of_ne hj] at hid
      exact .inl hid
  have hfollows := follows_call (x := x) hmoves (.client i) visits
  obtain ⟨hsame, hkept⟩ | ⟨hnext, rfl⟩ := hmoves.nextHandle_cases
  · refine h.set hget hfollows (.client i) (Nat.zero_le 1) ?_ hsame ?_ ?_ ?_
    · exact homes_update hsame
    · intro j id hid
      obtain hold | ⟨rfl, hnew⟩ := hothers j id hid
      · exact .inl hold
      · exact .inl (hresumes.bears (hkept id hnew))
    · intro entry hmem id haudience
      exact (haccepted entry hmem id haudience).imp_right (And.imp_right .inl)
    · rintro id (hopen | ⟨hone, -⟩)
      · exact hopened id hopen
      · cases hone
  · refine h.set hget hfollows (.client i) (Nat.le_refl 1) ?_ hnext ?_ ?_ ?_
    · exact homes_update hnext
    · intro j id hid
      obtain hold | ⟨rfl, hnew⟩ := hothers j id hid
      · exact .inl hold
      · cases hnew
        exact .inr ⟨rfl, rfl, rfl⟩
    · intro entry hmem id haudience
      exact (haccepted entry hmem id haudience).imp_right (And.imp_right .inl)
    · rintro id (hopen | ⟨-, rfl⟩)
      · exact hopened id hopen
      · exact .inr (.inr ⟨i, Function.update_self _ _ _⟩)

theorem Homed.work (h : Homed e crew) (hget : crew[p]? = some x) {i : Nat} {choice : Choice}
    {site : Worksite β ε ρ}
    (hstep : Worksite.workerStep B choice i (e.view x.plant).site = some site)
    (hhas : ∀ queued ∈ x.plant.site.pool.grown site.pool, e.board.Has queued.audience)
    (ends : List (Ending β ρ)) :
    Homed
      { e.update p (.worker i)
          (((e.view x.plant).advance (.worker i) site).record i (x.plant.site.pool.stage i)
            (site.pool.stage i)) with
        ends }
      (crew.set p
        ⟨((e.view x.plant).advance (.worker i) site).record i (x.plant.site.pool.stage i)
            (site.pool.stage i),
          x.stands⟩) := by
  obtain ⟨change, htrade, htoils, -⟩ := Worksite.workerStep_trade hstep hhas
  have hhandles := htrade.deal.nextHandle_cases htoils.ceded htoils.claimed
  have hdeed := Worksite.workerStep_deed hstep
  have hfollows := follows_work (x := x) hstep
  obtain ⟨hsite, -, haccepted, -⟩ :=
    Plant.record_eq ((e.view x.plant).advance (.worker i) site) i (x.plant.site.pool.stage i)
      (site.pool.stage i)
  generalize ((e.view x.plant).advance (.worker i) site).record i (x.plant.site.pool.stage i)
    (site.pool.stage i) = c' at hsite haccepted hfollows ⊢
  subst hsite
  have hentries : ∀ entry ∈ c'.accepted, entry ∈ x.plant.accepted ∨
      entry.1 = .worker i ∧ entry.2.audience ∈ change.accepted := by
    intro entry hmem
    rw [haccepted] at hmem
    obtain hmem | hmem := List.mem_append.1 hmem
    · exact .inl hmem
    · obtain ⟨task, htask, rfl⟩ := List.mem_map.1 hmem
      exact .inr ⟨rfl, htrade.accepted ▸ List.mem_map_of_mem htask⟩
  obtain ⟨hsame, hnone⟩ | ⟨hnext, hnew⟩ := hhandles
  · refine h.set hget hfollows (.worker i) (Nat.zero_le 1) ?_ hsame
      (fun _ _ => .inl) ?_ ?_
    · exact homes_update hsame
    · intro entry hmem id haudience
      refine .inl ((hentries entry hmem).resolve_right ?_)
      rintro ⟨-, hnew⟩
      exact hnone id (haudience ▸ hnew)
    · rintro id (hopen | ⟨hone, -⟩)
      · exact .inr (.inr hopen)
      · cases hone
  · refine h.set hget hfollows (.worker i) (Nat.le_refl 1) ?_ hnext
      (fun _ _ => .inl) ?_ ?_
    · exact homes_update hnext
    · intro entry hmem id haudience
      refine (hentries entry hmem).imp_right (And.imp_right fun hmem => .inr ⟨rfl, ?_⟩)
      rw [haudience] at hmem
      obtain hnew | ⟨hnew, -⟩ := hnew
      · rw [hnew, List.mem_singleton] at hmem
        cases hmem
        rfl
      · rw [hnew] at hmem
        cases hmem
    · rintro id (hopen | ⟨-, rfl⟩)
      · exact .inr (.inr hopen)
      · obtain hnew | ⟨-, hnew⟩ := hnew
        · refine .inr (.inl ?_)
          have hqueued : .handle e.board.nextHandle ∈
              ((e.view x.plant).site.pool.grown c'.site.pool).map (·.audience) := by
            rw [← htrade.accepted, hnew]
            exact List.mem_singleton_self _
          obtain ⟨task, htask, haudience⟩ := List.mem_map.1 hqueued
          refine List.mem_map.2 ⟨(.worker i, task), ?_, haudience⟩
          rw [haccepted]
          exact List.mem_append_right _ (List.mem_map.2 ⟨task, htask, rfl⟩)
        · exact .inl (hdeed.shutDown (htoils.spurned.resolve_left hnew))

/-- Whatever happens next, every handle has its task where it was made. -/
theorem Homed.step (h : Homed e crew) (hupheld : Upheld e crew)
    (hpasses : Passes B e crew e' crew') : Homed e' crew' := by
  cases hpasses with
  | @found workers name pool hpool =>
    have hold : ∀ (q : Nat) (y : Attended β ε ρ),
        (crew ++ [⟨{ site := ⟨pool, e.env⟩ }, fun _ => .ready⟩])[q]? = some y →
          crew[q]? = some y ∨ y = ⟨{ site := ⟨pool, e.env⟩ }, fun _ => .ready⟩ := by
      intro q y hy
      obtain ⟨-, hnew⟩ | ⟨-, hy⟩ := getElem?_concat_cases hy
      · exact .inr hnew.symm
      · exact .inl hy
    refine ⟨h.length, fun hy hid => ?_, fun hy hmem haudience => ?_, fun hhome => ?_⟩
    · obtain hy | rfl := hold _ _ hy
      · exact h.stands hy hid
      · cases hid
    · obtain hy | rfl := hold _ _ hy
      · exact h.accepted hy hmem haudience
      · cases hmem
    · obtain ⟨y, hy, hmade⟩ := h.made hhome
      exact ⟨y, (List.getElem?_append_left (List.getElem?_eq_some_iff.1 hy).1).trans hy, hmade⟩
  | @arrive q y hy visit =>
    have hstart : ∀ id, (visit.errand.start : Pool.Standing ρ).bears? ≠ some id := by
      intro id hid
      cases hkind : visit.errand <;> rw [hkind] at hid <;> cases hid
    have hidle := (hupheld.orderly y (List.mem_of_getElem? hy)).strangers y.plant.visits.length
      (Nat.le_refl _)
    refine h.still hy (follows_arrive _ _) rfl rfl ?_ ?_ rfl
    · intro i id hid
      by_cases hi : i = y.plant.visits.length
      · dsimp only at hid
        rw [hi, Function.update_self] at hid
        exact absurd hid (hstart id)
      · dsimp only at hid
        rwa [Function.update_of_ne hi] at hid
    · intro i id hid
      by_cases hi : i = y.plant.visits.length
      · subst hi
        rw [hid] at hidle
        cases hidle
      · exact (Function.update_of_ne hi _ _).trans hid
  | call hy _ _ hresumes hmoves => exact h.call hy hresumes hmoves _
  | work hy hstep hhas => exact h.work hy hstep hhas _
  | rouse hy i =>
    exact h.still hy (follows_rouse _ i) rfl rfl (fun _ _ => id) (fun _ _ => id) rfl
  | others => exact ⟨h.length, h.stands, h.accepted, h.made⟩

/-- The task of a handle has run to its end. -/
def Ran (e : Estate β ε ρ) (id : HandleId) (outcome : Outcome ρ) : Prop :=
  ∃ ending ∈ e.ends, ending.task.audience = .handle id ∧ ending.outcome = outcome

/-- The task of a handle was dropped, and it has not run and never will. -/
inductive Unrun (e : Estate β ε ρ) (id : HandleId) : Prop
  /-- The pool at which the handle was made was shut down and has not accepted it. -/
  | refused {p : Nat} {origin : Origin} {c : Plant β ε ρ}
      (hhome : e.homes[id]? = some (p, origin)) (hplant : e.plants[p]? = some c)
      (hshut : c.site.pool.shutDown = true)
      (hnone : .handle id ∉ c.accepted.map (·.2.audience)) : Unrun e id
  /-- It was accepted and not begun when the pool lost its last owner and its last worker, and with
  them its queue. -/
  | dropped {p k : Nat} {c : Plant β ε ρ} {entry : Origin × Task β}
      (hplant : e.plants[p]? = some c) (hget : c.accepted[k]? = some entry)
      (haudience : entry.2.audience = .handle id) (hunbegun : c.begun.length ≤ k)
      (hdeserted : c.site.pool.Deserted) (hempty : c.site.pool.queue.toList = []) : Unrun e id

/-- What has become of the task of a handle. -/
def Fate (e : Estate β ε ρ) (id : HandleId) : Option (Outcome ρ) → Prop
  | some outcome => e.Ran id outcome
  | none => e.Unrun id

variable {id : HandleId} {outcome? outcome?' : Option (Outcome ρ)}

/-- What has become of a task does not change any more. -/
theorem Fate.step (hfate : e.Fate id outcome?) (h : Upheld e crew)
    (hpasses : Passes B e crew e' crew') : e'.Fate id outcome? := by
  obtain ⟨hhomes, hends⟩ := hpasses.noted
  have h' := h.step hpasses
  cases outcome? with
  | some outcome =>
    obtain ⟨ending, hmem, htask⟩ := hfate
    exact ⟨ending, hends.subset hmem, htask⟩
  | none =>
    cases hfate with
    | @refused p origin c hhome hplant hshut hnone =>
      obtain ⟨x, hget, rfl⟩ := h.exists_attended hplant
      obtain ⟨x', hget', hfollows⟩ := hpasses.follows hget
      obtain ⟨hshut', haccepted⟩ := hfollows.shutDown hshut
      exact .refused (getElem?_of_isPrefix hhomes hhome) (h'.getElem?_plants hget') hshut'
        (haccepted ▸ hnone)
    | @dropped p k c entry hplant hentry haudience hunbegun hdeserted _ =>
      obtain ⟨x, hget, rfl⟩ := h.exists_attended hplant
      obtain ⟨x', hget', hfollows⟩ := hpasses.follows hget
      obtain ⟨hdeserted', hbegun⟩ := hfollows.deserted hdeserted
      have hempty' := (h'.orderly x' (List.mem_of_getElem? hget')).deserted hdeserted'
      exact .dropped (h'.getElem?_plants hget') (getElem?_of_isPrefix hfollows.accepted hentry)
        haudience (hbegun ▸ hunbegun) hdeserted' hempty'

section Tells

/-- How often something occurs in the books of one plant is at most how often it occurs in all. -/
theorem le_sum_of_getElem? (count : Attended β ε ρ → Nat) (hget : crew[p]? = some x) :
    count x ≤ (crew.map count).sum :=
  List.le_sum_of_mem (List.mem_map_of_mem (List.mem_of_getElem? hget))

/-- Something that occurs in the books of an estate occurs in those of a plant. -/
theorem exists_of_sum_pos {count : Attended β ε ρ → Nat} (hpos : 0 < (crew.map count).sum) :
    ∃ (p : Nat) (x : Attended β ε ρ), crew[p]? = some x ∧ 0 < count x := by
  by_contra hnone
  refine Nat.not_lt.2 (List.sum_eq_zero fun n hn => ?_).le hpos
  obtain ⟨x, hmem, rfl⟩ := List.mem_map.1 hn
  obtain ⟨p, hget⟩ := List.mem_iff_getElem?.1 hmem
  by_contra hne
  exact hnone ⟨p, x, hget, Nat.pos_of_ne_zero hne⟩

/-- A task of a handle is accepted only once. -/
theorem Upheld.place_unique (h : Upheld e crew) (hhomed : Homed e crew) {q k l : Nat}
    {y : Attended β ε ρ} {entry other : Origin × Task β} (hx : crew[p]? = some x)
    (hy : crew[q]? = some y) (hentry : x.plant.accepted[k]? = some entry)
    (hother : y.plant.accepted[l]? = some other) (haudience : entry.2.audience = .handle id)
    (haudience' : other.2.audience = .handle id) : p = q ∧ k = l := by
  have hhome := hhomed.accepted hx (List.mem_of_getElem? hentry) haudience
  have hhome' := hhomed.accepted hy (List.mem_of_getElem? hother) haudience'
  obtain ⟨rfl, -⟩ := Prod.mk.inj (Option.some.inj (hhome.symm.trans hhome'))
  rw [hx] at hy
  cases hy
  have honce : (e.books crew).accepted (.handle id) ≤ 1 :=
    Nat.le_of_add_left_le (h.sound.handle id).once
  have hplaces : (x.plant.accepted.map (·.2.audience)).count (.handle id) ≤ 1 :=
    (le_sum_of_getElem? (fun x => (x.plant.accepted.map (·.2.audience)).count (.handle id))
      hx).trans honce
  refine ⟨rfl, eq_of_count_le_one hplaces ?_ ?_⟩
  · rw [List.getElem?_map, hentry, Option.map_some, haudience]
  · rw [List.getElem?_map, hother, Option.map_some, haudience']

/-- The tasks that have run to their ends are those that workers have begun and ended. -/
theorem Upheld.mem_ended_iff (h : Upheld e crew) {c : Plant β ε ρ}
    (hplant : e.plants[p]? = some c) (k : Nat) : k ∈ c.ended ↔
    ∃ ending ∈ e.ends, ending.plant = p ∧ ending.place = k ∧ c.begun[k]? = some ending.task ∧
      ∃ origin, c.accepted[k]? = some (origin, ending.task) := by
  obtain ⟨x, hx, rfl⟩ := h.exists_attended hplant
  rw [h.ended p x hx]
  constructor
  · intro hmem
    obtain ⟨ending, hfilter, rfl⟩ := List.mem_map.1 hmem
    obtain ⟨hending, hp⟩ := List.mem_filter.1 hfilter
    obtain rfl := beq_iff_eq.1 hp
    obtain ⟨y, hy, hbegun⟩ := h.begun ending hending
    rw [hx] at hy
    cases hy
    have horderly := h.orderly x (List.mem_of_getElem? hx)
    exact ⟨ending, hending, rfl, rfl, hbegun, horderly.accepted_of_begun hbegun⟩
  · rintro ⟨ending, hending, rfl, rfl, -⟩
    exact List.mem_map.2 ⟨ending, List.mem_filter.2 ⟨hending, beq_self_eq_true _⟩, rfl⟩

/-- A task that has run to its end was accepted. -/
theorem Upheld.exists_entry (h : Upheld e crew) {ending : Ending β ρ} (hmem : ending ∈ e.ends) :
    ∃ x origin, crew[ending.plant]? = some x ∧ ending.place < x.plant.begun.length ∧
      x.plant.accepted[ending.place]? = some (origin, ending.task) := by
  obtain ⟨x, hget, hbegun⟩ := h.begun ending hmem
  obtain ⟨origin, hentry⟩ :=
    (h.orderly x (List.mem_of_getElem? hget)).accepted_of_begun hbegun
  exact ⟨x, origin, hget, (List.getElem?_eq_some_iff.1 hbegun).1, hentry⟩

/-- A task that has run to its end was not dropped. -/
theorem Upheld.not_unrun_of_ran (h : Upheld e crew) (hhomed : Homed e crew) {outcome : Outcome ρ}
    (hran : e.Ran id outcome) : ¬e.Unrun id := by
  obtain ⟨ending, hmem, haudience, -⟩ := hran
  obtain ⟨x, origin, hget, hlt, hentry⟩ := h.exists_entry hmem
  rintro (⟨hhome, hplant, -, hnone⟩ | ⟨hplant, hother, haudience', hunbegun, -, -⟩)
  · have hhome' := hhomed.accepted hget (List.mem_of_getElem? hentry) haudience
    rw [hhome] at hhome'
    cases hhome'
    rw [h.getElem?_plants hget] at hplant
    cases hplant
    exact hnone (List.mem_map.2 ⟨_, List.mem_of_getElem? hentry, haudience⟩)
  · obtain ⟨y, hy, rfl⟩ := h.exists_attended hplant
    obtain ⟨rfl, rfl⟩ := h.place_unique hhomed hget hy hentry hother haudience haudience'
    rw [hget] at hy
    cases hy
    omega

/-- A task ends once. -/
theorem Upheld.ran_unique (h : Upheld e crew) {outcome outcome' : Outcome ρ}
    (hran : e.Ran id outcome) (hran' : e.Ran id outcome') : outcome = outcome' := by
  obtain ⟨ending, hmem, haudience, rfl⟩ := hran
  obtain ⟨ending', hmem', haudience', rfl⟩ := hran'
  have hkept := (h.sound.handle id).kept
  have honce := (h.sound.handle id).once
  have hcount : (e.ends.map fun ending => ending.task.audience).count (.handle id) ≤ 1 := by
    have hends : (e.books crew).endings (.handle id) =
        (e.ends.map fun ending => ending.task.audience).count (.handle id) := by
      simp only [Books.endings, books, List.map_map]
      rfl
    omega
  obtain ⟨i, hi⟩ := List.mem_iff_getElem?.1 hmem
  obtain ⟨j, hj⟩ := List.mem_iff_getElem?.1 hmem'
  have hsame : i = j := eq_of_count_le_one hcount
    (by rw [List.getElem?_map, hi, Option.map_some, haudience])
    (by rw [List.getElem?_map, hj, Option.map_some, haudience'])
  subst hsame
  rw [hi] at hj
  cases hj
  rfl

/-- One thing becomes of a task. -/
theorem Fate.unique (hfate : e.Fate id outcome?) (hfate' : e.Fate id outcome?') (h : Upheld e crew)
    (hhomed : Homed e crew) : outcome? = outcome?' := by
  cases outcome? with
  | none =>
    cases outcome?' with
    | none => rfl
    | some outcome' => exact absurd hfate (h.not_unrun_of_ran hhomed hfate')
  | some outcome =>
    cases outcome?' with
    | none => exact absurd hfate' (h.not_unrun_of_ran hhomed hfate)
    | some outcome' => rw [h.ran_unique hfate hfate']

/-- Whose task has run to its end, and nobody else, has a task that ended. -/
theorem endings_pos_iff : 0 < (e.books crew).endings (.handle id) ↔
    ∃ outcome, e.Ran id outcome := by
  unfold Books.endings
  rw [List.count_pos_iff]
  simp only [books, List.mem_map]
  constructor
  · rintro ⟨_, ⟨ending, hmem, rfl⟩, haudience⟩
    exact ⟨ending.outcome, ending, hmem, haudience, rfl⟩
  · rintro ⟨_, ending, hmem, haudience, rfl⟩
    exact ⟨_, ⟨ending, hmem, rfl⟩, haudience⟩

/-- A handle is told how its task ended only by the end of the task. -/
theorem Upheld.ran_of_delivered (h : Upheld e crew) {outcome : Outcome ρ}
    (hget : e.board.handles[id]? = some (.delivered outcome)) : e.Ran id outcome := by
  cases (h.sound.handle id).told _ hget with
  | delivered _ hended =>
    obtain ⟨ending, hmem, hnews⟩ := List.mem_map.1 hended
    obtain ⟨haudience, houtcome⟩ := Prod.mk.inj hnews
    exact ⟨ending, hmem, haudience, houtcome⟩

/-- A handle whose task has run to its end has been told. -/
theorem Upheld.delivered_of_ran (h : Upheld e crew) {delivery : Delivery ρ} {outcome : Outcome ρ}
    (hget : e.board.handles[id]? = some delivery) (hran : e.Ran id outcome) :
    delivery = .delivered outcome := by
  have hpos : 0 < (e.books crew).endings (.handle id) := endings_pos_iff.2 ⟨outcome, hran⟩
  have honce := (h.sound.handle id).once
  have hkept := (h.sound.handle id).kept
  cases delivery with
  | awaited =>
    cases (h.sound.handle id).told _ hget with
    | awaited hplace => omega
  | delivered outcome' => rw [h.ran_unique hran (h.ran_of_delivered hget)]
  | lost =>
    cases (h.sound.handle id).told _ hget with
    | lost _ hunended => omega

/-- A handle hears that its task is lost only if it was dropped. -/
theorem Upheld.unrun_of_lost (h : Upheld e crew) (hhomed : Homed e crew)
    (hget : e.board.handles[id]? = some .lost) : e.Unrun id := by
  have hsound := h.sound.handle id
  have hnowhere := hsound.told _ hget
  obtain ⟨hnone, hunended⟩ : (e.books crew).claims (.handle id) +
      (e.books crew).seats (.handle id) = 0 ∧ (e.books crew).endings (.handle id) = 0 := by
    cases hnowhere with
    | lost hnone hunended => exact ⟨hnone, hunended⟩
  have hmade : id < e.homes.length := by
    by_contra hge
    have hnothing := (hsound.unmade (hhomed.length ▸ Nat.not_lt.1 hge)).2
    cases hnothing.symm.trans hget
  obtain ⟨⟨p, origin⟩, hhome⟩ : ∃ home, e.homes[id]? = some home :=
    ⟨_, List.getElem?_eq_getElem hmade⟩
  obtain ⟨x, hx, hknown⟩ := hhomed.made hhome
  have hplant := h.getElem?_plants hx
  have horderly := h.orderly x (List.mem_of_getElem? hx)
  by_cases haccepted : .handle id ∈ x.plant.accepted.map (·.2.audience)
  · obtain ⟨entry, hmem, haudience⟩ := List.mem_map.1 haccepted
    obtain ⟨k, hentry⟩ := List.mem_iff_getElem?.1 hmem
    have hseats : .handle id ∉ x.plant.site.pool.seats := by
      intro hseat
      have hpos := List.count_pos_iff.2 hseat
      have hle := le_sum_of_getElem? (fun x => x.plant.site.pool.seats.count (.handle id)) hx
      simp only [books] at hnone
      omega
    obtain ⟨hended, hbegun⟩ | ⟨hunbegun, hdeserted⟩ := horderly.settled hseats hentry haudience
    · refine absurd hunended (Nat.ne_of_gt (endings_pos_iff.2 ?_))
      obtain ⟨ending, hending, -, rfl, htask, -⟩ := (h.mem_ended_iff hplant k).1 hended
      have hsame := Option.some.inj (hbegun.symm.trans htask)
      exact ⟨ending.outcome, ending, hending, hsame ▸ haudience, rfl⟩
    · exact .dropped hplant hentry haudience hunbegun hdeserted (horderly.deserted hdeserted)
  · obtain hshut | hmem | ⟨i, hi⟩ := hknown
    · exact .refused hhome hplant hshut haccepted
    · exact absurd hmem haccepted
    · have hclaims : (x.stands i).claims (.handle id) = true := by
        rw [hi]
        exact beq_self_eq_true _
      have hpos := headcount_pos (horderly.few (.handle id)) hclaims
      have hle := le_sum_of_getElem?
        (fun x => headcount (Pool.Standing.claims (.handle id)) x.stands) hx
      simp only [books] at hnone
      omega

/-- A handle whose task was dropped has been told, unless the call that has made it has still to do
so. -/
theorem Upheld.lost_of_unrun (h : Upheld e crew) (hhomed : Homed e crew) {delivery : Delivery ρ}
    (hget : e.board.handles[id]? = some delivery) (hunrun : e.Unrun id)
    (hunclaimed : ∀ (p : Nat) (x : Attended β ε ρ) (i : Nat), crew[p]? = some x →
      (x.stands i).seat? ≠ some (.handle id)) : delivery = .lost := by
  cases delivery with
  | lost => rfl
  | delivered outcome => exact absurd hunrun (h.not_unrun_of_ran hhomed (h.ran_of_delivered hget))
  | awaited =>
    have hclaims : (e.books crew).claims (.handle id) = 0 := by
      refine Nat.eq_zero_of_not_pos fun hpos => ?_
      obtain ⟨p, x, hx, hpos⟩ := exists_of_sum_pos hpos
      have hnone : headcount (Pool.Standing.claims (.handle id)) x.stands = 0 :=
        headcount_eq_zero fun i => beq_eq_false_iff_ne.2 (hunclaimed p x i hx)
      omega
    have hseats : 0 < (e.books crew).seats (.handle id) := by
      cases (h.sound.handle id).told _ hget with
      | awaited hplace => omega
    obtain ⟨q, y, hy, hpos⟩ := exists_of_sum_pos hseats
    have horderly := h.orderly y (List.mem_of_getElem? hy)
    have hseat := List.count_pos_iff.1 hpos
    have hmem := horderly.mem_accepted hseat
    obtain ⟨entry, hentry, haudience⟩ := List.mem_map.1 hmem
    cases hunrun with
    | refused hhome hplant hshut hnone =>
      have hhome' := hhomed.accepted hy hentry haudience
      rw [hhome] at hhome'
      cases hhome'
      rw [h.getElem?_plants hy] at hplant
      cases hplant
      exact absurd hmem hnone
    | dropped hplant hother haudience' hunbegun hdeserted _ =>
      obtain ⟨x, hx, rfl⟩ := h.exists_attended hplant
      obtain ⟨l, hl⟩ := List.mem_iff_getElem?.1 hentry
      obtain ⟨rfl, -⟩ := h.place_unique hhomed hy hx hl hother haudience haudience'
      rw [hy] at hx
      cases hx
      rw [horderly.seats_of_deserted hdeserted] at hseat
      cases hseat

end Tells

section Settled

variable {c : Plant β ε ρ} {k : Nat}

/-- A task has run to its end. -/
def Ended (e : Estate β ε ρ) (p k : Nat) (task : Task β) : Prop :=
  ∃ outcome, ⟨p, k, task, outcome⟩ ∈ e.ends

/-- A task was accepted and not begun when the pool lost its last owner and its last worker, and
with them its queue: it never runs. -/
def Forfeited (e : Estate β ε ρ) (p k : Nat) : Prop :=
  ∃ c, e.plants[p]? = some c ∧ c.begun.length ≤ k ∧ c.site.pool.Deserted ∧
    c.site.pool.queue.toList = []

/-- The task of a handle of which anything has become has ended or was forfeited. -/
theorem Fate.settled {id : HandleId} {outcome? : Option (Outcome ρ)} (hfate : e.Fate id outcome?)
    (h : Upheld e crew) (hhomed : Homed e crew) {entry : Origin × Task β}
    (hplant : e.plants[p]? = some c) (hentry : c.accepted[k]? = some entry)
    (haudience : entry.2.audience = .handle id) : e.Ended p k entry.2 ∨ e.Forfeited p k := by
  obtain ⟨x, hx, rfl⟩ := h.exists_attended hplant
  cases outcome? with
  | some outcome =>
    obtain ⟨⟨q, l, task, outcome⟩, hmem, htask, rfl⟩ := hfate
    obtain ⟨y, origin, hy, -, hother⟩ := h.exists_entry hmem
    obtain ⟨rfl, rfl⟩ := h.place_unique hhomed hx hy hentry hother haudience htask
    cases hx.symm.trans hy
    cases hentry.symm.trans hother
    exact .inl ⟨outcome, hmem⟩
  | none =>
    cases hfate with
    | refused hhome hother _ hnone =>
      have hhome' := hhomed.accepted hx (List.mem_of_getElem? hentry) haudience
      obtain ⟨rfl, -⟩ := Prod.mk.inj (Option.some.inj (hhome.symm.trans hhome'))
      cases hplant.symm.trans hother
      exact absurd (List.mem_map.2 ⟨entry, List.mem_of_getElem? hentry, haudience⟩) hnone
    | dropped hother hget haudience' hunbegun hdeserted hempty =>
      obtain ⟨y, hy, rfl⟩ := h.exists_attended hother
      obtain ⟨rfl, rfl⟩ := h.place_unique hhomed hx hy hentry hget haudience haudience'
      exact .inr ⟨_, hother, hunbegun, hdeserted, hempty⟩

/-- No worker is at a task that has ended or was forfeited. -/
theorem Upheld.post_ne_of_settled (h : Upheld e crew) (hplant : e.plants[p]? = some c)
    {task : Task β} (hsettled : e.Ended p k task ∨ e.Forfeited p k) (j : Nat) :
    c.post j ≠ some k := by
  obtain ⟨x, hx, rfl⟩ := h.exists_attended hplant
  have hposted := (h.orderly x (List.mem_of_getElem? hx)).posted
  intro hpost
  obtain ⟨outcome, hmem⟩ | ⟨c', hplant', hunbegun, -⟩ := hsettled
  · refine hposted.apart j k hpost ?_
    rw [h.ended p x hx]
    exact List.mem_map.2 ⟨_, List.mem_filter.2 ⟨hmem, beq_self_eq_true p⟩, rfl⟩
  · cases hplant.symm.trans hplant'
    exact absurd ((hposted.lt_iff k).2 (.inr ⟨j, hpost⟩)) (Nat.not_lt.2 hunbegun)

end Settled

end Estate

end MarkSweep
