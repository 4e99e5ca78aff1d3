import MarkSweep.Pool.Script
import MarkSweep.Proofs.Pool.Custody
import MarkSweep.Proofs.Pool.Turns

namespace MarkSweep

variable {β ε ρ : Type}

/-- The answer of a group whose members have faulted with these messages, the earliest first. -/
def verdict : List String → Except Failure Unit
  | message :: _ => .error (.taskFaulted message)
  | [] => .ok ()

/-- A group answers by the first message that it keeps. -/
theorem Group.answer_eq (group : Group) : group.answer = verdict group.faults := by
  unfold answer verdict
  cases group.faults <;> rfl

/-- A group without members that is not on the board stays without members, and none of them can
fault any more. -/
theorem Books.Turn.idle {books books' : Books ρ} {change : Change ρ} {id : GroupId}
    (hturn : Books.Turn change books books') (hgone : books'.board.groups[id]? = none)
    (hidle : books.seats (.group id) = 0) :
    books'.seats (.group id) = 0 ∧
      MarkSweep.messages id books'.ended = MarkSweep.messages id books.ended := by
  have hseats := hturn.seats (.group id)
  have hleft := hturn.left (.group id)
  obtain ⟨hhas, hended, hentered⟩ := hturn.deal.group_le id
  have hrefused : change.accepted.count (.group id) = 0 := by
    -- Nobody queues a member of a group that is not there.
    refine Nat.eq_zero_of_not_pos fun hpos => ?_
    have hsome := (hhas hpos).2
    rw [hgone] at hsome
    cases hsome
  have hsilent : MarkSweep.messages id change.ended = [] :=
    messages_eq_nil (List.count_eq_zero.1 (by omega))
  refine ⟨by omega, ?_⟩
  rw [hturn.messages, hsilent, List.append_nil]

namespace Estate

/-- How many members of a group were accepted. -/
def members (e : Estate β ε ρ) (g : GroupId) : Nat :=
  (e.plants.map fun c => (c.accepted.map (·.2.audience)).count (.group g)).sum

/-- How many members of a group are queued or running. -/
def pending (e : Estate β ε ρ) (g : GroupId) : Nat :=
  (e.plants.map fun c => c.site.pool.seats.count (.group g)).sum

/-- The messages of the members of a group that have faulted, the earliest first. -/
def faults (e : Estate β ε ρ) (g : GroupId) : List String :=
  messages g (e.ends.map Ending.news)

/-- No member of a group is queued or running. -/
def Idle (e : Estate β ε ρ) (g : GroupId) : Prop :=
  ∀ c ∈ e.plants, .group g ∉ c.site.pool.seats

/-- A group has nothing pending when all of its members have ended. -/
theorem pending_eq_zero_iff {e : Estate β ε ρ} {g : GroupId} : e.pending g = 0 ↔ e.Idle g := by
  simp only [pending, Idle, List.sum_eq_zero_iff, List.forall_mem_map, List.count_eq_zero]

/-- Groups count down their members. -/
structure Barrier (B : Body β ε ρ) (e : Estate β ε ρ) : Prop where
  /-- A group that was made and not consumed counts its members and keeps the messages of those that
  have faulted. -/
  counted : ∀ g, g < e.board.nextGroup → ¬e.Consumed (.group g) →
    e.board.groups[g]? = some ⟨e.members g, e.pending g, e.faults g⟩
  /-- Whoever has waited for a group has waited for its members, and has heard the earliest message
  of those that have faulted. -/
  waited : ∀ p i visit, e.visit? p i = some visit → ∀ g, visit.errand = .waitGroup g →
    ∀ result, visit.answer? = some result →
      e.Idle g ∧ result = .ok (.verdict (verdict (e.faults g)))
  /-- Whoever waits need not wait any longer if and only if no member is queued or running. -/
  ready : ∀ g, g < e.board.nextGroup → ¬e.Consumed (.group g) → ∀ (p : Nat) c (i : Nat) visit,
    e.plants[p]? = some c → c.visits[i]? = some visit → visit.errand = .waitGroup g →
      visit.answer? = none → ((∃ visit' site, visit.Step (e.view c).site visit' site) ↔ e.Idle g)
  /-- The tasks whose messages are kept have begun and ended, and they were accepted as members. -/
  ended : ∀ (p : Nat) c, e.plants[p]? = some c → ∀ k, k ∈ c.ended ↔
    ∃ ending ∈ e.ends, ending.plant = p ∧ ending.place = k ∧ c.begun[k]? = some ending.task ∧
      ∃ origin, c.accepted[k]? = some (origin, ending.task)
  /-- A call that queues a member says whether it was accepted. -/
  spawned : ∀ (p : Nat) c (i : Nat) visit, e.plants[p]? = some c → c.visits[i]? = some visit →
    ∀ g body owners, visit.errand = .spawnMember g body owners →
      ∀ result, visit.answer? = some result →
        result = .ok (.verdict (.ok ())) ∧
          c.acceptedFrom (.client i) = [⟨.group g, body, owners⟩] ∨
        result = .ok (.verdict (.error .poolShutDown)) ∧ c.acceptedFrom (.client i) = [] ∧
          c.site.pool.shutDown = true
  /-- No step of a call that is to queue a member changes any group, unless it queues the member. -/
  refused : ∀ (p : Nat) c (i : Nat) visit visit' site, e.plants[p]? = some c →
    c.visits[i]? = some visit → ∀ g body owners, visit.errand = .spawnMember g body owners →
      visit.Step (e.view c).site visit' site → c.site.pool.grown site.pool = [] →
        site.pool.board.groups = e.board.groups
  /-- Nor does a task that is to queue a member where the pool is shut down. -/
  declined : ∀ (p : Nat) c choice (i : Nat) site, e.plants[p]? = some c →
    Worksite.workerStep B choice i (e.view c).site = some site → ∀ g body owners,
      (e.view c).site.asked? B i = some ⟨.group g, body, owners⟩ →
        c.site.pool.shutDown = true → site.pool.board.groups = e.board.groups
  /-- A worker dies only of a task that answers to nobody. -/
  spares : ∀ e', Step B e e' → ∀ (p : Nat) c c' (j : Nat), e.plants[p]? = some c →
    e'.plants[p]? = some c' → c'.site.pool.stage j = .dead → c.site.pool.stage j = .dead ∨
      ∃ task outcome, c.site.pool.stage j = .running task ∧ task.audience = .nobody ∧
        (e.view c).site.outcome? B j = some outcome ∧ outcome.isFault = true

variable {B : Body β ε ρ} {e e' : Estate β ε ρ} {crew crew' : List (Attended β ε ρ)} {g : GroupId}

/-- The books about a group are about its members. -/
theorem Upheld.books_eq (h : Upheld e crew) (g : GroupId) :
    (e.books crew).accepted (.group g) = e.members g ∧
      (e.books crew).seats (.group g) = e.pending g ∧
        messages g (e.books crew).ended = e.faults g := by
  simp [books, members, pending, faults, h.plants, Function.comp_def]

/-- A group counts its members. -/
theorem Upheld.eq_of_group (h : Upheld e crew) {group : Group}
    (hget : e.board.groups[g]? = some group) : group = ⟨e.members g, e.pending g, e.faults g⟩ := by
  obtain ⟨hspawned, hpending, hfaults⟩ := (h.sound.members g).counted group hget
  obtain ⟨hmembers, hseats, hmessages⟩ := h.books_eq g
  obtain ⟨spawned, pending, faults⟩ := group
  rw [← hmembers, ← hseats, ← hmessages, ← hspawned, ← hpending, ← hfaults]

/-- A group that was waited for has no members left and is not on the board any more. -/
structure Retired (e : Estate β ε ρ) (g : GroupId) (faults : List String) : Prop where
  made : g < e.board.nextGroup
  gone : e.board.groups[g]? = none
  idle : e.pending g = 0
  faults_eq : e.faults g = faults

/-- A group that was waited for stays so. -/
theorem Retired.step {faults : List String} (h : e.Retired g faults) (hupheld : Upheld e crew)
    (hpasses : Passes B e crew e' crew') : e'.Retired g faults := by
  obtain ⟨change, hturn⟩ := hpasses.turn hupheld
  obtain ⟨-, hseats, hmessages⟩ := hupheld.books_eq g
  obtain ⟨-, hseats', hmessages'⟩ := (hupheld.step hpasses).books_eq g
  have hgone : e'.board.groups[g]? = none ∧ g < e'.board.nextGroup := by
    obtain ⟨hmade, hlists⟩ | ⟨hnew, -⟩ := hturn.deal.lists_cases (.group g)
    · have hnone : (e.books crew).board.lists (.group g) = false := congrArg Option.isSome h.gone
      rw [hnone, Bool.false_and] at hlists
      exact ⟨Option.isNone_iff_eq_none.1 (Option.isSome_eq_false_iff.1 hlists), hmade.2 h.made⟩
    · exact absurd h.made hnew
  obtain ⟨hidle, hsame⟩ := hturn.idle hgone.1 (hseats.trans h.idle)
  exact ⟨hgone.2, hgone.1, hseats'.symm.trans hidle,
    hmessages'.symm.trans (hsame.trans (hmessages.trans h.faults_eq))⟩

/-- A call that waits for a group takes it off the board when nothing is pending. -/
theorem consume?_waitGroup {board board' : Board ρ} {result : Except Fault (Pool.Answer ρ)}
    (hconsume : (Pool.Errand.waitGroup g : Pool.Errand β).consume? board =
      some (result, board')) :
    ∃ group, board.groups[g]? = some group ∧ group.pending = 0 ∧
      result = .ok (.verdict (verdict group.faults)) ∧ board' = board.dropGroup g := by
  obtain ⟨group, hget, hanswer⟩ := Option.bind_eq_some_iff.1 hconsume
  split at hanswer
  · next hempty =>
    cases hanswer
    exact ⟨group, hget, hempty, by rw [group.answer_eq], rfl⟩
  · cases hanswer

/-- Who has waited for a group has waited for its members. -/
def Awaited (e : Estate β ε ρ) : Prop :=
  ∀ p i visit, e.visit? p i = some visit → ∀ g, visit.errand = .waitGroup g →
    ∀ result, visit.answer? = some result →
      ∃ faults, e.Retired g faults ∧ result = .ok (.verdict (verdict faults))

/-- Whoever waits for a group retires it. -/
theorem Upheld.retired (h : Upheld e crew) (hpasses : Passes B e crew e' crew') {group : Group}
    (hget : e.board.groups[g]? = some group) (hempty : group.pending = 0)
    (hboard : e'.board = e.board.dropGroup g) : e'.Retired g group.faults := by
  have hgroup := h.eq_of_group hget
  have hgone : e'.board.groups[g]? = none := by
    rw [hboard, Board.getElem?_dropGroup, if_pos rfl]
  have hmade : g < e'.board.nextGroup := by
    rw [hboard]
    by_contra hge
    obtain ⟨-, -, hnone⟩ := (h.sound.members g).unmade (Nat.not_lt.1 hge)
    cases hnone.symm.trans hget
  obtain ⟨change, hturn⟩ := hpasses.turn h
  obtain ⟨-, hseats, hmessages⟩ := h.books_eq g
  obtain ⟨-, hseats', hmessages'⟩ := (h.step hpasses).books_eq g
  have hzero : e.pending g = 0 := by
    rw [hgroup] at hempty
    exact hempty
  obtain ⟨hidle, hsame⟩ := hturn.idle hgone (hseats.trans hzero)
  rw [hgroup]
  exact ⟨hmade, hgone, hseats'.symm.trans hidle, hmessages'.symm.trans (hsame.trans hmessages)⟩

/-- Every verdict that is given tells what has become of the members. -/
theorem Awaited.step (h : e.Awaited) (hcustody : Custody B e crew)
    (hpasses : Passes B e crew e' crew') (hstep : Step B e e') : e'.Awaited := by
  intro p i visit hget g herrand result hanswer
  have hconsumes : visit.errand.Consumes (.group g) := by rw [herrand]; rfl
  obtain hbefore | hconsume := hcustody.answered_cases hstep hget hconsumes hanswer
  · obtain ⟨faults, hretired, hresult⟩ := h p i visit hbefore g herrand result hanswer
    exact ⟨faults, hretired.step hcustody.upheld hpasses, hresult⟩
  · rw [herrand] at hconsume
    obtain ⟨group, hgroup, hempty, rfl, hdropped⟩ := consume?_waitGroup hconsume
    exact ⟨group.faults, hcustody.upheld.retired hpasses hgroup hempty hdropped, rfl⟩

theorem exists_awaited {env : ε} (hrun : Relation.ReflTransGen (Step B) { env } e) :
    ∃ crew, Custody B e crew ∧ e.Awaited := by
  have hstart : ({ env } : Estate β ε ρ).Awaited := nofun
  exact run_induction
    (fun hcustody _ hpasses hstep hawaited => Awaited.step hawaited hcustody hpasses hstep)
    hstart hrun

/-- A group that was made and not consumed is on the board. -/
theorem Custody.group_eq (h : Custody B e crew) (hmade : g < e.board.nextGroup)
    (hkept : ¬e.Consumed (.group g)) :
    e.board.groups[g]? = some ⟨e.members g, e.pending g, e.faults g⟩ := by
  have hlists := (h.listed (.group g) hmade).resolve_right hkept
  obtain ⟨group, hget⟩ := Option.isSome_iff_exists.1 hlists
  rw [hget, h.upheld.eq_of_group hget]

/-- Whoever waits for a group need not wait once it has no members. -/
theorem Custody.exists_step_iff_idle (h : Custody B e crew) (hmade : g < e.board.nextGroup)
    (hkept : ¬e.Consumed (.group g)) {p i : Nat} {c : Plant β ε ρ}
    {visit : Visit (Pool.Errand β) (Worksite β ε ρ) (Pool.Answer ρ)}
    (hget : e.visit? p i = some visit) (herrand : visit.errand = .waitGroup g)
    (hanswer : visit.answer? = none) :
    (∃ visit' site, visit.Step (e.view c).site visit' site) ↔ e.Idle g := by
  have hgroup := h.group_eq hmade hkept
  have hconsumes : visit.errand.Consumes (.group g) := by rw [herrand]; rfl
  rw [← pending_eq_zero_iff]
  constructor
  · rintro ⟨visit', site, hstep⟩
    obtain ⟨result, hconsume, -, -⟩ := h.step_of_consumes hget hconsumes hstep
    rw [herrand] at hconsume
    obtain ⟨group, hboard, hempty, -⟩ := consume?_waitGroup hconsume
    cases hgroup.symm.trans hboard
    exact hempty
  · intro hidle
    have hrest := h.fresh p i visit hget (.group g) hconsumes hanswer
    obtain ⟨errand, caller, thread, rest⟩ := visit
    dsimp only at hrest herrand
    subst hrest herrand
    have hnext := Pool.next?_call_of_consumes hconsumes caller thread 0 (e.view c).site
    have hboard : (e.view c).site.pool.board.groups[g]? =
        some ⟨e.members g, e.pending g, e.faults g⟩ := hgroup
    simp only [Pool.Errand.consume?, hboard, Option.bind_some, hidle, if_true] at hnext
    exact ⟨_, _, .of_next? hnext⟩

/-- A call that is to queue a member changes no group, unless it queues the member. -/
theorem groups_eq_of_moves {body : β} {owners : Nat} {k k' : Pool.Standing ρ} {t t' : Thread}
    {pool pool' : Pool β ρ} (hmoves : Pool.Moves (.spawnMember g body owners) k t pool k' t' pool')
    (hnone : pool.grown pool' = []) : pool'.board.groups = pool.board.groups := by
  generalize herrand : Pool.Errand.spawnMember g body owners = errand at hmoves
  cases hmoves with
  | accept =>
    rw [Pool.grown_accept] at hnone
    cases hnone
  | wakeOne choice => exact congrArg Board.groups (Pool.stirred_wakeOne pool choice).board
  | release hother => cases herrand.trans hother
  | openGroup hother => cases herrand.trans hother
  | waitGroup hother => cases herrand.trans hother
  | abandonGroup hother => cases herrand.trans hother
  | _ => rfl

/-- A task that is to queue a member changes no group where the pool is shut down. -/
theorem groups_eq_of_asked {choice : Choice} {i : Nat} {s s' : Worksite β ε ρ} {body : β}
    {owners : Nat} (hstep : s.workerStep B choice i = some s')
    (hasked : s.asked? B i = some ⟨.group g, body, owners⟩) (hshut : s.pool.shutDown = true) :
    s'.pool.board.groups = s.pool.board.groups := by
  unfold Worksite.asked? at hasked
  unfold Worksite.workerStep at hstep
  split at hasked
  · next worker hget =>
    rw [hget] at hstep
    dsimp only at hstep
    split at hasked
    · next task hstage =>
      rw [hstage] at hstep
      dsimp only at hstep
      split at hasked
      · next request rest hmove =>
        rw [hmove] at hstep
        cases hstep
        cases request with
        | spawnMember group body' owners' =>
          have hoffer : s.pool.offer? (⟨.group group, body', owners'⟩ : Task β) = none :=
            if_pos hshut
          simp only [Pool.askFrom, Pool.enqueueFrom, hoffer]
          rfl
        | _ => cases hasked
      · cases hasked
    · cases hasked
  · cases hasked

/-- A worker that takes a step dies only of a task that answers to nobody. -/
theorem dead_of_workerStep {choice : Choice} {i j : Nat} {s s' : Worksite β ε ρ}
    (hstep : s.workerStep B choice i = some s') (hdead : s'.pool.stage j = .dead) :
    s.pool.stage j = .dead ∨
      ∃ task outcome, s.pool.stage j = .running task ∧ task.audience = .nobody ∧
        s.outcome? B j = some outcome ∧ outcome.isFault = true := by
  by_cases hj : j = i
  · subst hj
    cases (Worksite.workerStep_shift hstep).turnover with
    | begins _ hafter => cases hafter.symm.trans hdead
    | goes hbefore hsame =>
      have hgone : (s'.pool.stage j).audience? = none := congrArg Stage.audience? hdead
      have hsome : (s.pool.stage j).audience?.isSome = true := by
        rwa [Stage.audience?, Option.isSome_map]
      rw [← hsame, hgone] at hsome
      cases hsome
    | @ends task outcome hbefore houtcome _ hdies =>
      obtain ⟨hnobody, hfault⟩ := hdies.1 hdead
      exact .inr ⟨task, outcome, hbefore, hnobody, houtcome, hfault⟩
    | rests _ hafter => exact absurd hdead hafter.2
  · obtain hsame | ⟨-, hawake⟩ := (Worksite.workerStep_deed hstep).others j hj
    · exact .inl (hsame.symm.trans hdead)
    · cases hawake.symm.trans hdead

/-- A worker dies only of a task that answers to nobody. -/
theorem Custody.dead_of_step (h : Custody B e crew) (hstep : Step B e e') {p j : Nat}
    {c c' : Plant β ε ρ} (hplant : e.plants[p]? = some c) (hplant' : e'.plants[p]? = some c')
    (hdead : c'.site.pool.stage j = .dead) : c.site.pool.stage j = .dead ∨
      ∃ task outcome, c.site.pool.stage j = .running task ∧ task.audience = .nobody ∧
        (e.view c).site.outcome? B j = some outcome ∧ outcome.isFault = true := by
  have hset : ∀ {q : Nat} {d d' : Plant β ε ρ}, e.plants[q]? = some d →
      e'.plants = e.plants.set q d' →
      (d'.site.pool.stage j = .dead → d.site.pool.stage j = .dead ∨
        ∃ task outcome, d.site.pool.stage j = .running task ∧ task.audience = .nobody ∧
          (e.view d).site.outcome? B j = some outcome ∧ outcome.isFault = true) →
      c.site.pool.stage j = .dead ∨
        ∃ task outcome, c.site.pool.stage j = .running task ∧ task.audience = .nobody ∧
          (e.view c).site.outcome? B j = some outcome ∧ outcome.isFault = true := by
    intro q d d' hd hplants hstage
    rw [hplants] at hplant'
    obtain ⟨rfl, rfl⟩ | ⟨-, hplant'⟩ := getElem?_set_cases hplant'
    · cases hplant.symm.trans hd
      exact hstage hdead
    · cases hplant.symm.trans hplant'
      exact .inl hdead
  have htended : ∀ {pool pool' : Pool β ρ}, pool.Tended pool' → pool'.stage j = .dead →
      pool.stage j = .dead := by
    intro pool pool' htended hdead
    obtain hsame | ⟨-, hawake⟩ := htended.stage j
    · exact hsame.symm.trans hdead
    · cases hawake.symm.trans hdead
  cases hstep with
  | found =>
    rw [List.getElem?_append_left (List.getElem?_eq_some_iff.1 hplant).1, hplant] at hplant'
    cases hplant'
    exact .inl hdead
  | arrive hd => exact hset hd rfl .inl
  | call hd hget hstep =>
    obtain ⟨x, hx, rfl⟩ := h.upheld.exists_attended hd
    obtain ⟨k, hmoves, -⟩ := (h.disciplined x (List.mem_of_getElem? hx)).call hget hstep
    refine hset hd rfl fun hdead => ?_
    have hbefore : (e.view x.plant).site.pool.stage j = .dead := htended hmoves.tended hdead
    exact .inl hbefore
  | @work q i d choice site hd hstep =>
    refine hset hd rfl fun hdead => ?_
    rw [(Plant.record_eq _ _ _ _).1] at hdead
    exact dead_of_workerStep hstep hdead
  | rouse hd i => exact hset hd rfl fun hdead => .inl (htended (Pool.tended_modify _ i) hdead)
  | others =>
    rw [hplant] at hplant'
    cases hplant'
    exact .inl hdead

/-- A call that queues a member says whether it was accepted. -/
theorem Custody.spawned (h : Custody B e crew) {p i : Nat} {c : Plant β ε ρ}
    {visit : Visit (Pool.Errand β) (Worksite β ε ρ) (Pool.Answer ρ)} {body : β} {owners : Nat}
    {result : Except Fault (Pool.Answer ρ)} (hplant : e.plants[p]? = some c)
    (hget : c.visits[i]? = some visit) (herrand : visit.errand = .spawnMember g body owners)
    (hanswer : visit.answer? = some result) :
    result = .ok (.verdict (.ok ())) ∧ c.acceptedFrom (.client i) = [⟨.group g, body, owners⟩] ∨
      result = .ok (.verdict (.error .poolShutDown)) ∧ c.acceptedFrom (.client i) = [] ∧
        c.site.pool.shutDown = true := by
  obtain ⟨x, hx, rfl⟩ := h.upheld.exists_attended hplant
  have hmem := List.mem_of_getElem? hx
  have hordered := h.ordered x hmem
  have hends := Visit.ends_of_answer? (h.disciplined x hmem i visit hget) hanswer
  have hqueued := hordered.queued i visit hget
  have hshut := hordered.hasShut i
  rw [herrand] at hends hqueued
  rw [hqueued]
  generalize x.stands i = k at hends hshut
  cases hends with
  | spawned => exact .inl ⟨rfl, rfl⟩
  | spawnRefused => exact .inr ⟨rfl, rfl, hshut trivial⟩

/-- In every course of events groups count down their members. -/
theorem run_counts_down {env : ε} (hrun : Relation.ReflTransGen (Step B) { env } e) :
    e.Barrier B := by
  obtain ⟨crew, hcustody, hawaited⟩ := exists_awaited hrun
  exact
    { counted g hmade hkept := hcustody.group_eq hmade hkept
      waited p i visit hget g herrand result hanswer := by
        obtain ⟨faults, hretired, rfl⟩ := hawaited p i visit hget g herrand result hanswer
        rw [hretired.faults_eq]
        exact ⟨pending_eq_zero_iff.1 hretired.idle, rfl⟩
      ready g hmade hkept p c i visit hplant hget herrand hanswer :=
        hcustody.exists_step_iff_idle hmade hkept ((visit?_eq hplant i).trans hget) herrand hanswer
      ended p c hplant k := hcustody.upheld.mem_ended_iff hplant k
      spawned p c i visit hplant hget g body owners herrand result hanswer :=
        hcustody.spawned hplant hget herrand hanswer
      refused p c i visit visit' site hplant hget g body owners herrand hstep hnone := by
        obtain ⟨x, hx, rfl⟩ := hcustody.upheld.exists_attended hplant
        obtain ⟨k, hmoves, -⟩ :=
          (hcustody.disciplined x (List.mem_of_getElem? hx)).call hget hstep
        rw [herrand] at hmoves
        exact groups_eq_of_moves hmoves hnone
      declined p c choice i site hplant hstep g body owners hasked hshut :=
        groups_eq_of_asked hstep hasked hshut
      spares e' hstep p c c' j hplant hplant' hdead :=
        hcustody.dead_of_step hstep hplant hplant' hdead }

/-- How the calls on the pools have ended, as far as they have. -/
def answers (e : Estate β ε ρ) : List (Option (Except Fault (Pool.Answer ρ))) :=
  e.plants.flatMap fun c => c.visits.map (·.answer?)

/-- Two groups share a pool until it is closed; a member of the second one faults, and another one
comes too late. -/
def dividing : List (Turn (Script String)) :=
  List.flatten
    [[.found 1 "pool", .arrive 0 .newGroup, .call 0 0, .arrive 0 .newGroup, .call 0 1,
        .arrive 0 (.spawnMember 0 ⟨[], fun _ => .value "done"⟩ 0), .call 0 2,
        .arrive 0 (.spawnMember 1 ⟨[], fun _ => .fault (.text "broken")⟩ 0), .call 0 3,
        .arrive 0 (.spawnMember 0 ⟨[], fun _ => .value "done"⟩ 0), .call 0 4, .arrive 0 .finalize],
      .replicate 2 (.call 0 5),
      [.arrive 0 (.spawnMember 1 ⟨[], fun _ => .value "late"⟩ 0), .call 0 6],
      .replicate 10 (.work 0 0), .replicate 4 (.call 0 5),
      [.arrive 0 (.waitGroup 0), .call 0 7, .arrive 0 (.waitGroup 1), .call 0 8]]

/-- Two groups share a pool until it is closed: the one verdict is good, the other tells of a member
that broke, and the member that came too late counts for nothing. -/
theorem run_counts_down_divided :
    ∃ e : Estate (Script String) Workshop String,
      Relation.ReflTransGen (Step Script.body) { env := {} } e ∧
      e.answers = [some (.ok (.group 0)), some (.ok (.group 1)), some (.ok (.verdict (.ok ()))),
        some (.ok (.verdict (.ok ()))), some (.ok (.verdict (.ok ()))), some (.ok .done),
        some (.ok (.verdict (.error .poolShutDown))), some (.ok (.verdict (.ok ()))),
        some (.ok (.verdict (.error (.taskFaulted "broken"))))] ∧ e.Barrier Script.body := by
  have hreplay : (replay Script.body { env := {} } dividing).map (fun e => decide (e.answers =
      [some (.ok (.group 0)), some (.ok (.group 1)), some (.ok (.verdict (.ok ()))),
        some (.ok (.verdict (.ok ()))), some (.ok (.verdict (.ok ()))), some (.ok .done),
        some (.ok (.verdict (.error .poolShutDown))), some (.ok (.verdict (.ok ()))),
        some (.ok (.verdict (.error (.taskFaulted "broken"))))])) = some true := by
    decide +kernel
  obtain ⟨e, hrun, hanswers⟩ := exists_run_of_replay hreplay
  exact ⟨e, hrun, of_decide_eq_true hanswers, run_counts_down hrun⟩

section Completion

/-- A group without messages has had no member that faulted. -/
theorem value_of_messages_eq_nil {ended : List (Audience × Outcome ρ)} {outcome : Outcome ρ}
    (hnone : messages g ended = []) (hmem : (.group g, outcome) ∈ ended) :
    ∃ result, outcome = .value result := by
  cases outcome with
  | value result => exact ⟨result, rfl⟩
  | fault payload =>
    have hmessage := List.filterMap_eq_nil_iff.1 hnone _ hmem
    cases (if_pos rfl).symm.trans hmessage

/-- A task has run to its end and has not faulted. -/
def Completed (e : Estate β ε ρ) (p k : Nat) (task : Task β) : Prop :=
  ∃ result, ⟨p, k, task, .value result⟩ ∈ e.ends

/-- Of a group that has no members left, every task that was accepted has ended or was forfeited. -/
theorem Upheld.settled_of_idle (h : Upheld e crew) (hidle : e.Idle g) {p k : Nat}
    {c : Plant β ε ρ} {entry : Origin × Task β} (hplant : e.plants[p]? = some c)
    (hentry : c.accepted[k]? = some entry) (haudience : entry.2.audience = .group g) :
    e.Ended p k entry.2 ∨ e.Forfeited p k := by
  have hnone := hidle c (List.mem_of_getElem? hplant)
  obtain ⟨x, hx, rfl⟩ := h.exists_attended hplant
  have horderly := h.orderly x (List.mem_of_getElem? hx)
  obtain ⟨hended, hbegun⟩ | ⟨hunbegun, hdeserted⟩ := horderly.settled hnone hentry haudience
  · obtain ⟨⟨q, l, task, outcome⟩, hmem, rfl, rfl, htask, -⟩ := (h.mem_ended_iff hplant k).1 hended
    obtain rfl : entry.2 = task := Option.some.inj (hbegun.symm.trans htask)
    exact .inl ⟨outcome, hmem⟩
  · exact .inr ⟨_, hplant, hunbegun, hdeserted, horderly.deserted hdeserted⟩

/-- If nobody in such a group is said to have faulted, nobody has. -/
theorem Retired.completed (hretired : e.Retired g []) (h : Upheld e crew) {p k : Nat}
    {c : Plant β ε ρ} {entry : Origin × Task β} (hplant : e.plants[p]? = some c)
    (hentry : c.accepted[k]? = some entry) (haudience : entry.2.audience = .group g) :
    e.Completed p k entry.2 ∨ e.Forfeited p k := by
  have hidle := pending_eq_zero_iff.1 hretired.idle
  refine (h.settled_of_idle hidle hplant hentry haudience).imp_left fun ⟨outcome, hmem⟩ => ?_
  have hnews : (.group g, outcome) ∈ e.ends.map Ending.news :=
    List.mem_map.2 ⟨_, hmem, Prod.ext haudience rfl⟩
  obtain ⟨result, rfl⟩ := value_of_messages_eq_nil hretired.faults_eq hnews
  exact ⟨result, hmem⟩

/-- If whoever has waited for a group has heard of no fault, every task that was accepted as a
member was completed, unless it was forfeited. -/
theorem run_completes {env : ε} (hrun : Relation.ReflTransGen (Step B) { env } e) {p i : Nat}
    {visit : Visit (Pool.Errand β) (Worksite β ε ρ) (Pool.Answer ρ)}
    (hget : e.visit? p i = some visit) (herrand : visit.errand = .waitGroup g)
    (hanswer : visit.answer? = some (.ok (.verdict (.ok ())))) :
    ∀ (q : Nat) c, e.plants[q]? = some c → ∀ k entry, c.accepted[k]? = some entry →
      entry.2.audience = .group g → e.Completed q k entry.2 ∨ e.Forfeited q k := by
  obtain ⟨crew, hcustody, hawaited⟩ := exists_awaited hrun
  obtain ⟨faults, hretired, hverdict⟩ := hawaited p i visit hget g herrand _ hanswer
  have hnone : faults = [] := by
    cases faults with
    | nil => rfl
    | cons => cases hverdict
  subst hnone
  exact fun q c hplant k entry hentry haudience =>
    hretired.completed hcustody.upheld hplant hentry haudience

/-- What those have heard who have waited for groups, in the order of their calls. -/
def verdicts (e : Estate β ε ρ) : List (GroupId × Except Fault (Pool.Answer ρ)) :=
  e.plants.flatMap fun c => c.visits.filterMap fun visit =>
    match visit.errand, visit.answer? with
    | .waitGroup id, some result => some (id, result)
    | _, _ => none

/-- Verdicts are given to calls that wait. -/
theorem exists_visit_of_mem_verdicts {result : Except Fault (Pool.Answer ρ)}
    (hmem : (g, result) ∈ e.verdicts) : ∃ p i visit, e.visit? p i = some visit ∧
      visit.errand = .waitGroup g ∧ visit.answer? = some result := by
  obtain ⟨c, hc, hmem⟩ := List.mem_flatMap.1 hmem
  obtain ⟨visit, hvisit, hheard⟩ := List.mem_filterMap.1 hmem
  obtain ⟨p, hplant⟩ := List.mem_iff_getElem?.1 hc
  obtain ⟨i, hget⟩ := List.mem_iff_getElem?.1 hvisit
  split at hheard
  · next herrand hanswer =>
    cases hheard
    exact ⟨p, i, visit, (visit?_eq hplant i).trans hget, herrand, hanswer⟩
  · cases hheard

/-- Calls on a pool with one worker, which dies of a task, so that a member of a group is left in
the queue and dropped with the pool; then somebody waits for the group. -/
def forsaking (errands : List (Pool.Errand (Script String))) (steps : Nat) :
    List (Turn (Script String)) :=
  List.flatten
    [[.found 1 "pool", .arrive 0 .newGroup, .call 0 0],
      (errands.zipIdx 1).flatMap fun (errand, i) => [.arrive 0 errand, .call 0 i],
      [.arrive 0 .dropOwner], .replicate 4 (.call 0 (errands.length + 1)),
      .replicate steps (.work 0 0), .replicate 4 (.call 0 (errands.length + 1)),
      [.arrive 0 (.waitGroup 0), .call 0 (errands.length + 2)]]

/-- One member has ended, the worker has died, and the pool was dropped with another member in its
queue: the verdict is good, and that member is forfeited. -/
theorem run_completes_forsaken :
    ∃ e : Estate (Script String) Workshop String,
      Relation.ReflTransGen (Step Script.body) { env := {} } e ∧
      (0, .ok (.verdict (.ok ()))) ∈ e.verdicts ∧ e.members 0 = 2 ∧
      e.ends.map (·.task.audience) = [.group 0, .nobody] ∧
      ∀ (q : Nat) c, e.plants[q]? = some c → ∀ k entry, c.accepted[k]? = some entry →
        entry.2.audience = .group 0 → e.Completed q k entry.2 ∨ e.Forfeited q k := by
  have hreplay : (replay Script.body { env := {} } (forsaking
      [.spawnMember 0 ⟨[], fun _ => .value "done"⟩ 0,
        .execute ⟨[], fun _ => .fault (.text "broken")⟩ 0,
        .spawnMember 0 ⟨[], fun _ => .value "left"⟩ 0] 5)).map (fun e =>
      decide ((0, .ok (.verdict (.ok ()))) ∈ e.verdicts ∧ e.members 0 = 2 ∧
        e.ends.map (·.task.audience) = [.group 0, .nobody])) = some true := by decide +kernel
  obtain ⟨e, hrun, hfacts⟩ := exists_run_of_replay hreplay
  obtain ⟨hmem, hmembers, hends⟩ := of_decide_eq_true hfacts
  obtain ⟨p, i, visit, hget, herrand, hanswer⟩ := exists_visit_of_mem_verdicts hmem
  exact ⟨e, hrun, hmem, hmembers, hends, run_completes hrun hget herrand hanswer⟩

/-- The only member of a group is left in the queue by the worker that dies, and whoever waits for
the group hears that all is well. -/
theorem run_forfeits :
    ∃ e : Estate (Script String) Workshop String,
      Relation.ReflTransGen (Step Script.body) { env := {} } e ∧
      (0, .ok (.verdict (.ok ()))) ∈ e.verdicts ∧ e.members 0 = 1 ∧
      ∀ p k task, task.audience = .group 0 → ¬e.Completed p k task := by
  have hreplay : (replay Script.body { env := {} } (forsaking
      [.execute ⟨[], fun _ => .fault (.text "broken")⟩ 0,
        .spawnMember 0 ⟨[], fun _ => .value "left"⟩ 0] 2)).map (fun e =>
      decide ((0, .ok (.verdict (.ok ()))) ∈ e.verdicts ∧ e.members 0 = 1 ∧
        e.ends.map (·.task.audience) = [.nobody])) = some true := by decide +kernel
  obtain ⟨e, hrun, hfacts⟩ := exists_run_of_replay hreplay
  obtain ⟨hmem, hmembers, hends⟩ := of_decide_eq_true hfacts
  refine ⟨e, hrun, hmem, hmembers, fun p k task haudience ⟨result, hcompleted⟩ => ?_⟩
  have haudiences : task.audience ∈ e.ends.map (·.task.audience) :=
    List.mem_map.2 ⟨_, hcompleted, rfl⟩
  rw [hends, haudience] at haudiences
  cases List.mem_singleton.1 haudiences

end Completion

end Estate

end MarkSweep
