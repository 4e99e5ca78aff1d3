import Mathlib.Logic.Function.Basic
import Mathlib.Logic.Relation
import MarkSweep.Proofs.Pool.Clients
import MarkSweep.Proofs.Pool.Deeds

namespace MarkSweep

variable {β ε ρ : Type}

namespace Pool

/-- The task that a call has queued, if it has queued one. -/
def Errand.queued : Errand β → Standing ρ → List (Task β)
  | submit body owners, .queued (some id) | submit body owners, .accepted (some id) =>
    [⟨.handle id, body, owners⟩]
  | execute body owners, .queued _ | execute body owners, .accepted _ => [⟨.nobody, body, owners⟩]
  | spawnMember group body owners, .queued _ | spawnMember group body owners, .accepted _ =>
    [⟨.group group, body, owners⟩]
  | _, _ => []

/-- Whether a call has shut the pool down or found it shut down. -/
def Standing.HasShut : Standing ρ → Prop
  | closing stage => stage ≠ .begun
  | reporting _ | closed _ | refused _ | lost _ => True
  | _ => False

/-- What a client does to the flags and to the workers. -/
structure Tended (pool pool' : Pool β ρ) : Prop where
  shutDown : pool.shutDown = true → pool'.shutDown = true
  released : pool.released = true → pool'.released = true
  unjoined : pool'.unjoined = pool.unjoined ∨ pool'.unjoined = []
  length : pool'.workers.length = pool.workers.length
  stage : ∀ i, pool'.stage i = pool.stage i ∨ pool.stage i = .parked ∧ pool'.stage i = .awake false

/-- A worker wakes up although nobody woke it. -/
theorem tended_modify (pool : Pool β ρ) (i : Nat) :
    Tended pool { pool with workers := pool.workers.modify i Worker.woken } := by
  refine ⟨id, id, .inl rfl, List.length_modify _ _ _, fun j => ?_⟩
  unfold stage
  rw [List.getElem?_modify]
  cases hget : pool.workers[j]? with
  | none => exact .inl rfl
  | some worker =>
    obtain ⟨before, thread⟩ := worker
    by_cases hij : i = j
    · cases before with
      | parked => exact .inr ⟨rfl, by simp [hij, Worker.woken, Stage.isParked]⟩
      | _ => exact .inl (by simp [hij, Worker.woken, Stage.isParked])
    · exact .inl (by simp [hij])

/-- Tending to a pool changes nobody who is over. -/
theorem Tended.isOver (htended : Tended pool pool') (i : Nat) :
    (pool'.stage i).isOver = (pool.stage i).isOver := by
  obtain hsame | ⟨hparked, hawake⟩ := htended.stage i
  · rw [hsame]
  · rw [hparked, hawake]
    rfl

/-- Tending to a pool takes nobody to a task or away from it. -/
theorem Tended.underway?_eq (htended : Tended pool pool') (i : Nat) :
    (pool'.stage i).underway? = (pool.stage i).underway? := by
  obtain hsame | ⟨hparked, hawake⟩ := htended.stage i
  · rw [hsame]
  · rw [hparked, hawake]
    rfl

section Moves

variable {errand : Errand β} {k k' : Standing ρ} {t t' : Thread} {pool pool' : Pool β ρ}

theorem tended_of_workers (hshut : pool.shutDown = true → pool'.shutDown = true)
    (hreleased : pool.released = true → pool'.released = true)
    (hunjoined : pool'.unjoined = pool.unjoined ∨ pool'.unjoined = [])
    (hworkers : pool'.workers = pool.workers) : Tended pool pool' := by
  refine ⟨hshut, hreleased, hunjoined, by rw [hworkers], fun i => .inl ?_⟩
  rw [Pool.stage, Pool.stage, hworkers]

theorem tended_of_stirred (hstirred : pool.Stirred pool')
    (hshut : pool'.shutDown = pool.shutDown) (hunjoined : pool'.unjoined = pool.unjoined) :
    Tended pool pool' :=
  ⟨fun h => hshut.trans h, fun h => hstirred.released.trans h, .inl hunjoined,
    hstirred.workers.length_eq.symm, hstirred.stage⟩

/-- Every step of a call tends to the pool. -/
theorem Moves.tended (hmoves : Moves errand k t pool k' t' pool') : Tended pool pool' := by
  cases hmoves with
  | wakeOne choice =>
    refine tended_of_stirred (stirred_wakeOne pool choice) ?_ ?_ <;> simp only [Pool.wakeOne] <;>
      split <;> rfl
  | wakeAll => exact tended_of_stirred (stirred_wakeAll pool) rfl rfl
  | announce => exact tended_of_stirred (stirred_wakeAll pool) rfl rfl
  | beginShutdown => exact tended_of_workers (fun _ => rfl) id (.inl rfl) rfl
  | takeNone => exact tended_of_workers id id (.inr rfl) rfl
  | takeWorkers => exact tended_of_workers id id (.inr rfl) rfl
  | release =>
    obtain hsame | ⟨-, board, hcollapse⟩ := collapse_eq { pool with released := true }
    · rw [Pool.release, hsame]
      exact tended_of_workers id (fun _ => rfl) (.inl rfl) rfl
    · rw [Pool.release, hcollapse]
      exact tended_of_workers id (fun _ => rfl) (.inl rfl) rfl
  | _ => exact tended_of_workers id id (.inl rfl) rfl

/-- A call adds its task to the queue once, at its end. -/
theorem Moves.traffic (hmoves : Moves errand k t pool k' t' pool') :
    ∃ added, Traffic pool pool' added [] ∧ errand.queued k' = errand.queued k ++ added := by
  cases hmoves with
  | @accept _ _ _ task htask hopen =>
    refine ⟨[task], .push hopen rfl, ?_⟩
    generalize pool.workEnabled = enabled
    cases errand <;> cases k <;> cases htask <;> cases enabled <;> rfl
  | refuse htask =>
    refine ⟨[], .same rfl, ?_⟩
    cases errand <;> cases k <;> cases htask <;> rfl
  | release herrand =>
    subst herrand
    refine ⟨[], ?_, rfl⟩
    obtain hsame | ⟨hdeserted, board, hcollapse⟩ := collapse_eq { pool with released := true }
    · rw [Pool.release, hsame]
      exact .same rfl
    · rw [Pool.release, hcollapse]
      exact .drop rfl hdeserted
  | @wakeOne id? _ _ choice =>
    refine ⟨[], .same (stirred_wakeOne pool choice).queue, ?_⟩
    cases errand <;> cases id? <;> rfl
  | _ =>
    refine ⟨[], .same rfl, ?_⟩
    cases errand <;> rfl

/-- A call that has shut the pool down or found it shut down finds it so later on. -/
theorem Moves.hasShut (hmoves : Moves errand k t pool k' t' pool')
    (hshut : k.HasShut → pool.shutDown = true) (hk : k'.HasShut) : pool'.shutDown = true := by
  cases hmoves with
  | refuse _ hrefused => exact hrefused
  | tellLost => exact hshut trivial
  | beginShutdown => rfl
  | announce => exact hshut nofun
  | takeNone => exact hshut nofun
  | takeWorkers => exact hshut nofun
  | joinWorker => exact hshut nofun
  | joinedAll => exact hshut nofun
  | report => exact hshut trivial
  | dropLast => exact absurd rfl hk
  | accept =>
    split at hk
    · exact hk.elim
    · exact hk.elim
  | _ => exact hk.elim

/-- A sealed pool stays sealed. -/
theorem Tended.sealed (htended : Tended pool pool') (hsealed : pool.Sealed)
    (hreleased : pool'.released = true → pool'.shutDown = true) : pool'.Sealed := by
  refine ⟨hreleased, fun i last closing task hstage hne => htended.shutDown ?_⟩
  obtain hsame | ⟨-, hawake⟩ := htended.stage i
  · exact hsealed.closing i last closing task (hsame.symm.trans hstage) hne
  · cases hawake.symm.trans hstage

/-- Only a call that has closed the pool releases it. -/
theorem Moves.sealed (hmoves : Moves errand k t pool k' t' pool')
    (hshut : k.HasShut → pool.shutDown = true) (hsealed : pool.Sealed) : pool'.Sealed := by
  have htended := hmoves.tended
  refine htended.sealed hsealed fun hreleased => ?_
  cases hmoves with
  | release =>
    obtain hsame | ⟨-, board, hcollapse⟩ := collapse_eq { pool with released := true }
    · rw [Pool.release, hsame]
      exact hshut trivial
    · rw [Pool.release, hcollapse]
      exact hshut trivial
  | beginShutdown => rfl
  | wakeOne choice =>
    have hbefore := (stirred_wakeOne pool choice).released.symm.trans hreleased
    exact htended.shutDown (hsealed.released hbefore)
  | _ => exact hsealed.released hreleased

end Moves

end Pool

/-- Who has a task queued. -/
inductive Origin
  | client (i : Nat)
  /-- The task that the worker runs. -/
  | worker (i : Nat)
deriving DecidableEq, Repr

/-- A pool, the calls that clients ever made on it, and the history of its tasks. -/
structure Plant (β ε ρ : Type) where
  site : Worksite β ε ρ
  visits : List (Visit (Pool.Errand β) (Worksite β ε ρ) (Pool.Answer ρ)) := []
  /-- The tasks that were ever added to the queue, the earliest first. -/
  accepted : List (Origin × Task β) := []
  /-- The tasks that workers have ever begun, the earliest first. -/
  begun : List (Task β) := []
  /-- Which of the begun tasks a worker is at. -/
  post : Nat → Option Nat := fun _ => none
  /-- The begun tasks that have ended. -/
  ended : List Nat := []

namespace Plant

/-- The pool has gone on, and what it has added to the queue came from `origin`. -/
def advance (c : Plant β ε ρ) (origin : Origin) (site : Worksite β ε ρ) : Plant β ε ρ :=
  { c with
    site
    accepted := c.accepted ++ (c.site.pool.grown site.pool).map (origin, ·) }

/-- A worker goes from one stage to another, which may begin a task or end one. -/
def record (c : Plant β ε ρ) (i : Nat) (before after : Stage β) : Plant β ε ρ :=
  match before.begun after with
  | task :: _ =>
    { c with begun := c.begun ++ [task], post := Function.update c.post i c.begun.length }
  | [] =>
    if before.hasEnded after then
      { c with post := Function.update c.post i none, ended := c.ended ++ (c.post i).toList }
    else c

/-- What can happen next. -/
inductive Step (B : Body β ε ρ) : Plant β ε ρ → Plant β ε ρ → Prop
  /-- A client makes a call. -/
  | arrive {c : Plant β ε ρ} (errand : Pool.Errand β) (caller : Thread) :
      Step B c { c with visits := c.visits ++ [⟨errand, caller, caller, errand.call⟩] }
  /-- A call takes its next step. -/
  | call {c : Plant β ε ρ} {i : Nat}
      {visit visit' : Visit (Pool.Errand β) (Worksite β ε ρ) (Pool.Answer ρ)}
      {site : Worksite β ε ρ} (hget : c.visits[i]? = some visit)
      (hstep : visit.Step c.site visit' site) :
      Step B c { c.advance (.client i) site with visits := c.visits.set i visit' }
  /-- A worker takes a step. -/
  | work {c : Plant β ε ρ} {choice : Choice} {i : Nat} {site : Worksite β ε ρ}
      (hstep : Worksite.workerStep B choice i c.site = some site) :
      Step B c
        ((c.advance (.worker i) site).record i (c.site.pool.stage i) (site.pool.stage i))
  /-- A worker wakes up although nobody woke it. -/
  | rouse {c : Plant β ε ρ} (i : Nat) :
      Step B c
        { c with
          site.pool.workers := c.site.pool.workers.modify i Worker.woken }
  /-- What the tasks share changes. -/
  | others {c : Plant β ε ρ} (env : ε) : Step B c { c with site.env := env }

/-- A worker takes a step in the ordinary course. -/
theorem Step.ordinary {B : Body β ε ρ} {c : Plant β ε ρ} (i : Nat) {site : Worksite β ε ρ}
    (hstep : Worksite.workerStep B 0 i c.site = some site) :
    Step B c ((c.advance (.worker i) site).record i (c.site.pool.stage i) (site.pool.stage i)) :=
  .work hstep

/-- What happens next, with a note of how far each call is. -/
inductive Passes (B : Body β ε ρ) : Plant β ε ρ → (Nat → Pool.Standing ρ) →
    Plant β ε ρ → (Nat → Pool.Standing ρ) → Prop
  | arrive {c : Plant β ε ρ} {stands : Nat → Pool.Standing ρ} (errand : Pool.Errand β)
      (caller : Thread) :
      Passes B c stands { c with visits := c.visits ++ [⟨errand, caller, caller, errand.call⟩] }
        (Function.update stands c.visits.length errand.start)
  | call {c : Plant β ε ρ} {stands : Nat → Pool.Standing ρ} {i : Nat}
      {visit visit' : Visit (Pool.Errand β) (Worksite β ε ρ) (Pool.Answer ρ)}
      {site : Worksite β ε ρ} {k : Pool.Standing ρ} (hget : c.visits[i]? = some visit)
      (herrand : visit'.errand = visit.errand) (hcaller : visit'.caller = visit.caller)
      (hmoves : Pool.Moves visit.errand (stands i) visit.thread c.site.pool k visit'.thread
        site.pool) :
      Passes B c stands { c.advance (.client i) site with visits := c.visits.set i visit' }
        (Function.update stands i k)
  | work {c : Plant β ε ρ} {stands : Nat → Pool.Standing ρ} {choice : Choice} {i : Nat}
      {site : Worksite β ε ρ} (hstep : Worksite.workerStep B choice i c.site = some site) :
      Passes B c stands
        ((c.advance (.worker i) site).record i (c.site.pool.stage i) (site.pool.stage i)) stands
  | rouse {c : Plant β ε ρ} {stands : Nat → Pool.Standing ρ} (i : Nat) :
      Passes B c stands
        { c with
          site.pool.workers := c.site.pool.workers.modify i Worker.woken } stands
  | others {c : Plant β ε ρ} {stands : Nat → Pool.Standing ρ} (env : ε) :
      Passes B c stands { c with site.env := env } stands

/-- Each call keeps its discipline from where it stands. -/
def Disciplined (c : Plant β ε ρ) (stands : Nat → Pool.Standing ρ) : Prop :=
  ∀ (i : Nat) (visit : Visit (Pool.Errand β) (Worksite β ε ρ) (Pool.Answer ρ)),
    c.visits[i]? = some visit →
      visit.rest.Keeps (Pool.discipline visit.errand) (Pool.Ends visit.errand) (stands i)

variable {B : Body β ε ρ} {c c' : Plant β ε ρ} {stands stands' : Nat → Pool.Standing ρ}

/-- A worker that goes on begins what its stages say that it begins. -/
theorem record_eq (c : Plant β ε ρ) (i : Nat) (before after : Stage β) :
    (c.record i before after).site = c.site ∧ (c.record i before after).visits = c.visits ∧
      (c.record i before after).accepted = c.accepted ∧
      (c.record i before after).begun = c.begun ++ before.begun after := by
  unfold record Stage.begun
  split
  · next task rest hbegun =>
    split at hbegun
    · cases hbegun
      exact ⟨rfl, rfl, rfl, rfl⟩
    · cases hbegun
  · next hbegun =>
    rw [hbegun, List.append_nil]
    split <;> exact ⟨rfl, rfl, rfl, rfl⟩

/-- A new call keeps its discipline from where it begins. -/
theorem Disciplined.arrive (h : c.Disciplined stands) (errand : Pool.Errand β) (caller : Thread) :
    Disciplined { c with visits := c.visits ++ [⟨errand, caller, caller, errand.call⟩] }
      (Function.update stands c.visits.length errand.start) := by
  intro i visit hget
  obtain ⟨rfl, rfl⟩ | ⟨hi, hget⟩ := getElem?_concat_cases hget
  · rw [Function.update_self]
    exact Pool.keeps_call errand
  · rw [Function.update_of_ne hi]
    exact h i visit hget

/-- A call takes a step that its standing allows. -/
theorem Disciplined.call (h : c.Disciplined stands) {s site : Worksite β ε ρ} {i : Nat}
    {visit visit' : Visit (Pool.Errand β) (Worksite β ε ρ) (Pool.Answer ρ)}
    (hget : c.visits[i]? = some visit) (hstep : visit.Step s visit' site) :
    ∃ k, Pool.Moves visit.errand (stands i) visit.thread s.pool k visit'.thread site.pool ∧
      ∀ {c' : Plant β ε ρ}, c'.visits = c.visits.set i visit' →
        c'.Disciplined (Function.update stands i k) := by
  obtain ⟨k, ⟨-, hmoves⟩, hkeeps⟩ := hstep.keeps (h i visit hget) trivial
  refine ⟨k, hmoves, fun hvisits j other hother => ?_⟩
  rw [hvisits] at hother
  obtain ⟨rfl, rfl⟩ | ⟨hj, hother⟩ := getElem?_set_cases hother
  · rw [Function.update_self, hstep.errand_eq.1]
    exact hkeeps
  · rw [Function.update_of_ne (Ne.symm hj)]
    exact h j other hother

/-- What workers do is no business of the calls. -/
theorem Disciplined.of_visits (h : c.Disciplined stands) (hvisits : c'.visits = c.visits) :
    c'.Disciplined stands := by
  intro i visit hget
  rw [hvisits] at hget
  exact h i visit hget

/-- Calls that keep their discipline do nothing else but what their standings allow. -/
theorem Disciplined.step (h : c.Disciplined stands) (hstep : Step B c c') :
    ∃ stands', Passes B c stands c' stands' ∧ c'.Disciplined stands' := by
  cases hstep with
  | arrive errand caller => exact ⟨_, .arrive errand caller, h.arrive errand caller⟩
  | call hget hstep =>
    obtain ⟨k, hmoves, hkeeps⟩ := h.call hget hstep
    exact ⟨_, .call hget hstep.errand_eq.1 hstep.errand_eq.2 hmoves, hkeeps rfl⟩
  | work hstep => exact ⟨stands, .work hstep, h.of_visits (record_eq _ _ _ _).2.1⟩
  | rouse i => exact ⟨stands, .rouse i, h⟩
  | others env => exact ⟨stands, .others env, h⟩

/-- What holds at first and is preserved by every step that the standings allow holds always. -/
theorem run_induction {P : Plant β ε ρ → (Nat → Pool.Standing ρ) → Prop}
    (hpasses : ∀ {c c' stands stands'}, P c stands → Passes B c stands c' stands' → P c' stands')
    (hkeeps : c.Disciplined stands) (hstart : P c stands)
    (hrun : Relation.ReflTransGen (Step B) c c') :
    ∃ stands', c'.Disciplined stands' ∧ P c' stands' := by
  induction hrun with
  | refl => exact ⟨stands, hkeeps, hstart⟩
  | tail _ hstep ih =>
    obtain ⟨stands', hkeeps', hP⟩ := ih
    obtain ⟨stands'', hpasses', hkeeps''⟩ := hkeeps'.step hstep
    exact ⟨stands'', hkeeps'', hpasses hP hpasses'⟩

end Plant

end MarkSweep
