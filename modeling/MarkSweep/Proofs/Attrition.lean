import MarkSweep.Proofs.Draining
import MarkSweep.Proofs.Pool.Headcount
import MarkSweep.Proofs.Pool.Turnover

namespace MarkSweep

variable {β ε ρ : Type}

/-- How many of the tasks end their workers, if `faults` says which of them fault. -/
def toll (faults : Nat → Bool) (tasks : List (Task β)) : Nat :=
  tasks.zipIdx.countP fun (task, k) => task.audience == .nobody && faults k

section Toll

variable {faults : Nat → Bool} {tasks : List (Task β)}

/-- One more task raises the toll if it answers to nobody and faults. -/
theorem toll_concat (task : Task β) :
    toll faults (tasks ++ [task]) =
      toll faults tasks + (task.audience == .nobody && faults tasks.length).toNat := by
  unfold toll
  rw [List.zipIdx_append, List.countP_append]
  cases h : (task.audience == .nobody && faults tasks.length) <;> simp [h]

theorem toll_le_append (more : List (Task β)) :
    toll faults tasks ≤ toll faults (tasks ++ more) := by
  unfold toll
  rw [List.zipIdx_append, List.countP_append]
  exact Nat.le_add_right _ _

end Toll

/-- Whether a worker is dead or at a task that will end it. -/
def Stage.isDoomed (faults : Nat → Bool) (place : Stage β × Option Nat) : Bool :=
  match place.1 with
  | dead => true
  | stage => stage.audience? == some .nobody && place.2.any faults

theorem Stage.not_isOver_of_audience? {stage : Stage β}
    (haudience : stage.audience?.isSome = true) : ¬stage.isOver = true := by
  cases stage with
  | exited => cases haudience
  | dead => cases haudience
  | _ => exact nofun

section Doomed

variable {faults : Nat → Bool} {stage : Stage β} {post? : Option Nat}

/-- A worker at a task is doomed if the task answers to nobody and is foretold to fault. -/
theorem Stage.isDoomed_of_audience? (haudience : stage.audience?.isSome = true) :
    isDoomed faults (stage, post?) = (stage.audience? == some .nobody && post?.any faults) := by
  cases stage with
  | dead => cases haudience
  | _ => rfl

/-- A worker that is not at a task and not dead is not doomed. -/
theorem Stage.isDoomed_of_underway? (hrests : stage.underway? = none ∧ stage ≠ .dead) :
    isDoomed faults (stage, post?) = false := by
  obtain ⟨hunderway, halive⟩ := hrests
  cases stage with
  | dead => exact absurd rfl halive
  | awake | leaving | parked | exited => rfl
  | _ => cases hunderway

end Doomed

namespace Pool

variable {pool pool' : Pool β ρ} {i : Nat} {outcome? : Option (Outcome ρ)}

/-- A worker that leaves its pool deserted drops the queue. -/
theorem Shift.deserted (hshift : Shift i outcome? pool pool') (hdeserted : pool'.Deserted) :
    pool'.queue.toList = [] := by
  have hover := hdeserted.2 i
  cases hshift with
  | exit _ _ _ hgauge _ => exact congrArg Gauge.queue (hgauge.deserted hdeserted)
  | die _ _ _ _ hgauge _ => exact congrArg Gauge.queue (hgauge.deserted hdeserted)
  | go hbefore _ hsame _ _ hafter =>
    rw [hafter, Function.update_self] at hover
    rw [← hsame] at hbefore
    exact absurd hover (Stage.not_isOver_of_audience? hbefore)
  | wakeAll _ _ hunderway _ _ hafter =>
    rw [hafter, Function.update_self] at hover
    exact absurd hover (Stage.not_isOver_of_audience? hunderway)
  | push _ _ _ _ hafter =>
    rw [hafter, Function.update_self] at hover
    split at hover <;> cases hover
  | wakeOne _ _ hafter =>
    obtain ⟨j, hne, -, hafter⟩ | ⟨-, hafter⟩ := hafter
    · rw [hafter, Function.update_of_ne hne, Function.update_self] at hover
      cases hover
    · rw [hafter, Function.update_self] at hover
      cases hover
  | conclude _ _ _ hends _ hafter =>
    rw [hafter, Function.update_self] at hover
    obtain rfl | ⟨group, rfl⟩ := hends <;> cases hover
  | take _ _ _ hafter | park _ _ _ _ hafter | enableWork _ _ _ hafter | disableWork _ _ _ hafter
  | beginShutdown _ _ hafter | leave _ _ hafter =>
    rw [hafter, Function.update_self] at hover
    cases hover

/-- So does a call. -/
theorem Moves.deserted {errand : Errand β} {k k' : Standing ρ} {t t' : Thread}
    (hmoves : Moves errand k t pool k' t' pool') (hsealed : pool.Sealed)
    (hbefore : pool.Deserted → pool.queue.toList = []) (hdeserted : pool'.Deserted) :
    pool'.queue.toList = [] := by
  have hover : ∀ j, (pool.stage j).isOver = true := fun j =>
    (hmoves.tended.isOver j).symm.trans (hdeserted.2 j)
  by_cases hreleased : pool.released = true
  · obtain ⟨added, htraffic, -⟩ := hmoves.traffic
    exact htraffic.toList_eq_nil (hsealed.released hreleased) (hbefore ⟨hreleased, hover⟩)
  · cases hmoves with
    | release =>
      have habandons : Abandons { pool with released := true } pool.release := abandons_collapse rfl
      exact congrArg Gauge.queue (habandons.deserted hdeserted)
    | wakeOne choice =>
      exact absurd ((congrArg Gauge.released (pool.gauge_wakeOne choice)).symm.trans hdeserted.1)
        hreleased
    | _ => exact absurd hdeserted.1 hreleased

end Pool

namespace Plant

variable {B : Body β ε ρ} {c c' : Plant β ε ρ} {stands stands' : Nat → Pool.Standing ρ}
  {faults : Nat → Bool}

/-- What each worker is doing, and at which task. -/
def places (c : Plant β ε ρ) (i : Nat) : Stage β × Option Nat := (c.site.pool.stage i, c.post i)

/-- A task that ends in this step faults if and only if `faults` says so. -/
def Foretold (B : Body β ε ρ) (faults : Nat → Bool) (c c' : Plant β ε ρ) : Prop :=
  ∀ i k outcome, c.post i = some k → c'.post i = none → c.site.outcome? B i = some outcome →
    outcome.isFault = faults k

/-- Nobody has cleared the work flag of a pool that is shut down. -/
def Lit (c : Plant β ε ρ) : Prop :=
  c.site.pool.shutDown = true → c.site.pool.workEnabled = true

/-- What a pool whose workers are all over has done. -/
structure Spent (B : Body β ε ρ) (faults : Nat → Bool) (c : Plant β ε ρ) : Prop where
  /-- Fewer tasks that end their workers than workers cost no other task its run. -/
  all : toll faults (c.accepted.map (·.2)) < c.site.pool.workerCount →
    c.begun = c.accepted.map (·.2)
  /-- Otherwise what was begun is the shortest part of the accepted tasks with as many of them. -/
  least : c.site.pool.workerCount ≤ toll faults (c.accepted.map (·.2)) →
    IsLeast {n | toll faults ((c.accepted.map (·.2)).take n) = c.site.pool.workerCount}
      c.begun.length
  begun_eq : c.begun = (c.accepted.map (·.2)).take c.begun.length
  /-- The rest stays queued as long as the pool has an owner or is being closed. -/
  queued : c.site.pool.released = false →
    c.site.pool.queue.toList = (c.accepted.map (·.2)).drop c.begun.length
  dropped : c.site.pool.released = true → c.site.pool.queue.toList = []
  /-- And it never begins. -/
  never : ∀ c', Relation.ReflTransGen (Step B) c c' → c'.begun = c.begun

/-- The dead and the doomed workers are as many as the tasks that were begun to end them.

The count that carries the law is of the workers that are dead or doomed, that is, at a task that
will end them: there are as many of them as tasks of this kind were begun. -/
structure Spending (faults : Nat → Bool) (c : Plant β ε ρ) : Prop where
  posted : Posted c.site.pool.stage c.begun.length c.post c.ended
  audience : ∀ i k, c.post i = some k →
    (c.site.pool.stage i).audience? = c.begun[k]?.map (·.audience)
  spent : headcount (Stage.isDoomed faults) c.places = toll faults c.begun
  spared : ∀ n < c.begun.length, toll faults (c.begun.take n) < c.site.pool.workerCount
  exited : ∀ i < c.site.pool.workerCount, c.site.pool.stage i = .exited →
    c.site.pool.shutDown = true ∧ c.begun = c.accepted.map (·.2)
  deserted : c.site.pool.Deserted → c.site.pool.queue.toList = []

theorem lt_of_isDoomed {i : Nat} (hdoomed : Stage.isDoomed faults (c.places i) = true) :
    i < c.site.pool.workerCount := by
  refine Pool.lt_of_stage_ne fun hexited => ?_
  rw [places, hexited] at hdoomed
  cases hdoomed

theorem few_doomed (c : Plant β ε ρ) : Few (Stage.isDoomed faults) c.places :=
  (Set.finite_lt_nat c.site.pool.workerCount).subset fun _ => lt_of_isDoomed

/-- A worker that is woken is no more doomed than before. -/
theorem isDoomed_of_woken {i : Nat} (hpost : c'.post i = c.post i)
    (hstage : c'.site.pool.stage i = c.site.pool.stage i ∨
      c.site.pool.stage i = .parked ∧ c'.site.pool.stage i = .awake false) :
    Stage.isDoomed faults (c'.places i) = Stage.isDoomed faults (c.places i) := by
  rw [places, places, hpost]
  obtain hsame | ⟨hparked, hawake⟩ := hstage
  · rw [hsame]
  · rw [hparked, hawake]
    rfl

/-- Calls and wake-ups neither begin tasks nor end workers. -/
theorem Spending.tended (h : c.Spending faults) (hpasses : Passes B c stands c' stands')
    (htended : Pool.Tended c.site.pool c'.site.pool) (hbegun : c'.begun = c.begun)
    (hpost : c'.post = c.post) (hended : c'.ended = c.ended)
    (hdeserted : c'.site.pool.Deserted → c'.site.pool.queue.toList = []) :
    c'.Spending faults := by
  refine ⟨?_, ?_, ?_, ?_, ?_, hdeserted⟩
  · rw [hbegun, hpost, hended]
    exact h.posted.congr fun i => congrArg Option.isSome (htended.underway?_eq i)
  · intro i k hk
    rw [hpost] at hk
    rw [hbegun, ← h.audience i k hk, Stage.audience?, Stage.audience?, htended.underway?_eq]
  · rw [hbegun, ← h.spent]
    exact headcount_congr fun i => isDoomed_of_woken (congrFun hpost i) (htended.stage i)
  · rw [hbegun, Pool.workerCount, htended.length]
    exact h.spared
  · intro i hi hexited
    rw [Pool.workerCount, htended.length] at hi
    obtain ⟨hshut, hall⟩ := h.exited i hi (htended.stage_eq_exited hexited)
    obtain ⟨hshut', haccepted⟩ := closed_step hpasses hshut
    rw [hbegun, haccepted]
    exact ⟨hshut', hall⟩

/-- A worker is dead after a task if and only if it was doomed to die of it. -/
theorem Spending.isDoomed_of_ends (h : c.Spending faults) (hforetold : c.Foretold B faults c')
    {i : Nat} {task : Task β} {outcome : Outcome ρ} (hbefore : c.site.pool.stage i = .running task)
    (houtcome : c.site.outcome? B i = some outcome)
    (hafter : (c'.site.pool.stage i).underway? = none)
    (hdead : c'.site.pool.stage i = .dead ↔ task.audience = .nobody ∧ outcome.isFault = true)
    (hpost : c'.post i = none) :
    Stage.isDoomed faults (c'.places i) = Stage.isDoomed faults (c.places i) := by
  have hisSome := h.posted.isSome_post i
  rw [hbefore] at hisSome
  obtain ⟨k, hk⟩ := Option.isSome_iff_exists.1 hisSome
  have hfaults := hforetold i k outcome hk hpost houtcome
  have hdoomed : Stage.isDoomed faults (c.places i) =
      (task.audience == .nobody && outcome.isFault) := by
    rw [places, hbefore, hk, hfaults]
    rfl
  by_cases hdies : c'.site.pool.stage i = .dead
  · obtain ⟨hnobody, hfault⟩ := hdead.1 hdies
    rw [hdoomed, places, hdies, hnobody, hfault]
    rfl
  · rw [hdoomed, places, Stage.isDoomed_of_underway? ⟨hafter, hdies⟩, Eq.comm,
      Bool.and_eq_false_iff]
    by_contra hne
    refine hdies (hdead.2 ?_)
    simpa using hne

/-- A worker that begins a task that will end it is doomed from then on. -/
theorem Spending.spent_of_recorded (h : c.Spending faults) {i : Nat} (hrecorded : Recorded B i c c')
    (hforetold : c.Foretold B faults c')
    (hothers : ∀ j ≠ i, Stage.isDoomed faults (c'.places j) = Stage.isDoomed faults (c.places j)) :
    headcount (Stage.isDoomed faults) c'.places = toll faults c'.begun := by
  have hcount : headcount (Stage.isDoomed faults) c'.places +
      (Stage.isDoomed faults (c.places i)).toNat =
        headcount (Stage.isDoomed faults) c.places +
          (Stage.isDoomed faults (c'.places i)).toNat := by
    rw [← headcount_update c.few_doomed i (c'.places i)]
    congr 1
    refine headcount_congr fun j => ?_
    by_cases hj : j = i
    · rw [hj, Function.update_self]
    · rw [Function.update_of_ne hj, hothers j hj]
  rw [h.spent] at hcount
  have hsame : Stage.isDoomed faults (c'.places i) = Stage.isDoomed faults (c.places i) →
      c'.begun = c.begun → headcount (Stage.isDoomed faults) c'.places = toll faults c'.begun := by
    intro hdoomed hbegun
    rw [hdoomed] at hcount
    rw [hbegun]
    exact Nat.add_right_cancel hcount
  cases hrecorded with
  | @begins draining task hbefore hafter hbegun hpost =>
    have hawake : Stage.isDoomed faults (c.places i) = false := by
      rw [places, hbefore]
      rfl
    have hdoomed : Stage.isDoomed faults (c'.places i) =
        (task.audience == .nobody && faults c.begun.length) := by
      rw [places, hafter, hpost, Function.update_self]
      rfl
    rw [hawake, hdoomed] at hcount
    rw [hbegun, toll_concat]
    exact hcount
  | goes hbefore haudience hbegun hpost =>
    have hbefore' : (c.site.pool.stage i).audience?.isSome = true := by
      rwa [Stage.audience?, Option.isSome_map]
    refine hsame ?_ hbegun
    rw [places, places, Stage.isDoomed_of_audience? hbefore',
      Stage.isDoomed_of_audience? (haudience ▸ hbefore'), haudience, hpost]
  | ends hbefore houtcome hafter hdead hbegun hpost =>
    have hpost' : c'.post i = none := by rw [hpost, Function.update_self]
    exact hsame (h.isDoomed_of_ends hforetold hbefore houtcome hafter hdead hpost') hbegun
  | rests hbefore hafter hbegun hpost =>
    refine hsame ?_ hbegun
    rw [places, places, Stage.isDoomed_of_underway? hbefore, Stage.isDoomed_of_underway? hafter]

/-- A worker is at the task that the history says. -/
theorem audience_of_recorded {i : Nat}
    (hposted : Posted c.site.pool.stage c.begun.length c.post c.ended)
    (haudience : ∀ j k, c.post j = some k →
      (c.site.pool.stage j).audience? = c.begun[k]?.map (·.audience))
    (hrecorded : Recorded B i c c')
    (hothers : ∀ j ≠ i, (c'.site.pool.stage j).audience? = (c.site.pool.stage j).audience?) :
    ∀ j k, c'.post j = some k →
      (c'.site.pool.stage j).audience? = c'.begun[k]?.map (·.audience) := by
  intro j k hk
  -- The tasks that were begun before keep their places.
  have hkept : ∀ {tasks : List (Task β)}, c.post j = some k → c'.begun = c.begun ++ tasks →
      (c'.site.pool.stage j).audience? = (c.site.pool.stage j).audience? →
      (c'.site.pool.stage j).audience? = c'.begun[k]?.map (·.audience) := by
    intro tasks hk hbegun hsame
    have hlt : k < c.begun.length := (hposted.lt_iff k).2 (.inr ⟨j, hk⟩)
    rw [hsame, haudience j k hk, hbegun, List.getElem?_append_left hlt]
  cases hrecorded with
  | begins hbefore hafter hbegun hpost =>
    rw [hpost] at hk
    by_cases hj : j = i
    · rw [hj, Function.update_self] at hk
      cases hk
      rw [hj, hafter, hbegun, List.getElem?_concat_length]
      rfl
    · rw [Function.update_of_ne hj] at hk
      exact hkept hk hbegun (hothers j hj)
  | goes hbefore hsame hbegun hpost =>
    rw [hpost] at hk
    refine hkept hk (hbegun.trans (List.append_nil _).symm) ?_
    by_cases hj : j = i
    · rw [hj, hsame]
    · exact hothers j hj
  | ends hbefore houtcome hafter hdead hbegun hpost =>
    rw [hpost] at hk
    by_cases hj : j = i
    · rw [hj, Function.update_self] at hk
      cases hk
    · rw [Function.update_of_ne hj] at hk
      exact hkept hk (hbegun.trans (List.append_nil _).symm) (hothers j hj)
  | rests hbefore hafter hbegun hpost =>
    rw [hpost] at hk
    refine hkept hk (hbegun.trans (List.append_nil _).symm) ?_
    by_cases hj : j = i
    · rw [hj, Stage.audience?, Stage.audience?, hbefore.1, hafter.1]
    · exact hothers j hj

/-- A worker that begins a task is not doomed yet. -/
theorem Spending.spared_of_recorded (h : c.Spending faults) {i : Nat}
    (hrecorded : Recorded B i c c') :
    ∀ n < c'.begun.length, toll faults (c'.begun.take n) < c.site.pool.workerCount := by
  have hsame : c'.begun = c.begun → ∀ n < c'.begun.length,
      toll faults (c'.begun.take n) < c.site.pool.workerCount := by
    intro hbegun
    rw [hbegun]
    exact h.spared
  cases hrecorded with
  | begins hbefore hafter hbegun hpost =>
    intro n hn
    rw [hbegun, List.length_append, List.length_singleton] at hn
    rw [hbegun, List.take_append_of_le_length (Nat.lt_succ_iff.1 hn)]
    obtain hlt | rfl := Nat.lt_succ_iff_lt_or_eq.1 hn
    · exact h.spared n hlt
    · rw [List.take_length, ← h.spent]
      have hi : i < c.site.pool.workers.length :=
        Pool.lt_of_stage_ne (by rw [hbefore]; exact nofun)
      refine headcount_lt (fun _ => lt_of_isDoomed) hi ?_
      rw [places, hbefore]
      rfl
  | goes _ _ hbegun _ => exact hsame hbegun
  | ends _ _ _ _ hbegun _ => exact hsame hbegun
  | rests _ _ hbegun _ => exact hsame hbegun

/-- Whoever exits leaves nothing behind that was accepted, and nothing is accepted later on. -/
theorem Spending.exited_of_recorded (h : c.Spending faults) (hordered : Ordered B c stands)
    (hordered' : Ordered B c' stands') (hpasses : Passes B c stands c' stands') (hlit : c.Lit)
    {i : Nat} (hrecorded : Recorded B i c c') (hdeed : Pool.Deed i c.site.pool c'.site.pool) :
    ∀ j < c'.site.pool.workerCount, c'.site.pool.stage j = .exited →
      c'.site.pool.shutDown = true ∧ c'.begun = c'.accepted.map (·.2) := by
  intro j hj hexited
  rw [Pool.workerCount, hdeed.length] at hj
  obtain ⟨hshut, hall⟩ : c.site.pool.shutDown = true ∧ c.begun = c.accepted.map (·.2) := by
    by_cases hji : j = i
    · subst hji
      obtain ⟨hshut, hempty⟩ := hdeed.exited hexited
      refine ⟨hshut, hordered.begun_eq (fun hdeserted => ?_) (hempty (hlit hshut))⟩
      cases hdeed.active.symm.trans (hdeserted.2 j)
    · obtain hsame | ⟨-, hawake⟩ := hdeed.others j hji
      · exact h.exited j hj (hsame.symm.trans hexited)
      · cases hawake.symm.trans hexited
  obtain ⟨hshut', haccepted⟩ := closed_step hpasses hshut
  refine ⟨hshut', ?_⟩
  obtain ⟨more, hbegun⟩ := hrecorded.begun_append
  obtain ⟨dropped, hflow, -⟩ := hordered'.flow
  rw [hbegun, haccepted, ← hall, List.append_assoc, List.append_assoc] at hflow
  have hnone := List.append_eq_nil_iff.1 (List.self_eq_append_right.1 hflow)
  rw [hbegun, haccepted, ← hall, hnone.1, List.append_nil]

/-- The law of attrition outlasts every step of a worker. -/
theorem Spending.work (h : c.Spending faults) (hordered : Ordered B c stands) (hlit : c.Lit)
    {choice : Choice} {i : Nat} {site : Worksite β ε ρ}
    (hstep : Worksite.workerStep B choice i c.site = some site)
    (hforetold : c.Foretold B faults ((c.advance (.worker i) site).record i (c.site.pool.stage i)
      (site.pool.stage i))) :
    Spending faults ((c.advance (.worker i) site).record i (c.site.pool.stage i)
      (site.pool.stage i)) := by
  have hpasses : Passes B c stands _ stands := .work hstep
  have hordered' := hordered.step hpasses
  have hrecorded := recorded_work hstep
  have hdeed := Worksite.workerStep_deed hstep
  have hdeserted := (Worksite.workerStep_shift hstep).deserted
  have hothers : ∀ j ≠ i, (site.pool.stage j).underway? = (c.site.pool.stage j).underway? := by
    intro j hj
    obtain hsame | ⟨hparked, hawake⟩ := hdeed.others j hj
    · rw [hsame]
    · rw [hparked, hawake]
      rfl
  have hisSome : ∀ j ≠ i, (site.pool.stage j).underway?.isSome =
      (c.site.pool.stage j).underway?.isSome :=
    fun j hj => congrArg Option.isSome (hothers j hj)
  have hposted := posted_record (c := c.advance (.worker i) site) h.posted hisSome
  have hsite : ((c.advance (.worker i) site).record i (c.site.pool.stage i)
      (site.pool.stage i)).site = site := (record_eq _ _ _ _).1
  generalize (c.advance (.worker i) site).record i (c.site.pool.stage i) (site.pool.stage i) = c'
    at hpasses hordered' hrecorded hforetold hposted hsite ⊢
  subst hsite
  refine ⟨hposted, ?_, ?_, ?_, ?_, hdeserted⟩
  · exact audience_of_recorded h.posted h.audience hrecorded fun j hj =>
      congrArg (Option.map _) (hothers j hj)
  · exact h.spent_of_recorded hrecorded hforetold fun j hj =>
      isDoomed_of_woken (hrecorded.post_of_ne hj) (hdeed.others j hj)
  · rw [Pool.workerCount, hdeed.length]
    exact h.spared_of_recorded hrecorded
  · exact h.exited_of_recorded hordered hordered' hpasses hlit hrecorded hdeed

/-- It outlasts every step of anybody, as long as nobody clears the work flag. -/
theorem Spending.step (h : c.Spending faults) (hordered : Ordered B c stands) (hlit : c.Lit)
    (hpasses : Passes B c stands c' stands') (hforetold : c.Foretold B faults c') :
    c'.Spending faults := by
  cases hpasses with
  | arrive errand caller =>
    exact ⟨h.posted, h.audience, h.spent, h.spared, h.exited, h.deserted⟩
  | call hget herrand hcaller hmoves =>
    exact h.tended (.call (B := B) hget herrand hcaller hmoves) hmoves.tended rfl rfl rfl
      (hmoves.deserted hordered.sealed h.deserted)
  | work hstep => exact h.work hordered hlit hstep hforetold
  | rouse i =>
    have hrouses : Passes B c stands _ stands := .rouse i
    have htended := Pool.tended_modify c.site.pool i
    refine h.tended hrouses htended rfl rfl rfl fun hdeserted => ?_
    refine h.deserted ⟨hdeserted.1, fun j => ?_⟩
    exact (htended.isOver j).symm.trans (hdeserted.2 j)
  | others env => exact ⟨h.posted, h.audience, h.spent, h.spared, h.exited, h.deserted⟩

theorem Spending.start {workers : Nat} {name : String} {pool : Pool β ρ}
    (hpool : Pool.create? workers name = .ok pool) (env : ε) :
    Spending faults { site := ⟨pool, env⟩ } := by
  have hclosing := (Closing.start hpool env).1
  have hstage := stage_create (β := β) (ρ := ρ) workers name
  obtain rfl := Pool.eq_create hpool
  refine ⟨hclosing.posted, nofun, ?_, nofun, ?_, fun _ => rfl⟩
  · refine headcount_eq_zero fun i => ?_
    unfold places
    obtain hawake | hexited := hstage i
    · rw [hawake]
      rfl
    · rw [hexited]
      rfl
  · intro i hi hexited
    exact ⟨(hclosing.draining.exited i hi hexited).1, rfl⟩

/-- Where all workers are over, no task begins any more. -/
theorem begun_eq_of_isOver (hrun : Relation.ReflTransGen (Step B) c c')
    (hkeeps : c.Disciplined stands) (hover : ∀ i, (c.site.pool.stage i).isOver = true) :
    c'.begun = c.begun := by
  have hpassed : ∀ {c₁ c₂ : Plant β ε ρ} {stands₁ stands₂ : Nat → Pool.Standing ρ},
      (c₁.begun = c.begun ∧ ∀ i, (c₁.site.pool.stage i).isOver = true) →
      Passes B c₁ stands₁ c₂ stands₂ →
      c₂.begun = c.begun ∧ ∀ i, (c₂.site.pool.stage i).isOver = true := by
    rintro c₁ c₂ stands₁ stands₂ ⟨hbegun, hover⟩ hpasses
    cases hpasses with
    | arrive => exact ⟨hbegun, hover⟩
    | call _ _ _ hmoves => exact ⟨hbegun, fun i => (hmoves.tended.isOver i).trans (hover i)⟩
    | @work _ i _ hstep => cases (Worksite.workerStep_deed hstep).active.symm.trans (hover i)
    | rouse i =>
      exact ⟨hbegun, fun j => ((Pool.tended_modify c₁.site.pool i).isOver j).trans (hover j)⟩
    | others => exact ⟨hbegun, hover⟩
  obtain ⟨-, -, hbegun, -⟩ := run_induction
    (P := fun c' _ => c'.begun = c.begun ∧ ∀ i, (c'.site.pool.stage i).isOver = true) hpassed
    hkeeps ⟨rfl, hover⟩ hrun
  exact hbegun

/-- Either a worker has exited, and nothing is left that was accepted, or all are dead. -/
theorem Spending.cases_of_isOver (h : c.Spending faults)
    (hover : ∀ i, (c.site.pool.stage i).isOver = true) :
    (c.begun = c.accepted.map (·.2) ∧ toll faults c.begun < c.site.pool.workerCount) ∨
      toll faults c.begun = c.site.pool.workerCount := by
  rw [← h.spent]
  by_cases hexited : ∃ i < c.site.pool.workerCount, c.site.pool.stage i = .exited
  · obtain ⟨i, hi, hexited⟩ := hexited
    refine .inl ⟨(h.exited i hi hexited).2, headcount_lt (fun _ => lt_of_isDoomed) hi ?_⟩
    rw [places, hexited]
    rfl
  · refine .inr (headcount_eq_of_iff fun i => ⟨lt_of_isDoomed, fun hi => ?_⟩)
    have hdead : c.site.pool.stage i = .dead := by
      by_contra halive
      exact hexited ⟨i, hi, Pool.eq_exited_of_isOver (hover i) halive⟩
    rw [places, hdead]
    rfl

/-- Where all workers are over the law gives what was begun and what was left. -/
theorem Spending.spent_of_isOver (h : c.Spending faults) (hordered : Ordered B c stands)
    (hkeeps : c.Disciplined stands) (hover : ∀ i, (c.site.pool.stage i).isOver = true) :
    c.Spent B faults := by
  obtain ⟨dropped, hflow, hdropped⟩ := hordered.flow
  have hcases := h.cases_of_isOver hover
  have hspared := h.spared
  rw [List.append_assoc] at hflow
  refine ⟨fun hfew => ?all, fun hmany => ?least, ?begun_eq, fun hkept => ?queued, fun hreleased =>
    h.deserted ⟨hreleased, hover⟩, fun c' hrun => begun_eq_of_isOver hrun hkeeps hover⟩
  case all =>
    obtain ⟨hall, -⟩ | hdead := hcases
    · exact hall
    · rw [hflow, ← hdead] at hfew
      exact absurd (toll_le_append _) (Nat.not_le.2 hfew)
  case least =>
    obtain ⟨hall, hfew⟩ | hdead := hcases
    · rw [← hall] at hmany
      exact absurd hmany (Nat.not_le.2 hfew)
    · rw [hflow]
      refine ⟨?_, fun n hn => ?_⟩
      · rw [Set.mem_ofPred_eq, List.take_left]
        exact hdead
      · by_contra hlt
        rw [Nat.not_le] at hlt
        rw [Set.mem_ofPred_eq, List.take_append_of_le_length hlt.le] at hn
        exact (hspared n hlt).ne hn
  case begun_eq => rw [hflow, List.take_left]
  case queued =>
    have hnone : dropped = [] := by
      by_contra hne
      exact absurd ((hdropped hne).1.symm.trans hkept) nofun
    rw [hflow, List.drop_left, hnone, List.append_nil]

/-- A run on which nobody clears the work flag of a pool that is shut down, and on which the tasks
fault that `faults` says. -/
abbrev Run (B : Body β ε ρ) (faults : Nat → Bool) : Plant β ε ρ → Plant β ε ρ → Prop :=
  Relation.ReflTransGen fun c c' => Step B c c' ∧ c'.Lit ∧ c.Foretold B faults c'

/-- Every run on a new pool is spending as was foretold. -/
theorem Run.spending {workers : Nat} {name : String} {pool : Pool β ρ} {env : ε}
    (hpool : Pool.create? workers name = .ok pool) (hrun : Run B faults { site := ⟨pool, env⟩ } c) :
    ∃ stands, c.Disciplined stands ∧ Ordered B c stands ∧ c.Lit ∧ c.Spending faults := by
  induction hrun with
  | refl =>
    refine ⟨_, disciplined_nil, .start hpool env, ?_, .start hpool env⟩
    obtain rfl := Pool.eq_create hpool
    exact nofun
  | tail _ hstep ih =>
    obtain ⟨stands, hkeeps, hordered, hlit, hspending⟩ := ih
    obtain ⟨hstep, hlit', hforetold⟩ := hstep
    obtain ⟨stands', hpasses, hkeeps'⟩ := hkeeps.step hstep
    exact ⟨stands', hkeeps', hordered.step hpasses, hlit',
      hspending.step hordered hlit hpasses hforetold⟩

/-- It does not matter what is foretold of tasks that have not ended. -/
theorem Run.congr {faults' : Nat → Bool} {start : Plant β ε ρ} (hrun : Run B faults start c)
    (hsame : ∀ k ∈ c.ended, faults' k = faults k) : Run B faults' start c := by
  induction hrun with
  | refl => exact .refl
  | tail _ hstep ih =>
    obtain ⟨hstep, hlit, hforetold⟩ := hstep
    obtain ⟨hkept, hended⟩ := hstep.ended
    refine (ih fun k hk => hsame k (hkept hk)).tail ⟨hstep, hlit, ?_⟩
    intro i k outcome hk hnone houtcome
    rw [hsame k (hended i k hk hnone)]
    exact hforetold i k outcome hk hnone houtcome

/-- On every run it can be told afterwards which tasks have faulted. -/
theorem exists_run {workers : Nat} {name : String} {pool : Pool β ρ} {env : ε}
    (hpool : Pool.create? workers name = .ok pool)
    (hrun : Relation.ReflTransGen (fun c c' => Step B c c' ∧ c'.Lit) { site := ⟨pool, env⟩ } c) :
    ∃ faults, Run B faults { site := ⟨pool, env⟩ } c := by
  classical
  induction hrun with
  | refl => exact ⟨fun _ => false, .refl⟩
  | @tail c c' _ hstep ih =>
    obtain ⟨faults, hrun⟩ := ih
    obtain ⟨-, -, -, -, hspending⟩ := hrun.spending hpool
    refine ⟨fun k => if k ∈ c.ended then faults k else
      decide (∃ i outcome, c.post i = some k ∧ c.site.outcome? B i = some outcome ∧
        outcome.isFault = true), ?_⟩
    refine (hrun.congr fun k hk => if_pos hk).tail ⟨hstep.1, hstep.2, ?_⟩
    intro i k outcome hk hnone houtcome
    dsimp only
    rw [if_neg (hspending.posted.apart i k hk), Bool.eq_iff_iff, decide_eq_true_iff]
    refine ⟨fun hfault => ⟨i, outcome, hk, houtcome, hfault⟩, ?_⟩
    rintro ⟨j, outcome', hk', houtcome', hfault⟩
    obtain rfl := hspending.posted.alone i j k hk hk'
    cases houtcome.symm.trans houtcome'
    exact hfault

/-- Once all workers of a pool are over, and nobody has cleared the work flag since it was shut
down, the tasks that were begun are the shortest part of the accepted ones with as many tasks in it
that end their workers as the pool had workers, or all of them. It can be told which of them
fault. -/
theorem run_spends {workers : Nat} {name : String} {pool : Pool β ρ} {env : ε}
    (hpool : Pool.create? workers name = .ok pool) {c : Plant β ε ρ}
    (hrun : Relation.ReflTransGen (fun c c' => Step B c c' ∧ c'.Lit) { site := ⟨pool, env⟩ } c)
    (hover : ∀ i, (c.site.pool.stage i).isOver = true) :
    (∃ faults, Run B faults { site := ⟨pool, env⟩ } c) ∧
      ∀ faults, Run B faults { site := ⟨pool, env⟩ } c → c.Spent B faults := by
  refine ⟨exists_run hpool hrun, fun faults hforetold => ?_⟩
  obtain ⟨stands, hkeeps, hordered, -, hspending⟩ := hforetold.spending hpool
  exact hspending.spent_of_isOver hordered hkeeps hover

/-- The only worker dies on the first of two tasks. An owner has closed the pool and keeps it: the
second task stays queued. -/
theorem run_spends_severed :
    ∃ (pool : Pool (Script Unit) Unit) (c : Plant (Script Unit) Workshop Unit),
      Pool.create? 1 "pool" = .ok pool ∧
      Relation.ReflTransGen (fun c c' => Step Script.body c c' ∧ c'.Lit) { site := ⟨pool, {}⟩ } c ∧
      (∀ i, (c.site.pool.stage i).isOver = true) ∧
      c.accepted.length = 2 ∧ c.begun.length = 1 ∧ c.site.pool.queued = 1 ∧
      (∃ faults, Run Script.body faults { site := ⟨pool, {}⟩ } c) ∧
        ∀ faults, Run Script.body faults { site := ⟨pool, {}⟩ } c → c.Spent Script.body faults := by
  have hpool : Pool.create? 1 "pool" = .ok (Pool.create 1 "pool" : Pool (Script Unit) Unit) := rfl
  obtain ⟨c, hrun, hworkers, hfacts⟩ : ∃ c : Plant (Script Unit) Workshop Unit,
      Relation.ReflTransGen (fun c c' => Step Script.body c c' ∧ c'.Lit)
        { site := ⟨Pool.create 1 "pool", {}⟩ } c ∧
      (∀ worker ∈ c.site.pool.workers, worker.stage.isOver = true) ∧
      c.accepted.length = 2 ∧ c.begun.length = 1 ∧ c.site.pool.queued = 1 := by
    have hcalled := Relation.ReflTransGen.single
      (r := fun c c' => Step (Script.body (ρ := Unit)) c c' ∧ c'.Lit)
      ⟨Step.arrive (c := { site := ⟨Pool.create 1 "pool", {}⟩ })
        (.execute ⟨[], fun _ => .fault (.text "broken")⟩ 0) {}, nofun⟩
    have haccepted := hcalled.tail ⟨.call (i := 0) rfl (.ordinary rfl), nofun⟩
    have hnext := haccepted.tail ⟨.arrive (.execute ⟨[], fun _ => .value ()⟩ 0) {}, nofun⟩
    have hqueued := hnext.tail ⟨.call (i := 1) rfl (.ordinary rfl), nofun⟩
    have hclosing := hqueued.tail ⟨.arrive .finalize {}, nofun⟩
    have hflagged := hclosing.tail ⟨.call (i := 2) rfl (.ordinary rfl), fun _ => rfl⟩
    have hbegun := hflagged.tail ⟨.ordinary 0 rfl, fun _ => rfl⟩
    have hdead := hbegun.tail ⟨.ordinary 0 rfl, fun _ => rfl⟩
    exact ⟨_, hdead, List.forall_mem_singleton.2 rfl, rfl, rfl, rfl⟩
  have hover : ∀ i, (c.site.pool.stage i).isOver = true :=
    Pool.stage_of_workers (P := (·.isOver = true)) hworkers rfl
  exact ⟨_, c, hpool, hrun, hover, hfacts.1, hfacts.2.1, hfacts.2.2, run_spends hpool hrun hover⟩

/-- When the last owner has closed the pool, the task that is left is dropped with the queue, and
its handle hears of it. -/
theorem run_abandons :
    ∃ c : Plant (Script Unit) Workshop Unit,
      Relation.ReflTransGen (fun c c' => Step Script.body c c' ∧ c'.Lit)
        { site := ⟨Pool.create 1 "pool", {}⟩ } c ∧
      c.visits.map (·.errand) = [.execute ⟨[], fun _ => .fault (.text "broken")⟩ 0,
        .submit ⟨[], fun _ => .value ()⟩ 0, .dropOwner, .tryJoin 0] ∧
      c.visits.map (·.answer?) = [some (.ok (.verdict (.ok ()))), some (.ok (.handle 0)),
        some (.ok .done), some (.ok (.outcome (.error .poolShutDown)))] ∧
      (∀ worker ∈ c.site.pool.workers, worker.stage.isOver = true) ∧
      c.accepted.length = 2 ∧ c.begun.length = 1 ∧ c.site.pool.queue.toList = [] := by
  have hcalled := Relation.ReflTransGen.single
    (r := fun c c' => Step (Script.body (ρ := Unit)) c c' ∧ c'.Lit)
    ⟨Step.arrive (c := { site := ⟨Pool.create 1 "pool", {}⟩ })
      (.execute ⟨[], fun _ => .fault (.text "broken")⟩ 0) {}, nofun⟩
  have haccepted := hcalled.tail ⟨.call (i := 0) rfl (.ordinary rfl), nofun⟩
  have hsubmitting := haccepted.tail ⟨.arrive (.submit ⟨[], fun _ => .value ()⟩ 0) {}, nofun⟩
  have hopened := hsubmitting.tail ⟨.call (i := 1) rfl (.ordinary rfl), nofun⟩
  have hqueued := hopened.tail ⟨.call (i := 1) rfl (.ordinary rfl), nofun⟩
  have hdropping := hqueued.tail ⟨.arrive .dropOwner {}, nofun⟩
  have hlast := hdropping.tail ⟨.call (i := 2) rfl (.ordinary rfl), nofun⟩
  have hflagged := hlast.tail ⟨.call (i := 2) rfl (.ordinary rfl), fun _ => rfl⟩
  have hannounced := hflagged.tail ⟨.call (i := 2) rfl (.ordinary rfl), fun _ => rfl⟩
  have htaken := hannounced.tail ⟨.call (i := 2) rfl (.ordinary rfl), fun _ => rfl⟩
  have hbegun := htaken.tail ⟨.ordinary 0 rfl, fun _ => rfl⟩
  have hdead := hbegun.tail ⟨.ordinary 0 rfl, fun _ => rfl⟩
  have hjoined := hdead.tail ⟨.call (i := 2) rfl (.ordinary rfl), fun _ => rfl⟩
  have hnamed := hjoined.tail ⟨.call (i := 2) rfl (.ordinary rfl), fun _ => rfl⟩
  have hreported := hnamed.tail ⟨.call (i := 2) rfl (.ordinary rfl), fun _ => rfl⟩
  have hreleased := hreported.tail ⟨.call (i := 2) rfl (.ordinary rfl), fun _ => rfl⟩
  have hasking := hreleased.tail ⟨.arrive (.tryJoin 0) {}, fun _ => rfl⟩
  have htold := hasking.tail ⟨.call (i := 3) rfl (.ordinary rfl), fun _ => rfl⟩
  exact ⟨_, htold, rfl, rfl, List.forall_mem_singleton.2 rfl, rfl, rfl, rfl⟩

end Plant

end MarkSweep
