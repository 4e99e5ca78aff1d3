import MarkSweep.Proofs.Acceptance
import MarkSweep.Proofs.Pool.Turnover

namespace MarkSweep

variable {β ε ρ : Type}

/-- Whoever is at a task that answers to the same audience is at a task. -/
theorem Stage.underway?_isSome_of_audience?_eq {before after : Stage β}
    (hsame : after.audience? = before.audience?) (hbefore : before.underway?.isSome = true) :
    after.underway?.isSome = true := by
  have hisSome := congrArg Option.isSome hsame
  rw [audience?, audience?, Option.isSome_map, Option.isSome_map] at hisSome
  exact hisSome.trans hbefore

/-- Only a call of `signalWork` or one that closes the pool sets the work flag. -/
theorem Pool.Moves.opens {errand : Errand β} {k k' : Standing ρ} {t t' : Thread}
    {pool pool' : Pool β ρ} (hmoves : Moves errand k t pool k' t' pool')
    (hbefore : pool.workEnabled = false) (hafter : pool'.workEnabled = true) :
    errand = .signalWork ∨ errand.closes = true := by
  have hkept : pool'.workEnabled = pool.workEnabled →
      errand = .signalWork ∨ errand.closes = true := by
    intro hsame
    rw [hsame, hbefore] at hafter
    cases hafter
  cases hmoves with
  | enableWork herrand => exact .inl herrand
  | beginShutdown hcloses => exact .inr hcloses
  | disableWork => cases hafter
  | wakeOne choice => exact hkept (congrArg Gauge.enabled (gauge_wakeOne pool choice))
  | release =>
    obtain hsame | ⟨-, board, hcollapse⟩ := collapse_eq { pool with released := true }
    · exact hkept (by rw [Pool.release, hsame])
    · exact hkept (by rw [Pool.release, hcollapse])
  | _ => exact hkept rfl

/-- The flag is clear, and every worker that is not over is parked or has yet to look at the queue
for the first time since it was started or woken. -/
structure Pool.Shut (pool : Pool β ρ) : Prop where
  disabled : pool.workEnabled = false
  idle : ∀ i, (pool.stage i).isOver = true ∨ pool.stage i = .parked ∨ pool.stage i = .awake false

namespace Pool.Shut

variable {pool pool' : Pool β ρ} (hshut : pool.Shut)
include hshut

/-- Whatever wakes workers, the gate stays shut as long as the flag is clear. -/
theorem tended (htended : pool.Tended pool') (hdisabled : pool'.workEnabled = false) :
    pool'.Shut := by
  refine ⟨hdisabled, fun i => ?_⟩
  obtain hsame | ⟨-, hawake⟩ := htended.stage i
  · rw [hsame]
    exact hshut.idle i
  · exact .inr (.inr hawake)

end Pool.Shut

/-- Whoever can take a step while the gate is shut looks at the queue, and takes nothing. -/
theorem Worksite.shut_workerStep {B : Body β ε ρ} {choice : Choice} {i : Nat}
    {s s' : Worksite β ε ρ} (hshut : s.pool.Shut) (hstep : s.workerStep B choice i = some s') :
    (s'.pool.stage i).underway? = none ∧ s'.pool.Shut := by
  have hdeed := workerStep_deed hstep
  have hawake : s.pool.stage i = .awake false := by
    obtain hover | hparked | hawake := hshut.idle i
    · rw [hdeed.active] at hover
      cases hover
    · exact absurd hparked (stage_ne_parked_of_workerStep hstep)
    · exact hawake
  obtain ⟨hmay, -⟩ | ⟨-, hafter, habandons⟩ := workerStep_look hstep hawake
  · rw [hshut.disabled] at hmay
    cases hmay
  · have hpauses : s'.pool.stage i = .parked ∨ s'.pool.stage i = .exited := by
      split at hafter
      · exact .inr hafter
      · exact .inl hafter
    have hdisabled : s'.pool.workEnabled = false := by
      rw [← hshut.disabled]
      obtain hgauge | hgauge := habandons.gauge_eq <;> exact congrArg Gauge.enabled hgauge
    refine ⟨by obtain h | h := hpauses <;> rw [h] <;> rfl, hdisabled, fun j => ?_⟩
    by_cases hj : j = i
    · subst hj
      obtain h | h := hpauses <;> rw [h]
      · exact .inr (.inl rfl)
      · exact .inl rfl
    · obtain hsame | ⟨-, hwoken⟩ := hdeed.others j hj
      · rw [hsame]
        exact hshut.idle j
      · exact .inr (.inr hwoken)

namespace Plant

/-- Worker `i` begins a task between two moments. -/
def Begins (i : Nat) (c c' : Plant β ε ρ) : Prop :=
  (c.site.pool.stage i).begun (c'.site.pool.stage i) ≠ []

/-- Worker `i` completes a task between two moments. -/
def Completes (i : Nat) (c c' : Plant β ε ρ) : Prop :=
  (c.site.pool.stage i).hasEnded (c'.site.pool.stage i) = true

/-- Worker `i` looks at the queue between two moments and takes nothing. -/
def Pauses (i : Nat) (c c' : Plant β ε ρ) : Prop :=
  (∃ draining, c.site.pool.stage i = .awake draining) ∧
    (c'.site.pool.stage i = .parked ∨ c'.site.pool.stage i = .exited)

/-- Worker `i` finds the queue empty between two moments. -/
def FindsEmpty (i : Nat) (c c' : Plant β ε ρ) : Prop :=
  Pauses i c c' ∧ c.site.pool.queue.toList = []

/-- A client lets everybody take tasks: with `signalWork`, or because it closes the pool. -/
def Opens (c c' : Plant β ε ρ) : Prop :=
  c.site.pool.workEnabled = false ∧ c'.site.pool.workEnabled = true ∧
    ∃ (i : Nat) (visit visit' : Visit (Pool.Errand β) (Worksite β ε ρ) (Pool.Answer ρ)),
      c.visits[i]? = some visit ∧ visit.Step c.site visit' c'.site ∧
        (visit.errand = .signalWork ∨ visit.errand.closes = true)

/-- The moments of a course of events. -/
structure Course (B : Body β ε ρ) (start : Plant β ε ρ) (course : Nat → Plant β ε ρ) (n : Nat) :
    Prop where
  start : course 0 = start
  step : ∀ k < n, Step B (course k) (course (k + 1))

/-- Worker `i` has completed a task before moment `k` and has not found the queue empty since. -/
def Drains (course : Nat → Plant β ε ρ) (k i : Nat) : Prop :=
  ∃ j < k, Completes i (course j) (course (j + 1)) ∧
    ∀ m, j < m → m < k → ¬FindsEmpty i (course m) (course (m + 1))

/-- Tasks are taken through the gate only. -/
structure Gated (course : Nat → Plant β ε ρ) (n : Nat) : Prop where
  /-- A worker takes a task only if the flag is set at that moment or it is draining. -/
  takes : ∀ k < n, ∀ i, Begins i (course k) (course (k + 1)) →
    (course k).site.pool.workEnabled = true ∨ Drains course k i
  /-- A worker that has completed no task since it was started or was parked takes none while the
  flag is clear. -/
  waits : ∀ k < n, ∀ i m, m ≤ k → (m = 0 ∨ (course m).site.pool.stage i = .parked) →
    (∀ j, m ≤ j → j < k → ¬Completes i (course j) (course (j + 1))) →
      (course k).site.pool.workEnabled = false → ¬Begins i (course k) (course (k + 1))
  /-- A draining worker that looks at the queue takes the foremost task, if there is one. -/
  goesOn : ∀ k < n, ∀ i, Drains course k i → (∃ draining,
      (course k).site.pool.stage i = .awake draining) →
    ∀ task queue, (course k).site.pool.queue.toList = task :: queue →
      (course (k + 1)).site.pool.stage i = (course k).site.pool.stage i ∨
        (course (k + 1)).site.pool.stage i = .running task
  /-- A draining worker pauses only when the queue is empty and all accepted tasks have begun. -/
  drains : ∀ k < n, ∀ i, Drains course k i → Pauses i (course k) (course (k + 1)) →
    (course k).site.pool.queue.toList = [] ∧
      (course k).accepted.map (·.2) = (course k).begun
  /-- Once the gate is shut no task begins until a client opens it. -/
  shut : ∀ k m, k ≤ m → m ≤ n → (course k).site.pool.Shut → (course m).begun = (course k).begun ∨
    ∃ j, k ≤ j ∧ j < m ∧ (course j).begun = (course k).begun ∧ Opens (course j) (course (j + 1))

variable {B : Body β ε ρ} {c c' start : Plant β ε ρ} {stands : Nat → Pool.Standing ρ} {i : Nat}

/-- What becomes of worker `i` in one step of anybody. -/
inductive Motion (i : Nat) (c c' : Plant β ε ρ) : Prop
  | stays (hsame : c'.site.pool.stage i = c.site.pool.stage i)
  | wakes (hbefore : c.site.pool.stage i = .parked) (hafter : c'.site.pool.stage i = .awake false)
  | takes {draining : Bool} {task : Task β} {queue : List (Task β)}
      (hbefore : c.site.pool.stage i = .awake draining)
      (hmay : (c.site.pool.workEnabled || draining) = true)
      (hqueue : c.site.pool.queue.toList = task :: queue)
      (hafter : c'.site.pool.stage i = .running task)
  | pauses {draining : Bool} (hbefore : c.site.pool.stage i = .awake draining)
      (hnone : (c.site.pool.workEnabled || draining) = true → c.site.pool.queue.toList = [])
      (hafter : c'.site.pool.stage i = .parked ∨ c'.site.pool.stage i = .exited)
  | goes (hbefore : (c.site.pool.stage i).underway?.isSome = true)
      (hafter : (c'.site.pool.stage i).underway?.isSome = true)
  | ends (hbefore : (c.site.pool.stage i).underway?.isSome = true)
      (hafter : c'.site.pool.stage i = .awake true ∨
        (∃ group, c'.site.pool.stage i = .leaving group) ∨ c'.site.pool.stage i = .dead)
  | leaves {group : GroupId} (hbefore : c.site.pool.stage i = .leaving group)
      (hafter : c'.site.pool.stage i = .awake true)

/-- What a worker does that does not look at the queue. -/
theorem motion_of_shift {outcome? : Option (Outcome ρ)}
    (hshift : Pool.Shift i outcome? c.site.pool c'.site.pool)
    (hbusy : ∀ draining, c.site.pool.stage i ≠ .awake draining) : Motion i c c' := by
  cases hshift with
  | take hbefore | park hbefore | exit hbefore => exact absurd hbefore (hbusy _)
  | conclude hbefore _ _ hends _ hafter =>
    refine .ends (by rw [hbefore]; rfl) ?_
    rw [hafter, Function.update_self]
    exact hends.elim .inl fun hleaving => .inr (.inl hleaving)
  | die hbefore _ _ _ _ hafter =>
    refine .ends (by rw [hbefore]; rfl) (.inr (.inr ?_))
    rw [hafter, Function.update_self]
  | leave hbefore _ hafter =>
    refine .leaves hbefore ?_
    rw [hafter, Function.update_self]
  | go hbefore _ hsame _ _ hafter =>
    rw [Stage.audience?, Option.isSome_map] at hbefore
    refine .goes hbefore ?_
    rw [hafter, Function.update_self]
    exact Stage.underway?_isSome_of_audience?_eq hsame hbefore
  | push hbefore _ _ _ hafter =>
    refine .goes (by rw [hbefore]; rfl) ?_
    rw [hafter, Function.update_self]
    split <;> rfl
  | enableWork hbefore _ _ hafter | disableWork hbefore _ _ hafter
  | beginShutdown hbefore _ hafter =>
    refine .goes (by rw [hbefore]; rfl) ?_
    rw [hafter, Function.update_self]
    rfl
  | wakeOne hbefore _ hafter =>
    refine .goes (by rw [hbefore]; rfl) ?_
    obtain ⟨j, hne, -, hafter⟩ | ⟨-, hafter⟩ := hafter
    · rw [hafter, Function.update_of_ne hne, Function.update_self]
      rfl
    · rw [hafter, Function.update_self]
      rfl
  | wakeAll _ _ hunderway hsame _ hafter =>
    rw [Stage.audience?, Option.isSome_map] at hunderway
    refine .goes (Stage.underway?_isSome_of_audience?_eq hsame.symm hunderway) ?_
    rw [hafter, Function.update_self]
    exact hunderway

/-- A call or a wake-up makes no worker begin or drain. -/
theorem motion_of_tended (htended : Pool.Tended c.site.pool c'.site.pool) : Motion i c c' := by
  obtain hsame | ⟨hparked, hawake⟩ := htended.stage i
  · exact .stays hsame
  · exact .wakes hparked hawake

/-- Each step of anybody moves each worker in one of these ways. -/
theorem Step.motion (hkeeps : c.Disciplined stands) (hstep : Step B c c') (i : Nat) :
    Motion i c c' := by
  cases hstep with
  | arrive | others => exact .stays rfl
  | call hget hstep =>
    obtain ⟨k, hmoves, -⟩ := hkeeps.call hget hstep
    exact motion_of_tended hmoves.tended
  | rouse j => exact motion_of_tended (Pool.tended_modify c.site.pool j)
  | @work choice j site hstep =>
    obtain ⟨hsite, -, -, -⟩ :=
      record_eq (c.advance (.worker j) site) j (c.site.pool.stage j) (site.pool.stage j)
    generalize (c.advance (.worker j) site).record j (c.site.pool.stage j) (site.pool.stage j) = c'
      at hsite
    obtain rfl : c'.site = site := hsite
    by_cases hi : i = j
    · subst hi
      by_cases hawake : ∃ draining, c.site.pool.stage i = .awake draining
      · obtain ⟨draining, hbefore⟩ := hawake
        obtain ⟨hmay, task, queue, hqueue, hafter⟩ | ⟨hnone, hafter, -⟩ :=
          Worksite.workerStep_look hstep hbefore
        · exact .takes hbefore hmay hqueue hafter
        · refine .pauses hbefore hnone ?_
          split at hafter
          · exact .inr hafter
          · exact .inl hafter
      · exact motion_of_shift (Worksite.workerStep_shift hstep) (not_exists.1 hawake)
    · obtain hsame | ⟨hparked, hafter⟩ := (Worksite.workerStep_deed hstep).others i hi
      · exact .stays hsame
      · exact .wakes hparked hafter

/-- Between two tasks: the worker has completed one and will look for the next. -/
def Between (i : Nat) (c : Plant β ε ρ) : Prop :=
  c.site.pool.stage i = .awake true ∨ ∃ group, c.site.pool.stage i = .leaving group

/-- The worker has come through the gate: it is not about to look at the queue for the first time
since it was started or woken, and it does not pause. -/
def Inside (i : Nat) (c : Plant β ε ρ) : Prop :=
  c.site.pool.stage i ≠ .awake false ∧ c.site.pool.stage i ≠ .parked ∧
    c.site.pool.stage i ≠ .exited

namespace Motion

variable (hmotion : Motion i c c')
include hmotion

/-- Whoever begins a task takes the foremost one and may do so. -/
theorem of_begins (hbegins : Begins i c c') : ∃ draining,
    c.site.pool.stage i = .awake draining ∧ (c.site.pool.workEnabled || draining) = true := by
  unfold Begins Stage.begun at hbegins
  cases hmotion with
  | takes hbefore hmay => exact ⟨_, hbefore, hmay⟩
  | stays hsame =>
    rw [hsame] at hbegins
    cases hunderway : (c.site.pool.stage i).underway? <;> rw [hunderway] at hbegins <;>
      exact absurd rfl hbegins
  | wakes _ hafter | leaves _ hafter =>
    rw [hafter] at hbegins
    exact absurd (by split <;> trivial) hbegins
  | pauses _ _ hafter =>
    obtain hafter | hafter := hafter <;> rw [hafter] at hbegins <;>
      exact absurd (by split <;> trivial) hbegins
  | goes hbefore | ends hbefore =>
    obtain ⟨task, hbefore⟩ := Option.isSome_iff_exists.1 hbefore
    rw [hbefore] at hbegins
    exact absurd rfl hbegins

/-- A worker that looks for its next task takes the foremost one if there is any. -/
theorem of_draining (hawake : c.site.pool.stage i = .awake true) :
    c'.site.pool.stage i = c.site.pool.stage i ∨
      (∃ task queue, c.site.pool.queue.toList = task :: queue ∧
        c'.site.pool.stage i = .running task) ∨
      c.site.pool.queue.toList = [] ∧
        (c'.site.pool.stage i = .parked ∨ c'.site.pool.stage i = .exited) := by
  cases hmotion with
  | stays hsame => exact .inl hsame
  | takes _ _ hqueue hafter => exact .inr (.inl ⟨_, _, hqueue, hafter⟩)
  | pauses hbefore hnone hafter =>
    cases hawake.symm.trans hbefore
    exact .inr (.inr ⟨hnone (Bool.or_true _), hafter⟩)
  | goes hbefore | ends hbefore =>
    rw [hawake] at hbefore
    cases hbefore
  | wakes hbefore | leaves hbefore => cases hawake.symm.trans hbefore

/-- A worker that is between two tasks was so before or has just completed one. -/
theorem between (hafter : Between i c') : Between i c ∨ Completes i c c' := by
  have hunderway : (c'.site.pool.stage i).underway? = none := by
    obtain h | ⟨group, h⟩ := hafter <;> rw [h] <;> rfl
  cases hmotion with
  | stays hsame =>
    unfold Between at hafter ⊢
    rw [hsame] at hafter
    exact .inl hafter
  | leaves hbefore => exact .inl (.inr ⟨_, hbefore⟩)
  | goes hbefore | ends hbefore =>
    refine .inr ?_
    rw [Completes, Stage.hasEnded, hbefore, hunderway]
    rfl
  | wakes _ h | takes _ _ _ h =>
    obtain h' | ⟨group, h'⟩ := hafter <;> cases h.symm.trans h'
  | pauses _ _ h =>
    obtain h | h := h <;> obtain h' | ⟨group, h'⟩ := hafter <;> cases h.symm.trans h'

/-- A worker that is through the gate stays so until it finds the queue empty. -/
theorem inside (hbefore : Inside i c) (hnot : ¬FindsEmpty i c c') : Inside i c' := by
  cases hmotion with
  | stays hsame =>
    unfold Inside
    rw [hsame]
    exact hbefore
  | wakes h => exact absurd h hbefore.2.1
  | takes _ _ _ hafter | leaves _ hafter =>
    unfold Inside
    rw [hafter]
    exact ⟨nofun, nofun, nofun⟩
  | @pauses draining hawake hnone hafter =>
    -- Only a draining worker can be through the gate here.
    cases draining with
    | false => exact absurd hawake hbefore.1
    | true => exact absurd ⟨⟨⟨_, hawake⟩, hafter⟩, hnone (Bool.or_true _)⟩ hnot
  | goes _ hafter =>
    refine ⟨?_, ?_, ?_⟩ <;> intro h <;> rw [h] at hafter <;> cases hafter
  | ends _ hafter =>
    unfold Inside
    obtain hafter | ⟨group, hafter⟩ | hafter := hafter <;> rw [hafter] <;>
      exact ⟨nofun, nofun, nofun⟩

/-- A worker that has just completed a task is through the gate. -/
theorem inside_of_completes (hcompletes : Completes i c c') : Inside i c' := by
  unfold Completes Stage.hasEnded at hcompletes
  rw [Bool.and_eq_true] at hcompletes
  cases hmotion with
  | ends _ hafter =>
    unfold Inside
    obtain hafter | ⟨group, hafter⟩ | hafter := hafter <;> rw [hafter] <;>
      exact ⟨nofun, nofun, nofun⟩
  | stays hsame =>
    rw [hsame, Option.isNone_iff_eq_none] at hcompletes
    rw [hcompletes.2] at hcompletes
    cases hcompletes.1
  | goes _ hafter =>
    rw [Option.isNone_iff_eq_none] at hcompletes
    rw [hcompletes.2] at hafter
    cases hafter
  | wakes hbefore | takes hbefore | pauses hbefore | leaves hbefore =>
    rw [hbefore] at hcompletes
    cases hcompletes.1

end Motion

/-- A step leaves the gate shut and begins nothing, unless a client opens the gate. -/
theorem shut_step (hshut : c.site.pool.Shut) (hkeeps : c.Disciplined stands)
    (hstep : Step B c c') : c'.site.pool.Shut ∧ c'.begun = c.begun ∨ Opens c c' := by
  cases hstep with
  | arrive | others => exact .inl ⟨hshut, rfl⟩
  | rouse j => exact .inl ⟨hshut.tended (Pool.tended_modify c.site.pool j) hshut.disabled, rfl⟩
  | @call j visit visit' site hget hstep =>
    obtain ⟨k, hmoves, -⟩ := hkeeps.call hget hstep
    cases hflag : site.pool.workEnabled with
    | false => exact .inl ⟨hshut.tended hmoves.tended hflag, rfl⟩
    | true =>
      exact .inr ⟨hshut.disabled, hflag, j, visit, visit', hget, hstep,
        hmoves.opens hshut.disabled hflag⟩
  | @work choice j site hstep =>
    obtain ⟨hsite, -, -, hbegun⟩ :=
      record_eq (c.advance (.worker j) site) j (c.site.pool.stage j) (site.pool.stage j)
    obtain ⟨hafter, hshut'⟩ := Worksite.shut_workerStep hshut hstep
    rw [Stage.begun_of_underway?_eq_none hafter, List.append_nil] at hbegun
    exact .inl ⟨hsite ▸ hshut', hbegun⟩

section Course

variable {course : Nat → Plant β ε ρ} {n k : Nat}

/-- A worker that is between two tasks has completed one, and did nothing else since. -/
theorem exists_completes_of_between
    (hmotion : ∀ k < n, Motion i (course k) (course (k + 1))) (hstart : ¬Between i (course 0))
    (hk : k ≤ n) (hbetween : Between i (course k)) :
    ∃ j < k, Completes i (course j) (course (j + 1)) ∧
      ∀ m, j < m → m ≤ k → Between i (course m) := by
  induction k with
  | zero => exact absurd hbetween hstart
  | succ k ih =>
    obtain hbefore | hcompletes := (hmotion k hk).between hbetween
    · obtain ⟨j, hj, hcompletes, hsince⟩ := ih (by omega) hbefore
      refine ⟨j, by omega, hcompletes, fun m hm hle => ?_⟩
      obtain hlt | rfl := Nat.lt_or_eq_of_le hle
      · exact hsince m hm (by omega)
      · exact hbetween
    · refine ⟨k, by omega, hcompletes, fun m hm hle => ?_⟩
      obtain rfl : m = k + 1 := by omega
      exact hbetween

/-- A worker that is between two looks at the queue drains it. -/
theorem drains_of_between (hmotion : ∀ k < n, Motion i (course k) (course (k + 1)))
    (hstart : ¬Between i (course 0)) (hk : k ≤ n) (hbetween : Between i (course k)) :
    Drains course k i := by
  obtain ⟨j, hj, hcompletes, hsince⟩ := exists_completes_of_between hmotion hstart hk hbetween
  refine ⟨j, hj, hcompletes, ?_⟩
  rintro m hm hlt ⟨⟨-, hpauses⟩, -⟩
  obtain hparked | hexited := hpauses <;>
    obtain h | ⟨group, h⟩ := hsince (m + 1) (by omega) (by omega)
  · cases hparked.symm.trans h
  · cases hparked.symm.trans h
  · cases hexited.symm.trans h
  · cases hexited.symm.trans h

/-- A draining worker is through the gate. -/
theorem inside_of_drains (hmotion : ∀ k < n, Motion i (course k) (course (k + 1))) (hk : k ≤ n)
    (hdrains : Drains course k i) : Inside i (course k) := by
  obtain ⟨j, hj, hcompletes, hsince⟩ := hdrains
  suffices hinside : ∀ m, j + 1 ≤ m → m ≤ k → Inside i (course m) from hinside k hj le_rfl
  intro m hm
  induction m, hm using Nat.le_induction with
  | base => exact fun _ => (hmotion j (by omega)).inside_of_completes hcompletes
  | succ m hm ih =>
    intro hle
    exact (hmotion m (by omega)).inside (ih (by omega)) (hsince m (by omega) (by omega))

/-- A draining worker looks at the queue whatever the flag says. -/
theorem eq_true_of_drains (hmotion : ∀ k < n, Motion i (course k) (course (k + 1))) (hk : k ≤ n)
    (hdrains : Drains course k i) {draining : Bool}
    (hawake : (course k).site.pool.stage i = .awake draining) : draining = true := by
  cases draining with
  | true => rfl
  | false => exact absurd hawake (inside_of_drains hmotion hk hdrains).1

end Course

/-- Whatever happens in a course of events, the calls keep their discipline and the history is in
order. -/
theorem Course.ordered {workers : Nat} {name : String} {pool : Pool β ρ} {env : ε}
    (hpool : Pool.create? workers name = .ok pool) {course : Nat → Plant β ε ρ} {n : Nat}
    (hcourse : Course B { site := ⟨pool, env⟩ } course n) {k : Nat} (hk : k ≤ n) :
    ∃ stands, (course k).Disciplined stands ∧ Ordered B (course k) stands := by
  refine run_induction (P := Ordered B) Ordered.step disciplined_nil (Ordered.start hpool env) ?_
  induction k with
  | zero => exact hcourse.start ▸ .refl
  | succ k ih => exact (ih (by omega)).tail (hcourse.step k hk)

/-- From where the gate is shut on, it stays so and no task begins until a client opens it. -/
theorem Course.shut {workers : Nat} {name : String} {pool : Pool β ρ} {env : ε}
    (hpool : Pool.create? workers name = .ok pool) {course : Nat → Plant β ε ρ} {n : Nat}
    (hcourse : Course B { site := ⟨pool, env⟩ } course n) {k m : Nat}
    (hshut : (course k).site.pool.Shut) (hkm : k ≤ m) (hm : m ≤ n) :
    ((course m).site.pool.Shut ∧ (course m).begun = (course k).begun) ∨
      ∃ j, k ≤ j ∧ j < m ∧ (course j).begun = (course k).begun ∧
        Opens (course j) (course (j + 1)) := by
  induction m, hkm using Nat.le_induction with
  | base => exact .inl ⟨hshut, rfl⟩
  | succ m hkm ih =>
    obtain ⟨hstays, hsame⟩ | ⟨j, hkj, hjm, hopens⟩ := ih (by omega)
    · obtain ⟨stands, hkeeps, -⟩ := hcourse.ordered hpool (Nat.le_of_succ_le hm)
      obtain ⟨hnext, hbegun⟩ | hopens := shut_step hstays hkeeps (hcourse.step m hm)
      · exact .inl ⟨hnext, hbegun.trans hsame⟩
      · exact .inr ⟨m, hkm, by omega, hsame, hopens⟩
    · exact .inr ⟨j, hkj, by omega, hopens⟩

/-- In every course of events on a new pool, tasks are taken through the gate only. -/
theorem run_gates {workers : Nat} {name : String} {pool : Pool β ρ} {env : ε}
    (hpool : Pool.create? workers name = .ok pool) {course : Nat → Plant β ε ρ} {n : Nat}
    (hcourse : Course B { site := ⟨pool, env⟩ } course n) : Gated course n := by
  have hmotion : ∀ k < n, ∀ i, Motion i (course k) (course (k + 1)) := by
    intro k hk i
    obtain ⟨stands, hkeeps, -⟩ := hcourse.ordered hpool hk.le
    exact (hcourse.step k hk).motion hkeeps i
  have hstart : ∀ i, ¬Between i (course 0) := by
    intro i hbetween
    rw [hcourse.start, Pool.eq_create hpool] at hbetween
    obtain hawake | hexited := stage_create (β := β) (ρ := ρ) workers name i <;>
      obtain h | ⟨group, h⟩ := hbetween
    · cases hawake.symm.trans h
    · cases hawake.symm.trans h
    · cases hexited.symm.trans h
    · cases hexited.symm.trans h
  constructor
  case takes =>
    intro k hk i hbegins
    obtain ⟨draining, hawake, hmay⟩ := (hmotion k hk i).of_begins hbegins
    cases draining with
    | false =>
      rw [Bool.or_false] at hmay
      exact .inl hmay
    | true =>
      exact .inr (drains_of_between (hmotion · · i) (hstart i) hk.le (.inl hawake))
  case waits =>
    intro k hk i m hm hsettled hnone hdisabled hbegins
    obtain ⟨draining, hawake, hmay⟩ := (hmotion k hk i).of_begins hbegins
    rw [hdisabled, Bool.false_or] at hmay
    rw [hmay] at hawake
    obtain ⟨j, hj, hcompletes, hsince⟩ := exists_completes_of_between
      (hmotion · · i) (hstart i) hk.le (.inl hawake)
    obtain hlt | hge := Nat.lt_or_ge j m
    · obtain rfl | hparked := hsettled
      · omega
      · obtain h | ⟨group, h⟩ := hsince m hlt hm <;> cases hparked.symm.trans h
    · exact hnone j hge hj hcompletes
  case goesOn =>
    rintro k hk i hdrains ⟨draining, hawake⟩ task queue hqueue
    obtain rfl := eq_true_of_drains (hmotion · · i) hk.le hdrains hawake
    obtain hsame | ⟨task', queue', hqueue', hafter⟩ | ⟨hempty, -⟩ :=
      (hmotion k hk i).of_draining hawake
    · exact .inl hsame
    · rw [hqueue] at hqueue'
      cases hqueue'
      exact .inr hafter
    · rw [hqueue] at hempty
      cases hempty
  case drains =>
    rintro k hk i hdrains ⟨⟨draining, hawake⟩, hpauses⟩
    obtain rfl := eq_true_of_drains (hmotion · · i) hk.le hdrains hawake
    have hempty : (course k).site.pool.queue.toList = [] := by
      obtain hsame | ⟨task, queue, -, hafter⟩ | ⟨hempty, -⟩ := (hmotion k hk i).of_draining hawake
      · rw [hsame, hawake] at hpauses
        obtain h | h := hpauses <;> cases h
      · rw [hafter] at hpauses
        obtain h | h := hpauses <;> cases h
      · exact hempty
    obtain ⟨stands, -, hordered⟩ := hcourse.ordered hpool hk.le
    refine ⟨hempty, (hordered.begun_eq (fun hdeserted => ?_) hempty).symm⟩
    have hover := hdeserted.2 i
    rw [hawake] at hover
    cases hover
  case shut =>
    intro k m hkm hm hshut
    exact (hcourse.shut hpool hshut hkm hm).imp_left And.right

/-- The moments of a course of events can be counted. -/
theorem exists_course (hrun : Relation.ReflTransGen (Step B) c c') :
    ∃ course n, Course B c course n ∧ course n = c' := by
  induction hrun using Relation.ReflTransGen.head_induction_on with
  | refl => exact ⟨fun _ => c', 0, ⟨rfl, fun k hk => absurd hk k.not_lt_zero⟩, rfl⟩
  | @head c c₁ hstep _ ih =>
    obtain ⟨course, n, hcourse, hend⟩ := ih
    refine ⟨fun k => Nat.casesOn k c course, n + 1, ⟨rfl, fun k hk => ?_⟩, hend⟩
    cases k with
    | zero =>
      change Step B c (course 0)
      rw [hcourse.start]
      exact hstep
    | succ k => exact hcourse.step k (by omega)

/-- A worker that had begun a task goes on to the next one although the flag was cleared
meanwhile. -/
theorem run_gates_cleared :
    ∃ (pool : Pool (Script Unit) Unit) (course : Nat → Plant (Script Unit) Workshop Unit) (n : Nat),
      Pool.create? 1 "pool" = .ok pool ∧
      Course Script.body { site := ⟨pool, {}⟩ } course n ∧
      (course n).begun.length = 2 ∧ (course n).site.pool.workEnabled = false ∧ Gated course n := by
  have hpool : Pool.create? 1 "pool" = .ok (Pool.create 1 "pool" : Pool (Script Unit) Unit) := rfl
  obtain ⟨c, hrun, hbegun, hdisabled⟩ : ∃ c : Plant (Script Unit) Workshop Unit,
      Relation.ReflTransGen (Step Script.body) { site := ⟨Pool.create 1 "pool", {}⟩ } c ∧
      c.begun.length = 2 ∧ c.site.pool.workEnabled = false := by
    have hcalled := Relation.ReflTransGen.single (Step.arrive (B := Script.body (ρ := Unit))
      (c := { site := ⟨Pool.create 1 "pool", {}⟩ }) (.execute ⟨[], fun _ => .value ()⟩ 0) {})
    have hqueued := hcalled.tail (.call (i := 0) rfl (.ordinary rfl))
    have hagain := hqueued.tail (.arrive (.execute ⟨[], fun _ => .value ()⟩ 0) {})
    have hnext := hagain.tail (.call (i := 1) rfl (.ordinary rfl))
    have henabling := hnext.tail (.arrive .signalWork {})
    have henabled := henabling.tail (.call (i := 2) rfl (.ordinary rfl))
    have hbegun := henabled.tail (.ordinary 0 rfl)
    have hclearing := hbegun.tail (.arrive .signalWait {})
    have hcleared := hclearing.tail (.call (i := 3) rfl (.ordinary rfl))
    have hended := hcleared.tail (.ordinary 0 rfl)
    have hdrained := hended.tail (.ordinary 0 rfl)
    exact ⟨_, hdrained, rfl, rfl⟩
  obtain ⟨course, n, hcourse, rfl⟩ := exists_course hrun
  exact ⟨_, course, n, hpool, hcourse, hbegun, hdisabled, run_gates hpool hcourse⟩

end Plant

end MarkSweep
