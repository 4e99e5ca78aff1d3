import MarkSweep.Proofs.Pool.Plant
import MarkSweep.Proofs.Pool.Shifts

namespace MarkSweep

variable {β ε ρ : Type}

/-- Whoever was at a task before as after has begun none. -/
theorem Stage.begun_of_isSome_eq {before after : Stage β}
    (hsame : after.underway?.isSome = before.underway?.isSome) : before.begun after = [] := by
  unfold begun
  split
  · next hbefore hafter =>
    rw [hbefore, hafter] at hsame
    cases hsame
  · rfl

/-- What becomes of the task of a worker that goes from one stage to another. -/
inductive Stage.Turnover (outcome? : Option (Outcome ρ)) (before after : Stage β) : Prop
  | begins {draining : Bool} {task : Task β} (hbefore : before = .awake draining)
      (hafter : after = .running task)
  | goes (hbefore : before.underway?.isSome = true) (hsame : after.audience? = before.audience?)
  | ends {task : Task β} {outcome : Outcome ρ} (hbefore : before = .running task)
      (houtcome : outcome? = some outcome) (hafter : after.underway? = none)
      (hdead : after = .dead ↔ task.audience = .nobody ∧ outcome.isFault = true)
  | rests (hbefore : before.underway? = none ∧ before ≠ .dead)
      (hafter : after.underway? = none ∧ after ≠ .dead)

namespace Pool

variable {pool pool' : Pool β ρ} {i : Nat} {outcome? : Option (Outcome ρ)}

/-- Every step of a worker begins a task, goes on with it, ends it, or has to do with none. -/
theorem Shift.turnover (hshift : Shift i outcome? pool pool') :
    Stage.Turnover outcome? (pool.stage i) (pool'.stage i) := by
  cases hshift with
  | take hbefore _ _ hafter =>
    rw [hafter, Function.update_self]
    exact .begins hbefore rfl
  | park hbefore _ _ _ hafter =>
    rw [hafter, Function.update_self, hbefore]
    exact .rests ⟨rfl, nofun⟩ ⟨rfl, nofun⟩
  | exit hbefore _ _ _ hafter =>
    rw [hafter, Function.update_self, hbefore]
    exact .rests ⟨rfl, nofun⟩ ⟨rfl, nofun⟩
  | go hbefore _ hsame _ _ hafter =>
    rw [hafter, Function.update_self]
    exact .goes (by rwa [Stage.audience?, Option.isSome_map] at hbefore) hsame
  | push hbefore hsame _ _ hafter =>
    rw [hafter, Function.update_self, hbefore]
    refine .goes rfl ?_
    split <;> exact congrArg some hsame
  | enableWork hbefore hsame _ hafter =>
    rw [hafter, Function.update_self, hbefore]
    exact .goes rfl (congrArg some hsame)
  | disableWork hbefore hsame _ hafter =>
    rw [hafter, Function.update_self, hbefore]
    exact .goes rfl (congrArg some hsame)
  | beginShutdown hbefore _ hafter =>
    rw [hafter, Function.update_self, hbefore]
    exact .goes rfl rfl
  | wakeOne hbefore _ hafter =>
    obtain ⟨j, hne, -, hafter⟩ | ⟨-, hafter⟩ := hafter
    · rw [hafter, Function.update_of_ne hne, Function.update_self, hbefore]
      exact .goes rfl rfl
    · rw [hafter, Function.update_self, hbefore]
      exact .goes rfl rfl
  | wakeAll hbefore _ hunderway hsame _ hafter =>
    rw [hafter, Function.update_self]
    refine .goes ?_ hsame
    rw [hsame, Stage.audience?, Option.isSome_map] at hunderway
    exact hunderway
  | conclude hbefore houtcome halive hends _ hafter =>
    rw [hafter, Function.update_self]
    obtain rfl | ⟨group, rfl⟩ := hends
    · exact .ends hbefore houtcome rfl (iff_of_false nofun halive)
    · exact .ends hbefore houtcome rfl (iff_of_false nofun halive)
  | die hbefore houtcome hnobody hfault _ hafter =>
    rw [hafter, Function.update_self]
    exact .ends hbefore houtcome rfl (iff_of_true rfl ⟨hnobody, hfault⟩)
  | leave hbefore _ hafter =>
    rw [hafter, Function.update_self, hbefore]
    exact .rests ⟨rfl, nofun⟩ ⟨rfl, nofun⟩

end Pool

namespace Plant

variable {B : Body β ε ρ} {c c' : Plant β ε ρ}

section Record

variable {i : Nat} {before after : Stage β}

theorem post_record_of_begins {task : Task β} (hbefore : before.underway? = none)
    (hafter : after.underway? = some task) :
    (c.record i before after).post = Function.update c.post i c.begun.length := by
  unfold record Stage.begun
  rw [hbefore, hafter]

theorem post_record_of_ends (hbefore : before.underway?.isSome = true)
    (hafter : after.underway? = none) :
    (c.record i before after).post = Function.update c.post i none := by
  obtain ⟨task, hbefore⟩ := Option.isSome_iff_exists.1 hbefore
  unfold record Stage.begun Stage.hasEnded
  rw [hbefore, hafter]
  rfl

theorem post_record_of_goes (hsame : after.underway?.isSome = before.underway?.isSome) :
    (c.record i before after).post = c.post := by
  have hnot : before.hasEnded after = false := by
    unfold Stage.hasEnded
    rw [← hsame]
    cases after.underway? <;> rfl
  unfold record
  rw [Stage.begun_of_isSome_eq hsame, hnot]
  rfl

end Record

/-- What the history makes of a step of worker `i`. -/
inductive Recorded (B : Body β ε ρ) (i : Nat) (c c' : Plant β ε ρ) : Prop
  | begins {draining : Bool} {task : Task β} (hbefore : c.site.pool.stage i = .awake draining)
      (hafter : c'.site.pool.stage i = .running task) (hbegun : c'.begun = c.begun ++ [task])
      (hpost : c'.post = Function.update c.post i c.begun.length)
  | goes (hbefore : (c.site.pool.stage i).underway?.isSome = true)
      (hsame : (c'.site.pool.stage i).audience? = (c.site.pool.stage i).audience?)
      (hbegun : c'.begun = c.begun) (hpost : c'.post = c.post)
  | ends {task : Task β} {outcome : Outcome ρ} (hbefore : c.site.pool.stage i = .running task)
      (houtcome : c.site.outcome? B i = some outcome)
      (hafter : (c'.site.pool.stage i).underway? = none)
      (hdead : c'.site.pool.stage i = .dead ↔ task.audience = .nobody ∧ outcome.isFault = true)
      (hbegun : c'.begun = c.begun) (hpost : c'.post = Function.update c.post i none)
  | rests (hbefore : (c.site.pool.stage i).underway? = none ∧ c.site.pool.stage i ≠ .dead)
      (hafter : (c'.site.pool.stage i).underway? = none ∧ c'.site.pool.stage i ≠ .dead)
      (hbegun : c'.begun = c.begun) (hpost : c'.post = c.post)

/-- What was begun stays so. -/
theorem Recorded.begun_append {i : Nat} (hrecorded : Recorded B i c c') :
    ∃ more, c'.begun = c.begun ++ more := by
  cases hrecorded with
  | begins _ _ hbegun _ => exact ⟨_, hbegun⟩
  | goes _ _ hbegun _ => exact ⟨[], hbegun.trans (List.append_nil _).symm⟩
  | ends _ _ _ _ hbegun _ => exact ⟨[], hbegun.trans (List.append_nil _).symm⟩
  | rests _ _ hbegun _ => exact ⟨[], hbegun.trans (List.append_nil _).symm⟩

/-- A step of one worker leaves the others at their tasks. -/
theorem Recorded.post_of_ne {i j : Nat} (hrecorded : Recorded B i c c') (hj : j ≠ i) :
    c'.post j = c.post j := by
  cases hrecorded with
  | begins _ _ _ hpost => rw [hpost, Function.update_of_ne hj]
  | goes _ _ _ hpost => rw [hpost]
  | ends _ _ _ _ _ hpost => rw [hpost, Function.update_of_ne hj]
  | rests _ _ _ hpost => rw [hpost]

/-- The history notes of every step what it is. -/
theorem recorded_work {choice : Choice} {i : Nat} {site : Worksite β ε ρ}
    (hstep : Worksite.workerStep B choice i c.site = some site) :
    Recorded B i c ((c.advance (.worker i) site).record i (c.site.pool.stage i)
      (site.pool.stage i)) := by
  obtain ⟨hadvanced, -, -, hbegun⟩ :=
    record_eq (c.advance (.worker i) site) i (c.site.pool.stage i) (site.pool.stage i)
  have hsite : ((c.advance (.worker i) site).record i (c.site.pool.stage i)
      (site.pool.stage i)).site = site := hadvanced
  have hturn := (Worksite.workerStep_shift hstep).turnover
  cases hturn with
  | begins hbefore hafter =>
    refine .begins hbefore (hsite.symm ▸ hafter) ?_ ?_
    · rw [hbegun, hbefore, hafter]
      rfl
    · exact post_record_of_begins (c := c.advance (.worker i) site) (by rw [hbefore]; rfl)
        (by rw [hafter]; rfl)
  | goes hbefore hsame =>
    have hisSome : (site.pool.stage i).underway?.isSome =
        (c.site.pool.stage i).underway?.isSome := by
      have hisSome := congrArg Option.isSome hsame
      rwa [Stage.audience?, Stage.audience?, Option.isSome_map, Option.isSome_map] at hisSome
    refine .goes hbefore (hsite.symm ▸ hsame) ?_ ?_
    · rw [hbegun, Stage.begun_of_isSome_eq hisSome, List.append_nil]
      rfl
    · exact post_record_of_goes (c := c.advance (.worker i) site) hisSome
  | ends hbefore houtcome hafter hdead =>
    refine .ends hbefore houtcome (hsite.symm ▸ hafter) (hsite.symm ▸ hdead) ?_ ?_
    · rw [hbegun, Stage.begun_of_underway?_eq_none hafter, List.append_nil]
      rfl
    · exact post_record_of_ends (c := c.advance (.worker i) site) (by rw [hbefore]; rfl) hafter
  | rests hbefore hafter =>
    have hisSome : (site.pool.stage i).underway?.isSome =
        (c.site.pool.stage i).underway?.isSome := by rw [hbefore.1, hafter.1]
    refine .rests hbefore (hsite.symm ▸ hafter) ?_ ?_
    · rw [hbegun, Stage.begun_of_isSome_eq hisSome, List.append_nil]
      rfl
    · exact post_record_of_goes (c := c.advance (.worker i) site) hisSome

/-- A task that a worker has left has ended. -/
theorem ended_record (c : Plant β ε ρ) (i : Nat) (before after : Stage β) :
    c.ended ⊆ (c.record i before after).ended ∧
      ∀ j k, c.post j = some k → (c.record i before after).post j = none →
        k ∈ (c.record i before after).ended := by
  have hmoved : ∀ {j k : Nat} {post? : Option Nat}, c.post j = some k →
      Function.update c.post i post? j = none → j = i ∧ post? = none := by
    intro j k post? hk hnone
    by_cases hj : j = i
    · subst hj
      rw [Function.update_self] at hnone
      exact ⟨rfl, hnone⟩
    · rw [Function.update_of_ne hj, hk] at hnone
      cases hnone
  unfold record
  split
  · refine ⟨List.Subset.refl _, fun j k hk hnone => ?_⟩
    cases (hmoved hk hnone).2
  · split
    · refine ⟨List.subset_append_left _ _, fun j k hk hnone => ?_⟩
      obtain ⟨rfl, -⟩ := hmoved hk hnone
      rw [hk]
      exact List.mem_append_right _ (List.mem_singleton_self k)
    · refine ⟨List.Subset.refl _, fun j k hk hnone => ?_⟩
      cases hk.symm.trans hnone

/-- A task that a worker leaves has ended, and tasks that have ended stay so. -/
theorem Step.ended (hstep : Step B c c') :
    c.ended ⊆ c'.ended ∧ ∀ i k, c.post i = some k → c'.post i = none → k ∈ c'.ended := by
  cases hstep with
  | work => exact ended_record (c.advance _ _) _ _ _
  | _ => exact ⟨List.Subset.refl _, fun i k hk hnone => absurd (hk.symm.trans hnone) nofun⟩

end Plant

end MarkSweep
