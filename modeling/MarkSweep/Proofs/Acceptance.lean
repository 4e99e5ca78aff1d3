import MarkSweep.Pool.Script
import MarkSweep.Proofs.Pool.Asking

namespace MarkSweep

variable {β ε ρ : Type}

namespace Pool

variable {pool pool' : Pool β ρ} {added taken : List (Task β)}

/-- A pool that nobody keeps is kept by nobody after a call or a wake-up. -/
theorem Deserted.tended (hdeserted : pool.Deserted) (htended : Tended pool pool') :
    pool'.Deserted := by
  refine ⟨htended.released hdeserted.1, fun i => ?_⟩
  rw [htended.isOver]
  exact hdeserted.2 i

/-- What is queued goes on to be begun, unless nobody keeps the pool. -/
theorem Traffic.flow (htraffic : Traffic pool pool' added taken) (hsealed : pool.Sealed)
    (hstays : pool.Deserted → pool'.Deserted) {accepted begun dropped : List (Task β)}
    (hflow : accepted = begun ++ pool.queue.toList ++ dropped)
    (hdropped : dropped ≠ [] → pool.Deserted) :
    ∃ dropped', accepted ++ added = begun ++ taken ++ pool'.queue.toList ++ dropped' ∧
      (dropped' ≠ [] → pool'.Deserted) := by
  obtain ⟨new, hbalance, hnew⟩ := htraffic.balance
  -- Nothing is queued any more once something has been dropped.
  have hswap : dropped ++ added = added ++ dropped := by
    by_cases hadded : added = []
    · rw [hadded, List.nil_append, List.append_nil]
    · have hopen := htraffic.shutDown_eq_false hadded
      have hnone : dropped = [] := by
        by_contra hne
        exact absurd ((hsealed.released (hdropped hne).1).symm.trans hopen) nofun
      rw [hnone, List.nil_append, List.append_nil]
  refine ⟨new ++ dropped, ?_, ?_⟩
  · calc accepted ++ added
      _ = begun ++ pool.queue.toList ++ (dropped ++ added) := by rw [hflow, List.append_assoc]
      _ = begun ++ (pool.queue.toList ++ added) ++ dropped := by simp [hswap]
      _ = begun ++ taken ++ pool'.queue.toList ++ (new ++ dropped) := by simp [hbalance]
  · intro hne
    by_cases hnone : new = []
    · exact hstays (hdropped (by simpa [hnone] using hne))
    · exact hnew hnone

end Pool

namespace Pool.Errand

/-- Whether a call may queue a task. -/
def Queues : Errand β → Task β → Prop
  | submit body owners, task => ∃ id, task = ⟨.handle id, body, owners⟩
  | execute body owners, task => task = ⟨.nobody, body, owners⟩
  | spawnMember group body owners, task => task = ⟨.group group, body, owners⟩
  | _, _ => False

/-- What a call that has ended says about the tasks that were accepted from it. -/
inductive Accounts : Errand β → Except Fault (Answer ρ) → List (Task β) → Prop
  | submitted {body owners id} :
      Accounts (.submit body owners) (.ok (.handle id)) [⟨.handle id, body, owners⟩]
  | submitRefused {body owners id} : Accounts (.submit body owners) (.ok (.handle id)) []
  | executed {body owners} :
      Accounts (.execute body owners) (.ok (.verdict (.ok ()))) [⟨.nobody, body, owners⟩]
  | executeRefused {body owners} :
      Accounts (.execute body owners) (.ok (.verdict (.error .poolShutDown))) []
  | spawned {group body owners} :
      Accounts (.spawnMember group body owners) (.ok (.verdict (.ok ())))
        [⟨.group group, body, owners⟩]
  | spawnRefused {group body owners} :
      Accounts (.spawnMember group body owners) (.ok (.verdict (.error .poolShutDown))) []
  | idle {errand : Errand β} {result} (hidle : ∀ task, ¬errand.Queues task) :
      Accounts errand result []

/-- A call queues one task at most. -/
theorem queued_cases (errand : Errand β) (k : Standing ρ) :
    errand.queued k = [] ∨ ∃ task, errand.Queues task ∧ errand.queued k = [task] := by
  unfold queued
  split
  · exact .inr ⟨_, ⟨_, rfl⟩, rfl⟩
  · exact .inr ⟨_, ⟨_, rfl⟩, rfl⟩
  · exact .inr ⟨_, rfl, rfl⟩
  · exact .inr ⟨_, rfl, rfl⟩
  · exact .inr ⟨_, rfl, rfl⟩
  · exact .inr ⟨_, rfl, rfl⟩
  · exact .inl rfl

/-- Where a call ends is known from its answer, as far as its task is concerned. -/
theorem accounts_of_ends {errand : Errand β} {k : Standing ρ}
    {result : Except Fault (Answer ρ)} (hends : Ends errand k result) :
    errand.Accounts result (errand.queued k) := by
  cases hends with
  | submitted => exact .submitted
  | lost => exact .submitRefused
  | executed => exact .executed
  | executeRefused => exact .executeRefused
  | spawned => exact .spawned
  | spawnRefused => exact .spawnRefused
  | _ => exact .idle fun _ => id

/-- A call that has ended without queuing its task has found the pool shut down. -/
theorem hasShut_of_ends {errand : Errand β} {k : Standing ρ} {result : Except Fault (Answer ρ)}
    (hends : Ends errand k result) {task : Task β} (hqueues : errand.Queues task)
    (hnone : errand.queued k = []) : k.HasShut := by
  cases hends with
  | submitted => cases hnone
  | executed => cases hnone
  | spawned => cases hnone
  | lost => trivial
  | executeRefused => trivial
  | spawnRefused => trivial
  | _ => exact hqueues.elim

end Pool.Errand

namespace Plant

/-- The tasks that were accepted from one origin. -/
def acceptedFrom (c : Plant β ε ρ) (origin : Origin) : List (Task β) :=
  (c.accepted.filter (·.1 = origin)).map (·.2)

/-- What holds of the tasks of a pool, whatever clients and workers have done so far. -/
structure InOrder (B : Body β ε ρ) (c : Plant β ε ρ) : Prop where
  /-- The accepted tasks are those that were begun and those that are queued, unless the queue was
  dropped together with the pool. -/
  flow : ∃ dropped, c.accepted.map (·.2) = c.begun ++ c.site.pool.queue.toList ++ dropped ∧
    (dropped ≠ [] → c.site.pool.Deserted)
  /-- As long as nobody gives up an owner, none is dropped. -/
  kept : (∀ visit ∈ c.visits, visit.errand ≠ .dropOwner) → B.Keeps →
    c.accepted.map (·.2) = c.begun ++ c.site.pool.queue.toList
  begun_prefix : c.begun <+: c.accepted.map (·.2)
  /-- At most one task is accepted from a call, and it is one that the call may queue. -/
  once : ∀ i, (c.acceptedFrom (.client i)).length ≤ 1
  own : ∀ i, ∀ task ∈ c.acceptedFrom (.client i),
    ∃ visit, c.visits[i]? = some visit ∧ visit.errand.Queues task
  /-- A call that has ended says whether its task was accepted. -/
  accounts : ∀ (i : Nat) (visit : Visit (Pool.Errand β) (Worksite β ε ρ) (Pool.Answer ρ)),
    c.visits[i]? = some visit → ∀ result, visit.answer? = some result →
      visit.errand.Accounts result (c.acceptedFrom (.client i))
  /-- Only a pool that is shut down refuses a task. -/
  refused : ∀ (i : Nat) (visit : Visit (Pool.Errand β) (Worksite β ε ρ) (Pool.Answer ρ)),
    c.visits[i]? = some visit → visit.answer? ≠ none →
      ∀ task, visit.errand.Queues task → c.acceptedFrom (.client i) = [] →
        c.site.pool.shutDown = true
  /-- A step of a worker adds to the queue what its task asks for, unless the pool is shut down. -/
  asked : ∀ choice i site, Worksite.workerStep B choice i c.site = some site →
    c.site.pool.grown site.pool =
      if c.site.pool.shutDown then [] else (c.site.asked? B i).toList
  finalized : ∀ visit ∈ c.visits, visit.errand = .finalize → visit.answer? ≠ none →
    c.site.pool.shutDown = true

/-- The history of the tasks agrees with where the calls stand. -/
structure Ordered (B : Body β ε ρ) (c : Plant β ε ρ) (stands : Nat → Pool.Standing ρ) :
    Prop where
  sealed : c.site.pool.Sealed
  hasShut : ∀ i, (stands i).HasShut → c.site.pool.shutDown = true
  flow : ∃ dropped, c.accepted.map (·.2) = c.begun ++ c.site.pool.queue.toList ++ dropped ∧
    (dropped ≠ [] → c.site.pool.Deserted)
  queued : ∀ (i : Nat) (visit : Visit (Pool.Errand β) (Worksite β ε ρ) (Pool.Answer ρ)),
    c.visits[i]? = some visit → c.acceptedFrom (.client i) = visit.errand.queued (stands i)
  strangers : ∀ i, c.visits.length ≤ i → c.acceptedFrom (.client i) = []
  owned : (∀ visit ∈ c.visits, visit.errand ≠ .dropOwner) → B.Keeps → c.site.pool.Owned

variable {B : Body β ε ρ} {c c' : Plant β ε ρ} {stands stands' : Nat → Pool.Standing ρ}

/-- A step adds what it queues to what is accepted from its origin, and to nobody else's. -/
theorem acceptedFrom_advance (c : Plant β ε ρ) (origin other : Origin) (site : Worksite β ε ρ) :
    (c.advance origin site).acceptedFrom other =
      c.acceptedFrom other ++ if origin = other then c.site.pool.grown site.pool else [] := by
  simp only [acceptedFrom, advance, List.filter_append, List.map_append]
  congr 1
  split
  · next heq => simp [List.filter_map, Function.comp_def, heq]
  · next hne => simp [List.filter_map, Function.comp_def, hne]

/-- A step adds what it queues to what is accepted. -/
theorem map_accepted_advance (c : Plant β ε ρ) (origin : Origin) (site : Worksite β ε ρ) :
    (c.advance origin site).accepted.map (·.2) =
      c.accepted.map (·.2) ++ c.site.pool.grown site.pool := by
  simp [advance, Function.comp_def]

theorem stage_create (workers : Nat) (name : String) (i : Nat) :
    (Pool.create workers name : Pool β ρ).stage i = .awake false ∨
      (Pool.create workers name : Pool β ρ).stage i = .exited := by
  unfold Pool.stage
  split
  · next worker hget =>
    rw [List.eq_of_mem_replicate (List.mem_of_getElem? hget)]
    exact .inl rfl
  · exact .inr rfl

/-- Where there are no calls all of them keep their discipline. -/
theorem disciplined_nil {site : Worksite β ε ρ} {stands : Nat → Pool.Standing ρ} :
    Disciplined { site } stands := by
  intro i visit hget
  cases hget

/-- Nothing has happened yet. -/
theorem Ordered.start {workers : Nat} {name : String} {pool : Pool β ρ}
    (hpool : Pool.create? workers name = .ok pool) (env : ε) :
    Ordered B { site := ⟨pool, env⟩ } fun _ => .ready := by
  obtain rfl := Pool.eq_create hpool
  refine ⟨⟨nofun, ?sealed⟩, fun _ => False.elim, ⟨[], rfl, nofun⟩, nofun, fun _ _ => rfl, ?owned⟩
  case sealed =>
    intro i last closing task hclosing
    obtain h | h := stage_create (β := β) (ρ := ρ) workers name i <;> cases h.symm.trans hclosing
  case owned =>
    refine fun _ _ => ⟨rfl, fun i => ?_⟩
    obtain h | h := stage_create (β := β) (ρ := ρ) workers name i <;> rw [h] <;> rfl

/-- A call that has just been made has queued nothing. -/
theorem Ordered.arrive (h : Ordered B c stands) (errand : Pool.Errand β) (caller : Thread) :
    Ordered B { c with visits := c.visits ++ [⟨errand, caller, caller, errand.call⟩] }
      (Function.update stands c.visits.length errand.start) := by
  refine ⟨h.sealed, ?hasShut, h.flow, ?queued, ?strangers, ?owned⟩
  case hasShut =>
    refine (Function.forall_update_iff stands fun _ k => k.HasShut → _).2 ⟨?_, ?_⟩
    · intro hk
      cases errand with
      | finalize => exact absurd rfl hk
      | _ => exact hk.elim
    · exact fun i _ => h.hasShut i
  case queued =>
    intro i visit hget
    obtain ⟨rfl, rfl⟩ | ⟨hi, hget⟩ := getElem?_concat_cases hget
    · rw [Function.update_self]
      refine (h.strangers _ (Nat.le_refl _)).trans ?_
      cases errand <;> rfl
    · rw [Function.update_of_ne hi]
      exact h.queued i visit hget
  case strangers =>
    intro i hi
    rw [List.length_append, List.length_singleton] at hi
    exact h.strangers i (by omega)
  case owned =>
    exact fun hvisits => h.owned fun visit hmem => hvisits visit (List.mem_append_left _ hmem)

/-- The errands of the calls are what they were before one of them went on. -/
theorem forall_errand_set {visits : List (Visit (Pool.Errand β) (Worksite β ε ρ) (Pool.Answer ρ))}
    {i : Nat} {visit visit' : Visit (Pool.Errand β) (Worksite β ε ρ) (Pool.Answer ρ)}
    (hget : visits[i]? = some visit) (herrand : visit'.errand = visit.errand)
    {P : Pool.Errand β → Prop} (hall : ∀ other ∈ visits.set i visit', P other.errand) :
    ∀ other ∈ visits, P other.errand := by
  intro other hmem
  obtain ⟨j, hother⟩ := List.mem_iff_getElem?.1 hmem
  by_cases hj : j = i
  · subst hj
    obtain rfl := Option.some.inj (hget.symm.trans hother)
    rw [← herrand]
    exact hall visit' (List.mem_of_getElem?
      (List.getElem?_set_self (List.getElem?_eq_some_iff.1 hget).1))
  · exact hall other (List.mem_of_getElem? ((List.getElem?_set_ne (Ne.symm hj)).trans hother))

section Call

variable {i : Nat} {visit visit' : Visit (Pool.Errand β) (Worksite β ε ρ) (Pool.Answer ρ)}
  {site : Worksite β ε ρ} {k : Pool.Standing ρ}

/-- A step of a call notes the task that it queues. -/
theorem Ordered.call (h : Ordered B c stands) (hget : c.visits[i]? = some visit)
    (herrand : visit'.errand = visit.errand)
    (hmoves : Pool.Moves visit.errand (stands i) visit.thread c.site.pool k visit'.thread
      site.pool) :
    Ordered B { c.advance (.client i) site with visits := c.visits.set i visit' }
      (Function.update stands i k) := by
  have htended := hmoves.tended
  obtain ⟨added, htraffic, hqueued⟩ := hmoves.traffic
  have hgrown := htraffic.grown_eq
  refine ⟨hmoves.sealed (h.hasShut i) h.sealed, ?hasShut, ?flow, ?queued, ?strangers, ?owned⟩
  case hasShut =>
    refine (Function.forall_update_iff stands fun _ k => k.HasShut → _).2 ⟨?_, ?_⟩
    · exact hmoves.hasShut (h.hasShut i)
    · exact fun j _ hj => htended.shutDown (h.hasShut j hj)
  case flow =>
    obtain ⟨dropped, hflow, hdropped⟩ := h.flow
    obtain ⟨dropped', hflow', hdropped'⟩ := htraffic.flow h.sealed
      (fun hdeserted => hdeserted.tended htended) hflow hdropped
    refine ⟨dropped', ?_, hdropped'⟩
    rw [List.append_nil] at hflow'
    exact ((map_accepted_advance c _ site).trans (by rw [hgrown])).trans hflow'
  case queued =>
    intro j other hother
    refine (acceptedFrom_advance c _ _ site).trans ?_
    obtain ⟨rfl, rfl⟩ | ⟨hj, hother⟩ := getElem?_set_cases hother
    · rw [Function.update_self, if_pos rfl, hgrown, h.queued i visit hget, herrand, hqueued]
    · rw [Function.update_of_ne (Ne.symm hj), if_neg (fun heq => hj (by cases heq; rfl)),
        List.append_nil]
      exact h.queued j other hother
  case strangers =>
    intro j hj
    rw [List.length_set] at hj
    have hlt := (List.getElem?_eq_some_iff.1 hget).1
    refine (acceptedFrom_advance c _ _ site).trans ?_
    rw [if_neg (fun heq => by cases heq; omega), List.append_nil]
    exact h.strangers j hj
  case owned =>
    intro hvisits hkeeps
    have hbefore : ∀ other ∈ c.visits, other.errand ≠ .dropOwner :=
      forall_errand_set (P := (· ≠ .dropOwner)) hget herrand hvisits
    exact hmoves.owned (hbefore visit (List.mem_of_getElem? hget)) (h.owned hbefore hkeeps)

end Call

/-- A step of a worker notes the task that it begins. -/
theorem Ordered.work (h : Ordered B c stands) {choice : Choice} {i : Nat}
    {site : Worksite β ε ρ} (hstep : Worksite.workerStep B choice i c.site = some site) :
    Ordered B ((c.advance (.worker i) site).record i (c.site.pool.stage i) (site.pool.stage i))
      stands := by
  obtain ⟨hsite, hvisits, haccepted, hbegun⟩ :=
    record_eq (c.advance (.worker i) site) i (c.site.pool.stage i) (site.pool.stage i)
  have hdeed := Worksite.workerStep_deed hstep
  obtain ⟨added, htraffic⟩ := hdeed.traffic
  have hfrom : ∀ j, (Plant.record (c.advance (.worker i) site) i (c.site.pool.stage i)
      (site.pool.stage i)).acceptedFrom (.client j) = c.acceptedFrom (.client j) := by
    intro j
    rw [acceptedFrom, haccepted]
    refine (acceptedFrom_advance c _ _ site).trans ?_
    rw [if_neg nofun, List.append_nil]
  refine ⟨?sealed, ?hasShut, ?flow, ?queued, ?strangers, ?owned⟩
  case sealed =>
    rw [hsite]
    exact hdeed.sealed h.sealed
  case hasShut =>
    rw [hsite]
    exact fun j hj => hdeed.shutDown (h.hasShut j hj)
  case flow =>
    obtain ⟨dropped, hflow, hdropped⟩ := h.flow
    -- The worker that takes the step is not over, so nobody has deserted the pool yet.
    have hstays : c.site.pool.Deserted → site.pool.Deserted := by
      intro hdeserted
      have hover := hdeserted.2 i
      rw [hdeed.active] at hover
      cases hover
    obtain ⟨dropped', hflow', hdropped'⟩ := htraffic.flow h.sealed hstays hflow hdropped
    refine ⟨dropped', ?_, by rw [hsite]; exact hdropped'⟩
    rw [haccepted, hsite, hbegun, map_accepted_advance, htraffic.grown_eq]
    exact hflow'
  case queued =>
    intro j visit hget
    rw [hvisits] at hget
    rw [hfrom]
    exact h.queued j visit hget
  case strangers =>
    intro j hj
    rw [hvisits] at hj
    rw [hfrom]
    exact h.strangers j hj
  case owned =>
    rw [hvisits, hsite]
    exact fun hnone hkeeps => Worksite.owned_workerStep hkeeps hstep (h.owned hnone hkeeps)

theorem Ordered.rouse (h : Ordered B c stands) (i : Nat) :
    Ordered B { c with site.pool.workers := c.site.pool.workers.modify i Worker.woken }
      stands := by
  have htended := Pool.tended_modify c.site.pool i
  refine ⟨htended.sealed h.sealed h.sealed.released, h.hasShut, ?flow, h.queued, h.strangers,
    ?owned⟩
  case flow =>
    obtain ⟨dropped, hflow, hdropped⟩ := h.flow
    exact ⟨dropped, hflow, fun hne => (hdropped hne).tended htended⟩
  case owned => exact fun hvisits hkeeps => (h.owned hvisits hkeeps).of_stage rfl htended.stage

/-- The history still agrees with the calls after the next step. -/
theorem Ordered.step (h : Ordered B c stands) (hpasses : Passes B c stands c' stands') :
    Ordered B c' stands' := by
  cases hpasses with
  | arrive errand caller => exact h.arrive errand caller
  | call hget herrand _ hmoves => exact h.call hget herrand hmoves
  | work hstep => exact h.work hstep
  | rouse i => exact h.rouse i
  | others env => exact ⟨h.sealed, h.hasShut, h.flow, h.queued, h.strangers, h.owned⟩

/-- A client has had at most the one task accepted that it called about. -/
theorem Ordered.acceptedFrom_cases (h : Ordered B c stands) (i : Nat) :
    c.acceptedFrom (.client i) = [] ∨
      ∃ visit task, c.visits[i]? = some visit ∧ visit.errand.Queues task ∧
        c.acceptedFrom (.client i) = [task] := by
  cases hget : c.visits[i]? with
  | none => exact .inl (h.strangers i (List.getElem?_eq_none_iff.1 hget))
  | some visit =>
    rw [h.queued i visit hget]
    obtain hnone | ⟨task, hqueues, hqueued⟩ := visit.errand.queued_cases (stands i)
    · exact .inl hnone
    · exact .inr ⟨visit, task, rfl, hqueues, hqueued⟩

/-- Once the queue is empty all accepted tasks have begun, unless the pool is deserted. -/
theorem Ordered.begun_eq (h : Ordered B c stands) (hkept : ¬c.site.pool.Deserted)
    (hempty : c.site.pool.queue.toList = []) : c.begun = c.accepted.map (·.2) := by
  obtain ⟨dropped, hflow, hdropped⟩ := h.flow
  have hnone : dropped = [] := by
    by_contra hne
    exact hkept (hdropped hne)
  rw [hflow, hempty, hnone, List.append_nil, List.append_nil]

/-- The history of calls that keep their discipline tells the whole story. -/
theorem Ordered.inOrder (h : Ordered B c stands) (hkeeps : c.Disciplined stands) :
    c.InOrder B where
  flow := h.flow
  kept hvisits hbody := by
    obtain ⟨dropped, hflow, hdropped⟩ := h.flow
    have hnone : dropped = [] := by
      by_contra hne
      exact absurd ((h.owned hvisits hbody).kept.symm.trans (hdropped hne).1) nofun
    rw [hflow, hnone, List.append_nil]
  begun_prefix := by
    obtain ⟨dropped, hflow, -⟩ := h.flow
    exact ⟨_, (hflow.trans (List.append_assoc _ _ _)).symm⟩
  once i := by
    obtain hnone | ⟨_, task, -, -, hone⟩ := h.acceptedFrom_cases i
    · rw [hnone]
      exact Nat.zero_le 1
    · rw [hone]
      exact Nat.le_refl 1
  own i task hmem := by
    obtain hnone | ⟨visit, task', hget, hqueues, hone⟩ := h.acceptedFrom_cases i
    · rw [hnone] at hmem
      cases hmem
    · rw [hone] at hmem
      obtain rfl := List.mem_singleton.1 hmem
      exact ⟨visit, hget, hqueues⟩
  accounts i visit hget result hanswer := by
    rw [h.queued i visit hget]
    exact Pool.Errand.accounts_of_ends (Visit.ends_of_answer? (hkeeps i visit hget) hanswer)
  refused i visit hget hended task hqueues hnone := by
    obtain ⟨result, hanswer⟩ := Option.ne_none_iff_exists'.1 hended
    have hends := Visit.ends_of_answer? (hkeeps i visit hget) hanswer
    rw [h.queued i visit hget] at hnone
    exact h.hasShut i (Pool.Errand.hasShut_of_ends hends hqueues hnone)
  asked choice i site hstep := Worksite.grown_workerStep hstep
  finalized visit hmem herrand hended := by
    obtain ⟨i, hget⟩ := List.mem_iff_getElem?.1 hmem
    obtain ⟨result, hanswer⟩ := Option.ne_none_iff_exists'.1 hended
    have hends := Visit.ends_of_answer? (hkeeps i visit hget) hanswer
    rw [herrand] at hends
    refine h.hasShut i ?_
    generalize stands i = k at hends
    cases hends
    trivial

/-- A pool that is shut down stays so and accepts nothing in the next step. -/
theorem closed_step (hstep : Passes B c stands c' stands') (hshut : c.site.pool.shutDown = true) :
    c'.site.pool.shutDown = true ∧ c'.accepted = c.accepted := by
  have hgrown : ∀ {pool : Pool β ρ} {added taken : List (Task β)},
      Pool.Traffic c.site.pool pool added taken → c.site.pool.grown pool = [] := by
    intro pool added taken htraffic
    rw [htraffic.grown_eq]
    by_contra hne
    exact absurd (hshut.symm.trans (htraffic.shutDown_eq_false hne)) nofun
  have haccepted : ∀ {origin : Origin} {site : Worksite β ε ρ},
      c.site.pool.grown site.pool = [] → (c.advance origin site).accepted = c.accepted := by
    intro origin site hnone
    rw [advance, hnone]
    exact List.append_nil _
  cases hstep with
  | arrive errand caller => exact ⟨hshut, rfl⟩
  | call _ _ _ hmoves =>
    obtain ⟨added, htraffic, -⟩ := hmoves.traffic
    exact ⟨hmoves.tended.shutDown hshut, haccepted (hgrown htraffic)⟩
  | @work choice i site hstep =>
    obtain ⟨hsite, -, hrecord, -⟩ :=
      record_eq (c.advance (.worker i) site) i (c.site.pool.stage i) (site.pool.stage i)
    have hdeed := Worksite.workerStep_deed hstep
    obtain ⟨added, htraffic⟩ := hdeed.traffic
    rw [hsite, hrecord]
    exact ⟨hdeed.shutDown hshut, haccepted (hgrown htraffic)⟩
  | rouse i => exact ⟨hshut, rfl⟩
  | others env => exact ⟨hshut, rfl⟩

/-- In every course of events on a new pool the tasks begin in the order in which they were
accepted, none is lost and none begins twice. Once the pool is shut down it accepts no more. -/
theorem run_begins_in_order {workers : Nat} {name : String} {pool : Pool β ρ} {env : ε}
    (hpool : Pool.create? workers name = .ok pool) {c : Plant β ε ρ}
    (hrun : Relation.ReflTransGen (Step B) { site := ⟨pool, env⟩ } c) :
    c.InOrder B ∧ (c.site.pool.shutDown = true → ∀ c', Relation.ReflTransGen (Step B) c c' →
      c'.site.pool.shutDown = true ∧ c'.accepted = c.accepted) := by
  obtain ⟨stands, hkeeps, hordered⟩ :=
    run_induction (P := Ordered B) Ordered.step disciplined_nil (Ordered.start hpool env) hrun
  refine ⟨hordered.inOrder hkeeps, fun hshut c' hrun' => ?_⟩
  obtain ⟨-, -, hclosed⟩ := run_induction
    (P := fun c' _ => c'.site.pool.shutDown = true ∧ c'.accepted = c.accepted)
    (fun hbefore hpasses =>
      have hafter := closed_step hpasses hbefore.1
      ⟨hafter.1, hafter.2.trans hbefore.2⟩)
    hkeeps ⟨hshut, rfl⟩ hrun'
  exact hclosed

/-- A task that faults ends the only worker; the next task was accepted and is still queued. -/
theorem run_begins_in_order_severed :
    ∃ (pool : Pool (Script Unit) Unit) (c : Plant (Script Unit) Workshop Unit),
      Pool.create? 1 "pool" = .ok pool ∧
      Relation.ReflTransGen (Step Script.body) { site := ⟨pool, {}⟩ } c ∧
      c.accepted.map (·.1) = [.client 0, .client 1] ∧ c.begun.length = 1 ∧
      c.site.pool.queued = 1 ∧ c.site.pool.isOver 0 = true ∧ c.InOrder Script.body := by
  have hpool : Pool.create? 1 "pool" = .ok (Pool.create 1 "pool" : Pool (Script Unit) Unit) := rfl
  obtain ⟨c, hrun, hfacts⟩ : ∃ c : Plant (Script Unit) Workshop Unit,
      Relation.ReflTransGen (Step Script.body) { site := ⟨Pool.create 1 "pool", {}⟩ } c ∧
      c.accepted.map (·.1) = [.client 0, .client 1] ∧ c.begun.length = 1 ∧
      c.site.pool.queued = 1 ∧ c.site.pool.isOver 0 = true := by
    have hcalled := Relation.ReflTransGen.single (Step.arrive (B := Script.body (ρ := Unit))
      (c := { site := ⟨Pool.create 1 "pool", {}⟩ })
      (.execute ⟨[], fun _ => .fault (.text "broken")⟩ 0) {})
    have haccepted := hcalled.tail (.call (i := 0) rfl (.ordinary rfl))
    have hnext := haccepted.tail (.arrive (.execute ⟨[], fun _ => .value ()⟩ 0) {})
    have hqueued := hnext.tail (.call (i := 1) rfl (.ordinary rfl))
    have henabling := hqueued.tail (.arrive .signalWork {})
    have henabled := henabling.tail (.call (i := 2) rfl (.ordinary rfl))
    have hbegun := henabled.tail (.ordinary 0 rfl)
    have hdead := hbegun.tail (.ordinary 0 rfl)
    exact ⟨_, hdead, rfl, rfl, rfl, rfl⟩
  exact ⟨_, c, hpool, hrun, hfacts.1, hfacts.2.1, hfacts.2.2.1, hfacts.2.2.2,
    (run_begins_in_order hpool hrun).1⟩

end Plant

end MarkSweep
