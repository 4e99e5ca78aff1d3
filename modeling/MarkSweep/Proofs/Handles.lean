import MarkSweep.Pool.Script
import MarkSweep.Proofs.Pool.Custody
import MarkSweep.Proofs.Pool.Turns

namespace MarkSweep

variable {β ε ρ : Type}

namespace Estate

/-- The call, or the task, that has made a handle has it back. -/
def Returned (e : Estate β ε ρ) (id : HandleId) : Prop :=
  ∃ p origin, e.homes[id]? = some (p, origin) ∧
    ∀ i, origin = .client i → ∃ visit, e.visit? p i = some visit ∧ visit.answer? ≠ none

/-- Handles tell the truth. -/
structure Truthful (B : Body β ε ρ) (e : Estate β ε ρ) : Prop where
  /-- A call that submits a body returns a handle, and to this handle only a task with this body
  answers, which was accepted from this call. -/
  submitted : ∀ p i visit, e.visit? p i = some visit → ∀ body owners,
    visit.errand = .submit body owners → ∀ result, visit.answer? = some result →
      ∃ id, result = .ok (.handle id) ∧ e.homes[id]? = some (p, .client i) ∧
        ∀ (q : Nat) c, e.plants[q]? = some c → ∀ entry ∈ c.accepted, entry.2.audience = .handle id →
          q = p ∧ entry = (.client i, ⟨.handle id, body, owners⟩)
  /-- What a task submits is queued in the same step, under a new handle, unless the pool is shut
  down. -/
  asked : ∀ (p : Nat) c, e.plants[p]? = some c → ∀ choice i site,
    Worksite.workerStep B choice i (e.view c).site = some site →
      c.site.pool.grown site.pool =
        if c.site.pool.shutDown then [] else ((e.view c).site.asked? B i).toList
  /-- To a handle only tasks of whoever has made it answer. -/
  home : ∀ (p : Nat) c, e.plants[p]? = some c → ∀ entry ∈ c.accepted, ∀ id,
    entry.2.audience = .handle id → e.homes[id]? = some (p, entry.1)
  /-- And no more than one task does. -/
  alone : ∀ (id p q : Nat) c d (k l : Nat) entry other, e.plants[p]? = some c →
    e.plants[q]? = some d → c.accepted[k]? = some entry → d.accepted[l]? = some other →
      entry.2.audience = .handle id → other.2.audience = .handle id → p = q ∧ k = l
  /-- The tasks that have run to their ends are those that workers have begun and ended. -/
  ended : ∀ (p : Nat) c, e.plants[p]? = some c → ∀ k, k ∈ c.ended ↔
    ∃ ending ∈ e.ends, ending.plant = p ∧ ending.place = k ∧ c.begun[k]? = some ending.task ∧
      ∃ origin, c.accepted[k]? = some (origin, ending.task)
  /-- A handle that nobody has consumed is finished if and only if its task has run to its end. -/
  finished : ∀ id, ¬e.Consumed (.handle id) → ∀ (p : Nat) c, e.plants[p]? = some c →
    ((e.view c).site.pool.isFinished id = true ↔ ∃ outcome, e.Ran id outcome)
  /-- Whoever tries to join a handle hears what has become of its task. -/
  tried : ∀ p i visit, e.visit? p i = some visit → ∀ id, visit.errand = .tryJoin id →
    ∀ result, visit.answer? = some result →
      ∃ outcome?, e.Fate id outcome? ∧ result = .ok (.outcome (Pool.tried outcome?))
  /-- So does whoever joins it. -/
  joined : ∀ p i visit, e.visit? p i = some visit → ∀ id, visit.errand = .join id →
    ∀ result, visit.answer? = some result →
      ∃ outcome?, e.Fate id outcome? ∧ result = (Pool.joined outcome?).map .value
  /-- Neither has to wait any more as soon as something has become of the task. -/
  ready : ∀ id, e.Returned id → ¬e.Consumed (.handle id) → ∀ (p : Nat) c (i : Nat) visit,
    e.plants[p]? = some c → c.visits[i]? = some visit →
      visit.errand = .tryJoin id ∨ visit.errand = .join id → visit.answer? = none →
        ((∃ visit' site, visit.Step (e.view c).site visit' site) ↔
          ∃ outcome?, e.Fate id outcome?)
  /-- One thing becomes of a task, once and for all. -/
  unique : ∀ id outcome? outcome?', e.Fate id outcome? → e.Fate id outcome?' →
    outcome? = outcome?'
  lasts : ∀ id outcome?, e.Fate id outcome? → ∀ e', Relation.ReflTransGen (Step B) e e' →
    e'.Fate id outcome?

variable {B : Body β ε ρ} {e e' : Estate β ε ρ} {crew crew' : List (Attended β ε ρ)}
  {id : HandleId}

/-- What a handle knows is the truth. -/
theorem Custody.fate_of_handle (h : Custody B e crew) {delivery : Delivery ρ}
    {outcome? : Option (Outcome ρ)} (hget : e.board.handles[id]? = some delivery)
    (hfate : delivery.fate? = some outcome?) : e.Fate id outcome? := by
  cases delivery with
  | awaited => cases hfate
  | delivered outcome =>
    cases hfate
    exact h.upheld.ran_of_delivered hget
  | lost =>
    cases hfate
    exact h.upheld.unrun_of_lost h.homed hget

/-- To the handle that a call returns only the task of that call answers. -/
theorem Custody.submitted (h : Custody B e crew) {p i : Nat} {body : β} {owners : Nat}
    {visit : Visit (Pool.Errand β) (Worksite β ε ρ) (Pool.Answer ρ)}
    {result : Except Fault (Pool.Answer ρ)} (hget : e.visit? p i = some visit)
    (herrand : visit.errand = .submit body owners) (hanswer : visit.answer? = some result) :
    ∃ id, result = .ok (.handle id) ∧ e.homes[id]? = some (p, .client i) ∧
      ∀ (q : Nat) c, e.plants[q]? = some c → ∀ entry ∈ c.accepted, entry.2.audience = .handle id →
        q = p ∧ entry = (.client i, ⟨.handle id, body, owners⟩) := by
  obtain ⟨x, hx, hvisit⟩ := h.upheld.exists_visited hget
  have hmem := List.mem_of_getElem? hx
  have hends := Visit.ends_of_answer? (h.disciplined x hmem i visit hvisit) hanswer
  have hqueued := (h.ordered x hmem).queued i visit hvisit
  rw [herrand] at hends hqueued
  obtain ⟨id, rfl, hbears, hown⟩ : ∃ id, result = .ok (.handle id) ∧
      (x.stands i).bears? = some id ∧
        ∀ task ∈ x.plant.acceptedFrom (.client i), task = ⟨.handle id, body, owners⟩ := by
    rw [hqueued]
    generalize x.stands i = k at hends
    cases hends with
    | submitted => exact ⟨_, rfl, rfl, fun task => List.mem_singleton.1⟩
    | lost => exact ⟨_, rfl, rfl, nofun⟩
  have hhome := h.homed.stands hx hbears
  refine ⟨id, rfl, hhome, fun q c hq entry hentry haudience => ?_⟩
  obtain ⟨y, hy, rfl⟩ := h.upheld.exists_attended hq
  have hhome' := h.homed.accepted hy hentry haudience
  obtain ⟨rfl, horigin⟩ := Prod.mk.inj (Option.some.inj (hhome.symm.trans hhome'))
  rw [hx] at hy
  cases hy
  refine ⟨rfl, Prod.ext horigin.symm (hown entry.2 (List.mem_map.2 ⟨entry, ?_, rfl⟩))⟩
  exact List.mem_filter.2 ⟨hentry, decide_eq_true horigin.symm⟩

/-- No call is about to queue or to drop the task of a handle that was returned. -/
theorem Custody.unclaimed (h : Custody B e crew) (hreturned : e.Returned id) (p : Nat)
    (x : Attended β ε ρ) (i : Nat) (hx : crew[p]? = some x) :
    (x.stands i).seat? ≠ some (.handle id) := by
  intro hseat
  have hbears : (x.stands i).bears? = some id := by
    generalize x.stands i = k at hseat
    unfold Pool.Standing.seat? at hseat
    split at hseat <;> cases hseat <;> rfl
  obtain ⟨q, origin, hhome, hback⟩ := hreturned
  obtain ⟨rfl, rfl⟩ := Prod.mk.inj (Option.some.inj (hhome.symm.trans (h.homed.stands hx hbears)))
  obtain ⟨visit, hget, hanswer⟩ := hback i rfl
  obtain ⟨y, hy, hvisit⟩ := h.upheld.exists_visited hget
  rw [hx] at hy
  cases hy
  obtain ⟨result, hanswer⟩ := Option.ne_none_iff_exists'.1 hanswer
  have hends := Visit.ends_of_answer? (h.disciplined x (List.mem_of_getElem? hx) i visit hvisit)
    hanswer
  generalize x.stands i = k at hends hseat
  generalize visit.errand = errand at hends
  cases hends <;> cases hseat

/-- A handle that was made and not consumed is on the board. -/
theorem Custody.exists_delivery (h : Custody B e crew) (hmade : id < e.board.nextHandle)
    (hkept : ¬e.Consumed (.handle id)) : ∃ delivery, e.board.handles[id]? = some delivery :=
  Option.isSome_iff_exists.1 ((h.listed (.handle id) hmade).resolve_right hkept)

/-- A handle that was returned knows what has become of its task. -/
theorem Custody.fate?_of_fate (h : Custody B e crew) (hreturned : e.Returned id)
    {delivery : Delivery ρ} (hget : e.board.handles[id]? = some delivery)
    {outcome? : Option (Outcome ρ)} (hfate : e.Fate id outcome?) :
    delivery.fate? = some outcome? := by
  cases outcome? with
  | some outcome =>
    rw [h.upheld.delivered_of_ran hget hfate]
    rfl
  | none =>
    rw [h.upheld.lost_of_unrun h.homed hget hfate (h.unclaimed hreturned)]
    rfl

/-- A handle that is kept is finished exactly if its task has run. -/
theorem Custody.isFinished_iff (h : Custody B e crew) (hkept : ¬e.Consumed (.handle id))
    (c : Plant β ε ρ) :
    (e.view c).site.pool.isFinished id = true ↔ ∃ outcome, e.Ran id outcome := by
  have hview : (e.view c).site.pool.board.handles[id]? = e.board.handles[id]? := rfl
  unfold Pool.isFinished
  rw [hview]
  by_cases hmade : id < e.board.nextHandle
  · obtain ⟨delivery, hget⟩ := h.exists_delivery hmade hkept
    rw [hget]
    constructor
    · intro hfinished
      cases delivery with
      | delivered outcome => exact ⟨outcome, h.upheld.ran_of_delivered hget⟩
      | _ => cases hfinished
    · rintro ⟨outcome, hran⟩
      rw [h.upheld.delivered_of_ran hget hran]
  · have hsound := h.upheld.sound.handle id
    obtain ⟨hunaccepted, hnone⟩ := hsound.unmade (Nat.not_lt.1 hmade)
    change e.board.handles[id]? = none at hnone
    rw [hnone]
    constructor
    · intro hfinished
      cases hfinished
    · intro hran
      have hpos : 0 < (e.books crew).endings (.handle id) := endings_pos_iff.2 hran
      have hle := hsound.kept
      omega

/-- Whoever joins a handle need not wait once something has become of its task. -/
theorem Custody.exists_step_iff (h : Custody B e crew) (hreturned : e.Returned id)
    (hkept : ¬e.Consumed (.handle id)) {p i : Nat} {c : Plant β ε ρ}
    {visit : Visit (Pool.Errand β) (Worksite β ε ρ) (Pool.Answer ρ)}
    (hget : e.visit? p i = some visit)
    (hjoins : visit.errand = .tryJoin id ∨ visit.errand = .join id)
    (hanswer : visit.answer? = none) :
    (∃ visit' site, visit.Step (e.view c).site visit' site) ↔ ∃ outcome?, e.Fate id outcome? := by
  have hconsumes := Pool.Errand.consumes_of_joins hjoins
  constructor
  · rintro ⟨visit', site, hstep⟩
    obtain ⟨result, hconsume, -, -⟩ := h.step_of_consumes hget hconsumes hstep
    rw [Pool.Errand.consume?_of_joins hjoins] at hconsume
    obtain ⟨outcome?, hheard, -⟩ := Option.map_eq_some_iff.1 hconsume
    obtain ⟨delivery, hhandle, hfate⟩ := Option.bind_eq_some_iff.1 hheard
    exact ⟨outcome?, h.fate_of_handle hhandle hfate⟩
  · rintro ⟨outcome?, hfate⟩
    have hmade : id < e.board.nextHandle := by
      obtain ⟨_, _, hhome, -⟩ := hreturned
      exact h.homed.length ▸ (List.getElem?_eq_some_iff.1 hhome).1
    obtain ⟨delivery, hhandle⟩ := h.exists_delivery hmade hkept
    have hrest := h.fresh p i visit hget (.handle id) hconsumes hanswer
    obtain ⟨errand, caller, thread, rest⟩ := visit
    dsimp only at hrest hjoins hconsumes
    subst hrest
    have hnext := Pool.next?_call_of_consumes hconsumes caller thread 0 (e.view c).site
    have hboard : (e.view c).site.pool.board.handles[id]? = some delivery := hhandle
    rw [Pool.Errand.consume?_of_joins hjoins, hboard, Option.bind_some,
      h.fate?_of_fate hreturned hhandle hfate] at hnext
    exact ⟨_, _, .of_next? hnext⟩

/-- Who has joined a handle has heard the truth. -/
def Told (e : Estate β ε ρ) : Prop :=
  ∀ p i visit, e.visit? p i = some visit → ∀ result, visit.answer? = some result → ∀ id,
    visit.errand = .tryJoin id ∨ visit.errand = .join id →
      ∃ outcome?, e.Fate id outcome? ∧ result = visit.errand.hears outcome?

/-- Every answer of a handle tells what has become of its task. -/
theorem Told.step (h : e.Told) (hcustody : Custody B e crew) (hpasses : Passes B e crew e' crew')
    (hstep : Step B e e') : e'.Told := by
  intro p i visit hget result hanswer id hjoins
  have hconsumes := Pool.Errand.consumes_of_joins hjoins
  obtain hbefore | hconsume := hcustody.answered_cases hstep hget hconsumes hanswer
  · obtain ⟨outcome?, hfate, hresult⟩ := h p i visit hbefore result hanswer id hjoins
    exact ⟨outcome?, hfate.step hcustody.upheld hpasses, hresult⟩
  · rw [Pool.Errand.consume?_of_joins hjoins] at hconsume
    obtain ⟨outcome?, hheard, heq⟩ := Option.map_eq_some_iff.1 hconsume
    obtain ⟨delivery, hhandle, hfate?⟩ := Option.bind_eq_some_iff.1 hheard
    have hfate := hcustody.fate_of_handle hhandle hfate?
    exact ⟨outcome?, hfate.step hcustody.upheld hpasses, (Prod.mk.inj heq).1.symm⟩

/-- Where calls are those of errands and whoever has joined a handle has heard the truth, handles
tell the truth. -/
theorem Custody.truthful (h : Custody B e crew) (htold : e.Told) : e.Truthful B where
  submitted p i visit hget body owners herrand result hanswer := h.submitted hget herrand hanswer
  asked p c hplant choice i site hstep := Worksite.grown_workerStep hstep
  home p c hplant entry hentry id haudience := by
    obtain ⟨x, hx, rfl⟩ := h.upheld.exists_attended hplant
    exact h.homed.accepted hx hentry haudience
  alone id p q c d k l entry other hc hd hentry hother haudience haudience' := by
    obtain ⟨x, hx, rfl⟩ := h.upheld.exists_attended hc
    obtain ⟨y, hy, rfl⟩ := h.upheld.exists_attended hd
    exact h.upheld.place_unique h.homed hx hy hentry hother haudience haudience'
  ended p c hplant k := h.upheld.mem_ended_iff hplant k
  finished id hkept p c hplant := h.isFinished_iff hkept c
  tried p i visit hget id herrand result hanswer := by
    have hheard := htold p i visit hget result hanswer id (.inl herrand)
    rwa [herrand] at hheard
  joined p i visit hget id herrand result hanswer := by
    have hheard := htold p i visit hget result hanswer id (.inr herrand)
    rwa [herrand] at hheard
  ready id hreturned hkept p c i visit hplant hget hjoins hanswer :=
    h.exists_step_iff hreturned hkept ((visit?_eq hplant i).trans hget) hjoins hanswer
  unique id outcome? outcome?' hfate hfate' := hfate.unique hfate' h.upheld h.homed
  lasts id outcome? hfate e' hrun := by
    suffices hlasts : ∃ crew', Custody B e' crew' ∧ e'.Fate id outcome? from
      hlasts.elim fun _ => And.right
    induction hrun with
    | refl => exact ⟨crew, h, hfate⟩
    | tail _ hstep ih =>
      obtain ⟨crew', hcustody, hfate⟩ := ih
      obtain ⟨crew'', hpasses, hcustody'⟩ := hcustody.step hstep
      exact ⟨crew'', hcustody', hfate.step hcustody.upheld hpasses⟩

/-- What those have heard who have joined handles, in the order of their calls. -/
def heard (e : Estate β ε ρ) : List (HandleId × Except Fault (Pool.Answer ρ)) :=
  e.plants.flatMap fun c => c.visits.filterMap fun visit =>
    match visit.errand, visit.answer? with
    | .tryJoin id, some result | .join id, some result => some (id, result)
    | _, _ => none

/-- One task ends with a value, one faults, one ends the only worker, and one is left to be dropped
with the pool; another one comes too late. -/
def dwindling : List (Turn (Script String)) :=
  List.flatten
    [[.found 1 "pool", .arrive 0 (.submit ⟨[], fun _ => .value "done"⟩ 0)],
      .replicate 2 (.call 0 0), [.arrive 0 (.submit ⟨[], fun _ => .fault (.text "broken")⟩ 0)],
      .replicate 2 (.call 0 1),
      [.arrive 0 (.execute ⟨[], fun _ => .fault .nonText⟩ 0), .call 0 2,
        .arrive 0 (.submit ⟨[], fun _ => .value "left"⟩ 0)],
      .replicate 2 (.call 0 3), [.arrive 0 .finalize], .replicate 2 (.call 0 4),
      [.arrive 0 (.submit ⟨[], fun _ => .value "late"⟩ 0)], .replicate 3 (.call 0 5),
      .replicate 6 (.work 0 0), .replicate 4 (.call 0 4), [.arrive 0 .dropOwner],
      .replicate 5 (.call 0 6),
      [.arrive 0 (.tryJoin 0), .call 0 7, .arrive 0 (.tryJoin 1), .call 0 8, .arrive 0 (.join 2),
        .call 0 9, .arrive 0 (.tryJoin 3), .call 0 10]]

/-- In every course of events handles tell the truth. -/
theorem run_tells {env : ε} (hrun : Relation.ReflTransGen (Step B) { env } e) : e.Truthful B := by
  have hstart : ({ env } : Estate β ε ρ).Told := nofun
  obtain ⟨crew, hcustody, htold⟩ := run_induction
    (fun hcustody _ hpasses hstep htold => Told.step htold hcustody hpasses hstep) hstart hrun
  exact hcustody.truthful htold

/-- One task has a value, one faults and ends with its worker, and two never run: all four handles
hear the truth. -/
theorem run_tells_severed :
    ∃ e : Estate (Script String) Workshop String,
      Relation.ReflTransGen (Step Script.body) { env := {} } e ∧
      e.heard = [(0, .ok (.outcome (.ok "done"))),
        (1, .ok (.outcome (.error (.taskFaulted "broken")))), (2, .error (.failed .poolShutDown)),
        (3, .ok (.outcome (.error .poolShutDown)))] ∧ e.Truthful Script.body := by
  have hreplay : (replay Script.body { env := {} } dwindling).map (fun e => decide (e.heard =
      [(0, .ok (.outcome (.ok "done"))), (1, .ok (.outcome (.error (.taskFaulted "broken")))),
        (2, .error (.failed .poolShutDown)),
        (3, .ok (.outcome (.error .poolShutDown)))])) = some true := by decide +kernel
  obtain ⟨e, hrun, hheard⟩ := exists_run_of_replay hreplay
  exact ⟨e, hrun, of_decide_eq_true hheard, run_tells hrun⟩

end Estate

end MarkSweep
