import MarkSweep.Proofs.Company.Discipline
import MarkSweep.Safepoint.Barrier

namespace MarkSweep.Safepoint

open Call

/-- What a thread asks of a safepoint. -/
inductive Errand
  | arriveAndWait
  /-- To wait for a limited time on a clock that reads `now`. -/
  | arriveAndWaitFor (now limit : Duration)
  | register
  | unregister

/-- What the calls of the errands return. -/
inductive Answer
  /-- How a wait came out. -/
  | departure (departure : Except Failure Unit)
  /-- How many threads are registered now. -/
  | count (count : Nat)

/-- Whether a call comes to wait. -/
def Errand.arrives : Errand → Bool
  | arriveAndWait | arriveAndWaitFor _ _ => true
  | register | unregister => false

/-- A call on the registry of a safepoint. -/
def onRegistry {α : Type} (call : Call Registry α) : Call Safepoint α :=
  call.focus (·.registry) fun registry safepoint => { safepoint with registry }

def Errand.call : Errand → Call Safepoint Answer
  | arriveAndWait => do Safepoint.arriveAndWait; return .departure (.ok ())
  | arriveAndWaitFor now limit => do
    return .departure (← Safepoint.arriveAndWaitFor now limit)
  | register => do return .count (← onRegistry Registry.register)
  | unregister => do return .count (← onRegistry Registry.unregister)

/-- A call that has waited until its round was complete. -/
def passed : Except Fault Answer := .ok (.departure (.ok ()))

/-- A call that has given up waiting. -/
def timedOut (arrived expected : Nat) : Except Fault Answer :=
  .ok (.departure (.error (.safepointTimeout arrived expected)))

theorem passed_ne_timedOut {arrived expected : Nat} : passed ≠ timedOut arrived expected := nofun

/-- How a call on the registry comes out. -/
inductive IsCount : Except Fault Answer → Prop
  | count (count : Nat) : IsCount (.ok (.count count))
  | overflow : IsCount (.error .addOverflow)

/-- How far a call is. -/
inductive Standing
  /-- Nothing was done yet. -/
  | outside
  /-- It waits until this generation is over. -/
  | waiting (generation : UInt64)
  | past (result : Except Fault Answer)

/-- To wait until a generation is over. -/
def waitOut (generation : UInt64) : Call Safepoint Answer := do
  await fun safepoint =>
    if safepoint.barrier.generation = generation then none else some ((), safepoint)
  return .departure (.ok ())

/-- To wait until a generation is over, or until a time limit passes. -/
def waitOutFor (generation : UInt64) : Call Safepoint Answer := do
  let departure ← (← choose (resumeOrWithdraw generation) : Except _ _)
  return .departure departure

/-- What is left of a call. -/
inductive Stands : Errand → Standing → Call Safepoint Answer → Prop
  | outside {errand} : Stands errand .outside errand.call
  | waiting {generation} : Stands .arriveAndWait (.waiting generation) (waitOut generation)
  | waitingFor {now limit generation} :
      Stands (.arriveAndWaitFor now limit) (.waiting generation) (waitOutFor generation)
  | past {errand result} : Stands errand (.past result) (Routine.done result)

/-- What the next step of a call does to its standing and to the safepoint. -/
inductive Moves : Errand → Standing → Safepoint → Standing → Safepoint → Prop
  | wait {errand s} (harrives : errand.arrives = true)
      (hshort : s.barrier.arrived + 1 < s.expected) :
      Moves errand .outside s (.waiting s.barrier.generation)
        { s with barrier := { s.barrier with arrived := s.barrier.arrived + 1 } }
  | release {errand s} (harrives : errand.arrives = true)
      (hfull : s.expected ≤ s.barrier.arrived + 1) :
      Moves errand .outside s (.past passed)
        { s with barrier := ⟨0, s.barrier.generation + 1⟩ }
  | resume {errand s generation} (harrives : errand.arrives = true)
      (hover : s.barrier.generation ≠ generation) :
      Moves errand (.waiting generation) s (.past passed) s
  | withdraw {now limit s generation arrived} (hcurrent : s.barrier.generation = generation)
      (harrived : s.barrier.arrived = arrived + 1) :
      Moves (.arriveAndWaitFor now limit) (.waiting generation) s
        (.past (timedOut (arrived + 1) s.expected))
        { s with barrier := { s.barrier with arrived } }
  | underflow {now limit s generation} (hcurrent : s.barrier.generation = generation)
      (hnone : s.barrier.arrived = 0) :
      Moves (.arriveAndWaitFor now limit) (.waiting generation) s
        (.past (.error .subtractOverflow)) s
  | register {s} :
      Moves .register .outside s (.past (s.registry.enrol.1.map .count))
        { s with registry := s.registry.enrol.2 }
  | unregister {s} :
      Moves .unregister .outside s (.past (.ok (.count s.registry.withdraw.1)))
        { s with registry := s.registry.withdraw.2 }

theorem isCount_enrol (registry : Registry) : IsCount (registry.enrol.1.map .count) := by
  unfold Registry.enrol
  split
  · exact .count _
  · exact .overflow

/-- A count of threads is not the answer of an arrival. -/
theorem IsCount.ne_passed {result : Except Fault Answer} (h : IsCount result) :
    result ≠ passed := by
  cases h <;> exact nofun

variable {errand : Errand} {k : Standing} {visit visit' : Visit Errand Safepoint Answer}
  {s s' : Safepoint} {choice : Choice}

section Next

variable {caller thread : Thread} {generation : UInt64}

theorem next?_register :
    Visit.next? choice ⟨errand, caller, thread, Errand.register.call⟩ s =
      some (⟨errand, caller, thread, Routine.done (s.registry.enrol.1.map .count)⟩,
        { s with registry := s.registry.enrol.2 }) := by
  have hrest : ∀ result : Except Fault Nat,
      Routine.bind (Routine.done result) (ExceptT.bindCont fun count => pure (Answer.count count)) =
        (Routine.done (result.map .count) : Routine (Thread × Safepoint) _) := by
    intro result
    cases result <;> rfl
  exact congrArg some (Prod.ext (congrArg (Visit.mk errand caller thread) (hrest _)) rfl)

/-- Whoever waits for the end of a generation passes when it is over. -/
theorem next?_waitOut :
    Visit.next? choice ⟨errand, caller, thread, waitOut generation⟩ s =
      if s.barrier.generation = generation then none
      else some (⟨errand, caller, thread, Routine.done passed⟩, s) := by
  change Option.map _ (Option.map _
    (if s.barrier.generation = generation then none else some ((), s))) = _
  split <;> rfl

theorem next?_waitOutFor :
    Visit.next? choice ⟨errand, caller, thread, waitOutFor generation⟩ s =
      if s.barrier.generation = generation then
        match choice, s.barrier.arrived with
        | 0, _ => none
        | _ + 1, 0 => some (⟨errand, caller, thread, Routine.done (.error .subtractOverflow)⟩, s)
        | _ + 1, arrived + 1 =>
          some (⟨errand, caller, thread, Routine.done (timedOut (arrived + 1) s.expected)⟩,
            { s with barrier := { s.barrier with arrived } })
      else some (⟨errand, caller, thread, Routine.done passed⟩, s) := by
  change Option.map _ (Option.map _ (resumeOrWithdraw generation choice s)) = _
  unfold resumeOrWithdraw Barrier.withdraw
  split
  · cases choice with
    | zero => rfl
    | succ _ => cases s.barrier.arrived <;> rfl
  · rfl

end Next

/-- A call that arrives waits, or it completes the round and has passed. -/
private theorem moves_of_entered {rest : UInt64 → Call Safepoint Answer}
    {after : Call Safepoint Answer} (harrives : errand.arrives = true)
    (hwaits : ∀ generation, Stands errand (.waiting generation) (rest generation))
    (hafter : (after, s') = match s.barrier.arrive s.expected with
      | (true, barrier) => (Routine.done passed, { s with barrier })
      | (false, barrier) => (rest barrier.generation, { s with barrier })) :
    ∃ k, Stands errand k after ∧ Moves errand .outside s k s' := by
  unfold Barrier.arrive at hafter
  by_cases hshort : s.barrier.arrived + 1 < s.expected
  · rw [if_pos hshort] at hafter
    cases hafter
    exact ⟨_, hwaits _, .wait harrives hshort⟩
  · rw [if_neg hshort] at hafter
    cases hafter
    exact ⟨_, .past, .release harrives (Nat.not_lt.1 hshort)⟩

/-- A call does nothing else but what its standing allows. -/
theorem moves_of_step (hstands : Stands visit.errand k visit.rest)
    (hstep : visit.Step s visit' s') :
    ∃ k', Stands visit.errand k' visit'.rest ∧ Moves visit.errand k s k' s' := by
  obtain ⟨choice, hnext⟩ := hstep.exists_next?
  obtain ⟨errand, caller, thread, rest⟩ := visit
  dsimp only at hstands
  cases hstands with
  | outside =>
    cases errand with
    | arriveAndWait =>
      refine moves_of_entered rfl (fun _ => .waiting) ?_
      cases hnext
      generalize s.barrier.arrive s.expected = entered
      obtain ⟨complete, barrier⟩ := entered
      cases complete <;> rfl
    | arriveAndWaitFor now limit =>
      cases hlimit : now.reachesDeadline limit with
      | true =>
        refine moves_of_entered rfl (fun _ => .waitingFor) ?_
        simp only [Errand.call, arriveAndWaitFor, hlimit] at hnext
        cases hnext
        generalize s.barrier.arrive s.expected = entered
        obtain ⟨complete, barrier⟩ := entered
        cases complete <;> rfl
      | false =>
        simp only [Errand.call, arriveAndWaitFor, hlimit] at hnext
        cases hnext
    | register =>
      rw [next?_register] at hnext
      cases hnext
      exact ⟨_, .past, .register⟩
    | unregister =>
      cases hnext
      exact ⟨_, .past, .unregister⟩
  | @waiting generation =>
    rw [next?_waitOut] at hnext
    split at hnext
    · cases hnext
    · next hover =>
      cases hnext
      exact ⟨_, .past, .resume rfl hover⟩
  | @waitingFor now limit generation =>
    rw [next?_waitOutFor] at hnext
    split at hnext
    · next hcurrent =>
      cases choice with
      | zero => cases hnext
      | succ _ =>
        cases harrived : s.barrier.arrived with
        | zero =>
          simp only [harrived] at hnext
          cases hnext
          exact ⟨_, .past, .underflow hcurrent harrived⟩
        | succ arrived =>
          simp only [harrived] at hnext
          cases hnext
          exact ⟨_, .past, .withdraw hcurrent harrived⟩
    · next hover =>
      cases hnext
      exact ⟨_, .past, .resume rfl hover⟩
  | past => cases hnext

/-- A call that stands past its end has answered. -/
theorem Stands.answer?_past {result : Except Fault Answer}
    (hstands : Stands visit.errand (.past result) visit.rest) : visit.answer? = some result := by
  obtain ⟨errand, caller, thread, rest⟩ := visit
  dsimp only at hstands
  cases hstands
  rfl

/-- A call that has returned is past, unless its time limit is out of reach. -/
theorem Stands.eq_of_answer? {result : Except Fault Answer}
    (hstands : Stands visit.errand k visit.rest) (hanswer : visit.answer? = some result) :
    k = .past result ∨ k = .outside ∧ result = .error .deadlineOverflow := by
  obtain ⟨errand, caller, thread, rest⟩ := visit
  dsimp only at hstands
  cases hstands with
  | outside =>
    refine .inr ⟨rfl, ?_⟩
    cases errand with
    | arriveAndWaitFor now limit =>
      cases hlimit : now.reachesDeadline limit with
      | true =>
        simp only [Errand.call, arriveAndWaitFor, hlimit] at hanswer
        cases hanswer
      | false =>
        simp only [Errand.call, arriveAndWaitFor, hlimit] at hanswer
        cases hanswer
        rfl
    | _ => cases hanswer
  | waiting => cases hanswer
  | waitingFor => cases hanswer
  | past =>
    cases hanswer
    exact .inl rfl

/-- A call that waits goes on as soon as its generation is over, and in the ordinary course not
before. -/
theorem Stands.next?_waiting {generation : UInt64}
    (hstands : Stands visit.errand (.waiting generation) visit.rest) :
    visit.answer? = none ∧ (s.barrier.generation = generation → visit.next? 0 s = none) ∧
      (s.barrier.generation ≠ generation →
        ∀ choice, visit.next? choice s = some ({ visit with rest := Routine.done passed }, s)) := by
  obtain ⟨errand, caller, thread, rest⟩ := visit
  dsimp only at hstands
  cases hstands with
  | waiting =>
    refine ⟨rfl, fun hcurrent => ?_, fun hover choice => ?_⟩
    · rw [next?_waitOut, if_pos hcurrent]
    · rw [next?_waitOut, if_neg hover]
  | waitingFor =>
    refine ⟨rfl, fun hcurrent => ?_, fun hover choice => ?_⟩
    · rw [next?_waitOutFor, if_pos hcurrent]
    · rw [next?_waitOutFor, if_neg hover]

/-- Unless it has ended already, a call that was not begun can take its first step. -/
theorem Stands.next?_outside (hstands : Stands visit.errand .outside visit.rest)
    (hanswer : visit.answer? = none) : visit.next? choice s ≠ none := by
  obtain ⟨errand, caller, thread, rest⟩ := visit
  dsimp only at hstands
  cases hstands
  cases errand with
  | arriveAndWaitFor now limit =>
    cases hlimit : now.reachesDeadline limit with
    | true =>
      simp only [Errand.call, arriveAndWaitFor, hlimit]
      exact nofun
    | false =>
      simp only [Errand.call, arriveAndWaitFor, hlimit] at hanswer
      cases hanswer
  | _ => exact nofun

/-- In the ordinary course the call cannot go on. -/
def Waits (visit : Visit Errand Safepoint Answer) (s : Safepoint) : Prop :=
  visit.answer? = none ∧ visit.next? 0 s = none

/-- The call has passed, or it does so in its next step whatever the environment decides. -/
def Passes (visit : Visit Errand Safepoint Answer) (s : Safepoint) : Prop :=
  visit.answer? = some passed ∨
    visit.answer? = none ∧ ∀ choice, ∃ visit', visit.next? choice s = some (visit', s) ∧
      visit'.answer? = some passed

/-- A call waits exactly as long as its generation lasts. -/
theorem Stands.waits_iff (hstands : Stands visit.errand k visit.rest) :
    Waits visit s ↔ k = .waiting s.barrier.generation := by
  cases k with
  | outside => exact iff_of_false (fun hwaits => hstands.next?_outside hwaits.1 hwaits.2) nofun
  | waiting generation =>
    obtain ⟨hanswer, hcurrent, hover⟩ := hstands.next?_waiting (s := s)
    rw [Standing.waiting.injEq]
    refine ⟨fun hwaits => ?_, fun heq => ⟨hanswer, hcurrent heq.symm⟩⟩
    by_cases hsame : s.barrier.generation = generation
    · exact hsame.symm
    · cases hwaits.2.symm.trans (hover hsame 0)
  | past result =>
    refine iff_of_false (fun hwaits => ?_) nofun
    cases hwaits.1.symm.trans hstands.answer?_past

/-- Nobody passes without having arrived. -/
theorem Moves.ne_of_passed (hmoves : Moves errand .outside s (.past passed) s') : s' ≠ s := by
  generalize hk : Standing.past passed = k at hmoves
  cases hmoves with
  | wait => cases hk
  | release =>
    intro heq
    have hgeneration := congrArg (·.barrier.generation) heq
    simp at hgeneration
  | register => exact absurd (Standing.past.inj hk).symm (isCount_enrol _).ne_passed
  | unregister => cases hk

/-- A call passes if its generation is over. -/
theorem Stands.passes_iff (hstands : Stands visit.errand k visit.rest) :
    Passes visit s ↔ k = .past passed ∨
      ∃ generation, k = .waiting generation ∧ s.barrier.generation ≠ generation := by
  cases k with
  | outside =>
    refine iff_of_false ?_ (by simp)
    rintro (hanswer | ⟨-, hnext⟩)
    · obtain hpast | ⟨-, hfault⟩ := hstands.eq_of_answer? hanswer
      · cases hpast
      · cases hfault
    · obtain ⟨visit', hnext, hanswer⟩ := hnext 0
      have hstep := Visit.Step.of_next? hnext
      obtain ⟨k', hstands', hmoves⟩ := moves_of_step hstands hstep
      rw [← hstep.errand_eq.1] at hstands'
      obtain rfl | ⟨-, hfault⟩ := hstands'.eq_of_answer? hanswer
      · exact hmoves.ne_of_passed rfl
      · cases hfault
  | waiting generation =>
    obtain ⟨hanswer, hcurrent, hover⟩ := hstands.next?_waiting (s := s)
    simp only [reduceCtorEq, false_or, Standing.waiting.injEq, exists_eq_left']
    refine ⟨?_, fun hne => .inr ⟨hanswer, fun choice => ⟨_, hover hne choice, rfl⟩⟩⟩
    rintro (hpassed | ⟨-, hnext⟩) heq
    · cases hanswer.symm.trans hpassed
    · obtain ⟨visit', hnext, -⟩ := hnext 0
      cases (hcurrent heq).symm.trans hnext
  | past result =>
    have hanswer := hstands.answer?_past
    simp only [Passes, hanswer, reduceCtorEq, false_and, or_false, Option.some.injEq,
      Standing.past.injEq, exists_false]

end MarkSweep.Safepoint
