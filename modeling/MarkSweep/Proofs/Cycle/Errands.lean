import MarkSweep.Proofs.Cycle.Neutral

namespace MarkSweep.Machine

open Call

variable {α : Type}

/-- What a thread asks of a collector. -/
inductive Errand
  | request
  /-- Asks for a collection if the condition holds. -/
  | notify
  | collect (callStacks : List CallStack) (policy : Policy)
  | shutdown
deriving DecidableEq

/-- What the calls of the errands return. -/
inductive Answer
  | done
  | verdict (triggered : Bool)
  | collected (metrics : Option Metrics)
deriving DecidableEq

/-- Whether the turn of an errand asks for a collection. -/
def Errand.asks : Errand → Bool
  | request | notify => true
  | collect _ _ | shutdown => false

def Errand.call : Errand → Call Machine Answer
  | request => do requestCollection; return .done
  | notify => do return .verdict (← notifyAllocation)
  | collect callStacks policy => do return .collected (← collectStacks callStacks policy)
  | shutdown => do Machine.shutdown; return .done

/-- What became of a turn at the cycle lock. -/
inductive Upshot
  /-- A collection was asked for. -/
  | requested
  /-- There was nothing to do, or nobody to do it. -/
  | skipped
  /-- A collection ended by a fault. -/
  | failed
  | collected (metrics : Metrics)
  /-- The pool was shut down. -/
  | closed

/-- How far a call is. -/
inductive Standing
  /-- It has not had its turn. -/
  | outside
  /-- It holds the lock in order to collect, and this is what it found: whether a collection was
  asked for, and whether the pool was shut down. -/
  | collecting (pressure shut : Bool)
  /-- It holds the lock, and its collection was counted. -/
  | counted (metrics : Metrics)
  /-- It holds the lock in order to close the pool; the pool may be shut down already. -/
  | closing (shut : Bool)
  /-- It has had its turn. -/
  | past (upshot : Upshot)

namespace Standing

/-- Whether a call holds the cycle lock. -/
def IsInside : Standing → Prop
  | collecting _ _ | counted _ | closing _ => True
  | outside | past _ => False

/-- What a call relies on while it holds the lock: that what the lock protects and whether the pool
is shut down remain as it knows them. -/
def Relies (cycle : CycleState) (shutDown : Bool) : Standing → Prop
  | collecting pressure shut =>
    cycle.busy = true ∧ cycle.pressure = pressure ∧ shutDown = shut
  | counted _ => cycle.busy = true
  | closing shut => cycle.busy = true ∧ (shut = true → shutDown = true)
  | outside | past _ => True

/-- Whether a call waits for nobody any more. -/
def IsPrompt : Standing → Prop
  | collecting pressure shut => pressure = false ∨ shut = true
  | counted _ | past _ => True
  | outside | closing _ => False

/-- What becomes of the turn of a call that gives the lock back. -/
def upshot? : Standing → Option Upshot
  | collecting pressure shut => some (if pressure && !shut then .failed else .skipped)
  | counted metrics => some (.collected metrics)
  | closing true => some .closed
  | outside | closing false | past _ => none

end Standing

/-- A change of what the cycle lock protects. -/
def withCycle (machine : Machine) (f : CycleState → CycleState) : Machine :=
  { machine with env := { machine.env with cycle := f machine.env.cycle } }

/-- What the next step of a call on an errand may do to its standing and to the machine. Only a
step that takes the lock waits for it. -/
inductive Moves :
    Errand → (waits : Prop) → Standing → Machine → Standing → Machine → Prop
  | idle {errand waits k machine} (hprompt : ¬waits) : Moves errand waits k machine k machine
  | request {errand waits machine} (hwaits : waits) (hasks : errand.asks = true)
      (hfree : machine.env.cycle.busy = false) :
      Moves errand waits .outside machine (.past .requested)
        (machine.withCycle ({ · with pressure := true }))
  | collect {callStacks policy waits machine} (hwaits : waits)
      (hfree : machine.env.cycle.busy = false) :
      Moves (.collect callStacks policy) waits .outside machine
        (.collecting machine.env.cycle.pressure machine.pool.shutDown)
        (machine.withCycle ({ · with busy := true }))
  | shutdown {waits machine} (hwaits : waits) (hfree : machine.env.cycle.busy = false) :
      Moves .shutdown waits .outside machine (.closing false)
        (machine.withCycle ({ · with busy := true }))
  | work {callStacks policy waits machine machine'} (hprompt : ¬waits)
      (hneutral : Neutral machine machine') :
      Moves (.collect callStacks policy) waits (.collecting true false) machine
        (.collecting true false) machine'
  | count {callStacks policy waits machine} {metrics : Metrics} (hprompt : ¬waits)
      (htotal : metrics.totalCollections = machine.env.cycle.total + 1) :
      Moves (.collect callStacks policy) waits (.collecting true false) machine (.counted metrics)
        (machine.withCycle fun cycle =>
          { cycle with
            pressure := false, total := cycle.total + 1, lastMetrics := some metrics })
  | close {waits machine} (hprompt : ¬waits) :
      Moves .shutdown waits (.closing false) machine (.closing true)
        { machine with pool := machine.pool.beginShutdown }
  | await {waits machine machine'} (hprompt : ¬waits) (hneutral : Neutral machine machine') :
      Moves .shutdown waits (.closing true) machine (.closing true) machine'
  | unlock {errand waits k machine upshot} (hprompt : ¬waits) (hupshot : k.upshot? = some upshot) :
      Moves errand waits k machine (.past upshot) (machine.withCycle ({ · with busy := false }))

/-- Where a call may end, and with what. -/
inductive Ends : Errand → Standing → Except Fault Answer → Prop
  | refused {errand fault} : Ends errand .outside (.error fault)
  | requested : Ends .request (.past .requested) (.ok .done)
  | triggered : Ends .notify (.past .requested) (.ok (.verdict true))
  | content : Ends .notify .outside (.ok (.verdict false))
  | skipped {callStacks policy} :
      Ends (.collect callStacks policy) (.past .skipped) (.ok (.collected none))
  | failed {callStacks policy fault} :
      Ends (.collect callStacks policy) (.past .failed) (.error fault)
  | collected {callStacks policy metrics} :
      Ends (.collect callStacks policy) (.past (.collected metrics))
        (.ok (.collected (some metrics)))
  | closed : Ends .shutdown (.past .closed) (.ok .done)

/-- What a call on an errand may do. -/
def discipline (errand : Errand) : Discipline Standing (Thread × Machine) where
  relies k x := k.Relies x.2.env.cycle x.2.pool.shutDown
  prompt := Standing.IsPrompt
  barred := Busy
  moves waits k x k' y := Moves errand waits k x.2 k' y.2

section Steps

variable {errand : Errand} {E R : Standing → Except Fault α → Prop} {k k' : Standing}

/-- A step that can be taken in every state does not wait for the lock. -/
theorem not_waitsOut_of_forall {act : Choice → Thread × Machine → Option (α × Thread × Machine)}
    (hact : ∀ x, ∃ y, act 0 x = some y) : ¬WaitsOut Busy act := by
  obtain ⟨x, hx⟩ := exists_busy
  obtain ⟨y, hy⟩ := hact x
  exact not_waitsOut hx hy

/-- A step on what belongs to the thread. -/
theorem keeps_onThread {f : Thread → Except Fault α × Thread} (hends : ∀ t, E k (f t).1) :
    Keeps (discipline errand) E (onThread f) k := by
  refine ⟨fun _ x => ⟨0, _, _, rfl⟩, ?_⟩
  rintro choice ⟨t, machine⟩ b ⟨t', machine'⟩ _ hact
  cases hact
  exact ⟨k, .idle (not_waitsOut_of_forall fun x => ⟨_, rfl⟩), hends t⟩

/-- A change of the machine in one step. -/
theorem keeps_atomic {f : Machine → α × Machine}
    (hmoves : ∀ waits machine, ¬waits → k.Relies machine.env.cycle machine.pool.shutDown →
      Moves errand waits k machine k' (f machine).2)
    (hends : ∀ machine, k.Relies machine.env.cycle machine.pool.shutDown →
      E k' (.ok (f machine).1)) :
    Keeps (discipline errand) E (Call.atomic f) k := by
  refine ⟨fun _ x => ⟨0, _, _, rfl⟩, ?_⟩
  rintro choice ⟨t, machine⟩ b ⟨t', machine'⟩ hrelies hact
  cases hact
  exact ⟨k', hmoves _ machine (not_waitsOut_of_forall fun x => ⟨_, rfl⟩) hrelies,
    hends machine hrelies⟩

/-- A look at the machine. -/
theorem keeps_read {f : Machine → α}
    (hends : ∀ machine, k.Relies machine.env.cycle machine.pool.shutDown →
      E k (.ok (f machine))) :
    Keeps (discipline errand) E (Call.read f) k :=
  keeps_atomic (f := fun machine => (f machine, machine)) (fun _ _ hprompt _ => .idle hprompt) hends

/-- A step that waits for the cycle lock. -/
theorem keeps_lock {f : Machine → α × Machine} {g : Machine → Standing} (hprompt : ¬k.IsPrompt)
    (hmoves : ∀ waits machine, waits → machine.env.cycle.busy = false →
      Moves errand waits k machine (g machine) (f machine).2)
    (hends : ∀ machine, E (g machine) (.ok (f machine).1)) :
    Keeps (discipline errand) E
      (await fun machine => if machine.env.cycle.busy then none else some (f machine)) k := by
  refine ⟨fun hk => absurd hk hprompt, ?_⟩
  rintro choice ⟨t, machine⟩ b ⟨t', machine'⟩ _ hact
  have hwaits : WaitsOut Busy fun (_ : Choice) (x : Thread × Machine) =>
      (if x.2.env.cycle.busy then none else some (f x.2)).map fun (a, s) => (a, x.1, s) :=
    fun _ x hx => congrArg (Option.map _) (if_pos hx)
  by_cases hbusy : machine.env.cycle.busy = true
  · simp only [if_pos hbusy, Option.map_none] at hact
    cases hact
  · simp only [if_neg hbusy, Option.map_some] at hact
    cases hact
    exact ⟨g machine, hmoves _ machine hwaits (Bool.eq_false_iff.2 hbusy), hends machine⟩

/-- A level is entered before the lock is asked for, and left after it was given back. -/
theorem keeps_guarded {level : Level} {body : Call Machine α}
    (hbody : Keeps (discipline errand) E body k) (hrefused : ∀ fault, E k (.error fault)) :
    Keeps (discipline errand) E (guarded level body) k := by
  refine keeps_bind (R := fun k' _ => k' = k) (keeps_onThread fun t => rfl) ?_ ?_
  · rintro _ _ rfl
    exact keeps_andFinally hbody fun k result hends => keeps_onThread fun t => hends
  · rintro _ fault rfl
    exact hrefused fault

/-- A call that takes the cycle lock, and gives it back on both exits of what it does with it. -/
theorem keeps_withCycleLock {body : Call Machine α} {inside : Machine → Standing}
    (hlock : ∀ waits machine, waits → machine.env.cycle.busy = false →
      Moves errand waits .outside machine (inside machine)
        (machine.withCycle ({ · with busy := true })))
    (hbody : ∀ machine, Keeps (discipline errand) R body (inside machine))
    (hunlock : ∀ k result, R k result →
      ∃ upshot, k.upshot? = some upshot ∧ E (.past upshot) result)
    (hrefused : ∀ fault, E .outside (.error fault)) :
    Keeps (discipline errand) E (withCycleLock body) .outside := by
  refine keeps_guarded (keeps_bind (R := fun k result => ∃ machine, k = inside machine ∧
    result = .ok ()) (keeps_lock (fun hk => hk) hlock fun machine => ⟨machine, rfl, rfl⟩) ?_ ?_)
    hrefused
  · rintro _ _ ⟨machine, rfl, -⟩
    refine keeps_andFinally (hbody machine) fun k result hR => ?_
    obtain ⟨upshot, hupshot, hends⟩ := hunlock k result hR
    exact keeps_atomic (fun _ _ hprompt _ => .unlock hprompt hupshot) fun _ _ => hends
  · rintro _ fault ⟨machine, -, hresult⟩
    cases hresult

/-- What a call answers is made of the value of another one. -/
theorem keeps_answer {β : Type} {call : Call Machine β} {f : β → α}
    (hcall : Keeps (discipline errand) (fun k result => E k (result.map f)) call k) :
    Keeps (discipline errand) E (do return f (← call)) k :=
  keeps_bind hcall (fun _ _ hends => hends) fun _ _ hends => hends

end Steps

/-- The errands that ask take the lock for a single step. -/
theorem keeps_requestCollection {errand : Errand} {E : Standing → Except Fault Unit → Prop}
    (hasks : errand.asks = true) (hends : E (.past .requested) (.ok ()))
    (hrefused : ∀ fault, E .outside (.error fault)) :
    Keeps (discipline errand) E requestCollection .outside :=
  keeps_guarded (keeps_lock (g := fun _ => .past .requested) (fun hk => hk)
    (fun _ _ hwaits hfree => .request hwaits hasks hfree) fun _ => hends) hrefused

/-- The condition is evaluated before the turn, and without it where it does not hold. -/
theorem keeps_notifyAllocation :
    Keeps (discipline .notify) (fun k result => Ends .notify k (result.map .verdict))
      notifyAllocation .outside := by
  refine keeps_bind_gives (P := fun _ => True)
    (keeps_read (f := fun machine => machine.env.condition) fun _ _ => ⟨rfl, _, trivial, rfl⟩) ?_
  intro condition _
  refine keeps_bind (R := fun k _ => k = .outside) ?stats ?verdict ?refused
  case stats =>
    rw [onHeap_readStats]
    exact keeps_guarded (keeps_read (f := fun machine => machine.env.heap.stats) fun _ _ => rfl)
      fun _ => rfl
  case refused =>
    rintro _ fault rfl
    exact .refused
  case verdict =>
    rintro _ stats rfl
    generalize condition stats = verdict
    cases verdict with
    | error fault => exact .refused
    | ok triggered =>
      cases triggered with
      | false => exact .content
      | true => exact keeps_answer (keeps_requestCollection rfl .triggered fun _ => .refused)

/-- How an offer to collect may end before it gives the lock back. -/
inductive CollectEnds : Standing → Except Fault (Option Metrics) → Prop
  | skipped {pressure shut} (hskip : pressure = false ∨ shut = true) :
      CollectEnds (.collecting pressure shut) (.ok none)
  | failed {fault} : CollectEnds (.collecting true false) (.error fault)
  | counted {metrics} : CollectEnds (.counted metrics) (.ok (some metrics))

/-- An offer that has ended under the lock ends when it has given the lock back. -/
theorem CollectEnds.ends {callStacks : List CallStack} {policy : Policy} {k : Standing}
    {result : Except Fault (Option Metrics)} (hends : CollectEnds k result) :
    ∃ upshot, k.upshot? = some upshot ∧
      Ends (.collect callStacks policy) (.past upshot) (result.map .collected) := by
  cases hends with
  | @skipped pressure shut hskip =>
    refine ⟨.skipped, ?_, .skipped⟩
    obtain rfl | rfl := hskip
    · rfl
    · cases pressure <;> rfl
  | failed => exact ⟨.failed, rfl, .failed⟩
  | counted => exact ⟨.collected _, rfl, .collected⟩

/-- An offer to collect has one turn at the cycle lock. -/
theorem keeps_collectStacks (callStacks : List CallStack) (policy : Policy) :
    Keeps (discipline (.collect callStacks policy))
      (fun k result => Ends (.collect callStacks policy) k (result.map .collected))
      (collectStacks callStacks policy) .outside := by
  refine keeps_withCycleLock (R := CollectEnds) (fun _ _ hwaits hfree => .collect hwaits hfree)
    ?_ (fun _ _ hends => hends.ends) fun _ => .refused
  intro machine
  generalize machine.env.cycle.pressure = pressure
  generalize machine.pool.shutDown = shut
  refine keeps_bind_gives (j := .collecting pressure shut) (P := (· = pressure))
    (keeps_read (f := fun machine => machine.env.cycle.pressure)
      fun _ hrelies => ⟨rfl, _, hrelies.2.1, rfl⟩) ?_
  rintro _ rfl
  rename Bool => pressure
  cases pressure with
  | false => exact .skipped (.inl rfl)
  | true =>
    refine keeps_bind_gives (j := .collecting true shut) (P := (· = shut))
      (keeps_read (f := fun machine => machine.pool.shutDown)
        fun _ hrelies => ⟨rfl, _, hrelies.2.2, rfl⟩) ?_
    rintro shut rfl
    cases shut with
    | true =>
      refine keeps_bind_gives (j := .collecting true true) (P := fun _ => True)
        (keeps_onThread fun _ => ⟨rfl, _, trivial, rfl⟩) fun _ _ => ?_
      exact .skipped (.inr rfl)
    | false =>
      refine keeps_bind (R := fun k _ => k = .collecting true false) ?cycle ?count ?failed
      case cycle =>
        refine Routine.Respects.keeps (isNeutral_runCycle callStacks policy) ?_
          (fun _ _ _ hprompt hneutral => .work hprompt hneutral) fun _ => rfl
        rintro (hprompt | hprompt) <;> cases hprompt
      case count =>
        rintro _ metrics rfl
        refine ⟨fun _ x => ⟨0, _, _, rfl⟩, ?_⟩
        rintro choice ⟨t, machine⟩ b ⟨t', machine'⟩ _ hact
        cases hact
        exact ⟨_, .count (not_waitsOut_of_forall fun x => ⟨_, rfl⟩) rfl, .counted⟩
      case failed =>
        rintro _ fault rfl
        exact .failed

/-- Whoever joins a worker waits for it and for nothing else. -/
private theorem keeps_joinWorkers (left : List Nat) :
    Keeps (discipline .shutdown) (Gives (.closing true) fun _ => True)
      (left.forM Pool.joinWorker : Call Machine Unit) (.closing true) := by
  induction left with
  | nil => exact ⟨rfl, _, trivial, rfl⟩
  | cons i left ih =>
    refine keeps_bind_gives (j := .closing true) (P := fun _ => True) ?_ fun _ _ => ih
    refine ⟨fun hprompt => hprompt.elim, ?_⟩
    rintro choice ⟨t, machine⟩ b ⟨t', machine'⟩ _ hact
    obtain ⟨⟨_, machine''⟩, hover, heq⟩ := Option.map_eq_some_iff.1 hact
    cases heq
    change (if machine.pool.isOver i then some ((), machine) else none) = some (b, machine')
      at hover
    split at hover
    · next hjoin =>
      cases hover
      refine ⟨.closing true, .idle ?_, rfl, _, trivial, rfl⟩
      obtain ⟨x, hx, hover⟩ := exists_busy_isOver i
      exact not_waitsOut hx (congrArg (Option.map _) (if_pos hover))
    · cases hover

theorem keeps_shutdown :
    Keeps (discipline .shutdown) (fun k result => Ends .shutdown k (result.map fun _ => .done))
      Machine.shutdown .outside := by
  refine keeps_withCycleLock (R := Gives (.closing true) fun _ => True)
    (fun _ _ hwaits hfree => .shutdown hwaits hfree) ?_ ?_ fun _ => .refused
  case refine_2 =>
    rintro _ _ ⟨rfl, _, -, rfl⟩
    exact ⟨.closed, rfl, .closed⟩
  intro machine
  refine keeps_bind_gives (j := .closing true) (P := fun _ => True)
    (keeps_atomic (f := fun machine => ((), { machine with pool := machine.pool.beginShutdown }))
      (fun _ _ hprompt _ => .close hprompt) fun _ _ => ⟨rfl, _, trivial, rfl⟩) fun _ _ => ?_
  refine keeps_bind_gives (j := .closing true) (P := fun _ => True)
    (keeps_atomic (f := fun machine => ((), { machine with pool := machine.pool.wakeAll }))
      (fun _ machine hprompt _ =>
        .await hprompt (.of_stirred rfl (Pool.stirred_wakeAll machine.pool)))
      fun _ _ => ⟨rfl, _, trivial, rfl⟩) fun _ _ => ?_
  refine keeps_bind_gives (j := .closing true) (P := fun _ => True)
    (keeps_atomic (f := fun machine =>
        (machine.pool.unjoined, { machine with pool := machine.pool.takeWorkers.2 }))
      (fun _ _ hprompt _ => .await hprompt (.of_workers rfl rfl))
      fun _ _ => ⟨rfl, _, trivial, rfl⟩) fun left _ => ?_
  cases left with
  | nil => exact ⟨rfl, _, trivial, rfl⟩
  | cons i left =>
    refine keeps_bind_gives (keeps_joinWorkers (i :: left)) fun _ _ => ?_
    refine keeps_bind_gives (j := .closing true) (P := fun _ => True)
      (keeps_read (f := fun machine => machine.pool.name) fun _ _ => ⟨rfl, _, trivial, rfl⟩)
      fun name _ => ?_
    exact keeps_onThread fun _ => ⟨rfl, _, trivial, rfl⟩

/-- A call on an errand does, from beginning to end, what its discipline allows. -/
theorem keeps_call (errand : Errand) :
    Keeps (discipline errand) (Ends errand) errand.call .outside := by
  cases errand with
  | request =>
    refine keeps_answer (f := fun _ => Answer.done) ?_
    exact keeps_requestCollection rfl .requested fun _ => .refused
  | notify => exact keeps_answer keeps_notifyAllocation
  | collect callStacks policy => exact keeps_answer (keeps_collectStacks callStacks policy)
  | shutdown => exact keeps_answer (f := fun _ => Answer.done) keeps_shutdown

end MarkSweep.Machine
