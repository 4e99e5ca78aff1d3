import MarkSweep.Proofs.Cycle.Concourse

namespace MarkSweep

open Machine

/-- Whether a call has returned the metrics of a collection. -/
def Visit.hasCollected (visit : Visit Errand Machine Answer) : Bool :=
  match visit.answer? with
  | some (.ok (.collected (some _))) => true
  | _ => false

/-- As many positions of a list have a property as members. -/
theorem length_eq_countP {α : Type 1} {p : α → Bool} {l : List α} {positions : List Nat}
    (hnodup : positions.Nodup)
    (hmem : ∀ i, i ∈ positions ↔ ∃ a, l[i]? = some a ∧ p a = true) :
    positions.length = l.countP p := by
  have hcount : l.countP p = ((List.range l.length).filter fun i => (l[i]?).any p).length := by
    clear hnodup hmem
    induction l with
    | nil => rfl
    | cons a l ih =>
      rw [List.countP_cons, List.length_cons, List.range_succ_eq_map, List.filter_cons,
        List.filter_map, ih]
      cases hp : p a <;> simp [hp, Function.comp_def]
  rw [hcount]
  refine ((List.perm_ext_iff_of_nodup hnodup (List.nodup_range.filter _)).2 fun i => ?_).length_eq
  rw [hmem, List.mem_filter, List.mem_range, Option.any_eq_true]
  refine ⟨?_, fun hany => hany.2⟩
  rintro ⟨a, hget, ha⟩
  exact ⟨(List.getElem?_eq_some_iff.1 hget).1, a, hget, ha⟩

namespace Machine.Standing

/-- Whether a call has found, at its turn, that there is nothing to collect or nobody to do it. -/
def IsDeclined : Standing → Prop
  | collecting pressure shut => pressure = false ∨ shut = true
  | past .skipped => True
  | outside | counted _ | closing _ | past .requested | past .failed | past (.collected _)
  | past .closed => False

/-- A call that was declined waits for nobody. -/
theorem IsDeclined.isPrompt {k : Standing} (hk : k.IsDeclined) : k.IsPrompt := by
  cases k with
  | outside => exact hk.elim
  | collecting pressure shut => exact hk
  | counted metrics => trivial
  | closing shut => exact hk.elim
  | past upshot => trivial

/-- Where a call stands whose collection was counted. -/
theorem eq_of_metrics? {k : Standing} {metrics : Metrics} (hk : k.metrics? = some metrics) :
    k = .counted metrics ∨ k = .past (.collected metrics) := by
  cases k with
  | outside => cases hk
  | collecting pressure shut => cases hk
  | counted other =>
    cases hk
    exact .inl rfl
  | closing shut => cases hk
  | past upshot =>
    cases upshot with
    | requested => cases hk
    | skipped => cases hk
    | failed => cases hk
    | collected other =>
      cases hk
      exact .inr rfl
    | closed => cases hk

end Machine.Standing

namespace Concourse

/-- What holds of the calls on one collector, whatever they have done so far. -/
structure Orderly (c : Concourse) : Prop where
  /-- At most one turn goes on at a time. -/
  alone : c.holders.length ≤ 1
  busy_iff : c.machine.env.cycle.busy = true ↔ c.holders ≠ []
  /-- Whoever does not hold the lock changes nothing but at its turn, which it has only while nobody
  holds the lock. It takes the lock then or, if it asks, raises the pressure. -/
  outside : ∀ (i : Nat) (visit visit' : Visit Errand Machine Answer) (machine : Machine),
    c.visits[i]? = some visit → visit.Step c.machine visit' machine → i ∉ c.holders →
      machine = c.machine ∨ visit.WaitsOut Busy ∧ c.holders = [] ∧
        (machine = c.machine.withCycle ({ · with busy := true }) ∨
          visit.errand.asks = true ∧ machine = c.machine.withCycle ({ · with pressure := true }))
  /-- No call has more than one turn. -/
  once : (c.turns.map (·.call)).Nodup
  /-- The pressure is raised by the turns of requests after the latest turn that was served. -/
  pressure_iff : c.machine.env.cycle.pressure = true ↔
    ∃ turn ∈ c.turns.takeWhile (·.call ∉ c.served), turn.errand.asks = true
  /-- An offer to collect is declined if its turn finds nothing to do or nobody to do it, and for
  no other reason. -/
  declined_iff : ∀ turn ∈ c.turns, turn.errand.Collects →
    ∀ visit result, c.visits[turn.call]? = some visit → visit.answer? = some result →
      (result = .ok (.collected none) ↔ turn.IsIdle)
  /-- An offer to collect that has no turn ends by a fault. -/
  refused : ∀ (i : Nat) (visit : Visit Errand Machine Answer) (result : Except Fault Answer),
    c.visits[i]? = some visit → visit.errand.Collects → i ∉ c.turns.map (·.call) →
      visit.answer? = some result → ∃ fault, result = .error fault
  /-- An offer that is declined touches nothing but the lock and waits for nobody. -/
  idle : ∀ turn ∈ c.turns, turn.errand.Collects → turn.IsIdle →
    ∀ visit, c.visits[turn.call]? = some visit →
      (visit.answer? = none → ∀ machine, ∃ visit' machine', visit.Step machine visit' machine') ∧
        ∀ visit' machine, visit.Step c.machine visit' machine →
          ∃ busy, machine = c.machine.withCycle ({ · with busy })
  /-- Nobody is served twice. -/
  servedOnce : c.served.Nodup
  /-- Who is served has offered to collect, will return and returns what was collected. -/
  served : ∀ i ∈ c.served, ∃ visit, c.visits[i]? = some visit ∧ visit.errand.Collects ∧
    (visit.answer? = none → ∀ machine, ∃ visit' machine', visit.Step machine visit' machine') ∧
      ∀ result, visit.answer? = some result → ∃ metrics, result = .ok (.collected (some metrics))
  mem_served : ∀ (i : Nat) (visit : Visit Errand Machine Answer), c.visits[i]? = some visit →
    visit.hasCollected = true → i ∈ c.served
  total_eq_length : c.machine.env.cycle.total = c.served.length
  /-- The count is the number of calls that returned what was collected, once all of them have
  returned that were served. -/
  total_eq_countP :
    (∀ i ∈ c.served, ∀ visit, c.visits[i]? = some visit → visit.answer? ≠ none) →
      c.machine.env.cycle.total = c.visits.countP (·.hasCollected)
  /-- There are as many requests as collections, or more. -/
  spent : c.machine.env.cycle.total ≤ c.turns.countP (·.errand.asks)
  lastMetrics_eq_none_iff : c.machine.env.cycle.lastMetrics = none ↔ c.served = []
  /-- The metrics that are kept are those that the latest to be served returns, and they carry the
  count. -/
  lastMetrics_eq : ∀ metrics, c.machine.env.cycle.lastMetrics = some metrics →
    metrics.totalCollections = c.machine.env.cycle.total ∧
      ∃ i visit, c.served.head? = some i ∧ c.visits[i]? = some visit ∧
        ∀ result, visit.answer? = some result → result = .ok (.collected (some metrics))

/-- What remains so once the pool is shut down: every turn finds it so, nobody is served any more,
and a pressure that is raised stays raised. -/
structure Stays (c c' : Concourse) : Prop where
  shutDown : c'.machine.pool.shutDown = true
  served : c'.served = c.served
  pressure : c.machine.env.cycle.pressure = true → c'.machine.env.cycle.pressure = true
  turns : ∃ later, c'.turns = later ++ c.turns ∧ ∀ turn ∈ later, turn.shutDown = true

/-- Where a collection was asked for and somebody can do it, the turn is not idle. -/
theorem Turn.not_isIdle {turn : Turn} (hpressure : turn.pressure = true)
    (hshut : turn.shutDown = false) : ¬turn.IsIdle := by
  rintro (hidle | hidle)
  · exact absurd (hpressure.symm.trans hidle) nofun
  · exact absurd (hshut.symm.trans hidle) nofun

variable {c c' : Concourse} {stands : Nat → Standing} {i : Nat}
  {visit visit' : Visit Errand Machine Answer} {machine : Machine}

namespace Ordered

variable (h : c.Ordered stands)

include h

/-- A step of a call is one that its errand allows. -/
theorem moves (hget : c.visits[i]? = some visit) (hstep : visit.Step c.machine visit' machine) :
    ∃ k, Moves visit.errand (visit.WaitsOut Busy) (stands i) c.machine k machine := by
  obtain ⟨k, hmoves, -⟩ := hstep.keeps (h.keeps i visit hget) (h.seated.relies i)
  exact ⟨k, hmoves⟩

/-- A call ends where its errand may end. -/
theorem ends (hget : c.visits[i]? = some visit) {result : Except Fault Answer}
    (hanswer : visit.answer? = some result) : Ends visit.errand (stands i) result :=
  Visit.ends_of_answer? (h.keeps i visit hget) hanswer

/-- A call that waits for nobody can go on. -/
theorem exists_step (hget : c.visits[i]? = some visit) (hprompt : (stands i).IsPrompt)
    (hanswer : visit.answer? = none) (machine : Machine) :
    ∃ visit' machine', visit.Step machine visit' machine' :=
  Visit.exists_step (h.keeps i visit hget) hprompt hanswer machine

theorem errand_eq {turn : Turn} (hturn : turn ∈ c.turns)
    (hget : c.visits[turn.call]? = some visit) :
    visit.errand = turn.errand := by
  have herrand := h.errands turn hturn
  rw [hget] at herrand
  exact Option.some.inj herrand

/-- Whoever does not hold the lock changes nothing that it protects, but for taking the lock. -/
theorem outside (hget : c.visits[i]? = some visit) (hstep : visit.Step c.machine visit' machine)
    (hi : i ∉ c.holders) :
    machine = c.machine ∨ visit.WaitsOut Busy ∧ c.holders = [] ∧
      (machine = c.machine.withCycle ({ · with busy := true }) ∨
        visit.errand.asks = true ∧
          machine = c.machine.withCycle ({ · with pressure := true })) := by
  obtain ⟨k, hmoves⟩ := h.moves hget hstep
  have hout : ¬(stands i).IsInside := fun hinside => hi ((h.seated.mem_holders_iff i).2 hinside)
  generalize stands i = before at hmoves hout
  generalize herrand : visit.errand = errand at hmoves
  cases hmoves with
  | idle _ => exact .inl rfl
  | request hwaits hasks hfree =>
    exact .inr ⟨hwaits, h.seated.holders_eq_nil hfree, .inr ⟨hasks, rfl⟩⟩
  | collect hwaits hfree => exact .inr ⟨hwaits, h.seated.holders_eq_nil hfree, .inl rfl⟩
  | shutdown hwaits hfree => exact .inr ⟨hwaits, h.seated.holders_eq_nil hfree, .inl rfl⟩
  | work => exact absurd trivial hout
  | count => exact absurd trivial hout
  | close => exact absurd trivial hout
  | await => exact absurd trivial hout
  | unlock _ hupshot => exact absurd (Standing.isInside_of_upshot? hupshot) hout

/-- Whoever has had its turn is in the books. -/
theorem exists_turn (hi : stands i ≠ .outside) :
    ∃ turn visit, turn ∈ c.turns ∧ turn.call = i ∧ c.visits[i]? = some visit ∧
      visit.errand = turn.errand ∧ (stands i).Fits turn := by
  obtain ⟨turn, hturn, rfl⟩ := List.mem_map.1 (h.seated.turned i hi)
  obtain ⟨visit, hget, herrand⟩ := Option.map_eq_some_iff.1 (h.errands turn hturn)
  exact ⟨turn, visit, hturn, rfl, hget, herrand, h.seated.fits turn hturn⟩

/-- An offer is declined exactly if its turn was idle. -/
theorem declined_iff {turn : Turn} (hturn : turn ∈ c.turns) (hcollects : turn.errand.Collects)
    (hget : c.visits[turn.call]? = some visit) {result : Except Fault Answer}
    (hanswer : visit.answer? = some result) :
    result = .ok (.collected none) ↔ turn.IsIdle := by
  obtain ⟨callStacks, policy, hcollect⟩ := hcollects
  have hends := h.ends hget hanswer
  have hfits := h.seated.fits turn hturn
  rw [h.errand_eq hturn hget, hcollect] at hends
  generalize stands turn.call = k at hends hfits
  cases hends with
  | refused => exact hfits.elim
  | skipped => exact iff_of_true rfl hfits.2
  | failed => exact iff_of_false nofun (Turn.not_isIdle hfits.2.1 hfits.2.2)
  | collected => exact iff_of_false nofun (Turn.not_isIdle hfits.2.1 hfits.2.2)

/-- An offer that ends without a turn has faulted. -/
theorem refused (hget : c.visits[i]? = some visit) (hcollects : visit.errand.Collects)
    (hturn : i ∉ c.turns.map (·.call)) {result : Except Fault Answer}
    (hanswer : visit.answer? = some result) : ∃ fault, result = .error fault := by
  obtain ⟨callStacks, policy, hcollect⟩ := hcollects
  have hends := h.ends hget hanswer
  have hout : stands i = .outside := by_contra fun hne => hturn (h.seated.turned i hne)
  rw [hout, hcollect] at hends
  cases hends
  exact ⟨_, rfl⟩

/-- Where a call stands whose turn found nothing to collect. -/
theorem isDeclined {turn : Turn} (hturn : turn ∈ c.turns) (hcollects : turn.errand.Collects)
    (hidle : turn.IsIdle) : (stands turn.call).IsDeclined := by
  obtain ⟨callStacks, policy, hcollect⟩ := hcollects
  have hfits := h.seated.fits turn hturn
  generalize stands turn.call = k at hfits ⊢
  cases k with
  | outside => exact hfits.elim
  | collecting pressure shut => exact hfits.2.1 ▸ hfits.2.2 ▸ hidle
  | counted metrics => exact absurd hidle (Turn.not_isIdle hfits.2.1 hfits.2.2)
  | closing shut => exact absurd (hcollect.symm.trans hfits) nofun
  | past upshot =>
    cases upshot with
    | requested =>
      rw [Standing.Fits, hcollect] at hfits
      cases hfits
    | skipped => trivial
    | failed => exact absurd hidle (Turn.not_isIdle hfits.2.1 hfits.2.2)
    | collected metrics => exact absurd hidle (Turn.not_isIdle hfits.2.1 hfits.2.2)
    | closed => exact absurd (hcollect.symm.trans hfits) nofun

/-- An offer with an idle turn goes on at once, and changes nothing. -/
theorem idle {turn : Turn} (hturn : turn ∈ c.turns) (hcollects : turn.errand.Collects)
    (hidle : turn.IsIdle) (hget : c.visits[turn.call]? = some visit) :
    (visit.answer? = none → ∀ machine, ∃ visit' machine', visit.Step machine visit' machine') ∧
      ∀ visit' machine, visit.Step c.machine visit' machine →
        ∃ busy, machine = c.machine.withCycle ({ · with busy }) := by
  have hdeclined := h.isDeclined hturn hcollects hidle
  refine ⟨h.exists_step hget hdeclined.isPrompt, ?_⟩
  intro visit' machine hstep
  obtain ⟨k, hmoves⟩ := h.moves hget hstep
  generalize stands turn.call = before at hmoves hdeclined
  generalize visit.errand = errand at hmoves
  cases hmoves with
  | idle _ => exact ⟨c.machine.env.cycle.busy, rfl⟩
  | unlock _ _ => exact ⟨false, rfl⟩
  | work => obtain hpressure | hshut := hdeclined <;> contradiction
  | count => obtain hpressure | hshut := hdeclined <;> contradiction
  | request => exact hdeclined.elim
  | collect => exact hdeclined.elim
  | shutdown => exact hdeclined.elim
  | close => exact hdeclined.elim
  | await => exact hdeclined.elim

/-- A collection that was counted is of a call that offered to collect and returns its metrics. -/
theorem served {metrics : Metrics} (hi : (stands i).metrics? = some metrics) :
    ∃ visit, c.visits[i]? = some visit ∧ visit.errand.Collects ∧
      (visit.answer? = none → ∀ machine, ∃ visit' machine', visit.Step machine visit' machine') ∧
        ∀ result, visit.answer? = some result → result = .ok (.collected (some metrics)) := by
  have hcases := Standing.eq_of_metrics? hi
  have hturned : stands i ≠ .outside := by
    obtain hstand | hstand := hcases <;> rw [hstand] <;> exact nofun
  obtain ⟨turn, visit, -, -, hget, herrand, hfits⟩ := h.exists_turn hturned
  refine ⟨visit, hget, ?collects, h.exists_step hget ?prompt, ?answer⟩
  case collects =>
    rw [herrand]
    obtain hstand | hstand := hcases <;> rw [hstand] at hfits <;> exact hfits.1
  case prompt => obtain hstand | hstand := hcases <;> rw [hstand] <;> trivial
  case answer =>
    intro result hanswer
    have hends := h.ends hget hanswer
    generalize visit.errand = errand at hends
    obtain hstand | hstand := hcases <;> rw [hstand] at hends <;> cases hends
    rfl

/-- Whoever has metrics was served. -/
theorem mem_served_of_hasCollected (hget : c.visits[i]? = some visit)
    (hcollected : visit.hasCollected = true) : i ∈ c.served := by
  obtain ⟨metrics, hanswer⟩ :
      ∃ metrics, visit.answer? = some (.ok (.collected (some metrics))) := by
    unfold Visit.hasCollected at hcollected
    split at hcollected
    · exact ⟨_, ‹_›⟩
    · cases hcollected
  have hends := h.ends hget hanswer
  rw [h.counted.mem_served_iff]
  generalize stands i = k at hends ⊢
  generalize visit.errand = errand at hends
  cases hends
  exact nofun

/-- The books of calls that keep their discipline tell the whole story. -/
theorem orderly : c.Orderly where
  alone := h.seated.alone
  busy_iff := h.seated.busy_iff
  outside _ _ _ _ hget hstep hi := h.outside hget hstep hi
  once := h.seated.once
  pressure_iff := h.counted.pressure_iff
  declined_iff _ hturn hcollects _ _ hget hanswer := h.declined_iff hturn hcollects hget hanswer
  refused _ _ _ hget hcollects hturn hanswer := h.refused hget hcollects hturn hanswer
  idle _ hturn hcollects hidle _ hget := h.idle hturn hcollects hidle hget
  servedOnce := h.counted.once
  served i hi := by
    obtain ⟨metrics, hmetrics⟩ := Option.ne_none_iff_exists'.1 ((h.counted.mem_served_iff i).1 hi)
    obtain ⟨visit, hget, hcollects, hprompt, hanswer⟩ := h.served hmetrics
    exact ⟨visit, hget, hcollects, hprompt, fun result hresult => ⟨metrics, hanswer result hresult⟩⟩
  mem_served _ _ hget hcollected := h.mem_served_of_hasCollected hget hcollected
  total_eq_length := h.counted.total
  total_eq_countP hended := by
    rw [h.counted.total]
    refine length_eq_countP h.counted.once fun i => ⟨fun hi => ?_, ?_⟩
    · obtain ⟨metrics, hmetrics⟩ :=
        Option.ne_none_iff_exists'.1 ((h.counted.mem_served_iff i).1 hi)
      obtain ⟨visit, hget, -, -, hanswer⟩ := h.served hmetrics
      obtain ⟨result, hresult⟩ := Option.ne_none_iff_exists'.1 (hended i hi visit hget)
      refine ⟨visit, hget, ?_⟩
      rw [Visit.hasCollected, hresult, hanswer result hresult]
    · rintro ⟨visit, hget, hcollected⟩
      exact h.mem_served_of_hasCollected hget hcollected
  spent := by
    have hspent := h.counted.spent
    rw [h.counted.total]
    omega
  lastMetrics_eq_none_iff := by
    rw [h.counted.last]
    cases hserved : c.served with
    | nil => exact iff_of_true rfl rfl
    | cons i served =>
      have hmem := (h.counted.mem_served_iff i).1 (hserved ▸ List.mem_cons_self)
      exact iff_of_false hmem nofun
  lastMetrics_eq metrics hlast := by
    refine ⟨h.counted.lastTotal metrics hlast, ?_⟩
    rw [h.counted.last] at hlast
    obtain ⟨i, hhead, hmetrics⟩ := Option.bind_eq_some_iff.1 hlast
    obtain ⟨visit, hget, -, -, hanswer⟩ := h.served hmetrics
    exact ⟨i, visit, hhead, hget, hanswer⟩

end Ordered

/-- A step of a call that finds the pool shut down leaves it so, counts nothing and takes no
pressure away. -/
theorem moves_shutDown {errand : Errand} {waits : Prop} {k k' : Standing} {before after : Machine}
    (hmoves : Moves errand waits k before k' after)
    (hrelies : k.Relies before.env.cycle before.pool.shutDown)
    (hshut : before.pool.shutDown = true) :
    after.pool.shutDown = true ∧ after.env.cycle.total = before.env.cycle.total ∧
      (before.env.cycle.pressure = true → after.env.cycle.pressure = true) := by
  cases hmoves with
  | idle => exact ⟨hshut, rfl, id⟩
  | request => exact ⟨hshut, rfl, fun _ => rfl⟩
  | collect => exact ⟨hshut, rfl, id⟩
  | shutdown => exact ⟨hshut, rfl, id⟩
  | work => exact absurd (hshut.symm.trans hrelies.2.2) nofun
  | count => exact absurd (hshut.symm.trans hrelies.2.2) nofun
  | close => exact ⟨rfl, rfl, id⟩
  | await _ hneutral =>
    rw [hneutral.shutDown, hneutral.cycle]
    exact ⟨hshut, rfl, id⟩
  | unlock => exact ⟨hshut, rfl, id⟩

/-- After one more step nothing has changed in a collector whose pool is shut down. -/
theorem Ordered.stays_step (h : c.Ordered stands) (hshut : c.machine.pool.shutDown = true)
    (hstep : c.Step c') : c.Stays c' := by
  cases hstep with
  | arrive errand caller => exact ⟨hshut, rfl, id, [], rfl, nofun⟩
  | @turn i visit visit' machine hget hwaits hstep =>
    obtain ⟨k, hmoves⟩ := h.moves hget hstep
    obtain ⟨hshut', -, hpressure⟩ := moves_shutDown hmoves (h.seated.relies i) hshut
    refine ⟨hshut', rfl, hpressure, [_], rfl, ?_⟩
    exact List.forall_mem_singleton.2 hshut
  | @call i visit visit' machine hget hprompt hstep =>
    obtain ⟨k, hmoves⟩ := h.moves hget hstep
    obtain ⟨hshut', htotal, hpressure⟩ := moves_shutDown hmoves (h.seated.relies i) hshut
    exact ⟨hshut', if_pos htotal, hpressure, [], rfl, nofun⟩
  | work hstep =>
    have hneutral := neutral_workerStep h.plain hstep
    refine ⟨hneutral.shutDown.trans hshut, rfl, fun hpressure => ?_, [], rfl, nofun⟩
    rw [hneutral.cycle]
    exact hpressure
  | others env hcycle =>
    refine ⟨hshut, rfl, fun hpressure => ?_, [], rfl, nofun⟩
    rw [hcycle]
    exact hpressure

/-- Once the pool is shut down nobody is served any more. -/
theorem Ordered.stays (h : c.Ordered stands) (hshut : c.machine.pool.shutDown = true)
    (hrun : Relation.ReflTransGen Step c c') : c.Stays c' := by
  induction hrun with
  | refl => exact ⟨hshut, rfl, id, [], rfl, nofun⟩
  | tail hbefore hstep ih =>
    obtain ⟨stands', h'⟩ := h.run hbefore
    obtain ⟨hshut', hserved, hpressure, turn, hturns, hlate⟩ := h'.stays_step ih.shutDown hstep
    obtain ⟨later, hearlier, hfound⟩ := ih.turns
    refine ⟨hshut', hserved.trans ih.served, fun h => hpressure (ih.pressure h), turn ++ later, ?_,
      ?_⟩
    · rw [hturns, hearlier, List.append_assoc]
    · exact List.forall_mem_append.2 ⟨hlate, hfound⟩

/-- Lets a call go on in the ordinary course, and the first worker where the call has to wait. -/
def pursue (i : Nat) : (steps : Nat) → Machine × List (Visit Errand Machine Answer) →
    Machine × List (Visit Errand Machine Answer)
  | 0, s => s
  | steps + 1, (machine, visits) =>
    match visits[i]?.bind (·.next? 0 machine) with
    | some (visit, machine) => pursue i steps (machine, visits.set i visit)
    | none =>
      match Worksite.workerStep Job.body 0 0 machine with
      | some machine => pursue i steps (machine, visits)
      | none => (machine, visits)

/-- A new thread makes a call and pursues it. -/
def ask (errand : Errand) (steps : Nat) (s : Machine × List (Visit Errand Machine Answer)) :
    Machine × List (Visit Errand Machine Answer) :=
  pursue s.2.length steps (s.1, s.2 ++ [⟨errand, {}, {}, errand.call⟩])

/-- What the calls were about and what they have answered. -/
def report (s : Machine × List (Visit Errand Machine Answer)) :
    List (Errand × Option (Except Fault Answer)) :=
  s.2.map fun visit => (visit.errand, visit.answer?)

/-- A world with two objects, of which a frame holds the first. -/
def littered : World where
  heap := (({} : Heap).putObject 1 ⟨#[none]⟩).putObject 2 ⟨#[]⟩
  frames := #[⟨#[some (.object 1)], #[], none⟩]
  config := .withWorkers 1

/-- One thread has asked for a collection, another one has begun it, and a third one is about to ask
for the next. -/
def midway : Machine × List (Visit Errand Machine Answer) :=
  ask .request 1 <| ask (.collect [[0]] .markAndSweep) 4 <| ask .request 4
    (⟨Pool.create 1 "gc", littered⟩, [])

/-- The collection is over, the next one was asked for, and the collector is shut down. -/
def closed : Machine × List (Visit Errand Machine Answer) :=
  ask .shutdown 11 (pursue 2 4 (pursue 1 95 midway))

end Concourse

end MarkSweep
