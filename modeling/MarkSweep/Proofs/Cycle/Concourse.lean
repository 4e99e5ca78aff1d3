import Mathlib.Logic.Function.Basic
import Mathlib.Logic.Relation
import MarkSweep.Proofs.Cycle.Errands
import MarkSweep.Proofs.Cycle.History

namespace MarkSweep

open Machine

/-- A turn at the cycle lock, and what the call found when it had it. -/
structure Concourse.Turn where
  call : Nat
  errand : Errand
  /-- Whether a collection was asked for. -/
  pressure : Bool
  shutDown : Bool

/-- Whether there was nothing to collect, or nobody to do it. -/
def Concourse.Turn.IsIdle (turn : Concourse.Turn) : Prop :=
  turn.pressure = false ∨ turn.shutDown = true

/-- A collector with the calls that were ever made on it. -/
structure Concourse where
  machine : Machine
  visits : List (Visit Errand Machine Answer) := []
  /-- Every turn at the cycle lock, the latest first. -/
  turns : List Concourse.Turn := []
  /-- The calls whose turn goes on. -/
  holders : List Nat := []
  /-- The calls that raised the count of collections, the latest first. -/
  served : List Nat := []

namespace Concourse

/-- What can happen next. A step that has to wait while somebody holds the cycle lock is a turn at
the lock; it goes on for as long as the call leaves the lock held. -/
inductive Step : Concourse → Concourse → Prop
  /-- A thread makes a call. -/
  | arrive {c : Concourse} (errand : Errand) (caller : Thread) :
      Step c { c with visits := c.visits ++ [⟨errand, caller, caller, errand.call⟩] }
  | turn {c : Concourse} {i : Nat} {visit visit' : Visit Errand Machine Answer}
      {machine : Machine} (hget : c.visits[i]? = some visit) (hwaits : visit.WaitsOut Busy)
      (hstep : visit.Step c.machine visit' machine) :
      Step c
        { machine
          visits := c.visits.set i visit'
          turns :=
            ⟨i, visit.errand, c.machine.env.cycle.pressure, c.machine.pool.shutDown⟩ :: c.turns
          holders := if machine.env.cycle.busy then i :: c.holders else c.holders
          served := c.served }
  | call {c : Concourse} {i : Nat} {visit visit' : Visit Errand Machine Answer}
      {machine : Machine} (hget : c.visits[i]? = some visit) (hprompt : ¬visit.WaitsOut Busy)
      (hstep : visit.Step c.machine visit' machine) :
      Step c
        { machine
          visits := c.visits.set i visit'
          turns := c.turns
          holders := if machine.env.cycle.busy then c.holders else c.holders.erase i
          served :=
            if machine.env.cycle.total = c.machine.env.cycle.total then c.served
            else i :: c.served }
  /-- A worker takes a step. -/
  | work {c : Concourse} {choice : Choice} {i : Nat} {machine : Machine}
      (hstep : Worksite.workerStep Job.body choice i c.machine = some machine) :
      Step c { c with machine }
  /-- Others do something that has nothing to do with the cycle lock. -/
  | others {c : Concourse} (env : World) (hcycle : env.cycle = c.machine.env.cycle) :
      Step c { c with machine := { c.machine with env } }

end Concourse

/-- Whether an errand is to collect. -/
def Machine.Errand.Collects (errand : Errand) : Prop :=
  ∃ callStacks policy, errand = .collect callStacks policy

namespace Machine.Standing

/-- What the turn of a call was like, as far as its standing tells. -/
def Fits (turn : Concourse.Turn) : Standing → Prop
  | outside => False
  | collecting pressure shut =>
    turn.errand.Collects ∧ turn.pressure = pressure ∧ turn.shutDown = shut
  | counted _ | past .failed | past (.collected _) =>
    turn.errand.Collects ∧ turn.pressure = true ∧ turn.shutDown = false
  | past .skipped => turn.errand.Collects ∧ turn.IsIdle
  | closing _ | past .closed => turn.errand = .shutdown
  | past .requested => turn.errand.asks = true

/-- What a collection that was counted found. -/
def metrics? : Standing → Option Metrics
  | counted metrics | past (.collected metrics) => some metrics
  | outside | collecting _ _ | closing _ | past .requested | past .skipped | past .failed
  | past .closed => none

/-- A call that does not hold the lock relies on nothing. -/
theorem relies_of_not_isInside {k : Standing} (hk : ¬k.IsInside) (cycle : CycleState)
    (shut : Bool) : k.Relies cycle shut := by
  cases k with
  | outside => trivial
  | past upshot => trivial
  | collecting pressure shut => exact absurd trivial hk
  | counted metrics => exact absurd trivial hk
  | closing shut => exact absurd trivial hk

/-- A call that gives the lock back keeps no more than the lock from the others. -/
theorem fits_past {k : Standing} {upshot : Upshot} {turn : Concourse.Turn}
    (hupshot : k.upshot? = some upshot) (hfits : k.Fits turn) : (past upshot).Fits turn := by
  cases k with
  | outside => cases hupshot
  | past other => cases hupshot
  | collecting pressure shut =>
    obtain ⟨hcollects, hpressure, hshut⟩ := hfits
    cases pressure <;> cases shut <;> cases hupshot
    · exact ⟨hcollects, .inl hpressure⟩
    · exact ⟨hcollects, .inl hpressure⟩
    · exact ⟨hcollects, hpressure, hshut⟩
    · exact ⟨hcollects, .inr hshut⟩
  | counted metrics =>
    cases hupshot
    exact hfits
  | closing shut =>
    cases shut with
    | false => cases hupshot
    | true =>
      cases hupshot
      exact hfits

/-- A call that has given the lock back knows the metrics that it found. -/
theorem metrics?_past {k : Standing} {upshot : Upshot} (hupshot : k.upshot? = some upshot) :
    (past upshot).metrics? = k.metrics? := by
  cases k with
  | outside => cases hupshot
  | past other => cases hupshot
  | collecting pressure shut => cases pressure <;> cases shut <;> cases hupshot <;> rfl
  | counted metrics =>
    cases hupshot
    rfl
  | closing shut =>
    cases shut with
    | false => cases hupshot
    | true =>
      cases hupshot
      rfl

/-- Only a call that has shut the pool down tells of having closed it. -/
theorem shutDown_of_upshot? {k : Standing} {cycle : CycleState} {shut : Bool}
    (hupshot : k.upshot? = some .closed) (hrelies : k.Relies cycle shut) : shut = true := by
  cases k with
  | outside => cases hupshot
  | past other => cases hupshot
  | collecting pressure found => cases pressure <;> cases found <;> cases hupshot
  | counted metrics => cases hupshot
  | closing begun =>
    cases begun with
    | false => cases hupshot
    | true => exact hrelies.2 rfl

/-- What becomes of a turn is known only while it lasts. -/
theorem isInside_of_upshot? {k : Standing} {upshot : Upshot} (hupshot : k.upshot? = some upshot) :
    k.IsInside := by
  cases k with
  | outside => cases hupshot
  | past other => cases hupshot
  | collecting pressure shut => trivial
  | counted metrics => trivial
  | closing shut => trivial

end Machine.Standing

namespace Concourse

/-- The books about turns agree with where the calls stand. -/
structure Seated (cycle : CycleState) (shut : Bool) (turns : List Turn) (holders : List Nat)
    (stands : Nat → Standing) : Prop where
  relies : ∀ i, (stands i).Relies cycle shut
  mem_holders_iff : ∀ i, i ∈ holders ↔ (stands i).IsInside
  alone : holders.length ≤ 1
  busy_iff : cycle.busy = true ↔ holders ≠ []
  fits : ∀ turn ∈ turns, (stands turn.call).Fits turn
  turned : ∀ i, stands i ≠ .outside → i ∈ turns.map (·.call)
  once : (turns.map (·.call)).Nodup
  latest : ∀ i ∈ holders, (turns.map (·.call)).head? = some i
  closed : ∀ i, stands i = .past .closed → shut = true

/-- The books about what was counted agree with where the calls stand and with what the cycle lock
protects. -/
structure Counted (cycle : CycleState) (turns : List Turn) (served : List Nat)
    (stands : Nat → Standing) : Prop where
  mem_served_iff : ∀ i, i ∈ served ↔ (stands i).metrics? ≠ none
  once : served.Nodup
  total : cycle.total = served.length
  last : cycle.lastMetrics = served.head?.bind fun i => (stands i).metrics?
  lastTotal : ∀ metrics, cycle.lastMetrics = some metrics → metrics.totalCollections = cycle.total
  pressure_iff : cycle.pressure = true ↔
    ∃ turn ∈ turns.takeWhile (·.call ∉ served), turn.errand.asks = true
  spent : served.length + cycle.pressure.toNat ≤ turns.countP (·.errand.asks)

section Books

variable {cycle cycle' : CycleState} {shut shut' : Bool} {turns : List Turn}
  {holders served holders' : List Nat} {stands : Nat → Standing} {i : Nat} {k : Standing}

namespace Seated

variable (h : Seated cycle shut turns holders stands)

include h

/-- While nobody holds the lock, nobody is inside. -/
theorem not_isInside (hfree : cycle.busy = false) (j : Nat) : ¬(stands j).IsInside := by
  intro hinside
  have hbusy := h.busy_iff.2 (List.ne_nil_of_mem ((h.mem_holders_iff j).2 hinside))
  rw [hfree] at hbusy
  cases hbusy

/-- While the lock is free nobody holds it. -/
theorem holders_eq_nil (hfree : cycle.busy = false) : holders = [] := by
  by_contra hne
  rw [h.busy_iff.2 hne] at hfree
  cases hfree

/-- A call that leaves the lock as it is leaves the books as they are. -/
theorem holders_keep (i : Nat) : (if cycle.busy then holders else holders.erase i) = holders := by
  cases hbusy : cycle.busy with
  | true => rfl
  | false =>
    rw [h.holders_eq_nil hbusy]
    rfl

/-- Whoever is inside is the only one. -/
theorem holders_eq (hi : (stands i).IsInside) : holders = [i] := by
  have hmem := (h.mem_holders_iff i).2 hi
  have halone := h.alone
  match holders with
  | [] => cases hmem
  | [j] => rw [List.mem_singleton.1 hmem]
  | _ :: _ :: _ => simp at halone

/-- While one call is inside no other one is. -/
theorem not_isInside_of_ne (hi : (stands i).IsInside) {j : Nat} (hj : j ≠ i) :
    ¬(stands j).IsInside := by
  intro hinside
  have hmem := (h.mem_holders_iff j).2 hinside
  rw [h.holders_eq hi] at hmem
  exact hj (List.mem_singleton.1 hmem)

/-- A call that has not had its turn yet is not in the book of turns. -/
theorem not_mem_turns (hi : stands i = .outside) : i ∉ turns.map (·.call) := by
  intro hmem
  obtain ⟨turn, hturn, rfl⟩ := List.mem_map.1 hmem
  have hfits := h.fits turn hturn
  rw [hi] at hfits
  exact hfits

end Seated

/-- A call that moved to `k` holds the lock if it is inside there, and otherwise nobody does. -/
structure Manned (i : Nat) (k : Standing) (cycle : CycleState) (holders : List Nat) : Prop where
  eq_of_isInside : k.IsInside → holders = [i] ∧ cycle.busy = true
  eq_of_not_isInside : ¬k.IsInside → holders = [] ∧ cycle.busy = false

namespace Manned

variable (hmanned : Manned i k cycle holders)

include hmanned

/-- At most one call holds the lock. -/
theorem alone : holders.length ≤ 1 := by
  by_cases hk : k.IsInside
  · rw [(hmanned.eq_of_isInside hk).1]
    exact Nat.le_refl 1
  · rw [(hmanned.eq_of_not_isInside hk).1]
    exact Nat.zero_le 1

/-- The lock is taken exactly if some call holds it. -/
theorem busy_iff : cycle.busy = true ↔ holders ≠ [] := by
  by_cases hk : k.IsInside
  · obtain ⟨hholders, hbusy⟩ := hmanned.eq_of_isInside hk
    simp [hholders, hbusy]
  · obtain ⟨hholders, hbusy⟩ := hmanned.eq_of_not_isInside hk
    simp [hholders, hbusy]

/-- Whoever holds the lock is the call that is inside. -/
theorem eq_of_mem {j : Nat} (hj : j ∈ holders) : j = i := by
  by_cases hk : k.IsInside
  · rw [(hmanned.eq_of_isInside hk).1] at hj
    exact List.mem_singleton.1 hj
  · rw [(hmanned.eq_of_not_isInside hk).1] at hj
    cases hj

/-- After a step of one call, those hold the lock that are inside. -/
theorem mem_iff (hothers : ∀ j, j ≠ i → ¬(stands j).IsInside) :
    ∀ j, j ∈ holders ↔ (Function.update stands i k j).IsInside := by
  refine (Function.forall_update_iff stands fun j k => j ∈ holders ↔ k.IsInside).2 ⟨?_, ?_⟩
  · by_cases hk : k.IsInside
    · simp [(hmanned.eq_of_isInside hk).1, hk]
    · simp [(hmanned.eq_of_not_isInside hk).1, hk]
  · exact fun j hj => iff_of_false (fun hmem => hj (hmanned.eq_of_mem hmem)) (hothers j hj)

end Manned

/-- A call has its turn. -/
theorem Seated.turn (h : Seated cycle shut turns holders stands) {turn : Turn}
    (hi : stands turn.call = .outside) (hfree : cycle.busy = false) (hfits : k.Fits turn)
    (hrelies : k.Relies cycle' shut) (hmanned : Manned turn.call k cycle' holders')
    (hclosed : k ≠ .past .closed) :
    Seated cycle' shut (turn :: turns) holders' (Function.update stands turn.call k) := by
  -- The lock was free: whatever the turn changes, nobody else relies on it.
  have hnobody := h.not_isInside hfree
  have hnew := h.not_mem_turns hi
  refine ⟨?relies, hmanned.mem_iff fun j _ => hnobody j, hmanned.alone, hmanned.busy_iff, ?fits,
    ?turned, ?once, ?latest, ?closed⟩
  case relies =>
    refine (Function.forall_update_iff stands fun _ k => k.Relies cycle' shut).2 ⟨hrelies, ?_⟩
    exact fun j _ => Standing.relies_of_not_isInside (hnobody j) cycle' shut
  case fits =>
    intro other hother
    obtain rfl | hother := List.mem_cons.1 hother
    · rwa [Function.update_self]
    · have hne : other.call ≠ turn.call := by
        intro heq
        exact hnew (heq ▸ List.mem_map_of_mem hother)
      rw [Function.update_of_ne hne]
      exact h.fits other hother
  case turned =>
    refine (Function.forall_update_iff stands fun j k =>
      k ≠ .outside → j ∈ (turn :: turns).map (·.call)).2 ⟨?_, ?_⟩
    · exact fun _ => List.mem_cons_self
    · exact fun j _ hj => List.mem_cons_of_mem _ (h.turned j hj)
  case once => exact List.nodup_cons.2 ⟨hnew, h.once⟩
  case latest =>
    intro j hj
    rw [hmanned.eq_of_mem hj]
    rfl
  case closed =>
    refine (Function.forall_update_iff stands fun _ k => k = .past .closed → shut = true).2 ⟨?_, ?_⟩
    · exact fun hk => absurd hk hclosed
    · exact fun j _ => h.closed j

/-- Whoever is inside moves on. -/
theorem Seated.move (h : Seated cycle shut turns holders stands) (hi : (stands i).IsInside)
    (hfits : ∀ turn, (stands i).Fits turn → k.Fits turn) (hrelies : k.Relies cycle' shut')
    (hmanned : Manned i k cycle' holders') (hclosed : k = .past .closed → shut' = true)
    (hshut : shut = true → shut' = true) :
    Seated cycle' shut' turns holders' (Function.update stands i k) := by
  have hothers : ∀ j, j ≠ i → ¬(stands j).IsInside := fun j hj => h.not_isInside_of_ne hi hj
  have hlatest := h.latest i ((h.mem_holders_iff i).2 hi)
  refine ⟨?relies, hmanned.mem_iff hothers, hmanned.alone, hmanned.busy_iff, ?fits, ?turned,
    h.once, ?latest, ?closed⟩
  case relies =>
    refine (Function.forall_update_iff stands fun _ k => k.Relies cycle' shut').2 ⟨hrelies, ?_⟩
    exact fun j hj => Standing.relies_of_not_isInside (hothers j hj) cycle' shut'
  case fits =>
    intro turn hturn
    have hbefore := h.fits turn hturn
    by_cases hj : turn.call = i
    · rw [hj] at hbefore
      rw [hj, Function.update_self]
      exact hfits turn hbefore
    · rwa [Function.update_of_ne hj]
  case turned =>
    refine (Function.forall_update_iff stands fun j k =>
      k ≠ .outside → j ∈ turns.map (·.call)).2 ⟨?_, fun j _ => h.turned j⟩
    exact fun _ => List.mem_of_mem_head? hlatest
  case latest =>
    intro j hj
    rwa [hmanned.eq_of_mem hj]
  case closed =>
    refine (Function.forall_update_iff stands fun _ k => k = .past .closed → shut' = true).2
      ⟨hclosed, fun j _ hj => hshut (h.closed j hj)⟩

/-- Nothing is counted where a call moves to a place that tells of no other collection. -/
theorem Counted.keep (h : Counted cycle turns served stands)
    (hmetrics : k.metrics? = (stands i).metrics?)
    (hcycle : cycle' = { cycle with busy := cycle'.busy }) :
    Counted cycle' turns served (Function.update stands i k) := by
  have hsame : ∀ j, (Function.update stands i k j).metrics? = (stands j).metrics? :=
    (Function.forall_update_iff stands fun j k => k.metrics? = (stands j).metrics?).2
      ⟨hmetrics, fun j _ => rfl⟩
  rw [hcycle]
  refine ⟨?_, h.once, h.total, ?_, h.lastTotal, h.pressure_iff, h.spent⟩
  · simp only [hsame]
    exact h.mem_served_iff
  · simp only [hsame]
    exact h.last

/-- A call that has no metrics has not been served. -/
theorem Counted.not_mem_served (h : Counted cycle turns served stands)
    (hi : (stands i).metrics? = none) : i ∉ served :=
  fun hmem => (h.mem_served_iff i).1 hmem hi

/-- A turn counts as a request if its errand asks for a collection. -/
theorem Counted.turn (h : Counted cycle turns served stands) {turn : Turn}
    (hi : stands turn.call = .outside) (hnew : k.metrics? = none)
    (hcycle : cycle' = { cycle with
      busy := cycle'.busy, pressure := turn.errand.asks || cycle.pressure }) :
    Counted cycle' (turn :: turns) served (Function.update stands turn.call k) := by
  have hnone : (stands turn.call).metrics? = none := by
    rw [hi]
    rfl
  have hunserved := h.not_mem_served hnone
  have hkept : Counted cycle turns served (Function.update stands turn.call k) :=
    h.keep (hnew.trans hnone.symm) rfl
  rw [hcycle]
  refine ⟨hkept.mem_served_iff, h.once, h.total, hkept.last, h.lastTotal, ?pressure, ?spent⟩
  case pressure =>
    rw [Bool.or_eq_true, h.pressure_iff, List.takeWhile_cons_of_pos (by simpa using hunserved)]
    simp
  case spent =>
    have hspent := h.spent
    rw [List.countP_cons]
    cases turn.errand.asks with
    | true =>
      have := cycle.pressure.toNat_le
      simp only [Bool.true_or, Bool.toNat_true, if_true]
      omega
    | false => simpa using hspent

/-- A collection is counted; it was the latest to have its turn. -/
theorem Counted.count (h : Counted cycle turns served stands) (hi : (stands i).metrics? = none)
    (hlatest : (turns.map (·.call)).head? = some i) (hpressure : cycle.pressure = true)
    {metrics : Metrics} (hmetrics : k.metrics? = some metrics)
    (htotal : metrics.totalCollections = cycle.total + 1) :
    Counted
      { cycle with pressure := false, total := cycle.total + 1, lastMetrics := some metrics }
      turns (i :: served) (Function.update stands i k) := by
  refine ⟨?mem, List.nodup_cons.2 ⟨h.not_mem_served hi, h.once⟩, congrArg (· + 1) h.total, ?last,
    ?lastTotal, ?pressure, ?spent⟩
  case mem =>
    refine (Function.forall_update_iff stands fun j k => j ∈ i :: served ↔ k.metrics? ≠ none).2
      ⟨?_, ?_⟩
    · simp [hmetrics]
    · intro j hj
      rw [List.mem_cons, h.mem_served_iff j]
      simp [hj]
  case last => simp [hmetrics]
  case lastTotal =>
    rintro _ hlast
    cases hlast
    exact htotal
  case pressure =>
    have hnone : turns.takeWhile (·.call ∉ i :: served) = [] := by
      cases turns with
      | nil => rfl
      | cons turn turns =>
        cases hlatest
        simp
    rw [hnone]
    simp
  case spent =>
    have hspent := h.spent
    rw [hpressure] at hspent
    exact hspent

end Books

/-- The calls keep their discipline from where they stand, and the books agree. -/
structure Ordered (c : Concourse) (stands : Nat → Standing) : Prop where
  keeps : ∀ (i : Nat) (visit : Visit Errand Machine Answer), c.visits[i]? = some visit →
    visit.rest.Keeps (discipline visit.errand) (Ends visit.errand) (stands i)
  absent : ∀ i : Nat, c.visits[i]? = none → stands i = .outside
  errands : ∀ turn ∈ c.turns, (c.visits[turn.call]?).map (·.errand) = some turn.errand
  plain : c.machine.pool.Plain
  seated : Seated c.machine.env.cycle c.machine.pool.shutDown c.turns c.holders stands
  counted : Counted c.machine.env.cycle c.turns c.served stands

namespace Ordered

variable {c c' : Concourse} {stands : Nat → Standing} {i : Nat}
  {visit visit' : Visit Errand Machine Answer} {k : Standing} {machine : Machine}

/-- What others do leaves the books as they are. -/
theorem of_neutral (h : c.Ordered stands) (hneutral : c.machine.Neutral machine) :
    Ordered { c with machine } stands := by
  refine ⟨h.keeps, h.absent, h.errands, hneutral.plain h.plain, ?_, ?_⟩
  · simp only [hneutral.cycle, hneutral.shutDown]
    exact h.seated
  · simp only [hneutral.cycle]
    exact h.counted

/-- A new call has not had its turn yet. -/
theorem arrive (h : c.Ordered stands) (errand : Errand) (caller : Thread) :
    Ordered { c with visits := c.visits ++ [⟨errand, caller, caller, errand.call⟩] } stands := by
  refine ⟨?keeps, ?absent, ?errands, h.plain, h.seated, h.counted⟩
  case keeps =>
    intro i visit hget
    by_cases hlt : i < c.visits.length
    · rw [List.getElem?_append_left hlt] at hget
      exact h.keeps i visit hget
    · obtain ⟨hnew, rfl⟩ : i = c.visits.length ∧ ⟨errand, caller, caller, errand.call⟩ = visit := by
        rw [List.getElem?_append_right (by omega), List.getElem?_singleton] at hget
        split at hget
        · exact ⟨by omega, Option.some.inj hget⟩
        · cases hget
      rw [h.absent i (List.getElem?_eq_none (by omega))]
      exact keeps_call errand
  case absent =>
    intro i hget
    refine h.absent i (List.getElem?_eq_none ?_)
    have hlen := List.getElem?_eq_none_iff.1 hget
    rw [List.length_append] at hlen
    omega
  case errands =>
    intro turn hturn
    have hbefore := h.errands turn hturn
    cases hget : c.visits[turn.call]? with
    | none =>
      rw [hget] at hbefore
      cases hbefore
    | some visit => rwa [List.getElem?_append_left (List.getElem?_eq_some_iff.1 hget).1]

/-- A call took a step and stands at `k` now. -/
theorem advance (h : c.Ordered stands) (hget : c.visits[i]? = some visit)
    (hsame : visit'.errand = visit.errand)
    (hkeeps : visit'.rest.Keeps (discipline visit.errand) (Ends visit.errand) k)
    {turns : List Turn} {holders served : List Nat}
    (hturns : ∀ turn ∈ turns, turn ∈ c.turns ∨ turn.call = i ∧ turn.errand = visit.errand)
    (hplain : machine.pool.Plain)
    (hseated : Seated machine.env.cycle machine.pool.shutDown turns holders
      (Function.update stands i k))
    (hcounted : Counted machine.env.cycle turns served (Function.update stands i k)) :
    Ordered ⟨machine, c.visits.set i visit', turns, holders, served⟩
      (Function.update stands i k) := by
  have hlt := (List.getElem?_eq_some_iff.1 hget).1
  refine ⟨?keeps, ?absent, ?errands, hplain, hseated, hcounted⟩
  case keeps =>
    intro j other hother
    by_cases hj : j = i
    · subst hj
      rw [List.getElem?_set_self hlt] at hother
      cases hother
      rwa [Function.update_self, hsame]
    · rw [List.getElem?_set_ne (Ne.symm hj)] at hother
      rw [Function.update_of_ne hj]
      exact h.keeps j other hother
  case absent =>
    intro j hother
    by_cases hj : j = i
    · subst hj
      rw [List.getElem?_set_self hlt] at hother
      cases hother
    · rw [List.getElem?_set_ne (Ne.symm hj)] at hother
      rw [Function.update_of_ne hj]
      exact h.absent j hother
  case errands =>
    intro turn hturn
    by_cases hj : turn.call = i
    · rw [hj, List.getElem?_set_self hlt]
      obtain hturn | ⟨-, herrand⟩ := hturns turn hturn
      · have hbefore := h.errands turn hturn
        rw [hj, hget] at hbefore
        exact (congrArg some hsame).trans hbefore
      · rw [Option.map_some, hsame, herrand]
    · rw [List.getElem?_set_ne (Ne.symm hj)]
      obtain hturn | ⟨hcall, -⟩ := hturns turn hturn
      · exact h.errands turn hturn
      · exact absurd hcall hj

/-- A call that stood outside has its turn and stands at `k` now. -/
theorem takeTurn (h : c.Ordered stands) (hget : c.visits[i]? = some visit)
    (hsame : visit'.errand = visit.errand)
    (hkeeps : visit'.rest.Keeps (discipline visit.errand) (Ends visit.errand) k)
    (hi : stands i = .outside) (hfree : c.machine.env.cycle.busy = false)
    {f : CycleState → CycleState}
    (hfits : k.Fits ⟨i, visit.errand, c.machine.env.cycle.pressure, c.machine.pool.shutDown⟩)
    (hnew : k.metrics? = none) (hclosed : k ≠ .past .closed)
    (hrelies : k.Relies (f c.machine.env.cycle) c.machine.pool.shutDown)
    (hinside : k.IsInside ↔ (f c.machine.env.cycle).busy = true)
    (hcycle : f c.machine.env.cycle = { c.machine.env.cycle with
      busy := (f c.machine.env.cycle).busy
      pressure := visit.errand.asks || c.machine.env.cycle.pressure }) :
    Ordered
      { machine := c.machine.withCycle f
        visits := c.visits.set i visit'
        turns := ⟨i, visit.errand, c.machine.env.cycle.pressure, c.machine.pool.shutDown⟩ :: c.turns
        holders :=
          if (c.machine.withCycle f).env.cycle.busy then i :: c.holders else c.holders
        served := c.served } (Function.update stands i k) := by
  refine h.advance hget hsame hkeeps ?_ h.plain (h.seated.turn hi hfree hfits hrelies ?_ hclosed)
    (h.counted.turn hi hnew hcycle)
  · exact List.forall_mem_cons.2 ⟨.inr ⟨rfl, rfl⟩, fun turn hturn => .inl hturn⟩
  · rw [h.seated.holders_eq_nil hfree]
    refine ⟨fun hk => ?_, fun hk => ?_⟩
    · exact ⟨if_pos (hinside.1 hk), hinside.1 hk⟩
    · have hbusy := fun hbusy => hk (hinside.2 hbusy)
      exact ⟨if_neg hbusy, Bool.eq_false_iff.2 hbusy⟩

/-- The step of a call that has its turn. -/
theorem turn (h : c.Ordered stands) (hget : c.visits[i]? = some visit)
    (hwaits : visit.WaitsOut Busy) (hstep : visit.Step c.machine visit' machine) :
    ∃ stands', Ordered
      { machine
        visits := c.visits.set i visit'
        turns := ⟨i, visit.errand, c.machine.env.cycle.pressure, c.machine.pool.shutDown⟩ :: c.turns
        holders := if machine.env.cycle.busy then i :: c.holders else c.holders
        served := c.served } stands' := by
  obtain ⟨k, hmoves, hkeeps⟩ := hstep.keeps (h.keeps i visit hget) (h.seated.relies i)
  change Moves visit.errand (visit.WaitsOut Busy) (stands i) c.machine k machine at hmoves
  have hsame := hstep.errand_eq.1
  refine ⟨Function.update stands i k, ?_⟩
  clear hstep
  obtain ⟨errand, herrand⟩ : ∃ errand, visit.errand = errand := ⟨_, rfl⟩
  generalize hstand : stands i = before at hmoves
  rw [herrand] at hmoves
  cases hmoves with
  | idle hprompt => exact absurd hwaits hprompt
  | work hprompt => exact absurd hwaits hprompt
  | count hprompt => exact absurd hwaits hprompt
  | close hprompt => exact absurd hwaits hprompt
  | await hprompt => exact absurd hwaits hprompt
  | unlock hprompt => exact absurd hwaits hprompt
  | request _ hasks hfree =>
    rw [← herrand] at hasks
    refine h.takeTurn hget hsame hkeeps hstand hfree hasks rfl nofun trivial ?_ ?_
    · exact iff_of_false id (by simp [hfree])
    · rw [hasks]
      rfl
  | collect _ hfree =>
    refine h.takeTurn hget hsame hkeeps hstand hfree ⟨⟨_, _, herrand⟩, rfl, rfl⟩ rfl nofun
      ⟨rfl, rfl, rfl⟩ (iff_of_true trivial rfl) ?_
    rw [herrand]
    rfl
  | shutdown _ hfree =>
    refine h.takeTurn hget hsame hkeeps hstand hfree herrand rfl nofun ⟨rfl, nofun⟩
      (iff_of_true trivial rfl) ?_
    rw [herrand]
    rfl

/-- Whoever holds the lock moves on, without a collection being counted. -/
theorem move (h : c.Ordered stands) (hget : c.visits[i]? = some visit)
    (hsame : visit'.errand = visit.errand)
    (hkeeps : visit'.rest.Keeps (discipline visit.errand) (Ends visit.errand) k)
    (hi : (stands i).IsInside) (hfits : ∀ turn, (stands i).Fits turn → k.Fits turn)
    (hmetrics : k.metrics? = (stands i).metrics?) (hplain : machine.pool.Plain)
    (hcycle : machine.env.cycle = { c.machine.env.cycle with busy := machine.env.cycle.busy })
    (hrelies : k.Relies machine.env.cycle machine.pool.shutDown)
    (hinside : k.IsInside ↔ machine.env.cycle.busy = true)
    (hclosed : k = .past .closed → machine.pool.shutDown = true)
    (hshut : c.machine.pool.shutDown = true → machine.pool.shutDown = true) :
    Ordered
      { machine
        visits := c.visits.set i visit'
        turns := c.turns
        holders := if machine.env.cycle.busy then c.holders else c.holders.erase i
        served :=
          if machine.env.cycle.total = c.machine.env.cycle.total then c.served
          else i :: c.served } (Function.update stands i k) := by
  have htotal : machine.env.cycle.total = c.machine.env.cycle.total := by rw [hcycle]
  rw [if_pos htotal]
  refine h.advance hget hsame hkeeps (fun turn hturn => .inl hturn) hplain
    (h.seated.move hi hfits hrelies ?_ hclosed hshut) (h.counted.keep hmetrics hcycle)
  rw [h.seated.holders_eq hi]
  refine ⟨fun hk => ?_, fun hk => ?_⟩
  · exact ⟨if_pos (hinside.1 hk), hinside.1 hk⟩
  · have hbusy := Bool.eq_false_iff.2 fun hbusy => hk (hinside.2 hbusy)
    refine ⟨?_, hbusy⟩
    rw [if_neg (by simp [hbusy]), List.erase_cons_head]

/-- A call that stays where it stands does what concerns nobody. -/
theorem stay (h : c.Ordered stands) (hget : c.visits[i]? = some visit)
    (hsame : visit'.errand = visit.errand)
    (hkeeps : visit'.rest.Keeps (discipline visit.errand) (Ends visit.errand) (stands i))
    (hneutral : c.machine.Neutral machine) :
    Ordered
      { machine
        visits := c.visits.set i visit'
        turns := c.turns
        holders := if machine.env.cycle.busy then c.holders else c.holders.erase i
        served :=
          if machine.env.cycle.total = c.machine.env.cycle.total then c.served
          else i :: c.served } stands := by
  have hordered : Ordered ⟨machine, c.visits.set i visit', c.turns, c.holders, c.served⟩
      (Function.update stands i (stands i)) := by
    refine h.advance hget hsame hkeeps (fun turn hturn => .inl hturn) (hneutral.plain h.plain)
      ?_ ?_ <;> rw [Function.update_eq_self, hneutral.cycle]
    · rw [hneutral.shutDown]
      exact h.seated
    · exact h.counted
  rw [Function.update_eq_self] at hordered
  rw [hneutral.cycle, h.seated.holders_keep, if_pos rfl]
  exact hordered

/-- A step of a call that neither waits for the lock nor has its turn. -/
theorem call (h : c.Ordered stands) (hget : c.visits[i]? = some visit)
    (hprompt : ¬visit.WaitsOut Busy) (hstep : visit.Step c.machine visit' machine) :
    ∃ stands', Ordered
      { machine
        visits := c.visits.set i visit'
        turns := c.turns
        holders := if machine.env.cycle.busy then c.holders else c.holders.erase i
        served :=
          if machine.env.cycle.total = c.machine.env.cycle.total then c.served
          else i :: c.served } stands' := by
  obtain ⟨k, hmoves, hkeeps⟩ := hstep.keeps (h.keeps i visit hget) (h.seated.relies i)
  change Moves visit.errand (visit.WaitsOut Busy) (stands i) c.machine k machine at hmoves
  have hsame := hstep.errand_eq.1
  have hrelies := h.seated.relies i
  clear hstep
  obtain ⟨errand, herrand⟩ : ∃ errand, visit.errand = errand := ⟨_, rfl⟩
  generalize hstand : stands i = before at hmoves
  rw [herrand] at hmoves
  cases hmoves with
  | request hwaits => exact absurd hwaits hprompt
  | collect hwaits => exact absurd hwaits hprompt
  | shutdown hwaits => exact absurd hwaits hprompt
  | idle _ => exact ⟨stands, h.stay hget hsame (hstand ▸ hkeeps) (.refl _)⟩
  | work _ hneutral => exact ⟨stands, h.stay hget hsame (hstand ▸ hkeeps) hneutral⟩
  | await _ hneutral => exact ⟨stands, h.stay hget hsame (hstand ▸ hkeeps) hneutral⟩
  | @count _ _ _ _ metrics _ htotal =>
    rw [hstand] at hrelies
    obtain ⟨hbusy, hpressure, hshut⟩ := hrelies
    have hinside : (stands i).IsInside := by
      rw [hstand]
      trivial
    refine ⟨Function.update stands i (.counted metrics), ?_⟩
    rw [if_pos (by exact hbusy), if_neg (by simp [withCycle])]
    refine h.advance hget hsame hkeeps (fun turn hturn => .inl hturn) h.plain
      (h.seated.move hinside ?_ hbusy ⟨?_, ?_⟩ nofun id)
      (h.counted.count ?_ (h.seated.latest i ((h.seated.mem_holders_iff i).2 hinside)) hpressure
        rfl htotal)
    · rw [hstand]
      exact fun turn hfits => hfits
    · exact fun _ => ⟨h.seated.holders_eq hinside, hbusy⟩
    · exact fun hnot => absurd trivial hnot
    · rw [hstand]
      rfl
  | close _ =>
    rw [hstand] at hrelies
    refine ⟨_, h.move hget hsame hkeeps ?_ ?_ ?_ h.plain rfl ⟨hrelies.1, fun _ => rfl⟩
      (iff_of_true trivial hrelies.1) (fun _ => rfl) fun _ => rfl⟩ <;> rw [hstand]
    · trivial
    · exact fun turn hfits => hfits
    · rfl
  | @unlock _ _ _ _ upshot _ hupshot =>
    rw [← hstand] at hupshot
    refine ⟨_, h.move hget hsame hkeeps (Standing.isInside_of_upshot? hupshot)
      (fun turn => Standing.fits_past hupshot) (Standing.metrics?_past hupshot) h.plain rfl trivial
      (iff_of_false id (by simp [withCycle])) ?_ id⟩
    rintro ⟨⟩
    exact Standing.shutDown_of_upshot? hupshot hrelies

/-- Whoever takes the next step, the books agree after it. -/
theorem step (h : c.Ordered stands) (hstep : c.Step c') : ∃ stands', c'.Ordered stands' := by
  cases hstep with
  | arrive errand caller => exact ⟨stands, h.arrive errand caller⟩
  | turn hget hwaits hstep => exact h.turn hget hwaits hstep
  | call hget hprompt hstep => exact h.call hget hprompt hstep
  | work hstep => exact ⟨stands, h.of_neutral (neutral_workerStep h.plain hstep)⟩
  | others env hcycle => exact ⟨stands, h.of_neutral ⟨hcycle, rfl, id⟩⟩

/-- In the beginning the books are empty. -/
theorem start {workers : Nat} {name : String} {pool : Pool Job Tally} {world : World}
    (hpool : Pool.create? workers name = .ok pool) (hnew : world.cycle = {}) :
    Ordered { machine := ⟨pool, world⟩ } fun _ => .outside := by
  have hpool := Pool.eq_create hpool
  subst hpool
  have hnobody : ∀ i : Nat, i ∈ ([] : List Nat) ↔ Standing.outside.IsInside := by
    simp [Standing.IsInside]
  refine ⟨nofun, fun _ _ => rfl, nofun, ?_, ?_, ?_⟩
  · intro worker hmem
    rw [List.eq_of_mem_replicate hmem]
    rfl
  · refine ⟨fun _ => trivial, hnobody, Nat.zero_le 1, ?_, nofun, ?_, List.nodup_nil, nofun, nofun⟩
    · simp [hnew]
    · exact fun _ hne => absurd rfl hne
  · refine ⟨?_, List.nodup_nil, ?_, ?_, ?_, ?_, ?_⟩ <;> simp [hnew, Standing.metrics?]

/-- The books agree however the calls take their steps. -/
theorem run (h : c.Ordered stands) (hrun : Relation.ReflTransGen Step c c') :
    ∃ stands', c'.Ordered stands' := by
  induction hrun with
  | refl => exact ⟨stands, h⟩
  | tail _ hstep ih =>
    obtain ⟨stands', h'⟩ := ih
    exact h'.step hstep

end Ordered

end Concourse

end MarkSweep
