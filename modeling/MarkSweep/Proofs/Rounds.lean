import MarkSweep.Proofs.Safepoint.Muster
import Mathlib.Order.CompletePartialOrder

namespace MarkSweep.Muster

open Safepoint

/-- The calls that are blocked. -/
def waiting (c : Muster) : Set Nat :=
  {i | ∃ visit, c.visits[i]? = some visit ∧ Waits visit c.safepoint}

/-- The calls that have returned because their round is complete, or can do nothing else. -/
def passing (c : Muster) : Set Nat :=
  {i | ∃ visit, c.visits[i]? = some visit ∧ Passes visit c.safepoint}

/-- The calls that have returned because their time was up. -/
def givenUp (c : Muster) : Set Nat :=
  {i | ∃ visit arrived expected, c.visits[i]? = some visit ∧
    visit.answer? = some (timedOut arrived expected)}

/-- What the counters and the answers say about the calls. -/
structure Regular (c : Muster) : Prop where
  /-- The counter counts the calls that are blocked and arrived in the current round. -/
  arrived : c.safepoint.barrier.arrived =
    {i | i ∈ c.waiting ∧ (i, c.roll.releases) ∈ c.roll.arrivals}.ncard
  /-- Nobody else is blocked. -/
  waiting : c.waiting = c.roll.counted c.roll.releases
  generation : c.safepoint.barrier.generation.toNat = c.roll.releases
  once : c.roll.callers.Nodup
  /-- A call returns normally if and only if a release has counted it. -/
  passing : ∀ i, i ∈ c.passing ↔ ∃ round < c.roll.releases, i ∈ c.roll.counted round
  /-- A call returns with a timeout if and only if it was taken back in the round in which it
  arrived. -/
  givenUp : ∀ i, i ∈ c.givenUp ↔
    ∃ round, (i, round) ∈ c.roll.arrivals ∧ (i, round) ∈ c.roll.withdrawals
  exclusive : Disjoint c.passing c.givenUp
  /-- No other way out of a call is left, but that its time limit is out of reach. -/
  ends : ∀ (i : Nat) visit result, c.visits[i]? = some visit → visit.errand.arrives = true →
    visit.answer? = some result →
      i ∈ c.passing ∨ i ∈ c.givenUp ∨ result = .error .deadlineOverflow ∧ i ∉ c.roll.callers
  underflow : ∀ visit ∈ c.visits, visit.answer? ≠ some (.error .subtractOverflow)

/-- What a step does to the barrier and who passes through it. -/
inductive Effect (c c' : Muster) : Prop
  /-- An arrival that does not complete its round. -/
  | waits {i : Nat} (hroll : c'.roll = c.roll.enter i false)
      (hshort : c.safepoint.barrier.arrived + 1 < c.safepoint.expected)
      (hregistry : c'.safepoint.registry = c.safepoint.registry)
      (hbarrier : c'.safepoint.barrier =
        ⟨c.safepoint.barrier.arrived + 1, c.safepoint.barrier.generation⟩)
      (hwaiting : c'.waiting = insert i c.waiting) (hpassing : c'.passing = c.passing)
  /-- An arrival that completes its round lets through whoever waits. -/
  | releases {i : Nat} (hroll : c'.roll = c.roll.enter i true)
      (hfull : c.safepoint.expected ≤ c.safepoint.barrier.arrived + 1)
      (hregistry : c'.safepoint.registry = c.safepoint.registry)
      (hbarrier : c'.safepoint.barrier = ⟨0, c.safepoint.barrier.generation + 1⟩)
      (hwaiting : c'.waiting = ∅) (hpassing : c'.passing = c.passing ∪ insert i c.waiting)
      (hnew : Disjoint c.passing (insert i c.waiting))
  /-- A call that is blocked gives up. -/
  | withdraws {i : Nat} (hroll : c'.roll = c.roll.withdraw i) (hblocked : i ∈ c.waiting)
      (hcounted : 0 < c.safepoint.barrier.arrived)
      (hregistry : c'.safepoint.registry = c.safepoint.registry)
      (hbarrier : c'.safepoint.barrier =
        ⟨c.safepoint.barrier.arrived - 1, c.safepoint.barrier.generation⟩)
      (hwaiting : c'.waiting = c.waiting \ {i}) (hpassing : c'.passing = c.passing)
  /-- Nobody arrives or gives up; the registry may change. -/
  | neither (hroll : c'.roll = c.roll) (hbarrier : c'.safepoint.barrier = c.safepoint.barrier)
      (hwaiting : c'.waiting = c.waiting) (hpassing : c'.passing = c.passing)

variable {c c' : Muster} {stands stands' : Nat → Standing} {i round : Nat}

/-- Where a call that has arrived stands. -/
theorem Booked.stands_of_mem (h : c.Booked stands) (hmem : (i, round) ∈ c.roll.arrivals) :
    ∃ visit, c.visits[i]? = some visit ∧ Stands visit.errand (stands i) visit.rest ∧
      ((i ∈ c.roll.counted round ∧ stands i = .waiting (UInt64.ofNat round)) ∨
        (i ∈ c.roll.counted round ∧ round < c.roll.releases ∧ stands i = .past passed) ∨
          (i, round) ∈ c.roll.withdrawals ∧
            ∃ arrived expected, stands i = .past (timedOut arrived expected)) := by
  obtain ⟨visit, hget, harrives⟩ := h.known i (Roll.mem_callers hmem)
  have hfits := h.fits i visit hget
  refine ⟨visit, hget, h.placed i visit hget, ?_⟩
  generalize stands i = k at hfits
  cases hfits with
  | outside hfresh => exact absurd (Roll.mem_callers hmem) hfresh
  | waiting _ _ hcounted =>
    obtain rfl := h.sound.eq_of_mem hmem hcounted.1
    exact .inl ⟨hcounted, rfl⟩
  | passed _ hround hcounted =>
    obtain rfl := h.sound.eq_of_mem hmem hcounted.1
    exact .inr (.inl ⟨hcounted, hround, rfl⟩)
  | timedOut _ hgone =>
    obtain rfl := h.sound.eq_of_mem hmem (h.sound.same _ hgone)
    exact .inr (.inr ⟨hgone, _, _, rfl⟩)
  | count hregistry => cases hregistry.symm.trans harrives

/-- Those wait that the current round counts. -/
theorem Booked.mem_waiting_iff (h : c.Booked stands) (hfew : c.roll.releases < UInt64.size) :
    i ∈ c.waiting ↔ i ∈ c.roll.counted c.roll.releases := by
  constructor
  · rintro ⟨visit, hget, hwaits⟩
    have hfits := h.fits i visit hget
    have hstanding := (h.placed i visit hget).waits_iff.1 hwaits
    generalize stands i = k at hfits hstanding
    cases hfits with
    | @waiting round _ hround hcounted =>
      rwa [← (h.generation_eq_iff hfew hround).1 (Standing.waiting.inj hstanding).symm]
    | _ => cases hstanding
  · intro hcounted
    obtain ⟨visit, hget, hstands, hwaiting | hpast | hgone⟩ := h.stands_of_mem hcounted.1
    · exact ⟨visit, hget, hstands.waits_iff.2 (h.generation ▸ hwaiting.2)⟩
    · exact absurd hpast.2.1 (Nat.lt_irrefl _)
    · exact absurd hgone.1 hcounted.2

/-- Those wait that the current round counts, and nobody else. -/
theorem Booked.waiting_eq (h : c.Booked stands) (hfew : c.roll.releases < UInt64.size) :
    c.waiting = c.roll.counted c.roll.releases :=
  Set.ext fun _ => h.mem_waiting_iff hfew

/-- Those are through that an earlier round counts. -/
theorem Booked.mem_passing_iff (h : c.Booked stands) (hfew : c.roll.releases < UInt64.size) :
    i ∈ c.passing ↔ ∃ round < c.roll.releases, i ∈ c.roll.counted round := by
  constructor
  · rintro ⟨visit, hget, hpasses⟩
    have hfits := h.fits i visit hget
    have hstanding := (h.placed i visit hget).passes_iff.1 hpasses
    generalize stands i = k at hfits hstanding
    cases hfits with
    | outside => simp at hstanding
    | @waiting round _ hround hcounted =>
      have hover : c.safepoint.barrier.generation ≠ UInt64.ofNat round := by simpa using hstanding
      have hcurrent := h.generation_eq_iff hfew hround
      exact ⟨round, lt_of_le_of_ne hround (mt hcurrent.2 hover), hcounted⟩
    | passed _ hround hcounted => exact ⟨_, hround, hcounted⟩
    | timedOut => simp [timedOut, passed] at hstanding
    | count _ hcount => exact absurd (by simpa using hstanding) hcount.ne_passed
  · rintro ⟨round, hround, hcounted⟩
    obtain ⟨visit, hget, hstands, hwaiting | hpast | hgone⟩ := h.stands_of_mem hcounted.1
    · have hover := mt (h.generation_eq_iff hfew hround.le).1 hround.ne
      exact ⟨visit, hget, hstands.passes_iff.2 (.inr ⟨_, hwaiting.2, hover⟩)⟩
    · exact ⟨visit, hget, hstands.passes_iff.2 (.inl hpast.2.2)⟩
    · exact absurd hgone.1 hcounted.2

/-- Those have given up that were taken back out of the round they came in. -/
theorem Booked.mem_givenUp_iff (h : c.Booked stands) :
    i ∈ c.givenUp ↔ ∃ round, (i, round) ∈ c.roll.arrivals ∧ (i, round) ∈ c.roll.withdrawals := by
  constructor
  · rintro ⟨visit, arrived, expected, hget, hanswer⟩
    have hfits := h.fits i visit hget
    obtain hstanding | ⟨-, hfault⟩ := (h.placed i visit hget).eq_of_answer? hanswer
    · generalize stands i = k at hfits hstanding
      cases hfits with
      | timedOut _ hgone => exact ⟨_, h.sound.same _ hgone, hgone⟩
      | count _ hcount =>
        cases Standing.past.inj hstanding
        cases hcount
      | _ => cases hstanding
    · cases hfault
  · rintro ⟨round, hmem, hgone⟩
    obtain ⟨visit, hget, hstands, hwaiting | hpast | ⟨-, arrived, expected, hstanding⟩⟩ :=
      h.stands_of_mem hmem
    · exact absurd hgone hwaiting.1.2
    · exact absurd hgone hpast.1.2
    · rw [hstanding] at hstands
      exact ⟨visit, arrived, expected, hget, hstands.answer?_past⟩

/-- How a call that has returned came out. -/
theorem Booked.ends (h : c.Booked stands) (hfew : c.roll.releases < UInt64.size)
    {visit : Visit Errand Safepoint Answer} {result : Except Fault Answer}
    (hget : c.visits[i]? = some visit) (hanswer : visit.answer? = some result) :
    i ∈ c.passing ∧ result = passed ∨
      (i ∈ c.givenUp ∧ ∃ arrived expected, result = timedOut arrived expected) ∨
        (result = .error .deadlineOverflow ∧ i ∉ c.roll.callers) ∨
          visit.errand.arrives = false ∧ IsCount result := by
  have hfits := h.fits i visit hget
  obtain hstanding | ⟨hstanding, hfault⟩ := (h.placed i visit hget).eq_of_answer? hanswer
  · rw [hstanding] at hfits
    generalize hk : Standing.past result = k at hfits
    cases hfits with
    | passed _ hround hcounted =>
      exact .inl ⟨(h.mem_passing_iff hfew).2 ⟨_, hround, hcounted⟩, Standing.past.inj hk⟩
    | timedOut _ hgone =>
      refine .inr (.inl ⟨h.mem_givenUp_iff.2 ⟨_, h.sound.same _ hgone, hgone⟩, _, _,
        Standing.past.inj hk⟩)
    | count hregistry hcount =>
      exact .inr (.inr (.inr ⟨hregistry, Standing.past.inj hk ▸ hcount⟩))
    | _ => cases hk
  · rw [hstanding] at hfits
    cases hfits with
    | outside hfresh => exact .inr (.inr (.inl ⟨hfault, hfresh⟩))

/-- The counter counts those that wait. -/
theorem Booked.regular (h : c.Booked stands) (hfew : c.roll.releases < UInt64.size) :
    c.Regular where
  arrived := by
    have hset : {i | i ∈ c.waiting ∧ (i, c.roll.releases) ∈ c.roll.arrivals} =
        c.roll.counted c.roll.releases := by
      ext i
      exact ⟨fun hi => (h.mem_waiting_iff hfew).1 hi.1,
        fun hi => ⟨(h.mem_waiting_iff hfew).2 hi, hi.1⟩⟩
    rw [hset, h.arrived]
  waiting := h.waiting_eq hfew
  generation := by rw [h.generation, UInt64.toNat_ofNat_of_lt' hfew]
  once := h.sound.once
  passing i := h.mem_passing_iff hfew
  givenUp i := h.mem_givenUp_iff
  exclusive := by
    refine Set.disjoint_left.2 fun i hpassing hgivenUp => ?_
    obtain ⟨round, -, hcounted⟩ := (h.mem_passing_iff hfew).1 hpassing
    obtain ⟨round', hmem, hgone⟩ := h.mem_givenUp_iff.1 hgivenUp
    obtain rfl := h.sound.eq_of_mem hmem hcounted.1
    exact hcounted.2 hgone
  ends i visit result hget harrives hanswer := by
    obtain ⟨hpassing, -⟩ | ⟨hgivenUp, -⟩ | hlimit | ⟨hregistry, -⟩ := h.ends hfew hget hanswer
    · exact .inl hpassing
    · exact .inr (.inl hgivenUp)
    · exact .inr (.inr hlimit)
    · cases hregistry.symm.trans harrives
  underflow visit hmem hanswer := by
    obtain ⟨i, hget⟩ := List.mem_iff_getElem?.1 hmem
    obtain ⟨-, hresult⟩ | ⟨-, _, _, hresult⟩ | ⟨hresult, -⟩ | ⟨-, hcount⟩ :=
      h.ends hfew hget hanswer
    · cases hresult
    · cases hresult
    · cases hresult
    · cases hcount

/-- Nobody passes as long as no round is completed. -/
theorem Booked.passing_eq (h : c.Booked stands) (h' : c'.Booked stands')
    (hfew : c.roll.releases < UInt64.size) (hreleases : c'.roll.releases = c.roll.releases)
    (hcounted : ∀ round ≠ c.roll.releases, c'.roll.counted round = c.roll.counted round) :
    c'.passing = c.passing := by
  ext i
  rw [h'.mem_passing_iff (hreleases ▸ hfew), h.mem_passing_iff hfew, hreleases]
  refine exists_congr fun round => and_congr_right fun hround => ?_
  rw [hcounted round hround.ne]

/-- Whoever is counted in the round that is not complete has not passed yet. -/
theorem Booked.disjoint_passing (h : c.Booked stands) (hfew : c.roll.releases < UInt64.size)
    (hfresh : i ∉ c.roll.callers) : Disjoint c.passing (insert i c.waiting) := by
  refine Set.disjoint_left.2 fun j hpassing hmem => ?_
  obtain ⟨round, hround, hcounted⟩ := (h.mem_passing_iff hfew).1 hpassing
  obtain rfl | hwaiting := hmem
  · exact hfresh (Roll.mem_callers hcounted.1)
  · have hnow := (h.mem_waiting_iff hfew).1 hwaiting
    exact hround.ne (h.sound.eq_of_mem hcounted.1 hnow.1)

/-- A release lets through those that wait, and the one that came last. -/
theorem Booked.passing_release (h : c.Booked stands) (h' : c'.Booked stands')
    (hroll : c'.roll = c.roll.enter i true) (hfresh : i ∉ c.roll.callers)
    (hfew : c'.roll.releases < UInt64.size) :
    c'.passing = c.passing ∪ insert i c.waiting := by
  have hreleases : c'.roll.releases = c.roll.releases + 1 := congrArg Roll.releases hroll
  have hfew₀ : c.roll.releases < UInt64.size := by omega
  ext j
  rw [h'.mem_passing_iff hfew, Set.mem_union, h.mem_passing_iff hfew₀, hreleases, hroll]
  constructor
  · rintro ⟨round, hround, hcounted⟩
    obtain hlt | rfl := Nat.lt_succ_iff_lt_or_eq.1 hround
    · rw [Roll.counted_enter_of_ne hlt.ne] at hcounted
      exact .inl ⟨round, hlt, hcounted⟩
    · rw [h.sound.counted_enter hfresh, ← h.waiting_eq hfew₀] at hcounted
      exact .inr hcounted
  · rintro (⟨round, hround, hcounted⟩ | hcounted)
    · refine ⟨round, Nat.lt_succ_of_lt hround, ?_⟩
      rwa [Roll.counted_enter_of_ne hround.ne]
    · refine ⟨_, Nat.lt_succ_self _, ?_⟩
      rwa [h.sound.counted_enter hfresh, ← h.waiting_eq hfew₀]

/-- What a turn does to the counter and to those who wait. -/
theorem Booked.effect (h : c.Booked stands) (hturn : c.Turn stands c' stands')
    (hfew : c.roll.releases < UInt64.size) (hfew' : c'.roll.releases < UInt64.size) :
    c.Effect c' := by
  have h' := h.turn hturn
  have hbefore := h.waiting_eq hfew
  have hafter := h'.waiting_eq hfew'
  have hpassing := h.passing_eq h' hfew
  cases hturn with
  | call => exact .neither rfl rfl (hafter.trans hbefore.symm) (hpassing rfl fun _ _ => rfl)
  | wait _ _ _ _ hfresh _ hshort =>
    refine .waits rfl hshort rfl rfl ?_ (hpassing rfl fun round => Roll.counted_enter_of_ne)
    rw [hbefore]
    exact hafter.trans (h.sound.counted_enter hfresh)
  | release _ _ _ _ hfresh _ hfull =>
    refine .releases rfl hfull rfl rfl ?_ (h.passing_release h' rfl hfresh hfew')
      (h.disjoint_passing hfew hfresh)
    rw [hafter]
    exact (Roll.counted_enter_of_ne (Nat.succ_ne_self _)).trans
      (h.sound.counted_eq_empty (Nat.lt_succ_self _))
  | resume => exact .neither rfl rfl (hafter.trans hbefore.symm) (hpassing rfl fun _ _ => rfl)
  | withdraw _ _ _ hcounted harrived =>
    have hpositive : 0 < c.safepoint.barrier.arrived := harrived ▸ Nat.succ_pos _
    refine .withdraws rfl (hbefore ▸ hcounted) hpositive rfl ?_ ?_
      (hpassing rfl fun round => Roll.counted_withdraw_of_ne)
    · rw [harrived]
      rfl
    · rw [hbefore]
      exact hafter.trans Roll.counted_withdraw
  | enrol => exact .neither rfl rfl (hafter.trans hbefore.symm) (hpassing rfl fun _ _ => rfl)

/-- On every run with fewer releases than there are generations, with arrivals, withdrawals and
changes of the registry in any order, the counters and the answers agree with the calls, and a
release lets through everyone whom its round counts and nobody else. -/
theorem run_counts {registry : Registry}
    (hrun : Relation.ReflTransGen Step { safepoint := { registry } } c)
    (hfew : c.roll.releases < UInt64.size) :
    c.Regular ∧ ∀ c', c.Step c' → c'.roll.releases < UInt64.size → c.Effect c' := by
  obtain ⟨stands, h⟩ := run_booked hrun hfew
  refine ⟨h.regular hfew, fun c' hstep hfew' => ?_⟩
  obtain ⟨stands', hturn⟩ := h.exists_turn hfew hstep
  exact h.effect hturn hfew hfew'

/-- Of two threads the first gives up and the second waits; then the first comes again. -/
theorem run_counts_retried :
    ∃ c : Muster, Relation.ReflTransGen Step { safepoint := { registry := ⟨2⟩ } } c ∧
      c.roll.releases < UInt64.size ∧
      c.visits.map (·.answer?) = [some (timedOut 1 2), some passed, some passed] ∧
      c.roll.arrivals = [(0, 0), (1, 0), (2, 0)] ∧ c.roll.withdrawals = [(0, 0)] ∧
      c.Regular ∧ ∀ c', c.Step c' → c'.roll.releases < UInt64.size → c.Effect c' := by
  have hcalled := Relation.ReflTransGen.single
    (Step.call (c := { safepoint := { registry := ⟨2⟩ } }) (.arriveAndWaitFor .zero .zero) {})
  have hwaiting := hcalled.tail (.arrive (i := 0) rfl rfl nofun (.ordinary rfl))
  have hgone := hwaiting.tail
    (.leave (i := 0) rfl rfl (.head _) (.of_next? (show Visit.next? 1 _ _ = _ from rfl)))
  have hsecond := (hgone.tail (.call .arriveAndWait {})).tail
    (.arrive (i := 1) rfl rfl (by decide) (.ordinary rfl))
  have hagain := (hsecond.tail (.call .arriveAndWait {})).tail
    (.arrive (i := 2) rfl rfl (by decide) (.ordinary rfl))
  have hpassed := hagain.tail (.leave (i := 1) rfl rfl (.tail _ (.head _)) (.ordinary rfl))
  obtain ⟨hregular, heffect⟩ := run_counts hpassed (by decide)
  exact ⟨_, hpassed, by decide, rfl, rfl, rfl, hregular, heffect⟩

end MarkSweep.Muster
