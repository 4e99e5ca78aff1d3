import Mathlib.Logic.Function.Basic
import Mathlib.Logic.Relation
import MarkSweep.Proofs.Safepoint.Arrivals
import MarkSweep.Proofs.Safepoint.Roll

namespace MarkSweep

open Safepoint

/-- Whether a call has given up waiting. -/
def Visit.hasTimedOut (visit : Visit Errand Safepoint Answer) : Bool :=
  match visit.answer? with
  | some (.ok (.departure (.error (.safepointTimeout _ _)))) => true
  | _ => false

/-- A safepoint, the calls that were ever made on it, and the roll of their arrivals. -/
structure Muster where
  safepoint : Safepoint
  visits : List (Visit Errand Safepoint Answer) := []
  roll : Roll := {}

namespace Muster

/-- What can happen next. -/
inductive Step : Muster → Muster → Prop
  /-- A thread makes a call. -/
  | call {c : Muster} (errand : Errand) (caller : Thread) :
      Step c { c with visits := c.visits ++ [⟨errand, caller, caller, errand.call⟩] }
  /-- A call arrives; one that need not wait has completed the round. -/
  | arrive {c : Muster} {i : Nat} {visit visit' : Visit Errand Safepoint Answer}
      {safepoint : Safepoint} (hget : c.visits[i]? = some visit)
      (harrives : visit.errand.arrives = true) (hfirst : i ∉ c.roll.callers)
      (hstep : visit.Step c.safepoint visit' safepoint) :
      Step c
        { safepoint
          visits := c.visits.set i visit'
          roll := c.roll.enter i visit'.answer?.isSome }
  /-- A call that has arrived goes on. -/
  | leave {c : Muster} {i : Nat} {visit visit' : Visit Errand Safepoint Answer}
      {safepoint : Safepoint} (hget : c.visits[i]? = some visit)
      (harrives : visit.errand.arrives = true) (hlater : i ∈ c.roll.callers)
      (hstep : visit.Step c.safepoint visit' safepoint) :
      Step c
        { safepoint
          visits := c.visits.set i visit'
          roll := if visit'.hasTimedOut then c.roll.withdraw i else c.roll }
  /-- A call on the registry goes on. -/
  | enrol {c : Muster} {i : Nat} {visit visit' : Visit Errand Safepoint Answer}
      {safepoint : Safepoint} (hget : c.visits[i]? = some visit)
      (hregistry : visit.errand.arrives = false)
      (hstep : visit.Step c.safepoint visit' safepoint) :
      Step c { c with safepoint, visits := c.visits.set i visit' }

/-- Where a call stands agrees with the roll. -/
inductive Fits (roll : Roll) (i : Nat) (errand : Errand) : Standing → Prop
  | outside (hfresh : i ∉ roll.callers) : Fits roll i errand .outside
  | waiting {round : Nat} (harrives : errand.arrives = true) (hround : round ≤ roll.releases)
      (hcounted : i ∈ roll.counted round) : Fits roll i errand (.waiting (UInt64.ofNat round))
  | passed {round : Nat} (harrives : errand.arrives = true) (hround : round < roll.releases)
      (hcounted : i ∈ roll.counted round) : Fits roll i errand (.past passed)
  | timedOut {round arrived expected : Nat} (harrives : errand.arrives = true)
      (hgone : (i, round) ∈ roll.withdrawals) :
      Fits roll i errand (.past (timedOut arrived expected))
  | count {result : Except Fault Answer} (hregistry : errand.arrives = false)
      (hcount : IsCount result) : Fits roll i errand (.past result)

theorem Fits.mono {roll roll' : Roll} {i : Nat} {errand : Errand} {k : Standing}
    (hfits : Fits roll i errand k) (hsame : roll.SameFor roll' i)
    (hreleases : roll.releases ≤ roll'.releases) : Fits roll' i errand k := by
  cases hfits with
  | outside hfresh => exact .outside (mt hsame.callers.1 hfresh)
  | waiting harrives hround hcounted =>
    exact .waiting harrives (hround.trans hreleases) ((hsame.counted _).2 hcounted)
  | passed harrives hround hcounted =>
    exact .passed harrives (hround.trans_le hreleases) ((hsame.counted _).2 hcounted)
  | timedOut harrives hgone => exact .timedOut harrives ((hsame.withdrawals _).2 hgone)
  | count hregistry hcount => exact .count hregistry hcount

/-- The roll agrees with the counters and with where the calls stand. -/
structure Booked (c : Muster) (stands : Nat → Standing) : Prop where
  sound : c.roll.Sound
  known : ∀ i ∈ c.roll.callers, ∃ visit, c.visits[i]? = some visit ∧ visit.errand.arrives = true
  placed : ∀ i visit, c.visits[i]? = some visit → Stands visit.errand (stands i) visit.rest
  fits : ∀ i visit, c.visits[i]? = some visit → Fits c.roll i visit.errand (stands i)
  generation : c.safepoint.barrier.generation = UInt64.ofNat c.roll.releases
  arrived : c.safepoint.barrier.arrived = (c.roll.counted c.roll.releases).ncard

/-- What happens next, with a note of how far each call is. -/
inductive Turn (c : Muster) (stands : Nat → Standing) : Muster → (Nat → Standing) → Prop
  | call (errand : Errand) (caller : Thread) :
      Turn c stands { c with visits := c.visits ++ [⟨errand, caller, caller, errand.call⟩] }
        (Function.update stands c.visits.length .outside)
  | wait {i : Nat} {visit visit' : Visit Errand Safepoint Answer}
      (hget : c.visits[i]? = some visit) (herrand : visit'.errand = visit.errand)
      (hstands : Stands visit'.errand (.waiting c.safepoint.barrier.generation) visit'.rest)
      (harrives : visit.errand.arrives = true) (hfresh : i ∉ c.roll.callers)
      (hbefore : stands i = .outside)
      (hshort : c.safepoint.barrier.arrived + 1 < c.safepoint.expected) :
      Turn c stands
        { safepoint := { c.safepoint with
            barrier := { c.safepoint.barrier with arrived := c.safepoint.barrier.arrived + 1 } }
          visits := c.visits.set i visit'
          roll := c.roll.enter i false }
        (Function.update stands i (.waiting c.safepoint.barrier.generation))
  | release {i : Nat} {visit visit' : Visit Errand Safepoint Answer}
      (hget : c.visits[i]? = some visit) (herrand : visit'.errand = visit.errand)
      (hstands : Stands visit'.errand (.past passed) visit'.rest)
      (harrives : visit.errand.arrives = true) (hfresh : i ∉ c.roll.callers)
      (hbefore : stands i = .outside)
      (hfull : c.safepoint.expected ≤ c.safepoint.barrier.arrived + 1) :
      Turn c stands
        { safepoint := { c.safepoint with barrier := ⟨0, c.safepoint.barrier.generation + 1⟩ }
          visits := c.visits.set i visit'
          roll := c.roll.enter i true }
        (Function.update stands i (.past passed))
  | resume {i : Nat} {visit visit' : Visit Errand Safepoint Answer} {round : Nat}
      (hget : c.visits[i]? = some visit) (herrand : visit'.errand = visit.errand)
      (hstands : Stands visit'.errand (.past passed) visit'.rest)
      (hbefore : stands i = .waiting (UInt64.ofNat round)) (hround : round < c.roll.releases)
      (hcounted : i ∈ c.roll.counted round) :
      Turn c stands { c with visits := c.visits.set i visit' }
        (Function.update stands i (.past passed))
  | withdraw {i arrived : Nat} {visit visit' : Visit Errand Safepoint Answer}
      (hget : c.visits[i]? = some visit) (herrand : visit'.errand = visit.errand)
      (hstands : Stands visit'.errand (.past (timedOut (arrived + 1) c.safepoint.expected))
        visit'.rest)
      (hcounted : i ∈ c.roll.counted c.roll.releases)
      (harrived : c.safepoint.barrier.arrived = arrived + 1) :
      Turn c stands
        { safepoint := { c.safepoint with barrier := { c.safepoint.barrier with arrived } }
          visits := c.visits.set i visit'
          roll := c.roll.withdraw i }
        (Function.update stands i (.past (timedOut (arrived + 1) c.safepoint.expected)))
  | enrol {i : Nat} {visit visit' : Visit Errand Safepoint Answer}
      {result : Except Fault Answer} (registry : Registry)
      (hget : c.visits[i]? = some visit) (herrand : visit'.errand = visit.errand)
      (hstands : Stands visit'.errand (.past result) visit'.rest)
      (hregistry : visit.errand.arrives = false) (hcount : IsCount result) :
      Turn c stands
        { c with
          safepoint := { c.safepoint with registry }
          visits := c.visits.set i visit' }
        (Function.update stands i (.past result))

variable {c c' : Muster} {stands stands' : Nat → Standing}

/-- Rounds are told apart by their generations as long as these do not start again. -/
theorem eq_of_ofNat_eq {m n : Nat} (hm : m < UInt64.size) (hn : n < UInt64.size)
    (heq : UInt64.ofNat m = UInt64.ofNat n) : m = n := by
  have htoNat := congrArg UInt64.toNat heq
  rwa [UInt64.toNat_ofNat_of_lt' hm, UInt64.toNat_ofNat_of_lt' hn] at htoNat

/-- A call that has arrived is on the roll. -/
theorem Fits.mem_callers {roll : Roll} {i : Nat} {errand : Errand} {k : Standing}
    (hfits : Fits roll i errand k) (hsound : roll.Sound) (hk : k ≠ .outside)
    (harrives : errand.arrives = true) : i ∈ roll.callers := by
  cases hfits with
  | outside => exact absurd rfl hk
  | waiting _ _ hcounted => exact Roll.mem_callers hcounted.1
  | passed _ _ hcounted => exact Roll.mem_callers hcounted.1
  | timedOut _ hgone => exact Roll.mem_callers (hsound.same _ hgone)
  | count hregistry => cases hregistry.symm.trans harrives

/-- The generation tells the rounds apart, as long as there are fewer than generations. -/
theorem Booked.generation_eq_iff (h : c.Booked stands) (hfew : c.roll.releases < UInt64.size)
    {round : Nat} (hround : round ≤ c.roll.releases) :
    c.safepoint.barrier.generation = UInt64.ofNat round ↔ round = c.roll.releases := by
  rw [h.generation]
  refine ⟨fun heq => ?_, fun heq => by rw [heq]⟩
  exact (eq_of_ofNat_eq hfew (hround.trans_lt hfew) heq).symm

/-- Whoever is counted in the round that is not complete keeps the counter above zero. -/
theorem Booked.arrived_ne_zero (h : c.Booked stands) {i : Nat}
    (hcounted : i ∈ c.roll.counted c.roll.releases) : c.safepoint.barrier.arrived ≠ 0 := by
  rw [h.arrived]
  exact Set.ncard_ne_zero_of_mem hcounted (c.roll.finite_counted _)

section Turns

variable {i : Nat} {visit visit' : Visit Errand Safepoint Answer} {safepoint : Safepoint}
  (h : c.Booked stands) (hget : c.visits[i]? = some visit)
  (hstep : visit.Step c.safepoint visit' safepoint)

include h hget hstep

/-- A call that arrives waits, or completes the round and releases it. -/
theorem Booked.exists_turn_arrive (harrives : visit.errand.arrives = true)
    (hfirst : i ∉ c.roll.callers) :
    ∃ stands', c.Turn stands
      { safepoint, visits := c.visits.set i visit'
        roll := c.roll.enter i visit'.answer?.isSome } stands' := by
  obtain ⟨k, hstands, hmoves⟩ := moves_of_step (h.placed i visit hget) hstep
  have herrand := hstep.errand_eq.1
  have hbefore : stands i = .outside := by
    by_contra hne
    exact hfirst ((h.fits i visit hget).mem_callers h.sound hne harrives)
  rw [← herrand] at hstands
  rw [hbefore] at hmoves
  obtain ⟨errand, caller, thread, rest⟩ := visit
  dsimp only at hmoves harrives
  cases hmoves with
  | wait _ hshort =>
    rw [(hstands.next?_waiting (s := c.safepoint)).1]
    exact ⟨_, .wait hget herrand hstands harrives hfirst hbefore hshort⟩
  | release _ hfull =>
    rw [hstands.answer?_past]
    exact ⟨_, .release hget herrand hstands harrives hfirst hbefore hfull⟩
  | register => cases harrives
  | unregister => cases harrives

/-- A call that has arrived resumes once its round is over, or gives up while it is not. -/
theorem Booked.exists_turn_leave (hfew : c.roll.releases < UInt64.size)
    (hlater : i ∈ c.roll.callers) :
    ∃ stands', c.Turn stands
      { safepoint, visits := c.visits.set i visit'
        roll := if visit'.hasTimedOut then c.roll.withdraw i else c.roll } stands' := by
  obtain ⟨k, hstands, hmoves⟩ := moves_of_step (h.placed i visit hget) hstep
  have herrand := hstep.errand_eq.1
  have hfits := h.fits i visit hget
  rw [← herrand] at hstands
  generalize hbefore : stands i = before at hmoves hfits
  obtain ⟨errand, caller, thread, rest⟩ := visit
  dsimp only at hmoves hfits
  cases hfits with
  | outside hfresh => exact absurd hlater hfresh
  | waiting _ hround hcounted =>
    have hcurrent := h.generation_eq_iff hfew hround
    cases hmoves with
    | resume _ hover =>
      have hround' := lt_of_le_of_ne hround (mt hcurrent.2 hover)
      simp only [Visit.hasTimedOut, hstands.answer?_past]
      exact ⟨_, .resume hget herrand hstands hbefore hround' hcounted⟩
    | withdraw hsame harrived =>
      simp only [Visit.hasTimedOut, hstands.answer?_past]
      exact ⟨_, .withdraw hget herrand hstands (hcurrent.1 hsame ▸ hcounted) harrived⟩
    | underflow hsame hnone =>
      exact absurd hnone (h.arrived_ne_zero (hcurrent.1 hsame ▸ hcounted))
  | passed => cases hmoves
  | timedOut => cases hmoves
  | count => cases hmoves

/-- A call on the registry changes nothing but the registry. -/
theorem Booked.exists_turn_enrol (hregistry : visit.errand.arrives = false) :
    ∃ stands', c.Turn stands { c with safepoint, visits := c.visits.set i visit' } stands' := by
  obtain ⟨k, hstands, hmoves⟩ := moves_of_step (h.placed i visit hget) hstep
  have herrand := hstep.errand_eq.1
  rw [← herrand] at hstands
  generalize stands i = before at hmoves
  obtain ⟨errand, caller, thread, rest⟩ := visit
  dsimp only at hmoves hregistry
  cases hmoves with
  | wait harrives => cases hregistry.symm.trans harrives
  | release harrives => cases hregistry.symm.trans harrives
  | resume harrives => cases hregistry.symm.trans harrives
  | withdraw => cases hregistry
  | underflow => cases hregistry
  | register => exact ⟨_, .enrol _ hget herrand hstands hregistry (isCount_enrol _)⟩
  | unregister => exact ⟨_, .enrol _ hget herrand hstands hregistry (.count _)⟩

end Turns

/-- What a step does is one of the turns, as long as the generations do not start again. -/
theorem Booked.exists_turn (h : c.Booked stands) (hfew : c.roll.releases < UInt64.size)
    (hstep : c.Step c') : ∃ stands', c.Turn stands c' stands' := by
  cases hstep with
  | call errand caller => exact ⟨_, .call errand caller⟩
  | arrive hget harrives hfirst hstep => exact h.exists_turn_arrive hget hstep harrives hfirst
  | leave hget _ hlater hstep => exact h.exists_turn_leave hget hstep hfew hlater
  | enrol hget hregistry hstep => exact h.exists_turn_enrol hget hstep hregistry

/-- One call has gone on, and the roll says of the others what it said before. -/
theorem Booked.of_set (h : c.Booked stands) {i : Nat}
    {visit visit' : Visit Errand Safepoint Answer} {k : Standing} {safepoint : Safepoint}
    {roll : Roll} (hget : c.visits[i]? = some visit) (herrand : visit'.errand = visit.errand)
    (hstands : Stands visit'.errand k visit'.rest) (hfits : Fits roll i visit'.errand k)
    (hsame : ∀ j ≠ i, c.roll.SameFor roll j) (hreleases : c.roll.releases ≤ roll.releases)
    (hcaller : i ∈ roll.callers → visit.errand.arrives = true) (hsound : roll.Sound)
    (hgeneration : safepoint.barrier.generation = UInt64.ofNat roll.releases)
    (harrived : safepoint.barrier.arrived = (roll.counted roll.releases).ncard) :
    Booked { safepoint, visits := c.visits.set i visit', roll } (Function.update stands i k) := by
  have hlength : i < c.visits.length := (List.getElem?_eq_some_iff.1 hget).1
  have hself : (c.visits.set i visit')[i]? = some visit' := by simp [hlength]
  have hother : ∀ j ≠ i, (c.visits.set i visit')[j]? = c.visits[j]? := fun j hne =>
    List.getElem?_set_ne hne.symm
  refine ⟨hsound, fun j hj => ?_, fun j visit₁ hget₁ => ?_, fun j visit₁ hget₁ => ?_, hgeneration,
    harrived⟩
  · by_cases hji : j = i
    · subst hji
      exact ⟨visit', hself, herrand ▸ hcaller hj⟩
    · dsimp only
      rw [hother j hji]
      exact h.known j ((hsame j hji).callers.1 hj)
  · by_cases hji : j = i
    · subst hji
      cases hself.symm.trans hget₁
      rwa [Function.update_self]
    · rw [Function.update_of_ne hji]
      exact h.placed j visit₁ ((hother j hji).symm.trans hget₁)
  · by_cases hji : j = i
    · subst hji
      cases hself.symm.trans hget₁
      rwa [Function.update_self]
    · rw [Function.update_of_ne hji]
      exact (h.fits j visit₁ ((hother j hji).symm.trans hget₁)).mono (hsame j hji) hreleases

/-- A call that has just been made stands outside and is not on the roll. -/
theorem Booked.call (h : c.Booked stands) (errand : Errand) (caller : Thread) :
    Booked { c with visits := c.visits ++ [⟨errand, caller, caller, errand.call⟩] }
      (Function.update stands c.visits.length .outside) where
  sound := h.sound
  known i hi := by
    obtain ⟨visit, hget, harrives⟩ := h.known i hi
    have hlt := (List.getElem?_eq_some_iff.1 hget).1
    exact ⟨visit, (List.getElem?_append_left hlt).trans hget, harrives⟩
  placed i visit hget := by
    obtain ⟨rfl, rfl⟩ | ⟨hi, hget⟩ := getElem?_concat_cases hget
    · rw [Function.update_self]
      exact .outside
    · rw [Function.update_of_ne hi]
      exact h.placed i visit hget
  fits i visit hget := by
    obtain ⟨rfl, rfl⟩ | ⟨hi, hget⟩ := getElem?_concat_cases hget
    · rw [Function.update_self]
      refine .outside fun hmem => ?_
      obtain ⟨visit, hget, -⟩ := h.known _ hmem
      exact absurd hget (by simp)
    · rw [Function.update_of_ne hi]
      exact h.fits i visit hget
  generation := h.generation
  arrived := h.arrived

/-- The roll agrees with everything else after each turn. -/
theorem Booked.turn (h : c.Booked stands) (hturn : c.Turn stands c' stands') :
    c'.Booked stands' := by
  cases hturn with
  | call errand caller => exact h.call errand caller
  | @wait i visit visit' hget herrand hstands harrives hfresh hbefore hshort =>
    have hcounted : i ∈ (c.roll.enter i false).counted c.roll.releases := by
      rw [h.sound.counted_enter hfresh]
      exact Set.mem_insert _ _
    have hfits : Fits (c.roll.enter i false) i visit'.errand
        (.waiting c.safepoint.barrier.generation) := by
      rw [h.generation]
      exact .waiting (herrand ▸ harrives) le_rfl hcounted
    refine h.of_set hget herrand hstands hfits (fun j hne => Roll.sameFor_enter hne) le_rfl
      (fun _ => harrives) (h.sound.enter hfresh) h.generation ?_
    exact (congrArg (· + 1) h.arrived).trans (h.sound.ncard_counted_enter hfresh).symm
  | @release i visit visit' hget herrand hstands harrives hfresh hbefore hfull =>
    have hcounted : i ∈ (c.roll.enter i true).counted c.roll.releases := by
      rw [h.sound.counted_enter hfresh]
      exact Set.mem_insert _ _
    have hnone : (c.roll.enter i true).counted (c.roll.releases + 1) = ∅ :=
      (Roll.counted_enter_of_ne (Nat.succ_ne_self _)).trans
        (h.sound.counted_eq_empty (Nat.lt_succ_self _))
    refine h.of_set hget herrand hstands
      (.passed (herrand ▸ harrives) (Nat.lt_succ_self _) hcounted)
      (fun j hne => Roll.sameFor_enter hne) (Nat.le_succ _) (fun _ => harrives)
      (h.sound.enter hfresh) ?_ ?_
    · exact (congrArg (· + 1) h.generation).trans (UInt64.ofNat_add _ 1).symm
    · exact ((congrArg Set.ncard hnone).trans (Set.ncard_empty _)).symm
  | @resume i visit visit' round hget herrand hstands hbefore hround hcounted =>
    obtain ⟨visit₁, hget₁, harrives⟩ := h.known i (Roll.mem_callers hcounted.1)
    cases hget.symm.trans hget₁
    exact h.of_set hget herrand hstands (.passed (herrand ▸ harrives) hround hcounted)
      (fun j _ => .refl) le_rfl (fun _ => harrives) h.sound h.generation h.arrived
  | @withdraw i arrived visit visit' hget herrand hstands hcounted harrived =>
    obtain ⟨visit₁, hget₁, harrives⟩ := h.known i (Roll.mem_callers hcounted.1)
    cases hget.symm.trans hget₁
    refine h.of_set hget herrand hstands
      (.timedOut (herrand ▸ harrives) (List.mem_append_right _ (List.mem_singleton_self _)))
      (fun j hne => Roll.sameFor_withdraw hne) le_rfl (fun _ => harrives)
      (h.sound.withdraw hcounted.1) h.generation ?_
    have hcount := Roll.ncard_counted_withdraw hcounted
    rw [← h.arrived, harrived] at hcount
    exact (Nat.succ.inj hcount).symm
  | @enrol i visit visit' result registry hget herrand hstands hregistry hcount =>
    refine h.of_set hget herrand hstands (.count (herrand ▸ hregistry) hcount) (fun j _ => .refl)
      le_rfl (fun hi => ?_) h.sound h.generation h.arrived
    obtain ⟨visit₁, hget₁, harrives⟩ := h.known i hi
    cases hget.symm.trans hget₁
    exact harrives

theorem Booked.start (registry : Registry) :
    Booked { safepoint := { registry } } fun _ => .outside := by
  have hnobody : Roll.counted {} 0 = ∅ := Set.eq_empty_of_forall_notMem fun i hi => by cases hi.1
  refine ⟨⟨List.nodup_nil, nofun, nofun⟩, nofun, nofun, nofun, rfl, ?_⟩
  exact ((congrArg Set.ncard hnobody).trans (Set.ncard_empty _)).symm

/-- Rounds are not taken back. -/
theorem Step.releases_le (hstep : c.Step c') : c.roll.releases ≤ c'.roll.releases := by
  cases hstep with
  | call => exact le_rfl
  | @arrive i visit visit' =>
    unfold Roll.enter
    split
    · exact Nat.le_succ _
    · exact le_rfl
  | leave =>
    dsimp only
    split
    · exact le_rfl
    · exact le_rfl
  | enrol => exact le_rfl

private theorem exists_visit_set {visits : List (Visit Errand Safepoint Answer)} {i j : Nat}
    {visit visit' other : Visit Errand Safepoint Answer} (hget : visits[i]? = some visit)
    (herrand : visit'.errand = visit.errand) (hother : visits[j]? = some other) :
    ∃ other', (visits.set i visit')[j]? = some other' ∧ other'.errand = other.errand := by
  by_cases hji : j = i
  · subst hji
    cases hget.symm.trans hother
    exact ⟨visit', List.getElem?_set_self (List.getElem?_eq_some_iff.1 hget).1, herrand⟩
  · exact ⟨other, (List.getElem?_set_ne (Ne.symm hji)).trans hother, rfl⟩

/-- No call is forgotten, and none changes what it is about. -/
theorem Step.exists_visit (hstep : c.Step c') {j : Nat} {other : Visit Errand Safepoint Answer}
    (hother : c.visits[j]? = some other) :
    ∃ other', c'.visits[j]? = some other' ∧ other'.errand = other.errand := by
  cases hstep with
  | call =>
    have hlt := (List.getElem?_eq_some_iff.1 hother).1
    exact ⟨other, (List.getElem?_append_left hlt).trans hother, rfl⟩
  | arrive hget _ _ hstep => exact exists_visit_set hget hstep.errand_eq.1 hother
  | leave hget _ _ hstep => exact exists_visit_set hget hstep.errand_eq.1 hother
  | enrol hget _ hstep => exact exists_visit_set hget hstep.errand_eq.1 hother

/-- On every run with fewer releases than there are generations the roll is right all the time. -/
theorem run_booked {registry : Registry}
    (hrun : Relation.ReflTransGen Step { safepoint := { registry } } c)
    (hfew : c.roll.releases < UInt64.size) : ∃ stands, c.Booked stands := by
  induction hrun with
  | refl => exact ⟨_, .start registry⟩
  | tail _ hstep ih =>
    have hbefore := hstep.releases_le.trans_lt hfew
    obtain ⟨stands, h⟩ := ih hbefore
    obtain ⟨stands', hturn⟩ := h.exists_turn hbefore hstep
    exact ⟨stands', h.turn hturn⟩

end Muster

end MarkSweep
