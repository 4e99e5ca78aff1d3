import MarkSweep.Proofs.Cycle.Collection

namespace MarkSweep.Machine

open Call

variable {α S : Type} {ended : List Bool} {world : World} {machine : Machine}
  {t t' : Thread} {callStacks : List CallStack} {result : Except Fault (Option Metrics)}

/-- The pool is not shut down and has nothing left to do, nobody holds the cycle lock, and the world
is `world`. -/
abbrev Quiet (ended : List Bool) (world : World) : Machine → Prop :=
  Holds True (Pool.Open ended) (Idle True world)

theorem stable_quiet : Stable (Around True) (Quiet ended world) :=
  stable_holds (steady_open ended) (kept_idle world)

theorem Quiet.env_eq (hquiet : Quiet ended world machine) : machine.env = world :=
  hquiet.ledger.alone trivial

section Part

variable {get : World → S} {set : S → World → World}

/-- A call on a part of the world to which the cycle lock does not belong. -/
theorem meets_onPart {call : Call S α} {Q : Post S α} (hget : ∀ s w, get (set s w) = s)
    (hset : ∀ s s' w, set s (set s' w) = set s w) (hsame : ∀ w, set (get w) w = w)
    (hcycle : ∀ s w, (set s w).cycle = w.cycle)
    (hcall : Meets Nobody True (fun before => before = get world) t call Q) :
    Meets (Around True) True (Quiet ended world) t (onWorld (call.focus get set))
      (fun result t' machine => ∃ s, Q result t' s ∧ Quiet ended (set s world) machine) := by
  have hfocus : onWorld (call.focus get set) =
      call.focus (fun machine : Machine => get machine.env)
        fun s machine => { machine with env := set s machine.env } :=
    Routine.focus_focus _ _ _ _ call
  rw [hfocus]
  refine (meets_focus (A := fun machine => Quiet ended (set (get machine.env) world) machine)
    (fun s machine => hget s machine.env) ?_ ?_ hcall).mono ?_ ?_
  · intro machine machine' hquiet haround
    have hquiet' := stable_quiet machine machine' hquiet haround
    have hsame : get machine'.env = get machine.env := by
      rw [hquiet'.env_eq, hget]
    rw [hsame]
    exact ⟨hquiet', rfl⟩
  · intro s machine hquiet
    have henv : set s machine.env = set s world := by
      rw [hquiet.env_eq, hset]
    have hfree : (set s machine.env).cycle.busy = false := by
      rw [hcycle]
      exact hquiet.ledger.free
    refine ⟨hquiet.calm, hquiet.level, hquiet.ledger.tasks, hquiet.ledger.places, hfree, ?_, ?_,
      ?_, ?_, fun _ => ?_⟩ <;>
      simp only [Worksite.ledger, hget, henv]
  · intro machine hquiet
    have henv : machine.env = world := hquiet.env_eq
    rw [henv, hsame]
    exact ⟨hquiet, rfl⟩
  · intro result t' machine hend
    exact ⟨get machine.env, hend.2, hend.1⟩

end Part

theorem meets_onHeap {call : Call Heap α} {Q : Post Heap α}
    (hcall : Meets Nobody True (fun before => before = world.heap) t call Q) :
    Meets (Around True) True (Quiet ended world) t (onHeap call)
      (fun result t' machine => ∃ heap, Q result t' heap ∧
        Quiet ended { world with heap } machine) :=
  meets_onPart (fun _ _ => rfl) (fun _ _ _ => rfl) (fun _ => rfl) (fun _ _ => rfl) hcall

theorem meets_onFrames {call : Call Frames α} {Q : Post Frames α}
    (hcall : Meets Nobody True (fun before => before = world.frames) t call Q) :
    Meets (Around True) True (Quiet ended world) t (onFrames call)
      (fun result t' machine => ∃ frames, Q result t' frames ∧
        Quiet ended { world with frames } machine) :=
  meets_onPart (fun _ _ => rfl) (fun _ _ _ => rfl) (fun _ => rfl) (fun _ _ => rfl) hcall

theorem meets_onMethods {call : Call MethodArea α} {Q : Post MethodArea α}
    (hcall : Meets Nobody True (fun before => before = world.methods) t call Q) :
    Meets (Around True) True (Quiet ended world) t (onMethods call)
      (fun result t' machine => ∃ methods, Q result t' methods ∧
        Quiet ended { world with methods } machine) :=
  meets_onPart (fun _ _ => rfl) (fun _ _ _ => rfl) (fun _ => rfl) (fun _ _ => rfl) hcall

/-- How a collection comes out of a world that only the workers of the pool work in meanwhile. -/
inductive Outcome (before : World) (callStacks : List CallStack) :
    Except Fault (Option Metrics) → World → Prop
  /-- Nobody has asked for a collection. -/
  | unasked (hpressure : before.cycle.pressure = false) :
      Outcome before callStacks (.ok none) before
  /-- The mark phase has found what the roots reach, and the sweep phase has left it. -/
  | collected {found : MarkResult} (hpressure : before.cycle.pressure = true)
      (hfound : Found before callStacks found) :
      Outcome before callStacks (.ok (some (Found.report before before.cycle found)))
        { before with
          heap := before.heap.retain found.live
          marks := {}
          cycle := counted before.cycle (Found.report before before.cycle found) }
  /-- A marking job has met a missing entry, and nothing has been swept. -/
  | failed {ref : Ref} (hpressure : before.cycle.pressure = true)
      (hreach : before.heap.Reaches (before.roots callStacks) ref)
      (hmissing : before.heap.contains ref = false) :
      Outcome before callStacks
        (.error (.failed (.taskFaulted (Fault.missingEntry ref).payload.message)))
        { before with marks := {} }

/-- A collection does not fail where every reference that the roots reach names an entry. -/
theorem Outcome.exists_ok {before after : World} {callStacks : List CallStack}
    {result : Except Fault (Option Metrics)} (houtcome : Outcome before callStacks result after)
    (hintact : before.heap.Intact (before.roots callStacks)) :
    ∃ metrics?, result = .ok metrics? := by
  cases houtcome with
  | unasked _ => exact ⟨_, rfl⟩
  | collected _ _ => exact ⟨_, rfl⟩
  | failed _ hreach hmissing =>
    rw [hintact _ hreach] at hmissing
    cases hmissing

/-- How a collection ends that only the workers of the pool accompany. -/
structure Finished (ended : List Bool) (before : World) (callStacks : List CallStack) (t : Thread)
    (result : Except Fault (Option Metrics)) (t' : Thread) (machine : Machine) : Prop where
  held : t'.held = t.held
  outcome : Outcome before callStacks result machine.env
  quiet : Quiet ended machine.env machine
  dozing : before.cycle.pressure = true → machine.pool.workEnabled = false

/-- A collection that only workers accompany ends as a finished one. -/
theorem Collected.finished (hend : Collected True ended world callStacks t result t' machine) :
    Finished ended world callStacks t result t' machine := by
  obtain ⟨hheld, cycle, hcycle, hend⟩ := hend
  obtain rfl := hcycle trivial
  -- Whatever the answer is, the world at the end is known.
  have hquiet : ∀ {after : World} {L : Pool Job Tally → Prop} {P : Ledger Job World Tally → Prop},
      Holds True L P machine → (∀ pool : Pool Job Tally, L pool → pool.Open ended) →
        Idle True after machine.ledger →
          machine.env = after ∧ Quiet ended machine.env machine := by
    intro after L P hholds hopen hidle
    have henv : machine.env = after := hidle.alone trivial
    refine ⟨henv, hholds.calm, fun _ => hopen _ (hholds.level trivial), ?_⟩
    rw [henv]
    exact hidle
  obtain fault | _ | metrics := result
  · obtain ⟨hpressure, failure, rfl, hholds⟩ := hend
    obtain ⟨hexcused, ⟨hothers, -⟩ | hidle⟩ := hholds.ledger
    · exact absurd trivial hothers
    obtain ⟨henv, hquiet⟩ := hquiet hholds (fun _ hdozing => hdozing.toOpen) hidle
    refine ⟨hheld, ?_, hquiet, fun _ => (hholds.level trivial).disabled⟩
    rw [henv]
    cases failure with
    | taskFaulted message =>
      obtain ⟨ref, hreach, hmissing, rfl⟩ := hexcused
      exact .failed hpressure hreach hmissing
    | poolShutDown => exact absurd trivial hexcused.1
    | _ => cases hexcused
  · obtain ⟨hpressure, hholds⟩ := hend
    obtain ⟨henv, hquiet⟩ := hquiet hholds (fun _ hopen => hopen) hholds.ledger
    refine ⟨hheld, ?_, hquiet, fun hasked => ?_⟩
    · rw [henv]
      exact .unasked (hpressure trivial)
    · rw [hpressure trivial] at hasked
      cases hasked
  · obtain ⟨hpressure, found, hfound, rfl, hholds⟩ := hend
    obtain ⟨henv, hquiet⟩ := hquiet hholds (fun _ hdozing => hdozing.toOpen) hholds.ledger
    refine ⟨hheld, ?_, hquiet, fun _ => (hholds.level trivial).disabled⟩
    rw [henv]
    exact .collected hpressure hfound

/-- A collection in the company of the workers alone. -/
theorem meets_collectQuietly (hrank : t.held.rank ≤ Level.cycle.rank)
    (callStacks : List CallStack) (policy : Policy) :
    Meets (Around True) True (Quiet ended world) t (collectStacks callStacks policy)
      (Finished ended world callStacks t) :=
  (meets_collectStacks hrank callStacks policy).mono_post
    fun _ _ _ hend => hend.finished

/-- A thread in the company of workers alone waits only as long as they are at work. -/
theorem wellFounded_beside :
    WellFounded fun after before : Thread × Machine => Beside (Around True) before after := by
  refine Subrelation.wf ?_ (InvImage.wf Prod.snd wellFounded_around)
  intro after before hbeside
  exact hbeside.2

/-- Such a collection comes to an end in every course of events. -/
theorem Quiet.ends_collect (hquiet : Quiet ended world machine)
    (hrank : t.held.rank ≤ Level.cycle.rank) (callStacks : List CallStack) (policy : Policy) :
    Routine.Ends (Beside (Around True))
      (fun result after => Finished ended world callStacks t result after.1 after.2)
      (collectStacks callStacks policy) (t, machine) :=
  (meets_collectQuietly hrank callStacks policy machine hquiet).ends wellFounded_beside

end MarkSweep.Machine
