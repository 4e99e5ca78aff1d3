import MarkSweep.Proofs.Cycle.Disturbed

namespace MarkSweep

open Machine

/-- What the roots reach is as it was. -/
structure Heap.Spared (heap : Heap) (roots : List Slot) (heap' : Heap) : Prop where
  objects : ∀ offset, heap.Reaches roots (.object offset) →
    heap'.objects[offset]? = heap.objects[offset]?
  arrays : ∀ offset, heap.Reaches roots (.array offset) →
    heap'.arrays[offset]? = heap.arrays[offset]?

/-- What is live is as it was, and the roots reach only what is live. -/
theorem Machine.Spares.spared {heap : Heap} {roots : List Slot} {machine : Machine}
    (hspares : Spares heap roots machine) : heap.Spared roots machine.env.heap := by
  obtain ⟨live, hlive, hholds⟩ := hspares
  refine ⟨?_, ?_⟩
  · exact fun offset hreach => hholds.ledger.heap.objects offset (hlive _ hreach)
  · exact fun offset hreach => hholds.ledger.heap.arrays offset (hlive _ hreach)

/-- A call that collects and calls that mark at will. -/
structure Disturbance where
  machine : Machine
  /-- The call that collects. -/
  offer : Visit (List CallStack) Machine (Option Metrics)
  /-- The calls that mark, each what its cell reaches. -/
  visits : List (Visit Slot Machine Nat) := []
  /-- Those of them that have taken a step while the collection traced. -/
  meddlers : List Nat := []

namespace Disturbance

/-- A thread makes a call to collect. -/
def start (machine : Machine) (caller : Thread) (callStacks : List CallStack) (policy : Policy) :
    Disturbance where
  machine
  offer := ⟨callStacks, caller, caller, collectStacks callStacks policy⟩

/-- How far the collection has come with its marks. -/
def progress (c : Disturbance) : Progress := c.offer.caller.progress c.offer.thread

/-- Whether the calls that have taken a step while the collection traced are over, and none of them
has failed. -/
def isCalm (c : Disturbance) : Bool :=
  c.meddlers.all fun i =>
    match c.visits[i]?.bind (·.answer?) with
    | some (.ok _) => true
    | _ => false

/-- One of the calls that mark has taken a step. -/
def meddle (c : Disturbance) (i : Nat) (visit : Visit Slot Machine Nat) (machine : Machine) :
    Disturbance :=
  { c with
    machine
    visits := c.visits.set i visit
    meddlers := if c.progress = .tracing then i :: c.meddlers else c.meddlers }

/-- What can happen next.

If the calls that mark are `considerate`, none of them takes a step from when the collection begins
to when it traces, and the collection takes stock only when those that have taken a step while it
traced are over and have not failed. They may come and go while it traces, and do as they like
before it and when its mark phase is over. -/
inductive Step (considerate : Bool) : Disturbance → Disturbance → Prop
  /-- A thread makes a call to mark what a cell reaches. -/
  | arrive {c : Disturbance} (cell : Slot) (caller : Thread) :
      Step considerate c
        { c with visits := c.visits ++ [⟨cell, caller, caller, trace .collector [cell]⟩] }
  | offer {c : Disturbance} {offer : Visit (List CallStack) Machine (Option Metrics)}
      {machine : Machine}
      (hcalm : considerate = true → c.offer.caller.isTakingStock offer.thread = true →
        c.isCalm = true)
      (hstep : c.offer.Step c.machine offer machine) : Step considerate c { c with machine, offer }
  | mark {c : Disturbance} {i : Nat} {visit visit' : Visit Slot Machine Nat} {machine : Machine}
      (hfree : considerate = true → c.progress ≠ .clearing) (hget : c.visits[i]? = some visit)
      (hstep : visit.Step c.machine visit' machine) :
      Step considerate c (c.meddle i visit' machine)
  /-- A worker or a bystander takes a step. -/
  | around {c : Disturbance} {machine : Machine} (haround : Around False c.machine machine) :
      Step considerate c { c with machine }

variable {machine : Machine} {heap : Heap} {roots : List Slot} {callStacks : List CallStack}
  {policy : Policy} {caller : Thread} {metrics : Metrics} {considerate : Bool}
  {c c' : Disturbance}

/-- Who takes the next step, in the ordinary course. -/
inductive Turn
  | arrive (cell : Slot)
  | offer
  | mark (i : Nat)
  | work (i : Nat)

def next? (considerate : Bool) (c : Disturbance) : Turn → Option Disturbance
  | .arrive cell =>
    some { c with visits := c.visits ++ [⟨cell, {}, {}, trace .collector [cell]⟩] }
  | .offer =>
    match c.offer.next? 0 c.machine with
    | some (offer, machine) =>
      if considerate && c.offer.caller.isTakingStock offer.thread && !c.isCalm then none
      else some { c with machine, offer }
    | none => none
  | .mark i =>
    match c.visits[i]? with
    | some visit =>
      if considerate && decide (c.progress = .clearing) then none
      else
        (visit.next? 0 c.machine).map fun (visit, machine) => c.meddle i visit machine
    | none => none
  | .work i => (Worksite.workerStep Job.body 0 i c.machine).map fun machine => { c with machine }

theorem Step.of_next? {turn : Turn} (hnext : c.next? considerate turn = some c') :
    Step considerate c c' := by
  cases turn with
  | arrive cell =>
    cases hnext
    exact .arrive cell {}
  | offer =>
    simp only [next?] at hnext
    split at hnext
    · next offer machine hoffer =>
      split at hnext
      · cases hnext
      · next hpasses =>
        cases hnext
        refine .offer (fun hconsiderate hstock => ?_) (.of_next? hoffer)
        rw [hconsiderate, hstock] at hpasses
        simpa using hpasses
    · cases hnext
  | mark i =>
    simp only [next?] at hnext
    split at hnext
    · next visit hget =>
      split at hnext
      · cases hnext
      · next hfree =>
        obtain ⟨⟨visit', machine⟩, hvisit, rfl⟩ := Option.map_eq_some_iff.1 hnext
        refine .mark (fun hconsiderate hclearing => hfree ?_) hget (.of_next? hvisit)
        rw [hconsiderate, decide_eq_true hclearing]
        rfl
    · cases hnext
  | work i =>
    obtain ⟨machine, hwork, rfl⟩ := Option.map_eq_some_iff.1 hnext
    exact .around (.inl ⟨0, i, hwork⟩)

/-- Lets everybody take these turns, one after another. -/
def replay (considerate : Bool) (c : Disturbance) : List Turn → Option Disturbance
  | [] => some c
  | turn :: turns => (c.next? considerate turn).bind (replay considerate · turns)

/-- A course of events that leads to what `p` says. -/
theorem exists_run_of_replay {turns : List Turn} {p : Disturbance → Bool}
    (hreplay : (c.replay considerate turns).map p = some true) :
    ∃ c', Relation.ReflTransGen (Step considerate) c c' ∧ p c' = true := by
  induction turns generalizing c with
  | nil => exact ⟨c, .refl, Option.some.inj hreplay⟩
  | cons turn turns ih =>
    cases hnext : c.next? considerate turn with
    | none =>
      rw [replay, hnext] at hreplay
      cases hreplay
    | some c₁ =>
      rw [replay, hnext] at hreplay
      obtain ⟨c', hrun, hp⟩ := ih hreplay
      exact ⟨c', .head (.of_next? hnext) hrun, hp⟩

variable {standing : Nat → Tracer} {noted : List Ref}

/-- What is left to do for those who have marked while the collection traced, if each call that
marks stands where `standing` says. -/
def agendas (standing : Nat → Tracer) (c : Disturbance) : List Agenda :=
  c.meddlers.map fun i => (standing i).toAgenda []

/-- Noted is what others have marked while the collection traces, and they see to what it refers
to. -/
structure Minded (heap : Heap) (standing : Nat → Tracer) (noted : List Ref) (c : Disturbance) :
    Prop where
  idle : c.progress ≠ .tracing → noted = []
  unerased : c.progress = .tracing → Shows (Unerased heap) c.machine
  tended : c.progress = .tracing →
    ∀ ref ∈ noted, Tended heap c.machine.env.marks (c.agendas standing) ref

/-- The call that collects comes to no harm: it keeps the truce, or has taken stock of all that the
roots reach. -/
inductive Sheltered (heap : Heap) (roots : List Slot) (standing : Nat → Tracer)
    (c : Disturbance) : Prop
  | before (noted : List Ref)
      (hoffer : Routine.HandsOver (truce c.offer.caller heap)
        (fun result _ => Fruitless (fun metrics => metrics.isSome = true) result)
        (Sparingly heap roots fun metrics => metrics.isSome = true) c.offer.rest
        (noted, c.offer.thread, c.machine))
      (hminded : c.Minded heap standing noted) : Sheltered heap roots standing c
  | after
      (hoffer : Routine.Attains (Disturbed c.offer.caller fun _ => True) False
        (Sparingly heap roots fun metrics => metrics.isSome = true) c.offer.rest
        (c.offer.thread, c.machine)) : Sheltered heap roots standing c

/-- Every call that marks stands where `standing` says. -/
structure Placed (standing : Nat → Tracer) (c : Disturbance) : Prop where
  visits : ∀ i (visit : Visit Slot Machine Nat), c.visits[i]? = some visit →
    Call.Keeps tracing Through visit.rest (standing i)
  meddlers : ∀ i ∈ c.meddlers, i < c.visits.length

/-- When those who have marked are through, all that they have marked was opened. -/
theorem Minded.opened (hminded : c.Minded heap standing noted) (hplaced : c.Placed standing)
    (hcalm : c.isCalm = true) : ∀ ref ∈ noted, heap.Opened c.machine.env.marks ref := by
  intro ref hmem
  by_cases htracing : c.progress = .tracing
  case neg =>
    rw [hminded.idle htracing] at hmem
    cases hmem
  refine opened_of_tended (hminded.tended htracing ref hmem) fun agenda hagenda => ?_
  obtain ⟨i, hi, rfl⟩ := List.mem_map.1 hagenda
  have hover := List.all_eq_true.1 hcalm i hi
  split at hover
  · next answer hanswer =>
    obtain ⟨visit, hget, hends⟩ := Option.bind_eq_some_iff.1 hanswer
    obtain ⟨hpending, hworklist⟩ :=
      Visit.ends_of_answer? (hplaced.visits i visit hget) hends answer rfl
    exact ⟨by rw [Tracer.toAgenda, hpending, List.append_nil], hworklist⟩
  · cases hover

/-- What others have marked is still seen to when one of them takes a step. -/
theorem Minded.meddle {i : Nat} {visit visit' : Visit Slot Machine Nat} {waits : Prop}
    {tracer : Tracer} {marked : List Ref} (hminded : c.Minded heap standing noted)
    (hmoves : tracing.moves waits (standing i) (visit.thread, c.machine) tracer
      (visit'.thread, machine))
    (hidle : c.progress ≠ .tracing → marked = [])
    (hlisted : ∀ ref ∈ marked, ref ∈ tracer.worklist) :
    (c.meddle i visit' machine).Minded heap (Function.update standing i tracer)
      (marked ++ noted) where
  idle hfree := by
    rw [hidle hfree, hminded.idle hfree]
    rfl
  unerased htracing := by
    have hholds := hminded.unerased htracing
    obtain ⟨hsame, -⟩ | ⟨marks, -, hsame⟩ := hmoves
    · obtain rfl : machine = c.machine := hsame
      exact hholds
    · obtain rfl : machine = c.machine.withMarks marks := hsame
      exact ⟨hholds.calm, hholds.level, hholds.ledger.heap, hholds.ledger.tasks⟩
  tended htracing ref hmem := by
    have hmeddlers : (c.meddle i visit' machine).meddlers = i :: c.meddlers := if_pos htracing
    have hagendas : (c.meddle i visit' machine).agendas (Function.update standing i tracer) =
        (i :: c.meddlers).map
          (Function.update (fun j => (standing j).toAgenda []) i (tracer.toAgenda [])) := by
      rw [agendas, hmeddlers]
      refine List.map_congr_left fun j _ => ?_
      exact Function.apply_update (fun _ tracer => Tracer.toAgenda tracer []) standing i tracer j
    rw [hagendas]
    obtain hmem | hmem := List.mem_append.1 hmem
    · exact .inl ⟨tracer.toAgenda [], List.mem_map.2 ⟨i, List.mem_cons_self,
        Function.update_self i _ _⟩, hlisted ref hmem⟩
    have htended := hminded.tended htracing ref hmem
    obtain ⟨hsame, rfl⟩ | ⟨marks, hstep, hsame⟩ := hmoves
    · obtain rfl : machine = c.machine := hsame
      rw [Function.update_eq_self]
      exact htended.of_subset (List.map_subset _ (List.subset_cons_self _ _))
    · obtain rfl : machine = c.machine.withMarks marks := hsame
      have hheap : c.machine.env.heap = heap := (hminded.unerased htracing).ledger.heap
      rw [hheap] at hstep
      exact htended.turn (Tracer.toAgenda_step hstep []).1

/-- What others have marked is still seen to when the call that collects takes a step. -/
theorem Minded.offer {offer : Visit (List CallStack) Machine (Option Metrics)}
    (hminded : c.Minded heap standing noted) (hcaller : offer.caller = c.offer.caller)
    (htreads : Treads c.offer.caller heap (c.offer.thread, c.machine) (offer.thread, machine)) :
    Minded heap standing noted { c with machine, offer } where
  idle hfree := by
    refine hminded.idle fun htracing => hfree ?_
    rw [progress, hcaller]
    exact htreads.stays htracing
  unerased htracing := by
    rw [progress, hcaller] at htracing
    by_cases hbefore : c.progress = .tracing
    · exact htreads.unerased hbefore (hminded.unerased hbefore)
    · exact htreads.enters hbefore htracing
  tended _ ref hmem := by
    by_cases hbefore : c.progress = .tracing
    · exact (hminded.tended hbefore ref hmem).mono (htreads.marks hbefore)
    · rw [hminded.idle hbefore] at hmem
      cases hmem

/-- A call that marks does no harm to the one that collects. -/
theorem Sheltered.meddle {i : Nat} {visit visit' : Visit Slot Machine Nat} {waits : Prop}
    {tracer : Tracer} (h : c.Sheltered heap roots standing)
    (hmoves : tracing.moves waits (standing i) (visit.thread, c.machine) tracer
      (visit'.thread, machine)) (hfree : c.progress ≠ .clearing) :
    (c.meddle i visit' machine).Sheltered heap roots (Function.update standing i tracer) := by
  obtain hsame | ⟨marked, hidle, hlisted, hdisturbed⟩ := eq_or_exists_disturbed hmoves hfree
  · obtain rfl : machine = c.machine := hsame
    cases h with
    | before noted hoffer hminded =>
      exact .before noted hoffer
        (hminded.meddle hmoves (fun _ => rfl) (List.forall_mem_nil _))
    | after hoffer => exact .after hoffer
  · cases h with
    | before noted hoffer hminded =>
      refine .before (marked ++ noted) (hoffer.others (fun _ _ _ hx _ => hx) ⟨?_, ?_⟩)
        (hminded.meddle hmoves hidle hlisted)
      · exact List.subset_append_right _ _
      · exact hdisturbed.mono fun _ => List.mem_append_left _
    | after hoffer =>
      exact .after (hoffer.others (stable_sparingly _)
        (hdisturbed.mono fun _ _ => trivial))

/-- What happens around the call that collects does not harm it. -/
theorem Sheltered.around (h : c.Sheltered heap roots standing)
    (haround : Around False c.machine machine) :
    Sheltered heap roots standing { c with machine } := by
  cases h with
  | before noted hoffer hminded =>
    refine .before noted (hoffer.others (fun _ _ _ hx _ => hx)
      ⟨List.Subset.refl _, rfl, .inl haround⟩) ⟨hminded.idle, fun htracing => ?_, ?_⟩
    · exact stable_holds steady_true kept_unerased _ _ (hminded.unerased htracing) haround
    · exact fun htracing ref hmem => (hminded.tended htracing ref hmem).mono haround.marks_mono
  | after hoffer => exact .after (hoffer.others (stable_sparingly _) ⟨rfl, .inl haround⟩)

/-- It takes its own steps as the truce says, and takes stock when the others are through. -/
theorem Sheltered.offer {offer : Visit (List CallStack) Machine (Option Metrics)}
    (h : c.Sheltered heap roots standing) (hplaced : c.Placed standing)
    (hcalm : c.offer.caller.isTakingStock offer.thread = true → c.isCalm = true)
    (hstep : c.offer.Step c.machine offer machine) :
    Sheltered heap roots standing { c with machine, offer } := by
  obtain ⟨machine₀, offer₀, visits, meddlers⟩ := c
  cases hstep with
  | own hact =>
    cases h with
    | before noted hoffer hminded =>
      obtain ⟨htreads, hnext⟩ | hpasses := hoffer _ .refl _ _ _ hact
      · exact .before noted hnext (hminded.offer rfl htreads)
      · exact .after (hpasses fun hstock => hminded.opened hplaced (hcalm hstock))
    | after hoffer => exact .after (hoffer.together (.own hact))

/-- One more call stands where its tracer begins. -/
theorem Placed.arrive (h : c.Placed standing) (cell : Slot) (caller : Thread) :
    Placed (Function.update standing c.visits.length (.start [cell]))
      { c with visits := c.visits ++ [⟨cell, caller, caller, trace .collector [cell]⟩] } where
  visits i visit hget := by
    obtain ⟨rfl, rfl⟩ | ⟨hne, hget⟩ := getElem?_concat_cases hget
    · rw [Function.update_self]
      exact keeps_trace [cell]
    · rw [Function.update_of_ne hne]
      exact h.visits i visit hget
  meddlers i hi := by
    rw [List.length_append]
    exact Nat.lt_add_right _ (h.meddlers i hi)

/-- A call that takes a step goes to where its tracer does. -/
theorem Placed.meddle {i : Nat} {visit visit' : Visit Slot Machine Nat} {tracer : Tracer}
    (h : c.Placed standing) (hget : c.visits[i]? = some visit)
    (hrest : Call.Keeps tracing Through visit'.rest tracer) :
    (c.meddle i visit' machine).Placed (Function.update standing i tracer) where
  visits j other hother := by
    obtain ⟨rfl, rfl⟩ | ⟨hne, hother⟩ := getElem?_set_cases hother
    · rw [Function.update_self]
      exact hrest
    · rw [Function.update_of_ne hne.symm]
      exact h.visits j other hother
  meddlers j hj := by
    have hlength : (c.meddle i visit' machine).visits.length = c.visits.length := List.length_set
    rw [hlength]
    simp only [Disturbance.meddle] at hj
    split at hj
    · obtain rfl | hj := List.mem_cons.1 hj
      · exact (List.getElem?_eq_some_iff.1 hget).1
      · exact h.meddlers j hj
    · exact h.meddlers j hj

/-- Calls that have not taken a step while the collection traced do not matter. -/
theorem Sheltered.arrive (h : c.Sheltered heap roots standing) (hplaced : c.Placed standing)
    (visit : Visit Slot Machine Nat) (tracer : Tracer) :
    Sheltered heap roots (Function.update standing c.visits.length tracer)
      { c with visits := c.visits ++ [visit] } := by
  cases h with
  | after hoffer => exact .after hoffer
  | before noted hoffer hminded =>
    refine .before noted hoffer ⟨hminded.idle, hminded.unerased, fun htracing ref hmem => ?_⟩
    have hsame : agendas (Function.update standing c.visits.length tracer)
        { c with visits := c.visits ++ [visit] } = c.agendas standing := by
      refine List.map_congr_left fun i hi => ?_
      rw [Function.update_of_ne (Nat.ne_of_lt (hplaced.meddlers i hi))]
    rw [hsame]
    exact hminded.tended htracing ref hmem

/-- Whatever comes of the call that collects, it spares what the roots reach, and the other calls
only mark. -/
def Harmless (heap : Heap) (roots : List Slot) (c : Disturbance) : Prop :=
  ∃ standing, c.Placed standing ∧ c.Sheltered heap roots standing

/-- No step of considerate calls does harm. -/
theorem Harmless.step (h : c.Harmless heap roots) (hstep : Step true c c') :
    c'.Harmless heap roots := by
  obtain ⟨standing, hplaced, hsheltered⟩ := h
  cases hstep with
  | arrive cell caller =>
    exact ⟨_, hplaced.arrive cell caller, hsheltered.arrive hplaced _ _⟩
  | offer hcalm hstep =>
    exact ⟨standing, ⟨hplaced.visits, hplaced.meddlers⟩,
      hsheltered.offer hplaced (hcalm rfl) hstep⟩
  | mark hfree hget hstep =>
    obtain ⟨tracer, hmoves, hrest⟩ := hstep.keeps (hplaced.visits _ _ hget) trivial
    exact ⟨_, hplaced.meddle hget hrest, hsheltered.meddle hmoves (hfree rfl)⟩
  | around haround =>
    exact ⟨standing, ⟨hplaced.visits, hplaced.meddlers⟩, hsheltered.around haround⟩

/-- A collector with one worker that was asked to collect. A cell of a frame refers to an object,
and its field to an array. -/
def chained : Machine where
  pool := Pool.create 1 "gc-worker"
  env :=
    { heap := (({} : Heap).putArray 7 (.ofStorage #[])).putObject 3 ⟨#[some (.array 7)]⟩
      frames := #[⟨#[some (.object 3)], #[], none⟩]
      cycle := { pressure := true }
      config := .withWorkers 1 }

theorem reachable_chained : Reachable chained := by
  have hpool : Pool.create? 1 "gc-worker" = .ok (Pool.create 1 "gc-worker" : Pool Job Tally) :=
    rfl
  exact .create hpool rfl

/-- Whether the call that collects has given metrics, and each call that marks has marked two
entries. -/
def isOver (c : Disturbance) : Bool :=
  match c.offer.answer? with
  | some (.ok (some _)) =>
    c.visits.all fun visit =>
      match visit.answer? with
      | some (.ok marked) => marked == 2
      | _ => false
  | _ => false

theorem answer_of_isOver (hover : c.isOver = true) :
    ∃ metrics, c.offer.answer? = some (.ok (some metrics)) := by
  simp only [isOver] at hover
  split at hover
  · next metrics hoffer => exact ⟨metrics, hoffer⟩
  · cases hover

theorem chained_reaches {ref : Ref} (hreach : chained.env.heap.Reaches [some (.object 3)] ref) :
    ref = .object 3 ∨ ref = .array 7 := by
  refine hreach.of_closed (P := fun ref => ref = .object 3 ∨ ref = .array 7) (by simp) ?_
  rintro ref cells (rfl | rfl) hcells next hmem
  · have hslots : cells = [some (.array 7)] := (Option.some.inj hcells).symm
    rw [hslots] at hmem
    exact .inr (by simpa using hmem)
  · have hslots : cells = [] := (Option.some.inj hcells).symm
    rw [hslots] at hmem
    cases hmem

theorem chained_intact : chained.env.heap.Intact [some (.object 3)] := by
  intro ref hreach
  rcases chained_reaches hreach with rfl | rfl <;> decide

theorem roots_chained : chained.env.roots [[0]] = [some (.object 3)] := by decide

theorem reaches_chained : chained.env.heap.Reaches [some (.object 3)] (.array 7) :=
  .child (.root (List.mem_singleton.2 rfl)) rfl (List.mem_singleton.2 rfl)

/-- A call that marks begins before a collection and ends after it. Another one marks the object
while the collection traces, before the workers come to it, and then what the object refers to. -/
def straddling : List Turn :=
  [.arrive (some (.object 3))] ++ .replicate 2 (.mark 0) ++ .replicate 26 .offer ++
    [.arrive (some (.object 3))] ++ .replicate 2 (.mark 1) ++ .replicate 12 (.work 0) ++
    .replicate 4 (.mark 1) ++ .replicate 27 .offer ++ .replicate 2 (.work 0) ++ [.offer] ++
    .replicate 2 (.work 0) ++ [.offer] ++ .replicate 2 (.work 0) ++ .replicate 14 .offer ++
    .replicate 4 (.mark 0)

/-- In every course of events in which nobody marks while a collection clears the marks, and those
who have marked while it traced are through when it takes stock, a collection that gives metrics has
spared what its roots reach. -/
theorem run_spares (hreach : Reachable machine)
    (hrun : Relation.ReflTransGen (Step true)
      (start machine caller callStacks policy) c)
    (hanswer : c.offer.answer? = some (.ok (some metrics))) :
    machine.env.heap.Spared (machine.env.roots callStacks) c.machine.env.heap := by
  have hharmless : c.Harmless machine.env.heap (machine.env.roots callStacks) := by
    clear hanswer
    induction hrun with
    | refl =>
      refine ⟨fun _ => .start [], ⟨nofun, List.forall_mem_nil _⟩, .before [] ?_ ?_⟩
      · exact hreach.ready.handsOver_collectStacks caller callStacks policy []
      · have hfree := (Thread.isAt_self caller).ne_tracing nofun
        exact ⟨fun _ => rfl, fun htracing => absurd htracing hfree,
          fun _ => List.forall_mem_nil _⟩
    | tail _ hstep ih => exact ih.step hstep
  obtain ⟨standing, -, hsheltered⟩ := hharmless
  obtain ⟨machine', ⟨errand, caller', thread, rest⟩, visits, meddlers⟩ := c
  cases rest with
  | step act next => cases hanswer
  | done result =>
    cases hanswer
    cases hsheltered with
    | before noted hoffer _ => exact absurd rfl (hoffer (some metrics) rfl)
    | after hoffer => exact (hoffer (some metrics) rfl rfl).spared

/-- The array is spared though the workers leave it to a call that marks at will. -/
theorem run_spares_straddled :
    ∃ c metrics, Reachable chained ∧
      Relation.ReflTransGen (Step true) (start chained {} [[0]] .markAndSweep) c ∧
      c.meddlers ≠ [] ∧ c.offer.answer? = some (.ok (some metrics)) ∧
      chained.env.heap.Spared (chained.env.roots [[0]]) c.machine.env.heap := by
  have hreplay : ((start chained {} [[0]] .markAndSweep).replay true straddling).map
      (fun c => c.isOver && !c.meddlers.isEmpty) = some true := by decide +kernel
  obtain ⟨c, hrun, hend⟩ := exists_run_of_replay hreplay
  obtain ⟨hover, hmeddlers⟩ := Bool.and_eq_true_iff.1 hend
  obtain ⟨metrics, hanswer⟩ := answer_of_isOver hover
  refine ⟨c, metrics, reachable_chained, hrun, ?_, hanswer,
    run_spares reachable_chained hrun hanswer⟩
  intro hnone
  rw [hnone] at hmeddlers
  cases hmeddlers

/-- A call that marks steps in when the collection has forgotten the marked objects and not yet the
marked arrays. -/
def halving : List Turn :=
  .replicate 8 .offer ++ [.arrive (some (.object 3))] ++ .replicate 6 (.mark 0) ++
    .replicate 18 .offer ++ .replicate 12 (.work 0) ++ .replicate 27 .offer ++
    .replicate 2 (.work 0) ++ [.offer] ++ .replicate 2 (.work 0) ++ [.offer] ++
    .replicate 2 (.work 0) ++ .replicate 14 .offer

/-- Whether the call that collects is over, the array is gone, and nobody has marked from another
cell than the root. -/
def isErased (c : Disturbance) : Bool :=
  c.isOver && !c.machine.env.heap.contains (.array 7) &&
    c.visits.all (·.errand == some (.object 3))

/-- The marking job of the collection finds the object marked by somebody else and does not look
where it refers to, and the mark of the array is forgotten: the collection erases an array that its
roots reach. -/
theorem run_erases :
    ∃ c metrics, Reachable chained ∧ chained.env.heap.Intact (chained.env.roots [[0]]) ∧
      Relation.ReflTransGen (Step false) (start chained {} [[0]] .markAndSweep) c ∧
      (∀ visit ∈ c.visits, chained.env.heap.Intact [visit.errand]) ∧
      c.offer.answer? = some (.ok (some metrics)) ∧
      chained.env.heap.Reaches (chained.env.roots [[0]]) (.array 7) ∧
      chained.env.heap.contains (.array 7) = true ∧
      c.machine.env.heap.contains (.array 7) = false := by
  have hreplay : ((start chained {} [[0]] .markAndSweep).replay false halving).map
      isErased = some true := by decide +kernel
  obtain ⟨c, hrun, herased⟩ := exists_run_of_replay hreplay
  simp only [isErased, Bool.and_eq_true, Bool.not_eq_true', List.all_eq_true,
    beq_iff_eq] at herased
  obtain ⟨⟨hover, hgone⟩, hcells⟩ := herased
  obtain ⟨metrics, hanswer⟩ := answer_of_isOver hover
  rw [roots_chained]
  refine ⟨c, metrics, reachable_chained, chained_intact, hrun, ?_, hanswer, reaches_chained,
    by decide, hgone⟩
  intro visit hmem
  rw [hcells visit hmem]
  exact chained_intact

end Disturbance

end MarkSweep
