import MarkSweep.Mark.Crew
import MarkSweep.Proofs.Marking.Frontier
import Mathlib.Algebra.GroupWithZero.Nat

namespace MarkSweep

namespace Tracing

/-- Whether a tracer has come to its end. -/
def hasEnded : Tracing → Bool
  | working _ => false
  | ended _ => true

/-- What a tracer has before it. -/
def toAgenda : Tracing → Agenda
  | working tracer => tracer.toAgenda []
  | ended _ => {}

/-- A bound on the steps that a tracer can still take, apart from what it has still to mark. -/
def weight (heap : Heap) : Tracing → Nat
  | working tracer =>
    total (Tracer.refWeight heap) tracer.worklist + slotWeight * tracer.pending.length + 1
  | ended _ => 0

/-- How many entries a tracer has marked; one that met a missing entry no longer tells. -/
def count : Tracing → Nat
  | working tracer => tracer.marked
  | ended (.ok marked) => marked
  | ended (.error _) => 0

end Tracing

namespace Crew

variable {heap : Heap} {roots : List Slot} {crew crew' crew'' first : Crew} {i : Nat}
  {log log' : List (Nat × Ref)}

/-- The entry that the next step of a member reads, if it reads one, with the member. -/
def reads (crew : Crew) (i : Nat) : List (Nat × Ref) :=
  match crew.members[i]? with
  | some (.working tracer) => tracer.reads.toList.map fun ref => (i, ref)
  | _ => []

/-- What the members of a crew can lead to by taking their steps in some order, with the entries
that they read on the way, the earliest first. -/
inductive Run (heap : Heap) (first : Crew) : List (Nat × Ref) → Crew → Prop
  /-- No member has taken a step. -/
  | start : Run heap first [] first
  /-- One more step of one of the members. -/
  | step {log : List (Nat × Ref)} {crew crew' : Crew} {i : Nat} (hrun : Run heap first log crew)
      (hstep : crew.step heap i = some crew') : Run heap first (log ++ crew.reads i) crew'

/-- A bound on the steps that the members of a crew can still take. -/
def weight (heap : Heap) (crew : Crew) : Nat :=
  Tracer.heapWeight heap crew.marks + total (Tracing.weight heap) crew.members

/-- Every step of a member leaves less to do. -/
theorem step_weight (hstep : crew.step heap i = some crew') :
    crew'.weight heap < crew.weight heap := by
  unfold Crew.step at hstep
  split at hstep
  · next tracer hget =>
    have htotal := fun member => total_set (Tracing.weight heap) (b := member) hget
    split at hstep
    · next tracer' marks' htracer =>
      cases hstep
      have hlt := Tracer.step_weight htracer
      have := htotal (.working tracer')
      simp only [weight, Tracing.weight, Tracer.weight] at this hlt ⊢
      omega
    · next fault htracer =>
      cases hstep
      have := htotal (.ended (.error fault))
      simp only [weight, Tracing.weight] at this ⊢
      omega
    · next htracer =>
      cases hstep
      have := htotal (.ended (.ok tracer.marked))
      simp only [weight, Tracing.weight] at this ⊢
      omega
  · cases hstep
  · cases hstep

/-- There is no endless run of a crew, in whatever order its members take their steps. -/
theorem wellFounded_step (heap : Heap) :
    WellFounded fun crew' crew : Crew => ∃ i, crew.step heap i = some crew' := by
  refine Subrelation.wf ?_ (measure (weight heap)).wf
  intro crew' crew hstep
  obtain ⟨i, hstep⟩ := hstep
  exact step_weight hstep

theorem Run.trans (hfirst : Run heap first log crew) (hthen : Run heap crew log' crew') :
    Run heap first (log ++ log') crew' := by
  induction hthen with
  | start => rwa [List.append_nil]
  | step _ hstep ih =>
    rw [← List.append_assoc]
    exact ih.step hstep

/-- What holds of a crew after every step, if no missing entry is reached. -/
structure Marching (heap : Heap) (roots : List Slot) (log : List (Nat × Ref)) (crew : Crew) :
    Prop where
  frontier : Frontier heap roots crew.marks (crew.members.map Tracing.toAgenda)
  covers : Covers heap roots crew.marks (crew.members.map Tracing.toAgenda)
  once : Once crew.marks (crew.members.map Tracing.toAgenda) (log.map Prod.snd)
  counted : total Tracing.count crew.members = crew.marks.size
  healthy : ∀ fault, .ended (.error fault) ∉ crew.members

/-- A crew that has not begun is on the march. -/
theorem marching_start (heap : Heap) (rows : List (List Slot)) :
    Marching heap rows.flatten [] (start {} rows) := by
  have hagendas : (start {} rows).members.map Tracing.toAgenda =
      rows.map fun cells => ⟨cells, []⟩ := by
    simp [start, Tracing.toAgenda, Tracer.toAgenda_start]
  have hworklists : (rows.map fun cells => (⟨cells, []⟩ : Agenda)).flatMap (·.worklist) = [] := by
    simp [List.flatMap_map]
  have hunmarked : ∀ ref, (start {} rows).marks.contains ref ≠ true := by
    intro ref hmarked
    rw [start, Marks.contains_empty] at hmarked
    cases hmarked
  constructor
  case frontier =>
    rw [hagendas]
    refine ⟨fun ref hmarked => absurd hmarked (hunmarked ref), ?_, ?_⟩
    · intro agenda hmem ref hpending
      obtain ⟨cells, hcells, rfl⟩ := List.mem_map.1 hmem
      exact .root (List.mem_flatten.2 ⟨cells, hcells, hpending⟩)
    · intro agenda hmem ref hlisted
      obtain ⟨cells, hcells, rfl⟩ := List.mem_map.1 hmem
      cases hlisted
  case covers =>
    rw [hagendas]
    refine ⟨?_, fun ref hmarked => absurd hmarked (hunmarked ref)⟩
    intro ref hmem
    obtain ⟨cells, hcells, hcell⟩ := List.mem_flatten.1 hmem
    exact .inr ⟨⟨cells, []⟩, List.mem_map_of_mem hcells, hcell⟩
  case once =>
    rw [hagendas]
    refine ⟨?_, ?_⟩
    · rw [hworklists]
      exact List.nodup_nil
    · intro ref
      rw [hworklists]
      refine ⟨fun hmem => ?_, fun hmarked => absurd hmarked (hunmarked ref)⟩
      cases hmem
  case counted =>
    have hzero : total Tracing.count (start {} rows).members = 0 := by
      simp only [start, total_map, Tracing.count, Tracer.start, total_zero]
    rw [hzero]
    rfl
  case healthy =>
    intro fault hmem
    obtain ⟨cells, -, hcells⟩ := List.mem_map.1 hmem
    cases hcells

/-- A member whose tracer takes a step keeps the crew on the march. -/
private theorem Marching.advance {tracer tracer' : Tracer} {marks' : Marks}
    (hmarch : Marching heap roots log crew) (hget : crew.members[i]? = some (.working tracer))
    (htracer : tracer.step {} heap crew.marks = some (.ok (tracer', marks'))) :
    Marching heap roots (log ++ crew.reads i) ⟨marks', crew.members.set i (.working tracer')⟩ := by
  obtain ⟨others, hperm, hset⟩ := exists_perm_cons_of_getElem? hget
  have hagendas := hperm.map Tracing.toAgenda
  have hagendas' := (hset (.working tracer')).map Tracing.toAgenda
  have hreads : (crew.reads i).map Prod.snd = tracer.reads.toList := by
    simp [reads, hget, Function.comp_def]
  obtain ⟨hmove, hsize⟩ := Tracer.toAgenda_step htracer []
  constructor
  case frontier =>
    exact ((hmarch.frontier.of_subset hagendas.symm.subset).step hmove).of_subset
      hagendas'.subset
  case covers =>
    exact ((hmarch.covers.of_subset hagendas.subset).step hmove).of_subset hagendas'.symm.subset
  case once =>
    rw [List.map_append, hreads]
    exact ((hmarch.once.of_perm hagendas).step hmove).of_perm hagendas'.symm
  case counted =>
    have hcounted := hmarch.counted
    have htotal := total_set Tracing.count (b := .working tracer') hget
    simp only [Tracing.count] at htotal ⊢
    omega
  case healthy =>
    intro fault hmem
    obtain hmem | heq := List.mem_or_eq_of_mem_set hmem
    · exact hmarch.healthy fault hmem
    · cases heq

/-- A member whose tracer has nothing left before it ends and leaves the crew on the march. -/
private theorem Marching.finish {tracer : Tracer} (hmarch : Marching heap roots log crew)
    (hget : crew.members[i]? = some (.working tracer))
    (htracer : tracer.step {} heap crew.marks = none) :
    Marching heap roots (log ++ crew.reads i)
      ⟨crew.marks, crew.members.set i (.ended (.ok tracer.marked))⟩ := by
  obtain ⟨hpending, hworklist, hnone⟩ := Tracer.toAgenda_of_step_eq_none htracer
  have hsame : (crew.members.set i (.ended (.ok tracer.marked))).map Tracing.toAgenda =
      crew.members.map Tracing.toAgenda := by
    have hempty : (Tracing.working tracer).toAgenda =
        (Tracing.ended (.ok tracer.marked)).toAgenda := by
      simp [Tracing.toAgenda, Tracer.toAgenda, hpending, hworklist]
    have hcell : (crew.members.map Tracing.toAgenda)[i]? =
        some (Tracing.ended (.ok tracer.marked)).toAgenda := by
      rw [List.getElem?_map, hget, Option.map_some, hempty]
    obtain ⟨hlt, hcell⟩ := List.getElem?_eq_some_iff.1 hcell
    rw [List.map_set, ← hcell]
    exact List.set_getElem_self hlt
  have hlog : log ++ crew.reads i = log := by
    simp [reads, hget, hnone]
  rw [hlog]
  constructor
  case frontier =>
    rw [hsame]
    exact hmarch.frontier
  case covers =>
    rw [hsame]
    exact hmarch.covers
  case once =>
    rw [hsame]
    exact hmarch.once
  case counted =>
    have hcounted := hmarch.counted
    have htotal := total_set Tracing.count (b := .ended (.ok tracer.marked)) hget
    simp only [Tracing.count] at htotal ⊢
    omega
  case healthy =>
    intro fault hmem
    obtain hmem | heq := List.mem_or_eq_of_mem_set hmem
    · exact hmarch.healthy fault hmem
    · cases heq

/-- A step of a member keeps the crew on the march: no tracer meets a missing entry. -/
theorem Marching.step (hintact : heap.Intact roots) (hmarch : Marching heap roots log crew)
    (hstep : crew.step heap i = some crew') :
    Marching heap roots (log ++ crew.reads i) crew' := by
  unfold Crew.step at hstep
  split at hstep
  · next tracer hget =>
    split at hstep
    · next tracer' marks' htracer =>
      cases hstep
      exact hmarch.advance hget htracer
    · next fault htracer =>
      obtain ⟨ref, hlisted, hmissing, -⟩ := Tracer.exists_missing_of_step (Nat.zero_le _) htracer
      have hmem : Tracing.working tracer ∈ crew.members := List.mem_of_getElem? hget
      have hreach := hmarch.frontier.worklist _ (List.mem_map_of_mem hmem) ref hlisted
      rw [hintact ref hreach] at hmissing
      cases hmissing
    · next htracer =>
      cases hstep
      exact hmarch.finish hget htracer
  · cases hstep
  · cases hstep

/-- Every run of a crew that has not begun keeps it on the march. -/
theorem Run.marching {rows : List (List Slot)} (hintact : heap.Intact rows.flatten)
    (hrun : Run heap (Crew.start {} rows) log crew) : Marching heap rows.flatten log crew := by
  induction hrun with
  | start => exact marching_start heap rows
  | step _ hstep ih => exact ih.step hintact hstep

/-- A step before a run makes a run. -/
theorem Run.head (hstep : crew.step heap i = some crew') (hthen : Run heap crew' log crew'') :
    Run heap crew (crew.reads i ++ log) crew'' :=
  (Run.start.step hstep).trans hthen

/-- A member goes on to its end while the others wait. -/
theorem exists_run_member (heap : Heap) (marks : Marks) (tracer : Tracer)
    (settled waiting : List Tracing) :
    ∃ log, Run heap ⟨marks, settled ++ .working tracer :: waiting⟩ log
      ⟨(tracer.run {} heap marks).2,
        settled ++ .ended (tracer.run {} heap marks).1 :: waiting⟩ := by
  have hget : (settled ++ Tracing.working tracer :: waiting)[settled.length]? =
      some (.working tracer) := by
    simp
  have hset : ∀ member, (settled ++ Tracing.working tracer :: waiting).set settled.length member =
      settled ++ member :: waiting := by
    simp
  induction hweight : tracer.weight heap marks using Nat.strongRecOn generalizing tracer marks with
  | ind weight ih =>
    rcases htracer : tracer.step {} heap marks with _ | fault | ⟨tracer', marks'⟩
    · have hstep : Crew.step heap settled.length ⟨marks, settled ++ .working tracer :: waiting⟩ =
          some ⟨marks, settled ++ .ended (.ok tracer.marked) :: waiting⟩ := by
        simp only [Crew.step, hget, htracer, hset]
      rw [Tracer.run_of_step_none htracer]
      exact ⟨_, Run.start.step hstep⟩
    · have hstep : Crew.step heap settled.length ⟨marks, settled ++ .working tracer :: waiting⟩ =
          some ⟨marks, settled ++ .ended (.error fault) :: waiting⟩ := by
        simp only [Crew.step, hget, htracer, hset]
      rw [Tracer.run_of_step_error htracer]
      exact ⟨_, Run.start.step hstep⟩
    · have hstep : Crew.step heap settled.length ⟨marks, settled ++ .working tracer :: waiting⟩ =
          some ⟨marks', settled ++ .working tracer' :: waiting⟩ := by
        simp only [Crew.step, hget, htracer, hset]
      have hlt : tracer'.weight heap marks' < weight := by
        rw [← hweight]
        exact Tracer.step_weight htracer
      obtain ⟨log, hrun⟩ := ih _ hlt marks' tracer' (by simp) (by simp) rfl
      rw [Tracer.run_of_step_ok htracer]
      exact ⟨_, hrun.head hstep⟩

/-- To let the members go on one after another is one of the orders in which they may take their
steps. -/
theorem exists_run_finish (heap : Heap) (marks : Marks) (settled waiting : List Tracing) :
    ∃ log, Run heap ⟨marks, settled ++ waiting⟩ log
      ⟨(finish heap ⟨marks, waiting⟩).2,
        settled ++ (finish heap ⟨marks, waiting⟩).1.map .ended⟩ := by
  induction waiting generalizing marks settled with
  | nil => exact ⟨[], .start⟩
  | cons member waiting ih =>
    cases member with
    | working tracer =>
      obtain ⟨log, hrun⟩ := exists_run_member heap marks tracer settled waiting
      obtain ⟨log', hrest⟩ := ih (tracer.run {} heap marks).2
        (settled ++ [.ended (tracer.run {} heap marks).1])
      simp only [List.append_assoc, List.singleton_append] at hrest
      exact ⟨_, hrun.trans hrest⟩
    | ended result =>
      obtain ⟨log, hrest⟩ := ih marks (settled ++ [.ended result])
      simp only [List.append_assoc, List.singleton_append] at hrest
      exact ⟨log, hrest⟩

/-- The marks of a crew on the march whose members have all ended. -/
theorem Marching.contains_iff (hmarch : Marching heap roots log crew)
    (hended : ∀ member ∈ crew.members, member.hasEnded = true) (ref : Ref) :
    crew.marks.contains ref = true ↔ heap.Reaches roots ref := by
  have hempty : ∀ agenda ∈ crew.members.map Tracing.toAgenda, agenda ∈ [] ∨
      agenda.pending = [] ∧ agenda.worklist = [] := by
    intro agenda hmem
    obtain ⟨member, hmember, rfl⟩ := List.mem_map.1 hmem
    cases member with
    | working tracer => cases hended _ hmember
    | ended result => exact .inr ⟨rfl, rfl⟩
  constructor
  · exact hmarch.frontier.marked ref
  · intro hreach
    exact ((hmarch.covers.drop hempty).marked_of_reaches hreach).1

/-- The entries that a crew on the march has read when its members have all ended. -/
theorem Marching.mem_log_iff (hmarch : Marching heap roots log crew)
    (hended : ∀ member ∈ crew.members, member.hasEnded = true) (ref : Ref) :
    ref ∈ log.map Prod.snd ↔ crew.marks.contains ref = true := by
  have hworklists : (crew.members.map Tracing.toAgenda).flatMap (·.worklist) = [] := by
    rw [List.flatMap_eq_nil_iff]
    intro agenda hmem
    obtain ⟨member, hmember, rfl⟩ := List.mem_map.1 hmem
    cases member with
    | working tracer => cases hended _ hmember
    | ended result => rfl
  rw [← hmarch.once.mem_iff ref, hworklists, List.nil_append]

/-- The answers of a crew on the march whose members have all ended. -/
theorem Marching.exists_counts (hmarch : Marching heap roots log crew)
    (hended : ∀ member ∈ crew.members, member.hasEnded = true) :
    ∃ counts : List Nat, crew.members = counts.map (fun count => .ended (.ok count)) ∧
      counts.sum = crew.marks.size := by
  have hcounts : ∀ members : List Tracing, (∀ member ∈ members, member.hasEnded = true) →
      (∀ fault, .ended (.error fault) ∉ members) →
      ∃ counts : List Nat, members = counts.map (fun count => .ended (.ok count)) ∧
        counts.sum = total Tracing.count members := by
    intro members hended hhealthy
    induction members with
    | nil => exact ⟨[], rfl, rfl⟩
    | cons member members ih =>
      obtain ⟨counts, hmembers, hsum⟩ := ih
        (fun other hother => hended other (List.mem_cons_of_mem _ hother))
        (fun fault hmem => hhealthy fault (List.mem_cons_of_mem _ hmem))
      match member with
      | .working tracer => cases hended _ List.mem_cons_self
      | .ended (.error fault) => exact absurd List.mem_cons_self (hhealthy fault)
      | .ended (.ok count) =>
        refine ⟨count :: counts, ?_, ?_⟩
        · rw [List.map_cons, ← hmembers]
        · rw [List.sum_cons, hsum]
          rfl
  obtain ⟨counts, hmembers, hsum⟩ := hcounts crew.members hended hmarch.healthy
  exact ⟨counts, hmembers, hsum.trans hmarch.counted⟩

/-- What occurs once in a log was done by one tracer. -/
private theorem exists_filter_eq_singleton {log : List (Nat × Ref)} {ref : Ref}
    (hnodup : (log.map Prod.snd).Nodup) (hmem : ref ∈ log.map Prod.snd) :
    ∃ i, log.filter (fun event => event.2 = ref) = [(i, ref)] := by
  induction log with
  | nil => cases hmem
  | cons event log ih =>
    obtain ⟨hfirst, hrest⟩ := List.nodup_cons.1 hnodup
    by_cases heq : event.2 = ref
    · have hnone : log.filter (fun event => event.2 = ref) = [] := by
        rw [List.filter_eq_nil_iff]
        intro other hother hsame
        apply hfirst
        rw [heq, ← of_decide_eq_true hsame]
        exact List.mem_map_of_mem hother
      refine ⟨event.1, ?_⟩
      rw [List.filter_cons, if_pos (decide_eq_true heq), hnone, ← heq]
    · obtain hhere | hlater := List.mem_cons.1 hmem
      · exact absurd hhere.symm heq
      · rw [List.filter_cons, if_neg (by simpa using heq)]
        exact ih hrest hlater

/-- Tracers that begin with nothing marked converge, in whatever order they take their steps. Once
all have ended, the marks are what their cells reach together, which is what the tracers mark one
after another in any order; they have counted each mark once; and each reached entry was read by one
of them, one time. -/
theorem run_converges {rows : List (List Slot)} (hintact : heap.Intact rows.flatten)
    (hrun : Run heap (start {} rows) log crew)
    (hended : ∀ member ∈ crew.members, member.hasEnded = true) :
    (∀ ref, crew.marks.contains ref = true ↔ heap.Reaches rows.flatten ref) ∧
      (∀ order : List (List Slot), order.Perm rows →
        ((start {} order).finish heap).2 = crew.marks) ∧
      (∃ counts : List Nat, crew.members = counts.map (fun count => .ended (.ok count)) ∧
        counts.sum = crew.marks.size) ∧
      ∀ ref, heap.Reaches rows.flatten ref →
        ∃ i, log.filter (fun event => event.2 = ref) = [(i, ref)] := by
  have hmarch := hrun.marching hintact
  have hexact := hmarch.contains_iff hended
  refine ⟨hexact, ?_, hmarch.exists_counts hended, ?_⟩
  · intro order horder
    have hsame : ∀ ref, heap.Reaches order.flatten ref ↔ heap.Reaches rows.flatten ref := by
      intro ref
      exact ⟨.mono horder.flatten.subset, .mono horder.symm.flatten.subset⟩
    obtain ⟨log', hrun'⟩ := exists_run_finish heap {} [] (start {} order).members
    have hmarch' := Run.marching (fun ref hreach => hintact ref ((hsame ref).1 hreach)) hrun'
    have hended' : ∀ member ∈ ((start {} order).finish heap).1.map Tracing.ended,
        member.hasEnded = true := by
      intro member hmem
      obtain ⟨result, -, rfl⟩ := List.mem_map.1 hmem
      rfl
    refine Marks.ext_contains fun ref => ?_
    rw [Bool.eq_iff_iff]
    exact ((hmarch'.contains_iff hended' ref).trans (hsame ref)).trans (hexact ref).symm
  · intro ref hreach
    refine exists_filter_eq_singleton ?_ ?_
    · exact (List.nodup_append.1 hmarch.once.nodup).2.1
    · rw [hmarch.mem_log_iff hended]
      exact (hexact ref).2 hreach

/-- Two tracers that take turns on a knot. -/
theorem run_converges_knot : ∃ log crew,
    Run .knot (start {} [[some (.object 1)], [some (.array 1)]]) log crew ∧
      (∀ member ∈ crew.members, member.hasEnded = true) ∧
      ∀ ref, crew.marks.contains ref = true ↔
        Heap.knot.Reaches [some (.object 1), some (.array 1)] ref := by
  have hstart : Run .knot (start {} [[some (.object 1)], [some (.array 1)]]) [] _ := .start
  have hfirst := hstart.step (i := 0) rfl
  have hopened := ((hfirst.step (i := 1) rfl).step (i := 1) rfl).step (i := 0) rfl
  have hvisited := ((hopened.step (i := 0) rfl).step (i := 1) rfl).step (i := 0) rfl
  have hrun := (hvisited.step (i := 1) rfl).step (i := 0) rfl
  refine ⟨_, _, hrun, ?_, (run_converges Heap.knot_intact hrun ?_).1⟩ <;> decide

end Crew

end MarkSweep
