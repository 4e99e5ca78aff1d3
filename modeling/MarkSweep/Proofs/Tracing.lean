import MarkSweep.Cycle.Mark
import MarkSweep.Proofs.Company.Call
import MarkSweep.Proofs.Company.Discipline
import MarkSweep.Proofs.Marking.Avoidance
import Mathlib.Data.Set.Card

namespace MarkSweep

/-- What comes of marking from `cells` where `before` was marked already. -/
structure Traced (heap : Heap) (before : Marks) (cells : List Slot) (result : Except Fault Nat)
    (after : Marks) : Prop where
  /-- It is stopped if and only if a missing entry is reached past the old marks. -/
  error_iff : (∃ fault, result = .error fault) ↔
    ∃ ref, heap.ReachesPast before cells ref ∧ heap.contains ref = false
  /-- Unless it is stopped, it marks all that is reached past the old marks. -/
  exact : ∀ count, result = .ok count → ∀ ref, after.contains ref = true ↔
    before.contains ref = true ∨ heap.ReachesPast before cells ref
  /-- The answer is how many entries that is. -/
  count : ∀ count, result = .ok count → {ref | heap.ReachesPast before cells ref}.Finite ∧
    count = {ref | heap.ReachesPast before cells ref}.ncard
  /-- Old marks that lead only to one another hide nothing. -/
  closed : ∀ count, result = .ok count → before.ClosedIn heap → ∀ ref, after.contains ref = true ↔
    before.contains ref = true ∨ heap.Reaches cells ref
  /-- It is stopped where an entry is missing that it has marked. -/
  fault : ∀ fault, result = .error fault → ∃ ref, fault = .missingEntry ref ∧
    heap.contains ref = false ∧ heap.ReachesPast before cells ref ∧ after.contains ref = true
  /-- Old marks stay. -/
  kept : ∀ ref, before.contains ref = true → after.contains ref = true
  /-- New marks lie on paths past the old ones. -/
  added : ∀ ref, after.contains ref = true →
    before.contains ref = true ∨ heap.ReachesPast before cells ref

variable {heap : Heap} {avoided marks : Marks} {roots : List Slot} {tracer : Tracer}
  {added : List Ref} {thread : Thread} {sheet : Sheet}

namespace Walk

variable (hwalk : Walk heap avoided roots (tracer.toAgenda []) marks added)
include hwalk

theorem contains_of_avoided (ref : Ref) (hold : avoided.contains ref = true) :
    marks.contains ref = true :=
  (hwalk.marked_iff ref).2 (.inl hold)

/-- A walk that is over has marked all that is reached past the old marks. -/
theorem mem_added_iff (hpending : tracer.pending = []) (hworklist : tracer.worklist = [])
    (ref : Ref) : ref ∈ added ↔ heap.ReachesPast avoided roots ref := by
  have hagenda : (tracer.toAgenda []).pending = [] := by simp [Tracer.toAgenda, hpending]
  exact ⟨hwalk.past ref, fun hreach => (hwalk.mem_added_of_done hagenda hworklist hreach).1⟩

/-- A tracer with nothing before it has marked what its slots reach past the old marks. -/
theorem traced_of_done (hpending : tracer.pending = []) (hworklist : tracer.worklist = [])
    (hcount : added.length = tracer.marked) :
    Traced heap avoided roots (.ok tracer.marked) marks := by
  have hmem := hwalk.mem_added_iff hpending hworklist
  have hexact : ∀ ref, marks.contains ref = true ↔
      avoided.contains ref = true ∨ heap.ReachesPast avoided roots ref := by
    intro ref
    rw [hwalk.marked_iff, hmem]
  have hset : {ref | heap.ReachesPast avoided roots ref} = (added.toFinset : Set Ref) := by
    ext ref
    simp [hmem]
  constructor
  case error_iff =>
    have hagenda : (tracer.toAgenda []).pending = [] := by simp [Tracer.toAgenda, hpending]
    constructor
    · rintro ⟨fault, hfault⟩
      cases hfault
    · rintro ⟨ref, hreach, hmissing⟩
      obtain ⟨-, hcontains⟩ := hwalk.mem_added_of_done hagenda hworklist hreach
      rw [hmissing] at hcontains
      cases hcontains
  case exact => exact fun _ _ => hexact
  case count =>
    intro count hok
    cases hok
    rw [hset]
    refine ⟨added.toFinset.finite_toSet, ?_⟩
    rw [Set.ncard_coe_finset, List.toFinset_card_of_nodup hwalk.nodup, hcount]
  case closed =>
    intro count _ hclosed ref
    rw [hexact, Heap.ReachesPast.avoided_or_iff hclosed]
  case fault => exact fun _ hfault => nomatch hfault
  case kept => exact hwalk.contains_of_avoided
  case added => exact fun _ => hwalk.past_of_contains

/-- A tracer that meets a missing entry stops there. -/
theorem traced_of_missing {ref : Ref} (hlisted : ref ∈ tracer.worklist)
    (hmissing : heap.contains ref = false) :
    Traced heap avoided roots (.error (.missingEntry ref)) marks := by
  have hadded : ref ∈ added := hwalk.worklist ref hlisted
  have hpast := hwalk.past ref hadded
  constructor
  case error_iff => exact ⟨fun _ => ⟨ref, hpast, hmissing⟩, fun _ => ⟨_, rfl⟩⟩
  case exact => exact fun _ hok => nomatch hok
  case count => exact fun _ hok => nomatch hok
  case closed => exact fun _ hok => nomatch hok
  case fault =>
    intro fault hfault
    cases hfault
    exact ⟨ref, rfl, hmissing, hpast, (hwalk.marked_iff ref).2 (.inr hadded)⟩
  case kept => exact hwalk.contains_of_avoided
  case added => exact fun _ => hwalk.past_of_contains

end Walk

/-- A tracer that goes on alone from where a walk has come to. -/
theorem Tracer.run_traced (hrank : thread.held.rank ≤ Level.heap.rank)
    (hwalk : Walk heap avoided roots (tracer.toAgenda []) marks added)
    (hcount : added.length = tracer.marked) :
    Traced heap avoided roots (tracer.run thread heap marks).1
      (tracer.run thread heap marks).2 := by
  induction hweight : tracer.weight heap marks using Nat.strongRecOn
    generalizing tracer marks added with
  | ind weight ih =>
    rcases hstep : tracer.step thread heap marks with _ | fault | ⟨tracer', marks'⟩
    · obtain ⟨hpending, hworklist, -⟩ := toAgenda_of_step_eq_none hstep
      rw [run_of_step_none hstep]
      exact hwalk.traced_of_done hpending hworklist hcount
    · obtain ⟨ref, hlisted, hmissing, rfl⟩ := exists_missing_of_step hrank hstep
      rw [run_of_step_error hstep]
      exact hwalk.traced_of_missing hlisted hmissing
    · obtain ⟨hmove, hsize⟩ := toAgenda_step hstep []
      obtain ⟨added', hwalk'⟩ := hwalk.step hmove
      have hbefore := hwalk.size
      have hafter := hwalk'.size
      have hlt := step_weight hstep
      rw [run_of_step_ok hstep]
      exact ih _ (by omega) hwalk' (by omega) rfl

/-- What a tracer alone does from any marks. -/
theorem Tracer.run_start_traced (hrank : thread.held.rank ≤ Level.heap.rank) (cells : List Slot)
    (marks : Marks) :
    Traced heap marks cells ((start cells).run thread heap marks).1
      ((start cells).run thread heap marks).2 := by
  have hwalk : Walk heap marks cells ((start cells).toAgenda []) marks [] := by
    rw [toAgenda_start, List.append_nil]
    exact .start heap marks cells
  exact run_traced hrank hwalk rfl

/-- A step of a program that nobody disturbs. -/
theorem Routine.attains_step_alone {σ α β : Type} {live : Prop} {env : σ → σ → Prop}
    {Q : α → σ → Prop} {act : Choice → σ → Option (β × σ)} {next : β → Routine σ α} {s : σ}
    (hnone : ∀ s s', ¬env s s') (hcan : ∃ choice b s', act choice s = some (b, s'))
    (hnext : ∀ choice b s', act choice s = some (b, s') → Attains env live Q (next b) s') :
    Attains env live Q (.step act next) s := by
  intro s' hothers
  obtain rfl | ⟨s₁, hstep, -⟩ := hothers.cases_head
  · exact ⟨fun _ => .inl hcan, hnext⟩
  · exact absurd hstep (hnone _ _)

namespace World

open Call (Beside Nobody)

/-- Every budget above the weight of a tracer lets it do what it does alone, step by step. -/
theorem attains_traceWithin {budget : Nat} {world : World}
    (hbudget : tracer.weight world.heap (world.sheet sheet) < budget) :
    Routine.Attains (Beside Nobody) True
      (fun result after => (result, after) =
        ((tracer.run thread world.heap (world.sheet sheet)).1, thread,
          world.setSheet sheet (tracer.run thread world.heap (world.sheet sheet)).2))
      (traceWithin sheet budget tracer) (thread, world) := by
  induction budget generalizing tracer world with
  | zero => omega
  | succ budget ih =>
    refine Call.attains_bind (Routine.attains_step_alone (fun _ _ henv => henv.2)
      ⟨0, _, _, rfl⟩ ?_)
    rintro choice result after hact
    cases hact
    rcases hstep : tracer.step thread world.heap (world.sheet sheet) with
      _ | fault | ⟨tracer', marks⟩
    · rw [Tracer.run_of_step_none hstep, setSheet_sheet]
      exact rfl
    · rw [Tracer.run_of_step_error hstep, setSheet_sheet]
      exact rfl
    · have hlt := Tracer.step_weight hstep
      have hrest : tracer'.weight (world.setSheet sheet marks).heap
          ((world.setSheet sheet marks).sheet sheet) < budget := by
        simp only [heap_setSheet, sheet_setSheet, if_pos]
        omega
      have hgoes := ih hrest
      simp only [heap_setSheet, sheet_setSheet, if_pos, setSheet_setSheet] at hgoes
      rw [Tracer.run_of_step_ok hstep]
      exact hgoes

/-- Whoever leaves the heap as it is. -/
def sparing : Discipline Unit (Thread × World) where
  relies _ _ := True
  prompt _ := False
  barred _ := False
  moves _ _ x _ y := y.2.heap = x.2.heap

/-- A tracer spares everything but marks, whatever its budget. -/
theorem keeps_traceWithin_sparing (sheet : Sheet) (budget : Nat) (tracer : Tracer) :
    Call.Keeps sparing (fun _ _ => True) (traceWithin sheet budget tracer) () := by
  induction budget generalizing tracer with
  | zero =>
    refine ⟨False.elim, ?_⟩
    rintro choice x b y - ⟨⟩
  | succ budget ih =>
    refine Call.keeps_bind (R := fun _ _ => True) ⟨False.elim, ?_⟩ ?_ fun _ _ _ => trivial
    · rintro choice ⟨t, world⟩ b y - hact
      cases hact
      refine ⟨(), ?_, trivial⟩
      rcases tracer.step t world.heap (world.sheet sheet) with _ | fault | ⟨tracer', marks⟩
      · rfl
      · rfl
      · exact heap_setSheet world sheet marks
    · rintro - (tracer | marked) -
      · exact ih tracer
      · trivial

theorem keeps_trace_sparing (sheet : Sheet) (cells : List Slot) :
    Call.Keeps sparing (fun _ _ => True) (trace sheet cells) () := by
  refine Call.keeps_bind (R := fun _ _ => True) ⟨False.elim, ?_⟩
    (fun _ budget _ => keeps_traceWithin_sparing sheet budget _) fun _ _ _ => trivial
  rintro choice ⟨t, world⟩ b y - hact
  cases hact
  exact ⟨(), rfl, trivial⟩

/-- A program that spares the heap leaves it as it is wherever it stands. -/
theorem heap_eq_of_keeps {α : Type} {p p' : Routine (Thread × World) α} {x x' : Thread × World}
    {E : Unit → α → Prop} (hkeeps : p.Keeps sparing E ())
    (hsteps : Relation.ReflTransGen (Routine.Together (Beside Nobody)) (p, x) (p', x')) :
    x'.2.heap = x.2.heap := by
  suffices hall : ∀ after, Relation.ReflTransGen (Routine.Together (Beside Nobody)) (p, x) after →
      after.1.Keeps sparing E () ∧ after.2.2.heap = x.2.heap from (hall _ hsteps).2
  intro after hafter
  induction hafter with
  | refl => exact ⟨hkeeps, rfl⟩
  | tail _ hstep ih =>
    cases hstep with
    | own hact =>
      obtain ⟨⟨⟩, hheap, hnext⟩ := ih.1.2 _ _ _ _ trivial hact
      exact ⟨hnext, hheap.trans ih.2⟩
    | others henv => exact henv.2.elim

/-- A thread that marks while nobody else does anything comes to an end from any marks, with exactly
what its cells reach past them, and never changes the heap. -/
theorem trace_exact (hrank : thread.held.rank ≤ Level.heap.rank) (sheet : Sheet)
    (cells : List Slot) (world : World) :
    Routine.Ends (Beside Nobody)
        (fun result after => after.1 = thread ∧ ∃ marks, after.2 = world.setSheet sheet marks ∧
          Traced world.heap (world.sheet sheet) cells result marks)
        (trace sheet cells) (thread, world) ∧
      ∀ p after, Relation.ReflTransGen (Routine.Together (Beside Nobody))
          (trace sheet cells, thread, world) (p, after) → after.2.heap = world.heap := by
  constructor
  · refine Routine.Attains.ends ⟨fun s => ⟨s, fun _ henv => henv.2.elim⟩⟩ ?_
    refine Call.attains_bind (Routine.attains_step_alone (fun _ _ henv => henv.2)
      ⟨0, _, _, rfl⟩ ?_)
    rintro choice result after hact
    cases hact
    refine (attains_traceWithin (by omega)).mono ?_
    rintro result after hafter
    cases hafter
    exact ⟨rfl, _, rfl, Tracer.run_start_traced hrank cells (world.sheet sheet)⟩
  · intro p after hsteps
    exact heap_eq_of_keeps (keeps_trace_sparing sheet cells) hsteps

/-- A world with a knot of two entries, of which one is marked. -/
def halfMarked : World where
  heap := .knot
  spare := (({} : Marks).insert (.array 1)).2
  config := .withWorkers 1

/-- A thread that holds the cycle lock marks the other half of the knot. -/
theorem trace_exact_halfMarked :
    Held.rank [.cycle] ≤ Level.heap.rank ∧
      Routine.Ends (Beside Nobody)
        (fun result after => after.1 = ⟨[.cycle], []⟩ ∧ ∃ marks,
          after.2 = halfMarked.setSheet .spare marks ∧
          Traced .knot (({} : Marks).insert (.array 1)).2 [some (.object 1)] result marks)
        (trace .spare [some (.object 1)]) (⟨[.cycle], []⟩, halfMarked) := by
  have hrank : (⟨[.cycle], []⟩ : Thread).held.rank ≤ Level.heap.rank := by decide
  exact ⟨hrank, (trace_exact hrank .spare [some (.object 1)] halfMarked).1⟩

end World

end MarkSweep
