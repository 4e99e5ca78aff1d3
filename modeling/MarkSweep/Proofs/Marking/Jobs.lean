import MarkSweep.Cycle.Job
import MarkSweep.Proofs.Marking.Frontier
import MarkSweep.Proofs.Pool.Ledger

namespace MarkSweep

/-- The root slots at some places. -/
def World.rowSlots (world : World) (rows : List RootRow) : List Slot :=
  rows.flatMap world.rootSlots

theorem World.rootSlots_congr {world world' : World} (hframes : world'.frames = world.frames)
    (hmethods : world'.methods = world.methods) : world'.rootSlots = world.rootSlots := by
  funext row
  cases row <;> simp only [rootSlots, hframes, hmethods]

namespace Job

/-- Whether a job marks a pair of mark sets. -/
def Marks (sheet : Sheet) : Job → Prop
  | .mark marking => marking.sheet = sheet
  | .markStatics own => own = sheet
  | .sweep _ _ => False

/-- What a marking job has before it. -/
def agenda (world : World) : Job → Agenda
  | .mark marking => marking.tracer.toAgenda (world.rowSlots marking.rows)
  | .markStatics _ => ⟨world.rowSlots world.staticRows, []⟩
  | .sweep _ _ => {}

/-- How many slots a marking job will have read when it ends. -/
def slotCount (world : World) : Job → Nat
  | .mark marking => marking.slotsRead + (world.rowSlots marking.rows).length
  | .markStatics _ => (world.rowSlots world.staticRows).length
  | .sweep _ _ => 0

variable {sheet : Sheet} {thread : Thread} {world world' : World} {job rest : Job}
  {outcome : Outcome Tally}

/-- What a job has before it depends on the roots only. -/
theorem agenda_congr (hframes : world'.frames = world.frames)
    (hmethods : world'.methods = world.methods) (job : Job) :
    job.agenda world' = job.agenda world := by
  have hslots := World.rootSlots_congr hframes hmethods
  cases job <;> simp only [agenda, World.rowSlots, World.staticRows, hslots, hmethods]

/-- So does how many slots it reads. -/
theorem slotCount_congr (hframes : world'.frames = world.frames)
    (hmethods : world'.methods = world.methods) (job : Job) :
    job.slotCount world' = job.slotCount world := by
  have hslots := World.rootSlots_congr hframes hmethods
  cases job <;> simp only [slotCount, World.rowSlots, World.staticRows, hslots, hmethods]

/-- A job changes nothing, or the marks on one sheet, or it sweeps. -/
theorem step_changes (hstep : (∃ rest, job.step thread world = .next world' rest) ∨
      ∃ outcome, job.step thread world = .finish world' outcome) :
    world' = world ∨ (∃ sheet marks, world' = world.setSheet sheet marks) ∨
      ∃ live region, world' = { world with heap := (world.heap.erase live region).2 } := by
  obtain ⟨rest, hstep⟩ | ⟨outcome, hstep⟩ := hstep
  · cases job with
    | mark marking =>
      simp only [step, stepMarking] at hstep
      repeat' split at hstep
      all_goals cases hstep
      · exact .inr (.inl ⟨_, _, rfl⟩)
      · exact .inl rfl
    | markStatics sheet =>
      cases hstep
      exact .inl rfl
    | sweep region live =>
      simp only [step] at hstep
      split at hstep <;> cases hstep
  · cases job with
    | mark marking =>
      simp only [step, stepMarking] at hstep
      repeat' split at hstep
      all_goals cases hstep
      all_goals exact .inl rfl
    | markStatics sheet => cases hstep
    | sweep region live =>
      simp only [step] at hstep
      split at hstep
      · cases hstep
        exact .inl rfl
      · cases hstep
        exact .inr (.inr ⟨live, region, rfl⟩)

/-- A marking job that goes on reads a row or takes a step on its agenda. -/
theorem step_next (hmarks : job.Marks sheet) (hfree : thread.held = [])
    (hstep : job.step thread world = .next world' rest) :
    rest.Marks sheet ∧ rest.slotCount world = job.slotCount world ∧
      ∃ marks, world' = world.setSheet sheet marks ∧
      (marks = world.sheet sheet ∧ rest.agenda world = job.agenda world ∨
        ∃ opened, Agenda.Step world.heap (job.agenda world) (world.sheet sheet) opened
          (rest.agenda world) marks) := by
  cases job with
  | mark marking =>
    obtain rfl : marking.sheet = sheet := hmarks
    simp only [step, stepMarking] at hstep
    split at hstep
    · next tracer marks htracer =>
      cases hstep
      obtain ⟨hmove, -⟩ := Tracer.toAgenda_step htracer (world.rowSlots marking.rows)
      exact ⟨rfl, rfl, marks, rfl, .inr ⟨_, hmove⟩⟩
    · cases hstep
    · next htracer =>
      obtain ⟨hpending, hworklist, -⟩ := Tracer.toAgenda_of_step_eq_none htracer
      split at hstep
      · cases hstep
      · next row rows hrows =>
        rw [thread.checkEnter_of_held_nil hfree] at hstep
        cases hstep
        refine ⟨rfl, ?_, _, (World.setSheet_sheet world _).symm, .inl ⟨rfl, ?_⟩⟩
        · simp only [slotCount, hrows, World.rowSlots, List.flatMap_cons, List.length_append]
          omega
        · simp only [agenda, Tracer.toAgenda, Tracer.start, hpending, hworklist, hrows,
            World.rowSlots, List.flatMap_cons, List.nil_append]
  | markStatics own =>
    obtain rfl : own = sheet := hmarks
    cases hstep
    exact ⟨rfl, Nat.zero_add _, _, (World.setSheet_sheet world _).symm, .inl ⟨rfl, rfl⟩⟩
  | sweep region live => cases hmarks

/-- A marking job ends when nothing is left before it, or where an entry of its worklist is
missing. -/
theorem step_finish (hmarks : job.Marks sheet) (hfree : thread.held = [])
    (hstep : job.step thread world = .finish world' outcome) :
    world' = world ∧
      ((∃ tally, outcome = .value tally ∧ tally.entries = job.slotCount world) ∧
          (job.agenda world).pending = [] ∧ (job.agenda world).worklist = [] ∨
        ∃ ref ∈ (job.agenda world).worklist, world.heap.contains ref = false ∧
          outcome = .fault (Fault.missingEntry ref).payload) := by
  cases job with
  | mark marking =>
    simp only [step, stepMarking] at hstep
    split at hstep
    · cases hstep
    · next fault htracer =>
      cases hstep
      obtain ⟨ref, hmem, hmissing, rfl⟩ :=
        Tracer.exists_missing_of_step (Thread.rank_le_of_held_nil hfree) htracer
      exact ⟨rfl, .inr ⟨ref, hmem, hmissing, rfl⟩⟩
    · next htracer =>
      obtain ⟨hpending, hworklist, -⟩ := Tracer.toAgenda_of_step_eq_none htracer
      split at hstep
      · next hrows =>
        cases hstep
        refine ⟨rfl, .inl ⟨⟨_, rfl, ?_⟩, ?_, hworklist⟩⟩
        · simp only [slotCount, hrows, World.rowSlots, List.flatMap_nil, List.length_nil,
            Nat.add_zero]
        · simp only [agenda, Tracer.toAgenda, hpending, hrows, World.rowSlots, List.flatMap_nil,
            List.append_nil]
      · rw [thread.checkEnter_of_held_nil hfree] at hstep
        cases hstep
  | markStatics own => cases hstep
  | sweep region live => cases hmarks

/-- Whether a job erases entries. -/
def isSweep : Job → Bool
  | sweep _ _ => true
  | mark _ | markStatics _ => false

/-- A job that marks leaves the heap alone, and goes on marking. -/
theorem step_next_of_marks (hmarks : job.isSweep = false)
    (hstep : job.step thread world = .next world' rest) :
    world'.heap = world.heap ∧ rest.isSweep = false := by
  cases job with
  | mark marking =>
    simp only [step, stepMarking] at hstep
    repeat' split at hstep
    all_goals cases hstep
    · exact ⟨World.heap_setSheet _ _ _, rfl⟩
    · exact ⟨rfl, rfl⟩
  | markStatics sheet =>
    cases hstep
    exact ⟨rfl, rfl⟩
  | sweep region live => cases hmarks

theorem step_finish_of_marks (hmarks : job.isSweep = false)
    (hstep : job.step thread world = .finish world' outcome) : world'.heap = world.heap := by
  cases job with
  | mark marking =>
    simp only [step, stepMarking] at hstep
    repeat' split at hstep
    all_goals cases hstep
    all_goals rfl
  | markStatics sheet => cases hstep
  | sweep region live => cases hmarks

/-- No job takes a mark of the collector away. -/
theorem step_marks_mono (hstep : (∃ rest, job.step thread world = .next world' rest) ∨
      ∃ outcome, job.step thread world = .finish world' outcome) {ref : Ref}
    (hmarked : world.marks.contains ref = true) : world'.marks.contains ref = true := by
  cases job with
  | sweep region live =>
    obtain ⟨rest, hstep⟩ | ⟨outcome, hstep⟩ := hstep <;>
    · simp only [step] at hstep
      split at hstep <;> cases hstep <;> exact hmarked
  | markStatics sheet =>
    obtain ⟨rest, hstep⟩ | ⟨outcome, hstep⟩ := hstep <;> cases hstep
    exact hmarked
  | mark marking =>
    obtain ⟨rest, hstep⟩ | ⟨outcome, hstep⟩ := hstep
    · simp only [step, stepMarking] at hstep
      repeat' split at hstep
      all_goals cases hstep
      · next tracer marks htracer =>
        have hmono : ∀ {ref : Ref}, (world.sheet marking.sheet).contains ref = true →
            marks.contains ref = true :=
          (Tracer.toAgenda_step htracer []).1.marks_mono
        cases hsheet : marking.sheet with
        | collector =>
          rw [hsheet] at hmono
          exact hmono hmarked
        | spare => exact hmarked
      · exact hmarked
    · simp only [step, stepMarking] at hstep
      repeat' split at hstep
      all_goals cases hstep
      all_goals exact hmarked

end Job

end MarkSweep
