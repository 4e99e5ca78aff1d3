import MarkSweep.Proofs.Forum.Shadow
import MarkSweep.Proofs.Pool.Likeness

namespace MarkSweep

/-- What there is to be seen of a call: who made it, and where it stands. -/
def Visit.outline {ε S α : Type} (visit : Visit ε S α) :
    Thread × Thread × Option (Except Fault α) :=
  (visit.caller, visit.thread, visit.answer?)

namespace Forum

variable {ω : Type} {forum forum' shade : Forum ω} {machine machine' : Machine}
  {turns turns' : List (Turn ω)}

/-- The turns are the same but for such cells of what is stored. -/
inductive Turn.Alike : Turn ω → Turn ω → Prop
  | same (turn : Turn ω) : Alike turn turn
  | store {deposit deposit' : Heap.Deposit} (hdeposit : deposit.Alike deposit') (caller : Thread) :
      Alike (.call (.store deposit) caller) (.call (.store deposit') caller)

/-- The forums are the same but for such cells: all calls have come equally far, and those that have
ended have ended in the same way. -/
structure Alike (forum forum' : Forum ω) : Prop where
  machine : forum.machine.Alike forum'.machine
  /-- A marker comes by the same slots. -/
  slots : ∀ ref,
    forum'.machine.env.heap.slotsOf? ref = forum.machine.env.heap.slotsOf? ref
  visits : forum'.visits.map Visit.outline = forum.visits.map Visit.outline

/-- Whether some call was made to store the array. -/
def Stores (forum : Forum ω) (array : ArrayEntry) : Prop :=
  ∃ visit ∈ forum.visits, visit.errand.Stores array

/-- What is fixed about the arrays at a moment of a run that began with the machine `start`. -/
structure Shaped (start : Machine) (forum : Forum ω) : Prop where
  /-- No array counts more elements than it has cells. -/
  fits : ∀ (offset : Offset) (array : ArrayEntry),
    forum.machine.env.heap.arrays[offset]? = some array →
      array.length ≤ array.storage.size ∧ array.elements.length = array.length
  /-- Every array has the shape that it had at the beginning, or with which it was stored. -/
  given : start.KeepsShapes (fun array => ∃ stored, forum.Stores stored ∧ stored.SameShape array)
    forum.machine
  /-- Whatever happens next, arrays keep their shapes, except where another array is stored. -/
  kept : ∀ turn next, forum.next? turn = some next →
    forum.machine.KeepsShapes forum.Stores next.machine
  /-- Nothing is written past the elements of an array. -/
  refused : ∀ (offset : Offset) (array : ArrayEntry) (index : Nat) (value : Slot),
    forum.machine.env.heap.arrays[offset]? = some array → array.length ≤ index →
      forum.machine.env.heap.setElement offset index value = (false, forum.machine.env.heap)

/-- The turn with nothing in the hidden cells of what is stored. -/
def Turn.blank : Turn ω → Turn ω
  | call operation caller => call operation.blank caller
  | turn => turn

/-- Turns that differ in hidden cells only are the same without them. -/
theorem Turn.Alike.blank_eq {turn turn' : Turn ω} (halike : turn.Alike turn') :
    turn'.blank = turn.blank := by
  cases halike with
  | same => rfl
  | store hdeposit caller =>
    exact congrArg (fun deposit => call (.store deposit) caller) hdeposit.blank_eq

/-- The one call does on the machine when blank what the other does on the machine. -/
structure VisitShadows (visit visit' : Visit (Operation ω) Machine (Response ω)) : Prop where
  caller : visit'.caller = visit.caller
  thread : visit'.thread = visit.thread
  rest : Call.Shadows Machine.blank (Machine.KeepsShapes visit.errand.Stores) visit.rest visit'.rest

/-- The one forum is what there is to be seen of the other. -/
structure Shadows (forum shade : Forum ω) : Prop where
  machine : shade.machine = forum.machine.blank
  visits : List.Forall₂ VisitShadows forum.visits shade.visits

section Step

variable {visit visit' : Visit (Operation ω) Machine (Response ω)}

/-- Of a call that is there to be seen, everything is to be seen but what it stores past the
elements. -/
theorem VisitShadows.outline_eq (h : VisitShadows visit visit') :
    visit'.outline = visit.outline := by
  have hanswer : visit'.answer? = visit.answer? := by
    have hrest := h.rest
    unfold Visit.answer?
    generalize visit.rest = rest at hrest ⊢
    generalize visit'.rest = rest' at hrest ⊢
    cases hrest <;> rfl
  rw [Visit.outline, Visit.outline, h.caller, h.thread, hanswer]

/-- A step of the one call is there to be seen as a step of the other. -/
theorem VisitShadows.next (h : VisitShadows visit visit') (choice : Choice) (machine : Machine) :
    Option.Rel (fun after after' => VisitShadows after.1 after'.1 ∧ after'.2 = after.2.blank)
      (visit.next? choice machine) (visit'.next? choice machine.blank) := by
  obtain ⟨errand, caller, thread, rest⟩ := visit
  obtain ⟨errand', caller', thread', rest'⟩ := visit'
  obtain ⟨rfl, rfl, hrest⟩ := h
  cases hrest with
  | done result => exact .none
  | @step _ act act' next next' hact hmoves hnext =>
    have hoffer : act' choice (thread', machine.blank) = _ := hact choice (thread', machine)
    simp only [Visit.next?, hoffer]
    cases act choice (thread', machine) with
    | none => exact .none
    | some after => exact .some ⟨⟨rfl, rfl, hnext after.1⟩, rfl⟩

/-- A step of a call brings in no array but one that it stores. -/
theorem VisitShadows.keepsShapes (h : VisitShadows visit visit') {choice : Choice}
    {after : Visit (Operation ω) Machine (Response ω)}
    (hnext : visit.next? choice machine = some (after, machine')) :
    machine.KeepsShapes visit.errand.Stores machine' := by
  obtain ⟨errand, caller, thread, rest⟩ := visit
  have hrest := h.rest
  generalize visit'.rest = rest' at hrest
  cases hrest with
  | done result => cases hnext
  | step hact hmoves _ =>
    obtain ⟨⟨b, thread', machine'⟩, hstep, heq⟩ := Option.map_eq_some_iff.1 hnext
    cases heq
    exact hmoves choice _ _ _ hstep

end Step

/-- A turn that is taken can be seen to be taken. -/
theorem Shadows.next (h : forum.Shadows shade) (turn : Turn ω) :
    Option.Rel Shadows (forum.next? turn) (shade.next? turn.blank) := by
  cases turn with
  | call operation caller =>
    refine .some ⟨h.machine, List.rel_append h.visits (.cons ?_ .nil)⟩
    exact ⟨rfl, rfl, shadows_call operation⟩
  | go i choice =>
    have hvisits := forall₂_getElem? h.visits i
    simp only [Turn.blank, next?, h.machine]
    generalize forum.visits[i]? = visit at hvisits ⊢
    generalize shade.visits[i]? = visit' at hvisits ⊢
    cases hvisits with
    | none => exact .none
    | @some visit visit' hvisit =>
      have hstep := hvisit.next choice forum.machine
      simp only [Option.bind_some]
      generalize visit.next? choice forum.machine = after at hstep ⊢
      generalize visit'.next? choice forum.machine.blank = after' at hstep ⊢
      cases hstep with
      | none => exact .none
      | some hafter => exact .some ⟨hafter.2, forall₂_set h.visits hafter.1 i⟩
  | work i choice =>
    have hwork := Worksite.workerStep_veiled (B := Job.body) (fun _ => Job.step_blank) choice i
      forum.machine
    simp only [Turn.blank, next?, h.machine]
    rw [Machine.blank, hwork]
    cases Worksite.workerStep Job.body choice i forum.machine with
    | none => exact .none
    | some machine => exact .some ⟨rfl, h.visits⟩
  | rouse i =>
    refine .some ⟨?_, h.visits⟩
    rw [h.machine]
    rfl

/-- No turn brings in an array but one that a call stores. -/
theorem Shadows.keepsShapes (h : forum.Shadows shade) {turn : Turn ω}
    (hnext : forum.next? turn = some forum') :
    forum.machine.KeepsShapes forum.Stores forum'.machine := by
  cases turn with
  | call operation caller =>
    cases hnext
    exact forum.machine.keepsShapes_refl
  | go i choice =>
    obtain ⟨visit, hget, hmap⟩ := Option.bind_eq_some_iff.1 hnext
    obtain ⟨⟨after, machine⟩, hvisit, rfl⟩ := Option.map_eq_some_iff.1 hmap
    have hvisits := forall₂_getElem? h.visits i
    rw [hget] at hvisits
    generalize shade.visits[i]? = visit' at hvisits
    cases hvisits with
    | some hshadows =>
      refine Heap.KeepsShapes.mono (hshadows.keepsShapes hvisit) ?_
      intro array hstores
      exact ⟨visit, List.mem_of_getElem? hget, hstores⟩
  | work i choice =>
    obtain ⟨machine, hwork, rfl⟩ := Option.map_eq_some_iff.1 hnext
    obtain henv | ⟨name, thread, job, hstep⟩ := Worksite.workerStep_env hwork
    · exact Heap.keepsShapes_of_arrays_eq (congrArg (·.heap.arrays) henv)
    · exact Heap.KeepsShapes.mono (Job.step_keepsShapes hstep) nofun
  | rouse i =>
    cases hnext
    exact Heap.keepsShapes_refl _

/-- What was stored by a call goes down in the history of the run. -/
theorem stores_next {turn : Turn ω} (hnext : forum.next? turn = some forum') {array : ArrayEntry}
    (hstores : forum.Stores array) : forum'.Stores array := by
  obtain ⟨visit, hmem, hstores⟩ := hstores
  cases turn with
  | call operation caller =>
    cases hnext
    exact ⟨visit, List.mem_append_left _ hmem, hstores⟩
  | go i choice =>
    obtain ⟨before, hget, hmap⟩ := Option.bind_eq_some_iff.1 hnext
    obtain ⟨⟨after, machine⟩, hvisit, rfl⟩ := Option.map_eq_some_iff.1 hmap
    obtain ⟨j, hlt, rfl⟩ := List.mem_iff_getElem.1 hmem
    by_cases hij : i = j
    · subst hij
      obtain rfl : before = forum.visits[i] :=
        Option.some.inj (hget.symm.trans (List.getElem?_eq_getElem hlt))
      refine ⟨after, List.mem_set hlt after, ?_⟩
      rw [(Visit.Step.of_next? hvisit).errand_eq.1]
      exact hstores
    · refine ⟨forum.visits[j], List.mem_of_getElem? (i := j) ?_, hstores⟩
      rw [List.getElem?_set_ne hij, List.getElem?_eq_getElem hlt]
  | work i choice =>
    obtain ⟨machine, -, rfl⟩ := Option.map_eq_some_iff.1 hnext
    exact ⟨visit, hmem, hstores⟩
  | rouse i =>
    cases hnext
    exact ⟨visit, hmem, hstores⟩

/-- Throughout a run, arrays have the shapes that they had at its beginning, or with which they were
stored. -/
theorem Shadows.run_keepsShapes (h : forum.Shadows shade) {turns : List (Turn ω)}
    (hrun : forum.run turns = some forum') :
    (∀ array, forum.Stores array → forum'.Stores array) ∧
      forum.machine.KeepsShapes
        (fun array => ∃ stored, forum'.Stores stored ∧ stored.SameShape array) forum'.machine := by
  induction turns generalizing forum shade with
  | nil =>
    cases hrun
    exact ⟨fun _ hstores => hstores, Heap.keepsShapes_refl _⟩
  | cons turn turns ih =>
    obtain ⟨next, hnext, hrest⟩ := Option.bind_eq_some_iff.1 hrun
    have hstep := h.next turn
    rw [hnext] at hstep
    generalize shade.next? turn.blank = shade' at hstep
    cases hstep with
    | some hshadows =>
      obtain ⟨hstores, hshapes⟩ := ih hshadows hrest
      refine ⟨fun array hstored => hstores array (stores_next hnext hstored), ?_⟩
      refine ((h.keepsShapes hnext).trans hshapes).mono ?_
      rintro array (hstored | ⟨stored, hstored, hshape⟩)
      · exact hstored
      · exact ⟨stored, hstores stored (stores_next hnext hstored), hshape⟩

/-- Every run can be seen as a run. -/
theorem Shadows.run (h : forum.Shadows shade) (turns : List (Turn ω)) :
    Option.Rel Shadows (forum.run turns) (shade.run (turns.map Turn.blank)) := by
  induction turns generalizing forum shade with
  | nil => exact .some h
  | cons turn turns ih =>
    have hnext := h.next turn
    simp only [List.map_cons, Forum.run]
    generalize forum.next? turn = after at hnext ⊢
    generalize shade.next? turn.blank = after' at hnext ⊢
    cases hnext with
    | none => exact .none
    | some hafter => exact ih hafter

/-- The calls of a forum look the same through the veil. -/
theorem Shadows.outlines_eq (h : forum.Shadows shade) :
    shade.visits.map Visit.outline = forum.visits.map Visit.outline := by
  have hvisits := h.visits
  generalize forum.visits = visits at hvisits ⊢
  generalize shade.visits = visits' at hvisits ⊢
  induction hvisits with
  | nil => rfl
  | cons hvisit _ ih => rw [List.map_cons, List.map_cons, hvisit.outline_eq, ih]

/-- Forums of which the same is to be seen are alike. -/
theorem Shadows.alike (h : forum.Shadows shade) (h' : forum'.Shadows shade) :
    forum.Alike forum' := by
  have hblank : forum'.machine.blank = forum.machine.blank := h'.machine.symm.trans h.machine
  have hmachine := Machine.alike_iff_blank_eq.2 hblank
  refine ⟨hmachine, ?_, h'.outlines_eq.symm.trans h.outlines_eq⟩
  intro ref
  rw [← Heap.slotsOf?_blank, Heap.alike_iff_blank_eq.1 hmachine.heap, Heap.slotsOf?_blank]

/-- A machine on which nothing has happened is its own shadow. -/
theorem shadows_start (machine : Machine) :
    Shadows ({ machine } : Forum ω) { machine := machine.blank } := ⟨rfl, .nil⟩

/-- A run ends with arrays that have the shapes they had or were stored with. -/
theorem Shadows.shaped (h : forum.Shadows shade) {turns : List (Turn ω)}
    (hrun : Forum.run { machine } turns = some forum) : forum.Shaped machine where
  fits _ array _ := ⟨array.length_le, array.length_elements⟩
  given := ((shadows_start machine).run_keepsShapes hrun).2
  kept _ _ hnext := h.keepsShapes hnext
  refused offset array index value hget hindex := by
    rw [Heap.setElement, hget, Option.bind_eq_bind, Option.bind_some,
      ArrayEntry.setElement?_eq_none hindex]

theorem map_blank_eq (hturns : List.Forall₂ Turn.Alike turns turns') :
    turns'.map Turn.blank = turns.map Turn.blank := by
  induction hturns with
  | nil => rfl
  | cons hturn _ ih => rw [List.map_cons, List.map_cons, hturn.blank_eq, ih]

/-- Runs of which the same is to be seen are alike. -/
theorem rel_alike {after after' seen : Option (Forum ω)} (h : Option.Rel Shadows after seen)
    (h' : Option.Rel Shadows after' seen) : Option.Rel Alike after after' := by
  cases h with
  | none =>
    cases h'
    exact .none
  | some hshadows =>
    cases h' with
    | some hshadows' => exact .some (hshadows.alike hshadows')

/-- A collector with one worker that was asked to collect. A root refers to an array of one element
with `cell` behind it. -/
def shaded (cell : Slot) : Machine where
  pool := Pool.create 1 "gc-worker"
  env :=
    { heap :=
        { arrays := (∅ : Container ArrayEntry).insert 1 ⟨1, #[none, cell], Nat.le_succ 1⟩
          nextOffset := 2 }
      frames := #[⟨#[some (.array 1)], #[], none⟩]
      cycle := { pressure := true }
      config := .withWorkers 1 }

/-- Two machines that differ in one cell past the elements of an array are alike. -/
theorem alike_shaded (cell cell' : Slot) : (shaded cell).Alike (shaded cell') := by
  refine ⟨⟨rfl, fun offset => ?_, rfl, rfl⟩, rfl, rfl⟩
  simp only [shaded, Std.ExtTreeMap.getElem?_insert]
  split
  · refine .some ⟨⟨rfl, rfl⟩, ?_⟩
    intro i hi
    obtain rfl : i = 0 := Nat.lt_one_iff.1 hi
    rfl
  · exact .none

/-- A call ends, and then a collection is made from beginning to end. -/
def burial : List (Turn Unit) :=
  .replicate 5 (.go 0 0) ++ [.call (.collectStacks [[0]] .markAndSweep) {}] ++
    .replicate 26 (.go 1 0) ++ .replicate 14 (.work 0 0) ++ .replicate 27 (.go 1 0) ++
    .replicate 6 (.work 0 0) ++ .replicate 16 (.go 1 0)

/-- An array without elements but with `cell` behind them is stored before the collection. -/
def burying (cell : Slot) : List (Turn Unit) :=
  .call (.store (.allocate (.array ⟨0, #[cell], Nat.zero_le 1⟩))) {} :: burial

/-- Two runs that store different cells past the elements of an array are alike. -/
theorem alike_burying (cell cell' : Slot) :
    List.Forall₂ Turn.Alike (burying cell) (burying cell') := by
  refine .cons (.store (.allocate (.array ?_)) {}) (List.forall₂_same.2 fun turn _ => .same turn)
  exact ⟨⟨rfl, rfl⟩, fun i hi => absurd hi (Nat.not_lt_zero i)⟩

/-- The cells that the array of `shaded` has, and how many collections there were. -/
def exposed (forum : Forum ω) : Option (Array Slot) × Nat :=
  (forum.machine.env.heap.arrays[(1 : Offset)]?.map (·.storage), forum.machine.env.cycle.total)

/-- What an array has past its elements cannot be told from any run, and is left behind in its
place: runs on machines that differ in such cells only are alike, whatever is stored in such cells
meanwhile. Throughout, no array counts more elements than it has cells, and its counts stay as they
are. -/
theorem run_conceals (hmachines : machine.Alike machine')
    (hturns : List.Forall₂ Turn.Alike turns turns') :
    Option.Rel Alike (run { machine } turns) (run { machine := machine' } turns') ∧
      (∀ forum, run { machine } turns = some forum → forum.Shaped machine) ∧
      ∀ (length : Nat) (storage : Array Slot) (fault : Fault),
        ArrayEntry.ofParts length storage = .error fault ↔
          storage.size < length ∧ fault = .lengthExceedsStorage length storage.size := by
  have hrun := (shadows_start machine).run turns
  have hrun' := (shadows_start machine').run turns'
  rw [map_blank_eq hturns, Machine.alike_iff_blank_eq.1 hmachines] at hrun'
  refine ⟨rel_alike hrun hrun', ?_, fun length storage fault => ArrayEntry.ofParts_eq_error_iff⟩
  intro forum hforum
  rw [hforum] at hrun
  generalize run { machine := machine.blank } (turns.map Turn.blank) = seen at hrun
  cases hrun with
  | some hshadows => exact hshadows.shaped hforum

/-- The one machine has a reference to a missing object where the other has null. -/
theorem run_conceals_burying :
    ∃ forum forum' : Forum Unit,
      run { machine := shaded (some (.object 9)) } (burying (some (.object 9))) = some forum ∧
      run { machine := shaded none } (burying none) = some forum' ∧
      forum.Alike forum' ∧ forum.Shaped (shaded (some (.object 9))) ∧
      forum.exposed = (some #[none, some (.object 9)], 1) ∧
      forum'.exposed = (some #[none, none], 1) := by
  have hreplay : (run { machine := shaded (some (.object 9)) } (burying (some (.object 9)))).map
      exposed = some (some #[none, some (.object 9)], 1) := by decide +kernel
  have hreplay' : (run { machine := shaded none } (burying none)).map exposed =
      some (some #[none, none], 1) := by decide +kernel
  obtain ⟨forum, hrun, hexposed⟩ := Option.map_eq_some_iff.1 hreplay
  obtain ⟨forum', hrun', hexposed'⟩ := Option.map_eq_some_iff.1 hreplay'
  obtain ⟨halike, hshaped, -⟩ := run_conceals (alike_shaded (some (.object 9)) none)
    (alike_burying (some (.object 9)) none)
  rw [hrun, hrun'] at halike
  cases halike with
  | some halike =>
    exact ⟨forum, forum', hrun, hrun', halike, hshaped forum hrun, hexposed, hexposed'⟩

end Forum

end MarkSweep
