import MarkSweep.Proofs.Marking.Frontier

namespace MarkSweep

/-- The entries at the ends of the paths of references that begin in a slot of `roots` and meet no
entry that `avoided` marks, the one at the end included. -/
inductive Heap.ReachesPast (heap : Heap) (avoided : Marks) (roots : List Slot) : Ref → Prop
  /-- A root reaches the entry that it names. -/
  | root {ref : Ref} (hmem : some ref ∈ roots) (hnew : avoided.contains ref = false) :
      ReachesPast heap avoided roots ref
  /-- An entry that is reached passes it on to the entries that its slots name. -/
  | child {ref next : Ref} {cells : List Slot} (hreach : ReachesPast heap avoided roots ref)
      (hcells : heap.slotsOf? ref = some cells) (hmem : some next ∈ cells)
      (hnew : avoided.contains next = false) : ReachesPast heap avoided roots next

/-- Marks that hold all that their existing entries refer to. -/
def Marks.ClosedIn (marks : Marks) (heap : Heap) : Prop :=
  ∀ ref cells, marks.contains ref = true → heap.slotsOf? ref = some cells →
    ∀ next, some next ∈ cells → marks.contains next = true

variable {heap : Heap} {avoided marks marks' : Marks} {roots : List Slot} {agenda agenda' : Agenda}
  {added opened : List Ref} {ref : Ref}

namespace Heap.ReachesPast

/-- What is reached past something is reached. -/
theorem reaches (hreach : heap.ReachesPast avoided roots ref) : heap.Reaches roots ref := by
  induction hreach with
  | root hmem _ => exact .root hmem
  | child _ hcells hmem _ ih => exact .child ih hcells hmem

/-- What is reached is avoided or reached past what is avoided, if the avoided entries lead only to
one another. -/
theorem of_reaches (hclosed : avoided.ClosedIn heap) (hreach : heap.Reaches roots ref) :
    avoided.contains ref = true ∨ heap.ReachesPast avoided roots ref := by
  refine hreach.of_closed (P := fun ref => avoided.contains ref = true ∨
    heap.ReachesPast avoided roots ref) ?_ ?_
  · intro ref hmem
    cases hnew : avoided.contains ref with
    | true => exact .inl rfl
    | false => exact .inr (.root hmem hnew)
  · rintro ref cells (hold | hpast) hcells next hmem
    · exact .inl (hclosed ref cells hold hcells next hmem)
    · cases hnew : avoided.contains next with
      | true => exact .inl rfl
      | false => exact .inr (.child hpast hcells hmem hnew)

/-- Nothing is hidden behind marks that hold all that they lead to. -/
theorem avoided_or_iff (hclosed : avoided.ClosedIn heap) :
    avoided.contains ref = true ∨ heap.ReachesPast avoided roots ref ↔
      avoided.contains ref = true ∨ heap.Reaches roots ref := by
  constructor
  · rintro (hold | hpast)
    · exact .inl hold
    · exact .inr hpast.reaches
  · rintro (hold | hreach)
    · exact .inl hold
    · exact of_reaches hclosed hreach

end Heap.ReachesPast

/-- How far a marker that began in `roots` has come that found `avoided` marked: it marked `added`
for the first time. -/
structure Walk (heap : Heap) (avoided : Marks) (roots : List Slot) (agenda : Agenda)
    (marks : Marks) (added : List Ref) : Prop where
  nodup : added.Nodup
  size : marks.size = avoided.size + added.length
  marked_iff : ∀ ref, marks.contains ref = true ↔ avoided.contains ref = true ∨ ref ∈ added
  past : ∀ ref ∈ added, heap.ReachesPast avoided roots ref
  pending : ∀ ref, some ref ∈ agenda.pending → avoided.contains ref = true ∨
    heap.ReachesPast avoided roots ref
  worklist : ∀ ref ∈ agenda.worklist, ref ∈ added
  root : ∀ ref, some ref ∈ roots → marks.contains ref = true ∨ some ref ∈ agenda.pending
  /-- An entry that was marked here is listed, or its slots were taken over. -/
  child : ∀ ref ∈ added, ref ∈ agenda.worklist ∨ ∃ cells, heap.slotsOf? ref = some cells ∧
    ∀ next, some next ∈ cells → marks.contains next = true ∨ some next ∈ agenda.pending

namespace Walk

/-- A marker begins with all its slots before it. -/
theorem start (heap : Heap) (avoided : Marks) (roots : List Slot) :
    Walk heap avoided roots ⟨roots, []⟩ avoided [] where
  nodup := List.nodup_nil
  size := by simp
  marked_iff := by simp
  past := by simp
  pending ref hmem := by
    cases hnew : avoided.contains ref with
    | true => exact .inl rfl
    | false => exact .inr (.root hmem hnew)
  worklist := by simp
  root ref hmem := .inr hmem
  child := by simp

variable (hwalk : Walk heap avoided roots agenda marks added)
include hwalk

/-- What is unmarked was not added. -/
theorem not_mem_added (hmarked : marks.contains ref = false) : ref ∉ added := by
  intro hmem
  have hcontains := (hwalk.marked_iff ref).2 (.inr hmem)
  rw [hmarked] at hcontains
  cases hcontains

/-- A slot that comes first and names a reference that is not marked leads past what is avoided. -/
theorem past_of_pending (hmem : some ref ∈ agenda.pending)
    (hnew : marks.contains ref = false) : heap.ReachesPast avoided roots ref := by
  obtain hold | hpast := hwalk.pending ref hmem
  · have hcontains := (hwalk.marked_iff ref).2 (.inl hold)
    rw [hnew] at hcontains
    cases hcontains
  · exact hpast

/-- A step that marks nothing and opens nothing leaves the walk where it is. -/
private theorem pass (hpending : agenda'.pending ⊆ agenda.pending)
    (hworklist : agenda'.worklist = agenda.worklist)
    (hmet : ∀ ref, some ref ∈ agenda.pending → marks.contains ref = true ∨
      some ref ∈ agenda'.pending) : Walk heap avoided roots agenda' marks added where
  nodup := hwalk.nodup
  size := hwalk.size
  marked_iff := hwalk.marked_iff
  past := hwalk.past
  pending ref hmem := hwalk.pending ref (hpending hmem)
  worklist := by
    rw [hworklist]
    exact hwalk.worklist
  root ref hmem := (hwalk.root ref hmem).elim .inl (hmet ref)
  child ref hmem := by
    rw [hworklist]
    obtain hlisted | ⟨cells, hcells, hnext⟩ := hwalk.child ref hmem
    · exact .inl hlisted
    · exact .inr ⟨cells, hcells, fun next hcell => (hnext next hcell).elim .inl (hmet next)⟩

omit hwalk

/-- An entry is marked for the first time and listed. -/
private theorem mark {later : List Slot} {worklist : List Ref}
    (hwalk : Walk heap avoided roots ⟨some ref :: later, worklist⟩ marks added)
    (hnew : marks.contains ref = false) :
    Walk heap avoided roots ⟨later, ref :: worklist⟩ (marks.insert ref).2 (ref :: added) := by
  have hmet : ∀ other, marks.contains other = true ∨ some other ∈ some ref :: later →
      (marks.insert ref).2.contains other = true ∨ some other ∈ later := by
    intro other hbefore
    rw [Marks.contains_insert_iff]
    obtain hmarked | hmem := hbefore
    · exact .inl (.inr hmarked)
    · obtain hhead | hlater := List.mem_cons.1 hmem
      · cases hhead
        exact .inl (.inl rfl)
      · exact .inr hlater
  constructor
  case nodup => exact List.nodup_cons.2 ⟨hwalk.not_mem_added hnew, hwalk.nodup⟩
  case size =>
    have hsize := Marks.size_insert hnew
    have hbefore := hwalk.size
    rw [List.length_cons]
    omega
  case marked_iff =>
    intro other
    rw [Marks.contains_insert_iff, hwalk.marked_iff, List.mem_cons, or_left_comm]
  case past =>
    exact List.forall_mem_cons.2 ⟨hwalk.past_of_pending List.mem_cons_self hnew, hwalk.past⟩
  case pending => exact fun other hmem => hwalk.pending other (List.mem_cons_of_mem _ hmem)
  case worklist =>
    exact List.forall_mem_cons.2 ⟨List.mem_cons_self, fun other hmem =>
      List.mem_cons_of_mem _ (hwalk.worklist other hmem)⟩
  case root => exact fun other hmem => hmet other (hwalk.root other hmem)
  case child =>
    refine List.forall_mem_cons.2 ⟨.inl List.mem_cons_self, fun other hmem => ?_⟩
    obtain hlisted | ⟨cells, hcells, hnext⟩ := hwalk.child other hmem
    · exact .inl (List.mem_cons_of_mem _ hlisted)
    · exact .inr ⟨cells, hcells, fun next hcell => hmet next (hnext next hcell)⟩

/-- The slots of a listed entry are taken over. -/
private theorem descend {cells later : List Slot} {worklist : List Ref}
    (hwalk : Walk heap avoided roots ⟨later, ref :: worklist⟩ marks added)
    (hcells : heap.slotsOf? ref = some cells) :
    Walk heap avoided roots ⟨cells ++ later, worklist⟩ marks added where
  nodup := hwalk.nodup
  size := hwalk.size
  marked_iff := hwalk.marked_iff
  past := hwalk.past
  pending other hmem := by
    obtain hcell | hlater := List.mem_append.1 hmem
    · have hpast := hwalk.past ref (hwalk.worklist ref List.mem_cons_self)
      cases hnew : avoided.contains other with
      | true => exact .inl rfl
      | false => exact .inr (.child hpast hcells hcell hnew)
    · exact hwalk.pending other hlater
  worklist other hmem := hwalk.worklist other (List.mem_cons_of_mem _ hmem)
  root other hmem := (hwalk.root other hmem).imp_right (List.mem_append_right cells)
  child other hmem := by
    obtain hlisted | ⟨cells', hcells', hnext⟩ := hwalk.child other hmem
    · obtain rfl | hlisted := List.mem_cons.1 hlisted
      · exact .inr ⟨cells, hcells, fun next hcell => .inr (List.mem_append_left _ hcell)⟩
      · exact .inl hlisted
    · exact .inr ⟨cells', hcells', fun next hcell =>
        (hnext next hcell).imp_right (List.mem_append_right cells)⟩

include hwalk

/-- A step keeps the walk; it adds what it marks for the first time. -/
theorem step (hstep : Agenda.Step heap agenda marks opened agenda' marks') :
    ∃ added', Walk heap avoided roots agenda' marks' added' := by
  cases hstep with
  | skip =>
    refine ⟨added, hwalk.pass (List.subset_cons_self _ _) rfl fun ref hmem => ?_⟩
    exact .inr (by simpa using hmem)
  | @known ref later worklist _ hknown =>
    refine ⟨added, hwalk.pass (List.subset_cons_self _ _) rfl fun other hmem => ?_⟩
    obtain hhead | hlater := List.mem_cons.1 hmem
    · cases hhead
      exact .inl hknown
    · exact .inr hlater
  | fresh hnew => exact ⟨_, hwalk.mark hnew⟩
  | descend hcells => exact ⟨added, hwalk.descend hcells⟩

/-- Every mark is an old one or lies on a path past the old ones. -/
theorem past_of_contains (hmarked : marks.contains ref = true) :
    avoided.contains ref = true ∨ heap.ReachesPast avoided roots ref :=
  ((hwalk.marked_iff ref).1 hmarked).imp_right (hwalk.past ref)

/-- A marker that has nothing before it has marked all that is reached past what was marked, and
each of these entries exists. -/
theorem mem_added_of_done (hpending : agenda.pending = []) (hworklist : agenda.worklist = [])
    (hreach : heap.ReachesPast avoided roots ref) :
    ref ∈ added ∧ heap.contains ref = true := by
  have hadded : ∀ {ref}, avoided.contains ref = false →
      marks.contains ref = true ∨ some ref ∈ agenda.pending → ref ∈ added := by
    intro ref hnew hmet
    rw [hpending, hwalk.marked_iff, hnew] at hmet
    simpa using hmet
  have hopened : ∀ ref ∈ added, ∃ cells, heap.slotsOf? ref = some cells ∧
      ∀ next, some next ∈ cells → marks.contains next = true ∨ some next ∈ agenda.pending := by
    intro ref hmem
    have hchild := hwalk.child ref hmem
    rw [hworklist] at hchild
    exact hchild.resolve_left List.not_mem_nil
  have hmem : ref ∈ added := by
    induction hreach with
    | root hmem hnew => exact hadded hnew (hwalk.root _ hmem)
    | child _ hcells hcell hnew ih =>
      obtain ⟨cells, hcells', hnext⟩ := hopened _ ih
      rw [hcells] at hcells'
      cases hcells'
      exact hadded hnew (hnext _ hcell)
  obtain ⟨cells, hcells, -⟩ := hopened ref hmem
  exact ⟨hmem, Heap.contains_of_slotsOf? hcells⟩

end Walk

end MarkSweep
