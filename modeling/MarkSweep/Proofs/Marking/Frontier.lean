import Mathlib.Logic.Function.Basic
import MarkSweep.Mark.Tracer
import MarkSweep.Proofs.Locking
import MarkSweep.Proofs.Reachability

namespace MarkSweep

/-- What a marker has before it. -/
structure Agenda where
  /-- Slots that it has still to visit. -/
  pending : List Slot := []
  /-- Entries that it has marked and not yet descended into. -/
  worklist : List Ref := []

namespace Agenda

/-- One step of a marker: its agenda and the marks before it, the entries that it descends into, and
its agenda and the marks after it. -/
inductive Step (heap : Heap) : Agenda → Marks → List Ref → Agenda → Marks → Prop
  /-- A null slot is passed over. -/
  | skip {later : List Slot} {worklist : List Ref} {marks : Marks} :
      Step heap ⟨none :: later, worklist⟩ marks [] ⟨later, worklist⟩ marks
  /-- An entry that was marked before is left to whoever marked it. -/
  | known {ref : Ref} {later : List Slot} {worklist : List Ref} {marks : Marks}
      (hknown : marks.contains ref = true) :
      Step heap ⟨some ref :: later, worklist⟩ marks [] ⟨later, worklist⟩ marks
  /-- An entry that was not marked is marked and listed. -/
  | fresh {ref : Ref} {later : List Slot} {worklist : List Ref} {marks : Marks}
      (hnew : marks.contains ref = false) :
      Step heap ⟨some ref :: later, worklist⟩ marks [] ⟨later, ref :: worklist⟩
        (marks.insert ref).2
  /-- A listed entry is opened and its slots are to be visited. -/
  | descend {ref : Ref} {cells later : List Slot} {worklist : List Ref} {marks : Marks}
      (hcells : heap.slotsOf? ref = some cells) :
      Step heap ⟨later, ref :: worklist⟩ marks [ref] ⟨cells ++ later, worklist⟩ marks

end Agenda

/-- A reference that is marked or that some marker has still to visit. -/
def Met (marks : Marks) (agendas : List Agenda) (ref : Ref) : Prop :=
  marks.contains ref = true ∨ ∃ agenda ∈ agendas, some ref ∈ agenda.pending

/-- Nothing is marked, to be visited or listed that the roots do not reach. -/
structure Frontier (heap : Heap) (roots : List Slot) (marks : Marks) (agendas : List Agenda) :
    Prop where
  marked : ∀ ref, marks.contains ref = true → heap.Reaches roots ref
  pending : ∀ agenda ∈ agendas, ∀ ref, some ref ∈ agenda.pending → heap.Reaches roots ref
  worklist : ∀ agenda ∈ agendas, ∀ ref ∈ agenda.worklist, heap.Reaches roots ref

/-- Whatever the roots reach is marked, or a path to it leads through an agenda: the roots are met,
and a marked entry is listed or all that its slots name is met. -/
structure Covers (heap : Heap) (roots : List Slot) (marks : Marks) (agendas : List Agenda) :
    Prop where
  root : ∀ ref, some ref ∈ roots → Met marks agendas ref
  child : ∀ ref, marks.contains ref = true →
    (∃ agenda ∈ agendas, ref ∈ agenda.worklist) ∨
      ∃ cells, heap.slotsOf? ref = some cells ∧ ∀ next, some next ∈ cells → Met marks agendas next

/-- Somebody has descended into the entry: it is in the heap, and all that it refers to is
marked. -/
def Heap.Opened (heap : Heap) (marks : Marks) (ref : Ref) : Prop :=
  ∃ cells, heap.slotsOf? ref = some cells ∧ ∀ next, some next ∈ cells → marks.contains next = true

/-- Somebody sees to what the entry refers to: it is listed, or all that its slots name is met. -/
def Tended (heap : Heap) (marks : Marks) (agendas : List Agenda) (ref : Ref) : Prop :=
  (∃ agenda ∈ agendas, ref ∈ agenda.worklist) ∨
    ∃ cells, heap.slotsOf? ref = some cells ∧ ∀ next, some next ∈ cells → Met marks agendas next

/-- Every marked entry is listed by one marker and waits there, or was opened, one time. -/
structure Once (marks : Marks) (agendas : List Agenda) (opened : List Ref) : Prop where
  nodup : (agendas.flatMap (·.worklist) ++ opened).Nodup
  mem_iff : ∀ ref, ref ∈ agendas.flatMap (·.worklist) ++ opened ↔ marks.contains ref = true

variable {heap : Heap} {roots : List Slot} {marks marks' : Marks} {agenda agenda' : Agenda}
  {agendas agendas' others : List Agenda} {opened opened' : List Ref} {ref : Ref}

/-- An entry is marked if it was marked before or is the one that is inserted. -/
theorem Marks.contains_insert_iff {other : Ref} :
    (marks.insert other).2.contains ref = true ↔ ref = other ∨ marks.contains ref = true := by
  rw [Marks.contains_insert, Bool.or_eq_true, decide_eq_true_iff, eq_comm]

/-- What is marked stays marked when another entry is. -/
theorem Marks.contains_insert_of_contains (hknown : marks.contains ref = true) (other : Ref) :
    (marks.insert other).2.contains ref = true :=
  Marks.contains_insert_iff.2 (.inr hknown)

theorem Marks.contains_insert_self (marks : Marks) (ref : Ref) :
    (marks.insert ref).2.contains ref = true :=
  Marks.contains_insert_iff.2 (.inl rfl)

/-- A mark that is new counts. -/
theorem Marks.size_insert (hnew : marks.contains ref = false) :
    (marks.insert ref).2.size = marks.size + 1 := by
  cases ref with
  | object offset =>
    have hset : marks.objects.contains offset = false := hnew
    simp only [size, insert, Std.ExtTreeSet.size_insert, hset]
    simp only [Bool.false_eq_true, if_false]
    omega
  | array offset =>
    have hset : marks.arrays.contains offset = false := hnew
    simp only [size, insert, Std.ExtTreeSet.size_insert, hset]
    simp only [Bool.false_eq_true, if_false]
    omega

/-- Two pairs of mark sets that mark the same are the same. -/
theorem Marks.ext_contains (hsame : ∀ ref, marks.contains ref = marks'.contains ref) :
    marks = marks' := by
  obtain ⟨objects, arrays⟩ := marks
  obtain ⟨objects', arrays'⟩ := marks'
  have hobjects : objects = objects' :=
    Std.ExtTreeSet.ext_contains fun offset => hsame (.object offset)
  have harrays : arrays = arrays' :=
    Std.ExtTreeSet.ext_contains fun offset => hsame (.array offset)
  rw [hobjects, harrays]

theorem Marks.contains_empty (ref : Ref) : ({} : Marks).contains ref = false := by
  cases ref <;> exact Std.ExtTreeSet.contains_empty

/-- Marking what is marked changes nothing. -/
theorem Marks.insert_of_contains (hknown : marks.contains ref = true) :
    (marks.insert ref).2 = marks := by
  refine ext_contains fun other => ?_
  rw [contains_insert]
  by_cases heq : ref = other
  · rw [← heq, hknown, Bool.or_true]
  · rw [decide_eq_false heq, Bool.false_or]

/-- No step takes a mark away. -/
theorem Agenda.Step.marks_mono (hstep : Agenda.Step heap agenda marks opened agenda' marks')
    (hmarked : marks.contains ref = true) : marks'.contains ref = true := by
  cases hstep with
  | skip | known _ | descend _ => exact hmarked
  | fresh _ => exact Marks.contains_insert_of_contains hmarked _

/-- A step marks nothing but what it lists. -/
theorem Agenda.Step.marks_eq (hstep : Agenda.Step heap agenda marks opened agenda' marks') :
    marks' = marks ∨ ∃ ref ∈ agenda'.worklist, marks' = (marks.insert ref).2 := by
  cases hstep with
  | skip | known _ | descend _ => exact .inl rfl
  | fresh _ => exact .inr ⟨_, List.mem_cons_self, rfl⟩

/-- What a marker had to visit is marked after a step or still to be visited. -/
theorem Agenda.Step.pending_met (hstep : Agenda.Step heap agenda marks opened agenda' marks')
    (hmem : some ref ∈ agenda.pending) :
    marks'.contains ref = true ∨ some ref ∈ agenda'.pending := by
  cases hstep with
  | skip =>
    obtain hnull | hlater := List.mem_cons.1 hmem
    · cases hnull
    · exact .inr hlater
  | known hknown =>
    obtain hhead | hlater := List.mem_cons.1 hmem
    · cases hhead
      exact .inl hknown
    · exact .inr hlater
  | fresh _ =>
    obtain hhead | hlater := List.mem_cons.1 hmem
    · cases hhead
      exact .inl (Marks.contains_insert_self _ _)
    · exact .inr hlater
  | descend _ => exact .inr (List.mem_append_right _ hmem)

/-- What is met before a step is met after it. -/
theorem Met.step (hstep : Agenda.Step heap agenda marks opened agenda' marks')
    (hmet : Met marks (agenda :: others) ref) : Met marks' (agenda' :: others) ref := by
  obtain hmarked | ⟨holder, hholder, hmem⟩ := hmet
  · exact .inl (hstep.marks_mono hmarked)
  · obtain rfl | hother := List.mem_cons.1 hholder
    · obtain hmarked | hmem := hstep.pending_met hmem
      · exact .inl hmarked
      · exact .inr ⟨agenda', List.mem_cons_self, hmem⟩
    · exact .inr ⟨holder, List.mem_cons_of_mem _ hother, hmem⟩

theorem Met.of_subset (hsub : agendas ⊆ agendas') (hmet : Met marks agendas ref) :
    Met marks agendas' ref := by
  obtain hmarked | ⟨holder, hholder, hmem⟩ := hmet
  · exact .inl hmarked
  · exact .inr ⟨holder, hsub hholder, hmem⟩

/-- What is met stays so when more is marked. -/
theorem Met.mono (hgrows : ∀ ref, marks.contains ref = true → marks'.contains ref = true)
    (hmet : Met marks agendas ref) : Met marks' agendas ref :=
  hmet.imp (hgrows ref) id

namespace Tended

theorem of_subset (hsub : agendas ⊆ agendas') (htended : Tended heap marks agendas ref) :
    Tended heap marks agendas' ref := by
  obtain ⟨holder, hholder, hlisted⟩ | ⟨cells, hcells, hmet⟩ := htended
  · exact .inl ⟨holder, hsub hholder, hlisted⟩
  · exact .inr ⟨cells, hcells, fun next hnext => (hmet next hnext).of_subset hsub⟩

theorem mono (hgrows : ∀ ref, marks.contains ref = true → marks'.contains ref = true)
    (htended : Tended heap marks agendas ref) : Tended heap marks' agendas ref :=
  htended.imp id fun ⟨cells, hcells, hmet⟩ =>
    ⟨cells, hcells, fun next hnext => (hmet next hnext).mono hgrows⟩

/-- An entry that is listed stays so until it is opened. -/
theorem step (hstep : Agenda.Step heap agenda marks opened agenda' marks')
    (htended : Tended heap marks (agenda :: others) ref) :
    Tended heap marks' (agenda' :: others) ref := by
  obtain ⟨holder, hholder, hlisted⟩ | ⟨cells, hcells, hmet⟩ := htended
  · obtain rfl | hother := List.mem_cons.1 hholder
    · cases hstep with
      | skip | known _ => exact .inl ⟨_, List.mem_cons_self, hlisted⟩
      | fresh _ => exact .inl ⟨_, List.mem_cons_self, List.mem_cons_of_mem _ hlisted⟩
      | descend hcells =>
        obtain rfl | hlater := List.mem_cons.1 hlisted
        · exact .inr ⟨_, hcells, fun next hnext =>
            .inr ⟨_, List.mem_cons_self, List.mem_append_left _ hnext⟩⟩
        · exact .inl ⟨_, List.mem_cons_self, hlater⟩
    · exact .inl ⟨holder, List.mem_cons_of_mem _ hother, hlisted⟩
  · exact .inr ⟨cells, hcells, fun next hnext => (hmet next hnext).step hstep⟩

/-- One of several holders takes a step. -/
theorem turn {holders : List Nat} {held : Nat → Agenda} {i : Nat}
    (hstep : Agenda.Step heap (held i) marks opened agenda' marks')
    (htended : Tended heap marks (holders.map held) ref) :
    Tended heap marks' ((i :: holders).map (Function.update held i agenda')) ref := by
  have hbefore : holders.map held ⊆ held i :: (holders.filter (· ≠ i)).map held := by
    intro holder hmem
    obtain ⟨j, hj, rfl⟩ := List.mem_map.1 hmem
    by_cases hji : j = i
    · rw [hji]
      exact List.mem_cons_self
    · exact List.mem_cons_of_mem _ (List.mem_map.2
        ⟨j, List.mem_filter.2 ⟨hj, decide_eq_true hji⟩, rfl⟩)
  refine ((htended.of_subset hbefore).step hstep).of_subset fun holder hmem => ?_
  obtain rfl | hmem := List.mem_cons.1 hmem
  · exact List.mem_map.2 ⟨i, List.mem_cons_self, Function.update_self i _ held⟩
  · obtain ⟨j, hj, rfl⟩ := List.mem_map.1 hmem
    obtain ⟨hj, hji⟩ := List.mem_filter.1 hj
    exact List.mem_map.2 ⟨j, List.mem_cons_of_mem _ hj,
      Function.update_of_ne (of_decide_eq_true hji) _ held⟩

end Tended

/-- When nothing is left on any agenda, whatever somebody sees to was opened. -/
theorem opened_of_tended (htended : Tended heap marks agendas ref)
    (hempty : ∀ agenda ∈ agendas, agenda.pending = [] ∧ agenda.worklist = []) :
    heap.Opened marks ref := by
  obtain ⟨holder, hholder, hlisted⟩ | ⟨cells, hcells, hmet⟩ := htended
  · rw [(hempty holder hholder).2] at hlisted
    cases hlisted
  · refine ⟨cells, hcells, fun next hnext => ?_⟩
    obtain hmarked | ⟨holder, hholder, hmem⟩ := hmet next hnext
    · exact hmarked
    · rw [(hempty holder hholder).1] at hmem
      cases hmem

namespace Frontier

theorem of_subset (hfrontier : Frontier heap roots marks agendas) (hsub : agendas' ⊆ agendas) :
    Frontier heap roots marks agendas' where
  marked := hfrontier.marked
  pending agenda hmem := hfrontier.pending agenda (hsub hmem)
  worklist agenda hmem := hfrontier.worklist agenda (hsub hmem)

/-- Whoever marks what the roots reach goes no further. -/
theorem insert (hfrontier : Frontier heap roots marks agendas) (hreach : heap.Reaches roots ref) :
    Frontier heap roots (marks.insert ref).2 agendas where
  marked other hmarked := by
    obtain rfl | hmarked := Marks.contains_insert_iff.1 hmarked
    · exact hreach
    · exact hfrontier.marked other hmarked
  pending := hfrontier.pending
  worklist := hfrontier.worklist

/-- A marker may join with slots that the roots reach. -/
theorem add {cells : List Slot} (hfrontier : Frontier heap roots marks agendas)
    (hcells : ∀ ref, some ref ∈ cells → heap.Reaches roots ref) :
    Frontier heap roots marks (⟨cells, []⟩ :: agendas) where
  marked := hfrontier.marked
  pending agenda hmem ref href := by
    obtain rfl | hmem := List.mem_cons.1 hmem
    · exact hcells ref href
    · exact hfrontier.pending agenda hmem ref href
  worklist agenda hmem ref href := by
    obtain rfl | hmem := List.mem_cons.1 hmem
    · cases href
    · exact hfrontier.worklist agenda hmem ref href

/-- A step marks and lists only what the roots reach. -/
theorem step (hfrontier : Frontier heap roots marks (agenda :: others))
    (hstep : Agenda.Step heap agenda marks opened agenda' marks') :
    Frontier heap roots marks' (agenda' :: others) := by
  have hpending := hfrontier.pending agenda List.mem_cons_self
  have hworklist := hfrontier.worklist agenda List.mem_cons_self
  have hmarked : ∀ ref, marks'.contains ref = true → heap.Reaches roots ref := by
    intro ref hmem
    cases hstep with
    | skip | known _ | descend _ => exact hfrontier.marked ref hmem
    | fresh _ =>
      obtain rfl | hmem := Marks.contains_insert_iff.1 hmem
      · exact hpending ref List.mem_cons_self
      · exact hfrontier.marked ref hmem
  have hpending' : ∀ ref, some ref ∈ agenda'.pending → heap.Reaches roots ref := by
    intro ref hmem
    cases hstep with
    | skip | known _ | fresh _ => exact hpending ref (List.mem_cons_of_mem _ hmem)
    | descend hcells =>
      obtain hcell | hlater := List.mem_append.1 hmem
      · exact .child (hworklist _ List.mem_cons_self) hcells hcell
      · exact hpending ref hlater
  have hworklist' : ∀ ref ∈ agenda'.worklist, heap.Reaches roots ref := by
    intro ref hmem
    cases hstep with
    | skip | known _ => exact hworklist ref hmem
    | fresh _ =>
      obtain rfl | hmem := List.mem_cons.1 hmem
      · exact hpending ref List.mem_cons_self
      · exact hworklist ref hmem
    | descend _ => exact hworklist ref (List.mem_cons_of_mem _ hmem)
  refine ⟨hmarked, ?_, ?_⟩
  · intro holder hholder
    obtain rfl | hother := List.mem_cons.1 hholder
    · exact hpending'
    · exact hfrontier.pending holder (List.mem_cons_of_mem _ hother)
  · intro holder hholder
    obtain rfl | hother := List.mem_cons.1 hholder
    · exact hworklist'
    · exact hfrontier.worklist holder (List.mem_cons_of_mem _ hother)

end Frontier

namespace Covers

theorem of_subset (hcovers : Covers heap roots marks agendas) (hsub : agendas ⊆ agendas') :
    Covers heap roots marks agendas' where
  root ref hmem := (hcovers.root ref hmem).of_subset hsub
  child ref hmarked := Tended.of_subset hsub (hcovers.child ref hmarked)

/-- What somebody has listed may be marked. -/
theorem insert (hcovers : Covers heap roots marks agendas) (hmem : agenda ∈ agendas)
    (hlisted : ref ∈ agenda.worklist) : Covers heap roots (marks.insert ref).2 agendas where
  root other hroot := (hcovers.root other hroot).mono fun _ hmarked =>
    Marks.contains_insert_of_contains hmarked ref
  child other hmarked := by
    obtain rfl | hmarked := Marks.contains_insert_iff.1 hmarked
    · exact .inl ⟨agenda, hmem, hlisted⟩
    · exact Tended.mono (fun _ hmarked => Marks.contains_insert_of_contains hmarked ref)
        (hcovers.child other hmarked)

/-- Markers may leave once their agendas are empty. -/
theorem drop (hcovers : Covers heap roots marks agendas)
    (hempty : ∀ agenda ∈ agendas, agenda ∈ agendas' ∨
      agenda.pending = [] ∧ agenda.worklist = []) :
    Covers heap roots marks agendas' := by
  have hmet : ∀ {ref}, Met marks agendas ref → Met marks agendas' ref := by
    rintro ref (hmarked | ⟨holder, hholder, hmem⟩)
    · exact .inl hmarked
    · obtain hstays | ⟨hpending, -⟩ := hempty holder hholder
      · exact .inr ⟨holder, hstays, hmem⟩
      · rw [hpending] at hmem
        cases hmem
  refine ⟨fun ref hmem => hmet (hcovers.root ref hmem), ?_⟩
  intro ref hmarked
  obtain ⟨holder, hholder, hlisted⟩ | ⟨cells, hcells, hnext⟩ := hcovers.child ref hmarked
  · obtain hstays | ⟨-, hworklist⟩ := hempty holder hholder
    · exact .inl ⟨holder, hstays, hlisted⟩
    · rw [hworklist] at hlisted
      cases hlisted
  · exact .inr ⟨cells, hcells, fun next hmem => hmet (hnext next hmem)⟩

/-- An agenda with nothing pending may be struck out. -/
theorem drop_cons (hcovers : Covers heap roots marks (agenda :: agendas))
    (hpending : agenda.pending = []) (hworklist : agenda.worklist = []) :
    Covers heap roots marks agendas := by
  refine hcovers.drop fun other hmem => ?_
  obtain rfl | hmem := List.mem_cons.1 hmem
  · exact .inr ⟨hpending, hworklist⟩
  · exact .inl hmem

/-- What is listed and was opened by others nobody has still to descend into. -/
theorem strike {listed : List Ref} (hcovers : Covers heap roots marks [⟨[], listed⟩])
    (hopened : ∀ ref ∈ listed, heap.Opened marks ref) : Covers heap roots marks [] := by
  have hmet : ∀ {ref}, Met marks [⟨[], listed⟩] ref → Met marks [] ref := by
    rintro ref (hmarked | ⟨agenda, hmem, hpending⟩)
    · exact .inl hmarked
    · rw [List.mem_singleton.1 hmem] at hpending
      cases hpending
  refine ⟨fun ref hmem => hmet (hcovers.root ref hmem), fun ref hmarked => .inr ?_⟩
  obtain ⟨agenda, hmem, hlisted⟩ | ⟨cells, hcells, hnext⟩ := hcovers.child ref hmarked
  · rw [List.mem_singleton.1 hmem] at hlisted
    obtain ⟨cells, hcells, hnext⟩ := hopened ref hlisted
    exact ⟨cells, hcells, fun next hmem => .inl (hnext next hmem)⟩
  · exact ⟨cells, hcells, fun next hmem => hmet (hnext next hmem)⟩

/-- A marker that joins takes care of the slots that it brings. -/
theorem add {cells : List Slot} (hcovers : Covers heap roots marks agendas) :
    Covers heap (roots ++ cells) marks (⟨cells, []⟩ :: agendas) where
  root ref hmem := by
    obtain hroot | hcell := List.mem_append.1 hmem
    · exact (hcovers.root ref hroot).of_subset (List.subset_cons_self _ _)
    · exact .inr ⟨_, List.mem_cons_self, hcell⟩
  child := (hcovers.of_subset (List.subset_cons_self _ _)).child

/-- A step loses nothing out of sight. -/
theorem step (hcovers : Covers heap roots marks (agenda :: others))
    (hstep : Agenda.Step heap agenda marks opened agenda' marks') :
    Covers heap roots marks' (agenda' :: others) := by
  refine ⟨fun ref hmem => (hcovers.root ref hmem).step hstep, ?_⟩
  -- An entry that was marked before the step keeps its reason.
  have hold : ∀ ref, marks.contains ref = true → Tended heap marks' (agenda' :: others) ref :=
    fun ref hmarked => Tended.step hstep (hcovers.child ref hmarked)
  intro ref hmarked
  cases hstep with
  | skip | known _ | descend _ => exact hold ref hmarked
  | fresh _ =>
    obtain rfl | hmarked := Marks.contains_insert_iff.1 hmarked
    · exact .inl ⟨_, List.mem_cons_self, List.mem_cons_self⟩
    · exact hold ref hmarked

end Covers

namespace Once

/-- The order of the agendas does not matter. -/
theorem of_perm (honce : Once marks agendas opened) (hperm : agendas.Perm agendas') :
    Once marks agendas' opened := by
  have hlists : (agendas.flatMap (·.worklist) ++ opened).Perm
      (agendas'.flatMap (·.worklist) ++ opened) := (hperm.flatMap_right _).append_right opened
  refine ⟨hlists.nodup honce.nodup, ?_⟩
  intro ref
  rw [← hlists.mem_iff]
  exact honce.mem_iff ref

/-- A step lists only what nobody has listed or opened, and opens only what it takes off a list. -/
theorem step (honce : Once marks (agenda :: others) opened)
    (hstep : Agenda.Step heap agenda marks opened' agenda' marks') :
    Once marks' (agenda' :: others) (opened ++ opened') := by
  obtain ⟨hnodup, hmem⟩ := honce
  cases hstep with
  | skip | known _ =>
    rw [List.append_nil]
    exact ⟨hnodup, hmem⟩
  | @fresh ref later worklist marks hnew =>
    rw [List.append_nil]
    simp only [List.flatMap_cons, List.append_assoc] at hnodup hmem
    refine ⟨?_, ?_⟩
    · simp only [List.flatMap_cons, List.cons_append, List.append_assoc]
      refine List.nodup_cons.2 ⟨?_, hnodup⟩
      intro hlisted
      rw [hmem, hnew] at hlisted
      cases hlisted
    · intro other
      simp only [List.flatMap_cons, List.cons_append, List.append_assoc]
      rw [List.mem_cons, hmem, Marks.contains_insert_iff]
  | @descend ref cells later worklist marks _ =>
    have hperm : ((⟨later, ref :: worklist⟩ :: others : List Agenda).flatMap (·.worklist)
        ++ opened).Perm ((⟨cells ++ later, worklist⟩ :: others : List Agenda).flatMap (·.worklist)
        ++ (opened ++ [ref])) := by
      simp only [List.flatMap_cons, List.cons_append, ← List.append_assoc]
      exact @List.perm_append_comm _ [ref] _
    refine ⟨hperm.nodup hnodup, ?_⟩
    intro other
    rw [← hperm.mem_iff]
    exact hmem other

end Once

/-- Once all agendas are empty, everything reached is marked and exists. -/
theorem Covers.marked_of_reaches (hcovers : Covers heap roots marks [])
    (hreach : heap.Reaches roots ref) :
    marks.contains ref = true ∧ heap.contains ref = true := by
  have hmet : ∀ {ref}, Met marks [] ref → marks.contains ref = true := by
    rintro ref (hmarked | ⟨holder, hholder, -⟩)
    · exact hmarked
    · cases hholder
  have hopened : ∀ {ref}, marks.contains ref = true → ∃ cells, heap.slotsOf? ref = some cells ∧
      ∀ next, some next ∈ cells → marks.contains next = true := by
    intro ref hmarked
    obtain ⟨holder, hholder, -⟩ | ⟨cells, hcells, hnext⟩ := hcovers.child ref hmarked
    · cases hholder
    · exact ⟨cells, hcells, fun next hmem => hmet (hnext next hmem)⟩
  have hmarked : marks.contains ref = true := by
    refine hreach.of_closed (P := fun ref => marks.contains ref = true) ?_ ?_
    · intro ref hmem
      exact hmet (hcovers.root ref hmem)
    · intro ref cells hmarked hcells next hmem
      obtain ⟨cells', hcells', hnext⟩ := hopened hmarked
      rw [hcells] at hcells'
      cases hcells'
      exact hnext next hmem
  obtain ⟨cells, hcells, -⟩ := hopened hmarked
  exact ⟨hmarked, Heap.contains_of_slotsOf? hcells⟩

namespace Tracer

variable {thread : Thread} {tracer tracer' : Tracer} {fault : Fault}

/-- What a tracer has before it, with slots that it will be given later. -/
def toAgenda (tracer : Tracer) (later : List Slot) : Agenda :=
  ⟨tracer.pending ++ later, tracer.worklist⟩

/-- The entry that the next step of a tracer reads, if it reads one. -/
def reads : Tracer → Option Ref
  | ⟨[], ref :: _, _⟩ => some ref
  | _ => none

theorem toAgenda_start (cells later : List Slot) :
    (start cells).toAgenda later = ⟨cells ++ later, []⟩ := rfl

/-- A step of a tracer that nothing stops is a step on its agenda. It counts the mark that it
makes. -/
theorem toAgenda_step (hstep : tracer.step thread heap marks = some (.ok (tracer', marks')))
    (later : List Slot) :
    Agenda.Step heap (tracer.toAgenda later) marks tracer.reads.toList (tracer'.toAgenda later)
      marks' ∧
      marks'.size + tracer.marked = marks.size + tracer'.marked := by
  obtain ⟨pending, worklist, marked⟩ := tracer
  obtain _ | ⟨_ | ref, rest⟩ := pending
  · obtain _ | ⟨ref, rest⟩ := worklist
    · cases hstep
    · simp only [step] at hstep
      split at hstep
      · cases hstep
      · split at hstep
        · next cells hcells =>
          cases hstep
          exact ⟨.descend hcells, rfl⟩
        · cases hstep
  · cases hstep
    exact ⟨.skip, rfl⟩
  · simp only [step] at hstep
    split at hstep
    · cases hstep
    · split at hstep
      · next hinsert =>
        cases hstep
        have hnew : marks.contains ref = false := by
          simpa using congrArg Prod.fst hinsert
        have hmarks : marks' = (marks.insert ref).2 := by rw [hinsert]
        subst hmarks
        have hsize := Marks.size_insert hnew
        refine ⟨.fresh hnew, ?_⟩
        simp only
        omega
      · next hinsert =>
        cases hstep
        have hknown : marks.contains ref = true := by
          simpa using congrArg Prod.fst hinsert
        have hmarks : marks' = (marks.insert ref).2 := by rw [hinsert]
        rw [Marks.insert_of_contains hknown] at hmarks
        subst hmarks
        exact ⟨.known hknown, rfl⟩

/-- A tracer on a thread that may read the heap is stopped only by a missing entry of its
worklist. -/
theorem exists_missing_of_step (hrank : thread.held.rank ≤ Level.heap.rank)
    (hstep : tracer.step thread heap marks = some (.error fault)) :
    ∃ ref ∈ tracer.worklist, heap.contains ref = false ∧ fault = .missingEntry ref := by
  have hmarks : thread.held.rank ≤ Level.marks.rank := Nat.le_succ_of_le hrank
  obtain ⟨pending, worklist, marked⟩ := tracer
  obtain _ | ⟨_ | ref, rest⟩ := pending
  · obtain _ | ⟨ref, rest⟩ := worklist
    · cases hstep
    · simp only [step, Thread.checkEnter_of_rank_le hrank] at hstep
      split at hstep
      · cases hstep
      · next hcells =>
        cases hstep
        refine ⟨ref, List.mem_cons_self, ?_, rfl⟩
        rw [← Heap.slotsOf?_isSome, hcells, Option.isSome_none]
  · cases hstep
  · simp only [step, Thread.checkEnter_of_rank_le hmarks] at hstep
    split at hstep <;> cases hstep

/-- A tracer that has no step left has nothing before it. -/
theorem toAgenda_of_step_eq_none (hstep : tracer.step thread heap marks = none) :
    tracer.pending = [] ∧ tracer.worklist = [] ∧ tracer.reads = none := by
  obtain ⟨pending, worklist, marked⟩ := tracer
  obtain _ | ⟨_ | ref, rest⟩ := pending
  · obtain _ | ⟨ref, rest⟩ := worklist
    · exact ⟨rfl, rfl, rfl⟩
    · simp only [step] at hstep
      repeat' split at hstep
      all_goals cases hstep
  · cases hstep
  · simp only [step] at hstep
    repeat' split at hstep
    all_goals cases hstep

end Tracer

end MarkSweep
