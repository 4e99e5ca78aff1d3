import MarkSweep.Lock.Spin
import MarkSweep.Mark.MarkSet
import MarkSweep.Proofs.Lock.Races
import Mathlib.Data.List.Nodup
import Mathlib.Data.List.Perm.Subperm
import Mathlib.Data.List.ProdSigma

namespace MarkSweep

open Race

section Adding

variable {threads times : Nat} {log : List (Passage Nat)}

/-- Threads that all do the same have the same section in every place. -/
theorem section_replicate_iff {σ α : Type} {current current' : CriticalSection σ α}
    {i place : Nat} :
    (List.replicate threads (List.replicate times current))[i]?.bind (·[place]?) = some current' ↔
      (i < threads ∧ place < times) ∧ current = current' := by
  simp only [List.getElem?_replicate, Option.bind_eq_some_iff, Option.ite_none_right_eq_some,
    Option.some.injEq]
  constructor
  · rintro ⟨_, ⟨hi, rfl⟩, hplace⟩
    rw [List.getElem?_replicate, Option.ite_none_right_eq_some, Option.some.injEq] at hplace
    exact ⟨⟨hi, hplace.1⟩, hplace.2⟩
  · rintro ⟨⟨hi, hplace⟩, rfl⟩
    exact ⟨_, ⟨hi, rfl⟩, List.getElem?_replicate_of_lt hplace⟩

/-- Critical sections that each add 1 add as much as there are of them. -/
theorem serial_adding {initial value : Nat}
    (h : Serial (.replicate threads (.replicate times (SpinLock.adding 1))) initial log value)
    (hfits : initial + log.length < UInt64.size) :
    value = initial + log.length ∧ ∀ passage ∈ log, ∃ sum, passage.result = .ok sum := by
  induction h with
  | nil => exact ⟨rfl, nofun⟩
  | @snoc log value value' passage current _ hsection hreturns ih =>
    rw [List.length_append, List.length_singleton] at hfits ⊢
    obtain ⟨rfl, hresults⟩ := ih (by omega)
    obtain ⟨-, rfl⟩ := section_replicate_iff.1 hsection
    have hsum : addCounts (initial + log.length) 1 = .ok (initial + log.length + 1) :=
      if_pos (by omega)
    have hend := Routine.returns_ofUpdate_iff.1 hreturns
    rw [hsum] at hend
    refine ⟨hend.2, ?_⟩
    intro other hmem
    obtain hmem | hmem := List.mem_append.1 hmem
    · exact hresults other hmem
    · rw [List.mem_singleton.1 hmem]
      exact ⟨_, hend.1⟩

/-- Of `threads` programs of `times` critical sections each, a journal tells no more than there
are. -/
theorem length_le {σ α : Type} {current : CriticalSection σ α} {initial value : σ}
    {log : List (Passage α)}
    (h : Serial (.replicate threads (.replicate times current)) initial log value)
    (hnodup : (log.map fun passage => (passage.racer, passage.place)).Nodup) :
    log.length ≤ threads * times := by
  have hsub : (log.map fun passage => (passage.racer, passage.place)) ⊆
      List.range threads ×ˢ List.range times := by
    intro key hkey
    obtain ⟨passage, hmem, rfl⟩ := List.mem_map.1 hkey
    obtain ⟨current', hsection⟩ := h.exists_section hmem
    obtain ⟨⟨hracer, hplace⟩, -⟩ := section_replicate_iff.1 hsection
    exact List.pair_mem_product.2 ⟨List.mem_range.2 hracer, List.mem_range.2 hplace⟩
  have hle := (hnodup.subperm hsub).length_le
  rwa [List.length_map, List.length_product, List.length_range, List.length_range] at hle

/-- When every thread has come to its end, the journal tells of all of them. -/
theorem le_length {log : List (Passage Nat)}
    (hall : ∀ i place, i < threads → place < times →
      ∃ passage ∈ log, passage.racer = i ∧ passage.place = place) :
    threads * times ≤ log.length := by
  have hsub : List.range threads ×ˢ List.range times ⊆
      log.map fun passage => (passage.racer, passage.place) := by
    rintro ⟨i, place⟩ hkey
    obtain ⟨hracer, hplace⟩ := List.pair_mem_product.1 hkey
    obtain ⟨passage, hmem, rfl, rfl⟩ :=
      hall i place (List.mem_range.1 hracer) (List.mem_range.1 hplace)
    exact List.mem_map_of_mem hmem
  have hnodup : (List.range threads ×ˢ List.range times).Nodup :=
    List.nodup_range.product List.nodup_range
  have hle := (hnodup.subperm hsub).length_le
  rwa [List.length_map, List.length_product, List.length_range, List.length_range] at hle

variable {lock : SpinLock} {race : Race Nat Nat}

/-- A race for a free lock is one that starts from its value. -/
theorem toRace_eq (hfree : lock.locked = false) : lock.toRace threads times =
    start lock.value (.replicate threads (.replicate times (SpinLock.adding 1))) := by
  rw [SpinLock.toRace, hfree]
  rfl

/-- Threads that add 1 under the lock add without a fault and without a loss. -/
theorem adding_race (hfree : lock.locked = false)
    (hfits : lock.value + threads * times < UInt64.size)
    (hrun : Runs (lock.toRace threads times) race) :
    (∃ race', Runs race race' ∧ race'.Finished) ∧
      (∀ i place answer, race.answer? i place = some answer → ∃ sum, answer = some (.ok sum)) ∧
      (race.Finished → race.locked = false ∧ race.value = lock.value + threads * times) := by
  rw [toRace_eq hfree] at hrun
  obtain ⟨hexclusive, log, hjournal⟩ := hrun.journal
  have hadding : ∀ program ∈ List.replicate threads (List.replicate times (SpinLock.adding 1)),
      ∀ current ∈ program, current = SpinLock.adding 1 := by
    intro program hprogram current hcurrent
    rw [List.eq_of_mem_replicate hprogram] at hcurrent
    exact List.eq_of_mem_replicate hcurrent
  have hunhindered : race.Unhindered := by
    refine (unhindered_start ?_).runs hrun
    intro program hprogram current hcurrent
    rw [hadding program hprogram current hcurrent]
    exact Routine.prompt_ofUpdate _
  have hwaits : ∀ program ∈ List.replicate threads (List.replicate times (SpinLock.adding 1)),
      ∀ current ∈ program, current.waits = true := by
    intro program hprogram current hcurrent
    rw [hadding program hprogram current hcurrent]
    rfl
  have hresults : ∀ passage ∈ log, ∃ sum, passage.result = .ok sum := by
    obtain ⟨value, hserial⟩ := hjournal.exists_serial hexclusive
    have hle := length_le hserial hjournal.nodup
    exact (serial_adding hserial (by omega)).2
  have hanswers : ∀ i place answer, race.answer? i place = some answer →
      ∃ sum, answer = some (.ok sum) := by
    intro i place answer hanswer
    obtain ⟨passage, hmem, -, -, rfl⟩ := hjournal.answer_eq hwaits hanswer
    obtain ⟨sum, hsum⟩ := hresults passage hmem
    exact ⟨sum, congrArg some hsum⟩
  refine ⟨exists_finish hexclusive hunhindered, hanswers, fun hfinished => ?_⟩
  have hlocked := hfinished.locked_eq hexclusive hunhindered
  have hserial := hjournal.free hlocked
  have hle := length_le hserial hjournal.nodup
  have hfault : ∀ i place fault, race.answer? i place ≠ some (some (.error fault)) := by
    intro i place fault hfault
    obtain ⟨sum, hsum⟩ := hanswers i place _ hfault
    cases hsum
  have hge : threads * times ≤ log.length := by
    refine le_length fun i place hi hplace => ?_
    obtain ⟨answer, hanswer⟩ := hjournal.exists_answer hfinished hfault
      (section_replicate_iff.2 ⟨⟨hi, hplace⟩, rfl⟩)
    obtain ⟨passage, hmem, hracer, hplace, -⟩ := hjournal.answer_eq hwaits hanswer
    exact ⟨passage, hmem, hracer, hplace⟩
  refine ⟨hlocked, ?_⟩
  rw [(serial_adding hserial (by omega)).1]
  omega

end Adding

section Uninterrupted

variable {σ α : Type}

/-- Behind threads that have come to their end the next thread goes on. -/
theorem Race.firstStep?_eq {ended others : List (Racer σ α)} {racer racer' : Racer σ α}
    {locked locked' : Bool} {value value' : σ} (hended : ∀ racer ∈ ended, racer.sections = [])
    (hstep : racer.step 0 locked value = some (racer', locked', value')) :
    firstStep? ⟨locked, value, ended ++ racer :: others⟩ =
      some ⟨locked', value', ended ++ racer' :: others⟩ := by
  refine List.findSome?_eq_some_iff.2 ⟨List.range ended.length, ended.length,
    (List.range others.length).map (ended.length + 1 + ·), ?_, ?_, ?_⟩
  · rw [List.length_append, List.length_cons, show ended.length + (others.length + 1) =
      ended.length + 1 + others.length by omega, List.range_add, List.range_succ,
      List.append_assoc, List.singleton_append]
  · rw [Race.step, List.getElem?_append_right (Nat.le_refl _), Nat.sub_self]
    simp [hstep]
  · intro j hj
    have hlt := List.mem_range.1 hj
    rw [Race.step, List.getElem?_append_left hlt, List.getElem?_eq_getElem hlt, Option.bind_some]
    rw [Racer.step, hended _ (List.getElem_mem hlt)]
    rfl

/-- The four steps of a critical section that adds 1. -/
theorem run_adding_section {ended others : List (Racer Nat Nat)}
    {rest : List (CriticalSection Nat Nat)} {answers : List (Option (Except Fault Nat))}
    {value : Nat} (hended : ∀ racer ∈ ended, racer.sections = [])
    (hfits : value + 1 < UInt64.size) (fuel : Nat) :
    run (fuel + 4)
        ⟨false, value, ended ++ ⟨SpinLock.adding 1 :: rest, .trying, answers⟩ :: others⟩ =
      run fuel ⟨false, value + 1,
        ended ++ ⟨rest, .trying, answers ++ [some (.ok (value + 1))]⟩ :: others⟩ := by
  have hsum : addCounts value 1 = .ok (value + 1) := if_pos hfits
  have hread : Racer.step 0 ⟨SpinLock.adding 1 :: rest, .holding (SpinLock.adding 1).body, answers⟩
      true value = some (⟨SpinLock.adding 1 :: rest,
        .holding (.atomic fun _ => (.ok (value + 1), value + 1)), answers⟩, true, value) := by
    simp only [SpinLock.adding, Routine.ofUpdate, bind, Routine.bind, Routine.atomic, Racer.step,
      Option.map_some, hsum, Except.map]
  rw [run, firstStep?_eq hended rfl]
  dsimp only
  rw [run, firstStep?_eq hended hread]
  dsimp only
  rw [run, firstStep?_eq hended rfl]
  dsimp only
  rw [run, firstStep?_eq hended rfl]
  rfl

/-- A thread that is not interrupted adds as often as it has to. -/
theorem run_adding_thread {ended : List (Racer Nat Nat)}
    (hended : ∀ racer ∈ ended, racer.sections = []) (others : List (Racer Nat Nat))
    (answers : List (Option (Except Fault Nat))) (times fuel : Nat) {value : Nat}
    (hfits : value + times < UInt64.size) :
    ∃ answers', run (4 * times + fuel) ⟨false, value,
        ended ++ ⟨.replicate times (SpinLock.adding 1), .trying, answers⟩ :: others⟩ =
      run fuel ⟨false, value + times, ended ++ ⟨[], .trying, answers'⟩ :: others⟩ := by
  induction times generalizing value answers with
  | zero =>
    refine ⟨answers, ?_⟩
    rw [Nat.mul_zero, Nat.zero_add]
    rfl
  | succ times ih =>
    have hfits' : value + 1 + times < UInt64.size := by omega
    obtain ⟨answers', hrest⟩ := ih (answers ++ [some (.ok (value + 1))]) hfits'
    refine ⟨answers', ?_⟩
    rw [show 4 * (times + 1) + fuel = 4 * times + fuel + 4 by omega, List.replicate_succ,
      run_adding_section hended (by omega), hrest, Nat.add_right_comm, Nat.add_assoc]

/-- Left to themselves the threads add one after another. -/
theorem run_adding_threads (times : Nat) {ended : List (Racer Nat Nat)}
    (hended : ∀ racer ∈ ended, racer.sections = []) (threads : Nat) {value : Nat}
    (hfits : value + threads * times < UInt64.size) :
    ∃ racers, run (threads * (4 * times)) ⟨false, value, ended ++
        .replicate threads ⟨.replicate times (SpinLock.adding 1), .trying, []⟩⟩ =
      ⟨false, value + threads * times, racers⟩ := by
  induction threads generalizing ended value with
  | zero =>
    refine ⟨ended ++ [], ?_⟩
    rw [Nat.zero_mul, Nat.zero_mul]
    rfl
  | succ threads ih =>
    rw [Nat.succ_mul] at hfits
    have hone : value + times < UInt64.size := by omega
    have hmore : value + times + threads * times < UInt64.size := by omega
    obtain ⟨answers, hfirst⟩ := run_adding_thread hended
      (.replicate threads ⟨.replicate times (SpinLock.adding 1), .trying, []⟩) [] times
      (threads * (4 * times)) hone
    have hended' : ∀ racer ∈ ended ++ [⟨[], .trying, answers⟩], racer.sections = [] := by
      intro racer hmem
      obtain hmem | hmem := List.mem_append.1 hmem
      · exact hended racer hmem
      · rw [List.mem_singleton.1 hmem]
    obtain ⟨racers, hrest⟩ := ih hended' hmore
    refine ⟨racers, ?_⟩
    rw [Nat.succ_mul, Nat.add_comm, List.replicate_succ, hfirst]
    rw [List.append_assoc, List.singleton_append] at hrest
    rw [hrest, Nat.succ_mul]
    congr 1
    omega

/-- A race for a free lock leaves nothing to do, and the lock free. -/
theorem SpinLock.race_eq {lock : SpinLock} {threads times : Nat} (hfree : lock.locked = false)
    (hfits : lock.value + threads * times < UInt64.size) :
    lock.race threads times = { lock with value := lock.value + threads * times } := by
  obtain ⟨racers, hrun⟩ := @run_adding_threads times [] nofun threads lock.value hfits
  have hstart : lock.toRace threads times = ⟨false, lock.value, [] ++
      .replicate threads ⟨.replicate times (SpinLock.adding 1), .trying, []⟩⟩ := by
    rw [toRace_eq hfree, start, List.map_replicate]
    rfl
  rw [SpinLock.race, hstart, hrun, ← hfree]

end Uninterrupted

/-- A critical section that marks an offset; its answer is whether the offset was unmarked. -/
def marking (offset : Offset) : CriticalSection OffsetSet Bool where
  body := .ofUpdate fun marks => .ok (!marks.contains offset, marks.insert offset)

/-- A thread that marks learns whether the mark was new, and leaves it there. -/
theorem returns_marking_iff {offset : Offset} {marks after : OffsetSet}
    {result : Except Fault Bool} :
    (marking offset).body.Returns Call.Nobody marks result after ↔
      result = .ok (!marks.contains offset) ∧ after = marks.insert offset := by
  rw [marking, Routine.returns_ofUpdate_iff]

theorem prompt_marking (offset : Offset) : (marking offset).body.Prompt :=
  Routine.prompt_ofUpdate fun marks : OffsetSet =>
    .ok (!marks.contains offset, marks.insert offset)

/-- The kind of the entry that a reference names. -/
def Ref.kind : Ref → EntryKind
  | .object _ => .object
  | .array _ => .array

/-- What a thread does to the marks of one kind while it holds the lock around them comes to one
step on the pair of mark sets. -/
theorem marks_insert_eq_iff {marks after : Marks} {ref : Ref} {marked : Bool} :
    marks.insert ref = (marked, after) ↔
      (marking ref.offset).body.Returns Call.Nobody (marks.ofKind ref.kind) (.ok marked)
          (after.ofKind ref.kind) ∧
        after = marks.setKind ref.kind (after.ofKind ref.kind) := by
  obtain ⟨objects, arrays⟩ := marks
  obtain ⟨objects', arrays'⟩ := after
  rw [returns_marking_iff]
  cases ref <;>
    simp [Marks.insert, Marks.contains, Marks.ofKind, Marks.setKind, Ref.kind, Ref.offset] <;>
    grind

section Marking

variable {calls : List (List Offset)} {marks marks' : OffsetSet} {log : List (Passage Bool)}

/-- The call that a passage tells of is about this offset. -/
def IsAbout (calls : List (List Offset)) (offset : Offset) (passage : Passage Bool) : Prop :=
  calls[passage.racer]?.bind (·[passage.place]?) = some offset

/-- The sections of threads that mark are known from what they mark. -/
theorem section_map_iff {i place : Nat} {current : CriticalSection OffsetSet Bool} :
    (calls.map (·.map marking))[i]?.bind (·[place]?) = some current ↔
      ∃ offset, calls[i]?.bind (·[place]?) = some offset ∧ marking offset = current := by
  rcases hrow : calls[i]? with _ | row <;> simp [hrow]

/-- The marks are those from before and the offsets that were marked since; whoever was the first to
mark an offset learned so, and nobody else did. -/
theorem serial_marking (h : Serial (calls.map (·.map marking)) marks log marks')
    (offset : Offset) :
    (marks'.contains offset = true ↔
        marks.contains offset = true ∨ ∃ passage ∈ log, IsAbout calls offset passage) ∧
      (marks.contains offset = false → (∃ passage ∈ log, IsAbout calls offset passage) →
        ∃! passage, (passage ∈ log ∧ IsAbout calls offset passage) ∧
          passage.result = .ok true) := by
  induction h with
  | nil => simp
  | @snoc log base after passage current _ hsection hreturns ih =>
    obtain ⟨own, habout, rfl⟩ := section_map_iff.1 hsection
    obtain ⟨hresult, rfl⟩ := returns_marking_iff.1 hreturns
    have hiff : IsAbout calls offset passage ↔ own = offset := by
      rw [IsAbout, habout, Option.some.injEq]
    obtain ⟨hmarked, hfirst⟩ := ih
    have hmem : ∀ other, other ∈ log ++ [passage] ↔ other ∈ log ∨ other = passage := by simp
    by_cases hown : own = offset
    · have hsome : ∃ passage' ∈ log ++ [passage], IsAbout calls offset passage' :=
        ⟨passage, (hmem _).2 (.inr rfl), hiff.2 hown⟩
      refine ⟨iff_of_true ?_ (.inr hsome), fun hnew _ => ?_⟩
      · simp [hown]
      subst hown
      cases hbase : base.contains own with
      | true =>
        -- Somebody was faster.
        have hearlier := (hmarked.1 hbase).resolve_left (by simp [hnew])
        obtain ⟨first, ⟨hlog, htrue⟩, honly⟩ := hfirst hnew hearlier
        refine ⟨first, ⟨⟨(hmem _).2 (.inl hlog.1), hlog.2⟩, htrue⟩, ?_⟩
        rintro other ⟨⟨hother, habout'⟩, htrue'⟩
        obtain hother | rfl := (hmem _).1 hother
        · exact honly other ⟨⟨hother, habout'⟩, htrue'⟩
        · rw [hresult, hbase] at htrue'
          cases htrue'
      | false =>
        rw [hbase] at hresult
        refine ⟨passage, ⟨⟨(hmem _).2 (.inr rfl), hiff.2 rfl⟩, hresult⟩, ?_⟩
        rintro other ⟨⟨hother, habout'⟩, -⟩
        obtain hother | rfl := (hmem _).1 hother
        · rw [hmarked.2 (.inr ⟨other, hother, habout'⟩)] at hbase
          cases hbase
        · rfl
    · have hsame : ∀ other, (other ∈ log ++ [passage] ∧ IsAbout calls offset other) ↔
          other ∈ log ∧ IsAbout calls offset other := by
        intro other
        rw [hmem]
        refine ⟨?_, fun h => ⟨.inl h.1, h.2⟩⟩
        rintro ⟨hother | rfl, habout'⟩
        · exact ⟨hother, habout'⟩
        · exact absurd (hiff.1 habout') hown
      simp only [hsame]
      refine ⟨?_, hfirst⟩
      rw [← hmarked]
      simp [Std.ExtTreeSet.contains_insert, hown]

/-- No call that marks faults. -/
theorem result_of_serial_marking (h : Serial (calls.map (·.map marking)) marks log marks') :
    ∀ passage ∈ log, ∃ marked, passage.result = .ok marked := by
  induction h with
  | nil => exact nofun
  | snoc _ hsection hreturns ih =>
    obtain ⟨own, -, rfl⟩ := section_map_iff.1 hsection
    intro passage hmem
    obtain hmem | hmem := List.mem_append.1 hmem
    · exact ih passage hmem
    · rw [List.mem_singleton.1 hmem]
      exact ⟨_, (returns_marking_iff.1 hreturns).1⟩

variable {race : Race OffsetSet Bool}

/-- Threads that mark come to an end, and once an offset that was unmarked has been marked, exactly
one call has the answer that it was unmarked. -/
theorem marking_race (hrun : Runs (start marks (calls.map (·.map marking))) race) :
    (∃ race', Runs race race' ∧ race'.Finished) ∧
      (race.Finished → ∀ i place offset, calls[i]?.bind (·[place]?) = some offset →
        ∃ marked, race.answer? i place = some (some (.ok marked))) ∧
      ∀ offset, marks.contains offset = false →
        (∃ i place answer, calls[i]?.bind (·[place]?) = some offset ∧
          race.answer? i place = some answer) →
        ∃! call : Nat × Nat, calls[call.1]?.bind (·[call.2]?) = some offset ∧
          race.answer? call.1 call.2 = some (some (.ok true)) := by
  obtain ⟨hexclusive, log, hjournal⟩ := hrun.journal
  have hmarking : ∀ program ∈ calls.map (·.map marking), ∀ current ∈ program,
      ∃ offset, marking offset = current := by
    intro program hprogram current hcurrent
    obtain ⟨row, -, rfl⟩ := List.mem_map.1 hprogram
    obtain ⟨offset, -, heq⟩ := List.mem_map.1 hcurrent
    exact ⟨offset, heq⟩
  have hunhindered : race.Unhindered := by
    refine (unhindered_start ?_).runs hrun
    intro program hprogram current hcurrent
    obtain ⟨offset, rfl⟩ := hmarking program hprogram current hcurrent
    exact prompt_marking offset
  have hwaits : ∀ program ∈ calls.map (·.map marking), ∀ current ∈ program,
      current.waits = true := by
    intro program hprogram current hcurrent
    obtain ⟨offset, rfl⟩ := hmarking program hprogram current hcurrent
    rfl
  obtain ⟨value, hserial⟩ := hjournal.exists_serial hexclusive
  have hanswers : ∀ i place answer, race.answer? i place = some answer →
      ∃ marked, answer = some (.ok marked) := by
    intro i place answer hanswer
    obtain ⟨passage, hmem, -, -, rfl⟩ := hjournal.answer_eq hwaits hanswer
    obtain ⟨marked, hmarked⟩ := result_of_serial_marking hserial passage hmem
    exact ⟨marked, congrArg some hmarked⟩
  refine ⟨exists_finish hexclusive hunhindered, ?_, ?_⟩
  · intro hfinished i place offset hcall
    have hfault : ∀ i place fault, race.answer? i place ≠ some (some (.error fault)) := by
      intro i place fault hfault
      obtain ⟨marked, hmarked⟩ := hanswers i place _ hfault
      cases hmarked
    obtain ⟨answer, hanswer⟩ := hjournal.exists_answer hfinished hfault
      (section_map_iff.2 ⟨offset, hcall, rfl⟩)
    obtain ⟨marked, rfl⟩ := hanswers i place answer hanswer
    exact ⟨marked, hanswer⟩
  · rintro offset hnew ⟨i, place, answer, hcall, hanswer⟩
    obtain ⟨passage, hmem, rfl, rfl, -⟩ := hjournal.answer_eq hwaits hanswer
    obtain ⟨first, ⟨⟨hlog, habout⟩, htrue⟩, honly⟩ :=
      (serial_marking hserial offset).2 hnew ⟨passage, hmem, hcall⟩
    refine ⟨(first.racer, first.place), ⟨habout, ?_⟩, ?_⟩
    · rw [(hjournal.answered first).1 hlog, htrue]
    · rintro ⟨j, place⟩ ⟨hcall', hanswer'⟩
      have hsame := honly ⟨j, place, .ok true⟩
        ⟨⟨(hjournal.answered ⟨j, place, .ok true⟩).2 hanswer', hcall'⟩, rfl⟩
      rw [← hsame]

end Marking

/-- However the steps of its threads are interleaved, at most one thread of a race holds the lock,
and the flag is up exactly as long as one does. Whoever acquires the lock, by waiting for it or by
trying it, does so when nobody holds it, and skips a critical section only when somebody does. The
critical sections have been gone through one after another, each from what the one before it has
left, which is what the holder has found. If none of them has to wait for anything else, the race
can always come to its end.

Threads that add 1 to a counter have added all of it then. Of the calls that mark an offset that
was unmarked exactly one has learned so as soon as one has returned, and at the end each has. -/
theorem lock_excludes :
    (∀ {σ α : Type} (initial : σ) (programs : List (List (CriticalSection σ α))) (race : Race σ α),
      Runs (start initial programs) race →
        race.Exclusive ∧
        (∀ choice i race', race.step choice i = some race' → ¬race.Holds i → race'.Holds i →
          ∀ j, ¬race.Holds j) ∧
        (∀ choice i race' place, race.step choice i = some race' → race.answer? i place = none →
          race'.answer? i place = some none → ∃ j, race.Holds j) ∧
        (∃ log, Journal programs initial race log) ∧
        ((∀ program ∈ programs, ∀ current ∈ program, current.body.Prompt) →
          ∃ race', Runs race race' ∧ race'.Finished)) ∧
    (∀ (lock : SpinLock) (threads times : Nat) (race : Race Nat Nat), lock.locked = false →
      lock.value + threads * times < UInt64.size → Runs (lock.toRace threads times) race →
        (∃ race', Runs race race' ∧ race'.Finished) ∧
        (∀ i place answer, race.answer? i place = some answer → ∃ sum, answer = some (.ok sum)) ∧
        (race.Finished → race.locked = false ∧ race.value = lock.value + threads * times)) ∧
    ∀ (marks : OffsetSet) (calls : List (List Offset)) (race : Race OffsetSet Bool),
      Runs (start marks (calls.map (·.map marking))) race →
        (∃ race', Runs race race' ∧ race'.Finished) ∧
        (race.Finished → ∀ i place offset, calls[i]?.bind (·[place]?) = some offset →
          ∃ marked, race.answer? i place = some (some (.ok marked))) ∧
        ∀ offset, marks.contains offset = false →
          (∃ i place answer, calls[i]?.bind (·[place]?) = some offset ∧
            race.answer? i place = some answer) →
          ∃! call : Nat × Nat, calls[call.1]?.bind (·[call.2]?) = some offset ∧
            race.answer? call.1 call.2 = some (some (.ok true)) := by
  refine ⟨?_, ?_, ?_⟩
  · intro σ α initial programs race hrun
    obtain ⟨hexclusive, hjournal⟩ := hrun.journal
    refine ⟨hexclusive, ?_, ?_, hjournal, ?_⟩
    · intro choice i race' hstep hbefore hafter
      exact hexclusive.of_acquires hstep hbefore hafter
    · intro choice i race' place hstep hbefore hafter
      exact hexclusive.of_skips hstep hbefore hafter
    · intro hprompt
      exact exists_finish hexclusive ((unhindered_start hprompt).runs hrun)
  · intro lock threads times race hfree hfits hrun
    exact adding_race hfree hfits hrun
  · intro marks calls race hrun
    exact marking_race hrun

/-- Two threads that each add twice, and three calls that mark, two of them for one offset. -/
theorem lock_excludes_few :
    (∃ race, Runs (start 0 [[SpinLock.adding 1]]) race ∧ race.Exclusive) ∧
    (∃ race, Runs (SpinLock.toRace {} 2 2) race ∧ race.locked = false ∧ race.value = 4) ∧
    ∃ race, Runs (start ∅ ([[3], [5, 3]].map (·.map marking))) race ∧
      ∃! call : Nat × Nat, [[3], [5, 3]][call.1]?.bind (·[call.2]?) = some (3 : Offset) ∧
        race.answer? call.1 call.2 = some (some (.ok true)) := by
  refine ⟨⟨_, .refl, (lock_excludes.1 0 [[SpinLock.adding 1]] _ .refl).1⟩, ?_, ?_⟩
  · have hrun := runs_run 16 (SpinLock.toRace {} 2 2)
    obtain ⟨-, -, hend⟩ := lock_excludes.2.1 {} 2 2 _ rfl (by decide) hrun
    have hfinished : ((SpinLock.toRace {} 2 2).run 16).Finished := by
      refine finished_iff.2 ?_
      decide +kernel
    exact ⟨_, hrun, hend hfinished⟩
  · have hrun := runs_run 12 (start ∅ ([[3], [5, 3]].map (·.map marking)))
    obtain ⟨-, -, hfirst⟩ := lock_excludes.2.2 ∅ [[3], [5, 3]] _ hrun
    refine ⟨_, hrun, hfirst 3 (by decide) ⟨0, 0, some (.ok true), rfl, ?_⟩⟩
    decide +kernel

end MarkSweep
