import MarkSweep.Proofs.Mutator.Traffic

namespace MarkSweep.Traffic

open Heap Heap.Deposit

/-- What can be relied on while entries are being stored.

However the steps of the threads that store entries alternate, no offset is handed out twice, and
what an allocation has stored stays until an insertion is asked for that names the same
reference. -/
structure Orderly (c : Traffic) : Prop where
  /-- The log tells who has allocated, and who stores an entry where. -/
  owned : ∀ event ∈ c.log, c.Owned event
  /-- No offset is handed out twice. -/
  once : ∀ i j offset, .took i offset ∈ c.log → .took j offset ∈ c.log → i = j
  /-- Nor do two allocations return the same one, of whichever kind they are. -/
  distinct : ∀ (i j : Nat) (visit visit' : Visit Deposit Heap Ref) (entry entry' : Entry)
    (ref ref' : Ref), i ≠ j → c.visits[i]? = some visit → c.visits[j]? = some visit' →
      visit.errand = .allocate entry → visit'.errand = .allocate entry' →
      visit.answer? = some (.ok ref) → visit'.answer? = some (.ok ref') →
      ref.offset ≠ ref'.offset
  /-- What is handed out after the counter was moved past `k` lies past `k`. -/
  above : ∀ (later earlier : List Event) (i j : Nat) (k offset : Offset),
    c.log = later ++ .passed i k :: earlier → .took j offset ∈ later → k < offset
  /-- The counter is never moved back. -/
  counter : ∀ c', Relation.ReflTransGen Step c c' → c'.Low → c.heap.nextOffset ≤ c'.heap.nextOffset
  /-- What an allocation has stored is there, unless an insertion names its reference. -/
  allocated : ∀ (i : Nat) (visit : Visit Deposit Heap Ref) (entry : Entry) (ref : Ref),
    c.visits[i]? = some visit → visit.errand = .allocate entry → visit.answer? = some (.ok ref) →
      ∃ offset, .took i offset ∈ c.log ∧ ref = entry.ref offset ∧ c.Kept entry ref
  /-- An insertion that has returned has moved the counter past its offset. -/
  inserted : ∀ (i : Nat) (visit : Visit Deposit Heap Ref) (offset : Offset) (entry : Entry)
    (ref : Ref), c.visits[i]? = some visit → visit.errand = .insert offset entry →
      visit.answer? = some (.ok ref) → ref = entry.ref offset ∧ .passed i offset ∈ c.log
  /-- A call faults only if its caller may not enter the heap level, or if it is to insert at the
  last offset. -/
  faulted : ∀ (i : Nat) (visit : Visit Deposit Heap Ref) (fault : Fault),
    c.visits[i]? = some visit → visit.answer? = some (.error fault) →
      visit.caller.enter .heap = .error fault ∨
        ∃ offset entry, visit.errand = .insert offset entry ∧ nextAfter offset = .error fault
  /-- No call has to wait for another. -/
  prompt : ∀ (i : Nat) (visit : Visit Deposit Heap Ref),
    c.visits[i]? = some visit → visit.answer? = none →
      ∃ visit' heap, visit.Step c.heap visit' heap

variable {c : Traffic} {i : Nat} {visit : Visit Deposit Heap Ref} {result : Except Fault Ref}

/-- A call that has given an answer is at an end that its errand allows. -/
theorem Sound.ends (h : c.Sound) (hget : c.visits[i]? = some visit)
    (hanswer : visit.answer? = some result) : c.Ends i visit.errand visit.caller result := by
  obtain ⟨k, hrest, hfits⟩ := h.placed i visit hget
  obtain ⟨deposit, caller, t, rest⟩ := visit
  obtain rfl : rest = k.rest deposit.entry := hrest
  rw [answer?_rest] at hanswer
  cases hfits with
  | past hends =>
    cases hanswer
    exact hends
  | _ => cases hanswer

/-- A call that has given no answer can go on. -/
theorem Sound.exists_step (h : c.Sound) (hget : c.visits[i]? = some visit)
    (hanswer : visit.answer? = none) : ∃ visit' heap, visit.Step c.heap visit' heap := by
  obtain ⟨k, hrest, -⟩ := h.placed i visit hget
  obtain ⟨deposit, caller, t, rest⟩ := visit
  obtain rfl : rest = k.rest deposit.entry := hrest
  obtain ⟨result, rfl⟩ | hnext := isSome_next deposit.entry k t c.heap
  · rw [answer?_rest] at hanswer
    cases hanswer
  · obtain ⟨⟨k', t', heap'⟩, hnext⟩ := Option.isSome_iff_exists.1 hnext
    exact ⟨_, heap', .of_next? (next?_of_next 0 hnext)⟩

/-- An allocation that has answered took an offset of its own, and what it stored is kept. -/
theorem Sound.allocated {entry : Entry} {ref : Ref} (h : c.Sound)
    (hget : c.visits[i]? = some visit) (hallocates : visit.errand = .allocate entry)
    (hanswer : visit.answer? = some (.ok ref)) :
    ∃ offset, .took i offset ∈ c.log ∧ ref = entry.ref offset ∧ c.Kept entry ref := by
  have hends := h.ends hget hanswer
  rw [hallocates] at hends
  cases hends with
  | @stored offset haims _ hkept =>
    cases haims with
    | allocate htook => exact ⟨offset, htook, rfl, hkept entry rfl⟩

/-- An insertion that has answered moved the counter past its offset. -/
theorem Sound.inserted {offset : Offset} {entry : Entry} {ref : Ref} (h : c.Sound)
    (hget : c.visits[i]? = some visit) (hinserts : visit.errand = .insert offset entry)
    (hanswer : visit.answer? = some (.ok ref)) :
    ref = entry.ref offset ∧ .passed i offset ∈ c.log := by
  have hends := h.ends hget hanswer
  rw [hinserts] at hends
  cases hends with
  | stored haims hpassed =>
    cases haims with
    | insert => exact ⟨rfl, hpassed⟩

/-- Offsets that are taken after an insertion has moved the counter lie above it. -/
theorem Sound.above {later earlier : List Event} {j : Nat} {k offset : Offset} (h : c.Sound)
    (hlog : c.log = later ++ .passed i k :: earlier) (htook : .took j offset ∈ later) :
    k < offset := by
  have hrising := h.rising
  rw [hlog, List.pairwise_append] at hrising
  exact UInt64.lt_iff_toNat_lt.2 (hrising.2.2 _ htook _ List.mem_cons_self j offset rfl)

/-- In every course of events in which the counter stays in its range, and from any heap, the calls
that store entries are orderly. -/
theorem run_allocates {heap : Heap} (hrun : Relation.ReflTransGen Step ⟨heap, [], []⟩ c)
    (hlow : c.Low) : c.Orderly := by
  have h := ((sound_new heap).run hrun hlow).1
  constructor
  case owned => exact h.owned
  case once => exact fun i j offset => h.took_inj
  case distinct =>
    intro i j visit visit' entry entry' ref ref' hij hget hget' hallocates hallocates' hanswer
      hanswer' hsame
    obtain ⟨offset, htook, rfl, -⟩ := h.allocated hget hallocates hanswer
    obtain ⟨offset', htook', rfl, -⟩ := h.allocated hget' hallocates' hanswer'
    rw [Entry.offset_ref, Entry.offset_ref] at hsame
    subst hsame
    exact hij (h.took_inj htook htook')
  case above => exact fun later earlier i j k offset => h.above
  case counter =>
    intro c' hrun' hlow'
    exact UInt64.le_iff_toNat_le.2 (h.run hrun' hlow').2
  case allocated => exact fun i visit entry ref => h.allocated
  case inserted => exact fun i visit offset entry ref => h.inserted
  case faulted =>
    intro i visit fault hget hanswer
    cases h.ends hget hanswer with
    | refused henter => exact .inl henter
    | overflowed hinserts hlast => exact .inr ⟨_, _, hinserts, hlast⟩
  case prompt => exact fun i visit => h.exists_step

/-- While an object is being allocated, an array is inserted farther up and another allocated. -/
theorem exists_run_mixed :
    ∃ c, Relation.ReflTransGen Step ⟨{}, [], []⟩ c ∧
      c.visits.map Visit.answer? =
        [some (.ok (.object 1)), some (.ok (.array 5)), some (.ok (.array 6))] ∧
      c.log = [.passed 0 1, .passed 2 6, .took 2 6, .passed 1 5, .took 0 1] := by
  have h0 : Relation.ReflTransGen Step ⟨{}, [], []⟩ _ := .refl
  have h1 := h0.tail (.call (.allocate (.object {})) {})
  have h2 := h1.tail (.call (.insert 5 (.array (.ofStorage #[]))) {})
  have h3 := h2.tail (.call (.allocate (.array (.ofStorage #[none]))) {})
  have h4 := h3.tail (step_of_next (i := 0) (k := .taking) rfl rfl)
  have h5 := h4.tail (step_of_next (i := 1) (k := .entering 5) rfl rfl)
  have h6 := h5.tail (step_of_next (i := 1) (k := .passing 5) rfl rfl)
  have h7 := h6.tail (step_of_next (i := 2) (k := .taking) rfl rfl)
  have h8 := h7.tail (step_of_next (i := 2) (k := .entering 6) rfl rfl)
  have h9 := h8.tail (step_of_next (i := 2) (k := .passing 6) rfl rfl)
  have h10 := h9.tail (step_of_next (i := 1) (k := .putting 5) rfl rfl)
  have h11 := h10.tail (step_of_next (i := 0) (k := .entering 1) rfl rfl)
  have h12 := h11.tail (step_of_next (i := 0) (k := .passing 1) rfl rfl)
  have h13 := h12.tail (step_of_next (i := 0) (k := .putting 1) rfl rfl)
  have h14 := h13.tail (step_of_next (i := 2) (k := .putting 6) rfl rfl)
  have h15 := h14.tail (step_of_next (i := 0) (k := .leaving _) rfl rfl)
  have h16 := h15.tail (step_of_next (i := 1) (k := .leaving _) rfl rfl)
  have h17 := h16.tail (step_of_next (i := 2) (k := .leaving _) rfl rfl)
  exact ⟨_, h17, rfl, rfl⟩

/-- While an object is being allocated, an array is inserted farther up, and another one is
allocated after that: all three have offsets of their own. -/
theorem run_allocates_mixed :
    ∃ c, Relation.ReflTransGen Step ⟨{}, [], []⟩ c ∧ c.Low ∧
      c.visits.map Visit.answer? =
        [some (.ok (.object 1)), some (.ok (.array 5)), some (.ok (.array 6))] ∧ c.Orderly := by
  obtain ⟨c, hrun, hanswers, hlog⟩ := exists_run_mixed
  have hlow : c.Low := by
    intro i offset htook
    simp only [hlog, List.mem_cons, List.not_mem_nil, or_false, reduceCtorEq, false_or,
      Event.took.injEq] at htook
    obtain ⟨-, rfl⟩ | ⟨-, rfl⟩ := htook <;> decide
  exact ⟨c, hrun, hlow, hanswers, run_allocates hrun hlow⟩

end MarkSweep.Traffic
