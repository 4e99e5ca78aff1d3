import Mathlib.Logic.Relation
import MarkSweep.Proofs.Mutator.Storing

namespace MarkSweep

open Heap Heap.Deposit

namespace Traffic

/-- What a call does to the counter. -/
inductive Event
  /-- The call is given this offset. -/
  | took (i : Nat) (offset : Offset)
  /-- The call moves the counter past this offset. -/
  | passed (i : Nat) (offset : Offset)

def Event.offset : Event → Offset
  | took _ offset | passed _ offset => offset

end Traffic

/-- A heap, the calls that were ever made to store an entry there, and the log. -/
structure Traffic where
  heap : Heap
  visits : List (Visit Deposit Heap Ref) := []
  log : List Traffic.Event := []

namespace Traffic

/-- What the next step of call `i` does to the counter. -/
inductive Touches (i : Nat) (visit : Visit Deposit Heap Ref) (heap : Heap) : Option Event → Prop
  | takes (hdoes : visit.Does fun heap => heap.takeOffset.2) :
      Touches i visit heap (some (.took i heap.nextOffset))
  | passes {offset past : Offset} (hpast : nextAfter offset = .ok past)
      (hdoes : visit.Does (·.reserve past)) : Touches i visit heap (some (.passed i offset))
  | neither (htakes : ¬visit.Does fun heap => heap.takeOffset.2)
      (hpasses : ∀ offset past, nextAfter offset = .ok past → ¬visit.Does (·.reserve past)) :
      Touches i visit heap none

/-- What can happen next. -/
inductive Step : Traffic → Traffic → Prop
  /-- A thread makes a call. -/
  | call {c : Traffic} (deposit : Deposit) (caller : Thread) :
      Step c { c with visits := c.visits ++ [⟨deposit, caller, caller, deposit.call⟩] }
  /-- A call goes on. -/
  | go {c : Traffic} {i : Nat} {visit visit' : Visit Deposit Heap Ref} {heap : Heap}
      {event? : Option Event} (hget : c.visits[i]? = some visit)
      (htouches : Touches i visit c.heap event?) (hstep : visit.Step c.heap visit' heap) :
      Step c { heap, visits := c.visits.set i visit', log := event?.toList ++ c.log }

/-- Nobody has taken the last offset. -/
def Low (c : Traffic) : Prop :=
  ∀ i offset, .took i offset ∈ c.log → offset.toNat + 1 < UInt64.size

/-- Call `i` stores its entry at this offset. -/
inductive Aims (c : Traffic) (i : Nat) : Deposit → Offset → Prop
  | insert {offset : Offset} {entry : Entry} : Aims c i (.insert offset entry) offset
  | allocate {offset : Offset} {entry : Entry} (htook : .took i offset ∈ c.log) :
      Aims c i (.allocate entry) offset

/-- An insertion was asked for that stores its entry under this reference. -/
def Named (c : Traffic) (ref : Ref) : Prop :=
  ∃ (i : Nat) (visit : Visit Deposit Heap Ref) (offset : Offset) (entry : Entry),
    c.visits[i]? = some visit ∧ visit.errand = .insert offset entry ∧ entry.ref offset = ref

/-- The entry is there, unless somebody has chosen its place. -/
def Kept (c : Traffic) (entry : Entry) (ref : Ref) : Prop :=
  c.heap.entryAt? ref = some entry ∨ c.Named ref

/-- How call `i` can come out. -/
inductive Ends (c : Traffic) (i : Nat) (deposit : Deposit) (caller : Thread) :
    Except Fault Ref → Prop
  | stored {offset : Offset} (haims : c.Aims i deposit offset) (hpassed : .passed i offset ∈ c.log)
      (hkept : ∀ entry, deposit = .allocate entry → c.Kept entry (entry.ref offset)) :
      Ends c i deposit caller (.ok (deposit.entry.ref offset))
  /-- The caller holds a level above that of the heap. -/
  | refused {fault : Fault} (henter : caller.enter .heap = .error fault) :
      Ends c i deposit caller (.error fault)
  /-- There is nothing past the offset. -/
  | overflowed {offset : Offset} {entry : Entry} {fault : Fault}
      (hinserts : deposit = .insert offset entry) (hlast : nextAfter offset = .error fault) :
      Ends c i deposit caller (.error fault)

/-- How far call `i` is agrees with the log and the heap. -/
inductive Fits (c : Traffic) (i : Nat) (deposit : Deposit) (caller : Thread) :
    Thread → Standing → Prop
  | taking {entry : Entry} (hallocates : deposit = .allocate entry) :
      Fits c i deposit caller caller .taking
  | entering {offset : Offset} (haims : c.Aims i deposit offset) :
      Fits c i deposit caller caller (.entering offset)
  | passing {t : Thread} {offset : Offset} (haims : c.Aims i deposit offset) :
      Fits c i deposit caller t (.passing offset)
  | putting {t : Thread} {offset : Offset} (haims : c.Aims i deposit offset)
      (hpassed : .passed i offset ∈ c.log) : Fits c i deposit caller t (.putting offset)
  | leaving {t : Thread} {result : Except Fault Ref} (hends : c.Ends i deposit caller result) :
      Fits c i deposit caller t (.leaving result)
  | past {t : Thread} {result : Except Fault Ref} (hends : c.Ends i deposit caller result) :
      Fits c i deposit caller t (.past result)

/-- Whose doing an event of the log is. -/
inductive Owned (c : Traffic) : Event → Prop
  | took {i : Nat} {visit : Visit Deposit Heap Ref} {offset : Offset} {entry : Entry}
      (hget : c.visits[i]? = some visit) (hallocates : visit.errand = .allocate entry) :
      Owned c (.took i offset)
  | passed {i : Nat} {visit : Visit Deposit Heap Ref} {offset : Offset}
      (hget : c.visits[i]? = some visit) (haims : c.Aims i visit.errand offset) :
      Owned c (.passed i offset)

/-- The log, the counter and the heap agree with how far the calls are. -/
structure Sound (c : Traffic) : Prop where
  placed : ∀ (i : Nat) (visit : Visit Deposit Heap Ref), c.visits[i]? = some visit →
    ∃ k : Standing, visit.rest = k.rest visit.errand.entry ∧
      c.Fits i visit.errand visit.caller visit.thread k
  owned : ∀ event ∈ c.log, c.Owned event
  /-- The counter is past every offset of the log. -/
  below : ∀ event ∈ c.log, event.offset.toNat < c.heap.nextOffset.toNat
  /-- An offset that was taken is past every one that stood in the log by then. -/
  rising : c.log.Pairwise fun later earlier =>
    ∀ i offset, later = .took i offset → earlier.offset.toNat < offset.toNat

/-- Nothing that was recorded is lost. -/
structure Extends (c c' : Traffic) : Prop where
  log : ∀ event ∈ c.log, event ∈ c'.log
  visits : ∀ (i : Nat) (visit : Visit Deposit Heap Ref), c.visits[i]? = some visit →
    ∃ visit' : Visit Deposit Heap Ref, c'.visits[i]? = some visit' ∧
      visit'.errand = visit.errand ∧ visit'.caller = visit.caller

section Extends

variable {c c' : Traffic} {i : Nat} {deposit : Deposit} {caller t : Thread} {k : Standing}
  {result : Except Fault Ref} {offset : Offset} {entry : Entry} {ref : Ref} {event : Event}

theorem Low.of_extends (hlow : c'.Low) (hext : c.Extends c') : c.Low :=
  fun i offset htook => hlow i offset (hext.log _ htook)

theorem Aims.mono (haims : c.Aims i deposit offset) (hext : c.Extends c') :
    c'.Aims i deposit offset := by
  cases haims with
  | insert => exact .insert
  | allocate htook => exact .allocate (hext.log _ htook)

theorem Named.mono (hnamed : c.Named ref) (hext : c.Extends c') : c'.Named ref := by
  obtain ⟨i, visit, offset, entry, hget, hinserts, href⟩ := hnamed
  obtain ⟨visit', hget', herrand, -⟩ := hext.visits i visit hget
  exact ⟨i, visit', offset, entry, hget', herrand.trans hinserts, href⟩

theorem Owned.mono (howned : c.Owned event) (hext : c.Extends c') : c'.Owned event := by
  cases howned with
  | took hget hallocates =>
    obtain ⟨visit', hget', herrand, -⟩ := hext.visits _ _ hget
    exact .took hget' (herrand.trans hallocates)
  | passed hget haims =>
    obtain ⟨visit', hget', herrand, -⟩ := hext.visits _ _ hget
    exact .passed hget' (herrand ▸ haims.mono hext)

theorem Kept.mono (hkept : c.Kept entry ref) (hext : c.Extends c')
    (hentry : c.heap.entryAt? ref = some entry → c'.Kept entry ref) : c'.Kept entry ref := by
  obtain hthere | hnamed := hkept
  · exact hentry hthere
  · exact .inr (hnamed.mono hext)

/-- What was stored for call `i` stays, whatever else has happened. -/
def Spares (c c' : Traffic) (i : Nat) : Prop :=
  ∀ entry offset, .took i offset ∈ c.log → c.heap.entryAt? (entry.ref offset) = some entry →
    c'.Kept entry (entry.ref offset)

theorem Ends.mono (hends : c.Ends i deposit caller result) (hext : c.Extends c')
    (hspares : c.Spares c' i) : c'.Ends i deposit caller result := by
  cases hends with
  | @stored offset haims hpassed hkept =>
    apply Ends.stored (haims.mono hext) (hext.log _ hpassed)
    rintro entry rfl
    cases haims with
    | allocate htook => exact (hkept entry rfl).mono hext (hspares entry offset htook)
  | refused henter => exact .refused henter
  | overflowed hinserts hlast => exact .overflowed hinserts hlast

theorem Fits.mono (hfits : c.Fits i deposit caller t k) (hext : c.Extends c')
    (hspares : c.Spares c' i) : c'.Fits i deposit caller t k := by
  cases hfits with
  | taking hallocates => exact .taking hallocates
  | entering haims => exact .entering (haims.mono hext)
  | passing haims => exact .passing (haims.mono hext)
  | putting haims hpassed => exact .putting (haims.mono hext) (hext.log _ hpassed)
  | leaving hends => exact .leaving (hends.mono hext hspares)
  | past hends => exact .past (hends.mono hext hspares)

/-- Steps add to the log and to the calls. -/
theorem Step.extends (hstep : c.Step c') : c.Extends c' := by
  cases hstep with
  | call deposit caller =>
    refine ⟨fun event hmem => hmem, fun i visit hget => ⟨visit, ?_, rfl, rfl⟩⟩
    rwa [List.getElem?_append_left (List.getElem?_eq_some_iff.1 hget).1]
  | @go i visit visit' heap event? hget htouches hstep =>
    refine ⟨fun event hmem => List.mem_append_right _ hmem, fun j other hother => ?_⟩
    by_cases hij : i = j
    · subst hij
      cases hget.symm.trans hother
      refine ⟨visit', ?_, hstep.errand_eq⟩
      exact List.getElem?_set_self (List.getElem?_eq_some_iff.1 hget).1
    · exact ⟨other, by rwa [List.getElem?_set_ne hij], rfl, rfl⟩

/-- Where no entry has changed everybody is spared. -/
theorem spares_of_entryAt?_eq (hentry : ∀ ref, c'.heap.entryAt? ref = c.heap.entryAt? ref)
    (i : Nat) : c.Spares c' i :=
  fun _ _ _ hthere => .inl ((hentry _).trans hthere)

end Extends

variable {c c' : Traffic} {i j : Nat} {visit visit' : Visit Deposit Heap Ref} {deposit : Deposit}
  {caller t : Thread} {k : Standing} {heap : Heap} {entry : Entry} {offset : Offset}
  {event? : Option Event}

/-- The event of the next step of call `i`. -/
def eventOf (i : Nat) (heap : Heap) : Standing → Option Event
  | .taking => some (.took i heap.nextOffset)
  | .passing offset =>
    match nextAfter offset with
    | .ok _ => some (.passed i offset)
    | .error _ => none
  | _ => none

/-- What a deposit does to the counter goes into the log as what it is. -/
theorem Touches.eq (htouches : Touches i ⟨deposit, caller, t, k.rest entry⟩ heap event?) :
    event? = eventOf i heap k := by
  cases htouches with
  | takes hdoes =>
    rw [does_takeOffset_iff.1 hdoes, eventOf]
  | passes hpast hdoes =>
    rw [(does_reserve_iff hpast).1 hdoes]
    simp only [eventOf, hpast]
  | neither htakes hpasses =>
    cases k with
    | taking => exact absurd (does_takeOffset_iff.2 rfl) htakes
    | passing offset =>
      cases hpast : nextAfter offset with
      | ok past => exact absurd ((does_reserve_iff hpast).2 rfl) (hpasses offset past hpast)
      | error fault => simp only [eventOf, hpast]
    | _ => rfl

theorem touches_eventOf (i : Nat) (deposit : Deposit) (caller t : Thread) (k : Standing)
    (entry : Entry) (heap : Heap) :
    Touches i ⟨deposit, caller, t, k.rest entry⟩ heap (eventOf i heap k) := by
  have hevent : ∃ event?, Touches i ⟨deposit, caller, t, k.rest entry⟩ heap event? := by
    by_cases htakes : Visit.Does ⟨deposit, caller, t, k.rest entry⟩ fun heap => heap.takeOffset.2
    · exact ⟨_, .takes htakes⟩
    · by_cases hpasses : ∃ offset past, nextAfter offset = .ok past ∧
          Visit.Does ⟨deposit, caller, t, k.rest entry⟩ (·.reserve past)
      · obtain ⟨offset, past, hpast, hdoes⟩ := hpasses
        exact ⟨_, .passes hpast hdoes⟩
      · exact ⟨_, .neither htakes fun offset past hpast hdoes =>
          hpasses ⟨offset, past, hpast, hdoes⟩⟩
  obtain ⟨event?, htouches⟩ := hevent
  exact htouches.eq ▸ htouches

/-- A call that is not past can go on. -/
theorem step_of_next {k' : Standing} {t' : Thread}
    (hget : c.visits[i]? = some ⟨deposit, caller, t, k.rest deposit.entry⟩)
    (hnext : k.next deposit.entry (t, c.heap) = some (k', t', heap)) :
    Step c ⟨heap, c.visits.set i ⟨deposit, caller, t', k'.rest deposit.entry⟩,
      (eventOf i c.heap k).toList ++ c.log⟩ := by
  apply Step.go hget (touches_eventOf i deposit caller t k deposit.entry c.heap)
  exact .of_next? (next?_of_next 0 hnext)

/-- No offset is taken twice. -/
theorem Sound.took_inj (h : c.Sound) (hi : .took i offset ∈ c.log) (hj : .took j offset ∈ c.log) :
    i = j := by
  have hrising := List.pairwise_iff_getElem.1 h.rising
  obtain ⟨m, hm, hmi⟩ := List.mem_iff_getElem.1 hi
  obtain ⟨n, hn, hnj⟩ := List.mem_iff_getElem.1 hj
  obtain hlt | rfl | hlt := Nat.lt_trichotomy m n
  · have hless := hrising m n hm hn hlt i offset hmi
    rw [hnj] at hless
    exact absurd hless (Nat.lt_irrefl _)
  · cases hmi.symm.trans hnj
    rfl
  · have hless := hrising n m hn hm hlt j offset hnj
    rw [hmi] at hless
    exact absurd hless (Nat.lt_irrefl _)

/-- Call `i` has gone on, as far as `k`, and has left this event in the log, if any. -/
structure Goes (c : Traffic) (i : Nat) (deposit : Deposit) (caller t : Thread) (k : Standing)
    (event? : Option Event) (c' : Traffic) : Prop where
  visits : c'.visits = c.visits.set i ⟨deposit, caller, t, k.rest deposit.entry⟩
  get : c'.visits[i]? = some ⟨deposit, caller, t, k.rest deposit.entry⟩
  log : c'.log = event?.toList ++ c.log
  ext : c.Extends c'
  counter : c.heap.nextOffset.toNat ≤ c'.heap.nextOffset.toNat
  low : c'.Low

/-- Nothing that the other calls rely on has changed, and the event fits in. -/
theorem Sound.of_goes (h : c.Sound) (hgoes : c.Goes i deposit caller t k event? c')
    (hfits : c'.Fits i deposit caller t k) (hspares : ∀ j ≠ i, c.Spares c' j)
    (howned : ∀ event, event? = some event → c'.Owned event)
    (hbelow : ∀ event, event? = some event → event.offset.toNat < c'.heap.nextOffset.toNat)
    (hrising : ∀ i offset, event? = some (.took i offset) →
      ∀ earlier ∈ c.log, earlier.offset.toNat < offset.toNat) : c'.Sound where
  placed := by
    intro j other hother
    rw [hgoes.visits] at hother
    obtain ⟨rfl, rfl⟩ | ⟨hij, hother⟩ := getElem?_set_cases hother
    · exact ⟨k, rfl, hfits⟩
    · obtain ⟨k, hrest, hfits⟩ := h.placed j other hother
      exact ⟨k, hrest, hfits.mono hgoes.ext (hspares j (Ne.symm hij))⟩
  owned := by
    intro event hmem
    rw [hgoes.log, List.mem_append, Option.mem_toList] at hmem
    obtain hnew | hold := hmem
    · exact howned event hnew
    · exact (h.owned event hold).mono hgoes.ext
  below := by
    intro event hmem
    rw [hgoes.log, List.mem_append, Option.mem_toList] at hmem
    obtain hnew | hold := hmem
    · exact hbelow event hnew
    · exact Nat.lt_of_lt_of_le (h.below event hold) hgoes.counter
  rising := by
    rw [hgoes.log]
    cases event? with
    | none => exact h.rising
    | some event =>
      apply List.pairwise_cons.2
      refine ⟨?_, h.rising⟩
      rintro earlier hmem i offset rfl
      exact hrising i offset rfl earlier hmem

/-- A call has gone on that left the log alone. -/
theorem Sound.of_goes_none (h : c.Sound) (hgoes : c.Goes i deposit caller t k none c')
    (hfits : c'.Fits i deposit caller t k) (hspares : ∀ j ≠ i, c.Spares c' j) : c'.Sound := by
  apply h.of_goes hgoes hfits hspares
  · exact fun event hevent => by cases hevent
  · exact fun event hevent => by cases hevent
  · exact fun j offset hevent => by cases hevent

/-- A call has gone on that changed nothing. -/
theorem Sound.of_goes_same (h : c.Sound) (hgoes : c.Goes i deposit caller t k none c')
    (hfits : c'.Fits i deposit caller t k) (hheap : c'.heap = c.heap) : c'.Sound := by
  apply h.of_goes_none hgoes hfits
  exact fun j _ => spares_of_entryAt?_eq (fun ref => by rw [hheap]) j

/-- An allocation has been given its offset, which is past all that stand in the log. -/
theorem Sound.takes (h : c.Sound) (hallocates : deposit = .allocate entry)
    (hgoes : c.Goes i deposit caller caller (.entering c.heap.nextOffset)
      (some (.took i c.heap.nextOffset)) c')
    (hheap : c'.heap = c.heap.takeOffset.2) : c'.Sound := by
  have htook : .took i c.heap.nextOffset ∈ c'.log := by
    rw [hgoes.log]
    exact List.mem_cons_self
  have htaken : c'.heap.nextOffset.toNat = c.heap.nextOffset.toNat + 1 := by
    rw [hheap]
    exact toNat_add_one (hgoes.low i _ htook)
  apply h.of_goes hgoes
  · subst hallocates
    exact .entering (.allocate htook)
  · exact fun j _ => spares_of_entryAt?_eq (fun ref => by rw [hheap, entryAt?_takeOffset]) j
  · intro event hevent
    cases hevent
    exact .took hgoes.get hallocates
  · intro event hevent
    cases hevent
    rw [Event.offset]
    omega
  · intro j offset hevent
    cases hevent
    exact h.below

/-- A call has moved the counter past its offset. -/
theorem Sound.passes (h : c.Sound) (haims : c.Aims i deposit offset)
    (hlt : offset.toNat + 1 < UInt64.size)
    (hgoes : c.Goes i deposit caller t (.putting offset) (some (.passed i offset)) c')
    (hheap : c'.heap = c.heap.reserve (offset + 1)) : c'.Sound := by
  have hpassed : .passed i offset ∈ c'.log := by
    rw [hgoes.log]
    exact List.mem_cons_self
  have haims' := haims.mono hgoes.ext
  apply h.of_goes hgoes
  · exact .putting haims' hpassed
  · exact fun j _ => spares_of_entryAt?_eq (fun ref => by rw [hheap, entryAt?_reserve]) j
  · intro event hevent
    cases hevent
    exact .passed hgoes.get haims'
  · intro event hevent
    cases hevent
    rw [Event.offset, hheap, toNat_nextOffset_reserve, toNat_add_one hlt]
    omega
  · intro j offset hevent
    cases hevent

/-- A call has stored its entry. -/
theorem Sound.puts (h : c.Sound) (haims : c.Aims i deposit offset)
    (hpassed : .passed i offset ∈ c.log)
    (hgoes : c.Goes i deposit caller t (.leaving (.ok (deposit.entry.ref offset))) none c')
    (hheap : c'.heap = deposit.entry.put offset c.heap) : c'.Sound := by
  apply h.of_goes_none hgoes
  · apply Fits.leaving
    apply Ends.stored (haims.mono hgoes.ext) (hgoes.ext.log _ hpassed)
    rintro entry rfl
    left
    rw [hheap, entryAt?_put]
    exact if_pos rfl
  · -- Whoever stores an entry where another call has stored one has chosen the place.
    intro j hji entry offset' htook hthere
    by_cases hsame : deposit.entry.ref offset = entry.ref offset'
    · cases haims with
      | insert => exact .inr ⟨i, _, _, _, hgoes.get, rfl, hsame⟩
      | allocate htook' =>
        have hoffset := congrArg Ref.offset hsame
        rw [Entry.offset_ref, Entry.offset_ref] at hoffset
        subst hoffset
        exact absurd (h.took_inj htook htook') hji
    · left
      rw [hheap, entryAt?_put, if_neg hsame, hthere]

/-- What a call does next keeps the log, the counter and the heap in agreement. -/
theorem Sound.next {k' : Standing} {t' : Thread} (h : c.Sound)
    (hfits : c.Fits i deposit caller t k)
    (hnext : k.next deposit.entry (t, c.heap) = some (k', t', c'.heap))
    (hgoes : c.Goes i deposit caller t' k' (eventOf i c.heap k) c') : c'.Sound := by
  cases hfits with
  | taking hallocates =>
    simp only [Standing.next, Option.some.injEq, Prod.mk.injEq] at hnext
    obtain ⟨rfl, rfl, hheap⟩ := hnext
    exact h.takes hallocates hgoes hheap.symm
  | entering haims =>
    cases henter : caller.enter .heap with
    | ok t' =>
      simp only [Standing.next, henter, Option.some.injEq, Prod.mk.injEq] at hnext
      obtain ⟨rfl, rfl, hheap⟩ := hnext
      exact h.of_goes_same hgoes (.passing (haims.mono hgoes.ext)) hheap.symm
    | error fault =>
      simp only [Standing.next, henter, Option.some.injEq, Prod.mk.injEq] at hnext
      obtain ⟨rfl, rfl, hheap⟩ := hnext
      exact h.of_goes_same hgoes (.past (.refused henter)) hheap.symm
  | @passing _ offset haims =>
    cases hpast : nextAfter offset with
    | ok past =>
      simp only [Standing.next, hpast, Option.some.injEq, Prod.mk.injEq] at hnext
      simp only [eventOf, hpast] at hgoes
      obtain ⟨rfl, rfl, hheap⟩ := hnext
      obtain ⟨hlt, rfl⟩ := nextAfter_eq_ok_iff.1 hpast
      exact h.passes haims hlt hgoes hheap.symm
    | error fault =>
      simp only [Standing.next, hpast, Option.some.injEq, Prod.mk.injEq] at hnext
      simp only [eventOf, hpast] at hgoes
      obtain ⟨rfl, rfl, hheap⟩ := hnext
      apply h.of_goes_same hgoes (.leaving _) hheap.symm
      cases haims with
      | insert => exact .overflowed rfl hpast
      | allocate htook =>
        -- An offset that was handed out is never the last one.
        have hlt := hgoes.low i offset (hgoes.ext.log _ htook)
        cases hpast.symm.trans (nextAfter_eq_ok_iff.2 ⟨hlt, rfl⟩)
  | putting haims hpassed =>
    simp only [Standing.next, Option.some.injEq, Prod.mk.injEq] at hnext
    obtain ⟨rfl, rfl, hheap⟩ := hnext
    exact h.puts haims hpassed hgoes hheap.symm
  | leaving hends =>
    simp only [Standing.next, Option.some.injEq, Prod.mk.injEq] at hnext
    obtain ⟨rfl, rfl, hheap⟩ := hnext
    have hspares : c.Spares c' i := spares_of_entryAt?_eq (fun ref => by rw [← hheap]) i
    exact h.of_goes_same hgoes (.past (hends.mono hgoes.ext hspares)) hheap.symm
  | past hends => cases hnext

/-- A step of one of the calls, and how far it is before and after. -/
theorem Sound.exists_next {visit : Visit Deposit Heap Ref} (h : c.Sound)
    (hget : c.visits[i]? = some visit) (htouches : Touches i visit c.heap event?)
    (hstep : visit.Step c.heap visit' heap) :
    ∃ (k k' : Standing) (t' : Thread), c.Fits i visit.errand visit.caller visit.thread k ∧
      k.next visit.errand.entry (visit.thread, c.heap) = some (k', t', heap) ∧
      visit' = ⟨visit.errand, visit.caller, t', k'.rest visit.errand.entry⟩ ∧
      event? = eventOf i c.heap k := by
  obtain ⟨k, hrest, hfits⟩ := h.placed i visit hget
  obtain ⟨choice, hnext⟩ := hstep.exists_next?
  obtain ⟨deposit, caller, t, rest⟩ := visit
  obtain rfl : rest = k.rest deposit.entry := hrest
  rw [next?_rest] at hnext
  obtain ⟨⟨k', t', heap'⟩, hk, heq⟩ := Option.map_eq_some_iff.1 hnext
  cases heq
  exact ⟨k, k', t', hfits, hk, rfl, htouches.eq⟩

/-- What a step keeps, and that it does not move the counter back. -/
theorem Sound.step (h : c.Sound) (hstep : c.Step c') (hlow : c'.Low) :
    c'.Sound ∧ c.heap.nextOffset.toNat ≤ c'.heap.nextOffset.toNat := by
  have hext := hstep.extends
  cases hstep with
  | call deposit caller =>
    refine ⟨?_, Nat.le_refl _⟩
    constructor
    case placed =>
      intro i visit hget
      obtain ⟨rfl, rfl⟩ | ⟨-, hget⟩ := getElem?_concat_cases hget
      · cases deposit with
        | insert offset entry => exact ⟨.entering offset, rfl, .entering .insert⟩
        | allocate entry => exact ⟨.taking, rfl, .taking rfl⟩
      · obtain ⟨k, hrest, hfits⟩ := h.placed i visit hget
        exact ⟨k, hrest, hfits.mono hext fun _ _ _ hthere => .inl hthere⟩
    case owned => exact fun event hmem => (h.owned event hmem).mono hext
    case below => exact h.below
    case rising => exact h.rising
  | @go i visit visit' heap event? hget htouches hstep =>
    obtain ⟨k, k', t', hfits, hnext, rfl, rfl⟩ := h.exists_next hget htouches hstep
    have hcounter : c.heap.nextOffset.toNat ≤ heap.nextOffset.toNat := by
      apply nextOffset_le_of_next hnext
      rintro rfl
      exact hlow i _ List.mem_cons_self
    refine ⟨h.next hfits hnext ⟨rfl, ?_, rfl, hext, hcounter, hlow⟩, hcounter⟩
    exact List.getElem?_set_self (List.getElem?_eq_some_iff.1 hget).1

/-- What a run keeps, and that it does not move the counter back. -/
theorem Sound.run (h : c.Sound) (hrun : Relation.ReflTransGen Step c c') (hlow : c'.Low) :
    c'.Sound ∧ c.heap.nextOffset.toNat ≤ c'.heap.nextOffset.toNat := by
  induction hrun with
  | refl => exact ⟨h, Nat.le_refl _⟩
  | tail _ hstep ih =>
    obtain ⟨hsound, hle⟩ := ih (hlow.of_extends hstep.extends)
    obtain ⟨hsound', hle'⟩ := hsound.step hstep hlow
    exact ⟨hsound', Nat.le_trans hle hle'⟩

/-- Where no call was made there is nothing to agree on. -/
theorem sound_new (heap : Heap) : Sound ⟨heap, [], []⟩ where
  placed := nofun
  owned := nofun
  below := nofun
  rising := .nil

end Traffic

end MarkSweep
