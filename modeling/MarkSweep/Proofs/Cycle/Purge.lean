import MarkSweep.Proofs.Containers
import MarkSweep.Proofs.Cycle.Sweep

namespace MarkSweep.Heap

variable {heap heap' heap'' : Heap} {live : LiveSet} {region other : Region} {tally tally' : Tally}
  {stats stats' : SweepStats}

/-- One container is restricted to what is live: the objects and the arrays to the live offsets of
their own kind, the monitors to those of either kind. The tally counts the entries that are lost
and the elements of the arrays among them. -/
def Reduced (heap : Heap) (live : LiveSet) (tally : Tally) (heap' : Heap) : Region → Prop
  | .objects => ∃ lost,
      Container.Restricted heap.objects (fun offset => live.contains (.object offset)) lost
        heap'.objects ∧
      tally = ⟨lost.length, 0⟩
  | .arrays => ∃ lost,
      Container.Restricted heap.arrays (fun offset => live.contains (.array offset)) lost
        heap'.arrays ∧
      tally = ⟨lost.length, total (fun entry => entry.2.length) lost⟩
  | .monitors => ∃ lost,
      Container.Restricted heap.monitors
        (fun offset => live.contains (.object offset) || live.contains (.array offset)) lost
        heap'.monitors ∧
      tally = ⟨lost.length, 0⟩

/-- All three containers are restricted to what is live, and the counts are those of what is
lost. -/
structure Purged (heap : Heap) (live : LiveSet) (stats : SweepStats) (heap' : Heap) : Prop where
  objects : heap.Reduced live ⟨stats.objects, 0⟩ heap' .objects
  arrays : heap.Reduced live ⟨stats.arrays, stats.elements⟩ heap' .arrays
  monitors : heap.Reduced live ⟨stats.monitors, 0⟩ heap' .monitors
  nextOffset : heap'.nextOffset = heap.nextOffset

/-- Each container is as it was, or restricted to what is live. -/
structure Midway (heap : Heap) (live : LiveSet) (heap' : Heap) : Prop where
  regions : ∀ region, heap.Shares heap' region ∨ ∃ tally, heap.Reduced live tally heap' region
  nextOffset : heap'.nextOffset = heap.nextOffset

/-- Heaps with the same entries in every container. -/
theorem eq_of_shares (hshares : ∀ region, heap.Shares heap' region)
    (hoffset : heap'.nextOffset = heap.nextOffset) : heap' = heap := by
  obtain ⟨objects, arrays, monitors, nextOffset⟩ := heap'
  have hobjects : objects = heap.objects := hshares .objects
  have harrays : arrays = heap.arrays := hshares .arrays
  have hmonitors : monitors = heap.monitors := hshares .monitors
  subst hobjects harrays hmonitors hoffset
  rfl

/-- Other containers do not matter. -/
theorem Reduced.of_shares (hreduced : heap.Reduced live tally heap' region)
    (hshares : heap'.Shares heap'' region) : heap.Reduced live tally heap'' region := by
  cases region with
  | objects =>
    have hobjects : heap''.objects = heap'.objects := hshares
    simpa only [Reduced, hobjects] using hreduced
  | arrays =>
    have harrays : heap''.arrays = heap'.arrays := hshares
    simpa only [Reduced, harrays] using hreduced
  | monitors =>
    have hmonitors : heap''.monitors = heap'.monitors := hshares
    simpa only [Reduced, hmonitors] using hreduced

/-- An erasure restricts the container that it is about. -/
theorem reduced_erase (heap : Heap) (live : LiveSet) (region : Region) :
    heap.Reduced live (heap.erase live region).1 (heap.erase live region).2 region := by
  cases region with
  | objects =>
    refine ⟨_, Container.restricted_eraseDead heap.objects (keeps live .objects), ?_⟩
    simp [erase, Container.eraseDead_fst]
  | arrays =>
    refine ⟨_, Container.restricted_eraseDead heap.arrays (keeps live .arrays), ?_⟩
    -- The elements that are given up are counted, and not the cells behind them.
    simp only [erase, Container.eraseDead_fst, total_map, ArrayEntry.released_eq_length,
      List.length_map]
  | monitors =>
    refine ⟨_, Container.restricted_eraseDead heap.monitors (keeps live .monitors), ?_⟩
    simp [erase, Container.eraseDead_fst]

/-- A container that is restricted to what is live loses nothing more. -/
theorem Reduced.again (hreduced : heap.Reduced live tally heap' region)
    (hagain : heap'.Reduced live tally' heap'' region) :
    tally' = ⟨0, 0⟩ ∧ heap'.Shares heap'' region := by
  cases region <;>
  · obtain ⟨lost, hrestricted, -⟩ := hreduced
    obtain ⟨lost', hrestricted', rfl⟩ := hagain
    obtain ⟨rfl, hsame⟩ := hrestricted.again hrestricted'
    exact ⟨rfl, hsame⟩

/-- The tally is determined. -/
theorem Reduced.unique (hreduced : heap.Reduced live tally heap' region)
    (hother : heap.Reduced live tally' heap'' region) : tally = tally' := by
  cases region with
  | objects | monitors =>
    obtain ⟨lost, hrestricted, rfl⟩ := hreduced
    obtain ⟨lost', hrestricted', rfl⟩ := hother
    rw [(hrestricted.perm_lost hrestricted').length_eq]
  | arrays =>
    obtain ⟨lost, hrestricted, rfl⟩ := hreduced
    obtain ⟨lost', hrestricted', rfl⟩ := hother
    have hperm := hrestricted.perm_lost hrestricted'
    rw [hperm.length_eq, total_of_perm _ hperm]

/-- A heap that is retained has lost what is not live, and nothing else. -/
theorem purged_retain (heap : Heap) (live : LiveSet) :
    heap.Purged live (heap.deadStats live) (heap.retain live) where
  objects := reduced_erase heap live .objects
  arrays := reduced_erase heap live .arrays
  monitors := reduced_erase heap live .monitors
  nextOffset := rfl

/-- The counts of a purge are determined. -/
theorem Purged.stats_eq (hpurged : heap.Purged live stats heap') : stats = heap.deadStats live := by
  have hretain := purged_retain heap live
  obtain ⟨objects, arrays, elements, monitors⟩ := stats
  cases hpurged.objects.unique hretain.objects
  cases hpurged.arrays.unique hretain.arrays
  cases hpurged.monitors.unique hretain.monitors
  rfl

/-- A purge restricts each of the containers. -/
theorem Purged.reduced (hpurged : heap.Purged live stats heap') (region : Region) :
    ∃ tally, heap.Reduced live tally heap' region := by
  cases region with
  | objects => exact ⟨_, hpurged.objects⟩
  | arrays => exact ⟨_, hpurged.arrays⟩
  | monitors => exact ⟨_, hpurged.monitors⟩

/-- To purge a heap again by what is live makes no difference. -/
theorem Purged.again (hpurged : heap.Purged live stats heap')
    (hagain : heap'.Purged live stats' heap'') : stats' = ⟨0, 0, 0, 0⟩ := by
  obtain ⟨objects, arrays, elements, monitors⟩ := stats'
  cases (hpurged.objects.again hagain.objects).1
  cases (hpurged.arrays.again hagain.arrays).1
  cases (hpurged.monitors.again hagain.monitors).1
  rfl

theorem Midway.refl (heap : Heap) (live : LiveSet) : heap.Midway live heap :=
  ⟨fun region => .inl (.refl heap region), rfl⟩

/-- A sweep of one container, begun at any time, leaves each container as it was or restricted. -/
theorem Midway.erase (hmidway : heap.Midway live heap') (region : Region) :
    heap.Midway live (heap'.erase live region).2 := by
  refine ⟨fun other => ?_, (nextOffset_erase _ _ _).trans hmidway.nextOffset⟩
  by_cases hsame : region = other
  · subst hsame
    right
    obtain hshares | ⟨tally, hreduced⟩ := hmidway.regions region
    · exact ⟨_, (reduced_erase heap live region).of_shares (hshares.erase live).2⟩
    · have hagain := hreduced.again (reduced_erase heap' live region)
      exact ⟨tally, hreduced.of_shares hagain.2⟩
  · obtain hshares | ⟨tally, hreduced⟩ := hmidway.regions other
    · exact .inl (hshares.erase_of_ne hsame live)
    · have hshares := (Shares.refl heap' other).erase_of_ne hsame live
      exact .inr ⟨tally, hreduced.of_shares hshares⟩

/-- A heap that was purged stays as it is. -/
theorem Purged.eq_of_midway (hpurged : heap.Purged live stats heap')
    (hmidway : heap'.Midway live heap'') : heap'' = heap' := by
  refine eq_of_shares (fun region => ?_) hmidway.nextOffset
  obtain hshares | ⟨tally, hreduced⟩ := hmidway.regions region
  · exact hshares
  · obtain ⟨_, hbefore⟩ := hpurged.reduced region
    exact (hbefore.again hreduced).2

/-- What is live is there with what it holds, unless it was not there before. -/
structure Preserved (heap : Heap) (live : LiveSet) (heap' : Heap) : Prop where
  objects : ∀ offset, live.contains (.object offset) = true →
    heap'.objects[offset]? = heap.objects[offset]?
  arrays : ∀ offset, live.contains (.array offset) = true →
    heap'.arrays[offset]? = heap.arrays[offset]?
  monitors : ∀ offset,
    live.contains (.object offset) = true ∨ live.contains (.array offset) = true →
      heap'.monitors[offset]? = heap.monitors[offset]?

theorem Preserved.refl (heap : Heap) (live : LiveSet) : heap.Preserved live heap :=
  ⟨fun _ _ => rfl, fun _ _ => rfl, fun _ _ => rfl⟩

theorem Preserved.trans (hpreserved : heap.Preserved live heap')
    (hthen : heap'.Preserved live heap'') : heap.Preserved live heap'' where
  objects offset hlive := (hthen.objects offset hlive).trans (hpreserved.objects offset hlive)
  arrays offset hlive := (hthen.arrays offset hlive).trans (hpreserved.arrays offset hlive)
  monitors offset hlive := (hthen.monitors offset hlive).trans (hpreserved.monitors offset hlive)

/-- A sweep preserves what is live at every moment. -/
theorem Midway.preserved (hmidway : heap.Midway live heap') : heap.Preserved live heap' where
  objects offset hlive := by
    obtain hshares | ⟨_, lost, hrestricted, -⟩ := hmidway.regions .objects
    · exact congrArg (fun objects : Container ObjectEntry => objects[offset]?) hshares
    · exact hrestricted.getElem?_of_live hlive
  arrays offset hlive := by
    obtain hshares | ⟨_, lost, hrestricted, -⟩ := hmidway.regions .arrays
    · exact congrArg (fun arrays : Container ArrayEntry => arrays[offset]?) hshares
    · exact hrestricted.getElem?_of_live hlive
  monitors offset hlive := by
    obtain hshares | ⟨_, lost, hrestricted, -⟩ := hmidway.regions .monitors
    · exact congrArg (fun monitors : Container Monitor => monitors[offset]?) hshares
    · apply hrestricted.getElem?_of_live
      simpa using hlive

/-- To sweep one container takes nothing that is live. -/
theorem Preserved.erase (hpreserved : heap.Preserved live heap') (region : Region) :
    heap.Preserved live (heap'.erase live region).2 :=
  hpreserved.trans ((Midway.refl heap' live).erase region).preserved

end MarkSweep.Heap
