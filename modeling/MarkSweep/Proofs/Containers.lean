import MarkSweep.Heap.Sweep
import Mathlib.Data.List.Nodup

namespace MarkSweep

/-- The values of a map, in the order of its keys. -/
theorem values_eq_map_toList {α β : Type} [Ord α] [Std.TransOrd α]
    (map : Std.ExtTreeMap α β compare) : map.values = map.toList.map (·.2) := by
  have hfold : map.values = map.foldr (fun _ value values => value :: values) [] := by
    obtain ⟨⟨inner⟩⟩ := map
    induction inner using Quotient.ind
    rfl
  rw [hfold, Std.ExtTreeMap.foldr_eq_foldr_toList]
  generalize map.toList = pairs
  induction pairs with
  | nil => rfl
  | cons pair pairs ih => rw [List.foldr_cons, ih, List.map_cons]

/-- The values of a map are what its keys are mapped to. -/
theorem mem_values_iff {α β : Type} [Ord α] [Std.TransOrd α] [Std.LawfulEqOrd α]
    (map : Std.ExtTreeMap α β compare) (value : β) :
    value ∈ map.values ↔ ∃ key : α, map[key]? = some value := by
  rw [values_eq_map_toList, List.mem_map]
  constructor
  · intro hmem
    obtain ⟨⟨key, _⟩, hpair, rfl⟩ := hmem
    exact ⟨key, Std.ExtTreeMap.mem_toList_iff_getElem?_eq_some.1 hpair⟩
  · intro hget
    obtain ⟨key, hget⟩ := hget
    exact ⟨(key, value), Std.ExtTreeMap.mem_toList_iff_getElem?_eq_some.2 hget, rfl⟩

namespace Container

variable {α : Type} {entries entries' : Container α} {isLive : Offset → Bool}
  {lost : List (Offset × α)}

/-- The entries of a container are all at different offsets. -/
theorem nodup_toList (entries : Container α) : entries.toList.Nodup := by
  refine Std.ExtTreeMap.distinct_keys_toList.imp ?_
  rintro entry other hne rfl
  exact hne Std.ReflCmp.compare_self

/-- Of the entries of a container those at live offsets have stayed as they are, and `lost` lists
the others, each of them once. -/
structure Restricted (entries : Container α) (isLive : Offset → Bool) (lost : List (Offset × α))
    (entries' : Container α) : Prop where
  kept : ∀ offset entry, entries'[offset]? = some entry ↔
    entries[offset]? = some entry ∧ isLive offset = true
  mem_lost : ∀ offset entry, (offset, entry) ∈ lost ↔
    entries[offset]? = some entry ∧ isLive offset = false
  once : lost.Nodup

/-- The dead entries of a container. -/
def dead (entries : Container α) (isLive : Offset → Bool) : List (Offset × α) :=
  (entries.filter fun offset _ => !isLive offset).toList

/-- What an erasure hands back are the entries that are dead. -/
theorem eraseDead_fst (entries : Container α) (isLive : Offset → Bool) :
    (eraseDead entries isLive).1 = (dead entries isLive).map (·.2) :=
  values_eq_map_toList _

/-- An erasure restricts a container to what is live. -/
theorem restricted_eraseDead (entries : Container α) (isLive : Offset → Bool) :
    Restricted entries isLive (dead entries isLive) (eraseDead entries isLive).2 where
  kept offset entry := by
    simp [eraseDead, Option.filter_eq_some_iff]
  mem_lost offset entry := by
    simp [dead, Std.ExtTreeMap.mem_toList_iff_getElem?_eq_some]
  once := nodup_toList _

/-- What stays was there before. -/
theorem Restricted.contains (hrestricted : Restricted entries isLive lost entries')
    {offset : Offset} (hcontains : entries'.contains offset = true) :
    entries.contains offset = true := by
  rw [← Std.ExtTreeMap.isSome_getElem?_eq_contains, Option.isSome_iff_exists] at hcontains ⊢
  obtain ⟨entry, hkept⟩ := hcontains
  exact ⟨entry, ((hrestricted.kept offset entry).1 hkept).1⟩

/-- An entry at a live offset stays, and one that was not there does not come. -/
theorem Restricted.getElem?_of_live (hrestricted : Restricted entries isLive lost entries')
    {offset : Offset} (hlive : isLive offset = true) : entries'[offset]? = entries[offset]? := by
  apply Option.ext
  intro entry
  simp [hrestricted.kept, hlive]

/-- Which entries are lost is determined. -/
theorem Restricted.perm_lost {lost' : List (Offset × α)} {entries'' : Container α}
    (hrestricted : Restricted entries isLive lost entries')
    (hother : Restricted entries isLive lost' entries'') : lost.Perm lost' := by
  apply (List.perm_ext_iff_of_nodup hrestricted.once hother.once).2
  rintro ⟨offset, entry⟩
  rw [hrestricted.mem_lost, hother.mem_lost]

/-- A container that holds live offsets only is restricted to itself. -/
theorem Restricted.again {lost' : List (Offset × α)} {entries'' : Container α}
    (hrestricted : Restricted entries isLive lost entries')
    (hagain : Restricted entries' isLive lost' entries'') : lost' = [] ∧ entries'' = entries' := by
  have hlive : ∀ offset entry, entries'[offset]? = some entry → isLive offset = true :=
    fun offset entry hget => ((hrestricted.kept offset entry).1 hget).2
  constructor
  · apply List.eq_nil_iff_forall_not_mem.2
    rintro ⟨offset, entry⟩ hmem
    obtain ⟨hget, hdead⟩ := (hagain.mem_lost offset entry).1 hmem
    rw [hlive offset entry hget] at hdead
    cases hdead
  · apply Std.ExtTreeMap.ext_getElem?
    intro offset
    apply Option.ext
    intro entry
    rw [hagain.kept]
    exact ⟨fun hget => hget.1, fun hget => ⟨hget, hlive offset entry hget⟩⟩

/-- Every entry either stays or is lost. -/
theorem Restricted.perm (hrestricted : Restricted entries isLive lost entries') :
    entries.toList.Perm (entries'.toList ++ lost) := by
  have hdisjoint : entries'.toList.Disjoint lost := by
    rintro ⟨offset, entry⟩ hkept hlost
    rw [Std.ExtTreeMap.mem_toList_iff_getElem?_eq_some, hrestricted.kept] at hkept
    rw [hrestricted.mem_lost, hkept.2] at hlost
    cases hlost.2
  apply (List.perm_ext_iff_of_nodup (nodup_toList entries)
    ((nodup_toList entries').append hrestricted.once hdisjoint)).2
  rintro ⟨offset, entry⟩
  rw [List.mem_append, Std.ExtTreeMap.mem_toList_iff_getElem?_eq_some,
    Std.ExtTreeMap.mem_toList_iff_getElem?_eq_some, hrestricted.kept, hrestricted.mem_lost]
  cases isLive offset <;> simp

/-- What stays and what is lost is all there was. -/
theorem Restricted.size_eq (hrestricted : Restricted entries isLive lost entries') :
    entries.size = entries'.size + lost.length := by
  have hlength := hrestricted.perm.length_eq
  simpa [Std.ExtTreeMap.length_toList] using hlength

/-- What is lost are the entries that have vanished. -/
theorem Restricted.mem_lost_iff_gone (hrestricted : Restricted entries isLive lost entries')
    (offset : Offset) (entry : α) :
    (offset, entry) ∈ lost ↔ entries[offset]? = some entry ∧ entries'[offset]? = none := by
  rw [hrestricted.mem_lost]
  refine and_congr_right fun hget => ?_
  rw [Option.eq_none_iff_forall_ne_some]
  constructor
  · intro hdead other hkept
    rw [((hrestricted.kept offset other).1 hkept).2] at hdead
    cases hdead
  · intro hgone
    cases hlive : isLive offset with
    | false => rfl
    | true => exact absurd ((hrestricted.kept offset entry).2 ⟨hget, hlive⟩) (hgone entry)

/-- Where all that is live is there, what stays is as many as are live. -/
theorem Restricted.size_live {live : Std.ExtTreeSet Offset}
    (hrestricted : Restricted entries live.contains lost entries')
    (hthere : ∀ offset, live.contains offset = true → entries.contains offset = true) :
    entries'.size = live.size := by
  have hnodup : live.toList.Nodup := by
    refine Std.ExtTreeSet.distinct_toList.imp ?_
    rintro offset other hne rfl
    exact hne Std.ReflCmp.compare_self
  have hperm : entries'.keys.Perm live.toList := by
    apply (List.perm_ext_iff_of_nodup Std.ExtTreeMap.nodup_keys hnodup).2
    intro offset
    rw [Std.ExtTreeMap.mem_keys, Std.ExtTreeSet.mem_toList, Std.ExtTreeMap.mem_iff_isSome_getElem?,
      Option.isSome_iff_exists]
    constructor
    · rintro ⟨entry, hkept⟩
      exact ((hrestricted.kept offset entry).1 hkept).2
    · intro hlive
      obtain ⟨entry, hget⟩ := Option.isSome_iff_exists.1
        (Std.ExtTreeMap.isSome_getElem?_eq_contains.trans (hthere offset hlive))
      exact ⟨entry, (hrestricted.kept offset entry).2 ⟨hget, hlive⟩⟩
  rw [← Std.ExtTreeMap.length_keys, hperm.length_eq, Std.ExtTreeSet.length_toList]

end Container

end MarkSweep
