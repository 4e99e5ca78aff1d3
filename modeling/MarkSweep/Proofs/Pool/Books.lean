import MarkSweep.Proofs.Pool.Deals

namespace MarkSweep

variable {ρ : Type}

/-- The messages of the members of a group that have faulted, the earliest first. -/
def messages (id : GroupId) (ended : List (Audience × Outcome ρ)) : List String :=
  ended.filterMap fun
    | (audience, .fault payload) => if audience = .group id then some payload.message else none
    | (_, .value _) => none

/-- A group of which no member has ended has no messages. -/
theorem messages_eq_nil {id : GroupId} {ended : List (Audience × Outcome ρ)}
    (hnone : .group id ∉ ended.map (·.1)) : messages id ended = [] := by
  refine List.filterMap_eq_nil_iff.2 fun (audience, outcome) hmem => ?_
  cases outcome with
  | value result => rfl
  | fault payload =>
    refine if_neg fun heq => hnone ?_
    exact List.mem_map.2 ⟨_, hmem, heq⟩

/-- A board, and how many tasks answer to whom. -/
structure Books (ρ : Type) where
  board : Board ρ
  /-- Tasks that calls are about to queue or to drop. -/
  claims : Audience → Nat
  /-- Tasks that are queued or running. -/
  seats : Audience → Nat
  accepted : Audience → Nat
  /-- The tasks that have ended, the earliest first. -/
  ended : List (Audience × Outcome ρ)

namespace Books

/-- How many tasks of an audience have ended. -/
def endings (books : Books ρ) (audience : Audience) : Nat :=
  (books.ended.map (·.1)).count audience

/-- What a handle knows is true. -/
inductive Tells (books : Books ρ) (id : HandleId) : Delivery ρ → Prop
  | awaited (hplace : books.claims (.handle id) + books.seats (.handle id) = 1) :
      Tells books id .awaited
  | delivered {outcome : Outcome ρ}
      (hnone : books.claims (.handle id) + books.seats (.handle id) = 0)
      (hended : (.handle id, outcome) ∈ books.ended) : Tells books id (.delivered outcome)
  | lost (hnone : books.claims (.handle id) + books.seats (.handle id) = 0)
      (hunended : books.endings (.handle id) = 0) : Tells books id .lost

/-- A handle has one task, and knows what became of it. -/
structure Handle (books : Books ρ) (id : HandleId) : Prop where
  once : books.claims (.handle id) + books.accepted (.handle id) ≤ 1
  kept : books.seats (.handle id) + books.endings (.handle id) ≤ books.accepted (.handle id)
  unmade : books.board.nextHandle ≤ id →
    books.claims (.handle id) + books.accepted (.handle id) = 0 ∧ books.board.handles[id]? = none
  told : ∀ delivery, books.board.handles[id]? = some delivery → books.Tells id delivery

/-- A group counts its members. -/
structure Members (books : Books ρ) (id : GroupId) : Prop where
  kept : books.seats (.group id) ≤ books.accepted (.group id)
  unmade : books.board.nextGroup ≤ id → books.accepted (.group id) = 0 ∧
    books.endings (.group id) = 0 ∧ books.board.groups[id]? = none
  counted : ∀ group, books.board.groups[id]? = some group →
    group.spawned = books.accepted (.group id) ∧ group.pending = books.seats (.group id) ∧
      group.faults = messages id books.ended

/-- The board agrees with the books. -/
structure Sound (books : Books ρ) : Prop where
  handle : ∀ id, books.Handle id
  members : ∀ id, books.Members id

/-- What a change makes of the books. -/
structure Turn (change : Change ρ) (books books' : Books ρ) : Prop where
  deal : books.board.Deal change books'.board
  claims : ∀ audience, books'.claims audience + change.ceded.count audience =
    books.claims audience + change.claimed.count audience
  ceded : ∀ audience, change.ceded.count audience ≤ books.claims audience
  seats : ∀ audience, books'.seats audience + change.left.count audience =
    books.seats audience + change.entered.count audience
  left : ∀ audience, change.left.count audience ≤ books.seats audience
  accepted : ∀ audience, books'.accepted audience =
    books.accepted audience + change.accepted.count audience
  ended : books'.ended = books.ended ++ change.ended

end Books

namespace Board

variable {board : Board ρ} {id : Nat}

theorem nextHandle_hear (board : Board ρ) (audience : Audience) (outcome : Outcome ρ) :
    (board.hear audience outcome).nextHandle = board.nextHandle := by
  cases audience <;> cases outcome <;> rfl

/-- A handle hears of its own task only. -/
theorem handles_hear_of_ne {audience : Audience} {outcome : Outcome ρ}
    (hne : audience ≠ .handle id) :
    (board.hear audience outcome).handles[id]? = board.handles[id]? := by
  cases audience with
  | nobody => rfl
  | handle other =>
    rw [hear, getElem?_tell, if_neg fun heq => hne (congrArg _ heq)]
  | group other => cases outcome <;> rfl

/-- A group hears of its own members only. -/
theorem groups_hear_of_ne {audience : Audience} {outcome : Outcome ρ}
    (hne : audience ≠ .group id) :
    (board.hear audience outcome).groups[id]? = board.groups[id]? := by
  cases audience with
  | nobody | handle other => rfl
  | group other =>
    cases outcome with
    | value result => rfl
    | fault payload =>
      rw [hear, recordFault, getElem?_onGroup, if_neg fun heq => hne (congrArg _ heq)]

/-- What a board shows after a task was dropped. -/
theorem dismiss_eq (board : Board ρ) (audience : Audience) :
    (∀ id, (board.dismiss audience).handles[id]? =
      if audience = .handle id then board.handles[id]?.map fun _ => .lost
      else board.handles[id]?) ∧
    (∀ id, (board.dismiss audience).groups[id]? =
      if audience = .group id then
        board.groups[id]?.map fun group => { group with pending := group.pending - 1 }
      else board.groups[id]?) ∧
    (board.dismiss audience).nextHandle = board.nextHandle ∧
      (board.dismiss audience).nextGroup = board.nextGroup := by
  cases audience with
  | nobody => exact ⟨fun _ => (if_neg nofun).symm, fun _ => (if_neg nofun).symm, rfl, rfl⟩
  | handle id =>
    refine ⟨fun other => ?_, fun _ => (if_neg nofun).symm, rfl, rfl⟩
    simp only [dismiss, getElem?_tell, Audience.handle.injEq]
    split
    · next heq => rw [heq]
    · rfl
  | group id =>
    refine ⟨fun _ => (if_neg nofun).symm, fun other => ?_, rfl, rfl⟩
    simp only [dismiss, leaveGroup, getElem?_onGroup, Audience.group.injEq]
    split
    · next heq => rw [heq]
    · rfl

/-- The handles of dropped tasks are told so, and dropped members give up their places. -/
theorem foldl_dismiss_eq (dropped : List Audience) (board : Board ρ) :
    (∀ id : HandleId, (dropped.foldl dismiss board).handles[id]? =
      if .handle id ∈ dropped then board.handles[id]?.map fun _ => .lost
      else board.handles[id]?) ∧
    (∀ id : GroupId, (dropped.foldl dismiss board).groups[id]? =
      board.groups[id]?.map fun group : Group =>
        { group with pending := group.pending - dropped.count (.group id) }) ∧
    (dropped.foldl dismiss board).nextHandle = board.nextHandle ∧
      (dropped.foldl dismiss board).nextGroup = board.nextGroup := by
  induction dropped generalizing board with
  | nil => simp
  | cons audience dropped ih =>
    obtain ⟨hhandles, hgroups, hnextHandle, hnextGroup⟩ := ih (board.dismiss audience)
    obtain ⟨hhandles', hgroups', hnextHandle', hnextGroup'⟩ := board.dismiss_eq audience
    rw [List.foldl_cons]
    refine ⟨fun id => ?_, fun id => ?_, hnextHandle.trans hnextHandle',
      hnextGroup.trans hnextGroup'⟩
    · rw [hhandles, hhandles']
      by_cases haudience : audience = .handle id <;> by_cases hmem : .handle id ∈ dropped <;>
        simp [haudience, hmem, eq_comm (a := Audience.handle id), Function.comp_def]
    · rw [hgroups, hgroups', List.count_cons]
      by_cases haudience : audience = .group id
      · simp [haudience, Nat.sub_sub, Nat.add_comm, Function.comp_def]
      · simp [haudience]

/-- What happens to the task of a handle in a deal after which the handle knows `delivery`. -/
inductive Heard (board : Board ρ) (change : Change ρ) (board' : Board ρ) (id : HandleId) :
    Delivery ρ → Prop
  /-- The handle has known it before, and its task is still where it was or in the queue now. -/
  | kept {delivery : Delivery ρ} (hget : board.handles[id]? = some delivery)
      (hplace : change.claimed.count (.handle id) + change.entered.count (.handle id) =
        change.ceded.count (.handle id) + change.left.count (.handle id))
      (hunended : (change.ended.map (·.1)).count (.handle id) = 0) :
      Heard board change board' id delivery
  | made (hnew : board.nextHandle = id) (hnext : id < board'.nextHandle)
      (hplace : change.claimed.count (.handle id) + change.entered.count (.handle id) = 1) :
      Heard board change board' id .awaited
  | delivered {outcome : Outcome ρ} (hleft : 0 < change.left.count (.handle id))
      (hgone : change.claimed.count (.handle id) + change.entered.count (.handle id) = 0)
      (hended : (.handle id, outcome) ∈ change.ended) :
      Heard board change board' id (.delivered outcome)
  | lost (hplace : (board.nextHandle = id ∧ id < board'.nextHandle) ∨
        0 < change.ceded.count (.handle id) + change.left.count (.handle id))
      (hgone : change.claimed.count (.handle id) + change.entered.count (.handle id) = 0)
      (hunended : (change.ended.map (·.1)).count (.handle id) = 0) :
      Heard board change board' id .lost

/-- What happens to the members of a group in a deal after which the board has it as given. -/
inductive Counted (board : Board ρ) (change : Change ρ) (board' : Board ρ) (id : GroupId) :
    Group → Prop
  | kept {group group' : Group} (hget : board.groups[id]? = some group)
      (hspawned : group'.spawned = group.spawned + change.accepted.count (.group id))
      (hpending : group'.pending =
        group.pending + change.entered.count (.group id) - change.left.count (.group id))
      (hfaults : group'.faults = group.faults ++ messages id change.ended) :
      Counted board change board' id group'
  | made (hnew : board.nextGroup = id) (hnext : id < board'.nextGroup) (hchange : change = {}) :
      Counted board change board' id {}

/-- Nothing happens to the members of a group. -/
theorem Counted.same {board' : Board ρ} {change : Change ρ} {id : GroupId} {group : Group}
    (hget : board.groups[id]? = some group) (haccepted : change.accepted.count (.group id) = 0)
    (hplace : change.entered.count (.group id) = change.left.count (.group id))
    (hsilent : messages id change.ended = []) : Counted board change board' id group := by
  refine .kept hget ?_ ?_ ?_
  · rw [haccepted, Nat.add_zero]
  · rw [hplace, Nat.add_sub_cancel]
  · rw [hsilent, List.append_nil]

section Deal

variable {board' : Board ρ} {change : Change ρ} (hdeal : board.Deal change board')

include hdeal

/-- A handle knows after a deal what it has known before, or what has happened to its task. -/
theorem Deal.heard {id : HandleId} {delivery : Delivery ρ}
    (hget : board'.handles[id]? = some delivery) : board.Heard change board' id delivery := by
  cases hdeal with
  | still => exact .kept hget rfl rfl
  | @accept audience hanonymous =>
    have hne := hanonymous id
    have hsame : (board.enlist audience).handles = board.handles := by cases audience <;> rfl
    rw [hsame] at hget
    exact .kept hget (by simp [hne]) rfl
  | claim | submit =>
    rw [getElem?_openHandle] at hget
    split at hget
    · next hnew =>
      cases hget
      exact .made hnew (hnew ▸ Nat.lt_succ_self _) (by simp [hnew])
    · next hne => exact .kept hget (by simp [hne]) rfl
  | enroll other => exact .kept hget (by simp) rfl
  | disown other =>
    rw [getElem?_tell] at hget
    split at hget
    · next heq =>
      subst heq
      obtain ⟨_, -, rfl⟩ := Option.map_eq_some_iff.1 hget
      exact .lost (.inr (by simp)) rfl rfl
    · next hne => exact .kept hget (by simp [hne]) rfl
  | spurn =>
    rw [getElem?_tell] at hget
    split at hget
    · next hnew =>
      obtain ⟨_, -, rfl⟩ := Option.map_eq_some_iff.1 hget
      exact .lost (.inl ⟨hnew, hnew ▸ Nat.lt_succ_self _⟩) rfl rfl
    · next hne =>
      rw [getElem?_openHandle, if_neg hne] at hget
      exact .kept hget rfl rfl
  | finish audience outcome =>
    by_cases haudience : audience = .handle id
    · subst haudience
      simp only [hear, getElem?_tell, if_true] at hget
      obtain ⟨_, -, rfl⟩ := Option.map_eq_some_iff.1 hget
      exact .delivered (by simp) rfl (List.mem_singleton_self _)
    · rw [handles_hear_of_ne haudience] at hget
      have hplaces : (audience.places.map Audience.group).count (.handle id) = 0 := by
        cases audience <;> rfl
      exact .kept hget (by simp [hplaces, haudience]) (by simp [haudience])
  | leave group => exact .kept hget (by simp) rfl
  | drop dropped fallen =>
    have hunended :
        ((fallen.toList.map (Audience.nobody, ·)).map (·.1)).count (.handle id) = 0 := by
      cases fallen <;> rfl
    have hfallen : (fallen.toList.map fun _ => Audience.nobody).count (.handle id) = 0 := by
      cases fallen <;> rfl
    rw [(foldl_dismiss_eq dropped board).1] at hget
    split at hget
    · next hmem =>
      obtain ⟨_, -, rfl⟩ := Option.map_eq_some_iff.1 hget
      have hpos := List.count_pos_iff.2 hmem
      exact .lost (.inr (by simp only [List.count_append]; omega)) rfl hunended
    · next hmem =>
      have hzero := List.count_eq_zero_of_not_mem hmem
      refine .kept hget ?_ hunended
      simp only [List.count_append, hfallen, hzero, List.count_nil]
  | openGroup => exact .kept hget rfl rfl
  | dropHandle other =>
    rw [getElem?_dropHandle] at hget
    split at hget
    · cases hget
    · exact .kept hget rfl rfl
  | dropGroup other => exact .kept hget rfl rfl

/-- Numbers of handles and groups are never used again. -/
theorem Deal.next_le :
    board.nextHandle ≤ board'.nextHandle ∧ board.nextGroup ≤ board'.nextGroup := by
  cases hdeal with
  | accept => rename_i audience _ _; cases audience <;> exact ⟨Nat.le_refl _, Nat.le_refl _⟩
  | claim | submit | spurn => exact ⟨Nat.le_succ _, Nat.le_refl _⟩
  | finish audience outcome =>
    cases audience <;> cases outcome <;> exact ⟨Nat.le_refl _, Nat.le_refl _⟩
  | drop dropped =>
    obtain ⟨-, -, hhandle, hgroup⟩ := foldl_dismiss_eq dropped board
    exact ⟨Nat.le_of_eq hhandle.symm, Nat.le_of_eq hgroup.symm⟩
  | openGroup => exact ⟨Nat.le_refl _, Nat.le_succ _⟩
  | _ => exact ⟨Nat.le_refl _, Nat.le_refl _⟩

/-- A task is accepted for a handle only if a call was about to queue it or the handle is new, and
it ends only where it was. -/
theorem Deal.handle_le (id : HandleId) :
    (change.claimed.count (.handle id) + change.accepted.count (.handle id) ≤
        change.ceded.count (.handle id) ∨
      (board.nextHandle = id ∧ id < board'.nextHandle) ∧
        change.claimed.count (.handle id) + change.accepted.count (.handle id) ≤ 1) ∧
    change.entered.count (.handle id) + (change.ended.map (·.1)).count (.handle id) ≤
      change.left.count (.handle id) + change.accepted.count (.handle id) := by
  cases hdeal with
  | @accept audience hanonymous => simp [hanonymous id]
  | claim | submit =>
    by_cases hnew : board.nextHandle = id
    · simp [hnew, openHandle]
    · simp [hnew]
  | enroll other => simp
  | finish audience outcome => cases audience <;> simp [Audience.places]
  | drop dropped fallen => cases fallen <;> simp
  | _ => simp

/-- Members are accepted only into groups that are there and stay there, and end only where they
were. -/
theorem Deal.group_le (id : GroupId) :
    (0 < change.accepted.count (.group id) →
      (board.groups[id]?).isSome = true ∧ (board'.groups[id]?).isSome = true) ∧
    (change.ended.map (·.1)).count (.group id) ≤ change.left.count (.group id) ∧
    change.entered.count (.group id) ≤
      change.left.count (.group id) + change.accepted.count (.group id) := by
  cases hdeal with
  | @accept audience _ hhas =>
    refine ⟨fun hpos => ?_, by simp, by simp⟩
    obtain rfl := List.mem_singleton.1 (List.count_pos_iff.1 hpos)
    have hsome := hhas id rfl
    simp only [enlist, joinGroup, getElem?_onGroup, if_true, Option.isSome_map]
    exact ⟨hsome, hsome⟩
  | finish audience outcome => cases audience <;> simp [Audience.places]
  | drop dropped fallen => cases fallen <;> simp
  | _ => simp

/-- A group counts what a deal does to its members, unless the deal makes it. -/
theorem Deal.counted {id : GroupId} {group' : Group} (hget : board'.groups[id]? = some group') :
    board.Counted change board' id group' := by
  cases hdeal with
  | @accept audience =>
    by_cases haudience : audience = .group id
    · subst haudience
      simp only [enlist, joinGroup, getElem?_onGroup, if_true] at hget
      obtain ⟨group, hgroup, rfl⟩ := Option.map_eq_some_iff.1 hget
      exact .kept hgroup (by simp) (by simp) (List.append_nil _).symm
    · refine .same ?_ (by simp [haudience]) (by simp [haudience]) rfl
      cases audience with
      | group other =>
        rwa [enlist, joinGroup, getElem?_onGroup, if_neg fun heq => haudience (congrArg _ heq)]
          at hget
      | _ => exact hget
  | finish audience outcome =>
    by_cases haudience : audience = .group id
    · subst haudience
      cases outcome with
      | value result => exact .same hget rfl rfl rfl
      | fault payload =>
        simp only [hear, recordFault, getElem?_onGroup, if_true] at hget
        obtain ⟨group, hgroup, rfl⟩ := Option.map_eq_some_iff.1 hget
        exact .kept hgroup rfl (by simp [Audience.places]) (by simp [messages])
    · rw [groups_hear_of_ne haudience] at hget
      refine .same hget rfl ?_ (messages_eq_nil (by simpa using Ne.symm haudience))
      cases audience <;> simp [Audience.places]
  | leave other =>
    by_cases hid : other = id
    · subst hid
      simp only [leaveGroup, getElem?_onGroup, if_true] at hget
      obtain ⟨group, hgroup, rfl⟩ := Option.map_eq_some_iff.1 hget
      exact .kept hgroup rfl (by simp) (List.append_nil _).symm
    · rw [leaveGroup, getElem?_onGroup, if_neg hid] at hget
      exact .same hget rfl (by simp [hid]) rfl
  | drop dropped fallen =>
    rw [(foldl_dismiss_eq dropped board).2.1] at hget
    obtain ⟨group, hgroup, rfl⟩ := Option.map_eq_some_iff.1 hget
    refine .kept hgroup rfl ?_ ?_
    · cases fallen <;> simp
    · rw [messages_eq_nil (by cases fallen <;> simp), List.append_nil]
  | openGroup =>
    rw [getElem?_openGroup] at hget
    split at hget
    · next hnew =>
      cases hget
      exact .made hnew (hnew ▸ Nat.lt_succ_self _) rfl
    · exact .same hget rfl rfl rfl
  | dropGroup other =>
    rw [getElem?_dropGroup] at hget
    split at hget
    · cases hget
    · exact .same hget rfl rfl rfl
  | _ => exact .same hget (by simp) (by simp) rfl

end Deal

end Board

namespace Books

variable {books books' : Books ρ} {change : Change ρ}

/-- The tasks that have ended are those before and those that end now. -/
theorem Turn.endings (hturn : Turn change books books') (audience : Audience) :
    books'.endings audience =
      books.endings audience + (change.ended.map (·.1)).count audience := by
  rw [Books.endings, Books.endings, hturn.ended, List.map_append, List.count_append]

/-- Messages are kept in the order in which tasks end. -/
theorem Turn.messages (hturn : Turn change books books') (id : GroupId) :
    messages id books'.ended = messages id books.ended ++ messages id change.ended := by
  rw [hturn.ended, MarkSweep.messages, List.filterMap_append]
  rfl

/-- A handle is awaited as long as its task is somewhere. -/
theorem Turn.handle (hturn : Turn change books books') {id : HandleId} (h : books.Handle id) :
    books'.Handle id := by
  have hclaims := hturn.claims (.handle id)
  have hceded := hturn.ceded (.handle id)
  have hseats := hturn.seats (.handle id)
  have hleft := hturn.left (.handle id)
  have haccepted := hturn.accepted (.handle id)
  have hendings := hturn.endings (.handle id)
  have honce := h.once
  have hkept := h.kept
  obtain ⟨hqueued, hends⟩ := hturn.deal.handle_le id
  have hfresh : books.board.nextHandle = id →
      books.claims (.handle id) + books.accepted (.handle id) = 0 :=
    fun hnew => (h.unmade (Nat.le_of_eq hnew)).1
  refine ⟨?once, by omega, fun hle => ?unmade, fun delivery hdelivery => ?told⟩
  case once =>
    obtain hqueued | ⟨⟨hnew, -⟩, hqueued⟩ := hqueued
    · omega
    · have hzero := hfresh hnew
      omega
  case unmade =>
    obtain ⟨hzero, hnone⟩ := h.unmade (hturn.deal.next_le.1.trans hle)
    refine ⟨?_, Option.eq_none_iff_forall_ne_some.2 fun delivery hdelivery => ?_⟩
    · obtain hqueued | ⟨⟨-, hlt⟩, -⟩ := hqueued
      · omega
      · exact absurd hlt (Nat.not_lt.2 hle)
    · cases hturn.deal.heard hdelivery with
      | kept hget => cases hnone.symm.trans hget
      | made _ hlt => exact absurd hlt (Nat.not_lt.2 hle)
      | delivered => omega
      | lost hplace =>
        obtain ⟨-, hlt⟩ | hpos := hplace
        · exact absurd hlt (Nat.not_lt.2 hle)
        · omega
  case told =>
    cases hturn.deal.heard hdelivery with
    | kept hget hplace hunended =>
      cases h.told delivery hget with
      | awaited hone => exact .awaited (by omega)
      | delivered hnone hmem =>
        refine .delivered (by omega) ?_
        rw [hturn.ended]
        exact List.mem_append_left _ hmem
      | lost hnone hzero => exact .lost (by omega) (by omega)
    | made hnew _ hplace =>
      have hzero := hfresh hnew
      exact .awaited (by omega)
    | delivered hgone hnone hmem =>
      refine .delivered (by omega) ?_
      rw [hturn.ended]
      exact List.mem_append_right _ hmem
    | lost hplace hgone hunended =>
      obtain ⟨hnew, -⟩ | hpos := hplace
      · have hzero := hfresh hnew
        exact .lost (by omega) (by omega)
      · exact .lost (by omega) (by omega)

/-- A group counts down its members. -/
theorem Turn.members (hturn : Turn change books books') {id : GroupId} (h : books.Members id) :
    books'.Members id := by
  have hseats := hturn.seats (.group id)
  have hleft := hturn.left (.group id)
  have haccepted := hturn.accepted (.group id)
  have hendings := hturn.endings (.group id)
  have hkept := h.kept
  obtain ⟨hhas, hended, hentered⟩ := hturn.deal.group_le id
  refine ⟨by omega, fun hle => ?_, fun group' hgroup' => ?_⟩
  · obtain ⟨hzero, hunended, hnone⟩ := h.unmade (hturn.deal.next_le.2.trans hle)
    have hrefused : change.accepted.count (.group id) = 0 := by
      refine Nat.eq_zero_of_not_pos fun hpos => ?_
      have hsome := (hhas hpos).1
      rw [hnone] at hsome
      cases hsome
    refine ⟨by omega, by omega, Option.eq_none_iff_forall_ne_some.2 fun group' hgroup' => ?_⟩
    cases hturn.deal.counted hgroup' with
    | kept hgroup => cases hnone.symm.trans hgroup
    | made _ hlt => exact absurd hlt (Nat.not_lt.2 hle)
  · have hmessages := hturn.messages id
    cases hturn.deal.counted hgroup' with
    | kept hgroup hspawned' hpending' hfaults' =>
      obtain ⟨hspawned, hpending, hfaults⟩ := h.counted _ hgroup
      refine ⟨by omega, by omega, ?_⟩
      rw [hfaults', hfaults, hmessages]
    | made hnew _ hchange =>
      subst hchange
      obtain ⟨hzero, hunended, -⟩ := h.unmade (Nat.le_of_eq hnew)
      simp only [List.count_nil] at hseats haccepted
      refine ⟨by dsimp only; omega, by dsimp only; omega, ?_⟩
      rw [hmessages, messages_eq_nil (List.count_eq_zero.1 hunended)]
      rfl

/-- Every deal keeps the books sound. -/
theorem Sound.turn (h : books.Sound) (hturn : Turn change books books') : books'.Sound :=
  ⟨fun id => hturn.handle (h.handle id), fun id => hturn.members (h.members id)⟩

end Books

end MarkSweep
