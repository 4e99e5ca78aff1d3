import MarkSweep.Proofs.Acceptance
import MarkSweep.Proofs.Pool.Fates

namespace MarkSweep

variable {β ε ρ : Type}

/-- What has become of the task of a handle, as soon as the handle knows: how it ended, or that it
was dropped. -/
def Delivery.fate? : Delivery ρ → Option (Option (Outcome ρ))
  | awaited => none
  | delivered outcome => some (some outcome)
  | lost => some none

namespace Pool

/-- What `tryJoin` answers. -/
def tried : Option (Outcome ρ) → Except Failure ρ
  | some (.value result) => .ok result
  | some (.fault payload) => .error (.taskFaulted payload.message)
  | none => .error .poolShutDown

/-- How `join` ends. -/
def joined : Option (Outcome ρ) → Except Fault ρ
  | some (.value result) => .ok result
  | some (.fault payload) => .error (.reraised payload)
  | none => .error (.failed .poolShutDown)

/-- How a call ends that joins a handle, if this has become of the task. -/
def Errand.hears (outcome? : Option (Outcome ρ)) : Errand β → Except Fault (Answer ρ)
  | join _ => (joined outcome?).map .value
  | _ => .ok (.outcome (tried outcome?))

/-- How a call ends that consumes a handle or a group, and what it leaves of the board, as soon as
it need not wait. -/
def Errand.consume? (board : Board ρ) : Errand β → Option (Except Fault (Answer ρ) × Board ρ)
  | tryJoin id => (board.handles[id]?.bind Delivery.fate?).map fun outcome? =>
    ((tryJoin id : Errand β).hears outcome?, board.dropHandle id)
  | join id => (board.handles[id]?.bind Delivery.fate?).map fun outcome? =>
    ((join id : Errand β).hears outcome?, board.dropHandle id)
  | detach id => some (.ok .done, board.dropHandle id)
  | waitGroup id => board.groups[id]?.bind fun group =>
    if group.pending = 0 then some (.ok (.verdict group.answer), board.dropGroup id) else none
  | abandonGroup id => some (.ok .done, board.dropGroup id)
  | _ => none

/-- A call that joins a handle hears what the handle has heard, and takes it away. -/
theorem Errand.consume?_of_joins {errand : Errand β} {id : HandleId} {board : Board ρ}
    (hjoins : errand = .tryJoin id ∨ errand = .join id) :
    errand.consume? board = (board.handles[id]?.bind Delivery.fate?).map fun outcome? =>
      (errand.hears outcome?, board.dropHandle id) := by
  obtain rfl | rfl := hjoins <;> rfl

theorem Errand.consumes_of_joins {errand : Errand β} {id : HandleId}
    (hjoins : errand = .tryJoin id ∨ errand = .join id) : errand.Consumes (.handle id) := by
  obtain rfl | rfl := hjoins <;> rfl

/-- Whoever waits for a task hears what has become of it. -/
theorem awaitHandle_eq (id : HandleId) :
    (awaitHandle id : Call (Worksite β ε ρ) (Option (Outcome ρ))) = .await fun s =>
      (s.pool.board.handles[id]?.bind Delivery.fate?).map fun outcome? =>
        (outcome?, { s with pool := { s.pool with board := s.pool.board.dropHandle id } }) := by
  refine congrArg Call.await (funext fun s => ?_)
  rcases s.pool.board.handles[id]? with _ | _ | _ | _ <;> rfl

/-- A call that waits for a group goes on when nothing of it is pending. -/
theorem waitGroup_eq (id : GroupId) :
    (waitGroup id : Call (Worksite β ε ρ) (Except Failure Unit)) = .await fun s =>
      s.pool.board.groups[id]?.bind fun group =>
        if group.pending = 0 then
          some (group.answer,
            { s with pool := { s.pool with board := s.pool.board.dropGroup id } })
        else none := by
  refine congrArg Call.await (funext fun s => ?_)
  rcases s.pool.board.groups[id]? with _ | _ <;> rfl

/-- The only step of a call that consumes something. -/
theorem next?_call_of_consumes {errand : Errand β} {audience : Audience}
    (hconsumes : errand.Consumes audience) (caller thread : Thread) (choice : Choice)
    (s : Worksite β ε ρ) :
    (⟨errand, caller, thread, errand.call⟩ :
      Visit (Errand β) (Worksite β ε ρ) (Answer ρ)).next? choice s =
      (errand.consume? s.pool.board).map fun (result, board) =>
        (⟨errand, caller, thread, .done result⟩, { s with pool := { s.pool with board } }) := by
  cases errand with
  | tryJoin id =>
    simp only [Errand.call, tryJoin, awaitHandle_eq, Errand.consume?, Option.map_map]
    change Option.map _ (Option.map _ (Option.map _ _)) = _
    rcases s.pool.board.handles[id]?.bind Delivery.fate? with _ | _ | _ | _ <;> rfl
  | join id =>
    simp only [Errand.call, join, awaitHandle_eq, Errand.consume?, Option.map_map]
    change Option.map _ (Option.map _ (Option.map _ _)) = _
    rcases s.pool.board.handles[id]?.bind Delivery.fate? with _ | _ | _ | _ <;> rfl
  | waitGroup id =>
    simp only [Errand.call, waitGroup_eq, Errand.consume?]
    change Option.map _ (Option.map _ (Option.bind _ _)) = _
    rcases s.pool.board.groups[id]? with _ | group
    · rfl
    · dsimp only [Option.bind]
      split <;> rfl
  | detach id => rfl
  | abandonGroup id => rfl
  | _ => cases hconsumes

end Pool

namespace Board

/-- Whether a handle or a group was ever made. -/
def HasMade (board : Board ρ) : Audience → Prop
  | .nobody => False
  | .handle id => id < board.nextHandle
  | .group id => id < board.nextGroup

/-- Whether a handle or a group is on the board. -/
def lists (board : Board ρ) : Audience → Bool
  | .nobody => false
  | .handle id => board.handles[id]?.isSome
  | .group id => board.groups[id]?.isSome

/-- Two boards have made the same handles and groups and still have the same. -/
structure Coincides (board board' : Board ρ) : Prop where
  hasMade : ∀ audience, board'.HasMade audience ↔ board.HasMade audience
  lists : ∀ audience, board'.lists audience = board.lists audience

variable {board board' board'' : Board ρ} {id : Nat}

theorem Coincides.refl (board : Board ρ) : board.Coincides board := ⟨fun _ => .rfl, fun _ => rfl⟩

theorem Coincides.trans (h : board.Coincides board') (h' : board'.Coincides board'') :
    board.Coincides board'' :=
  ⟨fun audience => (h'.hasMade audience).trans (h.hasMade audience),
    fun audience => (h'.lists audience).trans (h.lists audience)⟩

theorem coincides_tell {delivery : Delivery ρ} : board.Coincides (board.tell id delivery) := by
  refine ⟨fun audience => by cases audience <;> exact .rfl, fun audience => ?_⟩
  cases audience with
  | handle other =>
    simp only [Board.lists, getElem?_tell]
    split
    · next heq => rw [Option.isSome_map, heq]
    · rfl
  | _ => rfl

theorem coincides_onGroup {f : Group → Group} : board.Coincides (board.onGroup id f) := by
  refine ⟨fun audience => by cases audience <;> exact .rfl, fun audience => ?_⟩
  cases audience with
  | group other =>
    simp only [Board.lists, getElem?_onGroup]
    split
    · next heq => rw [Option.isSome_map, heq]
    · rfl
  | _ => rfl

theorem coincides_enlist (audience : Audience) : board.Coincides (board.enlist audience) := by
  cases audience with
  | group => exact coincides_onGroup
  | _ => exact .refl board

theorem coincides_hear (audience : Audience) (outcome : Outcome ρ) :
    board.Coincides (board.hear audience outcome) := by
  cases audience with
  | nobody => exact .refl board
  | handle => exact coincides_tell
  | group =>
    cases outcome with
    | value => exact .refl board
    | fault => exact coincides_onGroup

theorem coincides_dismiss (audience : Audience) : board.Coincides (board.dismiss audience) := by
  cases audience with
  | nobody => exact .refl board
  | handle => exact coincides_tell
  | group => exact coincides_onGroup

theorem coincides_foldl_dismiss (dropped : List Audience) :
    board.Coincides (dropped.foldl dismiss board) := by
  induction dropped generalizing board with
  | nil => exact .refl board
  | cons audience dropped ih => exact (coincides_dismiss audience).trans ih

/-- A deal removes from the board what is consumed and nothing else, and what it puts there is
new. -/
theorem Deal.lists_cases {change : Change ρ} (hdeal : board.Deal change board')
    (audience : Audience) :
    (board'.HasMade audience ↔ board.HasMade audience) ∧
      board'.lists audience = (board.lists audience && decide (audience ∉ change.consumed)) ∨
    ¬board.HasMade audience ∧ board'.HasMade audience ∧ board'.lists audience = true := by
  have hsame : board.Coincides board' → change.consumed = [] →
      (board'.HasMade audience ↔ board.HasMade audience) ∧
        board'.lists audience = (board.lists audience && decide (audience ∉ change.consumed)) := by
    intro h hnone
    rw [hnone, h.lists]
    exact ⟨h.hasMade audience, by simp⟩
  have hopen : board.openHandle.2.Coincides board' → change.consumed = [] →
      (board'.HasMade audience ↔ board.HasMade audience) ∧
        board'.lists audience = (board.lists audience && decide (audience ∉ change.consumed)) ∨
      ¬board.HasMade audience ∧ board'.HasMade audience ∧ board'.lists audience = true := by
    intro h hnone
    rw [hnone, h.lists, h.hasMade]
    cases audience with
    | handle id =>
      by_cases hid : board.nextHandle = id
      · refine .inr ⟨(Nat.lt_irrefl _ <| hid.symm ▸ ·), ?_, ?_⟩
        · exact Nat.lt_succ_of_le (Nat.le_of_eq hid.symm)
        · simp [Board.lists, hid]
      · refine .inl ⟨⟨fun hlt => ?_, Nat.lt_succ_of_lt⟩, ?_⟩
        · exact Nat.lt_of_le_of_ne (Nat.le_of_lt_succ hlt) (Ne.symm hid)
        · simp [Board.lists, hid]
    | nobody => exact .inl ⟨.rfl, rfl⟩
    | group id => exact .inl ⟨.rfl, by simp [Board.lists, openHandle]⟩
  cases hdeal with
  | still => exact .inl (hsame (.refl board) rfl)
  | accept => exact .inl (hsame (coincides_enlist _) rfl)
  | claim => exact hopen (.refl _) rfl
  | enroll => exact .inl (hsame (.refl board) rfl)
  | disown => exact .inl (hsame coincides_tell rfl)
  | submit => exact hopen (.refl _) rfl
  | spurn => exact hopen coincides_tell rfl
  | finish audience outcome => exact .inl (hsame (coincides_hear audience outcome) rfl)
  | leave => exact .inl (hsame coincides_onGroup rfl)
  | drop dropped => exact .inl (hsame (coincides_foldl_dismiss dropped) rfl)
  | openGroup =>
    cases audience with
    | group id =>
      by_cases hid : board.nextGroup = id
      · refine .inr ⟨(Nat.lt_irrefl _ <| hid.symm ▸ ·), ?_, ?_⟩
        · exact Nat.lt_succ_of_le (Nat.le_of_eq hid.symm)
        · simp [Board.lists, hid]
      · refine .inl ⟨⟨fun hlt => ?_, Nat.lt_succ_of_lt⟩, ?_⟩
        · exact Nat.lt_of_le_of_ne (Nat.le_of_lt_succ hlt) (Ne.symm hid)
        · simp [Board.lists, hid]
    | nobody => exact .inl ⟨.rfl, rfl⟩
    | handle id => exact .inl ⟨.rfl, by simp [Board.lists, Board.openGroup]⟩
  | dropHandle other =>
    refine .inl ⟨by cases audience <;> exact .rfl, ?_⟩
    cases audience with
    | handle id => by_cases hid : other = id <;> simp [Board.lists, hid, Ne.symm]
    | _ => simp [Board.lists, Board.dropHandle]
  | dropGroup other =>
    refine .inl ⟨by cases audience <;> exact .rfl, ?_⟩
    cases audience with
    | group id => by_cases hid : other = id <;> simp [Board.lists, hid, Ne.symm]
    | _ => simp [Board.lists, Board.dropGroup]

end Board

/-- Neither the board nor what the tasks share has to do with the order of the tasks. -/
theorem Plant.Ordered.setBoard {B : Body β ε ρ} {c : Plant β ε ρ} {stands : Nat → Pool.Standing ρ}
    (h : Plant.Ordered B c stands) (board : Board ρ) (env : ε) :
    Plant.Ordered B { c with site := ⟨{ c.site.pool with board }, env⟩ } stands :=
  ⟨⟨h.sealed.released, h.sealed.closing⟩, h.hasShut, h.flow, h.queued, h.strangers,
    fun hvisits hkeeps =>
      have howned := h.owned hvisits hkeeps
      ⟨howned.kept, howned.shared⟩⟩

namespace Estate

variable {B : Body β ε ρ} {e e' : Estate β ε ρ} {crew crew' : List (Attended β ε ρ)}
  {p q i j : Nat}

/-- Call number `i` on pool number `p`. -/
def visit? (e : Estate β ε ρ) (p i : Nat) :
    Option (Visit (Pool.Errand β) (Worksite β ε ρ) (Pool.Answer ρ)) :=
  e.plants[p]?.bind (·.visits[i]?)

/-- Some call has consumed a handle or a group. -/
def Consumed (e : Estate β ε ρ) (audience : Audience) : Prop :=
  ∃ p i visit, e.visit? p i = some visit ∧ visit.errand.Consumes audience ∧ visit.answer? ≠ none

section Visits

variable {c c' : Plant β ε ρ}
  {visit visit' : Visit (Pool.Errand β) (Worksite β ε ρ) (Pool.Answer ρ)}

theorem visit?_eq (hplant : e.plants[p]? = some c) (i : Nat) : e.visit? p i = c.visits[i]? := by
  rw [visit?, hplant]
  rfl

theorem visit?_eq_some_iff : e.visit? p i = some visit ↔
    ∃ c, e.plants[p]? = some c ∧ c.visits[i]? = some visit := by
  rw [visit?, Option.bind_eq_some_iff]

/-- A step on one plant leaves the calls on the others alone. -/
theorem visit?_of_set (hplant : e.plants[p]? = some c) (hplants : e'.plants = e.plants.set p c')
    (q j : Nat) : e'.visit? q j = if q = p then c'.visits[j]? else e.visit? q j := by
  split
  · next heq =>
    subst heq
    refine visit?_eq ?_ j
    rw [hplants, List.getElem?_set_self (List.getElem?_eq_some_iff.1 hplant).1]
  · next hne => rw [visit?, hplants, List.getElem?_set_ne (Ne.symm hne), visit?]

/-- What a step of an estate does to the calls. -/
inductive Attends (e e' : Estate β ε ρ) : Prop
  | still (hsame : ∀ q j, e'.visit? q j = e.visit? q j)
  /-- A call is made. -/
  | arrives {p i : Nat} {visit : Visit (Pool.Errand β) (Worksite β ε ρ) (Pool.Answer ρ)}
      (hnone : e.visit? p i = none) (hfresh : visit.rest = visit.errand.call)
      (hset : ∀ q j, e'.visit? q j = if q = p ∧ j = i then some visit else e.visit? q j)
  /-- A call takes a step. -/
  | steps {p i : Nat} {c : Plant β ε ρ}
      {visit visit' : Visit (Pool.Errand β) (Worksite β ε ρ) (Pool.Answer ρ)}
      {site : Worksite β ε ρ} (hget : e.visit? p i = some visit)
      (hplant : e.plants[p]? = some c) (hstep : visit.Step (e.view c).site visit' site)
      (hboard : e'.board = site.pool.board)
      (hset : ∀ q j, e'.visit? q j = if q = p ∧ j = i then some visit' else e.visit? q j)

/-- Whatever happens, calls stay where they are and handles that were joined stay joined. -/
theorem Step.attends (hstep : Step B e e') : Attends e e' := by
  cases hstep with
  | found hpool =>
    refine .still fun q j => ?_
    unfold visit?
    by_cases hq : q < e.plants.length
    · rw [List.getElem?_append_left hq]
    · rw [List.getElem?_append_right (Nat.not_lt.1 hq), List.getElem?_eq_none (Nat.not_lt.1 hq)]
      cases q - e.plants.length <;> rfl
  | @arrive p c hplant errand caller =>
    have hbefore := visit?_eq hplant
    refine @Attends.arrives _ _ _ _ _ p c.visits.length ⟨errand, caller, caller, errand.call⟩ ?_ rfl
      fun q j => ?_
    · rw [hbefore]
      exact List.getElem?_eq_none (Nat.le_refl _)
    · refine (visit?_of_set hplant rfl q j).trans ?_
      by_cases hq : q = p
      · subst hq
        rw [if_pos rfl, hbefore]
        by_cases hj : j = c.visits.length
        · rw [if_pos ⟨rfl, hj⟩, hj]
          exact List.getElem?_concat_length
        · rw [if_neg fun heq => hj heq.2]
          by_cases hlt : j < c.visits.length
          · exact List.getElem?_append_left hlt
          · rw [List.getElem?_eq_none (Nat.not_lt.1 hlt)]
            refine List.getElem?_eq_none ?_
            rw [List.length_append, List.length_singleton]
            omega
      · rw [if_neg hq, if_neg fun heq => hq heq.1]
  | @call p i c visit visit' site hplant hget hstep =>
    have hbefore := visit?_eq hplant
    refine .steps ((hbefore i).trans hget) hplant hstep rfl fun q j => ?_
    refine (visit?_of_set hplant rfl q j).trans ?_
    by_cases hq : q = p
    · subst hq
      rw [if_pos rfl, hbefore]
      by_cases hj : j = i
      · subst hj
        rw [if_pos ⟨rfl, rfl⟩]
        exact List.getElem?_set_self (List.getElem?_eq_some_iff.1 hget).1
      · rw [if_neg fun heq => hj heq.2]
        exact List.getElem?_set_ne (Ne.symm hj)
    · rw [if_neg hq, if_neg fun heq => hq heq.1]
  | @work p i c choice site hplant hstep =>
    refine .still fun q j => (visit?_of_set hplant rfl q j).trans ?_
    split
    · next heq =>
      subst heq
      rw [(Plant.record_eq _ _ _ _).2.1, visit?_eq hplant]
      rfl
    · rfl
  | @rouse p c hplant i =>
    refine .still fun q j => (visit?_of_set hplant rfl q j).trans ?_
    split
    · next heq =>
      subst heq
      exact (visit?_eq hplant j).symm
    · rfl
  | others env => exact .still fun _ _ => rfl

theorem answer?_of_step {s s' : Worksite β ε ρ} (hstep : visit.Step s visit' s') :
    visit.answer? = none := by
  cases hstep
  rfl

/-- A call that is to consume something has to take a step before it can answer. -/
theorem answer?_of_fresh {visit : Visit (Pool.Errand β) (Worksite β ε ρ) (Pool.Answer ρ)}
    {audience : Audience} (hconsumes : visit.errand.Consumes audience)
    (hfresh : visit.rest = visit.errand.call) : visit.answer? = none := by
  obtain ⟨errand, caller, thread, rest⟩ := visit
  dsimp only at hfresh hconsumes
  subst hfresh
  cases errand with
  | series => exact hconsumes.elim
  | _ => rfl

/-- A call that has ended stays so. -/
theorem Attends.answered (h : Attends e e') (hget : e.visit? p i = some visit)
    (hanswer : visit.answer? ≠ none) : e'.visit? p i = some visit := by
  cases h with
  | still hsame => exact (hsame p i).trans hget
  | arrives hnone _ hset =>
    rw [hset]
    split
    · next heq =>
      obtain ⟨rfl, rfl⟩ := heq
      cases hnone.symm.trans hget
    · exact hget
  | steps hbefore _ hstep _ hset =>
    rw [hset]
    split
    · next heq =>
      obtain ⟨rfl, rfl⟩ := heq
      obtain rfl := Option.some.inj (hbefore.symm.trans hget)
      exact absurd (answer?_of_step hstep) hanswer
    · exact hget

/-- What was joined or waited for stays so. -/
theorem Consumed.attends {audience : Audience} (hconsumed : e.Consumed audience)
    (h : Attends e e') : e'.Consumed audience := by
  obtain ⟨p, i, visit, hget, hconsumes, hanswer⟩ := hconsumed
  exact ⟨p, i, visit, h.answered hget hanswer, hconsumes, hanswer⟩

end Visits

/-- The calls are those of errands, and what was made is on the board until it is consumed. -/
structure Custody (B : Body β ε ρ) (e : Estate β ε ρ) (crew : List (Attended β ε ρ)) : Prop where
  upheld : Upheld e crew
  homed : Homed e crew
  disciplined : ∀ x ∈ crew, x.plant.Disciplined x.stands
  ordered : ∀ x ∈ crew, Plant.Ordered B x.plant x.stands
  /-- A call that is to consume something has done nothing yet, or it has ended. -/
  fresh : ∀ p i visit, e.visit? p i = some visit → ∀ audience, visit.errand.Consumes audience →
    visit.answer? = none → visit.rest = visit.errand.call
  listed : ∀ audience, e.board.HasMade audience →
    e.board.lists audience = true ∨ e.Consumed audience

theorem Custody.start (env : ε) : Custody B ({ env } : Estate β ε ρ) [] := by
  refine ⟨.start env, .start env, nofun, nofun, nofun, fun audience hmade => ?_⟩
  cases audience with
  | nobody => exact hmade.elim
  | _ => exact absurd hmade (Nat.not_lt_zero _)

theorem Upheld.exists_visited (h : Upheld e crew)
    {visit : Visit (Pool.Errand β) (Worksite β ε ρ) (Pool.Answer ρ)}
    (hget : e.visit? p i = some visit) :
    ∃ x, crew[p]? = some x ∧ x.plant.visits[i]? = some visit := by
  obtain ⟨c, hplant, hvisit⟩ := visit?_eq_some_iff.1 hget
  obtain ⟨x, hx, rfl⟩ := h.exists_attended hplant
  exact ⟨x, hx, hvisit⟩

/-- What holds of all others and of the one that goes on holds of all. -/
theorem forall_mem_set {P : Attended β ε ρ → Prop} {x' : Attended β ε ρ} (h : ∀ x ∈ crew, P x)
    (hx' : P x') : ∀ x ∈ crew.set p x', P x := by
  intro x hx
  obtain hx | rfl := List.mem_or_eq_of_mem_set hx
  · exact h x hx
  · exact hx'

/-- Calls that keep their discipline do nothing else but what their standings allow. -/
theorem Custody.passes (h : Custody B e crew) (hstep : Step B e e') :
    ∃ crew', Passes B e crew e' crew' ∧ (∀ x ∈ crew', x.plant.Disciplined x.stands) ∧
      ∀ x ∈ crew', Plant.Ordered B x.plant x.stands := by
  have hview : ∀ {x}, x ∈ crew → Plant.Ordered B (e.view x.plant) x.stands :=
    fun hx => (h.ordered _ hx).setBoard e.board e.env
  cases hstep with
  | found hpool =>
    refine ⟨_, .found hpool, fun x hx => ?_, fun x hx => ?_⟩
    · obtain hx | hx := List.mem_append.1 hx
      · exact h.disciplined x hx
      · rw [List.mem_singleton.1 hx]
        exact Plant.disciplined_nil
    · obtain hx | hx := List.mem_append.1 hx
      · exact h.ordered x hx
      · rw [List.mem_singleton.1 hx]
        exact .start hpool e.env
  | arrive hplant errand caller =>
    obtain ⟨x, hget, rfl⟩ := h.upheld.exists_attended hplant
    have hx := List.mem_of_getElem? hget
    exact ⟨_, .arrive hget _, forall_mem_set h.disciplined ((h.disciplined x hx).arrive _ _),
      forall_mem_set h.ordered ((h.ordered x hx).step (.arrive _ _))⟩
  | call hplant hget hstep hhas =>
    obtain ⟨x, hx, rfl⟩ := h.upheld.exists_attended hplant
    have hmem := List.mem_of_getElem? hx
    obtain ⟨k, hmoves, hkeeps⟩ := (h.disciplined x hmem).call hget hstep
    refine ⟨_, .call hx hget hstep .goesOn hmoves hhas, forall_mem_set h.disciplined (hkeeps rfl),
      forall_mem_set h.ordered ?_⟩
    exact (hview hmem).step (.call hget hstep.errand_eq.1 hstep.errand_eq.2 hmoves)
  | work hplant hstep hhas =>
    obtain ⟨x, hx, rfl⟩ := h.upheld.exists_attended hplant
    have hmem := List.mem_of_getElem? hx
    exact ⟨_, .work hx hstep hhas,
      forall_mem_set h.disciplined ((h.disciplined x hmem).of_visits (Plant.record_eq _ _ _ _).2.1),
      forall_mem_set h.ordered ((hview hmem).step (.work hstep))⟩
  | rouse hplant i =>
    obtain ⟨x, hx, rfl⟩ := h.upheld.exists_attended hplant
    have hmem := List.mem_of_getElem? hx
    exact ⟨_, .rouse hx i, forall_mem_set h.disciplined (h.disciplined x hmem),
      forall_mem_set h.ordered ((h.ordered x hmem).step (.rouse i))⟩
  | others env => exact ⟨_, .others env, h.disciplined, h.ordered⟩

/-- A call that consumes something and has not ended takes its only step as it can. -/
theorem Custody.step_of_consumes (h : Custody B e crew)
    {visit visit' : Visit (Pool.Errand β) (Worksite β ε ρ) (Pool.Answer ρ)}
    {s site : Worksite β ε ρ} (hget : e.visit? p i = some visit) {audience : Audience}
    (hconsumes : visit.errand.Consumes audience) (hstep : visit.Step s visit' site) :
    ∃ result, visit.errand.consume? s.pool.board = some (result, site.pool.board) ∧
      visit'.errand = visit.errand ∧ visit'.answer? = some result := by
  have hrest := h.fresh p i visit hget audience hconsumes (answer?_of_step hstep)
  obtain ⟨choice, hnext⟩ := hstep.exists_next?
  obtain ⟨errand, caller, thread, rest⟩ := visit
  dsimp only at hrest hconsumes
  subst hrest
  rw [Pool.next?_call_of_consumes hconsumes] at hnext
  obtain ⟨⟨result, board⟩, hconsume, heq⟩ := Option.map_eq_some_iff.1 hnext
  cases heq
  exact ⟨result, hconsume, rfl, rfl⟩

/-- A call that has consumed something had done so before the last step, or it is the one that has
taken this step. -/
theorem Custody.answered_cases (h : Custody B e crew) (hstep : Step B e e')
    {visit : Visit (Pool.Errand β) (Worksite β ε ρ) (Pool.Answer ρ)}
    {result : Except Fault (Pool.Answer ρ)} (hget : e'.visit? p i = some visit)
    {audience : Audience} (hconsumes : visit.errand.Consumes audience)
    (hanswer : visit.answer? = some result) :
    e.visit? p i = some visit ∨ visit.errand.consume? e.board = some (result, e'.board) := by
  cases hstep.attends with
  | still hsame => exact .inl ((hsame p i).symm.trans hget)
  | arrives _ hfresh hset =>
    rw [hset] at hget
    split at hget
    · cases hget
      cases (answer?_of_fresh hconsumes hfresh).symm.trans hanswer
    · exact .inl hget
  | steps hbefore _ hstep hboard hset =>
    rw [hset] at hget
    split at hget
    · cases hget
      rw [hstep.errand_eq.1] at hconsumes ⊢
      obtain ⟨result', hconsume, -, hended⟩ := h.step_of_consumes hbefore hconsumes hstep
      obtain rfl := Option.some.inj (hended.symm.trans hanswer)
      rw [hboard]
      exact .inr hconsume
    · exact .inl hget

/-- Only a call that consumes a handle or a group removes it from the board. -/
theorem Custody.consumed_of_step (h : Custody B e crew) (hstep : Step B e e') {audience : Audience}
    (hmade : e'.board.HasMade audience) (hlists : e.board.HasMade audience →
      e.board.lists audience = true) : e'.board.lists audience = true ∨ e'.Consumed audience := by
  have hdeal : ∀ {change : Change ρ}, e.board.Deal change e'.board → audience ∉ change.consumed →
      e'.board.lists audience = true := by
    intro change hdeal hnone
    obtain ⟨hiff, hsame⟩ | ⟨-, -, hnew⟩ := hdeal.lists_cases audience
    · rw [hsame, hlists (hiff.1 hmade), decide_eq_true hnone]
      rfl
    · exact hnew
  have hattends := hstep.attends
  cases hstep with
  | @call p i c visit visit' site hplant hget hstep hhas =>
    obtain ⟨x, hx, rfl⟩ := h.upheld.exists_attended hplant
    obtain ⟨k, hmoves, -⟩ := (h.disciplined x (List.mem_of_getElem? hx)).call hget hstep
    obtain ⟨change, htrade, -, hconsumed, -⟩ := hmoves.trade hhas
    by_cases hmem : audience ∈ change.consumed
    · have hconsumes := hconsumed audience hmem
      obtain ⟨result, -, herrand, hanswer⟩ :=
        h.step_of_consumes ((visit?_eq hplant i).trans hget) hconsumes hstep
      refine .inr ⟨p, i, visit', ?_, herrand ▸ hconsumes, ?_⟩
      · refine (visit?_of_set hplant rfl p i).trans ((if_pos rfl).trans ?_)
        exact List.getElem?_set_self (List.getElem?_eq_some_iff.1 hget).1
      · rw [hanswer]
        nofun
    · exact .inl (hdeal htrade.deal hmem)
  | @work p i c choice site hplant hstep hhas =>
    obtain ⟨change, htrade, htoils, -⟩ := Worksite.workerStep_trade hstep hhas
    have hboard : (e.update p (.worker i) (((e.view c).advance (.worker i) site).record i
        (c.site.pool.stage i) (site.pool.stage i))).board = site.pool.board :=
      congrArg (fun s : Worksite β ε ρ => s.pool.board) (Plant.record_eq _ _ _ _).1
    have hdealt := htrade.deal
    rw [← hboard] at hdealt
    refine .inl (hdeal hdealt ?_)
    rw [htoils.consumed]
    exact List.not_mem_nil
  | _ => exact .inl (hlists hmade)

/-- Whatever happens next, whoever held something holds it or has joined it. -/
theorem Custody.step (h : Custody B e crew) (hstep : Step B e e') :
    ∃ crew', Passes B e crew e' crew' ∧ Custody B e' crew' := by
  obtain ⟨crew', hpasses, hdisciplined, hordered⟩ := h.passes hstep
  have hattends := hstep.attends
  refine ⟨crew', hpasses, h.upheld.step hpasses, h.homed.step h.upheld hpasses, hdisciplined,
    hordered, fun p i visit hget audience hconsumes hanswer => ?fresh,
    fun audience hmade => ?listed⟩
  case fresh =>
    cases hattends with
    | still hsame =>
      exact h.fresh p i visit ((hsame p i).symm.trans hget) audience hconsumes hanswer
    | arrives _ hfresh hset =>
      rw [hset] at hget
      split at hget
      · cases hget
        exact hfresh
      · exact h.fresh p i visit hget audience hconsumes hanswer
    | steps hbefore _ hstep _ hset =>
      rw [hset] at hget
      split at hget
      · cases hget
        rw [hstep.errand_eq.1] at hconsumes
        obtain ⟨result, -, -, hended⟩ := h.step_of_consumes hbefore hconsumes hstep
        cases hended.symm.trans hanswer
      · exact h.fresh p i visit hget audience hconsumes hanswer
  case listed =>
    by_cases hlists : e.board.HasMade audience → e.board.lists audience = true
    · exact h.consumed_of_step hstep hmade hlists
    · obtain ⟨hold, hgone⟩ := Classical.not_imp.1 hlists
      exact .inr (((h.listed audience hold).resolve_left hgone).attends hattends)

/-- What holds at first and is preserved by every step holds always. -/
theorem run_induction {P : Estate β ε ρ → Prop}
    (hstep : ∀ {e e' crew crew'}, Custody B e crew → Custody B e' crew' → Passes B e crew e' crew' →
      Step B e e' → P e → P e') {env : ε} (hstart : P { env })
    (hrun : Relation.ReflTransGen (Step B) { env } e) : ∃ crew, Custody B e crew ∧ P e := by
  induction hrun with
  | refl => exact ⟨[], .start env, hstart⟩
  | tail _ hnext ih =>
    obtain ⟨crew, hcustody, hP⟩ := ih
    obtain ⟨crew', hpasses, hcustody'⟩ := hcustody.step hnext
    exact ⟨crew', hcustody', hstep hcustody hcustody' hpasses hnext hP⟩

end Estate

end MarkSweep
