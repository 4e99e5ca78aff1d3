import Mathlib.Data.Multiset.AddSub
import MarkSweep.Proofs.Pool.Deals

namespace MarkSweep

variable {ρ : Type}

/-- A change of a board that the end of a task brings. -/
inductive Notice (ρ : Type)
  | tells (id : HandleId) (delivery : Delivery ρ)
  | records (id : GroupId) (message : String)
  | leaves (id : GroupId)

namespace Notice

/-- What a handle is told. -/
def delivery? (id : HandleId) : Notice ρ → Option (Delivery ρ)
  | tells other delivery => if other = id then some delivery else none
  | _ => none

/-- Whether a handle is told anything. -/
def isTold (id : HandleId) (notice : Notice ρ) : Bool := (notice.delivery? id).isSome

/-- The message that a group keeps. -/
def message? (id : GroupId) : Notice ρ → Option String
  | records other message => if other = id then some message else none
  | _ => none

/-- Whether a member of a group gives up its place. -/
def isLeave (id : GroupId) : Notice ρ → Bool
  | leaves other => other == id
  | _ => false

end Notice

/-- What is posted when a task of an audience ends; a member keeps its place. -/
def Audience.hearing : Audience → Outcome ρ → List (Notice ρ)
  | handle id, outcome => [.tells id (.delivered outcome)]
  | group id, .fault payload => [.records id payload.message]
  | group _, .value _ | nobody, _ => []

/-- What is posted when a task of an audience is dropped. -/
def Audience.dismissal : Audience → List (Notice ρ)
  | nobody => []
  | handle id => [.tells id .lost]
  | group id => [.leaves id]

/-- Only the handle of a task is told of its end. -/
theorem Audience.countP_hearing (audience : Audience) (outcome : Outcome ρ) (id : HandleId) :
    (audience.hearing outcome).countP (·.isTold id) = [audience].count (.handle id) := by
  cases audience with
  | handle other =>
    by_cases hother : other = id
    · simp [hearing, Notice.isTold, Notice.delivery?, hother]
    · simp [hearing, Notice.isTold, Notice.delivery?, hother]
  | _ => cases outcome <;> rfl

/-- A task that is dropped tells its own handle, once. -/
theorem Audience.countP_dismissal (audience : Audience) (id : HandleId) :
    (audience.dismissal : List (Notice ρ)).countP (·.isTold id) =
      [audience].count (.handle id) := by
  cases audience with
  | handle other =>
    by_cases hother : other = id
    · simp [dismissal, Notice.isTold, Notice.delivery?, hother]
    · simp [dismissal, Notice.isTold, Notice.delivery?, hother]
  | _ => rfl

/-- A handle is told as often as tasks answer to it. -/
theorem Notice.countP_flatMap {α : Type} {f : α → List (Notice ρ)} {audience : α → Audience}
    {id : HandleId} (hf : ∀ a, (f a).countP (·.isTold id) = [audience a].count (.handle id))
    (l : List α) : (l.flatMap f).countP (·.isTold id) = (l.map audience).count (.handle id) := by
  induction l with
  | nil => rfl
  | cons a l ih =>
    rw [List.flatMap_cons, List.countP_append, ih, hf, ← List.count_append]
    rfl

/-- The numbers of a group, and its messages in whatever order. -/
def Group.tally (group : Group) : Nat × Nat × Multiset String :=
  (group.spawned, group.pending, group.faults)

namespace Board

variable {board : Board ρ} {log log' : List (Notice ρ)}

/-- Posts a notice. -/
def post (board : Board ρ) : Notice ρ → Board ρ
  | .tells id delivery => board.tell id delivery
  | .records id message => board.recordFault id message
  | .leaves id => board.leaveGroup id

/-- Handles know the same on both boards, and groups differ at most in the order of messages. -/
structure Agrees (board board' : Board ρ) : Prop where
  handles : ∀ id : HandleId, board'.handles[id]? = board.handles[id]?
  groups : ∀ id : GroupId, board'.groups[id]?.map Group.tally = board.groups[id]?.map Group.tally

/-- What a task that ends posts is what the board hears. -/
theorem foldl_post_hearing (board : Board ρ) (audience : Audience) (outcome : Outcome ρ) :
    (audience.hearing outcome).foldl post board = board.hear audience outcome := by
  cases audience <;> cases outcome <;> rfl

/-- What a task that is dropped posts is what the board makes of it. -/
theorem foldl_post_dismissal (board : Board ρ) (audience : Audience) :
    audience.dismissal.foldl post board = board.dismiss audience := by
  cases audience <;> rfl

theorem foldl_post_flatMap_dismissal {β : Type} (board : Board ρ) (tasks : List (Task β)) :
    (tasks.flatMap (·.audience.dismissal)).foldl post board =
      tasks.foldl (fun board task => board.dismiss task.audience) board := by
  induction tasks generalizing board with
  | nil => rfl
  | cons task tasks ih =>
    rw [List.flatMap_cons, List.foldl_append, foldl_post_dismissal, ih, List.foldl_cons]

/-- A handle shows the latest notice for it. -/
theorem handles_post (board : Board ρ) (notice : Notice ρ) (id : HandleId) :
    (board.post notice).handles[id]? =
      match notice.delivery? id with
      | some delivery => board.handles[id]?.map fun _ => delivery
      | none => board.handles[id]? := by
  cases notice with
  | tells other delivery =>
    simp only [post, getElem?_tell, Notice.delivery?]
    by_cases hother : other = id
    · simp [hother]
    · simp [hother]
  | records other message => rfl
  | leaves other => rfl

/-- A group changes by what a notice says of it. -/
theorem groups_post (board : Board ρ) (notice : Notice ρ) (id : GroupId) :
    (board.post notice).groups[id]? = board.groups[id]?.map fun group =>
      { group with
        pending := group.pending - (notice.isLeave id).toNat
        faults := group.faults ++ (notice.message? id).toList } := by
  cases notice with
  | tells other delivery => simp [post, tell, Notice.isLeave, Notice.message?]
  | records other message =>
    simp only [post, recordFault, getElem?_onGroup, Notice.isLeave, Notice.message?]
    by_cases hother : other = id
    · simp [hother]
    · simp [hother]
  | leaves other =>
    simp only [post, leaveGroup, getElem?_onGroup, Notice.isLeave, Notice.message?]
    by_cases hother : other = id
    · simp [hother]
    · simp [hother, beq_eq_false_iff_ne.2 hother]

/-- A handle knows what it was told last. -/
theorem handles_foldl_post (log : List (Notice ρ)) (board : Board ρ) (id : HandleId) :
    (log.foldl post board).handles[id]? =
      match (log.filterMap (·.delivery? id)).getLast? with
      | some delivery => board.handles[id]?.map fun _ => delivery
      | none => board.handles[id]? := by
  induction log generalizing board with
  | nil => rfl
  | cons notice log ih =>
    rw [List.foldl_cons, ih, handles_post]
    cases htold : notice.delivery? id with
    | none => rw [List.filterMap_cons_none htold]
    | some delivery =>
      rw [List.filterMap_cons_some htold, List.getLast?_cons]
      cases (log.filterMap (·.delivery? id)).getLast? with
      | none => rfl
      | some later => simp [Function.comp_def]

/-- A group counts who has left it, and keeps all messages. -/
theorem groups_foldl_post (log : List (Notice ρ)) (board : Board ρ) (id : GroupId) :
    (log.foldl post board).groups[id]? = board.groups[id]?.map fun group =>
      { group with
        pending := group.pending - log.countP (·.isLeave id)
        faults := group.faults ++ log.filterMap (·.message? id) } := by
  induction log generalizing board with
  | nil => simp
  | cons notice log ih =>
    rw [List.foldl_cons, ih, groups_post, Option.map_map]
    congr 1
    funext group
    have hfaults : (notice :: log).filterMap (·.message? id) =
        (notice.message? id).toList ++ log.filterMap (·.message? id) := by
      rw [List.filterMap_cons]
      cases notice.message? id <;> rfl
    have hleft : (notice :: log).countP (·.isLeave id) =
        (notice.isLeave id).toNat + log.countP (·.isLeave id) := by
      rw [List.countP_cons]
      cases notice.isLeave id <;> simp [Nat.add_comm]
    simp only [Function.comp_apply, hfaults, hleft, List.append_assoc, Nat.sub_sub]

/-- Where no handle is told twice, the order of the notices does not matter. -/
theorem agrees_of_perm (hperm : log.Perm log')
    (honce : ∀ id : HandleId, log.countP (·.isTold id) ≤ 1) (board : Board ρ) :
    (log.foldl post board).Agrees (log'.foldl post board) where
  handles id := by
    have htold := hperm.filterMap (·.delivery? id)
    have hsame : log'.filterMap (·.delivery? id) = log.filterMap (·.delivery? id) := by
      have hle : (log.filterMap (·.delivery? id)).length ≤ 1 := by
        rw [List.length_filterMap_eq_countP]
        exact honce id
      generalize log.filterMap (·.delivery? id) = told at htold hle
      match told, hle with
      | [], _ => exact htold.nil_eq.symm
      | [delivery], _ => exact List.perm_singleton.1 htold.symm
    rw [handles_foldl_post, handles_foldl_post, hsame]
  groups id := by
    have hleft := hperm.countP_eq (·.isLeave id)
    have hfaults := hperm.filterMap (·.message? id)
    rw [groups_foldl_post, groups_foldl_post, Option.map_map, Option.map_map]
    congr 1
    funext group
    simp only [Function.comp_apply, Group.tally, hleft]
    rw [Multiset.coe_eq_coe.2 (hfaults.append_left group.faults)]

end Board

end MarkSweep
