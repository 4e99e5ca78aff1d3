import Mathlib.Algebra.BigOperators.Group.Finset.Basic
import Mathlib.Algebra.Order.BigOperators.Group.Finset
import Mathlib.Algebra.Order.Group.Multiset
import MarkSweep.Proofs.Attrition
import MarkSweep.Proofs.Pool.Notices

namespace MarkSweep

variable {β ε ρ : Type}

/-- How many tasks of a queue are taken by a number of workers, if some of the tasks cost one worker
each. -/
def reach {α : Type} (costs : α → Bool) : Nat → List α → Nat
  | 0, _ => 0
  | _ + 1, [] => 0
  | hands + 1, a :: queue => reach costs (if costs a then hands else hands + 1) queue + 1

section Reach

variable {α : Type} {costs : α → Bool} {hands : Nat} {queue : List α}

@[simp] theorem reach_nil : reach costs hands [] = 0 := by
  cases hands <;> rfl

/-- Where nobody is left nothing more is begun. -/
@[simp] theorem reach_zero : reach costs 0 queue = 0 := by
  cases queue <;> rfl

/-- Enough workers take everything. -/
theorem reach_of_length_le (hle : queue.length ≤ hands) :
    reach costs hands queue = queue.length := by
  induction queue generalizing hands with
  | nil => simp
  | cons a queue ih =>
    obtain ⟨hands, rfl⟩ : ∃ n, hands = n + 1 := ⟨hands - 1, by simp at hle; omega⟩
    rw [List.length_cons] at hle
    rw [reach, ih, List.length_cons]
    split <;> omega

end Reach

/-- A body goes on to compute. -/
def Body.Moves (B : Body β ε ρ) (body rest : β) : Prop :=
  ∃ worker thread env env', B.step worker thread env body = .next env' rest

/-- Whether a task, which is begun as number `k`, ends its worker. -/
def Task.ends (fate : Nat → Outcome ρ) (entry : Task β × Nat) : Bool :=
  entry.1.audience == .nobody && (fate entry.2).isFault

/-- What is posted from the end of a task on. -/
def Task.news (fate : Nat → Outcome ρ) (entry : Task β × Nat) : List (Notice ρ) :=
  entry.1.audience.hearing (fate entry.2) ++ entry.1.audience.places.map .leaves

/-- The handle of each task is told of its end, and no other. -/
theorem Task.countP_news (fate : Nat → Outcome ρ) (entry : Task β × Nat) (id : HandleId) :
    (Task.news fate entry).countP (·.isTold id) = [entry.1.audience].count (.handle id) := by
  have hplaces :
      (entry.1.audience.places.map (Notice.leaves (ρ := ρ))).countP (·.isTold id) = 0 := by
    cases entry.1.audience <;> rfl
  rw [Task.news, List.countP_append, hplaces, Audience.countP_hearing, Nat.add_zero]

namespace Stage

/-- Whether a worker is going to look at the queue once more, with leave to take a task. -/
def isHand (enabled : Bool) (fate : Nat → Outcome ρ) : Stage β × Option Nat → Bool
  | (awake draining, _) => enabled || draining
  | (running task, some k) => !Task.ends fate (task, k)
  | (leaving _, _) => true
  | _ => false

/-- Whether a worker lives and does not run a task that will end it. -/
def isSpared (fate : Nat → Outcome ρ) : Stage β × Option Nat → Bool
  | (running task, some k) => !Task.ends fate (task, k)
  | (stage, _) => !stage.isOver

/-- What is posted on account of the task that keeps a worker. -/
def news (fate : Nat → Outcome ρ) : Stage β × Option Nat → List (Notice ρ)
  | (running task, some k) => Task.news fate (task, k)
  | (leaving group, _) => [.leaves group]
  | _ => []

/-- A worker whose task has ended lives on, and is going to look at the queue again. -/
theorem after_spared (enabled : Bool) (fate : Nat → Outcome ρ) (audience : Audience) :
    isHand enabled fate ((audience.after : Stage β), none) = true ∧
      isSpared fate ((audience.after : Stage β), none) = true ∧
      news fate ((audience.after : Stage β), none) = audience.places.map .leaves := by
  cases audience with
  | group id => exact ⟨rfl, rfl, rfl⟩
  | nobody | handle id => exact ⟨Bool.or_true enabled, rfl, rfl⟩

/-- Only the handle of the task that keeps a worker is told of its end. -/
theorem countP_news_le (fate : Nat → Outcome ρ) (place : Stage β × Option Nat) (id : HandleId) :
    (news fate place).countP (·.isTold id) ≤ (place.1.seat? == some (.handle id)).toNat := by
  obtain ⟨stage, post?⟩ := place
  cases stage with
  | running task =>
    cases post? with
    | none => exact Nat.zero_le _
    | some k =>
      rw [news, Task.countP_news, List.count_singleton]
      by_cases hself : task.audience = .handle id
      · simp [hself, seat?, audience?, underway?]
      · simp [hself]
  | _ => exact Nat.zero_le _

end Stage

/-- What workers go by, what each of them is doing, and what they have done. -/
structure Scene (β ρ : Type) where
  gauge : Gauge β
  crew : Nat
  places : Nat → Stage β × Option Nat
  begun : List (Task β)
  board : Board ρ

/-- What will be left when the workers come to rest. -/
structure Outlook (β : Type) where
  begun : List (Task β)
  queue : List (Task β)
  live : Nat

namespace Scene

variable {fate : Nat → Outcome ρ} {i : Nat} {s s' s'' : Scene β ρ}

/-- A total over all workers. -/
def tally {M : Type} [AddCommMonoid M] (s : Scene β ρ) (f : Stage β × Option Nat → M) : M :=
  ∑ i ∈ Finset.range s.crew, f (s.places i)

/-- The queued tasks, with the numbers under which they would be begun. -/
def ahead (s : Scene β ρ) : List (Task β × Nat) := s.gauge.queue.zipIdx s.begun.length

/-- How many workers are going to look at the queue. -/
def hands (fate : Nat → Outcome ρ) (s : Scene β ρ) : Nat :=
  s.tally fun place => (Stage.isHand s.gauge.enabled fate place).toNat

/-- How many of the queued tasks will be begun. -/
def range (fate : Nat → Outcome ρ) (s : Scene β ρ) : Nat :=
  reach (Task.ends fate) (s.hands fate) s.ahead

/-- What the workers will leave. -/
def outlook (fate : Nat → Outcome ρ) (s : Scene β ρ) : Outlook β where
  begun := s.begun ++ s.gauge.queue.take (s.range fate)
  queue := if s.gauge.released then [] else s.gauge.queue.drop (s.range fate)
  live :=
    if s.gauge.shutDown then 0
    else s.tally (fun place => (Stage.isSpared fate place).toNat)
      - (s.ahead.take (s.range fate)).countP (Task.ends fate)

/-- What will be posted. -/
def news (fate : Nat → Outcome ρ) (s : Scene β ρ) : Multiset (Notice ρ) :=
  s.tally (fun place => ↑(Stage.news fate place))
    + ↑((s.ahead.take (s.range fate)).flatMap (Task.news fate))
    + ↑(if s.gauge.released then (s.gauge.queue.drop (s.range fate)).flatMap (·.audience.dismissal)
        else [] : List (Notice ρ))

/-- A handle is told no more often than there are tasks that answer to it, queued or running. -/
theorem countP_news_le (fate : Nat → Outcome ρ) (s : Scene β ρ) (id : HandleId) :
    (s.news fate).countP (·.isTold id) ≤
      (s.gauge.queue.map (·.audience)).count (.handle id)
        + s.tally fun place => (place.1.seat? == some (.handle id)).toNat := by
  have hkept : (s.tally fun place => (↑(Stage.news fate place) : Multiset (Notice ρ))).countP
      (·.isTold id) ≤ s.tally fun place => (place.1.seat? == some (.handle id)).toNat := by
    rw [tally, ← Multiset.coe_countPAddMonoidHom, map_sum]
    apply Finset.sum_le_sum
    intro i _
    simpa using Stage.countP_news_le fate (s.places i) id
  have htaken : ((s.ahead.take (s.range fate)).flatMap (Task.news fate)).countP (·.isTold id) =
      ((s.gauge.queue.take (s.range fate)).map (·.audience)).count (.handle id) := by
    rw [Notice.countP_flatMap (fun entry => Task.countP_news fate entry id)]
    have hqueued : s.ahead.map Prod.fst = s.gauge.queue := List.zipIdx_map_fst ..
    rw [← hqueued, ← List.map_take, List.map_map]
    rfl
  have hdropped :
      ((s.gauge.queue.drop (s.range fate)).flatMap (·.audience.dismissal (ρ := ρ))).countP
        (·.isTold id) = ((s.gauge.queue.drop (s.range fate)).map (·.audience)).count (.handle id) :=
    Notice.countP_flatMap (fun task => task.audience.countP_dismissal id) _
  have hsplit : (s.gauge.queue.map (·.audience)).count (.handle id) =
      ((s.gauge.queue.take (s.range fate)).map (·.audience)).count (.handle id)
        + ((s.gauge.queue.drop (s.range fate)).map (·.audience)).count (.handle id) := by
    rw [← List.count_append, ← List.map_append, List.take_append_drop]
  simp only [news, Multiset.countP_add, Multiset.coe_countP, Bool.decide_eq_true, htaken]
  split
  · omega
  · simp only [List.countP_nil]
    omega

/-- What was bound to come has come in part, and nothing else. -/
structure Keeps (fate : Nat → Outcome ρ) (s s' : Scene β ρ) : Prop where
  outlook : s'.outlook fate = s.outlook fate
  posted : ∃ log : List (Notice ρ),
    s'.board = log.foldl Board.post s.board ∧ s.news fate = ↑log + s'.news fate

theorem Keeps.refl (s : Scene β ρ) : Keeps fate s s := ⟨rfl, [], rfl, (zero_add _).symm⟩

theorem Keeps.trans (h : Keeps fate s s') (h' : Keeps fate s' s'') : Keeps fate s s'' := by
  obtain ⟨log, hboard, hnews⟩ := h.posted
  obtain ⟨log', hboard', hnews'⟩ := h'.posted
  refine ⟨h'.outlook.trans h.outlook, log ++ log', ?_, ?_⟩
  · rw [hboard', hboard, List.foldl_append]
  · rw [hnews, hnews', ← Multiset.coe_add, add_assoc]

/-- What worker `i` makes of a scene, if tasks end as `fate` says. -/
inductive Goes (B : Body β ε ρ) (fate : Nat → Outcome ρ) (i : Nat) (s : Scene β ρ) :
    Scene β ρ → Prop
  | take {draining : Bool} {post? : Option Nat} {task : Task β} {queue : List (Task β)}
      (hbefore : s.places i = (.awake draining, post?))
      (hmay : (s.gauge.enabled || draining) = true) (hqueue : s.gauge.queue = task :: queue) :
      Goes B fate i s
        { s with
          gauge.queue := queue
          places := Function.update s.places i (.running task, some s.begun.length)
          begun := s.begun ++ [task] }
  /-- It finds nothing that it may take. -/
  | rest {draining : Bool} {post? : Option Nat}
      (hbefore : s.places i = (.awake draining, post?))
      (hnone : (s.gauge.enabled || draining) = true → s.gauge.queue = []) :
      Goes B fate i s
        { s with
          places := Function.update s.places i
            (if s.gauge.shutDown then .exited else .parked, post?) }
  | advance {task : Task β} {rest : β} {k : Nat} (hbefore : s.places i = (.running task, some k))
      (hmoves : B.Moves task.body rest) :
      Goes B fate i s
        { s with
          places := Function.update s.places i (.running { task with body := rest }, some k) }
  | finish {task : Task β} {k : Nat} (hbefore : s.places i = (.running task, some k)) :
      Goes B fate i s
        { s with
          places := Function.update s.places i
            (if Task.ends fate (task, k) then .dead else task.audience.after, none)
          board := s.board.hear task.audience (fate k) }
  | leave {group : GroupId} {post? : Option Nat} (hbefore : s.places i = (.leaving group, post?)) :
      Goes B fate i s
        { s with
          places := Function.update s.places i (.awake true, post?)
          board := s.board.leaveGroup group }

/-- A worker that goes on changes a total by what it contributes. -/
theorem tally_update {M : Type} [AddCommMonoid M] {f : Stage β × Option Nat → M}
    (hi : i < s.crew) (place : Stage β × Option Nat) :
    ∑ j ∈ Finset.range s.crew, f (Function.update s.places i place j) + f (s.places i) =
      s.tally f + f place := by
  have hmem := Finset.mem_range.2 hi
  have hothers : ∑ j ∈ (Finset.range s.crew).erase i, f (Function.update s.places i place j) =
      ∑ j ∈ (Finset.range s.crew).erase i, f (s.places j) := by
    refine Finset.sum_congr rfl fun j hj => ?_
    rw [Function.update_of_ne (Finset.ne_of_mem_erase hj)]
  rw [tally, ← Finset.add_sum_erase _ _ hmem, hothers, ← Finset.add_sum_erase _ _ hmem,
    Function.update_self]
  ac_rfl

/-- Where nobody counts the tally is zero. -/
theorem tally_eq_zero {M : Type} [AddCommMonoid M] {f : Stage β × Option Nat → M}
    (hnone : ∀ i, f (s.places i) = 0) : s.tally f = 0 :=
  Finset.sum_eq_zero fun i _ => hnone i

section Keeps

variable {place : Stage β × Option Nat} {board : Board ρ}

/-- A worker goes on, and the workers will begin as many of the queued tasks as before. -/
theorem keeps_of_range (log : List (Notice ρ)) (hi : i < s.crew)
    (hboard : board = log.foldl Board.post s.board)
    (hrange : range fate { s with places := Function.update s.places i place, board } =
      s.range fate)
    (hspared : s.gauge.shutDown = true ∨
      Stage.isSpared fate place = Stage.isSpared fate (s.places i))
    (hnews : Stage.news fate (s.places i) = log ++ Stage.news fate place) :
    Keeps fate s { s with places := Function.update s.places i place, board } := by
  refine ⟨?_, log, hboard, ?_⟩
  · simp only [outlook, hrange]
    congr 1
    obtain hshut | hspared := hspared
    · rw [if_pos hshut, if_pos hshut]
    · have htally := tally_update (f := fun place => (Stage.isSpared fate place).toNat) hi place
      rw [hspared] at htally
      exact congrArg (fun live => if s.gauge.shutDown then 0 else live - _)
        (Nat.add_right_cancel htally)
  · have htally := tally_update (f := fun place => (↑(Stage.news fate place) : Multiset (Notice ρ)))
      hi place
    rw [hnews, ← Multiset.coe_add, ← add_assoc] at htally
    have htally := add_right_cancel htally
    simp only [news, hrange]
    rw [← htally]
    simp only [tally, ahead]
    ac_rfl

/-- A worker goes on and is no more on its way to the queue than before, or the queue is empty. -/
theorem keeps_of_places (log : List (Notice ρ)) (hi : i < s.crew)
    (hboard : board = log.foldl Board.post s.board)
    (hhand : Stage.isHand s.gauge.enabled fate place =
      Stage.isHand s.gauge.enabled fate (s.places i) ∨ s.gauge.queue = [])
    (hspared : s.gauge.shutDown = true ∨
      Stage.isSpared fate place = Stage.isSpared fate (s.places i))
    (hnews : Stage.news fate (s.places i) = log ++ Stage.news fate place) :
    Keeps fate s { s with places := Function.update s.places i place, board } := by
  refine keeps_of_range log hi hboard ?_ hspared hnews
  obtain hhand | hempty := hhand
  · have htally := tally_update (f := fun place =>
      (Stage.isHand s.gauge.enabled fate place).toNat) hi place
    rw [hhand] at htally
    have hhands : hands fate { s with places := Function.update s.places i place, board } =
        s.hands fate := Nat.add_right_cancel htally
    rw [range, range, hhands]
    rfl
  · simp [range, ahead, hempty]

/-- A worker takes the foremost task. -/
theorem keeps_take (hi : i < s.crew) {draining : Bool} {post? : Option Nat} {task : Task β}
    {queue : List (Task β)} (hbefore : s.places i = (.awake draining, post?))
    (hmay : (s.gauge.enabled || draining) = true) (hqueue : s.gauge.queue = task :: queue) :
    Keeps fate s
      { s with
        gauge.queue := queue
        places := Function.update s.places i (.running task, some s.begun.length)
        begun := s.begun ++ [task] } := by
  set s' : Scene β ρ :=
    { s with
      gauge.queue := queue
      places := Function.update s.places i (.running task, some s.begun.length)
      begun := s.begun ++ [task] } with hs'
  have hahead : s.ahead = (task, s.begun.length) :: s'.ahead := by
    rw [ahead, hqueue, List.zipIdx_cons, ahead, hs', List.length_append]
    rfl
  have hmoves := tally_update (f := fun place =>
    (Stage.isHand s.gauge.enabled fate place).toNat) hi
  have hold : (Stage.isHand s.gauge.enabled fate (s.places i)).toNat = 1 := by
    rw [hbefore]
    exact congrArg Bool.toNat hmay
  rw [hold] at hmoves
  have hhands : s'.hands fate + 1 =
      s.hands fate + (!Task.ends fate (task, s.begun.length)).toNat :=
    hmoves (.running task, some s.begun.length)
  have hpos : 0 < s.hands fate := (Nat.succ_pos _).trans_eq (hmoves (.parked, none))
  have hspared : s'.tally (fun place => (Stage.isSpared fate place).toNat) + 1 =
      s.tally (fun place => (Stage.isSpared fate place).toNat)
        + (!Task.ends fate (task, s.begun.length)).toNat := by
    have htally := tally_update (f := fun place => (Stage.isSpared fate place).toNat) hi
      (.running task, some s.begun.length)
    rw [hbefore] at htally
    exact htally
  have hnews : s'.tally (fun place => (↑(Stage.news fate place) : Multiset (Notice ρ))) =
      s.tally (fun place => ↑(Stage.news fate place))
        + ↑(Task.news fate (task, s.begun.length)) := by
    have htally := tally_update (f := fun place => (↑(Stage.news fate place) : Multiset (Notice ρ)))
      hi (.running task, some s.begun.length)
    rw [hbefore] at htally
    exact (add_zero _).symm.trans htally
  have hrange : s.range fate = s'.range fate + 1 := by
    obtain ⟨n, hn⟩ : ∃ n, s.hands fate = n + 1 := ⟨_, (Nat.sub_add_cancel hpos).symm⟩
    have hleft : s'.hands fate = if Task.ends fate (task, s.begun.length) then n else n + 1 := by
      split
      · next hends =>
        simp only [hends, Bool.not_true, Bool.toNat_false] at hhands
        omega
      · next hends =>
        simp only [hends, Bool.not_false, Bool.toNat_true] at hhands
        omega
    rw [range, hn, hahead, reach, ← hleft]
    rfl
  refine ⟨?_, [], rfl, ?_⟩
  · simp only [outlook, hrange, hahead, hqueue, List.take_succ_cons, List.drop_succ_cons,
      List.countP_cons]
    rw [Outlook.mk.injEq]
    refine ⟨by simp [hs'], rfl, ?_⟩
    split
    · rfl
    · cases hends : Task.ends fate (task, s.begun.length) <;>
        simp only [hends, Bool.not_false, Bool.not_true, Bool.toNat_false, Bool.toNat_true]
          at hspared ⊢ <;> simp <;> omega
  · simp only [news, hrange, hahead, hqueue, List.take_succ_cons, List.drop_succ_cons,
      List.flatMap_cons]
    rw [hnews, ← Multiset.coe_add, Multiset.coe_nil, zero_add, ← add_assoc]

/-- No step of a worker changes what is bound to come. -/
theorem Goes.keeps {B : Body β ε ρ} (hgoes : Goes B fate i s s') (hi : i < s.crew) :
    Keeps fate s s' := by
  cases hgoes with
  | take hbefore hmay hqueue => exact keeps_take hi hbefore hmay hqueue
  | @rest draining post? hbefore hnone =>
    refine keeps_of_places [] hi rfl ?_ ?_ ?_
    · by_cases hmay : (s.gauge.enabled || draining) = true
      · exact .inr (hnone hmay)
      · rw [hbefore]
        refine .inl (Eq.trans ?_ (Bool.not_eq_true _ ▸ hmay).symm)
        split <;> rfl
    · by_cases hshut : s.gauge.shutDown = true
      · exact .inl hshut
      · rw [hbefore, if_neg hshut]
        exact .inr rfl
    · rw [hbefore]
      split <;> rfl
  | advance hbefore =>
    refine keeps_of_places [] hi rfl (.inl ?_) (.inr ?_) ?_ <;> rw [hbefore] <;> rfl
  | @finish task k hbefore =>
    obtain ⟨hhand, hspared, hnews⟩ := Stage.after_spared s.gauge.enabled fate task.audience (β := β)
    have hboard := (s.board.foldl_post_hearing task.audience (fate k)).symm
    cases hends : Task.ends fate (task, k) with
    | true =>
      have hnobody : task.audience = .nobody := by simp_all [Task.ends]
      refine keeps_of_places _ hi hboard (.inl ?_) (.inr ?_) ?_ <;> rw [hbefore]
      · exact (congrArg not hends).symm
      · exact (congrArg not hends).symm
      · rw [Stage.news, Task.news, hnobody]
        rfl
    | false =>
      refine keeps_of_places _ hi hboard (.inl ?_) (.inr ?_) ?_ <;> rw [hbefore]
      · exact hhand.trans (congrArg not hends).symm
      · exact hspared.trans (congrArg not hends).symm
      · exact (congrArg (_ ++ ·) hnews).symm
  | leave hbefore =>
    refine keeps_of_places [.leaves _] hi rfl (.inl ?_) (.inr ?_) ?_ <;> rw [hbefore]
    · exact Bool.or_true _
    · rfl
    · rfl

/-- A worker wakes up. If it may take a task, there are enough others on their way already. -/
theorem keeps_rouse (hi : i < s.crew) {post? : Option Nat} (hparked : s.places i = (.parked, post?))
    (hready : s.gauge.enabled = true → s.gauge.queue.length ≤ s.hands fate) :
    Keeps fate s { s with places := Function.update s.places i (.awake false, post?) } := by
  have hhands : hands fate { s with places := Function.update s.places i (.awake false, post?) } =
      s.hands fate + s.gauge.enabled.toNat := by
    have htally := tally_update (f := fun place =>
      (Stage.isHand s.gauge.enabled fate place).toNat) hi (.awake false, post?)
    rw [hparked] at htally
    exact htally.trans (by rw [Stage.isHand, Bool.or_false]; rfl)
  refine keeps_of_range [] hi rfl ?_ (.inr ?_) ?_
  · rw [range, range, hhands]
    cases henabled : s.gauge.enabled with
    | false => rfl
    | true =>
      have hle : s.ahead.length ≤ s.hands fate := by
        rw [ahead, List.length_zipIdx]
        exact hready henabled
      rw [reach_of_length_le hle]
      exact reach_of_length_le (hle.trans (Nat.le_add_right _ _))
  · rw [hparked]
    rfl
  · rw [hparked]
    rfl

end Keeps

/-- A pool that nobody keeps drops its queue when its last worker is over. -/
inductive Collapses (s : Scene β ρ) : Scene β ρ → Prop
  | stays : Collapses s s
  | drops (hreleased : s.gauge.released = true) (hover : ∀ i, (s.places i).1.isOver = true) :
      Collapses s
        { s with
          gauge.queue := []
          board := s.gauge.queue.foldl (fun board task => board.dismiss task.audience) s.board }

section Rest

/-- Where nobody goes on, nothing more is begun or posted, except when the queue is dropped. -/
theorem quiet_of_rest (fate : Nat → Outcome ρ)
    (hrest : ∀ i, (s.places i).1 = .parked ∨ (s.places i).1.isOver = true) :
    s.range fate = 0 ∧
      s.tally (fun place => (↑(Stage.news fate place) : Multiset (Notice ρ))) = 0 := by
  have hquiet : ∀ i, Stage.isHand s.gauge.enabled fate (s.places i) = false ∧
      Stage.news fate (s.places i) = [] := by
    intro i
    have hi := hrest i
    generalize s.places i = place at hi
    obtain ⟨stage, post?⟩ := place
    cases stage with
    | parked | exited | dead => exact ⟨rfl, rfl⟩
    | _ => obtain h | h := hi <;> cases h
  have hhands : s.hands fate = 0 := tally_eq_zero fun i => congrArg Bool.toNat (hquiet i).1
  refine ⟨?_, tally_eq_zero fun i => congrArg Multiset.ofList (hquiet i).2⟩
  rw [range, hhands, reach_zero]

/-- Where the workers of a pool have come to rest, all is left that was bound to be left. -/
theorem outlook_of_rest (fate : Nat → Outcome ρ)
    (hrest : ∀ i, (s.places i).1 = .parked ∨ (s.places i).1.isOver = true)
    (hshut : s.gauge.shutDown = true → ∀ i, (s.places i).1.isOver = true)
    (hreleased : s.gauge.released = true → s.gauge.queue = []) :
    s.outlook fate =
        ⟨s.begun, s.gauge.queue, s.tally fun place => (!place.1.isOver).toNat⟩ ∧
      s.news fate = 0 := by
  obtain ⟨hrange, hnews⟩ := quiet_of_rest fate hrest
  have hspared : ∀ i, Stage.isSpared fate (s.places i) = !(s.places i).1.isOver := by
    intro i
    have hi := hrest i
    generalize s.places i = place at hi
    obtain ⟨stage, post?⟩ := place
    cases stage with
    | running => obtain h | h := hi <;> cases h
    | _ => rfl
  constructor
  · simp only [outlook, hrange, List.take_zero, List.append_nil, List.drop_zero, Outlook.mk.injEq,
      true_and]
    constructor
    · split
      · next hdown => exact (hreleased hdown).symm
      · rfl
    · split
      · next hdown =>
        refine (tally_eq_zero fun i => ?_).symm
        simp only [hshut hdown i, Bool.not_true, Bool.toNat_false]
      · rw [List.countP_nil, Nat.sub_zero, tally, tally]
        simp only [hspared]
  · rw [news, hnews, hrange, List.take_zero, List.drop_zero]
    split
    · next hdown =>
      rw [hreleased hdown]
      rfl
    · rfl

/-- To drop the queue is bound to come as well. -/
theorem Collapses.keeps (hcollapses : Collapses s s')
    (hsealed : s.gauge.released = true → s.gauge.shutDown = true) : Keeps fate s s' := by
  cases hcollapses with
  | stays => exact .refl s
  | drops hreleased hover =>
    have hshut := hsealed hreleased
    obtain ⟨hrange, hnews⟩ := quiet_of_rest (s := s) fate fun i => .inr (hover i)
    obtain ⟨hrange', hnews'⟩ := quiet_of_rest
      (s := { s with
        gauge.queue := []
        board := s.gauge.queue.foldl (fun board task => board.dismiss task.audience) s.board })
      fate fun i => .inr (hover i)
    refine ⟨?_, s.gauge.queue.flatMap (·.audience.dismissal),
      (Board.foldl_post_flatMap_dismissal _ _).symm, ?_⟩
    · rw [outlook, outlook, hrange, hrange']
      simp [hreleased, hshut]
    · rw [news, news, hrange, hrange', hnews, hnews']
      simp [hreleased]

end Rest

end Scene

end MarkSweep
