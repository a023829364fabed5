import EventBus.Proofs.Descent
import EventBus.Proofs.Feeding
import EventBus.Proofs.CutOrder

/-!
# What a task has ahead of it

A handler may publish, even to the queue that its own task is draining, so what a task has ahead of
it is not told by a number. It is told by heads where handlers publish, on an event, only what is
below it in some order, and subscribe nobody: every event that is queued or at hand is a head, and
so are the call that is not over and what the task does before it comes to another event. Every step
of a task cuts one of them off, and what grows is below it.
-/

set_option autoImplicit false

namespace EventBus

open CutOrder (Cut GrowsBelow)

/-! ## Handlers that lower events -/

variable {r : Event → Event → Prop}

/-- In a call with `event` the action subscribes nobody, and publishes nothing but what is below
that. -/
def Action.Lowers (r : Event → Event → Prop) (event : Event) (a : Action) : Prop :=
  a.subscribes = false ∧ ∀ e, a.publishes? event = some e → r e event

/-- Whatever the handler is called with, it subscribes nobody and publishes only what is below. -/
def Handler.Lowers (r : Event → Event → Prop) (handler : Handler Action) : Prop :=
  ∀ event, ∀ a ∈ handler.react event, a.Lowers r event

/-- Whether an action neither publishes nor subscribes. -/
def Action.isMute : Action → Bool
  | .publish .. | .countdown _ | .subscribe .. => false
  | _ => true

theorem Action.Lowers.of_mute {event : Event} {a : Action} (ha : a.isMute = true) :
    a.Lowers r event := by
  cases a with
  | publish | countdown | subscribe => exact absurd ha (by simp [isMute])
  | _ => exact ⟨rfl, fun e he => absurd he (by simp [publishes?])⟩

theorem Action.isMute_of_isPrivate {a : Action} (ha : a.isPrivate = true) : a.isMute = true := by
  cases a with
  | sleep | panic | report => rfl
  | _ => exact absurd ha (by simp [isPrivate])

namespace Task

/-- A task that lowers events, in the call that it is at and in those to come. -/
structure Wanes (r : Event → Event → Prop) (t : Task) : Prop where
  handler : t.handler.Lowers r
  todo : ∀ lent call, t.phase = .draining lent (some call) →
    ∀ a ∈ call.todo, a.Lowers r call.event

section

variable {t t' : Task} {said : Option Event}

theorem Wanes.wake (hw : t.Wanes r) : t.wake.Wanes r :=
  ⟨t.same_wake.handler ▸ hw.handler, fun lent call hp => hw.todo lent call (t.phase_wake ▸ hp)⟩

/-- What a task does of its own keeps it one that lowers events. -/
theorem Wanes.stride (hw : t.Wanes r) (hg : t.Stride said t') : t'.Wanes r := by
  have hall : t'.All fun event a => a.Lowers r event :=
    Task.All.stride ⟨hw.handler, hw.todo⟩ hg
  exact ⟨hall.handler, hall.todo⟩

end

/-! ## The heads of a task -/

/-- What comes with an event that is not delivered yet. -/
def head (t : Task) (event : Event) : Head := .call event ((t.handler.react event).length + 1)

/-- The call that the task is at. -/
def underway (t : Task) : List Head :=
  match t.phase with
  | .draining _ (some call) => [.call call.event call.todo.length]
  | _ => []

/-- At least as many steps as the task makes before it comes to another event or another action. -/
def unrest (t : Task) : Nat :=
  match t.phase with
  | .ready => 3
  | .armed => t.alertness + 2
  | .idle => t.alertness + 1
  | .waiting => t.alertness
  -- When nothing is left the batch ends, and the task looks for events again.
  | .draining _ none => if t.batch.isEmpty then 4 else 0
  | .draining _ (some call) => call.asleep.toList.length
  | .failed .. => 0

/-- The call, the rest of the batch and the queue. -/
def ahead (t : Task) (queue : List Event) : List Head :=
  t.underway ++ (t.batch ++ queue).map t.head

/-- The heads of a task for which `queue` is queued. -/
def heads (t : Task) (queue : List Event) : List Head := .step t.unrest :: t.ahead queue

section

variable {t t' : Task} {queue queue' : List Event}

theorem Same.head (hs : t.Same t') : t'.head = t.head := by
  funext event
  rw [Task.head, Task.head, hs.handler]

theorem heads_below_tick {a : Head} {n : Nat} (ha : a ∈ t.heads queue) :
    Head.Below r a (.tick n) := by
  rcases List.mem_cons.mp ha with rfl | ha
  · exact Head.step_below_tick
  · rcases List.mem_append.mp ha with ha | ha
    · unfold underway at ha
      split at ha
      · exact List.mem_singleton.mp ha ▸ Head.call_below_tick
      · exact absurd ha (by simp)
    · obtain ⟨event, -, rfl⟩ := List.mem_map.mp ha
      exact Head.call_below_tick

theorem heads_append (t : Task) (queue more : List Event) :
    t.heads (queue ++ more) = t.heads queue ++ more.map t.head := by
  simp only [heads, ahead, List.map_append, List.append_assoc, List.cons_append]

/-- A step between two events leaves fewer of them, and all events where they are. -/
theorem cut_step (hr : WellFounded r) (hs : t.Same t') (hunderway : t'.underway = t.underway)
    (hevents : t'.batch ++ queue' = t.batch ++ queue) (hless : t'.unrest < t.unrest) :
    Cut (Head.Below r) (.step t.unrest) (t.heads queue) (t'.heads queue') := by
  have hahead : t'.ahead queue' = t.ahead queue := by
    rw [ahead, ahead, hunderway, hevents, hs.head]
  refine .of_perm [.step t'.unrest] (Head.not_below_self hr _) (.refl _) ?_ ?_
  · simpa using Head.step_below hless
  · rw [heads, hahead]
    exact List.Subperm.refl _

/-- When the head that is next ahead is cut off, then it does not matter what the task has to do
before it comes to another. -/
theorem cut_call (hr : WellFounded r) (grown rest : List Head) {event : Event} {n : Nat}
    (hnow : t.ahead queue = .call event n :: rest)
    (hgrown : ∀ b ∈ grown, Head.Below r b (.call event n))
    (hthen : (t'.ahead queue').Sublist (grown ++ rest)) :
    Cut (Head.Below r) (.call event n) (t.heads queue) (t'.heads queue') := by
  have hfront : (t.heads queue).Perm (.call event n :: .step t.unrest :: rest) := by
    rw [heads, hnow]
    exact .swap _ _ _
  refine .of_perm (.step t'.unrest :: grown) (Head.not_below_self hr _) hfront ?_ ?_
  · intro b hb
    rcases List.mem_cons.mp hb with rfl | hb
    · exact Head.step_below_call
    · exact hgrown b hb
  · have hmore : (grown ++ rest).Sublist (grown ++ .step t.unrest :: rest) :=
      (List.sublist_cons_self _ rest).append_left grown
    exact ((hthen.trans hmore).cons_cons _).subperm

end

/-! ## What a step cuts off -/

section

variable {t : Task} {lent : Option (List Event)} {call : Call} {queue : List Event}
  (hr : WellFounded r)

include hr

/-- A step from no batch to no batch. -/
theorem cut_between {t' : Task} (hs : t.Same t') (hp : ∀ lent call, t.phase ≠ .draining lent call)
    (hp' : ∀ lent call, t'.phase ≠ .draining lent call) (hless : t'.unrest < t.unrest) :
    Cut (Head.Below r) (.step t.unrest) (t.heads queue) (t'.heads queue) := by
  have hempty : ∀ s : Task, (∀ lent call, s.phase ≠ .draining lent call) →
      s.underway = [] ∧ s.batch = [] := by
    intro s hs
    cases hphase : s.phase with
    | draining lent call => exact absurd hphase (hs lent call)
    | _ => exact ⟨by rw [underway, hphase], by rw [batch, hphase]⟩
  refine cut_step hr hs ?_ ?_ hless
  · rw [(hempty t hp).1, (hempty t' hp').1]
  · rw [(hempty t hp).2, (hempty t' hp').2]

theorem cut_register (hp : t.phase = .ready) :
    Cut (Head.Below r) (.step t.unrest) (t.heads queue) (t.register.heads queue) := by
  refine cut_between hr ⟨rfl, rfl, rfl, rfl⟩ (by simp [hp]) (by simp [register]) ?_
  rw [unrest, unrest, hp]
  exact Nat.lt_succ_self 2

theorem cut_findNothing (hp : t.phase = .armed) :
    Cut (Head.Below r) (.step t.unrest) (t.heads queue) ((t.enter .idle).heads queue) := by
  refine cut_between hr ⟨rfl, rfl, rfl, rfl⟩ (by simp [hp]) (by simp [enter]) ?_
  rw [unrest, unrest, hp]
  exact Nat.lt_succ_self _

theorem cut_park (hp : t.phase = .idle) :
    Cut (Head.Below r) (.step t.unrest) (t.heads queue) ((t.enter .waiting).heads queue) := by
  refine cut_between hr ⟨rfl, rfl, rfl, rfl⟩ (by simp [hp]) (by simp [enter]) ?_
  rw [unrest, unrest, hp]
  exact Nat.lt_succ_self _

theorem cut_resume (hp : t.phase = .waiting) (hwoken : t.woken = true) :
    Cut (Head.Below r) (.step t.unrest) (t.heads queue) ((t.enter .ready).heads queue) := by
  refine cut_between hr ⟨rfl, rfl, rfl, rfl⟩ (by simp [hp]) (by simp [enter]) ?_
  rw [unrest, unrest, hp]
  simp only [alertness, hwoken]
  exact Nat.lt_succ_self 3

theorem cut_take (hp : t.phase = .armed) {found : List Event} (hne : found ≠ []) :
    Cut (Head.Below r) (.step t.unrest) (t.heads found) ((t.beginBatch found).heads []) := by
  have hbatch := t.batch_beginBatch found
  have hphase : ∃ lent, (t.beginBatch found).phase = .draining lent none := by
    unfold beginBatch
    split
    · exact ⟨_, rfl⟩
    · exact ⟨_, rfl⟩
  obtain ⟨lent, hphase⟩ := hphase
  refine cut_step hr (t.same_beginBatch found) ?_ ?_ ?_
  · rw [underway, underway, hp, hphase]
  · rw [hbatch, List.append_nil, batch, hp]
    rfl
  · have hfull : found.isEmpty = false := List.isEmpty_eq_false_iff.mpr hne
    rw [unrest, unrest, hp, hphase]
    simp only [hbatch, hfull]
    exact Nat.succ_pos _

theorem cut_endBatch (hp : t.phase = .draining lent none) (hbatch : t.batch = []) :
    Cut (Head.Below r) (.step t.unrest) (t.heads queue) (t.endBatch.heads queue) := by
  refine cut_step hr ⟨rfl, rfl, rfl, rfl⟩ ?_ ?_ ?_
  · rw [underway, underway, hp]
    rfl
  · rw [hbatch]
    rfl
  · rw [unrest, unrest, hp, hbatch]
    exact Nat.lt_succ_self 3

theorem cut_awake (hp : t.phase = .draining lent (some call)) {alarm : Nat}
    (hasleep : call.asleep = some alarm) :
    Cut (Head.Below r) (.step t.unrest) (t.heads queue)
      ((t.continueCall lent { call with asleep := none }).heads queue) := by
  refine cut_step hr ⟨rfl, rfl, rfl, rfl⟩ ?_ ?_ ?_
  · rw [underway, underway, hp]
    rfl
  · exact congrArg (· ++ queue) (batch_enter_draining hp _)
  · rw [unrest, unrest, hp]
    simp only [hasleep]
    exact Nat.lt_succ_self 0

theorem cut_beginCall {event : Event} {rest : List Event} (hp : t.phase = .draining lent none)
    (hbatch : t.batch = event :: rest) :
    Cut (Head.Below r) (t.head event) (t.heads queue)
      ((t.beginCall lent event rest).heads queue) := by
  have hnow : t.ahead queue = t.head event :: (rest ++ queue).map t.head := by
    rw [ahead, underway, hp, hbatch]
    rfl
  have hthen : (t.beginCall lent event rest).ahead queue =
      .call event (t.handler.react event).length :: (rest ++ queue).map t.head := by
    rw [ahead, batch_beginCall]
    cases lent <;> rfl
  refine cut_call hr [.call event (t.handler.react event).length]
    ((rest ++ queue).map t.head) hnow ?_ (by rw [hthen]; exact .refl _)
  simpa using Head.call_below (Nat.lt_succ_self _)

omit hr in
/-- What is ahead of a task that is at a call. -/
theorem ahead_of_call (hp : t.phase = .draining lent (some call)) :
    t.ahead queue = .call call.event call.todo.length :: (t.batch ++ queue).map t.head := by
  rw [ahead, underway, hp]
  rfl

theorem cut_act (hp : t.phase = .draining lent (some call)) {a : Action} {rest : List Action}
    (htodo : call.todo = a :: rest) (n : Nat) (asleep : Option Nat) :
    Cut (Head.Below r) (.call call.event (rest.length + 1)) (t.heads queue)
      ((t.continueCall lent { call with todo := rest.drop n, asleep }).heads queue) := by
  have hnow : t.ahead queue =
      .call call.event (rest.length + 1) :: (t.batch ++ queue).map t.head := by
    rw [ahead_of_call hp, htodo, List.length_cons]
  have hthen : (t.continueCall lent { call with todo := rest.drop n, asleep }).ahead queue =
      .call call.event (rest.drop n).length :: (t.batch ++ queue).map t.head := by
    rw [← batch_enter_draining hp (some { call with todo := rest.drop n, asleep })]
    rfl
  refine cut_call hr [.call call.event (rest.drop n).length]
    ((t.batch ++ queue).map t.head) hnow ?_ (by rw [hthen]; exact .refl _)
  have hless : (rest.drop n).length < rest.length + 1 :=
    Nat.lt_succ_of_le (List.length_drop ▸ Nat.sub_le ..)
  simpa using Head.call_below hless

/-- Who fails drops the batch. -/
theorem cut_fail (hp : t.phase = .draining lent (some call)) (payload : Payload) (caught : Bool) :
    Cut (Head.Below r) (.call call.event call.todo.length) (t.heads queue)
      ((t.fail payload caught).heads queue) := by
  refine cut_call hr [] ((t.batch ++ queue).map t.head) (ahead_of_call hp) (by simp) ?_
  exact (List.sublist_append_right t.batch queue).map t.head

theorem cut_endCall (hp : t.phase = .draining lent (some call)) :
    Cut (Head.Below r) (.call call.event call.todo.length) (t.heads queue)
      ((t.endCall lent).heads queue) := by
  refine cut_call hr [] ((t.batch ++ queue).map t.head) (ahead_of_call hp) (by simp) ?_
  rw [← batch_enter_draining hp none]
  exact .refl _

end

end Task

end EventBus
