import EventBus.Proofs.OffRuntime

/-!
# Calls do what their handlers say

What is left to do in a call of a handler is part of what the handler does on the event. Only the
task itself goes on in its call, so for everything else that a turn does it is enough that the tasks
are those that there were before, or jobs that they have left, but for such as have not begun yet:
it `Spares` them.
-/

set_option autoImplicit false

namespace EventBus

/-- What is left to do in the call of a task is what its handler does on the event. -/
def Task.Faithful (t : Task) : Prop :=
  ∀ lent call, t.phase = .draining lent (some call) →
    ∀ a ∈ call.todo, a ∈ t.handler.react call.event

/-- A task that is at no call leaves nothing to be compared. -/
theorem Task.Faithful.of_idle {t : Task}
    (hphase : ∀ lent call, t.phase ≠ .draining lent (some call)) : t.Faithful :=
  fun lent call heq => absurd heq (hphase lent call)

namespace Host

/-- From `h` to `h'` no task moves and no time passes: the tasks of `h'` are tasks of `h` or jobs
that such have left, or have not begun yet. -/
structure Spares (h h' : Host) : Prop where
  now : h'.now = h.now
  tasks : ∀ t ∈ h'.tasks, (∃ s ∈ h.tasks, t = s ∨ t = s.orphan) ∨ t.phase = .ready

variable {h m h' : Host}

theorem Spares.refl (h : Host) : h.Spares h := ⟨rfl, fun t ht => .inl ⟨t, ht, .inl rfl⟩⟩

theorem Spares.trans (ha : h.Spares m) (hb : m.Spares h') : h.Spares h' where
  now := hb.now.trans ha.now
  tasks t ht := by
    -- a job stays a job, so a task is left at most once on the way
    rcases hb.tasks t ht with ⟨s, hs, rfl | rfl⟩ | hready
    · exact ha.tasks t hs
    · rcases ha.tasks s hs with ⟨r, hr, rfl | rfl⟩ | hready
      · exact .inl ⟨s, hr, .inr rfl⟩
      · exact .inl ⟨r, hr, .inr rfl⟩
      · exact .inr hready
    · exact .inr hready

/-- What leaves the clock and the list of tasks alone spares everybody. -/
theorem Spares.of_tasks (hn : h'.now = h.now) (ht : h'.tasks = h.tasks) : h.Spares h' :=
  ⟨hn, fun t hmem => .inl ⟨t, ht ▸ hmem, .inl rfl⟩⟩

theorem KeepsRuntime.spares (hk : h.KeepsRuntime h') : h.Spares h' := .of_tasks hk.now hk.tasks

/-! ## The end of a task -/

theorem eraseTask_spares (c : ConsumerRef) : h.Spares (h.eraseTask c) :=
  ⟨rfl, fun s hs => .inl ⟨s, (List.mem_filter.mp hs).1, .inl rfl⟩⟩

/-- The task that ends is gone, and the others are as they were. -/
theorem endTask_spares (t : Task) (what : Happening) : h.Spares (h.endTask t what) :=
  Spares.trans (m := h.finish t what) ⟨rfl, (eraseTask_spares t.consumer).tasks⟩
    (release_keepsRuntime _ _).spares

theorem endJob_spares (t : Task) : h.Spares (h.endJob t) :=
  (eraseTask_spares t.consumer).trans (release_keepsRuntime _ _).spares

/-- The one task that is new has not begun. -/
theorem spawn_spares {t : Task} (ht : t.phase = .ready) : h.Spares (h.spawn t) := by
  have happend : h.Spares { h with tasks := h.tasks ++ [t] } := by
    refine ⟨rfl, fun s hs => ?_⟩
    rcases List.mem_append.mp hs with hs | hs
    · exact .inl ⟨s, hs, .inl rfl⟩
    · exact .inr (List.mem_singleton.mp hs ▸ ht)
  unfold spawn
  split
  · exact happend
  · exact happend.trans (endTask_spares t _)

/-- A request brings about at most one task, by a subscription. If the runtime is gone that is
dropped before it has moved. -/
theorem Requested.spares (hq : h.Requested h') : h.Spares h' := by
  cases hq with
  | aside hk => exact hk.spares
  | @subscribed m _ b context who held hbefore hafter =>
    refine hbefore.spares.trans (Spares.trans ?_ hafter.spares)
    rcases subscribe_cases m b context who held with hk | ⟨n, t, hnow, htasks, -, hready, -, heq⟩
    · exact hk.spares
    · rw [heq]
      exact Spares.trans (m := n.note _) (.of_tasks hnow htasks) (spawn_spares hready)

/-! ## Turns -/

/-- Every task is at a call that does what its handler says, or at none. -/
def Faithful (h : Host) : Prop := ∀ t ∈ h.tasks, t.Faithful

/-- What spares the tasks keeps every call as its handler says: a job that was left goes on in the
call in which it was left. -/
theorem Spares.faithful (hs : h.Spares h') (hf : h.Faithful) : h'.Faithful := by
  intro t ht
  rcases hs.tasks t ht with ⟨s, hmem, rfl | rfl⟩ | hready
  · exact hf t hmem
  · exact hf s hmem
  · exact fun lent call hphase => absurd (hready.symm.trans hphase) (by simp)

theorem Faithful.setTask {t : Task} (hf : h.Faithful) (ht : t.Faithful) :
    (h.setTask t).Faithful := by
  intro s hs
  obtain ⟨s', hs', rfl⟩ := List.mem_map.mp hs
  split
  · exact ht
  · exact hf s' hs'

section

variable {t : Task} (hf : h.Faithful)

include hf

/-- A look at the queue begins a batch, or waits, or ends the task, and is in no call after it. -/
theorem look_faithful : (h.look t).Faithful := by
  unfold look
  split
  · exact (endTask_spares t _).faithful hf
  · next group _ =>
    have hgroup : ∀ f, (h.modifyGroup t.consumer.group f).Faithful := fun _ => hf
    dsimp only
    split
    · refine Faithful.setTask (hgroup _) (.of_idle ?_)
      unfold Task.beginBatch
      split <;> simp
    · exact (hgroup _).setTask (.of_idle (by simp))
    · exact (endTask_spares t _).faithful (hgroup _)

/-- An action leaves the rest of the call, and a question may cut it short. -/
theorem perform_faithful {lent : Option (List Event)} {call : Call}
    (hnext : (t.continueCall lent call).Faithful) (a : Action) :
    (h.perform t lent call a).Faithful := by
  -- what is left of the call is part of it, whether it pauses or not
  have hstep : ∀ call' : Call, call'.event = call.event → (∀ b ∈ call'.todo, b ∈ call.todo) →
      (h.setTask (t.continueCall lent call')).Faithful := by
    refine fun call' hevent hsub => hf.setTask fun lent' call'' heq b hb => ?_
    simp only [Task.continueCall, Phase.draining.injEq, Option.some.injEq] at heq
    obtain ⟨-, rfl⟩ := heq
    rw [hevent]
    exact hnext lent call rfl b (hsub b hb)
  have hperforms := perform_requested (h := h) t lent call a
  generalize h.perform t lent call a = h' at hperforms ⊢
  cases hperforms with
  | asked n answered _ _ hasked =>
    exact hasked.spares.faithful (hstep (call.skip n) rfl fun _ hb => List.mem_of_mem_drop hb)
  | pauses ms => exact hstep _ rfl fun _ hb => hb
  | panics payload early => exact hf.setTask (.of_idle (by simp [Task.fail]))
  | reports => exact hstep call rfl fun _ hb => hb

/-- A step of a batch begins the call of the next event with all that the handler does on it, or
takes the first action off the call at hand. Outside of a batch a task is in no call. -/
theorem TaskStep.faithful (hs : h.TaskStep t h') (ht : t.Faithful) : h'.Faithful := by
  have hcall : ∀ {lent : Option (List Event)} {call : Call} (call' : Call),
      t.phase = .draining lent (some call) → call'.event = call.event →
      (∀ a ∈ call'.todo, a ∈ call.todo) → (t.continueCall lent call').Faithful := by
    intro lent call call' hp hevent hsub lent' call'' heq a hmem
    simp only [Task.continueCall, Phase.draining.injEq, Option.some.injEq] at heq
    obtain ⟨-, rfl⟩ := heq
    rw [hevent]
    exact ht lent call hp a (hsub a hmem)
  cases hs with
  | register => exact hf.setTask (.of_idle (by simp [Task.register]))
  | look => exact look_faithful hf
  | park | resume => exact hf.setTask (.of_idle (by simp [Task.enter]))
  | @beginCall lent =>
    -- the call that begins has all the actions of the handler before it
    refine hf.setTask fun lent' call heq => ?_
    cases lent <;>
    · simp only [Task.beginCall, Phase.draining.injEq, Option.some.injEq] at heq
      obtain ⟨-, rfl⟩ := heq
      exact fun _ hmem => hmem
  | endBatch => exact hf.setTask (.of_idle (by simp [Task.endBatch]))
  | awake hp => exact hf.setTask (hcall _ hp rfl fun _ hmem => hmem)
  | @perform _ call a rest hp _ htodo =>
    refine perform_faithful hf (hcall { call with todo := rest } hp rfl fun b hmem => ?_) a
    rw [htodo]
    exact List.mem_cons_of_mem a hmem
  | endCall => exact hf.setTask (.of_idle (by simp [Task.endCall]))
  | fail => exact (endTask_spares t _).faithful hf

theorem MoveStep.faithful {m : Move} (hm : h.MoveStep m h') : h'.Faithful := by
  cases hm with
  | run ht _ hstep => exact hstep.faithful hf (hf _ (mem_of_task? ht))
  | endJob => exact (endJob_spares _).faithful hf
  | leave => exact (endTask_spares _ _).faithful hf
  | tick =>
    -- a task that is woken is in the same phase
    intro s hs
    obtain ⟨s', hs', rfl⟩ := List.mem_map.mp hs
    have hs' : s'.Faithful := hf s' hs'
    split
    · unfold Task.wake
      split
      · exact hs'
      · exact hs'
    · exact hs'
  | halt => exact hf

end

/-- Dropping tasks takes no time. -/
theorem now_lose (t : Task) : (h.lose t).now = h.now := by
  unfold lose
  split
  · rfl
  · exact (endTask_spares t _).now

theorem now_loseAll (ts : List Task) (h : Host) : (h.loseAll ts).now = h.now := by
  induction ts generalizing h with
  | nil => rfl
  | cons t rest ih => exact (ih (h.lose t)).trans (now_lose t)

/-- When the runtime stops tasks are dropped, or are left as jobs of which nothing has changed but
that. -/
theorem stopRuntime_spares (h : Host) : h.Spares h.stopRuntime := by
  unfold stopRuntime
  split
  · exact .refl h
  · next r _ =>
    refine ⟨now_loseAll _ _, fun t ht => .inl ?_⟩
    -- a task that is still there is as it was, or is a job that was left
    rcases mem_loseAll ht with hkept | ⟨s, hs, -, heq⟩
    · exact ⟨t, hkept, .inl rfl⟩
    · exact ⟨s, (mem_attended.mp (List.mem_filter.mp hs).1).1, .inr heq⟩

/-- No command but the one that lets time pass moves a task. -/
theorem obey_spares (c : Command) (hq : c.takesTime = false) : h.Spares (h.obey c).2 := by
  cases hc : c.reachesRuntime with
  | false => exact (obey_keepsRuntime c hc).spares
  | true =>
    cases c with
    | subscribe target who outside => exact (subscribeAt_requested _ _ target who).spares
    | stopRuntime => exact stopRuntime_spares h
    | startRuntime => exact (stopRuntime_spares h).trans (.of_tasks rfl rfl)
    | advance ms => exact absurd hq (by simp [Command.takesTime])
    | _ => exact absurd hc (by simp [Command.reachesRuntime])

theorem turn?_faithful {u : Turn} (hf : h.Faithful) (hu : h.turn? u = some h') : h'.Faithful := by
  cases turnStep_iff.mpr hu with
  | @obey c hquick => exact (obey_spares c hquick).faithful hf
  | move hm => exact hm.faithful hf
  | pass => exact hf

/-- **In every reachable state** a handler is at actions of its own on the event that it was called
with. -/
theorem Reachable.faithful (hr : h.Reachable) : h.Faithful := by
  refine hr.invariant (P := Faithful) (fun running => ?_) fun _ hf hu => turn?_faithful hf hu
  have hnone : (initial running).tasks = [] := by cases running <;> rfl
  intro t ht
  rw [hnone] at ht
  exact absurd ht (by simp)

end Host

end EventBus
