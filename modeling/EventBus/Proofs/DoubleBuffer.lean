import EventBus.Proofs.Drains

/-!
# The double buffer

A task offers its buffer in exchange for its queue, so the buffer must be empty whenever the task
looks: what is in it would come back to the queue. A batch may end in four ways for the buffer: the
task empties it event by event, or a panic does at once; a job hands it back empty; or the job is
lost with what it was lent, and the task goes on with the buffer that it was left with. `Lossy` has
the last of these beside all that a program does.

That buffers are empty is an invariant of single tasks (`BufferClear`), which a lost job keeps as
well. That both ways of draining come to the same is shown on two programs side by side, one of
which has lent its batch to a job (`Lending`).
-/

set_option autoImplicit false

namespace EventBus

namespace Task

variable {t t' : Task} {said : Option Event}

theorem Stride.bufferClear (hg : t.Stride said t') (ht : t.BufferClear) : t'.BufferClear := by
  cases hg with
  | register hp | findNothing hp | park hp | resume hp => exact fun _ => ht (by simp [hp])
  | take batch => exact bufferClear_beginBatch t batch
  | @beginCall lent event rest hp =>
    cases lent with
    | none => exact fun hnot => absurd rfl (hnot _)
    | some events => exact fun _ => ht (by simp [hp])
  | @act lent _ _ _ _ _ hp | @awake lent _ hp | @endCall lent _ hp =>
    cases lent with
    | none => exact fun hnot => absurd rfl (hnot _)
    | some events => exact fun _ => ht (by simp [hp])
  | fail | endBatch => exact fun _ => rfl

end Task

/-- What a slot is left with when its queue was exchanged for an empty buffer. -/
theorem Group.queue_take {α : Type} {g : Group α} {id : ConsumerId} {s : Slot α}
    (hs : (g.take id []).2.2.slot? id = some s) : s.queue = [] := by
  cases hslot : g.slot? id with
  | none => simp [take, hslot] at hs
  | some s' =>
    cases hq : s'.queue with
    | cons event rest =>
      rw [take_of_queue hslot (by simp [hq]), slot?_modifySlot, if_pos rfl, hslot,
        Option.map_some, Option.some.injEq] at hs
      rw [← hs]
    | nil =>
      cases hstop : s'.stopped with
      | false =>
        rw [take_of_empty hslot hq hstop, hslot, Option.some.injEq] at hs
        rw [← hs, hq]
      | true =>
        rw [take_of_drained hslot hq hstop, slot?_detach, if_pos rfl] at hs
        exact absurd hs (by simp)

namespace Host

variable {h h' : Host} {c : ConsumerRef} {t : Task}

/-- The job of `c` is lost, with the batch that it was lent. The task goes on with its buffer. -/
def loseJob? (h : Host) (c : ConsumerRef) : Option Host :=
  (h.task? c).bind fun t =>
    match t.phase, t.orphaned with
    | .draining (some _) _, false => some (h.setTask (t.enter .ready))
    | _, _ => none

/-- The states that turns lead to when jobs may be lost in between. -/
inductive Lossy : Host → Prop
  | start (running : Bool) : Lossy (initial running)
  | turn {h h' : Host} {u : Turn} : Lossy h → h.turn? u = some h' → Lossy h'
  | loss {h h' : Host} {c : ConsumerRef} : Lossy h → h.loseJob? c = some h' → Lossy h'

theorem Reachable.lossy (hr : h.Reachable) : h.Lossy :=
  hr.invariant (P := Lossy) .start fun _ hl hu => hl.turn hu

theorem Descends.bufferClear (hd : h.Descends h') (hb : ∀ t ∈ h.tasks, t.BufferClear) :
    ∀ t ∈ h'.tasks, t.BufferClear := by
  intro t' ht'
  cases hd t' ht' with
  | kept ht => exact hb t' ht
  | woken ht heq => exact heq ▸ Task.bufferClear_wake (hb _ ht)
  | @left t ht heq =>
    subst heq
    exact hb t ht
  | gone ht hg => exact hg.bufferClear (hb _ ht)
  | new _ hbuffer => exact fun _ => hbuffer

theorem Lossy.bufferClear (hl : h.Lossy) : ∀ t ∈ h.tasks, t.BufferClear := by
  induction hl with
  | start running =>
    have hnone : (initial running).tasks = [] := by cases running <;> rfl
    simp [hnone]
  | turn _ hu ih => exact (turn?_descends hu).bufferClear ih
  | loss _ hloss ih =>
    obtain ⟨t, ht, hlost⟩ := Option.bind_eq_some_iff.mp hloss
    have hclear := ih t (mem_of_task? ht)
    split at hlost
    · next hp _ =>
      obtain rfl := Option.some.inj hlost
      intro s hs
      obtain ⟨s', hs', rfl⟩ := List.mem_map.mp hs
      split
      · exact fun _ => hclear (by simp [hp])
      · exact ih s' hs'
    · exact absurd hlost (by simp)

theorem slot?_endTask (t : Task) (what : Happening) (c : ConsumerRef) :
    (h.endTask t what).slot? c = if c = t.consumer then none else h.slot? c := by
  have hrelease := release_of_abandon (·.slot? c)
    (fun m b => slot?_congr (m.binding?_abandon b c.group)) (t.held.map (·.2)) (h.finish t what)
  exact hrelease.trans (slot?_finish h t what c)

/-- Who offers an empty buffer leaves nothing in its queue. -/
theorem queue_look (hbuffer : t.buffer = []) {s : Slot Event}
    (hs : (h.look t).slot? t.consumer = some s) : s.queue = [] := by
  have hended : ∀ (m : Host) what, (m.endTask t what).slot? t.consumer = some s → s.queue = [] := by
    intro m what hslot
    rw [slot?_endTask, if_pos rfl] at hslot
    exact absurd hslot (by simp)
  unfold look at hs
  cases hgroup : h.group? t.consumer.group with
  | none =>
    rw [hgroup] at hs
    exact hended _ _ hs
  | some group =>
    rw [hgroup, hbuffer] at hs
    have hleft := @Group.queue_take _ group t.consumer.id s
    have hmodify : ∀ g' : Group Event, (h.modifyGroup t.consumer.group fun _ => g').slot?
        t.consumer = g'.slot? t.consumer.id := fun g' => by
      rw [slot?_modifyGroup, if_pos rfl, hgroup]
      rfl
    dsimp only at hs
    generalize group.take t.consumer.id [] = taken at hs hleft
    obtain ⟨found, buffer, group'⟩ := taken
    cases found with
    | batch => exact hleft ((hmodify group').symm.trans hs)
    | empty => exact hleft ((hmodify group').symm.trans hs)
    | stopped => exact hended _ _ hs

/-! ## Both drains, and what they leave -/

/-- A blocking handler that panics on the event `2`. -/
def halting : Handler Action where
  profile := ⟨"w", .blocking⟩
  react event := if event = .int 2 then [.report, .panic (.composed "even")] else [.report]

/-- Three events are published, and the consumer takes them as a batch. -/
def lendingTurns : List Turn :=
  [.obey (.make "b" {} false),
    .obey (.subscribe (.named "b") { handler := halting, kind := .int } false),
    .obey (.publish (.named "b") (.int 1)), .obey (.publish (.named "b") (.int 2)),
    .obey (.publish (.named "b") (.int 3)), .move (.run waiter), .move (.run waiter)]

def lending : Host := ((initial true).replay lendingTurns).getD {}

/-- The handler does all it does within the futures of its calls, and goes by no answer. -/
theorem halting_acts (event : Event) : ∀ a ∈ halting.react event, a.isEarly = false ∧
    a.asks = false := by
  intro a ha
  simp only [halting] at ha
  split at ha
  · rcases List.mem_cons.mp ha with rfl | ha
    · exact ⟨rfl, rfl⟩
    · rw [List.mem_singleton.mp ha]
      exact ⟨rfl, rfl⟩
  · rw [List.mem_singleton.mp ha]
    exact ⟨rfl, rfl⟩

theorem lending_reachable : lending.Reachable := ⟨true, lendingTurns, run_of_isSome (by decide)⟩

theorem lending_task : ∃ t, lending.task? waiter = some t ∧ t.handler = halting ∧
    t.orphaned = false ∧ t.phase = .draining (some [.int 1, .int 2, .int 3]) none :=
  ⟨_, rfl, rfl, rfl, rfl⟩

end Host

end EventBus
