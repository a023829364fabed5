import EventBus.Proofs.PrivateRest
import EventBus.Proofs.Subscribers

/-!
# What a request feeds to queues

Of all that a handler may ask, only publishing puts an event into a queue, and only subscribing
brings a task about. So what any other request does to the tasks, the loops and the queues is told
by the events that it publishes: it `Feeds` them, and only them, to the ends of queues.
-/

set_option autoImplicit false

namespace EventBus

namespace Action

/-- The event that an action publishes in a call with `event`, if it publishes one. -/
def publishes? (event : Event) : Action → Option Event
  | publish _ e => some e
  | countdown _ => event.number?.bind fun n => if 0 < n then some (.int (n - 1)) else none
  | _ => none

/-- The only action that brings about a task. -/
def subscribes : Action → Bool
  | subscribe .. => true
  | _ => false

end Action

/-- What is queued in a slot after an event is broadcast. -/
theorem Task.queued_accept (slot : Option (Slot Event)) (event : Event) :
    ∃ more, (∀ e ∈ more, e = event) ∧
      queued (slot.map (·.accept event)) = queued slot ++ more := by
  cases slot with
  | none => exact ⟨[], by simp, rfl⟩
  | some s =>
    cases hs : s.stopped with
    | true => exact ⟨[], by simp, by simp [queued, Slot.accept, hs]⟩
    | false => exact ⟨[event], by simp, by simp [queued, Slot.accept, hs]⟩

namespace Host

/-- From `h` to `h'` no task and no loop changes, no time passes, and nothing happens to queues but
that events of which `p` is true are appended. -/
structure Feeds (p : Event → Prop) (h h' : Host) : Prop where
  now : h'.now = h.now
  tasks : h'.tasks = h.tasks
  loops : h'.loops = h.loops
  queued : ∀ c, ∃ more, (∀ e ∈ more, p e) ∧
    Task.queued (h'.slot? c) = Task.queued (h.slot? c) ++ more

variable {p : Event → Prop} {h m h' : Host}

/-- What leaves every queue as it is feeds nothing. -/
theorem Feeds.of_queued (hnow : h'.now = h.now) (htasks : h'.tasks = h.tasks)
    (hloops : h'.loops = h.loops)
    (hqueued : ∀ c, Task.queued (h'.slot? c) = Task.queued (h.slot? c)) : h.Feeds p h' :=
  ⟨hnow, htasks, hloops, fun c => ⟨[], by simp, by rw [hqueued, List.append_nil]⟩⟩

theorem Feeds.refl (h : Host) : h.Feeds p h := .of_queued rfl rfl rfl fun _ => rfl

theorem Feeds.trans (ha : h.Feeds p m) (hb : m.Feeds p h') : h.Feeds p h' where
  now := hb.now.trans ha.now
  tasks := hb.tasks.trans ha.tasks
  loops := hb.loops.trans ha.loops
  queued c := by
    obtain ⟨xs, hxs, hm⟩ := ha.queued c
    obtain ⟨ys, hys, hh⟩ := hb.queued c
    refine ⟨xs ++ ys, fun e he => ?_, by rw [hh, hm, List.append_assoc]⟩
    exact (List.mem_append.mp he).elim (hxs e) (hys e)

/-- The bindings tell the queues. -/
theorem Feeds.of_bindings (hnow : h'.now = h.now) (htasks : h'.tasks = h.tasks)
    (hloops : h'.loops = h.loops) (hbindings : ∀ g, h'.binding? g = h.binding? g) :
    h.Feeds p h' :=
  .of_queued hnow htasks hloops fun c => by rw [slot?_congr (hbindings c.group)]

theorem note_feeds (what : Happening) : h.Feeds p (h.note what) :=
  .of_queued rfl rfl rfl fun _ => rfl

/-- A bus that is shut down keeps its queues. -/
theorem release_feeds (gone : List BusId) : h.Feeds p (h.release gone) :=
  .of_bindings (release_of_abandon (·.now) (fun _ _ => rfl) gone h) (tasks_release gone h)
    (release_of_abandon (·.loops) (fun _ _ => rfl) gone h)
    fun g => release_of_abandon (·.binding? g) (fun m b => m.binding?_abandon b g) gone h

/-! ## Requests -/

/-- A default bus that is made has no queues. -/
theorem locate_feeds (own : List (Target × BusId)) (target : Target) :
    h.Feeds p (h.locate own target).2 := by
  have hdefault : h.Feeds p h.useDefault.2 := by
    unfold useDefault
    split
    · exact .refl h
    · exact .of_bindings rfl rfl rfl (h.binding?_append rfl h.handles _)
  unfold locate
  split
  · exact .refl h
  · split
    · exact .refl h
    · exact hdefault

theorem withBus_feeds (own : List (Target × BusId)) (target : Target)
    {f : BusId → Host → Answer × Host} (hf : ∀ b (m : Host), m.Feeds p (f b m).2) :
    h.Feeds p (h.withBus own target f).2 := by
  have hlocate := locate_feeds (p := p) (h := h) own target
  unfold withBus
  split
  · next b m heq =>
    rw [heq] at hlocate
    exact hlocate.trans (hf b m)
  · next m heq =>
    rw [heq] at hlocate
    exact hlocate

/-- **Publishing feeds its event** to the slots of its type that are not stopped, or to none. -/
theorem publish_feeds {event : Event} (hp : p event) (b : BusId) :
    h.Feeds p (h.publish b event) := by
  cases hbus : h.bus? b with
  | none =>
    rw [publish, hbus]
    exact .refl h
  | some bus =>
    have hsome : (h.bus? b).isSome = true := by rw [hbus]; rfl
    have hqueued : ∀ c, ∃ more, (∀ e ∈ more, p e) ∧
        Task.queued ((h.publish b event).slot? c) = Task.queued (h.slot? c) ++ more := by
      intro c
      rw [slot?_publish hsome]
      split
      · obtain ⟨more, honly, heq⟩ := Task.queued_accept (h.slot? c) event
        exact ⟨more, fun e he => honly e he ▸ hp, heq⟩
      · exact ⟨[], by simp, (List.append_nil _).symm⟩
    obtain ⟨fate, buses, heq⟩ := @publish_frame h b event hsome
    rw [heq] at hqueued ⊢
    exact ⟨rfl, rfl, rfl, hqueued⟩

theorem publishTo_feeds {event : Event} (hp : p event) (own : List (Target × BusId))
    (target : Target) : h.Feeds p (h.publishTo own target event).2 :=
  withBus_feeds own target fun b _ => publish_feeds hp b

/-- A countdown feeds the number below that of the event, or nothing. -/
theorem countdownTo_feeds {event : Event} {target : Target}
    (hp : ∀ e, (Action.countdown target).publishes? event = some e → p e)
    (own : List (Target × BusId)) : h.Feeds p (h.countdownTo own target event).2 := by
  refine withBus_feeds own target fun b m => ?_
  cases hnumber : event.number? with
  | none => exact .refl m
  | some n =>
    by_cases hn : 0 < n
    · simp only [if_pos hn]
      exact publish_feeds (hp _ (by simp [Action.publishes?, hnumber, hn])) b
    · simp only [if_neg hn]
      exact .refl m

/-- A bus that is closed keeps its queues. -/
theorem closeAt_feeds (own : List (Target × BusId)) (target : Target) :
    h.Feeds p (h.closeAt own target).2 := by
  refine withBus_feeds own target fun b m => ?_
  split
  · next hok =>
    have hbindings := binding?_close hok
    obtain ⟨bus, -, -, rfl⟩ := close_eq_ok hok
    exact .of_bindings rfl rfl rfl hbindings
  · exact .refl m

/-- A slot that is cancelled keeps what is queued. -/
theorem cancel_feeds (c : ConsumerRef) : h.Feeds p (h.cancel c) := by
  cases ha : h.isActive c with
  | false =>
    rw [cancel_of_inactive ha]
    exact .refl h
  | true =>
    have hqueued : ∀ d, Task.queued ((h.cancel c).slot? d) = Task.queued (h.slot? d) := by
      intro d
      rw [slot?_cancel ha]
      split
      · next hd =>
        rw [hd]
        cases h.slot? c <;> rfl
      · rfl
    rw [cancel_of_active ha] at hqueued ⊢
    exact .of_queued rfl rfl rfl hqueued

theorem cancelNamed_feeds (name : String) : h.Feeds p (h.cancelNamed name).2 := by
  unfold cancelNamed
  split
  · exact .refl h
  · exact cancel_feeds _

theorem countAt_feeds (own : List (Target × BusId)) (target : Target) (type : EventType) :
    h.Feeds p (h.countAt own target type).2 :=
  withBus_feeds own target fun _ m => .refl m

theorem ask_feeds (own : List (Target × BusId)) (question : Question) :
    h.Feeds p (h.ask own question).2 := by
  cases question with
  | count target type => exact countAt_feeds own target type
  | status name => exact .refl h

end Host

end EventBus
