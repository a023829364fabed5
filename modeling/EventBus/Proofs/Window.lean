import EventBus.Proofs.Subscribers

/-!
# Nothing is lost, nothing comes twice

What handlers are called with, compared with what their consumers are owed.

What is owed is read off the journal, so it is first tied to what was asked for. At every moment the
window of a consumer is open exactly as long as its subscription is active and its bus is not closed
(`awaits_iff`). To cancel that subscription ends it, and so does to close that bus, whether or not
the request finds anything left to do; no other cancellation and no other closing does. And an event
that is published goes into the windows that are open to it, and into no other.
-/

set_option autoImplicit false

namespace EventBus

namespace Host

/-! ## When a window is open -/

section

variable {h h' : Host} {b : BusId} {c : ConsumerRef} {kind : Kind}

theorem Reached.known_of_subscribed (hr : h.Reached)
    (hs : (h.journal.subscribed? c).isSome = true) : h.Known c := by
  cases hr.lifetime c with
  | unborn _ _ hsub =>
    rw [hsub] at hs
    exact absurd hs (by simp)
  | alive _ _ _ hk => exact hk
  | gone _ _ hk => exact hk

/-- A window is open as long as the subscription is active and the bus is not closed, to the events
of the kind that is bound to the type. -/
theorem Reached.awaits_iff (hr : h.Reached) : h.journal.awaits c kind = true ↔
    h.isActive c = true ∧ h.isClosed c.group.bus = false ∧ h.kind? c.group = some kind := by
  rw [hr.isActive_iff_journal]
  constructor
  · intro haw
    simp only [Journal.awaits, Bool.and_eq_true, decide_eq_true_eq, Bool.not_eq_true'] at haw
    obtain ⟨⟨⟨hsub, hopen⟩, hcancelled⟩, hended⟩ := haw
    obtain ⟨kind', hsub', hgiven⟩ := hr.known_of_subscribed (by rw [hsub]; rfl)
    obtain rfl := Option.some.inj (hsub.symm.trans hsub')
    refine ⟨⟨by rw [hsub]; rfl, hcancelled, hended⟩, ?_, hgiven.kind?⟩
    rw [← Bool.not_eq_true]
    intro hclosed
    rw [(hr.hasClosed_iff c.group.bus).mpr ⟨hgiven.hasBus, hclosed⟩] at hopen
    exact absurd hopen (by simp)
  · rintro ⟨⟨hsub, hcancelled, hended⟩, hopen, hkind⟩
    obtain ⟨kind', hsub', hgiven⟩ := hr.known_of_subscribed hsub
    obtain rfl := Option.some.inj (hgiven.kind?.symm.trans hkind)
    have hnever : h.journal.hasClosed c.group.bus = false := by
      rw [← Bool.not_eq_true]
      intro hclosed
      rw [((hr.hasClosed_iff c.group.bus).mp hclosed).2] at hopen
      exact absurd hopen (by simp)
    simp [Journal.awaits, hsub', hnever, hcancelled, hended]

/-- To cancel a subscription ends its window, and no other. If it was not active any more the
request does nothing, and its window had ended before. -/
theorem Reached.awaits_cancel (hr : h.Reached) (d : ConsumerRef) :
    (h.cancel d).journal.awaits c kind = true ↔ d ≠ c ∧ h.journal.awaits c kind = true := by
  rw [journal_cancel]
  split
  · have hcons : Journal.awaits (⟨h.now, .unsubscribed d⟩ :: h.journal) c kind =
        (decide (h.journal.subscribed? c = some kind) && !h.journal.hasClosed c.group.bus &&
          !(decide (d = c) || h.journal.hasCancelled c) && !h.journal.hasEnded c) := rfl
    rw [hcons]
    simp [Journal.awaits]
    tauto
  · next hinactive =>
    refine ⟨fun haw => ⟨?_, haw⟩, And.right⟩
    rintro rfl
    exact hinactive (hr.awaits_iff.mp haw).1

/-- To close a bus ends the windows of its consumers, and no others. -/
theorem awaits_close (hclose : h.close b = .ok h') :
    h'.journal.awaits c kind = true ↔ b ≠ c.group.bus ∧ h.journal.awaits c kind = true := by
  obtain ⟨bus, -, -, rfl⟩ := close_eq_ok hclose
  show Journal.awaits (⟨h.now, .closed b bus.registry.size⟩ :: h.journal) c kind = true ↔ _
  have hcons : Journal.awaits (⟨h.now, .closed b bus.registry.size⟩ :: h.journal) c kind =
      (decide (h.journal.subscribed? c = some kind) &&
        !(decide (b = c.group.bus) || h.journal.hasClosed c.group.bus) &&
        !h.journal.hasCancelled c && !h.journal.hasEnded c) := rfl
  rw [hcons]
  simp [Journal.awaits]
  tauto

/-- A bus that cannot be closed has no open windows. -/
theorem Reached.not_awaits_of_close (hr : h.Reached) {fault : Fault}
    (hclose : h.close c.group.bus = .error fault) : h.journal.awaits c kind = false := by
  rw [← Bool.not_eq_true, hr.awaits_iff]
  rintro ⟨-, hopen, -⟩
  obtain ⟨bus, hbus⟩ := Option.isSome_iff_exists.mp (hasBus_of_isClosed hopen)
  rw [isClosed, hbus, Option.map_some, Option.getD_some] at hopen
  simp [close, hbus, Bus.close, hopen, Except.map] at hclose

/-- An event that is published goes into the windows of the active subscriptions of its group, if
its bus takes it, and changes no other window. -/
theorem Reached.window_publish (hr : h.Reached) (b : BusId) (event : Event) (c : ConsumerRef) :
    (h.publish b event).journal.window c = h.journal.window c ++
      if c.group = ⟨b, event.type⟩ ∧ h.accepts b event = true ∧ h.isActive c = true then [event]
      else [] := by
  cases hbus : h.bus? b with
  | none =>
    have hclosed : h.accepts b event = false := by simp [accepts, isClosed, hbus]
    simp [publish, hbus, hclosed]
  | some bus =>
    obtain ⟨fate, buses, hpublish⟩ : ∃ fate buses, h.publish b event =
        { h with buses, journal := ⟨h.now, .published b event fate⟩ :: h.journal } :=
      publish_frame (by rw [hbus]; rfl)
    rw [hpublish]
    by_cases hg : c.group = ⟨b, event.type⟩
    · -- its window is the one of a consumer of this group
      obtain rfl : b = c.group.bus := by rw [hg]
      have htype : event.type = c.group.type := by rw [hg]
      show Journal.window (⟨h.now, .published c.group.bus event fate⟩ :: h.journal) c = _
      rw [Journal.window_published htype]
      have hgroup : (⟨c.group.bus, event.type⟩ : GroupRef) = c.group := hg.symm
      have hiff : h.journal.awaits c event.kind = true ↔
          h.accepts c.group.bus event = true ∧ h.isActive c = true := by
        rw [hr.awaits_iff, accepts, hgroup, Bool.and_eq_true, Bool.not_eq_true', beq_iff_eq]
        tauto
      simp only [hiff, hgroup, true_and]
      split
      · rfl
      · exact (List.append_nil _).symm
    · have hnone : (Happening.published b event fate).publishes? c.group = none := by
        rw [Happening.publishes?, if_neg fun heq => hg heq.symm]
      show Journal.window (⟨h.now, .published b event fate⟩ :: h.journal) c = _
      rw [Journal.window, hnone, if_neg fun hand => hg hand.1, List.append_nil]

end

/-! ## The main result -/

/-- **Exactly once, in order.** What a handler was called with is a prefix of what its consumer is
owed, in every state of every run. As long as the consumer has its slot, it has its task, on the
runtime that is running; and unless the handler panicked, what is missing from the prefix is the
rest of the batch at hand and what is in the queue. -/
theorem exactly_once_in_order {h : Host} (hr : h.Reachable) (c : ConsumerRef) :
    h.journal.delivered c <+: h.journal.window c ∧
      ∀ s, h.slot? c = some s → ∃ t, h.task? c = some t ∧ h.runtime = some t.runtime ∧
        (¬t.Failed → h.journal.delivered c ++ t.batch ++ s.queue = h.journal.window c) := by
  have hreached := hr.reached
  refine ⟨hreached.delivered_prefix_window c, fun s hs => ?_⟩
  cases hreached.lifetime c with
  | unborn hnone | gone hnone => exact absurd (hnone.symm.trans hs) (by simp)
  | @alive t s' ht hs' hlive _ ha =>
    obtain rfl := Option.some.inj (hs.symm.trans hs')
    refine ⟨t, ht, hreached.onRuntime.tasks t (mem_of_task? ht) hlive, fun hf => ?_⟩
    rw [ha.taken hf, ha.window]

/-- The small program goes on: there is a second event, the loop ticks, the consumer takes both
events and begins with the first, and there is a third event. -/
def workingTurns : List Turn :=
  [.obey (.publish (.named "b") (.int 2)), .move (.tick 0), .move (.run waiter),
    .move (.run waiter), .move (.run waiter), .move (.run waiter),
    .obey (.publish (.named "b") (.int 3))]

def working : Host := (waiting.replay workingTurns).getD {}

/-- The subscription is cancelled, and there is a fourth event. -/
def cancellingTurns : List Turn :=
  [.obey (.cancel "w"), .obey (.publish (.named "b") (.int 4))]

/-- The bus is closed, and there is a fourth event. -/
def hangingUpTurns : List Turn :=
  [.obey (.close (.named "b")), .obey (.publish (.named "b") (.int 4))]

/-- The consumer handles the rest of its batch, and takes what is left and handles that. -/
def finishingTurns : List Turn := List.replicate 10 (.move (.run waiter))

def cancelled : Host := (working.replay cancellingTurns).getD {}

def hungUp : Host := (working.replay hangingUpTurns).getD {}

theorem working_run : Run (initial true) (waitingTurns ++ workingTurns) working :=
  waiting_run.append (run_of_isSome (by decide))

theorem working_reachable : working.Reachable := ⟨true, _, working_run⟩

theorem cancelled_reachable : cancelled.Reachable := by
  have hrun : Run working cancellingTurns cancelled := run_of_isSome (by decide)
  exact ⟨true, _, working_run.append hrun⟩

theorem hungUp_reachable : hungUp.Reachable := by
  have hrun : Run working hangingUpTurns hungUp := run_of_isSome (by decide)
  exact ⟨true, _, working_run.append hrun⟩

theorem window_of_balance {m : Host} (batch queue : List Event)
    (hbalance : ∀ s, m.slot? waiter = some s → ∃ t, m.task? waiter = some t ∧
      m.runtime = some t.runtime ∧ (¬t.Failed →
        m.journal.delivered waiter ++ t.batch ++ s.queue = m.journal.window waiter))
    (htask : (m.task? waiter).map (·.batch) = some batch) (hsome : batch ≠ [])
    (hslot : (m.slot? waiter).map (·.queue) = some queue) :
    m.journal.window waiter = m.journal.delivered waiter ++ batch ++ queue := by
  obtain ⟨s, hs, rfl⟩ := Option.map_eq_some_iff.mp hslot
  obtain ⟨t, ht, -, hwindow⟩ := hbalance s hs
  rw [ht, Option.map_some, Option.some.injEq] at htask
  subst htask
  refine (hwindow ?_).symm
  -- a task that failed has no batch
  rintro ⟨payload, caught, hp⟩
  exact hsome (by simp [Task.batch, hp])

/-- One event is handled, one is in the batch, and one is in the queue. The fourth event comes after
the end of the subscription, or of the bus, so it is not owed; the three that are get handled. -/
theorem exactly_once_in_order_at_work :
    (working.journal.delivered waiter = [.int 1] ∧
      (working.task? waiter).map (·.batch) = some [.int 2] ∧
      (working.slot? waiter).map (·.queue) = some [.int 3] ∧
      working.journal.delivered waiter <+: working.journal.window waiter ∧
      working.journal.window waiter = [.int 1, .int 2, .int 3]) ∧
    (cancelled.journal.window waiter = [.int 1, .int 2, .int 3] ∧
      (cancelled.replay finishingTurns).map (·.journal.delivered waiter) =
        some [.int 1, .int 2, .int 3]) ∧
    hungUp.journal.window waiter = [.int 1, .int 2, .int 3] ∧
      (hungUp.replay finishingTurns).map (·.journal.delivered waiter) =
        some [.int 1, .int 2, .int 3] := by
  have hworking : working.journal.delivered waiter = [.int 1] := by decide
  have hcancelled : cancelled.journal.delivered waiter = [.int 1] := by decide
  have hhungUp : hungUp.journal.delivered waiter = [.int 1] := by decide
  have htask : (working.task? waiter).map (·.batch) = some [.int 2] := by decide
  have hslot : (working.slot? waiter).map (·.queue) = some [.int 3] := by decide
  obtain ⟨hstart, hbalance⟩ := exactly_once_in_order working_reachable waiter
  refine ⟨⟨hworking, htask, hslot, hstart, ?_⟩, ⟨?_, by decide⟩, ?_, by decide⟩
  · rw [window_of_balance _ _ hbalance htask (by simp) hslot, hworking]
    rfl
  · rw [window_of_balance [.int 2] [.int 3] (exactly_once_in_order cancelled_reachable waiter).2
      (by decide) (by simp) (by decide), hcancelled]
    rfl
  · rw [window_of_balance [.int 2] [.int 3] (exactly_once_in_order hungUp_reachable waiter).2
      (by decide) (by simp) (by decide), hhungUp]
    rfl

end Host

end EventBus
