import EventBus.Proofs.Instant
import EventBus.Proofs.Occupancy

/-!
# The end of a bus that is shut down

Time does not pass while somebody can move. A loop whose bus is down can end, and a task whose bus
is down can always go on, or leave from its wait, unless its handler makes a pause. So when time has
passed nothing is left of a bus that is down but the tasks in such a pause, at whichever point of
the time it was shut down and by whomever.
-/

set_option autoImplicit false

namespace EventBus

namespace Task

/-- The handler of the task is in the middle of a call, in a pause that is not over at `now`. -/
def Asleep (t : Task) (now : Nat) : Prop :=
  ∃ lent call alarm, t.phase = .draining lent (some call) ∧ call.asleep = some alarm ∧ now < alarm

theorem Asleep.not_parked {t : Task} {now : Nat} (ht : t.Asleep now) :
    t.phase.isParked = false := by
  obtain ⟨lent, call, alarm, hp, -, -⟩ := ht
  rw [hp]
  rfl

end Task

namespace Host

variable {h h' : Host}

/-- When nobody can move, a task waits for a wake-up that has not come, or for the end of a
pause. -/
theorem still_of_quiet (hquiet : h.isQuiet = true) {c : ConsumerRef} {t : Task}
    (ht : h.task? c = some t) : (t.phase = .waiting ∧ t.woken = false) ∨ t.Asleep h.now := by
  obtain rfl := consumer_of_task? ht
  have hstuck : ∀ {m : Host}, ¬h.TaskStep t m := not_taskStep_of_quiet hquiet ht
  cases hp : t.phase with
  | ready => exact absurd (.register hp) hstuck
  | armed => exact absurd (.look hp) hstuck
  | idle => exact absurd (.park hp) hstuck
  | waiting =>
    refine .inl ⟨rfl, ?_⟩
    rw [← Bool.not_eq_true]
    exact fun hw => hstuck (.resume hp hw)
  | draining lent call? =>
    cases call? with
    | none =>
      cases hb : t.batch with
      | nil => exact absurd (.endBatch hp hb) hstuck
      | cons event rest => exact absurd (.beginCall hp hb) hstuck
    | some call =>
      cases hasleep : call.asleep with
      | some alarm =>
        refine .inr ⟨lent, call, alarm, hp, hasleep, Nat.lt_of_not_le fun hle => ?_⟩
        exact hstuck (.awake hp hasleep hle)
      | none =>
        cases htodo : call.todo with
        | nil => exact absurd (.endCall hp hasleep htodo) hstuck
        | cons a rest => exact absurd (.perform hp hasleep htodo) hstuck
  | failed payload caught => exact absurd (.fail hp) hstuck

/-- A task whose bus is down moves, unless its handler makes a pause. -/
theorem asleep_of_quiet (hp : h.Paired) (hquiet : h.isQuiet = true) {t : Task} (ht : t ∈ h.tasks)
    (hdown : h.isDown t.consumer.group.bus = true) : t.Asleep h.now := by
  have htask := hp.task?_of_mem ht
  refine (still_of_quiet hquiet htask).resolve_left fun ⟨hwaits, _⟩ => ?_
  exact not_moveStep_of_quiet hquiet (.leave htask hwaits hdown)

/-- No loop of a bus that is down is left. -/
theorem isDown_of_quiet (hs : h.LoopsSound) (hquiet : h.isQuiet = true) {l : FlushLoop}
    (hl : l ∈ h.loops) : h.isDown l.group.bus = false := by
  rw [← Bool.not_eq_true]
  exact fun hdown => not_moveStep_of_quiet hquiet (.halt (hs.loop?_of_mem hl) hdown)

/-- **A bus that is shut down winds down.** When time has passed, and a bus is down by then, then
every consumer that ever subscribed to it has ended, its slot is gone and its subscription is not
active, or its handler is in the middle of a pause. So is the handler of a consumer that has ended,
if its task was dropped and has left a job. None of its consumers is inside its wait, and none of
its flush loops is alive. -/
theorem wound_down (hr : h.Reachable) {fuel ms : Nat} (finished : h.advance fuel ms = some h')
    {b : BusId} (hdown : h'.isDown b = true) :
    (∀ c : ConsumerRef, c.group.bus = b → (h'.journal.subscribed? c).isSome = true →
      (h'.journal.hasEnded c = true ∧ h'.slot? c = none ∧ h'.isActive c = false ∧
          ∀ t, h'.task? c = some t → t.orphaned = true ∧ t.Asleep h'.now) ∨
        ∃ t, h'.task? c = some t ∧ t.orphaned = false ∧ t.Asleep h'.now) ∧
      (∀ t ∈ h'.tasks, t.consumer.group.bus = b → t.phase.isParked = false) ∧
      ∀ l ∈ h'.loops, l.group.bus ≠ b := by
  obtain ⟨ts, run, -⟩ := run_of_advance finished
  obtain ⟨hquiet, -⟩ := quiet_of_runUntil finished
  have hafter : h'.Reached := hr.reached.changes (run.changes hr.reached)
  -- at rest only a pause keeps a task of this bus
  have hasleep : ∀ t ∈ h'.tasks, t.consumer.group.bus = b → t.Asleep h'.now :=
    fun t ht hb => asleep_of_quiet hafter.paired hquiet ht (by rw [hb]; exact hdown)
  refine ⟨?_, fun t ht hb => (hasleep t ht hb).not_parked, fun l hl hb => ?_⟩
  · intro c hb hsub
    have hpause : ∀ {t}, h'.task? c = some t → t.Asleep h'.now := by
      intro t htask
      refine hasleep t (mem_of_task? htask) ?_
      rw [consumer_of_task? htask]
      exact hb
    cases hafter.lifetime c with
    | unborn _ _ hnever => exact absurd hsub (by simp [hnever])
    | alive htask _ hlive => exact .inr ⟨_, htask, hlive, hpause htask⟩
    | gone hslot hjob _ hend =>
      refine .inl ⟨hend, hslot, ?_, fun t htask => ⟨(hjob t htask).orphaned, hpause htask⟩⟩
      rw [← Bool.not_eq_true, isActive_iff, hslot]
      simp
  · have hup := isDown_of_quiet hafter.loopsSound hquiet hl
    rw [hb, hdown] at hup
    exact absurd hup (by simp)

/-- Two consumers get an event. The handler of the first closes the bus and then makes a pause. -/
def closingTurns : List Turn :=
  [.obey (.make "b" {} false),
    .obey (.subscribe (.named "b")
      { handler := ⟨⟨"c", .async⟩, fun _ => [.close (.named "b"), .sleep 10]⟩, kind := .int }
      false),
    .obey (.subscribe (.named "b") { handler := ⟨⟨"w", .async⟩, fun _ => []⟩, kind := .int } false),
    .obey (.publish (.named "b") (.int 1))]

def closing : Host := ((initial true).replay closingTurns).getD {}

theorem closing_reachable : closing.Reachable := ⟨true, closingTurns, run_of_isSome (by decide)⟩

/-- After a millisecond the first of the two is still at its pause, and the other has ended. -/
theorem wound_down_closing : ∃ h', closing.advance 40 1 = some h' ∧ h'.isDown 0 = true ∧
    (∃ t, h'.task? ⟨⟨0, 42⟩, 1⟩ = some t ∧ t.orphaned = false ∧ t.Asleep h'.now) ∧
    h'.slot? ⟨⟨0, 42⟩, 2⟩ = none ∧ h'.isActive ⟨⟨0, 42⟩, 2⟩ = false ∧
    ∀ l ∈ h'.loops, l.group.bus ≠ 0 := by
  obtain ⟨h', finished⟩ := Option.isSome_iff_exists.mp
    (show (closing.advance 40 1).isSome = true by decide)
  have hseen : (closing.advance 40 1).map (fun h => (h.isDown 0,
      (h.journal.subscribed? ⟨⟨0, 42⟩, 1⟩).isSome, h.journal.hasEnded ⟨⟨0, 42⟩, 1⟩,
      (h.journal.subscribed? ⟨⟨0, 42⟩, 2⟩).isSome, (h.task? ⟨⟨0, 42⟩, 2⟩).isSome)) =
      some (true, true, false, true, false) := by decide
  rw [finished, Option.map_some, Option.some.injEq] at hseen
  simp only [Prod.mk.injEq] at hseen
  obtain ⟨hdown, hsub, hrunning, hsub', hgone⟩ := hseen
  obtain ⟨hconsumers, -, hloops⟩ := wound_down closing_reachable finished hdown
  refine ⟨h', finished, hdown, (hconsumers _ rfl hsub).resolve_left fun hended => ?_, ?_⟩
  · exact absurd (hrunning.symm.trans hended.1) (by simp)
  · obtain ⟨-, hslot, hinactive, -⟩ := (hconsumers _ rfl hsub').resolve_right fun hsome => by
      obtain ⟨t, ht, -⟩ := hsome
      rw [ht] at hgone
      exact absurd hgone (by simp)
    exact ⟨hslot, hinactive, hloops⟩

end Host

end EventBus
