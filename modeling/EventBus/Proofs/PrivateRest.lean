import Mathlib
import EventBus.Proofs.Account
import EventBus.Proofs.Privacy

/-!
# A private consumer comes to rest

At one instant the task of a private consumer makes only so many steps: its calls are finite, what
is queued is finite, and nobody is waked by it. `Task.toil` bounds their number, and every step
makes it less.
-/

set_option autoImplicit false

namespace EventBus

namespace Task

/-- More steps than a call with an event takes. -/
def effort (t : Task) (event : Event) : Nat := 2 * (t.handler.react event).length + 2

/-- More steps than it takes to deliver some events. -/
def efforts (t : Task) (events : List Event) : Nat := (events.map t.effort).sum

/-- More steps than it takes to look for events, and to deliver them when they are found. -/
def prospects (t : Task) (events : List Event) : Nat := t.efforts events + 3 * events.length

/-- What a wake-up that came costs. -/
def alertness (t : Task) : Nat := if t.woken then 4 else 0

/-- At least as many steps as the task makes at one instant, when `queue` is queued for it. -/
def toil (t : Task) (queue : List Event) : Nat :=
  match t.phase with
  | .ready => t.prospects (queue ++ t.buffer) + 3
  | .armed => t.prospects (queue ++ t.buffer) + t.alertness + 2
  | .idle => t.prospects (queue ++ t.buffer) + t.alertness + 1
  | .waiting => t.prospects (queue ++ t.buffer) + t.alertness
  | .draining _ none => t.prospects queue + t.efforts t.batch + 4
  | .draining _ (some call) =>
    t.prospects queue + t.efforts t.batch + 2 * call.todo.length + call.asleep.toList.length + 5
  | .failed .. => 1

section

variable {t t' : Task}

theorem Same.efforts (hs : t.Same t') (events : List Event) :
    t'.efforts events = t.efforts events := by
  unfold Task.efforts effort
  rw [hs.handler]

theorem Same.prospects (hs : t.Same t') (events : List Event) :
    t'.prospects events = t.prospects events := by
  rw [Task.prospects, Task.prospects, hs.efforts]

theorem prospects_append (t : Task) (xs ys : List Event) :
    t.prospects (xs ++ ys) = t.prospects xs + t.prospects ys := by
  simp only [prospects, efforts, List.map_append, List.sum_append, List.length_append]
  omega

/-- To find events takes longer than to have them. -/
theorem efforts_lt_prospects (t : Task) {events : List Event} (hne : events ≠ []) :
    t.efforts events + 3 ≤ t.prospects events := by
  have hlength := List.length_pos_iff.mpr hne
  unfold prospects
  omega

end

/-- What is queued in a slot, if there is one. -/
def queued (slot : Option (Slot Event)) : List Event := (slot.map (·.queue)).getD []

section

variable {t : Task} {slot : Option (Slot Event)} {now : Nat} {d : Deed}

theorem toil_beginBatch (t : Task) (batch queue : List Event) :
    (t.beginBatch batch).toil queue = t.prospects queue + t.efforts batch + 4 := by
  have hs := t.same_beginBatch batch
  have hbatch := t.batch_beginBatch batch
  have hphase : ∃ lent, (t.beginBatch batch).phase = .draining lent none := by
    unfold beginBatch
    split
    · exact ⟨_, rfl⟩
    · exact ⟨_, rfl⟩
  obtain ⟨lent, hphase⟩ := hphase
  rw [toil, hphase]
  simp only [hbatch, hs.prospects, hs.efforts]

theorem toil_beginCall {lent : Option (List Event)} {event : Event} {rest : List Event}
    (hphase : t.phase = .draining lent none) (hbatch : t.batch = event :: rest)
    (queue : List Event) : (t.beginCall lent event rest).toil queue < t.toil queue := by
  have hs : t.Same (t.beginCall lent event rest) := by cases lent <;> exact ⟨rfl, rfl, rfl, rfl⟩
  have hrest := t.batch_beginCall lent event rest
  have hcall : ∃ lent', (t.beginCall lent event rest).phase =
      .draining lent' (some { event, todo := t.handler.react event }) := by
    cases lent
    · exact ⟨_, rfl⟩
    · exact ⟨_, rfl⟩
  obtain ⟨lent', hcall⟩ := hcall
  rw [toil, hcall, toil, hphase]
  simp only [hrest, hbatch, hs.prospects, hs.efforts, Option.toList_none, List.length_nil]
  simp only [efforts, effort, List.map_cons, List.sum_cons]
  omega

theorem toil_regard (hphase : t.phase = .armed) {t' : Task}
    (ht : (t.regard slot).task = some t') :
    t'.toil (queued (t.regard slot).slot) < t.toil (queued slot) := by
  unfold regard at ht ⊢
  cases slot with
  | none => exact absurd ht (by simp)
  | some s =>
    by_cases hq : s.queue = []
    · by_cases hstop : s.stopped = true
      · exact absurd ht (by simp [hq, hstop])
      · have hstop : s.stopped = false := by simpa using hstop
        simp only [hq, hstop] at ht ⊢
        obtain rfl := Option.some.inj ht
        rw [toil, toil, hphase]
        simp only [enter]
        exact Nat.lt_succ_self _
    · have hempty : s.queue.isEmpty = false := List.isEmpty_eq_false_iff.mpr hq
      simp only [hempty] at ht ⊢
      obtain rfl := Option.some.inj ht
      have hfound := t.efforts_lt_prospects hq
      show (t.beginBatch s.queue).toil t.buffer < t.toil s.queue
      rw [toil_beginBatch, toil, hphase]
      simp only [prospects_append]
      omega

theorem toil_proceed {lent : Option (List Event)} {call : Call}
    (hphase : t.phase = .draining lent (some call)) (ha : t.proceed slot now lent call = some d)
    {t' : Task} (ht : d.task = some t') : t'.toil (queued d.slot) < t.toil (queued slot) := by
  have hbatch := batch_enter_draining hphase
  -- inside the call only what is left to do and the alarm count
  have hcall : ∀ call' : Call, (t.continueCall lent call').toil (queued slot) =
      t.prospects (queued slot) + t.efforts t.batch + 2 * call'.todo.length +
        call'.asleep.toList.length + 5 := by
    intro call'
    rw [← hbatch (some call')]
    rfl
  have hnow : t.toil (queued slot) = t.prospects (queued slot) + t.efforts t.batch +
      2 * call.todo.length + call.asleep.toList.length + 5 := by rw [toil, hphase]
  obtain ⟨event, todo, asleep⟩ := call
  rw [hnow]
  cases asleep with
  -- asleep: it wakes and has its alarm no more
  | some alarm =>
    simp only [proceed] at ha
    split at ha
    · obtain rfl := Option.some.inj ha
      obtain rfl := Option.some.inj ht
      rw [hcall]
      simp
    · exact absurd ha (by simp)
  | none =>
    cases todo with
    | nil =>
      obtain rfl := Option.some.inj ha
      obtain rfl := Option.some.inj ht
      -- the end of the call gives back the unit that the call was worth
      have hend : (t.endCall lent).toil (queued slot) =
          t.prospects (queued slot) + t.efforts t.batch + 4 := by
        rw [← hbatch none]
        rfl
      rw [hend]
      simp
    | cons a rest =>
      cases a with
      -- an action becomes an alarm, which is worth one where the action was worth two
      | sleep ms =>
        obtain rfl := Option.some.inj ha
        obtain rfl := Option.some.inj ht
        rw [hcall]
        simp only [List.length_cons, Option.toList_some, Option.toList_none, List.length_nil]
        omega
      | panic payload =>
        obtain rfl := Option.some.inj ha
        obtain rfl := Option.some.inj ht
        show 1 < _
        omega
      | report =>
        obtain rfl := Option.some.inj ha
        obtain rfl := Option.some.inj ht
        rw [hcall]
        simp only [List.length_cons, Option.toList_none, List.length_nil]
        omega
      | _ => exact absurd ha (by simp [proceed])

theorem toil_carryOn (ha : t.carryOn slot now = some d) {t' : Task} (ht : d.task = some t') :
    t'.toil (queued d.slot) < t.toil (queued slot) := by
  -- one case for each phase, in the order of a round
  unfold carryOn at ha
  split at ha
  · next hphase =>
    obtain rfl := Option.some.inj ha
    obtain rfl := Option.some.inj ht
    have hready : t.toil (queued slot) = t.prospects (queued slot ++ t.buffer) + 3 := by
      rw [toil, hphase]
    rw [hready]
    exact Nat.lt_succ_self _
  · next hphase =>
    obtain rfl := Option.some.inj ha
    exact toil_regard hphase ht
  · next hphase =>
    obtain rfl := Option.some.inj ha
    obtain rfl := Option.some.inj ht
    rw [toil, toil, hphase]
    exact Nat.lt_succ_self _
  · next hphase =>
    split at ha
    · next hwoken =>
      obtain rfl := Option.some.inj ha
      obtain rfl := Option.some.inj ht
      rw [toil, toil, hphase]
      -- a task that was woken gives its wake up
      simp only [alertness, hwoken]
      exact Nat.lt_succ_self _
    · exact absurd ha (by simp)
  · next lent hphase =>
    split at ha
    · obtain rfl := Option.some.inj ha
      obtain rfl := Option.some.inj ht
      -- an empty batch: back to the start of the round
      have hdraining : t.toil (queued slot) =
          t.prospects (queued slot) + t.efforts t.batch + 4 := by rw [toil, hphase]
      show t.prospects (queued slot ++ []) + 3 < _
      rw [hdraining, List.append_nil]
      omega
    · next event rest hbatch =>
      obtain rfl := Option.some.inj ha
      obtain rfl := Option.some.inj ht
      exact toil_beginCall hphase hbatch _
  · next hphase => exact toil_proceed hphase ha ht
  · obtain rfl := Option.some.inj ha
    exact absurd ht (by simp)

/-- **Every step leaves less to do** at this instant. -/
theorem toil_act (ha : t.act slot now = some d) {t' : Task} (ht : d.task = some t') :
    t'.toil (queued d.slot) < t.toil (queued slot) := by
  unfold act at ha
  split at ha
  · obtain rfl := Option.some.inj ha
    exact absurd ht (by simp)
  · exact toil_carryOn ha ht

end

end Task

namespace Host

/-- What the consumer may still do at this instant, more than nothing as long as it has a task. -/
def toil (h : Host) (c : ConsumerRef) : Nat :=
  match h.task? c with
  | none => 0
  | some t => t.toil (Task.queued (h.slot? c)) + 1

theorem Does.toil_lt {h h' : Host} {c : ConsumerRef} {d : Task.Deed} (hd : h.Does c d h') {t : Task}
    (ht : h.task? c = some t) (ha : t.act (h.slot? c) h.now = some d) : h'.toil c < h.toil c := by
  rw [toil, toil, ht, hd.task, hd.slot]
  cases htask : d.task with
  | none => exact Nat.succ_pos _
  | some t' => exact Nat.succ_lt_succ (Task.toil_act ha htask)

end Host

end EventBus
