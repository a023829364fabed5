import EventBus.Proofs.Turn

/-!
# What a change is to one consumer

To a single consumer most changes are nothing: its slot and its task stay as they are, and what is
entered in the journal does not concern it. `Life` lists the others. A statement about one consumer
is proved by one case for each of them, and does not see what else there is in a program.
-/

set_option autoImplicit false

namespace EventBus

namespace Host

/-- What a change is to the consumer `c`: what becomes of its slot and of its task, and what is
entered of it. -/
inductive Life (c : ConsumerRef) (h h' : Host) : Nature → Prop
  -- The change is about something else.
  | apart {n : Nature} (news : Journal) : h'.slot? c = h.slot? c → h'.task? c = h.task? c →
      h'.journal = news ++ h.journal → (∀ x ∈ news, x.what.concerns c = false) → Life c h h' n
  -- An event reaches the group.
  | heard {event : Event} {fate : Publication} : event.type = c.group.type →
      h.accepts c.group.bus event = true → h.isDown c.group.bus = false →
      h'.slot? c = (h.slot? c).map (·.accept event) → h'.task? c = h.task? c →
      h'.journal = ⟨h.now, .published c.group.bus event fate⟩ :: h.journal → Life c h h' .gain
  -- An event of the group's type is dropped.
  | unheard {event : Event} {fate : Publication} : event.type = c.group.type →
      h.accepts c.group.bus event = false → h.HasBus c.group.bus →
      h'.slot? c = h.slot? c → h'.task? c = h.task? c →
      h'.journal = ⟨h.now, .published c.group.bus event fate⟩ :: h.journal → Life c h h' .gain
  -- The bus is closed.
  | closed {groups : Nat} : h'.slot? c = h.slot? c → h'.task? c = h.task? c →
      h'.journal = ⟨h.now, .closed c.group.bus groups⟩ :: h.journal → Life c h h' .loss
  -- The loop of the group ticks, and wakes the task if it has registered.
  | ticked {l : LoopId} : h'.slot? c = h.slot? c → h'.task? c = (h.task? c).map Task.wake →
      h'.journal = ⟨h.now, .ticked l c.group⟩ :: h.journal → Life c h h' .plain
  -- The consumer subscribes.
  | enrolled {t : Task} {kind : Kind} : t.consumer = c → h.Admissible t kind → h'.Given c kind →
      h'.slot? c = some { id := c.id } → h'.task? c = some t →
      h'.journal = ⟨h.now, .subscribed c kind t.handler.profile⟩ :: h.journal → Life c h h' .plain
  -- The consumer subscribes on a runtime that is gone.
  | stillborn {t : Task} {kind : Kind} : t.consumer = c → h.Admissible t kind → h'.Given c kind →
      h'.slot? c = none → h'.task? c = none →
      h'.journal = ⟨h.now, .lost c t.handler.profile⟩ ::
        ⟨h.now, .subscribed c kind t.handler.profile⟩ :: h.journal → Life c h h' .plain
  -- The subscription is cancelled.
  | cancelled {s : Slot Event} : h.slot? c = some s → s.stopped = false →
      h'.slot? c = some s.stop → h'.task? c = h.task? c →
      h'.journal = ⟨h.now, .unsubscribed c⟩ :: h.journal → Life c h h' .plain
  -- The task makes a step that leaves its slot.
  | stepped {t t' : Task} {n : Nature} {said : Option Happening} : h.task? c = some t →
      t.Step (h.slot? c) n t' said → h'.slot? c = h.slot? c → h'.task? c = some t' →
      h'.journal = said.toList.map (⟨h.now, ·⟩) ++ h.journal → Life c h h' n
  -- The task takes what is queued.
  | took {t : Task} {s : Slot Event} : h.task? c = some t → t.phase = .armed →
      h.slot? c = some s → s.queue ≠ [] → h'.slot? c = some { s with queue := [] } →
      h'.task? c = some (t.beginBatch s.queue) →
      h'.journal = ⟨h.now, .took c s.queue⟩ :: h.journal → Life c h h' .plain
  -- The task ends, and the slot goes with it.
  | finished {t : Task} {n : Nature} {what : Happening} : h.task? c = some t →
      h.Ending t n what → h'.slot? c = none → h'.task? c = none →
      h'.journal = ⟨h.now, what⟩ :: h.journal → Life c h h' n
  -- The task is dropped with its runtime, and leaves a job.
  | leftJob {t : Task} : h.task? c = some t → t.orphaned = false → t.hasJob = true →
      h'.slot? c = none → h'.task? c = some t.orphan →
      h'.journal = ⟨h.now, .lost c t.handler.profile⟩ :: h.journal → Life c h h' .drop
  -- The job that the task has left is over.
  | jobOver {t : Task} : h.task? c = some t → t.orphaned = true → h'.slot? c = h.slot? c →
      h'.task? c = none → h'.journal = h.journal → Life c h h' .plain

/-- A change that enters nothing and leaves slot and task is about something else. -/
theorem Life.of_same {c : ConsumerRef} {h h' : Host} {n : Nature} (hs : h'.slot? c = h.slot? c)
    (ht : h'.task? c = h.task? c) (hj : h'.journal = h.journal) : h.Life c h' n :=
  .apart [] hs ht hj (by simp)

/-- A change with one entry that does not concern the consumer. -/
theorem Life.of_foreign {c : ConsumerRef} {h h' : Host} {n : Nature} {x : Entry}
    (hs : h'.slot? c = h.slot? c) (ht : h'.task? c = h.task? c)
    (hj : h'.journal = x :: h.journal) (hx : x.what.concerns c = false) : h.Life c h' n :=
  .apart [x] hs ht hj (by simpa using hx)

/-- A task that was not there is put in line, and has not done anything yet. -/
theorem Life.phase_of_new {c : ConsumerRef} {h h' : Host} {n : Nature} (hl : h.Life c h' n)
    (hnone : h.task? c = none) {t : Task} (ht : h'.task? c = some t) : t.phase = .ready := by
  have hsame : h'.task? c = h.task? c → t.phase = .ready := fun hs =>
    absurd (ht.symm.trans (hs.trans hnone)) (by simp)
  cases hl with
  | apart _ _ hs | heard _ _ _ _ hs | unheard _ _ _ _ hs | closed _ hs | cancelled _ _ _ hs =>
    exact hsame hs
  | ticked _ hs => exact hsame (hs.trans (by rw [hnone]; rfl))
  | enrolled _ ha _ _ hs =>
    obtain rfl := Option.some.inj (hs.symm.trans ht)
    exact ha.phase
  | stillborn _ _ _ _ hs | finished _ _ _ hs => exact absurd (ht.symm.trans hs) (by simp)
  | stepped hs | took hs | leftJob hs | jobOver hs =>
    exact absurd (hnone.symm.trans hs) (by simp)

end Host

/-- A note of a handler or a record of a refusal is about no consumer. -/
theorem Happening.concerns_of_isAside {what : Happening} (h : what.isAside = true)
    (c : ConsumerRef) : what.concerns c = false := by
  cases what <;> first | rfl | exact absurd h (by simp [isAside])

open Host

namespace Change

variable {n : Nature} {h h' : Host}

/-- An event that is published is heard by the consumers of its group, if the bus takes it, and
concerns no others. -/
theorem life_publish (hr : h.Reached) {b : BusId} {event : Event} (hheld : h.isHeld b = true)
    (hb : (h.bus? b).isSome = true) (c : ConsumerRef) : h.Life c (h.publish b event) .gain := by
  have hslot := @slot?_publish h b event hb c
  obtain ⟨fate, buses, hframe⟩ := @publish_frame h b event hb
  have htask : (h.publish b event).task? c = h.task? c := by rw [hframe]; rfl
  have hjournal : (h.publish b event).journal = ⟨h.now, .published b event fate⟩ :: h.journal := by
    rw [hframe]
  by_cases hg : c.group = ⟨b, event.type⟩
  · have hbus : c.group.bus = b := by rw [hg]
    have htype : event.type = c.group.type := by rw [hg]
    subst hbus
    cases ha : h.accepts c.group.bus event with
    | true =>
      -- what is accepted is published on a bus that is not closed, and so not down either, since it
      -- is held
      have hopen : h.isClosed c.group.bus = false := by
        rw [accepts, Bool.and_eq_true, Bool.not_eq_true'] at ha
        exact ha.1
      rw [if_pos ⟨hg, ha⟩] at hslot
      exact .heard htype ha (hr.isDown_of_isHeld hheld hopen) hslot htask hjournal
    | false =>
      rw [if_neg fun hand => absurd (ha ▸ hand.2) (by simp)] at hslot
      exact .unheard htype ha hb hslot htask hjournal
  · rw [if_neg fun hand => hg hand.1] at hslot
    exact .of_foreign hslot htask hjournal (by simpa [Happening.concerns] using Ne.symm hg)

/-- What a task says of its step concerns its own consumer alone. -/
theorem concerns_of_step {slot : Option (Slot Event)} {t t' : Task} {said : Option Happening}
    (hs : t.Step slot n t' said) {c : ConsumerRef} (hne : c ≠ t.consumer) :
    ∀ x ∈ said, x.concerns c = false := by
  have hne' : ¬t.consumer = c := Ne.symm hne
  cases hs <;> simp [Happening.concerns, hne']

/-- How a task ends concerns its own consumer alone. -/
theorem concerns_of_ending {t : Task} {what : Happening} (he : h.Ending t n what)
    {c : ConsumerRef} (hne : c ≠ t.consumer) : what.concerns c = false := by
  have hne' : ¬t.consumer = c := Ne.symm hne
  cases he <;> simp [Happening.concerns, hne']

/-- **Every change is one of these to every consumer.** The change is about the consumer itself or
its group, or it is apart. -/
theorem life (hc : Change n h h') (hr : h.Reached) (c : ConsumerRef) : h.Life c h' n := by
  cases hc with
  | pass | rename | start => exact .of_same rfl rfl rfl
  | make hreg _ _ => exact .of_same (slot?_congr (h.binding?_append hreg _ _ c.group)) rfl rfl
  | @abandon _ b _ => exact .of_same (slot?_congr (h.binding?_abandon b c.group)) rfl rfl
  | aside haside => exact .of_foreign rfl rfl rfl (Happening.concerns_of_isAside haside c)
  | publish hheld hb => exact life_publish hr hheld hb c
  | @close _ _ b _ hok =>
    have hslot := slot?_congr (binding?_close hok c.group)
    obtain ⟨bus, -, -, rfl⟩ := close_eq_ok hok
    by_cases hb : c.group.bus = b
    · subst hb
      exact .closed hslot rfl rfl
    · exact .of_foreign hslot rfl rfl (by simpa [Happening.concerns] using Ne.symm hb)
  | bindType fresh _ hb _ => exact .of_same (slot?_bindType h hb c) rfl rfl
  | @startLoop _ g kind interval p _ hidle _ =>
    have hslot : (h.ensureLoop g kind interval p).slot? c = h.slot? c := slot?_ensureLoop c
    rw [ensureLoop_of_idle hidle] at hslot ⊢
    exact .of_foreign hslot rfl rfl rfl
  | @enrol _ t kind ha _ _ =>
    obtain ⟨group, hg, hid⟩ := ha.id
    have hslot := @slot?_enrol h t kind group hg hid c
    have htask := @task?_enrol h t kind ha.fresh c
    by_cases heq : c = t.consumer
    · subst heq
      rw [if_pos rfl] at hslot htask
      exact .enrolled rfl ha (given_attach ha) hslot htask rfl
    · rw [if_neg heq] at hslot htask
      exact .of_foreign hslot htask rfl (by simpa [Happening.concerns] using Ne.symm heq)
  | @stillborn _ t kind ha _ =>
    obtain ⟨group, hg, hid⟩ := ha.id
    have hslot := (h.enrol t kind).slot?_finish t (.lost t.consumer t.handler.profile) c
    have htask := (h.enrol t kind).task?_finish t (.lost t.consumer t.handler.profile) c
    by_cases heq : c = t.consumer
    · subst heq
      rw [if_pos rfl] at hslot htask
      refine .stillborn rfl ha ((given_attach ha).congr ?_) hslot htask rfl
      exact standing?_modifyGroup_of (f := (·.detach t.consumer.id)) (fun _ => rfl) (fun _ => rfl)
        _ _ t.consumer.group
    · rw [if_neg heq, slot?_enrol hg hid, if_neg heq] at hslot
      rw [if_neg heq, task?_enrol ha.fresh, if_neg heq] at htask
      -- both entries are about the other consumer
      refine .apart [⟨h.now, .lost t.consumer t.handler.profile⟩,
        ⟨h.now, .subscribed t.consumer kind t.handler.profile⟩] hslot htask rfl ?_
      have hne : ¬t.consumer = c := Ne.symm heq
      simp [Happening.concerns, hne]
  | @cancel _ d ha =>
    have hslot := slot?_cancel ha c
    obtain ⟨s, hs, hlive⟩ := isActive_iff.mp ha
    rw [cancel_of_active ha] at hslot ⊢
    by_cases heq : c = d
    · subst heq
      rw [if_pos rfl, hs] at hslot
      exact .cancelled hs hlive hslot rfl rfl
    · rw [if_neg heq] at hslot
      exact .of_foreign hslot rfl rfl (by simpa [Happening.concerns] using Ne.symm heq)
  | @step _ t t' _ said hfound hstep =>
    have htask := h.task?_setTask t' c
    rw [hstep.same.consumer] at htask
    by_cases heq : c = t.consumer
    · subst heq
      rw [if_pos rfl, hfound] at htask
      exact .stepped hfound hstep rfl htask rfl
    · rw [if_neg heq] at htask
      refine .apart (said.toList.map (⟨h.now, ·⟩)) rfl htask rfl ?_
      simpa using concerns_of_step hstep heq
  | @take _ t s hfound hp hs hq =>
    have hslot := slot?_take hs hq c
    have htask := h.task?_setTask (t.beginBatch s.queue) c
    rw [(t.same_beginBatch s.queue).consumer] at htask
    by_cases heq : c = t.consumer
    · subst heq
      rw [if_pos rfl] at hslot
      rw [if_pos rfl, hfound] at htask
      exact .took hfound hp hs hq hslot htask rfl
    · rw [if_neg heq] at hslot htask
      exact .of_foreign hslot htask rfl (by simpa [Happening.concerns] using Ne.symm heq)
  | @finish _ t _ what hfound hending =>
    have hslot := h.slot?_finish t what c
    have htask := h.task?_finish t what c
    by_cases heq : c = t.consumer
    · subst heq
      rw [if_pos rfl] at hslot htask
      exact .finished hfound hending hslot htask rfl
    · rw [if_neg heq] at hslot htask
      exact .of_foreign hslot htask rfl (concerns_of_ending hending heq)
  | @leaveJob _ t hfound hlive hjob =>
    have hslot := h.slot?_leaveJob t c
    have htask := h.task?_leaveJob t c
    by_cases heq : c = t.consumer
    · subst heq
      rw [if_pos rfl] at hslot htask
      exact .leftJob hfound hlive hjob hslot (htask.trans (by rw [hfound]; rfl)) rfl
    · rw [if_neg heq] at hslot htask
      exact .of_foreign hslot htask rfl (by simpa [Happening.concerns] using Ne.symm heq)
  | @endJob _ t hfound horphan =>
    have htask := h.task?_eraseTask t.consumer c
    by_cases heq : c = t.consumer
    · subst heq
      rw [if_pos rfl] at htask
      exact .jobOver hfound horphan rfl htask rfl
    · rw [if_neg heq] at htask
      exact .of_same rfl htask rfl
  | @tick _ l _ _ =>
    have htask := h.task?_wake l.group c
    by_cases hg : c.group = l.group
    · refine .ticked rfl (htask.trans ?_) (by rw [hg]; rfl)
      cases hfound : h.task? c with
      | none => rfl
      | some t =>
        have heq : t.consumer = c := consumer_of_task? hfound
        simp [heq, hg]
    · refine .of_foreign rfl (htask.trans ?_) rfl
        (by simpa [Happening.concerns] using Ne.symm hg)
      cases hfound : h.task? c with
      | none => rfl
      | some t =>
        have heq : t.consumer = c := consumer_of_task? hfound
        simp [heq, hg]
  | halt => exact .of_foreign rfl rfl rfl rfl
  | stop => exact .of_same rfl rfl rfl

end Change

end EventBus
