import EventBus.Proofs.Biography
import EventBus.Proofs.Failure

/-!
# How a task ends

A task ends by a move of its own: when it finds nothing after it was cancelled, when its bus is shut
down while it waits, or after its handler panicked. Or it is dropped, together with its runtime,
and may leave a job. No other turn ends it, whoever makes that and whatever is done in it. What is
entered says which of these it was, and nothing else is entered of the consumer by the same turn.
-/

set_option autoImplicit false

namespace EventBus

namespace Host

/-- `h.Departure t u what`: in `h` the turn `u` is one by which the task `t` ends, and `what` is
entered of that. -/
inductive Departure (h : Host) (t : Task) : Turn → Happening → Prop
  -- It was cancelled, and finds nothing in its queue.
  | drained {s : Slot Event} : t.phase = .armed → h.slot? t.consumer = some s → s.queue = [] →
      h.journal.hasCancelled t.consumer = true →
      Departure h t (.move (.run t.consumer)) (.stopped t.consumer t.handler.profile .drained)
  -- It waits, and its bus is shut down.
  | left : t.phase = .waiting → h.isDown t.consumer.group.bus = true →
      Departure h t (.move (.leave t.consumer)) (.stopped t.consumer t.handler.profile .shutdown)
  -- Its handler panicked, on the event that it was called with last. The panic was caught if the
  -- handler blocks, or had returned its future by then.
  | panicked {payload : Payload} {early caught : Bool} {event : Event} :
      t.phase = .failed payload caught →
      (h.journal.delivered t.consumer).getLast? = some event →
      .panic payload early ∈ t.handler.react event →
      caught = (t.handler.profile.isBlocking || !early) →
      Departure h t (.move (.run t.consumer))
        (.panicked t.consumer t.handler.profile payload caught)
  -- The runtime that it is on is stopped.
  | dropped {c : Command} : c.stopsRuntime = true → h.runtime = some t.runtime →
      Departure h t (.obey c) (.lost t.consumer t.handler.profile)

variable {h h' : Host}

/-! ## Tasks that stay -/

/-- From `h` to `h'` no task that is there ends, and none ends by itself. -/
structure Retains (h h' : Host) : Prop where
  tasks : ∀ c, h.hasTask c = true → h'.hasTask c = true
  quiet : h.Tells (·.isExit = false) h'

theorem Retains.trans {m : Host} (ha : h.Retains m) (hb : m.Retains h') : h.Retains h' where
  tasks c ht := hb.tasks c (ha.tasks c ht)
  quiet := ha.quiet.trans hb.quiet

theorem note_retains {what : Happening} (hw : what.isExit = false) : h.Retains (h.note what) :=
  ⟨fun _ ht => ht, .of_cons rfl hw⟩

/-- A request ends no task, and what it enters is not the end of one. -/
theorem Asked.retains (ha : h.Asked h') (hn : (h'.tasks.map (·.consumer)).Nodup) :
    h.Retains h' where
  tasks c hc := by
    obtain ⟨t, ht, hlive⟩ := (Option.any_eq_true ..).mp hc
    have ht' : h'.task? c = some t := by
      refine find?_of_key hn (ha.tasks t (mem_of_task? ht)) fun s => ?_
      rw [consumer_of_task? ht, decide_eq_true_eq]
    rw [hasTask, ht']
    exact hlive
  quiet := ha.quiet.mono fun x hx => by
    cases x <;> first | rfl | exact absurd hx (by simp [Happening.isOfTask])

/-- A step of a task ends none. -/
theorem setTask_retains {t t' : Task} (ht : h.task? t.consumer = some t)
    (hc : t'.consumer = t.consumer) (horphan : t'.orphaned = t.orphaned) :
    h.Retains (h.setTask t') where
  tasks c hlive := by
    rw [hasTask, task?_setTask, hc]
    split
    · next heq =>
      rw [heq, hasTask_of_task? ht] at hlive
      rw [heq, ht, Option.map_some, Option.any_some, horphan]
      exact hlive
    · exact hlive
  quiet := .of_same rfl

theorem setTask_note_retains {t t' : Task} {what : Happening} (ht : h.task? t.consumer = some t)
    (hc : t'.consumer = t.consumer) (horphan : t'.orphaned = t.orphaned)
    (hw : what.isExit = false) : h.Retains ((h.setTask t').note what) :=
  (setTask_retains ht hc horphan).trans (note_retains hw)

/-- With a job that was left no task ends. -/
theorem endJob_retains {t : Task} (ht : h.task? t.consumer = some t)
    (horphan : t.orphaned = true) : h.Retains (h.endJob t) where
  tasks c hlive := by
    have hother : c ≠ t.consumer := by
      rintro rfl
      rw [hasTask_of_task? ht, horphan] at hlive
      exact absurd hlive (by simp)
    rw [hasTask, endJob, task?, tasks_release]
    show ((h.eraseTask t.consumer).task? c).any _ = true
    rw [task?_eraseTask, if_neg hother]
    exact hlive
  quiet := .of_same (journal_release _ _)

theorem modifyGroup_retains (g : GroupRef) (f : Group Event → Group Event) :
    h.Retains (h.modifyGroup g f) :=
  ⟨fun _ ht => ht, .of_same rfl⟩

/-- What a turn is to the tasks: it ends none, or it is how one of them ends by itself, or the
runtime is stopped by it. -/
inductive Course (h : Host) (u : Turn) (h' : Host) : Prop
  | keeps : h.Retains h' → Course h u h'
  | ends {t : Task} {what : Happening} : h.task? t.consumer = some t → t.orphaned = false →
      h.Departure t u what → h' = h.endTask t what → Course h u h'
  | drops {c : Command} : u = .obey c → c.stopsRuntime = true →
      h'.journal = h.stopRuntime.journal → Course h u h'

section

variable {t : Task} (hr : h.Reachable) (ht : h.task? t.consumer = some t)

include hr ht

/-- To look for events is to go on, or to find that one is cancelled and end. -/
theorem look_course (hp : t.phase = .armed) :
    h.Course (.move (.run t.consumer)) (h.look t) := by
  have hlive : t.orphaned = false :=
    (hr.reached.paired.jobs t (mem_of_task? ht)).attended (by simp [hp])
  have hfinds := look_finds hr.reached ht hp
  generalize h.look t = h' at hfinds ⊢
  cases hfinds with
  | @batch s =>
    exact .keeps ((modifyGroup_retains _ _).trans
      (setTask_note_retains (h := h.modifyGroup t.consumer.group _) ht
        (t.same_beginBatch s.queue).consumer
        (t.orphaned_beginBatch s.queue) rfl))
  | nothing => exact .keeps (setTask_retains ht rfl rfl)
  | drained hs hq hstop =>
    -- its slot is stopped, and it is only a cancellation that stops one
    obtain ⟨s, hslot, -, haccount⟩ := hr.reached.alive_of_task ht hlive
    obtain rfl := Option.some.inj (hs.symm.trans hslot)
    exact .ends ht hlive (.drained hp hs hq (haccount.stopped.symm.trans hstop)) rfl

/-- Whatever a handler does, it ends no task by that. -/
theorem perform_retains {lent : Option (List Event)} {call : Call}
    (hp : t.phase = .draining lent (some call)) (next : Call) (a : Action)
    (hn : ((h.perform t lent next a).tasks.map (·.consumer)).Nodup) :
    h.Retains (h.perform t lent next a) := by
  have hperforms := perform_asked hr.reached ht (hr.loyal t (mem_of_task? ht)) hp next a
  generalize h.perform t lent next a = h' at hperforms hn ⊢
  cases hperforms with
  | asked n answered _ _ hasked =>
    have hset : h.Retains (h.setTask (t.continueCall lent (next.skip n))) :=
      setTask_retains ht rfl rfl
    exact hset.trans ((hasked.retains hn).trans (note_retains rfl))
  | pauses | panics => exact setTask_retains ht rfl rfl
  | reports => exact setTask_note_retains ht rfl rfl rfl

/-- Of the steps of a task only two end it: to find itself cancelled, and to give up after a panic.
-/
theorem TaskStep.course (hs : h.TaskStep t h') (hn : (h'.tasks.map (·.consumer)).Nodup) :
    h.Course (.move (.run t.consumer)) h' := by
  cases hs with
  | register | endBatch | awake => exact .keeps (setTask_note_retains ht rfl rfl rfl)
  | look hp => exact look_course hr ht hp
  | park | resume | endCall => exact .keeps (setTask_retains ht rfl rfl)
  | @beginCall lent =>
    exact .keeps (setTask_note_retains ht (by cases lent <;> rfl) (by cases lent <;> rfl) rfl)
  | perform hp => exact .keeps (perform_retains hr ht hp _ _ hn)
  | @fail payload caught hp =>
    -- a task that has failed is in the call that was entered last
    obtain ⟨event, early, hlast, hpanic, hcaught⟩ :=
      (hr.sound t (mem_of_task? ht)).failed payload caught hp
    have hlive := (hr.reached.paired.jobs t (mem_of_task? ht)).attended (by simp [hp])
    exact .ends ht hlive (.panicked hp hlast hpanic hcaught) rfl

end

/-- Who is woken is there as before. -/
theorem tick_retains (l : FlushLoop) :
    h.Retains (((h.setLoop (l.tick h.now)).wake l.group).note (.ticked l.id l.group)) := by
  have hwoken : h.Retains ((h.setLoop (l.tick h.now)).wake l.group) := by
    refine ⟨fun c ht => ?_, .of_same rfl⟩
    have htask : ((h.setLoop (l.tick h.now)).wake l.group).hasTask c = h.hasTask c := by
      refine hasTask_congr ?_
      rw [task?_wake, Option.map_map]
      refine congrArg (fun f => (h.task? c).map f) (funext fun t => ?_)
      dsimp only [Function.comp_apply]
      split
      · exact t.orphaned_wake
      · rfl
    exact htask.trans ht
  exact hwoken.trans (note_retains rfl)

/-! ## Tasks that are dropped -/

/-- A task that is dropped is entered as lost, whether it leaves a job or not. -/
theorem journal_lose (t : Task) :
    (h.lose t).journal = ⟨h.now, .lost t.consumer t.handler.profile⟩ :: h.journal := by
  unfold lose
  split
  · rfl
  · exact journal_endTask t _

theorem task?_endTask (t : Task) (what : Happening) (c : ConsumerRef) :
    (h.endTask t what).task? c = if c = t.consumer then none else h.task? c :=
  (release_of_abandon (·.task? c) (fun _ _ => rfl) _ (h.finish t what)).trans
    (h.task?_finish t what c)

/-- Of every consumer whose task is dropped one entry is made. -/
theorem about_loseAll (ts : List Task) (c : ConsumerRef) :
    ∀ {h : Host}, (ts.map (·.consumer)).Nodup →
      (h.loseAll ts).journal.about (.consumer c) =
        ((ts.find? (·.consumer = c)).map fun t =>
          (⟨h.now, .lost t.consumer t.handler.profile⟩ : Entry)).toList ++
            h.journal.about (.consumer c) := by
  induction ts with
  | nil => exact fun {h} _ => rfl
  | cons t rest ih =>
    intro h hnodup
    rw [List.map_cons, List.nodup_cons] at hnodup
    apply (ih (h := h.lose t) hnodup.2).trans
    rw [journal_lose, now_lose]
    by_cases hc : t.consumer = c
    · subst hc
      have hnone : rest.find? (·.consumer = t.consumer) = none := by
        rw [List.find?_eq_none]
        intro s hs hsame
        exact hnodup.1 (List.mem_map.mpr ⟨s, hs, by simpa using hsame⟩)
      rw [hnone, Journal.about_cons_own rfl rfl, List.find?_cons_of_pos (by simp)]
      rfl
    · rw [List.find?_cons_of_neg (by simpa using hc)]
      congr 1
      exact Journal.about_of_who? [⟨h.now, _⟩] (by simpa [Happening.who?] using hc)

/-- Who is dropped does not end by itself. -/
theorem loseAll_tells (ts : List Task) :
    ∀ {h : Host}, h.Tells (·.isExit = false) (h.loseAll ts) := by
  induction ts with
  | nil => exact fun {h} => .of_same rfl
  | cons t rest ih =>
    intro h
    exact .trans (m := h.lose t) (.of_cons (journal_lose t) rfl) ih

theorem stopRuntime_tells (hr : h.Reached) : h.Tells (·.isExit = false) h.stopRuntime := by
  cases hrun : h.runtime with
  | none =>
    have hsame : h.stopRuntime = h := by simp [stopRuntime, hrun]
    rw [hsame]
    exact .of_same rfl
  | some r =>
    rw [stopRuntime_eq hr hrun]
    exact loseAll_tells h.attended

theorem journal_obey_of_stopsRuntime {c : Command} (hs : c.stopsRuntime = true) :
    (h.obey c).2.journal = h.stopRuntime.journal := by
  cases c with
  | stopRuntime | startRuntime => rfl
  | _ => exact absurd hs (by simp [Command.stopsRuntime])

/-! ## Every end of a task -/

/-- A task moves by itself, and leaves if it waits and its bus is down. What a loop does ends no
task. -/
theorem MoveStep.course {m : Move} (hm : h.MoveStep m h') (hr : h.Reachable) :
    h.Course (.move m) h' := by
  have hr' : h'.Reached := hr.reached.changes (hm.turned hr.reached).changes
  cases hm with
  | run ht _ hstep => exact hstep.course hr ht hr'.paired.nodup
  | endJob ht horphan => exact .keeps (endJob_retains ht horphan)
  | leave ht hp hdown =>
    have hlive := (hr.reached.paired.jobs _ (mem_of_task? ht)).attended (by simp [hp])
    exact .ends ht hlive (.left hp hdown) rfl
  | @tick l => exact .keeps (tick_retains l)
  | @halt l =>
    have hgone : h.Retains (h.eraseLoop l.id) := ⟨fun _ ht => ht, .of_same rfl⟩
    exact .keeps (hgone.trans (note_retains rfl))

/-- Every turn takes one of the three courses. -/
theorem turn?_course (hr : h.Reachable) {u : Turn} (hu : h.turn? u = some h') :
    h.Course u h' := by
  cases turnStep_iff.mpr hu with
  | @obey c hquick =>
    cases hs : c.stopsRuntime with
    | false =>
      exact .keeps ((obey_asked hr.reached hquick hs).retains (hr.obey c).reached.paired.nodup)
    | true => exact .drops rfl hs (journal_obey_of_stopsRuntime hs)
  | move hm => exact hm.course hr
  | pass => exact .keeps ⟨fun _ ht => ht, .of_same rfl⟩

/-- **By which turn a task ends, and what is entered of it.** -/
theorem Reachable.departure (hr : h.Reachable) {t : Task} (ht : h.task? t.consumer = some t)
    (hlive : t.orphaned = false) {u : Turn} (hu : h.turn? u = some h')
    (hgone : h'.hasTask t.consumer = false) :
    ∃ what, h.Departure t u what ∧ h'.journal.about (.consumer t.consumer) =
      ⟨h.now, what⟩ :: h.journal.about (.consumer t.consumer) := by
  have hthere : h.hasTask t.consumer = true := by rw [hasTask_of_task? ht, hlive]; rfl
  cases turn?_course hr hu with
  | keeps hretains => exact absurd (hretains.tasks t.consumer hthere) (by simp [hgone])
  | @ends s what hs _ hdeparts hend =>
    subst hend
    rw [hasTask, task?_endTask] at hgone
    split at hgone
    · next hsame =>
      rw [← hsame, ht] at hs
      obtain rfl := Option.some.inj hs
      refine ⟨what, hdeparts, ?_⟩
      rw [journal_endTask]
      cases hdeparts <;> exact Journal.about_cons_own rfl rfl
    · exact absurd (hgone.symm.trans hthere) (by simp)
  | drops hobey hs hj =>
    subst hobey
    have hmem := mem_attended.mpr ⟨mem_of_task? ht, hlive⟩
    have hon := hr.reached.onRuntime.tasks t (mem_of_task? ht) hlive
    have hnodup : (h.attended.map (·.consumer)).Nodup :=
      hr.reached.paired.nodup.sublist (List.filter_sublist.map _)
    -- among those that are dropped there is this one task of the consumer
    have hfound : h.attended.find? (·.consumer = t.consumer) = some t :=
      find?_of_key hnodup hmem fun _ => decide_eq_true_iff
    refine ⟨_, .dropped hs hon, ?_⟩
    rw [hj, stopRuntime_eq hr.reached hon]
    apply (about_loseAll h.attended t.consumer hnodup).trans
    rw [hfound]
    rfl

/-- **That a task ended by itself is entered only when it does**, by the turn by which it does. -/
theorem Reachable.exits (hr : h.Reachable) {u : Turn} (hu : h.turn? u = some h') :
    h.Tells (fun what => what.isExit = true → ∃ t, h.task? t.consumer = some t ∧
      t.orphaned = false ∧ h.Departure t u what ∧ h'.task? t.consumer = none) h' := by
  have hnone : ∀ what : Happening, what.isExit = false → what.isExit = true →
      ∃ t, h.task? t.consumer = some t ∧ t.orphaned = false ∧ h.Departure t u what ∧
        h'.task? t.consumer = none := by
    intro what hw hexit
    exact absurd (hw.symm.trans hexit) (by simp)
  cases turn?_course hr hu with
  | keeps hretains => exact hretains.quiet.mono hnone
  | @ends t what ht hlive hdeparts hend =>
    subst hend
    apply Tells.of_cons (journal_endTask t what)
    intro _
    exact ⟨t, ht, hlive, hdeparts, by rw [task?_endTask, if_pos rfl]⟩
  | drops _ _ hj =>
    obtain ⟨news, hstop, hnews⟩ := (stopRuntime_tells hr.reached).mono hnone
    exact ⟨news, hj.trans hstop, hnews⟩

end Host

end EventBus
