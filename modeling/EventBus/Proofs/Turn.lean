import EventBus.Proofs.Moves
import EventBus.Proofs.Request

/-!
# Turns are made of changes

Whatever a turn does, it does by changes: `Turned` says of which kind. So the states that runs reach
are among those that changes reach, and an invariant of changes is one of runs.

One lemma follows each function that a turn is made of, from a look or an action up to a command.
Each is proved from the ones before it, at the states in between, which are reached as well.
-/

set_option autoImplicit false

namespace EventBus

namespace Host

/-- What the states before and after a turn have to do with each other. -/
inductive Turned (h h' : Host) : Prop
  | gain : Changes Nature.IsGain h h' → Turned h h'
  | loss : Changes Nature.IsLoss h h' → Turned h h'

theorem isGain_plain : Nature.IsGain .plain := .inl rfl

theorem isGain_gain : Nature.IsGain .gain := .inr rfl

theorem isLoss_plain : Nature.IsLoss .plain := by simp [Nature.IsLoss]

theorem isLoss_loss : Nature.IsLoss .loss := by simp [Nature.IsLoss]

theorem isLoss_drop : Nature.IsLoss .drop := by simp [Nature.IsLoss]

/-! ## Tasks -/

section

variable {h : Host} {t : Task}

/-- A task that ends lets go of what its handler held. -/
theorem endTask_changes {ns : Nature → Prop} {n : Nature} {what : Happening} (hn : ns n)
    (hloss : ns .loss) (ht : h.task? t.consumer = some t) (he : h.Ending t n what) :
    Changes ns h (h.endTask t what) :=
  (Changes.single hn (.finish ht he)).trans (release_changes hloss _ _)

/-- A job that is over lets go of what its handler held. -/
theorem endJob_changes {ns : Nature → Prop} (hplain : ns .plain) (hloss : ns .loss)
    (ht : h.task? t.consumer = some t) (horphan : t.orphaned = true) :
    Changes ns h (h.endJob t) :=
  (Changes.single hplain (.endJob ht horphan)).trans (release_changes hloss _ _)

/-- A task that has not left a job has its slot. -/
theorem slot?_of_task? (hr : h.Reached) (ht : h.task? t.consumer = some t)
    (hlive : t.orphaned = false) : ∃ s, h.slot? t.consumer = some s := by
  have hs := hr.paired.slots t.consumer
  rw [hasTask_of_task? ht, hlive] at hs
  exact Option.isSome_iff_exists.mp hs

/-- A task that does not drain a batch is not gone. -/
theorem Reached.attended (hr : h.Reached) (ht : h.task? t.consumer = some t)
    (hp : ∀ lent call, t.phase ≠ .draining lent call) : t.orphaned = false :=
  (hr.paired.jobs t (mem_of_task? ht)).attended hp

/-- A slot that is found empty and stopped goes at once, and is not there to go a second time. -/
theorem finish_detached {group : Group Event} (hg : h.group? t.consumer.group = some group)
    (what : Happening) :
    (h.modifyGroup t.consumer.group fun _ => group.detach t.consumer.id).finish t what =
      h.finish t what := by
  show ((((h.note what).eraseTask t.consumer).modifyGroup t.consumer.group _).modifyGroup
    t.consumer.group _) = _
  rw [modifyGroup_modifyGroup]
  apply modifyGroup_congr (h := (h.note what).eraseTask t.consumer) hg
  simp [Group.detach]

/-- What a task finds when it looks at its slot: a batch, nothing, or that it is to end. -/
inductive Finds (h : Host) (t : Task) : Host → Prop
  | batch {s : Slot Event} : h.slot? t.consumer = some s → s.queue ≠ [] →
      Finds h t (((h.modifyGroup t.consumer.group
        fun group => (group.take t.consumer.id []).2.2).setTask (t.beginBatch s.queue)).note
          (.took t.consumer s.queue))
  | nothing {s : Slot Event} : h.slot? t.consumer = some s → s.queue = [] → s.stopped = false →
      Finds h t (h.setTask (t.enter .idle))
  | drained {s : Slot Event} : h.slot? t.consumer = some s → s.queue = [] → s.stopped = true →
      Finds h t (h.endTask t (.stopped t.consumer t.handler.profile .drained))

/-- A task that looks finds one of the three. Its own buffer is clear when it looks, so the slot is
left with an empty queue. -/
theorem look_finds (hr : h.Reached) (ht : h.task? t.consumer = some t) (hp : t.phase = .armed) :
    h.Finds t (h.look t) := by
  obtain ⟨s, hs⟩ := slot?_of_task? hr ht (hr.attended ht (by simp [hp]))
  obtain ⟨group, hg, hslot⟩ := group?_of_slot? hs
  -- what is swapped into the slot is the buffer of the task
  have hbuffer : t.buffer = [] := hr.bufferClear t (mem_of_task? ht) (by simp [hp])
  have htaken := modifyGroup_congr (f := fun group => (group.take t.consumer.id []).2.2)
    (k := fun _ => (group.take t.consumer.id []).2.2) hg rfl
  unfold look
  simp only [hg, hbuffer]
  cases hq : s.queue with
  | cons event rest =>
    have hne : s.queue ≠ [] := by rw [hq]; simp
    have hbatch := Finds.batch hs hne
    rw [htaken] at hbatch
    rw [Group.take_of_queue hslot hne] at hbatch ⊢
    exact hbatch
  | nil =>
    cases hstop : s.stopped with
    | false =>
      rw [Group.take_of_empty hslot hq hstop, ← hbuffer]
      dsimp only
      -- an empty queue was swapped for an empty one, so the group is the same
      rw [modifyGroup_self hg rfl]
      exact .nothing hs hq hstop
    | true =>
      rw [Group.take_of_drained hslot hq hstop]
      show h.Finds t (((h.modifyGroup t.consumer.group
        fun _ => group.detach t.consumer.id).finish t _).release _)
      -- the slot has gone with the look, and goes with the end of the task once more
      rw [finish_detached hg]
      exact .drained hs hq hstop

/-- A look is made of changes. One that finds nothing may leave the consumer to wait; one that finds
its slot stopped ends it, and lets go of what its handler held. -/
theorem look_changes (hr : h.Reached) (ht : h.task? t.consumer = some t)
    (hp : t.phase = .armed) : Turned h (h.look t) := by
  have hfinds := look_finds hr ht hp
  generalize h.look t = h' at hfinds ⊢
  cases hfinds with
  | batch hs hq => exact .gain (.single isGain_plain (.take ht hp hs hq))
  | nothing hs hq hstop =>
    exact .gain (.single isGain_gain (.step ht (.findNothing hp hs hq hstop)))
  | drained hs hq hstop =>
    exact .loss (endTask_changes isLoss_plain isLoss_loss ht (.drained hp hs hq hstop))

theorem step_changes {ns : Nature → Prop} {t' : Task} {n : Nature} {said : Option Happening}
    (hn : ns n) (ht : h.task? t.consumer = some t) (hs : t.Step (h.slot? t.consumer) n t' said) :
    Changes ns h ((h.setTask t').say said) := .single hn (.step ht hs)

/-- A task that is put in the place of another one is there. -/
theorem mem_setTask (t' : Task) (ht : h.task? t.consumer = some t)
    (hsame : t'.consumer = t.consumer) : t' ∈ (h.setTask t').tasks :=
  List.mem_map.mpr ⟨t, mem_of_task? ht, if_pos hsame.symm⟩

/-- An action of a handler is a step of its task, a request with what the handler holds, and a note
of the answer. -/
theorem perform_changes (hr : h.Reached) (ht : h.task? t.consumer = some t)
    {lent : Option (List Event)} {call : Call} (hp : t.phase = .draining lent (some call))
    (next : Call) (a : Action) (hlive : a.isPanic = true → t.orphaned = false) :
    Turned h (h.perform t lent next a) := by
  have hstep : ∀ {ns : Nature → Prop} {next : Call}, ns .plain →
      Changes ns h (h.setTask (t.continueCall lent next)) :=
    fun hn => step_changes hn ht (.work hp)
  -- the request is made from the state in which the call has gone on
  have hm : ∀ {next : Call}, (h.setTask (t.continueCall lent next)).Reached :=
    hr.changes (hstep isGain_plain)
  have hown : ∀ {next : Call}, ∀ x ∈ t.held,
      (h.setTask (t.continueCall lent next)).isHeld x.2 = true :=
    fun x hx => isHeld_of_task (mem_setTask (t.continueCall lent _) ht rfl) hx
  have hnote : ∀ {ns : Nature → Prop} {m : Host} (answered : Answer × Host), ns .plain →
      Changes ns m answered.2 → Changes ns m (enter t a answered) :=
    fun _ hn hc => hc.trans (.single hn (.aside rfl))
  cases a with
  | publish target event =>
    exact .gain ((hstep isGain_plain).trans (hnote _ isGain_plain
      (publishTo_changes hm isGain_plain isGain_gain hown target event)))
  | countdown target =>
    exact .gain ((hstep isGain_plain).trans (hnote _ isGain_plain
      (countdownTo_changes hm isGain_plain isGain_gain hown target _)))
  | cancel name =>
    exact .loss ((hstep isLoss_plain).trans (hnote _ isLoss_plain
      (cancelNamed_changes isLoss_plain name)))
  | close target =>
    exact .loss ((hstep isLoss_plain).trans (hnote _ isLoss_plain
      (closeAt_changes hm isLoss_plain isLoss_loss hown target)))
  | count target type =>
    exact .loss ((hstep isLoss_plain).trans (hnote _ isLoss_plain
      (countAt_changes hm isLoss_plain hown target type)))
  | consult question skip =>
    rw [perform_consult]
    exact .loss ((hstep isLoss_plain).trans (hnote _ isLoss_plain
      (ask_changes hm isLoss_plain hown question)))
  | subscribe target who =>
    exact .loss ((hstep isLoss_plain).trans (hnote _ isLoss_plain
      (subscribeAt_changes hm isLoss_plain isLoss_loss hown _ target who)))
  | sleep ms => exact .loss (step_changes isLoss_plain ht (.work hp))
  | panic payload => exact .loss (step_changes isLoss_plain ht (.fail hp (hlive rfl)))
  | report => exact .loss ((hstep isLoss_plain).trans (.single isLoss_plain (.aside rfl)))

/-- A step of a task is made of changes. A job that has been left does not come to the end of its
batch this way, nor to a panic. -/
theorem TaskStep.turned {h' : Host} (hs : h.TaskStep t h') (hr : h.Reached)
    (ht : h.task? t.consumer = some t) (hlive : t.isOver = true → t.orphaned = false) :
    Turned h h' := by
  cases hs with
  | register hp => exact .loss (step_changes isLoss_plain ht (.register hp))
  | look hp => exact look_changes hr ht hp
  | park hp => exact .loss (step_changes isLoss_plain ht (.park hp))
  | resume hp hw => exact .loss (step_changes isLoss_plain ht (.resume hp hw))
  | beginCall hp hb => exact .loss (step_changes isLoss_plain ht (.beginCall hp hb))
  | endBatch hp hb =>
    have hattended := hlive (Task.isOver_of_drained hp hb)
    exact .loss (step_changes isLoss_plain ht (.endBatch hp hb hattended))
  | awake hp =>
    exact .loss ((step_changes isLoss_plain ht (.work hp)).trans
      (.single isLoss_plain (.aside rfl)))
  | perform hp hawake htodo =>
    exact perform_changes hr ht hp _ _ fun ha => hlive (Task.isOver_of_panic hp hawake htodo ha)
  | endCall hp => exact .loss (step_changes isLoss_plain ht (.endCall hp))
  | fail hp => exact .loss (endTask_changes isLoss_plain isLoss_loss ht (.panicked hp))

end

/-- A move of a task or a loop is made of changes. -/
theorem MoveStep.turned {h h' : Host} {m : Move} (hm : h.MoveStep m h') (hr : h.Reached) :
    Turned h h' := by
  cases hm with
  | run ht hlive hstep => exact hstep.turned hr ht hlive
  | endJob ht horphan => exact .loss (endJob_changes isLoss_plain isLoss_loss ht horphan)
  | leave ht hp hdown =>
    exact .loss (endTask_changes isLoss_plain isLoss_loss ht (.left hp hdown))
  | tick hl hdue => exact .loss (.single isLoss_plain (.tick hl hdue))
  | halt hl hdown => exact .loss (.single isLoss_plain (.halt hl hdown))

/-! ## Stopping and starting the runtime -/

/-- Without a runtime, and so without loops. -/
def unload (h : Host) : Host := { h with runtime := none, loops := [] }

/-- Who holds a bus does not depend on the runtime, so buses may be let go before the runtime is
stopped or after. -/
theorem release_unload (gone : List BusId) (h : Host) :
    h.unload.release gone = (h.release gone).unload := by
  induction gone generalizing h with
  | nil => rfl
  | cons b rest ih =>
    show (if h.isHeld b then h.unload else h.unload.abandon b).release rest =
      ((if h.isHeld b then h else h.abandon b).release rest).unload
    rw [← ih]
    split <;> rfl

theorem endTask_unload (h : Host) (t : Task) (what : Happening) :
    h.unload.endTask t what = (h.endTask t what).unload :=
  release_unload (t.held.map Prod.snd) (h.finish t what)

theorem tasks_release (gone : List BusId) (h : Host) : (h.release gone).tasks = h.tasks :=
  release_of_abandon Host.tasks (fun _ _ => rfl) gone h

/-- Tasks may be dropped before the runtime is stopped or after. -/
theorem lose_unload (h : Host) (t : Task) : h.unload.lose t = (h.lose t).unload := by
  unfold lose
  split
  · rfl
  · exact endTask_unload h t _

/-- Drops some tasks, one after the other. -/
def loseAll (h : Host) (ts : List Task) : Host := ts.foldl lose h

theorem loseAll_unload (ts : List Task) (h : Host) :
    h.unload.loseAll ts = (h.loseAll ts).unload := by
  induction ts generalizing h with
  | nil => rfl
  | cons t rest ih =>
    show (h.unload.lose t).loseAll rest = _
    rw [lose_unload, ih]
    rfl

/-- A task is attended as long as it has not been dropped. -/
theorem mem_attended {h : Host} {t : Task} : t ∈ h.attended ↔ t ∈ h.tasks ∧ t.orphaned = false := by
  rw [attended, List.mem_filter, Bool.not_eq_true']

/-- Dropping a task leaves the others, and at most a job of that one. -/
theorem mem_lose {h : Host} {s t : Task} (hs : s ∈ (h.lose t).tasks) :
    s ∈ h.tasks ∨ t.hasJob = true ∧ s = t.orphan := by
  unfold lose at hs
  split at hs
  · next hjob =>
    obtain ⟨r, hr, rfl⟩ := List.mem_map.mp hs
    split
    · exact .inr ⟨hjob, rfl⟩
    · exact .inl hr
  · rw [show (h.endTask t _).tasks = _ from tasks_release _ _] at hs
    exact .inl (List.mem_filter.mp hs).1

/-- Dropping some tasks leaves others, and at most jobs of those. -/
theorem mem_loseAll {ts : List Task} {h : Host} {s : Task} (hs : s ∈ (h.loseAll ts).tasks) :
    s ∈ h.tasks ∨ ∃ t ∈ ts, t.hasJob = true ∧ s = t.orphan := by
  induction ts generalizing h with
  | nil => exact .inl hs
  | cons t rest ih =>
    rcases ih hs with hkept | ⟨r, hr, heq⟩
    · exact (mem_lose hkept).imp_right fun heq => ⟨t, List.mem_cons_self, heq⟩
    · exact .inr ⟨r, List.mem_cons_of_mem t hr, heq⟩

/-- A task that is dropped is not there any more, whether it has left a job or not. -/
theorem attended_lose (h : Host) (t : Task) :
    (h.lose t).attended = h.attended.filter (·.consumer ≠ t.consumer) := by
  unfold lose
  split
  · show ((h.tasks.map _).filter _ : List Task) = _
    rw [List.filter_map, attended, List.filter_filter]
    -- the task itself is not attended any more, and the others are what they were
    have hpred : ∀ s ∈ h.tasks, ((fun s : Task => !s.orphaned) ∘
        fun s => if s.consumer = t.orphan.consumer then t.orphan else s) s =
          (decide (s.consumer ≠ t.consumer) && !s.orphaned) := by
      intro s _
      by_cases hs : s.consumer = t.consumer <;> simp [Task.orphan, hs]
    rw [List.filter_congr hpred]
    refine (List.map_congr_left fun s hs => ?_).trans (List.map_id _)
    have hboth := (List.mem_filter.mp hs).2
    rw [Bool.and_eq_true, decide_eq_true_eq] at hboth
    exact if_neg hboth.1
  · show ((h.endTask t _).tasks.filter _ : List Task) = _
    rw [show (h.endTask t _).tasks = _ from tasks_release _ _]
    show ((h.tasks.filter _).filter _ : List Task) = (h.tasks.filter _).filter _
    rw [List.filter_filter, List.filter_filter]
    exact List.filter_congr fun s _ => Bool.and_comm ..

/-- To drop an attended task is one change, and it lets go of what the handler held unless a job
goes on with it. -/
theorem lose_changes {h : Host} (hr : h.Reached) {t : Task} (ht : t ∈ h.attended) :
    Changes Nature.IsLoss h (h.lose t) := by
  obtain ⟨hmem, hlive⟩ := mem_attended.mp ht
  have hfound := hr.paired.task?_of_mem hmem
  unfold lose
  split
  · next hjob => exact .single isLoss_drop (.leaveJob hfound hlive hjob)
  · next hjob =>
    exact endTask_changes isLoss_drop isLoss_loss hfound (.lost hlive (by simpa using hjob))

/-- What is so of each task that is dropped is so of dropping them all. -/
theorem Reached.loseAll {R : Host → Host → Prop} (refl : ∀ h, R h h)
    (trans : ∀ {a b c}, R a b → R b c → R a c)
    (single : ∀ {h : Host} {t : Task}, h.Reached → t ∈ h.attended → R h (h.lose t))
    {h : Host} (hr : h.Reached) : R h (h.loseAll h.attended) := by
  -- the induction is on the tasks that are left to be dropped; that they are distinct is what keeps
  -- the rest attended
  generalize ht : h.attended = ts
  induction ts generalizing h with
  | nil => exact refl h
  | cons t rest ih =>
    have hmem : t ∈ h.attended := ht ▸ List.mem_cons_self
    have hnodup : (h.attended.map (·.consumer)).Nodup :=
      hr.paired.nodup.sublist (List.filter_sublist.map _)
    rw [ht, List.map_cons, List.nodup_cons] at hnodup
    have hrest : (h.lose t).attended = rest := by
      rw [attended_lose, ht, List.filter_cons_of_neg (by simp), List.filter_eq_self]
      intro s hs
      have hne : s.consumer ≠ t.consumer := fun hne => hnodup.1 (hne ▸ List.mem_map_of_mem hs)
      simpa using hne
    exact trans (single hr hmem) (ih (hr.changes (lose_changes hr hmem)) hrest)

/-- When all tasks are dropped, none is left but their jobs. -/
theorem attended_loseAll (ts : List Task) (h : Host) {s : Task} (hs : s ∈ (h.loseAll ts).attended) :
    s ∈ h.attended ∧ ∀ t ∈ ts, s.consumer ≠ t.consumer := by
  induction ts generalizing h with
  | nil => exact ⟨hs, by simp⟩
  | cons t rest ih =>
    obtain ⟨hlost, hrest⟩ := ih (h.lose t) hs
    rw [attended_lose, List.mem_filter, decide_eq_true_eq] at hlost
    exact ⟨hlost.1, fun r hr => (List.mem_cons.mp hr).elim (fun heq => heq ▸ hlost.2) (hrest r)⟩

/-- Stopping drops the tasks, and then the runtime with its loops. -/
theorem stopRuntime_eq {h : Host} (hr : h.Reached) {r : RuntimeId} (hrun : h.runtime = some r) :
    h.stopRuntime = (h.loseAll h.attended).unload := by
  -- all loops and all attended tasks are on the runtime that stops
  have hloops : h.loops.filter (·.runtime ≠ r) = [] := by
    rw [List.filter_eq_nil_iff]
    intro l hl
    have hon := hr.onRuntime.loops l hl
    rw [hrun, Option.some.injEq] at hon
    simp [hon]
  have htasks : h.attended.filter (·.runtime = r) = h.attended := by
    rw [List.filter_eq_self]
    intro t ht
    obtain ⟨hmem, hlive⟩ := mem_attended.mp ht
    have hon := hr.onRuntime.tasks t hmem hlive
    rw [hrun, Option.some.injEq] at hon
    simp [hon]
  have hsame : ({ h with runtime := none, loops := [] } : Host).attended = h.attended := rfl
  rw [← loseAll_unload]
  unfold stopRuntime
  simp only [hrun, hloops, hsame, htasks]
  rfl

/-- Stopping the runtime drops every attended task, and the runtime may be stopped when none is
left. -/
theorem stopRuntime_changes {h : Host} (hr : h.Reached) :
    Changes Nature.IsLoss h h.stopRuntime ∧ h.stopRuntime.runtime = none := by
  cases hrun : h.runtime with
  | none =>
    have hsame : h.stopRuntime = h := by simp [stopRuntime, hrun]
    rw [hsame]
    exact ⟨.refl h, hrun⟩
  | some r =>
    rw [stopRuntime_eq hr hrun]
    have hlose := hr.loseAll Changes.refl Changes.trans fun hm => lose_changes hm
    refine ⟨hlose.trans (.single isLoss_plain (.stop fun t ht => ?_)), rfl⟩
    rw [← Bool.not_eq_false]
    intro hlive
    -- who is attended still was not dropped, but everybody was
    obtain ⟨hbefore, hgone⟩ := attended_loseAll _ h (mem_attended.mpr ⟨ht, hlive⟩)
    exact hgone t hbefore rfl

theorem startRuntime_changes {h : Host} (hr : h.Reached) :
    Changes Nature.IsLoss h h.startRuntime := by
  obtain ⟨hstop, hnone⟩ := stopRuntime_changes hr
  exact hstop.trans (.single isLoss_plain (.start hnone))

/-- What a program begins with is reached. -/
theorem initial_reached (running : Bool) : (initial running).Reached := by
  cases running with
  | false => exact .refl _
  | true => exact .single trivial (.start (h := {}) rfl)

/-! ## Commands -/

/-- Every command that takes no time is made of changes. -/
theorem obey_changes {h : Host} (hr : h.Reached) {c : Command} (hq : c.takesTime = false) :
    Turned h (h.obey c).2 := by
  have hown : ∀ x ∈ ([] : List (Target × BusId)), h.isHeld x.2 = true := by simp
  cases c with
  | make name builder pinned =>
    exact .loss (make_changes isLoss_plain isLoss_loss name rfl rfl)
  | clone source name =>
    refine .loss (withBus_changes hr isLoss_plain hown source _ ?_)
    intro b m _ hb _
    exact hold_changes isLoss_plain isLoss_loss name hb
  | drop name => exact .loss (drop_changes isLoss_plain isLoss_loss name)
  | subscribe target who outside =>
    exact .loss (subscribeAt_changes hr isLoss_plain isLoss_loss hown _ target who)
  | inspect name => exact .loss (.refl h)
  | cancel name => exact .loss (cancelNamed_changes isLoss_plain name)
  | publish target event =>
    exact .gain (publishTo_changes hr isGain_plain isGain_gain hown target event)
  | close target =>
    exact .loss (closeAt_changes hr isLoss_plain isLoss_loss hown target)
  | count target type =>
    exact .loss (countAt_changes hr isLoss_plain hown target type)
  | info target =>
    refine .loss ?_
    have hlocate := (locate_extends hown target).1.mono isLoss_plain
    simp only [obey, infoOf]
    split <;> exact hlocate
  | install source =>
    refine .loss (withBus_changes hr isLoss_plain hown source _ ?_)
    intro b m _ hb _
    exact install_changes isLoss_plain hb
  | surrender name => exact .loss (surrender_changes isLoss_plain isLoss_loss name)
  | stopRuntime => exact .loss (stopRuntime_changes hr).1
  | startRuntime => exact .loss (startRuntime_changes hr)
  | advance ms => exact absurd hq (by simp [Command.takesTime])

/-- **A turn is made of changes**, and either none of them brings an event to a queue or none shuts
a bus down. -/
theorem turn?_changes {h h' : Host} (hr : h.Reached) {u : Turn} (hu : h.turn? u = some h') :
    Turned h h' := by
  cases turnStep_iff.mpr hu with
  | obey hquick => exact obey_changes hr hquick
  | move hm => exact hm.turned hr
  | pass hquiet hle halarms => exact .loss (.single isLoss_plain (.pass hquiet hle halarms))

/-! ## Runs -/

theorem Turned.changes {h h' : Host} (ht : Turned h h') : Changes (fun _ => True) h h' := by
  cases ht with
  | gain hc => exact hc.mono fun _ _ => trivial
  | loss hc => exact hc.mono fun _ _ => trivial

/-- So a whole run is made of changes. -/
theorem Run.changes {h h' : Host} {ts : List Turn} (run : Run h ts h') (hr : h.Reached) :
    Changes (fun _ => True) h h' := by
  induction run with
  | nil h => exact .refl h
  | cons turn _ ih =>
    have hturn := (turn?_changes hr turn).changes
    exact hturn.trans (ih (hr.changes hturn))

/-- Whatever runs reach is reached by changes, so that an invariant of changes is one of runs. -/
theorem Reachable.reached {h : Host} (hr : h.Reachable) : h.Reached := by
  obtain ⟨running, ts, run⟩ := hr
  exact (initial_reached running).changes (run.changes (initial_reached running))

/-! ## A small program -/

def waiter : ConsumerRef := ⟨⟨0, 42⟩, 1⟩

/-- A consumer subscribes, looks and begins to wait; then an event is published. -/
def waitingTurns : List Turn :=
  [.obey (.make "b" {} false),
    .obey (.subscribe (.named "b") { handler := ⟨⟨"w", .async⟩, fun _ => []⟩, kind := .int } false),
    .move (.run waiter), .move (.run waiter), .move (.run waiter),
    .obey (.publish (.named "b") (.int 1))]

def waiting : Host := ((initial true).replay waitingTurns).getD {}

theorem run_of_isSome {h : Host} {ts : List Turn} (played : (h.replay ts).isSome = true) :
    Run h ts ((h.replay ts).getD {}) := by
  obtain ⟨h', hplayed⟩ := Option.isSome_iff_exists.mp played
  rw [hplayed]
  exact .of_replay hplayed

theorem waiting_run : Run (initial true) waitingTurns waiting := run_of_isSome (by decide)

theorem waiting_reachable : waiting.Reachable := ⟨true, waitingTurns, waiting_run⟩

end Host

end EventBus
