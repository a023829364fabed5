import EventBus.Proofs.Effect

/-!
# Slots and tasks go together

A consumer has a slot exactly while it has a task, whatever happens: `Paired` is kept by every
change. The changes that touch one of the two touch both; all others are told by `Paired.of_same`.
A task that is gone may have left a job, which has no slot. With it come the facts about a single
task that every later argument needs: which runtime it is on, and that its buffer is empty whenever
it is not in the middle of a batch.
-/

set_option autoImplicit false

namespace EventBus

namespace Task

/-- `t'` is the task of the same consumer as `t`, whatever it is at. -/
structure Same (t t' : Task) : Prop where
  consumer : t'.consumer = t.consumer
  runtime : t'.runtime = t.runtime
  handler : t'.handler = t.handler
  held : t'.held = t.held

theorem same_wake (t : Task) : t.Same t.wake := by
  unfold wake
  split <;> exact ⟨rfl, rfl, rfl, rfl⟩

theorem same_beginBatch (t : Task) (batch : List Event) : t.Same (t.beginBatch batch) := by
  unfold beginBatch
  split <;> exact ⟨rfl, rfl, rfl, rfl⟩

/-- No step of a task makes it another's. -/
theorem Step.same {slot : Option (Slot Event)} {t t' : Task} {n : Nature}
    {said : Option Happening} (hs : t.Step slot n t' said) : t.Same t' := by
  cases hs with
  | @beginCall lent event rest =>
    cases lent <;> exact ⟨rfl, rfl, rfl, rfl⟩
  | _ => exact ⟨rfl, rfl, rfl, rfl⟩

/-- The buffer holds what is left of a batch that the task delivers itself, and nothing else. -/
def BufferClear (t : Task) : Prop := (∀ call, t.phase ≠ .draining none call) → t.buffer = []

theorem bufferClear_wake {t : Task} (ht : t.BufferClear) : t.wake.BufferClear := by
  unfold wake
  split
  · exact ht
  · exact ht

/-- A task that has lent its batch has nothing in its buffer. -/
theorem bufferClear_beginBatch (t : Task) (batch : List Event) :
    (t.beginBatch batch).BufferClear := by
  unfold beginBatch
  split
  · intro _
    rfl
  · intro h
    exact absurd rfl (h none)

/-- A step leaves the buffer clear: it is filled by the batch that the task delivers itself, and is
empty when that ends. -/
theorem Step.bufferClear {slot : Option (Slot Event)} {t t' : Task} {n : Nature}
    {said : Option Happening} (hs : t.Step slot n t' said) (ht : t.BufferClear) :
    t'.BufferClear := by
  cases hs with
  | register hp | findNothing hp | park hp | resume hp =>
    intro _
    exact ht (by simp [hp])
  | @beginCall lent event rest hp hb =>
    cases lent with
    | none => exact fun h => absurd rfl (h _)
    | some events =>
      intro _
      exact ht (by simp [hp])
  | @work lent call call' hp | @endCall lent call hp =>
    cases lent with
    | none => exact fun h => absurd rfl (h _)
    | some events =>
      intro _
      exact ht (by simp [hp])
  | endBatch | fail => exact fun _ => rfl

/-! ## Jobs that are left -/

/-- What is left of a task that is gone is a job that has begun. -/
def KeepsJob (t : Task) : Prop := t.orphaned = true → t.hasJob = true

/-- A task that does not drain a batch is not gone. -/
theorem KeepsJob.attended {t : Task} (ht : t.KeepsJob)
    (hp : ∀ lent call, t.phase ≠ .draining lent call) : t.orphaned = false := by
  rw [← Bool.not_eq_true]
  intro horphan
  have hjob := ht horphan
  unfold hasJob at hjob
  split at hjob
  · next hdraining => exact hp _ _ hdraining
  · exact absurd hjob (by simp)

/-- There is nothing to be said of a task that is not gone. -/
theorem keepsJob_of_attended {t : Task} (ht : t.orphaned = false) : t.KeepsJob :=
  fun horphan => absurd (ht.symm.trans horphan) (by simp)

/-- A job that has begun is in the middle of a batch. -/
theorem draining_of_hasJob {t : Task} (hjob : t.hasJob = true) :
    ∃ rest call, t.phase = .draining (some rest) call := by
  unfold hasJob at hjob
  split at hjob
  · next rest call hp => exact ⟨rest, call, hp⟩
  · exact absurd hjob (by simp)

/-- A batch is over when nothing is left of it, or when the handler panics. -/
theorem isOver_of_drained {t : Task} {lent : Option (List Event)}
    (hp : t.phase = .draining lent none) (hb : t.batch = []) : t.isOver = true := by
  simp only [isOver, hp, hb, List.isEmpty_nil]

theorem isOver_of_panic {t : Task} {lent : Option (List Event)} {call : Call} {a : Action}
    {rest : List Action} (hp : t.phase = .draining lent (some call)) (hawake : call.asleep = none)
    (htodo : call.todo = a :: rest) (ha : a.isPanic = true) : t.isOver = true := by
  simp [isOver, hp, hawake, htodo, ha]

@[simp] theorem orphaned_wake (t : Task) : t.wake.orphaned = t.orphaned := by
  unfold wake
  split <;> rfl

@[simp] theorem orphaned_beginBatch (t : Task) (batch : List Event) :
    (t.beginBatch batch).orphaned = t.orphaned := by
  unfold beginBatch
  split <;> rfl

/-- A task does not leave a job by a step of its own. -/
theorem Step.orphaned {slot : Option (Slot Event)} {t t' : Task} {n : Nature}
    {said : Option Happening} (hs : t.Step slot n t' said) : t'.orphaned = t.orphaned := by
  cases hs with
  | @beginCall lent => cases lent <;> rfl
  | _ => rfl

theorem keepsJob_wake {t : Task} (ht : t.KeepsJob) : t.wake.KeepsJob := by
  unfold wake
  split <;> exact ht

/-- A job that was left goes on with what was lent to it, up to the end of the batch. -/
theorem Step.keepsJob {slot : Option (Slot Event)} {t t' : Task} {n : Nature}
    {said : Option Happening} (hs : t.Step slot n t' said) (ht : t.KeepsJob) : t'.KeepsJob := by
  have hlent : ∀ {lent : Option (List Event)} {call : Option Call}, t.phase = .draining lent call →
      t.orphaned = true → ∃ rest, lent = some rest ∧ t.begun = true := by
    intro lent call hp horphan
    have hjob := ht horphan
    rw [hasJob, hp] at hjob
    cases lent with
    | none => exact absurd hjob (by simp)
    | some rest => exact ⟨rest, rfl, hjob⟩
  cases hs with
  | register hp | findNothing hp | park hp | resume hp =>
    exact keepsJob_of_attended (ht.attended (by simp [hp]))
  | endBatch _ _ hlive | fail _ hlive => exact keepsJob_of_attended hlive
  | @beginCall lent event rest hp _ =>
    cases lent with
    | none => exact fun horphan => absurd (hlent hp horphan) (by simp)
    | some events => exact fun _ => rfl
  | work hp | endCall hp =>
    intro horphan
    obtain ⟨rest, rfl, hbegun⟩ := hlent hp horphan
    exact hbegun

end Task

namespace Host

/-- Only a task that is there ends, or leaves a job. -/
theorem Ending.attended {h : Host} {t : Task} {n : Nature} {what : Happening}
    (he : h.Ending t n what) (ht : t.KeepsJob) : t.orphaned = false := by
  cases he with
  | drained hp | left hp | panicked hp => exact ht.attended (by simp [hp])
  | lost hlive => exact hlive

/-- Each consumer has at most one task, and a slot just while that task is there. What has no slot
is a job. -/
structure Paired (h : Host) : Prop where
  nodup : (h.tasks.map (·.consumer)).Nodup
  slots : ∀ c, (h.slot? c).isSome = h.hasTask c
  jobs : ∀ t ∈ h.tasks, t.KeepsJob

/-- A job that was left does not count as a task. -/
theorem hasTask_of_task? {h : Host} {c : ConsumerRef} {t : Task} (ht : h.task? c = some t) :
    h.hasTask c = !t.orphaned := by
  rw [hasTask, ht, Option.any_some]

/-- Whoever has a slot has a task. -/
theorem Paired.attended {h : Host} (hp : h.Paired) {c : ConsumerRef} {t : Task} {s : Slot Event}
    (ht : h.task? c = some t) (hs : h.slot? c = some s) : t.orphaned = false := by
  have hslot := hp.slots c
  rw [hs, hasTask_of_task? ht] at hslot
  simpa using hslot

/-- A change that leaves the tasks alone, and brings about or removes no slot, keeps the pairing. -/
theorem Paired.of_same {h h' : Host} (hp : h.Paired) (ht : h'.tasks = h.tasks)
    (hs : ∀ c, (h'.slot? c).isSome = (h.slot? c).isSome) : h'.Paired where
  nodup := ht ▸ hp.nodup
  slots c := by
    have htask : h'.hasTask c = h.hasTask c := by rw [hasTask, hasTask, task?, task?, ht]
    rw [hs, htask, hp.slots]
  jobs := ht ▸ hp.jobs

/-- A change of tasks that leaves each with its consumer keeps the pairing, if no slot comes or
goes. -/
theorem Paired.of_map {h h' : Host} (hp : h.Paired) {f : Task → Task}
    (hf : ∀ t, (f t).consumer = t.consumer) (ht : h'.tasks = h.tasks.map f)
    (hjob : ∀ t ∈ h.tasks, (f t).orphaned = t.orphaned ∧ (f t).KeepsJob)
    (hs : ∀ c, (h'.slot? c).isSome = (h.slot? c).isSome) : h'.Paired where
  nodup := by
    rw [ht, List.map_map]
    simp only [Function.comp_def, hf]
    exact hp.nodup
  slots c := by
    rw [hs, hp.slots, hasTask, hasTask, task?_of_map hf ht]
    cases hfound : h.task? c with
    | none => rfl
    | some t => simp [(hjob t (mem_of_task? hfound)).1]
  jobs t' ht' := by
    obtain ⟨t, hmem, rfl⟩ := List.mem_map.mp (ht ▸ ht')
    exact (hjob t hmem).2

/-- In a paired program a task is looked up under its own consumer. -/
theorem Paired.task?_of_mem {h : Host} (hp : h.Paired) {t : Task} (ht : t ∈ h.tasks) :
    h.task? t.consumer = some t :=
  find?_of_key hp.nodup ht fun _ => decide_eq_true_iff

/-- So does a step of one task. -/
theorem Paired.setTask {h h' : Host} (hp : h.Paired) {t t' : Task}
    (hfound : h.task? t.consumer = some t) (hconsumer : t'.consumer = t.consumer)
    (horphan : t'.orphaned = t.orphaned) (hjob : t'.KeepsJob)
    (ht : h'.tasks = (h.setTask t').tasks)
    (hs : ∀ c, (h'.slot? c).isSome = (h.slot? c).isSome) : h'.Paired := by
  refine hp.of_map (fun s => ?_) ht (fun s hmem => ?_) hs
  · split
    · next hc => exact hc.symm
    · rfl
  · split
    · next hc =>
      -- the task of that consumer is the one that was found, as each has one only
      have hst : s = t := by
        rw [hconsumer] at hc
        have hs := hp.task?_of_mem hmem
        rw [hc, hfound] at hs
        exact (Option.some.inj hs).symm
      exact ⟨hst ▸ horphan, hjob⟩
    · exact ⟨rfl, hp.jobs s hmem⟩

/-- A consumer that is admitted gets a slot and a task. -/
theorem Paired.enrol {h : Host} {t : Task} {kind : Kind} (hp : h.Paired)
    (ha : h.Admissible t kind) : (h.enrol t kind).Paired := by
  obtain ⟨group, hg, hid⟩ := ha.id
  have ht := ha.fresh
  constructor
  · show ((h.tasks ++ [t]).map (·.consumer)).Nodup
    rw [List.map_append, List.map_singleton, List.nodup_append]
    refine ⟨hp.nodup, by simp, ?_⟩
    intro a ha b hb hab
    -- no task has the consumer that is new
    obtain ⟨s, hs, rfl⟩ := List.mem_map.mp ha
    rw [List.mem_singleton] at hb
    rw [task?, List.find?_eq_none] at ht
    exact ht s hs (by simpa using hab.trans hb)
  · intro c
    rw [slot?_enrol hg hid, hasTask, task?_enrol ht]
    split
    · simp [ha.attended]
    · exact hp.slots c
  · intro s hs
    rcases List.mem_append.mp hs with hs | hs
    · exact hp.jobs s hs
    · rw [List.mem_singleton.mp hs]
      exact Task.keepsJob_of_attended ha.attended

/-- A consumer whose task ends loses both. -/
theorem Paired.finish {h : Host} (hp : h.Paired) (t : Task) (what : Happening) :
    (h.finish t what).Paired := by
  constructor
  · exact hp.nodup.sublist (List.filter_sublist.map _)
  · intro c
    rw [slot?_finish, hasTask, task?_finish]
    split
    · rfl
    · exact hp.slots c
  · exact fun s hs => hp.jobs s (List.mem_filter.mp hs).1

/-- A task that leaves a job has its slot no more. -/
theorem Paired.leaveJob {h : Host} {t : Task} (hp : h.Paired) (hfound : h.task? t.consumer = some t)
    (hjob : t.hasJob = true) : (h.leaveJob t).Paired := by
  have hset : ∀ s : Task, (if s.consumer = t.orphan.consumer then t.orphan else s).consumer =
      s.consumer := by
    intro s
    split
    · next hc => exact hc.symm
    · rfl
  constructor
  · show ((h.setTask t.orphan).tasks.map (·.consumer)).Nodup
    rw [Host.setTask, List.map_map]
    simp only [Function.comp_def, hset]
    exact hp.nodup
  · intro c
    rw [slot?_leaveJob, hasTask, task?_leaveJob]
    split
    · next hc => rw [hc, hfound]; rfl
    · exact hp.slots c
  · intro s hs
    obtain ⟨r, hr, rfl⟩ := List.mem_map.mp hs
    split
    · exact fun _ => hjob
    · exact hp.jobs r hr

/-- A job that is over had no slot. -/
theorem Paired.eraseJob {h : Host} {t : Task} (hp : h.Paired) (hfound : h.task? t.consumer = some t)
    (horphan : t.orphaned = true) : (h.eraseTask t.consumer).Paired := by
  constructor
  · exact hp.nodup.sublist (List.filter_sublist.map _)
  · intro c
    show (h.slot? c).isSome = _
    rw [hp.slots, hasTask, hasTask, task?_eraseTask]
    split
    · next hc => rw [hc, hfound]; simp [horphan]
    · rfl
  · exact fun s hs => hp.jobs s (List.mem_filter.mp hs).1

end Host

open Host

/-- **Slots and tasks go together** in every change. -/
theorem Change.paired {n : Nature} {h h' : Host} (hc : Change n h h') (hp : h.Paired) :
    h'.Paired := by
  cases hc with
  | pass | rename | aside | halt | start => exact hp.of_same rfl fun _ => rfl
  | make hr hs _ =>
    refine hp.of_same rfl fun c => ?_
    rw [slot?_congr (h.binding?_append hr _ _ c.group)]
  | @abandon _ b _ =>
    refine hp.of_same rfl fun c => ?_
    rw [slot?_congr (h.binding?_abandon b c.group)]
  | close _ hok =>
    obtain ⟨bus, -, -, rfl⟩ := close_eq_ok hok
    refine hp.of_same rfl fun c => ?_
    rw [slot?_congr (binding?_close hok c.group)]
  -- publishing fills slots, and binding, closing and starting loops do not touch them
  | publish _ hb =>
    refine hp.of_same ?_ fun c => ?_
    · obtain ⟨fate, buses, hframe⟩ := publish_frame hb
      rw [hframe]
    · rw [slot?_publish hb]
      split
      · rw [Option.isSome_map]
      · rfl
  | bindType fresh _ hb _ =>
    refine hp.of_same rfl fun c => ?_
    rw [slot?_bindType h hb]
  | startLoop hg hidle =>
    refine hp.of_same ?_ fun c => ?_
    · rw [ensureLoop_of_idle hidle]
      rfl
    · rw [slot?_ensureLoop]
  | enrol ha _ _ => exact hp.enrol ha
  | stillborn ha _ => exact (hp.enrol ha).finish _ _
  | cancel ha =>
    refine hp.of_same ?_ fun c => ?_
    · rw [cancel_of_active ha]
      rfl
    · rw [slot?_cancel ha]
      split
      · next hc => rw [Option.isSome_map, hc]
      · rfl
  | step hfound hstep =>
    exact hp.setTask hfound hstep.same.consumer hstep.orphaned
      (hstep.keepsJob (hp.jobs _ (mem_of_task? hfound))) rfl fun _ => rfl
  -- who takes a batch leaves an empty queue in its slot, which stays
  | @take _ t s hfound hphase hs hq =>
    have hlive := (hp.jobs t (mem_of_task? hfound)).attended (by simp [hphase])
    have hbegun : (t.beginBatch s.queue).orphaned = t.orphaned := t.orphaned_beginBatch s.queue
    refine hp.setTask hfound (t.same_beginBatch s.queue).consumer hbegun
      (Task.keepsJob_of_attended (hbegun.trans hlive)) rfl fun c => ?_
    have hslot := slot?_take hs hq c
    show ((h.modifyGroup _ _).slot? c).isSome = _
    rw [hslot]
    split
    · next hc => rw [hc, hs]; rfl
    · rfl
  | finish _ _ => exact hp.finish _ _
  | leaveJob hfound _ hjob => exact hp.leaveJob hfound hjob
  | endJob hfound horphan => exact hp.eraseJob hfound horphan
  | @tick _ l _ _ =>
    refine hp.of_map (f := fun t => if t.consumer.group = l.group then t.wake else t)
      (fun t => ?_) rfl (fun t ht => ?_) fun _ => rfl
    · split
      · exact t.consumer_wake
      · rfl
    · split
      · exact ⟨t.orphaned_wake, Task.keepsJob_wake (hp.jobs t ht)⟩
      · exact ⟨rfl, hp.jobs t ht⟩
  | stop _ => exact hp.of_same rfl fun _ => rfl

end EventBus
