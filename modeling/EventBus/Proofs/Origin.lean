import EventBus.Proofs.Pairing

/-!
# Where tasks and loops come from

A task of the state after a change was there before, or is a task of before that was woken, made a
step or began a batch, or was put in line just now; loops are told in the same way. What is to hold
of every task, or of every loop, is then a case analysis on its origin. Three such facts follow:
tasks and loops are on the runtime that is running, jobs that are left are not, and buffers are
clear.
-/

set_option autoImplicit false

namespace EventBus

namespace Host

inductive Origin (h h' : Host) : Task → Prop
  | kept {t : Task} : t ∈ h.tasks → Origin h h' t
  | woken {t : Task} : t ∈ h.tasks → Origin h h' t.wake
  | stepped {t t' : Task} {n : Nature} {said : Option Happening} : t ∈ h.tasks →
      t.Step (h.slot? t.consumer) n t' said → Origin h h' t'
  | took {t : Task} {batch : List Event} : t ∈ h.tasks → Origin h h' (t.beginBatch batch)
  | left {t : Task} : t ∈ h.tasks → t.hasJob = true → Origin h h' t.orphan
  | enrolled {t : Task} {kind : Kind} : h.Admissible t kind → h.runtime = some t.runtime →
      (∃ l ∈ h.loops, l.group = t.consumer.group) → h' = h.enrol t kind → Origin h h' t

theorem Origin.of_setTask {h h' m : Host} {t s : Task} (hs : s ∈ (m.setTask t).tasks)
    (hm : m.tasks = h.tasks) (ht : h.Origin h' t) : h.Origin h' s := by
  obtain ⟨r, hr, rfl⟩ := List.mem_map.mp hs
  split
  · exact ht
  · exact .kept (hm ▸ hr)

/-- A task that was not put in line just now was there before, as the same one. -/
theorem Origin.same {h h' : Host} {t' : Task} (ho : h.Origin h' t') :
    (∃ t ∈ h.tasks, t.Same t') ∨
      ((∃ kind, h.Admissible t' kind) ∧ h.runtime = some t'.runtime ∧
        ∃ l ∈ h.loops, l.group = t'.consumer.group) := by
  cases ho with
  | kept ht => exact .inl ⟨_, ht, rfl, rfl, rfl, rfl⟩
  | @woken t ht => exact .inl ⟨t, ht, t.same_wake⟩
  | stepped ht hs => exact .inl ⟨_, ht, hs.same⟩
  | @took t batch ht => exact .inl ⟨t, ht, t.same_beginBatch batch⟩
  | left ht => exact .inl ⟨_, ht, rfl, rfl, rfl, rfl⟩
  | enrolled ha hr hl _ => exact .inr ⟨⟨_, ha⟩, hr, hl⟩

inductive LoopOrigin (h h' : Host) : FlushLoop → Prop
  | kept {l : FlushLoop} : l ∈ h.loops → LoopOrigin h h' l
  | ticked {l : FlushLoop} : l ∈ h.loops → l.isDue h.now = true →
      h'.journal = ⟨h.now, .ticked l.id l.group⟩ :: h.journal → LoopOrigin h h' (l.tick h.now)
  | started {g : GroupRef} {r : RuntimeId} {interval : Duration} : h.runtime = some r →
      h.interval? g.bus = some interval → h'.flusher? g = some h.loopsStarted →
      LoopOrigin h h' { id := h.loopsStarted, group := g, runtime := r, interval }

end Host

open Host

theorem Change.origin {n : Nature} {h h' : Host} (hc : Change n h h') {t : Task}
    (ht : t ∈ h'.tasks) : h.Origin h' t := by
  cases hc with
  | pass | rename | make | abandon | aside | bindType | halt | stop | start => exact .kept ht
  | close _ hok =>
    obtain ⟨bus, -, -, rfl⟩ := close_eq_ok hok
    exact .kept ht
  | publish _ hb =>
    obtain ⟨fate, buses, hframe⟩ := publish_frame hb
    rw [hframe] at ht
    exact .kept ht
  | startLoop _ hidle =>
    rw [ensureLoop_of_idle hidle] at ht
    exact .kept ht
  | enrol ha hr hl =>
    rcases List.mem_append.mp ht with ht | ht
    · exact .kept ht
    · rw [List.mem_singleton] at ht
      subst ht
      exact .enrolled ha hr hl rfl
  | stillborn ha _ =>
    -- the task of a stillborn consumer is not among those left
    obtain ⟨ht, hne⟩ := List.mem_filter.mp ht
    rcases List.mem_append.mp ht with ht | ht
    · exact .kept ht
    · rw [List.mem_singleton] at ht
      subst ht
      simp at hne
  | cancel ha =>
    rw [cancel_of_active ha] at ht
    exact .kept ht
  | step hfound hstep => exact Origin.of_setTask ht rfl (.stepped (mem_of_task? hfound) hstep)
  | @take _ t' s hfound _ _ _ =>
    exact Origin.of_setTask (t := t'.beginBatch s.queue) ht rfl (.took (mem_of_task? hfound))
  | finish | endJob => exact .kept (List.mem_filter.mp ht).1
  | @leaveJob _ t' hfound _ hjob =>
    exact Origin.of_setTask (t := t'.orphan) ht rfl (.left (mem_of_task? hfound) hjob)
  | tick _ _ =>
    obtain ⟨r, hr, rfl⟩ := List.mem_map.mp ht
    split
    · exact .woken hr
    · exact .kept hr

theorem Change.loopOrigin {n : Nature} {h h' : Host} (hc : Change n h h') {l : FlushLoop}
    (hl : l ∈ h'.loops) : h.LoopOrigin h' l := by
  cases hc with
  | pass | rename | make | abandon | aside | bindType | enrol | stillborn | step | take | finish
  | leaveJob | endJob | start => exact .kept hl
  | close _ hok =>
    obtain ⟨bus, -, -, rfl⟩ := close_eq_ok hok
    exact .kept hl
  | publish _ hb =>
    obtain ⟨fate, buses, hframe⟩ := publish_frame hb
    rw [hframe] at hl
    exact .kept hl
  | @startLoop _ g kind interval p hg hidle hi =>
    -- the new loop is the one that the group now names
    have hflusher : (h.ensureLoop g kind interval p).flusher? g = some h.loopsStarted := by
      rw [flusher?_ensureLoop hg hidle, if_pos rfl]
    rw [ensureLoop_of_idle hidle] at hl
    change l ∈ ite _ _ _ at hl
    split at hl
    · next hr =>
      rcases List.mem_append.mp hl with hl | hl
      · exact .kept hl
      · rw [List.mem_singleton] at hl
        subst hl
        exact .started hr hi hflusher
    · exact .kept hl
  | cancel ha =>
    rw [cancel_of_active ha] at hl
    exact .kept hl
  | tick hfound hdue =>
    obtain ⟨r, hr, rfl⟩ := List.mem_map.mp hl
    split
    · exact .ticked (List.mem_of_find?_eq_some hfound) hdue rfl
    · exact .kept hr
  | halt => exact .kept (List.mem_filter.mp hl).1
  | stop => exact absurd hl (by simp)

/-- The runtime only changes where there are no tasks but jobs that were left. -/
theorem Change.runtime {n : Nature} {h h' : Host} (hc : Change n h h') :
    h'.runtime = h.runtime ∨ ((∀ t ∈ h'.tasks, t.orphaned = true) ∧ h'.loops = []) ∨
      h.runtime = none := by
  cases hc with
  | stop hnone => exact .inr (.inl ⟨hnone, rfl⟩)
  | start hr => exact .inr (.inr hr)
  | close _ hok =>
    obtain ⟨bus, -, -, rfl⟩ := close_eq_ok hok
    exact .inl rfl
  | publish _ hb =>
    obtain ⟨fate, buses, hframe⟩ := publish_frame hb
    rw [hframe]
    exact .inl rfl
  | startLoop _ hidle =>
    rw [ensureLoop_of_idle hidle]
    exact .inl rfl
  | cancel ha =>
    rw [cancel_of_active ha]
    exact .inl rfl
  | _ => exact .inl rfl

namespace Host

/-- Tasks and loops are on the runtime that is running. -/
structure OnRuntime (h : Host) : Prop where
  tasks : ∀ t ∈ h.tasks, t.orphaned = false → h.runtime = some t.runtime
  loops : ∀ l ∈ h.loops, h.runtime = some l.runtime

/-- A task that is there was there before, or was put in line. -/
theorem Origin.attended {h h' : Host} {t' : Task} (ho : h.Origin h' t')
    (hlive : t'.orphaned = false) :
    (∃ t ∈ h.tasks, t.Same t' ∧ t.orphaned = false) ∨ h.runtime = some t'.runtime := by
  cases ho with
  | kept ht => exact .inl ⟨_, ht, ⟨rfl, rfl, rfl, rfl⟩, hlive⟩
  | @woken t ht => exact .inl ⟨t, ht, t.same_wake, t.orphaned_wake ▸ hlive⟩
  | stepped ht hs => exact .inl ⟨_, ht, hs.same, hs.orphaned ▸ hlive⟩
  | @took t batch ht =>
    exact .inl ⟨t, ht, t.same_beginBatch batch, t.orphaned_beginBatch batch ▸ hlive⟩
  | left => exact absurd hlive (by simp [Task.orphan])
  | enrolled _ hr => exact .inr hr

theorem Origin.runtime {h h' : Host} (ho : h.OnRuntime) {t : Task} (ht : h.Origin h' t)
    (hlive : t.orphaned = false) : h.runtime = some t.runtime := by
  rcases ht.attended hlive with ⟨s, hs, hsame, hattended⟩ | hr
  · rw [hsame.runtime]
    exact ho.tasks s hs hattended
  · exact hr

theorem LoopOrigin.runtime {h h' : Host} (ho : h.OnRuntime) {l : FlushLoop}
    (hl : h.LoopOrigin h' l) : h.runtime = some l.runtime := by
  cases hl with
  | kept hl => exact ho.loops l hl
  | @ticked l hl _ _ => exact ho.loops l hl
  | started hr _ _ => exact hr

theorem Reached.onRuntime {h : Host} (hr : h.Reached) : h.OnRuntime := by
  refine hr.invariant (P := OnRuntime) ⟨by simp, by simp⟩ ?_
  intro h h' n _ ho hc
  rcases hc.runtime with hsame | ⟨htasks, hloops⟩ | hnone
  · exact ⟨fun t ht hlive => hsame ▸ (hc.origin ht).runtime ho hlive,
      fun l hl => hsame ▸ (hc.loopOrigin hl).runtime ho⟩
  · exact ⟨fun t ht hlive => absurd (hlive.symm.trans (htasks t ht)) (by simp),
      fun l hl => by simp [hloops] at hl⟩
  · -- nothing runs without a runtime, and nothing comes to run by starting one
    constructor
    · intro t ht hlive
      exact absurd ((hc.origin ht).runtime ho hlive) (by simp [hnone])
    · intro l hl
      exact absurd ((hc.loopOrigin hl).runtime ho) (by simp [hnone])

theorem Reached.bufferClear {h : Host} (hr : h.Reached) : ∀ t ∈ h.tasks, t.BufferClear := by
  apply hr.invariant (P := fun h => ∀ t ∈ h.tasks, t.BufferClear) (by simp)
  intro h h' n _ hb hc t ht
  cases hc.origin ht with
  | kept hs => exact hb t hs
  | @woken s hs => exact Task.bufferClear_wake (hb s hs)
  | @stepped s _ _ _ hs hstep => exact hstep.bufferClear (hb s hs)
  | took _ => exact Task.bufferClear_beginBatch _ _
  | @left s hs _ => exact hb s hs
  | enrolled ha => exact fun _ => ha.buffer

theorem Reached.paired {h : Host} (hr : h.Reached) : h.Paired :=
  hr.invariant (P := Paired) ⟨by simp, fun _ => rfl, by simp⟩ fun _ hp hc => hc.paired hp

end Host

end EventBus
