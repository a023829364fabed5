import EventBus.Proofs.Account
import EventBus.Proofs.Timetable

/-!
# The instant at which an event is taken

What is in the queue of a consumer is taken at its next look, and when that is depends on where its
task is in the loop. A task that is about to look does so before the clock goes on. One that
delivers a batch looks when the batch is over. One that waits looks at the next tick of its group,
and nothing else makes it look. `due?` says this of a task at one state and of what happened since;
`Underway` says that things went accordingly until now.
-/

set_option autoImplicit false

namespace EventBus

/-- Where a task is on its way to the next look at its queue. -/
inductive Course where
  | prompt
  | parked
  | draining
  | failed
  deriving DecidableEq, Repr

namespace Task

def course (t : Task) : Course :=
  match t.phase with
  | .ready | .armed => .prompt
  | .idle | .waiting => if t.woken then .prompt else .parked
  | .draining .. => .draining
  | .failed .. => .failed

/-- What a task has to wait for until it is about to look. -/
def signal (t : Task) : Happening → Bool :=
  match t.course with
  | .parked => Happening.ticks t.consumer.group
  | .draining => Happening.drains t.consumer
  | .prompt | .failed => fun _ => false

/-- The instant of the next look of a task, as it was at the instant `now`, given what happened
since, the earliest first. -/
def due? (t : Task) (now : Nat) (since : List Entry) : Option Nat :=
  if t.course = .prompt then some now else (since.find? (t.signal ·.what)).map (·.time)

/-! ## The course of a task -/

theorem course_wake (t : Task) :
    t.wake.course = if t.course = .parked then .prompt else t.course := by
  cases hp : t.phase <;> cases hw : t.woken <;>
    simp [course, wake, hp, hw, Phase.isRegistered]

/-- A step keeps the course of a task, or ends its batch, or fails. A look that finds nothing is
apart: there must be nothing to be found. -/
theorem Step.course {slot : Option (Slot Event)} {t t' : Task} {n : Nature}
    {said : Option Happening} (hs : t.Step slot n t' said) :
    (∃ s, slot = some s ∧ s.queue = []) ∨
      (t'.course = t.course ∧ ∀ x ∈ said, x.drains t.consumer = false) ∨
      (t.course = .draining ∧ t'.course = .prompt ∧ said = some (.drained t.consumer)) ∨
      (t.course = .draining ∧ t'.course = .failed ∧ said = none) := by
  cases hs with
  | findNothing _ hslot hq => exact .inl ⟨_, hslot, hq⟩
  | register hp =>
    refine .inr (.inl ⟨?_, by simp [Happening.drains]⟩)
    simp [Task.course, Task.register, hp]
  | park hp =>
    refine .inr (.inl ⟨?_, by simp⟩)
    rw [Task.course, Task.course, hp]
    rfl
  | resume hp hw =>
    refine .inr (.inl ⟨?_, by simp⟩)
    simp [Task.course, enter, hp, hw]
  | @beginCall lent event rest hp =>
    refine .inr (.inl ⟨?_, by simp [Happening.drains]⟩)
    cases lent <;> simp [Task.course, Task.beginCall, hp]
  | work hp =>
    refine .inr (.inl ⟨?_, by simp⟩)
    simp [Task.course, continueCall, hp]
  | endCall hp =>
    refine .inr (.inl ⟨?_, by simp⟩)
    simp [Task.course, Task.endCall, hp]
  | endBatch hp =>
    exact .inr (.inr (.inl ⟨by simp [Task.course, hp], by simp [Task.course, Task.endBatch], rfl⟩))
  | fail hp =>
    exact .inr (.inr (.inr ⟨by simp [Task.course, hp], by simp [Task.course, Task.fail], rfl⟩))

theorem Step.ticks_said {slot : Option (Slot Event)} {t t' : Task} {n : Nature}
    {said : Option Happening} (hs : t.Step slot n t' said) {g : GroupRef} :
    ∀ x ∈ said, x.ticks g = false := by
  cases hs <;> simp [Happening.ticks]

/-! ## When a task is due -/

variable {t : Task} {now : Nat}

theorem signal_of_still {x : Happening} (htick : x.ticks t.consumer.group = false)
    (hdrain : x.drains t.consumer = false) : t.signal x = false := by
  cases hcourse : t.course <;> simp [signal, hcourse, htick, hdrain]

theorem due?_append (t : Task) (now : Nat) (since news : List Entry) :
    t.due? now (since ++ news) = (t.due? now since).or (t.due? now news) := by
  unfold due?
  split
  · rfl
  · rw [List.find?_append]
    cases since.find? (t.signal ·.what) <;> rfl

/-- Whether `t'` still has the way before it that `t` had. -/
def Pends (t t' : Task) : Prop :=
  t'.course = t.course ∨ (t.course = .draining ∧ t'.course = .failed)

theorem due?_mono {since : List Entry} {instant : Nat} (hd : t.due? now since = some instant)
    (news : List Entry) : t.due? now (since ++ news) = some instant := by
  rw [due?_append, hd, Option.some_or]

/-- A task that is not about to look is not due until its signal is given. -/
theorem due?_eq_none_iff {since : List Entry} :
    t.due? now since = none ↔ t.course ≠ .prompt ∧ ∀ x ∈ since, t.signal x.what = false := by
  unfold due?
  split
  · next hcourse => simp [hcourse]
  · next hcourse => simp [hcourse]

theorem due?_still {since news : List Entry} (hd : t.due? now since = none)
    (hnews : ∀ x ∈ news, t.signal x.what = false) : t.due? now (since ++ news) = none := by
  obtain ⟨hcourse, hsince⟩ := due?_eq_none_iff.mp hd
  apply due?_eq_none_iff.mpr
  refine ⟨hcourse, fun x hx => ?_⟩
  rcases List.mem_append.mp hx with hx | hx
  · exact hsince x hx
  · exact hnews x hx

theorem due?_signal {since : List Entry} (hd : t.due? now since = none) {x : Entry}
    (hx : t.signal x.what = true) : t.due? now (since ++ [x]) = some x.time := by
  rw [due?_append, hd, Option.none_or, due?, if_neg (due?_eq_none_iff.mp hd).1]
  simp [hx]

end Task

open Host

namespace Host

/-- A task that is about to look, or to end, can move. -/
theorem not_quiet {h : Host} {t : Task} (ht : h.task? t.consumer = some t)
    (hcourse : t.course = .prompt ∨ t.course = .failed) : h.isQuiet = false := by
  rw [← Bool.not_eq_true]
  intro hquiet
  cases hp : t.phase with
  | ready => exact not_taskStep_of_quiet hquiet ht (.register hp)
  | armed => exact not_taskStep_of_quiet hquiet ht (.look hp)
  | idle => exact not_taskStep_of_quiet hquiet ht (.park hp)
  | waiting =>
    cases hw : t.woken with
    | true => exact not_taskStep_of_quiet hquiet ht (.resume hp hw)
    | false => simp [Task.course, hp, hw] at hcourse
  | draining lent call => simp [Task.course, hp] at hcourse
  | failed payload caught => exact not_taskStep_of_quiet hquiet ht (.fail hp)

/-- How things stand with place `n` of what a consumer is owed, when it had the task `t` at the
instant `now`, and the journal `mark` entries. -/
inductive Underway (t : Task) (now mark n : Nat) (h : Host) : Prop
  -- It was taken when it was due.
  | taken {x : Nat × Event} : (h.journal.taken t.consumer)[n]? = some x →
      t.due? now (h.journal.since mark) = some x.1 → Underway t now mark n h
  -- It is due at this instant.
  | due {t' : Task} : h.task? t.consumer = some t' → t'.course = .prompt →
      (h.journal.taken t.consumer).length ≤ n →
      t.due? now (h.journal.since mark) = some h.now → Underway t now mark n h
  -- It is not due yet.
  | pending {t' : Task} : h.task? t.consumer = some t' → t.Pends t' →
      (h.journal.taken t.consumer).length ≤ n →
      t.due? now (h.journal.since mark) = none → Underway t now mark n h
  -- The consumer ended before it was taken.
  | missed : h.journal.hasEnded t.consumer = true →
      (h.journal.taken t.consumer).length ≤ n →
      h.isDown t.consumer.group.bus = true ∨ h.journal.hasFailed t.consumer = true →
      Underway t now mark n h

section

variable {h h' : Host} {t₀ t t' : Task} {s : Slot Event} {now mark n : Nat} {nat : Nature}

/-- What was taken stays taken, at the instant at which it was. -/
theorem Underway.of_taken (hu : Underway t₀ now mark n h)
    (hlt : n < (h.journal.taken t₀.consumer).length) (hmark : mark ≤ h.journal.length)
    {news : Journal} (hj : h'.journal = news ++ h.journal) : Underway t₀ now mark n h' := by
  cases hu with
  | taken htk hd =>
    obtain ⟨more, hmore⟩ := Journal.taken_prefix (c := t₀.consumer)
      (hj ▸ List.suffix_append news h.journal : h.journal <:+ h'.journal)
    refine .taken (by rw [← hmore, List.getElem?_append_left hlt, htk]) ?_
    rw [hj, Journal.since_append news hmark]
    exact Task.due?_mono hd _
  | due _ _ hle => exact absurd hlt (Nat.not_lt.mpr hle)
  | pending _ _ hle => exact absurd hlt (Nat.not_lt.mpr hle)
  | missed _ hle => exact absurd hlt (Nat.not_lt.mpr hle)

/-- A change that is no signal and no look leaves everything as it stands. -/
theorem Underway.still (hu : Underway t₀ now mark n h) (hc : Change nat h h')
    (htask : h.task? t₀.consumer = some t) (hmark : mark ≤ h.journal.length)
    (hrun : h.journal.hasEnded t₀.consumer = false) {news : Journal}
    (hj : h'.journal = news ++ h.journal)
    (hnews : t₀.Pends t → ∀ x ∈ news, t₀.signal x.what = false)
    (htaken : h'.journal.taken t₀.consumer = h.journal.taken t₀.consumer)
    (ht : h'.task? t₀.consumer = some t') (hcourse : t'.course = t.course) :
    Underway t₀ now mark n h' := by
  have hsince := Journal.since_append news hmark
  rw [← hj] at hsince
  cases hu with
  | taken htk hd => exact .taken (by rw [htaken, htk]) (by rw [hsince]; exact Task.due?_mono hd _)
  | due ht₁ hp hle hd =>
    obtain rfl := Option.some.inj (htask.symm.trans ht₁)
    refine .due ht (hcourse.trans hp) (by rw [htaken]; exact hle) ?_
    -- the clock stands still, since the task can move
    have hnow : h'.now = h.now := by
      rcases hc.clock with hnow | ⟨-, hquiet, -⟩
      · exact hnow
      · have hcons : t.consumer = t₀.consumer := consumer_of_task? htask
        rw [not_quiet (hcons ▸ htask) (.inl hp)] at hquiet
        exact absurd hquiet (by simp)
    rw [hsince, hnow]
    exact Task.due?_mono hd _
  | pending ht₁ hp hle hd =>
    obtain rfl := Option.some.inj (htask.symm.trans ht₁)
    refine .pending ht (by rw [Task.Pends, hcourse]; exact hp) (by rw [htaken]; exact hle) ?_
    rw [hsince]
    exact Task.due?_still hd fun x hx => hnews hp x (List.mem_reverse.mp hx)
  | missed hend => exact absurd (hrun.symm.trans hend) (by simp)

/-- What is due is taken by the look. -/
theorem Underway.took (hu : Underway t₀ now mark n h) (htask : h.task? t₀.consumer = some t)
    (hmark : mark ≤ h.journal.length) (hrun : h.journal.hasEnded t₀.consumer = false)
    (hp : t.phase = .armed) {batch : List Event}
    (hn : n < (h.journal.taken t₀.consumer).length + batch.length)
    (hj : h'.journal = ⟨h.now, .took t₀.consumer batch⟩ :: h.journal) :
    Underway t₀ now mark n h' := by
  have hsince := Journal.since_append [⟨h.now, .took t₀.consumer batch⟩] hmark
  rw [List.singleton_append, ← hj] at hsince
  have htaken : h'.journal.taken t₀.consumer =
      h.journal.taken t₀.consumer ++ batch.map (h.now, ·) := by
    simp [hj, Journal.taken, Happening.takes?]
  have hprompt : t.course = .prompt := by simp [Task.course, hp]
  have hnew : (h.journal.taken t₀.consumer).length ≤ n →
      ∃ event, (h'.journal.taken t₀.consumer)[n]? = some (h.now, event) := by
    intro hle
    have hlt : n - (h.journal.taken t₀.consumer).length < batch.length := by omega
    refine ⟨batch[n - (h.journal.taken t₀.consumer).length], ?_⟩
    rw [htaken, List.getElem?_append_right hle, List.getElem?_map, List.getElem?_eq_getElem hlt,
      Option.map_some]
  cases hu with
  | taken htk hd =>
    have hlt := (List.getElem?_eq_some_iff.mp htk).1
    exact .taken (by rw [htaken, List.getElem?_append_left hlt, htk])
      (by rw [hsince]; exact Task.due?_mono hd _)
  | due _ _ hle hd =>
    obtain ⟨event, hevent⟩ := hnew hle
    exact .taken hevent (by rw [hsince]; exact Task.due?_mono hd _)
  | pending ht₁ hcourse _ hd =>
    -- a task that is not due is not about to look
    obtain rfl := Option.some.inj (htask.symm.trans ht₁)
    rw [Task.Pends, hprompt] at hcourse
    rcases hcourse with hcourse | ⟨-, hcourse⟩
    · rw [Task.due?, if_pos hcourse.symm] at hd
      exact absurd hd (by simp)
    · exact absurd hcourse (by simp)
  | missed hend => exact absurd (hrun.symm.trans hend) (by simp)

/-- What is pending becomes due by the signal that the task waits for. -/
theorem Underway.signalled (hu : Underway t₀ now mark n h) (htask : h.task? t₀.consumer = some t)
    (hmark : mark ≤ h.journal.length) (hrun : h.journal.hasEnded t₀.consumer = false)
    {what : Happening} (hj : h'.journal = ⟨h.now, what⟩ :: h.journal) (hnow : h'.now = h.now)
    (htaken : h'.journal.taken t₀.consumer = h.journal.taken t₀.consumer)
    (hsignal : t.course = t₀.course → t₀.course ≠ .prompt → t₀.signal what = true)
    (hfailed : t.course ≠ .failed)
    (ht : h'.task? t₀.consumer = some t') (hcourse : t'.course = .prompt) :
    Underway t₀ now mark n h' := by
  have hsince := Journal.since_append [⟨h.now, what⟩] hmark
  rw [List.singleton_append, ← hj] at hsince
  cases hu with
  | taken htk hd => exact .taken (by rw [htaken, htk]) (by rw [hsince]; exact Task.due?_mono hd _)
  | due _ _ hle hd =>
    refine .due ht hcourse (by rw [htaken]; exact hle) ?_
    rw [hsince, hnow]
    exact Task.due?_mono hd _
  | pending ht₁ hp hle hd =>
    obtain rfl := Option.some.inj (htask.symm.trans ht₁)
    have hsame := hp.resolve_right fun hand => hfailed hand.2
    have hne : t₀.course ≠ .prompt := by
      intro hprompt
      rw [Task.due?, if_pos hprompt] at hd
      exact absurd hd (by simp)
    refine .due ht hcourse (by rw [htaken]; exact hle) ?_
    rw [hsince, hnow]
    exact Task.due?_signal hd (hsignal hsame hne)
  | missed hend => exact absurd (hrun.symm.trans hend) (by simp)

/-- A handler that panics leaves what is pending as it is. -/
theorem Underway.failed (hu : Underway t₀ now mark n h) (htask : h.task? t₀.consumer = some t)
    (hrun : h.journal.hasEnded t₀.consumer = false) (hj : h'.journal = h.journal)
    (hdrain : t.course = .draining) (ht : h'.task? t₀.consumer = some t')
    (hcourse : t'.course = .failed) : Underway t₀ now mark n h' := by
  cases hu with
  | taken htk hd => exact .taken (hj ▸ htk) (hj ▸ hd)
  | due ht₁ hp =>
    obtain rfl := Option.some.inj (htask.symm.trans ht₁)
    exact absurd (hdrain.symm.trans hp) (by simp)
  | pending ht₁ hp hle hd =>
    obtain rfl := Option.some.inj (htask.symm.trans ht₁)
    refine .pending ht (.inr ⟨?_, hcourse⟩) (hj ▸ hle) (hj ▸ hd)
    rcases hp with hp | ⟨hp, -⟩
    · exact hp.symm.trans hdrain
    · exact hp
  | missed hend => exact absurd (hrun.symm.trans hend) (by simp)

/-- A consumer that ends with something in its queue has failed, or its bus is down. -/
theorem Underway.finished (hu : Underway t₀ now mark n h) (hc : Change nat h h')
    (htask : h.task? t₀.consumer = some t) (hslot : h.slot? t₀.consumer = some s)
    (hmark : mark ≤ h.journal.length) (hrun : h.journal.hasEnded t₀.consumer = false)
    (hq : (h.journal.taken t₀.consumer).length ≤ n → s.queue ≠ []) {nat' : Nature}
    {what : Happening} (he : h.Ending t nat' what)
    (hj : h'.journal = ⟨h.now, what⟩ :: h.journal) : Underway t₀ now mark n h' := by
  have hcons : t.consumer = t₀.consumer := consumer_of_task? htask
  have hrest : h'.journal.taken t₀.consumer = h.journal.taken t₀.consumer ∧
      h'.journal.hasEnded t₀.consumer = true := by
    rw [hj, ← hcons]
    cases he <;> exact ⟨rfl, by simp [Journal.hasEnded, Happening.ends]⟩
  obtain ⟨htaken, hend⟩ := hrest
  -- an event that is not taken by now is missed: the consumer failed, or its bus is down
  have hmissed : (h.journal.taken t₀.consumer).length ≤ n → Underway t₀ now mark n h' := by
    intro hle
    refine .missed hend (by rw [htaken]; exact hle) ?_
    cases he with
    | drained _ hslot' hempty _ =>
      obtain rfl := Option.some.inj (hslot.symm.trans (hcons ▸ hslot'))
      exact absurd hempty (hq hle)
    | left _ hdown => exact .inl (hc.isDown_mono (hasBus_of_slot? hslot) (hcons ▸ hdown))
    | panicked | lost =>
      right
      simp [hj, Journal.hasFailed, Happening.fails, hcons]
  cases hu with
  | taken htk hd =>
    have hsince := Journal.since_append [⟨h.now, what⟩] hmark
    rw [List.singleton_append, ← hj] at hsince
    exact .taken (by rw [htaken, htk]) (by rw [hsince]; exact Task.due?_mono hd _)
  | due _ _ hle => exact hmissed hle
  | pending _ _ hle => exact hmissed hle
  | missed hend => exact absurd (hrun.symm.trans hend) (by simp)

/-- A consumer that is dropped with its runtime, and leaves a job, misses what was not taken. -/
theorem Underway.dropped (hu : Underway t₀ now mark n h) (hmark : mark ≤ h.journal.length)
    {who : Profile} (hj : h'.journal = ⟨h.now, .lost t₀.consumer who⟩ :: h.journal) :
    Underway t₀ now mark n h' := by
  have htaken : h'.journal.taken t₀.consumer = h.journal.taken t₀.consumer := by rw [hj]; rfl
  have hmissed : (h.journal.taken t₀.consumer).length ≤ n → Underway t₀ now mark n h' := by
    intro hle
    refine .missed ?_ (by rw [htaken]; exact hle) (.inr ?_) <;> rw [hj]
    · simp [Journal.hasEnded, Happening.ends]
    · simp [Journal.hasFailed, Happening.fails]
  cases hu with
  | taken htk hd =>
    have hsince := Journal.since_append [⟨h.now, .lost t₀.consumer who⟩] hmark
    rw [List.singleton_append, ← hj] at hsince
    exact .taken (by rw [htaken, htk]) (by rw [hsince]; exact Task.due?_mono hd _)
  | due _ _ hle | pending _ _ hle | missed _ hle => exact hmissed hle

theorem Underway.settled (hu : Underway t₀ now mark n h) (hc : Change nat h h') (hr : h.Reached)
    (hslot : h.slot? t₀.consumer = none)
    (hjob : ∀ t, h.task? t₀.consumer = some t → h.JobAccount t₀.consumer t)
    (hk : h.Known t₀.consumer) (hend : h.journal.hasEnded t₀.consumer = true)
    (hmark : mark ≤ h.journal.length) : Underway t₀ now mark n h' := by
  have htaken := taken_of_slotless hr hc hslot
  obtain ⟨news, hj, -⟩ := hc.news
  have hsuffix : h.journal <:+ h'.journal := ⟨news, hj.symm⟩
  have hmissed : (h.journal.taken t₀.consumer).length ≤ n →
      h.isDown t₀.consumer.group.bus = true ∨ h.journal.hasFailed t₀.consumer = true →
      Underway t₀ now mark n h' := by
    intro hle hwhy
    obtain ⟨kind, -, hgiven⟩ := hk
    refine .missed (Journal.hasEnded_of_suffix hsuffix hend) (by rw [htaken]; exact hle) ?_
    exact hwhy.imp (hc.isDown_mono hgiven.hasBus) (Journal.hasFailed_of_suffix hsuffix)
  cases hu with
  | taken htk hd =>
    refine .taken (by rw [htaken, htk]) ?_
    rw [hj, Journal.since_append news hmark]
    exact Task.due?_mono hd _
  | due ht _ hle | pending ht _ hle => exact hmissed hle (.inr (hjob _ ht).lost)
  | missed _ hle hwhy => exact hmissed hle hwhy

end

end Host

namespace Change

variable {h h' : Host} {t₀ t : Task} {s : Slot Event} {now mark n : Nat} {nat : Nature}

theorem underway_alive (hc : Change nat h h') (hr : h.Reached) (hu : Underway t₀ now mark n h)
    (htask : h.task? t₀.consumer = some t) (hslot : h.slot? t₀.consumer = some s)
    (hk : h.Known t₀.consumer) (ha : h.Account t₀.consumer t s) (hmark : mark ≤ h.journal.length)
    (hn : n < (h.journal.window t₀.consumer).length) : Underway t₀ now mark n h' := by
  have hcons : t.consumer = t₀.consumer := consumer_of_task? htask
  have hlength : n < (h.journal.taken t₀.consumer).length + s.queue.length := by
    rw [← ha.window, List.length_append, List.length_map] at hn
    exact hn
  -- as long as the event is not taken it is in the queue
  have hq : (h.journal.taken t₀.consumer).length ≤ n → s.queue ≠ [] := by
    intro hle hempty
    rw [hempty, List.length_nil] at hlength
    exact absurd hlength (Nat.not_lt.mpr hle)
  -- one entry that is neither a tick of the group nor an end of the batch tells nothing new
  have hone : ∀ {what : Happening}, h'.journal = ⟨h.now, what⟩ :: h.journal →
      what.ticks t₀.consumer.group = false → what.drains t₀.consumer = false →
      h'.journal.taken t₀.consumer = h.journal.taken t₀.consumer →
      h'.task? t₀.consumer = h.task? t₀.consumer → Underway t₀ now mark n h' := by
    intro what hj htick hdrain htaken ht
    refine hu.still hc htask hmark ha.running (hj.trans List.singleton_append.symm) (fun _ => ?_)
      htaken (ht.trans htask) rfl
    simpa using Task.signal_of_still htick hdrain
  cases hc.life hr t₀.consumer with
  | apart news hs ht hj hnews =>
    refine hu.still hc htask hmark ha.running hj (fun _ x hx => ?_) ?_ (ht.trans htask) rfl
    · exact Task.signal_of_still (Happening.foreign (hnews x hx)).ticks
        (Happening.foreign (hnews x hx)).drains
    · rw [hj]
      exact (Journal.agrees_of_foreign hnews h.journal).taken
  | heard _ _ _ _ ht hj => exact hone hj rfl rfl (by rw [hj]; rfl) ht
  | unheard _ _ _ _ ht hj => exact hone hj rfl rfl (by rw [hj]; rfl) ht
  | closed _ ht hj => exact hone hj rfl rfl (by rw [hj]; rfl) ht
  | cancelled _ _ _ ht hj => exact hone hj rfl rfl (by rw [hj]; rfl) ht
  | enrolled hcons hadm | stillborn hcons hadm => exact (hk.not_admissible hcons hadm).elim
  | ticked _ ht hj =>
    rw [htask, Option.map_some] at ht
    -- a tick is the signal only for a task that is parked; for any other it comes too early
    by_cases hparked : t.course = .parked
    · refine hu.signalled htask hmark ha.running hj (hc.now_eq hj) (by rw [hj]; rfl)
        (fun hsame _ => ?_) (by simp [hparked]) ht (by rw [t.course_wake, if_pos hparked])
      simp [Task.signal, ← hsame, hparked, Happening.ticks]
    · refine hu.still hc htask hmark ha.running (hj.trans List.singleton_append.symm)
        (fun hpends => ?_) (by rw [hj]; rfl) ht (by rw [t.course_wake, if_neg hparked])
      have hne : t₀.course ≠ .parked := by
        rcases hpends with hsame | ⟨hdrain, -⟩
        · exact hsame ▸ hparked
        · simp [hdrain]
      have hsignal : ∀ l g, t₀.signal (.ticked l g) = false := by
        intro l g
        cases hcourse : t₀.course <;> simp_all [Task.signal, Happening.drains]
      simpa using hsignal _ _
  | stepped ht hstep _ ht' hj =>
    obtain rfl := Option.some.inj (htask.symm.trans ht)
    have htaken : h'.journal.taken t₀.consumer = h.journal.taken t₀.consumer := by
      rw [hj]
      cases hstep <;> rfl
    -- a step finds the queue empty, keeps the course, ends the batch or fails in it
    rcases hstep.course with ⟨r, hr', hempty⟩ | ⟨hcourse, hdrain⟩ | ⟨hdrain, hcourse, hsaid⟩ |
      ⟨hdrain, hcourse, hsaid⟩
    · obtain rfl := Option.some.inj (hslot.symm.trans hr')
      have hlt := Nat.lt_of_not_le fun hle => hq hle hempty
      exact hu.of_taken hlt hmark hj
    · refine hu.still hc htask hmark ha.running hj (fun _ x hx => ?_) htaken ht' hcourse
      obtain ⟨what, hwhat, rfl⟩ := List.mem_map.mp hx
      have hsaid := Option.mem_toList.mp hwhat
      exact Task.signal_of_still (hstep.ticks_said what hsaid) (hcons ▸ hdrain what hsaid)
    · rw [hsaid] at hj
      refine hu.signalled htask hmark ha.running hj (hc.now_eq hj) htaken (fun hsame _ => ?_)
        (by simp [hdrain]) ht' hcourse
      simp [Task.signal, ← hsame, hdrain, Happening.drains, hcons]
    · rw [hsaid] at hj
      exact hu.failed htask ha.running hj hdrain ht' hcourse
  | took ht hp hs hne hs' ht' hj =>
    obtain rfl := Option.some.inj (htask.symm.trans ht)
    obtain rfl := Option.some.inj (hslot.symm.trans hs)
    exact hu.took htask hmark ha.running hp hlength hj
  | finished ht he _ _ hj =>
    obtain rfl := Option.some.inj (htask.symm.trans ht)
    exact hu.finished hc htask hslot hmark ha.running hq he hj
  | leftJob _ _ _ _ _ hj => exact hu.dropped hmark hj
  -- the task has its slot, so it is not an orphan
  | jobOver ht horphan =>
    obtain rfl := Option.some.inj (htask.symm.trans ht)
    exact absurd ((hr.paired.attended htask hslot).symm.trans horphan) (by simp)

theorem underway (hc : Change nat h h') (hr : h.Reached) (hu : Underway t₀ now mark n h)
    (hmark : mark ≤ h.journal.length) (hn : n < (h.journal.window t₀.consumer).length) :
    Underway t₀ now mark n h' := by
  cases hr.lifetime t₀.consumer with
  | unborn _ _ hsub =>
    rw [Journal.window_of_unsubscribed hsub] at hn
    exact absurd hn (Nat.not_lt_zero n)
  | alive htask hslot _ hk ha => exact hc.underway_alive hr hu htask hslot hk ha hmark hn
  | gone hslot hjob hk hend => exact hu.settled hc hr hslot hjob hk hend hmark

end Change

namespace Changes

variable {ns : Nature → Prop} {h h' : Host}

theorem journal_suffix (hc : Changes ns h h') : h.journal <:+ h'.journal := by
  refine hc.keeps (P := fun m => h.journal <:+ m.journal) (fun hchange hbefore => ?_)
    List.suffix_rfl
  obtain ⟨news, hj, -⟩ := hchange.news
  exact hbefore.trans ⟨news, hj.symm⟩

theorem interval? (hc : Changes ns h h') {b : BusId} {interval : Duration}
    (hi : h.interval? b = some interval) : h'.interval? b = some interval :=
  hc.keeps (P := fun m => m.interval? b = some interval) (fun hchange => hchange.interval?) hi

theorem underway {t : Task} {now n : Nat} (hc : Changes ns h h') (hr : h.Reached)
    (hu : Underway t now h.journal.length n h) (hn : n < (h.journal.window t.consumer).length) :
    Underway t now h.journal.length n h' := by
  induction hc with
  | refl => exact hu
  | @tail m m' hm hchange ih =>
    have hsuffix := journal_suffix hm
    obtain ⟨nat, -, hchange⟩ := hchange
    apply hchange.underway (hr.changes hm) ih hsuffix.length_le
    exact Nat.lt_of_lt_of_le hn (Journal.window_prefix hsuffix).length_le

end Changes

namespace Host

/-- What is in the queue of a consumer is due at once, or pending. -/
theorem underway_start {h : Host} {t : Task} {n : Nat} (ht : h.task? t.consumer = some t)
    (hle : (h.journal.taken t.consumer).length ≤ n) :
    Underway t h.now h.journal.length n h := by
  have hdue : t.due? h.now (h.journal.since h.journal.length) =
      if t.course = .prompt then some h.now else none := by
    rw [Journal.since_self]
    rfl
  by_cases hcourse : t.course = .prompt
  · exact .due ht hcourse hle (by rw [hdue, if_pos hcourse])
  · exact .pending ht (.inl rfl) hle (by rw [hdue, if_neg hcourse])

section

variable {h h' : Host} {t : Task} {s : Slot Event} {i : Nat} {e : Event}

/-- The place that an event in the queue has in what is owed. -/
theorem window_of_queue (hr : h.Reached) (ht : h.task? t.consumer = some t)
    (hs : h.slot? t.consumer = some s) (he : s.queue[i]? = some e) :
    (h.journal.window t.consumer)[(h.journal.taken t.consumer).length + i]? = some e := by
  obtain ⟨_, hslot, -, ha⟩ := hr.alive_of_task ht (hr.paired.attended ht hs)
  obtain rfl := Option.some.inj (hs.symm.trans hslot)
  rw [← ha.window, List.getElem?_append_right (by simp)]
  simpa using he

theorem getElem?_of_prefix {α : Type} {xs ys : List α} (hp : xs <+: ys) {n : Nat} {a : α}
    (hx : xs[n]? = some a) : ys[n]? = some a := by
  obtain ⟨more, rfl⟩ := hp
  rw [List.getElem?_append_left (List.getElem?_eq_some_iff.mp hx).1, hx]

theorem taken_eq (hr : h.Reached) (hc : Changes (fun _ => True) h h') {c : ConsumerRef} {n : Nat}
    (he : (h.journal.window c)[n]? = some e) {x : Nat × Event}
    (hx : (h'.journal.taken c)[n]? = some x) : x.2 = e := by
  have hmap : ((h'.journal.taken c).map Prod.snd)[n]? = some x.2 := by
    rw [List.getElem?_map, hx, Option.map_some]
  have htaken := getElem?_of_prefix ((hr.changes hc).taken_prefix_window c) hmap
  have howed := getElem?_of_prefix (Journal.window_prefix hc.journal_suffix) he
  exact Option.some.inj (htaken.symm.trans howed)

/-- What was taken at the place was taken when it was due. -/
theorem Underway.due_of_taken {now mark n : Nat} (hu : Underway t now mark n h) {x : Nat × Event}
    (hx : (h.journal.taken t.consumer)[n]? = some x) :
    t.due? now (h.journal.since mark) = some x.1 := by
  cases hu with
  | taken hx' hd =>
    obtain rfl := Option.some.inj (hx.symm.trans hx')
    exact hd
  | due _ _ hle | pending _ _ hle | missed _ hle =>
    exact absurd (List.getElem?_eq_some_iff.mp hx).1 (Nat.not_lt.mpr hle)

/-- What is due was taken then, or the clock still stands at that instant. -/
theorem Underway.taken_of_due {now mark n instant : Nat} (hu : Underway t now mark n h)
    (hup : h.isDown t.consumer.group.bus = false)
    (hfail : h.journal.hasFailed t.consumer = false)
    (hdue : t.due? now (h.journal.since mark) = some instant) :
    (∃ event, (h.journal.taken t.consumer)[n]? = some (instant, event)) ∨
      (h.now = instant ∧ h.isQuiet = false) := by
  cases hu with
  | @taken x hx hd =>
    obtain rfl := Option.some.inj (hd.symm.trans hdue)
    exact .inl ⟨x.2, hx⟩
  | due ht hcourse _ hd =>
    have hcons := consumer_of_task? ht
    exact .inr ⟨Option.some.inj (hd.symm.trans hdue), not_quiet (hcons ▸ ht) (.inl hcourse)⟩
  | pending _ _ _ hd => exact absurd (hd.symm.trans hdue) (by simp)
  | missed _ _ hwhy =>
    rw [hup, hfail] at hwhy
    exact absurd hwhy (by simp)

/-- When nobody can move, nothing is due that was not taken. -/
theorem Underway.at_rest {now mark n : Nat} (hu : Underway t now mark n h)
    (hquiet : h.isQuiet = true) (hup : h.isDown t.consumer.group.bus = false)
    (hfail : h.journal.hasFailed t.consumer = false) :
    (∃ x, (h.journal.taken t.consumer)[n]? = some x) ∨
      ((t.course = .parked ∨ t.course = .draining) ∧
        (∃ t', h.task? t.consumer = some t' ∧ t'.course = t.course) ∧
        t.due? now (h.journal.since mark) = none) := by
  cases hu with
  | taken hx _ => exact .inl ⟨_, hx⟩
  | due ht hcourse =>
    have hcons := consumer_of_task? ht
    rw [not_quiet (hcons ▸ ht) (.inl hcourse)] at hquiet
    exact absurd hquiet (by simp)
  | @pending t' ht hpends _ hd =>
    have hcons := consumer_of_task? ht
    have hmoves : t'.course ≠ .prompt ∧ t'.course ≠ .failed := by
      constructor <;> intro hcourse
      · rw [not_quiet (hcons ▸ ht) (.inl hcourse)] at hquiet
        exact absurd hquiet (by simp)
      · rw [not_quiet (hcons ▸ ht) (.inr hcourse)] at hquiet
        exact absurd hquiet (by simp)
    have hsame := hpends.resolve_right fun hand => hmoves.2 hand.2
    refine .inr ⟨?_, ⟨t', ht, hsame⟩, hd⟩
    rw [hsame] at hmoves
    cases hcourse : t.course <;> simp_all
  | missed _ _ hwhy =>
    rw [hup, hfail] at hwhy
    exact absurd hwhy (by simp)

/-- Within one interval every group that has a consumer ticks. -/
theorem ticks_of_interval (hr : h.Reached) (hc : Changes (fun _ => True) h h')
    (hquiet : h'.isQuiet = true) {interval : Duration} {g : GroupRef}
    (hi : h.interval? g.bus = some interval) (htime : h.now + interval.ceilMillis ≤ h'.now)
    (hl : ∃ l ∈ h'.loops, l.group = g) :
    ∃ x ∈ h'.journal.since h.journal.length, x.what.ticks g = true := by
  obtain ⟨l, hl, rfl⟩ := hl
  have hr' := hr.changes hc
  obtain rfl := Option.some.inj ((hr'.interval? l hl).symm.trans (hc.interval? hi))
  obtain ⟨start, hstart, hahead, -⟩ :=
    le_alarm_of_quiet hr'.loopsSound hquiet h'.now (fun _ _ hlt => Nat.le_of_lt hlt) hl
  have hpunctual := hr'.punctual l hl
  obtain ⟨hpos, -⟩ := hpunctual.next start hstart
  obtain ⟨k, hk⟩ : ∃ k, l.ticks = k + 1 := ⟨l.ticks - 1, by omega⟩
  have hmem := hpunctual.kept start hstart k (by omega)
  -- the last tick is less than an interval ago, so it is later than the state before
  have hstep := FlushLoop.instant_succ_le start l.interval k
  rw [← hk] at hstep
  obtain ⟨later, hj⟩ := hc.journal_suffix
  rw [← hj, Journal.since_append later (Nat.le_refl _), Journal.since_self, List.nil_append]
  rw [← hj] at hmem
  refine ⟨_, List.mem_reverse.mpr ((List.mem_append.mp hmem).resolve_right fun hold => ?_), ?_⟩
  · have hbefore := hr.time_le _ hold
    simp only at hbefore
    omega
  · simp [Happening.ticks]

/-- Within one interval a consumer that waits is due. -/
theorem due_of_interval (hr : h.Reached) (hc : Changes (fun _ => True) h h')
    (hquiet : h'.isQuiet = true) (hs : h.slot? t.consumer = some s) {t' : Task}
    (ht' : h'.task? t.consumer = some t') (hcourse : t'.course = t.course)
    (hup : h'.isDown t.consumer.group.bus = false)
    (htime : ∀ interval, h.interval? t.consumer.group.bus = some interval →
      h.now + interval.ceilMillis ≤ h'.now) (hparked : t.course = .parked) :
    t.due? h.now (h'.journal.since h.journal.length) ≠ none := by
  intro hd
  have hcons := consumer_of_task? ht'
  have hlive : t'.orphaned = false := by
    refine ((hr.changes hc).paired.jobs t' (mem_of_task? ht')).attended fun lent call hp => ?_
    rw [hparked] at hcourse
    simp [Task.course, hp] at hcourse
  have hserved := (hr.changes hc).served t' (mem_of_task? ht') hlive (by rw [hcons]; exact hup)
  rw [hcons] at hserved
  obtain ⟨bus, hbus⟩ := Option.isSome_iff_exists.mp (hasBus_of_slot? hs)
  have hi : h.interval? t.consumer.group.bus = some bus.flushInterval := by
    rw [Host.interval?, hbus, Option.map_some]
  -- the group has ticked, and a tick is what the consumer waits for
  obtain ⟨x, hx, htick⟩ := ticks_of_interval hr hc hquiet hi (htime _ hi) hserved
  have hsignal := (Task.due?_eq_none_iff.mp hd).2 x hx
  rw [Task.signal, hparked] at hsignal
  exact absurd htick (by simp [hsignal])

/-- Whatever is in the queue is underway to be taken, in whatever way one goes on. -/
theorem underway_of_queue (hr : h.Reached) (ht : h.task? t.consumer = some t)
    (hs : h.slot? t.consumer = some s) (he : s.queue[i]? = some e)
    (hc : Changes (fun _ => True) h h') :
    Underway t h.now h.journal.length ((h.journal.taken t.consumer).length + i) h' :=
  hc.underway hr (underway_start ht (Nat.le_add_right _ i))
    (List.getElem?_eq_some_iff.mp (window_of_queue hr ht hs he)).1

/-- What is due was taken at that instant, or the instant is not over. -/
theorem taken_or_at_hand (hr : h.Reached) (ht : h.task? t.consumer = some t)
    (hs : h.slot? t.consumer = some s) (he : s.queue[i]? = some e)
    (hc : Changes (fun _ => True) h h') (hup : h'.isDown t.consumer.group.bus = false)
    (hfail : h'.journal.hasFailed t.consumer = false) {instant : Nat}
    (hdue : t.due? h.now (h'.journal.since h.journal.length) = some instant) :
    (h'.journal.taken t.consumer)[(h.journal.taken t.consumer).length + i]? = some (instant, e) ∨
      (h'.now = instant ∧ h'.isQuiet = false) := by
  apply ((underway_of_queue hr ht hs he hc).taken_of_due hup hfail hdue).imp_left
  rintro ⟨event, hevent⟩
  -- what was taken in its place is the event itself, as nothing is taken out of its turn
  have hsame : event = e := taken_eq hr hc (window_of_queue hr ht hs he) hevent
  rw [hevent, hsame]

/-- Where nobody can move, whatever was due was taken; and after an interval of the bus it is due,
unless the consumer is still at the batch that it was at. -/
theorem taken_at_rest (hr : h.Reached) (ht : h.task? t.consumer = some t)
    (hs : h.slot? t.consumer = some s) (he : s.queue[i]? = some e)
    (hc : Changes (fun _ => True) h h') (hquiet : h'.isQuiet = true)
    (hup : h'.isDown t.consumer.group.bus = false)
    (hfail : h'.journal.hasFailed t.consumer = false) :
    (∀ instant, t.due? h.now (h'.journal.since h.journal.length) = some instant →
      (h'.journal.taken t.consumer)[(h.journal.taken t.consumer).length + i]? =
        some (instant, e)) ∧
    ((∀ interval, h.interval? t.consumer.group.bus = some interval →
        h.now + interval.ceilMillis ≤ h'.now) →
      (∃ instant, (h'.journal.taken t.consumer)[(h.journal.taken t.consumer).length + i]? =
        some (instant, e)) ∨
      (t.course = .draining ∧
        ∀ x ∈ h'.journal.since h.journal.length, x.what.drains t.consumer = false)) := by
  refine ⟨fun instant hd => ?_, fun hlate => ?_⟩
  · apply (taken_or_at_hand hr ht hs he hc hup hfail hd).resolve_right
    intro hand
    exact absurd (hand.2.symm.trans hquiet) (by simp)
  · rcases (underway_of_queue hr ht hs he hc).at_rest hquiet hup hfail with
      ⟨x, hx⟩ | ⟨hcourse, ⟨t', ht', hsame⟩, hd⟩
    · refine .inl ⟨x.1, ?_⟩
      rw [← taken_eq hr hc (window_of_queue hr ht hs he) hx]
      exact hx
    · -- it was not taken, so it does not wait, as its group has ticked by now
      have hwait : t.course ≠ .parked := by
        intro hparked
        exact due_of_interval hr hc hquiet hs ht' hsame hup hlate hparked hd
      have hdraining := hcourse.resolve_left hwait
      refine .inr ⟨hdraining, fun x hx => ?_⟩
      have hsignal := (Task.due?_eq_none_iff.mp hd).2 x hx
      rw [Task.signal, hdraining] at hsignal
      exact hsignal

/-- **Events are taken when they are due.** Take an event in the queue of a consumer, at any state
of a run, and go on from there in any way. If the event is taken, it is at the instant at which it
is due: the instant of that state for a consumer that is about to look; the end of the batch for one
that delivers a batch; the next tick of its group for one that waits. And it is taken when it is
due, before the clock goes on, unless the bus is shut down, the runtime stops or the handler panics
first.

So whenever a run comes to a state where nobody can move, whatever was due was taken; and if the
clock has gone on by the interval of the bus, in whole milliseconds, the event was taken unless the
consumer is still at the batch that it was at. Every `advance` ends at such a state. -/
theorem taken_when_due (hr : h.Reachable) {c : ConsumerRef} (ht : h.task? c = some t)
    (hs : h.slot? c = some s) (he : s.queue[i]? = some e) :
    (∀ ts h', Run h ts h' →
      (∀ x, (h'.journal.taken c)[(h.journal.taken c).length + i]? = some x →
        x.2 = e ∧ t.due? h.now (h'.journal.since h.journal.length) = some x.1) ∧
      (h'.isDown c.group.bus = false → h'.journal.hasFailed c = false →
        ∀ instant, t.due? h.now (h'.journal.since h.journal.length) = some instant →
          (h'.journal.taken c)[(h.journal.taken c).length + i]? = some (instant, e) ∨
            (h'.now = instant ∧ h'.isQuiet = false)) ∧
      ∀ l ∈ h'.loops, h'.Punctual l) ∧
    (∀ ts h', Run h ts h' → h'.isQuiet = true →
      h'.isDown c.group.bus = false → h'.journal.hasFailed c = false →
      (∀ instant, t.due? h.now (h'.journal.since h.journal.length) = some instant →
        (h'.journal.taken c)[(h.journal.taken c).length + i]? = some (instant, e)) ∧
      ((∀ interval, h.interval? c.group.bus = some interval →
          h.now + interval.ceilMillis ≤ h'.now) →
        (∃ instant, (h'.journal.taken c)[(h.journal.taken c).length + i]? = some (instant, e)) ∨
        (t.course = .draining ∧
          ∀ x ∈ h'.journal.since h.journal.length, x.what.drains c = false))) ∧
    ∀ fuel ms h', h.advance fuel ms = some h' →
      h'.isDown c.group.bus = false → h'.journal.hasFailed c = false →
      (∀ instant, t.due? h.now (h'.journal.since h.journal.length) = some instant →
        (h'.journal.taken c)[(h.journal.taken c).length + i]? = some (instant, e)) ∧
      ((∀ interval, h.interval? c.group.bus = some interval → interval.ceilMillis ≤ ms) →
        (∃ instant, (h'.journal.taken c)[(h.journal.taken c).length + i]? = some (instant, e)) ∨
        (t.course = .draining ∧
          ∀ x ∈ h'.journal.since h.journal.length, x.what.drains c = false)) := by
  obtain rfl := consumer_of_task? ht
  have hreached := hr.reached
  refine ⟨fun ts h' run => ?_, fun ts h' run => taken_at_rest hreached ht hs he
    (run.changes hreached), fun fuel ms h' finished hup hfail => ?_⟩
  · have hc := run.changes hreached
    refine ⟨fun x hx => ?_, fun hup hfail instant hd => ?_, (hreached.changes hc).punctual⟩
    · have hunder := underway_of_queue hreached ht hs he hc
      exact ⟨taken_eq hreached hc (window_of_queue hreached ht hs he) hx, hunder.due_of_taken hx⟩
    · exact taken_or_at_hand hreached ht hs he hc hup hfail hd
  · -- an advance is a run that ends at rest, at its instant or later
    obtain ⟨ts, run, -⟩ := run_of_advance finished
    obtain ⟨hquiet, htime⟩ := quiet_of_runUntil finished
    obtain ⟨hdone, hlate⟩ :=
      taken_at_rest hreached ht hs he (run.changes hreached) hquiet hup hfail
    refine ⟨hdone, fun hms => hlate fun interval hi => ?_⟩
    exact Nat.le_trans (Nat.add_le_add_left (hms interval hi) h.now) htime

end

/-- A handler that takes three milliseconds for an event. -/
def plodder : Handler Action := ⟨⟨"w", .async⟩, fun _ => [.sleep 3]⟩

/-- A consumer of a bus that ticks every one and a half milliseconds begins to wait, the loop ticks
for the first time, and the consumer finds nothing; then an event is published. -/
def ploddingTurns : List Turn :=
  [.obey (.make "b" { config := { flushInterval := .ofMicros 1500 } } false),
    .obey (.subscribe (.named "b") { handler := plodder, kind := .int } false),
    .move (.run waiter), .move (.run waiter), .move (.run waiter), .move (.tick 0),
    .move (.run waiter), .move (.run waiter), .move (.run waiter), .move (.run waiter),
    .obey (.publish (.named "b") (.int 1))]

def plodding : Host := ((initial true).replay ploddingTurns).getD {}

/-- Two milliseconds later the second tick is just over, and the consumer is at the event. -/
def stepped : Host := (plodding.advance 40 2).getD {}

/-- In the meantime there is a second event. -/
def occupied : Host := (stepped.obey (.publish (.named "b") (.int 2))).2

/-- Three milliseconds later the consumer is through with the first event. -/
def rested : Host := (occupied.advance 40 3).getD {}

theorem advance_of_isSome {h : Host} {fuel ms : Nat}
    (finished : (h.advance fuel ms).isSome = true) :
    h.advance fuel ms = some ((h.advance fuel ms).getD {}) := by
  obtain ⟨h', hfinished⟩ := Option.isSome_iff_exists.mp finished
  rw [hfinished]
  rfl

theorem plodding_reachable : plodding.Reachable :=
  ⟨true, ploddingTurns, run_of_isSome (by decide +kernel)⟩

theorem occupied_reachable : occupied.Reachable := by
  obtain ⟨running, ts, run⟩ := plodding_reachable
  have hstepped : plodding.advance 40 2 = some stepped := advance_of_isSome (by decide +kernel)
  obtain ⟨us, more, -⟩ := run_of_advance hstepped
  exact Reachable.obey ⟨running, ts ++ us, run.append more⟩ _

/-- The first event is taken at the second tick, one and a half milliseconds after the first, which
the clock shows as two. The second event comes while the consumer is at the first, and is taken when
that batch is over, at an instant without a tick. -/
theorem taken_when_due_ticked :
    (∃ t, plodding.task? waiter = some t ∧ t.course = .parked ∧
      t.due? plodding.now (stepped.journal.since plodding.journal.length) = some 2 ∧
      (stepped.journal.taken waiter)[0]? = some (2, .int 1)) ∧
    ∃ t, occupied.task? waiter = some t ∧ t.course = .draining ∧
      t.due? occupied.now (rested.journal.since occupied.journal.length) = some 5 ∧
      (rested.journal.taken waiter)[1]? = some (5, .int 2) := by
  constructor
  · obtain ⟨t, ht, hdue⟩ := Option.map_eq_some_iff.mp (show (plodding.task? waiter).map
      (fun t => (t.course, t.due? plodding.now (stepped.journal.since plodding.journal.length))) =
        some (.parked, some 2) by decide +kernel)
    obtain ⟨s, hs, he⟩ := Option.bind_eq_some_iff.mp (show (plodding.slot? waiter).bind
      (·.queue[0]?) = some (.int 1) by decide +kernel)
    obtain ⟨hcourse, hdue⟩ := Prod.mk.inj hdue
    have finished : plodding.advance 40 2 = some stepped := advance_of_isSome (by decide +kernel)
    obtain ⟨-, -, hadvance⟩ := taken_when_due plodding_reachable ht hs he
    obtain ⟨htaken, -⟩ := hadvance 40 2 stepped finished (by decide +kernel) (by decide +kernel)
    have hnone : (plodding.journal.taken waiter).length + 0 = 0 := by decide +kernel
    exact ⟨t, ht, hcourse, hdue, by rw [← hnone]; exact htaken 2 hdue⟩
  · obtain ⟨t, ht, hdue⟩ := Option.map_eq_some_iff.mp (show (occupied.task? waiter).map
      (fun t => (t.course, t.due? occupied.now (rested.journal.since occupied.journal.length))) =
        some (.draining, some 5) by decide +kernel)
    obtain ⟨s, hs, he⟩ := Option.bind_eq_some_iff.mp (show (occupied.slot? waiter).bind
      (·.queue[0]?) = some (.int 2) by decide +kernel)
    obtain ⟨hcourse, hdue⟩ := Prod.mk.inj hdue
    have finished : occupied.advance 40 3 = some rested := advance_of_isSome (by decide +kernel)
    obtain ⟨ts, run, -⟩ := run_of_advance finished
    obtain ⟨-, hrest, -⟩ := taken_when_due occupied_reachable ht hs he
    obtain ⟨htaken, -⟩ := hrest ts rested run (by decide +kernel) (by decide +kernel)
      (by decide +kernel)
    have hone : (occupied.journal.taken waiter).length + 0 = 1 := by decide +kernel
    exact ⟨t, ht, hcourse, hdue, by rw [← hone]; exact htaken 5 hdue⟩

end Host

end EventBus
