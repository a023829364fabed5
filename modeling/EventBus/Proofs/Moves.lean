import EventBus.Host.View
import EventBus.Run

/-!
# What a turn does

The functions that run a program look up a task or a loop, ask for its phase and for the clock, and
answer none where nothing can be done. `TaskStep`, `MoveStep` and `TurnStep` say the same as
relations: there is one case for each thing that can be done, with what must hold for it and the
state that comes of it.

What every turn keeps is proved by cases on these. So a new phase of a task is a new case in each of
the proofs, and a condition that changes is a hypothesis that changes.
-/

set_option autoImplicit false

namespace EventBus

namespace Host

/-- `h.TaskStep t h'`: the next step of the task `t`, or of the job that it has left, leads from `h`
to `h'`. -/
inductive TaskStep (h : Host) (t : Task) : Host → Prop
  | register : t.phase = .ready →
      TaskStep h t ((h.setTask t.register).note (.registered t.consumer))
  | look : t.phase = .armed → TaskStep h t (h.look t)
  | park : t.phase = .idle → TaskStep h t (h.setTask (t.enter .waiting))
  | resume : t.phase = .waiting → t.woken = true → TaskStep h t (h.setTask (t.enter .ready))
  | beginCall {lent : Option (List Event)} {event : Event} {rest : List Event} :
      t.phase = .draining lent none → t.batch = event :: rest →
      TaskStep h t ((h.setTask (t.beginCall lent event rest)).note
        (.called t.consumer t.handler.profile event))
  | endBatch {lent : Option (List Event)} : t.phase = .draining lent none → t.batch = [] →
      TaskStep h t ((h.setTask t.endBatch).note (.drained t.consumer))
  -- A pause of the handler is over.
  | awake {lent : Option (List Event)} {call : Call} {alarm : Nat} :
      t.phase = .draining lent (some call) → call.asleep = some alarm → alarm ≤ h.now →
      TaskStep h t ((h.setTask (t.continueCall lent { call with asleep := none })).note
        (.slept t.consumer t.handler.profile))
  | perform {lent : Option (List Event)} {call : Call} {a : Action} {rest : List Action} :
      t.phase = .draining lent (some call) → call.asleep = none → call.todo = a :: rest →
      TaskStep h t (h.perform t lent { call with todo := rest } a)
  | endCall {lent : Option (List Event)} {call : Call} : t.phase = .draining lent (some call) →
      call.asleep = none → call.todo = [] → TaskStep h t (h.setTask (t.endCall lent))
  | fail {payload : Payload} {caught : Bool} : t.phase = .failed payload caught →
      TaskStep h t (h.endTask t (.panicked t.consumer t.handler.profile payload caught))

/-- `h.MoveStep m h'`: the move `m` leads from `h` to `h'`. -/
inductive MoveStep (h : Host) : Move → Host → Prop
  -- The task goes on, or the job that it has left. The job ends where the task would not.
  | run {t : Task} {h' : Host} : h.task? t.consumer = some t →
      (t.isOver = true → t.orphaned = false) → h.TaskStep t h' → MoveStep h (.run t.consumer) h'
  | endJob {t : Task} : h.task? t.consumer = some t → t.orphaned = true → t.isOver = true →
      MoveStep h (.run t.consumer) (h.endJob t)
  | leave {t : Task} : h.task? t.consumer = some t → t.phase = .waiting →
      h.isDown t.consumer.group.bus = true →
      MoveStep h (.leave t.consumer)
        (h.endTask t (.stopped t.consumer t.handler.profile .shutdown))
  | tick {l : FlushLoop} : h.loop? l.id = some l → l.isDue h.now = true →
      MoveStep h (.tick l.id)
        (((h.setLoop (l.tick h.now)).wake l.group).note (.ticked l.id l.group))
  | halt {l : FlushLoop} : h.loop? l.id = some l → h.isDown l.group.bus = true →
      MoveStep h (.halt l.id) ((h.eraseLoop l.id).note (.loopStopped l.id l.group))

/-- `h.TurnStep u h'`: the turn `u` leads from `h` to `h'`. -/
inductive TurnStep (h : Host) : Turn → Host → Prop
  | obey {c : Command} : c.takesTime = false → TurnStep h (.obey c) (h.obey c).2
  | move {m : Move} {h' : Host} : h.MoveStep m h' → TurnStep h (.move m) h'
  | pass {instant : Nat} : h.isQuiet = true → h.now ≤ instant →
      (∀ alarm ∈ h.alarms, h.now < alarm → instant ≤ alarm) →
      TurnStep h (.pass instant) (h.setClock instant)

variable {h h' : Host} {t : Task}

/-! ## Tasks -/

private theorem taskStep_of_drain? {lent : Option (List Event)} {call? : Option Call}
    (hp : t.phase = .draining lent call?) (hd : h.drain? t lent call? = some h') :
    h.TaskStep t h' := by
  unfold drain? at hd
  split at hd
  · split at hd
    · next hb => exact Option.some.inj hd ▸ .endBatch hp hb
    · next hb => exact Option.some.inj hd ▸ .beginCall hp hb
  · split at hd
    · next halarm =>
      split at hd
      · next hle => exact Option.some.inj hd ▸ .awake hp halarm hle
      · exact absurd hd (by simp)
    · next hawake htodo => exact Option.some.inj hd ▸ .perform hp hawake htodo
    · next hawake htodo => exact Option.some.inj hd ▸ .endCall hp hawake htodo

/-- **A step of a task** is one of these, and each of these is its step. -/
theorem taskStep_iff : h.TaskStep t h' ↔ h.stepTask? t = some h' := by
  constructor
  · intro hs
    cases hs with
    | register hp | look hp | park hp | fail hp => rw [stepTask?, hp]
    | resume hp hw => rw [stepTask?, hp]; exact if_pos hw
    | beginCall hp hb | endBatch hp hb => rw [stepTask?, hp]; simp only [drain?, hb]
    | awake hp halarm hle =>
      rw [stepTask?, hp]
      simp only [drain?, halarm, if_pos hle]
    | perform hp hawake htodo | endCall hp hawake htodo =>
      rw [stepTask?, hp]
      simp only [drain?, hawake, htodo]
  · intro hm
    unfold stepTask? at hm
    split at hm
    · next hp => exact Option.some.inj hm ▸ .register hp
    · next hp => exact Option.some.inj hm ▸ .look hp
    · next hp => exact Option.some.inj hm ▸ .park hp
    · next hp =>
      split at hm
      · next hw => exact Option.some.inj hm ▸ .resume hp hw
      · exact absurd hm (by simp)
    · next hp => exact taskStep_of_drain? hp hm
    · next hp => exact Option.some.inj hm ▸ .fail hp

/-- A task that is asked to go on ends its job, or takes its step. -/
theorem runTask?_eq_some : h.runTask? t = some h' ↔
    (t.orphaned = true ∧ t.isOver = true ∧ h' = h.endJob t) ∨
      ((t.isOver = true → t.orphaned = false) ∧ h.TaskStep t h') := by
  rw [runTask?, taskStep_iff]
  cases horphan : t.orphaned <;> cases hover : t.isOver <;> simp [eq_comm]

theorem leave?_eq_some : h.leave? t = some h' ↔
    t.phase = .waiting ∧ h.isDown t.consumer.group.bus = true ∧
      h' = h.endTask t (.stopped t.consumer t.handler.profile .shutdown) := by
  unfold leave?
  split
  · next hp =>
    rw [Option.ite_none_right_eq_some, Option.some.injEq, eq_comm (b := h')]
    exact (and_iff_right hp).symm
  · next hnot => simpa using fun hp => absurd hp hnot

/-! ## Loops -/

theorem tick?_eq_some {l : FlushLoop} : h.tick? l = some h' ↔ l.isDue h.now = true ∧
    h' = ((h.setLoop (l.tick h.now)).wake l.group).note (.ticked l.id l.group) := by
  rw [tick?, Option.ite_none_right_eq_some, Option.some.injEq, eq_comm (b := h')]

theorem halt?_eq_some {l : FlushLoop} : h.halt? l = some h' ↔ h.isDown l.group.bus = true ∧
    h' = (h.eraseLoop l.id).note (.loopStopped l.id l.group) := by
  rw [halt?, Option.ite_none_right_eq_some, Option.some.injEq, eq_comm (b := h')]

/-! ## Moves and turns -/

/-- **A move** is one of these, and each of these is a move. -/
theorem moveStep_iff {m : Move} : h.MoveStep m h' ↔ h.move? m = some h' := by
  constructor
  · intro hs
    cases hs with
    | run ht hlive hstep =>
      rw [move?, ht, Option.bind_some, runTask?_eq_some]
      exact .inr ⟨hlive, hstep⟩
    | endJob ht horphan hover =>
      rw [move?, ht, Option.bind_some, runTask?_eq_some]
      exact .inl ⟨horphan, hover, rfl⟩
    | leave ht hp hdown =>
      rw [move?, ht, Option.bind_some, leave?_eq_some]
      exact ⟨hp, hdown, rfl⟩
    | tick hl hdue =>
      rw [move?, hl, Option.bind_some, tick?_eq_some]
      exact ⟨hdue, rfl⟩
    | halt hl hdown =>
      rw [move?, hl, Option.bind_some, halt?_eq_some]
      exact ⟨hdown, rfl⟩
  · intro hm
    cases m with
    | run c =>
      obtain ⟨t, ht, hrun⟩ := Option.bind_eq_some_iff.mp hm
      obtain rfl := consumer_of_task? ht
      rcases runTask?_eq_some.mp hrun with ⟨horphan, hover, rfl⟩ | ⟨hlive, hstep⟩
      · exact .endJob ht horphan hover
      · exact .run ht hlive hstep
    | leave c =>
      obtain ⟨t, ht, hleave⟩ := Option.bind_eq_some_iff.mp hm
      obtain rfl := consumer_of_task? ht
      obtain ⟨hp, hdown, rfl⟩ := leave?_eq_some.mp hleave
      exact .leave ht hp hdown
    | tick id =>
      obtain ⟨l, hl, htick⟩ := Option.bind_eq_some_iff.mp hm
      obtain rfl := id_of_loop? hl
      obtain ⟨hdue, rfl⟩ := tick?_eq_some.mp htick
      exact .tick hl hdue
    | halt id =>
      obtain ⟨l, hl, hhalt⟩ := Option.bind_eq_some_iff.mp hm
      obtain rfl := id_of_loop? hl
      obtain ⟨hdown, rfl⟩ := halt?_eq_some.mp hhalt
      exact .halt hl hdown

theorem pass?_eq_some {instant : Nat} : h.pass? instant = some h' ↔
    (h.isQuiet = true ∧ h.now ≤ instant ∧ ∀ alarm ∈ h.alarms, h.now < alarm → instant ≤ alarm) ∧
      h' = h.setClock instant := by
  rw [pass?, Option.ite_none_right_eq_some, Option.some.injEq, eq_comm (b := h')]

/-- **A turn** is one of these, and each of these is a turn. -/
theorem turnStep_iff {u : Turn} : h.TurnStep u h' ↔ h.turn? u = some h' := by
  constructor
  · intro hs
    cases hs with
    | obey hquick => simp [turn?, hquick]
    | move hm => exact moveStep_iff.mp hm
    | pass hquiet hle halarms => exact pass?_eq_some.mpr ⟨⟨hquiet, hle, halarms⟩, rfl⟩
  · intro hu
    cases u with
    | obey c =>
      rw [turn?, Option.ite_none_left_eq_some, Bool.not_eq_true] at hu
      obtain ⟨hquick, hobey⟩ := hu
      exact Option.some.inj hobey ▸ .obey hquick
    | move m => exact .move (moveStep_iff.mpr hu)
    | pass instant =>
      obtain ⟨⟨hquiet, hle, halarms⟩, rfl⟩ := pass?_eq_some.mp hu
      exact .pass hquiet hle halarms

/-! ## Rest -/

theorem loop_mem_movers {l : FlushLoop} (hl : l ∈ h.loops) : .loop l.id ∈ h.movers :=
  List.mem_append_left _ (List.mem_map_of_mem hl)

theorem task_mem_movers (ht : t ∈ h.tasks) : .task t.consumer ∈ h.movers :=
  List.mem_append_right _ (List.mem_map_of_mem ht)

/-- Whoever can move is a task or a loop that is there. -/
theorem mem_moves {m : Move} (hm : h.MoveStep m h') : m ∈ h.movers.flatMap Mover.moves := by
  rw [List.mem_flatMap]
  cases hm with
  | run ht | endJob ht | leave ht =>
    exact ⟨_, task_mem_movers (mem_of_task? ht), by simp [Mover.moves]⟩
  | tick hl | halt hl => exact ⟨_, loop_mem_movers (mem_of_loop? hl), by simp [Mover.moves]⟩

theorem isQuiet_iff : h.isQuiet = true ↔ ∀ m, h.move? m = none := by
  rw [isQuiet, List.all_eq_true]
  constructor
  · intro hquiet m
    refine Option.eq_none_iff_forall_ne_some.mpr fun h' hm => ?_
    obtain ⟨who, hwho, hmoves⟩ := List.mem_flatMap.mp (mem_moves (moveStep_iff.mpr hm))
    have hnone := List.all_eq_true.mp (hquiet who hwho) m hmoves
    exact absurd hnone (by simp [hm])
  · intro hnone who _
    rw [List.all_eq_true]
    exact fun m _ => Option.isNone_iff_eq_none.mpr (hnone m)

theorem not_moveStep_of_quiet {m : Move} (hquiet : h.isQuiet = true) : ¬h.MoveStep m h' :=
  fun hm => absurd ((isQuiet_iff.mp hquiet m).symm.trans (moveStep_iff.mp hm)) (by simp)

/-- When nobody can move, no task has a step to take, nor has a job that was left. -/
theorem not_taskStep_of_quiet (hquiet : h.isQuiet = true) (ht : h.task? t.consumer = some t) :
    ¬h.TaskStep t h' := by
  intro hs
  by_cases hlive : t.isOver = true → t.orphaned = false
  · exact not_moveStep_of_quiet hquiet (.run ht hlive hs)
  · obtain ⟨hover, horphan⟩ := Classical.not_imp.mp hlive
    exact not_moveStep_of_quiet hquiet (.endJob ht (by simpa using horphan) hover)

end Host

end EventBus
