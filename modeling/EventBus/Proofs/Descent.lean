import EventBus.Proofs.OffRuntime
import EventBus.Proofs.Subscribers

/-!
# What a task descends from

After a turn a task is what it was before, or it was woken, or it took a step of its own, or it has
been put in line and has not done anything. `Stride` says what a step of its own is, to the last
action of a call, and whether the handler is called by it; so a property of a task and of the events
that its handler was called with is kept by every turn if it is kept by `Stride`. None of this asks
whether the state can be reached.
-/

set_option autoImplicit false

namespace EventBus

/-- What an action panics with, if it is a panic. -/
def Action.panic? : Action → Option Payload
  | .panic payload _ => some payload
  | _ => none

theorem Action.panic?_eq_none {a : Action} (ha : a.isPanic = false) : a.panic? = none := by
  cases a <;> first | rfl | exact absurd ha (by simp [isPanic])

namespace Task

/-- `t.Stride said t'`: a step of the task `t` on its own leads to `t'`, and by the way its handler
is called with `said`. -/
inductive Stride (t : Task) : Option Event → Task → Prop
  | register : t.phase = .ready → Stride t none t.register
  | take (batch : List Event) : t.phase = .armed → Stride t none (t.beginBatch batch)
  | findNothing : t.phase = .armed → Stride t none (t.enter .idle)
  | park : t.phase = .idle → Stride t none (t.enter .waiting)
  | resume : t.phase = .waiting → Stride t none (t.enter .ready)
  | beginCall {lent : Option (List Event)} {event : Event} {rest : List Event} :
      t.phase = .draining lent none → t.batch = event :: rest →
      Stride t (some event) (t.beginCall lent event rest)
  -- An action is performed that is no panic. It may make a pause, or leave out others that follow
  -- if it asks.
  | act {lent : Option (List Event)} {call : Call} {a : Action} {rest : List Action}
      (n : Nat) (asleep : Option Nat) : t.phase = .draining lent (some call) →
      call.todo = a :: rest → a.panic? = none → n = 0 ∨ a.asks = true →
      Stride t none (t.continueCall lent { call with todo := rest.drop n, asleep })
  -- A pause is over.
  | awake {lent : Option (List Event)} {call : Call} : t.phase = .draining lent (some call) →
      Stride t none (t.continueCall lent { call with asleep := none })
  | fail {lent : Option (List Event)} {call : Call} {payload : Payload} {early : Bool}
      {rest : List Action} :
      t.phase = .draining lent (some call) → call.todo = .panic payload early :: rest →
      Stride t none (t.fail payload (lent.isSome || !early))
  | endCall {lent : Option (List Event)} {call : Call} : t.phase = .draining lent (some call) →
      call.todo = [] → Stride t none (t.endCall lent)
  | endBatch {lent : Option (List Event)} : t.phase = .draining lent none → t.batch = [] →
      Stride t none t.endBatch

variable {t t' : Task} {said : Option Event}

/-- A task stays that of its consumer. -/
theorem Stride.same (hg : t.Stride said t') : t.Same t' := by
  cases hg with
  | take batch => exact same_beginBatch t batch
  | @beginCall lent => cases lent <;> exact ⟨rfl, rfl, rfl, rfl⟩
  | _ => exact ⟨rfl, rfl, rfl, rfl⟩

/-- Whatever the handler of the task does on an event is as `p` says, and so is what is left of the
call that it is at. -/
structure All (p : Event → Action → Prop) (t : Task) : Prop where
  handler : ∀ event, ∀ a ∈ t.handler.react event, p event a
  todo : ∀ lent call, t.phase = .draining lent (some call) → ∀ a ∈ call.todo, p call.event a

section

variable {p : Event → Action → Prop}

theorem All.wake (ha : t.All p) : t.wake.All p :=
  ⟨t.same_wake.handler ▸ ha.handler, fun lent call hp => ha.todo lent call (t.phase_wake ▸ hp)⟩

theorem All.orphan (ha : t.All p) : t.orphan.All p := ⟨ha.handler, ha.todo⟩

/-- What a task does next is part of what its handler does, so it is as `p` says after every step.
-/
theorem All.stride (ha : t.All p) (hg : t.Stride said t') : t'.All p := by
  refine ⟨hg.same.handler ▸ ha.handler, fun lent call hp => ?_⟩
  cases hg with
  | take batch =>
    unfold beginBatch at hp
    split at hp <;> exact absurd hp (by simp)
  | @beginCall lent' event rest =>
    cases lent' <;>
    · simp only [beginCall, Phase.draining.injEq, Option.some.injEq] at hp
      obtain ⟨-, rfl⟩ := hp
      exact ha.handler event
  | @act lent' call' a rest n asleep hp' htodo =>
    simp only [continueCall, Phase.draining.injEq, Option.some.injEq] at hp
    obtain ⟨-, rfl⟩ := hp
    exact fun b hb => ha.todo lent' call' hp' b
      (htodo ▸ List.mem_cons_of_mem a (List.mem_of_mem_drop hb))
  | @awake lent' call' hp' =>
    simp only [continueCall, Phase.draining.injEq, Option.some.injEq] at hp
    obtain ⟨-, rfl⟩ := hp
    exact ha.todo lent' call' hp'
  | _ => exact absurd hp (by simp [register, enter, fail, endCall, endBatch])

end

end Task

/-- Who finds nothing gets its buffer back. -/
theorem Group.take_eq_empty {α : Type} {g : Group α} {id : ConsumerId} {buffer : List α}
    (hempty : (g.take id buffer).1 = .empty) : (g.take id buffer).2.1 = buffer := by
  unfold take at hempty ⊢
  split
  · rfl
  · split
    · split <;> rfl
    · simp_all

namespace Host

variable {h m h' : Host}

/-- Whoever calls no handler leaves the calls as they are. -/
theorem Tells.delivered (hcalls : h.Tells (fun what => ∀ c, what.calls? c = none) h')
    (c : ConsumerRef) : h'.journal.delivered c = h.journal.delivered c := by
  obtain ⟨news, hj, hnews⟩ := hcalls
  rw [hj]
  clear hj
  induction news with
  | nil => rfl
  | cons x news ih =>
    rw [List.cons_append, Journal.delivered, hnews x List.mem_cons_self]
    exact ih fun y hy => hnews y (List.mem_cons_of_mem x hy)

theorem journal_endTask (t : Task) (what : Happening) :
    (h.endTask t what).journal = ⟨h.now, what⟩ :: h.journal :=
  journal_release _ (h.finish t what)

theorem delivered_called (j : Journal) (time : Nat) (c d : ConsumerRef) (who : Profile)
    (event : Event) : Journal.delivered (⟨time, .called c who event⟩ :: j) d =
      if c = d then j.delivered d ++ [event] else j.delivered d := by
  rw [Journal.delivered]
  by_cases hd : c = d <;> simp [Happening.calls?, hd]

/-- From `h` to `h'` no task takes a step: the tasks of `h'` are tasks of `h`, or have subscribed
since and not done anything. -/
structure Joins (h h' : Host) : Prop where
  silent : h.Tells (fun what => ∀ c, what.calls? c = none) h'
  tasks : ∀ t ∈ h'.tasks, t ∈ h.tasks ∨ t.phase = .ready ∧ t.buffer = [] ∧
    h.journal.subscribers.count t.consumer < h'.journal.subscribers.count t.consumer

/-- Who has subscribed stays among those who have. -/
theorem Tells.subscribers_le {p : Happening → Prop} (ht : h.Tells p h') (c : ConsumerRef) :
    h.journal.subscribers.count c ≤ h'.journal.subscribers.count c := by
  obtain ⟨news, hj, -⟩ := ht
  rw [hj, Journal.subscribers_append, List.count_append]
  exact Nat.le_add_left _ _

theorem Joins.refl (h : Host) : h.Joins h := ⟨.of_same rfl, fun _ ht => .inl ht⟩

theorem Joins.trans (ha : h.Joins m) (hb : m.Joins h') : h.Joins h' where
  silent := ha.silent.trans hb.silent
  tasks t ht := by
    rcases hb.tasks t ht with hm | ⟨hready, hbuffer, hnew⟩
    · rcases ha.tasks t hm with ht | ⟨hready, hbuffer, hnew⟩
      · exact .inl ht
      · exact .inr ⟨hready, hbuffer, Nat.lt_of_lt_of_le hnew (hb.silent.subscribers_le _)⟩
    · exact .inr ⟨hready, hbuffer, Nat.lt_of_le_of_lt (ha.silent.subscribers_le _) hnew⟩

theorem Joins.of_tasks (hj : h'.journal = h.journal) (ht : h'.tasks = h.tasks) : h.Joins h' :=
  ⟨.of_same hj, fun _ hmem => .inl (ht ▸ hmem)⟩

/-- Who enters something that is no call, and leaves the tasks as they are. -/
theorem Joins.of_cons {x : Entry} (hj : h'.journal = x :: h.journal)
    (hx : ∀ c, x.what.calls? c = none) (ht : h'.tasks = h.tasks) : h.Joins h' :=
  ⟨.of_cons hj hx, fun _ hmem => .inl (ht ▸ hmem)⟩

/-- Who calls a handler enters what a task does. -/
theorem calls?_of_not_isOfTask {what : Happening} (hw : what.isOfTask = false) (c : ConsumerRef) :
    what.calls? c = none := by
  cases what <;> first | rfl | exact absurd hw (by simp [Happening.isOfTask])

theorem KeepsRuntime.joins (hk : h.KeepsRuntime h') : h.Joins h' :=
  ⟨hk.quiet.mono fun _ hx => calls?_of_not_isOfTask hx, fun _ ht => .inl (hk.tasks ▸ ht)⟩

/-- A task that ends leaves those that are there without a step. -/
theorem endTask_joins (t : Task) {what : Happening} (hw : ∀ c, what.calls? c = none) :
    h.Joins (h.endTask t what) := by
  have hfinish : h.Joins (h.finish t what) :=
    ⟨.of_cons rfl hw, fun s hs => .inl (List.mem_filter.mp hs).1⟩
  exact hfinish.trans (release_keepsRuntime _ _).joins

theorem endJob_joins (t : Task) : h.Joins (h.endJob t) :=
  Joins.trans (m := h.eraseTask t.consumer)
    ⟨.of_same rfl, fun _ hs => .inl (List.mem_filter.mp hs).1⟩ (release_keepsRuntime _ _).joins

/-- The subscription of a consumer, and its task in line or dropped. -/
theorem spawn_joins {t : Task} {kind : Kind} {profile : Profile} (hready : t.phase = .ready)
    (hbuffer : t.buffer = []) :
    h.Joins ((h.note (.subscribed t.consumer kind profile)).spawn t) := by
  have henrol : h.Joins { h.note (.subscribed t.consumer kind profile) with
      tasks := h.tasks ++ [t] } := by
    refine ⟨.of_cons rfl fun _ => rfl, fun s hs => ?_⟩
    rcases List.mem_append.mp hs with hs | hs
    · exact .inl hs
    · obtain rfl := List.mem_singleton.mp hs
      refine .inr ⟨hready, hbuffer, ?_⟩
      show _ < (s.consumer :: h.journal.subscribers).count s.consumer
      rw [List.count_cons_self]
      exact Nat.lt_succ_self _
  unfold spawn
  split
  · exact henrol
  · exact henrol.trans (endTask_joins t fun _ => rfl)

/-- **By no request does a task take a step.** The task that a subscription brings about has not
done anything. -/
theorem Requested.joins (hq : h.Requested h') : h.Joins h' := by
  cases hq with
  | aside hk => exact hk.joins
  | @subscribed m _ b context who held hbefore hafter =>
    refine hbefore.joins.trans (Joins.trans ?_ hafter.joins)
    rcases subscribe_cases m b context who held with
      hk | ⟨n, t, -, htasks, hquiet, hready, hbuffer, heq⟩
    · exact hk.joins
    · rw [heq]
      have hbound : m.Joins n :=
        ⟨hquiet.mono fun _ hx => calls?_of_not_isOfTask hx, fun _ ht => .inl (htasks ▸ ht)⟩
      exact hbound.trans (spawn_joins hready hbuffer)

theorem obey_joins (c : Command) (hq : c.takesTime = false) (hs : c.stopsRuntime = false) :
    h.Joins (h.obey c).2 := by
  cases hc : c.reachesRuntime with
  | false => exact (obey_keepsRuntime c hc).joins
  | true =>
    cases c with
    | subscribe target who outside => exact (subscribeAt_requested _ _ target who).joins
    | stopRuntime | startRuntime => exact absurd hs (by simp [Command.stopsRuntime])
    | advance ms => exact absurd hq (by simp [Command.takesTime])
    | _ => exact absurd hc (by simp [Command.reachesRuntime])

/-! ## Turns -/

/-- What a task of `h'` was in `h`. -/
inductive Descent (h h' : Host) (t' : Task) : Prop
  | kept : t' ∈ h.tasks →
      h'.journal.delivered t'.consumer = h.journal.delivered t'.consumer → Descent h h' t'
  | woken {t : Task} : t ∈ h.tasks → t' = t.wake →
      h'.journal.delivered t'.consumer = h.journal.delivered t'.consumer → Descent h h' t'
  -- The task is gone, and this is its job.
  | left {t : Task} : t ∈ h.tasks → t' = t.orphan →
      h'.journal.delivered t'.consumer = h.journal.delivered t'.consumer → Descent h h' t'
  | gone {t : Task} {said : Option Event} : t ∈ h.tasks → t.Stride said t' →
      h'.journal.delivered t'.consumer = h.journal.delivered t'.consumer ++ said.toList →
      Descent h h' t'
  | new : t'.phase = .ready → t'.buffer = [] →
      h.journal.subscribers.count t'.consumer < h'.journal.subscribers.count t'.consumer →
      ((∀ t ∈ h.tasks, t.consumer ≠ t'.consumer) →
        h'.journal.delivered t'.consumer = h.journal.delivered t'.consumer) → Descent h h' t'

/-- All tasks of `h'` have a descent in `h`. -/
def Descends (h h' : Host) : Prop := ∀ t' ∈ h'.tasks, h.Descent h' t'

/-- Where no task takes a step, all are as they were or new. -/
theorem Joins.descends (hj : h.Joins h') : h.Descends h' := by
  intro t' ht'
  have hdelivered := hj.silent.delivered t'.consumer
  rcases hj.tasks t' ht' with ht | ⟨hready, hbuffer, hnew⟩
  · exact .kept ht hdelivered
  · exact .new hready hbuffer hnew fun _ => hdelivered

/-- Descent is about tasks and the journal. -/
theorem Descends.congr (hd : h.Descends m) (ht : h'.tasks = m.tasks)
    (hj : h'.journal = m.journal) : h.Descends h' := by
  intro t' ht'
  cases hd t' (ht ▸ ht') with
  | kept hs hdelivered => exact .kept hs (hj ▸ hdelivered)
  | woken hs heq hdelivered => exact .woken hs heq (hj ▸ hdelivered)
  | left hs heq hdelivered => exact .left hs heq (hj ▸ hdelivered)
  | gone hs hg hdelivered => exact .gone hs hg (hj ▸ hdelivered)
  | new hready hbuffer hnew hdelivered =>
    exact .new hready hbuffer (hj ▸ hnew) fun hno => hj ▸ hdelivered hno

/-- A stop of the runtime calls nobody, and leaves of tasks nothing but jobs. -/
theorem stopRuntime_descends (h : Host) : h.Descends h.stopRuntime := by
  have hall : ∀ (ts : List Task) (m : Host),
      m.Tells (fun what => ∀ c, what.calls? c = none) (m.loseAll ts) := by
    intro ts
    induction ts with
    | nil => exact fun m => .of_same rfl
    | cons t rest ih =>
      intro m
      have hfirst : m.Tells (fun what => ∀ c, what.calls? c = none) (m.lose t) := by
        unfold lose
        split
        · exact .of_cons rfl fun _ => rfl
        · exact (endTask_joins t fun _ => rfl).silent
      exact hfirst.trans (ih (m.lose t))
  unfold stopRuntime
  split
  · exact (Joins.refl h).descends
  · next r _ =>
    intro t' ht'
    have hdelivered := (hall (h.attended.filter (·.runtime = r)) { h with
      runtime := none, loops := h.loops.filter (·.runtime ≠ r) }).delivered t'.consumer
    rcases mem_loseAll ht' with ht | ⟨t, ht, -, heq⟩
    · exact .kept ht hdelivered
    · exact .left (mem_attended.mp (List.mem_filter.mp ht).1).1 heq hdelivered

/-- The task `t` takes its step, and its handler is called with `said`. -/
def goOn (h : Host) (t : Task) (said : Option Event) (t' : Task) : Host :=
  (h.setTask t').say (said.map (.called t.consumer t.handler.profile))

section

variable {t t' : Task} {said : Option Event}

/-- The handler of the task that goes on is called with `said`, and no other is called. -/
theorem delivered_goOn (t t' : Task) (said : Option Event) (c : ConsumerRef) :
    (h.goOn t said t').journal.delivered c =
      h.journal.delivered c ++ if t.consumer = c then said.toList else [] := by
  cases said with
  | none => simp [goOn, say, setTask]
  | some event =>
    show Journal.delivered (⟨h.now, .called t.consumer _ event⟩ :: h.journal) c = _
    rw [delivered_called]
    split <;> simp

/-- A task takes a step of its own, and then other things happen by which no task takes one. -/
theorem descends_of_stride (ht : t ∈ h.tasks) (hg : t.Stride said t')
    (hj : (h.goOn t said t').Joins h') : h.Descends h' := by
  intro s hs
  have hcons : t'.consumer = t.consumer := hg.same.consumer
  have hdelivered := hj.silent.delivered s.consumer
  rw [delivered_goOn] at hdelivered
  have hother : s.consumer ≠ t.consumer →
      h'.journal.delivered s.consumer = h.journal.delivered s.consumer := fun hne => by
    rw [hdelivered, if_neg (Ne.symm hne), List.append_nil]
  rcases hj.tasks s hs with hs | ⟨hready, hbuffer, hnew⟩
  · obtain ⟨s', hs', rfl⟩ := List.mem_map.mp hs
    split
    · next hc =>
      rw [if_pos hc, hcons, if_pos rfl] at hdelivered
      exact .gone ht hg (by rw [hcons]; exact hdelivered)
    · next hne =>
      rw [if_neg hne] at hother
      exact .kept hs' (hother (hcons ▸ hne))
  · have hsubscribers : (h.goOn t said t').journal.subscribers = h.journal.subscribers := by
      cases said <;> rfl
    rw [hsubscribers] at hnew
    exact .new hready hbuffer hnew fun hnot => hother (Ne.symm (hnot t ht))

/-- The same, of a task that calls nobody. -/
theorem descends_of_silent (ht : t ∈ h.tasks) (hg : t.Stride none t')
    (hj : (h.setTask t').Joins h') : h.Descends h' :=
  descends_of_stride ht hg hj

/-- To look for events is a step of the task, or its end. -/
theorem look_descends (ht : t ∈ h.tasks) (hp : t.phase = .armed) : h.Descends (h.look t) := by
  have hstopped : ∀ m : Host, h.Joins m →
      h.Descends (m.endTask t (.stopped t.consumer t.handler.profile .drained)) :=
    fun m hm => (hm.trans (endTask_joins t fun _ => rfl)).descends
  unfold look
  cases h.group? t.consumer.group with
  | none => exact hstopped h (.refl h)
  | some group =>
    have hempty := @Group.take_eq_empty _ group t.consumer.id t.buffer
    dsimp only
    generalize group.take t.consumer.id t.buffer = taken at hempty ⊢
    obtain ⟨found, buffer, group'⟩ := taken
    cases found with
    | batch => exact descends_of_silent ht (.take buffer hp) (.of_cons rfl (fun _ => rfl) rfl)
    | empty =>
      obtain rfl : buffer = t.buffer := hempty rfl
      exact descends_of_silent ht (.findNothing hp) (.of_tasks rfl rfl)
    | stopped => exact hstopped _ (.of_tasks rfl rfl)

/-- An action is a step of its task, and then a request by which no task takes one. -/
theorem perform_descends (ht : t ∈ h.tasks) {lent : Option (List Event)} {call : Call}
    (hp : t.phase = .draining lent (some call)) {a : Action} {rest : List Action}
    (htodo : call.todo = a :: rest) (hawake : call.asleep = none) :
    h.Descends (h.perform t lent { call with todo := rest } a) := by
  -- the step is said to leave a pause behind or none, and `call` is in none
  have hcall : ∀ n : Nat, ({ call with todo := rest } : Call).skip n =
      { call with todo := rest.drop n, asleep := none } := fun n => by rw [← hawake]; rfl
  have hact : ∀ {m : Host} (n : Nat) (asleep : Option Nat), a.panic? = none →
      n = 0 ∨ a.asks = true →
      (h.setTask (t.continueCall lent { call with todo := rest.drop n, asleep })).Joins m →
      h.Descends m := fun n asleep ha hn hm =>
    descends_of_silent ht (.act n asleep hp htodo ha hn) hm
  have hperforms := perform_requested (h := h) t lent { call with todo := rest } a
  generalize h.perform t lent { call with todo := rest } a = h' at hperforms ⊢
  cases hperforms with
  | asked n answered ha hn hasked =>
    exact hact n none (Action.panic?_eq_none ha) hn
      (hcall n ▸ hasked.joins.trans (.of_cons rfl (fun _ => rfl) rfl))
  | pauses ms => exact hact 0 (some (h.now + ms)) rfl (.inl rfl) (.refl _)
  | panics payload early => exact descends_of_silent ht (.fail hp htodo) (.refl _)
  | reports => exact hact 0 none rfl (.inl rfl) (hcall 0 ▸ .of_cons rfl (fun _ => rfl) rfl)

/-- A step of a task is one stride of it, but for the end, which is none. -/
theorem TaskStep.descends (hs : h.TaskStep t h') (ht : t ∈ h.tasks) : h.Descends h' := by
  cases hs with
  | register hp => exact descends_of_silent ht (.register hp) (.of_cons rfl (fun _ => rfl) rfl)
  | look hp => exact look_descends ht hp
  | park hp => exact descends_of_silent ht (.park hp) (.refl _)
  | resume hp => exact descends_of_silent ht (.resume hp) (.refl _)
  | beginCall hp hb => exact descends_of_stride ht (.beginCall hp hb) (.refl _)
  | endBatch hp hb =>
    exact descends_of_silent ht (.endBatch hp hb) (.of_cons rfl (fun _ => rfl) rfl)
  | awake hp => exact descends_of_silent ht (.awake hp) (.of_cons rfl (fun _ => rfl) rfl)
  | perform hp hawake htodo => exact perform_descends ht hp htodo hawake
  | endCall hp _ htodo => exact descends_of_silent ht (.endCall hp htodo) (.refl _)
  | fail => exact (endTask_joins t fun _ => rfl).descends

end

/-- A move is at most one step of one task, or wakes several. -/
theorem MoveStep.descends {m : Move} (hm : h.MoveStep m h') : h.Descends h' := by
  cases hm with
  | run ht _ hstep => exact hstep.descends (mem_of_task? ht)
  | endJob => exact (endJob_joins _).descends
  | leave => exact (endTask_joins _ fun _ => rfl).descends
  | tick =>
    intro t' ht'
    obtain ⟨t, ht, rfl⟩ := List.mem_map.mp ht'
    split
    · exact .woken ht rfl rfl
    · exact .kept ht rfl
  | halt => exact Joins.descends (.of_cons rfl (fun _ => rfl) rfl)

/-- **Whatever happens**, each task that is then there is descended from one, or is new. -/
theorem turn?_descends {u : Turn} (hu : h.turn? u = some h') : h.Descends h' := by
  cases turnStep_iff.mpr hu with
  | @obey c hquick =>
    cases hstop : c.stopsRuntime with
    | false => exact (obey_joins c hquick hstop).descends
    | true =>
      cases c with
      | stopRuntime | startRuntime => exact (stopRuntime_descends h).congr rfl rfl
      | _ => exact absurd hstop (by simp [Command.stopsRuntime])
  | move hm => exact hm.descends
  | pass => exact Joins.descends (.of_tasks rfl rfl)

theorem Reachable.run (hr : h.Reachable) {us : List Turn} (run : Run h us h') : h'.Reachable := by
  obtain ⟨running, ts, before⟩ := hr
  exact ⟨running, ts ++ us, before.append run⟩

/-- Who has subscribed since had not subscribed before, as nobody does twice. -/
theorem not_mem_subscribers_of_new {c : ConsumerRef} (hr' : h'.Reached)
    (hnew : h.journal.subscribers.count c < h'.journal.subscribers.count c) :
    c ∉ h.journal.subscribers := by
  have honce := List.nodup_iff_count_le_one.mp hr'.subscribers_nodup c
  exact List.count_eq_zero.mp (by omega)

/-- What holds of a task that has not done anything, and is kept when it is woken, when it is
dropped but for its job and by each step that it takes, holds of every task and the events that its
handler was called with. -/
theorem Reachable.of_strides {P : Task → List Event → Prop} (hr : h.Reachable)
    (new : ∀ {t : Task}, t.phase = .ready → t.buffer = [] → P t [])
    (woken : ∀ {t : Task} {calls : List Event}, P t calls → P t.wake calls)
    (left : ∀ {t : Task} {calls : List Event}, P t calls → P t.orphan calls)
    (goes : ∀ {t t' : Task} {said : Option Event} {calls : List Event}, P t calls →
      t.Stride said t' → P t' (calls ++ said.toList)) :
    ∀ t ∈ h.tasks, P t (h.journal.delivered t.consumer) := by
  refine hr.invariant (P := fun h => ∀ t ∈ h.tasks, P t (h.journal.delivered t.consumer))
    (fun running t ht => ?_) fun {h h' u} hr hP hu t' ht' => ?_
  · have hnone : (initial running).tasks = [] := by cases running <;> rfl
    rw [hnone] at ht
    exact absurd ht (by simp)
  · cases turn?_descends hu t' ht' with
    | kept ht hdelivered =>
      rw [hdelivered]
      exact hP t' ht
    | woken ht heq hdelivered =>
      rw [hdelivered, heq, Task.consumer_wake]
      exact woken (hP _ ht)
    | left ht heq hdelivered =>
      rw [hdelivered, heq]
      exact left (hP _ ht)
    | gone ht hg hdelivered =>
      rw [hdelivered, hg.same.consumer]
      exact goes (hP _ ht) hg
    | new hready hbuffer hnew hdelivered =>
      -- a consumer that is new was not called before
      have hnot : t'.consumer ∉ h.journal.subscribers :=
        not_mem_subscribers_of_new (hr.run (.single hu)).reached hnew
      cases hr.reached.lifetime t'.consumer with
      | unborn _ htask _ _ hcalls =>
        rw [hdelivered fun t ht hc => ?_, hcalls]
        · exact new hready hbuffer
        · rw [← hc, hr.reached.paired.task?_of_mem ht] at htask
          exact absurd htask (by simp)
      | alive _ _ _ hk | gone _ _ hk =>
        obtain ⟨kind, hsub, -⟩ := hk
        exact absurd (Journal.mem_subscribers_iff.mpr (by rw [hsub]; rfl)) hnot

end Host

end EventBus
