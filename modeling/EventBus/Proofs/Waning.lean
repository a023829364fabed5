import EventBus.Proofs.Heads
import EventBus.Proofs.Timetable

/-!
# Programs that run down

A program runs down when all its handlers subscribe nobody and publish only what is below the event
that they are called with, in an order without infinite descent. Its heads are those of its tasks
and the ticks of its loops. Every move cuts a head of the task or the loop that makes it, and all
that grows, of it and of anybody else, is below that head.
-/

set_option autoImplicit false

namespace EventBus

open CutOrder (Cut GrowsBelow)

variable {r : Event → Event → Prop}

/-! ## How often a loop can still tick -/

namespace FlushLoop

/-- At least as many ticks as the loop makes at the instant `now`, when its interval is not zero. -/
def ticksLeft (l : FlushLoop) (now : Nat) : Nat :=
  match l.start with
  | none => 1
  | some start => (now - start) * TimeUnit.millisecond.nanos + 1 - l.ticks

/-- Every tick leaves fewer of them. -/
theorem ticksLeft_tick {l : FlushLoop} {now : Nat} (hi : 0 < l.interval.nanos)
    (hdue : l.isDue now = true) : (l.tick now).ticksLeft now < l.ticksLeft now := by
  cases hstart : l.start with
  | none => simp [ticksLeft, tick, hstart]
  | some start =>
    have hpast : start + (l.ticks * l.interval.nanos + (TimeUnit.millisecond.nanos - 1)) /
        TimeUnit.millisecond.nanos ≤ now := by
      simpa [isDue, alarm?, hstart, instant] using hdue
    have hticks : l.ticks ≤ l.ticks * l.interval.nanos := Nat.le_mul_of_pos_right _ hi
    simp only [ticksLeft, tick, hstart, Option.getD_some]
    simp only [TimeUnit.millisecond] at hpast ⊢
    omega

end FlushLoop

/-! ## The heads of a program -/

namespace Host

variable {h m h' : Host}

/-- The interval of a loop is not zero, as configurations have a least one. -/
theorem Reached.interval_pos (hr : h.Reached) {l : FlushLoop} (hl : l ∈ h.loops) :
    0 < l.interval.nanos := by
  obtain ⟨bus, -, hbus⟩ := Option.map_eq_some_iff.mp (hr.interval? l hl)
  have hleast := bus.config.minFlushInterval_le
  rw [← hbus]
  exact Nat.lt_of_lt_of_le (by decide) hleast

/-- What a loop may still do at this instant, more than nothing as long as it is there. -/
def ticksLeft (h : Host) (id : LoopId) : Nat :=
  match h.loop? id with
  | none => 0
  | some l => l.ticksLeft h.now + 1

/-- The heads of a task, or of a loop. -/
def heads (h : Host) : Mover → List Head
  | .task c => ((h.task? c).map fun t => t.heads (Task.queued (h.slot? c))).getD []
  | .loop id => [.tick (h.ticksLeft id)]

/-- In the move that leads from `h` to `h'` a head `a` of `who` is cut off, and nothing grows, of
`who` or of anybody else, but heads below it. Tasks lower events afterwards, and nobody has come. -/
structure Hews (r : Event → Event → Prop) (who : Mover) (a : Head) (h h' : Host) : Prop where
  own : Cut (Head.Below r) a (h.heads who) (h'.heads who)
  others : ∀ other, other ≠ who → GrowsBelow (Head.Below r) a (h.heads other) (h'.heads other)
  tasks : ∀ t ∈ h'.tasks, t.Wanes r ∧ ∃ s ∈ h.tasks, s.consumer = t.consumer
  loops : ∀ l ∈ h'.loops, ∃ k ∈ h.loops, k.id = l.id

theorem heads_below_tick {c : ConsumerRef} {a : Head} {n : Nat} (ha : a ∈ h.heads (.task c)) :
    Head.Below r a (.tick n) := by
  rw [heads] at ha
  cases ht : h.task? c with
  | none =>
    rw [ht] at ha
    exact absurd ha (by simp)
  | some t =>
    rw [ht] at ha
    exact Task.heads_below_tick ha



theorem Hews.movers {who : Mover} {a : Head} (hh : h.Hews r who a h') {other : Mover}
    (ho : other ∈ h'.movers) : other ∈ h.movers := by
  rcases List.mem_append.mp ho with ho | ho
  · obtain ⟨l, hl, rfl⟩ := List.mem_map.mp ho
    obtain ⟨k, hk, hid⟩ := hh.loops l hl
    exact hid ▸ loop_mem_movers hk
  · obtain ⟨t, ht, rfl⟩ := List.mem_map.mp ho
    obtain ⟨-, s, hs, hc⟩ := hh.tasks t ht
    exact hc ▸ task_mem_movers hs

/-- What is fed to queues grows there, for whoever has a task. -/
theorem Feeds.grows {p : Event → Prop} (hf : h.Feeds p h') {a : Head}
    (hp : ∀ e, p e → ∀ n, Head.Below r (.call e n) a) (who : Mover) :
    GrowsBelow (Head.Below r) a (h.heads who) (h'.heads who) := by
  cases who with
  | loop id => exact .of_eq (by simp only [heads, ticksLeft, loop?, hf.loops, hf.now])
  | task c =>
    have htask : h'.task? c = h.task? c := by rw [task?, task?, hf.tasks]
    obtain ⟨more, hmore, hqueued⟩ := hf.queued c
    rw [heads, heads, htask, hqueued]
    cases h.task? c with
    | none => exact .of_eq rfl
    | some t =>
      refine .of_subperm (more.map t.head) (fun b hb => ?_) ?_
      · obtain ⟨e, he, rfl⟩ := List.mem_map.mp hb
        exact hp e (hmore e he) _
      · rw [Option.map_some, Option.getD_some, Option.map_some, Option.getD_some,
          Task.heads_append]
        exact List.perm_append_comm.subperm

/-- Afterwards something below the head may be fed to queues. -/
theorem Hews.feeds (hr : WellFounded r) {who : Mover} {a : Head} (hh : h.Hews r who a m)
    {p : Event → Prop} (hf : m.Feeds p h') (hp : ∀ e, p e → ∀ n, Head.Below r (.call e n) a) :
    h.Hews r who a h' where
  own := hh.own.trans (Head.not_below_self hr a) (hf.grows hp who)
  others other ho := (hh.others other ho).trans (hf.grows hp other)
  tasks := by rw [hf.tasks]; exact hh.tasks
  loops := by rw [hf.loops]; exact hh.loops

theorem Hews.note (hr : WellFounded r) {who : Mover} {a : Head} (hh : h.Hews r who a m)
    (what : Happening) : h.Hews r who a (m.note what) :=
  hh.feeds hr (p := fun _ => False) (note_feeds what) fun _ hf => hf.elim

section

variable {t t' : Task}

theorem heads_of_task? {c : ConsumerRef} (ht : h.task? c = some t) :
    h.heads (.task c) = t.heads (Task.queued (h.slot? c)) := by
  rw [heads, ht, Option.map_some, Option.getD_some]

/-- A task of its own comes to another state, in which a head of it is cut off. -/
theorem hews_of_own (hw : ∀ s ∈ h.tasks, s.Wanes r) (ht : h.task? t.consumer = some t)
    (hs : t.Same t') (hwanes : t'.Wanes r) (hnow : m.now = h.now) (hloops : m.loops = h.loops)
    (htasks : m.tasks = (h.setTask t').tasks)
    (hslots : ∀ c, c ≠ t.consumer → m.slot? c = h.slot? c) {a : Head}
    (hcut : Cut (Head.Below r) a (t.heads (Task.queued (h.slot? t.consumer)))
      (t'.heads (Task.queued (m.slot? t.consumer)))) : h.Hews r (.task t.consumer) a m := by
  have htask : ∀ c, m.task? c =
      if c = t.consumer then (h.task? c).map fun _ => t' else h.task? c := by
    intro c
    rw [← hs.consumer, ← task?_setTask, task?, task?, htasks]
  refine ⟨?_, fun other ho => ?_, fun s hmem => ?_, fun l hl => ⟨l, hloops ▸ hl, rfl⟩⟩
  · rw [heads_of_task? ht, heads_of_task? (t := t') (by rw [htask, if_pos rfl, ht]; rfl)]
    exact hcut
  · cases other with
    | loop id => exact .of_eq (by simp only [heads, ticksLeft, loop?, hloops, hnow])
    | task c =>
      have hc : c ≠ t.consumer := fun hc => ho (by rw [hc])
      exact .of_eq (by rw [heads, heads, htask, if_neg hc, hslots c hc])
  · rw [htasks] at hmem
    obtain ⟨s', hs', rfl⟩ := List.mem_map.mp hmem
    split
    · next hc => exact ⟨hwanes, s', hs', hc⟩
    · exact ⟨hw s' hs', s', hs', rfl⟩

theorem hews_of_stride (hw : ∀ s ∈ h.tasks, s.Wanes r) (ht : h.task? t.consumer = some t)
    {said : Option Event} (hg : t.Stride said t') {a : Head}
    (hcut : ∀ queue, Cut (Head.Below r) a (t.heads queue) (t'.heads queue)) :
    h.Hews r (.task t.consumer) a (h.setTask t') :=
  hews_of_own (m := h.setTask t') hw ht hg.same ((hw t (mem_of_task? ht)).stride hg) rfl rfl rfl
    (fun _ _ => rfl) (hcut _)

variable (hr : WellFounded r) (hw : ∀ s ∈ h.tasks, s.Wanes r)
  (ht : h.task? t.consumer = some t)

include hr hw ht

/-- Whoever is gone has no head left. -/
theorem hews_of_erase (htasks : m.tasks = (h.eraseTask t.consumer).tasks)
    (hslots : ∀ c, c ≠ t.consumer → m.slot? c = h.slot? c) (hloops : m.loops = h.loops)
    (hnow : m.now = h.now) : h.Hews r (.task t.consumer) (.step t.unrest) m := by
  have htask : ∀ c, m.task? c = if c = t.consumer then none else h.task? c := by
    intro c
    rw [← h.task?_eraseTask, task?, htasks, task?]
  refine ⟨?_, fun other ho => ?_, fun s hs => ?_, fun l hl => ⟨l, hloops ▸ hl, rfl⟩⟩
  · rw [heads_of_task? ht, heads, htask, if_pos rfl]
    exact .of_perm [] (Head.not_below_self hr _) (.refl _) (by simp) List.nil_subperm
  · cases other with
    | loop id => exact .of_eq (by simp only [heads, ticksLeft, loop?, hloops, hnow])
    | task c =>
      have hc : c ≠ t.consumer := fun hc => ho (by rw [hc])
      exact .of_eq (by rw [heads, heads, htask, hslots c hc, if_neg hc])
  · rw [htasks] at hs
    have hmem := (List.mem_filter.mp hs).1
    exact ⟨hw s hmem, s, hmem, rfl⟩

theorem endTask_hews (what : Happening) :
    h.Hews r (.task t.consumer) (.step t.unrest) (h.endTask t what) := by
  have hfinish : h.Hews r (.task t.consumer) (.step t.unrest) (h.finish t what) :=
    hews_of_erase hr hw ht rfl (fun c hc => (h.slot?_finish t what c).trans (if_neg hc)) rfl rfl
  exact hfinish.feeds hr (p := fun _ => False) (release_feeds _) fun _ hf => hf.elim

theorem endJob_hews : h.Hews r (.task t.consumer) (.step t.unrest) (h.endJob t) := by
  have herase : h.Hews r (.task t.consumer) (.step t.unrest) (h.eraseTask t.consumer) :=
    hews_of_erase hr hw ht rfl (fun _ _ => rfl) rfl rfl
  exact herase.feeds hr (p := fun _ => False) (release_feeds _) fun _ hf => hf.elim

theorem look_hews (hreached : h.Reached) (hp : t.phase = .armed) :
    h.Hews r (.task t.consumer) (.step t.unrest) (h.look t) := by
  have hfinds := look_finds hreached ht hp
  generalize h.look t = h' at hfinds ⊢
  cases hfinds with
  | @batch s hs hq =>
    have hstride := Task.Stride.take (t := t) s.queue hp
    generalize hm : ((h.modifyGroup t.consumer.group fun group =>
      (group.take t.consumer.id []).2.2).setTask (t.beginBatch s.queue)).note
        (.took t.consumer s.queue) = m
    have hslot : ∀ c, m.slot? c =
        if c = t.consumer then some { s with queue := [] } else h.slot? c := by
      intro c
      rw [← hm]
      exact slot?_take hs hq c
    refine hews_of_own hw ht hstride.same ((hw t (mem_of_task? ht)).stride hstride)
      (by rw [← hm]; rfl) (by rw [← hm]; rfl) (by rw [← hm]; rfl)
      (fun c hc => (hslot c).trans (if_neg hc)) ?_
    rw [hslot, if_pos rfl, hs]
    exact Task.cut_take hr hp hq
  | nothing =>
    exact hews_of_stride hw ht (.findNothing hp) fun _ => Task.cut_findNothing hr hp
  | drained => exact endTask_hews hr hw ht _

/-- What an action publishes is below the event that the handler was called with, and so is what
grows by it in queues below the head of the call. -/
theorem perform_hews {lent : Option (List Event)} {call : Call}
    (hp : t.phase = .draining lent (some call)) {a : Action} {rest : List Action}
    (htodo : call.todo = a :: rest) (hawake : call.asleep = none) :
    h.Hews r (.task t.consumer) (.call call.event (rest.length + 1))
      (h.perform t lent { call with todo := rest } a) := by
  -- what the handler does in a call publishes below the event of the call
  have hlowers : a.Lowers r call.event :=
    (hw t (mem_of_task? ht)).todo lent call hp a (by rw [htodo]; exact List.mem_cons_self)
  have hcall : ({ call with todo := rest } : Call) =
      { call with todo := rest, asleep := none } := by rw [← hawake]
  -- the head of the call is cut by the actions done
  have hleft : ∀ (n : Nat) (asleep : Option Nat), a.panic? = none → n = 0 ∨ a.asks = true →
      h.Hews r (.task t.consumer) (.call call.event (rest.length + 1))
        (h.setTask (t.continueCall lent { call with todo := rest.drop n, asleep })) :=
    fun n asleep hcalm hn => hews_of_stride hw ht (.act n asleep hp htodo hcalm hn)
      fun _ => Task.cut_act hr hp htodo n asleep
  have hact : ∀ asleep : Option Nat, a.panic? = none →
      h.Hews r (.task t.consumer) (.call call.event (rest.length + 1))
        (h.setTask (t.continueCall lent { call with todo := rest, asleep })) :=
    fun asleep hcalm => hleft 0 asleep hcalm (.inl rfl)
  -- what the action feeds into queues is below the event, so below the head
  have hfed : ∀ {m : Host}, a.panic? = none →
      (h.setTask (t.continueCall lent { call with todo := rest })).Feeds (r · call.event) m →
      h.Hews r (.task t.consumer) (.call call.event (rest.length + 1)) m :=
    fun hcalm hf =>
      (hact none hcalm).feeds hr (hcall ▸ hf) fun e he _ => Head.call_below_of_lower he
  have henter : ∀ {answered : Answer × Host}, a.panic? = none →
      (h.setTask (t.continueCall lent { call with todo := rest })).Feeds (r · call.event)
        answered.2 →
      h.Hews r (.task t.consumer) (.call call.event (rest.length + 1)) (enter t a answered) :=
    fun hcalm hf => hfed hcalm (hf.trans (note_feeds _))
  cases a with
  | publish target event =>
    exact henter rfl (publishTo_feeds (p := (r · call.event)) (hlowers.2 event rfl) _ target)
  | countdown target => exact henter rfl (countdownTo_feeds hlowers.2 _)
  | cancel name => exact henter rfl (cancelNamed_feeds name)
  | close target => exact henter rfl (closeAt_feeds _ target)
  | count target type => exact henter rfl (countAt_feeds _ target type)
  -- what is skipped for the answer shortens the call further
  | consult question skip =>
    rw [perform_consult]
    generalize skip (h.ask t.held question).1 = n
    have hskip : ({ call with todo := rest } : Call).skip n =
        { call with todo := rest.drop n, asleep := none } := by
      rw [← hawake]
      rfl
    rw [hskip]
    exact (hleft n none rfl (.inr rfl)).feeds hr (p := (r · call.event))
      ((ask_feeds _ question).trans (note_feeds _)) fun e he _ => Head.call_below_of_lower he
  -- excluded: no handler here subscribes
  | subscribe target who => exact absurd hlowers.1 (by simp [Action.subscribes])
  | sleep ms => exact hact (some (h.now + ms)) rfl
  | panic payload early =>
    have hcut : ∀ queue, Cut (Head.Below r) (.call call.event call.todo.length) (t.heads queue)
        ((t.fail payload (lent.isSome || !early)).heads queue) :=
      fun _ => Task.cut_fail hr hp payload _
    rw [htodo] at hcut
    exact hews_of_stride hw ht (.fail hp htodo) hcut
  | report => exact hfed rfl (note_feeds _)

/-- **Every step of a task cuts a head of it.** -/
theorem TaskStep.hews (hs : h.TaskStep t h') (hreached : h.Reached) :
    ∃ a, h.Hews r (.task t.consumer) a h' := by
  cases hs with
  | register hp =>
    exact ⟨_, (hews_of_stride hw ht (.register hp) fun _ => Task.cut_register hr hp).note hr _⟩
  | look hp => exact ⟨_, look_hews hr hw ht hreached hp⟩
  | park hp => exact ⟨_, hews_of_stride hw ht (.park hp) fun _ => Task.cut_park hr hp⟩
  | resume hp hwoken =>
    exact ⟨_, hews_of_stride hw ht (.resume hp) fun _ => Task.cut_resume hr hp hwoken⟩
  | beginCall hp hb =>
    exact ⟨_, (hews_of_stride hw ht (.beginCall hp hb) fun _ =>
      Task.cut_beginCall hr hp hb).note hr _⟩
  | endBatch hp hb =>
    exact ⟨_, (hews_of_stride hw ht (.endBatch hp hb) fun _ =>
      Task.cut_endBatch hr hp hb).note hr _⟩
  | awake hp hasleep =>
    exact ⟨_, (hews_of_stride hw ht (.awake hp) fun _ =>
      Task.cut_awake hr hp hasleep).note hr _⟩
  | perform hp hawake htodo => exact ⟨_, perform_hews hr hw ht hp htodo hawake⟩
  | endCall hp _ htodo =>
    exact ⟨_, hews_of_stride hw ht (.endCall hp htodo) fun _ => Task.cut_endCall hr hp⟩
  | fail => exact ⟨_, endTask_hews hr hw ht _⟩

end

section

variable {l : FlushLoop} (hr : WellFounded r) (hw : ∀ s ∈ h.tasks, s.Wanes r)

include hr hw

omit hw in
/-- A loop has fewer ticks left. Tasks may have whatever to do then, since it is below a tick. -/
theorem hews_of_loop {id : LoopId} (hless : h'.ticksLeft id < h.ticksLeft id)
    (hothers : ∀ other, other ≠ id → h'.ticksLeft other = h.ticksLeft other)
    (htasks : ∀ t ∈ h'.tasks, t.Wanes r ∧ ∃ s ∈ h.tasks, s.consumer = t.consumer)
    (hloops : ∀ l ∈ h'.loops, ∃ k ∈ h.loops, k.id = l.id) :
    h.Hews r (.loop id) (.tick (h.ticksLeft id)) h' := by
  refine ⟨?_, fun other ho => ?_, htasks, hloops⟩
  · refine .of_perm [.tick (h'.ticksLeft id)] (Head.not_below_self hr _) (.refl _) ?_ (.refl _)
    simpa using Head.tick_below hless
  · cases other with
    | task c => exact .of_all fun _ => heads_below_tick
    | loop other =>
      have hne : other ≠ id := fun hne => ho (by rw [hne])
      exact .of_eq (by rw [heads, heads, hothers other hne])

theorem tick_hews (hreached : h.Reached) (hl : l ∈ h.loops) (hdue : l.isDue h.now = true)
    (heq : h' = ((h.setLoop (l.tick h.now)).wake l.group).note (.ticked l.id l.group)) :
    h.Hews r (.loop l.id) (.tick (h.ticksLeft l.id)) h' := by
  have hloop : ∀ id, h'.loop? id =
      if id = l.id then (h.loop? id).map fun _ => l.tick h.now else h.loop? id := by
    intro id
    rw [heq]
    exact h.loop?_setLoop (l.tick h.now) id
  have hnow : h'.now = h.now := by rw [heq]; rfl
  refine hews_of_loop hr ?_ (fun id hne => ?_) (fun s hs => ?_) fun k hk => ?_
  · rw [ticksLeft, ticksLeft, hloop, if_pos rfl, hreached.loopsSound.loop?_of_mem hl, hnow]
    exact Nat.succ_lt_succ (FlushLoop.ticksLeft_tick (hreached.interval_pos hl) hdue)
  · rw [ticksLeft, ticksLeft, hloop, if_neg hne, hnow]
  · rw [heq] at hs
    obtain ⟨s', hs', rfl⟩ := List.mem_map.mp hs
    split
    · exact ⟨(hw s' hs').wake, s', hs', s'.consumer_wake.symm⟩
    · exact ⟨hw s' hs', s', hs', rfl⟩
  · rw [heq] at hk
    obtain ⟨k', hk', rfl⟩ := List.mem_map.mp hk
    split
    · exact ⟨l, hl, rfl⟩
    · exact ⟨k', hk', rfl⟩

theorem halt_hews (hs : h.LoopsSound) (hl : l ∈ h.loops)
    (heq : h' = (h.eraseLoop l.id).note (.loopStopped l.id l.group)) :
    h.Hews r (.loop l.id) (.tick (h.ticksLeft l.id)) h' := by
  have hloop : ∀ id, h'.loop? id = if id = l.id then none else h.loop? id := by
    intro id
    rw [heq]
    exact h.loop?_eraseLoop l.id id
  have hnow : h'.now = h.now := by rw [heq]; rfl
  refine hews_of_loop hr ?_ (fun id hne => ?_) (fun s hmem => ?_) fun k hk => ?_
  · rw [ticksLeft, ticksLeft, hloop, if_pos rfl, hs.loop?_of_mem hl]
    exact Nat.succ_pos _
  · rw [ticksLeft, ticksLeft, hloop, if_neg hne, hnow]
  · rw [heq] at hmem
    exact ⟨hw s hmem, s, hmem, rfl⟩
  · rw [heq] at hk
    exact ⟨k, (List.mem_filter.mp hk).1, rfl⟩

end

/-! ## Programs -/



/-- A program all of whose tasks lower events, in an order that has no infinite descent. -/
structure Waning (r : Event → Event → Prop) (h : Host) : Prop where
  order : WellFounded r
  reached : h.Reached
  tasks : ∀ t ∈ h.tasks, t.Wanes r

namespace Waning

variable (hw : h.Waning r)

include hw

/-- **Every move cuts a head** of a task or a loop that is there. -/
theorem move? {move : Move} (hm : h.move? move = some h') :
    ∃ who ∈ h.movers, ∃ a, h.Hews r who a h' := by
  cases moveStep_iff.mpr hm with
  | run ht _ hstep =>
    exact ⟨_, task_mem_movers (mem_of_task? ht), hstep.hews hw.order hw.tasks ht hw.reached⟩
  | endJob ht =>
    exact ⟨_, task_mem_movers (mem_of_task? ht), _, endJob_hews hw.order hw.tasks ht⟩
  | leave ht =>
    exact ⟨_, task_mem_movers (mem_of_task? ht), _, endTask_hews hw.order hw.tasks ht _⟩
  | tick hl hdue =>
    have hmem := mem_of_loop? hl
    exact ⟨_, loop_mem_movers hmem, _,
      tick_hews hw.order hw.tasks hw.reached hmem hdue rfl⟩
  | halt hl =>
    have hmem := mem_of_loop? hl
    exact ⟨_, loop_mem_movers hmem, _,
      halt_hews hw.order hw.tasks hw.reached.loopsSound hmem rfl⟩

theorem turn? {u : Turn} (hu : h.turn? u = some h') (hmoves : ∀ c, u ≠ .obey c) :
    h'.Waning r := by
  refine ⟨hw.order, hw.reached.changes (turn?_changes hw.reached hu).changes, ?_⟩
  cases turnStep_iff.mpr hu with
  | obey => exact absurd rfl (hmoves _)
  | move hm =>
    obtain ⟨who, -, a, hhews⟩ := hw.move? (moveStep_iff.mp hm)
    exact fun t ht => (hhews.tasks t ht).1
  | pass => exact hw.tasks

theorem run {ts : List Turn} (run : Run h ts h') (hmoves : ∀ t ∈ ts, ∀ c, t ≠ .obey c) :
    h'.Waning r := by
  induction run with
  | nil => exact hw
  | @cons _ _ _ t _ turn _ ih =>
    exact ih (hw.turn? turn (hmoves t List.mem_cons_self))
      fun u hu => hmoves u (List.mem_cons_of_mem t hu)

end Waning

end Host

end EventBus
