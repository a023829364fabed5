import EventBus.Proofs.Calls

/-!
# Consumers that keep to themselves

A handler that asks nothing of any bus, and holds on to none, only records, pauses and panics. What
its task does next is then told by the task, its slot and the clock alone: `act` says so, and `Does`
that nobody else is touched by it. What is left of a program without a consumer is `without`; it is
the same before and after such a step.
-/

set_option autoImplicit false

namespace EventBus

namespace Action

/-- Whether an action asks nothing of any bus. -/
def isPrivate : Action → Bool
  | sleep _ | panic .. | report => true
  | _ => false

end Action

def Handler.Private (handler : Handler Action) : Prop :=
  ∀ event, ∀ a ∈ handler.react event, a.isPrivate = true

namespace Happening

/-- The consumer that this happened to, or that did it. -/
def who? : Happening → Option ConsumerRef
  | subscribed c .. | unsubscribed c | registered c | took c _ | drained c | called c .. |
    acted c .. | slept c _ | reported c _ | stopped c .. | panicked c .. | lost c _ => some c
  | _ => none

end Happening

namespace Task

/-- A task that asks nothing of any bus from now on. -/
structure Private (t : Task) : Prop where
  handler : t.handler.Private
  held : t.held = []
  todo : ∀ lent call, t.phase = .draining lent (some call) → ∀ a ∈ call.todo, a.isPrivate = true

theorem Private.wake {t : Task} (hp : t.Private) : t.wake.Private := by
  unfold Task.wake
  split
  · exact ⟨hp.handler, hp.held, hp.todo⟩
  · exact hp

/-- A task goes on being private while it does what its handler says. -/
theorem Private.of_same {t t' : Task} (hp : t.Private) (hs : t.Same t')
    (htodo : ∀ lent call, t'.phase = .draining lent (some call) →
      ∀ a ∈ call.todo, a.isPrivate = true) : t'.Private :=
  ⟨hs.handler ▸ hp.handler, hs.held.trans hp.held, htodo⟩

/-- What a step of a task leaves behind of the task and its slot, and what is said of it. -/
structure Deed where
  task : Option Task
  slot : Option (Slot Event)
  said : Option Happening

/-- What a look at its slot makes of a task. -/
def regard (t : Task) (slot : Option (Slot Event)) : Deed :=
  match slot with
  | none => ⟨none, none, some (.stopped t.consumer t.handler.profile .drained)⟩
  | some s =>
    if s.queue.isEmpty then
      if s.stopped then ⟨none, none, some (.stopped t.consumer t.handler.profile .drained)⟩
      else ⟨some (t.enter .idle), some s, none⟩
    else
      ⟨some (t.beginBatch s.queue), some { s with queue := t.buffer },
        some (.took t.consumer s.queue)⟩

/-- The next step of a call, at the instant `now`. -/
def proceed (t : Task) (slot : Option (Slot Event)) (now : Nat) (lent : Option (List Event))
    (call : Call) : Option Deed :=
  match call.asleep, call.todo with
  | some alarm, _ =>
    if alarm ≤ now then
      some ⟨some (t.continueCall lent { call with asleep := none }), slot,
        some (.slept t.consumer t.handler.profile)⟩
    else none
  | none, [] => some ⟨some (t.endCall lent), slot, none⟩
  | none, .sleep ms :: rest =>
    some ⟨some (t.continueCall lent { call with todo := rest, asleep := some (now + ms) }),
      slot, none⟩
  | none, .panic payload early :: _ =>
    some ⟨some (t.fail payload (lent.isSome || !early)), slot, none⟩
  | none, .report :: rest =>
    some ⟨some (t.continueCall lent { call with todo := rest }), slot,
      some (.reported t.consumer call.event)⟩
  | none, _ => none

/-- The next step of a task that has one, at the instant `now`. -/
def carryOn (t : Task) (slot : Option (Slot Event)) (now : Nat) : Option Deed :=
  match t.phase with
  | .ready => some ⟨some t.register, slot, some (.registered t.consumer)⟩
  | .armed => some (t.regard slot)
  | .idle => some ⟨some (t.enter .waiting), slot, none⟩
  | .waiting => if t.woken then some ⟨some (t.enter .ready), slot, none⟩ else none
  | .draining lent none =>
    match t.batch with
    | [] => some ⟨some t.endBatch, slot, some (.drained t.consumer)⟩
    | event :: rest =>
      some ⟨some (t.beginCall lent event rest), slot,
        some (.called t.consumer t.handler.profile event)⟩
  | .draining lent (some call) => t.proceed slot now lent call
  | .failed payload caught =>
    some ⟨none, none, some (.panicked t.consumer t.handler.profile payload caught)⟩

/-- What a task does next, at the instant `now`, if its handler asks nothing of any bus. A job that
is over goes without a word. -/
def act (t : Task) (slot : Option (Slot Event)) (now : Nat) : Option Deed :=
  if t.orphaned && t.isOver then some ⟨none, slot, none⟩ else t.carryOn slot now

/-! ## What a step leaves of the task -/

section

variable {t : Task} {slot : Option (Slot Event)} {now : Nat} {d : Deed}

theorem private_regard (hp : t.Private) {t' : Task} (ht : (t.regard slot).task = some t') :
    t.Same t' ∧ t'.orphaned = t.orphaned ∧ t'.Private := by
  unfold regard at ht
  split at ht
  · exact absurd ht (by simp)
  · next s =>
    split at ht
    · split at ht
      · exact absurd ht (by simp)
      · obtain rfl := Option.some.inj ht
        exact ⟨⟨rfl, rfl, rfl, rfl⟩, rfl, hp.of_same ⟨rfl, rfl, rfl, rfl⟩ (by simp [enter])⟩
    · obtain rfl := Option.some.inj ht
      have hs := t.same_beginBatch s.queue
      refine ⟨hs, t.orphaned_beginBatch s.queue, hp.of_same hs ?_⟩
      unfold beginBatch
      split <;> simp

theorem private_proceed {lent : Option (List Event)} {call : Call} (hp : t.Private)
    (hphase : t.phase = .draining lent (some call))
    (ha : t.proceed slot now lent call = some d) {t' : Task} (ht : d.task = some t') :
    t.Same t' ∧ t'.orphaned = t.orphaned ∧ t'.Private := by
  -- a task stays private when the rest of its call is a part of what it was
  have hcall : ∀ call' : Call, (∀ a ∈ call'.todo, a ∈ call.todo) →
      t.Same (t.continueCall lent call') ∧
        (t.continueCall lent call').orphaned = t.orphaned ∧
          (t.continueCall lent call').Private := by
    refine fun call' hsub => ⟨⟨rfl, rfl, rfl, rfl⟩, rfl, hp.of_same ⟨rfl, rfl, rfl, rfl⟩ ?_⟩
    intro lent' call'' heq a hmem
    simp only [continueCall, Phase.draining.injEq, Option.some.injEq] at heq
    obtain ⟨-, rfl⟩ := heq
    exact hp.todo lent call hphase a (hsub a hmem)
  obtain ⟨event, todo, asleep⟩ := call
  cases asleep with
  | some alarm =>
    simp only [proceed] at ha
    split at ha
    · obtain rfl := Option.some.inj ha
      obtain rfl := Option.some.inj ht
      exact hcall _ fun _ hmem => hmem
    · exact absurd ha (by simp)
  | none =>
    cases todo with
    | nil =>
      obtain rfl := Option.some.inj ha
      obtain rfl := Option.some.inj ht
      exact ⟨⟨rfl, rfl, rfl, rfl⟩, rfl, hp.of_same ⟨rfl, rfl, rfl, rfl⟩ (by simp [endCall])⟩
    | cons a rest =>
      cases a with
      | sleep ms =>
        obtain rfl := Option.some.inj ha
        obtain rfl := Option.some.inj ht
        exact hcall _ fun _ hmem => List.mem_cons_of_mem _ hmem
      | panic payload =>
        obtain rfl := Option.some.inj ha
        obtain rfl := Option.some.inj ht
        exact ⟨⟨rfl, rfl, rfl, rfl⟩, rfl, hp.of_same ⟨rfl, rfl, rfl, rfl⟩ (by simp [fail])⟩
      | report =>
        obtain rfl := Option.some.inj ha
        obtain rfl := Option.some.inj ht
        exact hcall _ fun _ hmem => List.mem_cons_of_mem _ hmem
      -- no private task has another action to do
      | _ => exact absurd ha (by simp [proceed])

/-- Within a call, a task does not wait for a wake-up, and what is said is said of its consumer. -/
theorem of_proceed {lent : Option (List Event)} {call : Call}
    (ha : t.proceed slot now lent call = some d) :
    (∀ what, d.said = some what → what.who? = some t.consumer) ∧
      ∀ t', d.task = some t' → t'.phase.isParked = false := by
  have hdone : ∀ (t' : Task) (said : Option Happening), t'.phase.isParked = false →
      (∀ what, said = some what → what.who? = some t.consumer) →
      some (Deed.mk (some t') slot said) = some d →
      (∀ what, d.said = some what → what.who? = some t.consumer) ∧
        ∀ t', d.task = some t' → t'.phase.isParked = false := by
    intro t' said hphase hsaid hd
    obtain rfl := Option.some.inj hd
    refine ⟨hsaid, fun t'' ht => ?_⟩
    obtain rfl := Option.some.inj ht
    exact hphase
  unfold proceed at ha
  split at ha
  · split at ha
    · exact hdone _ _ rfl (fun what hw => Option.some.inj hw ▸ rfl) ha
    · exact absurd ha (by simp)
  · exact hdone _ _ rfl (by simp) ha
  · exact hdone _ _ rfl (by simp) ha
  · exact hdone _ _ rfl (by simp) ha
  · exact hdone _ _ rfl (fun what hw => Option.some.inj hw ▸ rfl) ha
  · exact absurd ha (by simp)

theorem private_carryOn (hp : t.Private) (ha : t.carryOn slot now = some d) {t' : Task}
    (ht : d.task = some t') : t.Same t' ∧ t'.orphaned = t.orphaned ∧ t'.Private := by
  -- outside of a call there is nothing to do, so nothing that is not private
  have hidle : ∀ t'' : Task, t.Same t'' → t''.orphaned = t.orphaned →
      (∀ lent call, t''.phase ≠ .draining lent (some call)) →
      t.Same t'' ∧ t''.orphaned = t.orphaned ∧ t''.Private := fun t'' hs horphan hphase =>
    ⟨hs, horphan, hp.of_same hs fun lent call heq => absurd heq (hphase lent call)⟩
  -- one case for each phase
  unfold carryOn at ha
  split at ha
  · obtain rfl := Option.some.inj ha
    obtain rfl := Option.some.inj ht
    exact hidle _ ⟨rfl, rfl, rfl, rfl⟩ rfl (by simp [register])
  · obtain rfl := Option.some.inj ha
    exact private_regard hp ht
  · obtain rfl := Option.some.inj ha
    obtain rfl := Option.some.inj ht
    exact hidle _ ⟨rfl, rfl, rfl, rfl⟩ rfl (by simp [enter])
  · split at ha
    · obtain rfl := Option.some.inj ha
      obtain rfl := Option.some.inj ht
      exact hidle _ ⟨rfl, rfl, rfl, rfl⟩ rfl (by simp [enter])
    · exact absurd ha (by simp)
  · next lent _ =>
    split at ha
    · obtain rfl := Option.some.inj ha
      obtain rfl := Option.some.inj ht
      exact hidle _ ⟨rfl, rfl, rfl, rfl⟩ rfl (by simp [endBatch])
    · next event rest _ =>
      obtain rfl := Option.some.inj ha
      obtain rfl := Option.some.inj ht
      -- the call that begins has what the handler does on the event
      have hs : t.Same (t.beginCall lent event rest) := by
        cases lent <;> exact ⟨rfl, rfl, rfl, rfl⟩
      have horphan : (t.beginCall lent event rest).orphaned = t.orphaned := by cases lent <;> rfl
      refine ⟨hs, horphan, hp.of_same hs fun lent' call heq a hmem => hp.handler event a ?_⟩
      cases lent <;>
      · simp only [beginCall, Phase.draining.injEq, Option.some.injEq] at heq
        obtain ⟨-, rfl⟩ := heq
        exact hmem
  · next hphase => exact private_proceed hp hphase ha ht
  · obtain rfl := Option.some.inj ha
    exact absurd ht (by simp)

theorem private_act (hp : t.Private) (ha : t.act slot now = some d) {t' : Task}
    (ht : d.task = some t') : t.Same t' ∧ t'.orphaned = t.orphaned ∧ t'.Private := by
  unfold act at ha
  split at ha
  · obtain rfl := Option.some.inj ha
    exact absurd ht (by simp)
  · exact private_carryOn hp ha ht

end

end Task

namespace Host

/-- What is left of a program without one of its consumers. -/
def without (h : Host) (c : ConsumerRef) : Host :=
  { (h.eraseTask c).modifyGroup c.group (·.detach c.id) with
    journal := h.journal.filter (·.what.who? ≠ some c) }

/-- Consumer `c` does `d`, and nobody else is touched. -/
structure Does (h : Host) (c : ConsumerRef) (d : Task.Deed) (h' : Host) : Prop where
  without : h'.without c = h.without c
  task : h'.task? c = d.task
  tasks : ∀ t ∈ h'.tasks, t.consumer = c → d.task = some t
  slot : h'.slot? c = d.slot
  journal : h'.journal = d.said.toList.map (⟨h.now, ·⟩) ++ h.journal

/-! ## What is left without a consumer -/

section

variable {h : Host} {c : ConsumerRef}

theorem without_setTask {t : Task} (hc : t.consumer = c) :
    (h.setTask t).without c = h.without c := by
  subst hc
  have htasks : ((h.setTask t).tasks.filter (·.consumer ≠ t.consumer)) =
      h.tasks.filter (·.consumer ≠ t.consumer) := by
    unfold setTask
    induction h.tasks with
    | nil => rfl
    | cons s rest ih => by_cases hs : s.consumer = t.consumer <;> simp_all
  show ({ (h.without t.consumer) with
    tasks := (h.setTask t).tasks.filter (·.consumer ≠ t.consumer) } : Host) = _
  rw [htasks]
  rfl

theorem without_eraseTask : (h.eraseTask c).without c = h.without c := by
  have htasks : (h.eraseTask c).tasks.filter (·.consumer ≠ c) =
      h.tasks.filter (·.consumer ≠ c) := by
    simp [eraseTask, List.filter_filter]
  show ({ (h.without c) with tasks := (h.eraseTask c).tasks.filter (·.consumer ≠ c) } : Host) = _
  rw [htasks]
  rfl

theorem without_note {what : Happening} (hw : what.who? = some c) :
    (h.note what).without c = h.without c := by
  have hjournal : (h.note what).journal.filter (·.what.who? ≠ some c) =
      h.journal.filter (·.what.who? ≠ some c) :=
    List.filter_cons_of_neg (by simp [hw])
  show ({ (h.without c) with
    journal := (h.note what).journal.filter (·.what.who? ≠ some c) } : Host) = _
  rw [hjournal]
  rfl

theorem without_say {said : Option Happening} (hw : ∀ what, said = some what → what.who? = some c) :
    (h.say said).without c = h.without c := by
  cases said with
  | none => rfl
  | some what => exact without_note (hw what rfl)

/-- A change of the slot of a consumer is no change without it. -/
theorem without_modifyGroup {f : Group Event → Group Event}
    (hf : ∀ group, (f group).detach c.id = group.detach c.id) :
    (h.modifyGroup c.group f).without c = h.without c := by
  have hcomp : (·.detach c.id) ∘ f = (·.detach c.id) := funext hf
  have hbuses : (h.modifyGroup c.group f).modifyGroup c.group (·.detach c.id) =
      h.modifyGroup c.group (·.detach c.id) := by
    rw [modifyGroup_modifyGroup, hcomp]
  show ({ (h.without c) with
    buses := ((h.modifyGroup c.group f).modifyGroup c.group (·.detach c.id)).buses } : Host) = _
  rw [hbuses]
  rfl

end

end Host

namespace Group

variable {α : Type} (g : Group α)

theorem eq_of_slots {g g' : Group α} (htype : g'.type = g.type)
    (hcapacity : g'.capacity = g.capacity) (hslots : g'.slots = g.slots)
    (hnext : g'.nextId = g.nextId) (hflusher : g'.flusher = g.flusher) : g' = g := by
  cases g
  cases g'
  cases htype
  cases hcapacity
  cases hslots
  cases hnext
  cases hflusher
  rfl

theorem detach_detach_self (id : ConsumerId) : (g.detach id).detach id = g.detach id :=
  eq_of_slots rfl rfl (by simp [detach, List.filter_filter]) rfl rfl

theorem detach_modifySlot_self (id : ConsumerId) (f : Slot α → Slot α)
    (keeps : ∀ s, (f s).id = s.id) : (g.modifySlot id f keeps).detach id = g.detach id := by
  refine eq_of_slots rfl rfl ?_ rfl rfl
  show (g.slots.map fun s => if s.id = id then f s else s).filter (·.id ≠ id) =
    g.slots.filter (·.id ≠ id)
  induction g.slots with
  | nil => rfl
  | cons s rest ih => by_cases hs : s.id = id <;> simp_all

theorem detach_take_self (id : ConsumerId) (buffer : List α) :
    (g.take id buffer).2.2.detach id = g.detach id := by
  unfold take
  split
  · rfl
  · split
    · split
      · exact g.detach_detach_self id
      · rfl
    · exact g.detach_modifySlot_self id (fun s => { s with queue := buffer }) fun _ => rfl

end Group

namespace Host

/-! ## Steps -/

section

variable {h : Host} {c : ConsumerRef} {t : Task}

theorem eq_of_mem_setTask {t s : Task} (hs : s ∈ (h.setTask t).tasks)
    (hc : s.consumer = t.consumer) : s = t := by
  obtain ⟨s', -, rfl⟩ := List.mem_map.mp hs
  split
  · rfl
  · next hne =>
    rw [if_neg hne] at hc
    exact absurd hc hne

/-- A step by which a task changes nothing but itself. -/
theorem does_step (t' : Task) (said : Option Happening) (ht : h.task? c = some t)
    (hc : t'.consumer = c) (hw : ∀ what, said = some what → what.who? = some c) :
    h.Does c ⟨some t', h.slot? c, said⟩ ((h.setTask t').say said) where
  without := (without_say hw).trans (without_setTask hc)
  task := (h.task?_setTask t' c).trans (by rw [if_pos hc.symm, ht, Option.map_some])
  tasks _ hs hsc := by rw [eq_of_mem_setTask hs (hsc.trans hc.symm)]
  slot := rfl
  journal := rfl

/-- The end of a task that holds nothing. -/
theorem does_end (what : Happening) (hc : t.consumer = c) (hheld : t.held = [])
    (hw : what.who? = some c) : h.Does c ⟨none, none, some what⟩ (h.endTask t what) := by
  have hend : h.endTask t what =
      ((h.note what).eraseTask c).modifyGroup c.group (·.detach c.id) := by
    rw [endTask, hheld, hc]
    rfl
  rw [hend]
  constructor
  · rw [without_modifyGroup fun group => group.detach_detach_self c.id, without_eraseTask,
      without_note hw]
  · exact ((h.note what).task?_eraseTask c c).trans (if_pos rfl)
  · intro s hs hsc
    exact absurd hsc (by simpa using (List.mem_filter.mp hs).2)
  · exact (((h.note what).eraseTask c).slot?_detach c c).trans (if_pos rfl)
  · rfl

/-- The end of a job of a handler that holds nothing. -/
theorem does_endJob (ht : h.task? c = some t) (hheld : t.held = []) :
    h.Does c ⟨none, h.slot? c, none⟩ (h.endJob t) := by
  obtain rfl := consumer_of_task? ht
  have hend : h.endJob t = h.eraseTask t.consumer := by
    rw [endJob, hheld]
    rfl
  rw [hend]
  refine ⟨without_eraseTask, (h.task?_eraseTask _ _).trans (if_pos rfl), fun s hs hsc => ?_, rfl,
    rfl⟩
  exact absurd hsc (by simpa using (List.mem_filter.mp hs).2)

/-- A batch that is taken from a slot. -/
theorem does_take {group : Group Event} {s : Slot Event} (batch : List Event)
    (ht : h.task? c = some t) (hg : h.group? c.group = some group) (hs : group.slot? c.id = some s)
    (hq : s.queue ≠ []) :
    h.Does c ⟨some (t.beginBatch batch), some { s with queue := t.buffer }, some (.took c batch)⟩
      (((h.modifyGroup c.group fun _ => (group.take c.id t.buffer).2.2).setTask
        (t.beginBatch batch)).note (.took c batch)) := by
  have hsame : h.modifyGroup c.group (fun _ => (group.take c.id t.buffer).2.2) =
      h.modifyGroup c.group fun group => (group.take c.id t.buffer).2.2 :=
    modifyGroup_congr hg rfl
  have hc : (t.beginBatch batch).consumer = c :=
    (t.same_beginBatch batch).consumer.trans (consumer_of_task? ht)
  rw [hsame]
  constructor
  · rw [without_note rfl, without_setTask hc, without_modifyGroup fun g => g.detach_take_self _ _]
  · refine (task?_setTask _ (t.beginBatch batch) c).trans ?_
    rw [if_pos hc.symm]
    exact congrArg (Option.map _) ht
  · exact fun s hs hsc => by rw [eq_of_mem_setTask hs (hsc.trans hc.symm)]
  · refine (h.slot?_modifyGroup c.group _ c).trans ?_
    rw [if_pos rfl, hg, Option.bind_some, Group.take_of_queue hs hq, Group.slot?_modifySlot,
      if_pos rfl, hs, Option.map_some]
  · rfl

theorem does_look (ht : h.task? c = some t) (hp : t.Private) :
    h.Does c (t.regard (h.slot? c)) (h.look t) := by
  obtain rfl := consumer_of_task? ht
  -- whether the slot is gone or drained after a stop, the task ends the same way
  have hend : h.Does t.consumer _ (h.endTask t _) :=
    does_end (.stopped t.consumer t.handler.profile .drained) rfl hp.held rfl
  unfold look
  cases hg : h.group? t.consumer.group with
  | none =>
    have hslot : h.slot? t.consumer = none := by rw [slot?, hg, Option.bind_none]
    rw [hslot]
    exact hend
  | some group =>
    have hslot : h.slot? t.consumer = group.slot? t.consumer.id := by
      rw [slot?, hg, Option.bind_some]
    have hkeep : h.modifyGroup t.consumer.group (fun _ => group) = h := modifyGroup_self hg rfl
    cases hs : group.slot? t.consumer.id with
    | none =>
      have htake : group.take t.consumer.id t.buffer = (.stopped, t.buffer, group) := by
        simp [Group.take, hs]
      rw [hslot, hs]
      simp only [htake, hkeep]
      exact hend
    | some s =>
      -- a look sees a batch, a stop, or neither
      cases hq : s.queue with
      | cons event rest =>
        have hne : s.queue ≠ [] := by rw [hq]; simp
        have hdoes := does_take s.queue ht hg hs hne
        rw [Group.take_of_queue hs hne] at hdoes
        simp only [hslot, hs, Group.take_of_queue hs hne, Task.regard,
          List.isEmpty_eq_false_iff.mpr hne]
        exact hdoes
      | nil =>
        cases hstop : s.stopped with
        | false =>
          have hdoes := does_step (t.enter .idle) none ht rfl (by simp)
          rw [hslot, hs] at hdoes
          simp only [hslot, hs, Group.take_of_empty hs hq hstop, hkeep, Task.regard, hq, hstop]
          exact hdoes
        | true =>
          -- the slot is removed by the look already; the end of the task removes nothing
          have hsame := finish_detached (h := h) hg
            (.stopped t.consumer t.handler.profile .drained)
          simp only [hslot, hs, Group.take_of_drained hs hq hstop, Task.regard, hq, hstop]
          rw [endTask, hp.held] at hend ⊢
          show h.Does t.consumer _ ((h.modifyGroup t.consumer.group
            fun _ => group.detach t.consumer.id).finish t _)
          rw [hsame]
          exact hend

/-- A step by which a task changes nothing but itself, as the step of a run. -/
theorem steps (t' : Task) (said : Option Happening) (ht : h.task? c = some t)
    (hc : t'.consumer = t.consumer)
    (hw : ∀ what, said = some what → what.who? = some t.consumer) :
    Option.Rel (h.Does c) (some ⟨some t', h.slot? c, said⟩) (some ((h.setTask t').say said)) := by
  obtain rfl := consumer_of_task? ht
  exact .some (does_step t' said ht hc hw)

theorem does_proceed {lent : Option (List Event)} {call : Call} (ht : h.task? c = some t)
    (hp : t.Private) (hphase : t.phase = .draining lent (some call)) :
    Option.Rel (h.Does c) (t.proceed (h.slot? c) h.now lent call)
      (h.drain? t lent (some call)) := by
  obtain ⟨event, todo, asleep⟩ := call
  cases asleep with
  | some alarm =>
    simp only [Task.proceed, drain?]
    split
    · exact steps _ (some (.slept t.consumer t.handler.profile)) ht rfl (by simp [Happening.who?])
    · exact .none
  | none =>
    cases todo with
    | nil => exact steps (t.endCall lent) none ht rfl (by simp)
    | cons a rest =>
      have ha : a.isPrivate = true := hp.todo lent _ hphase a List.mem_cons_self
      cases a with
      | sleep ms => exact steps (t.continueCall lent _) none ht rfl (by simp)
      | panic payload => exact steps (t.fail payload _) none ht rfl (by simp)
      | report =>
        exact steps (t.continueCall lent _) (some (.reported t.consumer event)) ht rfl
          (by simp [Happening.who?])
      | _ => exact absurd ha (by simp [Action.isPrivate])

theorem does_carryOn (ht : h.task? c = some t) (hp : t.Private) :
    Option.Rel (h.Does c) (t.carryOn (h.slot? c) h.now) (h.stepTask? t) := by
  have hc := consumer_of_task? ht
  unfold Task.carryOn stepTask?
  cases hphase : t.phase with
  | ready =>
    exact steps t.register (some (.registered t.consumer)) ht rfl (by simp [Happening.who?])
  | armed => exact .some (does_look ht hp)
  | idle => exact steps (t.enter .waiting) none ht rfl (by simp)
  | waiting =>
    cases t.woken with
    | true => exact steps (t.enter .ready) none ht rfl (by simp)
    | false => exact .none
  | draining lent call? =>
    cases call? with
    | some call => exact does_proceed ht hp hphase
    | none =>
      simp only [drain?]
      cases hbatch : t.batch with
      | nil => exact steps t.endBatch (some (.drained t.consumer)) ht rfl (by simp [Happening.who?])
      | cons event rest =>
        refine steps (t.beginCall lent event rest)
          (some (.called t.consumer t.handler.profile event)) ht ?_ (by simp [Happening.who?])
        cases lent <;> rfl
  | failed payload => exact .some (does_end _ hc hp.held (by rw [← hc]; rfl))

/-- **What a private task does next** depends on its slot and the clock, and touches nobody else. -/
theorem does_run (ht : h.task? c = some t) (hp : t.Private) :
    Option.Rel (h.Does c) (t.act (h.slot? c) h.now) (h.runTask? t) := by
  unfold Task.act runTask?
  split
  · exact .some (does_endJob ht hp.held)
  · exact does_carryOn ht hp

theorem exists_act {h' : Host} (ht : h.task? c = some t) (hp : t.Private)
    (hm : h.runTask? t = some h') :
    ∃ d, t.act (h.slot? c) h.now = some d ∧ h.Does c d h' := by
  have hdoes := does_run ht hp
  rw [hm] at hdoes
  generalize t.act (h.slot? c) h.now = found at hdoes
  cases hdoes with
  | some hd => exact ⟨_, rfl, hd⟩

theorem private_of_reachable (hr : h.Reachable) (ht : h.task? c = some t)
    (hhandler : t.handler.Private) (hheld : t.held = []) : t.Private :=
  ⟨hhandler, hheld, fun lent call hphase a ha =>
    hhandler _ a (hr.faithful t (mem_of_task? ht) lent call hphase a ha)⟩

/-- A private task leaves without touching anybody else. -/
theorem does_leave {h' : Host} (ht : h.task? c = some t) (hp : t.Private)
    (hm : h.leave? t = some h') :
    h.Does c ⟨none, none, some (.stopped t.consumer t.handler.profile .shutdown)⟩ h' := by
  obtain rfl := consumer_of_task? ht
  obtain ⟨-, -, rfl⟩ := leave?_eq_some.mp hm
  exact does_end _ rfl hp.held rfl

end

end Host

end EventBus
