import EventBus.Proofs.Descent
import EventBus.Proofs.Stillness

/-!
# A batch in the buffer and a batch that is lent

A task has its batch in its own buffer, or has lent it to a job. Nobody but the task can tell: with
the batch of one consumer lent, the program does turn by turn what it does otherwise, and when the
batch is over not even the task can tell any more. `lent` is the program in which the rest of a
batch is lent, and everything there is to do commutes with it until the next batch, except to stop
the runtime.
-/

set_option autoImplicit false

namespace EventBus

namespace Task

/-- The task with the rest of its batch lent to a job. -/
def lend (t : Task) : Task :=
  match t.phase with
  | .draining none call => { t with buffer := [], phase := .draining (some t.buffer) call }
  | _ => t

/-- The task with the rest of its batch in its buffer. -/
def keep (t : Task) : Task :=
  match t.phase with
  | .draining (some events) call => { t with buffer := events, phase := .draining none call }
  | _ => t

/-- The task, as one that lends if it is of the consumer `c`. -/
def lendFor (c : ConsumerRef) (t : Task) : Task := if t.consumer = c then t.lend else t

/-- Whether the batch of a task is in its buffer. -/
def Keeps (t : Task) : Prop := ∃ call, t.phase = .draining none call

/-- A task with no early panic ahead. -/
def Deferred (t : Task) : Prop := t.All fun _ a => a.isEarly = false

variable {t : Task} {c : ConsumerRef}

/-- A task that has lent its batch already, or has none, is as it was. -/
theorem lend_of_not_keeps (hk : ¬t.Keeps) : t.lend = t := by
  unfold lend
  split
  · next call hp => exact absurd ⟨call, hp⟩ hk
  · rfl

theorem lendFor_other (hc : t.consumer ≠ c) : t.lendFor c = t := if_neg hc

/-- Lending makes no difference where nothing is kept. -/
theorem lendFor_of_not_keeps (hk : ¬t.Keeps) : t.lendFor c = t := by
  rw [lendFor, lend_of_not_keeps hk, ite_self]

/-- A task that is about to register has no batch. -/
theorem not_keeps_of_ready (hp : t.phase = .ready) : ¬t.Keeps := by
  rintro ⟨call, hk⟩
  exact absurd (hp.symm.trans hk) (by simp)

/-- What does not depend on where the batch is. -/
theorem lend_frame (t : Task) : t.lend.consumer = t.consumer ∧ t.lend.runtime = t.runtime ∧
    t.lend.handler = t.handler ∧ t.lend.held = t.held ∧ t.lend.alarm? = t.alarm? := by
  unfold lend
  split
  · next call hp => exact ⟨rfl, rfl, rfl, rfl, by rw [alarm?, alarm?, hp]; cases call <;> rfl⟩
  · exact ⟨rfl, rfl, rfl, rfl, rfl⟩

/-- A task that lends is attended if it was. -/
theorem orphaned_lendFor (c : ConsumerRef) (t : Task) : (t.lendFor c).orphaned = t.orphaned := by
  unfold lendFor lend
  split
  · split <;> rfl
  · rfl

/-- The batch is over at the same point on both ways. -/
theorem isOver_lendFor (c : ConsumerRef) (t : Task) : (t.lendFor c).isOver = t.isOver := by
  unfold lendFor lend
  split
  · split
    · next call hp => cases call <;> simp only [isOver, batch, hp]
    · rfl
  · rfl

/-- Of a task that lends for `c` everybody else sees what they saw before. -/
theorem lendFor_frame (c : ConsumerRef) (t : Task) : (t.lendFor c).consumer = t.consumer ∧
    (t.lendFor c).runtime = t.runtime ∧ (t.lendFor c).handler = t.handler ∧
    (t.lendFor c).held = t.held ∧ (t.lendFor c).alarm? = t.alarm? := by
  unfold lendFor
  split
  · exact t.lend_frame
  · exact ⟨rfl, rfl, rfl, rfl, rfl⟩

@[simp] theorem consumer_lendFor : (t.lendFor c).consumer = t.consumer := (lendFor_frame c t).1

@[simp] theorem runtime_lendFor : (t.lendFor c).runtime = t.runtime := (lendFor_frame c t).2.1

@[simp] theorem handler_lendFor : (t.lendFor c).handler = t.handler := (lendFor_frame c t).2.2.1

@[simp] theorem held_lendFor : (t.lendFor c).held = t.held := (lendFor_frame c t).2.2.2.1

@[simp] theorem alarm?_lendFor : (t.lendFor c).alarm? = t.alarm? := (lendFor_frame c t).2.2.2.2

@[simp] theorem consumer_keep : t.keep.consumer = t.consumer := by
  unfold keep
  split <;> rfl

/-- What was lent and is kept for a while is lent as before. -/
theorem lend_keep {events : List Event} {call : Option Call}
    (hp : t.phase = .draining (some events) call) (hbuffer : t.buffer = []) : t.keep.lend = t := by
  obtain ⟨consumer, runtime, handler, held, buffer, woken, phase⟩ := t
  obtain rfl : phase = _ := hp
  obtain rfl : buffer = [] := hbuffer
  rfl

/-- A tick wakes a task that lends as it wakes one that keeps. -/
theorem wake_lendFor : (t.lendFor c).wake = t.wake.lendFor c := by
  by_cases hk : t.Keeps
  · obtain ⟨call, hp⟩ := hk
    -- a task that delivers is registered, so the wake-up is noted
    have hwake : t.wake = { t with woken := true } := if_pos (by rw [hp]; rfl)
    rw [hwake]
    by_cases hc : t.consumer = c
    · rw [lendFor, lendFor, if_pos hc, if_pos hc]
      simp only [lend, hp]
      rfl
    · rw [lendFor_other hc, lendFor_other (t := { t with woken := true }) hc, hwake]
  · -- to be woken makes no batch
    have hk' : ¬t.wake.Keeps := by
      unfold wake
      split
      · exact hk
      · exact hk
    rw [lendFor_of_not_keeps hk, lendFor_of_not_keeps hk']

end Task

namespace Host

/-- The program with the rest of the batch of `c` lent to a job. -/
def lent (h : Host) (c : ConsumerRef) : Host := { h with tasks := h.tasks.map (·.lendFor c) }

variable (h : Host) (c : ConsumerRef)

theorem bus?_lent (b : BusId) : (h.lent c).bus? b = h.bus? b := rfl

/-! ## Tasks -/

/-- Every consumer has its task, the one of `c` as one that lends. -/
theorem task?_lent (d : ConsumerRef) : (h.lent c).task? d = (h.task? d).map (·.lendFor c) :=
  task?_of_map (fun t => t.consumer_lendFor) rfl d

/-- To put a task in its place and then to lend is to lend first and to put the task that lends
there. -/
theorem setTask_lent (t : Task) : (h.lent c).setTask (t.lendFor c) = (h.setTask t).lent c := by
  have htasks : (h.lent c).tasks.map
        (fun s => if s.consumer = (t.lendFor c).consumer then t.lendFor c else s) =
      (h.tasks.map fun s => if s.consumer = t.consumer then t else s).map (·.lendFor c) := by
    rw [lent, List.map_map, List.map_map]
    apply List.map_congr_left
    intro s _
    show (if (s.lendFor c).consumer = (t.lendFor c).consumer then _ else _) =
      Task.lendFor c (ite _ _ _)
    rw [Task.consumer_lendFor, Task.consumer_lendFor]
    split <;> rfl
  exact congrArg (fun tasks => { h with tasks }) htasks

/-- Handles are no matter of batches, so the same buses are held. -/
theorem isHeld_lent (b : BusId) : (h.lent c).isHeld b = h.isHeld b := by
  simp [isHeld, lent, List.any_map, Function.comp_def]

/-- Letting go shuts the same buses down. -/
theorem release_lent (gone : List BusId) (h : Host) :
    (h.lent c).release gone = (h.release gone).lent c := by
  induction gone generalizing h with
  | nil => rfl
  | cons b rest ih =>
    show (if (h.lent c).isHeld b then h.lent c else (h.lent c).abandon b).release rest =
      ((if h.isHeld b then h else h.abandon b).release rest).lent c
    rw [isHeld_lent]
    split
    · exact ih h
    · exact ih (h.abandon b)

/-- The end of a task is the same on both ways. -/
theorem finish_lent (t : Task) (what : Happening) :
    (h.lent c).finish t what = (h.finish t what).lent c := by
  have htasks : (h.lent c).tasks.filter (·.consumer ≠ t.consumer) =
      (h.tasks.filter (·.consumer ≠ t.consumer)).map (·.lendFor c) := by
    rw [lent, List.filter_map]
    simp [Function.comp_def]
  exact congrArg (fun tasks => { h.finish t what with tasks }) htasks

theorem endTask_lent (t : Task) (what : Happening) :
    (h.lent c).endTask t what = (h.endTask t what).lent c :=
  (congrArg (·.release (t.held.map (·.2))) (h.finish_lent c t what)).trans
    (release_lent c _ (h.finish t what))

/-- The end of a job is the same on both ways. -/
theorem endJob_lent (t : Task) :
    (h.lent c).endJob (t.lendFor c) = (h.endJob t).lent c := by
  have herase : (h.lent c).eraseTask t.consumer = (h.eraseTask t.consumer).lent c := by
    have htasks : (h.lent c).tasks.filter (·.consumer ≠ t.consumer) =
        (h.tasks.filter (·.consumer ≠ t.consumer)).map (·.lendFor c) := by
      rw [lent, List.filter_map]
      simp [Function.comp_def]
    exact congrArg (fun tasks => { h with tasks }) htasks
  rw [endJob, endJob, Task.consumer_lendFor, Task.held_lendFor, herase]
  exact release_lent c _ _

/-! ## Requests -/

theorem useDefault_lent : (h.lent c).useDefault = Prod.map id (·.lent c) h.useDefault := by
  have hpreset : (h.lent c).preset = h.preset := rfl
  rw [useDefault, useDefault, hpreset]
  cases h.preset <;> rfl

/-- The same bus is found, in a program that is the same but for what is lent. -/
theorem locate_lent (own : List (Target × BusId)) (target : Target) :
    (h.lent c).locate own target = Prod.map id (·.lent c) (h.locate own target) := by
  unfold locate
  split
  · rfl
  · split
    · rfl
    · rw [useDefault_lent]
      rfl

theorem locateAll_lent (own : List (Target × BusId)) (targets : List Target) (h : Host) :
    (h.lent c).locateAll own targets = Prod.map id (·.lent c) (h.locateAll own targets) := by
  induction targets generalizing h with
  | nil => rfl
  | cons target rest ih =>
    simp only [locateAll, locate_lent, Prod.map_fst, Prod.map_snd, ih, id_eq]
    rfl

/-- A request on a target commutes with lending if what is done with the bus does. -/
theorem withBus_lent (own : List (Target × BusId)) (target : Target)
    {f : BusId → Host → Answer × Host}
    (hf : ∀ b (m : Host), f b (m.lent c) = Prod.map id (·.lent c) (f b m)) :
    (h.lent c).withBus own target f = Prod.map id (·.lent c) (h.withBus own target f) := by
  rw [withBus, withBus, locate_lent]
  -- the request goes to the bus that is found, or nowhere
  obtain ⟨_ | b, m⟩ := h.locate own target
  · rfl
  · exact hf b m

theorem publish_lent (b : BusId) (event : Event) :
    (h.lent c).publish b event = (h.publish b event).lent c := by
  rw [publish, publish, bus?_lent]
  cases h.bus? b <;> rfl

theorem publishTo_lent (own : List (Target × BusId)) (target : Target) (event : Event) :
    (h.lent c).publishTo own target event = Prod.map id (·.lent c) (h.publishTo own target event) :=
  h.withBus_lent c own target fun b m => by rw [publish_lent]; rfl

theorem countdownTo_lent (own : List (Target × BusId)) (target : Target) (event : Event) :
    (h.lent c).countdownTo own target event =
      Prod.map id (·.lent c) (h.countdownTo own target event) := by
  apply withBus_lent
  intro b m
  split
  · rw [publish_lent]
    split <;> rfl
  · rfl

/-- A bus that can be closed can be closed on both ways. -/
theorem close_lent (b : BusId) :
    (h.lent c).close b = (h.close b).map (·.lent c) := by
  rw [close, close, bus?_lent]
  cases h.bus? b with
  | none => rfl
  | some bus => cases hclose : bus.close <;> simp only [hclose] <;> rfl

theorem closeAt_lent (own : List (Target × BusId)) (target : Target) :
    (h.lent c).closeAt own target = Prod.map id (·.lent c) (h.closeAt own target) := by
  apply withBus_lent
  intro b m
  rw [close_lent]
  cases m.close b <;> rfl

theorem countAt_lent (own : List (Target × BusId)) (target : Target) (type : EventType) :
    (h.lent c).countAt own target type = Prod.map id (·.lent c) (h.countAt own target type) :=
  h.withBus_lent c own target fun _ _ => rfl

theorem ask_lent (own : List (Target × BusId)) (question : Question) :
    (h.lent c).ask own question = Prod.map id (·.lent c) (h.ask own question) := by
  cases question with
  | count target type => exact countAt_lent h c own target type
  | status name => rfl

/-- Slots are the same on both ways, and cancelling is about slots. -/
theorem cancel_lent (d : ConsumerRef) : (h.lent c).cancel d = (h.cancel d).lent c := by
  have hactive : (h.lent c).isActive d = h.isActive d := rfl
  rw [cancel, cancel, hactive]
  split <;> rfl

theorem cancelNamed_lent (name : String) :
    (h.lent c).cancelNamed name = Prod.map id (·.lent c) (h.cancelNamed name) := by
  have hfound : (h.lent c).subscription? name = h.subscription? name := rfl
  rw [cancelNamed, cancelNamed, hfound]
  cases h.subscription? name with
  | none => rfl
  | some d =>
    dsimp only
    rw [cancel_lent]
    rfl

/-- A new task has no batch to lend. -/
theorem spawn_lent {t : Task} (ht : t.phase = .ready) :
    (h.lent c).spawn t = (h.spawn t).lent c := by
  have hadd : ({ h.lent c with tasks := (h.lent c).tasks ++ [t] } : Host) =
      ({ h with tasks := h.tasks ++ [t] } : Host).lent c := by
    simp only [lent, List.map_append, List.map_cons, List.map_nil,
      Task.lendFor_of_not_keeps (Task.not_keeps_of_ready ht)]
  have hrun : (h.lent c).runtime = h.runtime := rfl
  rw [spawn, spawn, hadd, hrun]
  split
  · rfl
  · exact endTask_lent _ c t _

/-- Loops are no matter of batches. -/
theorem ensureLoop_lent (g : GroupRef) (kind : Kind) (interval : Duration) (p : Placement) :
    (h.lent c).ensureLoop g kind interval p = (h.ensureLoop g kind interval p).lent c := by
  have hloop : (h.lent c).hasLoop p.group = h.hasLoop p.group := rfl
  rw [ensureLoop, ensureLoop, hloop]
  split <;> rfl

/-- A subscription is granted on both ways or refused on both, and what it brings about has not
begun. -/
theorem subscribe_lent (b : BusId) (context : Option RuntimeId) (who : Subscriber Action)
    (held : List (Target × BusId)) :
    (h.lent c).subscribe b context who held =
      Prod.map id (·.lent c) (h.subscribe b context who held) := by
  cases hbus : h.bus? b with
  | none =>
    simp only [subscribe, bus?_lent, hbus, release_lent]
    rfl
  | some bus =>
    cases hp : bus.place context who.type who.kind with
    | error fault =>
      simp only [subscribe, bus?_lent, hbus, hp]
      split
      · exact congrArg (Prod.mk _) (release_lent c _ (h.note _))
      · exact congrArg (Prod.mk _) (release_lent c _ h)
    | ok p =>
      simp only [subscribe, bus?_lent, hbus, hp]
      -- the type is bound first, then come the loop, the slot and the task
      have hready : ((h.lent c).modifyBus b fun bus => { bus with registry := p.registry }) =
        (h.modifyBus b fun bus => { bus with registry := p.registry }).lent c := rfl
      rw [hready, ensureLoop_lent]
      generalize (h.modifyBus b _).ensureLoop ⟨b, who.type⟩ who.kind bus.flushInterval p = e
      have hspawn := spawn_lent ((e.attach ⟨b, who.type⟩).2.note
          (.subscribed (e.attach ⟨b, who.type⟩).1 who.kind who.handler.profile)) c
        (t := { consumer := (e.attach ⟨b, who.type⟩).1, runtime := p.runtime,
                handler := who.handler, held }) rfl
      exact congrArg (Prod.mk _) hspawn

theorem subscribeAt_lent (own : List (Target × BusId)) (context : Option RuntimeId)
    (target : Target) (who : Subscriber Action) :
    (h.lent c).subscribeAt own context target who =
      Prod.map id (·.lent c) (h.subscribeAt own context target who) := by
  apply withBus_lent
  intro b m
  simp only [locateAll_lent, subscribe_lent, Prod.map_fst, Prod.map_snd, id_eq]
  generalize (m.locateAll own who.hold).2.subscribe b context who _ = answered
  obtain ⟨_ | d, m'⟩ := answered <;> rfl

/-! ## Steps of tasks and loops -/

end Host

namespace Task

/-- `t'` goes through its batch with `lent'` as `t` does with `lent`, but lends if it is of `c`. -/
structure Twin (c : ConsumerRef) (t : Task) (lent : Option (List Event)) (t' : Task)
    (lent' : Option (List Event)) : Prop where
  lendFor : t' = t.lendFor c
  batch : t'.batch = t.batch
  beginCall : ∀ event rest, t'.beginCall lent' event rest = (t.beginCall lent event rest).lendFor c
  continueCall : ∀ call, t'.continueCall lent' call = (t.continueCall lent call).lendFor c
  endCall : t'.endCall lent' = (t.endCall lent).lendFor c
  endBatch : t'.endBatch = t.endBatch.lendFor c
  fail : ∀ payload caught, t'.fail payload caught = (t.fail payload caught).lendFor c

variable {t : Task} {c : ConsumerRef}

/-- Who is not of `c` lends or keeps as it does. -/
theorem twin_other (hc : t.consumer ≠ c) (lent : Option (List Event)) : t.Twin c lent t lent where
  lendFor := (lendFor_other hc).symm
  batch := rfl
  beginCall event rest := by
    have hconsumer : (t.beginCall lent event rest).consumer = t.consumer := by cases lent <;> rfl
    exact (lendFor_other (hconsumer ▸ hc)).symm
  continueCall call := (lendFor_other (t := t.continueCall lent call) hc).symm
  endCall := (lendFor_other (t := t.endCall lent) hc).symm
  endBatch := (lendFor_other (t := t.endBatch) hc).symm
  fail payload caught := (lendFor_other (t := t.fail payload caught) hc).symm

/-- Where the task of `c` keeps the rest of its batch, its twin has lent just that. -/
theorem twin_own {call : Option Call} (hp : t.phase = .draining none call) :
    t.Twin t.consumer none t.lend (some t.buffer) := by
  have hlend : t.lend = { t with buffer := [], phase := .draining (some t.buffer) call } := by
    simp only [lend, hp]
  have hown : ∀ s : Task, s.consumer = t.consumer → s.lendFor t.consumer = s.lend :=
    fun s hs => if_pos hs
  constructor
  case lendFor => exact (hown t rfl).symm
  case batch => rw [hlend, batch, batch, hp]
  case beginCall =>
    exact fun event rest => by rw [hown (t.beginCall none event rest) rfl, hlend]; rfl
  case continueCall =>
    exact fun call => by rw [hown (t.continueCall none call) rfl, hlend]; rfl
  case endCall => rw [hown (t.endCall none) rfl, hlend]; rfl
  case endBatch => rw [hown t.endBatch rfl, hlend]; rfl
  case fail => exact fun payload caught => by rw [hown (t.fail payload caught) rfl, hlend]; rfl

namespace Twin

variable {lent lent' : Option (List Event)} {t' : Task} (hw : t.Twin c lent t' lent')

include hw

theorem consumer : t'.consumer = t.consumer := hw.lendFor ▸ consumer_lendFor

theorem runtime : t'.runtime = t.runtime := hw.lendFor ▸ runtime_lendFor

theorem handler : t'.handler = t.handler := hw.lendFor ▸ handler_lendFor

theorem held : t'.held = t.held := hw.lendFor ▸ held_lendFor

end Twin

end Task

namespace Host

variable (h : Host) {c : ConsumerRef} {t t' : Task} {lent lent' : Option (List Event)}

/-- What is entered of an answer tells nothing of where the batch is. -/
theorem enter_lent (hw : t.Twin c lent t' lent') (a : Action) (x : Answer × Host) :
    enter t' a (Prod.map id (·.lent c) x) = (enter t a x).lent c := by
  rw [enter, enter, hw.consumer, hw.handler]
  rfl

/-- A job catches every panic, so only a panic that is not early is caught on both ways. -/
theorem perform_lent (hw : t.Twin c lent t' lent') (next : Call) {a : Action}
    (hcaught : lent'.isSome = lent.isSome ∨ a.isEarly = false) :
    (h.lent c).perform t' lent' next a = (h.perform t lent next a).lent c := by
  have hset : ∀ call, (h.lent c).setTask (t'.continueCall lent' call) =
      (h.setTask (t.continueCall lent call)).lent c := fun call => by
    rw [hw.continueCall, setTask_lent]
  cases a with
  | publish | countdown | cancel | close | count | subscribe =>
    simp only [perform, hset, hw.held, hw.runtime, publishTo_lent, countdownTo_lent,
      cancelNamed_lent, closeAt_lent, countAt_lent, subscribeAt_lent, enter_lent hw]
  | consult question skip =>
    simp only [perform, consult, hw.held, ask_lent, Prod.map_fst, Prod.map_snd, id_eq,
      hw.continueCall, setTask_lent, hw.consumer, hw.handler]
    rfl
  | sleep ms => exact hset _
  | panic payload early =>
    have hsame : (lent'.isSome || !early) = (lent.isSome || !early) := by
      rcases hcaught with hlent | hlate
      · rw [hlent]
      · obtain rfl : early = false := hlate
        simp
    rw [perform, hsame, hw.fail, setTask_lent]
    rfl
  | report =>
    simp only [perform, hset, hw.consumer]
    rfl

/-- A step of a batch is the same step on both ways. Early panics apart, which a job catches and a
task does not. -/
theorem drain?_lent (hw : t.Twin c lent t' lent') (call? : Option Call)
    (hcaught : lent'.isSome = lent.isSome ∨
      ∀ call, call? = some call → ∀ a ∈ call.todo, a.isEarly = false) :
    (h.lent c).drain? t' lent' call? = (h.drain? t lent call?).map (·.lent c) := by
  cases call? with
  | none =>
    rw [drain?, drain?, hw.batch]
    cases t.batch with
    | nil =>
      dsimp only
      rw [hw.endBatch, setTask_lent, hw.consumer]
      rfl
    | cons event rest =>
      dsimp only
      rw [hw.beginCall, setTask_lent, hw.consumer, hw.handler]
      rfl
  | some call =>
    obtain ⟨event, todo, asleep⟩ := call
    cases asleep with
    | some alarm =>
      have hnow : (h.lent c).now = h.now := rfl
      simp only [drain?, hnow, hw.continueCall, setTask_lent, hw.consumer, hw.handler]
      split <;> rfl
    | none =>
      cases todo with
      | nil =>
        simp only [drain?, hw.endCall, setTask_lent]
        rfl
      | cons a rest =>
        -- of the call at hand the first action is what matters
        have hfirst : lent'.isSome = lent.isSome ∨ a.isEarly = false :=
          hcaught.imp_right fun hlate => hlate _ rfl a List.mem_cons_self
        simp only [drain?, perform_lent h hw _ hfirst]
        rfl

/-- A task of another consumer looks as before. -/
theorem look_lent (hc : t.consumer ≠ c) : (h.lent c).look t = (h.look t).lent c := by
  have hgroup : (h.lent c).group? t.consumer.group = h.group? t.consumer.group := rfl
  have hset : ∀ (m : Host) (s : Task), s.consumer = t.consumer →
      (m.lent c).setTask s = (m.setTask s).lent c := fun m s hs => by
    rw [← setTask_lent, Task.lendFor_other (hs ▸ hc)]
  rw [look, look, hgroup]
  cases h.group? t.consumer.group with
  | none => exact endTask_lent h c t _
  | some group =>
    dsimp only
    obtain ⟨found, buffer, taken⟩ := group.take t.consumer.id t.buffer
    have htaken : ((h.lent c).modifyGroup t.consumer.group fun _ => taken) =
      (h.modifyGroup t.consumer.group fun _ => taken).lent c := rfl
    dsimp only
    rw [htaken]
    cases found with
    | batch =>
      dsimp only
      rw [hset _ (t.beginBatch buffer) (by unfold Task.beginBatch; split <;> rfl)]
      rfl
    | empty => exact hset _ _ rfl
    | stopped => exact endTask_lent _ c t _

/-- A task makes the same step on both ways. -/
theorem stepTask?_lent (hown : t.consumer = c → t.Keeps ∧ t.Deferred) :
    (h.lent c).stepTask? (t.lendFor c) = (h.stepTask? t).map (·.lent c) := by
  by_cases hc : t.consumer = c
  · obtain ⟨⟨call, hp⟩, hdeferred⟩ := hown hc
    subst hc
    -- the task of `c` is at its batch, so both sides take a step of a batch
    have hlent : t.lend.phase = .draining (some t.buffer) call := by simp only [Task.lend, hp]
    rw [Task.lendFor, if_pos rfl, stepTask?, stepTask?, hlent, hp]
    exact drain?_lent h (Task.twin_own hp) call (.inr fun call' heq =>
      hdeferred.todo none call' (hp.trans (by rw [heq])))
  · have hset : ∀ s : Task, s.consumer = t.consumer →
        (h.lent c).setTask s = (h.setTask s).lent c := fun s hs => by
      rw [← setTask_lent, Task.lendFor_other (hs ▸ hc)]
    rw [Task.lendFor_other hc, stepTask?, stepTask?]
    cases t.phase with
    | ready =>
      dsimp only
      rw [hset t.register rfl]
      rfl
    | armed =>
      dsimp only
      rw [look_lent h hc]
      rfl
    | idle => exact congrArg some (hset (t.enter .waiting) rfl)
    | waiting =>
      dsimp only
      split
      · exact congrArg some (hset (t.enter .ready) rfl)
      · rfl
    | draining lent call => exact drain?_lent h (Task.twin_other hc lent) call (.inl rfl)
    | failed payload => exact congrArg some (endTask_lent h c t _)

/-- So does one that is a job. -/
theorem runTask?_lent (hown : t.consumer = c → t.Keeps ∧ t.Deferred) :
    (h.lent c).runTask? (t.lendFor c) = (h.runTask? t).map (·.lent c) := by
  rw [runTask?, runTask?, Task.orphaned_lendFor, Task.isOver_lendFor]
  split
  · exact congrArg some (endJob_lent h c t)
  · exact stepTask?_lent h hown

/-- Who has a batch is not at rest and does not leave; whoever else leaves has nothing to lend. -/
theorem leave?_lent : (h.lent c).leave? (t.lendFor c) = (h.leave? t).map (·.lent c) := by
  by_cases hk : t.Keeps
  · obtain ⟨call, hp⟩ := hk
    -- a task leaves from where it waits, and not from a batch
    have hstays : ∀ s : Task, (∃ lent call, s.phase = .draining lent call) →
        ∀ m : Host, m.leave? s = none := by
      rintro s ⟨lent, call, hs⟩ m
      rw [leave?, hs]
    rw [hstays t ⟨_, _, hp⟩ h]
    apply hstays
    unfold Task.lendFor
    split
    · exact ⟨some t.buffer, call, by simp only [Task.lend, hp]⟩
    · exact ⟨none, call, hp⟩
  · have hdown : (h.lent c).isDown t.consumer.group.bus = h.isDown t.consumer.group.bus := rfl
    rw [Task.lendFor_of_not_keeps hk, leave?, leave?]
    cases t.phase with
    | waiting =>
      dsimp only
      rw [hdown]
      split
      · exact congrArg some (endTask_lent h c t _)
      · rfl
    | _ => rfl

/-- A loop ticks as before, and wakes the same tasks. -/
theorem tick?_lent (c : ConsumerRef) (l : FlushLoop) :
    (h.lent c).tick? l = (h.tick? l).map (·.lent c) := by
  have htasks : (h.lent c).tasks.map (fun t => if t.consumer.group = l.group then t.wake else t) =
      (h.tasks.map fun t => if t.consumer.group = l.group then t.wake else t).map
        (·.lendFor c) := by
    rw [lent, List.map_map, List.map_map]
    apply List.map_congr_left
    intro t _
    show (if (t.lendFor c).consumer.group = l.group then _ else _) = Task.lendFor c (ite _ _ _)
    rw [Task.consumer_lendFor]
    split
    · exact Task.wake_lendFor
    · rfl
  have hnow : (h.lent c).now = h.now := rfl
  rw [tick?, tick?, hnow]
  split
  · exact congrArg (fun tasks => some
      ({ (h.setLoop (l.tick h.now)) with tasks }.note (.ticked l.id l.group))) htasks
  · rfl

/-- A loop ends as before. -/
theorem halt?_lent (c : ConsumerRef) (l : FlushLoop) :
    (h.lent c).halt? l = (h.halt? l).map (·.lent c) := by
  have hdown : (h.lent c).isDown l.group.bus = h.isDown l.group.bus := rfl
  rw [halt?, halt?, hdown]
  split <;> rfl

/-! ## Turns -/

section

variable (hk : ∀ t, h.task? c = some t → t.Keeps ∧ t.Deferred)

include hk

/-- Every move is possible on both ways or on none, and commutes with lending. -/
theorem move?_lent (move : Move) : (h.lent c).move? move = (h.move? move).map (·.lent c) := by
  cases move with
  | run d =>
    rw [Host.move?, Host.move?, task?_lent]
    cases ht : h.task? d with
    | none => rfl
    | some t =>
      exact runTask?_lent h fun hc => hk t (by rw [← hc, consumer_of_task? ht, ht])
  | leave d =>
    rw [Host.move?, Host.move?, task?_lent]
    cases ht : h.task? d with
    | none => rfl
    | some t => exact leave?_lent h
  | tick id =>
    have hloop : (h.lent c).loop? id = h.loop? id := rfl
    rw [Host.move?, Host.move?, hloop]
    cases h.loop? id with
    | none => rfl
    | some l => exact tick?_lent h c l
  | halt id =>
    have hloop : (h.lent c).loop? id = h.loop? id := rfl
    rw [Host.move?, Host.move?, hloop]
    cases h.loop? id with
    | none => rfl
    | some l => exact halt?_lent h c l

/-- Time may pass on both ways or on none: the same moves are possible, and the alarms are the same.
-/
theorem pass?_lent (instant : Nat) :
    (h.lent c).pass? instant = (h.pass? instant).map (·.lent c) := by
  -- nobody can move if no move is possible, and the same moves are
  have hquiet : (h.lent c).isQuiet = h.isQuiet := by
    rw [Bool.eq_iff_iff, isQuiet_iff, isQuiet_iff]
    refine forall_congr' fun move => ?_
    rw [move?_lent h hk, Option.map_eq_none_iff]
  have halarms : (h.lent c).alarms = h.alarms := by
    simp only [alarms, lent, List.filterMap_map, Function.comp_def, Task.alarm?_lendFor]
  have hnow : (h.lent c).now = h.now := rfl
  rw [pass?, pass?, hquiet, halarms, hnow]
  split <;> rfl

end

theorem hold_lent (c : ConsumerRef) (name : String) (b : BusId) :
    (h.lent c).hold name b = (h.hold name b).lent c :=
  release_lent c _ { h with handles := (name, b) :: h.otherHandles name }

theorem drop_lent (c : ConsumerRef) (name : String) :
    (h.lent c).drop name = (h.drop name).lent c :=
  release_lent c _ { h with handles := h.otherHandles name }

/-- A default bus is installed, or refused, on both ways. -/
theorem install_lent (m : Host) (c : ConsumerRef) (b : BusId) :
    acknowledged ((m.lent c).install b) = Prod.map id (·.lent c) (acknowledged (m.install b)) := by
  -- the slot of the default bus is the same
  have hpreset : (m.lent c).preset = m.preset := rfl
  rw [install, install, hpreset]
  cases m.preset with
  | some =>
    dsimp only
    rw [release_lent]
    rfl
  | none => rfl

theorem installFrom_lent (c : ConsumerRef) (source : Target) :
    (h.lent c).installFrom source = Prod.map id (·.lent c) (h.installFrom source) :=
  h.withBus_lent c [] source fun b m => install_lent m c b

theorem surrender_lent (c : ConsumerRef) (name : String) :
    (h.lent c).surrender name = Prod.map id (·.lent c) (h.surrender name) := by
  have hhandle : (h.lent c).handle? name = h.handle? name := rfl
  rw [surrender, surrender, hhandle]
  cases h.handle? name with
  | none => rfl
  | some b => exact install_lent { h with handles := h.otherHandles name } c b

theorem infoOf_lent (c : ConsumerRef) (target : Target) :
    (h.lent c).infoOf target = Prod.map id (·.lent c) (h.infoOf target) := by
  rw [infoOf, infoOf, locate_lent]
  obtain ⟨found, m⟩ := h.locate [] target
  cases hbus : found.bind m.bus? with
  | none =>
    have hbus' : found.bind (m.lent c).bus? = none := hbus
    simp only [Prod.map_apply, id_eq, hbus, hbus']
  | some bus =>
    have hbus' : found.bind (m.lent c).bus? = some bus := hbus
    simp only [Prod.map_apply, id_eq, hbus, hbus']

/-- Every command is answered alike and commutes with lending, but those that stop the runtime. -/
theorem obey_lent (c : ConsumerRef) {command : Command} (hq : command.takesTime = false)
    (hs : command.stopsRuntime = false) :
    (h.lent c).obey command = Prod.map id (·.lent c) (h.obey command) := by
  have hanswered : ∀ x : Answer × Host,
      answered (Prod.map id (·.lent c) x) = Prod.map id (·.lent c) (answered x) := fun _ => rfl
  have hrun : (h.lent c).runtime = h.runtime := rfl
  cases command with
  | make name builder pinned =>
    rw [obey, obey, makeBus, hrun]
    exact congrArg (fun m => answered (.nothing, m)) (hold_lent (h.addBus _).2 c name _)
  | clone source name =>
    rw [obey, obey, ← hanswered]
    exact congrArg answered (h.withBus_lent c [] source fun b m => by rw [hold_lent]; rfl)
  | drop name => exact congrArg (Prod.mk _) (drop_lent h c name)
  | subscribe target who outside => rw [obey, obey, hrun, subscribeAt_lent, hanswered]
  | inspect name => rfl
  | cancel name =>
    rw [obey, obey, ← hanswered, cancelAndInspect, cancelNamed_lent]
    rfl
  | publish target event => rw [obey, obey, publishTo_lent, hanswered]
  | close target => rw [obey, obey, closeAt_lent, hanswered]
  | count target type => rw [obey, obey, countAt_lent, hanswered]
  | info target => exact infoOf_lent h c target
  | install source => rw [obey, obey, installFrom_lent, hanswered]
  | surrender name => rw [obey, obey, surrender_lent, hanswered]
  | stopRuntime | startRuntime => exact absurd hs (by simp [Command.stopsRuntime])
  | advance ms => exact absurd hq (by simp [Command.takesTime])

/-- **Every turn commutes with lending** until the batch is over, unless it stops the runtime. -/
theorem turn?_lent (hk : ∀ t, h.task? c = some t → t.Keeps ∧ t.Deferred) {u : Turn}
    (hs : u.stopsRuntime = false) : (h.lent c).turn? u = (h.turn? u).map (·.lent c) := by
  cases u with
  | obey command =>
    rw [turn?, turn?]
    cases hq : command.takesTime with
    | true => rfl
    | false => simp only [obey_lent h c hq hs, Bool.false_eq_true, if_false]; rfl
  | move move => exact move?_lent h hk move
  | pass instant => exact pass?_lent h hk instant

/-! ## Two ways through a batch -/

/-- The program with the rest of the batch of `c` in the buffer of its task. -/
def kept (h : Host) (c : ConsumerRef) : Host :=
  { h with tasks := h.tasks.map fun t => if t.consumer = c then t.keep else t }

/-- The consumer has its task, as one that keeps. -/
theorem task?_kept (c : ConsumerRef) : (h.kept c).task? c = (h.task? c).map Task.keep := by
  have hfound : (h.kept c).task? c =
      (h.task? c).map fun t => if t.consumer = c then t.keep else t :=
    task?_of_map (fun t => by split <;> simp) rfl c
  rw [hfound]
  cases ht : h.task? c with
  | none => rfl
  | some t => rw [Option.map_some, Option.map_some, if_pos (consumer_of_task? ht)]

/-- `k` and `l` are the same but for the batch of `c`, which is in the buffer in `k` and lent in
`l`; and when the batch is over they are the same. -/
inductive Abreast (c : ConsumerRef) (k : Host) : Host → Prop
  | underWay {t : Task} : k.task? c = some t → t.Keeps → t.Deferred → Abreast c k (k.lent c)
  | through : Abreast c k k

/-- A program and the one in which the batch of `c` is lent are abreast. If there is no such batch
they are the same. -/
theorem abreast_lent {k : Host} (hn : (k.tasks.map (·.consumer)).Nodup)
    (hd : ∀ t, k.task? c = some t → t.Keeps → t.Deferred) : Abreast c k (k.lent c) := by
  by_cases hk : ∃ t, k.task? c = some t ∧ t.Keeps
  · obtain ⟨t, ht, hkeeps⟩ := hk
    exact .underWay ht hkeeps (hd t ht hkeeps)
  · have htasks : k.tasks.map (·.lendFor c) = k.tasks.map id := by
      apply List.map_congr_left
      intro t ht
      by_cases hc : t.consumer = c
      · have hfound : k.task? c = some t := find?_of_key hn ht fun _ => by simp [hc]
        exact Task.lendFor_of_not_keeps fun hkeeps => hk ⟨t, hfound, hkeeps⟩
      · exact Task.lendFor_other hc
    have hsame : k.lent c = k := by
      rw [List.map_id] at htasks
      exact congrArg (fun tasks => { k with tasks }) htasks
    rw [hsame]
    exact .through

/-- No consumer has two tasks, on either way. -/
theorem nodup_of_lent {k : Host} {c : ConsumerRef} (hr : k.Reached ∨ (k.lent c).Reached) :
    (k.tasks.map (·.consumer)).Nodup := by
  rcases hr with hr | hr
  · exact hr.paired.nodup
  · have hn := hr.paired.nodup
    rw [lent, List.map_map] at hn
    simpa [Function.comp_def] using hn

/-- What becomes of a task with no early panic ahead is one. -/
theorem Descends.deferred {k k' : Host} (hd : k.Descends k') (hn : (k.tasks.map (·.consumer)).Nodup)
    (ht : k.task? c = some t) (hdeferred : t.Deferred) {s : Task} (hs : k'.task? c = some s)
    (hkeeps : s.Keeps) : s.Deferred := by
  -- the consumer has one task, so what is there of it descends from that one
  have hown : ∀ r ∈ k.tasks, r.consumer = c → r = t := fun r hr hc => by
    have hfound : k.task? c = some r := find?_of_key hn hr fun _ => by simp [hc]
    exact Option.some.inj (hfound.symm.trans ht)
  have hc := consumer_of_task? hs
  cases hd s (mem_of_task? hs) with
  | kept hmem => exact hown s hmem hc ▸ hdeferred
  | @woken r hmem heq =>
    rw [heq, Task.consumer_wake] at hc
    rw [heq, hown r hmem hc]
    exact hdeferred.wake
  | @left r hmem heq =>
    rw [heq] at hc ⊢
    exact hown r hmem hc ▸ hdeferred.orphan
  | @gone r said hmem hg =>
    obtain rfl := hown r hmem (hg.same.consumer.symm.trans hc)
    exact hdeferred.stride hg
  | new hready => exact absurd hkeeps (Task.not_keeps_of_ready hready)

/-- Programs that are abreast take the same turns and stay abreast. One of the two is known to be
reached, and so is the one that it becomes. -/
theorem Abreast.turn? {c : ConsumerRef} {k l : Host} (ha : Abreast c k l)
    (hr : k.Reached ∨ l.Reached) {u : Turn} (hs : u.stopsRuntime = false) :
    Option.Rel (fun k' l' => Abreast c k' l' ∧ (k'.Reached ∨ l'.Reached))
      (k.turn? u) (l.turn? u) := by
  cases ha with
  | @underWay t ht hkeeps hdeferred =>
    have hk : ∀ s, k.task? c = some s → s.Keeps ∧ s.Deferred := fun s hs => by
      obtain rfl := Option.some.inj (ht.symm.trans hs)
      exact ⟨hkeeps, hdeferred⟩
    have hturn := turn?_lent k hk hs
    rw [hturn]
    cases hu : k.turn? u with
    | none => exact .none
    | some k' =>
      rw [hu] at hturn
      -- whichever of the two was reached, what the turn makes of it is
      have hr' : k'.Reached ∨ (k'.lent c).Reached :=
        hr.imp (fun hr => hr.changes (turn?_changes hr hu).changes)
          fun hr => hr.changes (turn?_changes hr hturn).changes
      refine .some ⟨abreast_lent (nodup_of_lent hr') fun s hs hkeeps' => ?_, hr'⟩
      exact (turn?_descends hu).deferred (nodup_of_lent hr) ht hdeferred hs hkeeps'
  | through =>
    have hr : k.Reached := or_self_iff.mp hr
    cases hu : k.turn? u with
    | none => exact .none
    | some k' => exact .some ⟨.through, .inl (hr.changes (turn?_changes hr hu).changes)⟩

/-- Nobody can tell from the journal where the batch is. -/
theorem Abreast.journal {c : ConsumerRef} {k l : Host} (ha : Abreast c k l) :
    l.journal = k.journal := by
  cases ha <;> rfl

/-- **The same turns are possible on both ways**, and the same is entered of them, as long as the
runtime is not stopped: a job that has begun would go on, and a batch in the buffer would be lost.
-/
theorem Abreast.replay {c : ConsumerRef} {k l : Host} (ha : Abreast c k l)
    (hr : k.Reached ∨ l.Reached) {us : List Turn} (hus : ∀ u ∈ us, u.stopsRuntime = false) :
    Option.Rel (fun k' l' => Abreast c k' l' ∧ l'.journal = k'.journal)
      (k.replay us) (l.replay us) := by
  induction us generalizing k l with
  | nil => exact .some ⟨ha, ha.journal⟩
  | cons u us ih =>
    obtain ⟨hu, hus⟩ := List.forall_mem_cons.mp hus
    have hturn := ha.turn? hr hu
    rw [Host.replay, Host.replay]
    generalize k.turn? u = k' at hturn ⊢
    generalize l.turn? u = l' at hturn ⊢
    cases hturn with
    | none => exact .none
    | some hm => exact ih hm.1 hm.2 hus

end Host

end EventBus
