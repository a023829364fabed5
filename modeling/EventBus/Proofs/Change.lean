import EventBus.Proofs.Lookup
import Mathlib.Logic.Relation

/-!
# The changes that turns are made of

A turn may do a great deal: a handler that subscribes may make the default bus, bind a type, start a
loop, put a task on a runtime that is gone and shut down a bus that the task held. What every such
turn is made of is a short list of changes, each of which does one thing under a guard that says
when it happens. `Change` is that list. An invariant is proved by one case per change, and holds in
between the changes of a turn as well as between turns.

Changes have a nature, which tells apart what a single turn never does both of: to shut a bus down,
and to bring an event to a queue or a consumer to its wait.

## How the proofs are laid out

Everything about all states of all runs is proved once for each change. `Lookup` and `Effect` say
what a change does to what is looked up. `Pairing`, `Origin`, `Holding` and `Standing` are the
invariants that everything else needs, `Account` and `Shutdown` those that compare a state with its
journal. `Request` and `Turn` show that turns are made of changes, so that what changes keep holds
in every state that a run comes to.

Some statements are about turns as such, or about two runs at once, and changes are too small for
them: how a task moves (`OffRuntime`, `Descent`, `Episode`, `Departure`), what a program without one
of its consumers does (`Shadow`), and in which order those who can move do so (`Progress`,
`Confluence`).
-/

set_option autoImplicit false

namespace EventBus

inductive Nature where
  | plain
  -- Brings an event to the queues of a group, or a consumer to its wait.
  | gain
  -- Shuts a bus down.
  | loss
  -- Drops a task together with its runtime.
  | drop
  deriving DecidableEq, Repr

namespace Task

/-- `t.Step slot n t' said`: a step by which a task changes nothing but itself. `slot` is the slot
that it looks at, and `said` what the step enters in the journal. -/
inductive Step (slot : Option (Slot Event)) (t : Task) : Nature → Task → Option Happening → Prop
  | register : t.phase = .ready → Step slot t .plain t.register (some (.registered t.consumer))
  | findNothing {s : Slot Event} : t.phase = .armed → slot = some s → s.queue = [] →
      s.stopped = false → Step slot t .gain (t.enter .idle) none
  | park : t.phase = .idle → Step slot t .plain (t.enter .waiting) none
  | resume : t.phase = .waiting → t.woken = true → Step slot t .plain (t.enter .ready) none
  | beginCall {lent : Option (List Event)} {event : Event} {rest : List Event} :
      t.phase = .draining lent none → t.batch = event :: rest →
      Step slot t .plain (t.beginCall lent event rest)
        (some (.called t.consumer t.handler.profile event))
  | work {lent : Option (List Event)} {call call' : Call} :
      t.phase = .draining lent (some call) → Step slot t .plain (t.continueCall lent call') none
  | endCall {lent : Option (List Event)} {call : Call} :
      t.phase = .draining lent (some call) → Step slot t .plain (t.endCall lent) none
  | endBatch {lent : Option (List Event)} : t.phase = .draining lent none → t.batch = [] →
      t.orphaned = false → Step slot t .plain t.endBatch (some (.drained t.consumer))
  | fail {lent : Option (List Event)} {call : Call} {payload : Payload} {caught : Bool} :
      t.phase = .draining lent (some call) → t.orphaned = false →
      Step slot t .plain (t.fail payload caught) none

end Task

namespace Happening

/-- What handlers do and are told, which no look-up depends on. -/
def isAside : Happening → Bool
  | acted .. | slept .. | reported .. | rejected .. => true
  | _ => false

end Happening

namespace Host

def say (h : Host) (said : Option Happening) : Host :=
  { h with journal := said.toList.map (⟨h.now, ·⟩) ++ h.journal }

/-- The end of a task, apart from what its handler held. -/
def finish (h : Host) (t : Task) (what : Happening) : Host :=
  ((h.note what).eraseTask t.consumer).modifyGroup t.consumer.group (·.detach t.consumer.id)

/-- Gives a consumer of `kind` its slot, and puts its task in line. -/
def enrol (h : Host) (t : Task) (kind : Kind) : Host :=
  let h := (h.modifyGroup t.consumer.group (·.attach.2)).note
    (.subscribed t.consumer kind t.handler.profile)
  { h with tasks := h.tasks ++ [t] }

/-- The ways in which a task ends, each with what is entered in the journal. -/
inductive Ending (h : Host) (t : Task) : Nature → Happening → Prop
  -- It found nothing after it was cancelled.
  | drained {s : Slot Event} : t.phase = .armed → h.slot? t.consumer = some s → s.queue = [] →
      s.stopped = true → Ending h t .plain (.stopped t.consumer t.handler.profile .drained)
  -- Its bus was shut down while it waited.
  | left : t.phase = .waiting → h.isDown t.consumer.group.bus = true →
      Ending h t .plain (.stopped t.consumer t.handler.profile .shutdown)
  | panicked {payload : Payload} {caught : Bool} : t.phase = .failed payload caught →
      Ending h t .plain (.panicked t.consumer t.handler.profile payload caught)
  -- It is dropped with its runtime, and no job of it has begun.
  | lost : t.orphaned = false → t.hasJob = false →
      Ending h t .drop (.lost t.consumer t.handler.profile)

/-- What makes a task one that may be put in line: its group is of `kind` and has the task's id to
give, its bus is open, and the task has not done anything yet. -/
structure Admissible (h : Host) (t : Task) (kind : Kind) : Prop where
  kind : h.kind? t.consumer.group = some kind
  id : ∃ group, h.group? t.consumer.group = some group ∧ t.consumer.id = group.nextId
  isOpen : h.isClosed t.consumer.group.bus = false
  known : h.isHeld t.consumer.group.bus = true
  holds : ∀ b ∈ t.held, h.isHeld b.2 = true
  phase : t.phase = .ready
  buffer : t.buffer = []
  attended : t.orphaned = false
  fresh : h.task? t.consumer = none

end Host

open Host

inductive Change : Nature → Host → Host → Prop where
  | pass {h : Host} {instant : Nat} : h.isQuiet = true → h.now ≤ instant →
      (∀ alarm ∈ h.alarms, h.now < alarm → instant ≤ alarm) →
      Change .plain h (h.setClock instant)
  -- Names are bound anew, to what somebody holds already.
  | rename {h : Host} {handles : List (String × BusId)} {preset : Option BusId}
      {subscriptions : List (String × ConsumerRef)} :
      (∀ b, { h with handles, preset, subscriptions }.isHeld b = true → h.isHeld b = true) →
      Change .plain h { h with handles, preset, subscriptions }
  | make {h : Host} {bus : Bus} {handles : List (String × BusId)} {preset : Option BusId} :
      bus.registry = .empty → bus.stage = .active →
      (∀ b, { h with handles, preset }.isHeld b = true → h.isHeld b = true ∨ b = h.buses.length) →
      Change .plain h { h with buses := h.buses ++ [bus], handles, preset }
  | abandon {h : Host} {b : BusId} : h.isHeld b = false → Change .loss h (h.abandon b)
  | aside {h : Host} {what : Happening} : what.isAside = true → Change .plain h (h.note what)
  | publish {h : Host} {b : BusId} {event : Event} : h.isHeld b = true →
      (h.bus? b).isSome = true → Change .gain h (h.publish b event)
  | close {h h' : Host} {b : BusId} : h.isHeld b = true → h.close b = .ok h' → Change .loss h h'
  | bindType {h : Host} {b : BusId} {bus : Bus} {type : EventType} {kind : Kind}
      (fresh : bus.registry.binding? type = none) :
      h.isHeld b = true → h.bus? b = some bus → bus.isClosed = false →
      Change .plain h (h.modifyBus b fun bus' =>
        { bus' with registry := bus.registry.add ⟨type, kind, bus.newGroup type⟩ fresh })
  | startLoop {h : Host} {g : GroupRef} {kind : Kind} {interval : Duration} {p : Placement} :
      h.group? g = some p.group → h.hasLoop p.group = false → h.interval? g.bus = some interval →
      Change .plain h (h.ensureLoop g kind interval p)
  | enrol {h : Host} {t : Task} {kind : Kind} : h.Admissible t kind →
      h.runtime = some t.runtime → (∃ l ∈ h.loops, l.group = t.consumer.group) →
      Change .plain h (h.enrol t kind)
  -- The task is put on a runtime that is gone, and is dropped at once.
  | stillborn {h : Host} {t : Task} {kind : Kind} : h.Admissible t kind →
      h.runtime ≠ some t.runtime →
      Change .plain h ((h.enrol t kind).finish t (.lost t.consumer t.handler.profile))
  | cancel {h : Host} {c : ConsumerRef} : h.isActive c = true → Change .plain h (h.cancel c)
  | step {h : Host} {t t' : Task} {n : Nature} {said : Option Happening} :
      h.task? t.consumer = some t → t.Step (h.slot? t.consumer) n t' said →
      Change n h ((h.setTask t').say said)
  | take {h : Host} {t : Task} {s : Slot Event} : h.task? t.consumer = some t →
      t.phase = .armed → h.slot? t.consumer = some s → s.queue ≠ [] →
      Change .plain h (((h.modifyGroup t.consumer.group
        fun group => (group.take t.consumer.id []).2.2).setTask (t.beginBatch s.queue)).note
          (.took t.consumer s.queue))
  | finish {h : Host} {t : Task} {n : Nature} {what : Happening} :
      h.task? t.consumer = some t → h.Ending t n what → Change n h (h.finish t what)
  | leaveJob {h : Host} {t : Task} : h.task? t.consumer = some t → t.orphaned = false →
      t.hasJob = true → Change .drop h (h.leaveJob t)
  | endJob {h : Host} {t : Task} : h.task? t.consumer = some t → t.orphaned = true →
      Change .plain h (h.eraseTask t.consumer)
  | tick {h : Host} {l : FlushLoop} : h.loop? l.id = some l → l.isDue h.now = true →
      Change .plain h (((h.setLoop (l.tick h.now)).wake l.group).note (.ticked l.id l.group))
  | halt {h : Host} {l : FlushLoop} : h.loop? l.id = some l → h.isDown l.group.bus = true →
      Change .plain h ((h.eraseLoop l.id).note (.loopStopped l.id l.group))
  | stop {h : Host} : (∀ t ∈ h.tasks, t.orphaned = true) →
      Change .plain h { h with runtime := none, loops := [] }
  | start {h : Host} : h.runtime = none →
      Change .plain h { h with runtime := some h.runtimes, runtimes := h.runtimes + 1 }

/-- Any number of changes whose natures satisfy `ns`. -/
def Changes (ns : Nature → Prop) : Host → Host → Prop :=
  Relation.ReflTransGen fun h h' => ∃ n, ns n ∧ Change n h h'

namespace Changes

theorem refl {ns : Nature → Prop} (h : Host) : Changes ns h h := Relation.ReflTransGen.refl

theorem single {ns : Nature → Prop} {n : Nature} {h h' : Host} (hn : ns n) (hc : Change n h h') :
    Changes ns h h' := Relation.ReflTransGen.single ⟨n, hn, hc⟩

theorem trans {ns : Nature → Prop} {h m h' : Host} (ha : Changes ns h m) (hb : Changes ns m h') :
    Changes ns h h' := Relation.ReflTransGen.trans ha hb

theorem mono {ns ns' : Nature → Prop} {h h' : Host} (hns : ∀ n, ns n → ns' n)
    (hc : Changes ns h h') : Changes ns' h h' := by
  refine Relation.ReflTransGen.mono ?_ h h' hc
  rintro a b ⟨n, hn, hab⟩
  exact ⟨n, hns n hn, hab⟩

/-- What every change keeps, changes keep. -/
theorem keeps {ns : Nature → Prop} {P : Host → Prop}
    (hP : ∀ {h h' : Host} {n : Nature}, Change n h h' → P h → P h') {h h' : Host}
    (hc : Changes ns h h') (hp : P h) : P h' := by
  induction hc with
  | refl => exact hp
  | tail _ hchange ih =>
    obtain ⟨n, -, hchange⟩ := hchange
    exact hP hchange ih

end Changes

/-- A state that the changes of a program lead to, be it between turns or in the middle of one. -/
def Host.Reached (h : Host) : Prop := Changes (fun _ => True) {} h

namespace Host.Reached

theorem changes {ns : Nature → Prop} {h h' : Host} (hr : h.Reached) (hc : Changes ns h h') :
    h'.Reached := Changes.trans hr (hc.mono fun _ _ => trivial)

theorem change {n : Nature} {h h' : Host} (hr : h.Reached) (hc : Change n h h') : h'.Reached :=
  hr.trans (.single trivial hc)

/-- **The induction that every invariant goes by.** What holds at the start, and after every change
from a reached state in which it holds, holds in every reached state. -/
theorem invariant {P : Host → Prop} (start : P {})
    (keeps : ∀ {h h' : Host} {n : Nature}, h.Reached → P h → Change n h h' → P h')
    {h : Host} (hr : h.Reached) : P h := by
  induction hr with
  | refl => exact start
  | tail hm hc ih =>
    obtain ⟨n, -, hc⟩ := hc
    exact keeps hm ih hc

end Host.Reached

end EventBus
