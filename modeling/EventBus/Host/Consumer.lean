import EventBus.Host.Requests

/-!
# Steps of consumers

A task moves in small steps, and other tasks may move between any two of them: it registers, looks
at its queue, begins to wait, calls its handler, performs one action, ends the call or the batch. A
task that waits leaves when its bus is shut down, without another look at its queue.

`runTask?` and `leave?` answer none when the task cannot move in that way now.
-/

set_option autoImplicit false

namespace EventBus

namespace Host

def look (h : Host) (t : Task) : Host :=
  match h.group? t.consumer.group with
  | none => h.endTask t (.stopped t.consumer t.handler.profile .drained)
  | some group =>
    let (found, buffer, group) := group.take t.consumer.id t.buffer
    let h := h.modifyGroup t.consumer.group fun _ => group
    match found with
    | .batch => (h.setTask (t.beginBatch buffer)).note (.took t.consumer buffer)
    | .empty => h.setTask { t with buffer, phase := .idle }
    | .stopped => h.endTask t (.stopped t.consumer t.handler.profile .drained)

def enter (t : Task) (a : Action) (answered : Answer × Host) : Host :=
  answered.2.note (.acted t.consumer t.handler.profile a.word answered.1)

/-- Asks a question, and goes on with what the answer leaves of the call. -/
def consult (h : Host) (t : Task) (lent : Option (List Event)) (call : Call) (question : Question)
    (skip : Answer → Nat) : Host :=
  let (answer, h) := h.ask t.held question
  (h.setTask (t.continueCall lent (call.skip (skip answer)))).note
    (.acted t.consumer t.handler.profile question.word answer)

/-- Performs one action of a handler; `call` is the call without it. Whatever a request is answered,
the handler goes on: a request that is fatal panics in the program, and the handler catches that. A
panic of the handler itself is caught by the job that the batch is lent to, if there is one, and by
the task around the future of the call, but not around the making of that future. -/
def perform (h : Host) (t : Task) (lent : Option (List Event)) (call : Call) (a : Action) : Host :=
  let next := h.setTask (t.continueCall lent call)
  match a with
  | .publish target event => enter t a (next.publishTo t.held target event)
  | .countdown target => enter t a (next.countdownTo t.held target call.event)
  | .cancel name => enter t a (next.cancelNamed name)
  | .close target => enter t a (next.closeAt t.held target)
  | .count target type => enter t a (next.countAt t.held target type)
  | .consult question skip => h.consult t lent call question skip
  | .subscribe target who => enter t a (next.subscribeAt t.held (some t.runtime) target who)
  | .sleep ms => h.setTask (t.continueCall lent { call with asleep := some (h.now + ms) })
  | .panic payload early => h.setTask (t.fail payload (lent.isSome || !early))
  | .report => next.note (.reported t.consumer call.event)

def drain? (h : Host) (t : Task) (lent : Option (List Event)) : Option Call → Option Host
  | none =>
    match t.batch with
    | [] => some ((h.setTask t.endBatch).note (.drained t.consumer))
    | event :: rest =>
      some ((h.setTask (t.beginCall lent event rest)).note
        (.called t.consumer t.handler.profile event))
  | some call =>
    match call.asleep, call.todo with
    | some alarm, _ =>
      if alarm ≤ h.now then
        some ((h.setTask (t.continueCall lent { call with asleep := none })).note
          (.slept t.consumer t.handler.profile))
      else none
    | none, a :: rest => some (h.perform t lent { call with todo := rest } a)
    | none, [] => some (h.setTask (t.endCall lent))

def stepTask? (h : Host) (t : Task) : Option Host :=
  match t.phase with
  | .ready => some ((h.setTask t.register).note (.registered t.consumer))
  | .armed => some (h.look t)
  | .idle => some (h.setTask (t.enter .waiting))
  | .waiting => if t.woken then some (h.setTask (t.enter .ready)) else none
  | .draining lent call => h.drain? t lent call
  | .failed payload caught =>
    some (h.endTask t (.panicked t.consumer t.handler.profile payload caught))

/-- What is left of a task that is gone drains the batch as a task does, and then it is over: nobody
is there to take back the buffer, or to record a panic. -/
def runTask? (h : Host) (t : Task) : Option Host :=
  if t.orphaned && t.isOver then some (h.endJob t) else h.stepTask? t

/-- The end of a task that waits, when its bus is shut down. -/
def leave? (h : Host) (t : Task) : Option Host :=
  match t.phase with
  | .waiting =>
    if h.isDown t.consumer.group.bus then
      some (h.endTask t (.stopped t.consumer t.handler.profile .shutdown))
    else none
  | _ => none

end Host

end EventBus
