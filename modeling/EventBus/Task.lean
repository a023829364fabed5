import EventBus.Journal

/-!
# Tasks of consumers

A consumer runs in a task of its own. The task registers for the next wake-up before it looks at its
queue, so that a wake-up in between is not missed; then it delivers what it found, or waits. The
registration remembers that the wake-up came, and is given up for the next one. This module holds
what a task is and the changes of a task that concern nothing else.

A handler that blocks is given its batch in a job beside the task: the buffer is lent to the job and
comes back empty. A job that has begun cannot be stopped. When the task is dropped with its runtime
the job goes on by itself, with the handler and what that holds, until it is over.
-/

set_option autoImplicit false

namespace EventBus

/-- A call of a handler that is not over. -/
structure Call where
  event : Event
  todo : List Action
  -- The instant at which the handler's pause is over, while it makes one.
  asleep : Option Nat := none

/-- The call without the next `n` actions. -/
def Call.skip (call : Call) (n : Nat) : Call := { call with todo := call.todo.drop n }

inductive Phase where
  -- About to register: before the first look, after a batch, after a wake-up.
  | ready
  -- Registered for the next wake-up, and about to look at the queue.
  | armed
  -- Found nothing, and about to wait.
  | idle
  -- Waiting for the wake-up it registered for, or for the shutdown.
  | waiting
  -- Delivering a batch, which is in the buffer or lent to a job.
  | draining (lent : Option (List Event)) (call : Option Call)
  -- The handler panicked. Its panic was caught, or else it unwinds the task.
  | failed (payload : Payload) (caught : Bool)

structure Task where
  consumer : ConsumerRef
  runtime : RuntimeId
  handler : Handler Action
  held : List (Target × BusId) := []
  -- The buffer that the task offers in exchange for its queue.
  buffer : List Event := []
  -- Whether the wake-up that the task registered for has come.
  woken : Bool := false
  phase : Phase := .ready
  -- Whether the handler was called with anything of the batch at hand.
  begun : Bool := false
  -- Whether the task was dropped with its runtime, and only a job of it is left.
  orphaned : Bool := false

namespace Phase

/-- Whether the task is registered for a wake-up. It stays so while it delivers a batch. -/
def isRegistered : Phase → Bool
  | ready => false
  | _ => true

/-- Whether the task found nothing when it looked, and is inside the wait. -/
def isParked : Phase → Bool
  | idle | waiting => true
  | _ => false

theorem isRegistered_of_isParked {p : Phase} (h : p.isParked = true) : p.isRegistered = true := by
  cases p <;> first | rfl | exact absurd h (by simp [isParked])

end Phase

namespace Task

/-- A wake-up of the task's group. It reaches those who registered for it. -/
def wake (t : Task) : Task := if t.phase.isRegistered then { t with woken := true } else t

@[simp] theorem consumer_wake (t : Task) : t.wake.consumer = t.consumer := by
  unfold wake
  split <;> rfl

def register (t : Task) : Task := { t with woken := false, phase := .armed }

def enter (t : Task) (phase : Phase) : Task := { t with phase }

/-- Begins the delivery of a batch. -/
def beginBatch (t : Task) (batch : List Event) : Task :=
  if t.handler.profile.isBlocking then
    { t with buffer := [], phase := .draining (some batch) none, begun := false }
  else
    { t with buffer := batch, phase := .draining none none, begun := false }

/-- The rest of the batch that is being delivered. -/
def batch (t : Task) : List Event :=
  match t.phase with
  | .draining (some events) _ => events
  | .draining none _ => t.buffer
  | _ => []

/-- Begins the call of the handler with `event`, when `rest` is what is left of the batch. -/
def beginCall (t : Task) (lent : Option (List Event)) (event : Event) (rest : List Event) : Task :=
  let call : Call := { event, todo := t.handler.react event }
  match lent with
  | some _ => { t with phase := .draining (some rest) (some call), begun := true }
  | none => { t with buffer := rest, phase := .draining none (some call), begun := true }

/-- Ends a batch of which nothing is left; a buffer that was lent comes back empty. -/
def endBatch (t : Task) : Task := { t with buffer := [], phase := .ready }

def continueCall (t : Task) (lent : Option (List Event)) (call : Call) : Task :=
  { t with phase := .draining lent (some call) }

def endCall (t : Task) (lent : Option (List Event)) : Task :=
  { t with phase := .draining lent none }

/-- Ends a call, and with it the batch, by a panic. -/
def fail (t : Task) (payload : Payload) (caught : Bool) : Task :=
  { t with buffer := [], phase := .failed payload caught }

/-- Whether the batch is lent to a job that has begun. -/
def hasJob (t : Task) : Bool :=
  match t.phase with
  | .draining (some _) _ => t.begun
  | _ => false

/-- The job of a task that is gone. -/
def orphan (t : Task) : Task := { t with orphaned := true }

/-- Whether a job is over, as its batch is or as its handler panics. -/
def isOver (t : Task) : Bool :=
  match t.phase with
  | .draining _ none => t.batch.isEmpty
  | .draining _ (some call) => call.asleep.isNone && call.todo.head?.any (·.isPanic)
  | _ => false

/-- The instant at which the task goes on by itself, if it makes a pause. -/
def alarm? (t : Task) : Option Nat :=
  match t.phase with
  | .draining _ (some call) => call.asleep
  | _ => none

end Task

end EventBus
