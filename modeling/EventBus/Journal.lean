import EventBus.Handler

/-!
# The journal of a program

Everything that happens to the buses of a program, in order and with its instant. What handlers note
down and what the log shows are both read off the journal, so it is the one history that statements
about a run refer to.
-/

set_option autoImplicit false

namespace EventBus

inductive Exit where
  /-- It was cancelled, and there was nothing left in its queue. -/
  | drained
  /-- Its bus was shut down while it waited. -/
  | shutdown
  deriving DecidableEq, Repr

/-- One thing that happened. -/
inductive Happening where
  | published (bus : BusId) (event : Event) (fate : Publication)
  | closed (bus : BusId) (groups : Nat)
  /-- A subscription was refused over a conflict. -/
  | rejected (bus : BusId) (fault : Fault)
  | loopStarted (loop : LoopId) (group : GroupRef) (kind : Kind) (interval : Duration)
    (created : Bool)
  | loopStopped (loop : LoopId) (group : GroupRef)
  /-- A flush loop woke its group. -/
  | ticked (loop : LoopId) (group : GroupRef)
  /-- A consumer subscribed to events of a kind. -/
  | subscribed (consumer : ConsumerRef) (kind : Kind) (who : Profile)
  | unsubscribed (consumer : ConsumerRef)
  /-- A consumer registered for the next tick of its group. -/
  | registered (consumer : ConsumerRef)
  /-- A consumer took all that was queued for it, as a batch. -/
  | took (consumer : ConsumerRef) (batch : List Event)
  /-- A consumer was through with a batch. -/
  | drained (consumer : ConsumerRef)
  /-- A handler was called with an event. -/
  | called (consumer : ConsumerRef) (who : Profile) (event : Event)
  /-- A handler performed an action and was answered. -/
  | acted (consumer : ConsumerRef) (who : Profile) (action : String) (answer : Answer)
  /-- A handler's pause was over. -/
  | slept (consumer : ConsumerRef) (who : Profile)
  /-- A handler wrote an event to the log. -/
  | reported (consumer : ConsumerRef) (event : Event)
  /-- A consumer left its loop. -/
  | stopped (consumer : ConsumerRef) (who : Profile) (exit : Exit)
  /-- A consumer ended with a panic of its handler, which its task had caught or not. -/
  | panicked (consumer : ConsumerRef) (who : Profile) (payload : Payload) (caught : Bool)
  /-- A consumer was dropped with its runtime. -/
  | lost (consumer : ConsumerRef) (who : Profile)
  deriving DecidableEq, Repr

structure Entry where
  time : Nat
  what : Happening
  deriving DecidableEq, Repr

/-- All that happened so far, the latest first. -/
abbrev Journal := List Entry

/-! ## Notes of handlers -/

/-- What a handler notes down. -/
inductive Note where
  | event (e : Event)
  | slept
  | action (word : String) (answer : Answer)
  deriving DecidableEq, Repr

namespace Happening

/-- What a handler notes down of a happening, with the name it notes it under. An answer that says
nothing is not noted. -/
def note? : Happening → Option (String × Note)
  | called _ who event => if who.takesNotes then some (who.title, .event event) else none
  | slept _ who => some (who.title, .slept)
  | acted _ who word answer =>
    if answer = .nothing then none else some (who.title, .action word answer)
  | _ => none

end Happening

namespace Journal

/-- What happened since the journal had `mark` entries, the earliest first. -/
def since (j : Journal) (mark : Nat) : List Entry :=
  (j.take (j.length - mark)).reverse

/-- The notes among some entries, with their instants, by the name they were noted under. -/
def notes (entries : List Entry) : List (String × Nat × Note) :=
  entries.filterMap fun e => e.what.note?.map fun (name, note) => (name, e.time, note)

end Journal

end EventBus
