import EventBus.Config
import EventBus.Registry

/-!
# Buses

A bus routes events to the groups of its registry. This module holds what a bus is and what
publishing, closing and joining do to it alone; consumers, flush loops and handles belong to the
program around it.
-/

set_option autoImplicit false

namespace EventBus

open Text (Shape)

/-- Counts the runtimes that a program has started. -/
abbrev RuntimeId := Nat

/-- How far a bus is in its life. It is shut down from the moment at which it is no longer active:
flush loops end, and so does every consumer that waits. -/
inductive Stage where
  | active
  -- Nobody holds the bus any more.
  | abandoned
  | closed
  deriving DecidableEq, Repr

structure Bus where
  config : Config := {}
  -- The runtime that consumers are put on, if it was fixed when the bus was made.
  pinned : Option RuntimeId := none
  registry : Registry := .empty
  stage : Stage := .active

inductive Publication where
  -- It was appended to the queue of every live consumer of its group.
  | accepted
  -- It was dropped, since the bus is closed.
  | late
  -- It was dropped, since nobody ever subscribed to its type.
  | unheard
  -- It was dropped, since its type is bound to another kind.
  | misrouted (fault : Fault)
  deriving DecidableEq, Repr

/-- Where a new consumer goes. -/
structure Placement where
  runtime : RuntimeId
  -- The group as it is before the consumer is attached.
  group : Group Event
  -- Whether the group was made for this consumer.
  created : Bool
  registry : Registry

namespace Bus

def isClosed (b : Bus) : Bool := b.stage = .closed

/-- Whether the shutdown signal of the bus was given. -/
def isDown (b : Bus) : Bool := b.stage ≠ .active

/-- Queues an event for every live consumer of its type. -/
def publish (b : Bus) (event : Event) : Publication × Bus :=
  if b.isClosed then (.late, b)
  else
    match b.registry.get? event.type event.kind with
    | none => (.unheard, b)
    | some (.error fault) => (.misrouted fault, b)
    | some (.ok _) =>
      (.accepted, { b with registry := b.registry.modifyGroup event.type (·.broadcast event) })

/-- Closes the bus, once. -/
def close (b : Bus) : Except Fault Bus :=
  if b.isClosed then .error .closed else .ok { b with stage := .closed }

/-- Shuts the bus down, since nobody holds it any more. A closed bus is shut down already. -/
def abandon (b : Bus) : Bus :=
  if b.isDown then b else { b with stage := .abandoned }

def newGroup (b : Bus) (type : EventType) : Group Event :=
  .empty type b.config.queueCapacityClamped

/-- The place for a consumer of `kind` under `type`, asked for where `context` is the current
runtime. The three ways to be refused are tried in this order. -/
def place (b : Bus) (context : Option RuntimeId) (type : EventType) (kind : Kind) :
    Except Fault Placement :=
  if b.isClosed then .error .closed
  else
    match b.pinned.or context with
    | none => .error .noRuntime
    | some runtime =>
      (Id.run (b.registry.getOrCreate type kind (pure (b.newGroup type)))).map
        fun (group, created, registry) => { runtime, group, created, registry }

def count (b : Bus) (type : EventType) : Nat := b.registry.count type

def flushInterval (b : Bus) : Duration := b.config.flushIntervalClamped

def shape (b : Bus) : Shape :=
  .record "Dispatcher" [("flush_interval", .atom b.flushInterval.text),
    ("groups", .atom (toString b.registry.size)), ("closed", .atom (toString b.isClosed))]

end Bus

/-- The settings of a bus that is not made yet. -/
structure Builder where
  config : Config := {}
  runtime : Option RuntimeId := none
  deriving DecidableEq, Repr

namespace Builder

def flushInterval (b : Builder) (interval : Duration) : Builder :=
  { b with config := { b.config with flushInterval := interval } }

def queueCapacity (b : Builder) (capacity : Nat) : Builder :=
  { b with config := { b.config with queueCapacity := capacity } }

def pin (b : Builder) (runtime : RuntimeId) : Builder :=
  { b with runtime := some runtime }

def build (b : Builder) : Bus := { config := b.config, pinned := b.runtime }

def shape (b : Builder) : Shape :=
  .record "DispatcherBuilder" [("cfg", b.config.shape),
    ("runtime", match b.runtime with
      | none => .atom "None"
      | some r => .tuple "Some" [.atom (toString r)])]

end Builder

end EventBus
