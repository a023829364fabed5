import EventBus.Host.Consumer
import EventBus.Host.Flush
import EventBus.Host.Lifetime

/-!
# The clock and the order of steps

Tasks and loops move only while time is allowed to pass. At each instant they move until none of
them can; then the clock goes on to the next instant at which one of them can. Any order of the
moves is allowed, and `move?` says what each of them does. `advance` takes a fair one: whoever
moved last goes on as long as it can, and otherwise the first in line moves.
-/

set_option autoImplicit false

namespace EventBus

/-- A step that a task or a loop may take. -/
inductive Move where
  -- A task takes its next step.
  | run (c : ConsumerRef)
  -- A task that waits ends, since its bus is shut down.
  | leave (c : ConsumerRef)
  -- A loop ticks.
  | tick (l : LoopId)
  -- A loop ends, since its bus is shut down.
  | halt (l : LoopId)
  deriving DecidableEq, Repr

inductive Mover where
  | task (c : ConsumerRef)
  | loop (l : LoopId)
  deriving DecidableEq, Repr

/-- The moves of a mover; the end comes first. -/
def Mover.moves : Mover → List Move
  | task c => [.leave c, .run c]
  | loop l => [.halt l, .tick l]

namespace Host

def move? (h : Host) : Move → Option Host
  | .run c => (h.task? c).bind h.runTask?
  | .leave c => (h.task? c).bind h.leave?
  | .tick l => (h.loop? l).bind h.tick?
  | .halt l => (h.loop? l).bind h.halt?

def movers (h : Host) : List Mover :=
  h.loops.map (.loop ·.id) ++ h.tasks.map (.task ·.consumer)

def isQuiet (h : Host) : Bool :=
  h.movers.all fun who => who.moves.all fun m => (h.move? m).isNone

/-- The state after the first possible move of those in line, and who made it. -/
def firstMove? (h : Host) (line : List Mover) : Option (Mover × Host) :=
  line.findSome? fun who => (who.moves.findSome? h.move?).map (who, ·)

/-! ## Time -/

def alarms (h : Host) : List Nat :=
  h.loops.filterMap (·.alarm?) ++ h.tasks.filterMap (·.alarm?)

/-- The next instant at which somebody moves, but not beyond `limit`. -/
def nextInstant (h : Host) (limit : Nat) : Nat :=
  (h.alarms.filter (h.now < ·)).foldl min limit

def setClock (h : Host) (instant : Nat) : Host := { h with now := instant }

/-- Lets everything up to the instant `limit` happen; `last` moved last. None when `fuel` moves and
instants were not enough. -/
def runUntil (limit : Nat) : Nat → Option Mover → Host → Option Host
  | 0, _, _ => none
  | fuel + 1, last, h =>
    match h.firstMove? (last.toList ++ h.movers) with
    | some (who, h) => runUntil limit fuel (some who) h
    | none =>
      if h.now < limit then runUntil limit fuel none (h.setClock (h.nextInstant limit))
      else some h

/-- Lets `ms` milliseconds pass, with everything that happens until then and at the last instant. -/
def advance (h : Host) (fuel ms : Nat) : Option Host :=
  runUntil (h.now + ms) fuel none h

end Host

end EventBus
