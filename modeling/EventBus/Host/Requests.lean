import EventBus.Host.Subscription

/-!
# Requests

What a program, or a handler of it, may ask of its buses. A request names the bus by a target and is
answered; `own` are the handles of the one who asks.
-/

set_option autoImplicit false

namespace EventBus

namespace Host

variable (h : Host) (own : List (Target × BusId))

/-! ## On a bus -/

def publish (b : BusId) (event : Event) : Host :=
  match h.bus? b with
  | none => h
  | some bus =>
    let (fate, bus) := bus.publish event
    (h.modifyBus b fun _ => bus).note (.published b event fate)

def close (b : BusId) : Except Fault Host :=
  match h.bus? b with
  | none => .error .closed
  | some bus =>
    bus.close.map fun closed =>
      (h.modifyBus b fun _ => closed).note (.closed b bus.registry.size)

def count (b : BusId) (type : EventType) : Nat :=
  ((h.bus? b).map (·.count type)).getD 0

/-! ## On a target -/

def publishTo (target : Target) (event : Event) : Answer × Host :=
  h.withBus own target fun b h => (.nothing, h.publish b event)

/-- Publishes the integer below that of `event`, if it is above zero. -/
def countdownTo (target : Target) (event : Event) : Answer × Host :=
  h.withBus own target fun b h =>
    match event.number? with
    | some n => (.nothing, if 0 < n then h.publish b (.int (n - 1)) else h)
    | none => (.nothing, h)

def closeAt (target : Target) : Answer × Host :=
  h.withBus own target fun b h =>
    match h.close b with
    | .ok h => (.done, h)
    | .error fault => (.refused fault, h)

def countAt (target : Target) (type : EventType) : Answer × Host :=
  h.withBus own target fun b h => (.count (h.count b type), h)

/-- Subscribes a handler, and binds its title to the subscription. -/
def subscribeAt (context : Option RuntimeId) (target : Target) (who : Subscriber Action) :
    Answer × Host :=
  h.withBus own target fun b h =>
    let (held, h) := h.locateAll own who.hold
    match h.subscribe b context who held with
    | (.ok c, h) => (h.describe c, h.bind who.handler.profile.title c)
    | (.error fault, h) => (if who.fatal then .fatal fault.message else .refused fault, h)

def cancelNamed (name : String) : Answer × Host :=
  match h.subscription? name with
  | none => (.noSubscription name, h)
  | some c => (.nothing, h.cancel c)

def inspect (name : String) : Answer :=
  match h.subscription? name with
  | some c => h.describe c
  | none => .noSubscription name

def ask : Question → Answer × Host
  | .count target type => h.countAt own target type
  | .status name => (h.inspect name, h)

end Host

end EventBus
