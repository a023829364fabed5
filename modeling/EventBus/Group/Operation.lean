import EventBus.Group

/-!
# Operations on a group

A group of integer events on its own, without a bus or tasks around it: one operation after the
other, each with what it gives back.
-/

set_option autoImplicit false

namespace EventBus

namespace Group

inductive Operation where
  | attach
  | broadcast (n : Int)
  /-- A look at the queue of a consumer, with an empty buffer. -/
  | take (id : ConsumerId)
  | stop (id : ConsumerId)
  | detach (id : ConsumerId)
  | isLive (id : ConsumerId)
  | info
  | isOf (kind : Kind)
  deriving DecidableEq, Repr

inductive Outcome where
  | nothing
  | id (id : ConsumerId)
  | flag (b : Bool)
  | taken (found : Take) (events : List Int)
  | info (type : EventType) (capacity : Nat)
  deriving DecidableEq, Repr

def operate (g : Group Int) : Operation → Outcome × Group Int
  | .attach => let (id, g) := g.attach; (.id id, g)
  | .broadcast n => (.nothing, g.broadcast n)
  | .take id => let (found, events, g) := g.take id []; (.taken found events, g)
  | .stop id => let (live, g) := g.stop id; (.flag live, g)
  | .detach id => (.nothing, g.detach id)
  | .isLive id => (.flag (g.isLive id), g)
  | .info => (.info g.type g.capacity, g)
  | .isOf kind => (.flag (kind = .int), g)

/-- Performs operations in turn. Each outcome comes with the group after the operation. -/
def run (g : Group Int) : List Operation → List (Outcome × Group Int)
  | [] => []
  | op :: rest =>
    let (outcome, g) := g.operate op
    (outcome, g) :: g.run rest

end Group

end EventBus
