import EventBus.Bus

/-!
# Targets and answers

How the requests of a program name buses and consumers, and what they are answered with.
-/

set_option autoImplicit false

namespace EventBus

inductive Target where
  | named (name : String)
  /-- The default bus of the program, created by its first use. -/
  | default
  deriving DecidableEq, Repr

abbrev BusId := Nat

/-- A group of a bus. -/
@[ext]
structure GroupRef where
  bus : BusId
  type : EventType
  deriving DecidableEq, Repr

/-- A consumer of a group, which is also what a subscription refers to. -/
@[ext]
structure ConsumerRef where
  group : GroupRef
  id : ConsumerId
  deriving DecidableEq, Repr

/-- How a subscription is shown. -/
def ConsumerRef.shape (c : ConsumerRef) : Text.Shape :=
  .record "Subscription"
    [("event_type", .atom (toString c.group.type)), ("consumer", .atom (toString c.id))]

/-- What a request to a bus is answered with. -/
inductive Answer where
  | nothing
  | done
  | count (n : Nat)
  | subscription (consumer : ConsumerRef) (active : Bool)
  | refused (fault : Fault)
  /-- The request was fatal. -/
  | fatal (message : String)
  /-- The target means no bus. -/
  | noHandle (target : Target)
  /-- There is no subscription of that name. -/
  | noSubscription (name : String)
  deriving DecidableEq, Repr

end EventBus
