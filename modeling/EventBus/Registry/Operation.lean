import EventBus.Registry

/-!
# Operations on a registry

A registry on its own, without a bus around it: one operation after the other, each with what it
gives back. A group is made through a counter, so that it shows whether one was made.
-/

set_option autoImplicit false

namespace EventBus

namespace Registry

inductive Operation (κ : Type := Kind) where
  | getOrCreate (type : EventType) (kind : κ) (capacity : Nat)
  | get (type : EventType) (kind : κ)
  | attach (type : EventType) (kind : κ)
  | stop (type : EventType) (kind : κ) (id : ConsumerId)
  | detach (type : EventType) (kind : κ) (id : ConsumerId)
  | count (type : EventType)
  deriving DecidableEq, Repr

inductive Outcome where
  /-- The type is not bound. -/
  | nothing
  | refused (fault : Fault)
  /-- The group, whether it was created, and how many groups were made for it; `which` is the place
  of its type in the order of binding. -/
  | placed (created : Bool) (made : Nat) (which : Nat) (group : Group Event)
  | found (which : Nat) (group : Group Event)
  | id (id : ConsumerId)
  | flag (b : Bool)
  | done
  | count (n : Nat)

variable {κ : Type} [DecidableEq κ] [Named κ]

def making (type : EventType) (capacity : Nat) : StateM Nat (Group Event) := do
  modify (· + 1)
  return .empty type capacity

def place (r : Registry κ) (type : EventType) : Nat := (r.index? type).getD r.size

/-- Does something with the group of a type, if it is one of `kind`. -/
def withGroup (r : Registry κ) (type : EventType) (kind : κ)
    (f : Group Event → Outcome × Group Event) : Outcome × Registry κ :=
  match r.get? type kind with
  | none => (.nothing, r)
  | some (.error fault) => (.refused fault, r)
  | some (.ok group) =>
    let (outcome, group) := f group
    (outcome, r.modifyGroup type fun _ => group)

def operate (r : Registry κ) : Operation κ → Outcome × Registry κ
  | .getOrCreate type kind capacity =>
    match (r.getOrCreate type kind (making type capacity)).run 0 with
    | (.error fault, _) => (.refused fault, r)
    | (.ok (group, created, r), made) => (.placed created made (r.place type) group, r)
  | .get type kind => r.withGroup type kind fun group => (.found (r.place type) group, group)
  | .attach type kind =>
    r.withGroup type kind fun group => let (id, group) := group.attach; (.id id, group)
  | .stop type kind id =>
    r.withGroup type kind fun group => let (live, group) := group.stop id; (.flag live, group)
  | .detach type kind id => r.withGroup type kind fun group => (.done, group.detach id)
  | .count type => (.count (r.count type), r)

/-- Performs operations in turn. Each outcome comes with the registry after the operation. -/
def run (r : Registry κ) : List (Operation κ) → List (Outcome × Registry κ)
  | [] => []
  | op :: rest =>
    let (outcome, r) := r.operate op
    (outcome, r) :: r.run rest

end Registry

end EventBus
