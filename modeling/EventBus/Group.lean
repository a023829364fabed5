import EventBus.Event

/-!
# Groups of consumers

All consumers of one event type. Each has a slot with a queue of its own; `broadcast` appends an
event to the queue of every slot that is not stopped, and `take` swaps a consumer's queue for the
empty buffer that the consumer brings along. A slot is stopped before it goes: a stopped slot
receives nothing more, but keeps what it has until its consumer finds it empty.

Ids are handed out in ascending order and never twice, which the type of groups guarantees. The
view of a group is `slot?`, the slot that belongs to an id.
-/

set_option autoImplicit false

namespace EventBus

/-- Counts the consumers of a group from one. A counter of 64 bits gives the same ids as long as
fewer than `2 ^ 64` consumers were attached to the group. -/
abbrev ConsumerId := Nat

/-- Counts the flush loops that a program has started. -/
abbrev LoopId := Nat

/-- One consumer's place in its group. -/
structure Slot (α : Type) where
  id : ConsumerId
  -- The events accepted for the consumer and not yet taken, the oldest first.
  queue : List α := []
  stopped : Bool := false

namespace Slot

variable {α : Type}

/-- Appends an event to the queue of a slot, unless the slot is stopped. -/
def accept (s : Slot α) (event : α) : Slot α :=
  if s.stopped then s else { s with queue := s.queue ++ [event] }

def stop (s : Slot α) : Slot α := { s with stopped := true }

@[simp] theorem accept_id (s : Slot α) (event : α) : (s.accept event).id = s.id := by
  unfold accept; split <;> rfl

@[simp] theorem accept_stopped (s : Slot α) (event : α) :
    (s.accept event).stopped = s.stopped := by
  unfold accept; split <;> rfl

end Slot

/-- What a consumer finds when it looks at its queue. -/
inductive Take where
  -- Events: they are in the buffer now.
  | batch
  -- Nothing yet.
  | empty
  -- Nothing, and nothing will come: the slot is gone.
  | stopped
  deriving DecidableEq, Repr

structure Group (α : Type) where
  type : EventType
  -- The room that queues start with.
  capacity : Nat
  slots : List (Slot α) := []
  nextId : ConsumerId := 1
  -- The flush loop that was last started for the group.
  flusher : Option LoopId := none
  -- The ids ascend, and the next one is above them all.
  ascending : (slots.map (·.id) ++ [nextId]).Pairwise (· < ·) := by simp

namespace Group

variable {α : Type}

def slot? (g : Group α) (id : ConsumerId) : Option (Slot α) :=
  g.slots.find? (·.id == id)

def isLive (g : Group α) (id : ConsumerId) : Bool :=
  g.slots.any fun s => s.id == id && !s.stopped

def live (g : Group α) : List ConsumerId :=
  (g.slots.filter (!·.stopped)).map (·.id)

def count (g : Group α) : Nat :=
  g.slots.countP (!·.stopped)

/-! ## Operations -/

def empty (type : EventType) (capacity : Nat) : Group α := { type, capacity }

/-- Changes slots without changing their ids. -/
def mapSlots (g : Group α) (f : Slot α → Slot α) (keeps : ∀ s, (f s).id = s.id) : Group α :=
  { g with
    slots := g.slots.map f
    ascending := by simpa [Function.comp_def, keeps] using g.ascending }

/-- Changes the slot of one consumer without changing its id. -/
def modifySlot (g : Group α) (id : ConsumerId) (f : Slot α → Slot α)
    (keeps : ∀ s, (f s).id = s.id) : Group α :=
  g.mapSlots (fun s => if s.id = id then f s else s) fun s => by split <;> simp [keeps]

/-- Appends a live slot with an empty queue; its id comes with the group. -/
def attach (g : Group α) : ConsumerId × Group α :=
  (g.nextId,
    { g with
      slots := g.slots ++ [{ id := g.nextId }]
      nextId := g.nextId + 1
      ascending := by
        have h := g.ascending
        rw [List.pairwise_append] at h ⊢
        refine ⟨by simpa [List.pairwise_append] using h, by simp, fun a ha b hb => ?_⟩
        obtain rfl : b = g.nextId + 1 := by simpa using hb
        rw [List.map_append, List.mem_append] at ha
        rcases ha with ha | ha
        · exact Nat.lt_succ_of_lt (h.2.2 a ha _ (by simp))
        · exact Nat.lt_succ_of_le (Nat.le_of_eq (by simpa using ha)) })

/-- Drops the slot of a consumer and whatever is queued in it. -/
def detach (g : Group α) (id : ConsumerId) : Group α :=
  { g with
    slots := g.slots.filter (·.id ≠ id)
    ascending := g.ascending.sublist ((List.filter_sublist.map _).append_right _) }

/-- Appends an event to the queue of every live consumer. -/
def broadcast (g : Group α) (event : α) : Group α :=
  g.mapSlots (·.accept event) (·.accept_id event)

/-- Swaps a consumer's queue for `buffer`, if there is anything in it. A stopped slot that is
found empty goes. -/
def take (g : Group α) (id : ConsumerId) (buffer : List α) : Take × List α × Group α :=
  match g.slot? id with
  | none => (.stopped, buffer, g)
  | some s =>
    if s.queue.isEmpty then
      if s.stopped then (.stopped, buffer, g.detach id) else (.empty, buffer, g)
    else (.batch, s.queue, g.modifySlot id (fun s => { s with queue := buffer }) fun _ => rfl)

/-- Stops a consumer. The flag tells whether it was live. -/
def stop (g : Group α) (id : ConsumerId) : Bool × Group α :=
  (g.isLive id, g.modifySlot id Slot.stop fun _ => rfl)

end Group

end EventBus
