import EventBus.Host.Handles

/-!
# Steps of flush loops

A loop ticks when it first runs and at each of its instants; a tick wakes the tasks of its group
that are registered, and only those. A loop ends when its bus is shut down.
-/

set_option autoImplicit false

namespace EventBus

namespace Host

def wake (h : Host) (g : GroupRef) : Host :=
  { h with tasks := h.tasks.map fun t => if t.consumer.group = g then t.wake else t }

def tick? (h : Host) (l : FlushLoop) : Option Host :=
  if l.isDue h.now then
    some (((h.setLoop (l.tick h.now)).wake l.group).note (.ticked l.id l.group))
  else none

/-- The end of a loop whose bus is shut down. -/
def halt? (h : Host) (l : FlushLoop) : Option Host :=
  if h.isDown l.group.bus then some ((h.eraseLoop l.id).note (.loopStopped l.id l.group)) else none

end Host

end EventBus
