import EventBus.FlushLoop
import EventBus.Task

/-!
# The state of a program with buses

A program holds buses by name, may have a default bus and a runtime, and has bound names to
subscriptions. The runtime carries a task for each consumer and a loop for each group. Time is the
number of milliseconds since the start.

Buses stay in the state for good, since a subscription outlives the last handle to its bus; a bus is
known by its place in the order of creation.
-/

set_option autoImplicit false

namespace EventBus

structure Host where
  now : Nat := 0
  runtime : Option RuntimeId := none
  runtimes : RuntimeId := 0
  buses : List Bus := []
  handles : List (String × BusId) := []
  /-- The default bus, once it is fixed. -/
  preset : Option BusId := none
  /-- The subscriptions by name; a later one of the same name comes first. -/
  subscriptions : List (String × ConsumerRef) := []
  /-- The consumers whose tasks have not ended, and those whose tasks have left a job. -/
  tasks : List Task := []
  /-- The flush loops that have not ended. -/
  loops : List FlushLoop := []
  loopsStarted : LoopId := 0
  journal : Journal := []

namespace Host

/-! ## Buses and groups -/

def bus? (h : Host) (b : BusId) : Option Bus := h.buses[b]?

def modifyBus (h : Host) (b : BusId) (f : Bus → Bus) : Host :=
  { h with buses := h.buses.modify b f }

def group? (h : Host) (g : GroupRef) : Option (Group Event) :=
  (h.bus? g.bus).bind fun bus => bus.registry.group? g.type

def modifyGroup (h : Host) (g : GroupRef) (f : Group Event → Group Event) : Host :=
  h.modifyBus g.bus fun bus => { bus with registry := bus.registry.modifyGroup g.type f }

def isDown (h : Host) (b : BusId) : Bool :=
  ((h.bus? b).map (·.isDown)).getD true

/-! ## Tasks and loops -/

/-- The tasks that have not ended, without the jobs that others have left. -/
def attended (h : Host) : List Task := h.tasks.filter (!·.orphaned)

def task? (h : Host) (c : ConsumerRef) : Option Task :=
  h.tasks.find? (·.consumer = c)

def setTask (h : Host) (t : Task) : Host :=
  { h with tasks := h.tasks.map fun s => if s.consumer = t.consumer then t else s }

def eraseTask (h : Host) (c : ConsumerRef) : Host :=
  { h with tasks := h.tasks.filter (·.consumer ≠ c) }

def loop? (h : Host) (l : LoopId) : Option FlushLoop :=
  h.loops.find? (·.id = l)

def setLoop (h : Host) (l : FlushLoop) : Host :=
  { h with loops := h.loops.map fun s => if s.id = l.id then l else s }

def eraseLoop (h : Host) (l : LoopId) : Host :=
  { h with loops := h.loops.filter (·.id ≠ l) }

/-! ## The journal -/

def note (h : Host) (what : Happening) : Host :=
  { h with journal := ⟨h.now, what⟩ :: h.journal }

end Host

end EventBus
