import EventBus.Host.Subscription

/-!
# Starting and stopping the runtime

Stopping drops every task and every loop: slots go, batches that are not finished are lost, and what
handlers held is let go. Buses, groups, bindings and the numbers of consumers stay. Jobs that have
begun are not dropped. Each goes on with the rest of its batch, and its handler keeps what it holds
until the job is over; what it subscribes to the runtime that is gone is dropped at once.
-/

set_option autoImplicit false

namespace EventBus

namespace Host

/-- Drops a task with its runtime. -/
def lose (h : Host) (t : Task) : Host :=
  if t.hasJob then h.leaveJob t else h.endTask t (.lost t.consumer t.handler.profile)

def stopRuntime (h : Host) : Host :=
  match h.runtime with
  | none => h
  | some r =>
    let h := { h with runtime := none, loops := h.loops.filter (·.runtime ≠ r) }
    (h.attended.filter (·.runtime = r)).foldl lose h

/-- Stops the runtime and starts a new one. -/
def startRuntime (h : Host) : Host :=
  let h := h.stopRuntime
  { h with runtime := some h.runtimes, runtimes := h.runtimes + 1 }

def initial (running : Bool) : Host :=
  if running then startRuntime {} else {}

end Host

end EventBus
