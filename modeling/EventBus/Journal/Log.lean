import EventBus.Journal

/-!
# The log

The log shows what an operator needs to know of a journal: the lifecycle of flush loops and
consumers, and every event that was dropped. A record has a level, a message and labelled fields.
-/

set_option autoImplicit false

namespace EventBus

inductive Level where
  | trace
  | debug
  | info
  | warn
  | error
  deriving DecidableEq, Repr

namespace Level

def text : Level → String
  | trace => "TRACE"
  | debug => "DEBUG"
  | info => "INFO"
  | warn => "WARN"
  | error => "ERROR"

end Level

inductive Field where
  | number (n : Nat)
  | flag (b : Bool)
  | text (s : String)
  deriving DecidableEq, Repr

structure Record where
  level : Level
  message : String
  fields : List (String × Field)
  deriving DecidableEq, Repr

namespace Record

def ofType (type : EventType) : String × Field :=
  ("event_type", .number type.toNat)

def ofConsumer (c : ConsumerRef) : List (String × Field) :=
  [ofType c.group.type, ("consumer", .number c.id)]

def ofHandler (c : ConsumerRef) (who : Profile) : List (String × Field) :=
  ofConsumer c ++ [("handler", .text who.name)]

end Record

namespace Publication

def record? (type : EventType) : Publication → Option Record
  | accepted => none
  | late => some ⟨.trace, "dispatcher closed; event dropped", [Record.ofType type]⟩
  | unheard => some ⟨.trace, "no subscribers; event dropped", [Record.ofType type]⟩
  | misrouted fault => some ⟨.warn, "event dropped", [("error", .text fault.message)]⟩

end Publication

namespace Happening

def record? : Happening → Option Record
  | published _ event fate => fate.record? event.type
  | closed _ groups => some ⟨.debug, "event dispatcher closed", [("groups", .number groups)]⟩
  | rejected _ fault => some ⟨.warn, "subscription rejected", [("error", .text fault.message)]⟩
  | loopStarted _ group kind interval created =>
    some ⟨.debug, "group flush loop started",
      [Record.ofType group.type, ("kind", .text kind.name),
        ("flush_interval", .text interval.text), ("created", .flag created)]⟩
  | loopStopped _ group => some ⟨.debug, "group flush loop stopped", [Record.ofType group.type]⟩
  | ticked .. => none
  | subscribed c _ who => some ⟨.debug, "subscribed", Record.ofHandler c who⟩
  | unsubscribed c => some ⟨.debug, "unsubscribed", Record.ofConsumer c⟩
  | registered _ => none
  | took .. => none
  | drained _ => none
  | called .. => none
  | acted .. => none
  | slept .. => none
  | reported _ event =>
    some ⟨.info, "event delivered",
      [Record.ofType event.type, ("event", .text event.shape.text)]⟩
  | stopped c who _ => some ⟨.debug, "consumer stopped", Record.ofHandler c who⟩
  | panicked c who payload caught =>
    if caught then
      some ⟨.error, "event handler panicked; consumer detached",
        Record.ofHandler c who ++ [("panic", .text payload.message)]⟩
    else none
  | lost .. => none

end Happening

def Journal.log (entries : List Entry) : List Record :=
  entries.filterMap (·.what.record?)

end EventBus
