import EventBus.Host.Clock

/-!
# Commands

What a program with buses may be told to do from outside. Only the command that lets time pass moves
tasks and loops; every other one is over at once.
-/

set_option autoImplicit false

namespace EventBus

inductive Command where
  | make (name : String) (builder : Builder) (pinned : Bool)
  | clone (source : Target) (name : String)
  | drop (name : String)
  | subscribe (target : Target) (who : Subscriber Action) (outside : Bool)
  | inspect (name : String)
  | cancel (name : String)
  | publish (target : Target) (event : Event)
  | close (target : Target)
  | count (target : Target) (type : EventType)
  | info (target : Target)
  /-- Installs a clone of a handle. -/
  | install (source : Target)
  /-- Installs the handle of that name itself, which the program has no more then. -/
  | surrender (name : String)
  | stopRuntime
  | startRuntime
  | advance (ms : Nat)

inductive Reply where
  | answer (a : Answer)
  | flag (b : Bool)
  | info (bus : Bus)
  /-- Time did not pass, as the program never came to rest. -/
  | restless

namespace Host

/-- The moves and instants that a single command may take. -/
def patience : Nat := 1000000000000

def makeBus (h : Host) (name : String) (builder : Builder) (pinned : Bool) : Host :=
  h.make name (if pinned then { builder with runtime := h.runtime } else builder).build

def cloneAs (h : Host) (source : Target) (name : String) : Answer × Host :=
  h.withBus [] source fun b h => (.nothing, h.hold name b)

def acknowledged (outcome : Except Fault Unit × Host) : Answer × Host :=
  match outcome with
  | (.ok (), h) => (.done, h)
  | (.error fault, h) => (.refused fault, h)

def installFrom (h : Host) (source : Target) : Answer × Host :=
  h.withBus [] source fun b h => acknowledged (h.install b)

def surrender (h : Host) (name : String) : Answer × Host :=
  match h.handle? name with
  | none => (.noHandle (.named name), h)
  | some b => acknowledged ({ h with handles := h.otherHandles name }.install b)

def cancelAndInspect (h : Host) (name : String) : Answer × Host :=
  let h := (h.cancelNamed name).2
  (h.inspect name, h)

def infoOf (h : Host) (target : Target) : Reply × Host :=
  let (found, h) := h.locate [] target
  match found.bind h.bus? with
  | some bus => (.info bus, h)
  | none => (.answer (.noHandle target), h)

def answered (a : Answer × Host) : Reply × Host := (.answer a.1, a.2)

def obey (h : Host) : Command → Reply × Host
  | .make name builder pinned => answered (.nothing, h.makeBus name builder pinned)
  | .clone source name => answered (h.cloneAs source name)
  | .drop name => (.flag (h.handle? name).isSome, h.drop name)
  | .subscribe target who outside =>
    answered (h.subscribeAt [] (if outside then none else h.runtime) target who)
  | .inspect name => answered (h.inspect name, h)
  | .cancel name => answered (h.cancelAndInspect name)
  | .publish target event => answered (h.publishTo [] target event)
  | .close target => answered (h.closeAt [] target)
  | .count target type => answered (h.countAt [] target type)
  | .info target => h.infoOf target
  | .install source => answered (h.installFrom source)
  | .surrender name => answered (h.surrender name)
  | .stopRuntime => answered (.nothing, h.stopRuntime)
  | .startRuntime => answered (.nothing, h.startRuntime)
  | .advance ms =>
    match h.advance patience ms with
    | some h => answered (.nothing, h)
    | none => (.restless, h)

end Host

end EventBus
