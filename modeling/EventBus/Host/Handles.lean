import EventBus.Host

/-!
# Handles

A bus is held by the names of the program, by the default, and by the handlers of consumers that
have not ended or have left a job. When the last of these lets go, the bus is shut down; it is not
closed by that. Only `release` lets go, so every operation that gives a handle up ends with it.
-/

set_option autoImplicit false

namespace EventBus

namespace Host

/-! ## Holding and letting go -/

def isHeld (h : Host) (b : BusId) : Bool :=
  h.handles.any (·.2 == b) || h.preset == some b ||
    h.tasks.any fun t => t.held.any (·.2 == b)

/-- Shuts down a bus that nobody holds any more. -/
def abandon (h : Host) (b : BusId) : Host :=
  h.modifyBus b (·.abandon)

/-- A handle to each of these buses is gone: those that nobody holds any more are shut down. -/
def release (h : Host) (gone : List BusId) : Host :=
  gone.foldl (fun h b => if h.isHeld b then h else h.abandon b) h

/-! ## Names -/

def handle? (h : Host) (name : String) : Option BusId := h.handles.lookup name

def otherHandles (h : Host) (name : String) : List (String × BusId) :=
  h.handles.filter (·.1 ≠ name)

def hold (h : Host) (name : String) (b : BusId) : Host :=
  { h with handles := (name, b) :: h.otherHandles name }.release (h.handle? name).toList

def drop (h : Host) (name : String) : Host :=
  { h with handles := h.otherHandles name }.release (h.handle? name).toList

def addBus (h : Host) (bus : Bus) : BusId × Host :=
  (h.buses.length, { h with buses := h.buses ++ [bus] })

def make (h : Host) (name : String) (bus : Bus) : Host :=
  let (b, h) := h.addBus bus
  h.hold name b

/-! ## The default bus -/

/-- The default bus. Its first use makes one with the default configuration. -/
def useDefault (h : Host) : BusId × Host :=
  match h.preset with
  | some b => (b, h)
  | none =>
    let (b, h) := h.addBus {}
    (b, { h with preset := some b })

/-- Makes a bus the default one, by a handle that is given away for that. When there is a default
bus already the handle is dropped, which shuts the bus down if it was the last. -/
def install (h : Host) (b : BusId) : Except Fault Unit × Host :=
  match h.preset with
  | some _ => (.error .alreadyInstalled, h.release [b])
  | none => (.ok (), { h with preset := some b })

/-! ## Finding a bus -/

/-- The bus that a target means, for somebody who holds `own`: the one held for that target, or else
the program's. -/
def locate (h : Host) (own : List (Target × BusId)) (target : Target) : Option BusId × Host :=
  match own.lookup target with
  | some b => (some b, h)
  | none =>
    match target with
    | .named name => (h.handle? name, h)
    | .default =>
      let (b, h) := h.useDefault
      (some b, h)

/-- The handles for a list of targets; those that mean no bus are left out. -/
def locateAll (h : Host) (own : List (Target × BusId)) :
    List Target → List (Target × BusId) × Host
  | [] => ([], h)
  | target :: rest =>
    let (found, h) := h.locate own target
    let (handles, h) := h.locateAll own rest
    ((found.map (target, ·)).toList ++ handles, h)

/-- Answers with what `f` makes of the bus that a target means. -/
def withBus (h : Host) (own : List (Target × BusId)) (target : Target)
    (f : BusId → Host → Answer × Host) : Answer × Host :=
  match h.locate own target with
  | (some b, h) => f b h
  | (none, h) => (.noHandle target, h)

end Host

end EventBus
