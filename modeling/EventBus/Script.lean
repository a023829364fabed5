import EventBus.Host.Command
import EventBus.Journal.Log

/-!
# Scripts

A script is a list of commands, each with a reply and with what the log shows of it. When time has
passed or the runtime was stopped, the reply is a look around, which tells what handlers noted since
the look before.
-/

set_option autoImplicit false

namespace EventBus

/-- What there is to see of a program from outside. -/
structure View where
  now : Nat
  /-- The notes since the look before, with the names they were noted under and their instants. -/
  notes : List (String × Nat × Note)
  active : List (String × Bool)

/-- What a script is told after a command. -/
inductive Feedback where
  | reply (r : Reply)
  | view (v : View)

namespace Command

/-- Whether a look around follows the command. -/
def looksAround : Command → Bool
  | advance _ | stopRuntime => true
  | _ => false

end Command

namespace Host

/-- What is to be seen, after a look when the journal had `mark` entries. -/
def view (h : Host) (mark : Nat) : View where
  now := h.now
  notes := Journal.notes (Journal.since h.journal mark)
  active := ((h.subscriptions.map (·.1)).eraseDups).filterMap fun name =>
    (h.subscription? name).map fun c => (name, h.isActive c)

end Host

/-- A script in progress. -/
structure Session where
  host : Host
  /-- The length of the journal at the last look. -/
  seen : Nat := 0

namespace Session

def start (running : Bool) : Session := { host := .initial running }

def obey (s : Session) (command : Command) : (Feedback × List Record) × Session :=
  let (reply, host) := s.host.obey command
  let log := Journal.log (Journal.since host.journal s.host.journal.length)
  match reply, command.looksAround with
  | .answer .nothing, true => ((.view (host.view s.seen), log), ⟨host, host.journal.length⟩)
  | reply, _ => ((.reply reply, log), { s with host })

def run (s : Session) : List Command → List (Feedback × List Record)
  | [] => []
  | command :: rest =>
    let (told, s) := s.obey command
    told :: s.run rest

end Session

end EventBus
