import EventBus.Event
import EventBus.Text.Numeral

/-!
# Faults

What a request to a bus may be refused for. Publishing and cancelling are never refused. Each fault
has a label for metrics, a full message and a short text.
-/

set_option autoImplicit false

namespace EventBus

open Text (Shape)

inductive Fault where
  | closed
  /-- The type is bound to the kind named `registered`, and was asked for as `want`. -/
  | conflict (type : EventType) (want registered : String)
  | noRuntime
  /-- There is a default bus already, installed or created by its first use. -/
  | alreadyInstalled
  deriving DecidableEq, Repr

namespace Fault

def label : Fault → String
  | closed => "dispatcher_closed"
  | conflict .. => "event_type_conflict"
  | noRuntime => "no_runtime"
  | alreadyInstalled => "default_already_installed"

def message : Fault → String
  | closed => "event dispatcher is closed"
  | conflict type want registered =>
    "conflicting event type, want=<" ++ want ++ ">, registered=<" ++ registered ++ ">, event="
      ++ Text.hexNumeral type.toNat
  | noRuntime => "no tokio runtime available to spawn event consumers"
  | alreadyInstalled => "default event dispatcher is already installed"

def brief : Fault → String
  | closed => "dispatcher closed"
  | conflict type want registered =>
    "event " ++ Text.hexNumeral type.toNat ++ " bound to " ++ registered ++ ", requested as "
      ++ want
  | noRuntime => "no tokio runtime"
  | alreadyInstalled => "default dispatcher already set"

/-- Whether the fault lies in how the program is wired, so that the same request fails again. -/
def isWiring : Fault → Bool
  | closed | conflict .. => true
  | noRuntime | alreadyInstalled => false

def shape : Fault → Shape
  | closed => .atom "Closed"
  | conflict type want registered =>
    .record "Conflict" [("event_type", .atom (toString type)),
      ("want", .atom (Text.quoted want)), ("registered", .atom (Text.quoted registered))]
  | noRuntime => .atom "NoRuntime"
  | alreadyInstalled => .atom "AlreadyInstalled"

end Fault

end EventBus
