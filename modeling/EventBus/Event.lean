import EventBus.Text.Quoted
import EventBus.Text.Layout

/-!
# Events

An event is a value of one of a few kinds. A kind has a name and a number, its type; an event is
routed by a number of its own, which is the number of its kind unless the event says otherwise.
Two kinds may have the same number, and then compete for it.
-/

set_option autoImplicit false

namespace EventBus

open Text (Shape)

/-- The number that events are routed by. -/
abbrev EventType := UInt32

/-- The kinds of events that a program may publish. -/
inductive Kind where
  | int
  | seven
  | text
  | edge
  | orphan
  | tagged
  | framework
  deriving DecidableEq, Repr

namespace Kind

def name : Kind → String
  | int => "evbus::kinds::Int"
  | seven => "evbus::kinds::Seven"
  | text => "evbus::kinds::Text"
  | edge => "evbus::kinds::Edge"
  | orphan => "evbus::kinds::Orphan"
  | tagged => "evbus::kinds::Tagged"
  | framework => "evbus::events::event::FrameworkEvent"

/-- The number under which a kind is subscribed to by default. -/
def type : Kind → EventType
  | int => 42
  | seven => 7
  | text => 7
  | edge => 4294967295
  | orphan => 99
  | tagged => 100
  | framework => 0

end Kind

/-- What the hosting framework announces about itself. -/
inductive Lifecycle where
  | started
  | stopping
  deriving DecidableEq, Repr

namespace Lifecycle

def label : Lifecycle → String
  | started => "framework_started"
  | stopping => "framework_stopping"

end Lifecycle

inductive Event where
  | int (n : Int)
  | seven (n : UInt8)
  | text (s : String)
  | edge (n : Int)
  | orphan
  | tagged (tag : EventType) (n : Int)
  | framework (phase : Lifecycle)
  deriving DecidableEq, Repr

namespace Event

def kind : Event → Kind
  | int _ => .int
  | seven _ => .seven
  | text _ => .text
  | edge _ => .edge
  | orphan => .orphan
  | tagged .. => .tagged
  | framework _ => .framework

/-- The number an event is routed by: its tag if it carries one, else the number of its kind. -/
def type : Event → EventType
  | tagged tag _ => tag
  | e => e.kind.type

def number? : Event → Option Int
  | int n => some n
  | seven n => some n.toNat
  | edge n => some n
  | _ => none

def shape : Event → Shape
  | int n => .tuple "Int" [.atom (toString n)]
  | seven n => .tuple "Seven" [.atom (toString n)]
  | text s => .tuple "Text" [.atom (Text.quoted s)]
  | edge n => .tuple "Edge" [.atom (toString n)]
  | orphan => .atom "Orphan"
  | tagged tag n => .record "Tagged" [("tag", .atom (toString tag)), ("n", .atom (toString n))]
  | framework .started => .atom "Started"
  | framework .stopping => .atom "Stopping"

end Event

end EventBus
