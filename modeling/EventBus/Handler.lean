import EventBus.Answer

/-!
# Handlers

What a program hands over when it subscribes: a handler with a name, a style of being run, and for
each event the list of actions that it performs. Among the actions are those of a program itself, so
a handler may publish to any bus, cancel, close and subscribe further handlers. It may also ask how
many subscriptions there are, or whether one is active, and go on as it is answered.
-/

set_option autoImplicit false

namespace EventBus

inductive Style where
  /-- In the consumer's own task; it may pause. -/
  | async
  /-- A batch at a time, in a job beside the consumer's task. -/
  | blocking
  /-- As `blocking`, for a plain function without a name. -/
  | closure
  /-- In the consumer's own task; it writes each event to the log and does nothing else. -/
  | logging
  deriving DecidableEq, Repr

/-- Who a handler is: the name that its program gave it, and its style. -/
structure Profile where
  title : String
  style : Style
  deriving DecidableEq, Repr

namespace Profile

def name (p : Profile) : String :=
  match p.style with
  | .async | .blocking => p.title
  | .closure => "closure"
  | .logging => "log-writer"

def isBlocking (p : Profile) : Bool :=
  match p.style with
  | .blocking | .closure => true
  | .async | .logging => false

def takesNotes (p : Profile) : Bool :=
  p.style ≠ .logging

end Profile

/-- A handler, with actions of type `α`. -/
structure Handler (α : Type) where
  profile : Profile
  react : Event → List α

/-- A handler on its way to a bus, with actions of type `α`. -/
structure Subscriber (α : Type) where
  handler : Handler α
  kind : Kind
  /-- The type to subscribe under, if it is not that of the kind. -/
  under : Option EventType := none
  /-- Whether a refusal is fatal instead of an answer. -/
  fatal : Bool := false
  /-- The buses that the handler holds on to as long as it lives. -/
  hold : List Target := []

namespace Subscriber

def type {α : Type} (s : Subscriber α) : EventType := s.under.getD s.kind.type

end Subscriber

/-- What a handler panics with. -/
inductive Payload where
  | literal (text : String)
  /-- A text made on the spot. -/
  | composed (text : String)
  /-- Something that is no text. -/
  | number (n : Int)
  deriving DecidableEq, Repr

namespace Payload

def message : Payload → String
  | literal text => text
  | composed text => text
  | number _ => "unknown panic"

end Payload

/-- What a handler may ask in order to decide how it goes on. -/
inductive Question where
  /-- How many active subscriptions a bus has for a type. -/
  | count (target : Target) (type : EventType)
  /-- Whether the subscription of that name is active. -/
  | status (name : String)
  deriving DecidableEq, Repr

/-- One thing that a handler does. -/
inductive Action where
  | publish (target : Target) (event : Event)
  | countdown (target : Target)
  | cancel (name : String)
  | close (target : Target)
  | count (target : Target) (type : EventType)
  /-- Asks, and leaves out as many of the actions that follow as `skip` says for the answer. -/
  | consult (question : Question) (skip : Answer → Nat)
  | subscribe (target : Target) (who : Subscriber Action)
  | sleep (ms : Nat)
  /-- It is `early` if it comes before the call has returned its future, and so before any pause.
  The body of an `async fn` runs when its future does, so a handler written as one does not do
  that. -/
  | panic (payload : Payload) (early : Bool := false)
  | report

def Question.word : Question → String
  | count .. => "count"
  | status _ => "status"

namespace Action

def word : Action → String
  | publish .. => "publish"
  | countdown _ => "countdown"
  | cancel _ => "cancel"
  | close _ => "close"
  | count .. => "count"
  | consult question _ => question.word
  | subscribe .. => "subscribe"
  | sleep _ => "sleep"
  | panic .. => "panic"
  | report => "report"

/-- Whether what the handler does next depends on an answer. -/
def asks : Action → Bool
  | consult .. => true
  | _ => false

def isPanic : Action → Bool
  | panic .. => true
  | _ => false

/-- Whether an action is a panic before the call has returned its future. -/
def isEarly : Action → Bool
  | panic _ early => early
  | _ => false

end Action

/-- An action that is performed on every event, or only on those listed. -/
structure Reaction where
  only : Option (List Event) := none
  action : Action

namespace Reaction

def applies (r : Reaction) (event : Event) : Bool :=
  match r.only with
  | none => true
  | some events => events.contains event

end Reaction

namespace Handler

/-- Whether all that the handler does is done by the futures that its calls return, as the body of
an `async fn` is. -/
def Deferred (handler : Handler Action) : Prop :=
  ∀ event, ∀ a ∈ handler.react event, a.isEarly = false

/-- A handler made of reactions: on an event it performs those that apply, in order. -/
def ofReactions (profile : Profile) (reactions : List Reaction) : Handler Action where
  profile
  react event := (reactions.filter (·.applies event)).map (·.action)

/-- The handler that writes every event to the log. -/
def logWriter (title : String) : Handler Action where
  profile := ⟨title, .logging⟩
  react _ := [.report]

end Handler

end EventBus
