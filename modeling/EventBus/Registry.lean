import EventBus.Fault
import EventBus.Group

/-!
# The registry of a bus

The groups of a bus by event type. The first subscriber of a type binds it: from then on the type
belongs to that subscriber's kind and to the group made for it, and asking for the type under
another kind is a conflict. Bindings are never undone. Kinds may be of any type in which they can be
compared and named.
-/

set_option autoImplicit false

namespace EventBus

/-- Kinds that have names. A registry looks at nothing else of a kind: it compares kinds, and names
them when it refuses one. -/
class Named (κ : Type) where
  name : κ → String

instance : Named Kind := ⟨Kind.name⟩

/-- A type that is bound, to a kind and a group. -/
structure Binding (κ : Type := Kind) where
  type : EventType
  kind : κ
  group : Group Event

structure Registry (κ : Type := Kind) where
  bindings : List (Binding κ) := []
  /-- No type is bound twice. -/
  distinct : (bindings.map (·.type)).Nodup := by simp

variable {κ : Type} [DecidableEq κ] [Named κ]

/-- The group of a binding, if the binding is for `kind`. -/
def Binding.groupFor (b : Binding κ) (kind : κ) : Except Fault (Group Event) :=
  if b.kind = kind then .ok b.group
  else .error (.conflict b.type (Named.name kind) (Named.name b.kind))

namespace Registry

def empty : Registry κ := {}

def binding? (r : Registry κ) (type : EventType) : Option (Binding κ) :=
  r.bindings.find? (·.type == type)

def group? (r : Registry κ) (type : EventType) : Option (Group Event) :=
  (r.binding? type).map (·.group)

/-- The group of a type as a group of `kind`: none if the type is not bound, and a conflict if it
is bound to another kind. -/
def get? (r : Registry κ) (type : EventType) (kind : κ) :
    Option (Except Fault (Group Event)) :=
  (r.binding? type).map (·.groupFor kind)

theorem get?_eq_none_iff {r : Registry κ} {type : EventType} {kind : κ} :
    r.get? type kind = none ↔ r.binding? type = none := by
  simp [get?]

def add (r : Registry κ) (b : Binding κ) (fresh : r.binding? b.type = none) : Registry κ where
  bindings := r.bindings ++ [b]
  distinct := by
    have := r.distinct
    simp only [binding?, List.find?_eq_none, beq_iff_eq] at fresh
    simp only [List.map_append, List.map_cons, List.map_nil, List.nodup_append]
    grind

/-- The group of a type as a group of `kind`, made by `make` if the type is not bound. The flag
tells whether this call made it. -/
def getOrCreate {m : Type → Type} [Monad m] (r : Registry κ) (type : EventType) (kind : κ)
    (make : m (Group Event)) : m (Except Fault (Group Event × Bool × Registry κ)) :=
  match h : r.get? type kind with
  | some found => return found.map fun group => (group, false, r)
  | none => do
    let group ← make
    return .ok (group, true, r.add ⟨type, kind, group⟩ (get?_eq_none_iff.1 h))

def modifyGroup (r : Registry κ) (type : EventType) (f : Group Event → Group Event) :
    Registry κ where
  bindings := r.bindings.map fun b => if b.type = type then { b with group := f b.group } else b
  distinct := by
    have h : (fun b : Binding κ =>
        (if b.type = type then { b with group := f b.group } else b).type) = (·.type) := by
      funext b; split <;> rfl
    simpa [Function.comp_def, h] using r.distinct

def count (r : Registry κ) (type : EventType) : Nat :=
  ((r.group? type).map Group.count).getD 0

def size (r : Registry κ) : Nat := r.bindings.length

/-- The place of a type in the order in which types were bound. -/
def index? (r : Registry κ) (type : EventType) : Option Nat :=
  r.bindings.findIdx? (·.type == type)

end Registry

end EventBus
