import EventBus.Journal

/-!
# What the journal tells of a consumer

Statements about a run refer to what happened, and what happened is in the journal. Here is what
they read off it for one consumer: what it subscribed for, whether it was cancelled and whether it
ended, which events it is owed, which ones it took from its queue, and which ones its handler was
called with.

What a consumer is owed is its *window*: the events of its kind and type that were published on its
bus while the bus was not closed, after the consumer subscribed, and before it was cancelled or
ended. It is read off the entries of the requests, not off what became of a published event. A
publication is entered whenever its bus is there, and the end of a subscription or of a bus when a
request brings it about.
-/

set_option autoImplicit false

namespace EventBus

namespace Happening

/-- With which kind `c` subscribed by this, if it did. -/
def subscribes? (c : ConsumerRef) : Happening → Option Kind
  | subscribed d kind _ => if d = c then some kind else none
  | _ => none

/-- The event that is published by this, if it is one of the group's type on the group's bus. -/
def publishes? (g : GroupRef) : Happening → Option Event
  | published bus event _ => if ⟨bus, event.type⟩ = g then some event else none
  | _ => none

/-- Whether a bus was closed by a request. To be shut down with its last handle is nothing of that.
-/
def closes (b : BusId) : Happening → Bool
  | closed bus _ => bus = b
  | _ => false

def cancels (c : ConsumerRef) : Happening → Bool
  | unsubscribed d => d = c
  | _ => false

/-- The three ways in which a task ends: by itself, by a panic, or with its runtime. -/
def ends (c : ConsumerRef) : Happening → Bool
  | stopped d .. | panicked d .. | lost d _ => d = c
  | _ => false

/-- Whether the task of `c` fails or is dropped by this. -/
def fails (c : ConsumerRef) : Happening → Bool
  | panicked d .. | lost d _ => d = c
  | _ => false

/-- How a task ended, if it ended by itself and without a panic. -/
def exits? (c : ConsumerRef) : Happening → Option Exit
  | stopped d _ exit => if d = c then some exit else none
  | _ => none

/-- The batch that a consumer took. -/
def takes? (c : ConsumerRef) : Happening → Option (List Event)
  | took d batch => if d = c then some batch else none
  | _ => none

/-- The event that a handler was called with. -/
def calls? (c : ConsumerRef) : Happening → Option Event
  | called d _ event => if d = c then some event else none
  | _ => none

def registers (c : ConsumerRef) : Happening → Bool
  | registered d => d = c
  | _ => false

def drains (c : ConsumerRef) : Happening → Bool
  | drained d => d = c
  | _ => false

def ticks (g : GroupRef) : Happening → Bool
  | ticked _ group => group = g
  | _ => false

def ticker? : Happening → Option LoopId
  | ticked l _ => some l
  | _ => none

/-- Whether there is anything in this for `c`. -/
def concerns (c : ConsumerRef) : Happening → Bool
  | published bus event _ => ⟨bus, event.type⟩ = c.group
  | closed bus _ => bus = c.group.bus
  | ticked _ group => group = c.group
  | subscribed d .. | unsubscribed d | registered d | took d _ | drained d | called d .. |
    stopped d .. | panicked d .. | lost d _ => d = c
  | _ => false

end Happening

namespace Journal

variable (j : Journal) (c : ConsumerRef)

def subscribed? : Option Kind := j.findSome? (·.what.subscribes? c)

def hasClosed (b : BusId) : Bool := j.any (·.what.closes b)

def hasCancelled : Bool := j.any (·.what.cancels c)

/-- Whether a consumer ended, so that its slot is gone. -/
def hasEnded : Bool := j.any (·.what.ends c)

/-- Whether the handler of a consumer panicked, or its runtime went away. -/
def hasFailed : Bool := j.any (·.what.fails c)

def exit? : Option Exit := j.findSome? (·.what.exits? c)

/-- Whether a consumer is owed what is published now under its type and as `kind`. -/
def awaits (kind : Kind) : Bool :=
  j.subscribed? c = some kind && !j.hasClosed c.group.bus && !j.hasCancelled c && !j.hasEnded c

/-- The events that a consumer is owed, in the order in which they were published. -/
def window : Journal → ConsumerRef → List Event
  | [], _ => []
  | x :: j, c =>
    match x.what.publishes? c.group with
    | some event => if awaits j c event.kind then window j c ++ [event] else window j c
    | none => window j c

/-- The events that a consumer took from its queue, each with its instant, in order. -/
def taken : Journal → ConsumerRef → List (Nat × Event)
  | [], _ => []
  | x :: j, c =>
    match x.what.takes? c with
    | some batch => taken j c ++ batch.map (x.time, ·)
    | none => taken j c

/-- The events that the handler of a consumer was called with, in order. -/
def delivered : Journal → ConsumerRef → List Event
  | [], _ => []
  | x :: j, c =>
    match x.what.calls? c with
    | some event => delivered j c ++ [event]
    | none => delivered j c

end Journal

/-! ## Entries that do not concern a consumer -/

namespace Happening

/-- **No reader finds anything** in what does not concern a consumer. -/
structure Foreign (c : ConsumerRef) (x : Happening) : Prop where
  subscribes? : x.subscribes? c = none
  publishes? : x.publishes? c.group = none
  closes : x.closes c.group.bus = false
  cancels : x.cancels c = false
  ends : x.ends c = false
  exits? : x.exits? c = none
  takes? : x.takes? c = none
  calls? : x.calls? c = none
  registers : x.registers c = false
  drains : x.drains c = false
  ticks : x.ticks c.group = false

/-- What does not concern a consumer is nothing that its history is told by. -/
theorem foreign {c : ConsumerRef} {x : Happening} (hx : x.concerns c = false) : x.Foreign c := by
  cases x <;> constructor <;>
    simp_all [concerns, subscribes?, publishes?, closes, cancels, ends, exits?, takes?, calls?,
      registers, drains, ticks]

end Happening

/-! ## Journals only grow -/

namespace Journal

variable {j j' : Journal} {c : ConsumerRef}

/-- What has happened has happened: a journal only grows. -/
theorem hasCancelled_of_suffix (hs : j' <:+ j) (hc : j'.hasCancelled c = true) :
    j.hasCancelled c = true := by
  obtain ⟨news, rfl⟩ := hs
  rw [hasCancelled, List.any_append, Bool.or_eq_true]
  exact .inr hc

theorem hasFailed_of_suffix (hs : j' <:+ j) (hc : j'.hasFailed c = true) :
    j.hasFailed c = true := by
  obtain ⟨news, rfl⟩ := hs
  rw [hasFailed, List.any_append, Bool.or_eq_true]
  exact .inr hc

/-- What is owed is never taken back. -/
theorem window_prefix (hs : j' <:+ j) : j'.window c <+: j.window c := by
  obtain ⟨news, rfl⟩ := hs
  induction news with
  | nil => exact List.prefix_rfl
  | cons x news ih =>
    rw [List.cons_append, window]
    split
    · split
      · exact ih.trans (List.prefix_append _ _)
      · exact ih
    · exact ih

/-- A consumer only takes more, and is only called with more. -/
theorem taken_prefix (hs : j' <:+ j) : j'.taken c <+: j.taken c := by
  obtain ⟨news, rfl⟩ := hs
  induction news with
  | nil => exact List.prefix_rfl
  | cons x news ih =>
    rw [List.cons_append, taken]
    split
    · exact ih.trans (List.prefix_append _ _)
    · exact ih

theorem delivered_prefix (hs : j' <:+ j) : j'.delivered c <+: j.delivered c := by
  obtain ⟨news, rfl⟩ := hs
  induction news with
  | nil => exact List.prefix_rfl
  | cons x news ih =>
    rw [List.cons_append, delivered]
    split
    · exact ih.trans (List.prefix_append _ _)
    · exact ih

/-! ## What happened since -/

theorem since_self (j : Journal) : j.since j.length = [] := by
  rw [since, Nat.sub_self, List.take_zero, List.reverse_nil]

/-- What is entered after a mark comes to what was entered since, in the order of time. -/
theorem since_append (news : Journal) {mark : Nat} (hmark : mark ≤ j.length) :
    since (news ++ j) mark = j.since mark ++ news.reverse := by
  have hlength : (news ++ j).length - mark = news.length + (j.length - mark) := by
    rw [List.length_append, Nat.add_sub_assoc hmark]
  rw [since, hlength, List.take_length_add_append, List.reverse_append, since]

end Journal

end EventBus
