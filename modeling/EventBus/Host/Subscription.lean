import EventBus.Host.Handles

/-!
# Subscribing and cancelling

A subscription that succeeds gives its group a running flush loop, a slot, and a task on the runtime
that the bus chose. If that runtime is gone the task is dropped at once, and the slot with it; the
subscription then was never active. A subscription that is refused changes nothing but the handles
that its handler brought along.
-/

set_option autoImplicit false

namespace EventBus

namespace Host

/-! ## The end of a task -/

/-- Ends a task: its slot goes, and so do the handles of its handler. -/
def endTask (h : Host) (t : Task) (what : Happening) : Host :=
  ((((h.note what).eraseTask t.consumer).modifyGroup t.consumer.group
    (·.detach t.consumer.id))).release (t.held.map (·.2))

/-- Ends the job that a task has left: the handles of its handler go. -/
def endJob (h : Host) (t : Task) : Host :=
  (h.eraseTask t.consumer).release (t.held.map (·.2))

/-- Drops a task, with its slot, and leaves its job to itself. -/
def leaveJob (h : Host) (t : Task) : Host :=
  ((h.note (.lost t.consumer t.handler.profile)).setTask t.orphan).modifyGroup t.consumer.group
    (·.detach t.consumer.id)

/-! ## Subscribing -/

/-- Whether the loop that was last started for a group still runs. -/
def hasLoop (h : Host) (group : Group Event) : Bool :=
  match group.flusher with
  | none => false
  | some l => (h.loop? l).isSome

/-- Gives a group a flush loop, unless it has one. A loop that is put on a runtime that is gone
ends at once. -/
def ensureLoop (h : Host) (g : GroupRef) (kind : Kind) (interval : Duration) (p : Placement) :
    Host :=
  if h.hasLoop p.group then h
  else
    let id := h.loopsStarted
    let fresh : FlushLoop := { id, group := g, runtime := p.runtime, interval }
    let h := h.modifyGroup g fun group => { group with flusher := some id }
    let h := { h with
      loopsStarted := id + 1
      loops := if h.runtime = some p.runtime then h.loops ++ [fresh] else h.loops }
    h.note (.loopStarted id g kind interval p.created)

def attach (h : Host) (g : GroupRef) : ConsumerRef × Host :=
  let id := ((h.group? g).map (·.nextId)).getD 0
  (⟨g, id⟩, h.modifyGroup g (·.attach.2))

/-- Puts the task of a consumer on its runtime. -/
def spawn (h : Host) (t : Task) : Host :=
  let spawned := { h with tasks := h.tasks ++ [t] }
  if h.runtime = some t.runtime then spawned
  else spawned.endTask t (.lost t.consumer t.handler.profile)

/-- Subscribes a handler that holds `held` to a bus, from where `context` is the current runtime. -/
def subscribe (h : Host) (b : BusId) (context : Option RuntimeId) (who : Subscriber Action)
    (held : List (Target × BusId)) : Except Fault ConsumerRef × Host :=
  match h.bus? b with
  | none => (.error .closed, h.release (held.map (·.2)))
  | some bus =>
    match bus.place context who.type who.kind with
    | .error fault =>
      let h := match fault with
        | .conflict .. => h.note (.rejected b fault)
        | _ => h
      (.error fault, h.release (held.map (·.2)))
    | .ok p =>
      let g : GroupRef := ⟨b, who.type⟩
      let h := h.modifyBus b fun bus => { bus with registry := p.registry }
      let h := h.ensureLoop g who.kind bus.flushInterval p
      let (c, h) := h.attach g
      -- The record of this comes once the task is spawned. No step of the task is in between, as
      -- this is one operation, and a task that is dropped at once leaves no record, so the entry
      -- stands first: what there is of a consumer begins with it.
      let h := h.note (.subscribed c who.kind who.handler.profile)
      (.ok c, h.spawn { consumer := c, runtime := p.runtime, handler := who.handler, held })

/-! ## Subscriptions -/

def isActive (h : Host) (c : ConsumerRef) : Bool :=
  ((h.group? c.group).map (·.isLive c.id)).getD false

/-- Cancels a subscription. A second time changes nothing. -/
def cancel (h : Host) (c : ConsumerRef) : Host :=
  if h.isActive c then
    (h.modifyGroup c.group fun group => (group.stop c.id).2).note (.unsubscribed c)
  else h

def describe (h : Host) (c : ConsumerRef) : Answer := .subscription c (h.isActive c)

def subscription? (h : Host) (name : String) : Option ConsumerRef := h.subscriptions.lookup name

def bind (h : Host) (name : String) (c : ConsumerRef) : Host :=
  { h with subscriptions := (name, c) :: h.subscriptions }

end Host

end EventBus
