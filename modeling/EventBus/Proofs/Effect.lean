import EventBus.Proofs.Change

/-!
# What each change does to the look-ups

One lemma for each pair of a change and a look-up that it may alter. Where a change has no effect on
a look-up, because it does not touch what the look-up reads, the two are equal by `rfl`.

The look-ups are those that invariants are about. An invariant is then kept because it speaks of
nothing else, and no proof of one unfolds an operation.
-/

set_option autoImplicit false

namespace EventBus

namespace Host

/-- The loop that was last started for a group, whether it still runs or not. -/
def flusher? (h : Host) (g : GroupRef) : Option LoopId := (h.group? g).bind (·.flusher)

variable (h : Host)

/-! ## Buses -/

/-- To give a bus up shuts it down, and leaves everything that is bound on it. -/
theorem binding?_abandon (b : BusId) (g : GroupRef) : (h.abandon b).binding? g = h.binding? g :=
  h.binding?_modifyBus_of_registry
    (fun bus => by rw [Bus.abandon]; split <;> rfl) b g

/-- A bus that is given up is down without being closed. -/
theorem isClosed_abandon (b other : BusId) : (h.abandon b).isClosed other = h.isClosed other := by
  have hb : ∀ bus : Bus, bus.abandon.isClosed = bus.isClosed := by
    intro bus
    -- only a bus that is up changes its stage when it is given up
    cases hs : bus.stage <;> simp [Bus.abandon, Bus.isDown, Bus.isClosed, hs]
  rw [abandon, isClosed_modifyBus]
  split
  · next ho => simp only [hb, isClosed, ho]
  · rfl

theorem isDown_abandon (b other : BusId) :
    (h.abandon b).isDown other = (h.isDown other || other == b) := by
  have hb : ∀ bus : Bus, bus.abandon.isDown = true := by
    intro bus
    cases hs : bus.stage <;> simp [Bus.abandon, Bus.isDown, hs]
  rw [abandon, isDown_modifyBus]
  split
  · next ho =>
    subst ho
    cases h.bus? other <;> simp [hb]
  · next ho => simp [ho]

/-- What giving a bus up leaves as it is, letting go of any number of buses leaves as it is. -/
theorem release_of_abandon {α : Type} (look : Host → α)
    (hlook : ∀ (h : Host) (b : BusId), look (h.abandon b) = look h) (gone : List BusId) (h : Host) :
    look (h.release gone) = look h := by
  induction gone generalizing h with
  | nil => rfl
  | cons b rest ih =>
    show look ((if h.isHeld b then h else h.abandon b).release rest) = look h
    rw [ih]
    split
    · rfl
    · exact hlook h b

/-- A bus that could be closed was open, and nothing of it has changed but its stage. -/
theorem close_eq_ok {h h' : Host} {b : BusId} (hc : h.close b = .ok h') :
    ∃ bus, h.bus? b = some bus ∧ bus.isClosed = false ∧
      h' = (h.modifyBus b fun bus => { bus with stage := .closed }).note
        (.closed b bus.registry.size) := by
  unfold close at hc
  cases hb : h.bus? b with
  | none => rw [hb] at hc; exact absurd hc (by simp)
  | some bus =>
    rw [hb] at hc
    cases hs : bus.isClosed with
    | true => simp [Bus.close, hs, Except.map] at hc
    | false =>
      simp only [Bus.close, hs, Bool.false_eq_true, if_false, Except.map, Except.ok.injEq] at hc
      refine ⟨bus, rfl, hs, ?_⟩
      rw [← hc, modifyBus_congr (k := fun bus => { bus with stage := .closed }) hb rfl]

/-- A bus that is closed keeps its bindings and its queues, so that what is queued is still
delivered. -/
theorem binding?_close {h h' : Host} {b : BusId} (hc : h.close b = .ok h') (g : GroupRef) :
    h'.binding? g = h.binding? g := by
  obtain ⟨bus, -, -, rfl⟩ := close_eq_ok hc
  exact h.binding?_modifyBus_of_registry (f := fun bus => { bus with stage := .closed })
    (fun _ => rfl) b g

theorem isClosed_close {h h' : Host} {b : BusId} (hc : h.close b = .ok h') (other : BusId) :
    h'.isClosed other = (h.isClosed other || other == b) := by
  obtain ⟨bus, hb, -, rfl⟩ := close_eq_ok hc
  have hm := h.isClosed_modifyBus b (fun bus => { bus with stage := .closed }) other
  apply Eq.trans hm
  split
  · next ho => subst ho; simp [hb, Bus.isClosed]
  · next ho => simp [ho]

theorem isDown_close {h h' : Host} {b : BusId} (hc : h.close b = .ok h') (other : BusId) :
    h'.isDown other = (h.isDown other || other == b) := by
  obtain ⟨bus, hb, -, rfl⟩ := close_eq_ok hc
  have hm := h.isDown_modifyBus b (fun bus => { bus with stage := .closed }) other
  apply Eq.trans hm
  split
  · next ho => subst ho; simp [hb, Bus.isDown]
  · next ho => simp [ho]

/-- A new bus gets the number after the last one; the others keep theirs. -/
theorem bus?_append (bus : Bus) (b : BusId) (handles : List (String × BusId))
    (preset : Option BusId) :
    ({ h with buses := h.buses ++ [bus], handles, preset } : Host).bus? b =
      if b = h.buses.length then some bus else h.bus? b := by
  show (h.buses ++ [bus])[b]? = _
  -- before the new bus, the new bus itself, and numbers that are not given yet
  rcases Nat.lt_trichotomy b h.buses.length with hb | hb | hb
  · rw [List.getElem?_append_left hb, if_neg (Nat.ne_of_lt hb), bus?]
  · subst hb
    simp
  · rw [if_neg (Nat.ne_of_gt hb), bus?, List.getElem?_eq_none (Nat.le_of_lt hb)]
    exact List.getElem?_eq_none (by rw [List.length_append]; exact hb)

theorem bus?_length : h.bus? h.buses.length = none := by
  simp [bus?]

/-- Nothing is bound on a new bus. -/
theorem binding?_append {bus : Bus} (hr : bus.registry = .empty) (handles : List (String × BusId))
    (preset : Option BusId) (g : GroupRef) :
    ({ h with buses := h.buses ++ [bus], handles, preset } : Host).binding? g = h.binding? g := by
  unfold binding?
  rw [bus?_append]
  split
  · next hg => rw [hg, bus?_length, Option.bind_some, hr]; rfl
  · rfl

theorem isClosed_append {bus : Bus} (hs : bus.stage = .active) (handles : List (String × BusId))
    (preset : Option BusId) (b : BusId) :
    ({ h with buses := h.buses ++ [bus], handles, preset } : Host).isClosed b =
      if b = h.buses.length then false else h.isClosed b := by
  unfold isClosed
  rw [bus?_append]
  split
  · simp [Bus.isClosed, hs]
  · rfl

/-- A new bus is up. -/
theorem isDown_append {bus : Bus} (hs : bus.stage = .active) (handles : List (String × BusId))
    (preset : Option BusId) (b : BusId) :
    ({ h with buses := h.buses ++ [bus], handles, preset } : Host).isDown b =
      if b = h.buses.length then false else h.isDown b := by
  unfold isDown
  rw [bus?_append]
  split
  · simp [Bus.isDown, hs]
  · rfl

section

variable {b : BusId} {bus : Bus} {type : EventType} {kind : Kind}
  {fresh : bus.registry.binding? type = none}

/-- To bind a type adds one group and leaves the others. -/
theorem binding?_bindType (hb : h.bus? b = some bus) (g : GroupRef) :
    (h.modifyBus b fun bus' =>
      { bus' with registry := bus.registry.add ⟨type, kind, bus.newGroup type⟩ fresh }).binding? g =
      if g = ⟨b, type⟩ then some ⟨type, kind, bus.newGroup type⟩ else h.binding? g := by
  obtain ⟨b', type'⟩ := g
  rw [binding?_modifyBus]
  simp only [GroupRef.mk.injEq]
  by_cases hbus : b' = b
  · subst hbus
    simp only [binding?, hb, if_true, Option.bind_some, Registry.binding?_add, true_and]
  · simp [hbus]

theorem binding?_fresh (fresh : bus.registry.binding? type = none) (hb : h.bus? b = some bus) :
    h.binding? ⟨b, type⟩ = none := by
  rw [binding?, hb, Option.bind_some, fresh]

theorem isClosed_bindType (other : BusId) :
    (h.modifyBus b fun bus' =>
      { bus' with registry := bus.registry.add ⟨type, kind, bus.newGroup type⟩ fresh }).isClosed
        other = h.isClosed other := by
  rw [isClosed_modifyBus]
  split
  · next ho => rw [isClosed, ho]; rfl
  · rfl

theorem isDown_bindType (other : BusId) :
    (h.modifyBus b fun bus' =>
      { bus' with registry := bus.registry.add ⟨type, kind, bus.newGroup type⟩ fresh }).isDown
        other = h.isDown other := by
  rw [isDown_modifyBus]
  split
  · next ho => rw [isDown, ho]; rfl
  · rfl

/-- The new group has no consumers, so no slot comes with it. -/
theorem slot?_bindType (hb : h.bus? b = some bus) (c : ConsumerRef) :
    (h.modifyBus b fun bus' =>
      { bus' with registry := bus.registry.add ⟨type, kind, bus.newGroup type⟩ fresh }).slot? c =
      h.slot? c := by
  rw [slot?_eq_binding?, slot?_eq_binding?, binding?_bindType h hb]
  split
  · next hg => rw [hg, binding?_fresh h fresh hb]; rfl
  · rfl

end

/-! ## Groups -/

/-- A change of a group that is told by what it makes of a slot. `F` says so for the slot that is
looked up; nothing becomes of a slot that is not there. -/
theorem slot?_modifyGroup_of {g : GroupRef} {f : Group Event → Group Event} {c : ConsumerRef}
    (F : Option (Slot Event) → Option (Slot Event)) (hF : F none = none) (hg : c.group = g)
    (hf : ∀ group, (f group).slot? c.id = F (group.slot? c.id)) :
    (h.modifyGroup g f).slot? c = F (h.slot? c) := by
  rw [slot?_modifyGroup, if_pos hg, slot?, hg]
  cases h.group? g with
  | none => exact hF.symm
  | some group => exact hf group

/-- Whether an event that is published now reaches the group of its type. -/
def accepts (h : Host) (b : BusId) (event : Event) : Bool :=
  !h.isClosed b && h.kind? ⟨b, event.type⟩ == some event.kind

/-- An event that its bus takes is put into the queues of its group. -/
theorem publish_of_accepts {h : Host} {b : BusId} {event : Event}
    (ha : h.accepts b event = true) :
    h.publish b event = (h.modifyGroup ⟨b, event.type⟩ (·.broadcast event)).note
      (.published b event .accepted) := by
  unfold accepts isClosed kind? binding? at ha
  unfold publish
  cases hb : h.bus? b with
  | none => rw [hb] at ha; exact absurd ha (by simp)
  | some bus =>
    simp only [hb, Option.map_some, Option.getD_some, Option.bind_some, Bool.and_eq_true,
      Bool.not_eq_true', beq_iff_eq, Option.map_eq_some_iff] at ha
    obtain ⟨hopen, binding, hbind, hkind⟩ := ha
    -- the kind is the one that is bound, so the group is handed out
    have hget : bus.registry.get? event.type event.kind = some (.ok binding.group) := by
      rw [Registry.get?, hbind, Option.map_some, Binding.groupFor, if_pos hkind]
    simp only [Bus.publish, hopen, Bool.false_eq_true, if_false, hget]
    rw [modifyGroup, modifyBus_congr (k := fun bus => { bus with
      registry := bus.registry.modifyGroup event.type (·.broadcast event) }) hb rfl]

/-- An event that its bus does not take is entered as published, and that is all: the bus is closed,
or nobody has subscribed to the type, or it is bound to another kind. -/
theorem publish_of_not_accepts {h : Host} {b : BusId} {event : Event}
    (hb : (h.bus? b).isSome = true) (ha : h.accepts b event = false) :
    ∃ fate, h.publish b event = h.note (.published b event fate) := by
  obtain ⟨bus, hb⟩ := Option.isSome_iff_exists.mp hb
  have hsame : h.modifyBus b (fun _ => bus) = h := modifyBus_self hb rfl
  unfold accepts isClosed kind? binding? at ha
  unfold publish
  simp only [hb, Option.map_some, Option.getD_some, Option.bind_some] at ha ⊢
  cases hs : bus.isClosed with
  | true =>
    simp only [Bus.publish, hs, if_true, hsame]
    exact ⟨_, rfl⟩
  | false =>
    -- an open bus drops the event for one of two reasons
    cases hbind : bus.registry.binding? event.type with
    | none =>
      simp only [Bus.publish, hs, Bool.false_eq_true, if_false, Registry.get?, hbind,
        Option.map_none, hsame]
      exact ⟨_, rfl⟩
    | some binding =>
      have hkind : binding.kind ≠ event.kind := by
        intro hk
        simp [hs, hbind, hk] at ha
      simp only [Bus.publish, hs, Bool.false_eq_true, if_false, Registry.get?, hbind,
        Option.map_some, Binding.groupFor, if_neg hkind, hsame]
      exact ⟨_, rfl⟩

theorem slot?_broadcast (b : BusId) (event : Event) (c : ConsumerRef) :
    (h.modifyGroup ⟨b, event.type⟩ (·.broadcast event)).slot? c =
      if c.group = ⟨b, event.type⟩ then (h.slot? c).map (·.accept event) else h.slot? c := by
  split
  · next hg =>
    exact h.slot?_modifyGroup_of (Option.map (·.accept event)) rfl hg
      fun group => group.slot?_broadcast event c.id
  · next hg => exact h.slot?_modifyGroup_ne _ hg

/-- A published event changes queues and the journal, and nothing else. -/
theorem publish_frame {h : Host} {b : BusId} {event : Event} (hb : (h.bus? b).isSome = true) :
    ∃ fate buses, h.publish b event =
      { h with buses, journal := ⟨h.now, .published b event fate⟩ :: h.journal } := by
  cases ha : h.accepts b event with
  | true => exact ⟨_, _, publish_of_accepts ha⟩
  | false =>
    obtain ⟨fate, hfate⟩ := publish_of_not_accepts hb ha
    exact ⟨fate, h.buses, hfate⟩

/-- An event that is published reaches the slots of its group, and no other slot. -/
theorem slot?_publish {h : Host} {b : BusId} {event : Event} (hb : (h.bus? b).isSome = true)
    (c : ConsumerRef) :
    (h.publish b event).slot? c =
      if c.group = ⟨b, event.type⟩ ∧ h.accepts b event = true then
        (h.slot? c).map (·.accept event)
      else h.slot? c := by
  cases ha : h.accepts b event with
  | true =>
    rw [publish_of_accepts ha]
    show (h.modifyGroup _ _).slot? c = _
    rw [slot?_broadcast]
    simp only [and_true]
  | false =>
    obtain ⟨fate, hfate⟩ := publish_of_not_accepts hb ha
    rw [hfate, if_neg fun hand => absurd hand.2 (by simp)]
    rfl

/-- To stop a slot marks that one slot; what is queued in it stays. -/
theorem slot?_stop (c other : ConsumerRef) :
    (h.modifyGroup c.group fun group => (group.stop c.id).2).slot? other =
      if other = c then (h.slot? c).map Slot.stop else h.slot? other := by
  by_cases hg : other.group = c.group
  · have hf := h.slot?_modifyGroup_of (f := fun group => (group.stop c.id).2)
      (fun s => if other.id = c.id then s.map Slot.stop else s) (by simp) hg
      fun group => group.slot?_stop c.id other.id
    rw [hf]
    by_cases ho : other = c
    · subst ho; simp
    · have hid : other.id ≠ c.id := fun hid => ho (ConsumerRef.ext hg hid)
      rw [if_neg hid, if_neg ho]
  · rw [slot?_modifyGroup_ne _ _ hg, if_neg fun ho : other = c => hg (ho ▸ rfl)]

/-- To detach a slot takes away that one slot. -/
theorem slot?_detach (c other : ConsumerRef) :
    (h.modifyGroup c.group (·.detach c.id)).slot? other =
      if other = c then none else h.slot? other := by
  by_cases hg : other.group = c.group
  · have hf := h.slot?_modifyGroup_of (f := (·.detach c.id))
      (fun s => if other.id = c.id then none else s) (by simp) hg
      fun group => group.slot?_detach c.id other.id
    rw [hf]
    by_cases ho : other = c
    · subst ho; simp
    · have hid : other.id ≠ c.id := fun hid => ho (ConsumerRef.ext hg hid)
      rw [if_neg hid, if_neg ho]
  · rw [slot?_modifyGroup_ne _ _ hg, if_neg fun ho : other = c => hg (ho ▸ rfl)]

theorem group?_of_slot? {h : Host} {c : ConsumerRef} {s : Slot Event} (hs : h.slot? c = some s) :
    ∃ group, h.group? c.group = some group ∧ group.slot? c.id = some s :=
  Option.bind_eq_some_iff.mp hs

/-- To take a queue that is not empty leaves the slot with an empty one. -/
theorem slot?_take {h : Host} {c : ConsumerRef} {s : Slot Event} (hs : h.slot? c = some s)
    (hq : s.queue ≠ []) (other : ConsumerRef) :
    (h.modifyGroup c.group fun group => (group.take c.id []).2.2).slot? other =
      if other = c then some { s with queue := [] } else h.slot? other := by
  obtain ⟨group, hg, hslot⟩ := group?_of_slot? hs
  by_cases hgo : other.group = c.group
  · rw [slot?_modifyGroup, if_pos hgo, hg, Option.bind_some, Group.take_of_queue hslot hq,
      Group.slot?_modifySlot]
    by_cases ho : other = c
    · subst ho; simp [hslot]
    · have hid : other.id ≠ c.id := fun hid => ho (ConsumerRef.ext hgo hid)
      rw [if_neg hid, if_neg ho, slot?, hgo, hg, Option.bind_some]
  · rw [slot?_modifyGroup_ne _ _ hgo, if_neg fun ho : other = c => hgo (ho ▸ rfl)]

/-! ## The coming and going of tasks -/

/-- Who is enrolled gets an empty slot under the next number of the group. -/
theorem slot?_enrol {h : Host} {t : Task} {kind : Kind} {group : Group Event}
    (hg : h.group? t.consumer.group = some group) (hid : t.consumer.id = group.nextId)
    (c : ConsumerRef) :
    (h.enrol t kind).slot? c =
      if c = t.consumer then some { id := t.consumer.id } else h.slot? c := by
  show (h.modifyGroup t.consumer.group (·.attach.2)).slot? c = _
  by_cases hgc : c.group = t.consumer.group
  · rw [slot?_modifyGroup, if_pos hgc, hg, Option.bind_some, Group.slot?_attach]
    by_cases hc : c = t.consumer
    · subst hc; simp [hid]
    · have hne : c.id ≠ group.nextId := fun hne => hc (ConsumerRef.ext hgc (hne.trans hid.symm))
      rw [if_neg hne, if_neg hc, slot?, hgc, hg, Option.bind_some]
  · rw [slot?_modifyGroup_ne _ _ hgc, if_neg fun hc : c = t.consumer => hgc (hc ▸ rfl)]

/-- Who is enrolled had no task before, so it is the new one that is found. -/
theorem task?_enrol {h : Host} {t : Task} {kind : Kind} (ht : h.task? t.consumer = none)
    (c : ConsumerRef) :
    (h.enrol t kind).task? c = if c = t.consumer then some t else h.task? c := by
  show (h.tasks ++ [t]).find? (fun s => decide (s.consumer = c)) = _
  rw [List.find?_append, List.find?_singleton]
  by_cases hc : c = t.consumer
  · subst hc
    rw [task?] at ht
    simp [ht]
  · rw [if_neg hc, task?]
    simp [Ne.symm hc]

theorem slot?_finish (t : Task) (what : Happening) (c : ConsumerRef) :
    (h.finish t what).slot? c = if c = t.consumer then none else h.slot? c :=
  ((h.note what).eraseTask t.consumer).slot?_detach t.consumer c

theorem task?_finish (t : Task) (what : Happening) (c : ConsumerRef) :
    (h.finish t what).task? c = if c = t.consumer then none else h.task? c :=
  (h.note what).task?_eraseTask t.consumer c

/-- A task is there besides the job that it may have left. -/
def hasTask (h : Host) (c : ConsumerRef) : Bool := (h.task? c).any (!·.orphaned)

/-- A task that leaves a job loses its slot like one that ends. -/
theorem slot?_leaveJob (t : Task) (c : ConsumerRef) :
    (h.leaveJob t).slot? c = if c = t.consumer then none else h.slot? c :=
  ((h.note _).setTask t.orphan).slot?_detach t.consumer c

/-- The job is found in the place of the task that has left it. -/
theorem task?_leaveJob (t : Task) (c : ConsumerRef) :
    (h.leaveJob t).task? c =
      if c = t.consumer then (h.task? c).map fun _ => t.orphan else h.task? c :=
  (h.note _).task?_setTask t.orphan c

/-- A change of all tasks that leaves their consumers is one of each task that is looked up. -/
theorem task?_of_map {h h' : Host} {f : Task → Task} (hf : ∀ t, (f t).consumer = t.consumer)
    (ht : h'.tasks = h.tasks.map f) (c : ConsumerRef) : h'.task? c = (h.task? c).map f := by
  have hc : ((fun t : Task => decide (t.consumer = c)) ∘ f) = fun t => decide (t.consumer = c) := by
    funext t
    simp only [Function.comp_def, hf]
  rw [task?, ht, List.find?_map, hc, task?]

/-- A tick wakes the tasks of its group. -/
theorem task?_wake (g : GroupRef) (c : ConsumerRef) :
    (h.wake g).task? c = (h.task? c).map fun t => if t.consumer.group = g then t.wake else t := by
  refine task?_of_map (fun t => ?_) rfl c
  split
  · exact t.consumer_wake
  · rfl

/-! ## Flush loops -/

section

variable {h : Host} {g : GroupRef} {kind : Kind} {interval : Duration} {p : Placement}

/-- A group without a running loop gets a new one, which is forgotten at once if its runtime is
gone: only its number and its record remain. -/
theorem ensureLoop_of_idle (hidle : h.hasLoop p.group = false) :
    h.ensureLoop g kind interval p =
      { h.modifyGroup g (fun group => { group with flusher := some h.loopsStarted }) with
        loopsStarted := h.loopsStarted + 1
        loops := if h.runtime = some p.runtime then
            h.loops ++ [{ id := h.loopsStarted, group := g, runtime := p.runtime, interval }]
          else h.loops
        journal :=
          ⟨h.now, .loopStarted h.loopsStarted g kind interval p.created⟩ :: h.journal } := by
  rw [ensureLoop, hidle]
  rfl

theorem flusher?_ensureLoop (hg : h.group? g = some p.group) (hidle : h.hasLoop p.group = false)
    (other : GroupRef) :
    (h.ensureLoop g kind interval p).flusher? other =
      if other = g then some h.loopsStarted else h.flusher? other := by
  rw [ensureLoop_of_idle hidle]
  show ((h.modifyGroup g _).group? other).bind (·.flusher) = _
  rw [group?_modifyGroup]
  split
  · next ho => rw [ho, hg]; rfl
  · rfl

/-- Loops are no matter of slots. -/
theorem slot?_ensureLoop (c : ConsumerRef) :
    (h.ensureLoop g kind interval p).slot? c = h.slot? c := by
  cases hidle : h.hasLoop p.group with
  | true => rw [ensureLoop, if_pos hidle]
  | false =>
    rw [ensureLoop_of_idle hidle]
    show (h.modifyGroup g _).slot? c = _
    by_cases hg : c.group = g
    · exact h.slot?_modifyGroup_of id rfl hg fun _ => rfl
    · exact h.slot?_modifyGroup_ne _ hg

end

/-! ## Cancelling -/

theorem cancel_of_active {h : Host} {c : ConsumerRef} (ha : h.isActive c = true) :
    h.cancel c = (h.modifyGroup c.group fun group => (group.stop c.id).2).note
      (.unsubscribed c) := by
  rw [cancel, if_pos ha]

theorem slot?_cancel {h : Host} {c : ConsumerRef} (ha : h.isActive c = true)
    (other : ConsumerRef) :
    (h.cancel c).slot? other = if other = c then (h.slot? c).map Slot.stop else h.slot? other := by
  rw [cancel_of_active ha]
  exact h.slot?_stop c other

/-- A subscription is active as long as its consumer has a slot that is not stopped. -/
theorem isActive_iff {h : Host} {c : ConsumerRef} :
    h.isActive c = true ↔ ∃ s, h.slot? c = some s ∧ s.stopped = false := by
  rw [isActive, slot?]
  cases h.group? c.group with
  | none => simp
  | some group => exact Group.isLive_iff

end Host

end EventBus
