import EventBus.Group.View
import EventBus.Host.View
import EventBus.Run

/-!
# What is looked up in a program

Statements about a run speak of four look-ups: the slot of a consumer, its task, the kind that a
type is bound to, and whether a bus is closed or down. Slots, kinds and signals are read off the
buses and nothing else, so a change that leaves the buses alone leaves them alone by `rfl`. This
file says what the changes *of* buses do to them.
-/

set_option autoImplicit false

namespace EventBus

namespace Host

/-- The slot of a consumer, in which its events are queued. -/
def slot? (h : Host) (c : ConsumerRef) : Option (Slot Event) :=
  (h.group? c.group).bind (·.slot? c.id)

/-- What a type is bound to on a bus: its kind and its group. -/
def binding? (h : Host) (g : GroupRef) : Option Binding :=
  (h.bus? g.bus).bind fun bus => bus.registry.binding? g.type

def kind? (h : Host) (g : GroupRef) : Option Kind := (h.binding? g).map (·.kind)

/-- A bus that is not there counts as closed. -/
def isClosed (h : Host) (b : BusId) : Bool := ((h.bus? b).map (·.isClosed)).getD true

/-- The settings that a bus was made with. -/
def builder? (h : Host) (b : BusId) : Option Builder :=
  (h.bus? b).map fun bus => { config := bus.config, runtime := bus.pinned }

/-- The interval at which a bus wakes its consumers. -/
def interval? (h : Host) (b : BusId) : Option Duration := (h.bus? b).map (·.flushInterval)

/-- A group is looked up by what its type is bound to. -/
theorem group?_eq_binding? (h : Host) (g : GroupRef) :
    h.group? g = (h.binding? g).map (·.group) := by
  unfold group? binding? Registry.group?
  cases h.bus? g.bus <;> rfl

/-- A type is bound to a kind and to a group at once. -/
theorem kind?_isSome (h : Host) (g : GroupRef) : (h.kind? g).isSome = (h.group? g).isSome := by
  rw [kind?, group?_eq_binding?, Option.isSome_map, Option.isSome_map]

/-! ## Changes of one bus -/

section

variable (h : Host)

/-- What a change makes of a bus only matters at the bus as it is. -/
theorem modifyBus_congr {h : Host} {b : BusId} {bus : Bus} {f k : Bus → Bus}
    (hb : h.bus? b = some bus) (hf : f bus = k bus) : h.modifyBus b f = h.modifyBus b k := by
  have hbuses : h.buses.modify b f = h.buses.modify b k := by
    apply List.ext_getElem?
    intro i
    rw [List.getElem?_modify, List.getElem?_modify]
    by_cases hi : b = i
    · subst hi
      change h.buses[b]? = some bus at hb
      simp [hb, hf]
    · simp [hi]
  rw [modifyBus, modifyBus, hbuses]

/-- A change that leaves the bus as it is changes nothing. -/
theorem modifyBus_self {h : Host} {b : BusId} {bus : Bus} {f : Bus → Bus}
    (hb : h.bus? b = some bus) (hf : f bus = bus) : h.modifyBus b f = h := by
  rw [modifyBus_congr (k := id) hb hf, modifyBus]
  have hid : h.buses.modify b id = h.buses := by
    apply List.ext_getElem?
    intro i
    rw [List.getElem?_modify]
    split <;> simp
  rw [hid]

@[simp] theorem binding?_modifyBus (b : BusId) (f : Bus → Bus) (g : GroupRef) :
    (h.modifyBus b f).binding? g =
      if g.bus = b then (h.bus? b).bind fun bus => (f bus).registry.binding? g.type
      else h.binding? g := by
  unfold binding?
  rw [bus?_modifyBus]
  by_cases hg : g.bus = b
  · simp only [hg]
    cases h.bus? b <;> rfl
  · simp only [if_neg hg]

/-- A change that leaves the registry of a bus alone leaves every binding alone. -/
theorem binding?_modifyBus_of_registry {f : Bus → Bus} (hf : ∀ bus, (f bus).registry = bus.registry)
    (b : BusId) (g : GroupRef) : (h.modifyBus b f).binding? g = h.binding? g := by
  rw [binding?_modifyBus]
  split
  · next hg => simp only [hf, binding?, hg]
  · rfl

theorem slot?_eq_binding? (c : ConsumerRef) :
    h.slot? c = (h.binding? c.group).bind (·.group.slot? c.id) := by
  rw [slot?, group?_eq_binding?, Option.bind_map]
  rfl

/-- The slots of a group are read off its binding. -/
theorem slot?_congr {h h' : Host} {c : ConsumerRef}
    (hb : h'.binding? c.group = h.binding? c.group) : h'.slot? c = h.slot? c := by
  rw [slot?_eq_binding?, slot?_eq_binding?, hb]

@[simp] theorem isClosed_modifyBus (b : BusId) (f : Bus → Bus) (other : BusId) :
    (h.modifyBus b f).isClosed other =
      if other = b then ((h.bus? b).map fun bus => (f bus).isClosed).getD true
      else h.isClosed other := by
  unfold isClosed
  rw [bus?_modifyBus]
  by_cases hb : other = b
  · simp only [hb]
    cases h.bus? b <;> rfl
  · simp only [if_neg hb]

@[simp] theorem isDown_modifyBus (b : BusId) (f : Bus → Bus) (other : BusId) :
    (h.modifyBus b f).isDown other =
      if other = b then ((h.bus? b).map fun bus => (f bus).isDown).getD true
      else h.isDown other := by
  unfold isDown
  rw [bus?_modifyBus]
  by_cases hb : other = b
  · simp only [hb]
    cases h.bus? b <;> rfl
  · simp only [if_neg hb]

/-- Nothing that is done to a bus changes the settings that it was made with. -/
theorem builder?_modifyBus {f : Bus → Bus}
    (hf : ∀ bus, (f bus).config = bus.config ∧ (f bus).pinned = bus.pinned) (b other : BusId) :
    (h.modifyBus b f).builder? other = h.builder? other := by
  unfold builder?
  rw [bus?_modifyBus]
  split
  · rw [Option.map_map]
    simp only [Function.comp_def, hf]
  · rfl

/-- The interval of a bus is one of its settings. -/
theorem interval?_eq_builder? (b : BusId) :
    h.interval? b = (h.builder? b).map (·.config.flushIntervalClamped) := by
  rw [builder?, Option.map_map]
  rfl

/-! ## Changes of one group -/

theorem builder?_modifyGroup (g : GroupRef) (f : Group Event → Group Event) (b : BusId) :
    (h.modifyGroup g f).builder? b = h.builder? b :=
  h.builder?_modifyBus
    (f := fun bus => { bus with registry := bus.registry.modifyGroup g.type f })
    (fun _ => ⟨rfl, rfl⟩) _ b

@[simp] theorem binding?_modifyGroup (g : GroupRef) (f : Group Event → Group Event)
    (other : GroupRef) :
    (h.modifyGroup g f).binding? other =
      if other = g then (h.binding? other).map fun b => { b with group := f b.group }
      else h.binding? other := by
  obtain ⟨b, type⟩ := g
  obtain ⟨b', type'⟩ := other
  simp only [modifyGroup, binding?_modifyBus, Registry.binding?_modifyGroup, GroupRef.mk.injEq]
  by_cases hb : b' = b
  · subst hb
    unfold binding?
    by_cases ht : type' = type <;> cases h.bus? b' <;> simp [ht]
  · simp [hb]

/-- Nothing that is done to a group changes its kind. -/
@[simp] theorem kind?_modifyGroup (g : GroupRef) (f : Group Event → Group Event)
    (other : GroupRef) : (h.modifyGroup g f).kind? other = h.kind? other := by
  rw [kind?, kind?, binding?_modifyGroup]
  split
  · rw [Option.map_map]
    rfl
  · rfl

@[simp] theorem isClosed_modifyGroup (g : GroupRef) (f : Group Event → Group Event) (b : BusId) :
    (h.modifyGroup g f).isClosed b = h.isClosed b := by
  rw [modifyGroup, isClosed_modifyBus]
  split
  · next hb => rw [hb]; rfl
  · rfl

/-- A change of a group reaches the slots of that group and no others. -/
theorem slot?_modifyGroup (g : GroupRef) (f : Group Event → Group Event) (c : ConsumerRef) :
    (h.modifyGroup g f).slot? c =
      if c.group = g then (h.group? g).bind fun group => (f group).slot? c.id else h.slot? c := by
  unfold slot?
  rw [group?_modifyGroup]
  by_cases hg : c.group = g
  · simp only [hg]
    cases h.group? g <;> rfl
  · simp only [if_neg hg]

theorem slot?_modifyGroup_ne {g : GroupRef} (f : Group Event → Group Event) {c : ConsumerRef}
    (hg : c.group ≠ g) : (h.modifyGroup g f).slot? c = h.slot? c := by
  rw [slot?_modifyGroup, if_neg hg]

/-- What a change makes of a group only matters at the group as it is. -/
theorem modifyGroup_congr {h : Host} {g : GroupRef} {group : Group Event}
    {f k : Group Event → Group Event} (hg : h.group? g = some group) (hf : f group = k group) :
    h.modifyGroup g f = h.modifyGroup g k := by
  unfold group? at hg
  cases hb : h.bus? g.bus with
  | none => rw [hb] at hg; exact absurd hg (by simp)
  | some bus =>
    rw [hb, Option.bind_some] at hg
    apply modifyBus_congr hb
    have hr : bus.registry.modifyGroup g.type f = bus.registry.modifyGroup g.type k :=
      Registry.modifyGroup_congr hg hf
    rw [hr]

/-- A change that leaves the group as it is changes nothing. -/
theorem modifyGroup_self {h : Host} {g : GroupRef} {group : Group Event}
    {f : Group Event → Group Event} (hg : h.group? g = some group) (hf : f group = group) :
    h.modifyGroup g f = h := by
  unfold group? at hg
  cases hb : h.bus? g.bus with
  | none => rw [hb] at hg; exact absurd hg (by simp)
  | some bus =>
    rw [hb, Option.bind_some] at hg
    apply modifyBus_self hb
    rw [Registry.modifyGroup_self hg hf]

/-- Two changes of one group are one. -/
theorem modifyGroup_modifyGroup (g : GroupRef) (f k : Group Event → Group Event) :
    (h.modifyGroup g f).modifyGroup g k = h.modifyGroup g (k ∘ f) := by
  have hbuses : ∀ bus : Bus, ({ bus with
      registry := (bus.registry.modifyGroup g.type f).modifyGroup g.type k } : Bus) =
      { bus with registry := bus.registry.modifyGroup g.type (k ∘ f) } :=
    fun bus => by rw [Registry.modifyGroup_modifyGroup]
  have hmodify : (h.modifyGroup g f).buses.modify g.bus
      (fun bus => { bus with registry := bus.registry.modifyGroup g.type k }) =
      h.buses.modify g.bus
        fun bus => { bus with registry := bus.registry.modifyGroup g.type (k ∘ f) } := by
    apply List.ext_getElem?
    intro i
    show ((h.buses.modify g.bus _).modify g.bus _)[i]? = _
    simp only [List.getElem?_modify]
    split
    · cases h.buses[i]? <;> simp [hbuses]
    · simp
  rw [modifyGroup, modifyBus, hmodify]
  rfl

end

end Host

end EventBus
