import EventBus.Proofs.Apart

/-!
# Buses without their slots

Steps of private consumers change slots and nothing else of a bus. What is left of a bus without any
slots is `slotless`; with the slots, looked up one by one, it determines the bus, since the slots of
a group are in the order of their ids.
-/

set_option autoImplicit false

namespace EventBus

namespace Group

variable {α : Type}

def slotless (g : Group α) : Group α := { g with slots := [], ascending := by simp }

theorem slotless_detach (g : Group α) (id : ConsumerId) : (g.detach id).slotless = g.slotless := rfl

/-- Slots that are looked up in the same way are the same slots in the same order. -/
theorem slots_eq {g g' : Group α} (hs : ∀ id, g'.slot? id = g.slot? id) : g'.slots = g.slots := by
  have hmem : ∀ s, s ∈ g'.slots ↔ s ∈ g.slots := by
    intro s
    have hg : ∀ g : Group α, s ∈ g.slots ↔ g.slot? s.id = some s := by
      intro g
      rw [slot?_eq_some_iff]
      exact ⟨fun h => ⟨h, rfl⟩, fun h => h.1⟩
    rw [hg, hg, hs]
  have hsorted : ∀ g : Group α, g.slots.Pairwise fun s s' => s.id < s'.id :=
    fun g => List.pairwise_map.mp (List.pairwise_append.mp g.ascending).1
  have hnodup : ∀ g : Group α, g.slots.Nodup :=
    fun g => (hsorted g).imp fun hlt heq => absurd (heq ▸ hlt) (Nat.lt_irrefl _)
  have hperm : g'.slots.Perm g.slots :=
    (List.perm_ext_iff_of_nodup (hnodup g') (hnodup g)).mpr hmem
  exact hperm.eq_of_pairwise (fun _ _ _ _ hab hba => absurd (Nat.lt_trans hab hba)
    (Nat.lt_irrefl _)) (hsorted g') (hsorted g)

theorem eq_of_slotless {g g' : Group α} (hb : g'.slotless = g.slotless)
    (hs : ∀ id, g'.slot? id = g.slot? id) :
    g' = g := by
  have htype : g'.type = g.type := congrArg (·.type) hb
  have hcapacity : g'.capacity = g.capacity := congrArg (·.capacity) hb
  have hnext : g'.nextId = g.nextId := congrArg (·.nextId) hb
  have hflusher : g'.flusher = g.flusher := congrArg (·.flusher) hb
  exact eq_of_slots htype hcapacity (slots_eq hs) hnext hflusher

end Group

namespace Registry

def slotless (r : Registry) : List Binding :=
  r.bindings.map fun b => { b with group := b.group.slotless }

theorem slotless_modifyGroup (r : Registry) (type : EventType) {f : Group Event → Group Event}
    (hf : ∀ group, (f group).slotless = group.slotless) :
    (r.modifyGroup type f).slotless = r.slotless := by
  simp only [slotless, modifyGroup, List.map_map]
  refine List.map_congr_left fun b _ => ?_
  simp only [Function.comp_apply]
  split
  · rw [hf]
  · rfl

theorem eq_of_slotless {r r' : Registry} (hb : r'.slotless = r.slotless)
    (hs : ∀ type id, (r'.group? type).bind (·.slot? id) = (r.group? type).bind (·.slot? id)) :
    r' = r := by
  refine eq_of_bindings (List.ext_getElem? fun i => ?_)
  have hi : (r'.slotless)[i]? = (r.slotless)[i]? := by rw [hb]
  rw [slotless, slotless, List.getElem?_map, List.getElem?_map] at hi
  cases hx : r.bindings[i]? with
  | none =>
    rw [hx] at hi
    exact Option.map_eq_none_iff.mp hi
  | some x =>
    rw [hx] at hi
    obtain ⟨y, hy, heq⟩ := Option.map_eq_some_iff.mp hi
    have htype : y.type = x.type := congrArg (·.type) heq
    have hkind : y.kind = x.kind := congrArg (·.kind) heq
    have hrest : y.group.slotless = x.group.slotless := congrArg (·.group) heq
    -- the binding at this place is the one that its type is looked up at
    have hgroup : ∀ {r : Registry} {b : Binding}, r.bindings[i]? = some b →
        r.group? b.type = some b.group := by
      intro r b hbi
      rw [group?, binding?_eq_some_iff.mpr ⟨List.mem_of_getElem? hbi, rfl⟩, Option.map_some]
    -- so its slots are the same, id by id
    have hslots : ∀ id, y.group.slot? id = x.group.slot? id := by
      intro id
      have hsame := hs x.type id
      rwa [hgroup hx, ← htype, hgroup hy, Option.bind_some, Option.bind_some] at hsame
    have hsame : y = x := by
      obtain ⟨type, kind, group⟩ := x
      obtain ⟨type', kind', group'⟩ := y
      obtain rfl : type' = type := htype
      obtain rfl : kind' = kind := hkind
      obtain rfl : group' = group := Group.eq_of_slotless hrest hslots
      rfl
    rw [hy, hsame]

end Registry

namespace Bus

/-- What is left of a bus without the slots of its groups. -/
def slotless (bus : Bus) : Bus × List Binding :=
  ({ bus with registry := .empty }, bus.registry.slotless)

theorem slotless_apart (bus : Bus) (b : BusId) (c : ConsumerRef) :
    (bus.apart b c).slotless = bus.slotless := by
  have hregistry : (bus.registry.apart b c).slotless = bus.registry.slotless := by
    unfold Registry.apart
    split
    · exact bus.registry.slotless_modifyGroup _ fun group => group.slotless_detach c.id
    · rfl
  rw [slotless, slotless]
  exact congrArg (Prod.mk _) hregistry

theorem isDown_of_slotless {bus bus' : Bus} (hb : bus'.slotless = bus.slotless) :
    bus'.isDown = bus.isDown :=
  congrArg (·.1.isDown) hb

theorem eq_of_slotless {bus bus' : Bus} (hb : bus'.slotless = bus.slotless)
    (hs : ∀ type id, (bus'.registry.group? type).bind (·.slot? id) =
      (bus.registry.group? type).bind (·.slot? id)) : bus' = bus := by
  obtain ⟨config, pinned, registry, stage⟩ := bus
  obtain ⟨config', pinned', registry', stage'⟩ := bus'
  obtain rfl : config' = config := congrArg (·.1.config) hb
  obtain rfl : pinned' = pinned := congrArg (·.1.pinned) hb
  obtain rfl : stage' = stage := congrArg (·.1.stage) hb
  obtain rfl : registry' = registry := Registry.eq_of_slotless (congrArg (·.2) hb) hs
  rfl

end Bus

namespace Host

variable {h h' : Host}

/-- What is left of the buses without the slots of their groups. -/
def slotless (h : Host) (b : BusId) : Option (Bus × List Binding) := (h.bus? b).map (·.slotless)

theorem slotless_without (h : Host) (c : ConsumerRef) : (h.without c).slotless = h.slotless := by
  funext b
  rw [slotless, bus?_without, Option.map_map, slotless]
  exact Option.map_congr fun bus _ => bus.slotless_apart b c

theorem isDown_of_slotless (hb : h'.slotless = h.slotless) (b : BusId) :
    h'.isDown b = h.isDown b := by
  have hbus : (h'.bus? b).map (·.slotless) = (h.bus? b).map (·.slotless) := congrFun hb b
  have hdown : ∀ h : Host, h.isDown b =
      (((h.bus? b).map (·.slotless)).map (·.1.isDown)).getD true := by
    intro h
    rw [isDown, Option.map_map]
    rfl
  rw [hdown, hdown, hbus]

theorem flusher?_of_slotless (hb : h'.slotless = h.slotless) (g : GroupRef) :
    h'.flusher? g = h.flusher? g := by
  have hflusher : ∀ h : Host, h.flusher? g =
      ((h.slotless g.bus).bind fun x => x.2.find? (·.type == g.type)).bind (·.group.flusher) := by
    intro h
    rw [flusher?, group?, slotless]
    cases h.bus? g.bus with
    | none => rfl
    | some bus =>
      simp only [Option.bind_some, Option.map_some, Bus.slotless, Registry.slotless, List.find?_map,
        Registry.group?, Registry.binding?, Option.bind_map]
      rfl
  rw [hflusher, hflusher, hb]

theorem buses_eq (hb : h'.slotless = h.slotless) (hs : ∀ c, h'.slot? c = h.slot? c) :
    h'.buses = h.buses := by
  refine List.ext_getElem? fun b => ?_
  have hbus : (h'.bus? b).map (·.slotless) = (h.bus? b).map (·.slotless) := congrFun hb b
  show h'.bus? b = h.bus? b
  cases hx : h.bus? b with
  | none =>
    rw [hx] at hbus
    exact Option.map_eq_none_iff.mp hbus
  | some bus =>
    rw [hx] at hbus
    obtain ⟨bus', hy, hrest⟩ := Option.map_eq_some_iff.mp hbus
    rw [hy, Bus.eq_of_slotless hrest fun type id => ?_]
    have hslot := hs ⟨⟨b, type⟩, id⟩
    rwa [slot?, slot?, Host.group?, Host.group?, hx, hy] at hslot

end Host

end EventBus
