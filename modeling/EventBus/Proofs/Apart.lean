import EventBus.Proofs.Privacy

/-!
# What is left apart from a consumer

A journal, a group, a registry and a bus without what there is of one consumer in them. What a bus
does it does in the same way without the consumer, since no slot has a part in what becomes of
another.

What cannot be told without the consumer is how many consumers there are, and whether the consumer
itself is active, so that is left out of the answers in the journal.
-/

set_option autoImplicit false

namespace EventBus

/-! ## The journal apart from a consumer -/

namespace Answer

/-- An answer without the number that was counted, and without what it says of `c`. -/
def apart (c : ConsumerRef) : Answer → Answer
  | count _ => count 0
  | subscription d active => subscription d (active && decide (d ≠ c))
  | answer => answer

end Answer

namespace Happening

/-- What is left of a happening for everybody but `c`. -/
def apart? (c : ConsumerRef) (what : Happening) : Option Happening :=
  if what.who? = some c then none
  else
    match what with
    | acted d who word answer => some (acted d who word (answer.apart c))
    | _ => some what

theorem apart?_of_who? {c : ConsumerRef} {what : Happening} (hw : what.who? = some c) :
    what.apart? c = none := if_pos hw

end Happening

/-- What is left of a journal for everybody but `c`. -/
def Journal.apart (j : Journal) (c : ConsumerRef) : Journal :=
  j.filterMap fun x => (x.what.apart? c).map (⟨x.time, ·⟩)

/-- An entry is dropped, or stays with its time. -/
theorem Journal.apart_cons (x : Entry) (j : Journal) (c : ConsumerRef) :
    Journal.apart (x :: j) c = ((x.what.apart? c).map (⟨x.time, ·⟩)).toList ++ j.apart c := by
  rw [Journal.apart, List.filterMap_cons]
  cases (x.what.apart? c) <;> rfl

/-- What happened to a consumer is nothing for the others. -/
theorem Journal.apart_filter (j : Journal) (c : ConsumerRef) :
    Journal.apart (j.filter (·.what.who? ≠ some c)) c = j.apart c := by
  induction j with
  | nil => rfl
  | cons x j ih =>
    by_cases hx : x.what.who? = some c
    · rw [List.filter_cons_of_neg (by simp [hx]), Journal.apart_cons,
        Happening.apart?_of_who? hx, ih]
      rfl
    · rw [List.filter_cons_of_pos (by simp [hx]), Journal.apart_cons, Journal.apart_cons, ih]

/-! ## Groups, registries and buses -/

section

variable {α : Type} (group : Group α) (g : GroupRef) (c : ConsumerRef)

/-- A group without the slot of `c`, if it is the group of `c`. -/
def Group.apart : Group α := if g = c.group then group.detach c.id else group

namespace Group

/-- In the group of `c` itself its slot is detached; every other group is whole. -/
theorem apart_same {group : Group α} : group.apart c.group c = group.detach c.id := if_pos rfl

theorem apart_other {group : Group α} {g : GroupRef} {c : ConsumerRef} (hg : g ≠ c.group) :
    group.apart g c = group := if_neg hg

@[simp] theorem nextId_apart : (group.apart g c).nextId = group.nextId := by
  unfold apart; split <;> rfl

@[simp] theorem flusher_apart : (group.apart g c).flusher = group.flusher := by
  unfold apart; split <;> rfl

/-- What is done to all slots alike is done to those that stay, whether one is detached before or
after it. -/
theorem detach_mapSlots (id : ConsumerId) (f : Slot α → Slot α) (keeps : ∀ s, (f s).id = s.id) :
    (group.mapSlots f keeps).detach id = (group.detach id).mapSlots f keeps :=
  eq_of_slots rfl rfl (by simp [mapSlots, detach, List.filter_map, Function.comp_def, keeps])
    rfl rfl

theorem apart_mapSlots (f : Slot α → Slot α) (keeps : ∀ s, (f s).id = s.id) :
    (group.mapSlots f keeps).apart g c = (group.apart g c).mapSlots f keeps := by
  unfold apart
  split
  · exact group.detach_mapSlots c.id f keeps
  · rfl

theorem apart_modifySlot (id : ConsumerId) (f : Slot α → Slot α) (keeps : ∀ s, (f s).id = s.id) :
    (group.modifySlot id f keeps).apart g c = (group.apart g c).modifySlot id f keeps :=
  group.apart_mapSlots g c _ _

theorem apart_detach (id : ConsumerId) :
    (group.detach id).apart g c = (group.apart g c).detach id := by
  unfold apart
  split
  · refine eq_of_slots rfl rfl ?_ rfl rfl
    -- two slots go, in either order
    simp only [detach, List.filter_filter]
    exact List.filter_congr fun s _ => Bool.and_comm _ _
  · rfl

/-- The consumer that is attached is not `c`: that had its number before, or will not be in this
group. -/
theorem apart_attach (hid : g = c.group → c.id ≠ group.nextId) :
    group.attach.2.apart g c = (group.apart g c).attach.2 := by
  unfold apart
  split
  · next hg =>
    refine eq_of_slots rfl rfl ?_ rfl rfl
    -- the new slot is at the end, and it is not the one that goes
    simp [attach, detach, (hid hg).symm]
  · rfl

variable {group g c} in
/-- The others keep their slots. -/
theorem slot?_apart {id : ConsumerId} (hid : g = c.group → id ≠ c.id) :
    (group.apart g c).slot? id = group.slot? id := by
  unfold apart
  split
  · next hg => rw [slot?_detach, if_neg (hid hg)]
  · rfl

variable {group g c} in
/-- Another consumer takes from its own slot the same batch. -/
theorem apart_take {id : ConsumerId} (hid : g = c.group → id ≠ c.id) (buffer : List α) :
    (group.apart g c).take id buffer =
      ((group.take id buffer).1, (group.take id buffer).2.1,
        (group.take id buffer).2.2.apart g c) := by
  unfold take
  rw [slot?_apart hid]
  cases group.slot? id with
  | none => rfl
  | some s =>
    simp only
    split
    · split
      · rw [apart_detach]
      · rfl
    · rw [apart_modifySlot]

variable {group g c} in
/-- Another consumer is active or not as before. -/
theorem isLive_apart {id : ConsumerId} (hid : g = c.group → id ≠ c.id) :
    (group.apart g c).isLive id = group.isLive id := by
  rw [Bool.eq_iff_iff, isLive_iff, isLive_iff, slot?_apart hid]

end Group

end

namespace Registry

variable (r : Registry) (b : BusId) (c : ConsumerRef)

/-- The registry of bus `b` without the slot of `c`. -/
def apart : Registry :=
  if b = c.group.bus then r.modifyGroup c.group.type (·.detach c.id) else r

/-- The types are bound to the same kinds, and their groups are those without `c`. -/
theorem binding?_apart (type : EventType) :
    (r.apart b c).binding? type =
      (r.binding? type).map fun x => { x with group := x.group.apart ⟨b, type⟩ c } := by
  unfold apart Group.apart
  by_cases hb : b = c.group.bus
  · subst hb
    rw [if_pos rfl, binding?_modifyGroup]
    by_cases ht : type = c.group.type
    · subst ht
      simp
    · have hg : (⟨c.group.bus, type⟩ : GroupRef) ≠ c.group := fun hg => ht (hg ▸ rfl)
      simp [ht, hg]
  · have hg : (⟨b, type⟩ : GroupRef) ≠ c.group := fun hg => hb (hg ▸ rfl)
    simp [hb, hg]

/-- To look a group up finds the group without `c`, and a conflict is a conflict all the same. -/
theorem get?_apart (type : EventType) (kind : Kind) :
    (r.apart b c).get? type kind =
      (r.get? type kind).map fun found => found.map (·.apart ⟨b, type⟩ c) := by
  rw [get?, get?, binding?_apart, Option.map_map, Option.map_map]
  refine Option.map_congr fun x _ => ?_
  simp only [Function.comp_apply, Binding.groupFor]
  split <;> rfl

@[simp] theorem size_apart : (r.apart b c).size = r.size := by
  unfold apart; split <;> simp

/-- What is done to one group may be done without `c` if it does the same to the group without it.
-/
theorem apart_modifyGroup {type : EventType} {f f' : Group Event → Group Event}
    (hf : ∀ group, r.group? type = some group →
      (f group).apart ⟨b, type⟩ c = f' (group.apart ⟨b, type⟩ c)) :
    (r.modifyGroup type f).apart b c = (r.apart b c).modifyGroup type f' := by
  have hgroup : ∀ x ∈ r.bindings, x.type = type →
      (f x.group).apart ⟨b, type⟩ c = f' (x.group.apart ⟨b, type⟩ c) := by
    intro x hx ht
    refine hf _ ?_
    rw [group?, binding?_eq_some_iff.mpr ⟨hx, ht⟩, Option.map_some]
  unfold apart
  by_cases hb : b = c.group.bus
  · subst hb
    simp only [if_pos]
    refine eq_of_bindings ?_
    simp only [modifyGroup, List.map_map]
    refine List.map_congr_left fun x hx => ?_
    have hx := hgroup x hx
    unfold Group.apart at hx
    -- the binding at hand is the one that is changed or not, and the one that `c` is in or not
    by_cases ht : x.type = type <;> by_cases hc : x.type = c.group.type
    · have htc : type = c.group.type := ht.symm.trans hc
      subst htc
      simp_all
    · have hg : (⟨c.group.bus, type⟩ : GroupRef) ≠ c.group := fun hg => hc (ht.trans (hg ▸ rfl))
      simp_all
    · simp_all
    · simp_all
  · have hg : (⟨b, type⟩ : GroupRef) ≠ c.group := fun hg => hb (hg ▸ rfl)
    simp only [if_neg hb]
    refine eq_of_bindings (List.map_congr_left fun x hx => ?_)
    have hx := hgroup x hx
    rw [Group.apart_other hg, Group.apart_other hg] at hx
    split
    · next ht => rw [hx ht]
    · rfl

/-- A new group is bound the same without `c`. -/
theorem apart_add {x : Binding} (fresh : r.binding? x.type = none) :
    (r.add x fresh).apart b c = (r.apart b c).add
      { x with group := x.group.apart ⟨b, x.type⟩ c } (by rw [binding?_apart, fresh]; rfl) := by
  refine eq_of_bindings ?_
  unfold apart Group.apart
  by_cases hb : b = c.group.bus
  · subst hb
    by_cases ht : x.type = c.group.type
    · simp [add, modifyGroup, ht]
    · have hg : (⟨c.group.bus, x.type⟩ : GroupRef) ≠ c.group := fun hg => ht (hg ▸ rfl)
      simp [add, modifyGroup, ht, hg]
  · have hg : (⟨b, x.type⟩ : GroupRef) ≠ c.group := fun hg => hb (hg ▸ rfl)
    simp [add, hb, hg]

/-- Whatever group there is in `r` is there in `r'`, and its next id is no lower. -/
def Grows (r r' : Registry) : Prop :=
  ∀ type group, r.group? type = some group →
    ∃ group', r'.group? type = some group' ∧ group.nextId ≤ group'.nextId

/-- A registry grows if no group that is changed forgets the numbers that it has given. -/
theorem grows_modifyGroup {t : EventType} {f : Group Event → Group Event}
    (hf : ∀ group, r.group? t = some group → group.nextId ≤ (f group).nextId) :
    r.Grows (r.modifyGroup t f) := by
  intro type group hg
  rw [group?_modifyGroup, hg]
  split
  · next ht => exact ⟨f group, rfl, hf group (ht ▸ hg)⟩
  · exact ⟨group, rfl, Nat.le_refl _⟩

/-- A new binding takes the place of none. -/
theorem grows_add {x : Binding} (fresh : r.binding? x.type = none) : r.Grows (r.add x fresh) := by
  intro type group hg
  refine ⟨group, ?_, Nat.le_refl _⟩
  rw [group?, binding?_add]
  split
  · next ht =>
    rw [group?, ht, fresh] at hg
    exact absurd hg (by simp)
  · exact hg

end Registry

namespace Bus

variable (bus : Bus) (b : BusId) (c : ConsumerRef)

/-- Bus `b` without the slot of `c`. -/
def apart : Bus := { bus with registry := bus.registry.apart b c }

@[simp] theorem isClosed_apart : (bus.apart b c).isClosed = bus.isClosed := rfl

@[simp] theorem isDown_apart : (bus.apart b c).isDown = bus.isDown := rfl

/-- A bus with no groups is whole without `c`. -/
theorem apart_of_registry_empty {bus : Bus} (hr : bus.registry = .empty) : bus.apart b c = bus := by
  have hempty : bus.registry.apart b c = bus.registry := by
    rw [hr, Registry.apart]
    split <;> rfl
  rw [apart, hempty]

/-- **Publishing has the same fate** without `c`, and leaves the same bus but for the slot of `c`.
-/
theorem publish_apart (event : Event) :
    (bus.apart b c).publish event =
      ((bus.publish event).1, (bus.publish event).2.apart b c) := by
  have hregistry : (bus.registry.modifyGroup event.type (·.broadcast event)).apart b c =
      (bus.registry.apart b c).modifyGroup event.type (·.broadcast event) :=
    bus.registry.apart_modifyGroup b c fun group _ => group.apart_mapSlots _ c _ _
  unfold publish
  rw [isClosed_apart]
  split
  · rfl
  · have hsame : (bus.apart b c).registry = bus.registry.apart b c := rfl
    rw [hsame, Registry.get?_apart]
    cases bus.registry.get? event.type event.kind with
    | none => rfl
    | some found =>
      cases found with
      | error fault => rfl
      | ok group =>
        simp only [Option.map_some, Except.map]
        rw [apart, apart, hregistry]

/-- A bus without `c` can be closed when the bus can. -/
theorem close_apart : (bus.apart b c).close = bus.close.map (·.apart b c) := by
  unfold close
  rw [isClosed_apart]
  split <;> rfl

theorem abandon_apart : bus.abandon.apart b c = (bus.apart b c).abandon := by
  unfold abandon
  rw [isDown_apart]
  split <;> rfl

/-- Publishing gives no numbers and binds no type. -/
theorem grows_publish (event : Event) : bus.registry.Grows (bus.publish event).2.registry := by
  have hrefl : bus.registry.Grows bus.registry := fun _ group hg => ⟨group, hg, Nat.le_refl _⟩
  unfold publish
  split
  · exact hrefl
  · split
    · exact hrefl
    · exact hrefl
    · exact bus.registry.grows_modifyGroup fun _ _ => Nat.le_refl _

/-- A bus that is closed keeps its groups, for what is queued in them is delivered yet. -/
theorem registry_close {bus closed : Bus} (hc : bus.close = .ok closed) :
    closed.registry = bus.registry := by
  unfold close at hc
  split at hc
  · exact absurd hc (by simp)
  · obtain rfl := Except.ok.inj hc
    rfl

end Bus

/-- A place without the slot of `c`, if it is a place under `type` on bus `b`. -/
def Placement.apart (p : Placement) (b : BusId) (type : EventType) (c : ConsumerRef) : Placement :=
  { p with group := p.group.apart ⟨b, type⟩ c, registry := p.registry.apart b c }

namespace Bus

/-- To give a place binds a type at most. -/
theorem grows_place {bus : Bus} {context : Option RuntimeId} {type : EventType} {kind : Kind}
    {p : Placement} (hp : bus.place context type kind = .ok p) : bus.registry.Grows p.registry := by
  obtain ⟨-, ⟨hsame, -⟩ | ⟨fresh, -, hadd⟩⟩ := Bus.place_eq_ok hp
  · rw [hsame]
    exact fun _ group hg => ⟨group, hg, Nat.le_refl _⟩
  · rw [hadd]
    exact bus.registry.grows_add fresh

/-- A group that is new has no slots, so it is whole without anybody. -/
theorem newGroup_apart (bus : Bus) (b : BusId) (c : ConsumerRef) (type : EventType) (g : GroupRef) :
    ((bus.apart b c).newGroup type) = (bus.newGroup type).apart g c := by
  unfold Group.apart
  split <;> rfl

/-- **A place is given or refused** without `c` as it is with it: in the same group, on the same
runtime, and as a new binding or not. -/
theorem place_apart (bus : Bus) (b : BusId) (c : ConsumerRef) (context : Option RuntimeId)
    (type : EventType) (kind : Kind) :
    (bus.apart b c).place context type kind =
      (bus.place context type kind).map (·.apart b type c) := by
  unfold place
  rw [isClosed_apart]
  split
  · rfl
  · have hpinned : (bus.apart b c).pinned = bus.pinned := rfl
    rw [hpinned]
    cases bus.pinned.or context with
    | none => rfl
    | some runtime =>
      simp only
      cases hb : bus.registry.binding? type with
      -- the type is bound: to the group, or to one of another kind
      | some x =>
        have hx : (bus.registry.apart b c).binding? type =
            some { x with group := x.group.apart ⟨b, type⟩ c } := by
          rw [Registry.binding?_apart, hb, Option.map_some]
        show Except.map _ (Id.run ((bus.registry.apart b c).getOrCreate _ _ _)) = _
        rw [Registry.getOrCreate_of_bound hx, Registry.getOrCreate_of_bound hb]
        simp only [Binding.groupFor]
        split <;> rfl
      | none =>
        have hx : (bus.registry.apart b c).binding? type = none := by
          rw [Registry.binding?_apart, hb, Option.map_none]
        show Except.map _ (Id.run ((bus.registry.apart b c).getOrCreate _ _ _)) = _
        rw [Registry.getOrCreate_of_unbound hx, Registry.getOrCreate_of_unbound hb]
        -- the type is not bound, so a new group is, which has nobody in it
        have hadd := bus.registry.apart_add b c (x := ⟨type, kind, bus.newGroup type⟩) hb
        have hnew := bus.newGroup_apart b c type ⟨b, type⟩
        simp only [pure_bind, Id.run_pure, Except.map, Placement.apart, hadd, ← hnew]

end Bus

namespace Host

/-- To change a group into itself changes nothing, also when there is no such group. -/
theorem modifyGroup_id (h : Host) (g : GroupRef) : h.modifyGroup g id = h := by
  have hbus : ∀ bus : Bus,
      ({ bus with registry := bus.registry.modifyGroup g.type id } : Bus) = bus := by
    intro bus
    have hregistry : bus.registry.modifyGroup g.type id = bus.registry := by
      refine Registry.eq_of_bindings ((List.map_congr_left fun x _ => ?_).trans (List.map_id _))
      split <;> rfl
    rw [hregistry]
  have hbuses : h.buses.modify g.bus (fun bus =>
      { bus with registry := bus.registry.modifyGroup g.type id }) = h.buses := by
    apply List.ext_getElem?
    intro i
    rw [List.getElem?_modify]
    simp only [hbus]
    split <;> simp
  rw [modifyGroup, modifyBus, hbuses]

/-- A host without the slot of `c` has each bus without it. -/
theorem bus?_without (h : Host) (c : ConsumerRef) (b : BusId) :
    (h.without c).bus? b = (h.bus? b).map (·.apart b c) := by
  refine (h.bus?_modifyBus c.group.bus _ b).trans ?_
  unfold Bus.apart Registry.apart
  split
  · next hb =>
    subst hb
    simp
  · simp

/-- And each group. -/
theorem group?_without (h : Host) (c : ConsumerRef) (g : GroupRef) :
    (h.without c).group? g = (h.group? g).map (·.apart g c) := by
  refine (h.group?_modifyGroup c.group (·.detach c.id) g).trans ?_
  unfold Group.apart
  split
  · next hg => simp [hg]
  · simp

end Host

end EventBus
