import EventBus.Group
import EventBus.Keyed

/-!
# What operations do to the slots

Every operation on a group is told by what it does to `slot?`, the slot of each id. The rest of a
group's views follow: who is live, and how many.
-/

set_option autoImplicit false

namespace EventBus

namespace Group

variable {α : Type} (g : Group α)

/-! ## Ids -/

theorem id_of_slot? {g : Group α} {id : ConsumerId} {s : Slot α} (h : g.slot? id = some s) :
    s.id = id := by
  simpa using List.find?_some h

theorem mem_of_slot? {g : Group α} {id : ConsumerId} {s : Slot α} (h : g.slot? id = some s) :
    s ∈ g.slots :=
  List.mem_of_find?_eq_some h

theorem id_lt_nextId {g : Group α} {s : Slot α} (h : s ∈ g.slots) : s.id < g.nextId :=
  (List.pairwise_append.1 g.ascending).2.2 _ (List.mem_map_of_mem h) _ (by simp)

theorem ids_nodup : (g.slots.map (·.id)).Nodup :=
  (List.pairwise_append.1 g.ascending).1.imp Nat.ne_of_lt

/-- A slot is looked up by its id, and no two slots have one id. -/
theorem slot?_eq_some_iff {g : Group α} {id : ConsumerId} {s : Slot α} :
    g.slot? id = some s ↔ s ∈ g.slots ∧ s.id = id := by
  refine ⟨fun h => ⟨mem_of_slot? h, id_of_slot? h⟩, ?_⟩
  rintro ⟨hs, rfl⟩
  exact find?_of_key g.ids_nodup hs fun _ => beq_iff_eq

/-- The next id is that of no slot yet. -/
theorem slot?_nextId : g.slot? g.nextId = none := by
  simp only [slot?, List.find?_eq_none, beq_iff_eq]
  exact fun s hs => Nat.ne_of_lt (id_lt_nextId hs)

/-! ## Operations -/

@[simp] theorem slot?_mapSlots (f : Slot α → Slot α) (keeps : ∀ s, (f s).id = s.id)
    (id : ConsumerId) : (g.mapSlots f keeps).slot? id = (g.slot? id).map f := by
  have same : ((·.id == id) ∘ f : Slot α → Bool) = (·.id == id) := by
    funext s; simp [keeps]
  rw [slot?, mapSlots, List.find?_map, same, slot?]

@[simp] theorem slot?_modifySlot (i : ConsumerId) (f : Slot α → Slot α)
    (keeps : ∀ s, (f s).id = s.id) (j : ConsumerId) :
    (g.modifySlot i f keeps).slot? j = if j = i then (g.slot? j).map f else g.slot? j := by
  rw [modifySlot, slot?_mapSlots]
  cases found : g.slot? j with
  | none => simp
  | some s =>
    have := id_of_slot? found
    by_cases h : j = i <;> simp_all

/-- An event that is broadcast is offered to every slot. -/
@[simp] theorem slot?_broadcast (event : α) (id : ConsumerId) :
    (g.broadcast event).slot? id = (g.slot? id).map (·.accept event) := by
  simp [broadcast]

@[simp] theorem slot?_stop (i j : ConsumerId) :
    (g.stop i).2.slot? j = if j = i then (g.slot? j).map Slot.stop else g.slot? j :=
  g.slot?_modifySlot i Slot.stop (fun _ => rfl) j

/-- A slot that is detached is gone, and its id is not given again. -/
@[simp] theorem slot?_detach (i j : ConsumerId) :
    (g.detach i).slot? j = if j = i then none else g.slot? j := by
  simp only [slot?, detach, List.find?_filter]
  split
  · simp_all
  · next h =>
    congr 1
    funext s
    by_cases hs : s.id = j <;> simp_all

/-- Who is attached gets an empty slot. -/
@[simp] theorem slot?_attach (id : ConsumerId) :
    g.attach.2.slot? id = if id = g.nextId then some { id := g.nextId } else g.slot? id := by
  have fresh := g.slot?_nextId
  simp only [slot?, attach, List.find?_append, List.find?_singleton, beq_iff_eq,
    eq_comm (a := id)] at fresh ⊢
  split
  · next h => subst h; simp [fresh]
  · simp

/-! ## The three outcomes of a look -/

section

variable {g : Group α} {id : ConsumerId} {s : Slot α} {buffer : List α}

/-- Who finds events takes them all, and leaves its buffer in exchange. -/
theorem take_of_queue (hs : g.slot? id = some s) (hq : s.queue ≠ []) :
    g.take id buffer =
      (.batch, s.queue, g.modifySlot id (fun s => { s with queue := buffer }) fun _ => rfl) := by
  simp [take, hs, hq]

/-- Who finds nothing changes nothing, and gets its own buffer back. -/
theorem take_of_empty (hs : g.slot? id = some s) (hq : s.queue = []) (live : s.stopped = false) :
    g.take id buffer = (.empty, buffer, g) := by
  simp [take, hs, hq, live]

/-- Who finds nothing in a slot that is stopped has come to its end. -/
theorem take_of_drained (hs : g.slot? id = some s) (hq : s.queue = [])
    (stopped : s.stopped = true) : g.take id buffer = (.stopped, buffer, g.detach id) := by
  simp [take, hs, hq, stopped]

end

@[simp] theorem flusher_take (id : ConsumerId) (buffer : List α) :
    (g.take id buffer).2.2.flusher = g.flusher := by
  unfold take
  split
  · rfl
  · split
    · split <;> rfl
    · rfl

@[simp] theorem nextId_take (id : ConsumerId) (buffer : List α) :
    (g.take id buffer).2.2.nextId = g.nextId := by
  unfold take
  split
  · rfl
  · split
    · split <;> rfl
    · rfl

/-! ## Who is live -/

/-- A consumer is live while its slot is there and not stopped. -/
theorem isLive_iff {g : Group α} {id : ConsumerId} :
    g.isLive id = true ↔ ∃ s, g.slot? id = some s ∧ s.stopped = false := by
  simp only [isLive, List.any_eq_true, Bool.and_eq_true, beq_iff_eq, slot?_eq_some_iff]
  grind

/-- The count of a group is that of its live consumers. -/
theorem count_eq_length_live : g.count = g.live.length := by
  simp [count, live, List.countP_eq_length_filter]

end Group

end EventBus
