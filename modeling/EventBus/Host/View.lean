import EventBus.Host
import EventBus.Registry.View

/-!
# What changes do to the parts of a program

The parts of a program are looked up one by one: buses by number, groups by bus and type, tasks by
consumer, loops by number. Each change of one part is told by what it does to every look-up of its
sort; on the look-ups of the other sorts it has no effect, which needs no lemma, since they do not
mention the part.
-/

set_option autoImplicit false

namespace EventBus

namespace Host

variable (h : Host)

/-! ## Buses and groups -/

/-- A change of one bus leaves the others as they are. -/
@[simp] theorem bus?_modifyBus (b : BusId) (f : Bus → Bus) (other : BusId) :
    (h.modifyBus b f).bus? other = if other = b then (h.bus? other).map f else h.bus? other := by
  simp only [bus?, modifyBus, List.getElem?_modify, eq_comm (a := other)]
  split <;> simp

/-- A change of one group leaves the others as they are, also those of its bus. -/
@[simp] theorem group?_modifyGroup (g : GroupRef) (f : Group Event → Group Event)
    (other : GroupRef) :
    (h.modifyGroup g f).group? other =
      if other = g then (h.group? other).map f else h.group? other := by
  obtain ⟨b, type⟩ := g
  obtain ⟨b', type'⟩ := other
  simp only [group?, modifyGroup, bus?_modifyBus, GroupRef.mk.injEq]
  by_cases same : b' = b
  · cases h.bus? b' <;> simp [same]
  · simp [same]

/-- No change of a group shuts its bus down. -/
@[simp] theorem isDown_modifyGroup (g : GroupRef) (f : Group Event → Group Event) (b : BusId) :
    (h.modifyGroup g f).isDown b = h.isDown b := by
  simp only [isDown, modifyGroup, bus?_modifyBus]
  split
  · cases h.bus? b <;> simp [Bus.isDown]
  · rfl

/-! ## Tasks -/

/-- A task is looked up by its consumer, and a loop by its number. -/
theorem consumer_of_task? {h : Host} {c : ConsumerRef} {t : Task} (found : h.task? c = some t) :
    t.consumer = c := by
  simpa using List.find?_some found

theorem mem_of_task? {h : Host} {c : ConsumerRef} {t : Task} (found : h.task? c = some t) :
    t ∈ h.tasks :=
  List.mem_of_find?_eq_some found

@[simp] theorem task?_eraseTask (c other : ConsumerRef) :
    (h.eraseTask c).task? other = if other = c then none else h.task? other := by
  simp only [task?, eraseTask, List.find?_filter]
  split
  · simp_all
  · next different =>
    congr 1
    funext t
    by_cases ht : t.consumer = other <;> simp_all

@[simp] theorem task?_setTask (t : Task) (c : ConsumerRef) :
    (h.setTask t).task? c =
      if c = t.consumer then (h.task? c).map fun _ => t else h.task? c := by
  have same : ((fun s : Task => decide (s.consumer = c)) ∘
      fun s => if s.consumer = t.consumer then t else s) = fun s => decide (s.consumer = c) := by
    funext s
    by_cases hs : s.consumer = t.consumer <;> simp [hs]
  simp only [task?, setTask, List.find?_map, same]
  cases found : h.tasks.find? (·.consumer = c) with
  | none => simp
  | some s =>
    have : s.consumer = c := by simpa using List.find?_some found
    by_cases hc : c = t.consumer <;> simp_all

/-! ## Loops -/

theorem id_of_loop? {h : Host} {id : LoopId} {l : FlushLoop} (found : h.loop? id = some l) :
    l.id = id := by
  simpa using List.find?_some found

theorem mem_of_loop? {h : Host} {id : LoopId} {l : FlushLoop} (found : h.loop? id = some l) :
    l ∈ h.loops :=
  List.mem_of_find?_eq_some found

@[simp] theorem loop?_eraseLoop (id other : LoopId) :
    (h.eraseLoop id).loop? other = if other = id then none else h.loop? other := by
  simp only [loop?, eraseLoop, List.find?_filter]
  split
  · simp_all
  · next different =>
    congr 1
    funext l
    by_cases hl : l.id = other <;> simp_all

@[simp] theorem loop?_setLoop (l : FlushLoop) (id : LoopId) :
    (h.setLoop l).loop? id = if id = l.id then (h.loop? id).map fun _ => l else h.loop? id := by
  have same : ((fun s : FlushLoop => decide (s.id = id)) ∘
      fun s => if s.id = l.id then l else s) = fun s => decide (s.id = id) := by
    funext s
    by_cases hs : s.id = l.id <;> simp [hs]
  simp only [loop?, setLoop, List.find?_map, same]
  cases found : h.loops.find? (·.id = id) with
  | none => simp
  | some s =>
    have : s.id = id := by simpa using List.find?_some found
    by_cases hid : id = l.id <;> simp_all

end Host

end EventBus
