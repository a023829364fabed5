import EventBus.Keyed
import EventBus.Registry

/-!
# What operations do to the bindings

Every operation on a registry is told by what it does to `binding?`, the binding of each type.
-/

set_option autoImplicit false

namespace EventBus

namespace Registry

variable {κ : Type} (r : Registry κ)

theorem type_of_binding? {r : Registry κ} {type : EventType} {b : Binding κ}
    (h : r.binding? type = some b) : b.type = type := by
  simpa using List.find?_some h

/-- A type is bound at most once. -/
theorem binding?_eq_some_iff {r : Registry κ} {type : EventType} {b : Binding κ} :
    r.binding? type = some b ↔ b ∈ r.bindings ∧ b.type = type := by
  refine ⟨fun h => ⟨List.mem_of_find?_eq_some h, type_of_binding? h⟩, ?_⟩
  rintro ⟨hb, rfl⟩
  exact find?_of_key r.distinct hb fun _ => beq_iff_eq

/-- A new binding is found under its type, and leaves the others as they are. -/
@[simp] theorem binding?_add (b : Binding κ) (fresh : r.binding? b.type = none) (type : EventType) :
    (r.add b fresh).binding? type = if type = b.type then some b else r.binding? type := by
  simp only [binding?, add, List.find?_append, List.find?_singleton, beq_iff_eq,
    eq_comm (a := type)] at fresh ⊢
  split
  · next h => subst h; simp [fresh]
  · simp

/-- A group that is changed stays bound to its type and kind. -/
@[simp] theorem binding?_modifyGroup (type : EventType) (f : Group Event → Group Event)
    (other : EventType) :
    (r.modifyGroup type f).binding? other =
      if other = type then (r.binding? other).map fun b => { b with group := f b.group }
      else r.binding? other := by
  have same : ∀ b : Binding κ,
      ((if b.type = type then { b with group := f b.group } else b).type == other) =
        (b.type == other) := fun b => by split <;> rfl
  simp only [binding?, modifyGroup, List.find?_map, Function.comp_def, same]
  cases found : r.bindings.find? (·.type == other) with
  | none => simp
  | some b =>
    have := type_of_binding? (r := r) found
    by_cases h : other = type <;> simp_all

@[simp] theorem group?_modifyGroup (type : EventType) (f : Group Event → Group Event)
    (other : EventType) :
    (r.modifyGroup type f).group? other =
      if other = type then (r.group? other).map f else r.group? other := by
  simp only [group?, binding?_modifyGroup]
  split <;> simp [Function.comp_def]

/-- A registry is its bindings; that they are consistent is a proof. -/
theorem eq_of_bindings {r r' : Registry κ} (h : r.bindings = r'.bindings) : r = r' := by
  cases r
  cases r'
  cases h
  rfl

theorem modifyGroup_congr {r : Registry κ} {type : EventType} {group : Group Event}
    {f f' : Group Event → Group Event} (hg : r.group? type = some group)
    (hf : f group = f' group) : r.modifyGroup type f = r.modifyGroup type f' := by
  obtain ⟨b, hb, rfl⟩ := Option.map_eq_some_iff.1 hg
  refine eq_of_bindings (List.map_congr_left fun a ha => ?_)
  by_cases ht : a.type = type
  · have same : a = b := Option.some.inj ((binding?_eq_some_iff.2 ⟨ha, ht⟩).symm.trans hb)
    rw [if_pos ht, if_pos ht, same, hf]
  · rw [if_neg ht, if_neg ht]

theorem modifyGroup_self {r : Registry κ} {type : EventType} {group : Group Event}
    {f : Group Event → Group Event} (hg : r.group? type = some group) (hf : f group = group) :
    r.modifyGroup type f = r := by
  obtain ⟨b, hb, rfl⟩ := Option.map_eq_some_iff.1 hg
  refine eq_of_bindings ((List.map_congr_left fun a ha => ?_).trans (List.map_id _))
  by_cases ht : a.type = type
  · obtain rfl : a = b := Option.some.inj ((binding?_eq_some_iff.2 ⟨ha, ht⟩).symm.trans hb)
    rw [if_pos ht, hf]
    rfl
  · rw [if_neg ht]
    rfl

theorem modifyGroup_modifyGroup (type : EventType) (f k : Group Event → Group Event) :
    (r.modifyGroup type f).modifyGroup type k = r.modifyGroup type (k ∘ f) := by
  refine eq_of_bindings ?_
  simp only [modifyGroup, List.map_map]
  refine List.map_congr_left fun b _ => ?_
  by_cases ht : b.type = type <;> simp [ht]

@[simp] theorem size_modifyGroup (type : EventType) (f : Group Event → Group Event) :
    (r.modifyGroup type f).size = r.size := by
  simp [size, modifyGroup]

/-! ## Creation

Whether the group is made depends on the type alone, and not on how it would be made. -/

section

variable [DecidableEq κ] [Named κ] {m : Type → Type} [Monad m] {r : Registry κ}
  {type : EventType} {kind : κ} {b : Binding κ} {make : m (Group Event)}

/-- A binding has a group for its own kind, and for no other. -/
theorem groupFor_same (b : Binding κ) : b.groupFor b.kind = .ok b.group := if_pos rfl

/-- For another kind it answers with a conflict that names both. -/
theorem groupFor_other (hb : r.binding? type = some b) (hk : kind ≠ b.kind) :
    b.groupFor kind = .error (.conflict type (Named.name kind) (Named.name b.kind)) := by
  rw [Binding.groupFor, if_neg hk.symm, type_of_binding? hb]

/-- A type that is bound makes no group. -/
theorem getOrCreate_of_bound (hb : r.binding? type = some b) :
    r.getOrCreate type kind make = pure ((b.groupFor kind).map fun group => (group, false, r)) := by
  have hget : r.get? type kind = some (b.groupFor kind) := by rw [get?, hb, Option.map_some]
  unfold getOrCreate
  split
  · next found heq =>
    obtain rfl := Option.some.inj (hget.symm.trans heq)
    rfl
  · next heq => exact absurd (hget.symm.trans heq) (by simp)

/-- A type that is not bound is bound to the kind that comes first. -/
theorem getOrCreate_of_unbound (hb : r.binding? type = none) :
    r.getOrCreate type kind make = do
      let group ← make
      return .ok (group, true, r.add ⟨type, kind, group⟩ hb) := by
  have hget : r.get? type kind = none := get?_eq_none_iff.mpr hb
  unfold getOrCreate
  split
  · next heq => exact absurd (hget.symm.trans heq) (by simp)
  · rfl

end

end Registry

end EventBus
