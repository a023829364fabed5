/-!
# Lists whose members have distinct keys

The slots of a group have ids, its bindings have types, tasks have their consumers and flush loops
their numbers. Whoever is in such a list is the one that is found under its key.
-/

set_option autoImplicit false

namespace EventBus

theorem find?_of_key {α κ : Type} {key : α → κ} {xs : List α} (distinct : (xs.map key).Nodup)
    {x : α} (hx : x ∈ xs) {p : α → Bool} (hp : ∀ y, p y = true ↔ key y = key x) :
    xs.find? p = some x := by
  induction xs with
  | nil => simp at hx
  | cons y rest ih =>
    rw [List.map_cons, List.nodup_cons] at distinct
    rcases List.mem_cons.1 hx with rfl | hx
    · exact List.find?_cons_of_pos ((hp x).mpr rfl)
    · have other : ¬p y = true := fun h => distinct.1 ((hp y).mp h ▸ List.mem_map_of_mem hx)
      rw [List.find?_cons_of_neg other]
      exact ih distinct.2 hx

end EventBus
