import EventBus.Group.View
import EventBus.Registry.Operation
import EventBus.Registry.View
import Mathlib.Data.Finset.Card
import Mathlib.Data.List.Induction
import Mathlib.Data.List.TakeWhile

/-!
# The first binder of a type wins

What a registry has under a type is told by the history of its operations alone: the first creation
under the type settles the kind and the capacity, and the group is what the operations that follow
under that kind made of it. Later creations, whatever their kind and capacity, and whatever else is
done under another kind, have no part in it.

The proof goes by induction on the history from its end: an operation that is added founds a type
that was not founded, changes the group of its own type and kind, or does nothing to the type at
all. `binding?_after` is the statement that is carried along.
-/

set_option autoImplicit false

namespace EventBus

namespace Registry

variable {κ : Type}

/-! ## What a history says of a type -/

namespace Operation

/-- The kind and the capacity with which an operation would bind a type. -/
def founds? (type : EventType) : Operation κ → Option (κ × Nat)
  | getOrCreate t kind capacity => if t = type then some (kind, capacity) else none
  | _ => none

/-- What an operation makes of the group of a type that is bound to `kind`. -/
def change [DecidableEq κ] (type : EventType) (kind : κ) (op : Operation κ) (group : Group Event) :
    Group Event :=
  match op with
  | attach t k => if t = type ∧ k = kind then group.attach.2 else group
  | stop t k id => if t = type ∧ k = kind then (group.stop id).2 else group
  | detach t k id => if t = type ∧ k = kind then group.detach id else group
  | _ => group

/-- The type and the kind of the group that an operation asks for. -/
def asks? : Operation κ → Option (EventType × κ)
  | getOrCreate t k _ | get t k | attach t k | stop t k _ | detach t k _ => some (t, k)
  | count _ => none

/-- The type of a creation that succeeded, according to its outcome. -/
def granted? : Operation κ → Outcome → Option EventType
  | getOrCreate type _ _, .placed .. => some type
  | _, _ => none

theorem type_of_granted? {t type : EventType} {kind : κ} {capacity : Nat} {outcome : Outcome}
    (hg : (getOrCreate t kind capacity).granted? outcome = some type) : t = type := by
  cases outcome <;> first | exact Option.some.inj hg | exact absurd hg (by simp [granted?])

theorem capacity_change [DecidableEq κ] (type : EventType) (kind : κ) (op : Operation κ)
    (group : Group Event) :
    (op.change type kind group).capacity = group.capacity := by
  cases op <;> simp only [change] <;> (try split) <;> rfl

end Operation

/-- Who bound a type: the kind and the capacity of the first creation under it. -/
def founder? (ops : List (Operation κ)) (type : EventType) : Option (κ × Nat) :=
  ops.findSome? (·.founds? type)

/-- The operations from the first creation under a type on. -/
def since (ops : List (Operation κ)) (type : EventType) : List (Operation κ) :=
  ops.dropWhile fun op => (op.founds? type).isNone

/-- What became of the group that was made under a type for `kind` with `capacity`. -/
def grown [DecidableEq κ] (ops : List (Operation κ)) (type : EventType) (kind : κ)
    (capacity : Nat) : Group Event :=
  (since ops type).foldl (fun group op => op.change type kind group) (.empty type capacity)

section

variable {ops : List (Operation κ)} {type : EventType} {op : Operation κ}

theorem founder?_append (ops more : List (Operation κ)) (type : EventType) :
    founder? (ops ++ more) type = (founder? ops type).or (founder? more type) :=
  List.findSome?_append

theorem since_of_founder? {f : κ × Nat} (hf : founder? ops type = some f) :
    since (ops ++ [op]) type = since ops type ++ [op] := by
  obtain ⟨x, hx, hsome⟩ := List.exists_of_findSome?_eq_some hf
  have hne : (since ops type).isEmpty = false := by
    rw [List.isEmpty_eq_false_iff, since, ne_eq, List.dropWhile_eq_nil_iff]
    intro hall
    exact absurd (hall x hx) (by simp [hsome])
  rw [since, List.dropWhile_append, ← since, hne]
  rfl

theorem since_of_not_founded (hf : founder? ops type = none) :
    since (ops ++ [op]) type = since [op] type := by
  have hnone : since ops type = [] := by
    rw [since, List.dropWhile_eq_nil_iff]
    intro x hx
    rw [List.findSome?_eq_none_iff.mp hf x hx]
    rfl
  rw [since, List.dropWhile_append, ← since, hnone]
  rfl

variable [DecidableEq κ]

theorem grown_of_founder? {f : κ × Nat} (hf : founder? ops type = some f) (kind : κ)
    (capacity : Nat) :
    grown (ops ++ [op]) type kind capacity =
      op.change type kind (grown ops type kind capacity) := by
  rw [grown, since_of_founder? hf, List.foldl_append]
  rfl

/-- A group is as it was made when the creation that makes it is over. -/
theorem grown_of_not_founded (hf : founder? ops type = none) (kind : κ) (capacity : Nat) :
    grown (ops ++ [op]) type kind capacity = .empty type capacity := by
  rw [grown, since_of_not_founded hf, since]
  cases op with
  | getOrCreate =>
    rw [List.dropWhile_cons]
    split <;> rfl
  | _ => rfl

theorem capacity_grown (ops : List (Operation κ)) (type : EventType) (kind : κ) (capacity : Nat) :
    (grown ops type kind capacity).capacity = capacity := by
  unfold grown
  induction since ops type using List.reverseRecOn with
  | nil => rfl
  | append_singleton rest op ih =>
    rw [List.foldl_append, List.foldl_cons, List.foldl_nil, op.capacity_change]
    exact ih

end

/-! ## One operation -/

theorem group?_of_binding? {r : Registry κ} {type : EventType} {b : Binding κ}
    (hb : r.binding? type = some b) : r.group? type = some b.group := by
  rw [group?, hb, Option.map_some]

section

variable [DecidableEq κ] [Named κ] {r : Registry κ} {type : EventType} {kind : κ} {b : Binding κ}
  {f : Group Event → Outcome × Group Event}

theorem withGroup_of_unbound (hb : r.binding? type = none) :
    r.withGroup type kind f = (.nothing, r) := by
  rw [withGroup, get?_eq_none_iff.mpr hb]

theorem withGroup_of_bound (hb : r.binding? type = some b) :
    r.withGroup type b.kind f =
      ((f b.group).1, r.modifyGroup type fun _ => (f b.group).2) := by
  rw [withGroup, get?, hb, Option.map_some, groupFor_same b]

theorem withGroup_of_conflict (hb : r.binding? type = some b) (hk : kind ≠ b.kind) :
    r.withGroup type kind f =
      (.refused (.conflict type (Named.name kind) (Named.name b.kind)), r) := by
  rw [withGroup, get?, hb, Option.map_some, groupFor_other hb hk]

theorem create_of_unbound (hb : r.binding? type = none) (capacity : Nat) :
    r.operate (.getOrCreate type kind capacity) =
      let made := r.add ⟨type, kind, .empty type capacity⟩ hb
      (.placed true 1 (made.place type) (.empty type capacity), made) := by
  rw [operate, getOrCreate_of_unbound hb]
  rfl

theorem create_of_bound (hb : r.binding? type = some b) (capacity : Nat) :
    r.operate (.getOrCreate type b.kind capacity) =
      (.placed false 0 (r.place type) b.group, r) := by
  rw [operate, getOrCreate_of_bound hb, groupFor_same b]
  rfl

theorem get_of_bound (hb : r.binding? type = some b) :
    r.operate (.get type b.kind) = (.found (r.place type) b.group, r) := by
  rw [operate, withGroup_of_bound hb, modifyGroup_self (group?_of_binding? hb) rfl]

/-- An operation that asks for a type under another kind than the one it is bound to is refused. -/
theorem operate_of_conflict (hb : r.binding? type = some b) (hk : kind ≠ b.kind) {op : Operation κ}
    (hop : op.asks? = some (type, kind)) :
    r.operate op = (.refused (.conflict type (Named.name kind) (Named.name b.kind)), r) := by
  cases op with
  | getOrCreate t k capacity =>
    obtain ⟨rfl, rfl⟩ := Prod.mk.inj (Option.some.inj hop)
    rw [operate, getOrCreate_of_bound hb, groupFor_other hb hk]
    rfl
  | get t k | attach t k | stop t k | detach t k =>
    obtain ⟨rfl, rfl⟩ := Prod.mk.inj (Option.some.inj hop)
    rw [operate, withGroup_of_conflict hb hk]
  | count t => exact absurd hop (by simp [Operation.asks?])

end

/-! ## What an operation does to a binding -/

section

variable [DecidableEq κ] [Named κ] (r : Registry κ)

theorem binding?_withGroup (t : EventType) (k : κ) (f : Group Event → Outcome × Group Event)
    (type : EventType) :
    (r.withGroup t k f).2.binding? type =
      (r.binding? type).map fun b =>
        { b with group := if t = type ∧ k = b.kind then (f b.group).2 else b.group } := by
  cases hb : r.binding? t with
  | none =>
    rw [withGroup_of_unbound hb]
    by_cases ht : t = type
    · subst ht
      rw [hb]
      rfl
    · simp [ht]
  | some b =>
    by_cases hk : k = b.kind
    · subst hk
      rw [withGroup_of_bound hb, binding?_modifyGroup]
      by_cases ht : t = type
      · subst ht
        simp [hb]
      · simp [ht, Ne.symm ht]
    · rw [withGroup_of_conflict hb hk]
      by_cases ht : t = type
      · subst ht
        simp [hb, hk]
      · simp [ht]

/-- A type that is bound stays bound to its kind, and only operations of that kind change its
group; one that is not is bound by a creation. -/
theorem binding?_operate (op : Operation κ) (type : EventType) :
    (r.operate op).2.binding? type =
      match r.binding? type with
      | some b => some { b with group := op.change type b.kind b.group }
      | none => (op.founds? type).map fun (kind, capacity) =>
          ⟨type, kind, .empty type capacity⟩ := by
  cases op with
  | getOrCreate t k capacity =>
    cases ht : r.binding? t with
    | none =>
      rw [create_of_unbound ht, binding?_add]
      by_cases hsame : type = t
      · subst hsame
        simp [ht, Operation.founds?]
      · cases r.binding? type <;> simp [hsame, Ne.symm hsame, Operation.founds?, Operation.change]
    | some b =>
      -- a type that is bound is not bound again, whether the kind agrees or not
      have hkeep : (r.operate (.getOrCreate t k capacity)).2 = r := by
        by_cases hk : k = b.kind
        · subst hk
          rw [create_of_bound ht]
        · rw [operate_of_conflict ht hk rfl]
      rw [hkeep]
      by_cases hsame : t = type
      · subst hsame
        rw [ht]
        rfl
      · cases r.binding? type <;> simp [hsame, Operation.founds?, Operation.change]
  | get t k =>
    rw [operate, binding?_withGroup]
    cases r.binding? type <;> simp [Operation.founds?, Operation.change]
  | attach t k | stop t k | detach t k =>
    rw [operate, binding?_withGroup]
    cases r.binding? type <;> simp [Operation.founds?, Operation.change]
  | count t =>
    rw [operate]
    cases r.binding? type <;> simp [Operation.founds?, Operation.change]

end

/-! ## The order of binding -/

/-- The types that are bound, in the order in which they were. -/
def types (r : Registry κ) : List EventType := r.bindings.map (·.type)

section

variable {r : Registry κ} {type : EventType}

theorem mem_types_iff : type ∈ r.types ↔ ∃ b, r.binding? type = some b := by
  simp only [types, List.mem_map, binding?_eq_some_iff]

theorem size_eq_length_types : r.size = r.types.length := by
  rw [types, List.length_map, size]

theorem index?_eq_types : r.index? type = r.types.findIdx? (· == type) := by
  rw [types, List.findIdx?_map]
  rfl

theorem types_modifyGroup (type : EventType) (f : Group Event → Group Event) :
    (r.modifyGroup type f).types = r.types := by
  simp only [types, modifyGroup, List.map_map]
  refine List.map_congr_left fun b _ => ?_
  by_cases ht : b.type = type <;> simp [ht]

theorem types_add {b : Binding κ} (hb : r.binding? b.type = none) :
    (r.add b hb).types = r.types ++ [b.type] := by
  simp [types, add]

/-- Bindings are made at the end and never undone, so a type that is bound keeps its place. -/
theorem types_operate [DecidableEq κ] [Named κ] (op : Operation κ) :
    r.types <+: (r.operate op).2.types := by
  have hwith : ∀ t k f, r.types <+: (r.withGroup t k f).2.types := by
    intro t k f
    unfold withGroup
    split
    · exact List.prefix_rfl
    · exact List.prefix_rfl
    · rw [types_modifyGroup]
  cases op with
  | getOrCreate t k capacity =>
    cases ht : r.binding? t with
    | none =>
      rw [create_of_unbound ht]
      exact ⟨_, (types_add ht).symm⟩
    | some b =>
      by_cases hk : k = b.kind
      · subst hk
        rw [create_of_bound ht]
      · rw [operate_of_conflict ht hk rfl]
  | get | attach | stop | detach => exact hwith _ _ _
  | count => exact List.prefix_rfl

theorem index?_of_prefix {r' : Registry κ} {place : Nat} (hp : r.types <+: r'.types)
    (hi : r.index? type = some place) : r'.index? type = some place := by
  obtain ⟨rest, hrest⟩ := hp
  rw [index?_eq_types] at hi ⊢
  rw [← hrest, List.findIdx?_append, hi]
  rfl

theorem index?_of_binding? {b : Binding κ} (hb : r.binding? type = some b) :
    r.index? type = some (r.place type) := by
  have hsome : (r.index? type).isSome = true := by
    rw [index?_eq_types, List.findIdx?_isSome, List.any_eq_true]
    exact ⟨type, mem_types_iff.mpr ⟨b, hb⟩, beq_self_eq_true type⟩
  obtain ⟨i, hi⟩ := Option.isSome_iff_exists.mp hsome
  rw [place, hi, Option.getD_some]

theorem place_add {b : Binding κ} (hb : r.binding? b.type = none) :
    (r.add b hb).place b.type = r.size := by
  have hnone : r.types.findIdx? (· == b.type) = none := by
    rw [List.findIdx?_eq_none_iff]
    intro t ht
    by_contra heq
    obtain rfl : t = b.type := by simpa using heq
    obtain ⟨x, hx⟩ := mem_types_iff.mp ht
    exact absurd (hb.symm.trans hx) (by simp)
  rw [place, index?_eq_types, types_add hb, List.findIdx?_append, hnone]
  simp [size_eq_length_types]

end

/-! ## Histories -/

variable [DecidableEq κ] [Named κ]

/-- The registry after some operations. -/
def after (r : Registry κ) (ops : List (Operation κ)) : Registry κ :=
  ops.foldl (fun r op => (r.operate op).2) r

theorem after_append (r : Registry κ) (ops more : List (Operation κ)) :
    r.after (ops ++ more) = (r.after ops).after more :=
  List.foldl_append

theorem run_append (r : Registry κ) (ops more : List (Operation κ)) :
    r.run (ops ++ more) = r.run ops ++ (r.after ops).run more := by
  induction ops generalizing r with
  | nil => rfl
  | cons op rest ih =>
    show _ :: (r.operate op).2.run (rest ++ more) = _ :: _
    rw [ih]
    rfl

theorem length_run (r : Registry κ) (ops : List (Operation κ)) :
    (r.run ops).length = ops.length := by
  induction ops generalizing r with
  | nil => rfl
  | cons op rest ih => exact congrArg (· + 1) (ih (r.operate op).2)

theorem types_after (r : Registry κ) (ops : List (Operation κ)) :
    r.types <+: (r.after ops).types := by
  induction ops generalizing r with
  | nil => exact List.prefix_rfl
  | cons op rest ih => exact (types_operate op).trans (ih (r.operate op).2)

/-- The bindings of a registry are those that its history tells of. -/
theorem binding?_after (ops : List (Operation κ)) (type : EventType) :
    (empty.after ops).binding? type =
      (founder? ops type).map fun (kind, capacity) =>
        ⟨type, kind, grown ops type kind capacity⟩ := by
  induction ops using List.reverseRecOn with
  | nil => rfl
  | append_singleton ops op ih =>
    have hstep : empty.after (ops ++ [op]) = ((empty.after ops).operate op).2 :=
      after_append empty ops [op]
    rw [hstep, binding?_operate, ih, founder?_append]
    cases hf : founder? ops type with
    | none =>
      have hop : founder? [op] type = op.founds? type := by simp [founder?]
      rw [Option.none_or, hop]
      refine Option.map_congr fun ⟨kind, capacity⟩ _ => ?_
      simp only [grown_of_not_founded hf]
    | some f =>
      obtain ⟨kind, capacity⟩ := f
      simp only [Option.map_some, Option.some_or, grown_of_founder? hf]

/-- The types of the creations of a run that succeeded, be it that the group was there. -/
def granted (ops : List (Operation κ)) : List EventType :=
  (ops.zip (empty.run ops)).filterMap fun (op, outcome, _) => op.granted? outcome

theorem granted_append (ops : List (Operation κ)) (op : Operation κ) :
    granted (ops ++ [op]) =
      granted ops ++ (op.granted? ((empty.after ops).operate op).1).toList := by
  rw [granted, run_append, List.zip_append (length_run empty ops).symm, List.filterMap_append,
    ← granted]
  rfl

/-- A type is bound if and only if a creation under it succeeded. -/
theorem mem_granted_iff (ops : List (Operation κ)) (type : EventType) :
    type ∈ granted ops ↔ type ∈ (empty.after ops).types := by
  induction ops using List.reverseRecOn with
  | nil => simp [granted, after, types, empty]
  | append_singleton ops op ih =>
    have hstep : empty.after (ops ++ [op]) = ((empty.after ops).operate op).2 :=
      after_append empty ops [op]
    rw [granted_append, List.mem_append, ih, hstep, Option.mem_toList, mem_types_iff,
      mem_types_iff, binding?_operate]
    cases hb : (empty.after ops).binding? type with
    | some b => simp
    | none =>
      cases op with
      | getOrCreate t kind capacity =>
        by_cases ht : t = type
        · subst ht
          simp [create_of_unbound hb, Operation.granted?, Operation.founds?]
        · have hne : ∀ outcome,
              (Operation.getOrCreate t kind capacity).granted? outcome ≠ some type :=
            fun _ hg => ht (Operation.type_of_granted? hg)
          simp [Operation.founds?, ht, hne]
      | _ => simp [Operation.founds?, Operation.granted?]

/-- The size of a registry is the number of distinct types under which a creation succeeded. -/
theorem size_after (ops : List (Operation κ)) :
    (empty.after ops).size = (granted ops).toFinset.card := by
  have hsame : (granted ops).toFinset = (empty.after ops).types.toFinset := by
    ext type
    rw [List.mem_toFinset, List.mem_toFinset, mem_granted_iff]
  have hnodup : (empty.after ops).types.Nodup := (empty.after ops).distinct
  rw [hsame, List.toFinset_card_of_nodup hnodup, size_eq_length_types]

/-! ## The main result -/

/-- What a registry answers about a type that is not bound. -/
structure Unbound (r : Registry κ) (type : EventType) : Prop where
  absent : ∀ b ∈ r.bindings, b.type ≠ type
  -- The group is made, once, and bound.
  create : ∀ kind capacity, (r.operate (.getOrCreate type kind capacity)).1 =
    .placed true 1 r.size (.empty type capacity)
  get : ∀ kind, r.operate (.get type kind) = (.nothing, r)
  count : r.operate (.count type) = (.count 0, r)

/-- What a registry answers about a type that is bound to `kind` and to `group`, which is in
`place`. -/
structure Bound (r : Registry κ) (type : EventType) (kind : κ) (place : Nat)
    (group : Group Event) : Prop where
  binding : ∀ b, (b ∈ r.bindings ∧ b.type = type) ↔ b = ⟨type, kind, group⟩
  -- The group is not made, whatever the capacity that it would be made with.
  create : ∀ capacity,
    r.operate (.getOrCreate type kind capacity) = (.placed false 0 place group, r)
  get : r.operate (.get type kind) = (.found place group, r)
  conflict : ∀ other, other ≠ kind → ∀ op : Operation κ, op.asks? = some (type, other) →
    r.operate op = (.refused (.conflict type (Named.name other) (Named.name kind)), r)
  count : r.operate (.count type) = (.count group.live.length, r)

theorem unbound_of_binding? {r : Registry κ} {type : EventType} (hb : r.binding? type = none) :
    r.Unbound type where
  absent b hmem htype := by
    have hsome := binding?_eq_some_iff.mpr ⟨hmem, htype⟩
    exact absurd (hb.symm.trans hsome) (by simp)
  create kind capacity := by
    rw [create_of_unbound hb]
    exact congrArg (Outcome.placed true 1 · _) (place_add hb)
  get kind := by rw [operate, withGroup_of_unbound hb]
  count := by
    rw [operate, count, group?, hb]
    rfl

theorem bound_of_binding? {r : Registry κ} {type : EventType} {kind : κ} {group : Group Event}
    {place : Nat} (hb : r.binding? type = some ⟨type, kind, group⟩)
    (hp : r.index? type = some place) : r.Bound type kind place group := by
  have hplace : r.place type = place :=
    Option.some.inj ((index?_of_binding? hb).symm.trans hp)
  constructor
  case binding =>
    intro b
    rw [← binding?_eq_some_iff, hb, Option.some.injEq, eq_comm]
  case create =>
    intro capacity
    rw [← hplace]
    exact create_of_bound hb capacity
  case get =>
    rw [← hplace]
    exact get_of_bound hb
  case conflict => exact fun other hother op hop => operate_of_conflict hb hother hop
  case count =>
    rw [operate, count, group?_of_binding? hb, Option.map_some, Option.getD_some,
      Group.count_eq_length_live]

/-- **The first binder of a type wins.** After any operations on a new registry, under whatever
types and whatever the kinds are, a type is bound if and only if a creation was asked for under it.
If none was, a creation makes the group and says so, nothing is found, and the count is zero. If one
was, the type is bound, now and after whatever follows, to the kind of the first one and to one
group in one place, which has the capacity of the first one and is what the operations of that kind
made of it. A creation or a look-up of that kind gives that group, without making another; an
operation of another kind is refused over a conflict and changes nothing; and the count is that of
the consumers of the group that are live. The size is the number of types under which a creation
succeeded. -/
theorem first_binder_wins (ops : List (Operation κ)) (type : EventType) :
    (match founder? ops type with
      | none => (empty.after ops).Unbound type
      | some (kind, capacity) => ∃ place, ∀ more,
        (empty.after (ops ++ more)).Bound type kind place
          (grown (ops ++ more) type kind capacity) ∧
        (grown (ops ++ more) type kind capacity).capacity = capacity) ∧
      (empty.after ops).size = (granted ops).toFinset.card := by
  refine ⟨?_, size_after ops⟩
  have hafter := binding?_after ops type
  cases hf : founder? ops type with
  | none =>
    rw [hf] at hafter
    exact unbound_of_binding? hafter
  | some f =>
    obtain ⟨kind, capacity⟩ := f
    rw [hf] at hafter
    refine ⟨(empty.after ops).place type, fun more => ⟨?_, capacity_grown ..⟩⟩
    have hlater := binding?_after (ops ++ more) type
    rw [founder?_append, hf] at hlater
    refine bound_of_binding? hlater ?_
    rw [after_append]
    exact index?_of_prefix (types_after _ more) (index?_of_binding? hafter)

/-- Two kinds compete for a type. The second is refused, and the first finds its group again with
the consumer that was attached to it. -/
example :
    let ops : List Operation :=
      [.getOrCreate 7 .text 8, .getOrCreate 7 .seven 9, .attach 7 .text, .attach 7 .seven]
    founder? ops 7 = some (.text, 8) ∧ (grown ops 7 .text 8).live = [1] ∧
      (empty.after ops).size = 1 := by
  decide

end Registry

end EventBus
