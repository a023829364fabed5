import Mathlib
import EventBus.Event

/-!
# An order on lists of heads

A list is told by how often each head occurs in it. When one head is cut off, and nothing grows but
heads below it, then this cannot go on for ever, however many of them grow: a list after a cut is
below the list before it in the order of multisets, which is well-founded. Where the list is put
together from parts, a head of one part is cut off and the others grow heads below it.

The heads that a program has are of three sorts, since what a task does between two events is small
beside an event, and events are small beside the tick of a loop.
-/

set_option autoImplicit false

namespace EventBus

open Relation (CutExpand ReflTransGen TransGen)

namespace CutOrder

variable {α β : Type} [DecidableEq α] {r : α → α → Prop} {a : α} {s m s' : List α}

/-- From `s` to `s'` nothing grows but heads below `a`. -/
def GrowsBelow (r : α → α → Prop) (a : α) (s s' : List α) : Prop :=
  ∀ b, ¬r b a → s'.count b ≤ s.count b

/-- From `s` to `s'` a head `a` is cut off, and nothing grows but heads below it. -/
structure Cut (r : α → α → Prop) (a : α) (s s' : List α) : Prop where
  fewer : s'.count a < s.count a
  grows : GrowsBelow r a s s'

theorem GrowsBelow.of_eq (hs : s' = s) : GrowsBelow r a s s' := fun _ _ => hs ▸ Nat.le_refl _

theorem GrowsBelow.trans (hm : GrowsBelow r a s m) (hs : GrowsBelow r a m s') :
    GrowsBelow r a s s' := fun b hb => Nat.le_trans (hs b hb) (hm b hb)

/-- What is there in the end was there, or is among what has grown. -/
theorem GrowsBelow.of_subperm (grown : List α) (hgrown : ∀ b ∈ grown, r b a)
    (hs : s'.Subperm (grown ++ s)) : GrowsBelow r a s s' := by
  intro b hb
  have hcount := hs.count_le b
  have hnot : grown.count b = 0 := List.count_eq_zero.mpr fun hmem => hb (hgrown b hmem)
  rwa [List.count_append, hnot, Nat.zero_add] at hcount

theorem GrowsBelow.of_all (hs : ∀ b ∈ s', r b a) : GrowsBelow r a s s' :=
  .of_subperm s' hs (List.sublist_append_left s' s).subperm

theorem Cut.trans (hcut : Cut r a s m) (hirrefl : ¬r a a) (hgrows : GrowsBelow r a m s') :
    Cut r a s s' :=
  ⟨Nat.lt_of_le_of_lt (hgrows a hirrefl) hcut.fewer, hcut.grows.trans hgrows⟩

theorem Cut.of_perm (grown : List α) {rest : List α} (hirrefl : ¬r a a) (hs : s.Perm (a :: rest))
    (hgrown : ∀ b ∈ grown, r b a) (hs' : s'.Subperm (grown ++ rest)) : Cut r a s s' := by
  have hgrows : GrowsBelow r a rest s' := .of_subperm grown hgrown hs'
  refine ⟨?_, fun b hb => ?_⟩
  · rw [hs.count_eq, List.count_cons_self]
    exact Nat.lt_succ_of_le (hgrows a hirrefl)
  · rw [hs.count_eq]
    exact Nat.le_trans (hgrows b hb) List.count_le_count_cons

/-! ## Parts -/

theorem GrowsBelow.flatMap {parts : List β} {f g : β → List α}
    (hparts : ∀ x ∈ parts, GrowsBelow r a (f x) (g x)) :
    GrowsBelow r a (parts.flatMap f) (parts.flatMap g) := by
  intro b hb
  rw [List.count_flatMap, List.count_flatMap]
  exact List.sum_le_sum fun x hx => hparts x hx b hb

theorem Cut.flatMap {parts : List β} {f g : β → List α} {x : β} (hx : x ∈ parts)
    (hirrefl : ¬r a a) (hcut : Cut r a (f x) (g x))
    (hothers : ∀ y, y ≠ x → GrowsBelow r a (f y) (g y)) :
    Cut r a (parts.flatMap f) (parts.flatMap g) := by
  have hparts : ∀ y ∈ parts, GrowsBelow r a (f y) (g y) := by
    intro y _
    by_cases hy : y = x
    · exact hy ▸ hcut.grows
    · exact hothers y hy
  refine ⟨?_, .flatMap hparts⟩
  rw [List.count_flatMap, List.count_flatMap]
  exact List.sum_lt_sum _ _ (fun y hy => hparts y hy a hirrefl) ⟨x, hx, hcut.fewer⟩

/-! ## Cutting comes to an end -/

omit [DecidableEq α] in
/-- What is dropped is cut off head by head, and nothing grows. -/
theorem drops {u v : Multiset α} (hle : u ≤ v) : ReflTransGen (CutExpand r) u v := by
  obtain ⟨w, rfl⟩ := Multiset.le_iff_exists_add.mp hle
  induction w using Multiset.induction with
  | empty => rw [add_zero]
  | cons b w ih =>
    refine (ih (Multiset.le_add_right u w)).tail ⟨0, b, by simp, ?_⟩
    rw [add_zero, add_assoc, Multiset.add_comm w, Multiset.singleton_add]

theorem Cut.lowers (hcut : Cut r a s s') :
    TransGen (CutExpand r) (s' : Multiset α) (s : Multiset α) := by
  classical
  let grown := (s' : Multiset α).filter (r · a)
  have hle : (s' : Multiset α) ≤ (s : Multiset α).erase a + grown := by
    rw [Multiset.le_iff_count]
    intro b
    rw [Multiset.count_add, Multiset.coe_count, Multiset.count_filter, Multiset.coe_count]
    by_cases hb : r b a
    · rw [if_pos hb]
      exact Nat.le_add_left _ _
    · rw [if_neg hb, Nat.add_zero]
      by_cases hba : b = a
      · subst hba
        rw [Multiset.count_erase_self, Multiset.coe_count]
        exact Nat.le_pred_of_lt hcut.fewer
      · rw [Multiset.count_erase_of_ne hba, Multiset.coe_count]
        exact hcut.grows b hb
  have hmem : a ∈ (s : Multiset α) :=
    List.count_pos_iff.mp (Nat.lt_of_le_of_lt (Nat.zero_le _) hcut.fewer)
  refine TransGen.trans_right (drops hle)
    (.single ⟨grown, a, fun b hb => (Multiset.mem_filter.mp hb).2, ?_⟩)
  rw [add_right_comm, add_comm ((s : Multiset α).erase a), Multiset.singleton_add,
    Multiset.cons_erase hmem]

/-- **No list can be cut for ever.** -/
theorem wellFounded_cut (hr : WellFounded r) :
    WellFounded fun s' s : List α => ∃ a, Cut r a s s' := by
  have hlower := InvImage.wf (fun s : List α => (s : Multiset α)) hr.cutExpand.transGen
  refine Subrelation.wf ?_ hlower
  rintro s' s ⟨a, hcut⟩
  exact hcut.lowers

end CutOrder

/-! ## The heads of a program -/

inductive Head where
  -- Steps that a task makes before it comes to another event.
  | step (n : Nat)
  -- A call with an event, of which `n` actions are left.
  | call (event : Event) (n : Nat)
  -- Ticks of a loop.
  | tick (n : Nat)
  deriving DecidableEq

namespace Head

/-- The place of a head among the three sorts, and what counts among its like. -/
def rank : Head → (Nat ⊕ Event × Nat) ⊕ Nat
  | step n => .inl (.inl n)
  | call event n => .inl (.inr (event, n))
  | tick n => .inr n

/-- Heads of one sort are below those of the next. Calls are compared by their events, and calls
with the same event by what is left of them. -/
def Below (r : Event → Event → Prop) (a b : Head) : Prop :=
  Sum.Lex (Sum.Lex (· < ·) (Prod.Lex r (· < ·))) (· < ·) a.rank b.rank

section

variable {r : Event → Event → Prop} {event lower : Event} {m n : Nat}

theorem wellFounded_below (hr : WellFounded r) : WellFounded (Below r) :=
  InvImage.wf rank (Sum.lex_wf (Sum.lex_wf wellFounded_lt (hr.prod_lex wellFounded_lt))
    wellFounded_lt)

theorem not_below_self (hr : WellFounded r) (a : Head) : ¬Below r a a :=
  (wellFounded_below hr).irrefl.irrefl a

theorem step_below (hmn : m < n) : Below r (.step m) (.step n) := .inl (.inl hmn)

theorem step_below_call : Below r (.step m) (.call event n) := .inl (.sep _ _)

theorem step_below_tick : Below r (.step m) (.tick n) := .sep _ _

theorem call_below (hmn : m < n) : Below r (.call event m) (.call event n) :=
  .inl (.inr (.right _ hmn))

theorem call_below_of_lower (hlower : r lower event) : Below r (.call lower m) (.call event n) :=
  .inl (.inr (.left _ _ hlower))

theorem call_below_tick : Below r (.call event m) (.tick n) := .sep _ _

theorem tick_below (hmn : m < n) : Below r (.tick m) (.tick n) := .inr hmn

end

end Head

end EventBus
