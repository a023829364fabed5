import EventBus.Proofs.PrivateSteps
import EventBus.Proofs.Waning

/-!
# A program comes to rest

At one instant only so much can happen in a program that runs down. Every move cuts one of its
heads, so whatever the order of the moves is, they come to an end, time goes on, and every instant
is reached: there is fuel enough for every time, and only so many moves are made until then.
-/

set_option autoImplicit false

namespace EventBus

/-- Whether a turn is a step of a task or a loop. -/
def Turn.isMove : Turn → Bool
  | .move _ => true
  | _ => false

namespace Host

variable {h m h' : Host} {r : Event → Event → Prop} {limit : Nat}

/-! ## Rest -/

/-- `h'` is `h` after a move. -/
def MovesTo (h' h : Host) : Prop := ∃ m, h.move? m = some h'

/-- **A program comes to rest.** The moves at one instant come to an end, whatever their order. -/
theorem Waning.settles (hw : h.Waning r) : Acc MovesTo h := by
  have hcuts := CutOrder.wellFounded_cut (Head.wellFounded_below hw.order)
  -- The line of movers stays as it is, although some leave, so that the heads can be compared.
  suffices along : ∀ (heads : List Head) (line : List Mover) (h : Host), h.Waning r →
      (∀ who ∈ h.movers, who ∈ line) → line.flatMap h.heads = heads → Acc MovesTo h from
    along _ h.movers h hw (fun _ hwho => hwho) rfl
  intro heads
  induction heads using hcuts.induction with
  | h heads ih =>
    intro line h hw hline hheads
    refine ⟨h, fun h' hmoves => ?_⟩
    obtain ⟨move, hm⟩ := hmoves
    have hturn : h.turn? (.move move) = some h' := hm
    obtain ⟨who, hwho, a, hhews⟩ := hw.move? hm
    have hcut : CutOrder.Cut (Head.Below r) a (line.flatMap h.heads) (line.flatMap h'.heads) :=
      .flatMap (hline who hwho) (Head.not_below_self hw.order a) hhews.own hhews.others
    exact ih _ ⟨a, hheads ▸ hcut⟩ line h' (hw.turn? hturn (by simp))
      (fun who hwho => hline who (hhews.movers hwho)) rfl

theorem nextInstant_le (h : Host) (limit : Nat) : h.nextInstant limit ≤ limit := by
  have key : ∀ (xs : List Nat) (n : Nat), xs.foldl min n ≤ n := by
    intro xs
    induction xs with
    | nil => exact fun n => Nat.le_refl n
    | cons x xs ih => exact fun n => Nat.le_trans (ih _) (Nat.min_le_left n x)
  exact key _ limit

/-- There is fuel enough for every limit. -/
theorem Waning.runUntil (hw : h.Waning r) (hle : h.now ≤ limit) (last : Option Mover) :
    ∃ fuel h', Host.runUntil limit fuel last h = some h' := by
  -- by the time that is left, and at one instant by the moves, which come to an end
  generalize hn : limit - h.now = n
  induction n using Nat.strongRecOn generalizing h last with
  | ind n later =>
    have hacc := hw.settles
    induction hacc generalizing last with
    | intro h _ ih =>
      cases hfound : h.firstMove? (last.toList ++ h.movers) with
      | some found =>
        obtain ⟨who, m⟩ := found
        obtain ⟨move, hm⟩ := firstMove?_eq_some hfound
        have hturn : h.turn? (.move move) = some m := hm
        have hnow := now_move? hm
        obtain ⟨fuel, h', finished⟩ :=
          ih m ⟨move, hm⟩ (hw.turn? hturn (by simp)) (hnow ▸ hle) (some who) (hnow ▸ hn)
        exact ⟨fuel + 1, h', by rw [Host.runUntil, hfound]; exact finished⟩
      | none =>
        by_cases hahead : h.now < limit
        · have hbounds := h.nextInstant_bounds hahead
          have hquiet := isQuiet_of_firstMove?_eq_none hfound
          have hturn : h.turn? (.pass (h.nextInstant limit)) =
              some (h.setClock (h.nextInstant limit)) :=
            if_pos ⟨hquiet, Nat.le_of_lt hbounds.1, hbounds.2⟩
          have hnext := h.nextInstant_le limit
          -- the clock goes on, or the limit is reached
          have hless : limit - h.nextInstant limit < n := by omega
          obtain ⟨fuel, h', finished⟩ :=
            later _ hless (hw.turn? hturn (by simp)) hnext none rfl
          refine ⟨fuel + 1, h', ?_⟩
          rw [Host.runUntil, hfound]
          simp only [if_pos hahead]
          exact finished
        · refine ⟨1, h, ?_⟩
          rw [Host.runUntil, hfound]
          simp only [if_neg hahead]

/-- More fuel changes nothing. -/
theorem runUntil_add {fuel : Nat} {last : Option Mover}
    (finished : runUntil limit fuel last h = some h') (more : Nat) :
    runUntil limit (fuel + more) last h = some h' := by
  induction fuel generalizing last h with
  | zero => exact absurd finished (by simp [runUntil])
  | succ fuel ih =>
    rw [Nat.succ_add]
    rw [runUntil] at finished ⊢
    split at finished
    · exact ih finished
    · split at finished
      · next hahead => exact (if_pos hahead).trans (ih finished)
      · next hahead => exact (if_neg hahead).trans finished

theorem now_of_runUntil {fuel : Nat} {last : Option Mover}
    (finished : runUntil limit fuel last h = some h') (hle : h.now ≤ limit) : h'.now = limit := by
  induction fuel generalizing last h with
  | zero => exact absurd finished (by simp [runUntil])
  | succ fuel ih =>
    rw [runUntil] at finished
    split at finished
    · next who mid found =>
      obtain ⟨m, hm⟩ := firstMove?_eq_some found
      exact ih finished (now_move? hm ▸ hle)
    · split at finished
      · exact ih finished (h.nextInstant_le limit)
      · next hlimit =>
        obtain rfl := Option.some.inj finished
        exact Nat.le_antisymm hle (Nat.le_of_not_lt hlimit)

/-! ## How many moves there are -/

/-- Up to the instant `limit` no more than `n` moves are made, unless something is asked. -/
def MovesAtMost (h : Host) (limit n : Nat) : Prop :=
  ∀ us h', Run h us h' → (∀ u ∈ us, ∀ c, u ≠ .obey c) → h'.now ≤ limit →
    us.countP (·.isMove) ≤ n

/-- The turns that may come next up to `limit`, if nothing is asked. -/
def nextTurns (h : Host) (limit : Nat) : List Turn :=
  (h.movers.flatMap Mover.moves).map .move ++ (List.range (limit + 1)).map .pass

theorem now_le_of_turn {u : Turn} (hu : h.turn? u = some h') (hmoves : ∀ c, u ≠ .obey c) :
    h.now ≤ h'.now := by
  cases turnStep_iff.mpr hu with
  | obey => exact absurd rfl (hmoves _)
  | move hm => exact Nat.le_of_eq (now_move? (moveStep_iff.mp hm)).symm
  | pass _ hle => exact hle

theorem now_le_of_run {us : List Turn} (run : Run h us h') (hmoves : ∀ u ∈ us, ∀ c, u ≠ .obey c) :
    h.now ≤ h'.now := by
  induction run with
  | nil => exact Nat.le_refl _
  | @cons _ _ _ u _ turn _ ih =>
    exact Nat.le_trans (now_le_of_turn turn (hmoves u List.mem_cons_self))
      (ih fun v hv => hmoves v (List.mem_cons_of_mem u hv))

theorem mem_nextTurns {u : Turn} (hu : h.turn? u = some m) (hmoves : ∀ c, u ≠ .obey c)
    (hle : m.now ≤ limit) : u ∈ h.nextTurns limit := by
  cases turnStep_iff.mpr hu with
  | obey => exact absurd rfl (hmoves _)
  | move hm => exact List.mem_append_left _ (List.mem_map_of_mem (mem_moves hm))
  | pass =>
    exact List.mem_append_right _
      (List.mem_map_of_mem (List.mem_range.mpr (Nat.lt_succ_of_le hle)))

/-- If there is a bound after each turn that does something, then there is one before. For time may
pass to the instant that it is, any number of times, and nothing comes of that. -/
theorem movesAtMost_of_next (hnext : ∀ u m, h.turn? u = some m → (∀ c, u ≠ .obey c) →
      u ≠ .pass h.now → m.now ≤ limit → ∃ n, m.MovesAtMost limit n) :
    ∃ n, h.MovesAtMost limit n := by
  choose! bound hbound using hnext
  let most (u : Turn) : Nat := ((h.turn? u).map (bound u)).getD 0
  refine ⟨((h.nextTurns limit).map most).sum + 1, fun us => ?_⟩
  induction us with
  | nil => exact fun _ _ _ _ => Nat.zero_le _
  | cons u us ih =>
    intro h' run hmoves hle
    cases run with
    | @cons _ m _ _ _ turn rest =>
      have hnow := hmoves u List.mem_cons_self
      have hlater := fun v hv => hmoves v (List.mem_cons_of_mem u hv)
      by_cases hpass : u = .pass h.now
      · subst hpass
        obtain ⟨-, rfl⟩ := pass?_eq_some.mp turn
        rw [List.countP_cons_of_neg (by simp [Turn.isMove])]
        exact ih h' rest hlater hle
      · have hmid := Nat.le_trans (now_le_of_run rest hlater) hle
        have hrest := hbound u m turn hnow hpass hmid us h' rest hlater hle
        have hmost : most u = bound u m := by
          simp only [most, turn, Option.map_some, Option.getD_some]
        have hsum : most u ≤ ((h.nextTurns limit).map most).sum :=
          List.le_sum_of_mem (List.mem_map_of_mem (mem_nextTurns turn hnow hmid))
        rw [List.countP_cons]
        split <;> omega

/-- **Only so many moves are made** up to any instant, whatever their order. -/
theorem Waning.movesAtMost (hw : h.Waning r) (limit : Nat) : ∃ n, h.MovesAtMost limit n := by
  -- By the time that is left, and at one instant by the moves, which come to an end.
  generalize hn : limit - h.now = n
  induction n using Nat.strongRecOn generalizing h with
  | ind n later =>
    have hacc := hw.settles
    induction hacc with
    | intro h _ ih =>
      refine movesAtMost_of_next fun u m hturn hmoves hpass hle => ?_
      have hm := hw.turn? hturn hmoves
      cases u with
      | obey c => exact absurd rfl (hmoves c)
      | move move => exact ih m ⟨move, hturn⟩ hm (now_move? hturn ▸ hn)
      | pass instant =>
        obtain ⟨⟨-, hahead, -⟩, rfl⟩ := pass?_eq_some.mp hturn
        have hne : instant ≠ h.now := fun heq => hpass (by rw [heq])
        have hless : limit - instant < n := by
          change instant ≤ limit at hle
          omega
        exact later _ hless hm rfl

/-! ## Programs that are left alone -/

/-- Who asks nothing of any bus lowers events, whatever the order is. -/
theorem AllPrivate.waning (hs : h.AllPrivate) (hr : WellFounded r) : h.Waning r := by
  have hlowers : ∀ (event : Event) (a : Action), a.isPrivate = true → a.Lowers r event :=
    fun _ _ ha => .of_mute (Action.isMute_of_isPrivate ha)
  refine ⟨hr, hs.reached, fun t ht => ?_⟩
  have hp := hs.discreet t ht
  exact ⟨fun event a ha => hlowers event a (hp.handler event a ha),
    fun lent call hphase a ha => hlowers call.event a (hp.todo lent call hphase a ha)⟩

theorem AllPrivate.settles (hs : h.AllPrivate) : Acc MovesTo h := (hs.waning emptyWf.wf).settles

theorem AllPrivate.runUntil (hs : h.AllPrivate) (hle : h.now ≤ limit) (last : Option Mover) :
    ∃ fuel h', Host.runUntil limit fuel last h = some h' :=
  (hs.waning emptyWf.wf).runUntil hle last

end Host

end EventBus
