import EventBus.Proofs.Settling

/-!
# Draining reaches quiescence

A task takes again as soon as it is through with a batch, without a tick in between, so a handler
that publishes to its own queue may keep its task busy for ever at one instant. It does not when
what it publishes is, each time, below the event that it was called with. This is told here of whole
programs, with the two sorts of handlers for which it is seen at once: those that publish nothing,
and those that count down.

What makes this work is in three steps. Every task and every loop has *heads*, and each move cuts
one of them off and lets grow only what is below it (`Heads`, `Waning`). A list of heads that goes
on in this way gets below itself in the order of multisets, which is well-founded (`CutOrder`). So
no order of moves goes on for ever, and time passes (`Settling`).
-/

set_option autoImplicit false

namespace EventBus

/-- The number that `a` comes with is lower than that of `b`. -/
def Event.Lower (a b : Event) : Prop := (a.number?.getD 0).toNat < (b.number?.getD 0).toNat

theorem Event.wellFounded_lower : WellFounded Event.Lower :=
  InvImage.wf (fun e : Event => (e.number?.getD 0).toNat) wellFounded_lt

theorem Action.lowers_countdown (target : Target) (event : Event) :
    (Action.countdown target).Lowers Event.Lower event := by
  refine ⟨rfl, fun e he => ?_⟩
  obtain ⟨n, hn, he⟩ := Option.bind_eq_some_iff.mp he
  split at he
  · next hpos =>
    obtain rfl := Option.some.inj he
    show (n - 1).toNat < (event.number?.getD 0).toNat
    rw [hn, Option.getD_some]
    omega
  · exact absurd he (by simp)

namespace Host

variable {h : Host} {r : Event → Event → Prop}

theorem Reachable.waning (hr : h.Reachable) (hwf : WellFounded r)
    (hlowers : ∀ t ∈ h.tasks, t.handler.Lowers r) : h.Waning r where
  order := hwf
  reached := hr.reached
  tasks t ht := ⟨hlowers t ht, fun lent call hp a ha =>
    hlowers t ht call.event a (hr.faithful t ht lent call hp a ha)⟩

/-! ## The main result -/

/-- **A program comes to rest** when every handler, whatever it is called with, subscribes nobody
and publishes, to whichever bus, only events below that in an order that has no infinite descent.
Let it go on in whatever order. Up to any instant only so many moves are made, and every poll, every
take and every call of a handler is one. And time passes: there is fuel enough to let any of it
pass, more fuel makes no difference, and at the end of the time nobody can move. Handlers that
publish nothing are of that kind, for every order, and so are those that count down, for the order
of the numbers that events come with. -/
theorem comes_to_rest (hr : h.Reachable) (hwf : WellFounded r)
    (hlowers : ∀ t ∈ h.tasks, t.handler.Lowers r) :
    (∀ ts m, Run h ts m → (∀ u ∈ ts, ∀ c, u ≠ .obey c) →
      (∀ limit, ∃ n, m.MovesAtMost limit n) ∧
        ∀ ms, ∃ fuel m', (∀ more, m.advance (fuel + more) ms = some m') ∧
          m'.isQuiet = true ∧ m'.now = m.now + ms) ∧
    (∀ handler : Handler Action,
      (∀ event, ∀ a ∈ handler.react event, a.isMute = true) → handler.Lowers r) ∧
    WellFounded Event.Lower ∧
    ∀ handler : Handler Action, (∀ event, ∀ a ∈ handler.react event,
      a.isMute = true ∨ ∃ target, a = .countdown target) → handler.Lowers Event.Lower := by
  refine ⟨fun ts m run hmoves => ?_, fun handler hmute event a ha => ?_, Event.wellFounded_lower,
    fun handler hcounts event a ha => ?_⟩
  · have hm : m.Waning r := (hr.waning hwf hlowers).run run hmoves
    refine ⟨hm.movesAtMost, fun ms => ?_⟩
    have hle := Nat.le_add_right m.now ms
    obtain ⟨fuel, m', finished⟩ := hm.runUntil hle none
    exact ⟨fuel, m', runUntil_add finished, (quiet_of_runUntil finished).1,
      now_of_runUntil finished hle⟩
  · exact .of_mute (hmute event a ha)
  · rcases hcounts event a ha with hmute | ⟨target, rfl⟩
    · exact .of_mute hmute
    · exact Action.lowers_countdown target event

/-- A consumer that counts down gets a number. -/
def countingTurns : List Turn :=
  [.obey (.make "b" {} false),
    .obey (.subscribe (.named "b")
      { handler := ⟨⟨"c", .async⟩, fun _ => [.report, .countdown (.named "b")]⟩, kind := .int }
        false),
    .obey (.publish (.named "b") (.int 3))]

def counting : Host := ((initial true).replay countingTurns).getD {}

/-- It calls itself until it is at zero, all at one instant, and then it waits. -/
theorem comes_to_rest_counting : (∃ n, counting.MovesAtMost 0 n) ∧
    ∃ fuel h', (∀ more, counting.advance (fuel + more) 0 = some h') ∧ h'.isQuiet = true ∧
      h'.now = 0 ∧ h'.journal.delivered waiter = [.int 3, .int 2, .int 1, .int 0] := by
  have hreachable : counting.Reachable := ⟨true, countingTurns, run_of_isSome (by decide)⟩
  have htasks : counting.tasks = [{ consumer := waiter, runtime := 0, handler :=
      ⟨⟨"c", .async⟩, fun _ => [.report, .countdown (.named "b")]⟩ }] := rfl
  have hlowers : ∀ t ∈ counting.tasks, t.handler.Lowers Event.Lower := by
    intro t ht event a ha
    rw [htasks, List.mem_singleton] at ht
    subst ht
    obtain rfl | rfl : a = .report ∨ a = .countdown (.named "b") := by simpa using ha
    · exact .of_mute rfl
    · exact Action.lowers_countdown _ event
  obtain ⟨hrest, -⟩ := comes_to_rest hreachable Event.wellFounded_lower hlowers
  obtain ⟨hmoves, hadvance⟩ := hrest [] counting (.nil _) (by simp)
  obtain ⟨fuel, h', finished, hquiet, hnow⟩ := hadvance 0
  have hseen : (counting.advance 60 0).map (·.journal.delivered waiter) =
      some [.int 3, .int 2, .int 1, .int 0] := by decide
  refine ⟨hmoves 0, fuel, h', finished, hquiet, hnow, ?_⟩
  obtain ⟨h'', hplayed, hdelivered⟩ := Option.map_eq_some_iff.mp hseen
  have hsame : counting.advance (60 + fuel) 0 = some h'' := runUntil_add hplayed fuel
  rw [Nat.add_comm, finished 60] at hsame
  rw [Option.some.inj hsame]
  exact hdelivered

end Host

end EventBus
