import EventBus.Proofs.Instant
import EventBus.Proofs.Occupancy
import EventBus.Proofs.Shutdown
import EventBus.Proofs.Tidying

/-!
# What nobody holds is shut down

A bus is shut down in the turn in which it is closed, or in which the last of its handles goes.
Handlers hold buses as well, those of their own bus or of another; so the end of a task may shut
down a bus whose consumers then end, and shut down further ones.

So it is said for each state who holds a bus: the names of the program, the default, the handlers of
tasks that have not ended, and those of jobs that such tasks have left when they were dropped. A bus
is down just when it was closed or none of these holds it. Since a handler lets go only at its end,
and ends are in the journal, nothing has to be known of how a state was reached.
-/

set_option autoImplicit false

namespace EventBus

open Host

/-! ## Tasks that are gone -/

namespace Changes

variable {ns : Nature → Prop} {h h' : Host} {c : ConsumerRef} {t t' : Task}

theorem given (hc : Changes ns h h') {kind : Kind} (hg : h.Given c kind) : h'.Given c kind :=
  hc.keeps (P := fun m => m.Given c kind) (fun hchange => hchange.given) hg

/-- As long as a consumer has a task, its handler holds what it held. -/
theorem held_eq (hr : h.Reached) (hc : Changes ns h h') (ht : h.task? c = some t)
    (ht' : h'.task? c = some t') : t'.held = t.held := by
  induction hc generalizing t' with
  | refl =>
    obtain rfl := Option.some.inj (ht.symm.trans ht')
    rfl
  | @tail m h' hm hchange ih =>
    obtain ⟨n, -, hchange⟩ := hchange
    rcases (hchange.origin (mem_of_task? ht')).same with ⟨s, hs, hsame⟩ | ⟨⟨kind, ha⟩, -, -⟩
    · have hcons : s.consumer = c := hsame.consumer.symm.trans (consumer_of_task? ht')
      have hfound := (hr.changes hm).paired.task?_of_mem hs
      rw [hcons] at hfound
      exact hsame.held.trans (ih hfound)
    · -- nobody is put in line under an id that was given before
      obtain ⟨kind', -, hgiven⟩ := hr.known_of_task? ht
      have hagain := given hm hgiven
      rw [← consumer_of_task? ht'] at hagain
      exact absurd hagain (not_given_of_admissible ha)

/-- A task that is gone has ended, and the journal says so. -/
theorem ended (hr : h.Reached) (hc : Changes ns h h') (ht : h.task? c = some t)
    (hnone : h'.task? c = none) : h'.journal.hasEnded c = true := by
  have hafter := hr.changes hc
  cases hafter.lifetime c with
  | unborn _ _ hsub =>
    obtain ⟨kind, hbefore, -⟩ := hr.known_of_task? ht
    obtain ⟨x, hx, hsubscribes⟩ := List.exists_of_findSome?_eq_some hbefore
    have hnever := List.findSome?_eq_none_iff.mp hsub x (hc.journal_suffix.subset hx)
    exact absurd (hnever.symm.trans hsubscribes) (by simp)
  | alive ht' => exact absurd (hnone.symm.trans ht') (by simp)
  | gone _ _ _ hend => exact hend

end Changes

/-! ## Who holds a bus -/

namespace Host

variable {h h' : Host}

theorem isDown_of_isClosed {b : BusId} (hb : h.isClosed b = true) : h.isDown b = true := by
  unfold isClosed at hb
  unfold isDown
  cases hbus : h.bus? b with
  | none => rfl
  | some bus =>
    rw [hbus, Option.map_some, Option.getD_some, Bus.isClosed, decide_eq_true_eq] at hb
    rw [Option.map_some, Option.getD_some, Bus.isDown, hb]
    rfl

/-- Between turns a bus is down exactly if it was closed or nobody holds it. -/
theorem Reachable.isDown_iff (hr : h.Reachable) {b : BusId} (hb : h.HasBus b) :
    h.isDown b = true ↔ h.journal.hasClosed b = true ∨ h.isHeld b = false := by
  have hreached := hr.reached
  rw [hreached.hasClosed_iff b]
  constructor
  · intro hdown
    cases hclosed : h.isClosed b with
    | true => exact .inl ⟨hb, rfl⟩
    | false => exact .inr (hreached.holdsSound.abandoned b hdown hclosed)
  · rintro (⟨-, hclosed⟩ | hfree)
    · exact isDown_of_isClosed hclosed
    · rw [← Bool.not_eq_false]
      intro hup
      exact hr.not_loose.2 b ⟨hfree, hup⟩

/-- `t` is a job that was left by its task, which is at its end. The job had begun, and is not over.
-/
structure Leftover (h : Host) (t : Task) : Prop where
  orphaned : t.orphaned = true
  begun : t.hasJob = true
  ended : h.journal.hasEnded t.consumer = true

theorem Reached.attended_or_leftover (hr : h.Reached) {t : Task} (ht : t ∈ h.tasks) :
    t ∈ h.attended ∧ h.journal.hasEnded t.consumer = false ∨ h.Leftover t := by
  have hfound := hr.paired.task?_of_mem ht
  cases hr.lifetime t.consumer with
  | unborn _ hnone => exact absurd (hfound.symm.trans hnone) (by simp)
  | alive ht' _ hlive _ haccount =>
    obtain rfl := Option.some.inj (hfound.symm.trans ht')
    exact .inl ⟨mem_attended.mpr ⟨ht, hlive⟩, haccount.running⟩
  | gone _ hjob _ hend =>
    have horphan := (hjob t hfound).orphaned
    exact .inr ⟨horphan, hr.paired.jobs t ht horphan, hend⟩

/-- A handler holds a bus as long as its task has not ended, or the job of that is not over. -/
theorem Reached.isHeld_iff (hr : h.Reached) {b : BusId} : h.isHeld b = true ↔
    (∃ x ∈ h.handles, x.2 = b) ∨ h.preset = some b ∨ (∃ t ∈ h.attended, ∃ x ∈ t.held, x.2 = b) ∨
      ∃ t ∈ h.tasks, h.Leftover t ∧ ∃ x ∈ t.held, x.2 = b := by
  rw [Host.isHeld_iff]
  refine or_congr_right (or_congr_right ⟨?_, ?_⟩)
  · rintro ⟨t, ht, hholds⟩
    rcases hr.attended_or_leftover ht with ⟨hattended, -⟩ | hleft
    · exact .inl ⟨t, hattended, hholds⟩
    · exact .inr ⟨t, ht, hleft, hholds⟩
  · rintro (⟨t, ht, hholds⟩ | ⟨t, ht, -, hholds⟩)
    · exact ⟨t, (mem_attended.mp ht).1, hholds⟩
    · exact ⟨t, ht, hholds⟩

/-- A handler with nothing to do, which holds a bus. -/
def keeper (name : String) : Subscriber Action where
  handler := ⟨⟨name, .async⟩, fun _ => []⟩
  kind := .int
  hold := [.named name]

/-- There are three buses. The second is held by a consumer of the first and the third by one of the
second, and their names are dropped. -/
def chainingTurns : List Turn :=
  [.obey (.make "a" {} false), .obey (.make "b" {} false), .obey (.make "c" {} false),
    .obey (.subscribe (.named "a") (keeper "b") false),
    .obey (.subscribe (.named "b") (keeper "c") false),
    .obey (.drop "c"), .obey (.drop "b"), .obey (.drop "a")]

def keeperOf (b : BusId) : ConsumerRef := ⟨⟨b, 42⟩, 1⟩

/-- The first consumer of a bus looks and begins to wait. -/
def parkingOf (b : BusId) : List Turn :=
  [.move (.run (keeperOf b)), .move (.run (keeperOf b)), .move (.run (keeperOf b))]

def partingTurns : List Turn :=
  chainingTurns ++ parkingOf 0 ++ [.move (.leave (keeperOf 0))] ++ parkingOf 1

def chained : Host := ((initial true).replay chainingTurns).getD {}

def parting : Host := ((initial true).replay partingTurns).getD {}

def unchained : Host := (parting.turn? (.move (.leave (keeperOf 1)))).getD {}

/-- The runtime is stopped in the middle of a call that blocks, which then gets to its end. -/
def remainingTurns : List Turn :=
  callingTurns ++ [.obey .stopRuntime, .move (.run waiter), .move (.run waiter)]

def remaining : Host := ((initial true).replay remainingTurns).getD {}

def endingTurns : List Turn := remainingTurns ++ [.move (.run waiter)]

def ending : Host := ((initial true).replay endingTurns).getD {}

end Host

end EventBus
