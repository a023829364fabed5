import EventBus.Proofs.Account

/-!
# Who loses events

A consumer that leaves its loop has handled all that it was owed, with one exception: it was inside
its wait with something in its queue when its bus was shut down, and left without another look. Once
the bus is down nothing reaches a queue any more, so a consumer that is not *caught* in this way at
the shutdown is never caught later: it comes to its wait again only with an empty queue.

A turn that shuts a bus down brings nothing to a queue and nobody to a wait. So it does not matter
where in a turn the shutdown falls.
-/

set_option autoImplicit false

namespace EventBus

namespace Host

def Caught (h : Host) (c : ConsumerRef) : Prop :=
  ∃ t s, h.task? c = some t ∧ h.slot? c = some s ∧ t.phase.isParked = true ∧ s.queue ≠ []

/-- Nobody is caught by a shutdown. -/
def Spared (h : Host) (c : ConsumerRef) : Prop :=
  h.isDown c.group.bus = true → ¬h.Caught c

/-- If the consumer left its loop in this way, it handled all that it was owed. -/
def Handled (h : Host) (c : ConsumerRef) (exit : Exit) : Prop :=
  h.journal.exit? c = some exit → h.journal.delivered c = h.journal.window c

theorem Caught.hasBus {h : Host} {c : ConsumerRef} (hcaught : h.Caught c) :
    h.HasBus c.group.bus := by
  obtain ⟨t, s, -, hs, -, -⟩ := hcaught
  exact hasBus_of_slot? hs

end Host

namespace Journal

variable {j : Journal} {c : ConsumerRef}

theorem hasEnded_of_exit? {exit : Exit} (he : j.exit? c = some exit) : j.hasEnded c = true := by
  obtain ⟨x, hx, hexit⟩ := List.exists_of_findSome?_eq_some he
  rw [hasEnded, List.any_eq_true]
  refine ⟨x, hx, ?_⟩
  cases hwhat : x.what <;> simp_all [Happening.exits?, Happening.ends]

end Journal

open Host

namespace Task.Step

variable {slot : Option (Slot Event)} {t t' : Task} {n : Nature} {said : Option Happening}

/-- A task comes to its wait by finding nothing, and stays there until it is woken. -/
theorem parked (hs : t.Step slot n t' said) (hp : t'.phase.isParked = true) :
    (n = .gain ∧ ∃ s, slot = some s ∧ s.queue = []) ∨ t.phase.isParked = true := by
  cases hs with
  | findNothing _ hslot hq => exact .inl ⟨rfl, _, hslot, hq⟩
  | park hp₀ => exact .inr (by rw [hp₀]; rfl)
  | @beginCall lent => cases lent <;> exact absurd hp (by simp [Task.beginCall, Phase.isParked])
  | register | resume | work | endCall | endBatch | fail =>
    exact absurd hp (by simp [Task.register, Task.enter, Task.continueCall, Task.endCall,
      Task.endBatch, Task.fail, Phase.isParked])

end Task.Step

namespace Change

variable {n : Nature} {h h' : Host} {c : ConsumerRef}

/-- Whoever is caught after a change was caught before it, or got an event just now. -/
theorem caught (hc : Change n h h') (hr : h.Reached) (hcaught : h'.Caught c) :
    h.Caught c ∨ (n = .gain ∧ h.isDown c.group.bus = false) := by
  obtain ⟨t', s', ht', hs', hp, hq⟩ := hcaught
  -- whoever keeps its task and its slot was caught already
  have hsame : h'.task? c = h.task? c → h'.slot? c = h.slot? c → h.Caught c := fun ht hs =>
    ⟨t', s', ht.symm.trans ht', hs.symm.trans hs', hp, hq⟩
  cases hc.life hr c with
  | apart _ hs ht => exact .inl (hsame ht hs)
  | heard _ _ hup => exact .inr ⟨rfl, hup⟩
  | unheard _ _ _ hs ht => exact .inl (hsame ht hs)
  | closed hs ht => exact .inl (hsame ht hs)
  | ticked hs ht =>
    rw [ht] at ht'
    obtain ⟨t, ht, rfl⟩ := Option.map_eq_some_iff.mp ht'
    rw [Task.phase_wake] at hp
    exact .inl ⟨t, s', ht, hs.symm.trans hs', hp, hq⟩
  | enrolled _ ha _ _ ht =>
    obtain rfl := Option.some.inj (ht.symm.trans ht')
    exact absurd hp (by simp [ha.phase, Phase.isParked])
  | stillborn _ _ _ _ ht | finished _ _ _ ht => exact absurd (ht.symm.trans ht') (by simp)
  | cancelled hs _ hs₁ ht =>
    obtain rfl := Option.some.inj (hs₁.symm.trans hs')
    exact .inl ⟨t', _, ht.symm.trans ht', hs, hp, hq⟩
  | stepped ht hstep hs ht₁ =>
    obtain rfl := Option.some.inj (ht₁.symm.trans ht')
    have hslot := hs.symm.trans hs'
    -- it parked with an empty queue, or it was parked before
    rcases hstep.parked hp with ⟨-, s, hfound, hempty⟩ | hparked
    · obtain rfl := Option.some.inj (hslot.symm.trans hfound)
      exact absurd hempty hq
    · exact .inl ⟨_, s', ht, hslot, hparked, hq⟩
  | took _ _ _ _ hs₁ _ =>
    obtain rfl := Option.some.inj (hs₁.symm.trans hs')
    exact absurd rfl hq
  | leftJob _ _ _ hs => exact absurd (hs.symm.trans hs') (by simp)
  | jobOver _ _ _ ht => exact absurd (ht.symm.trans ht') (by simp)

/-- Whoever is spared stays so, until a bus is shut down. -/
theorem spared (hc : Change n h h') (hr : h.Reached) (hn : n ≠ .loss) (hs : h.Spared c) :
    h'.Spared c := by
  intro hdown hcaught
  rcases hc.caught hr hcaught with hold | ⟨-, hup⟩
  · exact hs (hc.isDown_eq hn hold.hasBus ▸ hdown) hold
  · rw [hc.isDown_eq hn (hasBus_of_isDown hup), hup] at hdown
    exact absurd hdown (by simp)

/-- A consumer leaves its loop when its task ends, and at no other time. -/
theorem exits (hc : Change n h h') (hr : h.Reached) (c : ConsumerRef) :
    h'.journal.exit? c = h.journal.exit? c ∨ ∃ t exit, h.task? c = some t ∧
      h.Ending t n (.stopped t.consumer t.handler.profile exit) ∧
      h'.journal = ⟨h.now, .stopped c t.handler.profile exit⟩ :: h.journal := by
  cases hc.life hr c with
  | apart news _ _ hj hnews => exact .inl (hj ▸ (Journal.agrees_of_foreign hnews h.journal).exit)
  | heard _ _ _ _ _ hj | unheard _ _ _ _ _ hj | closed _ _ hj | ticked _ _ hj
  | enrolled _ _ _ _ _ hj | stillborn _ _ _ _ _ hj | cancelled _ _ _ _ hj | took _ _ _ _ _ _ hj
  | leftJob _ _ _ _ _ hj =>
    exact .inl (by rw [hj]; rfl)
  | jobOver _ _ _ _ hj => exact .inl (by rw [hj])
  | stepped _ hstep _ _ hj =>
    left
    rw [hj]
    cases hstep <;> rfl
  | @finished t _ what ht he _ _ hj =>
    have hcons : t.consumer = c := consumer_of_task? ht
    subst hcons
    cases he with
    | drained hp hs hq hstop => exact .inr ⟨t, .drained, ht, .drained hp hs hq hstop, hj⟩
    | left hp hdown => exact .inr ⟨t, .shutdown, ht, .left hp hdown, hj⟩
    | panicked | lost => exact .inl (by rw [hj]; rfl)

/-- A task that leaves its loop has nothing left to handle, unless it is caught. -/
theorem handled (hc : Change n h h') (hr : h.Reached) {exit : Exit}
    (hs : exit = .shutdown → h.Spared c) (hh : h.Handled c exit) : h'.Handled c exit := by
  intro hexit
  rcases hc.exits hr c with hsame | ⟨t, exit', ht, he, hj⟩
  · rw [hsame] at hexit
    -- nothing more is owed, and what was handled is not taken back
    obtain ⟨news, hj, -⟩ := hc.news
    have hwindow := Journal.window_of_ended (Journal.hasEnded_of_exit? hexit) news
    have hmore : h.journal.delivered c <+: h'.journal.delivered c :=
      Journal.delivered_prefix ⟨news, hj.symm⟩
    have hless := (hr.change hc).delivered_prefix_window c
    rw [← hj] at hwindow
    rw [hh hexit, ← hwindow] at hmore
    exact hless.eq_of_length_le hmore.length_le
  · have hcons : t.consumer = c := consumer_of_task? ht
    subst hcons
    obtain rfl : exit' = exit := by simpa [hj, Journal.exit?, Happening.exits?] using hexit
    have hlive := he.attended (hr.paired.jobs t (mem_of_task? ht))
    obtain ⟨s, hslot, -, ha⟩ := hr.alive_of_task ht hlive
    have hnothing : t.batch = [] ∧ ¬t.Failed ∧ s.queue = [] := by
      cases he with
      | drained hp hslot' hq _ =>
        obtain rfl := Option.some.inj (hslot.symm.trans hslot')
        exact ⟨by rw [Task.batch, hp], by simp [Task.Failed, hp], hq⟩
      | left hp hdown =>
        refine ⟨by rw [Task.batch, hp], by simp [Task.Failed, hp], ?_⟩
        apply Decidable.byContradiction
        intro hq
        exact hs rfl hdown ⟨t, s, ht, hslot, by rw [hp]; rfl, hq⟩
    obtain ⟨hbatch, hfail, hqueue⟩ := hnothing
    have hdelivered := ha.taken hfail
    rw [hbatch, List.append_nil] at hdelivered
    have hwindow := ha.window
    rw [hqueue, List.append_nil] at hwindow
    rw [hj]
    exact hdelivered.trans hwindow

end Change

namespace Changes

variable {ns : Nature → Prop} {h h' : Host}

theorem hasBus (hc : Changes ns h h') {b : BusId} (hb : h.HasBus b) : h'.HasBus b :=
  hc.keeps (P := fun m => m.HasBus b) (fun hchange => hchange.hasBus) hb

theorem isDown_mono (hc : Changes ns h h') {b : BusId} (hb : h.HasBus b)
    (hdown : h.isDown b = true) : h'.isDown b = true :=
  (hc.keeps (P := fun m => m.HasBus b ∧ m.isDown b = true)
    (fun hchange hbefore => ⟨hchange.hasBus hbefore.1, hchange.isDown_mono hbefore.1 hbefore.2⟩)
    ⟨hb, hdown⟩).2

end Changes

namespace Host

variable {h h' : Host} {c : ConsumerRef}

/-- Nobody comes to be caught while a turn goes on that may shut a bus down. -/
theorem caught_of_loss (hr : h.Reached) (hc : Changes Nature.IsLoss h h') (hcaught : h'.Caught c) :
    h.Caught c := by
  induction hc with
  | refl => exact hcaught
  | tail hm hchange ih =>
    obtain ⟨n, hn, hchange⟩ := hchange
    rcases hchange.caught (hr.changes hm) hcaught with hold | ⟨hgain, -⟩
    · exact ih hold
    · exact absurd hgain hn

/-- A turn that shuts a bus down does so at no other moment than the turn itself: whoever is not
caught before it is spared at every point of it. -/
theorem spared_of_loss {m : Host} (hr : h.Reached) (hs : h.Spared c)
    (hshut : h.isDown c.group.bus = false → h'.isDown c.group.bus = true → ¬h.Caught c)
    (hm : Changes Nature.IsLoss h m) (hc : Changes Nature.IsLoss m h') : m.Spared c := by
  intro hdown hcaught
  have hbefore := caught_of_loss hr hm hcaught
  cases hup : h.isDown c.group.bus with
  | true => exact hs hup hbefore
  | false => exact hshut hup (hc.isDown_mono hcaught.hasBus hdown) hbefore

/-- Whoever is not caught by a shutdown within the turn is spared after it, and handles all. -/
theorem Turned.handled (ht : Turned h h') (hr : h.Reached) (hs : h.Spared c)
    (hh : h.Handled c .shutdown)
    (hshut : h.isDown c.group.bus = false → h'.isDown c.group.bus = true → ¬h.Caught c) :
    h'.Spared c ∧ h'.Handled c .shutdown := by
  cases ht with
  | gain hc =>
    induction hc with
    | refl => exact ⟨hs, hh⟩
    | @tail m m' hm hchange ih =>
      obtain ⟨n, hn, hchange⟩ := hchange
      have hmr := hr.changes hm
      have hn : n ≠ .loss := by rcases hn with rfl | rfl <;> simp
      have hbefore : m.Spared c ∧ m.Handled c .shutdown := by
        refine ih fun hup hdown hcaught => hshut hup ?_ hcaught
        exact hchange.isDown_mono (Changes.hasBus hm hcaught.hasBus) hdown
      exact ⟨hchange.spared hmr hn hbefore.1, hchange.handled hmr (fun _ => hbefore.1) hbefore.2⟩
  | loss hc =>
    -- in a turn that brings no event, who is caught at its end was caught at the shutdown
    refine ⟨spared_of_loss hr hs hshut hc (.refl h'), ?_⟩
    suffices hall : ∀ {m}, Changes Nature.IsLoss h m → Changes Nature.IsLoss m h' →
        m.Handled c .shutdown from hall hc (.refl h')
    intro m hm
    induction hm with
    | refl => exact fun _ => hh
    | @tail m m' hm hchange ih =>
      intro hrest
      have hall := (Relation.ReflTransGen.single hchange).trans hrest
      obtain ⟨n, -, hchange⟩ := hchange
      exact hchange.handled (hr.changes hm) (fun _ => spared_of_loss hr hs hshut hm hall) (ih hall)

/-! ## Runs -/

/-- A turn of a run at which the bus of the consumer is shut down. -/
structure Shutdown (c : ConsumerRef) (start : Host) (ts : List Turn) (h h' finish : Host) :
    Prop where
  split : ∃ ts₁ u ts₂, ts = ts₁ ++ u :: ts₂ ∧ Run start ts₁ h ∧ h.turn? u = some h' ∧
    Run h' ts₂ finish
  up : h.isDown c.group.bus = false
  down : h'.isDown c.group.bus = true

theorem Run.reached {ts : List Turn} (run : Run h ts h') (hr : h.Reached) : h'.Reached :=
  hr.changes (run.changes hr)

/-- A consumer is caught at one of the shutdowns of a run, or is spared and handles all. -/
theorem Run.caught_or_handled {ts : List Turn} (run : Run h ts h') (hr : h.Reached)
    (hs : h.Spared c) (hh : h.Handled c .shutdown) :
    (∃ m m', Shutdown c h ts m m' h' ∧ m.Caught c) ∨
      (h'.Spared c ∧ h'.Handled c .shutdown) := by
  induction run with
  | nil => exact .inr ⟨hs, hh⟩
  | @cons h m h' u ts turn rest ih =>
    have hturn := turn?_changes hr turn
    by_cases hshut : h.isDown c.group.bus = false ∧ m.isDown c.group.bus = true ∧ h.Caught c
    · exact .inl ⟨h, m, ⟨⟨[], u, ts, rfl, .nil h, turn, rest⟩, hshut.1, hshut.2.1⟩, hshut.2.2⟩
    · obtain ⟨hspared, hhandled⟩ := hturn.handled hr hs hh
        fun hup hdown hcaught => hshut ⟨hup, hdown, hcaught⟩
      apply (ih (hr.changes hturn.changes) hspared hhandled).imp_left
      rintro ⟨k, k', ⟨⟨ts₁, v, ts₂, rfl, before, at', after⟩, hup, hdown⟩, hcaught⟩
      exact ⟨k, k', ⟨⟨u :: ts₁, v, ts₂, rfl, .cons turn before, at', after⟩, hup, hdown⟩, hcaught⟩

theorem Shutdown.isDown {start m m' : Host} {ts : List Turn} (hs : Shutdown c start ts m m' h)
    (hr : start.Reached) : h.isDown c.group.bus = true := by
  obtain ⟨ts₁, u, ts₂, -, before, turn, after⟩ := hs.split
  have hm := before.reached hr
  have hturn := (turn?_changes hm turn).changes
  exact (after.changes (hm.changes hturn)).isDown_mono
    (hturn.hasBus (hasBus_of_isDown hs.up)) hs.down

/-- A bus is shut down once: whoever is not caught at this turn is not caught at another. -/
theorem Shutdown.handled {start m m' : Host} {ts : List Turn} (hshut : Shutdown c start ts m m' h)
    (hr : start.Reached) (hs : start.Spared c) (hh : start.Handled c .shutdown)
    (hcaught : ¬m.Caught c) : h.Handled c .shutdown := by
  obtain ⟨ts₁, u, ts₂, -, before, turn, after⟩ := hshut.split
  have hm := before.reached hr
  have hturn := turn?_changes hm turn
  have hm' := hm.changes hturn.changes
  rcases before.caught_or_handled hr hs hh with ⟨k, k', hearlier, -⟩ | ⟨hspared, hhandled⟩
  · exact absurd (hearlier.isDown hr) (by simp [hshut.up])
  obtain ⟨hspared', hhandled'⟩ := hturn.handled hm hspared hhandled fun _ _ => hcaught
  rcases after.caught_or_handled hm' hspared' hhandled' with ⟨k, k', hlater, -⟩ | ⟨-, hall⟩
  · obtain ⟨us, v, vs, -, between, -, -⟩ := hlater.split
    have hbus := hturn.changes.hasBus (hasBus_of_isDown hshut.up)
    have hdown := (between.changes hm').isDown_mono hbus hshut.down
    exact absurd hdown (by simp [hlater.up])
  · exact hall

theorem initial_spared (running : Bool) (c : ConsumerRef) : (initial running).Spared c := by
  rintro - ⟨t, s, ht, -⟩
  cases running <;> exact absurd ht (by simp [initial, startRuntime, stopRuntime, task?])

theorem initial_handled (running : Bool) (c : ConsumerRef) (exit : Exit) :
    (initial running).Handled c exit := by
  cases running <;> exact fun _ => rfl

theorem Reached.drained_handled (hr : h.Reached) (c : ConsumerRef) : h.Handled c .drained :=
  hr.invariant (P := fun h => h.Handled c .drained) (fun _ => rfl)
    fun hr hh hc => hc.handled hr (fun h => absurd h (by simp)) hh

/-- **Only a consumer inside its wait loses events, and only to the shutdown.** A consumer that left
its loop because it was cancelled and found nothing handled all that it was owed. So did one that
was not inside its wait at the turn that shut its bus down, however it left. If a consumer left its
loop and did not handle all that it was owed, then it left through the shutdown, and at the turn
that shut its bus down it was inside its wait with something in its queue. -/
theorem only_parked_loses_events {running : Bool} {ts : List Turn} {h : Host}
    (run : Run (initial running) ts h) (c : ConsumerRef) :
    (h.journal.exit? c = some .drained → h.journal.delivered c = h.journal.window c) ∧
    (∀ m m', Shutdown c (initial running) ts m m' h →
      (∀ t, m.task? c = some t → t.phase.isParked = false) →
      ∀ exit, h.journal.exit? c = some exit → h.journal.delivered c = h.journal.window c) ∧
    (∀ exit, h.journal.exit? c = some exit → h.journal.delivered c ≠ h.journal.window c →
      exit = .shutdown ∧ ∃ m m', Shutdown c (initial running) ts m m' h ∧
        ∃ t s, m.task? c = some t ∧ m.slot? c = some s ∧ t.phase.isParked = true ∧
          s.queue ≠ []) := by
  have hinit := initial_reached running
  have hdrained := (run.reached hinit).drained_handled c
  have hall := run.caught_or_handled hinit (initial_spared running c)
    (initial_handled running c .shutdown)
  refine ⟨hdrained, fun m m' hshut hparked exit hexit => ?_, fun exit hexit hne => ?_⟩
  · cases exit with
    | drained => exact hdrained hexit
    | shutdown =>
      refine (hshut.handled hinit (initial_spared running c) (initial_handled running c .shutdown)
        ?_) hexit
      rintro ⟨t, s, ht, -, hp, -⟩
      rw [hparked t ht] at hp
      exact absurd hp (by simp)
  · cases exit with
    | drained => exact absurd (hdrained hexit) hne
    | shutdown =>
      refine ⟨rfl, hall.resolve_right fun hsafe => hne (hsafe.2 hexit)⟩

/-- The bus of the small program is closed, and its consumer leaves. -/
def leavingTurns : List Turn := waitingTurns ++ [.obey (.close (.named "b")), .move (.leave waiter)]

def left : Host := ((initial true).replay leavingTurns).getD {}

/-- The consumer of the small program was owed an event, and its handler was not called. -/
theorem only_parked_loses_events_left :
    left.journal.window waiter = [.int 1] ∧ left.journal.delivered waiter = [] ∧
      ∃ m m', Shutdown waiter (initial true) leavingTurns m m' left ∧
        ∃ t s, m.task? waiter = some t ∧ m.slot? waiter = some s ∧ t.phase.isParked = true ∧
          s.queue ≠ [] := by
  have hrun : Run (initial true) leavingTurns left := run_of_isSome (by decide)
  have hwindow : left.journal.window waiter = [.int 1] := by decide
  have hdelivered : left.journal.delivered waiter = [] := by decide
  obtain ⟨-, -, hlost⟩ := only_parked_loses_events hrun waiter
  have hexit : left.journal.exit? waiter = some .shutdown := by decide
  obtain ⟨-, hshut⟩ := hlost .shutdown hexit (by rw [hwindow, hdelivered]; simp)
  exact ⟨hwindow, hdelivered, hshut⟩

end Host

end EventBus
