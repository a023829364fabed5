import EventBus.Proofs.Account

/-!
# No wake-up is missed

A consumer registers for the next tick before it looks at its queue, so whatever comes after its
look comes after its registration, and the first tick after that wakes it. `Watch` says so for each
of the three phases between the registration and the wake-up. In the first of them the queue may
still have something older in front, which the look will find.
-/

set_option autoImplicit false

namespace EventBus

namespace Journal

variable {c : ConsumerRef} {j earlier : Journal}

/-- `earlier` is what happened before the latest registration of the consumer, and its group has not
ticked since. -/
def Registered (c : ConsumerRef) (j earlier : Journal) : Prop :=
  ∃ later time, j = later ++ ⟨time, .registered c⟩ :: earlier ∧
    ∀ x ∈ later, x.what.ticks c.group = false ∧ x.what.registers c = false

theorem Registered.append (hj : Registered c j earlier) {news : Journal}
    (hnews : ∀ x ∈ news, x.what.ticks c.group = false ∧ x.what.registers c = false) :
    Registered c (news ++ j) earlier := by
  obtain ⟨later, time, rfl, hlater⟩ := hj
  refine ⟨news ++ later, time, (List.append_assoc ..).symm, fun x hx => ?_⟩
  rcases List.mem_append.mp hx with hx | hx
  · exact hnews x hx
  · exact hlater x hx

theorem Registered.cons (hj : Registered c j earlier) {x : Entry}
    (ht : x.what.ticks c.group = false) (hr : x.what.registers c = false) :
    Registered c (x :: j) earlier := by
  refine hj.append (fun y hy => ?_ : ∀ y ∈ [x], _)
  rw [List.mem_singleton.mp hy]
  exact ⟨ht, hr⟩

theorem Registered.foreign (hj : Registered c j earlier) {news : Journal}
    (hnews : ∀ x ∈ news, x.what.concerns c = false) : Registered c (news ++ j) earlier :=
  hj.append fun x hx => ⟨(Happening.foreign (hnews x hx)).ticks,
    (Happening.foreign (hnews x hx)).registers⟩

end Journal

namespace Host

/-- What there is to say of a consumer with the task `t` and the slot `s` that has registered and
was not woken. `earlier` is what happened before it registered, and `new` what it is owed since. -/
structure Watch (h : Host) (c : ConsumerRef) (t : Task) (s : Slot Event) (earlier : Journal)
    (new : List Event) : Prop where
  registered : Journal.Registered c h.journal earlier
  window : h.journal.window c = earlier.window c ++ new
  queue : new <:+ s.queue
  found : t.phase.isParked = true → new = s.queue ∧ earlier.hasCancelled c = false

def Watchful (h : Host) (c : ConsumerRef) : Prop :=
  ∀ t s, h.task? c = some t → h.slot? c = some s → t.phase = .armed ∨ t.phase.isParked = true →
    t.woken = false → ∃ earlier new, h.Watch c t s earlier new

section

variable {h h' : Host} {c : ConsumerRef} {t t' : Task} {s s' : Slot Event} {earlier : Journal}
  {new : List Event}

theorem Watch.grows (hw : h.Watch c t s earlier new)
    (hr : Journal.Registered c h'.journal earlier) {more : List Event}
    (hwindow : h'.journal.window c = h.journal.window c ++ more)
    (hq : s'.queue = s.queue ++ more) : h'.Watch c t s' earlier (new ++ more) where
  registered := hr
  window := by rw [hwindow, hw.window, List.append_assoc]
  queue := by
    obtain ⟨old, hold⟩ := hw.queue
    exact ⟨old, by rw [hq, ← hold, List.append_assoc]⟩
  found hp := by
    obtain ⟨hnew, hcan⟩ := hw.found hp
    exact ⟨by rw [hnew, hq], hcan⟩

theorem Watch.same (hw : h.Watch c t s earlier new)
    (hr : Journal.Registered c h'.journal earlier)
    (hwindow : h'.journal.window c = h.journal.window c) (hq : s'.queue = s.queue)
    (hp : t'.phase.isParked = true → t.phase.isParked = true) :
    h'.Watch c t' s' earlier new where
  registered := hr
  window := hwindow.trans hw.window
  queue := hq ▸ hw.queue
  found hp' := hq ▸ hw.found (hp hp')

/-- A look that finds nothing leaves nothing that is older than it. -/
theorem Watch.findNothing (hw : h.Watch c t s earlier new) (ha : h.Account c t s)
    (hj : h'.journal = h.journal) (hq : s.queue = []) (hs : s.stopped = false) :
    h'.Watch c t' s earlier new where
  registered := hj ▸ hw.registered
  window := hj ▸ hw.window
  queue := hw.queue
  found _ := by
    have hnew := hw.queue
    rw [hq, List.suffix_nil] at hnew
    refine ⟨hnew.trans hq.symm, ?_⟩
    rw [← Bool.not_eq_true]
    intro hcan
    obtain ⟨later, time, hsplit, -⟩ := hw.registered
    have hsuffix : earlier <:+ h.journal :=
      ⟨later ++ [⟨time, .registered c⟩], by rw [hsplit, List.append_assoc]; rfl⟩
    rw [ha.stopped, Journal.hasCancelled_of_suffix hsuffix hcan] at hs
    exact absurd hs (by simp)

theorem watch_register (hj : h'.journal = ⟨h.now, .registered c⟩ :: h.journal)
    (hp : t'.phase = .armed) : h'.Watch c t' s h.journal [] where
  registered := ⟨[], h.now, hj, by simp⟩
  window := by rw [hj, List.append_nil]; rfl
  queue := List.nil_suffix
  found hp' := absurd hp' (by simp [hp, Phase.isParked])

/-- A step that leads to one of the phases of the watch is the registration, the look that finds
nothing, or the one to wait for the wake-up. -/
theorem Watchful.stepped (hw : h.Watchful c) (htask : h.task? c = some t)
    (hslot : h.slot? c = some s) (ha : h.Account c t s) {n : Nature} {said : Option Happening}
    (hstep : t.Step (h.slot? c) n t' said) (hs' : h'.slot? c = some s) (ht' : h'.task? c = some t')
    (hj : h'.journal = said.toList.map (⟨h.now, ·⟩) ++ h.journal) : h'.Watchful c := by
  intro t₁ s₁ ht₁ hs₁ hp hwoken
  obtain rfl := Option.some.inj (ht'.symm.trans ht₁)
  obtain rfl := Option.some.inj (hs'.symm.trans hs₁)
  cases hstep with
  | register =>
    have hcons : t.consumer = c := consumer_of_task? htask
    exact ⟨h.journal, [], watch_register (by rw [hj, hcons]; rfl) rfl⟩
  | findNothing hp₀ hs₀ hq hlive =>
    rw [hslot, Option.some.injEq] at hs₀
    subst hs₀
    obtain ⟨earlier, new, hwatch⟩ := hw t s htask hslot (.inl hp₀) hwoken
    exact ⟨earlier, new, hwatch.findNothing ha hj hq hlive⟩
  | park hp₀ =>
    have hparked : t.phase.isParked = true := by rw [hp₀]; rfl
    obtain ⟨earlier, new, hwatch⟩ := hw t s htask hslot (.inr hparked) hwoken
    exact ⟨earlier, new, hwatch.same (hj ▸ hwatch.registered) (by rw [hj]; rfl) rfl
      fun _ => hparked⟩
  | @beginCall lent =>
    cases lent <;> exact absurd hp (by simp [Task.beginCall, Phase.isParked])
  | resume | work | endCall | endBatch | fail =>
    exact absurd hp (by simp [Task.enter, Task.continueCall, Task.endCall, Task.endBatch,
      Task.fail, Phase.isParked])

end

end Host

open Host

namespace Change

variable {n : Nature} {h h' : Host} {c : ConsumerRef} {t : Task} {s : Slot Event}

theorem watchful_alive (hc : Change n h h') (hr : h.Reached) (htask : h.task? c = some t)
    (hslot : h.slot? c = some s) (hk : h.Known c) (ha : h.Account c t s) (hw : h.Watchful c) :
    h'.Watchful c := by
  -- a task that stays as it is keeps its watch, which grows with its queue
  have hkeep : ∀ {s' : Slot Event} {more : List Event}, h'.task? c = h.task? c →
      h'.slot? c = some s' → h'.journal.window c = h.journal.window c ++ more →
      s'.queue = s.queue ++ more →
      (∀ earlier, Journal.Registered c h.journal earlier →
        Journal.Registered c h'.journal earlier) → h'.Watchful c := by
    intro s' more ht hs hwindow hq hreg t₁ s₁ ht₁ hs₁ hp hwoken
    obtain rfl := Option.some.inj (htask.symm.trans (ht.symm.trans ht₁))
    obtain rfl := Option.some.inj (hs.symm.trans hs₁)
    obtain ⟨earlier, new, hwatch⟩ := hw t s htask hslot hp hwoken
    exact ⟨earlier, new ++ more, hwatch.grows (hreg earlier hwatch.registered) hwindow hq⟩
  have hnil : ∀ {xs ys : List Event}, xs = ys → xs = ys ++ [] := fun h => by simp [h]
  cases hc.life hr c with
  | apart news hs ht hj hnews =>
    refine hkeep ht (hs.trans hslot) (hnil ?_) (hnil rfl) fun earlier hreg => ?_
    · rw [hj, Journal.window_of_foreign hnews]
    · rw [hj]
      exact hreg.foreign hnews
  | heard htype hacc _ hs ht hj =>
    obtain ⟨more, hwindow, hq⟩ := ha.window_heard hr hk htype hacc hj
    rw [hslot] at hs
    apply hkeep ht hs hwindow hq
    intro earlier hreg
    rw [hj]
    exact hreg.cons rfl rfl
  | unheard htype hacc hbus hs ht hj =>
    refine hkeep ht (hs.trans hslot) (hnil (hk.window_unheard hr htype hbus hacc hj)) (hnil rfl)
      fun earlier hreg => ?_
    rw [hj]
    exact hreg.cons rfl rfl
  | closed hs ht hj =>
    apply hkeep ht (hs.trans hslot) (hnil (by rw [hj]; rfl)) (hnil rfl)
    intro earlier hreg
    rw [hj]
    exact hreg.cons rfl rfl
  | ticked hs ht hj =>
    -- the tick wakes whoever is registered, so nobody is left to be watched
    intro t₁ s₁ ht₁ _ hp hwoken
    rw [htask, Option.map_some] at ht
    obtain rfl := Option.some.inj (ht.symm.trans ht₁)
    rw [Task.phase_wake] at hp
    have hreg : t.phase.isRegistered = true := by
      rcases hp with hp | hp
      · rw [hp]
        rfl
      · exact Phase.isRegistered_of_isParked hp
    rw [Task.wake, if_pos hreg] at hwoken
    exact absurd hwoken (by simp)
  | enrolled hcons hadm | stillborn hcons hadm => exact (hk.not_admissible hcons hadm).elim
  | cancelled hs _ hs' ht hj =>
    rw [hslot, Option.some.injEq] at hs
    subst hs
    apply hkeep ht hs' (hnil (by rw [hj]; rfl)) (hnil rfl)
    intro earlier hreg
    rw [hj]
    exact hreg.cons rfl rfl
  | stepped ht hstep hs ht' hj =>
    rw [htask, Option.some.injEq] at ht
    subst ht
    exact hw.stepped htask hslot ha hstep (hs.trans hslot) ht' hj
  | took _ _ _ _ _ ht' _ =>
    intro t₁ s₁ ht₁ _ hp _
    obtain rfl := Option.some.inj (ht'.symm.trans ht₁)
    unfold Task.beginBatch at hp
    split at hp <;> exact absurd hp (by simp [Phase.isParked])
  | finished _ _ _ ht' _ | jobOver _ _ _ ht' _ =>
    intro t₁ s₁ ht₁
    exact absurd (ht'.symm.trans ht₁) (by simp)
  | leftJob _ _ _ hs' =>
    intro t₁ s₁ _ hs₁
    exact absurd (hs'.symm.trans hs₁) (by simp)

theorem watchful (hc : Change n h h') (hr : h.Reached) (hw : h.Watchful c) : h'.Watchful c := by
  cases hr.lifetime c with
  | unborn _ hnone =>
    intro t' s' ht' _ hp _
    rw [(hc.life hr c).phase_of_new hnone ht'] at hp
    exact absurd hp (by simp [Phase.isParked])
  | gone _ _ _ hend =>
    -- whoever is at the end has no slot again
    intro t' s' _ hs'
    obtain ⟨news, hj, -⟩ := hc.news
    exact absurd hs' (by simp [(hr.change hc).slot?_of_ended
      (hj ▸ Journal.hasEnded_of_suffix (List.suffix_append news _) hend)])
  | alive htask hslot _ hk ha => exact hc.watchful_alive hr htask hslot hk ha hw

end Change

namespace Host

theorem Reached.watchful {h : Host} (hr : h.Reached) (c : ConsumerRef) : h.Watchful c :=
  hr.invariant (P := fun h => h.Watchful c) (fun _ _ ht => absurd ht (by simp [task?]))
    fun hr hw hc => hc.watchful hr hw

theorem suffix_of_older {j earlier before : Journal} {c : ConsumerRef} {x : Entry}
    (hr : Journal.Registered c j earlier) (hx : x.what.ticks c.group = true)
    (hs : x :: before <:+ j) : x :: before <:+ earlier := by
  obtain ⟨later, time, rfl, hlater⟩ := hr
  induction later with
  | nil =>
    rcases List.suffix_cons_iff.mp hs with heq | hs
    · rw [(List.cons.inj heq).1] at hx
      exact absurd hx (by simp [Happening.ticks])
    · exact hs
  | cons y later ih =>
    rcases List.suffix_cons_iff.mp hs with heq | hs
    · rw [(List.cons.inj heq).1, (hlater y List.mem_cons_self).1] at hx
      exact absurd hx (by simp)
    · exact ih (fun z hz => hlater z (List.mem_cons_of_mem y hz)) hs

/-- **No wake-up is missed.** Take a consumer that is inside its wait and was not woken. Its group
has not ticked since it registered; what is in its queue is just what it is owed since then; and if
it was cancelled, then since then. So for every tick of the group that there was, what the consumer
was owed at the tick is not in its queue any more, and it was not cancelled yet at the tick. -/
theorem no_missed_wakeup {h : Host} (hr : h.Reachable) {c : ConsumerRef} {t : Task}
    {s : Slot Event} (ht : h.task? c = some t) (hs : h.slot? c = some s)
    (hp : t.phase.isParked = true) (hw : t.woken = false) :
    (∃ (later : Journal) (time : Nat) (earlier : Journal),
      h.journal = later ++ ⟨time, .registered c⟩ :: earlier ∧
      (∀ x ∈ later, x.what.ticks c.group = false ∧ x.what.registers c = false) ∧
      h.journal.window c = earlier.window c ++ s.queue ∧
      (s.stopped = true → earlier.hasCancelled c = false ∧ h.journal.hasCancelled c = true)) ∧
    ∀ (tick : Entry) (before : Journal), tick.what.ticks c.group = true →
      tick :: before <:+ h.journal →
      (∃ handled, h.journal.window c = handled ++ s.queue ∧ before.window c <+: handled) ∧
      (s.stopped = true → before.hasCancelled c = false) := by
  obtain ⟨earlier, new, hwatch⟩ := hr.reached.watchful c t s ht hs (.inr hp) hw
  obtain ⟨rfl, hcan⟩ := hwatch.found hp
  constructor
  · obtain ⟨later, time, hsplit, hlater⟩ := hwatch.registered
    refine ⟨later, time, earlier, hsplit, hlater, hwatch.window, fun hstop => ⟨hcan, ?_⟩⟩
    cases hr.reached.lifetime c with
    | unborn hnone | gone hnone => exact absurd (hnone.symm.trans hs) (by simp)
    | alive _ hslot _ _ ha =>
      obtain rfl := Option.some.inj (hs.symm.trans hslot)
      rw [← ha.stopped, hstop]
  · intro tick before htick hsuffix
    have holder := suffix_of_older hwatch.registered htick hsuffix
    -- a tick that came before the consumer registered is older than what it was owed then
    have hbefore : before <:+ earlier := (List.suffix_cons tick before).trans holder
    refine ⟨⟨earlier.window c, hwatch.window, Journal.window_prefix hbefore⟩, fun _ => ?_⟩
    rw [← Bool.not_eq_true]
    intro hold
    rw [Journal.hasCancelled_of_suffix hbefore hold] at hcan
    exact absurd hcan (by simp)

/-- The consumer of the small program waits with an event in its queue, which came after it
registered; no tick is missed. -/
theorem no_missed_wakeup_waiting : ∃ t s, waiting.task? waiter = some t ∧
    waiting.slot? waiter = some s ∧ t.phase.isParked = true ∧ t.woken = false ∧
    s.queue = [.int 1] ∧ ∃ (later : Journal) (time : Nat) (earlier : Journal),
      waiting.journal = later ++ ⟨time, .registered waiter⟩ :: earlier ∧
      (∀ x ∈ later, x.what.ticks waiter.group = false ∧ x.what.registers waiter = false) ∧
      waiting.journal.window waiter = earlier.window waiter ++ s.queue := by
  have htask : (waiting.task? waiter).map (fun t => (t.phase.isParked, t.woken)) =
      some (true, false) := by decide
  have hslot : (waiting.slot? waiter).map (·.queue) = some [.int 1] := by decide
  obtain ⟨t, ht, hphase⟩ := Option.map_eq_some_iff.mp htask
  obtain ⟨s, hs, hqueue⟩ := Option.map_eq_some_iff.mp hslot
  obtain ⟨hparked, hwoken⟩ := Prod.mk.inj hphase
  obtain ⟨⟨later, time, earlier, hsplit, hlater, hwindow, -⟩, -⟩ :=
    no_missed_wakeup waiting_reachable ht hs hparked hwoken
  exact ⟨t, s, ht, hs, hparked, hwoken, hqueue, later, time, earlier, hsplit, hlater, hwindow⟩

end Host

end EventBus
