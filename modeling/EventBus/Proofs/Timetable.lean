import EventBus.Proofs.Moves
import EventBus.Proofs.Standing

/-!
# Loops tick on time

The clock goes on only when nobody can move, and not past the next instant of anybody. So a loop
ticks at its instants, at each of them, and at no other time. The journal has the ticks of every
loop that runs: `Punctual` is the timetable, and `Reached.punctual` says that it is kept.
-/

set_option autoImplicit false

namespace EventBus

open Host

namespace Change

variable {n : Nature} {h h' : Host}

/-- Time passes on its own, or not at all. -/
theorem clock (hc : Change n h h') : h'.now = h.now ∨ ∃ instant, h.isQuiet = true ∧
    h.now ≤ instant ∧ (∀ alarm ∈ h.alarms, h.now < alarm → instant ≤ alarm) ∧
    h' = h.setClock instant := by
  cases hc with
  | pass hquiet hle halarms => exact .inr ⟨_, hquiet, hle, halarms, rfl⟩
  | close _ hok =>
    obtain ⟨bus, -, -, rfl⟩ := close_eq_ok hok
    exact .inl rfl
  | publish _ hb =>
    obtain ⟨fate, buses, hframe⟩ := publish_frame hb
    rw [hframe]
    exact .inl rfl
  | startLoop _ hidle =>
    rw [ensureLoop_of_idle hidle]
    exact .inl rfl
  | cancel ha =>
    rw [cancel_of_active ha]
    exact .inl rfl
  | _ => exact .inl rfl

theorem now_eq (hc : Change n h h') {x : Entry} (hj : h'.journal = x :: h.journal) :
    h'.now = h.now := by
  rcases hc.clock with hnow | ⟨instant, -, -, -, rfl⟩
  · exact hnow
  · exact absurd hj.symm (List.cons_ne_self x h.journal)

/-- What a change enters in the journal, it enters at the instant at which it happens. -/
theorem news (hc : Change n h h') :
    ∃ news, h'.journal = news ++ h.journal ∧ ∀ x ∈ news, x.time = h.now := by
  have hone : ∀ {what : Happening}, h'.journal = ⟨h.now, what⟩ :: h.journal →
      ∃ news, h'.journal = news ++ h.journal ∧ ∀ x ∈ news, x.time = h.now :=
    fun {what} hj => ⟨[⟨h.now, what⟩], hj, by simp⟩
  cases hc with
  | pass | rename | make | abandon | bindType | endJob | stop | start => exact ⟨[], rfl, by simp⟩
  | aside | enrol | take | finish | leaveJob | tick | halt => exact hone rfl
  | stillborn => exact ⟨[⟨h.now, _⟩, ⟨h.now, _⟩], rfl, by simp⟩
  | close _ hok =>
    obtain ⟨bus, -, -, rfl⟩ := close_eq_ok hok
    exact hone rfl
  | publish _ hb =>
    obtain ⟨fate, buses, hframe⟩ := publish_frame hb
    rw [hframe] at hone ⊢
    exact hone rfl
  | startLoop _ hidle =>
    rw [ensureLoop_of_idle hidle] at hone ⊢
    exact hone rfl
  | cancel ha =>
    rw [cancel_of_active ha] at hone ⊢
    exact hone rfl
  | @step _ _ _ _ said _ _ => exact ⟨said.toList.map (⟨h.now, ·⟩), rfl, by simp⟩

/-- The settings of a bus are those it was made with. -/
theorem builder? (hc : Change n h h') {b : BusId} {builder : Builder}
    (hs : h.builder? b = some builder) : h'.builder? b = some builder := by
  cases hc with
  | pass | rename | aside | step | endJob | tick | halt | stop | start => exact hs
  | make =>
    obtain ⟨bus, hb, -⟩ := Option.map_eq_some_iff.mp hs
    -- the new bus has a number of its own
    have hne : b ≠ h.buses.length := by
      rintro rfl
      rw [bus?_length] at hb
      exact absurd hb (by simp)
    rw [Host.builder?, bus?_append, if_neg hne]
    exact hs
  | abandon _ =>
    -- going down keeps the settings
    have hf : ∀ bus : Bus, bus.abandon.config = bus.config ∧ bus.abandon.pinned = bus.pinned :=
      fun bus => by rw [Bus.abandon]; split <;> exact ⟨rfl, rfl⟩
    exact (h.builder?_modifyBus hf _ b).trans hs
  | close _ hok =>
    obtain ⟨bus, -, -, rfl⟩ := close_eq_ok hok
    exact (h.builder?_modifyBus (f := fun bus => { bus with stage := .closed })
      (fun _ => ⟨rfl, rfl⟩) _ b).trans hs
  | @publish _ b' event _ hb =>
    cases ha : h.accepts b' event with
    | true =>
      rw [publish_of_accepts ha]
      exact (h.builder?_modifyGroup _ _ b).trans hs
    | false =>
      obtain ⟨fate, hfate⟩ := publish_of_not_accepts hb ha
      rw [hfate]
      exact hs
  | @bindType _ _ bus type kind fresh _ _ _ =>
    exact (h.builder?_modifyBus (f := fun bus' =>
      { bus' with registry := bus.registry.add ⟨type, kind, bus.newGroup type⟩ fresh })
      (fun _ => ⟨rfl, rfl⟩) _ b).trans hs
  | startLoop _ hidle =>
    rw [ensureLoop_of_idle hidle]
    exact (h.builder?_modifyGroup _ _ b).trans hs
  | enrol | take | finish | leaveJob => exact (h.builder?_modifyGroup _ _ b).trans hs
  | stillborn =>
    exact (builder?_modifyGroup _ _ _ b).trans ((h.builder?_modifyGroup _ _ b).trans hs)
  | cancel ha =>
    rw [cancel_of_active ha]
    exact (h.builder?_modifyGroup _ _ b).trans hs

theorem interval? (hc : Change n h h') {b : BusId} {interval : Duration}
    (hi : h.interval? b = some interval) : h'.interval? b = some interval := by
  rw [interval?_eq_builder?] at hi
  obtain ⟨builder, hs, rfl⟩ := Option.map_eq_some_iff.mp hi
  rw [interval?_eq_builder?, hc.builder? hs]
  rfl

/-- Only a tick is entered as one. -/
theorem ticker (hc : Change n h h') :
    (∃ l, h.loop? l.id = some l ∧ l.isDue h.now = true ∧
      h' = ((h.setLoop (l.tick h.now)).wake l.group).note (.ticked l.id l.group)) ∨
    ∀ x ∈ h'.journal, x.what.ticker?.isSome = true → x ∈ h.journal := by
  -- all other changes enter at most something that is no tick
  have hone : ∀ {what : Happening}, what.ticker? = none →
      ∀ x ∈ (⟨h.now, what⟩ : Entry) :: h.journal, x.what.ticker?.isSome = true →
        x ∈ h.journal := by
    intro what hwhat x hx hticker
    rcases List.mem_cons.mp hx with rfl | hx
    · rw [hwhat] at hticker
      exact absurd hticker (by simp)
    · exact hx
  cases hc with
  | pass | rename | make | abandon | bindType | endJob | stop | start => exact .inr fun x hx _ => hx
  | @aside _ what haside =>
    refine .inr (hone ?_)
    cases what <;> first | rfl | exact absurd haside (by simp [Happening.isAside])
  | enrol | take | leaveJob | halt => exact .inr (hone rfl)
  | finish _ he =>
    refine .inr (hone ?_)
    cases he <;> rfl
  | tick hfound hdue => exact .inl ⟨_, hfound, hdue, rfl⟩
  | stillborn =>
    right
    intro x hx hticker
    rcases List.mem_cons.mp hx with rfl | hx
    · exact absurd hticker (by simp [Happening.ticker?])
    · exact hone rfl x hx hticker
  | close _ hok =>
    obtain ⟨bus, -, -, rfl⟩ := close_eq_ok hok
    exact .inr (hone rfl)
  | publish _ hb =>
    obtain ⟨fate, buses, hframe⟩ := publish_frame hb
    rw [hframe]
    exact .inr (hone rfl)
  | startLoop _ hidle =>
    rw [ensureLoop_of_idle hidle]
    exact .inr (hone rfl)
  | cancel ha =>
    rw [cancel_of_active ha]
    exact .inr (hone rfl)
  | step _ hs =>
    right
    -- of the steps of a task three are entered, none of them as a tick
    cases hs with
    | findNothing | park | resume | work | endCall | fail => exact fun x hx _ => hx
    | register | beginCall | endBatch => exact hone rfl

end Change

namespace Host

theorem Reached.time_le {h : Host} (hr : h.Reached) : ∀ x ∈ h.journal, x.time ≤ h.now := by
  apply hr.invariant (P := fun h => ∀ x ∈ h.journal, x.time ≤ h.now) (by simp)
  intro h h' n _ hall hc x hx
  have hle : h.now ≤ h'.now := by
    rcases hc.clock with hnow | ⟨instant, -, hle, -, rfl⟩
    · exact Nat.le_of_eq hnow.symm
    · exact hle
  obtain ⟨news, hj, htime⟩ := hc.news
  rw [hj] at hx
  rcases List.mem_append.mp hx with hx | hx
  · rw [htime x hx]
    exact hle
  · exact Nat.le_trans (hall x hx) hle

/-- A loop ticks at the interval of its bus. -/
theorem Reached.interval? {h : Host} (hr : h.Reached) :
    ∀ l ∈ h.loops, h.interval? l.group.bus = some l.interval := by
  refine hr.invariant (P := fun h => ∀ l ∈ h.loops, h.interval? l.group.bus = some l.interval)
    (by simp) ?_
  intro h h' n _ hall hc l hl
  cases hc.loopOrigin hl with
  | kept hl => exact hc.interval? (hall l hl)
  | @ticked r hr _ _ => exact hc.interval? (hall r hr)
  | started _ hi _ => exact hc.interval? hi

/-! ## The timetable -/

/-- The loop ticked at its instants: every tick of it in the journal is at one of them, and at each
of them there is a tick. The next instant is not over. -/
structure Punctual (h : Host) (l : FlushLoop) : Prop where
  fresh : l.start = none → l.ticks = 0 ∧ ∀ x ∈ h.journal, x.what.ticker? ≠ some l.id
  past : ∀ start, l.start = some start → ∀ x ∈ h.journal, x.what.ticker? = some l.id →
    ∃ k < l.ticks, x.time = FlushLoop.instant start l.interval k
  kept : ∀ start, l.start = some start → ∀ k < l.ticks,
    ⟨FlushLoop.instant start l.interval k, .ticked l.id l.group⟩ ∈ h.journal
  next : ∀ start, l.start = some start →
    0 < l.ticks ∧ h.now ≤ FlushLoop.instant start l.interval l.ticks

/-- A loop that does not tick keeps its timetable as long as the clock does not pass its instant. -/
theorem Punctual.same {h h' : Host} {l : FlushLoop} (hp : h.Punctual l)
    (hnew : ∀ x ∈ h'.journal, x.what.ticker? = some l.id → x ∈ h.journal)
    (hold : ∀ x ∈ h.journal, x ∈ h'.journal)
    (hnow : ∀ start, l.start = some start →
      h'.now ≤ FlushLoop.instant start l.interval l.ticks) : h'.Punctual l where
  fresh hstart := by
    obtain ⟨hticks, hnone⟩ := hp.fresh hstart
    exact ⟨hticks, fun x hx hticker => hnone x (hnew x hx hticker) hticker⟩
  past start hstart x hx hticker := hp.past start hstart x (hnew x hx hticker) hticker
  kept start hstart k hk := hold _ (hp.kept start hstart k hk)
  next start hstart := ⟨(hp.next start hstart).1, hnow start hstart⟩

theorem Punctual.tick {h h' : Host} {l : FlushLoop} (hp : h.Punctual l)
    (hdue : l.isDue h.now = true) (hnow : h'.now = h.now)
    (hj : h'.journal = ⟨h.now, .ticked l.id l.group⟩ :: h.journal) :
    h'.Punctual (l.tick h.now) := by
  -- the tick is at one of the instants of the loop: its first, if it has not started yet
  have hat : ∃ start, (l.tick h.now).start = some start ∧
      h.now = FlushLoop.instant start l.interval l.ticks ∧
      ∀ x ∈ h.journal, x.what.ticker? = some l.id →
        ∃ k < l.ticks, x.time = FlushLoop.instant start l.interval k := by
    cases hstart : l.start with
    | none =>
      obtain ⟨hticks, hnone⟩ := hp.fresh hstart
      refine ⟨h.now, by simp [FlushLoop.tick, hstart], ?_, fun x hx hx' => absurd hx' (hnone x hx)⟩
      rw [hticks, FlushLoop.instant_zero]
    | some start =>
      refine ⟨start, by simp [FlushLoop.tick, hstart], ?_, hp.past start hstart⟩
      apply Nat.le_antisymm (hp.next start hstart).2
      simpa [FlushLoop.isDue, FlushLoop.alarm?, hstart] using hdue
  obtain ⟨start, hstart, hinstant, hpast⟩ := hat
  refine ⟨fun hnone => absurd (hstart.symm.trans hnone) (by simp), ?_, ?_, ?_⟩
  · intro start' hstart' x hx hticker
    obtain rfl := Option.some.inj (hstart.symm.trans hstart')
    rw [hj] at hx
    -- the entry of this tick, and those before it
    rcases List.mem_cons.mp hx with rfl | hx
    · exact ⟨l.ticks, Nat.lt_succ_self _, hinstant⟩
    · obtain ⟨k, hk, htime⟩ := hpast x hx hticker
      exact ⟨k, Nat.lt_succ_of_lt hk, htime⟩
  · intro start' hstart' k hk
    obtain rfl := Option.some.inj (hstart.symm.trans hstart')
    rw [hj]
    -- an instant that was past, and the instant of this tick
    rcases Nat.lt_succ_iff_lt_or_eq.mp hk with hk | rfl
    · refine List.mem_cons_of_mem _ (hp.kept start ?_ k hk)
      cases hold : l.start with
      | none => exact absurd hk (by simp [(hp.fresh hold).1])
      | some start₀ => simpa [FlushLoop.tick, hold] using hstart
    · exact List.mem_cons.mpr (.inl (by rw [hinstant]; rfl))
  · intro start' hstart'
    obtain rfl := Option.some.inj (hstart.symm.trans hstart')
    refine ⟨Nat.succ_pos _, ?_⟩
    rw [hnow, hinstant]
    exact FlushLoop.instant_mono start l.interval (Nat.le_succ _)

/-- The clock stops at the next instant of every loop. -/
theorem le_alarm_of_quiet {h : Host} (hs : h.LoopsSound) (hquiet : h.isQuiet = true) (instant : Nat)
    (halarms : ∀ alarm ∈ h.alarms, h.now < alarm → instant ≤ alarm) {l : FlushLoop}
    (hl : l ∈ h.loops) :
    ∃ start, l.start = some start ∧ h.now < FlushLoop.instant start l.interval l.ticks ∧
      instant ≤ FlushLoop.instant start l.interval l.ticks := by
  have hnot : l.isDue h.now = false := by
    rw [← Bool.not_eq_true]
    exact fun hdue => not_moveStep_of_quiet hquiet (.tick (hs.loop?_of_mem hl) hdue)
  cases hstart : l.start with
  | none => exact absurd hnot (by simp [FlushLoop.isDue, FlushLoop.alarm?, hstart])
  | some start =>
    have hahead : h.now < FlushLoop.instant start l.interval l.ticks := by
      simpa [FlushLoop.isDue, FlushLoop.alarm?, hstart] using hnot
    refine ⟨start, rfl, hahead, halarms _ ?_ hahead⟩
    refine List.mem_append_left _ (List.mem_filterMap.mpr ⟨l, hl, ?_⟩)
    rw [FlushLoop.alarm?, hstart, Option.map_some]

theorem Reached.ticker_lt {h : Host} (hr : h.Reached) :
    ∀ x ∈ h.journal, ∀ id, x.what.ticker? = some id → id < h.loopsStarted := by
  refine hr.invariant (P := fun h => ∀ x ∈ h.journal, ∀ id, x.what.ticker? = some id →
    id < h.loopsStarted) (by simp) ?_
  intro h h' n hr hall hc x hx id hid
  rcases hc.ticker with ⟨l, hl, -, rfl⟩ | hold
  · rcases List.mem_cons.mp hx with rfl | hx
    · obtain rfl := Option.some.inj hid
      exact hr.loopsSound.below _ _ (hr.loopsSound.flusher l (List.mem_of_find?_eq_some hl))
    · exact hall x hx id hid
  · exact Nat.lt_of_lt_of_le (hall x (hold x hx (by rw [hid]; rfl)) id hid) hc.loopsStarted_le

/-- **Loops tick on time.** Every loop that runs ticked at its instants, and is not late. -/
theorem Reached.punctual {h : Host} (hr : h.Reached) : ∀ l ∈ h.loops, h.Punctual l := by
  apply hr.invariant (P := fun h => ∀ l ∈ h.loops, h.Punctual l) (by simp)
  intro h h' n hr hall hc l hl
  -- the clock passes no alarm of a loop
  rcases hc.clock.symm with ⟨instant, hquiet, -, halarms, rfl⟩ | hnow
  · refine (hall l hl).same (fun x hx _ => hx) (fun x hx => hx) fun start hstart => ?_
    obtain ⟨start', hstart', -, hle⟩ := le_alarm_of_quiet hr.loopsSound hquiet _ halarms hl
    obtain rfl := Option.some.inj (hstart.symm.trans hstart')
    exact hle
  -- a loop that does not tick keeps its place in the timetable
  have hsame : ∀ r ∈ h.loops, (∀ x ∈ h'.journal, x.what.ticker? = some r.id → x ∈ h.journal) →
      h'.Punctual r := by
    intro r hmem hnew
    obtain ⟨news, hj, -⟩ := hc.news
    refine (hall r hmem).same hnew (fun x hx => ?_) fun start hstart => ?_
    · rw [hj]
      exact List.mem_append_right _ hx
    · rw [hnow]
      exact ((hall r hmem).next start hstart).2
  rcases hc.ticker with ⟨r, hfound, hdue, rfl⟩ | hnew
  · obtain ⟨s, hs, rfl⟩ := List.mem_map.mp hl
    split
    · exact (hall r (List.mem_of_find?_eq_some hfound)).tick hdue rfl rfl
    · next hne =>
      rw [if_neg hne] at hl
      apply hsame s hs
      intro x hx hticker
      rcases List.mem_cons.mp hx with rfl | hx
      · exact absurd (Option.some.inj hticker).symm hne
      · exact hx
  · cases hc.loopOrigin hl with
    | kept hl => exact hsame l hl fun x hx hticker => hnew x hx (by rw [hticker]; rfl)
    | @ticked r hmem hdue hj => exact (hall r hmem).tick hdue hnow hj
    -- a loop that starts has not ticked: its id is new
    | started _ _ _ =>
      refine ⟨fun _ => ⟨rfl, fun x hx hticker => ?_⟩, ?_, ?_, ?_⟩
      · have hlt := hr.ticker_lt x (hnew x hx (by rw [hticker]; rfl)) _ hticker
        exact absurd hlt (Nat.lt_irrefl _)
      · intro start hstart
        exact absurd hstart (by simp)
      · intro start hstart
        exact absurd hstart (by simp)
      · intro start hstart
        exact absurd hstart (by simp)

/-- What `runUntil` comes to an end with is a state at which nobody can move, at the limit. -/
theorem quiet_of_runUntil {limit fuel : Nat} {last : Option Mover} {h h' : Host}
    (finished : runUntil limit fuel last h = some h') : h'.isQuiet = true ∧ limit ≤ h'.now := by
  induction fuel generalizing last h with
  | zero => simp [runUntil] at finished
  | succ fuel ih =>
    rw [runUntil] at finished
    split at finished
    · exact ih finished
    · next none_moves =>
      split at finished
      · exact ih finished
      · next hlimit =>
        obtain rfl := Option.some.inj finished
        exact ⟨isQuiet_of_firstMove?_eq_none none_moves, Nat.le_of_not_lt hlimit⟩

end Host

end EventBus
