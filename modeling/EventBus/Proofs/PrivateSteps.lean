import EventBus.Proofs.Slotless
import EventBus.Proofs.Stillness

/-!
# Programs that are left alone

When every consumer keeps to itself, no bus that has a task is down and nothing is asked from
outside, then only so much can happen: a task makes its next step, which touches nobody else, a loop
ticks, a loop of a bus that is down ends, or time passes. `PrivateStep` lists this, and a program to
which it happens is left alone still.
-/

set_option autoImplicit false

namespace EventBus

namespace Task

theorem who?_carryOn {t : Task} {slot : Option (Slot Event)} {now : Nat} {d : Deed}
    (ha : t.carryOn slot now = some d) {what : Happening} (hw : d.said = some what) :
    what.who? = some t.consumer := by
  -- a look tells of a batch or of the end, or nothing
  have hregard : ∀ {what : Happening}, (t.regard slot).said = some what →
      what.who? = some t.consumer := by
    intro what hw
    unfold regard at hw
    split at hw
    · exact Option.some.inj hw ▸ rfl
    · split at hw
      · split at hw
        · exact Option.some.inj hw ▸ rfl
        · exact absurd hw (by simp)
      · exact Option.some.inj hw ▸ rfl
  unfold carryOn at ha
  split at ha
  · obtain rfl := Option.some.inj ha
    exact Option.some.inj hw ▸ rfl
  · obtain rfl := Option.some.inj ha
    exact hregard hw
  · obtain rfl := Option.some.inj ha
    exact absurd hw (by simp)
  · split at ha
    · obtain rfl := Option.some.inj ha
      exact absurd hw (by simp)
    · exact absurd ha (by simp)
  · split at ha
    · obtain rfl := Option.some.inj ha
      exact Option.some.inj hw ▸ rfl
    · obtain rfl := Option.some.inj ha
      exact Option.some.inj hw ▸ rfl
  · exact (of_proceed ha).1 what hw
  · obtain rfl := Option.some.inj ha
    exact Option.some.inj hw ▸ rfl

/-- What a task says, it says of its own consumer. -/
theorem who?_act {t : Task} {slot : Option (Slot Event)} {now : Nat} {d : Deed}
    (ha : t.act slot now = some d) {what : Happening} (hw : d.said = some what) :
    what.who? = some t.consumer := by
  unfold act at ha
  split at ha
  · obtain rfl := Option.some.inj ha
    exact absurd hw (by simp)
  · exact who?_carryOn ha hw

end Task

namespace Host

variable {h h' : Host}

/-! ## What a step leaves to the others -/

namespace Does

variable {c : ConsumerRef} {d : Task.Deed} (hd : h.Does c d h')

include hd

theorem now : h'.now = h.now := congrArg (·.now) hd.without

theorem loops : h'.loops = h.loops := congrArg (·.loops) hd.without

theorem slotless : h'.slotless = h.slotless := by
  rw [← slotless_without h' c, hd.without, slotless_without]

theorem task?_other {other : ConsumerRef} (ho : other ≠ c) : h'.task? other = h.task? other := by
  have htask : ∀ h : Host, (h.without c).task? other = h.task? other := by
    intro h
    show (h.eraseTask c).task? other = h.task? other
    rw [task?_eraseTask, if_neg ho]
  rw [← htask, hd.without, htask]

theorem slot?_other {other : ConsumerRef} (ho : other ≠ c) : h'.slot? other = h.slot? other := by
  have hslot : ∀ h : Host, (h.without c).slot? other = h.slot? other := by
    intro h
    show (h.modifyGroup c.group (·.detach c.id)).slot? other = h.slot? other
    rw [slot?_detach, if_neg ho]
  rw [← hslot, hd.without, hslot]

/-- A task of the state after is the task of the consumer, or was there before. -/
theorem mem_tasks {t : Task} (ht : t ∈ h'.tasks) : d.task = some t ∨ t ∈ h.tasks := by
  by_cases hc : t.consumer = c
  · exact .inl (hd.tasks t ht hc)
  · have hmem : t ∈ (h'.without c).tasks := List.mem_filter.mpr ⟨ht, by simpa using hc⟩
    rw [hd.without] at hmem
    exact .inr (List.mem_filter.mp hmem).1

end Does

/-! ## What happens of itself -/

/-- What a program has besides buses, tasks, loops and a journal. -/
def setting (h : Host) : Host :=
  { h with now := 0, buses := [], tasks := [], loops := [], journal := [] }

/-- What may happen when nothing is asked and every consumer keeps to itself. -/
inductive PrivateStep (h h' : Host) : Prop where
  | act {c : ConsumerRef} {t : Task} {d : Task.Deed} :
      h.task? c = some t → t.act (h.slot? c) h.now = some d → h.Does c d h' → PrivateStep h h'
  | tick {l : FlushLoop} : l ∈ h.loops → l.isDue h.now = true →
      h' = ((h.setLoop (l.tick h.now)).wake l.group).note (.ticked l.id l.group) → PrivateStep h h'
  | halt {l : FlushLoop} : l ∈ h.loops → h.isDown l.group.bus = true →
      h' = (h.eraseLoop l.id).note (.loopStopped l.id l.group) → PrivateStep h h'
  | pass {instant : Nat} : h.isQuiet = true → h.now ≤ instant →
      (∀ alarm ∈ h.alarms, h.now < alarm → instant ≤ alarm) → h' = h.setClock instant →
      PrivateStep h h'

/-- A program all of whose consumers keep to themselves, on buses that are up. -/
structure AllPrivate (h : Host) : Prop where
  reached : h.Reached
  discreet : ∀ t ∈ h.tasks, t.Private
  up : ∀ t ∈ h.attended, h.isDown t.consumer.group.bus = false

namespace PrivateStep

theorem slotless (hs : h.PrivateStep h') : h'.slotless = h.slotless := by
  cases hs with
  | act _ _ hd => exact hd.slotless
  | tick _ _ heq => rw [heq]; rfl
  | halt _ _ heq => rw [heq]; rfl
  | pass _ _ _ heq => rw [heq]; rfl

theorem setting (hs : h.PrivateStep h') : h'.setting = h.setting := by
  cases hs with
  | @act c _ _ _ _ hd =>
    show (h'.without c).setting = (h.without c).setting
    rw [hd.without]
  | tick _ _ heq => rw [heq]; rfl
  | halt _ _ heq => rw [heq]; rfl
  | pass _ _ _ heq => rw [heq]; rfl

theorem now_le (hs : h.PrivateStep h') : h.now ≤ h'.now := by
  cases hs with
  | act _ _ hd => exact Nat.le_of_eq hd.now.symm
  | tick _ _ heq => rw [heq]; exact Nat.le_refl _
  | halt _ _ heq => rw [heq]; exact Nat.le_refl _
  | pass _ hle _ heq => rw [heq]; exact hle

/-- The tasks of the state after are private still, and of consumers that had a task before. -/
theorem discreet (hs : h.PrivateStep h') (hp : ∀ t ∈ h.tasks, t.Private) {t : Task}
    (ht : t ∈ h'.tasks) :
    t.Private ∧ ∃ s ∈ h.tasks, s.consumer = t.consumer ∧ s.orphaned = t.orphaned := by
  cases hs with
  | @act c s d hs ha hd =>
    rcases hd.mem_tasks ht with hdone | hmem
    · have hprivate := hp s (mem_of_task? hs)
      obtain ⟨hsame, horphan, ht⟩ := Task.private_act hprivate ha hdone
      exact ⟨ht, s, mem_of_task? hs, hsame.consumer.symm, horphan.symm⟩
    · exact ⟨hp t hmem, t, hmem, rfl, rfl⟩
  | tick _ _ heq =>
    rw [heq] at ht
    obtain ⟨s, hs, rfl⟩ := List.mem_map.mp ht
    split
    · exact ⟨(hp s hs).wake, s, hs, s.consumer_wake.symm, s.orphaned_wake.symm⟩
    · exact ⟨hp s hs, s, hs, rfl, rfl⟩
  | halt _ _ heq =>
    rw [heq] at ht
    exact ⟨hp t ht, t, ht, rfl, rfl⟩
  | pass _ _ _ heq =>
    rw [heq] at ht
    exact ⟨hp t ht, t, ht, rfl, rfl⟩

end PrivateStep

namespace AllPrivate

variable (hs : h.AllPrivate)

include hs

/-- **Left to itself**, a program does nothing else. -/
theorem privateStep {u : Turn} (hu : h.turn? u = some h') (hmoves : ∀ c, u ≠ .obey c) :
    h.PrivateStep h' := by
  cases u with
  | obey c => exact absurd rfl (hmoves c)
  | pass instant =>
    obtain ⟨⟨hquiet, hle, halarms⟩, heq⟩ := pass?_eq_some.mp hu
    exact .pass hquiet hle halarms heq
  | move m =>
    cases m with
    | run c =>
      obtain ⟨t, ht, hrun⟩ := Option.bind_eq_some_iff.mp hu
      -- a private task does as its deed says
      obtain ⟨d, ha, hd⟩ := exists_act ht (hs.discreet t (mem_of_task? ht)) hrun
      exact .act ht ha hd
    | leave c =>
      obtain ⟨t, ht, hleave⟩ := Option.bind_eq_some_iff.mp hu
      obtain rfl := consumer_of_task? ht
      -- nobody leaves: the bus of a task that is not gone is up
      obtain ⟨hp, hdown, -⟩ := leave?_eq_some.mp hleave
      have hlive := hs.reached.attended ht (by simp [hp])
      have hup := hs.up t (mem_attended.mpr ⟨mem_of_task? ht, hlive⟩)
      exact absurd (hup.symm.trans hdown) (by simp)
    | tick id =>
      obtain ⟨l, hl, htick⟩ := Option.bind_eq_some_iff.mp hu
      obtain ⟨hdue, heq⟩ := tick?_eq_some.mp htick
      exact .tick (mem_of_loop? hl) hdue heq
    | halt id =>
      obtain ⟨l, hl, hhalt⟩ := Option.bind_eq_some_iff.mp hu
      obtain ⟨hdown, heq⟩ := halt?_eq_some.mp hhalt
      exact .halt (mem_of_loop? hl) hdown heq

theorem turn? {u : Turn} (hu : h.turn? u = some h') (hmoves : ∀ c, u ≠ .obey c) :
    h'.AllPrivate := by
  have hstep := hs.privateStep hu hmoves
  refine ⟨hs.reached.changes (turn?_changes hs.reached hu).changes,
    fun t ht => (hstep.discreet hs.discreet ht).1, fun t ht => ?_⟩
  obtain ⟨hmem', hlive⟩ := mem_attended.mp ht
  obtain ⟨s, hmem, hc, horphan⟩ := (hstep.discreet hs.discreet hmem').2
  rw [isDown_of_slotless hstep.slotless, ← hc]
  exact hs.up s (mem_attended.mpr ⟨hmem, horphan.trans hlive⟩)

theorem run {ts : List Turn} (run : Run h ts h') (hmoves : ∀ t ∈ ts, ∀ c, t ≠ .obey c) :
    h'.AllPrivate := by
  induction run with
  | nil => exact hs
  | @cons _ _ _ t _ turn _ ih =>
    exact ih (hs.turn? turn (hmoves t List.mem_cons_self))
      fun u hu => hmoves u (List.mem_cons_of_mem t hu)

end AllPrivate

/-- What every private step keeps, or makes greater, a run of a program that is left alone does. -/
theorem AllPrivate.run_induction {R : Host → Host → Prop} (refl : ∀ h, R h h)
    (trans : ∀ {h m h' : Host}, R h m → R m h' → R h h')
    (step : ∀ {h h' : Host}, h.AllPrivate → h.PrivateStep h' → R h h') {ts : List Turn}
    (run : Run h ts h') :
    h.AllPrivate → (∀ t ∈ ts, ∀ c, t ≠ .obey c) → R h h' := by
  induction run with
  | nil h => exact fun _ _ => refl h
  | @cons h m h' t ts turn _ ih =>
    intro hs hmoves
    have hnow := hmoves t List.mem_cons_self
    have hlater := fun u hu => hmoves u (List.mem_cons_of_mem t hu)
    exact trans (step hs (hs.privateStep turn hnow)) (ih (hs.turn? turn hnow) hlater)

end Host

end EventBus
