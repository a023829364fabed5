import EventBus.Proofs.Outlook
import EventBus.Proofs.PrivateSteps
import EventBus.Proofs.WindDown

/-!
# How consumers and loops get on

A tick may come before a consumer registers or after it has looked, and a consumer may move before
or after another. What is to become of a consumer does not depend on that: whatever happens in a
program that is left alone leaves its prospect as it is, or is the step that the prospect admits,
and so it is with flush loops. When nobody can move, no prospect admits a step before a later
instant.
-/

set_option autoImplicit false

namespace EventBus

/-! ## Whom a journal is about -/

inductive Subject where
  | consumer (c : ConsumerRef)
  | loop (id : LoopId)
  | program
  deriving DecidableEq

def Happening.subject (what : Happening) : Subject :=
  match what.who? with
  | some c => .consumer c
  | none =>
    match what with
    | .loopStarted id .. | .loopStopped id _ | .ticked id _ => .loop id
    | _ => .program

theorem Happening.subject_of_who? {what : Happening} {c : ConsumerRef} (hw : what.who? = some c) :
    what.subject = .consumer c := by
  unfold subject
  simp only [hw]

namespace Journal

/-- What counts of a journal about one subject. -/
def about (j : Journal) (s : Subject) : Journal :=
  j.filter fun x => x.what.counts && x.what.subject = s

theorem about_append (j j' : Journal) (s : Subject) :
    about (j ++ j') s = j.about s ++ j'.about s := List.filter_append ..

theorem about_cons_of_not {x : Entry} {j : Journal} {s : Subject}
    (hx : x.what.counts = true → x.what.subject ≠ s) : about (x :: j) s = j.about s := by
  refine List.filter_cons_of_neg ?_
  simpa using hx

/-- Journals that say the same about every subject say the same, in some order. -/
theorem perm_of_about {j j' : Journal} (h : ∀ s, j'.about s = j.about s) :
    (j'.filter (·.what.counts)).Perm (j.filter (·.what.counts)) := by
  rw [List.perm_iff_count]
  intro x
  have hcount : ∀ j : Journal, (j.filter (·.what.counts)).count x =
      if x.what.counts then (j.about x.what.subject).count x else 0 := by
    intro j
    split
    · next hx =>
      rw [about, List.count_filter (p := fun y : Entry => y.what.counts) hx,
        List.count_filter (by simp [hx])]
    · next hx => exact List.count_eq_zero.mpr fun hmem => hx (List.mem_filter.mp hmem).2
  rw [hcount, hcount, h]

/-- What is shown only of what counts is then shown of both, in some order. -/
theorem perm_filterMap {α : Type} {j j' : Journal}
    (hp : (j'.filter (·.what.counts)).Perm (j.filter (·.what.counts))) {f : Entry → Option α}
    (hf : ∀ x a, f x = some a → x.what.counts = true) : (j'.filterMap f).Perm (j.filterMap f) := by
  have hcounts : ∀ j : Journal, (j.filter (·.what.counts)).filterMap f = j.filterMap f := by
    intro j
    rw [List.filterMap_filter]
    refine List.filterMap_congr fun x _ => ?_
    split
    · rfl
    · next hx => exact (Option.eq_none_iff_forall_ne_some.mpr fun a ha => hx (hf x a ha)).symm
  rw [← hcounts, ← hcounts j]
  exact hp.filterMap f

end Journal

/-! ## Wake-ups -/

namespace Task

variable (t : Task) (slot : Option (Slot Event)) (now : Nat)

theorem outlook_wake : t.wake.outlook slot = t.outlook slot := by
  have hcalm : t.wake.calm = t.calm := by
    unfold wake
    split <;> rfl
  rw [outlook, outlook, hcalm, phase_wake]

/-- A wake-up comes when the tick comes. -/
theorem moment?_wake (tick : Option Nat) :
    t.wake.moment? slot now tick = t.moment? slot now (some now) := by
  unfold moment?
  rw [phase_wake]
  cases hp : t.phase with
  | idle | waiting =>
    have hwoken : t.wake.woken = true := by rw [wake, hp]; rfl
    simp [hwoken]
  | ready | armed | failed payload => rfl
  | draining lent call? => cases call? <;> rfl

end Task

namespace Host

variable {h h' : Host} {c : ConsumerRef}

/-- The next tick of a group, if it has a loop. -/
def tickOf? (h : Host) (g : GroupRef) : Option Nat :=
  ((h.flusher? g).bind h.loop?).map fun l => max h.now (l.alarm?.getD h.now)

def prospect (h : Host) (c : ConsumerRef) : Prospect :=
  .of (h.task? c) (h.slot? c) h.now (h.tickOf? c.group) (h.journal.about (.consumer c))

/-! ## What a private step adds to the journal -/

theorem about_act {d : Task.Deed} {t : Task} (ht : h.task? c = some t)
    (ha : t.act (h.slot? c) h.now = some d) (hd : h.Does c d h') :
    (h'.journal.about (.consumer c) = d.entries h.now ++ h.journal.about (.consumer c)) ∧
      ∀ s, s ≠ .consumer c → h'.journal.about s = h.journal.about s := by
  have hsubject : ∀ what ∈ d.said.toList, what.subject = .consumer c := by
    intro what hw
    rw [Happening.subject_of_who? (Task.who?_act ha (Option.mem_toList.mp hw)),
      consumer_of_task? ht]
  have hown : Journal.about (d.said.toList.map (⟨h.now, ·⟩)) (.consumer c) = d.entries h.now := by
    rw [Journal.about, List.filter_map, Task.Deed.entries]
    congr 1
    refine List.filter_congr fun what hw => ?_
    simp [hsubject what hw]
  refine ⟨by rw [hd.journal, Journal.about_append, hown], fun s hs => ?_⟩
  have hnone : Journal.about (d.said.toList.map (⟨h.now, ·⟩)) s = [] := by
    rw [Journal.about, List.filter_eq_nil_iff]
    intro x hx
    obtain ⟨what, hw, rfl⟩ := List.mem_map.mp hx
    simp [hsubject what hw, Ne.symm hs]
  rw [hd.journal, Journal.about_append, hnone, List.nil_append]

theorem about_tick {l : FlushLoop}
    (heq : h' = ((h.setLoop (l.tick h.now)).wake l.group).note (.ticked l.id l.group))
    (s : Subject) : h'.journal.about s = h.journal.about s := by
  rw [heq]
  exact Journal.about_cons_of_not fun hcounts => absurd hcounts (by simp [Happening.counts])

theorem about_halt {l : FlushLoop}
    (heq : h' = (h.eraseLoop l.id).note (.loopStopped l.id l.group)) {s : Subject}
    (hs : s ≠ .loop l.id) : h'.journal.about s = h.journal.about s := by
  rw [heq]
  exact Journal.about_cons_of_not fun _ => Ne.symm hs

/-! ## What a private step is to a consumer -/

theorem tickOf?_of_due (hs : h.LoopsSound) {l : FlushLoop} (hl : l ∈ h.loops)
    (hdue : l.isDue h.now = true) : h.tickOf? l.group = some h.now := by
  rw [tickOf?, hs.flusher l hl, Option.bind_some, hs.loop?_of_mem hl, Option.map_some]
  unfold FlushLoop.isDue at hdue
  cases ha : l.alarm? with
  | none => rw [Option.getD_none, Nat.max_self]
  | some alarm =>
    rw [ha] at hdue
    rw [Option.getD_some, Nat.max_eq_left (by simpa using hdue)]

/-- A group whose loop is another one goes by the same ticks. -/
theorem tickOf?_congr (hf : h'.flusher? c.group = h.flusher? c.group) (hnow : h'.now = h.now)
    (hloop : ∀ id, h.flusher? c.group = some id → h'.loop? id = h.loop? id) :
    h'.tickOf? c.group = h.tickOf? c.group := by
  rw [tickOf?, tickOf?, hf, hnow]
  cases hid : h.flusher? c.group with
  | none => rfl
  | some id => rw [Option.bind_some, Option.bind_some, hloop id hid]

theorem prospect_act {d : Task.Deed} {t : Task} {other : ConsumerRef} {limit : Nat}
    (hle : h.now ≤ limit) (ht : h.task? other = some t)
    (ha : t.act (h.slot? other) h.now = some d) (hd : h.Does other d h') :
    h'.prospect c = h.prospect c ∨ Prospect.Next limit (h.prospect c) (h'.prospect c) := by
  obtain ⟨hown, hothers⟩ := about_act ht ha hd
  have htick : h'.tickOf? c.group = h.tickOf? c.group := by
    refine tickOf?_congr (flusher?_of_slotless hd.slotless _) hd.now fun id _ => ?_
    rw [loop?, loop?, hd.loops]
  rw [prospect, prospect, hd.now, htick]
  by_cases hc : c = other
  · subst hc
    rw [hown, hd.task, hd.slot, ht]
    exact Prospect.of_act ha hle _ _
  · rw [hothers _ (by simpa using hc), hd.task?_other hc, hd.slot?_other hc]
    exact .inl rfl

theorem prospect_tick (hs : h.LoopsSound) {l : FlushLoop} (hl : l ∈ h.loops)
    (hdue : l.isDue h.now = true)
    (heq : h' = ((h.setLoop (l.tick h.now)).wake l.group).note (.ticked l.id l.group)) :
    h'.prospect c = h.prospect c := by
  have hjournal := about_tick heq (.consumer c)
  have htask : h'.task? c =
      (h.task? c).map fun t => if t.consumer.group = l.group then t.wake else t := by
    rw [heq]
    exact (h.setLoop (l.tick h.now)).task?_wake l.group c
  have hslot : h'.slot? c = h.slot? c := by rw [heq]; rfl
  have hnow : h'.now = h.now := by rw [heq]; rfl
  rw [prospect, prospect, hjournal, htask, hslot, hnow]
  cases ht : h.task? c with
  | none => rfl
  | some t =>
    have hc := consumer_of_task? ht
    rw [Option.map_some]
    -- the tick was what the tasks of this group were to wait for; the others wait for another
    by_cases hg : c.group = l.group
    · have htick : h.tickOf? c.group = some h.now := hg ▸ tickOf?_of_due hs hl hdue
      rw [hc, if_pos hg, htick]
      simp only [Prospect.of, Option.map_some, Option.bind_some, Task.outlook_wake,
        Task.moment?_wake]
    · have htick : h'.tickOf? c.group = h.tickOf? c.group := by
        refine tickOf?_congr (by rw [heq]; rfl) hnow fun id hid => ?_
        have hne : id ≠ l.id := fun hsame => hg (hs.unique _ _ id hid (hsame ▸ hs.flusher l hl))
        rw [heq]
        exact ((h.loop?_setLoop (l.tick h.now) id).trans (if_neg hne))
      rw [hc, if_neg hg, htick]

theorem prospect_halt (hs : h.AllPrivate) {l : FlushLoop} (hl : l ∈ h.loops)
    (hdown : h.isDown l.group.bus = true)
    (heq : h' = (h.eraseLoop l.id).note (.loopStopped l.id l.group)) :
    h'.prospect c = h.prospect c := by
  have hsound := hs.reached.loopsSound
  have hjournal := about_halt (s := .consumer c) heq (by simp)
  have htask : h'.task? c = h.task? c := by rw [heq]; rfl
  have hslot : h'.slot? c = h.slot? c := by rw [heq]; rfl
  have hnow : h'.now = h.now := by rw [heq]; rfl
  rw [prospect, prospect, hjournal, htask, hslot, hnow]
  cases ht : h.task? c with
  | none => rfl
  | some t =>
    obtain rfl := consumer_of_task? ht
    cases hparked : t.phase.isParked with
    | false =>
      rw [Prospect.of, Prospect.of, Option.bind_some, Option.bind_some,
        Task.moment?_of_not_parked hparked]
    | true =>
      have hlive := hs.reached.attended ht fun lent call hp => by
        simp [hp, Phase.isParked] at hparked
      -- a task that waits has its slot, and its bus is up, so the loop is not its own
      have hup := hs.up t (mem_attended.mpr ⟨mem_of_task? ht, hlive⟩)
      have htick : h'.tickOf? t.consumer.group = h.tickOf? t.consumer.group := by
        refine tickOf?_congr (by rw [heq]; rfl) hnow fun id hid => ?_
        have hne : id ≠ l.id := by
          rintro rfl
          rw [hsound.unique _ _ _ hid (hsound.flusher l hl), hdown] at hup
          exact absurd hup (by simp)
        rw [heq]
        exact (h.loop?_eraseLoop l.id id).trans (if_neg hne)
      rw [htick]

/-! ## What rest is to a consumer -/

/-- When nobody can move, loops are of buses that are up, and their next instants are ahead. -/
theorem loop_of_quiet {id : LoopId} (hs : h.LoopsSound) (hquiet : h.isQuiet = true) {instant : Nat}
    (halarms : ∀ alarm ∈ h.alarms, h.now < alarm → instant ≤ alarm) {l : FlushLoop}
    (hl : h.loop? id = some l) : h.isDown l.group.bus = false ∧
      ∃ alarm, l.alarm? = some alarm ∧ h.now < alarm ∧ instant ≤ alarm := by
  obtain ⟨start, hstart, hlt, hbound⟩ :=
    le_alarm_of_quiet hs hquiet instant halarms (mem_of_loop? hl)
  exact ⟨isDown_of_quiet hs hquiet (mem_of_loop? hl), _,
    by rw [FlushLoop.alarm?, hstart, Option.map_some], hlt, hbound⟩

/-- When nobody can move, the next tick of a group is at the next instant of its loop. -/
theorem tickOf?_of_quiet (hs : h.LoopsSound) (hquiet : h.isQuiet = true) {instant : Nat}
    (halarms : ∀ alarm ∈ h.alarms, h.now < alarm → instant ≤ alarm) :
    (h.setClock instant).tickOf? c.group = h.tickOf? c.group ∧
      ∀ tick, h.tickOf? c.group = some tick → h.now < tick := by
  have hloop : ∀ l, (h.flusher? c.group).bind h.loop? = some l →
      ∃ alarm, l.alarm? = some alarm ∧ h.now < alarm ∧ instant ≤ alarm := by
    intro l hl
    obtain ⟨id, -, hid⟩ := Option.bind_eq_some_iff.mp hl
    exact (loop_of_quiet hs hquiet halarms hid).2
  have hafter : (h.setClock instant).tickOf? c.group =
      ((h.flusher? c.group).bind h.loop?).map fun l => max instant (l.alarm?.getD instant) := rfl
  rw [hafter, tickOf?]
  cases hl : (h.flusher? c.group).bind h.loop? with
  | none => exact ⟨rfl, by simp⟩
  | some l =>
    obtain ⟨alarm, ha, hlt, hbound⟩ := hloop l hl
    rw [Option.map_some, Option.map_some, ha, Option.getD_some, Option.getD_some,
      Nat.max_eq_right hbound, Nat.max_eq_right (Nat.le_of_lt hlt)]
    exact ⟨rfl, fun tick htick => Option.some.inj htick ▸ hlt⟩

theorem prospect_pass (hs : h.LoopsSound) (hquiet : h.isQuiet = true) {instant : Nat}
    (halarms : ∀ alarm ∈ h.alarms, h.now < alarm → instant ≤ alarm) :
    (h.setClock instant).prospect c = h.prospect c := by
  obtain ⟨htick, -⟩ := tickOf?_of_quiet (c := c) hs hquiet halarms
  show Prospect.of (h.task? c) (h.slot? c) instant _ (h.journal.about (.consumer c)) = _
  rw [htick, prospect]
  cases ht : h.task? c with
  | none => rfl
  | some t =>
    simp only [Prospect.of, Option.bind_some, Prospect.mk.injEq, true_and, and_true]
    rcases still_of_quiet hquiet ht with ⟨hphase, hwoken⟩ | ⟨lent, call, alarm, hphase, ha, hlt⟩
    · rw [Task.moment?, Task.moment?, hphase]
      simp [hwoken]
    · have hmem : alarm ∈ h.alarms := by
        refine List.mem_append_right _ (List.mem_filterMap.mpr ⟨t, mem_of_task? ht, ?_⟩)
        rw [Task.alarm?, hphase]
        exact ha
      rw [Task.moment?, Task.moment?, hphase]
      simp only [ha, Option.getD_some, Nat.max_eq_right (halarms alarm hmem hlt),
        Nat.max_eq_right (Nat.le_of_lt hlt)]

/-- When nobody can move, no consumer does anything before a later instant. -/
theorem lt_moment_of_quiet (hs : h.LoopsSound) (hquiet : h.isQuiet = true) {moment : Nat}
    (hm : (h.prospect c).moment = some moment) : h.now < moment := by
  obtain ⟨-, htick⟩ := tickOf?_of_quiet (c := c) hs hquiet
    fun _ _ hlt => Nat.le_of_lt hlt
  obtain ⟨t, ht, hmoment⟩ := Option.bind_eq_some_iff.mp hm
  rcases still_of_quiet hquiet ht with ⟨hphase, hwoken⟩ | ⟨lent, call, alarm, hphase, ha, hlt⟩
  · rw [Task.moment?, hphase] at hmoment
    simp only [hwoken, Bool.false_eq_true, if_false] at hmoment
    split at hmoment
    · exact htick moment hmoment
    · exact absurd hmoment (by simp)
  · rw [Task.moment?, hphase] at hmoment
    simp only [ha, Option.getD_some, Nat.max_eq_right (Nat.le_of_lt hlt), Option.some.injEq]
      at hmoment
    exact hmoment ▸ hlt

/-- **Whatever happens** leaves the prospect of a consumer as it is, or is the step that it
admits. -/
theorem PrivateStep.prospect (hst : h.PrivateStep h') (hs : h.AllPrivate) {limit : Nat}
    (hle : h.now ≤ limit)
    (c : ConsumerRef) :
    h'.prospect c = h.prospect c ∨ Prospect.Next limit (h.prospect c) (h'.prospect c) := by
  have hsound := hs.reached.loopsSound
  cases hst with
  | act ht ha hd => exact prospect_act hle ht ha hd
  | tick hl hdue heq => exact .inl (prospect_tick hsound hl hdue heq)
  | halt hl hdown heq => exact .inl (prospect_halt hs hl hdown heq)
  | pass hquiet _ halarms heq =>
    rw [heq]
    exact .inl (prospect_pass hsound hquiet halarms)

end Host

/-! ## Flush loops -/

/-- What is to become of a flush loop, and what was said of it so far. -/
structure Lane where
  /-- A loop that is about to end counts no more ticks. -/
  loop : Option FlushLoop
  doomed : Bool
  moment : Option Nat
  said : Journal

namespace Lane

/-- The step that a lane admits, if its moment comes by the instant `limit`. -/
inductive Next (limit : Nat) : Lane → Lane → Prop where
  | tick {l : FlushLoop} {now : Nat} (said : Journal) : now ≤ limit →
      Next limit ⟨some l, false, some now, said⟩
        ⟨some (l.tick now), false, some (max now ((l.tick now).alarm?.getD now)), said⟩
  | halt {l : FlushLoop} {now : Nat} (said : Journal) : now ≤ limit →
      Next limit ⟨some l, true, some now, said⟩
        ⟨none, false, none, ⟨now, .loopStopped l.id l.group⟩ :: said⟩

theorem Next.unique {limit : Nat} : Relator.RightUnique (Next limit) := by
  rintro p q r hq hr
  cases hq <;> cases hr <;> rfl

end Lane

namespace Host

variable {h h' : Host} {id : LoopId}

def lane (h : Host) (id : LoopId) : Lane :=
  let said := h.journal.about (.loop id)
  match h.loop? id with
  | none => ⟨none, false, none, said⟩
  | some l =>
    if h.isDown l.group.bus then ⟨some { l with start := none, ticks := 0 }, true, some h.now, said⟩
    else ⟨some l, false, some (max h.now (l.alarm?.getD h.now)), said⟩

theorem lane_of_none (hl : h.loop? id = none) :
    h.lane id = ⟨none, false, none, h.journal.about (.loop id)⟩ := by
  unfold lane
  rw [hl]

theorem lane_of_up {l : FlushLoop} (hl : h.loop? id = some l)
    (hup : h.isDown l.group.bus = false) :
    h.lane id = ⟨some l, false, some (max h.now (l.alarm?.getD h.now)),
      h.journal.about (.loop id)⟩ := by
  unfold lane
  simp only [hl, hup, Bool.false_eq_true, if_false]

theorem lane_congr (hloop : h'.loop? id = h.loop? id) (hb : h'.slotless = h.slotless)
    (hnow : h'.now = h.now) (hsaid : h'.journal.about (.loop id) = h.journal.about (.loop id)) :
    h'.lane id = h.lane id := by
  unfold lane
  simp only [hloop, hnow, hsaid, isDown_of_slotless hb]

theorem lane_act {d : Task.Deed} {t : Task} {c : ConsumerRef} (ht : h.task? c = some t)
    (ha : t.act (h.slot? c) h.now = some d) (hd : h.Does c d h') : h'.lane id = h.lane id :=
  lane_congr (by rw [loop?, loop?, hd.loops]) hd.slotless hd.now
    ((about_act ht ha hd).2 _ (by simp))

theorem lane_tick (hs : h.LoopsSound) {l : FlushLoop} (hl : l ∈ h.loops)
    (hdue : l.isDue h.now = true) {limit : Nat} (hle : h.now ≤ limit)
    (heq : h' = ((h.setLoop (l.tick h.now)).wake l.group).note (.ticked l.id l.group)) :
    h'.lane id = h.lane id ∨ Lane.Next limit (h.lane id) (h'.lane id) := by
  have hjournal := about_tick heq (.loop id)
  have hloop : h'.loop? id =
      if id = l.id then (h.loop? id).map fun _ => l.tick h.now else h.loop? id := by
    rw [heq]
    exact h.loop?_setLoop (l.tick h.now) id
  have hrest : h'.slotless = h.slotless := by rw [heq]; rfl
  have hnow : h'.now = h.now := by rw [heq]; rfl
  by_cases hid : id = l.id
  · subst hid
    rw [if_pos rfl, hs.loop?_of_mem hl, Option.map_some] at hloop
    have hgroup : (l.tick h.now).group = l.group := rfl
    unfold lane
    simp only [hloop, hs.loop?_of_mem hl, hjournal, hnow, hgroup, isDown_of_slotless hrest]
    split
    · exact .inl rfl
    · -- the loop is due, so its next move is at this instant
      have hmoment : max h.now (l.alarm?.getD h.now) = h.now := by
        have htick := tickOf?_of_due hs hl hdue
        rw [tickOf?, hs.flusher l hl, Option.bind_some, hs.loop?_of_mem hl,
          Option.map_some] at htick
        exact Option.some.inj htick
      rw [hmoment]
      exact .inr (.tick _ hle)
  · rw [if_neg hid] at hloop
    exact .inl (lane_congr hloop hrest hnow hjournal)

theorem lane_halt (hs : h.LoopsSound) {l : FlushLoop} (hl : l ∈ h.loops)
    (hdown : h.isDown l.group.bus = true) {limit : Nat} (hle : h.now ≤ limit)
    (heq : h' = (h.eraseLoop l.id).note (.loopStopped l.id l.group)) :
    h'.lane id = h.lane id ∨ Lane.Next limit (h.lane id) (h'.lane id) := by
  have hloop : h'.loop? id = if id = l.id then none else h.loop? id := by
    rw [heq]
    exact h.loop?_eraseLoop l.id id
  by_cases hid : id = l.id
  · subst hid
    have hjournal : h'.journal.about (.loop l.id) =
        ⟨h.now, .loopStopped l.id l.group⟩ :: h.journal.about (.loop l.id) := by
      rw [heq]
      exact List.filter_cons_of_pos (by simp [Happening.counts, Happening.subject, Happening.who?])
    rw [if_pos rfl] at hloop
    unfold lane
    simp only [hloop, hs.loop?_of_mem hl, hjournal, if_pos hdown]
    exact .inr (.halt _ hle)
  · have hjournal := about_halt (s := .loop id) heq (by simpa using hid)
    rw [if_neg hid] at hloop
    exact .inl (lane_congr hloop (by rw [heq]; rfl) (by rw [heq]; rfl) hjournal)

theorem lane_pass (hs : h.LoopsSound) (hquiet : h.isQuiet = true) {instant : Nat}
    (halarms : ∀ alarm ∈ h.alarms, h.now < alarm → instant ≤ alarm) :
    (h.setClock instant).lane id = h.lane id := by
  have hloop : (h.setClock instant).loop? id = h.loop? id := rfl
  cases hl : h.loop? id with
  | none => rw [lane_of_none hl, lane_of_none (hloop.trans hl)]; rfl
  | some l =>
    obtain ⟨hup, alarm, ha, hlt, hbound⟩ := loop_of_quiet hs hquiet halarms hl
    have hnow : (h.setClock instant).now = instant := rfl
    rw [lane_of_up hl hup, lane_of_up (hloop.trans hl) hup, ha, hnow, Option.getD_some,
      Option.getD_some, Nat.max_eq_right hbound, Nat.max_eq_right (Nat.le_of_lt hlt)]
    rfl

/-- **Whatever happens** leaves the lane of a loop as it is, or is the step that it admits. -/
theorem PrivateStep.lane (hst : h.PrivateStep h') (hs : h.AllPrivate) {limit : Nat}
    (hle : h.now ≤ limit)
    (id : LoopId) : h'.lane id = h.lane id ∨ Lane.Next limit (h.lane id) (h'.lane id) := by
  have hsound := hs.reached.loopsSound
  cases hst with
  | act ht ha hd => exact .inl (lane_act ht ha hd)
  | tick hl hdue heq => exact lane_tick hsound hl hdue hle heq
  | halt hl hdown heq => exact lane_halt hsound hl hdown hle heq
  | pass hquiet _ halarms heq =>
    rw [heq]
    exact .inl (lane_pass hsound hquiet halarms)

end Host

end EventBus
