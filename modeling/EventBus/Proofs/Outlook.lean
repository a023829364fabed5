import EventBus.Journal.Log
import EventBus.Proofs.Privacy

/-!
# What is to become of a consumer

A private consumer goes its own way: what it does next, and when, is told by its task, its slot and
the next tick of its group. In which of its rests the task is does not matter, whether it is about
to register, to look or to wait: `Prospect` leaves it out, and with it whether a wake-up came that
nobody waits for. Then every step of the task either leaves the prospect as it is, or is the one
step that the prospect admits.
-/

set_option autoImplicit false

namespace EventBus

namespace Phase

/-- Whether the task is between two batches. -/
def rests : Phase → Bool
  | ready | armed | idle | waiting => true
  | draining .. | failed .. => false

end Phase

/-- Whether a look at a slot finds something: events, or that there will be none. -/
def finds (slot : Option (Slot Event)) : Bool :=
  match slot with
  | none => true
  | some s => !s.queue.isEmpty || s.stopped

namespace Happening

/-- Whether a happening counts. Registrations and ticks do not: nothing shows them. -/
def counts : Happening → Bool
  | registered _ | ticked .. => false
  | _ => true

theorem counts_of_record? {what : Happening} {r : Record} (hr : what.record? = some r) :
    what.counts = true := by
  cases what <;> first | rfl | exact absurd hr (by simp [record?])

theorem counts_of_note? {what : Happening} {n : String × Note} (hn : what.note? = some n) :
    what.counts = true := by
  cases what <;> first | rfl | exact absurd hn (by simp [note?])

end Happening

namespace Task

/-- A task to which no wake-up came. -/
def calm (t : Task) : Task := { t with woken := false }

/-- A task as it is when it next does something: it looks for what there is to be found, or else it
waits. -/
def outlook (t : Task) (slot : Option (Slot Event)) : Task :=
  if t.phase.rests then { t.calm with phase := if finds slot then .armed else .waiting } else t.calm

/-- The instant at which a task next does something, if it does, when its group has its next tick at
`tick`. -/
def moment? (t : Task) (slot : Option (Slot Event)) (now : Nat) (tick : Option Nat) : Option Nat :=
  match t.phase with
  | .ready | .armed => if finds slot then some now else none
  | .idle | .waiting => if finds slot then (if t.woken then some now else tick) else none
  | .draining _ (some call) => some (max now (call.asleep.getD now))
  | .draining _ none | .failed .. => some now

/-- A deed of a task to which no wake-up came. -/
def Deed.calm (d : Deed) : Deed := { d with task := d.task.map Task.calm }

section

variable {t : Task} {slot : Option (Slot Event)} {now : Nat} {d : Deed}

theorem outlook_calm (t : Task) (slot : Option (Slot Event)) :
    t.calm.outlook slot = t.outlook slot := rfl

theorem batch_calm (t : Task) : t.calm.batch = t.batch := rfl

theorem beginBatch_calm (t : Task) (batch : List Event) :
    t.calm.beginBatch batch = (t.beginBatch batch).calm := by
  show (if t.handler.profile.isBlocking then _ else _) = _
  unfold beginBatch
  split <;> rfl

theorem beginCall_calm (t : Task) (lent : Option (List Event)) (event : Event) (rest : List Event) :
    t.calm.beginCall lent event rest = (t.beginCall lent event rest).calm := by
  cases lent <;> rfl

theorem regard_calm (t : Task) (slot : Option (Slot Event)) :
    t.calm.regard slot = (t.regard slot).calm := by
  unfold regard
  cases slot with
  | none => rfl
  | some s =>
    simp only
    split
    · split <;> rfl
    · rw [beginBatch_calm]
      rfl

theorem proceed_calm (t : Task) (slot : Option (Slot Event)) (now : Nat)
    (lent : Option (List Event)) (call : Call) :
    t.calm.proceed slot now lent call = (t.proceed slot now lent call).map Deed.calm := by
  obtain ⟨event, todo, asleep⟩ := call
  cases asleep with
  | some alarm =>
    simp only [proceed]
    split <;> rfl
  | none =>
    cases todo with
    | nil => rfl
    | cons a rest => cases a <;> rfl

theorem carryOn_calm (hphase : t.phase ≠ .waiting) :
    t.calm.carryOn slot now = (t.carryOn slot now).map Deed.calm := by
  have hsame : t.calm.phase = t.phase := rfl
  unfold carryOn
  rw [hsame]
  cases hp : t.phase with
  | ready | idle | failed payload => rfl
  | waiting => exact absurd hp hphase
  | armed => exact congrArg some (t.regard_calm slot)
  | draining lent call? =>
    cases call? with
    | some call => exact t.proceed_calm slot now lent call
    | none =>
      simp only [batch_calm]
      cases t.batch with
      | nil => rfl
      | cons event rest =>
        simp only [beginCall_calm]
        rfl

/-- A task that does not wait takes no notice of wake-ups. -/
theorem act_calm (hphase : t.phase ≠ .waiting) :
    t.calm.act slot now = (t.act slot now).map Deed.calm := by
  show (if t.orphaned && t.isOver then _ else _) = _
  unfold act
  split
  · rfl
  · exact carryOn_calm hphase

/-! ## Steps that change nothing, and the others -/

/-- A step by which a task goes on resting, with nothing said that counts. -/
structure Rests (t : Task) (slot : Option (Slot Event)) (now : Nat) (d : Deed) : Prop where
  task : ∃ t', d.task = some t' ∧ t'.outlook slot = t.outlook slot ∧
    ∀ tick, t'.moment? slot now tick = t.moment? slot now tick
  slot : d.slot = slot
  said : ∀ what, d.said = some what → what.counts = false

/-- A step that takes a task out of its rest, or back to it. -/
structure Goes (t : Task) (slot : Option (Slot Event)) (now : Nat) (d : Deed) : Prop where
  alert : t.phase ≠ .waiting
  outlook : t.outlook slot = t.calm
  moment : ∀ tick, t.moment? slot now tick = some now
  after : ∀ t', d.task = some t' → t'.phase.isParked = false

theorem rests_or_goes_regard (hphase : t.phase = .armed) :
    t.Rests slot now (t.regard slot) ∨ t.Goes slot now (t.regard slot) := by
  -- whoever finds a batch or its end goes on
  have hgoes : finds slot = true → (∀ t', (t.regard slot).task = some t' →
      t'.phase.isParked = false) → t.Goes slot now (t.regard slot) := by
    intro hfinds hafter
    refine ⟨by simp [hphase], ?_, fun tick => by rw [moment?, hphase]; simp [hfinds], hafter⟩
    rw [Task.outlook, hphase, hfinds, calm, hphase]
    rfl
  cases slot with
  | none => exact .inr (hgoes rfl (by simp [regard]))
  | some s =>
    cases hq : s.queue with
    | cons event rest =>
      refine .inr (hgoes (by simp [finds, hq]) fun t' ht => ?_)
      simp only [regard, hq, List.isEmpty_cons, Bool.false_eq_true, if_false,
        Option.some.injEq] at ht
      obtain rfl := ht
      unfold beginBatch
      split <;> rfl
    | nil =>
      cases hstop : s.stopped with
      | true => exact .inr (hgoes (by simp [finds, hstop]) (by simp [regard, hq, hstop]))
      | false =>
        -- whoever finds nothing is to wait, which was its outlook already
        have hnothing : finds (some s) = false := by simp [finds, hq, hstop]
        have hregard : t.regard (some s) = ⟨some (t.enter .idle), some s, none⟩ := by
          simp [regard, hq, hstop]
        rw [hregard]
        refine .inl ⟨⟨_, rfl, ?_, fun tick => ?_⟩, rfl, by simp⟩
        · rw [Task.outlook, Task.outlook, hphase]
          rfl
        · rw [moment?, moment?, hphase]
          simp [enter, hnothing]

theorem goes_proceed {lent : Option (List Event)} {call : Call}
    (hphase : t.phase = .draining lent (some call)) (ha : t.proceed slot now lent call = some d) :
    t.Goes slot now d := by
  refine ⟨by simp [hphase], by rw [Task.outlook, hphase]; rfl, fun tick => ?_, (of_proceed ha).2⟩
  rw [moment?, hphase]
  simp only [Option.some.injEq]
  cases hasleep : call.asleep with
  | none => exact Nat.max_self now
  | some alarm =>
    simp only [proceed, hasleep] at ha
    split at ha
    · next hle => exact Nat.max_eq_left hle
    · exact absurd ha (by simp)

theorem rests_or_goes_carryOn (ha : t.carryOn slot now = some d) :
    t.Rests slot now d ∨ t.Goes slot now d := by
  -- in the phases before a batch the task rests as long as its outlook stays
  have hrests : ∀ t' : Task, t'.outlook slot = t.outlook slot →
      (∀ tick, t'.moment? slot now tick = t.moment? slot now tick) →
      t.Rests slot now ⟨some t', slot, none⟩ := fun t' houtlook hmoment =>
    ⟨⟨t', rfl, houtlook, hmoment⟩, rfl, by simp⟩
  -- between two calls of a batch it goes on whatever its queue is
  have hdrains : ∀ lent (t' : Task) said, t.phase = .draining lent none →
      t'.phase.isParked = false → t.Goes slot now ⟨some t', slot, said⟩ := by
    intro lent t' said hphase hafter
    refine ⟨by simp [hphase], by rw [Task.outlook, hphase]; rfl,
      fun tick => by rw [moment?, hphase], fun t'' ht => ?_⟩
    obtain rfl := Option.some.inj ht
    exact hafter
  -- one case for each phase
  unfold carryOn at ha
  split at ha
  · next hphase =>
    obtain rfl := Option.some.inj ha
    refine .inl ⟨⟨t.register, rfl, ?_, fun tick => ?_⟩, rfl, ?_⟩
    · rw [Task.outlook, Task.outlook, hphase]
      rfl
    · rw [moment?, moment?, hphase]
      rfl
    · intro what hw
      exact Option.some.inj hw ▸ rfl
  · next hphase =>
    obtain rfl := Option.some.inj ha
    exact rests_or_goes_regard hphase
  · next hphase =>
    obtain rfl := Option.some.inj ha
    refine .inl (hrests _ ?_ fun tick => ?_)
    · rw [Task.outlook, Task.outlook, hphase]
      rfl
    · rw [moment?, moment?, hphase]
      rfl
  · next hphase =>
    split at ha
    · next hwoken =>
      obtain rfl := Option.some.inj ha
      refine .inl (hrests _ ?_ fun tick => ?_)
      · rw [Task.outlook, Task.outlook, hphase]
        rfl
      · rw [moment?, moment?, hphase]
        simp [enter, hwoken]
    · exact absurd ha (by simp)
  · next lent hphase =>
    split at ha
    · obtain rfl := Option.some.inj ha
      exact .inr (hdrains lent _ _ hphase rfl)
    · next event rest _ =>
      obtain rfl := Option.some.inj ha
      refine .inr (hdrains lent _ _ hphase ?_)
      cases lent <;> rfl
  · next hphase => exact .inr (goes_proceed hphase ha)
  · next hphase =>
    obtain rfl := Option.some.inj ha
    exact .inr ⟨by simp [hphase], by rw [Task.outlook, hphase]; rfl,
      fun tick => by rw [moment?, hphase], by simp⟩

/-- A job that is over ends now. -/
theorem goes_of_isOver (hover : t.isOver = true) : t.Goes slot now ⟨none, slot, none⟩ := by
  unfold isOver at hover
  split at hover
  · next hphase =>
    exact ⟨by simp [hphase], by rw [Task.outlook, hphase]; rfl,
      fun tick => by rw [moment?, hphase], by simp⟩
  · next hphase =>
    rw [Bool.and_eq_true, Option.isNone_iff_eq_none] at hover
    refine ⟨by simp [hphase], by rw [Task.outlook, hphase]; rfl, fun tick => ?_, by simp⟩
    rw [moment?, hphase]
    simp [hover.1]
  · exact absurd hover (by simp)

/-- **A step of a task** leaves its prospect as it is, or is the step that the task would take if no
wake-up had come to it. -/
theorem rests_or_goes (ha : t.act slot now = some d) : t.Rests slot now d ∨ t.Goes slot now d := by
  unfold act at ha
  split at ha
  · next hover =>
    rw [Bool.and_eq_true] at hover
    obtain rfl := Option.some.inj ha
    exact .inr (goes_of_isOver hover.2)
  · exact rests_or_goes_carryOn ha

/-- Only a task that is parked looks out for the next tick. -/
theorem moment?_calm (hparked : t.phase.isParked = false) (slot : Option (Slot Event)) (now : Nat)
    (tick tick' : Option Nat) : t.calm.moment? slot now tick = t.moment? slot now tick' := by
  have hsame : t.calm.phase = t.phase := rfl
  unfold moment?
  rw [hsame]
  cases hp : t.phase with
  | idle | waiting => rw [hp] at hparked; exact absurd hparked (by simp [Phase.isParked])
  | ready | armed | failed payload => rfl
  | draining lent call? => cases call? <;> rfl

theorem moment?_of_not_parked (hparked : t.phase.isParked = false) {slot : Option (Slot Event)}
    {now : Nat} {tick tick' : Option Nat} : t.moment? slot now tick = t.moment? slot now tick' :=
  (moment?_calm hparked slot now tick' tick).symm.trans (moment?_calm hparked slot now tick' tick')

/-- What a deed adds to the journal, as far as it counts. -/
def Deed.entries (d : Deed) (now : Nat) : Journal :=
  (d.said.toList.filter (·.counts)).map (⟨now, ·⟩)

end

end Task

/-! ## Prospects -/

/-- What is to become of a consumer, and what was said of it so far. -/
structure Prospect where
  task : Option Task
  slot : Option (Slot Event)
  /-- The instant at which its task next does something. -/
  moment : Option Nat
  said : Journal

namespace Prospect

def of (task : Option Task) (slot : Option (Slot Event)) (now : Nat) (tick : Option Nat)
    (said : Journal) : Prospect where
  task := task.map (·.outlook slot)
  slot := slot
  moment := task.bind (·.moment? slot now tick)
  said := said

/-- The step that a prospect admits, if its moment comes by the instant `limit`. -/
inductive Next (limit : Nat) : Prospect → Prospect → Prop where
  | go {t : Task} {slot : Option (Slot Event)} {now : Nat} {d : Task.Deed} (said : Journal) :
      now ≤ limit → t.act slot now = some d →
      Next limit ⟨some t, slot, some now, said⟩
        (.of d.task d.slot now none (d.entries now ++ said))

theorem Next.unique {limit : Nat} : Relator.RightUnique (Next limit) := by
  rintro p q r ⟨said, hle, ha⟩ hr
  cases hr with
  | go _ _ ha' =>
    obtain rfl := Option.some.inj (ha.symm.trans ha')
    rfl

variable {t : Task} {slot : Option (Slot Event)} {now limit : Nat} {d : Task.Deed}

/-- **A step of a task is none of its prospect, or the one that it admits.** -/
theorem of_act (ha : t.act slot now = some d) (hle : now ≤ limit) (tick : Option Nat)
    (said : Journal) :
    of d.task d.slot now tick (d.entries now ++ said) = of (some t) slot now tick said ∨
      Next limit (of (some t) slot now tick said)
        (of d.task d.slot now tick (d.entries now ++ said)) := by
  rcases Task.rests_or_goes ha with hrests | hgoes
  · obtain ⟨t', ht, houtlook, hmoment⟩ := hrests.task
    -- a task that rests says nothing that counts
    have hentries : d.entries now = [] := by
      have hnone : d.said.toList.filter (·.counts) = [] := by
        rw [List.filter_eq_nil_iff]
        intro what hw
        rw [hrests.said what (Option.mem_toList.mp hw)]
        simp
      rw [Task.Deed.entries, hnone]
      rfl
    refine .inl ?_
    rw [of, of, hrests.slot, ht, hentries]
    simp only [Option.map_some, Option.bind_some, houtlook, hmoment, List.nil_append]
  · -- a task that goes on does so at this instant
    have hnow : of (some t) slot now tick said = ⟨some t.calm, slot, some now, said⟩ := by
      rw [of, Option.map_some, Option.bind_some, hgoes.outlook, hgoes.moment]
    -- what it leaves has the same outlook with and without its alertness
    have hafter : of d.calm.task d.calm.slot now none (d.calm.entries now ++ said) =
        of d.task d.slot now tick (d.entries now ++ said) := by
      rw [of, of, Task.Deed.calm]
      cases ht : d.task with
      | none => rfl
      | some t' =>
        simp only [Option.map_some, Option.bind_some, Task.outlook_calm,
          Task.moment?_calm (hgoes.after t' ht) d.slot now none tick]
        rfl
    have hact : t.calm.act slot now = some d.calm := by
      rw [Task.act_calm hgoes.alert, ha, Option.map_some]
    rw [hnow, ← hafter]
    exact .inr (.go said hle hact)

end Prospect

end EventBus
