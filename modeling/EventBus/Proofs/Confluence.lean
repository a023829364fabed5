import EventBus.Proofs.Progress
import EventBus.Proofs.Settling

/-!
# The order of moves does not matter

At one instant many may be able to move: consumers that are new or were waked, consumers whose pause
is over, flush loops. Whoever goes first, the program is the same in the end, as long as every
consumer keeps to itself and no bus with consumers is down. Every run takes each consumer and each
loop along its own way, and as there is only one way for each, two runs that come to the same
instant come to the same point of it.
-/

set_option autoImplicit false

namespace EventBus

open Relation (ReflTransGen)

/-- Where each step is the only one, the last two of two chains are the same. -/
theorem eq_of_stuck {α : Type} {r : α → α → Prop} (unique : Relator.RightUnique r) {a b c : α}
    (hb : ReflTransGen r a b) (hc : ReflTransGen r a c) (stuck_b : ∀ x, ¬r b x)
    (stuck_c : ∀ x, ¬r c x) : c = b := by
  rcases ReflTransGen.total_of_right_unique unique hb hc with hbc | hcb
  · rcases hbc.cases_head with rfl | ⟨x, hx, -⟩
    · rfl
    · exact absurd hx (stuck_b x)
  · rcases hcb.cases_head with rfl | ⟨x, hx, -⟩
    · rfl
    · exact absurd hx (stuck_c x)

/-- A task without a wake-up that it does not heed: it registers anew before it looks again. -/
def Task.heedful (t : Task) : Task := if t.phase.isParked then t else t.calm

namespace Host

variable {h m h' : Host}

/-! ## Along a run -/

/-- From `h` to `h'` every consumer and every loop has gone its way. -/
structure Follows (h h' : Host) : Prop where
  now : h.now ≤ h'.now
  slotless : h'.slotless = h.slotless
  setting : h'.setting = h.setting
  program : h'.journal.about .program = h.journal.about .program
  consumers : ∀ limit, h'.now ≤ limit → ∀ c,
    ReflTransGen (Prospect.Next limit) (h.prospect c) (h'.prospect c)
  loops : ∀ limit, h'.now ≤ limit → ∀ id, ReflTransGen (Lane.Next limit) (h.lane id) (h'.lane id)

theorem Follows.refl (h : Host) : h.Follows h :=
  ⟨Nat.le_refl _, rfl, rfl, rfl, fun _ _ _ => .refl, fun _ _ _ => .refl⟩

theorem Follows.trans (ha : h.Follows m) (hb : m.Follows h') : h.Follows h' where
  now := Nat.le_trans ha.now hb.now
  slotless := hb.slotless.trans ha.slotless
  setting := hb.setting.trans ha.setting
  program := hb.program.trans ha.program
  consumers limit hle c :=
    (ha.consumers limit (Nat.le_trans hb.now hle) c).trans (hb.consumers limit hle c)
  loops limit hle id :=
    (ha.loops limit (Nat.le_trans hb.now hle) id).trans (hb.loops limit hle id)

theorem PrivateStep.follows (hst : h.PrivateStep h') (hs : h.AllPrivate) : h.Follows h' where
  now := hst.now_le
  slotless := hst.slotless
  setting := hst.setting
  program := by
    cases hst with
    | act ht ha hd => exact (about_act ht ha hd).2 _ (by simp)
    | tick _ _ heq => exact about_tick heq _
    | halt _ _ heq => exact about_halt heq (by simp)
    | pass _ _ _ heq => rw [heq]; rfl
  consumers limit hle c := by
    rcases hst.prospect hs (Nat.le_trans hst.now_le hle) c with hsame | hnext
    · rw [hsame]
    · exact .single hnext
  loops limit hle id := by
    rcases hst.lane hs (Nat.le_trans hst.now_le hle) id with hsame | hnext
    · rw [hsame]
    · exact .single hnext

/-! ## At the end -/

/-- Up to the instant `limit` nothing is asked of `h`, and tasks and loops move in some order, at
each instant until none of them can. `h'` is what there is then. -/
structure Passes (h : Host) (limit : Nat) (h' : Host) : Prop where
  run : ∃ ts, Run h ts h' ∧ ∀ t ∈ ts, ∀ c, t ≠ .obey c
  quiet : h'.isQuiet = true
  now : h'.now = limit

/-- The same program, up to the order in which its journal was written. -/
structure Alike (h k : Host) : Prop where
  now : k.now = h.now
  /-- The same groups, with the same slots in the same order, and the same events queued. -/
  buses : k.buses = h.buses
  tasks : ∀ c, (k.task? c).map Task.heedful = (h.task? c).map Task.heedful
  /-- The same loops, with the same number of ticks behind them. -/
  loops : ∀ id, k.loop? id = h.loop? id
  setting : k.setting = h.setting
  /-- The same happened to each consumer and each loop, in the same order, at the same instants. -/
  about : ∀ s, k.journal.about s = h.journal.about s
  journal : (k.journal.filter (·.what.counts)).Perm (h.journal.filter (·.what.counts))
  /-- The log shows the same records, in some order. -/
  log : (Journal.log k.journal).Perm (Journal.log h.journal)
  /-- Handlers have noted down the same, at the same instants. -/
  notes : (Journal.notes k.journal).Perm (Journal.notes h.journal)

section

variable {k : Host}

/-- Two tasks that cannot move are the same if their prospects are. -/
theorem heedful_eq (hh : h.isQuiet = true) (hk : k.isQuiet = true) {c : ConsumerRef}
    (hp : k.prospect c = h.prospect c) :
    (k.task? c).map Task.heedful = (h.task? c).map Task.heedful := by
  have hslot : k.slot? c = h.slot? c := congrArg (·.slot) hp
  have htask : (k.task? c).map (·.outlook (k.slot? c)) = (h.task? c).map (·.outlook (h.slot? c)) :=
    congrArg (·.task) hp
  rw [hslot] at htask
  have hheedful : ∀ {m : Host} {t : Task}, m.isQuiet = true → m.task? c = some t →
      t.heedful = if (t.outlook (h.slot? c)).phase.rests then
        { t.outlook (h.slot? c) with phase := .waiting } else t.outlook (h.slot? c) := by
    intro m t hquiet ht
    rcases still_of_quiet hquiet ht with ⟨hphase, hwoken⟩ | ⟨lent, call, alarm, hphase, -, -⟩
    · obtain ⟨consumer, runtime, handler, held, buffer, woken, phase⟩ := t
      obtain rfl : phase = .waiting := hphase
      obtain rfl : woken = false := hwoken
      simp only [Task.heedful, Task.outlook]
      cases finds (h.slot? c) <;> rfl
    · simp [Task.heedful, Task.outlook, Phase.isParked, Phase.rests, hphase, Task.calm]
  cases ht : h.task? c with
  | none =>
    rw [ht] at htask
    rw [Option.map_eq_none_iff.mp htask]
  | some t =>
    rw [ht] at htask
    obtain ⟨t', ht', heq⟩ := Option.map_eq_some_iff.mp htask
    rw [ht', Option.map_some, Option.map_some, hheedful hk ht', hheedful hh ht, heq]

theorem LoopsSound.stuck (hs : h.LoopsSound) (hquiet : h.isQuiet = true) {limit : Nat}
    (hle : limit ≤ h.now) (c : ConsumerRef) (p : Prospect) :
    ¬Prospect.Next limit (h.prospect c) p := by
  intro hnext
  generalize hq : h.prospect c = q at hnext
  cases hnext with
  | @go t slot now d said hnow _ =>
    have hlt : h.now < now := lt_moment_of_quiet (c := c) hs hquiet (by rw [hq])
    exact absurd (Nat.lt_of_lt_of_le hlt (Nat.le_trans hnow hle)) (Nat.lt_irrefl _)

theorem lane_said (h : Host) (id : LoopId) : (h.lane id).said = h.journal.about (.loop id) := by
  unfold lane
  split
  · rfl
  · split <;> rfl

/-- When nobody can move, no loop is about to end. -/
theorem lane_of_quiet (hs : h.LoopsSound) (hquiet : h.isQuiet = true) (id : LoopId) :
    (h.lane id).loop = h.loop? id ∧ (h.lane id).doomed = false ∧
      ∀ moment, (h.lane id).moment = some moment → h.now < moment := by
  cases hl : h.loop? id with
  | none =>
    rw [lane_of_none hl]
    exact ⟨rfl, rfl, by simp⟩
  | some l =>
    obtain ⟨hup, alarm, ha, hlt, -⟩ := loop_of_quiet hs hquiet (fun _ _ hlt => Nat.le_of_lt hlt) hl
    rw [lane_of_up hl hup]
    refine ⟨rfl, rfl, fun moment hmoment => ?_⟩
    rw [ha, Option.getD_some, Nat.max_eq_right (Nat.le_of_lt hlt)] at hmoment
    exact Option.some.inj hmoment ▸ hlt

theorem LoopsSound.stuck_lane (hs : h.LoopsSound) (hquiet : h.isQuiet = true) {limit : Nat}
    (hle : limit ≤ h.now) (id : LoopId) (p : Lane) : ¬Lane.Next limit (h.lane id) p := by
  obtain ⟨-, hdoomed, hmoment⟩ := lane_of_quiet hs hquiet id
  intro hnext
  generalize hq : h.lane id = q at hnext hdoomed hmoment
  cases hnext with
  | tick said hnow =>
    have hlt := hmoment _ rfl
    exact absurd (Nat.lt_of_lt_of_le hlt (Nat.le_trans hnow hle)) (Nat.lt_irrefl _)
  | halt => exact absurd hdoomed (by simp)

theorem Follows.alike {h₁ h₂ : Host} (hf₁ : h.Follows h₁) (hf₂ : h.Follows h₂)
    (hs₁ : h₁.LoopsSound) (hs₂ : h₂.LoopsSound) (hq₁ : h₁.isQuiet = true) (hq₂ : h₂.isQuiet = true)
    (hnow : h₂.now = h₁.now) : Alike h₁ h₂ := by
  -- in both states the prospects have come to an end, and it is the same end
  have hprospect : ∀ c, h₂.prospect c = h₁.prospect c := by
    intro c
    refine eq_of_stuck Prospect.Next.unique (hf₁.consumers h₁.now (Nat.le_refl _) c)
      (hf₂.consumers h₁.now (Nat.le_of_eq hnow) c) ?_ ?_
    · exact hs₁.stuck hq₁ (Nat.le_refl _) c
    · exact hs₂.stuck hq₂ (Nat.le_of_eq hnow.symm) c
  have hlane : ∀ id, h₂.lane id = h₁.lane id := by
    intro id
    refine eq_of_stuck Lane.Next.unique (hf₁.loops h₁.now (Nat.le_refl _) id)
      (hf₂.loops h₁.now (Nat.le_of_eq hnow) id) ?_ ?_
    · exact hs₁.stuck_lane hq₁ (Nat.le_refl _) id
    · exact hs₂.stuck_lane hq₂ (Nat.le_of_eq hnow.symm) id
  -- the record of each subject is the same, so the journals differ in order only
  have habout : ∀ s, h₂.journal.about s = h₁.journal.about s := by
    intro s
    cases s with
    | consumer c => exact congrArg (·.said) (hprospect c)
    | loop id => rw [← lane_said, ← lane_said, hlane id]
    | program => exact hf₂.program.trans hf₁.program.symm
  have hjournal := Journal.perm_of_about habout
  exact {
    now := hnow
    buses := buses_eq (hf₂.slotless.trans hf₁.slotless.symm) fun c =>
      congrArg (·.slot) (hprospect c)
    tasks := fun c => heedful_eq hq₁ hq₂ (hprospect c)
    loops := fun id => by
      rw [← (lane_of_quiet hs₁ hq₁ id).1, ← (lane_of_quiet hs₂ hq₂ id).1, hlane id]
    setting := hf₂.setting.trans hf₁.setting.symm
    about := habout
    journal := hjournal
    log := Journal.perm_filterMap hjournal fun _ _ hx => Happening.counts_of_record? hx
    notes := Journal.perm_filterMap hjournal fun _ _ hx => by
      obtain ⟨n, hn, -⟩ := Option.map_eq_some_iff.mp hx
      exact Happening.counts_of_note? hn }

end

/-! ## Letting time pass -/

/-- To let time pass is to take one of the orders. -/
theorem passes_of_advance {fuel ms : Nat} (finished : h.advance fuel ms = some h') :
    h.Passes (h.now + ms) h' :=
  ⟨run_of_advance finished, (quiet_of_runUntil finished).1,
    now_of_runUntil finished (Nat.le_add_right h.now ms)⟩

/-! ## The main result -/

/-- **The order of moves does not matter.** Take a program all of whose handlers ask nothing of a
bus and hold on to none, and none of whose consumers is on a bus that is down. Let time pass up to
an instant, with the moves at each instant in whatever order, as `advance` does it in one. Whatever
has been done of it, the moves at that instant come to an end and there is a way on to the end of
the time. And the state at the end is the same: it has the same slots with the same events queued,
the same tasks in the same phases, the same loops with the same next instants, and each consumer has
done the same at the same instants. -/
theorem order_does_not_matter (hr : h.Reachable)
    (hprivate : ∀ t ∈ h.tasks, t.handler.Private ∧ t.held = [])
    (hup : ∀ t ∈ h.attended, h.isDown t.consumer.group.bus = false) :
    (∀ fuel ms h', h.advance fuel ms = some h' → h.Passes (h.now + ms) h') ∧
      (∀ ts m, Run h ts m → (∀ t ∈ ts, ∀ c, t ≠ .obey c) →
        Acc MovesTo m ∧ ∀ ms, ∃ fuel h', m.advance fuel ms = some h') ∧
      ∀ limit h₁ h₂, h.Passes limit h₁ → h.Passes limit h₂ → Alike h₁ h₂ := by
  have hall : h.AllPrivate := by
    refine ⟨hr.reached, fun t ht => ?_, hup⟩
    exact private_of_reachable hr (hr.reached.paired.task?_of_mem ht) (hprivate t ht).1
      (hprivate t ht).2
  have hfollows : ∀ {limit h'}, h.Passes limit h' → h.Follows h' ∧ h'.LoopsSound := by
    intro limit h' hp
    obtain ⟨ts, run, hmoves⟩ := hp.run
    exact ⟨AllPrivate.run_induction Follows.refl Follows.trans (fun hs hst => hst.follows hs) run
      hall hmoves, (hr.reached.changes (run.changes hr.reached)).loopsSound⟩
  refine ⟨fun fuel ms h' => passes_of_advance, fun ts m run hmoves => ?_,
    fun limit h₁ h₂ hp₁ hp₂ => ?_⟩
  · have hm : m.AllPrivate := hall.run run hmoves
    exact ⟨hm.settles, fun ms => hm.runUntil (Nat.le_add_right m.now ms) none⟩
  · obtain ⟨hf₁, hs₁⟩ := hfollows hp₁
    obtain ⟨hf₂, hs₂⟩ := hfollows hp₂
    exact hf₁.alike hf₂ hs₁ hs₂ hp₁.quiet hp₂.quiet (hp₂.now.trans hp₁.now.symm)

/-- A handler that makes a pause before it writes to the log. -/
def dreamer : Handler Action := ⟨⟨"w", .async⟩, fun _ => [.sleep 1, .report]⟩

/-- Two consumers of the same group subscribe, and an event is published. -/
def rushTurns : List Turn :=
  [.obey (.make "b" { config := { flushInterval := .ofMicros 1000 } } false),
    .obey (.subscribe (.named "b") { handler := dreamer, kind := .int } false),
    .obey (.subscribe (.named "b") { handler := .logWriter "v", kind := .int } false),
    .obey (.publish (.named "b") (.int 1))]

def rush : Host := ((initial true).replay rushTurns).getD {}

def writer : ConsumerRef := ⟨⟨0, 42⟩, 2⟩

/-- The second consumer goes first, and the loop ticks when the consumers are through. -/
def lateTurns : List Turn :=
  .replicate 9 (.move (.run writer)) ++ .replicate 4 (.move (.run waiter)) ++ [.move (.tick 0)] ++
    .replicate 4 (.move (.run writer)) ++ [.pass 1] ++ .replicate 7 (.move (.run waiter)) ++
    [.move (.tick 0)] ++ .replicate 4 (.move (.run writer)) ++ .replicate 4 (.move (.run waiter))

def late : Host := (rush.replay lateTurns).getD {}

/-- In the other order the loop ticks first. The journals differ, and nothing else. -/
theorem order_does_not_matter_late : ∃ h', rush.advance 40 1 = some h' ∧
    h'.journal ≠ late.journal ∧ h'.Alike late := by
  have hreachable : rush.Reachable := ⟨true, rushTurns, run_of_isSome (by decide)⟩
  have htasks : rush.tasks = [{ consumer := waiter, runtime := 0, handler := dreamer },
      { consumer := writer, runtime := 0, handler := .logWriter "v" }] := rfl
  have hprivate : ∀ t ∈ rush.tasks, t.handler.Private ∧ t.held = [] := by
    have hdreamer : dreamer.Private := by
      intro _ a ha
      obtain rfl | rfl : a = .sleep 1 ∨ a = .report := by simpa [dreamer] using ha
      · rfl
      · rfl
    have hwriter : (Handler.logWriter "v").Private := by
      intro _ a ha
      obtain rfl : a = .report := by simpa [Handler.logWriter] using ha
      rfl
    intro t ht
    rw [htasks, List.mem_cons, List.mem_singleton] at ht
    rcases ht with rfl | rfl
    · exact ⟨hdreamer, rfl⟩
    · exact ⟨hwriter, rfl⟩
  have hup : ∀ t ∈ rush.attended, rush.isDown t.consumer.group.bus = false := by decide
  obtain ⟨hadvance, -, hsame⟩ := order_does_not_matter hreachable hprivate hup
  have hrun : Run rush lateTurns late := run_of_isSome (by decide +kernel)
  have hlate : rush.Passes 1 late :=
    ⟨⟨lateTurns, hrun, by simp [lateTurns]⟩, by decide +kernel, by decide +kernel⟩
  have hdiffer : (rush.advance 40 1).map (·.journal) ≠ some late.journal := by decide +kernel
  obtain ⟨h', finished⟩ : ∃ h', rush.advance 40 1 = some h' :=
    Option.isSome_iff_exists.mp (by decide +kernel)
  refine ⟨h', finished, fun hj => hdiffer ?_, hsame 1 h' late (hadvance 40 1 h' finished) hlate⟩
  rw [finished, Option.map_some, hj]

end Host

end EventBus
