import EventBus.Proofs.Departure

/-!
# What the log tells of consumers and flush loops

An operator reads off the log which consumers subscribed, which were cancelled and which ended and
how, and which flush loops run. Each of these records stands for one kind of entry of the journal,
and has a message of its own. So what the log tells is true if the journal has these entries as
often, and in the order, in which these things happen.

Of consumers this has been shown already: `Biography` says in which order the entries about one of
them come. Here the same is said of loops, whose entries begin with the start and end, if at all,
with the end, and of groups, each of which is entered as new once, with its first loop.
-/

set_option autoImplicit false

namespace EventBus

/-! ## The messages -/

namespace Happening

/-- The message that the log has for a happening, if it has one. -/
def message? (x : Happening) : Option String := x.record?.map (·.message)

/-- Which happenings the messages about the life of consumers and flush loops stand for. A consumer
that is dropped with its runtime has no message, and neither has a panic that its task did not
catch. Whatever has a message counts, and so does every call of a handler. -/
structure Logged (x : Happening) : Prop where
  subscribed : x.message? = some "subscribed" ↔ ∃ c kind who, x = .subscribed c kind who
  unsubscribed : x.message? = some "unsubscribed" ↔ ∃ c, x = .unsubscribed c
  stopped : x.message? = some "consumer stopped" ↔ ∃ c who exit, x = .stopped c who exit
  panicked : x.message? = some "event handler panicked; consumer detached" ↔
    ∃ c who payload, x = .panicked c who payload true
  unwound : ∀ c who payload, x = .panicked c who payload false → x.message? = none
  lost : ∀ c who, x = .lost c who → x.message? = none
  loopStarted : x.message? = some "group flush loop started" ↔
    ∃ id g kind interval created, x = .loopStarted id g kind interval created
  loopStopped : x.message? = some "group flush loop stopped" ↔ ∃ id g, x = .loopStopped id g
  told : x.message?.isSome = true → x.counts = true
  called : ∀ c, (x.calls? c).isSome = true → x.counts = true

theorem logged (x : Happening) : x.Logged := by
  cases x with
  | published bus event fate =>
    cases fate <;> constructor <;> simp [message?, record?, Publication.record?, counts]
  | panicked c who payload caught =>
    cases caught <;> constructor <;> simp [message?, record?, counts, calls?]
  | _ => constructor <;> simp [message?, record?, counts, calls?]

/-- Whether a flush loop starts or ends by this. -/
def isOfLoop : Happening → Bool
  | loopStarted .. | loopStopped .. => true
  | _ => false

/-- Whether the first flush loop of a group that is new is started by this. -/
def creates (g : GroupRef) : Happening → Bool
  | loopStarted _ group _ _ created => created && decide (group = g)
  | _ => false

theorem isOfLoop_of_isAside {x : Happening} (hx : x.isAside = true) : x.isOfLoop = false := by
  cases x <;> first | rfl | exact absurd hx (by simp [isAside])

theorem creates_of_isRoutine {x : Happening} (hx : x.isRoutine = true) (g : GroupRef) :
    x.creates g = false := by
  cases x <;> first | rfl | exact absurd hx (by simp [isRoutine])

theorem creates_of_isAside {x : Happening} (hx : x.isAside = true) (g : GroupRef) :
    x.creates g = false := by
  cases x <;> first | rfl | exact absurd hx (by simp [isAside])

end Happening

/-! ## Flush loops -/

namespace Journal

variable {j : Journal} {id : LoopId}

theorem about_of_isOfLoop (news : Journal) (hn : ∀ x ∈ news, x.what.isOfLoop = false) :
    about (news ++ j) (.loop id) = j.about (.loop id) := by
  have hnone : news.about (.loop id) = [] := by
    rw [about, List.filter_eq_nil_iff]
    intro x hx
    have hx := hn x hx
    cases hw : x.what <;> simp_all [Happening.isOfLoop, Happening.counts, Happening.subject,
      Happening.who?]
  rw [about_append, hnone, List.nil_append]

theorem about_cons_loop {x : Entry} (hx : x.what.counts = true) (hs : x.what.subject = .loop id) :
    about (x :: j) (.loop id) = x :: j.about (.loop id) := by
  apply List.filter_cons_of_pos
  simp [hx, hs]

theorem about_cons_other_loop {x : Entry} {other : LoopId} (hs : x.what.subject = .loop other)
    (hne : id ≠ other) : about (x :: j) (.loop id) = j.about (.loop id) :=
  about_cons_of_not fun _ => by rw [hs]; simpa using Ne.symm hne

end Journal

namespace Host

/-- What a change does to the flush loops. -/
inductive LoopChange (h h' : Host) : Prop
  | kept (news : Journal) : h'.loopsStarted = h.loopsStarted →
      (∀ l' ∈ h'.loops, ∃ l ∈ h.loops, l'.id = l.id ∧ l'.group = l.group) →
      h'.journal = news ++ h.journal → (∀ x ∈ news, x.what.isOfLoop = false) → LoopChange h h'
  | started (g : GroupRef) (kind : Kind) (interval : Duration) (created : Bool) :
      h'.loopsStarted = h.loopsStarted + 1 →
      (∀ l ∈ h'.loops, l ∈ h.loops ∨ (l.id = h.loopsStarted ∧ l.group = g)) →
      h'.journal = ⟨h.now, .loopStarted h.loopsStarted g kind interval created⟩ :: h.journal →
      LoopChange h h'
  | halted {l : FlushLoop} : l ∈ h.loops → h.isDown l.group.bus = true →
      h'.loopsStarted = h.loopsStarted → (∀ l' ∈ h'.loops, l' ∈ h.loops ∧ l'.id ≠ l.id) →
      h'.journal = ⟨h.now, .loopStopped l.id l.group⟩ :: h.journal → LoopChange h h'

theorem LoopChange.of_same {h h' : Host} (news : Journal)
    (hstarted : h'.loopsStarted = h.loopsStarted) (hl : h'.loops = h.loops)
    (hj : h'.journal = news ++ h.journal) (hn : ∀ x ∈ news, x.what.isOfLoop = false) :
    h.LoopChange h' :=
  .kept news hstarted (fun l hmem => ⟨l, hl ▸ hmem, rfl, rfl⟩) hj hn

end Host

open Host

namespace Change

variable {n : Nature} {h h' : Host}

theorem isOfLoop_of_step {t t' : Task} {slot : Option (Slot Event)} {said : Option Happening}
    (hs : t.Step slot n t' said) : ∀ what ∈ said, what.isOfLoop = false := by
  cases hs <;> simp [Happening.isOfLoop]

theorem loopChange (hc : Change n h h') : h.LoopChange h' := by
  cases hc with
  | pass | rename | make | abandon | bindType | start | endJob =>
    exact .of_same [] rfl rfl rfl (by simp)
  | aside haside =>
    exact .of_same [_] rfl rfl rfl (by simpa using Happening.isOfLoop_of_isAside haside)
  | close _ hok =>
    obtain ⟨bus, -, -, rfl⟩ := close_eq_ok hok
    exact .of_same [_] rfl rfl rfl (by simp [Happening.isOfLoop])
  | publish _ hb =>
    obtain ⟨fate, buses, hframe⟩ := publish_frame hb
    rw [hframe]
    exact .of_same [_] rfl rfl rfl (by simp [Happening.isOfLoop])
  | @startLoop _ g kind interval p _ hidle _ =>
    rw [ensureLoop_of_idle hidle]
    refine .started g kind interval p.created rfl ?_ rfl
    intro l hl
    -- the new loop runs only on a live runtime
    change l ∈ ite _ _ _ at hl
    split at hl
    · rcases List.mem_append.mp hl with hl | hl
      · exact .inl hl
      · rw [List.mem_singleton.mp hl]
        exact .inr ⟨rfl, rfl⟩
    · exact .inl hl
  | enrol => exact .of_same [_] rfl rfl rfl (by simp [Happening.isOfLoop])
  | stillborn => exact .of_same [_, _] rfl rfl rfl (by simp [Happening.isOfLoop])
  | cancel ha =>
    rw [cancel_of_active ha]
    exact .of_same [_] rfl rfl rfl (by simp [Happening.isOfLoop])
  | @step _ _ _ _ said _ hstep =>
    exact .of_same (said.toList.map (⟨h.now, ·⟩)) rfl rfl rfl
      (by simpa using isOfLoop_of_step hstep)
  | take | leaveJob => exact .of_same [_] rfl rfl rfl (by simp [Happening.isOfLoop])
  | finish _ hending =>
    refine .of_same [_] rfl rfl rfl ?_
    cases hending <;> simp [Happening.isOfLoop]
  | @tick _ l hl _ =>
    refine .kept [_] rfl ?_ rfl (by simp [Happening.isOfLoop])
    intro l' hl'
    -- a tick changes the instant of one loop and neither its id nor its group
    obtain ⟨r, hr, rfl⟩ := List.mem_map.mp hl'
    split
    · exact ⟨l, mem_of_loop? hl, rfl, rfl⟩
    · exact ⟨r, hr, rfl, rfl⟩
  | @halt _ l hl hdown =>
    refine .halted (mem_of_loop? hl) hdown rfl ?_ rfl
    intro l' hl'
    obtain ⟨hmem, hne⟩ := List.mem_filter.mp hl'
    exact ⟨hmem, by simpa using hne⟩
  | stop => exact .kept [] rfl (by simp) rfl (by simp)

end Change

namespace Host

/-- What counts in the journal about a flush loop: nothing before it is started; its start; and its
end after that, if it came to its end when its bus was shut down. -/
inductive LoopStory (h : Host) (id : LoopId) : Prop
  | unborn : h.loopsStarted ≤ id → (∀ l ∈ h.loops, l.id ≠ id) →
      h.journal.about (.loop id) = [] → LoopStory h id
  | started {time : Nat} {g : GroupRef} {kind : Kind} {interval : Duration} {created : Bool} :
      id < h.loopsStarted → (∀ l ∈ h.loops, l.id = id → l.group = g) →
      h.journal.about (.loop id) = [⟨time, .loopStarted id g kind interval created⟩] →
      LoopStory h id
  | halted {time time' : Nat} {g : GroupRef} {kind : Kind} {interval : Duration} {created : Bool} :
      id < h.loopsStarted → (∀ l ∈ h.loops, l.id ≠ id) → h.HasBus g.bus → h.isDown g.bus = true →
      h.journal.about (.loop id) =
        [⟨time', .loopStopped id g⟩, ⟨time, .loopStarted id g kind interval created⟩] →
      LoopStory h id

variable {h h' : Host}

/-- Whatever enters nothing about a loop leaves its story as it is. -/
theorem LoopStory.of_other {id : LoopId} (hs : h.LoopStory id)
    (hj : h'.journal.about (.loop id) = h.journal.about (.loop id))
    (hid : id < h'.loopsStarted ↔ id < h.loopsStarted)
    (hl : ∀ l' ∈ h'.loops, l'.id = id → ∃ l ∈ h.loops, l.id = id ∧ l'.group = l.group)
    (hb : ∀ b, h.HasBus b → h'.HasBus b)
    (hdown : ∀ b, h.HasBus b → h.isDown b = true → h'.isDown b = true) : h'.LoopStory id := by
  have hnone : (∀ l ∈ h.loops, l.id ≠ id) → ∀ l ∈ h'.loops, l.id ≠ id := by
    intro hno l' hl' heq
    obtain ⟨l, hmem, hsame, -⟩ := hl l' hl' heq
    exact hno l hmem hsame
  cases hs with
  | unborn hle hno habout =>
    refine .unborn ?_ (hnone hno) (hj.trans habout)
    rw [← Nat.not_lt, hid, Nat.not_lt]
    exact hle
  | started hlt hgroup habout =>
    refine .started (hid.mpr hlt) ?_ (hj.trans habout)
    intro l' hl' heq
    obtain ⟨l, hmem, hsame, hsame'⟩ := hl l' hl' heq
    exact hsame'.trans (hgroup l hmem hsame)
  | halted hlt hno hbus hd habout =>
    exact .halted (hid.mpr hlt) (hnone hno) (hb _ hbus) (hdown _ hbus hd) (hj.trans habout)

end Host

namespace Change

variable {n : Nature} {h h' : Host}

theorem loopStory (hc : Change n h h') (hr : h.Reached) {id : LoopId} (hs : h.LoopStory id) :
    h'.LoopStory id := by
  have hb : ∀ b, h.HasBus b → h'.HasBus b := fun b => hc.hasBus
  have hdown : ∀ b, h.HasBus b → h.isDown b = true → h'.isDown b = true :=
    fun b hbus => hc.isDown_mono hbus
  cases hc.loopChange with
  | kept news hstarted hl hj hn =>
    refine hs.of_other ?_ (by rw [hstarted]) ?_ hb hdown
    · rw [hj]
      exact Journal.about_of_isOfLoop news hn
    · intro l' hl' heq
      obtain ⟨l, hmem, hid, hgroup⟩ := hl l' hl'
      exact ⟨l, hmem, hid.symm.trans heq, hgroup⟩
  | started g kind interval created hstarted hl hj =>
    -- the id that is given next: its record begins here
    by_cases hid : id = h.loopsStarted
    · subst hid
      cases hs with
      | unborn _ hno habout =>
        have hall : h'.journal.about (.loop h.loopsStarted) =
            [⟨h.now, .loopStarted h.loopsStarted g kind interval created⟩] := by
          rw [hj, Journal.about_cons_loop rfl rfl, habout]
        refine .started (hstarted ▸ Nat.lt_succ_self _) ?_ hall
        intro l hmem heq
        rcases hl l hmem with hold | ⟨-, hgroup⟩
        · exact absurd heq (hno l hold)
        · exact hgroup
      | started hlt | halted hlt => exact absurd hlt (Nat.lt_irrefl _)
    · refine hs.of_other ?_ ?_ ?_ hb hdown
      · rw [hj]
        exact Journal.about_cons_other_loop rfl hid
      · rw [hstarted, Nat.lt_succ_iff_lt_or_eq, or_iff_left hid]
      · intro l' hl' heq
        rcases hl l' hl' with hold | ⟨hnew, -⟩
        · exact ⟨l', hold, heq, rfl⟩
        · exact absurd (heq.symm.trans hnew) hid
  | @halted l hmem hd hstarted hl hj =>
    -- the record of the loop that stops ends here; its bus is down
    by_cases hid : id = l.id
    · subst hid
      cases hs with
      | unborn _ hno => exact absurd rfl (hno l hmem)
      | halted _ hno => exact absurd rfl (hno l hmem)
      | started hlt hgroup habout =>
        obtain rfl := hgroup l hmem rfl
        have hbus : h.HasBus l.group.bus := by
          obtain ⟨bus, hbus, -⟩ := Option.map_eq_some_iff.mp (hr.interval? l hmem)
          exact Option.isSome_of_eq_some hbus
        have hall := Journal.about_cons_loop (x := ⟨h.now, .loopStopped l.id l.group⟩) rfl rfl
          (j := h.journal)
        rw [← hj, habout] at hall
        exact .halted (hstarted ▸ hlt) (fun l' hl' => (hl l' hl').2) (hb _ hbus)
          (hdown _ hbus hd) hall
    · refine hs.of_other ?_ (by rw [hstarted]) ?_ hb hdown
      · rw [hj]
        exact Journal.about_cons_other_loop rfl hid
      · intro l' hl' heq
        exact ⟨l', (hl l' hl').1, heq, rfl⟩

end Change

namespace Host

variable {h h' : Host}

/-- **What the journal has about a flush loop is a story**: it starts once, and may end once. -/
theorem Reached.loopStory (hr : h.Reached) (id : LoopId) : h.LoopStory id := by
  apply hr.invariant (P := fun h => h.LoopStory id)
  · exact .unborn (Nat.zero_le id) (by simp) rfl
  · intro h h' n hr hs hc
    exact hc.loopStory hr hs

/-! ## New groups -/

/-- How often a flush loop was started for a group as for a new one. -/
def creations (h : Host) (g : GroupRef) : Nat := h.journal.countP (·.what.creates g)

theorem creations_of_tells {g : GroupRef} (ht : h.Tells (·.creates g = false) h') :
    h'.creations g = h.creations g := by
  obtain ⟨news, hj, hn⟩ := ht
  have hnone : news.countP (·.what.creates g) = 0 := by
    rw [List.countP_eq_zero]
    intro x hx
    simp [hn x hx]
  rw [creations, hj, List.countP_append, hnone, Nat.zero_add, creations]

theorem Granted.creations {b : BusId} {who : Subscriber Action} {held : List (Target × BusId)}
    {c : ConsumerRef} (hg : h.Granted b who held c h') {g : GroupRef}
    (hb : h.creations g = if (h.kind? g).isSome then 1 else 0) :
    h'.creations g = if (h'.kind? g).isSome then 1 else 0 := by
  obtain ⟨lost, loop, hloop, hlost, hj⟩ := hg.journal
  have hnews : h'.creations g = loop.countP (·.what.creates g) + h.creations g := by
    rw [Host.creations, hj]
    rcases hlost with rfl | rfl <;>
      simp [Host.creations, List.countP_append, Happening.creates]
  rw [hnews, hb, hg.kinds]
  cases hloop with
  | running hsome =>
    by_cases hsame : g = ⟨b, who.type⟩
    · subst hsame
      simp [hsome]
    · simp [hsame]
  | started interval =>
    by_cases hsame : g = ⟨b, who.type⟩
    · subst hsame
      cases hkind : h.kind? ⟨b, who.type⟩ <;> simp [Happening.creates]
    · simp [hsame, Happening.creates, Ne.symm hsame]

/-- A group is new once: when its type is bound. -/
theorem Reachable.creations_eq (hr : h.Reachable) (g : GroupRef) :
    h.creations g = if (h.kind? g).isSome then 1 else 0 := by
  apply hr.of_episodes (P := fun h => h.creations g = if (h.kind? g).isSome then 1 else 0) rfl
  intro m m' _ hm he
  cases he with
  | uneventful hu =>
    rw [hu.kinds, ← hm]
    apply creations_of_tells
    exact hu.journal.mono fun what hw => Happening.creates_of_isRoutine hw g
  | settled _ _ hkinds =>
    rw [hkinds, ← hm]
    rfl
  | subscribed name hg => exact hg.creations hm
  | @remarked what _ haside =>
    have htold : m.Tells (·.creates g = false) (m.note what) :=
      .of_cons rfl (Happening.creates_of_isAside haside g)
    exact (creations_of_tells htold).trans hm

/-! ## Subscribing and cancelling -/

/-- A subscription that is granted is entered once, and one that is refused is not entered. -/
theorem subscribers_subscribe (h : Host) (b : BusId) (context : Option RuntimeId)
    (who : Subscriber Action) (held : List (Target × BusId)) :
    (h.subscribe b context who held).2.journal.subscribers =
      (h.subscribe b context who held).1.toOption.toList ++ h.journal.subscribers := by
  have hrelease : ∀ (gone : List BusId) (m : Host),
      (m.release gone).journal.subscribers = m.journal.subscribers :=
    fun gone m => release_of_abandon (·.journal.subscribers) (fun _ _ => rfl) gone m
  -- a task that is put in line may be lost, which is no subscription
  have hspawn : ∀ (m : Host) (t : Task),
      (m.spawn t).journal.subscribers = m.journal.subscribers := by
    intro m t
    obtain ⟨-, -, -, -, -, lost, hlost, hj⟩ := spawn_news (h := m) t
    rw [hj]
    rcases hlost with rfl | rfl <;> rfl
  have hloop : ∀ (m : Host) (g : GroupRef) (interval : Duration) (p : Placement),
      (m.ensureLoop g who.kind interval p).journal.subscribers = m.journal.subscribers := by
    intro m g interval p
    unfold ensureLoop
    split <;> rfl
  cases hbus : h.bus? b with
  | none =>
    simp only [subscribe, hbus]
    exact hrelease _ h
  | some bus =>
    cases hp : bus.place context who.type who.kind with
    | error fault =>
      simp only [subscribe, hbus, hp]
      cases fault <;> exact hrelease _ _
    | ok p =>
      simp only [subscribe, hbus, hp]
      apply (hspawn _ _).trans
      exact congrArg (_ :: ·) (hloop (h.modifyBus b _) _ _ _)

/-- Of whom a subscription was granted something is told, and of nobody else. -/
theorem Reachable.granted_iff_about (hr : h.Reachable) (c : ConsumerRef) :
    c ∈ h.granted ↔ h.journal.about (.consumer c) ≠ [] := by
  rw [hr.granted_eq]
  refine ⟨fun hc => ?_, (hr.biography c).subscriber⟩
  obtain ⟨x, hx, hsubscribes⟩ := List.mem_filterMap.mp hc
  have hwho : x.what.who? = some c ∧ x.what.counts = true := by
    cases hw : x.what <;> simp_all [Happening.subscriber?, Happening.who?, Happening.counts]
  apply List.ne_nil_of_mem
  exact List.mem_filter.mpr ⟨hx, by simp [hwho.2, Happening.subject_of_who? hwho.1]⟩

/-- A task that ended by itself has a record of that if its handler blocks, or does all it does
within the futures of its calls. A panic before that unwinds the task, which leaves no record. -/
theorem Departure.isSome_message? {t : Task} {u : Turn} {what : Happening} (hr : h.Reachable)
    (ht : h.task? t.consumer = some t) (hd : h.Departure t u what) (hexit : what.isExit = true)
    (hdeferred : t.handler.profile.isBlocking = true ∨ t.handler.Deferred) :
    what.message?.isSome = true := by
  cases hd with
  | drained | left => rfl
  | panicked hp =>
    obtain rfl := hr.caught ht hp hdeferred
    rfl
  | dropped => exact absurd hexit (by simp [Happening.isExit])

/-! ## The main result -/

/-- The consumer whose handler panics, about to end. -/
def failing : Host := ((initial true).replay (panickingTurns.take 8)).getD {}

end Host

end EventBus
