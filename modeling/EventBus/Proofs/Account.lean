import EventBus.Proofs.Life
import EventBus.Proofs.Timetable

/-!
# Nothing is lost, nothing comes twice

What a consumer is owed is its window. At every moment of its life the window is made up of what the
consumer took from its queue and what is still there; and what it took, of what its handler was
called with and the rest of the batch at hand. `Account` is this balance, and `Lifetime` says when
it is kept: from the subscription to the end. Before, there is nothing; after, there is a prefix. A
job that a consumer has left still hands over the rest of its batch, and nothing else.
-/

set_option autoImplicit false

namespace EventBus

namespace Journal

variable {c : ConsumerRef} {j j' : Journal}

/-! ## Journals that tell the same -/

/-- Both journals tell the same of what was done to a consumer and by it. -/
structure Agrees (c : ConsumerRef) (j j' : Journal) : Prop where
  subscribed : j'.subscribed? c = j.subscribed? c
  cancelled : j'.hasCancelled c = j.hasCancelled c
  ended : j'.hasEnded c = j.hasEnded c
  exit : j'.exit? c = j.exit? c
  taken : j'.taken c = j.taken c
  delivered : j'.delivered c = j.delivered c

theorem agrees_published (j : Journal) (c : ConsumerRef) (time : Nat) (b : BusId) (event : Event)
    (fate : Publication) : Agrees c j (⟨time, .published b event fate⟩ :: j) :=
  ⟨rfl, rfl, rfl, rfl, rfl, rfl⟩

theorem agrees_closed (j : Journal) (c : ConsumerRef) (time : Nat) (b : BusId) (groups : Nat) :
    Agrees c j (⟨time, .closed b groups⟩ :: j) :=
  ⟨rfl, rfl, rfl, rfl, rfl, rfl⟩

theorem agrees_ticked (j : Journal) (c : ConsumerRef) (time : Nat) (l : LoopId) (g : GroupRef) :
    Agrees c j (⟨time, .ticked l g⟩ :: j) :=
  ⟨rfl, rfl, rfl, rfl, rfl, rfl⟩

theorem agrees_of_foreign {news : Journal} (hnews : ∀ x ∈ news, x.what.concerns c = false)
    (j : Journal) : Agrees c j (news ++ j) := by
  induction news with
  | nil => exact ⟨rfl, rfl, rfl, rfl, rfl, rfl⟩
  | cons x news ih =>
    have hrest := ih fun y hy => hnews y (List.mem_cons_of_mem x hy)
    have hx := hnews x List.mem_cons_self
    refine ⟨?_, ?_, ?_, ?_, ?_, ?_⟩
    · rw [← hrest.subscribed, List.cons_append, subscribed?, List.findSome?_cons,
        (Happening.foreign hx).subscribes?]
      rfl
    · rw [← hrest.cancelled, List.cons_append, hasCancelled, List.any_cons,
        (Happening.foreign hx).cancels, Bool.false_or]
      rfl
    · rw [← hrest.ended, List.cons_append, hasEnded, List.any_cons,
        (Happening.foreign hx).ends, Bool.false_or]
      rfl
    · rw [← hrest.exit, List.cons_append, exit?, List.findSome?_cons,
        (Happening.foreign hx).exits?]
      rfl
    · rw [← hrest.taken, List.cons_append, taken, (Happening.foreign hx).takes?]
    · rw [← hrest.delivered, List.cons_append, delivered, (Happening.foreign hx).calls?]

theorem window_of_foreign {news : Journal} (hnews : ∀ x ∈ news, x.what.concerns c = false)
    (j : Journal) : window (news ++ j) c = j.window c := by
  induction news with
  | nil => rfl
  | cons x news ih =>
    rw [List.cons_append, window,
      (Happening.foreign (hnews x List.mem_cons_self)).publishes?]
    exact ih fun y hy => hnews y (List.mem_cons_of_mem x hy)

/-! ## The window -/

theorem window_published {event : Event} {fate : Publication} {time : Nat}
    (htype : event.type = c.group.type) (j : Journal) :
    window (⟨time, .published c.group.bus event fate⟩ :: j) c =
      if j.awaits c event.kind then j.window c ++ [event] else j.window c := by
  have hgroup : (⟨c.group.bus, event.type⟩ : GroupRef) = c.group := GroupRef.ext rfl htype
  have hpub : (Happening.published c.group.bus event fate).publishes? c.group = some event := by
    rw [Happening.publishes?, if_pos hgroup]
  rw [window, hpub]

theorem window_published_of_not_awaits {event : Event} {fate : Publication} {time : Nat}
    (htype : event.type = c.group.type) (ha : j.awaits c event.kind = false) :
    window (⟨time, .published c.group.bus event fate⟩ :: j) c = j.window c := by
  rw [window_published htype, ha, if_neg (by simp)]

theorem awaits_of_unsubscribed (hs : j.subscribed? c = none) (kind : Kind) :
    j.awaits c kind = false := by
  simp [awaits, hs]

theorem awaits_of_ended (he : j.hasEnded c = true) (kind : Kind) : j.awaits c kind = false := by
  simp [awaits, he]

theorem hasEnded_of_suffix (hs : j' <:+ j) (he : j'.hasEnded c = true) : j.hasEnded c = true := by
  obtain ⟨news, rfl⟩ := hs
  rw [hasEnded, List.any_append, Bool.or_eq_true]
  exact .inr he

/-- A consumer that is at its end is owed nothing more. -/
theorem window_of_ended (he : j.hasEnded c = true) (news : Journal) :
    window (news ++ j) c = j.window c := by
  induction news with
  | nil => rfl
  | cons x news ih =>
    rw [List.cons_append, window]
    split
    · rw [awaits_of_ended (hasEnded_of_suffix (List.suffix_append _ _) he), if_neg (by simp), ih]
    · exact ih

theorem window_of_unsubscribed (hs : j.subscribed? c = none) : j.window c = [] := by
  induction j with
  | nil => rfl
  | cons x j ih =>
    rw [subscribed?, List.findSome?_cons] at hs
    split at hs
    · exact absurd hs (by simp)
    · rw [window]
      split
      · rw [awaits_of_unsubscribed hs, if_neg (by simp), ih hs]
      · exact ih hs

end Journal

/-! ## The balance -/

namespace Task

def Failed (t : Task) : Prop := ∃ payload caught, t.phase = .failed payload caught

@[simp] theorem phase_wake (t : Task) : t.wake.phase = t.phase := by
  unfold wake
  split <;> rfl

@[simp] theorem batch_wake (t : Task) : t.wake.batch = t.batch := by
  unfold wake
  split <;> rfl

theorem batch_beginBatch (t : Task) (batch : List Event) : (t.beginBatch batch).batch = batch := by
  unfold beginBatch
  split <;> rfl

theorem batch_beginCall (t : Task) (lent : Option (List Event)) (event : Event)
    (rest : List Event) : (t.beginCall lent event rest).batch = rest := by
  cases lent <;> rfl

theorem batch_enter_draining {t : Task} {lent : Option (List Event)} {call : Option Call}
    (hp : t.phase = .draining lent call) (call' : Option Call) :
    (t.enter (.draining lent call')).batch = t.batch := by
  rw [batch, batch, hp]
  cases lent <;> rfl

/-- A task that did not fail hands its handler what it takes off the batch, and nothing else; one
that fails hands it nothing. -/
theorem Step.batch {slot : Option (Slot Event)} {t t' : Task} {n : Nature}
    {said : Option Happening} (hs : t.Step slot n t' said) :
    (t'.Failed ∧ said.bind (·.calls? t.consumer) = none) ∨ (¬t.Failed ∧
      t.batch = (said.bind (·.calls? t.consumer)).toList ++ t'.batch) := by
  cases hs with
  | register hp | findNothing hp | park hp | resume hp =>
    exact .inr ⟨by simp [Failed, hp], by rw [Task.batch, hp]; rfl⟩
  | @beginCall lent event rest hp hb =>
    refine .inr ⟨by simp [Failed, hp], ?_⟩
    rw [hb, batch_beginCall]
    simp [Happening.calls?]
  | @work _ _ call' hp => exact .inr ⟨by simp [Failed, hp], (batch_enter_draining hp call').symm⟩
  | endCall hp => exact .inr ⟨by simp [Failed, hp], (batch_enter_draining hp none).symm⟩
  | endBatch hp hb => exact .inr ⟨by simp [Failed, hp], hb⟩
  | fail => exact .inl ⟨⟨_, _, rfl⟩, rfl⟩

/-- What a step of a task enters tells of nothing but what the handler is called with. -/
theorem Step.told {h h' : Host} {slot : Option (Slot Event)} {t t' : Task} {n : Nature}
    {said : Option Happening} (hs : t.Step slot n t' said)
    (hj : h'.journal = said.toList.map (⟨h.now, ·⟩) ++ h.journal) :
    h'.journal.subscribed? t.consumer = h.journal.subscribed? t.consumer ∧
      h'.journal.window t.consumer = h.journal.window t.consumer ∧
      h'.journal.taken t.consumer = h.journal.taken t.consumer ∧
      h'.journal.hasCancelled t.consumer = h.journal.hasCancelled t.consumer ∧
      h'.journal.hasEnded t.consumer = h.journal.hasEnded t.consumer ∧
      h'.journal.delivered t.consumer = h.journal.delivered t.consumer ++
        (said.bind (·.calls? t.consumer)).toList := by
  rw [hj]
  cases hs with
  | beginCall =>
    exact ⟨rfl, rfl, rfl, rfl, rfl, by simp [Journal.delivered, Happening.calls?]⟩
  | _ => exact ⟨rfl, rfl, rfl, rfl, rfl, (List.append_nil _).symm⟩

end Task

namespace Host

/-- The balance of a consumer that has the task `t` and the slot `s`. -/
structure Account (h : Host) (c : ConsumerRef) (t : Task) (s : Slot Event) : Prop where
  window : (h.journal.taken c).map Prod.snd ++ s.queue = h.journal.window c
  taken : ¬t.Failed → h.journal.delivered c ++ t.batch = (h.journal.taken c).map Prod.snd
  delivered : h.journal.delivered c <+: (h.journal.taken c).map Prod.snd
  stopped : s.stopped = h.journal.hasCancelled c
  running : h.journal.hasEnded c = false

/-- The balance of a consumer that is gone and has left a job: what its handler was not called with
of what it took is the rest of the batch of the job. -/
structure JobAccount (h : Host) (c : ConsumerRef) (t : Task) : Prop where
  orphaned : t.orphaned = true
  taken : h.journal.delivered c ++ t.batch = (h.journal.taken c).map Prod.snd
  lost : h.journal.hasFailed c = true

def Known (h : Host) (c : ConsumerRef) : Prop :=
  ∃ kind, h.journal.subscribed? c = some kind ∧ h.Given c kind

inductive Lifetime (h : Host) (c : ConsumerRef) : Prop
  | unborn : h.slot? c = none → h.task? c = none → h.journal.subscribed? c = none →
      h.journal.taken c = [] → h.journal.delivered c = [] → h.journal.hasCancelled c = false →
      h.journal.hasEnded c = false → Lifetime h c
  | alive {t : Task} {s : Slot Event} : h.task? c = some t → h.slot? c = some s →
      t.orphaned = false → h.Known c → h.Account c t s → Lifetime h c
  | gone : h.slot? c = none → (∀ t, h.task? c = some t → h.JobAccount c t) → h.Known c →
      h.journal.hasEnded c = true →
      (h.journal.taken c).map Prod.snd <+: h.journal.window c →
      h.journal.delivered c <+: (h.journal.taken c).map Prod.snd → Lifetime h c

/-- A consumer that awaits an event gets it when it is published. -/
theorem accepts_of_awaits {h : Host} (hr : h.Reached) {c : ConsumerRef} (hk : h.Known c)
    (hbus : h.HasBus c.group.bus) {event : Event} (htype : event.type = c.group.type)
    (ha : h.journal.awaits c event.kind = true) : h.accepts c.group.bus event = true := by
  obtain ⟨kind, hsub, hgiven⟩ := hk
  simp only [Journal.awaits, Bool.and_eq_true, decide_eq_true_eq, Bool.not_eq_true'] at ha
  obtain ⟨⟨⟨hkind, hopen⟩, -⟩, -⟩ := ha
  have hclosed : h.isClosed c.group.bus = false := by
    rw [← Bool.not_eq_true]
    intro hcl
    rw [(hr.hasClosed_iff c.group.bus).mpr ⟨hbus, hcl⟩] at hopen
    exact absurd hopen (by simp)
  have hgroup : (⟨c.group.bus, event.type⟩ : GroupRef) = c.group := GroupRef.ext rfl htype
  rw [hsub] at hkind
  rw [accepts, hclosed, hgroup, hgiven.kind?, hkind]
  simp

/-- A consumer that is neither cancelled nor gone awaits what reaches its group. -/
theorem awaits_of_accepts {h : Host} (hr : h.Reached) {c : ConsumerRef} (hk : h.Known c)
    {event : Event} (htype : event.type = c.group.type)
    (ha : h.accepts c.group.bus event = true) (he : h.journal.hasEnded c = false) :
    h.journal.awaits c event.kind = !h.journal.hasCancelled c := by
  obtain ⟨kind, hsub, hgiven⟩ := hk
  have hgroup : (⟨c.group.bus, event.type⟩ : GroupRef) = c.group := GroupRef.ext rfl htype
  rw [accepts, hgroup, hgiven.kind?, Bool.and_eq_true, Bool.not_eq_true', beq_iff_eq] at ha
  have hopen : h.journal.hasClosed c.group.bus = false := by
    rw [← Bool.not_eq_true]
    intro hcl
    rw [((hr.hasClosed_iff c.group.bus).mp hcl).2] at ha
    exact absurd ha.1 (by simp)
  rw [Journal.awaits, hsub, ha.2, hopen, he]
  simp

/-! ## The balance is kept -/

section

variable {h h' : Host} {c : ConsumerRef} {t t' : Task} {s s' : Slot Event}

/-- What is owed grows by what the queue grows by. -/
theorem Account.of_agrees (ha : h.Account c t s) (hj : Journal.Agrees c h.journal h'.journal)
    {more : List Event} (hw : h'.journal.window c = h.journal.window c ++ more)
    (hq : s'.queue = s.queue ++ more) (hs : s'.stopped = s.stopped) (hp : t'.phase = t.phase)
    (hb : t'.batch = t.batch) : h'.Account c t' s' where
  window := by rw [hj.taken, hw, hq, ← List.append_assoc, ha.window]
  taken hf := by
    rw [hj.delivered, hj.taken, hb, ha.taken]
    simpa only [Task.Failed, hp] using hf
  delivered := by rw [hj.delivered, hj.taken]; exact ha.delivered
  stopped := by rw [hj.cancelled, hs, ha.stopped]
  running := by rw [hj.ended, ha.running]

theorem Account.of_same (ha : h.Account c t s) (hj : Journal.Agrees c h.journal h'.journal)
    (hw : h'.journal.window c = h.journal.window c) (hp : t'.phase = t.phase)
    (hb : t'.batch = t.batch) : h'.Account c t' s :=
  ha.of_agrees hj (hw.trans (List.append_nil _).symm) (List.append_nil _).symm rfl hp hb

/-- What reaches the group of a consumer is owed to it if it gets it. -/
theorem Account.window_heard (ha : h.Account c t s) (hr : h.Reached) (hk : h.Known c)
    {event : Event} {fate : Publication} (htype : event.type = c.group.type)
    (hacc : h.accepts c.group.bus event = true)
    (hj : h'.journal = ⟨h.now, .published c.group.bus event fate⟩ :: h.journal) :
    ∃ more, h'.journal.window c = h.journal.window c ++ more ∧
      (s.accept event).queue = s.queue ++ more := by
  have haw := awaits_of_accepts hr hk htype hacc ha.running
  rw [hj, Journal.window_published htype, haw, ← ha.stopped]
  unfold Slot.accept
  cases s.stopped with
  | true => exact ⟨[], (List.append_nil _).symm, (List.append_nil _).symm⟩
  | false => exact ⟨[event], rfl, rfl⟩

theorem Known.window_unheard (hk : h.Known c) (hr : h.Reached) {event : Event}
    {fate : Publication} (htype : event.type = c.group.type) (hbus : h.HasBus c.group.bus)
    (hacc : h.accepts c.group.bus event = false)
    (hj : h'.journal = ⟨h.now, .published c.group.bus event fate⟩ :: h.journal) :
    h'.journal.window c = h.journal.window c := by
  have hnot : h.journal.awaits c event.kind = false := by
    rw [← Bool.not_eq_true]
    intro haw
    rw [accepts_of_awaits hr hk hbus htype haw] at hacc
    exact absurd hacc (by simp)
  rw [hj, Journal.window_published_of_not_awaits htype hnot]

theorem account_enrolled {t : Task} (hj : h.journal.subscribed? c = none)
    (htaken : h.journal.taken c = []) (hdelivered : h.journal.delivered c = [])
    (hcancelled : h.journal.hasCancelled c = false) (hended : h.journal.hasEnded c = false)
    {kind : Kind} {who : Profile} (hp : t.phase = .ready)
    (hnew : h'.journal = ⟨h.now, .subscribed c kind who⟩ :: h.journal) :
    h'.Account c t { id := c.id } := by
  have htaken' : h'.journal.taken c = [] := by rw [hnew]; exact htaken
  have hdelivered' : h'.journal.delivered c = [] := by rw [hnew]; exact hdelivered
  refine ⟨?_, fun _ => ?_, ?_, ?_, ?_⟩
  · rw [htaken', hnew]
    exact (Journal.window_of_unsubscribed hj).symm
  · rw [htaken', hdelivered', Task.batch, hp]
    rfl
  · rw [htaken', hdelivered']
    exact List.nil_prefix
  · rw [hnew]
    exact hcancelled.symm
  · rw [hnew]
    exact hended

theorem Account.cancelled (ha : h.Account c t s)
    (hj : h'.journal = ⟨h.now, .unsubscribed c⟩ :: h.journal) : h'.Account c t s.stop where
  window := by rw [hj]; exact ha.window
  taken hf := by rw [hj]; exact ha.taken hf
  delivered := by rw [hj]; exact ha.delivered
  stopped := by simp [hj, Slot.stop, Journal.hasCancelled, Happening.cancels]
  running := by rw [hj]; exact ha.running

/-- A step of a task moves events from the batch to the handler. -/
theorem Account.stepped (ha : h.Account c t s) (hc : t.consumer = c) {n : Nature}
    {said : Option Happening} (hs : t.Step (h.slot? c) n t' said)
    (hj : h'.journal = said.toList.map (⟨h.now, ·⟩) ++ h.journal) : h'.Account c t' s := by
  subst hc
  obtain ⟨-, hw, ht, hcan, hend, hdel⟩ := hs.told hj
  rcases hs.batch with ⟨hfail, hnone⟩ | ⟨hf, hb⟩
  · rw [hnone, Option.toList_none, List.append_nil] at hdel
    refine ⟨by rw [ht, hw, ha.window], fun hf => absurd hfail hf, ?_, by rw [hcan, ha.stopped],
      by rw [hend, ha.running]⟩
    rw [hdel, ht]
    exact ha.delivered
  · have hbalance : h'.journal.delivered t.consumer ++ t'.batch =
        (h'.journal.taken t.consumer).map Prod.snd := by
      rw [ht, ← ha.taken hf, hdel, hb, List.append_assoc]
    exact ⟨by rw [ht, hw, ha.window], fun _ => hbalance, ⟨_, hbalance⟩, by rw [hcan, ha.stopped],
      by rw [hend, ha.running]⟩

/-- A look at the queue moves all of it to the batch. -/
theorem Account.took (ha : h.Account c t s) (hp : t.phase = .armed)
    (hj : h'.journal = ⟨h.now, .took c s.queue⟩ :: h.journal) :
    h'.Account c (t.beginBatch s.queue) { s with queue := [] } := by
  have hbatch : h.journal.delivered c = (h.journal.taken c).map Prod.snd := by
    have hb := ha.taken (by simp [Task.Failed, hp])
    rwa [Task.batch, hp, List.append_nil] at hb
  have htaken : (h'.journal.taken c).map Prod.snd =
      (h.journal.taken c).map Prod.snd ++ s.queue := by
    simp [hj, Journal.taken, Happening.takes?, Function.comp_def]
  have hdelivered : h'.journal.delivered c = h.journal.delivered c := by rw [hj]; rfl
  refine ⟨?_, fun _ => ?_, ?_, ?_, ?_⟩
  · rw [htaken, List.append_nil, ha.window, hj]
    rfl
  · rw [hdelivered, htaken, Task.batch_beginBatch, hbatch]
  · rw [hdelivered, htaken]
    exact ha.delivered.trans (List.prefix_append _ _)
  · rw [hj]
    exact ha.stopped
  · rw [hj]
    exact ha.running

theorem Known.mono (hk : h.Known c) {n : Nature} (hc : Change n h h')
    (hj : h'.journal.subscribed? c = h.journal.subscribed? c) : h'.Known c := by
  obtain ⟨kind, hsub, hgiven⟩ := hk
  exact ⟨kind, hj.trans hsub, hc.given hgiven⟩

theorem Known.not_admissible (hk : h.Known c) {t : Task} (hc : t.consumer = c) {kind : Kind}
    (ha : h.Admissible t kind) : False := by
  obtain ⟨kind', -, hgiven⟩ := hk
  exact not_given_of_admissible ha (hc ▸ hgiven)

/-- With the end of a consumer its slot goes, and what it took stays a prefix of what it was owed.
-/
theorem Account.finished (ha : h.Account c t s) (hk : h.Known c) {n n' : Nature}
    (hchange : Change n h h') (hc : t.consumer = c) {what : Happening} (he : h.Ending t n' what)
    (hs : h'.slot? c = none) (ht : h'.task? c = none)
    (hj : h'.journal = ⟨h.now, what⟩ :: h.journal) : h'.Lifetime c := by
  subst hc
  have hrest : h'.journal.window t.consumer = h.journal.window t.consumer ∧
      h'.journal.taken t.consumer = h.journal.taken t.consumer ∧
      h'.journal.delivered t.consumer = h.journal.delivered t.consumer ∧
      h'.journal.subscribed? t.consumer = h.journal.subscribed? t.consumer ∧
      h'.journal.hasEnded t.consumer = true := by
    rw [hj]
    cases he <;> exact ⟨rfl, rfl, rfl, rfl, by simp [Journal.hasEnded, Happening.ends]⟩
  obtain ⟨hw, htaken, hdel, hsub, hend⟩ := hrest
  refine .gone hs (fun _ hfound => absurd (ht.symm.trans hfound) (by simp))
    (hk.mono hchange hsub) hend ?_ ?_
  · rw [hw, htaken, ← ha.window]
    exact List.prefix_append _ _
  · rw [hdel, htaken]
    exact ha.delivered

/-- The job that a consumer leaves has the rest of the batch. -/
theorem Account.leftJob (ha : h.Account c t s) (hk : h.Known c) {n : Nature}
    (hchange : Change n h h') (hjob : t.hasJob = true) (hs : h'.slot? c = none)
    (ht : h'.task? c = some t.orphan) {who : Profile}
    (hj : h'.journal = ⟨h.now, .lost c who⟩ :: h.journal) : h'.Lifetime c := by
  obtain ⟨rest, call, hp⟩ := Task.draining_of_hasJob hjob
  have htaken : h'.journal.taken c = h.journal.taken c := by rw [hj]; rfl
  have hdel : h'.journal.delivered c = h.journal.delivered c := by rw [hj]; rfl
  have hw : h'.journal.window c = h.journal.window c := by rw [hj]; rfl
  have hend : h'.journal.hasEnded c = true := by
    rw [hj]
    simp [Journal.hasEnded, Happening.ends]
  refine .gone hs (fun t' ht' => ?_) (hk.mono hchange (by rw [hj]; rfl)) hend ?_ ?_
  · obtain rfl := Option.some.inj (ht.symm.trans ht')
    refine ⟨rfl, ?_, ?_⟩
    · rw [hdel, htaken]
      exact ha.taken (by simp [Task.Failed, hp])
    · rw [hj]
      simp [Journal.hasFailed, Happening.fails]
  · rw [hw, htaken, ← ha.window]
    exact List.prefix_append _ _
  · rw [hdel, htaken]
    exact ha.delivered

/-! ## One case for each change -/

theorem lifetime_unborn {n : Nature} (hr : h.Reached) (hchange : Change n h h')
    (hslot : h.slot? c = none) (htask : h.task? c = none) (hsub : h.journal.subscribed? c = none)
    (htaken : h.journal.taken c = []) (hdel : h.journal.delivered c = [])
    (hcan : h.journal.hasCancelled c = false) (hend : h.journal.hasEnded c = false) :
    h'.Lifetime c := by
  -- whoever has no slot and no task stays so, unless it subscribes
  have hsame : h'.slot? c = h.slot? c → h'.task? c = h.task? c →
      Journal.Agrees c h.journal h'.journal → h'.Lifetime c := fun hs ht hj =>
    .unborn (hs.trans hslot) (ht.trans htask) (hj.subscribed.trans hsub) (hj.taken.trans htaken)
      (hj.delivered.trans hdel) (hj.cancelled.trans hcan) (hj.ended.trans hend)
  cases hchange.life hr c with
  | apart news hs ht hj hnews =>
    exact hsame hs ht (hj ▸ Journal.agrees_of_foreign hnews h.journal)
  | heard _ _ _ hs ht hj =>
    rw [hslot] at hs
    exact hsame (hs.trans hslot.symm) ht (hj ▸ Journal.agrees_published _ _ _ _ _ _)
  | unheard _ _ _ hs ht hj => exact hsame hs ht (hj ▸ Journal.agrees_published _ _ _ _ _ _)
  | closed hs ht hj => exact hsame hs ht (hj ▸ Journal.agrees_closed _ _ _ _ _)
  | ticked hs ht hj =>
    rw [htask] at ht
    exact hsame hs (ht.trans htask.symm) (hj ▸ Journal.agrees_ticked _ _ _ _ _)
  | @enrolled t kind hc ha hgiven hs ht hj =>
    have hknown : h'.Known c := ⟨kind, by simp [hj, Journal.subscribed?, Happening.subscribes?],
      hgiven⟩
    exact .alive ht hs ha.attended hknown
      (account_enrolled hsub htaken hdel hcan hend ha.phase hj)
  | @stillborn t kind hc ha hgiven hs ht hj =>
    have hknown : h'.Known c := ⟨kind, by simp [hj, Journal.subscribed?, Happening.subscribes?],
      hgiven⟩
    have htaken' : h'.journal.taken c = [] := by rw [hj]; exact htaken
    have hdel' : h'.journal.delivered c = [] := by rw [hj]; exact hdel
    refine .gone hs (fun _ hfound => absurd (ht.symm.trans hfound) (by simp)) hknown ?_ ?_ ?_
    · simp [hj, Journal.hasEnded, Happening.ends]
    · rw [htaken']
      exact List.nil_prefix
    · rw [hdel']
      exact List.nil_prefix
  | cancelled hs => rw [hslot] at hs; exact absurd hs (by simp)
  -- it has no task to do any of this
  | stepped ht | took ht | finished ht | leftJob ht | jobOver ht =>
    rw [htask] at ht
    exact absurd ht (by simp)

theorem lifetime_alive {n : Nature} (hr : h.Reached) (hchange : Change n h h')
    (htask : h.task? c = some t) (hslot : h.slot? c = some s) (hlive : t.orphaned = false)
    (hk : h.Known c) (ha : h.Account c t s) : h'.Lifetime c := by
  have hcons : t.consumer = c := consumer_of_task? htask
  cases hchange.life hr c with
  | apart news hs ht hj hnews =>
    have hagree := hj ▸ Journal.agrees_of_foreign hnews h.journal
    exact .alive (ht.trans htask) (hs.trans hslot) hlive (hk.mono hchange hagree.subscribed)
      (ha.of_same hagree (hj ▸ Journal.window_of_foreign hnews h.journal) rfl rfl)
  -- the event goes to the end of the window and of the queue
  | heard htype hacc _ hs ht hj =>
    rw [hslot] at hs
    obtain ⟨more, hw, hq⟩ := ha.window_heard hr hk htype hacc hj
    exact .alive (ht.trans htask) hs hlive (hk.mono hchange (by rw [hj]; rfl))
      (ha.of_agrees (hj ▸ Journal.agrees_published _ _ _ _ _ _) hw hq (s.accept_stopped _) rfl rfl)
  | unheard htype hacc hbus hs ht hj =>
    exact .alive (ht.trans htask) (hs.trans hslot) hlive (hk.mono hchange (by rw [hj]; rfl))
      (ha.of_same (hj ▸ Journal.agrees_published _ _ _ _ _ _)
        (hk.window_unheard hr htype hbus hacc hj) rfl rfl)
  | closed hs ht hj =>
    exact .alive (ht.trans htask) (hs.trans hslot) hlive (hk.mono hchange (by rw [hj]; rfl))
      (ha.of_same (hj ▸ Journal.agrees_closed _ _ _ _ _) (by rw [hj]; rfl) rfl rfl)
  | ticked hs ht hj =>
    rw [htask] at ht
    exact .alive ht (hs.trans hslot) (t.orphaned_wake.trans hlive)
      (hk.mono hchange (by rw [hj]; rfl))
      (ha.of_same (hj ▸ Journal.agrees_ticked _ _ _ _ _) (by rw [hj]; rfl) t.phase_wake
        t.batch_wake)
  -- ids are given once
  | enrolled hc hadm | stillborn hc hadm => exact (hk.not_admissible hc hadm).elim
  | cancelled hs _ hs' ht hj =>
    rw [hslot, Option.some.injEq] at hs
    subst hs
    exact .alive (ht.trans htask) hs' hlive (hk.mono hchange (by rw [hj]; rfl)) (ha.cancelled hj)
  | @stepped t₀ t' _ said ht hstep hs ht' hj =>
    rw [htask, Option.some.injEq] at ht
    subst ht
    refine .alive ht' (hs.trans hslot) (hstep.orphaned.trans hlive) (hk.mono hchange ?_)
      (ha.stepped hcons hstep hj)
    rw [hj]
    cases hstep <;> rfl
  -- what was in the queue is now the batch: the two together are as before
  | took ht hp hs _ hs' ht' hj =>
    rw [htask, Option.some.injEq] at ht
    subst ht
    rw [hslot, Option.some.injEq] at hs
    subst hs
    exact .alive ht' hs' ((Task.orphaned_beginBatch ..).trans hlive)
      (hk.mono hchange (by rw [hj]; rfl)) (ha.took hp hj)
  | finished ht he hs' ht' hj =>
    rw [htask, Option.some.injEq] at ht
    subst ht
    exact ha.finished hk hchange hcons he hs' ht' hj
  | leftJob ht _ hjob hs' ht' hj =>
    rw [htask, Option.some.injEq] at ht
    subst ht
    exact ha.leftJob hk hchange hjob hs' ht' hj
  -- only an orphan is over in silence
  | jobOver ht horphan =>
    rw [htask, Option.some.injEq] at ht
    subst ht
    exact absurd (hlive.symm.trans horphan) (by simp)

/-- A job that was left hands over what is left of its batch; apart from that, what there is to tell
of a consumer that is gone does not change any more. -/
theorem lifetime_gone {n : Nature} (hr : h.Reached) (hchange : Change n h h')
    (hslot : h.slot? c = none) (hjob : ∀ t, h.task? c = some t → h.JobAccount c t) (hk : h.Known c)
    (hend : h.journal.hasEnded c = true)
    (hw : (h.journal.taken c).map Prod.snd <+: h.journal.window c)
    (hd : h.journal.delivered c <+: (h.journal.taken c).map Prod.snd) : h'.Lifetime c := by
  have hsuffix : h.journal <:+ h'.journal := by
    obtain ⟨news, hj, -⟩ := hchange.news
    exact ⟨news, hj.symm⟩
  have hsame : h'.slot? c = none → (∀ t', h'.task? c = some t' →
      ∃ t, h.task? c = some t ∧ t'.orphaned = t.orphaned ∧ t'.batch = t.batch) →
      Journal.Agrees c h.journal h'.journal → h'.journal.window c = h.journal.window c →
      h'.Lifetime c := by
    intro hs ht hagree hwindow
    refine .gone hs (fun t' ht' => ?_) (hk.mono hchange hagree.subscribed) (hagree.ended.trans hend)
      (by rw [hwindow, hagree.taken]; exact hw) (by rw [hagree.taken, hagree.delivered]; exact hd)
    obtain ⟨t, hfound, horphan, hbatch⟩ := ht t' ht'
    have haccount := hjob t hfound
    exact ⟨horphan.trans haccount.orphaned,
      by rw [hagree.delivered, hagree.taken, hbatch, haccount.taken],
      Journal.hasFailed_of_suffix hsuffix haccount.lost⟩
  have hkept : h'.task? c = h.task? c → ∀ t', h'.task? c = some t' →
      ∃ t, h.task? c = some t ∧ t'.orphaned = t.orphaned ∧ t'.batch = t.batch :=
    fun ht t' ht' => ⟨t', ht ▸ ht', rfl, rfl⟩
  have hpublished : ∀ {event : Event} {fate : Publication}, event.type = c.group.type →
      h'.journal = ⟨h.now, .published c.group.bus event fate⟩ :: h.journal →
      Journal.Agrees c h.journal h'.journal ∧ h'.journal.window c = h.journal.window c := by
    intro event fate htype hj
    rw [hj]
    exact ⟨Journal.agrees_published _ _ _ _ _ _,
      Journal.window_published_of_not_awaits htype (Journal.awaits_of_ended hend _)⟩
  cases hchange.life hr c with
  | apart news hs ht hj hnews =>
    exact hsame (hs.trans hslot) (hkept ht) (hj ▸ Journal.agrees_of_foreign hnews h.journal)
      (hj ▸ Journal.window_of_foreign hnews h.journal)
  | heard htype _ _ hs ht hj =>
    rw [hslot] at hs
    obtain ⟨hagree, hwindow⟩ := hpublished htype hj
    exact hsame hs (hkept ht) hagree hwindow
  | unheard htype _ _ hs ht hj =>
    obtain ⟨hagree, hwindow⟩ := hpublished htype hj
    exact hsame (hs.trans hslot) (hkept ht) hagree hwindow
  | closed hs ht hj =>
    exact hsame (hs.trans hslot) (hkept ht) (hj ▸ Journal.agrees_closed _ _ _ _ _)
      (by rw [hj]; rfl)
  | ticked hs ht hj =>
    refine hsame (hs.trans hslot) (fun t' ht' => ?_) (hj ▸ Journal.agrees_ticked _ _ _ _ _)
      (by rw [hj]; rfl)
    obtain ⟨t, hfound, rfl⟩ := Option.map_eq_some_iff.mp (ht.symm.trans ht')
    exact ⟨t, hfound, t.orphaned_wake, t.batch_wake⟩
  | enrolled hc hadm | stillborn hc hadm => exact (hk.not_admissible hc hadm).elim
  | cancelled hs => exact absurd (hslot.symm.trans hs) (by simp)
  | @stepped t t' _ said ht hstep hs ht' hj =>
    obtain rfl : t.consumer = c := consumer_of_task? ht
    obtain ⟨horphan, hbalance, hlost⟩ := hjob t ht
    obtain ⟨hsub, hwindow, htaken, -, hended, hdel⟩ := hstep.told hj
    rcases hstep.batch with ⟨⟨_, _, hfail⟩, -⟩ | ⟨-, hb⟩
    · -- nobody is there for a job to fail
      have hkeeps := hstep.keepsJob (hr.paired.jobs t (mem_of_task? ht))
      obtain ⟨_, _, hp⟩ := Task.draining_of_hasJob (hkeeps (hstep.orphaned.trans horphan))
      exact absurd (hfail.symm.trans hp) (by simp)
    · have hbalance' : h'.journal.delivered t.consumer ++ t'.batch =
          (h'.journal.taken t.consumer).map Prod.snd := by
        rw [htaken, ← hbalance, hdel, hb, List.append_assoc]
      refine .gone (hs.trans hslot) (fun s hs => ?_) (hk.mono hchange hsub) (hended.trans hend)
        (by rw [hwindow, htaken]; exact hw) ⟨_, hbalance'⟩
      obtain rfl := Option.some.inj (ht'.symm.trans hs)
      exact ⟨hstep.orphaned.trans horphan, hbalance', Journal.hasFailed_of_suffix hsuffix hlost⟩
  | took ht hp =>
    have hlive := (hr.paired.jobs _ (mem_of_task? ht)).attended (by simp [hp])
    exact absurd (hlive.symm.trans (hjob _ ht).orphaned) (by simp)
  | finished ht hending =>
    have hlive := hending.attended (hr.paired.jobs _ (mem_of_task? ht))
    exact absurd (hlive.symm.trans (hjob _ ht).orphaned) (by simp)
  | leftJob ht hlive => exact absurd (hlive.symm.trans (hjob _ ht).orphaned) (by simp)
  | jobOver ht _ hs ht' hj =>
    rw [← hj] at hw hd hend
    exact .gone (hs.trans hslot) (fun _ hfound => absurd (ht'.symm.trans hfound) (by simp))
      (hk.mono hchange (by rw [hj])) hend hw hd

/-- Only who has a slot takes anything. -/
theorem taken_of_slotless {n : Nature} (hr : h.Reached) (hchange : Change n h h')
    (hslot : h.slot? c = none) : h'.journal.taken c = h.journal.taken c := by
  cases hchange.life hr c with
  | apart news _ _ hj hnews => exact hj ▸ (Journal.agrees_of_foreign hnews h.journal).taken
  | heard _ _ _ _ _ hj | unheard _ _ _ _ _ hj | closed _ _ hj | ticked _ _ hj
  | enrolled _ _ _ _ _ hj | stillborn _ _ _ _ _ hj | cancelled _ _ _ _ hj
  | leftJob _ _ _ _ _ hj => rw [hj]; rfl
  | stepped _ hstep _ _ hj =>
    rw [hj]
    cases hstep <;> rfl
  | took _ _ hs => exact absurd (hslot.symm.trans hs) (by simp)
  | finished _ he _ _ hj =>
    rw [hj]
    cases he <;> rfl
  | jobOver _ _ _ _ hj => rw [hj]

end

/-- **The balance is kept.** Whatever happens, every consumer is before its subscription, has a slot
and a task and a balanced account, or is at its end. -/
theorem Reached.lifetime {h : Host} (hr : h.Reached) (c : ConsumerRef) : h.Lifetime c := by
  apply hr.invariant (P := fun h => h.Lifetime c) (.unborn rfl rfl rfl rfl rfl rfl rfl)
  intro h h' n hr hlife hc
  cases hlife with
  | unborn hs ht hsub htk hd hcan he => exact lifetime_unborn hr hc hs ht hsub htk hd hcan he
  | alive ht hs hlive hk ha => exact lifetime_alive hr hc ht hs hlive hk ha
  | gone hs hjob hk he hw hd => exact lifetime_gone hr hc hs hjob hk he hw hd

/-- A consumer with a task has a slot as well, and its account balances. -/
theorem Reached.alive_of_task {h : Host} (hr : h.Reached) {c : ConsumerRef} {t : Task}
    (ht : h.task? c = some t) (hlive : t.orphaned = false) :
    ∃ s, h.slot? c = some s ∧ h.Known c ∧ h.Account c t s := by
  cases hr.lifetime c with
  | unborn _ hnone => exact absurd (ht.symm.trans hnone) (by simp)
  | gone _ hjob => exact absurd (hlive.symm.trans (hjob t ht).orphaned) (by simp)
  | alive ht' hs _ hk ha =>
    obtain rfl := Option.some.inj (ht.symm.trans ht')
    exact ⟨_, hs, hk, ha⟩

/-- Whoever has a task, or has left a job, was subscribed once. -/
theorem Reached.known_of_task? {h : Host} (hr : h.Reached) {c : ConsumerRef} {t : Task}
    (ht : h.task? c = some t) : h.Known c := by
  cases hr.lifetime c with
  | unborn _ hnone => exact absurd (ht.symm.trans hnone) (by simp)
  | alive _ _ _ hk => exact hk
  | gone _ _ hk => exact hk

/-- What a task, or a job that was left, has not handed over of what its consumer took is the batch
at hand, unless its handler failed. -/
theorem Reached.balance {h : Host} (hr : h.Reached) {c : ConsumerRef} {t : Task}
    (ht : h.task? c = some t) :
    h.journal.delivered c <+: (h.journal.taken c).map Prod.snd ∧
      (¬t.Failed → h.journal.delivered c ++ t.batch = (h.journal.taken c).map Prod.snd) := by
  cases hr.lifetime c with
  | unborn _ hnone => exact absurd (ht.symm.trans hnone) (by simp)
  | alive ht' _ _ _ ha =>
    obtain rfl := Option.some.inj (ht.symm.trans ht')
    exact ⟨ha.delivered, ha.taken⟩
  | gone _ hjob _ _ _ hd => exact ⟨hd, fun _ => (hjob t ht).taken⟩

/-- A consumer that is at its end has no slot. -/
theorem Reached.slot?_of_ended {h : Host} (hr : h.Reached) {c : ConsumerRef}
    (hend : h.journal.hasEnded c = true) : h.slot? c = none := by
  cases hr.lifetime c with
  | unborn hs | gone hs => exact hs
  | alive _ _ _ _ ha => exact absurd (hend.symm.trans ha.running) (by simp)

/-- What a consumer took from its queue is a prefix of what it is owed. -/
theorem Reached.taken_prefix_window {h : Host} (hr : h.Reached) (c : ConsumerRef) :
    (h.journal.taken c).map Prod.snd <+: h.journal.window c := by
  cases hr.lifetime c with
  | unborn _ _ _ htaken => rw [htaken]; exact List.nil_prefix
  | alive _ _ _ _ ha => exact ⟨_, ha.window⟩
  | gone _ _ _ _ hw _ => exact hw

/-- And so is what its handler was called with. -/
theorem Reached.delivered_prefix_window {h : Host} (hr : h.Reached) (c : ConsumerRef) :
    h.journal.delivered c <+: h.journal.window c := by
  refine List.IsPrefix.trans ?_ (hr.taken_prefix_window c)
  cases hr.lifetime c with
  | unborn _ _ _ _ hdel => rw [hdel]; exact List.nil_prefix
  | alive _ _ _ _ ha => exact ha.delivered
  | gone _ _ _ _ _ hd => exact hd

end Host

end EventBus
