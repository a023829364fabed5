import EventBus.Proofs.Shadow

/-!
# The shadow goes along

Every command, and every move that is not one of the consumer itself, leads from a program and its
shadow to a program and its shadow. So does the end of the runtime. What the consumer itself does
has no counterpart in the shadow.

Somebody else may ask about the consumer and go by the answer. The shadow cannot tell that, so it is
told (`told?`) what was left out for it.
-/

set_option autoImplicit false

namespace EventBus

/-- Whether a move is one of the task of `c`. -/
def Move.IsOf (c : ConsumerRef) : Move → Prop
  | .run d | .leave d => d = c
  | .tick _ | .halt _ => False

instance (c : ConsumerRef) : DecidablePred (Move.IsOf c)
  | .run d | .leave d => inferInstanceAs (Decidable (d = c))
  | .tick _ | .halt _ => inferInstanceAs (Decidable False)

/-- A question that a task is about to put, and what there is of its call after that. -/
structure Inquiry where
  lent : Option (List Event)
  call : Call
  question : Question
  skip : Answer → Nat

def Task.inquiry? (t : Task) : Option Inquiry :=
  match t.phase with
  | .draining lent (some call) =>
    match call.asleep, call.todo with
    | none, .consult question skip :: rest =>
      some ⟨lent, { call with todo := rest }, question, skip⟩
    | _, _ => none
  | _ => none

namespace Host

/-! ## Questions about the consumer -/

/-- The question about `c` that the task of `d` is about to put, with that task. -/
def inquiry? (h : Host) (c d : ConsumerRef) : Option (Task × Inquiry) :=
  (h.task? d).bind fun t =>
    (t.inquiry?.filter fun i => h.asksAbout t.held c i.question).map (t, ·)

/-- How many actions are left out by a move, if they are for an answer about `c`. -/
def heard? (h : Host) (c : ConsumerRef) : Move → Option Nat
  | .run d => (h.inquiry? c d).map fun (t, i) => i.skip (h.ask t.held i.question).1
  | _ => none

/-- The state after a move by which so many actions are left out for an answer about `c`, whatever
that is here; none if there is such an answer and nothing is told, or the other way round. -/
def told? (h : Host) (c : ConsumerRef) : Move → Option Nat → Option Host
  | .run d, some n =>
    (h.inquiry? c d).map fun (t, i) => h.consult t i.lent i.call i.question fun _ => n
  | _, some _ => none
  | m, none => if (h.heard? c m).isSome then none else h.move? m

theorem runTask?_of_inquiry {h : Host} {t : Task} {i : Inquiry} (hi : t.inquiry? = some i) :
    h.runTask? t = some (h.consult t i.lent i.call i.question i.skip) := by
  unfold Task.inquiry? at hi
  split at hi
  · next lent call hp =>
    split at hi
    · next hawake htodo =>
      obtain rfl := Option.some.inj hi
      have hover : t.isOver = false := by simp [Task.isOver, hp, hawake, htodo, Action.isPanic]
      exact runTask?_eq_some.mpr (.inr ⟨by simp [hover], .perform hp hawake htodo⟩)
    · exact absurd hi (by simp)
  · exact absurd hi (by simp)

theorem inquiry?_eq_some {h : Host} {c d : ConsumerRef} {t : Task} {i : Inquiry}
    (hi : h.inquiry? c d = some (t, i)) : h.task? d = some t ∧ t.inquiry? = some i ∧
      h.asksAbout t.held c i.question = true := by
  obtain ⟨s, hs, hmap⟩ := Option.bind_eq_some_iff.mp hi
  obtain ⟨j, hj, heq⟩ := Option.map_eq_some_iff.mp hmap
  obtain ⟨rfl, rfl⟩ : s = t ∧ j = i := by simpa using heq
  obtain ⟨hj, habout⟩ := Option.filter_eq_some_iff.mp hj
  exact ⟨hs, hj, habout⟩

/-- **What is told of a move is what is heard by it.** -/
theorem told?_heard? (h : Host) (c : ConsumerRef) (m : Move) :
    h.told? c m (h.heard? c m) = h.move? m := by
  cases hm : h.heard? c m with
  | none => cases m <;> simp only [told?, hm] <;> rfl
  | some n =>
    cases m with
    | run d =>
      obtain ⟨⟨t, i⟩, hi, rfl⟩ := Option.map_eq_some_iff.mp hm
      obtain ⟨ht, hinquiry, -⟩ := inquiry?_eq_some hi
      rw [told?, hi, move?, ht, Option.bind_some, runTask?_of_inquiry hinquiry]
      rfl
    | leave | tick | halt => exact absurd hm (by simp [heard?])

theorem told?_none (h : Host) (c : ConsumerRef) (m : Move) :
    h.told? c m none = if (h.heard? c m).isSome then none else h.move? m := by
  cases m <;> rfl

theorem move?_of_told?_none {h h' : Host} {c : ConsumerRef} {m : Move}
    (ht : h.told? c m none = some h') : h.heard? c m = none ∧ h.move? m = some h' := by
  rw [told?_none] at ht
  split at ht
  · exact absurd ht (by simp)
  · next hq => exact ⟨by simpa using hq, ht⟩

/-- Whatever is told of a move, it can be made. -/
theorem move?_ne_none {h h' : Host} {c : ConsumerRef} {m : Move} {n : Option Nat}
    (ht : h.told? c m n = some h') : h.move? m ≠ none := by
  cases n with
  | none =>
    rw [(move?_of_told?_none ht).2]
    simp
  | some n =>
    cases m with
    | run d =>
      obtain ⟨⟨t, i⟩, hi, -⟩ := Option.map_eq_some_iff.mp ht
      obtain ⟨htask, hinquiry, -⟩ := inquiry?_eq_some hi
      rw [move?, htask, Option.bind_some, runTask?_of_inquiry hinquiry]
      simp
    | leave | tick | halt => exact absurd ht (by simp [told?])

namespace Shadow

variable {c : ConsumerRef} {h k : Host}

/-! ### The consumer itself -/

/-- The shadow of a program is the program without the consumer. -/
theorem of_without (hown : ∀ t ∈ h.tasks, t.consumer = c → t.Private)
    (hknown : ∃ group, h.group? c.group = some group ∧ c.id < group.nextId) :
    Shadow c h (h.without c) where
  now := rfl
  runtime := rfl
  runtimes := rfl
  buses := h.bus?_without c
  length := Change.length_modifyBus h c.group.bus _
  handles := rfl
  preset := rfl
  subscriptions := rfl
  tasks := rfl
  loops := rfl
  loopsStarted := rfl
  journal := h.journal.apart_filter c
  own := hown
  known := hknown

/-- A program that is the same without the consumer has the same shadow. -/
theorem of_same (sh : Shadow c h k) {h' : Host} (hsame : h'.without c = h.without c)
    (hown : ∀ t ∈ h'.tasks, t.consumer = c → t.Private) : Shadow c h' k where
  now := sh.now.trans (congrArg (·.now) hsame).symm
  runtime := sh.runtime.trans (congrArg (·.runtime) hsame).symm
  runtimes := sh.runtimes.trans (congrArg (·.runtimes) hsame).symm
  buses b := by rw [sh.buses, ← bus?_without, ← bus?_without, hsame]
  length := by
    have hlength : ∀ h : Host, (h.without c).buses.length = h.buses.length :=
      fun h => Change.length_modifyBus h c.group.bus _
    rw [sh.length, ← hlength h, ← hlength h', hsame]
  handles := sh.handles.trans (congrArg (·.handles) hsame).symm
  preset := sh.preset.trans (congrArg (·.preset) hsame).symm
  subscriptions := sh.subscriptions.trans (congrArg (·.subscriptions) hsame).symm
  tasks := sh.tasks.trans (congrArg (·.tasks) hsame).symm
  loops := sh.loops.trans (congrArg (·.loops) hsame).symm
  loopsStarted := sh.loopsStarted.trans (congrArg (·.loopsStarted) hsame).symm
  journal := by
    have hjournal : h'.journal.filter (·.what.who? ≠ some c) = h.journal.filter _ :=
      congrArg (·.journal) hsame
    rw [sh.journal, ← h.journal.apart_filter, ← hjournal, h'.journal.apart_filter]
  own := hown
  known := by
    obtain ⟨group, hg, hid⟩ := sh.known
    have hgroup := h'.group?_without c c.group
    rw [hsame, h.group?_without, hg, Option.map_some] at hgroup
    obtain ⟨group', hg', heq⟩ := Option.map_eq_some_iff.mp hgroup.symm
    refine ⟨group', hg', ?_⟩
    rw [← group'.nextId_apart c.group c, heq, Group.nextId_apart]
    exact hid

theorem own_task (sh : Shadow c h k) {t : Task} (ht : h.task? c = some t) : t.Private :=
  sh.own t (mem_of_task? ht) (consumer_of_task? ht)

/-- **What the consumer itself does** is nothing in the shadow. -/
theorem own_move (sh : Shadow c h k) {m : Move} (hm : m.IsOf c) {h' : Host}
    (hh : h.move? m = some h') : Shadow c h' k := by
  cases m with
  | run d =>
    obtain rfl : d = c := hm
    obtain ⟨t, ht, hrun⟩ := Option.bind_eq_some_iff.mp hh
    obtain ⟨deed, hact, hdoes⟩ := exists_act ht (sh.own_task ht) hrun
    exact sh.of_same hdoes.without fun s hs hc =>
      (Task.private_act (sh.own_task ht) hact (hdoes.tasks s hs hc)).2.2
  | leave d =>
    obtain rfl : d = c := hm
    obtain ⟨t, ht, hleave⟩ := Option.bind_eq_some_iff.mp hh
    have hdoes := does_leave ht (sh.own_task ht) hleave
    exact sh.of_same hdoes.without fun s hs hc => absurd (hdoes.tasks s hs hc) (by simp)
  | tick | halt => exact hm.elim

/-! ### The runtime -/

/-- What the consumer leaves when its task is dropped is not in the shadow. -/
theorem lose_own (sh : Shadow c h k) {t : Task} (ht : t.consumer = c) (hp : t.Private) :
    Shadow c (h.lose t) k := by
  subst ht
  unfold Host.lose
  split
  · refine sh.of_same ?_ fun s hs hc => ?_
    · rw [Host.leaveJob, without_modifyGroup fun group => group.detach_detach_self _]
      exact (without_setTask (t := t.orphan) rfl).trans (without_note rfl)
    · have heq : s = t.orphan := eq_of_mem_setTask (h := h.note _) (t := t.orphan) hs hc
      rw [heq]
      exact hp.of_same ⟨rfl, rfl, rfl, rfl⟩ hp.todo
  · exact sh.endTask_own rfl hp.held rfl

theorem loseAll (ts : List Task) :
    ∀ {h k : Host}, Shadow c h k → (∀ t ∈ ts, t.consumer = c → t.Private) →
      Shadow c (h.loseAll ts) (k.loseAll (ts.filter (·.consumer ≠ c))) := by
  induction ts with
  | nil => exact fun sh _ => sh
  | cons t rest ih =>
    intro h k sh hown
    have hrest := fun s hs => hown s (List.mem_cons_of_mem t hs)
    by_cases ht : t.consumer = c
    · rw [List.filter_cons_of_neg (by simp [ht])]
      exact ih (sh.lose_own ht (hown t List.mem_cons_self ht)) hrest
    · rw [List.filter_cons_of_pos (by simp [ht])]
      exact ih (sh.lose ht) hrest

section

variable (sh : Shadow c h k)

include sh

theorem stopRuntime : Shadow c h.stopRuntime k.stopRuntime := by
  unfold Host.stopRuntime
  rw [sh.runtime]
  cases h.runtime with
  | none => exact sh
  | some r =>
    have hunloaded : Shadow c { h with runtime := none, loops := h.loops.filter (·.runtime ≠ r) }
        { k with runtime := none, loops := k.loops.filter (·.runtime ≠ r) } :=
      { sh with runtime := rfl, loops := congrArg (List.filter fun l => l.runtime ≠ r) sh.loops }
    have hlost := hunloaded.loseAll (h.attended.filter (·.runtime = r)) fun t ht hc =>
      sh.own t (mem_attended.mp (List.mem_filter.mp ht).1).1 hc
    have htasks : (h.attended.filter (·.runtime = r)).filter (·.consumer ≠ c) =
        k.attended.filter (·.runtime = r) := by
      simp only [attended, sh.tasks, List.filter_filter]
      exact List.filter_congr fun s _ => by ac_rfl
    rw [htasks] at hlost
    exact hlost

theorem startRuntime : Shadow c h.startRuntime k.startRuntime := by
  have hstop := sh.stopRuntime
  unfold Host.startRuntime
  exact { hstop with
    runtime := congrArg some hstop.runtimes
    runtimes := congrArg (· + 1) hstop.runtimes }

/-! ### Commands -/

/-- **Whatever is asked from outside** comes to the same for everybody but the consumer. -/
theorem obey (command : Command) (hq : command.takesTime = false) :
    Shadow c (h.obey command).2 (k.obey command).2 := by
  cases command with
  | make name builder pinned =>
    show Shadow c (h.makeBus name builder pinned) (k.makeBus name builder pinned)
    unfold Host.makeBus
    rw [sh.runtime]
    exact sh.make name rfl
  | clone source name =>
    exact (sh.withBus [] source fun b _ _ sh => .of_eq rfl (sh.hold name b)).shadow
  | drop name => exact sh.drop name
  | subscribe target who outside =>
    show Shadow c (h.subscribeAt [] (if outside then none else h.runtime) target who).2
      (k.subscribeAt [] (if outside then none else k.runtime) target who).2
    rw [sh.runtime]
    exact (sh.subscribeAt [] _ target who).shadow
  | inspect name => exact sh
  | cancel name => exact (sh.cancelNamed name).shadow
  | publish target event => exact (sh.publishTo [] target event).shadow
  | close target => exact (sh.closeAt [] target).shadow
  | count target type => exact (sh.countAt [] target type).shadow
  | info target =>
    obtain ⟨-, hlocate⟩ := sh.locate [] target
    have hinfo : ∀ h : Host, (h.infoOf target).2 = (h.locate [] target).2 := by
      intro h
      unfold Host.infoOf
      dsimp only
      split <;> rfl
    show Shadow c (h.infoOf target).2 (k.infoOf target).2
    rw [hinfo, hinfo]
    exact hlocate
  | install source =>
    exact (sh.withBus [] source fun b _ _ sh => sh.install b).shadow
  | surrender name => exact (sh.surrender name).shadow
  | stopRuntime => exact sh.stopRuntime
  | startRuntime => exact sh.startRuntime
  | advance ms => exact absurd hq (by simp [Command.takesTime])

end

/-! ### Moves -/

section

variable (sh : Shadow c h k)

include sh

theorem modifyGroup_taken {g : GroupRef} {group taken : Group Event}
    (hg : h.group? g = some group) (hid : taken.nextId = group.nextId) :
    Shadow c (h.modifyGroup g fun _ => taken) (k.modifyGroup g fun _ => taken.apart g c) := by
  refine sh.modifyGroup g _ _ (fun _ _ => rfl) fun group' hg' => ?_
  obtain rfl := Option.some.inj (hg.symm.trans hg')
  exact Nat.le_of_eq hid.symm

theorem look {t : Task} (ht : t.consumer ≠ c) : Shadow c (h.look t) (k.look t) := by
  unfold Host.look
  rw [sh.group?]
  cases hg : h.group? t.consumer.group with
  | none => exact sh.endTask t _
  | some group =>
    simp only [Option.map_some]
    rw [Group.apart_take fun hg hid => ht (ConsumerRef.ext hg hid)]
    have htaken := sh.modifyGroup_taken hg (group.nextId_take t.consumer.id t.buffer)
    generalize group.take t.consumer.id t.buffer = x at htaken ⊢
    obtain ⟨found, buffer, taken⟩ := x
    cases found with
    | batch =>
      refine Shadow.note (htaken.setTask ?_) rfl
      rw [(t.same_beginBatch buffer).consumer]
      exact ht
    | empty => exact htaken.setTask ht
    | stopped => exact htaken.endTask t _

omit sh in
theorem enter {x y : Answer × Host} (hx : Echo c x y) (t : Task) (a : Action) :
    Shadow c (Host.enter t a x) (Host.enter t a y) := by
  refine hx.shadow.note ?_
  simp only [Happening.apart?, hx.answer]
  rfl

/-- Who is left out of as many actions on both sides goes on alike. -/
theorem consult {t : Task} (ht : t.consumer ≠ c) (lent : Option (List Event)) (call : Call)
    (question : Question) {skip skip' : Answer → Nat}
    (hs : skip' (k.ask t.held question).1 = skip (h.ask t.held question).1) :
    Shadow c (h.consult t lent call question skip) (k.consult t lent call question skip') := by
  obtain ⟨hanswer, hasked⟩ := sh.ask t.held question
  unfold Host.consult
  dsimp only
  rw [hs]
  refine (hasked.setTask (t := t.continueCall lent _) ht).note ?_
  simp only [Happening.apart?, hanswer]
  rfl

theorem perform {t : Task} (ht : t.consumer ≠ c) (lent : Option (List Event)) (call : Call)
    (a : Action) (hq : ∀ question skip, a = .consult question skip →
      h.asksAbout t.held c question = false) :
    Shadow c (h.perform t lent call a) (k.perform t lent call a) := by
  have hnext : Shadow c (h.setTask (t.continueCall lent call))
      (k.setTask (t.continueCall lent call)) :=
    sh.setTask ht
  cases a with
  | publish target event => exact enter (hnext.publishTo t.held target event) t _
  | countdown target => exact enter (hnext.countdownTo t.held target call.event) t _
  | cancel name => exact enter (hnext.cancelNamed name) t _
  | close target => exact enter (hnext.closeAt t.held target) t _
  | count target type => exact enter (hnext.countAt t.held target type) t _
  | consult question skip =>
    exact sh.consult ht lent call question (congrArg skip (sh.ask_of_other (hq _ _ rfl)))
  | subscribe target who => exact enter (hnext.subscribeAt t.held (some t.runtime) target who) t _
  | sleep ms =>
    show Shadow c (h.setTask (t.continueCall lent { call with asleep := some (h.now + ms) }))
      (k.setTask (t.continueCall lent { call with asleep := some (k.now + ms) }))
    rw [sh.now]
    exact sh.setTask ht
  | panic payload => exact sh.setTask ht
  | report => exact hnext.note rfl

theorem drain? {t : Task} (ht : t.consumer ≠ c) {lent : Option (List Event)}
    {call? : Option Call} (hp : t.phase = .draining lent call?)
    (hq : ∀ i, t.inquiry? = some i → h.asksAbout t.held c i.question = false) :
    Option.Rel (Shadow c) (h.drain? t lent call?) (k.drain? t lent call?) := by
  unfold Host.drain?
  cases call? with
  | none =>
    cases t.batch with
    | nil => exact .some (Shadow.note (sh.setTask (t := t.endBatch) ht) rfl)
    | cons event rest =>
      refine .some (Shadow.note (sh.setTask ?_) rfl)
      cases lent <;> exact ht
  | some call =>
    simp only [sh.now]
    cases hasleep : call.asleep with
    | some alarm =>
      simp only
      split
      · exact .some (Shadow.note (sh.setTask (t := t.continueCall lent _) ht) rfl)
      · exact .none
    | none =>
      cases htodo : call.todo with
      | nil => exact .some (sh.setTask ht)
      | cons a rest =>
        refine .some (sh.perform ht lent _ a fun question skip ha => ?_)
        refine hq ⟨lent, { call with todo := rest }, question, skip⟩ ?_
        simp only [Task.inquiry?, hp, hasleep, htodo, ha]

theorem stepTask? {t : Task} (ht : t.consumer ≠ c)
    (hq : ∀ i, t.inquiry? = some i → h.asksAbout t.held c i.question = false) :
    Option.Rel (Shadow c) (h.stepTask? t) (k.stepTask? t) := by
  unfold Host.stepTask?
  cases hp : t.phase with
  | ready => exact .some (Shadow.note (sh.setTask (t := t.register) ht) rfl)
  | armed => exact .some (sh.look ht)
  | idle => exact .some (sh.setTask ht)
  | waiting =>
    simp only
    split
    · exact .some (sh.setTask ht)
    · exact .none
  | draining lent call? => exact sh.drain? ht hp hq
  | failed payload => exact .some (sh.endTask t _)

theorem runTask? {t : Task} (ht : t.consumer ≠ c)
    (hq : ∀ i, t.inquiry? = some i → h.asksAbout t.held c i.question = false) :
    Option.Rel (Shadow c) (h.runTask? t) (k.runTask? t) := by
  unfold Host.runTask?
  split
  · exact .some (sh.endJob t)
  · exact sh.stepTask? ht hq

theorem leave? (t : Task) : Option.Rel (Shadow c) (h.leave? t) (k.leave? t) := by
  unfold Host.leave?
  cases t.phase with
  | waiting =>
    simp only [sh.isDown]
    split
    · exact .some (sh.endTask t _)
    · exact .none
  | _ => exact .none

theorem setLoop (l : FlushLoop) : Shadow c (h.setLoop l) (k.setLoop l) :=
  { sh with loops := congrArg (List.map _) sh.loops }

theorem tick? (l : FlushLoop) : Option.Rel (Shadow c) (h.tick? l) (k.tick? l) := by
  unfold Host.tick?
  rw [sh.now]
  split
  · exact .some (((sh.setLoop _).wake l.group).note rfl)
  · exact .none

theorem halt? (l : FlushLoop) : Option.Rel (Shadow c) (h.halt? l) (k.halt? l) := by
  unfold Host.halt?
  rw [sh.isDown]
  split
  · have herase : Shadow c (h.eraseLoop l.id) (k.eraseLoop l.id) :=
      { sh with loops := congrArg (List.filter _) sh.loops }
    exact .some (herase.note rfl)
  · exact .none

theorem inquiry? {d : ConsumerRef} (hd : d ≠ c) : k.inquiry? c d = h.inquiry? c d := by
  unfold Host.inquiry?
  rw [sh.task? hd]
  simp only [sh.asksAbout]

/-- Somebody else who asks nothing about the consumer moves in the shadow too, or not at all. -/
theorem move? {m : Move} (hm : ¬m.IsOf c) (hq : h.heard? c m = none) :
    Option.Rel (Shadow c) (h.move? m) (k.move? m) := by
  cases m with
  | run d =>
    have hd : d ≠ c := hm
    simp only [Host.move?, sh.task? hd]
    cases ht : h.task? d with
    | none => exact .none
    | some t =>
      refine sh.runTask? (consumer_of_task? ht ▸ hd) fun i hi => ?_
      rw [← Bool.not_eq_true]
      intro habout
      -- an inquiry about the consumer would be heard
      have hinquiry : h.inquiry? c d = some (t, i) := by
        simp [Host.inquiry?, ht, hi, habout]
      rw [heard?, hinquiry] at hq
      exact absurd hq (by simp)
  | leave d =>
    have hd : d ≠ c := hm
    simp only [Host.move?, sh.task? hd]
    cases ht : h.task? d with
    | none => exact .none
    | some t => exact sh.leave? t
  | tick id =>
    simp only [Host.move?, sh.loop?]
    cases h.loop? id with
    | none => exact .none
    | some l => exact sh.tick? l
  | halt id =>
    simp only [Host.move?, sh.loop?]
    cases h.loop? id with
    | none => exact .none
    | some l => exact sh.halt? l

theorem isSome_heard? {m : Move} (hm : ¬m.IsOf c) :
    (k.heard? c m).isSome = (h.heard? c m).isSome := by
  cases m with
  | run d =>
    have hd : d ≠ c := hm
    simp only [heard?, sh.inquiry? hd, Option.isSome_map]
  | leave | tick | halt => rfl

/-- **Whoever else moves**, with so many actions left out for an answer about the consumer, moves in
the shadow too, or not at all. -/
theorem told? {m : Move} (hm : ¬m.IsOf c) (n : Option Nat) :
    Option.Rel (Shadow c) (h.told? c m n) (k.told? c m n) := by
  cases n with
  | none =>
    have hsome := sh.isSome_heard? hm
    rw [told?_none, told?_none, hsome]
    cases hq : h.heard? c m with
    | none => exact sh.move? hm hq
    | some n => exact .none
  | some n =>
    cases m with
    | run d =>
      have hd : d ≠ c := hm
      simp only [Host.told?, sh.inquiry? hd]
      cases hi : h.inquiry? c d with
      | none => exact .none
      | some x =>
        obtain ⟨t, i⟩ := x
        obtain ⟨ht, -, -⟩ := inquiry?_eq_some hi
        exact .some (sh.consult (consumer_of_task? ht ▸ hd) i.lent i.call i.question rfl)
    | leave | tick | halt => exact .none

end

end Shadow

end Host

end EventBus
