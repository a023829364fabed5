import EventBus.Proofs.Privacy
import EventBus.Proofs.Uneventful

/-!
# What happens in a turn

A turn is told a second time, in larger pieces than changes. Most of it is uneventful. What is left
are three sorts of episodes: the default bus is fixed, a subscription is granted and bound to a
name, and a handler notes something down, as it does in its task or in a job that this left. What
episodes keep holds in every reachable state.
-/

set_option autoImplicit false

namespace EventBus

namespace Command

/-- Whether the runtime that runs is stopped by this. -/
def stopsRuntime : Command → Bool
  | stopRuntime | startRuntime => true
  | _ => false

end Command

/-- Whether the runtime is stopped by a turn. -/
def Turn.stopsRuntime : Turn → Bool
  | .obey c => c.stopsRuntime
  | _ => false

namespace Host

/-- Whoever holds a bus as the default holds the default bus. -/
def Loyal (h : Host) (own : List (Target × BusId)) : Prop :=
  ∀ x ∈ own, x.1 = .default → h.preset = some x.2

end Host

/-- One piece of what a turn does. -/
inductive Episode : Host → Host → Prop
  | uneventful {h h' : Host} : h.Uneventful h' → Episode h h'
  -- The default bus is fixed, and may be made for that.
  | settled {h : Host} {b : BusId} {buses : List Bus} {handles : List (String × BusId)} :
      h.preset = none →
      Changes (fun _ => True) h { h with buses, handles, preset := some b } →
      (∀ g, { h with buses, handles, preset := some b }.kind? g = h.kind? g) →
      Episode h { h with buses, handles, preset := some b }
  -- A subscription is granted, and bound to a name.
  | subscribed {h h' : Host} {b : BusId} {who : Subscriber Action} {held : List (Target × BusId)}
      {c : ConsumerRef} (name : String) : h.Granted b who held c h' → h.Loyal held →
      Episode h (h'.bind name c)
  -- A handler notes something down.
  | remarked {h : Host} {what : Happening} {c : ConsumerRef} : what.isAside = true →
      what.who? = some c → (h.task? c).isSome = true → Episode h (h.note what)

/-- Any number of episodes. -/
def Episodes : Host → Host → Prop := Relation.ReflTransGen Episode

namespace Episodes

theorem refl (h : Host) : Episodes h h := Relation.ReflTransGen.refl

theorem single {h h' : Host} (he : Episode h h') : Episodes h h' := Relation.ReflTransGen.single he

theorem trans {h m h' : Host} (ha : Episodes h m) (hb : Episodes m h') : Episodes h h' :=
  Relation.ReflTransGen.trans ha hb

end Episodes

namespace Host

variable {h m h' : Host}

/-- What is uneventful is one episode. -/
theorem Uneventful.episodes (hu : h.Uneventful h') : Episodes h h' := .single (.uneventful hu)

/-- What a request does: some episodes, none of which ends a task that is there, or is a deed of a
task. -/
structure Asked (h h' : Host) : Prop where
  episodes : Episodes h h'
  tasks : ∀ t ∈ h.tasks, t ∈ h'.tasks
  quiet : h.Tells (·.isOfTask = false) h'

namespace Asked

theorem refl (h : Host) : h.Asked h := ⟨.refl h, fun _ ht => ht, .of_same rfl⟩

theorem trans (ha : h.Asked m) (hb : m.Asked h') : h.Asked h' where
  episodes := ha.episodes.trans hb.episodes
  tasks t ht := hb.tasks t (ha.tasks t ht)
  quiet := ha.quiet.trans hb.quiet

/-- A request that brings about no task is uneventful. -/
theorem of_uneventful (hu : h.Uneventful h') (hk : h.KeepsRuntime h') : h.Asked h' :=
  ⟨hu.episodes, fun _ hmem => hk.tasks ▸ hmem, hk.quiet⟩

end Asked

/-! ## Finding a bus -/

/-- The first use of the default bus fixes it. -/
theorem useDefault_asked (h : Host) :
    h.Asked h.useDefault.2 ∧ h.useDefault.2.preset = some h.useDefault.1 ∧
      ∀ b, h.preset = some b → h.useDefault.2.preset = some b := by
  have hchanges : Changes (fun _ => True) h h.useDefault.2 :=
    (useDefault_extends h).1.mono trivial
  unfold useDefault at hchanges ⊢
  split at hchanges
  · next b hb => exact ⟨.refl h, hb, fun _ hpre => hpre⟩
  · next hnone =>
    refine ⟨⟨.single (.settled hnone hchanges fun g => ?_), fun _ ht => ht, .of_same rfl⟩, rfl,
      fun b hpre => absurd (hnone.symm.trans hpre) (by simp)⟩
    rw [kind?, kind?]
    exact congrArg _ (h.binding?_append rfl h.handles (some h.buses.length) g)

/-- What is found as the default bus is the default bus from then on. -/
theorem locate_asked {own : List (Target × BusId)} (hloyal : h.Loyal own) (target : Target) :
    h.Asked (h.locate own target).2 ∧
      (∀ b, h.preset = some b → (h.locate own target).2.preset = some b) ∧
      (target = .default → (h.locate own target).2.preset = (h.locate own target).1) := by
  unfold locate
  split
  · next b hb =>
    refine ⟨.refl h, fun _ hpre => hpre, ?_⟩
    rintro rfl
    exact hloyal _ (mem_of_lookup hb) rfl
  · split
    · exact ⟨.refl h, fun _ hpre => hpre, fun hd => absurd hd (by simp)⟩
    · obtain ⟨hasked, hpreset, hkept⟩ := useDefault_asked h
      exact ⟨hasked, hkept, fun _ => hpreset⟩

/-- Who holds the default bus holds it later, since it is fixed. -/
theorem Loyal.mono {own : List (Target × BusId)} (hloyal : h.Loyal own)
    (hpreset : ∀ b, h.preset = some b → h'.preset = some b) : h'.Loyal own :=
  fun x hx hd => hpreset _ (hloyal x hx hd)

/-- What a handler is to hold as the default bus is the default bus. -/
theorem locateAll_asked {own : List (Target × BusId)} (targets : List Target) :
    ∀ {h : Host}, h.Loyal own →
      h.Asked (h.locateAll own targets).2 ∧
        (∀ b, h.preset = some b → (h.locateAll own targets).2.preset = some b) ∧
        (h.locateAll own targets).2.Loyal (h.locateAll own targets).1 := by
  induction targets with
  | nil => exact fun {h} _ => ⟨.refl h, fun _ hpre => hpre, by simp [Loyal, locateAll]⟩
  | cons target rest ih =>
    intro h hloyal
    obtain ⟨hfirst, hkept, hfound⟩ := locate_asked hloyal target
    -- the default bus may be made for the first target, and is fixed for the others
    obtain ⟨hrest, hkept', hloyal'⟩ := ih (hloyal.mono hkept)
    refine ⟨hfirst.trans hrest, fun b hpre => hkept' b (hkept b hpre), fun x hx hd => ?_⟩
    rcases List.mem_append.mp hx with hx | hx
    · rw [Option.mem_toList, Option.map_eq_some_iff] at hx
      obtain ⟨b, hb, rfl⟩ := hx
      exact hkept' b ((hfound hd).trans hb)
    · exact hloyal' x hx hd

/-! ## Requests -/

/-- To publish enters that in the journal, and brings about no task. -/
theorem publish_asked (hr : h.Reached) {b : BusId} (hb : h.isHeld b = true) (event : Event) :
    h.Asked (h.publish b event) :=
  .of_uneventful (publish_uneventful hr hb event) (publish_keepsRuntime b event)

theorem close_asked {b : BusId} (hb : h.isHeld b = true) (hok : h.close b = .ok h') :
    h.Asked h' :=
  .of_uneventful (close_uneventful hb hok) (close_keepsRuntime hok)

theorem cancelNamed_asked (name : String) : h.Asked (h.cancelNamed name).2 := by
  unfold cancelNamed
  split
  · exact .refl h
  · -- whether the subscription was active or not
    exact .of_uneventful (cancel_uneventful _) (cancel_keepsRuntime _)

/-- Handles come and go without any episode. -/
theorem hold_asked (name : String) {b : BusId} (hb : h.isHeld b = true) :
    h.Asked (h.hold name b) :=
  .of_uneventful (hold_uneventful name hb) (hold_keepsRuntime name b)

theorem drop_asked (name : String) : h.Asked (h.drop name) :=
  .of_uneventful (drop_uneventful name) (drop_keepsRuntime name)

theorem make_asked (name : String) {bus : Bus} (hreg : bus.registry = .empty)
    (hstage : bus.stage = .active) : h.Asked (h.make name bus) :=
  .of_uneventful (make_uneventful name hreg hstage) (make_keepsRuntime name bus)

/-- A bus becomes the default, which was not fixed yet. -/
theorem settle_asked (hnone : h.preset = none) {b : BusId} (hb : h.isHeld b = true)
    {handles : List (String × BusId)} (hsub : ∀ x ∈ handles, x ∈ h.handles) :
    h.Asked { h with handles, preset := some b } :=
  have hsettled := Episode.settled hnone (settle_changes trivial hb hsub) fun _ => rfl
  ⟨.single hsettled, fun _ ht => ht, .of_same rfl⟩

/-- To install a clone fixes the default bus, or does nothing. -/
theorem install_asked {b : BusId} (hb : h.isHeld b = true) :
    h.Asked (acknowledged (h.install b)).2 := by
  rcases install_cases h b with ⟨_, -, hinstall⟩ | ⟨hnone, hinstall⟩ <;> rw [hinstall]
  · rw [release_of_isHeld hb]
    exact .refl h
  · exact settle_asked hnone hb fun _ hx => hx

/-- To install the handle itself fixes the default bus, or drops the handle. -/
theorem surrender_asked (name : String) : h.Asked (h.surrender name).2 := by
  rcases surrender_cases h name with ⟨-, hsame⟩ | ⟨_, _, -, -, hdrop⟩ | ⟨b, hb, hnone, hsettled⟩
  · rw [hsame]
    exact .refl h
  · rw [hdrop]
    exact drop_asked name
  · rw [hsettled]
    exact settle_asked hnone (handle?_isHeld hb) fun _ hx => otherHandles_subset name hx

section

variable {own : List (Target × BusId)} (hr : h.Reached) (hown : ∀ x ∈ own, h.isHeld x.2 = true)
  (hloyal : h.Loyal own) (target : Target)

include hr hown hloyal

/-- A request on a target does what is done with the bus, after the bus was found. -/
theorem withBus_asked (f : BusId → Host → Answer × Host)
    (hf : ∀ (b : BusId) (m : Host), m.Reached → m.isHeld b = true →
      (∀ x ∈ own, m.isHeld x.2 = true) → m.Loyal own → m.Asked (f b m).2) :
    h.Asked (h.withBus own target f).2 := by
  obtain ⟨hasked, hkept, -⟩ := locate_asked hloyal target
  obtain ⟨hfound, hheld⟩ := locate_extends hown target
  unfold withBus
  split
  · next b m heq =>
    rw [heq] at hasked hkept hfound hheld
    exact hasked.trans (hf b m (hr.changes hfound.changes) (hheld b rfl)
      (fun x hx => hfound.held _ (hown x hx)) (hloyal.mono hkept))
  · next m heq =>
    rw [heq] at hasked
    exact hasked

theorem publishTo_asked (event : Event) : h.Asked (h.publishTo own target event).2 :=
  withBus_asked hr hown hloyal target _ fun _ _ hm hb _ _ => publish_asked hm hb event

theorem countdownTo_asked (event : Event) : h.Asked (h.countdownTo own target event).2 := by
  apply withBus_asked hr hown hloyal target _
  intro b m hm hb _ _
  split
  · next n _ =>
    show m.Asked (if 0 < n then m.publish b (.int (n - 1)) else m)
    split
    · exact publish_asked hm hb _
    · exact .refl m
  · exact .refl m

theorem closeAt_asked : h.Asked (h.closeAt own target).2 := by
  apply withBus_asked hr hown hloyal target _
  intro b m _ hb _ _
  split
  · next hok => exact close_asked hb hok
  · exact .refl m

theorem countAt_asked (type : EventType) : h.Asked (h.countAt own target type).2 :=
  withBus_asked hr hown hloyal target _ fun _ m _ _ _ _ => .refl m

omit target in
theorem ask_asked (question : Question) : h.Asked (h.ask own question).2 := by
  cases question with
  | count target type => exact countAt_asked hr hown hloyal target type
  | status name => exact .refl h

/-- A subscription that is granted is one episode, with the name that it is bound to. -/
theorem subscribeAt_asked (context : Option RuntimeId) (who : Subscriber Action) :
    h.Asked (h.subscribeAt own context target who).2 := by
  apply withBus_asked hr hown hloyal target _
  intro b m hm hb hown' hloyal'
  obtain ⟨hfound, hheld⟩ := locateAll_extends who.hold hown'
  obtain ⟨hasked, -, hheld'⟩ := locateAll_asked who.hold hloyal'
  apply hasked.trans
  dsimp only
  split
  · next c m' hs =>
    -- granted: the episode is the subscription with its name
    have hgranted := granted_of_subscribe (hm.changes hfound.changes) (hfound.held b hb) hheld hs
    exact ⟨.single (.subscribed _ hgranted hheld'), hgranted.kept, hgranted.quiet⟩
  · next fault m' hs =>
    -- refused: the handles that came along go, and a conflict is entered
    exact .of_uneventful (uneventful_of_refused hs) (.of_refused hs)

end

/-! ## Moves -/

/-- A handler notes something down. -/
theorem remark_episodes {t : Task} (ht : t ∈ h.tasks) {what : Happening}
    (haside : what.isAside = true) (hwho : what.who? = some t.consumer) :
    Episodes h (h.note what) :=
  .single (.remarked haside hwho (List.find?_isSome.mpr ⟨t, ht, by simp⟩))

section

variable {t : Task} (hr : h.Reached) (ht : h.task? t.consumer = some t)

include hr ht

/-- To look for events is uneventful, whatever is found. -/
theorem look_uneventful (hp : t.phase = .armed) : h.Uneventful (h.look t) := by
  have hfinds := look_finds hr ht hp
  generalize h.look t = h' at hfinds ⊢
  cases hfinds with
  | @batch s hs hq =>
    exact .of_change (some (.took t.consumer s.queue)) (.take ht hp hs hq) rfl rfl
      (h.kind?_modifyGroup t.consumer.group _) (same_of_setTask ht (t.same_beginBatch s.queue)) rfl
      (by simp [Happening.isRoutine])
  | nothing hs hq hstop => exact step_uneventful ht (.findNothing hp hs hq hstop)
  | drained hs hq hstop => exact endTask_uneventful ht (.drained hp hs hq hstop)

/-- What an action asks for, it does by episodes. -/
theorem perform_asked (hloyal : h.Loyal t.held) {lent : Option (List Event)} {call : Call}
    (hp : t.phase = .draining lent (some call)) (next : Call) (a : Action) :
    h.Performs Asked t lent next a (h.perform t lent next a) := by
  have hm : ∀ {next : Call}, (h.setTask (t.continueCall lent next)).Reached :=
    hr.change (.step ht (.work hp))
  have hown : ∀ {next : Call}, ∀ x ∈ t.held,
      (h.setTask (t.continueCall lent next)).isHeld x.2 = true :=
    fun x hx => isHeld_of_task (mem_setTask (t.continueCall lent _) ht rfl) hx
  have hloyal : ∀ {next : Call}, (h.setTask (t.continueCall lent next)).Loyal t.held := hloyal
  cases a with
  | publish target event =>
    exact .asked 0 _ rfl (.inl rfl) (publishTo_asked hm hown hloyal target event)
  | countdown target => exact .asked 0 _ rfl (.inl rfl) (countdownTo_asked hm hown hloyal target _)
  | cancel name => exact .asked 0 _ rfl (.inl rfl) (cancelNamed_asked name)
  | close target => exact .asked 0 _ rfl (.inl rfl) (closeAt_asked hm hown hloyal target)
  | count target type => exact .asked 0 _ rfl (.inl rfl) (countAt_asked hm hown hloyal target type)
  | consult question skip =>
    rw [perform_consult]
    exact .asked _ _ rfl (.inr rfl) (ask_asked hm hown hloyal question)
  | subscribe target who =>
    exact .asked 0 _ rfl (.inl rfl) (subscribeAt_asked hm hown hloyal target _ who)
  | sleep ms => exact .pauses ms
  | panic payload early => exact .panics payload early
  | report => exact .reports

/-- The step of the task comes first, then what is asked for, and the note of the answer at last. -/
theorem perform_episodes (hloyal : h.Loyal t.held) {lent : Option (List Event)} {call : Call}
    (hp : t.phase = .draining lent (some call)) (next : Call) (a : Action)
    (hlive : a.isPanic = true → t.orphaned = false) : Episodes h (h.perform t lent next a) := by
  have hstep : ∀ {next : Call}, h.Uneventful (h.setTask (t.continueCall lent next)) :=
    step_uneventful ht (.work hp)
  have hmem : ∀ next : Call,
      t.continueCall lent next ∈ (h.setTask (t.continueCall lent next)).tasks :=
    fun next => mem_setTask (t.continueCall lent next) ht rfl
  have hperforms := perform_asked hr ht hloyal hp next a
  generalize h.perform t lent next a = h' at hperforms ⊢
  cases hperforms with
  | asked n answered _ _ hasked =>
    exact hstep.episodes.trans (hasked.episodes.trans
      (remark_episodes (hasked.tasks _ (hmem (next.skip n))) rfl rfl))
  | pauses => exact (step_uneventful ht (.work hp)).episodes
  | panics => exact (step_uneventful ht (.fail hp (hlive rfl))).episodes
  | reports => exact hstep.episodes.trans (remark_episodes (hmem next) rfl rfl)

/-- A task does nothing eventful but in the calls of its handler: the actions of these, and their
notes of having slept. -/
theorem TaskStep.episodes (hs : h.TaskStep t h') (hloyal : h.Loyal t.held)
    (hlive : t.isOver = true → t.orphaned = false) : Episodes h h' := by
  cases hs with
  | register hp => exact (step_uneventful ht (.register hp)).episodes
  | look hp => exact (look_uneventful hr ht hp).episodes
  | park hp => exact (step_uneventful ht (.park hp)).episodes
  | resume hp hw => exact (step_uneventful ht (.resume hp hw)).episodes
  | beginCall hp hb => exact (step_uneventful ht (.beginCall hp hb)).episodes
  | endBatch hp hb =>
    have hattended := hlive (Task.isOver_of_drained hp hb)
    exact (step_uneventful ht (.endBatch hp hb hattended)).episodes
  | @awake lent _ _ hp =>
    exact (step_uneventful ht (.work hp)).episodes.trans
      (remark_episodes (mem_setTask (t.continueCall lent _) ht rfl) rfl rfl)
  | perform hp hawake htodo =>
    exact perform_episodes hr ht hloyal hp _ _
      fun ha => hlive (Task.isOver_of_panic hp hawake htodo ha)
  | endCall hp => exact (step_uneventful ht (.endCall hp)).episodes
  | fail hp => exact (endTask_uneventful ht (.panicked hp)).episodes

end

/-- A tick wakes tasks, and is uneventful. -/
theorem tick_uneventful {l : FlushLoop} (hl : h.loop? l.id = some l)
    (hdue : l.isDue h.now = true) :
    h.Uneventful (((h.setLoop (l.tick h.now)).wake l.group).note (.ticked l.id l.group)) := by
  refine .of_change (some (.ticked l.id l.group)) (.tick hl hdue) rfl rfl (fun _ => rfl)
    (fun t' ht' => ?_) rfl (by simp [Happening.isRoutine])
  obtain ⟨t, ht, rfl⟩ := List.mem_map.mp ht'
  split
  · exact ⟨t, ht, t.same_wake⟩
  · exact ⟨t, ht, rfl, rfl, rfl, rfl⟩

/-- Every move is told by episodes. To leave a bus that is down is uneventful, and so is whatever a
loop does. -/
theorem MoveStep.episodes {m : Move} (hm : h.MoveStep m h') (hr : h.Reached)
    (hloyal : ∀ t ∈ h.tasks, h.Loyal t.held) : Episodes h h' := by
  cases hm with
  | run ht hlive hstep => exact hstep.episodes hr ht (hloyal _ (mem_of_task? ht)) hlive
  | endJob ht horphan => exact (endJob_uneventful ht horphan).episodes
  | leave ht hp hdown => exact (endTask_uneventful ht (.left hp hdown)).episodes
  | tick hl hdue => exact (tick_uneventful hl hdue).episodes
  | @halt l hl hdown =>
    exact (Uneventful.of_change (some (.loopStopped l.id l.group)) (.halt hl hdown) rfl rfl
      (fun _ => rfl) (Uneventful.same_tasks rfl) rfl (by simp [Happening.isRoutine])).episodes

/-! ## The runtime -/

/-- Stopping the runtime grants nothing and binds no name, and no handler notes anything down. -/
theorem stopRuntime_uneventful (hr : h.Reached) : h.Uneventful h.stopRuntime := by
  have hchanges : Changes (fun _ => True) h h.stopRuntime :=
    (stopRuntime_changes hr).1.mono fun _ _ => trivial
  cases hrun : h.runtime with
  | none =>
    have hsame : h.stopRuntime = h := by simp [stopRuntime, hrun]
    rw [hsame]
    exact .refl h
  | some r =>
    rw [stopRuntime_eq hr hrun] at hchanges ⊢
    have hlose := hr.loseAll (R := Uneventful) .refl .trans fun hm ht => lose_uneventful hm ht
    exact ⟨hchanges, hlose.subscriptions, hlose.preset, hlose.kinds, hlose.tasks, hlose.journal⟩

theorem startRuntime_uneventful (hr : h.Reached) : h.Uneventful h.startRuntime :=
  have hstop := stopRuntime_uneventful hr
  ⟨(startRuntime_changes hr).mono fun _ _ => trivial, hstop.subscriptions, hstop.preset,
    hstop.kinds, hstop.tasks, hstop.journal⟩

/-! ## Turns -/

/-- A command is a request like any other, unless it stops the runtime. -/
theorem obey_asked (hr : h.Reached) {c : Command} (hq : c.takesTime = false)
    (hs : c.stopsRuntime = false) : h.Asked (h.obey c).2 := by
  have hown : ∀ x ∈ ([] : List (Target × BusId)), h.isHeld x.2 = true := by simp
  have hloyal : h.Loyal [] := by simp [Loyal]
  cases c with
  | make name builder pinned => exact make_asked name rfl rfl
  | clone source name =>
    exact withBus_asked hr hown hloyal source _ fun b _ _ hb _ _ => hold_asked name hb
  | drop name => exact drop_asked name
  | subscribe target who outside => exact subscribeAt_asked hr hown hloyal target _ who
  | inspect name => exact .refl h
  | cancel name => exact cancelNamed_asked name
  | publish target event => exact publishTo_asked hr hown hloyal target event
  | close target => exact closeAt_asked hr hown hloyal target
  | count target type => exact countAt_asked hr hown hloyal target type
  | info target =>
    have hlocate := (locate_asked hloyal target).1
    simp only [obey, infoOf]
    split <;> exact hlocate
  | install source =>
    exact withBus_asked hr hown hloyal source _ fun b m _ hb _ _ => install_asked hb
  | surrender name => exact surrender_asked name
  | stopRuntime | startRuntime => exact absurd hs (by simp [Command.stopsRuntime])
  | advance ms => exact absurd hq (by simp [Command.takesTime])

theorem obey_episodes (hr : h.Reached) {c : Command} (hq : c.takesTime = false) :
    Episodes h (h.obey c).2 := by
  cases hs : c.stopsRuntime with
  | false => exact (obey_asked hr hq hs).episodes
  | true =>
    cases c with
    | stopRuntime => exact (stopRuntime_uneventful hr).episodes
    | startRuntime => exact (startRuntime_uneventful hr).episodes
    | _ => exact absurd hs (by simp [Command.stopsRuntime])

/-- **Every turn is told by episodes**, as long as handlers are loyal, which episodes keep. -/
theorem turn?_episodes (hr : h.Reached) (hloyal : ∀ t ∈ h.tasks, h.Loyal t.held) {u : Turn}
    (hu : h.turn? u = some h') : Episodes h h' := by
  cases turnStep_iff.mpr hu with
  | obey hquick => exact obey_episodes hr hquick
  | move hm => exact hm.episodes hr hloyal
  | pass hquiet hle halarms =>
    exact (Uneventful.of_change none (.pass hquiet hle halarms) rfl rfl
      (fun _ => rfl) (Uneventful.same_tasks rfl) rfl (by simp)).episodes

end Host

/-! ## Runs -/

open Host

namespace Episode

variable {h h' : Host}

/-- Episodes are made of changes, so they lead from reached states to reached states. -/
theorem changes (he : Episode h h') : Changes (fun _ => True) h h' := by
  cases he with
  | uneventful hu => exact hu.changes
  | settled _ hc _ => exact hc
  | subscribed name hg _ => exact hg.changes.trans (bind_changes trivial name _)
  | remarked haside _ _ => exact .single trivial (.aside haside)

/-- The default bus is fixed for good. -/
theorem preset (he : Episode h h') {b : BusId} (hb : h.preset = some b) : h'.preset = some b := by
  cases he with
  | uneventful hu => exact hu.preset.trans hb
  | settled hnone _ _ => exact absurd (hnone.symm.trans hb) (by simp)
  | subscribed _ hg _ => exact hg.preset.trans hb
  | remarked => exact hb

/-- Handlers stay loyal: a task has what it held before, or is new and brought loyal handles along.
-/
theorem loyal (he : Episode h h') (hloyal : ∀ t ∈ h.tasks, h.Loyal t.held) :
    ∀ t ∈ h'.tasks, h'.Loyal t.held := by
  intro t ht
  -- since the default is fixed for good, it is enough to be loyal before the episode
  suffices before : h.Loyal t.held from before.mono fun b => he.preset
  cases he with
  | uneventful hu =>
    obtain ⟨s, hs, hsame⟩ := hu.tasks t ht
    rw [hsame.held]
    exact hloyal s hs
  | settled | remarked => exact hloyal t ht
  | subscribed _ hg hheld =>
    rcases hg.tasks t ht with hs | hnew
    · exact hloyal t hs
    · rw [hnew]
      exact hheld

end Episode

namespace Episodes

/-- What holds in a reached state, and after every episode from a reached state in which it holds,
holds after any episodes. -/
theorem keeps {P : Host → Prop} {h h' : Host} (he : Episodes h h') (hr : h.Reached) (start : P h)
    (keeps : ∀ {m m' : Host}, m.Reached → P m → Episode m m' → P m') : P h' := by
  -- the induction needs that every state on the way is reached
  suffices both : h'.Reached ∧ P h' from both.2
  induction he with
  | refl => exact ⟨hr, start⟩
  | tail _ hlast ih => exact ⟨ih.1.changes hlast.changes, keeps ih.1 ih.2 hlast⟩

end Episodes

namespace Host

theorem initial_episodes (running : Bool) : Episodes {} (initial running) := by
  cases running with
  | false => exact .refl {}
  | true =>
    exact (Uneventful.of_change none (.start rfl) rfl rfl (fun _ => rfl)
      (Uneventful.same_tasks rfl) rfl (by simp)).episodes

theorem Run.episodes {h h' : Host} {ts : List Turn} (run : Run h ts h') (hr : h.Reached)
    (hloyal : ∀ t ∈ h.tasks, h.Loyal t.held) : Episodes h h' := by
  induction run with
  | nil h => exact .refl h
  | cons turn _ ih =>
    have hturn := turn?_episodes hr hloyal turn
    refine hturn.trans (ih ?_ ?_)
    · exact hr.changes (turn?_changes hr turn).changes
    · exact hturn.keeps (P := fun h => ∀ t ∈ h.tasks, h.Loyal t.held) hr hloyal
        fun _ before he => he.loyal before

/-- What runs reach, episodes reach from nothing. -/
theorem Reachable.episodes {h : Host} (hr : h.Reachable) : Episodes {} h := by
  obtain ⟨running, ts, run⟩ := hr
  have hnone : (initial running).tasks = [] := by cases running <;> rfl
  exact (initial_episodes running).trans
    (run.episodes (initial_reached running) (by simp [hnone]))

/-- What holds at the start and is kept by every episode holds in every reachable state. -/
theorem Reachable.of_episodes {P : Host → Prop} {h : Host} (hr : h.Reachable) (start : P {})
    (keeps : ∀ {m m' : Host}, m.Reached → P m → Episode m m' → P m') : P h :=
  hr.episodes.keeps (.refl {}) start keeps

/-- Whatever a handler holds as the default bus is the default bus. -/
theorem Reachable.loyal {h : Host} (hr : h.Reachable) : ∀ t ∈ h.tasks, h.Loyal t.held :=
  hr.of_episodes (P := fun h => ∀ t ∈ h.tasks, h.Loyal t.held) (by simp)
    fun _ before he => he.loyal before

end Host

end EventBus
