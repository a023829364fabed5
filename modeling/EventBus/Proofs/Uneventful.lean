import EventBus.Proofs.OffRuntime
import EventBus.Proofs.Ownership

/-!
# What is uneventful, and what comes of a subscription

The changes that a turn is made of do not tell who subscribed and what names are bound to it, which
handler a note comes from, or whether a flush loop is the first of its group. What does none of this
is *uneventful*: letting go, publishing, closing and cancelling are, and so is whatever a task or a
loop does on its own. A subscription that is refused is uneventful as well; `Granted` says what
comes of one that is granted.
-/

set_option autoImplicit false

namespace EventBus

namespace Happening

/-- What is entered neither on the occasion of a subscription, nor by a handler on its own. -/
def isRoutine : Happening → Bool
  | subscribed .. | loopStarted .. | acted .. | slept .. | reported .. => false
  | _ => true

end Happening

namespace Host

/-- From `h` to `h'` nobody subscribes, no loop is started, no handler notes anything down, and the
default bus is what it was. -/
structure Uneventful (h h' : Host) : Prop where
  changes : Changes (fun _ => True) h h'
  subscriptions : h'.subscriptions = h.subscriptions
  preset : h'.preset = h.preset
  kinds : ∀ g, h'.kind? g = h.kind? g
  tasks : ∀ t' ∈ h'.tasks, ∃ t ∈ h.tasks, t.Same t'
  journal : h.Tells (·.isRoutine = true) h'

variable {h m h' : Host}

namespace Uneventful

theorem same_tasks (ht : h'.tasks = h.tasks) : ∀ t' ∈ h'.tasks, ∃ t ∈ h.tasks, t.Same t' :=
  fun t hmem => ⟨t, ht ▸ hmem, rfl, rfl, rfl, rfl⟩

theorem refl (h : Host) : h.Uneventful h :=
  ⟨.refl h, rfl, rfl, fun _ => rfl, same_tasks rfl, .of_same rfl⟩

theorem trans (ha : h.Uneventful m) (hb : m.Uneventful h') : h.Uneventful h' where
  changes := ha.changes.trans hb.changes
  subscriptions := hb.subscriptions.trans ha.subscriptions
  preset := hb.preset.trans ha.preset
  kinds g := (hb.kinds g).trans (ha.kinds g)
  tasks t' ht' := by
    obtain ⟨s, hs, hlast⟩ := hb.tasks t' ht'
    obtain ⟨t, ht, hfirst⟩ := ha.tasks s hs
    exact ⟨t, ht, hlast.consumer.trans hfirst.consumer, hlast.runtime.trans hfirst.runtime,
      hlast.handler.trans hfirst.handler, hlast.held.trans hfirst.held⟩
  journal := ha.journal.trans hb.journal

/-- A change with one routine entry, or with none. -/
theorem of_change {n : Nature} (said : Option Happening) (hc : Change n h h')
    (hsubs : h'.subscriptions = h.subscriptions) (hpreset : h'.preset = h.preset)
    (hkinds : ∀ g, h'.kind? g = h.kind? g) (htasks : ∀ t' ∈ h'.tasks, ∃ t ∈ h.tasks, t.Same t')
    (hj : h'.journal = said.toList.map (⟨h.now, ·⟩) ++ h.journal)
    (hsaid : ∀ what ∈ said, what.isRoutine = true) : h.Uneventful h' :=
  ⟨.single trivial hc, hsubs, hpreset, hkinds, htasks, _, hj, by simpa using hsaid⟩

end Uneventful

/-! ## Uneventful operations -/

/-- A bus that is shut down keeps its bindings. -/
theorem kind?_release (gone : List BusId) (h : Host) (g : GroupRef) :
    (h.release gone).kind? g = h.kind? g :=
  release_of_abandon (·.kind? g) (fun h b => by rw [kind?, binding?_abandon, kind?]) gone h

/-- To let go of buses may shut some down, and no handler is told. -/
theorem release_uneventful (gone : List BusId) (h : Host) : h.Uneventful (h.release gone) where
  changes := release_changes trivial gone h
  subscriptions := release_of_abandon (·.subscriptions) (fun _ _ => rfl) gone h
  preset := release_of_abandon (·.preset) (fun _ _ => rfl) gone h
  kinds := kind?_release gone h
  tasks := Uneventful.same_tasks (tasks_release gone h)
  journal := .of_same (journal_release gone h)

theorem hold_uneventful (name : String) {b : BusId} (hb : h.isHeld b = true) :
    h.Uneventful (h.hold name b) :=
  have hlast := release_uneventful (h.handle? name).toList
    { h with handles := (name, b) :: h.otherHandles name }
  ⟨hold_changes trivial trivial name hb, hlast.subscriptions, hlast.preset, hlast.kinds,
    hlast.tasks, hlast.journal⟩

theorem drop_uneventful (name : String) : h.Uneventful (h.drop name) :=
  have hlast := release_uneventful (h.handle? name).toList
    { h with handles := h.otherHandles name }
  ⟨drop_changes trivial trivial name, hlast.subscriptions, hlast.preset, hlast.kinds, hlast.tasks,
    hlast.journal⟩

theorem make_uneventful (name : String) {bus : Bus} (hreg : bus.registry = .empty)
    (hstage : bus.stage = .active) : h.Uneventful (h.make name bus) :=
  have hlast := release_uneventful (h.handle? name).toList
    { h with buses := h.buses ++ [bus], handles := (name, h.buses.length) :: h.otherHandles name }
  ⟨make_changes trivial trivial name hreg hstage, hlast.subscriptions, hlast.preset,
    fun g => (hlast.kinds g).trans (by rw [kind?, h.binding?_append hreg, kind?]), hlast.tasks,
    hlast.journal⟩

/-- An event is queued or not, and its fate is entered. -/
theorem publish_uneventful (hr : h.Reached) {b : BusId} (hb : h.isHeld b = true) (event : Event) :
    h.Uneventful (h.publish b event) := by
  have hknown := hr.holdsSound.known b hb
  have hkinds : ∀ g, (h.publish b event).kind? g = h.kind? g := by
    intro g
    cases ha : h.accepts b event with
    | true =>
      rw [publish_of_accepts ha]
      exact h.kind?_modifyGroup _ _ g
    | false =>
      obtain ⟨fate, hfate⟩ := publish_of_not_accepts hknown ha
      rw [hfate]
      rfl
  have hchange : Change .gain h (h.publish b event) := .publish hb hknown
  obtain ⟨fate, buses, hframe⟩ := @publish_frame h b event hknown
  rw [hframe] at hkinds hchange ⊢
  exact .of_change (some (.published b event fate)) hchange rfl rfl hkinds
    (Uneventful.same_tasks rfl) rfl (by simp [Happening.isRoutine])

theorem close_uneventful {b : BusId} (hb : h.isHeld b = true) (hok : h.close b = .ok h') :
    h.Uneventful h' := by
  have hkinds : ∀ g, h'.kind? g = h.kind? g := fun g => by rw [kind?, binding?_close hok, kind?]
  have hchange : Change .loss h h' := .close hb hok
  obtain ⟨bus, -, -, rfl⟩ := close_eq_ok hok
  exact .of_change (some (.closed b bus.registry.size)) hchange rfl rfl hkinds
    (Uneventful.same_tasks rfl) rfl (by simp [Happening.isRoutine])

/-- The slot is stopped, and the task is there until it finds that out. -/
theorem cancel_uneventful (c : ConsumerRef) : h.Uneventful (h.cancel c) := by
  cases ha : h.isActive c with
  | false =>
    rw [cancel, if_neg (by simp [ha])]
    exact .refl h
  | true =>
    have hchange := Change.cancel ha
    rw [cancel_of_active ha] at hchange ⊢
    exact .of_change (some (.unsubscribed c)) hchange rfl rfl
      (h.kind?_modifyGroup c.group _) (Uneventful.same_tasks rfl) rfl
      (by simp [Happening.isRoutine])

/-- A step makes no task another's. -/
theorem same_of_setTask {t t' : Task} (ht : h.task? t.consumer = some t) (hs : t.Same t') :
    ∀ s' ∈ (h.setTask t').tasks, ∃ s ∈ h.tasks, s.Same s' := by
  intro s' hs'
  obtain ⟨s, hmem, rfl⟩ := List.mem_map.mp hs'
  split
  · exact ⟨t, mem_of_task? ht, hs⟩
  · exact ⟨s, hmem, rfl, rfl, rfl, rfl⟩

/-- **What a task does on its own is uneventful**, but for the actions of its handler. -/
theorem step_uneventful {t t' : Task} {n : Nature} {said : Option Happening}
    (ht : h.task? t.consumer = some t) (hs : t.Step (h.slot? t.consumer) n t' said) :
    h.Uneventful ((h.setTask t').say said) :=
  .of_change said (.step ht hs) rfl rfl (fun _ => rfl) (same_of_setTask ht hs.same) rfl
    (by cases hs <;> simp [Happening.isRoutine])

theorem eraseTask_same (h : Host) (c : ConsumerRef) :
    ∀ t' ∈ (h.eraseTask c).tasks, ∃ t ∈ h.tasks, t.Same t' :=
  fun t ht => ⟨t, (List.mem_filter.mp ht).1, rfl, rfl, rfl, rfl⟩

/-- So is its end, in whichever way it ends. -/
theorem endTask_uneventful {t : Task} {n : Nature} {what : Happening}
    (ht : h.task? t.consumer = some t) (he : h.Ending t n what) :
    h.Uneventful (h.endTask t what) := by
  refine Uneventful.trans (m := h.finish t what) ?_ (release_uneventful _ _)
  refine .of_change (some what) (.finish ht he) rfl rfl
    (((h.note what).eraseTask t.consumer).kind?_modifyGroup t.consumer.group _) ?_ rfl ?_
  · exact eraseTask_same (h.note what) t.consumer
  · cases he <;> simp [Happening.isRoutine]

theorem endJob_uneventful {t : Task} (ht : h.task? t.consumer = some t)
    (horphan : t.orphaned = true) : h.Uneventful (h.endJob t) :=
  have hover : h.Uneventful (h.eraseTask t.consumer) :=
    .of_change none (.endJob ht horphan) rfl rfl (fun _ => rfl) (eraseTask_same h _) rfl (by simp)
  hover.trans (release_uneventful _ _)

/-- A task that is dropped may go on as a job. -/
theorem lose_uneventful (hr : h.Reached) {t : Task} (ht : t ∈ h.attended) :
    h.Uneventful (h.lose t) := by
  obtain ⟨hmem, hlive⟩ := mem_attended.mp ht
  have hfound := hr.paired.task?_of_mem hmem
  unfold lose
  split
  · next hjob =>
    exact .of_change (some (.lost t.consumer t.handler.profile)) (.leaveJob hfound hlive hjob) rfl
      rfl (((h.note _).setTask t.orphan).kind?_modifyGroup t.consumer.group _)
      (same_of_setTask hfound ⟨rfl, rfl, rfl, rfl⟩) rfl (by simp [Happening.isRoutine])
  · next hjob => exact endTask_uneventful hfound (.lost hlive (by simpa using hjob))

/-! ## Subscriptions that are granted -/

/-- What is entered of the flush loop of a group `g` that is to get a consumer of `kind`: nothing if
it has one, and else that one is started, which tells whether the group is new. -/
inductive LoopNews (h : Host) (g : GroupRef) (kind : Kind) : Journal → Prop
  | running : (h.kind? g).isSome = true → LoopNews h g kind []
  | started (interval : Duration) : LoopNews h g kind
      [⟨h.now, .loopStarted h.loopsStarted g kind interval (h.kind? g).isNone⟩]

/-- What comes of a subscription that is granted to `c`. -/
structure Granted (h : Host) (b : BusId) (who : Subscriber Action) (held : List (Target × BusId))
    (c : ConsumerRef) (h' : Host) : Prop where
  group : c.group = ⟨b, who.type⟩
  changes : Changes (fun _ => True) h h'
  subscriptions : h'.subscriptions = h.subscriptions
  preset : h'.preset = h.preset
  kinds : ∀ g, h'.kind? g = if g = ⟨b, who.type⟩ then some who.kind else h.kind? g
  kept : ∀ t ∈ h.tasks, t ∈ h'.tasks
  tasks : ∀ t ∈ h'.tasks, t ∈ h.tasks ∨ t.held = held
  journal : ∃ lost loop : Journal, h.LoopNews ⟨b, who.type⟩ who.kind loop ∧
    (lost = [] ∨ lost = [⟨h.now, .lost c who.handler.profile⟩]) ∧
    h'.journal = lost ++ ⟨h.now, .subscribed c who.kind who.handler.profile⟩ :: (loop ++ h.journal)

/-- A subscription tells of a loop, of itself, and of a task that is dropped at once. None of that
is done by a task. -/
theorem Granted.quiet {b : BusId} {who : Subscriber Action} {held : List (Target × BusId)}
    {c : ConsumerRef} (hg : h.Granted b who held c h') : h.Tells (·.isOfTask = false) h' := by
  obtain ⟨lost, loop, hloop, hlost, hj⟩ := hg.journal
  refine ⟨lost ++ ⟨h.now, .subscribed c who.kind who.handler.profile⟩ :: loop, by simp [hj], ?_⟩
  rcases hlost with rfl | rfl <;> cases hloop <;> simp [Happening.isOfTask]

/-- A place is in a new group if the type was not bound. -/
theorem created_of_place {bus : Bus} {context : Option RuntimeId} {type : EventType} {kind : Kind}
    {p : Placement} (hp : bus.place context type kind = .ok p) :
    p.created = (bus.registry.binding? type).isNone ∧
      (bus.registry.binding? type = none → p.group = bus.newGroup type) := by
  unfold Bus.place at hp
  split at hp
  · exact absurd hp (by simp)
  · split at hp
    · exact absurd hp (by simp)
    · cases hb : bus.registry.binding? type with
      | none =>
        rw [Registry.getOrCreate_of_unbound hb] at hp
        obtain rfl := Except.ok.inj hp
        exact ⟨rfl, fun _ => rfl⟩
      | some binding =>
        rw [Registry.getOrCreate_of_bound hb] at hp
        by_cases hk : kind = binding.kind
        · subst hk
          rw [Registry.groupFor_same] at hp
          obtain rfl := Except.ok.inj hp
          exact ⟨rfl, fun hnone => absurd hnone (by simp)⟩
        · rw [Registry.groupFor_other hb hk] at hp
          exact absurd hp (by simp [Except.map, pure, Id.run])

theorem kind?_of_bus? {b : BusId} {bus : Bus} (hbus : h.bus? b = some bus) (type : EventType) :
    h.kind? ⟨b, type⟩ = (bus.registry.binding? type).map (·.kind) := by
  rw [kind?, binding?, hbus, Option.bind_some]

/-- The type has its kind from the place on, and no other type has one by it. -/
theorem kind?_of_place {b : BusId} {bus : Bus} {context : Option RuntimeId} {type : EventType}
    {kind : Kind} {p : Placement} (hbus : h.bus? b = some bus)
    (hp : bus.place context type kind = .ok p) (g : GroupRef) :
    (h.modifyBus b fun bus => { bus with registry := p.registry }).kind? g =
      if g = ⟨b, type⟩ then some kind else h.kind? g := by
  obtain ⟨-, ⟨hreg, hbind⟩ | ⟨fresh, -, hreg⟩⟩ := Bus.place_eq_ok hp
  · rw [modifyBus_self hbus (by rw [hreg])]
    split
    · next hg => rw [hg, kind?_of_bus? hbus, hbind, Option.map_some]
    · rfl
  · rw [hreg, kind?, binding?_bindType h hbus]
    split
    · rfl
    · rfl

/-- A group is made without a loop, so it is only a group that was there that may have one. -/
theorem loopNews_of_place {b : BusId} {bus : Bus} {context : Option RuntimeId} {type : EventType}
    {kind : Kind} {p : Placement} (hbus : h.bus? b = some bus)
    (hp : bus.place context type kind = .ok p) (interval : Duration) :
    h.LoopNews ⟨b, type⟩ kind (if h.hasLoop p.group then [] else
      [⟨h.now, .loopStarted h.loopsStarted ⟨b, type⟩ kind interval p.created⟩]) := by
  obtain ⟨hcreated, hnew⟩ := created_of_place hp
  have hkind := kind?_of_bus? hbus type
  cases hloop : h.hasLoop p.group with
  | true =>
    refine .running ?_
    rw [hkind, Option.isSome_map, Option.isSome_iff_ne_none]
    intro hnone
    rw [hasLoop, hnew hnone] at hloop
    exact absurd hloop (by simp [Bus.newGroup, Group.empty])
  | false =>
    have hsame : p.created = (h.kind? ⟨b, type⟩).isNone := by
      rw [hcreated, hkind, Option.isNone_map]
    rw [if_neg (by simp), hsame]
    exact .started interval

/-- `h'` is `h` with the group `g` bound to `kind` and provided with a flush loop. -/
structure Prepared (h : Host) (g : GroupRef) (kind : Kind) (h' : Host) : Prop where
  changes : Changes (· = .plain) h h'
  now : h'.now = h.now
  subscriptions : h'.subscriptions = h.subscriptions
  preset : h'.preset = h.preset
  tasks : h'.tasks = h.tasks
  kinds : ∀ other, h'.kind? other = if other = g then some kind else h.kind? other
  journal : ∃ loop, h.LoopNews g kind loop ∧ h'.journal = loop ++ h.journal

/-- **A place prepares its group**: the type is bound, and a loop is started if there is none. -/
theorem prepared_of_place (hr : h.Reached) {b : BusId} {bus : Bus} (hb : h.isHeld b = true)
    (hbus : h.bus? b = some bus) {context : Option RuntimeId} {type : EventType} {kind : Kind}
    {p : Placement} (hp : bus.place context type kind = .ok p) :
    h.Prepared ⟨b, type⟩ kind
      ((h.modifyBus b fun bus => { bus with registry := p.registry }).ensureLoop ⟨b, type⟩ kind
        bus.flushInterval p) := by
  obtain ⟨hbind, hbinding, -⟩ := bind_place hb hbus hp
  have hgroup : (h.modifyBus b fun bus => { bus with registry := p.registry }).group? ⟨b, type⟩ =
      some p.group := by
    rw [group?_eq_binding?, hbinding]
    rfl
  have hevery : (h.modifyBus b fun bus => { bus with registry := p.registry }).interval? b =
      some bus.flushInterval := by
    rw [interval?, bus?_modifyBus, if_pos rfl, hbus]
    rfl
  have hchanges := hbind.trans (ensureLoop_changes (hr.changes hbind) kind hgroup hevery).1
  have hkinds := fun other => (kind?_ensureLoop ⟨b, type⟩ other kind bus.flushInterval p).trans
    (kind?_of_place hbus hp other)
  have hnews := loopNews_of_place hbus hp bus.flushInterval
  have hsame : (h.modifyBus b fun bus => { bus with registry := p.registry }).hasLoop p.group =
    h.hasLoop p.group := rfl
  -- a group that has its loop keeps it, and one that has none gets one
  cases hloop : h.hasLoop p.group with
  | true =>
    rw [hloop] at hnews hsame
    rw [ensureLoop, if_pos hsame] at hchanges hkinds ⊢
    exact ⟨hchanges, rfl, rfl, rfl, rfl, hkinds, [], hnews, rfl⟩
  | false =>
    rw [hloop] at hnews hsame
    rw [ensureLoop_of_idle hsame] at hchanges hkinds ⊢
    exact ⟨hchanges, rfl, rfl, rfl, rfl, hkinds, _, hnews, rfl⟩

/-- The id that a group gives next was not given before. -/
theorem not_given_attach (g : GroupRef) (kind : Kind) : ¬h.Given (h.attach g).1 kind := by
  rintro ⟨s, hs, -, hlt⟩
  obtain ⟨binding, hb, rfl⟩ := Option.map_eq_some_iff.mp hs
  have hgroup : h.group? g = some binding.group := by
    rw [group?_eq_binding?]
    exact Option.map_eq_some_iff.mpr ⟨binding, hb, rfl⟩
  simp only [attach, hgroup, Option.map_some, Option.getD_some] at hlt
  exact absurd hlt (Nat.lt_irrefl _)

/-- A task that is put in line, on a runtime that may be gone. -/
theorem spawn_news (t : Task) :
    (h.spawn t).subscriptions = h.subscriptions ∧ (h.spawn t).preset = h.preset ∧
      (∀ g, (h.spawn t).kind? g = h.kind? g) ∧
      (∀ s ∈ (h.spawn t).tasks, s ∈ h.tasks ∨ s = t) ∧
      (∀ s ∈ h.tasks, s.consumer ≠ t.consumer → s ∈ (h.spawn t).tasks) ∧
      ∃ lost, (lost = [] ∨ lost = [⟨h.now, .lost t.consumer t.handler.profile⟩]) ∧
        (h.spawn t).journal = lost ++ h.journal := by
  unfold spawn
  split
  · refine ⟨rfl, rfl, fun _ => rfl, fun s hs => ?_, fun s hs _ => List.mem_append_left _ hs, [],
      .inl rfl, rfl⟩
    simpa using hs
  · have hlast := release_uneventful (t.held.map Prod.snd)
      (finish { h with tasks := h.tasks ++ [t] } t (.lost t.consumer t.handler.profile))
    refine ⟨hlast.subscriptions, hlast.preset, fun g => ?_, fun s hs => ?_, fun s hs hne => ?_,
      _, .inr rfl, journal_release _ _⟩
    · exact (hlast.kinds g).trans (Host.kind?_modifyGroup _ t.consumer.group _ g)
    · rw [endTask, tasks_release] at hs
      have hmem : s ∈ h.tasks ++ [t] := (List.mem_filter.mp hs).1
      simpa using hmem
    · rw [endTask, tasks_release]
      exact List.mem_filter.mpr ⟨List.mem_append_left _ hs, by simpa using hne⟩

/-- In a group that is prepared the subscription is granted. -/
theorem Prepared.granted (hr : h.Reached) {b : BusId} {who : Subscriber Action}
    (hp : h.Prepared ⟨b, who.type⟩ who.kind m) (runtime : RuntimeId)
    (held : List (Target × BusId)) {t : Task}
    (ht : m.newcomer ⟨b, who.type⟩ runtime who.handler held = t)
    (hs : ((m.modifyGroup t.consumer.group (·.attach.2)).note
      (.subscribed t.consumer who.kind t.handler.profile)).spawn t = h')
    (hchanges : Changes (fun _ => True) h h') : h.Granted b who held t.consumer h' := by
  obtain ⟨hsubs, hpreset, hkinds, htasks, hkept, lost, hlost, hj⟩ :=
    spawn_news (h := (m.modifyGroup t.consumer.group (·.attach.2)).note
      (.subscribed t.consumer who.kind t.handler.profile)) t
  rw [hs] at hsubs hpreset hkinds htasks hkept hj
  subst ht
  obtain ⟨loop, hloop, hmj⟩ := hp.journal
  refine ⟨rfl, hchanges, hsubs.trans hp.subscriptions, hpreset.trans hp.preset, fun g => ?_,
    fun s hs => hkept s (hp.tasks.symm ▸ hs) ?_, fun s hs => ?_, lost, loop, hloop, ?_, ?_⟩
  · exact (hkinds g).trans ((m.kind?_modifyGroup _ _ g).trans (hp.kinds g))
  · -- the consumer of a task was given its id before
    intro hsame
    obtain ⟨kind, hgiven⟩ := hr.given_of_mem s hs
    exact not_given_attach _ kind (hsame ▸ hp.changes.given hgiven)
  · rcases htasks s hs with hs | rfl
    · exact .inl (hp.tasks ▸ hs)
    · exact .inr rfl
  · rw [← hp.now]
    exact hlost
  · rw [hj, ← hmj, ← hp.now]
    rfl

/-- **A subscription that is answered by a consumer is granted.** -/
theorem granted_of_subscribe (hr : h.Reached) {b : BusId} (hb : h.isHeld b = true)
    {context : Option RuntimeId} {who : Subscriber Action} {held : List (Target × BusId)}
    (hheld : ∀ x ∈ held, h.isHeld x.2 = true) {c : ConsumerRef}
    (hs : h.subscribe b context who held = (.ok c, h')) : h.Granted b who held c h' := by
  have hchanges : Changes (fun _ => True) h (h.subscribe b context who held).2 :=
    subscribe_changes hr trivial trivial hb context who hheld
  rw [hs] at hchanges
  cases hbus : h.bus? b with
  | none => simp [subscribe, hbus] at hs
  | some bus =>
    cases hp : bus.place context who.type who.kind with
    | error fault => simp [subscribe, hbus, hp] at hs
    | ok p =>
      have hafter := subscribe_of_place hbus hp held
      have hprepared := prepared_of_place hr hb hbus hp
      have hc : (h.subscribe b context who held).1 = .ok
          (((h.modifyBus b fun bus => { bus with registry := p.registry }).ensureLoop
            ⟨b, who.type⟩ who.kind bus.flushInterval p).newcomer ⟨b, who.type⟩ p.runtime
              who.handler held).consumer := by
        simp only [subscribe, hbus, hp, newcomer]
      rw [hs] at hafter hc
      obtain rfl := Except.ok.inj hc
      exact hprepared.granted hr p.runtime held rfl hafter.symm hchanges

/-- A subscription that is refused is uneventful. -/
theorem uneventful_of_refused {b : BusId} {context : Option RuntimeId} {who : Subscriber Action}
    {held : List (Target × BusId)} {fault : Fault}
    (hs : h.subscribe b context who held = (.error fault, h')) : h.Uneventful h' := by
  unfold subscribe at hs
  split at hs
  · obtain ⟨-, rfl⟩ := Prod.mk.inj hs
    exact release_uneventful _ h
  · split at hs
    · next fault' _ =>
      obtain ⟨-, rfl⟩ := Prod.mk.inj hs
      cases fault' with
      | conflict =>
        refine Uneventful.trans (m := h.note _) (.of_change (some _) (.aside ?_) rfl rfl
          (fun _ => rfl) (Uneventful.same_tasks rfl) rfl ?_) (release_uneventful _ _)
        · rfl
        · simp [Happening.isRoutine]
      | closed | noRuntime | alreadyInstalled => exact release_uneventful _ h
    · exact absurd (Prod.mk.inj hs).1 (by simp)

end Host

end EventBus
