import EventBus.Proofs.Apart
import Mathlib.Data.Option.Basic

/-!
# A program without one of its consumers

A consumer that keeps to itself may be taken out of a program, and the program goes on as before:
whatever is asked of both, what becomes of the one without the consumer is what becomes of the
other, apart from the consumer. `Shadow` relates the two, and each request keeps it.
-/

set_option autoImplicit false

namespace EventBus

namespace Host

/-- Whether a question, put by somebody who holds `own`, is about `c`: how many there are in its
group, or whether it is active itself. -/
def asksAbout (h : Host) (own : List (Target × BusId)) (c : ConsumerRef) : Question → Bool
  | .count target type => (h.locate own target).1 == some c.group.bus && type == c.group.type
  | .status name => h.subscription? name == some c

/-! ## A program and its shadow -/

/-- `k` is what `h` is without `c`, which keeps to itself. -/
structure Shadow (c : ConsumerRef) (h k : Host) : Prop where
  now : k.now = h.now
  runtime : k.runtime = h.runtime
  runtimes : k.runtimes = h.runtimes
  buses : ∀ b, k.bus? b = (h.bus? b).map (·.apart b c)
  length : k.buses.length = h.buses.length
  handles : k.handles = h.handles
  preset : k.preset = h.preset
  subscriptions : k.subscriptions = h.subscriptions
  tasks : k.tasks = h.tasks.filter (·.consumer ≠ c)
  loops : k.loops = h.loops
  loopsStarted : k.loopsStarted = h.loopsStarted
  journal : k.journal.apart c = h.journal.apart c
  -- What the consumer does asks nothing of the others, and its id is not given again.
  own : ∀ t ∈ h.tasks, t.consumer = c → t.Private
  known : ∃ group, h.group? c.group = some group ∧ c.id < group.nextId

namespace Shadow

variable {c : ConsumerRef} {h k : Host}

/-! ### What is looked up in the shadow -/

section

variable (sh : Shadow c h k)

include sh

/-- The groups of the shadow are those of the program apart from the consumer. -/
theorem group? (g : GroupRef) : k.group? g = (h.group? g).map (·.apart g c) := by
  rw [Host.group?, Host.group?, sh.buses]
  cases h.bus? g.bus with
  | none => rfl
  | some bus =>
    show ((bus.registry.apart g.bus c).binding? g.type).map _ = _
    rw [Registry.binding?_apart, Option.map_map]
    simp only [Option.bind_some, Registry.group?, Option.map_map]
    rfl

/-- The same buses are down. -/
theorem isDown (b : BusId) : k.isDown b = h.isDown b := by
  rw [Host.isDown, Host.isDown, sh.buses, Option.map_map]
  rfl

/-- The same buses are held: a consumer that keeps to itself holds none. -/
theorem isHeld (b : BusId) : k.isHeld b = h.isHeld b := by
  have hany : (h.tasks.filter (·.consumer ≠ c)).any (fun t => t.held.any (·.2 == b)) =
      h.tasks.any fun t => t.held.any (·.2 == b) := by
    have hown := sh.own
    -- by induction on the tasks: what is left out holds no bus
    generalize h.tasks = ts at hown ⊢
    induction ts with
    | nil => rfl
    | cons t rest ih =>
      have ih := ih fun s hs => hown s (List.mem_cons_of_mem _ hs)
      by_cases ht : t.consumer = c
      · have hheld := (hown t List.mem_cons_self ht).held
        simp [ht, hheld, ← ih]
      · simp [ht, ← ih]
  rw [Host.isHeld, Host.isHeld, sh.handles, sh.preset, sh.tasks, hany]

/-- Everybody else has the same task. -/
theorem task? {d : ConsumerRef} (hd : d ≠ c) : k.task? d = h.task? d := by
  have hsame : k.task? d = (h.eraseTask c).task? d := by rw [Host.task?, sh.tasks]; rfl
  rw [hsame, task?_eraseTask, if_neg hd]

theorem loop? (l : LoopId) : k.loop? l = h.loop? l := by
  rw [Host.loop?, sh.loops, Host.loop?]

/-- Everybody else has the same slot. -/
theorem slot? {d : ConsumerRef} (hd : d ≠ c) : k.slot? d = h.slot? d := by
  rw [Host.slot?, sh.group?, Host.slot?]
  cases h.group? d.group with
  | none => rfl
  | some group =>
    exact Group.slot?_apart fun hg hid => hd (ConsumerRef.ext hg hid)

/-- Everybody else is active or not, as before. -/
theorem isActive {d : ConsumerRef} (hd : d ≠ c) : k.isActive d = h.isActive d := by
  rw [Host.isActive, sh.group?, Host.isActive]
  cases h.group? d.group with
  | none => rfl
  | some group =>
    exact Group.isLive_apart fun hg hid => hd (ConsumerRef.ext hg hid)

/-- Whether a group has a loop does not depend on who is in it. -/
theorem hasLoop {group group' : Group Event} (hf : group'.flusher = group.flusher) :
    k.hasLoop group' = h.hasLoop group := by
  rw [Host.hasLoop, Host.hasLoop, hf]
  cases group.flusher with
  | none => rfl
  | some l => exact congrArg Option.isSome (sh.loop? l)

end

/-! ### Changes of the parts -/

section

variable (sh : Shadow c h k)

include sh

/-- What is entered on both sides is to be the same apart from the consumer. -/
theorem note {what what' : Happening} (hw : what'.apart? c = what.apart? c) :
    Shadow c (h.note what) (k.note what') :=
  { sh with
    journal := by
      show Journal.apart (⟨k.now, what'⟩ :: k.journal) c =
        Journal.apart (⟨h.now, what⟩ :: h.journal) c
      rw [Journal.apart_cons, Journal.apart_cons, hw, sh.now, sh.journal] }

/-- What happens to the consumer itself has no counterpart. -/
theorem note_own {what : Happening} (hw : what.who? = some c) : Shadow c (h.note what) k :=
  { sh with
    journal := by
      show k.journal.apart c = Journal.apart (⟨h.now, what⟩ :: h.journal) c
      rw [Journal.apart_cons, Happening.apart?_of_who? hw, sh.journal]
      rfl }

/-- A change of a bus that commutes with leaving the consumer out. It has to keep the group of the
consumer, or no shadow would know that its id was given. -/
theorem modifyBus (b : BusId) {f f' : Bus → Bus}
    (hf : ∀ bus, h.bus? b = some bus → (f bus).apart b c = f' (bus.apart b c))
    (hgrows : ∀ bus, h.bus? b = some bus → bus.registry.Grows (f bus).registry) :
    Shadow c (h.modifyBus b f) (k.modifyBus b f') :=
  { sh with
    buses := by
      intro other
      rw [bus?_modifyBus, bus?_modifyBus, sh.buses]
      split
      · next hb =>
        subst hb
        cases hbus : h.bus? other with
        | none => rfl
        | some bus => exact congrArg some (hf bus hbus).symm
      · rfl
    length := (Change.length_modifyBus k b f').trans
      (sh.length.trans (Change.length_modifyBus h b f).symm)
    known := by
      obtain ⟨group, hg, hid⟩ := sh.known
      rw [Host.group?, bus?_modifyBus]
      split
      · next hb =>
        rw [Host.group?] at hg
        obtain ⟨bus, hbus, hgroup⟩ := Option.bind_eq_some_iff.mp hg
        -- the group is still there, and has taken back no id
        obtain ⟨group', hgroup', hle⟩ := hgrows bus (hb ▸ hbus) _ _ hgroup
        refine ⟨group', ?_, Nat.lt_of_lt_of_le hid hle⟩
        rw [hbus, Option.map_some, Option.bind_some, hgroup']
      · exact ⟨group, hg, hid⟩ }

/-- A change of a group that commutes with leaving the consumer out, and takes back no id. -/
theorem modifyGroup (g : GroupRef) (f f' : Group Event → Group Event)
    (hf : ∀ group, h.group? g = some group → (f group).apart g c = f' (group.apart g c))
    (hid : ∀ group, h.group? g = some group → group.nextId ≤ (f group).nextId) :
    Shadow c (h.modifyGroup g f) (k.modifyGroup g f') := by
  have hgroup : ∀ {bus group}, h.bus? g.bus = some bus → bus.registry.group? g.type = some group →
      h.group? g = some group := by
    intro bus group hbus hg
    rw [Host.group?, hbus, Option.bind_some, hg]
  refine sh.modifyBus g.bus (fun bus hbus => ?_) fun bus hbus => ?_
  · have hregistry : (bus.registry.modifyGroup g.type f).apart g.bus c =
        (bus.registry.apart g.bus c).modifyGroup g.type f' :=
      bus.registry.apart_modifyGroup g.bus c fun group hg => hf group (hgroup hbus hg)
    show ({ bus with registry := (bus.registry.modifyGroup g.type f).apart g.bus c } : Bus) = _
    rw [hregistry]
    rfl
  · exact bus.registry.grows_modifyGroup fun group hg => hid group (hgroup hbus hg)

/-- A change that concerns neither a group nor the registry of a bus. -/
theorem modifyStage (b : BusId) {f : Bus → Bus} (hf : ∀ bus, (f bus).registry = bus.registry)
    (hcomm : ∀ bus, (f bus).apart b c = f (bus.apart b c)) :
    Shadow c (h.modifyBus b f) (k.modifyBus b f) :=
  sh.modifyBus b (fun bus _ => hcomm bus) fun bus _ => by
    rw [hf]
    exact fun _ group hg => ⟨group, hg, Nat.le_refl _⟩

/-- The task of another one goes on in the shadow as well. -/
theorem setTask {t : Task} (ht : t.consumer ≠ c) : Shadow c (h.setTask t) (k.setTask t) :=
  { sh with
    tasks := by
      show k.tasks.map _ = (h.tasks.map _).filter _
      rw [sh.tasks, List.filter_map]
      congr 1
      refine List.filter_congr fun s _ => ?_
      by_cases hs : s.consumer = t.consumer <;> simp [hs]
    own := by
      intro s hs hc
      obtain ⟨s', hs', rfl⟩ := List.mem_map.mp hs
      split at hc
      · exact absurd hc ht
      · next hne =>
        rw [if_neg hne]
        exact sh.own s' hs' hc }

/-- Whoever ends, ends in the shadow, too, if there at all. -/
theorem eraseTask (d : ConsumerRef) : Shadow c (h.eraseTask d) (k.eraseTask d) :=
  { sh with
    tasks := by
      show k.tasks.filter _ = (h.tasks.filter _).filter _
      rw [sh.tasks, List.filter_filter, List.filter_filter]
      exact List.filter_congr fun s _ => Bool.and_comm _ _
    own := fun s hs => sh.own s (List.mem_filter.mp hs).1 }

/-- The consumer has no task in the shadow that could end. -/
theorem eraseTask_own : Shadow c (h.eraseTask c) k :=
  { sh with
    tasks := by
      show _ = (h.tasks.filter _).filter _
      rw [sh.tasks, List.filter_filter]
      exact List.filter_congr fun s _ => (Bool.and_self _).symm
    own := fun s hs => sh.own s (List.mem_filter.mp hs).1 }

/-- A task that is put in line for another one is put in line in the shadow. -/
theorem addTask {t : Task} (ht : t.consumer ≠ c) :
    Shadow c { h with tasks := h.tasks ++ [t] } { k with tasks := k.tasks ++ [t] } :=
  { sh with
    tasks := by
      show k.tasks ++ [t] = (h.tasks ++ [t]).filter _
      rw [sh.tasks, List.filter_append]
      simp [ht]
    own := by
      intro s hs hc
      rcases List.mem_append.mp hs with hs | hs
      · exact sh.own s hs hc
      · exact absurd hc (List.mem_singleton.mp hs ▸ ht) }

/-- A tick wakes the others in the shadow. If it wakes the consumer, nothing of that is seen. -/
theorem wake (g : GroupRef) : Shadow c (h.wake g) (k.wake g) :=
  { sh with
    tasks := by
      show k.tasks.map _ = (h.tasks.map _).filter _
      rw [sh.tasks, List.filter_map]
      congr 1
      refine List.filter_congr fun s _ => ?_
      simp only [Function.comp_apply]
      split <;> simp
    own := by
      intro s hs hc
      obtain ⟨s', hs', rfl⟩ := List.mem_map.mp hs
      split at hc
      · next hg =>
        rw [if_pos hg]
        exact (sh.own s' hs' (s'.consumer_wake ▸ hc)).wake
      · next hg =>
        rw [if_neg hg]
        exact sh.own s' hs' hc }

end

/-! ### Handles -/

section

variable (sh : Shadow c h k)

include sh

/-- A bus that is given up is shut down in both. -/
theorem abandon (b : BusId) : Shadow c (h.abandon b) (k.abandon b) :=
  sh.modifyStage b (fun bus => by rw [Bus.abandon]; split <;> rfl) fun bus => bus.abandon_apart b c

omit sh in
/-- Letting go of buses shuts the same ones down in both, one after the other. -/
theorem release (gone : List BusId) :
    ∀ {h k : Host}, Shadow c h k → Shadow c (h.release gone) (k.release gone) := by
  induction gone with
  | nil => exact fun sh => sh
  | cons b rest ih =>
    intro h k sh
    have hfirst : Shadow c (if h.isHeld b then h else h.abandon b)
        (if k.isHeld b then k else k.abandon b) := by
      rw [sh.isHeld]
      split
      · exact sh
      · exact sh.abandon b
    exact ih hfirst

theorem setPreset (preset : Option BusId) : Shadow c { h with preset } { k with preset } :=
  { sh with preset := rfl }

theorem setHandles (handles : List (String × BusId)) :
    Shadow c { h with handles } { k with handles } :=
  { sh with handles := rfl }

/-- A new bus has the same number, and no group yet. -/
theorem addBus {bus : Bus} (hr : bus.registry = .empty) :
    (k.addBus bus).1 = (h.addBus bus).1 ∧ Shadow c (h.addBus bus).2 (k.addBus bus).2 := by
  have hbus : ∀ (h : Host) (b : BusId), (h.addBus bus).2.bus? b =
      if b = h.buses.length then some bus else h.bus? b :=
    fun h b => h.bus?_append bus b h.handles h.preset
  refine ⟨sh.length, { sh with buses := fun b => ?_, length := ?_, known := ?_ }⟩
  · rw [hbus, hbus, sh.length]
    split
    · rw [Option.map_some, Bus.apart_of_registry_empty b c hr]
    · exact sh.buses b
  · show (k.buses ++ [bus]).length = (h.buses ++ [bus]).length
    rw [List.length_append, List.length_append, sh.length]
  · obtain ⟨group, hg, hid⟩ := sh.known
    refine ⟨group, ?_, hid⟩
    rw [group?_eq_binding?] at hg ⊢
    rw [← hg]
    exact congrArg _ (h.binding?_append hr h.handles h.preset c.group)

/-- Both make the default bus, or both have it. -/
theorem useDefault :
    k.useDefault.1 = h.useDefault.1 ∧ Shadow c h.useDefault.2 k.useDefault.2 := by
  unfold Host.useDefault
  rw [sh.preset]
  split
  · exact ⟨rfl, sh⟩
  · -- the default bus that is made is a new bus like any other
    obtain ⟨hid, hadd⟩ : (k.addBus {}).1 = (h.addBus {}).1 ∧ Shadow c _ _ := sh.addBus rfl
    refine ⟨hid, ?_⟩
    show Shadow c { (h.addBus {}).2 with preset := some (h.addBus {}).1 }
      { (k.addBus {}).2 with preset := some (k.addBus {}).1 }
    rw [hid]
    exact hadd.setPreset _

theorem handle? (name : String) : k.handle? name = h.handle? name := by
  rw [Host.handle?, sh.handles, Host.handle?]

theorem otherHandles (name : String) : k.otherHandles name = h.otherHandles name := by
  rw [Host.otherHandles, sh.handles, Host.otherHandles]

/-- Binding a name to a bus lets go of the same bus in both. -/
theorem hold (name : String) (b : BusId) : Shadow c (h.hold name b) (k.hold name b) := by
  unfold Host.hold
  rw [sh.otherHandles, sh.handle?]
  exact release _ (sh.setHandles _)

theorem drop (name : String) : Shadow c (h.drop name) (k.drop name) := by
  unfold Host.drop
  rw [sh.otherHandles, sh.handle?]
  exact release _ (sh.setHandles _)

theorem make (name : String) {bus : Bus} (hr : bus.registry = .empty) :
    Shadow c (h.make name bus) (k.make name bus) := by
  obtain ⟨hid, hadd⟩ := sh.addBus hr
  unfold Host.make
  simp only [hid]
  exact hadd.hold name _

/-! ### Finding a bus -/

/-- A target stands for the same bus in both. -/
theorem locate (own : List (Target × BusId)) (target : Target) :
    (k.locate own target).1 = (h.locate own target).1 ∧
      Shadow c (h.locate own target).2 (k.locate own target).2 := by
  unfold Host.locate
  split
  · exact ⟨rfl, sh⟩
  · split
    · exact ⟨sh.handle? _, sh⟩
    · exact ⟨congrArg some sh.useDefault.1, sh.useDefault.2⟩

omit sh in
/-- So do several targets, which are looked for one after the other. -/
theorem locateAll (own : List (Target × BusId)) (targets : List Target) :
    ∀ {h k : Host}, Shadow c h k →
      (k.locateAll own targets).1 = (h.locateAll own targets).1 ∧
        Shadow c (h.locateAll own targets).2 (k.locateAll own targets).2 := by
  induction targets with
  | nil => exact fun sh => ⟨rfl, sh⟩
  | cons target rest ih =>
    intro h k sh
    obtain ⟨hfound, hfirst⟩ := sh.locate own target
    obtain ⟨hothers, hrest⟩ := ih hfirst
    exact ⟨congrArg₂ (fun x xs => (x.map (target, ·)).toList ++ xs) hfound hothers, hrest⟩

end

/-- What is answered to a program and to its shadow, with the state after it. -/
structure Echo (c : ConsumerRef) (x y : Answer × Host) : Prop where
  answer : y.1.apart c = x.1.apart c
  shadow : Shadow c x.2 y.2

/-- The same answer is an echo. -/
theorem Echo.of_eq {x y : Answer × Host} (ha : y.1 = x.1) (sh : Shadow c x.2 y.2) : Echo c x y :=
  ⟨congrArg (Answer.apart c) ha, sh⟩

section

variable (sh : Shadow c h k)

include sh

theorem install (b : BusId) : Echo c (acknowledged (h.install b)) (acknowledged (k.install b)) := by
  unfold Host.install
  rw [sh.preset]
  cases h.preset with
  | some _ => exact .of_eq rfl (release [b] sh)
  | none => exact .of_eq rfl (sh.setPreset _)

theorem surrender (name : String) : Echo c (h.surrender name) (k.surrender name) := by
  unfold Host.surrender
  rw [sh.handle?, sh.otherHandles]
  cases h.handle? name with
  | none => exact .of_eq rfl sh
  | some b => exact (sh.setHandles _).install b

/-- A request on a target is echoed if what is done with the bus is. -/
theorem withBus (own : List (Target × BusId)) (target : Target) {f : BusId → Host → Answer × Host}
    (hf : ∀ (b : BusId) {h k : Host}, Shadow c h k → Echo c (f b h) (f b k)) :
    Echo c (h.withBus own target f) (k.withBus own target f) := by
  obtain ⟨hfound, hlocate⟩ := sh.locate own target
  unfold Host.withBus
  generalize h.locate own target = x at hfound hlocate
  generalize k.locate own target = y at hfound hlocate
  obtain ⟨found, h'⟩ := x
  obtain ⟨found', k'⟩ := y
  obtain rfl : found' = found := hfound
  cases found' with
  | none => exact .of_eq rfl hlocate
  | some b => exact hf b hlocate

/-! ### Publishing, closing, asking and cancelling -/

/-- Publishing does the same to all others. That the consumer is left out changes no fate: an event
is accepted when its type is bound, with consumers or without. -/
theorem publish (b : BusId) (event : Event) :
    Shadow c (h.publish b event) (k.publish b event) := by
  unfold Host.publish
  rw [sh.buses]
  cases hbus : h.bus? b with
  | none => exact sh
  | some bus =>
    simp only [Option.map_some]
    rw [bus.publish_apart]
    -- the fate is the same on both sides, so the entry is
    refine Shadow.note (sh.modifyBus b (fun _ _ => rfl) fun bus' hbus' => ?_) rfl
    obtain rfl := Option.some.inj (hbus.symm.trans hbus')
    exact bus.grows_publish event

theorem publishTo (own : List (Target × BusId)) (target : Target) (event : Event) :
    Echo c (h.publishTo own target event) (k.publishTo own target event) :=
  sh.withBus own target fun b _ _ sh => .of_eq rfl (sh.publish b event)

theorem countdownTo (own : List (Target × BusId)) (target : Target) (event : Event) :
    Echo c (h.countdownTo own target event) (k.countdownTo own target event) := by
  refine sh.withBus own target fun b h k sh => ?_
  cases event.number? with
  | none => exact .of_eq rfl sh
  | some n =>
    refine .of_eq rfl ?_
    show Shadow c (if 0 < n then h.publish b _ else h) (if 0 < n then k.publish b _ else k)
    split
    · exact sh.publish b _
    · exact sh

/-- Both buses are open, or neither is. -/
theorem closeAt (own : List (Target × BusId)) (target : Target) :
    Echo c (h.closeAt own target) (k.closeAt own target) := by
  refine sh.withBus own target fun b h k sh => ?_
  unfold Host.close
  rw [sh.buses]
  cases hbus : h.bus? b with
  | none => exact .of_eq rfl sh
  | some bus =>
    simp only [Option.map_some, bus.close_apart]
    cases hclose : bus.close with
    | error fault => exact .of_eq rfl sh
    | ok closed =>
      have hregistry := Bus.registry_close hclose
      refine .of_eq rfl (Shadow.note (sh.modifyBus b (fun _ _ => rfl) fun bus' hbus' => ?_) ?_)
      · obtain rfl := Option.some.inj (hbus.symm.trans hbus')
        rw [hregistry]
        exact fun _ group hg => ⟨group, hg, Nat.le_refl _⟩
      · simp [Bus.apart]

/-- The shadow may count one consumer less. -/
theorem countAt (own : List (Target × BusId)) (target : Target) (type : EventType) :
    Echo c (h.countAt own target type) (k.countAt own target type) :=
  sh.withBus own target fun _ _ _ sh => ⟨rfl, sh⟩

/-- A bus counts the same without the consumer, but in the consumer's own group. -/
theorem count_of_other {b : BusId} {type : EventType} (hg : (⟨b, type⟩ : GroupRef) ≠ c.group) :
    k.count b type = h.count b type := by
  rw [Host.count, Host.count, sh.buses]
  cases h.bus? b with
  | none => rfl
  | some bus =>
    show (((bus.registry.apart b c).group? type).map Group.count).getD 0 = bus.count type
    rw [Registry.group?, Registry.binding?_apart, Option.map_map, Option.map_map, Bus.count,
      Registry.count, Registry.group?, Option.map_map]
    simp only [Function.comp_def, Group.apart_other hg]

/-- Names stand for the same subscriptions. -/
theorem subscription? (name : String) : k.subscription? name = h.subscription? name := by
  rw [Host.subscription?, sh.subscriptions, Host.subscription?]

/-- Whether a subscription is active has the same answer, unless it is that of the consumer. -/
theorem inspect (name : String) : (k.inspect name).apart c = (h.inspect name).apart c := by
  unfold Host.inspect
  rw [sh.subscription?]
  cases h.subscription? name with
  | none => rfl
  | some d =>
    by_cases hd : d = c
    · simp [describe, Answer.apart, hd]
    · simp only [describe, sh.isActive hd]

/-- Both are asked, and the answers differ at most in what they tell of the consumer. -/
theorem ask (own : List (Target × BusId)) (question : Question) :
    Echo c (h.ask own question) (k.ask own question) := by
  cases question with
  | count target type => exact sh.countAt own target type
  | status name => exact ⟨sh.inspect name, sh⟩

/-- A question that is about the consumer is about it in both. -/
theorem asksAbout (own : List (Target × BusId)) (question : Question) :
    k.asksAbout own c question = h.asksAbout own c question := by
  cases question with
  -- the bus that is asked is the one that both find
  | count target type => rw [Host.asksAbout, (sh.locate own target).1, Host.asksAbout]
  | status name => rw [Host.asksAbout, sh.subscription?, Host.asksAbout]

/-- A question that is not about the consumer has the same answer. -/
theorem ask_of_other {own : List (Target × BusId)} {question : Question}
    (hq : h.asksAbout own c question = false) :
    (k.ask own question).1 = (h.ask own question).1 := by
  cases question with
  | count target type =>
    obtain ⟨hfound, hlocate⟩ := sh.locate own target
    simp only [Host.asksAbout, Bool.and_eq_false_iff, beq_eq_false_iff_ne] at hq
    simp only [Host.ask, Host.countAt, Host.withBus]
    generalize h.locate own target = x at hq hfound hlocate
    generalize k.locate own target = y at hfound hlocate
    obtain ⟨found, h'⟩ := x
    obtain ⟨found', k'⟩ := y
    obtain rfl : found' = found := hfound
    cases found' with
    | none => rfl
    | some b =>
      -- the question is about another bus or another type, so about another group
      have hg : (⟨b, type⟩ : GroupRef) ≠ c.group := by
        rintro hg
        rcases hq with hb | ht
        · exact hb (congrArg (some ·.bus) hg)
        · exact ht (congrArg (·.type) hg)
      exact congrArg Answer.count (hlocate.count_of_other hg)
  | status name =>
    simp only [Host.asksAbout, beq_eq_false_iff_ne] at hq
    simp only [Host.ask, Host.inspect]
    rw [sh.subscription?]
    cases hsub : h.subscription? name with
    | none => rfl
    | some d =>
      -- the name stands for another subscription
      have hd : d ≠ c := fun hd => hq (hd ▸ hsub)
      simp only [describe, sh.isActive hd]

/-- A change that is about the consumer alone has no counterpart. -/
theorem modifyGroup_own {f : Group Event → Group Event}
    (hf : ∀ group, (f group).detach c.id = group.detach c.id)
    (hid : ∀ group, group.nextId ≤ (f group).nextId) : Shadow c (h.modifyGroup c.group f) k := by
  have hsame := sh.modifyGroup c.group f id (fun group _ => ?_) fun group _ => hid group
  · rw [k.modifyGroup_id] at hsame
    exact hsame
  · rw [Group.apart_same, Group.apart_same, hf, id]

/-- In the shadow the consumer is not active: it has no slot. -/
theorem not_isActive : k.isActive c = false := by
  rw [Host.isActive, sh.group?]
  cases h.group? c.group with
  | none => rfl
  | some group =>
    show (group.apart c.group c).isLive c.id = false
    rw [← Bool.not_eq_true, Group.isLive_iff, Group.apart_same, Group.slot?_detach, if_pos rfl]
    simp

/-- To cancel another subscription does the same in both. To cancel that of the consumer does
nothing in the shadow. -/
theorem cancel (d : ConsumerRef) : Shadow c (h.cancel d) (k.cancel d) := by
  by_cases hd : d = c
  · subst hd
    -- the shadow has no slot to stop
    have hnone : k.cancel d = k := by rw [Host.cancel, if_neg (by simp [sh.not_isActive])]
    rw [hnone, Host.cancel]
    split
    · refine Shadow.note_own (sh.modifyGroup_own (f := fun group => (group.stop d.id).2)
        (fun group => ?_) fun group => Nat.le_refl group.nextId) rfl
      exact group.detach_modifySlot_self d.id Slot.stop fun _ => rfl
    · exact sh
  · unfold Host.cancel
    rw [sh.isActive hd]
    split
    · refine Shadow.note (sh.modifyGroup d.group (fun group => (group.stop d.id).2) _
        (fun group _ => ?_) fun group _ => Nat.le_refl group.nextId) rfl
      exact group.apart_modifySlot d.group c d.id Slot.stop fun _ => rfl
    · exact sh

theorem cancelNamed (name : String) : Echo c (h.cancelNamed name) (k.cancelNamed name) := by
  unfold Host.cancelNamed
  rw [sh.subscription?]
  split
  · exact .of_eq rfl sh
  · exact .of_eq rfl (sh.cancel _)

end

/-! ### Subscribing -/

section

variable (sh : Shadow c h k)

include sh

/-- Another task ends in both. -/
theorem endTask (t : Task) (what : Happening) :
    Shadow c (h.endTask t what) (k.endTask t what) := by
  refine release _ (((sh.note rfl).eraseTask t.consumer).modifyGroup t.consumer.group
    (·.detach t.consumer.id) _ (fun group _ => ?_) fun group _ => Nat.le_refl group.nextId)
  exact group.apart_detach t.consumer.group c t.consumer.id

/-- The end of the task of the consumer itself, or of one that it had. -/
theorem endTask_own {t : Task} (ht : t.consumer = c) (hheld : t.held = []) {what : Happening}
    (hw : what.who? = some c) : Shadow c (h.endTask t what) k := by
  subst ht
  rw [Host.endTask, hheld]
  exact ((sh.note_own hw).eraseTask_own).modifyGroup_own (f := (·.detach t.consumer.id))
    (fun group => group.detach_detach_self _) fun group => Nat.le_refl group.nextId

/-- The end of a job that is not the consumer's. -/
theorem endJob (t : Task) : Shadow c (h.endJob t) (k.endJob t) :=
  release _ (sh.eraseTask t.consumer)

/-- The task of another is dropped, and leaves a job. -/
theorem leaveJob {t : Task} (ht : t.consumer ≠ c) : Shadow c (h.leaveJob t) (k.leaveJob t) :=
  ((sh.note rfl).setTask (t := t.orphan) ht).modifyGroup t.consumer.group (·.detach t.consumer.id) _
    (fun group _ => group.apart_detach t.consumer.group c t.consumer.id)
    fun group _ => Nat.le_refl group.nextId

/-- Another task is dropped in both, and leaves a job in both or in none. -/
theorem lose {t : Task} (ht : t.consumer ≠ c) : Shadow c (h.lose t) (k.lose t) := by
  unfold Host.lose
  split
  · exact sh.leaveJob ht
  · exact sh.endTask t _

/-- Loops are the same in both, however they change. -/
theorem setLoops (started : LoopId) {loops loops' : List FlushLoop} (hl : loops' = loops) :
    Shadow c { h with loops, loopsStarted := started }
      { k with loops := loops', loopsStarted := started } :=
  { sh with loops := hl, loopsStarted := rfl }

/-- A group gets a loop in both, or has one in both. -/
theorem ensureLoop (g : GroupRef) (kind : Kind) (interval : Duration) (p : Placement) :
    Shadow c (h.ensureLoop g kind interval p)
      (k.ensureLoop g kind interval (p.apart g.bus g.type c)) := by
  have hloop : k.hasLoop (p.apart g.bus g.type c).group = h.hasLoop p.group :=
    sh.hasLoop (Group.flusher_apart ..)
  unfold Host.ensureLoop
  rw [hloop]
  split
  · exact sh
  · have hstarted := sh.modifyGroup g (fun group => { group with flusher := some h.loopsStarted })
      (fun group => { group with flusher := some h.loopsStarted })
      (fun group _ => by unfold Group.apart; split <;> rfl) fun group _ => Nat.le_refl group.nextId
    simp only [sh.loopsStarted]
    exact (hstarted.setLoops _ (by rw [hstarted.runtime, hstarted.loops]; rfl)).note rfl

/-- A new consumer gets the same id, which is not that of `c`. -/
theorem attach (g : GroupRef) :
    (k.attach g).1 = (h.attach g).1 ∧ (h.attach g).1 ≠ c ∧
      Shadow c (h.attach g).2 (k.attach g).2 := by
  have hnext : (k.group? g).map (·.nextId) = (h.group? g).map (·.nextId) := by
    rw [sh.group?, Option.map_map]
    simp only [Function.comp_def, Group.nextId_apart]
  -- the id of the consumer was given already, so the next one of its group is a later one
  obtain ⟨own, hown, hlt⟩ := sh.known
  refine ⟨by rw [Host.attach, hnext, Host.attach], ?_, ?_⟩
  · rintro rfl
    have hid : ((h.group? g).map (·.nextId)).getD 0 < own.nextId := hlt
    rw [show h.group? g = some own from hown] at hid
    exact absurd hid (Nat.lt_irrefl _)
  · refine sh.modifyGroup g (·.attach.2) _ (fun group hg => ?_)
      fun group _ => Nat.le_succ group.nextId
    refine group.apart_attach g c fun heq => ?_
    subst heq
    obtain rfl := Option.some.inj (hg.symm.trans hown)
    exact Nat.ne_of_lt hlt

/-- A new task is put in line in both, or dropped in both, as the runtime is the same. -/
theorem spawn {t : Task} (ht : t.consumer ≠ c) : Shadow c (h.spawn t) (k.spawn t) := by
  have hadd := sh.addTask ht
  unfold Host.spawn
  by_cases hrun : h.runtime = some t.runtime
  · rw [if_pos hrun, if_pos (sh.runtime.trans hrun)]
    exact hadd
  · rw [if_neg hrun, if_neg fun hk => hrun (sh.runtime.symm.trans hk)]
    exact hadd.endTask t _

theorem bind (name : String) (d : ConsumerRef) : Shadow c (h.bind name d) (k.bind name d) :=
  { sh with
    subscriptions := by
      show (name, d) :: k.subscriptions = (name, d) :: h.subscriptions
      rw [sh.subscriptions] }

/-- **Another consumer subscribes in both or is refused in both**, with the same fault or under the
same id, and that is not the id of the consumer left out. -/
theorem subscribe (b : BusId) (context : Option RuntimeId) (who : Subscriber Action)
    (held : List (Target × BusId)) :
    (k.subscribe b context who held).1 = (h.subscribe b context who held).1 ∧
      (∀ d, (h.subscribe b context who held).1 = .ok d → d ≠ c) ∧
      Shadow c (h.subscribe b context who held).2 (k.subscribe b context who held).2 := by
  unfold Host.subscribe
  rw [sh.buses]
  cases hbus : h.bus? b with
  | none => exact ⟨rfl, by simp, release _ sh⟩
  | some bus =>
    simp only [Option.map_some, bus.place_apart]
    cases hp : bus.place context who.type who.kind with
    | error fault =>
      refine ⟨rfl, by simp, ?_⟩
      cases fault with
      | conflict type want registered => exact release _ (sh.note rfl)
      | _ => exact release _ sh
    | ok p =>
      have hplaced : Shadow c
          (h.modifyBus b fun bus => { bus with registry := p.registry })
          (k.modifyBus b fun bus => { bus with registry := p.registry.apart b c }) := by
        refine sh.modifyBus b (fun _ _ => rfl) fun bus' hbus' => ?_
        obtain rfl := Option.some.inj (hbus.symm.trans hbus')
        exact bus.grows_place hp
      have hloop := hplaced.ensureLoop ⟨b, who.type⟩ who.kind bus.flushInterval p
      -- what both have done so far is generalized, since only its outcome counts
      have hattach := hloop.attach ⟨b, who.type⟩
      have hflush : (bus.apart b c).flushInterval = bus.flushInterval := rfl
      simp only [Except.map, Placement.apart, hflush] at hattach ⊢
      generalize ((Host.ensureLoop _ _ _ _ p).attach _ : ConsumerRef × Host) = x at hattach ⊢
      generalize ((Host.ensureLoop _ _ _ _ _).attach _ : ConsumerRef × Host) = y at hattach ⊢
      obtain ⟨d, h'⟩ := x
      obtain ⟨d', k'⟩ := y
      obtain ⟨hid, hne, hattach⟩ := hattach
      obtain rfl : d' = d := hid
      refine ⟨rfl, fun e he => ?_, (hattach.note rfl).spawn hne⟩
      obtain rfl := Except.ok.inj he
      exact hne

theorem subscribeAt (own : List (Target × BusId)) (context : Option RuntimeId) (target : Target)
    (who : Subscriber Action) :
    Echo c (h.subscribeAt own context target who) (k.subscribeAt own context target who) := by
  refine sh.withBus own target fun b h k sh => ?_
  obtain ⟨hheld, hall⟩ := locateAll own who.hold sh
  have hsub := hall.subscribe b context who (h.locateAll own who.hold).1
  dsimp only
  rw [hheld]
  generalize (h.locateAll own who.hold).2.subscribe b context who _ = x at hsub ⊢
  generalize (k.locateAll own who.hold).2.subscribe b context who _ = y at hsub ⊢
  obtain ⟨answer, h'⟩ := x
  obtain ⟨answer', k'⟩ := y
  obtain ⟨hanswer, hne, hsub⟩ := hsub
  obtain rfl : answer' = answer := hanswer
  cases answer' with
  | error fault => exact .of_eq rfl hsub
  | ok d =>
    refine .of_eq ?_ (hsub.bind _ _)
    show k'.describe d = h'.describe d
    rw [describe, hsub.isActive (hne d rfl), describe]

end

end Shadow

end Host

end EventBus
