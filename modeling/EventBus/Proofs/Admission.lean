import EventBus.Proofs.PinnedLoops
import EventBus.Proofs.Service
import EventBus.Proofs.Wiring

/-!
# Subscribing is exact

Who asks to subscribe is refused for one of three reasons, tried in a fixed order, or is admitted. A
refusal leaves everything as it is, apart from the handles that come with the handler that is turned
away. An admission binds the type if it was not bound, starts a flush loop if the group has none,
gives out the next id of the group with an empty slot, and puts a task in line; nothing else is
different. On a runtime that is gone the slot is gone again at once, and no loop is left.

A subscription is followed in three steps: `Readied` is what it leaves before the consumer comes to
the group, from there the consumer is attached, and then its task is put in line or dropped.
`Asking` are the states in which a subscription is made at all. They lie between turns, or in the
middle of one, after the step of the task that asks, and maybe after the default bus was made for
it.
-/

set_option autoImplicit false

namespace EventBus

/-! ## Who is refused -/

namespace Bus

/-- Why a bus refuses a consumer of `kind` under `type`. Each reason is only told where no earlier
one applies. -/
inductive Refuses (bus : Bus) (context : Option RuntimeId) (type : EventType) (kind : Kind) :
    Fault → Prop
  | closed : bus.isClosed = true → Refuses bus context type kind .closed
  | noRuntime : bus.isClosed = false → bus.pinned = none → context = none →
      Refuses bus context type kind .noRuntime
  | conflict {binding : Binding} : bus.isClosed = false → (bus.pinned.or context).isSome = true →
      bus.registry.binding? type = some binding → binding.kind ≠ kind →
      Refuses bus context type kind (.conflict type kind.name binding.kind.name)

/-- What a bus admits, and on which runtime. -/
structure Accepts (bus : Bus) (context : Option RuntimeId) (type : EventType) (kind : Kind)
    (runtime : RuntimeId) : Prop where
  isOpen : bus.isClosed = false
  runtime : bus.pinned.or context = some runtime
  kind : ∀ binding, bus.registry.binding? type = some binding → binding.kind = kind

variable {bus : Bus} {context : Option RuntimeId} {type : EventType} {kind : Kind} {fault : Fault}

theorem Refuses.place (hr : bus.Refuses context type kind fault) :
    bus.place context type kind = .error fault := by
  cases hr with
  | closed hclosed => rw [Bus.place, if_pos hclosed]
  | noRuntime hopen hpinned hcontext =>
    rw [Bus.place, if_neg (by simp [hopen]), hpinned, hcontext]
    rfl
  | conflict hopen hrun hb hk =>
    rw [place_of_bound hb hk.symm, verdict, if_neg (by simp [hopen]),
      if_neg (by simpa using Option.isSome_iff_ne_none.mp hrun)]

theorem Accepts.place {runtime : RuntimeId} (ha : bus.Accepts context type kind runtime) :
    ∃ p, bus.place context type kind = .ok p ∧ p.runtime = runtime := by
  rw [Bus.place, if_neg (by simp [ha.isOpen]), ha.runtime]
  cases hb : bus.registry.binding? type with
  | none =>
    simp only [Registry.getOrCreate_of_unbound hb]
    exact ⟨_, rfl, rfl⟩
  | some binding =>
    obtain rfl := ha.kind binding hb
    simp only [Registry.getOrCreate_of_bound hb, Registry.groupFor_same]
    exact ⟨_, rfl, rfl⟩

theorem refuses_or_accepts (bus : Bus) (context : Option RuntimeId) (type : EventType)
    (kind : Kind) :
    (∃ fault, bus.Refuses context type kind fault) ∨
      ∃ runtime, bus.Accepts context type kind runtime := by
  cases hopen : bus.isClosed with
  | true => exact .inl ⟨_, .closed hopen⟩
  | false =>
    cases hrun : bus.pinned.or context with
    | none =>
      obtain ⟨hpinned, hcontext⟩ := Option.or_eq_none_iff.mp hrun
      exact .inl ⟨_, .noRuntime hopen hpinned hcontext⟩
    | some runtime =>
      by_cases hk : ∀ binding, bus.registry.binding? type = some binding → binding.kind = kind
      · exact .inr ⟨runtime, hopen, hrun, hk⟩
      · simp only [not_forall] at hk
        obtain ⟨binding, hb, hk⟩ := hk
        exact .inl ⟨_, .conflict hopen (by rw [hrun]; rfl) hb hk⟩

end Bus

/-- What an answer becomes for whom a refusal is fatal. -/
def Answer.escalated : Answer → Answer
  | .refused fault => .fatal fault.message
  | answer => answer

namespace Host

variable {h m m' : Host}

/-! ## What a refusal leaves -/

/-- From `m` to `m'` nothing is different but the journal, and that a bus of `gone` is shut down
that nobody holds. -/
structure LeftAlone (m : Host) (gone : List BusId) (m' : Host) : Prop where
  now : m'.now = m.now
  runtime : m'.runtime = m.runtime
  runtimes : m'.runtimes = m.runtimes
  registries : ∀ x, (m'.bus? x).map (·.registry) = (m.bus? x).map (·.registry)
  settings : ∀ x, m'.builder? x = m.builder? x
  closed : ∀ x, m'.isClosed x = m.isClosed x
  down : ∀ x, m'.isDown x = true ↔ m.isDown x = true ∨ x ∈ gone ∧ m.isHeld x = false
  handles : m'.handles = m.handles
  preset : m'.preset = m.preset
  subscriptions : m'.subscriptions = m.subscriptions
  tasks : m'.tasks = m.tasks
  loops : m'.loops = m.loops
  loopsStarted : m'.loopsStarted = m.loopsStarted

theorem isDown_release (gone : List BusId) (m : Host) (x : BusId) :
    (m.release gone).isDown x = true ↔ m.isDown x = true ∨ x ∈ gone ∧ m.isHeld x = false := by
  induction gone generalizing m with
  | nil => simp [release]
  | cons b rest ih =>
    show ((if m.isHeld b then m else m.abandon b).release rest).isDown x = true ↔ _
    rw [ih, List.mem_cons]
    cases hb : m.isHeld b with
    | true =>
      rw [if_pos rfl]
      refine or_congr_right (and_congr_left fun hfree => ⟨.inr, ?_⟩)
      rintro (rfl | hx)
      · exact absurd (hb.symm.trans hfree) (by simp)
      · exact hx
    | false =>
      have hheld : (m.abandon b).isHeld x = m.isHeld x := rfl
      rw [if_neg (by simp), isDown_abandon, hheld, Bool.or_eq_true, beq_iff_eq, or_assoc]
      refine or_congr_right ⟨?_, ?_⟩
      · rintro (rfl | ⟨hx, hfree⟩)
        · exact ⟨.inl rfl, hb⟩
        · exact ⟨.inr hx, hfree⟩
      · rintro ⟨rfl | hx, hfree⟩
        · exact .inl rfl
        · exact .inr ⟨hx, hfree⟩

theorem registry_abandon (b x : BusId) :
    ((m.abandon b).bus? x).map (·.registry) = (m.bus? x).map (·.registry) := by
  have hb : ∀ bus : Bus, bus.abandon.registry = bus.registry := by
    intro bus
    unfold Bus.abandon
    split <;> rfl
  rw [abandon, bus?_modifyBus]
  split
  · rw [Option.map_map]
    exact congrArg (Option.map · _) (funext hb)
  · rfl

theorem builder?_abandon (b x : BusId) : (m.abandon b).builder? x = m.builder? x :=
  builder?_modifyBus m (fun bus => by unfold Bus.abandon; split <;> exact ⟨rfl, rfl⟩) b x

theorem leftAlone_release (gone : List BusId) (m : Host) : m.LeftAlone gone (m.release gone) where
  now := release_of_abandon (·.now) (fun _ _ => rfl) gone m
  runtime := release_of_abandon (·.runtime) (fun _ _ => rfl) gone m
  runtimes := release_of_abandon (·.runtimes) (fun _ _ => rfl) gone m
  registries x := release_of_abandon (fun h => (h.bus? x).map (·.registry))
    (fun _ b => registry_abandon b x) gone m
  settings x := release_of_abandon (·.builder? x) (fun _ b => builder?_abandon b x) gone m
  closed x := release_of_abandon (·.isClosed x) (fun h b => h.isClosed_abandon b x) gone m
  down := isDown_release gone m
  handles := release_of_abandon (·.handles) (fun _ _ => rfl) gone m
  preset := release_of_abandon (·.preset) (fun _ _ => rfl) gone m
  subscriptions := release_of_abandon (·.subscriptions) (fun _ _ => rfl) gone m
  tasks := tasks_release gone m
  loops := release_of_abandon (·.loops) (fun _ _ => rfl) gone m
  loopsStarted := (release_keepsRuntime gone m).loopsStarted

theorem LeftAlone.of_note {gone : List BusId} {what : Happening}
    (hl : (m.note what).LeftAlone gone m') : m.LeftAlone gone m' :=
  ⟨hl.now, hl.runtime, hl.runtimes, hl.registries, hl.settings, hl.closed, hl.down, hl.handles,
    hl.preset, hl.subscriptions, hl.tasks, hl.loops, hl.loopsStarted⟩

variable {b : BusId} {bus : Bus} {context : Option RuntimeId} {who : Subscriber Action}
  {held : List (Target × BusId)} {fault : Fault}

/-- What the journal says of a refusal. -/
def refusalEntries (m : Host) (b : BusId) : Fault → Journal
  | .conflict type want registered => [⟨m.now, .rejected b (.conflict type want registered)⟩]
  | _ => []

theorem subscribe_of_refuses (hbus : m.bus? b = some bus)
    (hr : bus.Refuses context who.type who.kind fault) (held : List (Target × BusId)) :
    (m.subscribe b context who held).1 = .error fault ∧
      m.LeftAlone (held.map (·.2)) (m.subscribe b context who held).2 ∧
      (m.subscribe b context who held).2.journal = m.refusalEntries b fault ++ m.journal := by
  simp only [subscribe, hbus, hr.place, journal_release, true_and]
  cases hr with
  | closed | noRuntime => exact ⟨leftAlone_release _ m, rfl⟩
  | conflict => exact ⟨(leftAlone_release _ (m.note _)).of_note, rfl⟩

/-! ## What an admission does -/

/-- The entry of a flush loop that is started for a consumer. -/
def loopEntries (m : Host) (b : BusId) (bus : Bus) (who : Subscriber Action) : Journal :=
  if m.loopsOf ⟨b, who.type⟩ = [] then
    [⟨m.now, .loopStarted m.loopsStarted ⟨b, who.type⟩ who.kind bus.flushInterval
      (m.group? ⟨b, who.type⟩).isNone⟩]
  else []

/-- The consumer that a group has its next id for. The first id of a new group is 1. -/
def nextAt (m : Host) (g : GroupRef) : ConsumerRef := ⟨g, ((m.group? g).map (·.nextId)).getD 1⟩

/-- What the group of the new consumer is afterwards, on a runtime that is there (`alive`) or on one
that is gone. The queues of a new group have `room` to start with. -/
structure Grown (m : Host) (g : GroupRef) (room : Nat) (alive : Prop) [Decidable alive]
    (group : Group Event) : Prop where
  type : group.type = ((m.group? g).map (·.type)).getD g.type
  capacity : group.capacity = ((m.group? g).map (·.capacity)).getD room
  nextId : group.nextId = (m.nextAt g).id + 1
  slots : group.slots = ((m.group? g).map (·.slots)).getD [] ++
    if alive then [{ id := (m.nextAt g).id }] else []
  flusher : group.flusher =
    if m.loopsOf g = [] then some m.loopsStarted else (m.group? g).bind (·.flusher)

/-- From `m` to `m'` the next consumer of its group is admitted to the bus `b`, on `runtime`, and
nothing else is different. -/
structure Admitted (m : Host) (b : BusId) (bus : Bus) (who : Subscriber Action)
    (held : List (Target × BusId)) (runtime : RuntimeId) (m' : Host) : Prop where
  fresh : ∀ x ∈ m.journal, ∀ kind profile,
    x.what ≠ .subscribed (m.nextAt ⟨b, who.type⟩) kind profile
  size : (m'.bus? b).map (·.registry.size) =
    some (bus.registry.size + if m.group? ⟨b, who.type⟩ = none then 1 else 0)
  kind : m'.kind? ⟨b, who.type⟩ = some who.kind
  grown : ∃ group, m'.group? ⟨b, who.type⟩ = some group ∧
    m.Grown ⟨b, who.type⟩ bus.config.queueCapacityClamped (m.runtime = some runtime) group
  others : ∀ g, g ≠ ⟨b, who.type⟩ → m'.binding? g = m.binding? g
  loopsStarted : m'.loopsStarted =
    m.loopsStarted + if m.loopsOf ⟨b, who.type⟩ = [] then 1 else 0
  loops : m'.loops = m.loops ++
    if m.loopsOf ⟨b, who.type⟩ = [] ∧ m.runtime = some runtime then
      [{ id := m.loopsStarted, group := ⟨b, who.type⟩, runtime, interval := bus.flushInterval }]
    else []
  tasks : m'.tasks = m.tasks ++
    if m.runtime = some runtime then
      [{ consumer := m.nextAt ⟨b, who.type⟩, runtime, handler := who.handler, held }]
    else []
  active : m'.isActive (m.nextAt ⟨b, who.type⟩) = decide (m.runtime = some runtime)
  journal : m'.journal =
    (if m.runtime = some runtime then []
      else [⟨m.now, .lost (m.nextAt ⟨b, who.type⟩) who.handler.profile⟩]) ++
    ⟨m.now, .subscribed (m.nextAt ⟨b, who.type⟩) who.kind who.handler.profile⟩ ::
      (m.loopEntries b bus who ++ m.journal)
  now : m'.now = m.now
  current : m'.runtime = m.runtime
  runtimes : m'.runtimes = m.runtimes
  settings : ∀ x, m'.builder? x = m.builder? x
  closed : ∀ x, m'.isClosed x = m.isClosed x
  down : ∀ x, m'.isDown x = true ↔ m.isDown x = true ∨
    m.runtime ≠ some runtime ∧ x ∈ held.map (·.2) ∧ m.isHeld x = false
  handles : m'.handles = m.handles
  preset : m'.preset = m.preset
  subscriptions : m'.subscriptions = m.subscriptions

section Place

variable {type : EventType} {kind : Kind} {p : Placement}

theorem binding?_of_place (hbus : m.bus? b = some bus)
    (hp : bus.place context type kind = .ok p) (g : GroupRef) :
    (m.modifyBus b fun bus => { bus with registry := p.registry }).binding? g =
      if g = ⟨b, type⟩ then some ⟨type, kind, p.group⟩ else m.binding? g := by
  obtain ⟨-, ⟨hreg, hbind⟩ | ⟨fresh, hgroup, hreg⟩⟩ := Bus.place_eq_ok hp
  · rw [modifyBus_self hbus (by rw [hreg])]
    split
    · next hg => rw [hg, binding?, hbus, Option.bind_some, hbind]
    · rfl
  · rw [hreg, binding?_bindType m hbus, hgroup]

/-- The place is in the group that is there, or else in a new one. -/
theorem group_of_place (hbus : m.bus? b = some bus) (hp : bus.place context type kind = .ok p) :
    p.group = (m.group? ⟨b, type⟩).getD (bus.newGroup type) ∧
      p.registry.size = bus.registry.size + if m.group? ⟨b, type⟩ = none then 1 else 0 := by
  obtain ⟨-, ⟨hreg, hbind⟩ | ⟨fresh, hgroup, hreg⟩⟩ := Bus.place_eq_ok hp
  · have hg : m.group? ⟨b, type⟩ = some p.group := by
      rw [group?_eq_binding?, binding?, hbus, Option.bind_some, hbind]
      rfl
    rw [hg, hreg]
    exact ⟨rfl, rfl⟩
  · have hg : m.group? ⟨b, type⟩ = none := by
      rw [group?_eq_binding?, binding?_fresh m fresh hbus]
      rfl
    rw [hg, hreg, hgroup]
    exact ⟨rfl, by simp [Registry.size, Registry.add]⟩

/-- The group of the place has a loop exactly if one of its loops is alive. -/
theorem hasLoop_of_place (hr : m.Reached) (hbus : m.bus? b = some bus)
    (hp : bus.place context type kind = .ok p) :
    m.hasLoop p.group = true ↔ m.loopsOf ⟨b, type⟩ ≠ [] := by
  rw [(group_of_place hbus hp).1]
  cases hg : m.group? ⟨b, type⟩ with
  | some group => exact hr.loopsSound.hasLoop_iff hg
  | none =>
    -- a loop keeps the number that its group has for it, so there is none without the group
    have hnone : m.loopsOf ⟨b, type⟩ = [] := by
      refine loopsOf_eq_nil_iff.mpr fun l hl hlg => ?_
      have hflusher := hr.loopsSound.flusher l hl
      rw [hlg, flusher?, hg] at hflusher
      exact absurd hflusher (by simp)
    simp [hasLoop, Bus.newGroup, Group.empty, hnone]

end Place

/-- The group of the new consumer, with the loop that it has now. -/
def readiedGroup (m : Host) (b : BusId) (bus : Bus) (type : EventType) : Group Event :=
  let group := (m.group? ⟨b, type⟩).getD (bus.newGroup type)
  if m.loopsOf ⟨b, type⟩ = [] then { group with flusher := some m.loopsStarted } else group

/-- `e` is `m` with the type bound and a loop for the group, which is all that comes before the
consumer itself. -/
structure Readied (m : Host) (b : BusId) (bus : Bus) (who : Subscriber Action)
    (runtime : RuntimeId) (e : Host) : Prop where
  binding : ∀ g, e.binding? g = if g = ⟨b, who.type⟩ then
    some ⟨who.type, who.kind, m.readiedGroup b bus who.type⟩ else m.binding? g
  size : (e.bus? b).map (·.registry.size) =
    some (bus.registry.size + if m.group? ⟨b, who.type⟩ = none then 1 else 0)
  loopsStarted : e.loopsStarted =
    m.loopsStarted + if m.loopsOf ⟨b, who.type⟩ = [] then 1 else 0
  loops : e.loops = m.loops ++
    if m.loopsOf ⟨b, who.type⟩ = [] ∧ m.runtime = some runtime then
      [{ id := m.loopsStarted, group := ⟨b, who.type⟩, runtime, interval := bus.flushInterval }]
    else []
  journal : e.journal = m.loopEntries b bus who ++ m.journal
  tasks : e.tasks = m.tasks
  now : e.now = m.now
  current : e.runtime = m.runtime
  runtimes : e.runtimes = m.runtimes
  settings : ∀ x, e.builder? x = m.builder? x
  closed : ∀ x, e.isClosed x = m.isClosed x
  down : ∀ x, e.isDown x = m.isDown x
  handles : e.handles = m.handles
  preset : e.preset = m.preset
  subscriptions : e.subscriptions = m.subscriptions

/-- Binding a type leaves everything but the bindings of its bus. -/
theorem frame_of_registry (m : Host) (b : BusId) (r : Registry) :
    (∀ x, (m.modifyBus b fun bus => { bus with registry := r }).builder? x = m.builder? x) ∧
      (∀ x, (m.modifyBus b fun bus => { bus with registry := r }).isClosed x = m.isClosed x) ∧
      ∀ x, (m.modifyBus b fun bus => { bus with registry := r }).isDown x = m.isDown x := by
  refine ⟨builder?_modifyBus m (f := fun bus => { bus with registry := r }) (fun _ => ⟨rfl, rfl⟩) b,
    fun x => ?_, fun x => ?_⟩
  · rw [isClosed_modifyBus]
    split
    · next hx => rw [hx]; rfl
    · rfl
  · rw [isDown_modifyBus]
    split
    · next hx => rw [hx]; rfl
    · rfl

theorem readied_of_place (hr : m.Reached) (hbus : m.bus? b = some bus) {p : Placement}
    (hp : bus.place context who.type who.kind = .ok p) :
    m.Readied b bus who p.runtime
      ((m.modifyBus b fun bus => { bus with registry := p.registry }).ensureLoop ⟨b, who.type⟩
        who.kind bus.flushInterval p) := by
  obtain ⟨hgroup, hsize⟩ := group_of_place hbus hp
  obtain ⟨hsettings, hclosed, hdown⟩ := m.frame_of_registry b p.registry
  have hbinding := binding?_of_place hbus hp
  have hloop := hasLoop_of_place hr hbus hp
  have hcreated : p.created = (m.group? ⟨b, who.type⟩).isNone := by
    rw [(created_of_place hp).1, group?_eq_binding?, binding?, hbus, Option.bind_some,
      Option.isNone_map]
  have hbus' : (m.modifyBus b fun bus => { bus with registry := p.registry }).bus? b =
      some { bus with registry := p.registry } := by
    rw [bus?_modifyBus, if_pos rfl, hbus]
    rfl
  -- a loop is started exactly where the group has none
  by_cases hidle : m.loopsOf ⟨b, who.type⟩ = []
  · have hnone : m.hasLoop p.group = false := by simpa [hidle] using hloop
    rw [ensureLoop_of_idle (show (m.modifyBus b _).hasLoop p.group = false from hnone)]
    constructor
    case binding =>
      intro g
      show (modifyGroup _ _ _).binding? g = _
      rw [binding?_modifyGroup, hbinding, readiedGroup, if_pos hidle, ← hgroup]
      by_cases hg : g = ⟨b, who.type⟩
      · rw [if_pos hg, if_pos hg, if_pos hg]
        rfl
      · rw [if_neg hg, if_neg hg, if_neg hg]
    case size =>
      show ((modifyBus _ _ _).bus? b).map _ = _
      rw [bus?_modifyBus, if_pos rfl, hbus', ← hsize]
      exact congrArg some (Registry.size_modifyGroup _ _ _)
    case loops =>
      show (if m.runtime = some p.runtime then _ else _) = _
      -- on a runtime that is gone the loop is recorded as started but does not run
      by_cases hrun : m.runtime = some p.runtime
      · rw [if_pos hrun, if_pos ⟨hidle, hrun⟩]
        rfl
      · rw [if_neg hrun, if_neg fun h => hrun h.2, List.append_nil]
        rfl
    case journal =>
      rw [loopEntries, if_pos hidle, ← hcreated]
      rfl
    case loopsStarted => rw [if_pos hidle]; rfl
    case settings => exact fun x => (builder?_modifyGroup _ _ _ x).trans (hsettings x)
    case closed => exact fun x => (isClosed_modifyGroup _ _ _ x).trans (hclosed x)
    case down => exact fun x => (isDown_modifyGroup _ _ _ x).trans (hdown x)
    all_goals rfl
  · have hsome : m.hasLoop p.group = true := hloop.mpr hidle
    rw [ensureLoop, if_pos (show (m.modifyBus b _).hasLoop p.group = true from hsome)]
    constructor
    case binding =>
      intro g
      rw [hbinding, readiedGroup, if_neg hidle, ← hgroup]
    case size => rw [hbus', ← hsize]; rfl
    case loops => rw [if_neg fun h => hidle h.1, List.append_nil]; rfl
    case journal => rw [loopEntries, if_neg hidle]; rfl
    case loopsStarted => rw [if_neg hidle]; rfl
    case settings => exact hsettings
    case closed => exact hclosed
    case down => exact hdown
    all_goals rfl

theorem nextId_readiedGroup (m : Host) (b : BusId) (bus : Bus) (type : EventType) :
    (m.readiedGroup b bus type).nextId = (m.nextAt ⟨b, type⟩).id := by
  unfold readiedGroup nextAt
  cases m.group? ⟨b, type⟩ <;> split <;> rfl

theorem grown_attach (m : Host) (b : BusId) (bus : Bus) (type : EventType) :
    m.Grown ⟨b, type⟩ bus.config.queueCapacityClamped True
      (m.readiedGroup b bus type).attach.2 := by
  have hid := m.nextId_readiedGroup b bus type
  constructor
  case nextId => exact congrArg (· + 1) hid
  case slots =>
    show (m.readiedGroup b bus type).slots ++ [{ id := (m.readiedGroup b bus type).nextId }] = _
    rw [hid, if_pos trivial, readiedGroup]
    cases m.group? ⟨b, type⟩ <;> split <;> rfl
  all_goals
    unfold readiedGroup
    cases m.group? ⟨b, type⟩ <;> split <;> rfl

/-- Without the slot that was attached last the slots are those that were there. -/
theorem slots_detach_attach (group : Group Event) :
    (group.attach.2.detach group.nextId).slots = group.slots := by
  have hbelow : ∀ s ∈ group.slots, decide (s.id ≠ group.nextId) = true := fun s hs =>
    decide_eq_true (Nat.ne_of_lt (group.id_lt_nextId hs))
  show (group.slots ++ [_]).filter (·.id ≠ group.nextId) = group.slots
  rw [List.filter_append, List.filter_eq_self.mpr hbelow]
  simp

theorem grown_detach (m : Host) (b : BusId) (bus : Bus) (type : EventType) :
    m.Grown ⟨b, type⟩ bus.config.queueCapacityClamped False
      ((m.readiedGroup b bus type).attach.2.detach (m.readiedGroup b bus type).nextId) where
  type := (m.grown_attach b bus type).type
  capacity := (m.grown_attach b bus type).capacity
  nextId := (m.grown_attach b bus type).nextId
  slots := by
    rw [slots_detach_attach, if_neg not_false, List.append_nil, readiedGroup]
    cases m.group? ⟨b, type⟩ <;> split <;> rfl
  flusher := (m.grown_attach b bus type).flusher

/-! ### The next consumer of a group -/

theorem Reached.ne_nextAt (hr : m.Reached) (g : GroupRef) :
    ∀ t ∈ m.tasks, t.consumer ≠ m.nextAt g := by
  intro t ht heq
  obtain ⟨kind, s, hs, -, hlt⟩ := hr.given_of_mem t ht
  have hid : (m.nextAt g).id = s.nextId := by
    have hg : t.consumer.group = g := by rw [heq, nextAt]
    rw [nextAt, nextId_eq_standing?, ← hg, hs]
    rfl
  rw [heq, hid] at hlt
  exact absurd hlt (Nat.lt_irrefl _)

theorem Reached.nextAt_fresh (hr : m.Reached) (g : GroupRef) :
    ∀ x ∈ m.journal, ∀ kind profile, x.what ≠ .subscribed (m.nextAt g) kind profile := by
  intro x hx kind profile hwhat
  obtain ⟨s, hs, -, hlt⟩ := hr.given_of_subscribed hx hwhat
  have hid : (m.nextAt g).id = s.nextId := by
    rw [nextAt, nextId_eq_standing?, show m.standing? g = some s from hs]
    rfl
  exact absurd hlt (by rw [hid]; exact Nat.lt_irrefl _)

theorem size_modifyGroup (m : Host) (g : GroupRef) (f : Group Event → Group Event) (x : BusId) :
    ((m.modifyGroup g f).bus? x).map (·.registry.size) = (m.bus? x).map (·.registry.size) := by
  rw [modifyGroup, bus?_modifyBus]
  split
  · rw [Option.map_map]
    exact congrArg (Option.map · _) (funext fun bus => Registry.size_modifyGroup _ _ _)
  · rfl

section

variable {runtime : RuntimeId} {e : Host}

/-- The task of the consumer that is admitted. -/
def newTask (m : Host) (b : BusId) (who : Subscriber Action) (runtime : RuntimeId)
    (held : List (Target × BusId)) : Task :=
  { consumer := m.nextAt ⟨b, who.type⟩, runtime, handler := who.handler, held }

theorem Readied.newcomer (he : m.Readied b bus who runtime e) (held : List (Target × BusId)) :
    e.newcomer ⟨b, who.type⟩ runtime who.handler held = m.newTask b who runtime held := by
  have hg : e.group? ⟨b, who.type⟩ = some (m.readiedGroup b bus who.type) := by
    rw [group?_eq_binding?, he.binding, if_pos rfl]
    rfl
  have hc : (e.attach ⟨b, who.type⟩).1 = m.nextAt ⟨b, who.type⟩ := by
    show ConsumerRef.mk _ (((e.group? _).map (·.nextId)).getD 0) = _
    rw [hg]
    exact congrArg _ (m.nextId_readiedGroup b bus who.type)
  rw [Host.newcomer, hc]
  rfl

theorem Readied.binding?_modifyGroup (he : m.Readied b bus who runtime e)
    (f : Group Event → Group Event) (g : GroupRef) :
    (e.modifyGroup ⟨b, who.type⟩ f).binding? g = if g = ⟨b, who.type⟩ then
      some ⟨who.type, who.kind, f (m.readiedGroup b bus who.type)⟩ else m.binding? g := by
  rw [Host.binding?_modifyGroup, he.binding]
  by_cases hg : g = ⟨b, who.type⟩
  · rw [if_pos hg, if_pos hg, if_pos hg]
    rfl
  · rw [if_neg hg, if_neg hg, if_neg hg]

theorem group?_of_binding? {g : GroupRef} {binding : Binding} (hb : m.binding? g = some binding) :
    m.group? g = some binding.group := by
  rw [group?_eq_binding?, hb, Option.map_some]

theorem kind?_of_binding? {g : GroupRef} {binding : Binding} (hb : m.binding? g = some binding) :
    m.kind? g = some binding.kind := by
  rw [kind?, hb, Option.map_some]

/-- On a runtime that is there the task is put in line. -/
theorem Readied.admitted_alive (hr : m.Reached) (he : m.Readied b bus who runtime e)
    (hrun : m.runtime = some runtime) (held : List (Target × BusId)) :
    m.Admitted b bus who held runtime (e.enrol (m.newTask b who runtime held) who.kind) := by
  -- the group has one id more, and all else is as the place left it
  have hbinding : ∀ g, (e.enrol (m.newTask b who runtime held) who.kind).binding? g = _ :=
    he.binding?_modifyGroup (·.attach.2)
  have hnew := (hbinding ⟨b, who.type⟩).trans (if_pos rfl)
  constructor
  case fresh => exact hr.nextAt_fresh _
  case size => exact (size_modifyGroup _ _ _ b).trans he.size
  case kind => exact kind?_of_binding? hnew
  case grown =>
    exact ⟨_, group?_of_binding? hnew, by simpa [hrun] using m.grown_attach b bus who.type⟩
  case others => exact fun g hg => (hbinding g).trans (if_neg hg)
  case loopsStarted => exact he.loopsStarted
  case loops => exact he.loops
  case tasks =>
    rw [if_pos hrun, ← he.tasks]
    rfl
  case active =>
    rw [decide_eq_true hrun, isActive_iff]
    refine ⟨{ id := (m.nextAt ⟨b, who.type⟩).id }, ?_, rfl⟩
    rw [slot?, show (m.nextAt _).group = ⟨b, who.type⟩ from rfl, group?_of_binding? hnew,
      Option.bind_some, ← m.nextId_readiedGroup b bus who.type, Group.slot?_attach, if_pos rfl]
  case journal =>
    rw [if_pos hrun, ← he.journal, ← he.now]
    rfl
  case now => exact he.now
  case current => exact he.current
  case runtimes => exact he.runtimes
  case settings => exact fun x => (builder?_modifyGroup _ _ _ x).trans (he.settings x)
  case closed => exact fun x => (isClosed_modifyGroup _ _ _ x).trans (he.closed x)
  case down =>
    intro x
    rw [show (e.enrol _ _).isDown x = e.isDown x from isDown_modifyGroup _ _ _ x, he.down]
    simp [hrun]
  case handles => exact he.handles
  case preset => exact he.preset
  case subscriptions => exact he.subscriptions

/-- On a runtime that is gone the task is dropped at once, and its slot with it. -/
theorem Readied.admitted_gone (hr : m.Reached) (he : m.Readied b bus who runtime e)
    (hrun : m.runtime ≠ some runtime) (held : List (Target × BusId)) :
    m.Admitted b bus who [] runtime
      ((e.enrol (m.newTask b who runtime held) who.kind).finish (m.newTask b who runtime held)
        (.lost (m.nextAt ⟨b, who.type⟩) who.handler.profile)) := by
  have hid := m.nextId_readiedGroup b bus who.type
  -- attaching and detaching at once changes the id to be given next and nothing else
  have hbinding : ∀ g, ((e.enrol (m.newTask b who runtime held) who.kind).finish
      (m.newTask b who runtime held)
      (.lost (m.nextAt ⟨b, who.type⟩) who.handler.profile)).binding? g =
        if g = ⟨b, who.type⟩ then some ⟨who.type, who.kind,
          (m.readiedGroup b bus who.type).attach.2.detach (m.readiedGroup b bus who.type).nextId⟩
        else m.binding? g := by
    intro g
    rw [hid]
    refine Eq.trans ?_ (he.binding?_modifyGroup
      (fun group => group.attach.2.detach (m.nextAt ⟨b, who.type⟩).id) g)
    have hboth := congrArg (binding? · g) (e.modifyGroup_modifyGroup ⟨b, who.type⟩ (·.attach.2)
      (·.detach (m.nextAt ⟨b, who.type⟩).id))
    exact hboth
  have hnew := (hbinding ⟨b, who.type⟩).trans (if_pos rfl)
  constructor
  case fresh => exact hr.nextAt_fresh _
  case size =>
    exact (size_modifyGroup _ _ _ b).trans ((size_modifyGroup _ _ _ b).trans he.size)
  case kind => exact kind?_of_binding? hnew
  case grown =>
    exact ⟨_, group?_of_binding? hnew, by simpa [hrun] using m.grown_detach b bus who.type⟩
  case others => exact fun g hg => (hbinding g).trans (if_neg hg)
  case loopsStarted => exact he.loopsStarted
  case loops => exact he.loops
  case tasks =>
    -- the task added last is the one that is removed: nobody else has its id
    have hothers : m.tasks.filter (·.consumer ≠ m.nextAt ⟨b, who.type⟩) = m.tasks :=
      List.filter_eq_self.mpr fun t ht => decide_eq_true (hr.ne_nextAt _ t ht)
    show (e.tasks ++ [m.newTask b who runtime held]).filter
      (·.consumer ≠ m.nextAt ⟨b, who.type⟩) = _
    rw [he.tasks, List.filter_append, hothers, if_neg hrun]
    simp [newTask]
  case active =>
    rw [decide_eq_false hrun, isActive, show (m.nextAt _).group = ⟨b, who.type⟩ from rfl,
      group?_of_binding? hnew, ← hid, Option.map_some, Option.getD_some, ← Bool.not_eq_true,
      Group.isLive_iff, Group.slot?_detach, if_pos rfl]
    simp
  case journal =>
    rw [if_neg hrun, ← he.journal, ← he.now]
    rfl
  case now => exact he.now
  case current => exact he.current
  case runtimes => exact he.runtimes
  case settings =>
    exact fun x => (builder?_modifyGroup _ _ _ x).trans
      ((builder?_modifyGroup _ _ _ x).trans (he.settings x))
  case closed =>
    exact fun x => (isClosed_modifyGroup _ _ _ x).trans
      ((isClosed_modifyGroup _ _ _ x).trans (he.closed x))
  case down =>
    intro x
    show (modifyGroup _ _ _).isDown x = true ↔ _
    rw [isDown_modifyGroup]
    show (e.modifyGroup _ _).isDown x = true ↔ _
    rw [isDown_modifyGroup, he.down]
    simp
  case handles => exact he.handles
  case preset => exact he.preset
  case subscriptions => exact he.subscriptions

/-- What the newcomer held is let go with its task. -/
theorem Admitted.release (ha : m.Admitted b bus who [] runtime m')
    (hrun : m.runtime ≠ some runtime) (held : List (Target × BusId)) :
    m.Admitted b bus who held runtime (m'.release (held.map (·.2))) := by
  have hleft := m'.leftAlone_release (held.map (·.2))
  -- to abandon a bus changes its stage and none of its groups
  have hbinding : ∀ g, (m'.release (held.map (·.2))).binding? g = m'.binding? g := fun g =>
    release_of_abandon (·.binding? g) (fun h b => h.binding?_abandon b g) _ _
  have hgroup : ∀ g, (m'.release (held.map (·.2))).group? g = m'.group? g := fun g => by
    rw [group?_eq_binding?, group?_eq_binding?, hbinding]
  have hsize : ∀ k : Host, (k.bus? b).map (·.registry.size) =
      ((k.bus? b).map (·.registry)).map Registry.size := fun k => by
    rw [Option.map_map]
    rfl
  constructor
  case fresh => exact ha.fresh
  case size => rw [← ha.size, hsize, hsize m', hleft.registries]
  case kind => rw [← ha.kind, kind?, kind?, hbinding]
  case grown => rw [hgroup]; exact ha.grown
  case others => exact fun g hg => (hbinding g).trans (ha.others g hg)
  case loopsStarted => exact hleft.loopsStarted.trans ha.loopsStarted
  case loops => exact hleft.loops.trans ha.loops
  case tasks =>
    rw [hleft.tasks, ha.tasks, if_neg hrun, if_neg hrun]
  case active => rw [← ha.active, isActive, isActive, hgroup]
  case journal => exact (journal_release _ _).trans ha.journal
  case now => exact hleft.now.trans ha.now
  case current => exact hleft.runtime.trans ha.current
  case runtimes => exact hleft.runtimes.trans ha.runtimes
  case settings => exact fun x => (hleft.settings x).trans (ha.settings x)
  case closed => exact fun x => (hleft.closed x).trans (ha.closed x)
  case down =>
    -- the task of the newcomer is not there, so it holds nothing up
    have hheld : ∀ x, m'.isHeld x = m.isHeld x := fun x => by
      rw [isHeld, isHeld, ha.handles, ha.preset, ha.tasks, if_neg hrun, List.append_nil]
    intro x
    rw [hleft.down, ha.down, hheld]
    simp [hrun]
  case handles => exact hleft.handles.trans ha.handles
  case preset => exact hleft.preset.trans ha.preset
  case subscriptions => exact hleft.subscriptions.trans ha.subscriptions

theorem subscribe_of_accepts (hr : m.Reached) (hbus : m.bus? b = some bus)
    (ha : bus.Accepts context who.type who.kind runtime) (held : List (Target × BusId)) :
    (m.subscribe b context who held).1 = .ok (m.nextAt ⟨b, who.type⟩) ∧
      m.Admitted b bus who held runtime (m.subscribe b context who held).2 := by
  obtain ⟨p, hp, rfl⟩ := ha.place
  have he := readied_of_place hr hbus hp
  have hafter := subscribe_of_place hbus hp held
  have hanswer : (m.subscribe b context who held).1 =
      .ok (((m.modifyBus b fun bus => { bus with registry := p.registry }).ensureLoop
        ⟨b, who.type⟩ who.kind bus.flushInterval p).newcomer ⟨b, who.type⟩ p.runtime who.handler
          held).consumer := by
    simp only [subscribe, hbus, hp]
    rfl
  dsimp only at hafter
  generalize (m.modifyBus b fun bus => { bus with registry := p.registry }).ensureLoop
    ⟨b, who.type⟩ who.kind bus.flushInterval p = e at he hafter hanswer
  rw [he.newcomer held] at hafter hanswer
  refine ⟨hanswer, ?_⟩
  rw [hafter, spawn]
  split
  · next hrun => exact he.admitted_alive hr (he.current.symm.trans hrun) held
  · next hrun =>
    have hgone : m.runtime ≠ some p.runtime := fun h => hrun (he.current.trans h)
    exact (he.admitted_gone hr hgone held).release hgone held

end

/-! ## Who asks -/

/-- When `h` is reached, somebody asks in `m`, where `context` is the current runtime: the program,
or a handler in the middle of its call. To find the bus may have made the default one. -/
inductive Asking (h : Host) : Option RuntimeId → Host → Prop
  | outside : Asking h none h
  | inside : Asking h h.runtime h
  | handler {t : Task} {lent : Option (List Event)} {call : Call} (next : Call) :
      h.task? t.consumer = some t → t.phase = .draining lent (some call) →
      Asking h (some t.runtime) (h.setTask (t.continueCall lent next))
  | found {context : Option RuntimeId} {m : Host} : Asking h context m →
      Asking h context m.useDefault.2

namespace Asking

theorem changes (ha : h.Asking context m) : Changes (fun _ => True) h m := by
  induction ha with
  | outside | inside => exact .refl h
  | handler next ht hp => exact step_changes trivial ht (.work hp)
  | @found context m _ ih => exact ih.trans ((useDefault_extends m).1.mono trivial)

theorem loopsPinned (ha : h.Asking context m) (hr : h.Reachable) : m.LoopsPinned := by
  refine hr.loopsPinned.of_started hr.reached ha.changes ?_
  induction ha with
  | outside | inside | handler => rfl
  | found _ ih => exact (useDefault_keepsRuntime _).loopsStarted.trans ih

end Asking

/-- A group of a bus that is pinned to a runtime that is gone has no loop. -/
theorem loopsOf_of_gone (hr : m.Reached) (hm : m.LoopsPinned) (hbus : m.bus? b = some bus)
    {type : EventType} {runtime : RuntimeId} (hpinned : bus.pinned = some runtime)
    (hgone : m.runtime ≠ some runtime) : m.loopsOf ⟨b, type⟩ = [] := by
  refine loopsOf_eq_nil_iff.mpr fun l hl hlg => hgone ?_
  have hlr := hm l hl runtime (by rw [hlg, pinned?_of_bus? hbus, hpinned])
  rw [hr.onRuntime.loops l hl, hlr]

/-- Whether a refusal is fatal makes no difference to the state. -/
theorem subscribeAt_fatal (m : Host) (own : List (Target × BusId)) (context : Option RuntimeId)
    (target : Target) (who : Subscriber Action) :
    m.subscribeAt own context target { who with fatal := true } =
      ((m.subscribeAt own context target { who with fatal := false }).1.escalated,
        (m.subscribeAt own context target { who with fatal := false }).2) := by
  have hsame : ∀ (m : Host) (b : BusId) (held : List (Target × BusId)) (fatal : Bool),
      m.subscribe b context { who with fatal } held = m.subscribe b context who held :=
    fun _ _ _ _ => rfl
  simp only [subscribeAt, withBus, hsame]
  split
  · split <;> rfl
  · rfl

/-- A bus is pinned to a runtime that has been replaced. -/
def strandingTurns : List Turn :=
  [.obey (.make "b" {} true), .obey .startRuntime]

def stranded : Host := ((initial true).replay strandingTurns).getD {}

end Host

end EventBus
