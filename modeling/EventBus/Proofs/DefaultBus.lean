import EventBus.Proofs.Closing
import EventBus.Proofs.FirstUse
import EventBus.Proofs.Instant
import EventBus.Proofs.Ownership

/-!
# The default bus is an ordinary bus

As long as the default bus is not fixed it may become any bus: one that is installed, or a new one
that the first use makes. A turn that uses the default bus before it is fixed does what it would do
if that had been made just before.

From then on the default bus is a bus like any other. Whatever is asked by way of the default is
answered, and changes the program, as if it were asked by way of any other handle of that bus.

Both parts are equations between programs: what an action or a command does by way of the default is
what it does after the default bus was made (`perform_useDefault`), or by way of a handle to the
same bus (`perform_via`).
-/

set_option autoImplicit false

namespace EventBus

open Host

/-! ## The same by another way -/

/-- The action asked of another bus, if it is asked of one. -/
def Action.via (target : Target) : Action → Action
  | .publish _ event => .publish target event
  | .countdown _ => .countdown target
  | .close _ => .close target
  | .count _ type => .count target type
  | .consult (.count _ type) skip => .consult (.count target type) skip
  | .subscribe _ who => .subscribe target who
  | a => a

/-- The command asked of another bus, if it is asked of one. -/
def Command.via (target : Target) : Command → Command
  | .clone _ name => .clone target name
  | .subscribe _ who outside => .subscribe target who outside
  | .publish _ event => .publish target event
  | .close _ => .close target
  | .count _ type => .count target type
  | .info _ => .info target
  | .install _ => .install target
  | c => c

namespace Host

variable {h m h' : Host} {b : BusId} {own : List (Target × BusId)} {target : Target}

theorem withBus_congr {other : Target} (ht : h.locate own target = (some b, h))
    (ho : h.locate own other = (some b, h)) (f : BusId → Host → Answer × Host) :
    h.withBus own target f = h.withBus own other f := by
  rw [withBus, withBus, ht, ho]

/-- Two targets that mean the same bus are the same to a program. -/
theorem obey_via {other : Target} (hb : h.HasBus b) (ht : h.locate [] target = (some b, h))
    (ho : h.locate [] other = (some b, h)) (c : Command) :
    h.obey (c.via target) = h.obey (c.via other) := by
  cases c with
  | clone | subscribe | publish | close | count | install =>
    simp only [Command.via, obey, cloneAs, subscribeAt, publishTo, closeAt, countAt, installFrom]
    rw [withBus_congr ht ho]
  | info =>
    obtain ⟨bus, hbus⟩ := Option.isSome_iff_exists.mp hb
    simp only [Command.via, obey, infoOf, ht, ho, Option.bind_some, hbus]
  | make | drop | inspect | cancel | surrender | stopRuntime | startRuntime | advance => rfl

/-- Two targets that mean the same bus are the same to a handler. -/
theorem perform_via {t : Task} {other : Target} (ht : h.locate t.held target = (some b, h))
    (ho : h.locate t.held other = (some b, h)) (lent : Option (List Event)) (next : Call)
    (a : Action) : h.perform t lent next (a.via target) = h.perform t lent next (a.via other) := by
  have hset : ∀ {means : Target}, h.locate t.held means = (some b, h) →
      (h.setTask (t.continueCall lent next)).locate t.held means =
        (some b, h.setTask (t.continueCall lent next)) := by
    intro means hmeans
    rw [locate_setTask, hmeans]
  cases a with
  | publish | countdown | close | count | subscribe =>
    simp only [Action.via, perform, publishTo, countdownTo, closeAt, countAt, subscribeAt, enter,
      Action.word]
    rw [withBus_congr (hset ht) (hset ho)]
  | consult question skip =>
    cases question with
    | count _ type =>
      simp only [Action.via, perform, consult, ask, countAt, Question.word]
      rw [withBus_congr ht ho]
    | status name => rfl
  | cancel | sleep | panic | report => rfl

/-- What the default means to somebody who holds no other bus as the default. -/
theorem locate_default (hb : h.preset = some b) (hloyal : h.Loyal own) :
    h.locate own .default = (some b, h) := by
  unfold locate
  split
  · next b' hown =>
    have hsame : h.preset = some b' := hloyal _ (mem_of_lookup hown) rfl
    rw [← hsame, hb]
  · rw [useDefault_of_some hb]

/-- What is held under a name is what the name stands for. -/
theorem lookup_hold (h : Host) (name : String) (b : BusId) :
    (h.hold name b).handle? name = some b := by
  have hhandles : (h.hold name b).handles = (name, b) :: h.otherHandles name :=
    release_of_abandon (·.handles) (fun _ _ => rfl) _ _
  simp [handle?, hhandles]

/-! ## Before the first use -/

/-- The first use changes the buses there are and which of them is the default. -/
theorem useDefault_frame (h : Host) :
    ∃ buses preset, h.useDefault.2 = { h with buses, preset } := by
  cases hpre : h.preset with
  | none => exact ⟨_, _, by rw [useDefault_of_none hpre]⟩
  | some b => exact ⟨h.buses, h.preset, by rw [useDefault_of_some hpre]⟩

theorem handles_useDefault (h : Host) : h.useDefault.2.handles = h.handles := by
  obtain ⟨buses, preset, hframe⟩ := h.useDefault_frame
  rw [hframe]

theorem useDefault_useDefault (h : Host) : h.useDefault.2.useDefault = h.useDefault := by
  cases hpre : h.preset with
  | none =>
    rw [useDefault_of_none hpre]
    exact useDefault_of_some rfl
  | some b => rw [useDefault_of_some hpre, useDefault_of_some hpre]

theorem useDefault_setTask (h : Host) (t : Task) :
    (h.setTask t).useDefault.2 = h.useDefault.2.setTask t := by
  cases hpre : h.preset with
  | none => rw [useDefault_of_none hpre, useDefault_of_none (h := h.setTask t) hpre]; rfl
  | some b => rw [useDefault_of_some hpre, useDefault_of_some (h := h.setTask t) hpre]

theorem locate_useDefault (hn : needsDefault own target = true) :
    h.locate own target = h.useDefault.2.locate own target := by
  simp only [needsDefault, Bool.and_eq_true, Option.isNone_iff_eq_none, beq_iff_eq] at hn
  obtain ⟨hnone, rfl⟩ := hn
  rw [locate, locate, hnone]
  dsimp only
  rw [useDefault_useDefault]

theorem locate_useDefault_of_not_needed (hn : needsDefault own target = false) :
    h.useDefault.2.locate own target = ((h.locate own target).1, h.useDefault.2) := by
  unfold needsDefault at hn
  unfold locate
  split
  · rfl
  · next hnone =>
    cases target with
    | named name => simp only [handle?, handles_useDefault]
    | default => simp [hnone] at hn

theorem locateAll_useDefault {targets : List Target}
    (hn : targets.any (needsDefault own) = true) :
    h.locateAll own targets = h.useDefault.2.locateAll own targets := by
  induction targets with
  | nil => exact absurd hn (by simp)
  | cons target rest ih =>
    rw [locateAll, locateAll]
    cases hfirst : needsDefault own target with
    | true => rw [locate_useDefault hfirst]
    | false =>
      rw [List.any_cons, hfirst, Bool.false_or] at hn
      have hlocate : h.locate own target = ((h.locate own target).1, h) :=
        Prod.ext rfl (locate_of_not_needed hfirst)
      rw [locate_useDefault_of_not_needed hfirst, hlocate]
      dsimp only
      rw [ih hn]

theorem withBus_useDefault (hn : needsDefault own target = true)
    (f : BusId → Host → Answer × Host) :
    h.withBus own target f = h.useDefault.2.withBus own target f := by
  rw [withBus, withBus, locate_useDefault hn]

theorem subscribeAt_useDefault {context : Option RuntimeId} {who : Subscriber Action}
    (hn : h.joinNeedsDefault own target who = true) :
    h.subscribeAt own context target who = h.useDefault.2.subscribeAt own context target who := by
  cases hfirst : needsDefault own target with
  | true => exact withBus_useDefault hfirst _
  | false =>
    -- only what the handler is to hold needs the default bus, and the bus it subscribes to is there
    rw [joinNeedsDefault, hfirst, Bool.false_or, Bool.and_eq_true] at hn
    obtain ⟨hfound, hhold⟩ := hn
    obtain ⟨b, hb⟩ := Option.isSome_iff_exists.mp hfound
    have hlocate : h.locate own target = (some b, h) :=
      Prod.ext hb (locate_of_not_needed hfirst)
    rw [subscribeAt, subscribeAt, withBus, withBus, locate_useDefault_of_not_needed hfirst,
      hlocate]
    dsimp only
    rw [locateAll_useDefault hhold]

/-- A handler that uses the default bus first does what it would do if that had just been made. -/
theorem perform_useDefault {t : Task} {lent : Option (List Event)} {next : Call} {a : Action}
    (hn : a.needsDefault h t.held = true) :
    h.perform t lent next a = h.useDefault.2.perform t lent next a := by
  cases a with
  | publish | countdown | close | count =>
    simp only [perform, publishTo, countdownTo, closeAt, countAt]
    rw [withBus_useDefault hn, useDefault_setTask]
  | consult question skip =>
    cases question with
    | count target type =>
      simp only [perform, consult, ask, countAt]
      rw [withBus_useDefault hn]
    | status name => exact absurd hn (by simp [Action.needsDefault])
  | subscribe target who =>
    simp only [perform]
    rw [← useDefault_setTask, ← subscribeAt_useDefault]
    rw [joinNeedsDefault_setTask]
    exact hn
  | cancel | sleep | panic | report => exact absurd hn (by simp [Action.needsDefault])

/-- A command that uses the default bus first does what it would do if that had just been made. -/
theorem obey_useDefault {c : Command} (hn : c.needsDefault h = true) :
    h.obey c = h.useDefault.2.obey c := by
  cases c with
  | clone | publish | close | count | install =>
    simp only [obey, cloneAs, publishTo, closeAt, countAt, installFrom]
    rw [withBus_useDefault hn]
  | info target => rw [obey, obey, infoOf, infoOf, locate_useDefault hn]
  | subscribe target who outside =>
    have hruntime : h.useDefault.2.runtime = h.runtime := by
      obtain ⟨buses, preset, hframe⟩ := h.useDefault_frame
      rw [hframe]
    rw [obey, obey, hruntime, subscribeAt_useDefault hn]
  | make | drop | inspect | cancel | surrender | stopRuntime | startRuntime | advance =>
    exact absurd hn (by simp [Command.needsDefault])

theorem drain?_useDefault {t : Task} {lent : Option (List Event)} {call : Call}
    (hp : t.phase = .draining lent (some call)) (hn : t.needsDefault h = true) :
    h.drain? t lent (some call) = h.useDefault.2.drain? t lent (some call) := by
  rw [needsDefault_of_draining hp] at hn
  split at hn
  · next a rest hawake htodo =>
    simp only [drain?, hawake, htodo]
    rw [perform_useDefault hn]
  · exact absurd hn (by simp)

theorem runTask?_useDefault {t : Task} (hn : t.needsDefault h = true) :
    h.runTask? t = h.useDefault.2.runTask? t := by
  obtain ⟨lent, call, hp⟩ : ∃ lent call, t.phase = .draining lent (some call) := by
    by_contra hno
    have hidle : t.needsDefault h = false :=
      not_needsDefault fun lent call hp => hno ⟨lent, call, hp⟩
    rw [hidle] at hn
    exact absurd hn (by simp)
  have hover : t.isOver = false := by
    rw [← Bool.not_eq_true]
    intro hover
    rw [not_needsDefault_of_isOver hover] at hn
    exact absurd hn (by simp)
  rw [runTask?, runTask?, hover, Bool.and_false, if_neg (by simp), if_neg (by simp), stepTask?,
    stepTask?, hp]
  exact drain?_useDefault hp hn

/-- Whatever uses the default bus first does what it would do if that had just been made. -/
theorem turn?_useDefault {u : Turn} {b : BusId} (hu : u.fixes? h = some (.made b)) :
    b = h.buses.length ∧ h.turn? u = h.useDefault.2.turn? u := by
  -- a turn that makes the default bus is one that needs it
  have hmade : ∀ {needed : Bool},
      (if needed then some (FirstUse.made h.buses.length) else none) = some (.made b) →
        b = h.buses.length ∧ needed = true := by
    rintro (_ | _) hsome
    · exact absurd hsome (by simp)
    · cases hsome
      exact ⟨rfl, rfl⟩
  cases u with
  | obey c =>
    rw [turn?, turn?]
    suffices hneeded : b = h.buses.length ∧ c.needsDefault h = true from
      ⟨hneeded.1, by rw [obey_useDefault hneeded.2]⟩
    change c.fixes? h = some (.made b) at hu
    -- an install fixes the bus of a handle and makes none
    have hnot : ∀ name, (h.handle? name).map FirstUse.installed ≠ some (.made b) := by
      intro name hname
      obtain ⟨b', -, hinstalled⟩ := Option.map_eq_some_iff.mp hname
      exact absurd hinstalled (by simp)
    unfold Command.fixes? at hu
    split at hu
    · exact absurd hu (hnot _)
    · exact absurd hu (hnot _)
    · exact hmade hu
  | move m =>
    cases m with
    | run c =>
      obtain ⟨rfl, hneeded⟩ := hmade hu
      refine ⟨rfl, ?_⟩
      obtain ⟨buses, preset, hframe⟩ := h.useDefault_frame
      -- the task is the same with and without the default bus
      have htask : h.useDefault.2.task? c = h.task? c := by
        rw [hframe]
        rfl
      cases ht : h.task? c with
      | none => exact absurd hneeded (by simp [ht])
      | some t =>
        rw [ht] at hneeded
        rw [turn?, turn?, move?, move?, htask, ht]
        exact runTask?_useDefault hneeded
    | leave | tick | halt => exact absurd hu (by simp [Turn.fixes?])
  | pass instant => exact absurd hu (by simp [Turn.fixes?])

theorem useDefault_builder? (hnone : h.preset = none) :
    h.useDefault.2.builder? h.buses.length = some {} := by
  rw [useDefault_of_none hnone, builder?, bus?_append, if_pos rfl]
  rfl

theorem Changes.builder? {ns : Nature → Prop} (hc : Changes ns h h') {builder : Builder}
    (hs : h.builder? b = some builder) : h'.builder? b = some builder :=
  hc.keeps (P := fun m => m.builder? b = some builder) (fun hchange => hchange.builder?) hs

/-- A default bus that was made by its first use has the default configuration. -/
theorem Run.builder?_of_made {ts : List Turn} (run : Run h ts h') (hr : h.Reached)
    (hnone : h.preset = none) (hmade : h.firstUse? ts = some (.made b)) :
    h'.builder? b = some {} := by
  induction run with
  | nil h => exact absurd hmade (by simp [firstUse?])
  | @cons h m _ u _ turn rest ih =>
    have hm : m.Reached := hr.changes (turn?_changes hr turn).changes
    rw [firstUse?, turn, Option.bind_some] at hmade
    cases hfixes : u.fixes? h with
    | none =>
      rw [hfixes, Option.none_or] at hmade
      have hstill := preset_turn? turn
      rw [hfixes, hnone] at hstill
      exact ih hm hstill hmade
    | some use =>
      rw [hfixes, Option.some_or] at hmade
      obtain rfl := Option.some.inj hmade
      obtain ⟨rfl, hsame⟩ := turn?_useDefault hfixes
      have hfirst : Changes (fun _ => True) h h.useDefault.2 :=
        (useDefault_extends h).1.mono trivial
      have hfresh : h.useDefault.2.Reached := hr.changes hfirst
      have hturn := turn?_changes hfresh (hsame.symm.trans turn)
      have hrun := rest.changes hm
      exact Changes.builder? hrun (Changes.builder? hturn.changes (useDefault_builder? hnone))

/-- What may become the default bus as long as it is not fixed. -/
structure Unsettled (h : Host) : Prop where
  -- A bus that a name stands for is installed, by a clone of its handle or by the handle itself.
  install : ∀ name b, h.handle? name = some b →
    h.obey (.install (.named name)) = (.answer .done, { h with preset := some b })
  surrender : ∀ name b, h.handle? name = some b →
    h.obey (.surrender name) =
      (.answer .done, { h with handles := h.otherHandles name, preset := some b })
  -- Any other use is one of a bus that is made just before it.
  fresh : h.useDefault = (h.buses.length,
    { h with buses := h.buses ++ [{}], preset := some h.buses.length })
  command : ∀ c, c.needsDefault h = true → h.obey c = h.useDefault.2.obey c
  turn : ∀ u b, u.fixes? h = some (.made b) →
    b = h.buses.length ∧ h.turn? u = h.useDefault.2.turn? u

theorem unsettled (hnone : h.preset = none) : h.Unsettled where
  install name b hb := by
    rw [obey, installFrom, withBus, locate, List.lookup_nil]
    dsimp only
    rw [hb]
    simp only [Host.install, hnone, acknowledged, answered]
  surrender name b hb := by
    simp only [obey, Host.surrender, hb, Host.install, hnone, acknowledged, answered]
  fresh := useDefault_of_none hnone
  command _ hneeded := obey_useDefault hneeded
  turn _ _ hmade := turn?_useDefault hmade

/-! ## After the first use -/

/-- The default bus is `b`, which is a bus like any other. -/
structure Settled (h : Host) (b : BusId) : Prop where
  known : h.HasBus b
  -- It is shut down by nothing but a close.
  signal : h.isDown b = h.journal.hasClosed b
  -- Whatever bus is to be installed, it comes too late. A clone that was given away is gone again,
  -- and nothing is changed.
  install : ∀ target, (h.locate [] target).1.isSome = true →
    h.obey (.install target) = (.answer (.refused .alreadyInstalled), h)
  -- A handle that was given away is gone for the program, and if it was the last one of its bus
  -- that bus is shut down; nothing else is changed.
  surrender : ∀ name b', h.handle? name = some b' →
    let left := { h with handles := h.otherHandles name }
    h.obey (.surrender name) =
      (.answer (.refused .alreadyInstalled), if left.isHeld b' then left else left.abandon b')
  handle : ∀ name, (h.obey (.clone .default name)).2.handle? name = some b
  -- To the program and to its handlers the default is the same as every other way to the bus.
  program : ∀ target, (h.locate [] target).1 = some b → ∀ c : Command,
    h.obey (c.via .default) = h.obey (c.via target)
  handlers : ∀ t ∈ h.tasks, ∀ target, (h.locate t.held target).1 = some b →
    ∀ lent next (a : Action),
      h.perform t lent next (a.via .default) = h.perform t lent next (a.via target)

theorem Reachable.settled (hr : h.Reachable) (hb : h.preset = some b) : h.Settled b := by
  have hheld : h.isHeld b = true := isHeld_of_preset hb
  have hknown : h.HasBus b := hr.reached.holdsSound.known b hheld
  constructor
  case known => exact hknown
  case signal =>
    apply Bool.eq_iff_iff.mpr
    rw [hr.isDown_iff hknown, hheld]
    simp
  case install =>
    intro target hfound
    obtain ⟨b', hl, hheld'⟩ : ∃ b', h.locate [] target = (some b', h) ∧ h.isHeld b' = true := by
      obtain ⟨b', hb'⟩ := Option.isSome_iff_exists.mp hfound
      cases target with
      | named name => exact ⟨b', Prod.ext hb' rfl, handle?_isHeld hb'⟩
      | default => exact ⟨b, locate_default hb (by simp [Loyal]), hheld⟩
    -- the handle that is turned away was not the last one
    have hkept : h.release [b'] = h := release_of_isHeld hheld'
    rw [Host.obey, installFrom, withBus, hl]
    simp only [install, hb, acknowledged, answered, hkept]
  case surrender =>
    intro name b' hb'
    simp only [Host.obey, Host.surrender, hb', Host.install, hb, acknowledged, answered]
    rfl
  case handle =>
    intro name
    rw [Host.obey, cloneAs, withBus, locate_default hb (by simp [Loyal])]
    exact h.lookup_hold name b
  case program =>
    intro target hl c
    exact obey_via hknown (locate_default hb (by simp [Loyal])) (locate_of_known hknown hl) c
  case handlers =>
    intro t ht target hl lent next a
    exact perform_via (locate_default hb (hr.loyal t ht)) (locate_of_known hknown hl) lent next a

/-! ## The main result -/

/-- **The default bus is one ordinary bus, fixed by its first use.** After every run the default bus
is what the first turn that used it made it, and there is none if no turn did. Until then a bus that
is installed becomes it, and any other use is the use of a bus with the default configuration that
is made just before. From then on every installation is refused, and changes nothing but that the
handle it was given is dropped, which shuts a bus down if it was the last one; the default bus is
shut down by nothing but a close; and whatever is asked by way of the default, by the program or by
a handler, has the answer and the effect on the whole program that it has by way of any other handle
of the bus. It stays the default bus whatever follows. -/
theorem default_bus_is_ordinary {running : Bool} {ts : List Turn} {h : Host}
    (run : Run (initial running) ts h) :
    h.preset = ((initial running).firstUse? ts).map (·.bus) ∧
      (h.preset = none → h.Unsettled) ∧
      ∀ b, h.preset = some b → h.Settled b ∧
        ((initial running).firstUse? ts = some (.made b) → h.builder? b = some {}) ∧
        ∀ us h', Run h us h' → h'.preset = some b := by
  have hnone : (initial running).preset = none := by cases running <;> rfl
  refine ⟨?_, unsettled, fun b hb => ⟨Reachable.settled ⟨running, ts, run⟩ hb, ?_, ?_⟩⟩
  · rw [Run.preset run, hnone, Option.none_or]
  · exact Run.builder?_of_made run (initial_reached running) hnone
  · intro us h' later
    rw [Run.preset later, hb, Option.some_or]

/-- A bus is installed as long as the default bus is not fixed, and another is made after that. -/
def installingTurns : List Turn :=
  [.obey (.make "b" {} false), .obey (.install (.named "b")), .obey (.make "c" {} false)]

/-- An event is published by way of the default, though there is a bus that might be installed. -/
def emittingTurns : List Turn :=
  [.obey (.make "b" {} false), .obey (.publish .default (.int 1))]

def installed : Host := ((initial true).replay installingTurns).getD {}

def emitting : Host := ((initial true).replay emittingTurns).getD {}

/-- The bus that was installed may be closed by its name as well as by way of the default, and the
other one may not be installed any more: it stays as it is when a clone is given away, and is shut
down when its only handle is. The bus that was made has the default configuration. -/
theorem default_bus_is_ordinary_either_way :
    installed.preset = some 0 ∧
      installed.obey (.install (.named "c")) =
        (.answer (.refused .alreadyInstalled), installed) ∧
      installed.obey (.surrender "c") = (.answer (.refused .alreadyInstalled),
        { installed with handles := [("b", 0)] }.abandon 1) ∧
      installed.obey (.close .default) = installed.obey (.close (.named "b")) ∧
      emitting.preset = some 1 ∧ emitting.builder? 1 = some {} ∧
      emitting.obey (.install (.named "b")) =
        (.answer (.refused .alreadyInstalled), emitting) := by
  have hinstalled : Run (initial true) installingTurns installed := run_of_isSome (by decide)
  have hemitting : Run (initial true) emittingTurns emitting := run_of_isSome (by decide)
  obtain ⟨hfirst, -, hfixed⟩ := default_bus_is_ordinary hinstalled
  obtain ⟨hmade, -, hsettled⟩ := default_bus_is_ordinary hemitting
  have hpreset : installed.preset = some 0 := hfirst.trans (by decide)
  have hpreset' : emitting.preset = some 1 := hmade.trans (by decide)
  refine ⟨hpreset, (hfixed 0 hpreset).1.install _ (by decide), ?_, ?_, hpreset', ?_, ?_⟩
  · exact (hfixed 0 hpreset).1.surrender "c" 1 (by decide)
  · exact (hfixed 0 hpreset).1.program (.named "b") (by decide) (.close .default)
  · exact (hsettled 1 hpreset').2.1 (by decide)
  · exact (hsettled 1 hpreset').1.install _ (by decide)

/-- A refused installation does not leave the bus it was given unchanged: the bus loses its only
handle, and is shut down. -/
theorem refused_install_shuts_down :
    installed.Reachable ∧ installed.preset = some 0 ∧ installed.handle? "c" = some 1 ∧
      (installed.obey (.surrender "c")).1 = .answer (.refused .alreadyInstalled) ∧
      installed.isDown 1 = false ∧ (installed.obey (.surrender "c")).2.isDown 1 = true :=
  ⟨⟨true, installingTurns, run_of_isSome (by decide)⟩, by decide, by decide, rfl, by decide,
    by decide⟩

end Host

end EventBus
