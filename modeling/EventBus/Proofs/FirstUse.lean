import EventBus.Proofs.Closing
import EventBus.Proofs.Episode

/-!
# The first use of the default bus

A program has at most one default bus. It is fixed by the first turn that uses it: to the bus that
is installed, if that is what the turn does, and else to a new one with the default configuration.
Which turn that is can be told before it is taken, and `firstUse?` does so.
-/

set_option autoImplicit false

namespace EventBus

/-! ## Who needs the default bus -/

namespace Host

/-- Whether somebody who holds `own` must ask for the default bus of the program to reach a target.
-/
def needsDefault (own : List (Target × BusId)) (target : Target) : Bool :=
  (own.lookup target).isNone && target == .default

/-- Whether the default bus is asked for when somebody subscribes: as the bus to subscribe to, or
else, if that is found, as one that the handler is to hold. -/
def joinNeedsDefault (h : Host) (own : List (Target × BusId)) (target : Target)
    (who : Subscriber Action) : Bool :=
  needsDefault own target ||
    ((h.locate own target).1.isSome && who.hold.any (needsDefault own))

end Host

open Host

/-- The action that a task performs next. -/
def Task.nextAction? (t : Task) : Option Action :=
  match t.phase with
  | .draining _ (some call) => if call.asleep.isNone then call.todo.head? else none
  | _ => none

/-- Whether a handler that holds `own` asks for the default bus by an action. -/
def Action.needsDefault (h : Host) (own : List (Target × BusId)) : Action → Bool
  | .publish target _ | .countdown target | .close target | .count target _
  | .consult (.count target _) _ => Host.needsDefault own target
  | .subscribe target who => h.joinNeedsDefault own target who
  | .consult (.status _) _ | .cancel _ | .sleep _ | .panic .. | .report => false

/-- Whether the default bus is asked for by a command. -/
def Command.needsDefault (h : Host) : Command → Bool
  | .clone target _ | .publish target _ | .close target | .count target _ | .info target
  | .install target => Host.needsDefault [] target
  | .subscribe target who _ => h.joinNeedsDefault [] target who
  | _ => false

/-- What becomes the default bus by its first use. -/
inductive FirstUse where
  -- A bus that is there.
  | installed (b : BusId)
  -- A new bus with the default configuration.
  | made (b : BusId)
  deriving DecidableEq, Repr

def FirstUse.bus : FirstUse → BusId
  | installed b | made b => b

/-- What a command makes the default bus, if that is not fixed yet. A bus that is made for that
comes after all others. -/
def Command.fixes? (h : Host) (c : Command) : Option FirstUse :=
  match c with
  | .install (.named name) | .surrender name => (h.handle? name).map .installed
  | _ => if c.needsDefault h then some (.made h.buses.length) else none

/-- Whether the next action of a task asks for the default bus. -/
def Task.needsDefault (h : Host) (t : Task) : Bool :=
  (t.nextAction?.map fun a => a.needsDefault h t.held).getD false

/-- What a turn makes the default bus, if that is not fixed yet. A task needs it for the action that
it performs, so no other move uses it. -/
def Turn.fixes? (h : Host) : Turn → Option FirstUse
  | .obey c => c.fixes? h
  | .move (.run c) =>
    if ((h.task? c).map fun t => t.needsDefault h).getD false then some (.made h.buses.length)
    else none
  | .move (.leave _) | .move (.tick _) | .move (.halt _) | .pass _ => none

/-- What the first turn that uses the default bus makes it. -/
def Host.firstUse? (h : Host) : List Turn → Option FirstUse
  | [] => none
  | u :: us => (u.fixes? h).or ((h.turn? u).bind (firstUse? · us))

namespace Host

variable {h m h' : Host} {own : List (Target × BusId)} {target : Target}

/-! ## Finding a bus -/

/-- Who does not need the default bus finds a bus without changing anything. -/
theorem locate_of_not_needed (hn : needsDefault own target = false) :
    (h.locate own target).2 = h := by
  unfold needsDefault at hn
  unfold locate
  split
  · rfl
  · next hnone =>
    cases target with
    | named name => rfl
    | default => simp [hnone] at hn

/-- A default bus that was made has the number after the last bus. -/
theorem preset_useDefault (h : Host) :
    h.useDefault.2.preset = h.preset.or (some h.buses.length) := by
  cases hpre : h.preset with
  | none => rw [useDefault_of_none hpre]; rfl
  | some b => rw [useDefault_of_some hpre, hpre]; rfl

/-- To find a bus fixes the default bus if it is needed for that. -/
theorem preset_locate (h : Host) (own : List (Target × BusId)) (target : Target) :
    (h.locate own target).2.preset =
      h.preset.or (if needsDefault own target then some h.buses.length else none) := by
  cases hn : needsDefault own target with
  | false => rw [locate_of_not_needed hn, if_neg (by simp), Option.or_none]
  | true =>
    simp only [needsDefault, Bool.and_eq_true, Option.isNone_iff_eq_none, beq_iff_eq] at hn
    obtain ⟨hnone, rfl⟩ := hn
    rw [if_pos rfl, ← preset_useDefault, locate, hnone]

/-- To find several fixes it if it is needed for one of them; those that come later find it fixed.
-/
theorem preset_locateAll (own : List (Target × BusId)) (targets : List Target) :
    ∀ h : Host, (h.locateAll own targets).2.preset =
      h.preset.or (if targets.any (needsDefault own) then some h.buses.length else none) := by
  induction targets with
  | nil => exact fun h => (Option.or_none).symm
  | cons target rest ih =>
    intro h
    apply (ih (h.locate own target).2).trans
    cases hn : needsDefault own target with
    | false => rw [locate_of_not_needed hn, List.any_cons, hn, Bool.false_or]
    | true =>
      -- the first target fixes it, and nothing is left for the others to fix
      rw [preset_locate, hn, List.any_cons, hn, Bool.true_or, if_pos rfl]
      cases h.preset <;> rfl

/-- What is done with a bus may need the default bus in its turn, after the bus was found. -/
theorem preset_withBus_asking {f : BusId → Host → Answer × Host} {asks : Bool}
    (hf : ∀ b (m : Host), (f b m).2.preset =
      m.preset.or (if asks then some m.buses.length else none)) (h : Host)
    (own : List (Target × BusId)) (target : Target) :
    (h.withBus own target f).2.preset =
      h.preset.or (if needsDefault own target || ((h.locate own target).1.isSome && asks)
        then some h.buses.length else none) := by
  have hlocate := preset_locate h own target
  unfold withBus
  cases hn : needsDefault own target with
  | true =>
    rw [hn, if_pos rfl] at hlocate
    rw [Bool.true_or, if_pos rfl, ← hlocate]
    split
    · next b m heq =>
      rw [heq] at hlocate ⊢
      refine (hf b m).trans ?_
      rw [hlocate]
      cases h.preset <;> rfl
    · next m heq => rw [heq]
  | false =>
    -- the bus is found where it is, so `f` is all that may use the default bus
    have hsame := locate_of_not_needed (h := h) hn
    split
    · next b m heq =>
      rw [heq] at hsame ⊢
      obtain rfl := hsame
      exact hf b _
    · next m heq =>
      rw [heq] at hsame ⊢
      obtain rfl := hsame
      exact Option.or_none.symm

/-- A request that uses the default bus only to find its target fixes it if the target needs it. -/
theorem preset_withBus {f : BusId → Host → Answer × Host}
    (hf : ∀ b (m : Host), (f b m).2.preset = m.preset) (h : Host)
    (own : List (Target × BusId)) (target : Target) :
    (h.withBus own target f).2.preset =
      h.preset.or (if needsDefault own target then some h.buses.length else none) := by
  have hnone : ∀ b (m : Host), (f b m).2.preset =
      m.preset.or (if false then some m.buses.length else none) :=
    fun b m => (hf b m).trans Option.or_none.symm
  have hwith := preset_withBus_asking hnone h own target
  rwa [Bool.and_false, Bool.or_false] at hwith

/-! ## Requests leave the default bus as it is -/

theorem preset_release (gone : List BusId) (h : Host) : (h.release gone).preset = h.preset :=
  release_of_abandon (·.preset) (fun _ _ => rfl) gone h

theorem preset_publish (b : BusId) (event : Event) : (h.publish b event).preset = h.preset := by
  unfold publish
  split <;> rfl

theorem preset_cancelNamed (name : String) : (h.cancelNamed name).2.preset = h.preset := by
  unfold cancelNamed
  split
  · rfl
  · unfold cancel
    split <;> rfl

theorem preset_endTask (t : Task) (what : Happening) : (h.endTask t what).preset = h.preset :=
  preset_release _ _

theorem preset_lose (t : Task) : (h.lose t).preset = h.preset := by
  unfold lose
  split
  · rfl
  · exact preset_endTask t _

/-- A subscription uses the buses that were found for it, and no default bus. -/
theorem preset_subscribe (b : BusId) (context : Option RuntimeId) (who : Subscriber Action)
    (held : List (Target × BusId)) : (h.subscribe b context who held).2.preset = h.preset := by
  have hspawn : ∀ (m : Host) (t : Task), (m.spawn t).preset = m.preset :=
    fun m t => (spawn_news t).2.1
  unfold subscribe
  split
  · exact preset_release _ h
  · split
    · split
      · exact preset_release _ _
      · exact preset_release _ h
    · refine (hspawn _ _).trans ?_
      unfold ensureLoop attach
      split <;> rfl

section

variable (h : Host) (own : List (Target × BusId)) (target : Target)

theorem preset_publishTo (event : Event) : (h.publishTo own target event).2.preset =
    h.preset.or (if needsDefault own target then some h.buses.length else none) :=
  preset_withBus (fun b _ => preset_publish b event) h own target

theorem preset_countdownTo (event : Event) : (h.countdownTo own target event).2.preset =
    h.preset.or (if needsDefault own target then some h.buses.length else none) := by
  apply preset_withBus
  intro b m
  split
  · next n _ =>
    show (if 0 < n then m.publish b (.int (n - 1)) else m).preset = m.preset
    split
    · exact preset_publish b _
    · rfl
  · rfl

theorem preset_closeAt : (h.closeAt own target).2.preset =
    h.preset.or (if needsDefault own target then some h.buses.length else none) := by
  apply preset_withBus
  intro b m
  split
  · next hok =>
    obtain ⟨bus, -, -, rfl⟩ := close_eq_ok hok
    rfl
  · rfl

theorem preset_countAt (type : EventType) : (h.countAt own target type).2.preset =
    h.preset.or (if needsDefault own target then some h.buses.length else none) :=
  preset_withBus (fun _ _ => rfl) h own target

/-- The default bus may be needed for the subscription, or for what the handler is to hold. -/
theorem preset_subscribeAt (context : Option RuntimeId) (who : Subscriber Action) :
    (h.subscribeAt own context target who).2.preset =
      h.preset.or (if h.joinNeedsDefault own target who then some h.buses.length else none) := by
  apply preset_withBus_asking
  intro b m
  apply Eq.trans _ (preset_locateAll own who.hold m)
  have hsub := preset_subscribe (h := (m.locateAll own who.hold).2) b context who
    (m.locateAll own who.hold).1
  dsimp only
  split
  · next heq =>
    rw [heq] at hsub
    exact hsub
  · next heq =>
    rw [heq] at hsub
    exact hsub

end

/-! ## Turns -/

theorem joinNeedsDefault_setTask (h : Host) (t : Task) (own : List (Target × BusId))
    (target : Target) (who : Subscriber Action) :
    (h.setTask t).joinNeedsDefault own target who = h.joinNeedsDefault own target who := by
  rw [joinNeedsDefault, joinNeedsDefault, locate_setTask]

/-- **An action fixes the default bus if it needs it**, by what it is and what the handler holds. -/
theorem preset_perform (h : Host) (t : Task) (lent : Option (List Event)) (next : Call)
    (a : Action) : (h.perform t lent next a).preset =
      h.preset.or (if a.needsDefault h t.held then some h.buses.length else none) := by
  cases a with
  | publish target event => exact preset_publishTo (h.setTask _) t.held target event
  | countdown target => exact preset_countdownTo (h.setTask _) t.held target next.event
  | close target => exact preset_closeAt (h.setTask _) t.held target
  | count target type => exact preset_countAt (h.setTask _) t.held target type
  | consult question skip =>
    rw [perform_consult]
    cases question with
    | count target type => exact preset_countAt (h.setTask _) t.held target type
    | status name => exact (Option.or_none).symm
  | subscribe target who =>
    have hsub := preset_subscribeAt (h.setTask (t.continueCall lent next)) t.held target
      (some t.runtime) who
    rw [joinNeedsDefault_setTask] at hsub
    exact hsub
  | cancel name =>
    have hcancel := preset_cancelNamed (h := h.setTask (t.continueCall lent next)) name
    exact hcancel.trans (Option.or_none).symm
  | sleep | panic | report => exact (Option.or_none).symm

/-- What a task is about to do in the middle of a call, and whether that needs the default bus. -/
theorem needsDefault_of_draining {t : Task} {lent : Option (List Event)} {call : Call}
    (hp : t.phase = .draining lent (some call)) :
    t.needsDefault h = (match call.asleep, call.todo with
      | none, a :: _ => a.needsDefault h t.held
      | _, _ => false) := by
  unfold Task.needsDefault Task.nextAction?
  rw [hp]
  dsimp only
  cases call.asleep with
  | some alarm => rfl
  | none => cases call.todo <;> rfl

/-- A task that is in no call needs no default bus. -/
theorem not_needsDefault {t : Task}
    (hp : ∀ lent call, t.phase ≠ .draining lent (some call)) : t.needsDefault h = false := by
  unfold Task.needsDefault Task.nextAction?
  split
  · next hphase => exact absurd hphase (hp _ _)
  · rfl

/-- A job that is over does nothing more that could need the default bus. -/
theorem not_needsDefault_of_isOver {t : Task} (hover : t.isOver = true) :
    t.needsDefault h = false := by
  unfold Task.isOver at hover
  split at hover
  · next hp => exact not_needsDefault (by simp [hp])
  · next call hp =>
    rw [needsDefault_of_draining hp]
    rw [Bool.and_eq_true, Option.isNone_iff_eq_none] at hover
    obtain ⟨hawake, hpanic⟩ := hover
    obtain ⟨a, ha, hpanic⟩ := (Option.any_eq_true _ _).mp hpanic
    obtain ⟨rest, htodo⟩ := List.head?_eq_some_iff.mp ha
    rw [hawake, htodo]
    cases a with
    | panic => rfl
    | _ => exact absurd hpanic (by simp [Action.isPanic])
  · exact absurd hover (by simp)

theorem preset_look (t : Task) : (h.look t).preset = h.preset := by
  unfold look
  split
  · exact preset_endTask t _
  · dsimp only
    split
    · rfl
    · rfl
    · exact preset_endTask t _

/-- In a call it is the action at hand that may need the default bus. What a task does apart from
the actions of its handler leaves it alone. -/
theorem TaskStep.preset {t : Task} (hs : h.TaskStep t h') :
    h'.preset = h.preset.or (if t.needsDefault h then some h.buses.length else none) := by
  have hidle : ∀ {m : Host}, t.needsDefault h = false → m.preset = h.preset →
      m.preset = h.preset.or (if t.needsDefault h then some h.buses.length else none) := by
    intro m hneeds hsame
    rw [hneeds, hsame]
    exact (Option.or_none).symm
  cases hs with
  | register hp | park hp | resume hp | beginCall hp | endBatch hp =>
    exact hidle (not_needsDefault (by simp [hp])) rfl
  | look hp => exact hidle (not_needsDefault (by simp [hp])) (preset_look t)
  | awake hp hasleep =>
    refine hidle ?_ rfl
    rw [needsDefault_of_draining hp, hasleep]
  | @perform lent call a rest hp hawake htodo =>
    have hneeds := needsDefault_of_draining (h := h) hp
    rw [hawake, htodo] at hneeds
    rw [hneeds]
    exact preset_perform h t lent { call with todo := rest } a
  | endCall hp hawake htodo =>
    refine hidle ?_ rfl
    rw [needsDefault_of_draining hp, hawake, htodo]
  | fail hp => exact hidle (not_needsDefault (by simp [hp])) (preset_endTask t _)

/-- What a use makes the default bus, as far as the one who uses it needs that. -/
theorem map_bus_made (needed : Bool) (b : BusId) :
    (if needed then some (FirstUse.made b) else none).map (·.bus) =
      if needed then some b else none := by
  cases needed <;> rfl

/-- A move fixes the default bus as was told before it. -/
theorem MoveStep.preset {m : Move} (hm : h.MoveStep m h') :
    h'.preset = h.preset.or ((Turn.fixes? h (.move m)).map (·.bus)) := by
  cases hm with
  | run ht _ hstep =>
    rw [Turn.fixes?, ht, Option.map_some, Option.getD_some, map_bus_made]
    exact hstep.preset
  | endJob ht _ hover =>
    rw [Turn.fixes?, ht, Option.map_some, Option.getD_some, map_bus_made,
      not_needsDefault_of_isOver hover]
    exact (preset_release _ _).trans Option.or_none.symm
  | leave => exact (preset_endTask _ _).trans Option.or_none.symm
  | tick | halt => exact Option.or_none.symm

theorem preset_hold (name : String) (b : BusId) : (h.hold name b).preset = h.preset :=
  preset_release _ _

theorem preset_stopRuntime (h : Host) : h.stopRuntime.preset = h.preset := by
  have hlose : ∀ (ts : List Task) (m : Host), (m.loseAll ts).preset = m.preset := by
    intro ts
    induction ts with
    | nil => exact fun _ => rfl
    | cons t rest ih => exact fun m => (ih _).trans (preset_lose t)
  unfold stopRuntime
  split
  · rfl
  · exact hlose _ _

/-- To install the bus of a name makes it the default, if there is such a bus and no default. -/
theorem preset_installFrom_named (h : Host) (name : String) :
    (h.installFrom (.named name)).2.preset = h.preset.or (h.handle? name) := by
  have hlocate : h.locate [] (.named name) = (h.handle? name, h) := rfl
  unfold installFrom withBus
  rw [hlocate]
  cases h.handle? name with
  | none => exact (Option.or_none).symm
  | some b =>
    dsimp only
    rcases install_cases h b with ⟨b', hpre, hinstall⟩ | ⟨hpre, hinstall⟩ <;> rw [hinstall, hpre]
    · exact (preset_release [b] h).trans hpre
    · rfl

/-- The same holds if the handle itself is installed. -/
theorem preset_surrender (h : Host) (name : String) :
    (h.surrender name).2.preset = h.preset.or (h.handle? name) := by
  rcases surrender_cases h name with ⟨hb, hsame⟩ | ⟨_, b', -, hpre, hdrop⟩ | ⟨b, hb, hpre, hsettled⟩
  · rw [hsame, hb, Option.or_none]
  · rw [hdrop, hpre]
    exact (preset_release _ { h with handles := h.otherHandles name }).trans hpre
  · rw [hsettled, hpre, hb]
    rfl

/-- To install the default bus is to use it, so what is installed comes too late. -/
theorem preset_installFrom_default (h : Host) :
    (h.installFrom .default).2.preset = h.preset.or (some h.buses.length) := by
  have hlocate := preset_locate h [] .default
  apply Eq.trans _ hlocate
  unfold installFrom withBus
  split
  · next b m heq =>
    rw [heq] at hlocate ⊢
    -- by the time that it is installed it is the default already
    obtain ⟨b', hb'⟩ : ∃ b', m.preset = some b' := by
      rw [hlocate]
      cases h.preset with
      | none => exact ⟨_, rfl⟩
      | some b' => exact ⟨b', rfl⟩
    rcases install_cases m b with ⟨_, -, hinstall⟩ | ⟨hnone, -⟩
    · exact (congrArg (·.2.preset) hinstall).trans (preset_release [b] m)
    · exact absurd (hb'.symm.trans hnone) (by simp)
  · next m heq => rw [heq]

/-- A command fixes the default bus as was told before it. -/
theorem preset_obey {c : Command} (hq : c.takesTime = false) :
    (h.obey c).2.preset = h.preset.or ((c.fixes? h).map (·.bus)) := by
  -- a command that only uses the default bus makes it when it is not fixed yet
  have hneeds : ∀ {m : Host}, c.fixes? h =
        (if c.needsDefault h then some (.made h.buses.length) else none) →
      m.preset = h.preset.or (if c.needsDefault h then some h.buses.length else none) →
      m.preset = h.preset.or ((c.fixes? h).map (·.bus)) := by
    intro m hfixes hm
    rw [hfixes, map_bus_made]
    exact hm
  cases c with
  | make name builder pinned =>
    exact (preset_hold (h := (h.addBus _).2) name _).trans (Option.or_none).symm
  | drop name =>
    exact (preset_release _ { h with handles := h.otherHandles name }).trans (Option.or_none).symm
  | clone source name =>
    exact hneeds rfl (preset_withBus (fun b _ => preset_hold name b) h [] source)
  | subscribe target who outside => exact hneeds rfl (preset_subscribeAt h [] target _ who)
  | inspect name => exact (Option.or_none).symm
  | cancel name => exact (preset_cancelNamed name).trans (Option.or_none).symm
  | publish target event => exact hneeds rfl (preset_publishTo h [] target event)
  | close target => exact hneeds rfl (preset_closeAt h [] target)
  | count target type => exact hneeds rfl (preset_countAt h [] target type)
  | info target =>
    have hlocate := preset_locate h [] target
    refine hneeds rfl ?_
    simp only [obey, infoOf]
    split <;> exact hlocate
  | install source =>
    cases source with
    | named name =>
      apply (preset_installFrom_named h name).trans
      rw [Command.fixes?, Option.map_map]
      cases h.handle? name <;> rfl
    | default => exact hneeds rfl (preset_installFrom_default h)
  | surrender name =>
    apply (preset_surrender h name).trans
    rw [Command.fixes?, Option.map_map]
    cases h.handle? name <;> rfl
  | stopRuntime => exact (preset_stopRuntime h).trans (Option.or_none).symm
  | startRuntime => exact (preset_stopRuntime h).trans (Option.or_none).symm
  | advance ms => exact absurd hq (by simp [Command.takesTime])

/-- So does every turn. -/
theorem preset_turn? {u : Turn} (hu : h.turn? u = some h') :
    h'.preset = h.preset.or ((u.fixes? h).map (·.bus)) := by
  cases turnStep_iff.mpr hu with
  | obey hquick => exact preset_obey hquick
  | move hm => exact hm.preset
  | pass => exact Option.or_none.symm

/-- **The first use fixes the default bus, and nothing after it does.** -/
theorem Run.preset {ts : List Turn} (run : Run h ts h') :
    h'.preset = h.preset.or ((h.firstUse? ts).map (·.bus)) := by
  induction run with
  | nil h => exact (Option.or_none).symm
  | cons turn _ ih =>
    -- the first turn has its say, and the others only if it said nothing
    rw [ih, preset_turn? turn, firstUse?, turn, Option.bind_some, Option.or_assoc, Option.map_or]

end Host

end EventBus
