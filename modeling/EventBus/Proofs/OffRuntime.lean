import EventBus.Proofs.Turn

/-!
# Requests leave the runtime alone

A request is about buses, handles and names. The only one that reaches the runtime is a
subscription, which may start a loop and put a task in line. After any other the clock, the tasks
and the number of loops that were started are what they were, and nothing was entered that a task
does; so what holds of them needs no proof for each request. None of this asks whether the state can
be reached.
-/

set_option autoImplicit false

namespace EventBus

/-- What is entered of a task by nobody but itself: it registers, takes what is in its queue and
calls its handler, and ends. -/
def Happening.isOfTask : Happening → Bool
  | registered _ | took .. | drained _ | called .. | stopped .. | panicked .. => true
  | _ => false

/-- The commands that are about more than buses, handles and names. -/
def Command.reachesRuntime : Command → Bool
  | subscribe .. | stopRuntime | startRuntime | advance _ => true
  | _ => false

namespace Host

/-- From `h` to `h'` nothing else is entered than what `p` holds of. -/
def Tells (p : Happening → Prop) (h h' : Host) : Prop :=
  ∃ news, h'.journal = news ++ h.journal ∧ ∀ x ∈ news, p x.what

/-- From `h` to `h'` no time passes, no task comes or goes or moves, and no loop is started. -/
structure KeepsRuntime (h h' : Host) : Prop where
  now : h'.now = h.now
  tasks : h'.tasks = h.tasks
  loopsStarted : h'.loopsStarted = h.loopsStarted
  quiet : h.Tells (·.isOfTask = false) h'

/-- The same, but that a subscription may come in between. -/
inductive Requested (h : Host) : Host → Prop
  | aside {h' : Host} : h.KeepsRuntime h' → Requested h h'
  | subscribed {m h' : Host} (b : BusId) (context : Option RuntimeId) (who : Subscriber Action)
      (held : List (Target × BusId)) : h.KeepsRuntime m →
      (m.subscribe b context who held).2.KeepsRuntime h' → Requested h h'

variable {h m h' : Host}

namespace Tells

variable {p : Happening → Prop}

theorem of_same (hj : h'.journal = h.journal) : h.Tells p h' := ⟨[], hj, by simp⟩

/-- What `p` holds of is entered, and nothing else. -/
theorem of_cons {x : Entry} (hj : h'.journal = x :: h.journal) (hx : p x.what) : h.Tells p h' :=
  ⟨[x], hj, by simpa using hx⟩

theorem trans (ha : h.Tells p m) (hb : m.Tells p h') : h.Tells p h' := by
  obtain ⟨first, hm, hfirst⟩ := ha
  obtain ⟨last, hj, hlast⟩ := hb
  refine ⟨last ++ first, by rw [hj, hm, List.append_assoc], fun x hx => ?_⟩
  rcases List.mem_append.mp hx with hx | hx
  · exact hlast x hx
  · exact hfirst x hx

/-- What tells of nothing but `p` tells of nothing but `q`, if that is weaker. -/
theorem mono {q : Happening → Prop} (ht : h.Tells p h') (hpq : ∀ x, p x → q x) :
    h.Tells q h' := by
  obtain ⟨news, hj, hnews⟩ := ht
  exact ⟨news, hj, fun x hx => hpq x.what (hnews x hx)⟩

end Tells

namespace KeepsRuntime

theorem refl (h : Host) : h.KeepsRuntime h := ⟨rfl, rfl, rfl, .of_same rfl⟩

theorem trans (ha : h.KeepsRuntime m) (hb : m.KeepsRuntime h') : h.KeepsRuntime h' :=
  ⟨hb.now.trans ha.now, hb.tasks.trans ha.tasks, hb.loopsStarted.trans ha.loopsStarted,
    ha.quiet.trans hb.quiet⟩

end KeepsRuntime

/-! ## Handles -/

theorem journal_release (gone : List BusId) (h : Host) :
    (h.release gone).journal = h.journal :=
  release_of_abandon (·.journal) (fun _ _ => rfl) gone h

/-- To let go of buses may shut some of them down, which the tasks are not told here: a consumer
finds out when it moves. -/
theorem release_keepsRuntime (gone : List BusId) (h : Host) :
    h.KeepsRuntime (h.release gone) where
  now := release_of_abandon (·.now) (fun _ _ => rfl) gone h
  tasks := tasks_release gone h
  loopsStarted := release_of_abandon (·.loopsStarted) (fun _ _ => rfl) gone h
  quiet := .of_same (journal_release gone h)

/-- A name may be taken from another bus, which is then let go of. -/
theorem hold_keepsRuntime (name : String) (b : BusId) : h.KeepsRuntime (h.hold name b) := by
  have hname : h.KeepsRuntime { h with handles := (name, b) :: h.otherHandles name } :=
    ⟨rfl, rfl, rfl, .of_same rfl⟩
  exact hname.trans (release_keepsRuntime _ _)

theorem drop_keepsRuntime (name : String) : h.KeepsRuntime (h.drop name) := by
  have hname : h.KeepsRuntime { h with handles := h.otherHandles name } :=
    ⟨rfl, rfl, rfl, .of_same rfl⟩
  exact hname.trans (release_keepsRuntime _ _)

theorem make_keepsRuntime (name : String) (bus : Bus) : h.KeepsRuntime (h.make name bus) := by
  have hbus : h.KeepsRuntime (h.addBus bus).2 := ⟨rfl, rfl, rfl, .of_same rfl⟩
  exact hbus.trans (hold_keepsRuntime name _)

theorem useDefault_keepsRuntime (h : Host) : h.KeepsRuntime h.useDefault.2 := by
  unfold useDefault
  split <;> exact ⟨rfl, rfl, rfl, .of_same rfl⟩

/-- To install a bus makes it the default, or lets go of the handle. -/
theorem install_keepsRuntime (b : BusId) :
    h.KeepsRuntime (acknowledged (h.install b)).2 := by
  rcases install_cases h b with ⟨_, -, hinstall⟩ | ⟨-, hinstall⟩ <;> rw [hinstall]
  · exact release_keepsRuntime [b] h
  · exact ⟨rfl, rfl, rfl, .of_same rfl⟩

theorem surrender_keepsRuntime (name : String) : h.KeepsRuntime (h.surrender name).2 := by
  rcases surrender_cases h name with ⟨-, hsame⟩ | ⟨_, _, -, -, hdrop⟩ | ⟨_, -, -, hsettled⟩
  · rw [hsame]
    exact .refl h
  · rw [hdrop]
    exact drop_keepsRuntime name
  · rw [hsettled]
    exact ⟨rfl, rfl, rfl, .of_same rfl⟩

/-! ## Requests on a bus -/

/-- Publishing fills queues, and queues are in slots, not in tasks. -/
theorem publish_keepsRuntime (b : BusId) (event : Event) : h.KeepsRuntime (h.publish b event) := by
  unfold publish
  split
  · exact .refl h
  · exact ⟨rfl, rfl, rfl, .of_cons rfl rfl⟩

theorem close_keepsRuntime {b : BusId} (hok : h.close b = .ok h') : h.KeepsRuntime h' := by
  obtain ⟨bus, -, -, rfl⟩ := close_eq_ok hok
  exact ⟨rfl, rfl, rfl, .of_cons rfl rfl⟩

theorem cancel_keepsRuntime (c : ConsumerRef) : h.KeepsRuntime (h.cancel c) := by
  unfold cancel
  split
  · exact ⟨rfl, rfl, rfl, .of_cons rfl rfl⟩
  · exact .refl h

/-! ## Requests on a target -/

/-- To look for a bus may make the default bus, and that is all that it may do. -/
theorem locate_keepsRuntime (own : List (Target × BusId)) (target : Target) :
    h.KeepsRuntime (h.locate own target).2 := by
  unfold locate
  split
  · exact .refl h
  · split
    · exact .refl h
    · exact useDefault_keepsRuntime h

/-- The same holds for several. -/
theorem locateAll_keepsRuntime (own : List (Target × BusId)) (targets : List Target) :
    h.KeepsRuntime (h.locateAll own targets).2 := by
  induction targets generalizing h with
  | nil => exact .refl h
  | cons target rest ih => exact (locate_keepsRuntime own target).trans ih

/-- A request on a target is one on a bus, or comes to nothing. -/
theorem withBus_cases (own : List (Target × BusId)) (target : Target)
    (f : BusId → Host → Answer × Host) :
    h.KeepsRuntime (h.withBus own target f).2 ∨
      ∃ b m, h.KeepsRuntime m ∧ h.withBus own target f = f b m := by
  have hlocate := locate_keepsRuntime (h := h) own target
  unfold withBus
  split
  · next b m heq =>
    rw [heq] at hlocate
    exact .inr ⟨b, m, hlocate, rfl⟩
  · next m heq =>
    rw [heq] at hlocate
    exact .inl hlocate

/-- A request on a target leaves the runtime alone if what is done with the bus does. -/
theorem withBus_keepsRuntime (own : List (Target × BusId)) (target : Target)
    {f : BusId → Host → Answer × Host} (hf : ∀ b (m : Host), m.KeepsRuntime (f b m).2) :
    h.KeepsRuntime (h.withBus own target f).2 := by
  rcases withBus_cases (h := h) own target f with hnone | ⟨b, m, hm, heq⟩
  · exact hnone
  · rw [heq]
    exact hm.trans (hf b m)

theorem publishTo_keepsRuntime (own : List (Target × BusId)) (target : Target) (event : Event) :
    h.KeepsRuntime (h.publishTo own target event).2 :=
  withBus_keepsRuntime own target fun b _ => publish_keepsRuntime b event

/-- A countdown publishes, or has come to its end. -/
theorem countdownTo_keepsRuntime (own : List (Target × BusId)) (target : Target) (event : Event) :
    h.KeepsRuntime (h.countdownTo own target event).2 := by
  refine withBus_keepsRuntime own target fun b m => ?_
  split
  · next n _ =>
    show m.KeepsRuntime (if 0 < n then m.publish b (.int (n - 1)) else m)
    split
    · exact publish_keepsRuntime b _
    · exact .refl m
  · exact .refl m

theorem closeAt_keepsRuntime (own : List (Target × BusId)) (target : Target) :
    h.KeepsRuntime (h.closeAt own target).2 := by
  refine withBus_keepsRuntime own target fun b m => ?_
  split
  · next hok => exact close_keepsRuntime hok
  · exact .refl m

theorem cancelNamed_keepsRuntime (name : String) : h.KeepsRuntime (h.cancelNamed name).2 := by
  unfold cancelNamed
  split
  · exact .refl h
  · exact cancel_keepsRuntime _

theorem countAt_keepsRuntime (own : List (Target × BusId)) (target : Target) (type : EventType) :
    h.KeepsRuntime (h.countAt own target type).2 :=
  withBus_keepsRuntime own target fun _ m => .refl m

/-- A question changes nothing. -/
theorem ask_keepsRuntime (own : List (Target × BusId)) (question : Question) :
    h.KeepsRuntime (h.ask own question).2 := by
  cases question with
  | count target type => exact countAt_keepsRuntime own target type
  | status name => exact .refl h

/-- **A command that does not reach for the runtime leaves it alone.** -/
theorem obey_keepsRuntime (c : Command) (hc : c.reachesRuntime = false) :
    h.KeepsRuntime (h.obey c).2 := by
  cases c with
  | make name builder pinned => exact make_keepsRuntime name _
  | clone source name => exact withBus_keepsRuntime _ _ fun b _ => hold_keepsRuntime name b
  | drop name => exact drop_keepsRuntime name
  | inspect name => exact .refl h
  | cancel name => exact cancelNamed_keepsRuntime name
  | publish target event => exact publishTo_keepsRuntime _ target event
  | close target => exact closeAt_keepsRuntime _ target
  | count target type => exact countAt_keepsRuntime _ target type
  | info target =>
    have hlocate := locate_keepsRuntime (h := h) [] target
    simp only [obey, infoOf]
    split <;> exact hlocate
  | install source => exact withBus_keepsRuntime _ _ fun b _ => install_keepsRuntime b
  | surrender name => exact surrender_keepsRuntime name
  | subscribe | stopRuntime | startRuntime | advance =>
    exact absurd hc (by simp [Command.reachesRuntime])

/-! ## Subscribing -/

/-- A subscription that is refused leaves nothing behind but the record of a conflict. -/
theorem KeepsRuntime.of_refused {b : BusId} {context : Option RuntimeId}
    {who : Subscriber Action} {held : List (Target × BusId)} {fault : Fault}
    (hs : h.subscribe b context who held = (.error fault, h')) : h.KeepsRuntime h' := by
  unfold subscribe at hs
  split at hs
  · obtain ⟨-, rfl⟩ := Prod.mk.inj hs
    exact release_keepsRuntime _ h
  · split at hs
    · obtain ⟨-, rfl⟩ := Prod.mk.inj hs
      split
      · have hnote : ∀ what : Happening, what.isOfTask = false → h.KeepsRuntime (h.note what) :=
          fun _ hwhat => ⟨rfl, rfl, rfl, .of_cons rfl hwhat⟩
        exact (hnote _ rfl).trans (release_keepsRuntime _ _)
      · exact release_keepsRuntime _ h
    · exact absurd (Prod.mk.inj hs).1 (by simp)

/-- A subscription is refused, or its task is put in line where nothing else has changed for the
tasks. A loop may have been started by then. -/
theorem subscribe_cases (h : Host) (b : BusId) (context : Option RuntimeId)
    (who : Subscriber Action) (held : List (Target × BusId)) :
    h.KeepsRuntime (h.subscribe b context who held).2 ∨
      ∃ (m : Host) (t : Task), m.now = h.now ∧ m.tasks = h.tasks ∧
        h.Tells (·.isOfTask = false) m ∧ t.phase = .ready ∧ t.buffer = [] ∧
        (h.subscribe b context who held).2 =
          (m.note (.subscribed t.consumer who.kind t.handler.profile)).spawn t := by
  cases hs : h.subscribe b context who held with
  | mk outcome h' =>
    cases outcome with
    | error fault => exact .inl (.of_refused hs)
    | ok c =>
      refine .inr ?_
      cases hbus : h.bus? b with
      | none => simp [subscribe, hbus] at hs
      | some bus =>
        cases hp : bus.place context who.type who.kind with
        | error fault => simp [subscribe, hbus, hp] at hs
        | ok p =>
          have hafter := subscribe_of_place hbus hp held
          rw [hs] at hafter
          refine ⟨_, _, ?_, ?_, ?_, rfl, rfl, hafter⟩
          -- nothing but a loop that is started is entered before the subscription
          all_goals
            unfold ensureLoop modifyGroup modifyBus
            split
          · rfl
          · rfl
          · rfl
          · rfl
          · exact .of_same rfl
          · exact .of_cons rfl rfl

/-- Handles are found for the handler first, and the name is bound at last. -/
theorem subscribeAt_requested (own : List (Target × BusId)) (context : Option RuntimeId)
    (target : Target) (who : Subscriber Action) :
    h.Requested (h.subscribeAt own context target who).2 := by
  rcases withBus_cases (h := h) own target _ with hnone | ⟨b, m, hm, heq⟩
  · exact .aside hnone
  · rw [subscribeAt, heq]
    refine .subscribed b context who (m.locateAll own who.hold).1
      (hm.trans (locateAll_keepsRuntime own who.hold)) ?_
    dsimp only
    generalize (m.locateAll own who.hold).2.subscribe b context who
      (m.locateAll own who.hold).1 = outcome
    obtain ⟨⟨fault⟩ | ⟨c⟩, m'⟩ := outcome
    · exact .refl m'
    · exact ⟨rfl, rfl, rfl, .of_same rfl⟩

/-! ## Actions -/

/-- What comes of an action: a request is answered, by which the states are related as `R` says, or
the task alone goes on. `next` is the call without the action; the answer to a question may leave
out more of it. -/
inductive Performs (R : Host → Host → Prop) (h : Host) (t : Task) (lent : Option (List Event))
    (next : Call) : Action → Host → Prop
  | asked {a : Action} (n : Nat) (answered : Answer × Host) : a.isPanic = false →
      n = 0 ∨ a.asks = true →
      R (h.setTask (t.continueCall lent (next.skip n))) answered.2 →
      Performs R h t lent next a (enter t a answered)
  | pauses (ms : Nat) : Performs R h t lent next (.sleep ms)
      (h.setTask (t.continueCall lent { next with asleep := some (h.now + ms) }))
  | panics (payload : Payload) (early : Bool) :
      Performs R h t lent next (.panic payload early)
        (h.setTask (t.fail payload (lent.isSome || !early)))
  | reports : Performs R h t lent next .report
      ((h.setTask (t.continueCall lent next)).note (.reported t.consumer next.event))

/-- **An action is a request of its task**, or a pause, a panic or a report. -/
theorem perform_requested (t : Task) (lent : Option (List Event)) (next : Call) (a : Action) :
    h.Performs Requested t lent next a (h.perform t lent next a) := by
  cases a with
  | publish target event => exact .asked 0 _ rfl (.inl rfl) (.aside (publishTo_keepsRuntime _ _ _))
  | countdown target => exact .asked 0 _ rfl (.inl rfl) (.aside (countdownTo_keepsRuntime _ _ _))
  | cancel name => exact .asked 0 _ rfl (.inl rfl) (.aside (cancelNamed_keepsRuntime name))
  | close target => exact .asked 0 _ rfl (.inl rfl) (.aside (closeAt_keepsRuntime _ _))
  | count target type => exact .asked 0 _ rfl (.inl rfl) (.aside (countAt_keepsRuntime _ _ _))
  | consult question skip =>
    rw [perform_consult]
    exact .asked _ _ rfl (.inr rfl) (.aside (ask_keepsRuntime _ _))
  | subscribe target who => exact .asked 0 _ rfl (.inl rfl) (subscribeAt_requested _ _ _ who)
  | sleep ms => exact .pauses ms
  | panic payload early => exact .panics payload early
  | report => exact .reports

end Host

end EventBus
