import EventBus.Proofs.Shutdown

/-!
# A bus that is closed stays as it is

The first close of a bus succeeds, and it is the last one. From then on nobody joins the bus: every
request to subscribe is refused, whoever makes it and for whatever type, so no type is bound, no id
is given and no slot is added any more. Nothing is queued either. What is left to the consumers of a
closed bus is to take what they have.

`Frozen` says what every change keeps of a bus that is closed, and so do all changes that follow.
-/

set_option autoImplicit false

namespace EventBus

namespace Registry

/-- The bindings in the order in which they were made: each type with its kind and the id that its
group gives next. -/
def ledger (r : Registry) : List (EventType × Kind × ConsumerId) :=
  r.bindings.map fun b => (b.type, b.kind, b.group.nextId)

theorem ledger_modifyGroup (r : Registry) (type : EventType) {f : Group Event → Group Event}
    (hf : ∀ group, (f group).nextId = group.nextId) :
    (r.modifyGroup type f).ledger = r.ledger := by
  simp only [ledger, modifyGroup, List.map_map]
  refine List.map_congr_left fun b _ => ?_
  by_cases ht : b.type = type <;> simp [ht, hf]

end Registry

namespace Host

def ledger? (h : Host) (b : BusId) : Option (List (EventType × Kind × ConsumerId)) :=
  (h.bus? b).map (·.registry.ledger)

/-- What is kept of a bus that is closed, between a state and a later one. -/
structure Frozen (b : BusId) (h h' : Host) : Prop where
  closed : h'.isClosed b = true
  -- The number of groups, the types that are bound, their kinds and the next ids.
  ledger : h'.ledger? b = h.ledger? b
  -- No slot is new, and a queue is as it was or was taken.
  slots : ∀ c : ConsumerRef, c.group.bus = b → ∀ s', h'.slot? c = some s' →
    ∃ s, h.slot? c = some s ∧ (s'.queue = s.queue ∨ s'.queue = [])

section

variable {b : BusId} {h m h' : Host}

theorem Frozen.refl (hb : h.isClosed b = true) : Frozen b h h :=
  ⟨hb, rfl, fun _ _ s hs => ⟨s, hs, .inl rfl⟩⟩

theorem Frozen.trans (hm : Frozen b h m) (hm' : Frozen b m h') : Frozen b h h' where
  closed := hm'.closed
  ledger := hm'.ledger.trans hm.ledger
  slots c hc s' hs' := by
    obtain ⟨sm, hsm, hlast⟩ := hm'.slots c hc s' hs'
    obtain ⟨s, hs, hfirst⟩ := hm.slots c hc sm hsm
    refine ⟨s, hs, ?_⟩
    rcases hlast with hlast | hlast
    · rw [hlast]
      exact hfirst
    · exact .inr hlast

/-! ## Changes -/

theorem ledger?_modifyBus_ne {other : BusId} (f : Bus → Bus) (hb : b ≠ other) :
    (h.modifyBus other f).ledger? b = h.ledger? b := by
  rw [ledger?, bus?_modifyBus, if_neg hb, ledger?]

theorem ledger?_modifyBus_of {f : Bus → Bus}
    (hf : ∀ bus, (f bus).registry.ledger = bus.registry.ledger) (other : BusId) :
    (h.modifyBus other f).ledger? b = h.ledger? b := by
  rw [ledger?, bus?_modifyBus]
  split
  · rw [Option.map_map]
    simp only [Function.comp_def, hf, ledger?]
  · rfl

theorem ledger?_modifyGroup_of {f : Group Event → Group Event}
    (hf : ∀ group, (f group).nextId = group.nextId) (g : GroupRef) :
    (h.modifyGroup g f).ledger? b = h.ledger? b :=
  ledger?_modifyBus_of (fun bus => bus.registry.ledger_modifyGroup g.type hf) g.bus

end

end Host

open Host

namespace Change

variable {n : Nature} {h h' : Host} {b : BusId}

theorem isClosed_mono (hc : Change n h h') (hb : h.HasBus b) (hclosed : h.isClosed b = true) :
    h'.isClosed b = true := by
  cases hc.busChange with
  | none _ _ hcl => rw [hcl, hclosed]
  | made _ _ hcl => rw [hcl, if_neg (Nat.ne_of_lt (hasBus_iff.mp hb)), hclosed]
  | abandoned _ _ _ _ hcl => rw [hcl, hclosed]
  | closed _ _ _ _ _ hcl => rw [hcl, hclosed, Bool.true_or]

/-- The changes that bind a type or give an id are made to open buses only. -/
theorem ledger? (hc : Change n h h') (hb : h.HasBus b) (hclosed : h.isClosed b = true) :
    h'.ledger? b = h.ledger? b := by
  -- so a change that needs an open bus is made to another one
  have hne : ∀ {other}, h.isClosed other = false → b ≠ other := by
    rintro other hopen rfl
    exact absurd (hclosed.symm.trans hopen) (by simp)
  cases hc with
  | pass | rename | aside | step | endJob | tick | halt | stop | start => rfl
  | make _ _ _ => rw [Host.ledger?, bus?_append, if_neg (Nat.ne_of_lt (hasBus_iff.mp hb))]; rfl
  | @abandon _ other _ =>
    exact ledger?_modifyBus_of (fun bus => by rw [Bus.abandon]; split <;> rfl) other
  | @publish _ other event _ hbus =>
    cases ha : h.accepts other event with
    | true =>
      rw [publish_of_accepts ha]
      exact ledger?_modifyGroup_of (f := (·.broadcast event)) (fun _ => rfl) _
    | false =>
      obtain ⟨fate, hfate⟩ := publish_of_not_accepts hbus ha
      rw [hfate]
      rfl
  | @close _ _ other _ hok =>
    obtain ⟨bus, -, -, rfl⟩ := close_eq_ok hok
    exact ledger?_modifyBus_of (f := fun bus => { bus with stage := .closed }) (fun _ => rfl) other
  | bindType _ _ hbus hopen =>
    refine ledger?_modifyBus_ne _ (hne ?_)
    rw [Host.isClosed, hbus, Option.map_some, Option.getD_some, hopen]
  | @startLoop _ g _ _ _ _ hidle _ =>
    rw [ensureLoop_of_idle hidle]
    exact ledger?_modifyGroup_of
      (f := fun group => { group with flusher := some h.loopsStarted }) (fun _ => rfl) g
  | enrol ha _ _ => exact ledger?_modifyBus_ne _ (hne ha.isOpen)
  | stillborn ha _ =>
    exact (ledger?_modifyBus_ne _ (hne ha.isOpen)).trans (ledger?_modifyBus_ne _ (hne ha.isOpen))
  | @cancel _ c ha =>
    rw [cancel_of_active ha]
    exact ledger?_modifyGroup_of (f := fun group => (group.stop c.id).2) (fun _ => rfl) c.group
  | take => exact ledger?_modifyGroup_of (fun group => group.nextId_take _ _) _
  | @finish _ t _ _ _ _ | @leaveJob _ t _ _ _ =>
    exact ledger?_modifyGroup_of (f := (·.detach t.consumer.id)) (fun _ => rfl) t.consumer.group

theorem frozen (hc : Change n h h') (hr : h.Reached) (hb : h.HasBus b)
    (hclosed : h.isClosed b = true) : Frozen b h h' where
  closed := hc.isClosed_mono hb hclosed
  ledger := hc.ledger? hb hclosed
  slots := by
    rintro c rfl s' hs'
    have hsame : h'.slot? c = h.slot? c → ∃ s, h.slot? c = some s ∧
        (s'.queue = s.queue ∨ s'.queue = []) := fun hs => ⟨s', hs ▸ hs', .inl rfl⟩
    cases hc.life hr c with
    | apart _ hs | unheard _ _ _ hs | closed hs | ticked hs | stepped _ _ hs | jobOver _ _ hs =>
      exact hsame hs
    | heard _ ha =>
      rw [accepts, hclosed] at ha
      exact absurd ha (by simp)
    | enrolled hcons ha =>
      have hopen := ha.isOpen
      rw [hcons, hclosed] at hopen
      exact absurd hopen (by simp)
    | stillborn _ _ _ hs | finished _ _ hs | leftJob _ _ _ hs =>
      exact absurd (hs'.symm.trans hs) (by simp)
    | cancelled hs _ hstop =>
      obtain rfl := Option.some.inj (hs'.symm.trans hstop)
      exact ⟨_, hs, .inl rfl⟩
    | took _ _ hs _ htaken =>
      obtain rfl := Option.some.inj (hs'.symm.trans htaken)
      exact ⟨_, hs, .inr rfl⟩

/-- A bus is closed while it is open, and only then is a closing entered in the journal. -/
theorem closings (hc : Change n h h') (b : BusId) :
    h'.journal.filter (·.what.closes b) = h.journal.filter (·.what.closes b) ∨
      (h.isClosed b = false ∧
        ∃ x, h'.journal.filter (·.what.closes b) = x :: h.journal.filter (·.what.closes b)) := by
  cases hc with
  | pass | rename | make | abandon | bindType | stop | start => exact .inl rfl
  | enrol | stillborn | take | leaveJob | endJob | tick | halt => exact .inl rfl
  | @aside _ what haside =>
    left
    cases what <;> first | rfl | exact absurd haside (by simp [Happening.isAside])
  | publish _ hbus =>
    obtain ⟨fate, buses, hframe⟩ := publish_frame hbus
    rw [hframe]
    exact .inl rfl
  | @close _ _ other _ hok =>
    obtain ⟨bus, hbus, hopen, rfl⟩ := close_eq_ok hok
    -- it is this bus that is closed, or another one
    by_cases hb : other = b
    · subst hb
      refine .inr ⟨?_, _, List.filter_cons_of_pos (by simp [Happening.closes])⟩
      rw [Host.isClosed, hbus, Option.map_some, Option.getD_some, hopen]
    · exact .inl (List.filter_cons_of_neg (by simp [Happening.closes, hb]))
  | startLoop _ hidle =>
    rw [ensureLoop_of_idle hidle]
    exact .inl rfl
  | cancel ha =>
    rw [cancel_of_active ha]
    exact .inl rfl
  | step _ hstep =>
    left
    cases hstep <;> rfl
  | finish _ hending =>
    left
    cases hending <;> rfl

end Change

namespace Changes

variable {ns : Nature → Prop} {h h' : Host} {b : BusId}

theorem frozen (hc : Changes ns h h') (hr : h.Reached) (hb : h.HasBus b)
    (hclosed : h.isClosed b = true) : Frozen b h h' := by
  induction hc with
  | refl => exact .refl hclosed
  | tail hm hchange ih =>
    obtain ⟨n, -, hchange⟩ := hchange
    exact ih.trans (hchange.frozen (hr.changes hm) (Changes.hasBus hm hb) ih.closed)

end Changes

namespace Host

theorem Reached.closings {h : Host} (hr : h.Reached) {b : BusId} (hb : h.HasBus b) :
    (h.journal.filter (·.what.closes b)).length = if h.isClosed b then 1 else 0 := by
  -- at most one closing is entered, since it needs the bus to be open
  have hone : (h.journal.filter (·.what.closes b)).length ≤ 1 := by
    refine hr.invariant (P := fun h => (h.journal.filter (·.what.closes b)).length ≤ 1)
      (by simp) ?_
    intro h h' n hr hle hc
    rcases hc.closings b with hsame | ⟨hopen, x, hnew⟩
    · rw [hsame]
      exact hle
    · have hnone : h.journal.filter (·.what.closes b) = [] := by
        rw [List.filter_eq_nil_iff]
        intro y hy hcloses
        have hclosed := (hr.hasClosed_iff b).mp (List.any_eq_true.mpr ⟨y, hy, hcloses⟩)
        exact absurd (hclosed.2.symm.trans hopen) (by simp)
      rw [hnew, hnone]
      exact Nat.le_refl 1
  -- and one is entered just when the bus is closed
  have hany : h.journal.filter (·.what.closes b) ≠ [] ↔ h.isClosed b = true := by
    have hiff := hr.hasClosed_iff b
    rw [Journal.hasClosed, List.any_eq_true] at hiff
    rw [ne_eq, List.filter_eq_nil_iff]
    grind
  split
  · next hclosed =>
    have hpos := List.length_pos_iff.mpr (hany.mpr hclosed)
    omega
  · next hopen =>
    rw [← hany, ne_eq, Decidable.not_not] at hopen
    rw [hopen]
    rfl

/-! ## Requests -/

section

variable {h : Host} {b : BusId} {own : List (Target × BusId)} {target : Target}

/-- Finding a bus that exists already makes none. -/
theorem locate_of_known (hb : h.HasBus b) (hl : (h.locate own target).1 = some b) :
    h.locate own target = (some b, h) := by
  unfold locate at hl ⊢
  split at hl
  · rw [← hl]
  · split at hl
    · rw [← hl]
    · cases hpreset : h.preset with
      | some x => simp_all [useDefault]
      | none =>
        -- the bus that is made is not one of those there were
        simp only [useDefault, hpreset, addBus, Option.some.injEq] at hl
        exact absurd (hasBus_iff.mp hb) (by simp [hl])

theorem bus?_locate (hb : h.HasBus b) (own : List (Target × BusId)) (target : Target) :
    (h.locate own target).2.bus? b = h.bus? b := by
  have hdefault : h.useDefault.2.bus? b = h.bus? b := by
    unfold useDefault
    split
    · rfl
    · exact (h.bus?_append {} b h.handles (some h.buses.length)).trans
        (if_neg (Nat.ne_of_lt (hasBus_iff.mp hb)))
  unfold locate
  split
  · rfl
  · split
    · rfl
    · exact hdefault

theorem bus?_locateAll (hb : h.HasBus b) (own : List (Target × BusId)) (targets : List Target) :
    (h.locateAll own targets).2.bus? b = h.bus? b := by
  induction targets generalizing h with
  | nil => rfl
  | cons target rest ih =>
    have hfirst := bus?_locate hb own target
    have hknown : (h.locate own target).2.HasBus b := by
      rw [HasBus, hfirst]
      exact hb
    exact (ih hknown).trans hfirst

/-- Whoever asks to close the bus, or to subscribe to it, is refused. -/
structure Refuses (h : Host) (b : BusId) : Prop where
  close : ∀ own target, (h.locate own target).1 = some b →
    h.closeAt own target = (.refused .closed, h)
  subscribe : ∀ own target context (who : Subscriber Action), (h.locate own target).1 = some b →
    (h.subscribeAt own context target who).1 =
      if who.fatal then .fatal Fault.closed.message else .refused .closed

theorem refuses_of_isClosed (hb : h.HasBus b) (hclosed : h.isClosed b = true) : h.Refuses b := by
  obtain ⟨bus, hbus⟩ := Option.isSome_iff_exists.mp hb
  have hstage : bus.isClosed = true := by
    rw [isClosed, hbus, Option.map_some, Option.getD_some] at hclosed
    exact hclosed
  constructor
  · intro own target hl
    rw [closeAt, withBus, locate_of_known hb hl]
    simp [close, hbus, Bus.close, hstage, Except.map]
  · intro own target context who hl
    rw [subscribeAt, withBus, locate_of_known hb hl]
    simp [subscribe, bus?_locateAll hb, hbus, Bus.place, hstage]

theorem closeAt_of_open (hopen : h.isClosed b = false) (hl : (h.locate own target).1 = some b) :
    (h.closeAt own target).1 = .done ∧ (h.closeAt own target).2.isClosed b = true := by
  have hb := hasBus_of_isClosed hopen
  obtain ⟨bus, hbus⟩ := Option.isSome_iff_exists.mp hb
  have hstage : bus.isClosed = false := by
    rw [isClosed, hbus, Option.map_some, Option.getD_some] at hopen
    exact hopen
  obtain ⟨h', hok⟩ : ∃ h', h.close b = .ok h' := by
    simp [close, hbus, Bus.close, hstage, Except.map]
  rw [closeAt, withBus, locate_of_known hb hl]
  simp only [hok, true_and]
  rw [isClosed_close hok, beq_self_eq_true, Bool.or_true]

theorem Refuses.congr {m : Host} (hb : h.HasBus b) (hclosed : h.isClosed b = true)
    (hm : m.buses = h.buses) : m.Refuses b := by
  have hbus : m.bus? b = h.bus? b := by rw [bus?, bus?, hm]
  exact refuses_of_isClosed (by rw [HasBus, hbus]; exact hb)
    (by rw [isClosed, hbus]; exact hclosed)

end

/-! ## The main result -/

/-- **A bus is closed once, and for good.** In every run a bus is closed by the first close, which
succeeds whoever asks for it, be it the program or a handler in the middle of its call, where the
buses are the same. The journal has one closing of a bus that is closed, and none of one that is
not. From then on every close and every subscription is refused, by a state of the run as by those
in the middle of a call. And whatever follows, the bus stays closed, has the same groups, bound to
the same kinds and with the same ids to give, no slot is added to them and no queue grows. -/
theorem closed_for_good {h : Host} (hr : h.Reachable) {b : BusId} (hb : h.HasBus b) :
    (h.journal.filter (·.what.closes b)).length = (if h.isClosed b then 1 else 0) ∧
      (h.isClosed b = false → ∀ m : Host, m.buses = h.buses → ∀ own target,
        (m.locate own target).1 = some b →
          (m.closeAt own target).1 = .done ∧ (m.closeAt own target).2.isClosed b = true) ∧
      (h.isClosed b = true → ∀ us h', Run h us h' →
        Frozen b h h' ∧ ∀ m : Host, m.buses = h'.buses → m.Refuses b) := by
  refine ⟨hr.reached.closings hb, fun hopen m hm own target hl => ?_,
    fun hclosed us h' run => ?_⟩
  · refine closeAt_of_open ?_ hl
    rw [isClosed, bus?, hm]
    exact hopen
  · have hchanges := run.changes hr.reached
    have hfrozen := hchanges.frozen hr.reached hb hclosed
    exact ⟨hfrozen, fun m hm => Refuses.congr (Changes.hasBus hchanges hb) hfrozen.closed hm⟩

/-- A handler that closes its bus is called with an event, while there is another in the queue. -/
def sealingTurns : List Turn :=
  [.obey (.make "b" {} false),
    .obey (.subscribe (.named "b")
      { handler := ⟨⟨"w", .async⟩, fun _ => [.close (.named "b")]⟩, kind := .int } false),
    .obey (.publish (.named "b") (.int 1)),
    .move (.run waiter), .move (.run waiter), .move (.run waiter),
    .obey (.publish (.named "b") (.int 2))]

/-- The handler closes the bus. An event is published, the consumer takes what it has, the runtime
is started anew, and somebody subscribes. -/
def outlivingTurns : List Turn :=
  [.obey (.publish (.named "b") (.int 3)), .move (.run waiter), .move (.run waiter),
    .move (.run waiter), .move (.run waiter), .obey .startRuntime,
    .obey (.subscribe (.named "b")
      { handler := ⟨⟨"v", .async⟩, fun _ => []⟩, kind := .text } false)]

def unsealed : Host := ((initial true).replay sealingTurns).getD {}

def sealing : Host := ((initial true).replay (sealingTurns ++ [.move (.run waiter)])).getD {}

def outlived : Host := (sealing.replay outlivingTurns).getD {}

/-- Before the handler does so, the program could have closed the bus. After that the bus is as it
was, apart from the queue of its consumer, which was taken. -/
theorem closed_for_good_by_handler :
    (unsealed.closeAt [] (.named "b")).1 = .done ∧
      (sealing.slot? waiter).map (·.queue) = some [.int 2] ∧ Frozen 0 sealing outlived ∧
      outlived.closeAt [] (.named "b") = (.refused .closed, outlived) ∧
      (outlived.journal.filter (·.what.closes 0)).length = 1 := by
  have hunsealed : unsealed.Reachable := ⟨true, sealingTurns, run_of_isSome (by decide)⟩
  have hsealing : sealing.Reachable := ⟨true, _, run_of_isSome (by decide)⟩
  have hrun : Run sealing outlivingTurns outlived := run_of_isSome (by decide)
  have houtlived : outlived.Reachable := by
    obtain ⟨running, ts, run⟩ := hsealing
    exact ⟨running, _, run.append hrun⟩
  have hopen := (closed_for_good hunsealed (b := 0) (hasBus_iff.mpr (by decide))).2.1 (by decide)
  have hclosed := (closed_for_good hsealing (b := 0) (hasBus_iff.mpr (by decide))).2.2 (by decide)
  obtain ⟨hfrozen, hrefuses⟩ := hclosed _ _ hrun
  refine ⟨(hopen _ rfl [] (.named "b") (by decide)).1, by decide, hfrozen,
    (hrefuses _ rfl).close [] (.named "b") (by decide), ?_⟩
  rw [(closed_for_good houtlived (b := 0) (hasBus_iff.mpr (by decide))).1, hfrozen.closed,
    if_pos rfl]

end Host

end EventBus
