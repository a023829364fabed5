import EventBus.Proofs.Closing

/-!
# Faults in the wiring are for good

A request to subscribe may be refused because of how the program is wired: the bus is closed, or the
type is bound to another kind. Neither is ever undone, so the same request is refused from then on,
whoever makes it and from wherever. What it is told may differ, as a bus first looks whether it is
closed, then for a runtime, and only then at the binding: a conflict may come to be told as a bus
that is closed, or as a runtime that is missing. `verdict` is what it is told.

`Barred` is what every change keeps.
-/

set_option autoImplicit false

namespace EventBus

/-- What a subscriber is answered that is refused. -/
def Subscriber.refusal (who : Subscriber Action) (fault : Fault) : Answer :=
  if who.fatal then .fatal fault.message else .refused fault

/-- What a bus tells to whom it refuses over `fault`, where `context` is the current runtime. -/
def Bus.verdict (b : Bus) (context : Option RuntimeId) (fault : Fault) : Fault :=
  if b.isClosed then .closed
  else if (b.pinned.or context).isNone then .noRuntime
  else fault

theorem Bus.verdict_of_closed {b : Bus} (hclosed : b.isClosed = true)
    (context : Option RuntimeId) (fault : Fault) : b.verdict context fault = .closed :=
  if_pos hclosed

/-- A type that is bound to another kind is refused, whatever else there is to object to. -/
theorem Bus.place_of_bound {b : Bus} {type : EventType} {kind : Kind} {binding : Binding}
    (hb : b.registry.binding? type = some binding) (hk : kind ≠ binding.kind)
    (context : Option RuntimeId) :
    b.place context type kind =
      .error (b.verdict context (.conflict type kind.name binding.kind.name)) := by
  unfold Bus.place Bus.verdict
  split
  · rfl
  · cases b.pinned.or context with
    | none => rfl
    | some runtime =>
      simp only [Registry.getOrCreate_of_bound hb, Registry.groupFor_other hb hk]
      rfl

namespace Host

/-- Subscribers of `kind` are barred from a group: nothing that happens lets one in any more. -/
inductive Barred (h : Host) (g : GroupRef) (kind : Kind) : Fault → Prop
  | closed : h.HasBus g.bus → h.isClosed g.bus = true → Barred h g kind .closed
  | conflict {other : Kind} : h.kind? g = some other → kind ≠ other →
      Barred h g kind (.conflict g.type kind.name other.name)

variable {h h' : Host} {b : BusId} {g : GroupRef} {kind : Kind} {fault : Fault}

theorem isClosed_of_bus? {bus : Bus} (hbus : h.bus? b = some bus) :
    h.isClosed b = bus.isClosed := by
  rw [isClosed, hbus, Option.map_some, Option.getD_some]

/-- The refusals over the wiring are those of whom is barred. -/
theorem barred_of_place {bus : Bus} (hbus : h.bus? g.bus = some bus)
    {context : Option RuntimeId} (hp : bus.place context g.type kind = .error fault)
    (hw : fault.isWiring = true) : h.Barred g kind fault := by
  unfold Bus.place at hp
  split at hp
  · next hclosed =>
    obtain rfl := Except.error.inj hp
    exact .closed (by rw [HasBus, hbus]; rfl) ((isClosed_of_bus? hbus).trans hclosed)
  · split at hp
    · obtain rfl := Except.error.inj hp
      exact absurd hw (by simp [Fault.isWiring])
    · cases hb : bus.registry.binding? g.type with
      | none =>
        rw [Registry.getOrCreate_of_unbound hb] at hp
        exact absurd hp (by simp [Except.map, pure, Id.run])
      | some binding =>
        rw [Registry.getOrCreate_of_bound hb] at hp
        by_cases hk : kind = binding.kind
        · subst hk
          rw [Registry.groupFor_same] at hp
          exact absurd hp (by simp [Except.map, pure, Id.run])
        · rw [Registry.groupFor_other hb hk] at hp
          obtain rfl := Except.error.inj hp
          refine .conflict ?_ hk
          rw [kind?, binding?, hbus, Option.bind_some, hb, Option.map_some]

theorem Barred.place {bus : Bus} (hbar : h.Barred g kind fault) (hbus : h.bus? g.bus = some bus)
    (context : Option RuntimeId) :
    bus.place context g.type kind = .error (bus.verdict context fault) := by
  cases hbar with
  | closed _ hclosed =>
    rw [isClosed_of_bus? hbus] at hclosed
    rw [Bus.verdict_of_closed hclosed, Bus.place, if_pos hclosed]
  | conflict hkind hne =>
    obtain ⟨binding, hb, rfl⟩ := Option.map_eq_some_iff.mp hkind
    rw [binding?, hbus, Option.bind_some] at hb
    exact Bus.place_of_bound hb hne context

end Host

open Host

namespace Change

variable {n : Nature} {h h' : Host} {g : GroupRef} {kind : Kind}

/-- A type that is bound stays bound to its kind. -/
theorem kind? (hc : Change n h h') (hk : h.kind? g = some kind) : h'.kind? g = some kind := by
  rw [kind?_eq_standing?] at hk ⊢
  obtain ⟨s, hs, hkind⟩ := Option.map_eq_some_iff.mp hk
  cases hc.standing g with
  | same hsame => rw [hsame, hk]
  | bound _ hnone => exact absurd (hnone.symm.trans hs) (by simp)
  | attached s₀ hs₀ hs' =>
    obtain rfl := Option.some.inj (hs₀.symm.trans hs)
    rw [hs', Option.map_some, hkind]
  | looped _ _ _ _ hs₀ hs' =>
    obtain rfl := Option.some.inj (hs₀.symm.trans hs)
    rw [hs', Option.map_some, ← hkind]

theorem barred (hc : Change n h h') {fault : Fault} (hbar : h.Barred g kind fault) :
    h'.Barred g kind fault := by
  cases hbar with
  | closed hb hclosed => exact .closed (hc.hasBus hb) (hc.isClosed_mono hb hclosed)
  | conflict hkind hne => exact .conflict (hc.kind? hkind) hne

/-- Only who is given an id of a group is entered as a subscriber of it. -/
theorem subscriber (hc : Change n h h') (hr : h.Reached) {c : ConsumerRef} {who : Profile}
    {x : Entry} (hx : x ∈ h'.journal) (hwhat : x.what = .subscribed c kind who) :
    x ∈ h.journal ∨ h'.Given c kind := by
  -- an entry that is not the only new one was there before
  have hother : ∀ {y : Entry}, h'.journal = y :: h.journal → x ≠ y → x ∈ h.journal := by
    intro y hj hne
    rw [hj] at hx
    exact (List.mem_cons.mp hx).resolve_left hne
  cases hc.life hr c with
  | apart news _ _ hj hnews =>
    rw [hj] at hx
    refine .inl ((List.mem_append.mp hx).resolve_left fun hmem => ?_)
    exact absurd (hnews x hmem) (by simp [hwhat, Happening.concerns])
  | heard _ _ _ _ _ hj | unheard _ _ _ _ _ hj | closed _ _ hj | ticked _ _ hj
  | cancelled _ _ _ _ hj | took _ _ _ _ _ _ hj | leftJob _ _ _ _ _ hj =>
    exact .inl (hother hj fun heq => by simp [heq] at hwhat)
  | jobOver _ _ _ _ hj => exact .inl (hj ▸ hx)
  | enrolled _ _ hgiven _ _ hj =>
    by_cases hnew : x ∈ h.journal
    · exact .inl hnew
    · rw [hj] at hx
      obtain rfl := (List.mem_cons.mp hx).resolve_right hnew
      simp only [Happening.subscribed.injEq, true_and] at hwhat
      exact .inr (hwhat.1 ▸ hgiven)
  | stillborn _ _ hgiven _ _ hj =>
    by_cases hnew : x ∈ h.journal
    · exact .inl hnew
    · rw [hj] at hx
      -- the last entry is the loss of the task, the one before it the subscription
      rcases List.mem_cons.mp hx with rfl | hx
      · simp at hwhat
      · obtain rfl := (List.mem_cons.mp hx).resolve_right hnew
        simp only [Happening.subscribed.injEq, true_and] at hwhat
        exact .inr (hwhat.1 ▸ hgiven)
  | stepped _ hstep _ _ hj =>
    rw [hj] at hx
    refine .inl ((List.mem_append.mp hx).resolve_left fun hmem => ?_)
    cases hstep <;> simp_all
  | finished _ hending _ _ hj =>
    refine .inl (hother hj fun heq => ?_)
    cases hending <;> simp [heq] at hwhat

end Change

namespace Host

variable {h m : Host} {b : BusId} {own : List (Target × BusId)} {target : Target}
  {context : Option RuntimeId} {who : Subscriber Action} {fault : Fault}

theorem Reached.given_of_subscribed (hr : h.Reached) {c : ConsumerRef} {kind : Kind}
    {profile : Profile} {x : Entry} (hx : x ∈ h.journal)
    (hwhat : x.what = .subscribed c kind profile) : h.Given c kind := by
  apply hr.invariant (P := fun h => x ∈ h.journal → h.Given c kind) (by simp) ?_ hx
  intro h h' n hr hgiven hc hx
  rcases hc.subscriber hr hx hwhat with hbefore | hnew
  · exact hc.given (hgiven hbefore)
  · exact hnew

/-! ## Requests -/

theorem subscribeAt_of_place {bus : Bus} (hbus : h.bus? b = some bus)
    (hl : (h.locate own target).1 = some b)
    (hp : bus.place context who.type who.kind = .error fault) :
    (h.subscribeAt own context target who).1 = who.refusal fault := by
  have hb : h.HasBus b := by rw [HasBus, hbus]; rfl
  rw [subscribeAt, withBus, locate_of_known hb hl]
  simp only [subscribe, bus?_locateAll hb, hbus, hp]
  rfl

/-- Who is refused was not given a place. -/
theorem place_of_refused {bus : Bus} (hbus : h.bus? b = some bus)
    (hl : (h.locate own target).1 = some b)
    (hrefused : (h.subscribeAt own context target who).1 = .refused fault) :
    bus.place context who.type who.kind = .error fault := by
  cases hp : bus.place context who.type who.kind with
  | error fault' =>
    rw [subscribeAt_of_place hbus hl hp, Subscriber.refusal] at hrefused
    split at hrefused
    · exact absurd hrefused (by simp)
    · rw [Answer.refused.inj hrefused]
  | ok p =>
    have hb : h.HasBus b := by rw [HasBus, hbus]; rfl
    rw [subscribeAt, withBus, locate_of_known hb hl] at hrefused
    simp only [subscribe, bus?_locateAll hb, hbus, hp] at hrefused
    exact absurd hrefused (by simp [describe])

theorem bus?_congr (hm : m.buses = h.buses) (b : BusId) : m.bus? b = h.bus? b := by
  rw [bus?, bus?, hm]

/-- **Faults in the wiring are for good.** Suppose that somebody who asks in a reachable state to
subscribe, be it the program or a handler in the middle of its call, where the buses are the same,
is refused over the wiring. Then in every state of every run from there on, and in the middle of the
calls of handlers there, everybody is refused who asks to subscribe for the same kind under the same
type, whatever means the bus and whatever the current runtime is. They are told what `verdict` says:
that the bus is closed, if it is; else that a runtime is missing, if it is; else the same again. And
if the refusal is a conflict, nobody had subscribed for this kind under this type before. -/
theorem wiring_faults_last (hr : h.Reachable) (hm : m.buses = h.buses) (hb : h.HasBus b)
    (hl : (m.locate own target).1 = some b)
    (hrefused : (m.subscribeAt own context target who).1 = .refused fault)
    (hw : fault.isWiring = true) :
    (∀ us h', Run h us h' → ∀ m' : Host, m'.buses = h'.buses →
        ∃ bus, m'.bus? b = some bus ∧ (fault = .closed → bus.isClosed = true) ∧
          ∀ own' context' target' (who' : Subscriber Action),
            who'.kind = who.kind → who'.type = who.type → (m'.locate own' target').1 = some b →
              (m'.subscribeAt own' context' target' who').1 =
                who'.refusal (bus.verdict context' fault)) ∧
      (fault ≠ .closed → ∀ x ∈ h.journal, ∀ c profile,
        x.what = .subscribed c who.kind profile → c.group ≠ ⟨b, who.type⟩) := by
  obtain ⟨bus, hbus⟩ := Option.isSome_iff_exists.mp hb
  have hp := place_of_refused ((bus?_congr hm b).trans hbus) hl hrefused
  have hbarred : h.Barred ⟨b, who.type⟩ who.kind fault := barred_of_place hbus hp hw
  constructor
  · intro us h' run m' hm'
    have hchanges := run.changes hr.reached
    have hstill : h'.Barred ⟨b, who.type⟩ who.kind fault :=
      hchanges.keeps (P := fun h => h.Barred ⟨b, who.type⟩ who.kind fault)
        (fun hc => hc.barred) hbarred
    obtain ⟨bus', hbus'⟩ := Option.isSome_iff_exists.mp (Changes.hasBus hchanges hb)
    have hm'bus : m'.bus? b = some bus' := (bus?_congr hm' b).trans hbus'
    refine ⟨bus', hm'bus, ?_, fun own' context' target' who' hkind htype hl' => ?_⟩
    · rintro rfl
      cases hstill with
      | closed _ hclosed => exact (isClosed_of_bus? hbus').symm.trans hclosed
    · apply subscribeAt_of_place hm'bus hl'
      rw [hkind, htype]
      exact hstill.place hbus' context'
  · intro hne x hx c profile hwhat hgroup
    -- a subscriber of the kind would have bound the type to it
    have hkind := (hr.reached.given_of_subscribed hx hwhat).kind?
    cases hbarred with
    | closed => exact hne rfl
    | conflict hother hdiffers =>
      rw [hgroup, hother] at hkind
      exact hdiffers (Option.some.inj hkind).symm

/-- A bus with two names, on which a type belongs to one of the two kinds that have its number. -/
def claimingTurns : List Turn :=
  [.obey (.make "b" {} false), .obey (.clone (.named "b") "c"),
    .obey (.subscribe (.named "b")
      { handler := ⟨⟨"w", .async⟩, fun _ => []⟩, kind := .seven } false)]

def rival : Subscriber Action := { handler := ⟨⟨"v", .async⟩, fun _ => []⟩, kind := .text }

def claimed : Host := ((initial true).replay claimingTurns).getD {}

/-- The runtime goes, and with it the only consumer. -/
def deserted : Host := (claimed.replay [.obey .stopRuntime]).getD {}

def shut : Host := (deserted.replay [.obey .startRuntime, .obey (.close (.named "b"))]).getD {}

/-- The rival is refused over the type, and does not get it when nobody uses it any more, by
whichever name it asks. What it is told depends on where it asks, and on the bus. -/
theorem wiring_faults_last_rival :
    (claimed.subscribeAt [] (some 0) (.named "b") rival).1 =
        .refused (.conflict 7 Kind.text.name Kind.seven.name) ∧
      (deserted.subscribeAt [] none (.named "c") rival).1 = .refused .noRuntime ∧
      (deserted.subscribeAt [] (some 1) (.named "c") rival).1 =
        .refused (.conflict 7 Kind.text.name Kind.seven.name) ∧
      (shut.subscribeAt [] (some 1) (.named "c") rival).1 = .refused .closed := by
  have hrefused : (claimed.subscribeAt [] (some 0) (.named "b") rival).1 =
    .refused (.conflict 7 Kind.text.name Kind.seven.name) := by decide
  have hreachable : claimed.Reachable := ⟨true, claimingTurns, run_of_isSome (by decide)⟩
  have hleave : Run claimed _ deserted := run_of_isSome (by decide)
  have hshut : Run deserted _ shut := run_of_isSome (by decide)
  have hlast := (wiring_faults_last hreachable (m := claimed) (b := 0) rfl
    (hasBus_iff.mpr (by decide)) (by decide) hrefused rfl).1
  obtain ⟨bus, hbus, -, hdeserted⟩ := hlast _ _ hleave deserted rfl
  obtain ⟨bus', hbus', -, hclosed⟩ := hlast _ _ (hleave.append hshut) shut rfl
  have hopen : bus.isClosed = false := (isClosed_of_bus? hbus).symm.trans (by decide)
  have hloose : bus.pinned = none := by
    have hpinned : (deserted.bus? 0).map (·.pinned) = some none := by decide
    rw [hbus] at hpinned
    exact Option.some.inj hpinned
  refine ⟨hrefused, ?_, ?_, ?_⟩
  · rw [hdeserted [] none (.named "c") rival rfl rfl (by decide), Bus.verdict, hopen, hloose]
    rfl
  · rw [hdeserted [] (some 1) (.named "c") rival rfl rfl (by decide), Bus.verdict, hopen, hloose]
    rfl
  · rw [hclosed [] (some 1) (.named "c") rival rfl rfl (by decide),
      Bus.verdict_of_closed ((isClosed_of_bus? hbus').symm.trans (by decide))]
    rfl

end Host

end EventBus
