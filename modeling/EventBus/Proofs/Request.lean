import EventBus.Proofs.Standing

/-!
# Requests are made of changes

What a program or a handler asks of its buses, told as a sequence of changes. Every lemma starts
from a reached state, since it is there that a bus that is named exists, and that a group that has a
loop has it under its own name.

No request both shuts a bus down and brings an event to a queue: publishing is `IsGain` and
everything else is `IsLoss`, where either may have plain changes as well.
-/

set_option autoImplicit false

namespace EventBus

namespace Nature

/-- What may happen in a turn that delivers, or that lets a consumer begin to wait. -/
def IsGain (n : Nature) : Prop := n = .plain ∨ n = .gain

/-- What may happen in a turn that shuts a bus down, or stops the runtime. -/
def IsLoss (n : Nature) : Prop := n ≠ .gain

end Nature

namespace Host

variable {h : Host} {ns : Nature → Prop}

/-- `h'` is `h` with more buses held. -/
structure Extends (h h' : Host) : Prop where
  changes : Changes (· = .plain) h h'
  held : ∀ b, h.isHeld b = true → h'.isHeld b = true

theorem Extends.refl (h : Host) : h.Extends h := ⟨.refl h, fun _ hb => hb⟩

theorem Extends.trans {m h' : Host} (ha : h.Extends m) (hb : m.Extends h') : h.Extends h' :=
  ⟨ha.changes.trans hb.changes, fun b hh => hb.held b (ha.held b hh)⟩

theorem Extends.mono {h' : Host} (hx : h.Extends h') (hns : ns .plain) : Changes ns h h' :=
  hx.changes.mono fun n hn => by rw [hn]; exact hns

/-! ## Finding a bus -/

theorem mem_of_lookup {α β : Type} [BEq α] [LawfulBEq α] {own : List (α × β)} {key : α} {b : β}
    (hb : own.lookup key = some b) : (key, b) ∈ own := by
  obtain ⟨l₁, l₂, heq, -⟩ := List.lookup_eq_some_iff.mp hb
  rw [heq]
  simp

/-- A bus that has a name is held. -/
theorem handle?_isHeld {name : String} {b : BusId} (hb : h.handle? name = some b) :
    h.isHeld b = true :=
  isHeld_of_handle (mem_of_lookup hb)

theorem useDefault_of_none (hnone : h.preset = none) :
    h.useDefault = (h.buses.length,
      { h with buses := h.buses ++ [{}], preset := some h.buses.length }) := by
  unfold useDefault
  rw [hnone]
  rfl

theorem useDefault_of_some {b : BusId} (hb : h.preset = some b) : h.useDefault = (b, h) := by
  unfold useDefault
  rw [hb]

/-- The default bus is held from its first use on. -/
theorem useDefault_extends (h : Host) :
    h.Extends h.useDefault.2 ∧ h.useDefault.2.isHeld h.useDefault.1 = true := by
  unfold useDefault
  split
  · next b hb => exact ⟨.refl h, isHeld_of_preset hb⟩
  · next hnone =>
    refine ⟨⟨.single rfl (.make rfl rfl ?_), ?_⟩, isHeld_of_preset rfl⟩
    · intro b hb
      rcases isHeld_iff.mp hb with ⟨x, hx, rfl⟩ | hpre | ⟨t, ht, x, hx, rfl⟩
      · exact .inl (isHeld_of_handle hx)
      · exact .inr (Option.some.inj hpre).symm
      · exact .inl (isHeld_of_task (h := h) ht hx)
    · intro b hb
      refine isHeld_mono ?_ ?_ ?_ hb
      · exact fun _ hx => hx
      · exact fun _ hpre => absurd (hnone.symm.trans hpre) (by simp)
      · exact fun t ht => ⟨t, ht, rfl⟩

/-- Whatever bus is found is held, and no other is let go of. -/
theorem locate_extends {own : List (Target × BusId)} (hown : ∀ x ∈ own, h.isHeld x.2 = true)
    (target : Target) :
    h.Extends (h.locate own target).2 ∧
      ∀ b, (h.locate own target).1 = some b → (h.locate own target).2.isHeld b = true := by
  unfold locate
  split
  · next b hb =>
    refine ⟨.refl h, fun b' hb' => ?_⟩
    obtain rfl := Option.some.inj hb'
    exact hown (target, b) (mem_of_lookup hb)
  · split
    · exact ⟨.refl h, fun b hb => handle?_isHeld hb⟩
    · refine ⟨h.useDefault_extends.1, fun b hb => ?_⟩
      obtain rfl := Option.some.inj hb
      exact h.useDefault_extends.2

/-- The same holds for several. -/
theorem locateAll_extends {own : List (Target × BusId)} (targets : List Target) :
    ∀ {h : Host}, (∀ x ∈ own, h.isHeld x.2 = true) →
      h.Extends (h.locateAll own targets).2 ∧
        ∀ x ∈ (h.locateAll own targets).1, (h.locateAll own targets).2.isHeld x.2 = true := by
  induction targets with
  | nil =>
    intro h _
    exact ⟨.refl h, by simp [locateAll]⟩
  | cons target rest ih =>
    intro h hown
    obtain ⟨hfirst, hfound⟩ := locate_extends hown target
    obtain ⟨hrest, hheld⟩ := ih fun x hx => hfirst.held _ (hown x hx)
    refine ⟨hfirst.trans hrest, fun x hx => ?_⟩
    rcases List.mem_append.mp hx with hx | hx
    · rw [Option.mem_toList, Option.map_eq_some_iff] at hx
      obtain ⟨b, hb, rfl⟩ := hx
      exact hrest.held b (hfound b hb)
    · exact hheld x hx

/-- A request on a target is a request on a bus that somebody holds. -/
theorem withBus_changes {own : List (Target × BusId)} (hr : h.Reached) (hplain : ns .plain)
    (hown : ∀ x ∈ own, h.isHeld x.2 = true) (target : Target) (f : BusId → Host → Answer × Host)
    (hf : ∀ b m, m.Reached → m.isHeld b = true → (∀ x ∈ own, m.isHeld x.2 = true) →
      Changes ns m (f b m).2) :
    Changes ns h (h.withBus own target f).2 := by
  obtain ⟨hfound, hheld⟩ := locate_extends hown target
  unfold withBus
  split
  · next b m heq =>
    rw [heq] at hfound hheld
    exact (hfound.mono hplain).trans (hf b m (hr.changes hfound.changes) (hheld b rfl)
      fun x hx => hfound.held _ (hown x hx))
  · next m heq =>
    rw [heq] at hfound
    exact hfound.mono hplain

/-! ## Letting go -/

/-- Each bus that nobody holds any more is given up by a change. -/
theorem release_changes (hloss : ns .loss) (gone : List BusId) :
    ∀ h : Host, Changes ns h (h.release gone) := by
  induction gone with
  | nil => exact fun h => .refl h
  | cons b rest ih =>
    intro h
    show Changes ns h ((if h.isHeld b then h else h.abandon b).release rest)
    cases hb : h.isHeld b with
    | true => exact ih h
    | false => exact (Changes.single hloss (.abandon hb)).trans (ih (h.abandon b))

theorem otherHandles_subset (name : String) {x : String × BusId} (hx : x ∈ h.otherHandles name) :
    x ∈ h.handles := (List.mem_filter.mp hx).1

/-- A bus that is held gets one more name, and the bus that had the name is let go of. -/
theorem hold_changes (hplain : ns .plain) (hloss : ns .loss) (name : String) {b : BusId}
    (hb : h.isHeld b = true) : Changes ns h (h.hold name b) := by
  refine (Changes.single hplain (.rename fun b' hb' => ?_)).trans (release_changes hloss _ _)
  rcases isHeld_iff.mp hb' with ⟨x, hx, rfl⟩ | hpre | ⟨t, ht, x, hx, rfl⟩
  · rcases List.mem_cons.mp hx with rfl | hx
    · exact hb
    · exact isHeld_of_handle (otherHandles_subset name hx)
  · exact isHeld_of_preset hpre
  · exact isHeld_of_task (h := h) ht hx

/-- A name that is dropped may have been the last to hold its bus. -/
theorem drop_changes (hplain : ns .plain) (hloss : ns .loss) (name : String) :
    Changes ns h (h.drop name) := by
  refine (Changes.single hplain (.rename fun b' hb' => ?_)).trans (release_changes hloss _ _)
  rcases isHeld_iff.mp hb' with ⟨x, hx, rfl⟩ | hpre | ⟨t, ht, x, hx, rfl⟩
  · exact isHeld_of_handle (otherHandles_subset name hx)
  · exact isHeld_of_preset hpre
  · exact isHeld_of_task (h := h) ht hx

/-- A bus is made with its first name. -/
theorem make_changes (hplain : ns .plain) (hloss : ns .loss) (name : String) {bus : Bus}
    (hreg : bus.registry = .empty) (hstage : bus.stage = .active) :
    Changes ns h (h.make name bus) := by
  have hmake : Change .plain h { h with
      buses := h.buses ++ [bus], handles := (name, h.buses.length) :: h.otherHandles name } := by
    refine .make hreg hstage fun b' hb' => ?_
    rcases isHeld_iff.mp hb' with ⟨x, hx, rfl⟩ | hpre | ⟨t, ht, x, hx, rfl⟩
    · rcases List.mem_cons.mp hx with rfl | hx
      · exact .inr rfl
      · exact .inl (isHeld_of_handle (otherHandles_subset name hx))
    · exact .inl (isHeld_of_preset hpre)
    · exact .inl (isHeld_of_task (h := h) ht hx)
  exact (Changes.single hplain hmake).trans (release_changes hloss _ _)

/-! ## The default bus is installed -/

/-- What somebody else holds is not shut down by letting go of it. -/
theorem release_of_isHeld {b : BusId} (hb : h.isHeld b = true) : h.release [b] = h := by
  simp only [release, List.foldl_cons, hb, if_true, List.foldl_nil]

/-- An installation is refused when there is a default bus, and the handle is let go of. -/
theorem install_cases (h : Host) (b : BusId) :
    (∃ b', h.preset = some b' ∧
      acknowledged (h.install b) = (.refused .alreadyInstalled, h.release [b])) ∨
    (h.preset = none ∧ acknowledged (h.install b) = (.done, { h with preset := some b })) := by
  unfold install
  cases hpre : h.preset with
  | some b' => exact .inl ⟨b', rfl, rfl⟩
  | none => exact .inr ⟨rfl, rfl⟩

/-- To give a handle away for an installation that is refused is to drop it. -/
theorem surrender_cases (h : Host) (name : String) :
    (h.handle? name = none ∧ h.surrender name = (.noHandle (.named name), h)) ∨
    (∃ b b', h.handle? name = some b ∧ h.preset = some b' ∧
      h.surrender name = (.refused .alreadyInstalled, h.drop name)) ∨
    ∃ b, h.handle? name = some b ∧ h.preset = none ∧
      h.surrender name = (.done, { h with handles := h.otherHandles name, preset := some b }) := by
  cases hb : h.handle? name with
  | none => exact .inl ⟨rfl, by rw [surrender, hb]⟩
  | some b =>
    refine .inr ?_
    rcases install_cases { h with handles := h.otherHandles name } b with
      ⟨b', hpre, hinstall⟩ | ⟨hpre, hinstall⟩
    · refine .inl ⟨b, b', rfl, hpre, ?_⟩
      rw [surrender, hb, drop, hb]
      exact hinstall
    · refine .inr ⟨b, rfl, hpre, ?_⟩
      rw [surrender, hb]
      exact hinstall

/-- A bus becomes the default by a handle to it, which may be gone after that. -/
theorem settle_changes (hplain : ns .plain) {b : BusId} (hb : h.isHeld b = true)
    {handles : List (String × BusId)} (hsub : ∀ x ∈ handles, x ∈ h.handles) :
    Changes ns h { h with handles, preset := some b } := by
  refine .single hplain (.rename fun b' hb' => ?_)
  rcases isHeld_iff.mp hb' with ⟨x, hx, rfl⟩ | hpre | ⟨t, ht, x, hx, rfl⟩
  · exact isHeld_of_handle (hsub x hx)
  · exact Option.some.inj hpre ▸ hb
  · exact isHeld_of_task (h := h) ht hx

/-- Of the two ways in which an installation may end, one drops a handle to a bus that is held by
another. -/
theorem install_changes (hplain : ns .plain) {b : BusId} (hb : h.isHeld b = true) :
    Changes ns h (acknowledged (h.install b)).2 := by
  rcases install_cases h b with ⟨b', -, hinstall⟩ | ⟨-, hinstall⟩ <;> rw [hinstall]
  · rw [release_of_isHeld hb]
    exact .refl h
  · exact settle_changes hplain hb fun _ hx => hx

theorem surrender_changes (hplain : ns .plain) (hloss : ns .loss) (name : String) :
    Changes ns h (h.surrender name).2 := by
  rcases surrender_cases h name with ⟨-, hsame⟩ | ⟨b, b', -, -, hdrop⟩ | ⟨b, hb, -, hsettled⟩
  · rw [hsame]
    exact .refl h
  · rw [hdrop]
    exact drop_changes hplain hloss name
  · rw [hsettled]
    exact settle_changes hplain (handle?_isHeld hb) fun _ hx => otherHandles_subset name hx

theorem bind_changes (hplain : ns .plain) (name : String) (c : ConsumerRef) :
    Changes ns h (h.bind name c) :=
  .single hplain (.rename fun _ hb => hb)

/-! ## Publishing, closing and cancelling -/

/-- To publish is the one request by which a queue may gain. -/
theorem publish_changes (hr : h.Reached) (hgain : ns .gain) {b : BusId} (hb : h.isHeld b = true)
    (event : Event) : Changes ns h (h.publish b event) :=
  .single hgain (.publish hb (hr.holdsSound.known b hb))

theorem publishTo_changes {own : List (Target × BusId)} (hr : h.Reached) (hplain : ns .plain)
    (hgain : ns .gain) (hown : ∀ x ∈ own, h.isHeld x.2 = true) (target : Target) (event : Event) :
    Changes ns h (h.publishTo own target event).2 :=
  withBus_changes hr hplain hown target _ fun _ _ hm hb _ => publish_changes hm hgain hb event

theorem countdownTo_changes {own : List (Target × BusId)} (hr : h.Reached) (hplain : ns .plain)
    (hgain : ns .gain) (hown : ∀ x ∈ own, h.isHeld x.2 = true) (target : Target) (event : Event) :
    Changes ns h (h.countdownTo own target event).2 := by
  apply withBus_changes hr hplain hown target _
  intro b m hm hb _
  split
  · next n _ =>
    show Changes ns m (if 0 < n then m.publish b (.int (n - 1)) else m)
    split
    · exact publish_changes hm hgain hb _
    · exact .refl m
  · exact .refl m

theorem closeAt_changes {own : List (Target × BusId)} (hr : h.Reached) (hplain : ns .plain)
    (hloss : ns .loss) (hown : ∀ x ∈ own, h.isHeld x.2 = true) (target : Target) :
    Changes ns h (h.closeAt own target).2 := by
  apply withBus_changes hr hplain hown target _
  intro b m _ hb _
  split
  · next m' hok => exact .single hloss (.close hb hok)
  · exact .refl m

theorem countAt_changes {own : List (Target × BusId)} (hr : h.Reached) (hplain : ns .plain)
    (hown : ∀ x ∈ own, h.isHeld x.2 = true) (target : Target) (type : EventType) :
    Changes ns h (h.countAt own target type).2 :=
  withBus_changes hr hplain hown target _ fun _ m _ _ _ => .refl m

theorem ask_changes {own : List (Target × BusId)} (hr : h.Reached) (hplain : ns .plain)
    (hown : ∀ x ∈ own, h.isHeld x.2 = true) (question : Question) :
    Changes ns h (h.ask own question).2 := by
  cases question with
  | count target type => exact countAt_changes hr hplain hown target type
  | status name => exact .refl h

theorem cancelNamed_changes (hplain : ns .plain) (name : String) :
    Changes ns h (h.cancelNamed name).2 := by
  unfold cancelNamed
  split
  · exact .refl h
  · next c _ =>
    show Changes ns h (h.cancel c)
    cases ha : h.isActive c with
    | true => exact .single hplain (.cancel ha)
    | false =>
      rw [cancel, if_neg (by simp [ha])]
      exact .refl h

end Host

/-! ## Questions of handlers -/

namespace Host

/-- What bus is found does not depend on what a task is at. -/
theorem locate_setTask (h : Host) (t : Task) (own : List (Target × BusId)) (target : Target) :
    (h.setTask t).locate own target =
      ((h.locate own target).1, (h.locate own target).2.setTask t) := by
  unfold locate
  split
  · rfl
  · split
    · rfl
    · cases hpre : h.preset with
      | none => rw [useDefault_of_none hpre, useDefault_of_none (h := h.setTask t) hpre]; rfl
      | some b => rw [useDefault_of_some hpre, useDefault_of_some (h := h.setTask t) hpre]

/-- A question is answered by what there is of the buses, whatever the task is at. -/
theorem ask_setTask (h : Host) (t : Task) (own : List (Target × BusId)) (question : Question) :
    (h.setTask t).ask own question =
      ((h.ask own question).1, (h.ask own question).2.setTask t) := by
  cases question with
  | count target type =>
    rw [ask, ask, countAt, countAt, withBus, withBus, locate_setTask]
    obtain ⟨_ | b, m⟩ := h.locate own target <;> rfl
  | status name => rfl

/-- To ask and then go on with what the answer leaves of the call is to go on with that, and ask. -/
theorem perform_consult (h : Host) (t : Task) (lent : Option (List Event)) (call : Call)
    (question : Question) (skip : Answer → Nat) :
    h.perform t lent call (.consult question skip) = enter t (.consult question skip)
      ((h.setTask (t.continueCall lent
        (call.skip (skip (h.ask t.held question).1)))).ask t.held question) := by
  rw [ask_setTask]
  rfl

end Host

/-! ## Subscribing -/

/-- What a place that was granted says: the bus is open, and the type is bound to the kind already
or is bound to it now. -/
theorem Bus.place_eq_ok {bus : Bus} {context : Option RuntimeId} {type : EventType} {kind : Kind}
    {p : Placement} (hp : bus.place context type kind = .ok p) :
    bus.isClosed = false ∧
      ((p.registry = bus.registry ∧
          bus.registry.binding? type = some ⟨type, kind, p.group⟩) ∨
        ∃ fresh, p.group = bus.newGroup type ∧
          p.registry = bus.registry.add ⟨type, kind, bus.newGroup type⟩ fresh) := by
  unfold Bus.place at hp
  cases hclosed : bus.isClosed with
  | true => rw [hclosed] at hp; exact absurd hp (by simp)
  | false =>
    refine ⟨rfl, ?_⟩
    rw [hclosed, if_neg (by simp)] at hp
    split at hp
    · exact absurd hp (by simp)
    · next runtime _ =>
      unfold Registry.getOrCreate at hp
      split at hp
      · next found hfound =>
        left
        obtain ⟨b, hb, hgroup⟩ := Option.map_eq_some_iff.mp hfound
        obtain ⟨btype, bkind, group⟩ := b
        obtain rfl : btype = type := Registry.type_of_binding? hb
        -- bound already: granted if it is bound to this kind
        rw [← hgroup, Binding.groupFor] at hp
        split at hp
        · next hkind =>
          obtain rfl := Except.ok.inj hp
          subst hkind
          exact ⟨rfl, hb⟩
        · exact absurd hp (by simp [Except.map, pure, Id.run])
      · next hnone =>
        -- not bound yet: bound now, to a new group
        refine .inr ⟨Registry.get?_eq_none_iff.mp hnone, ?_⟩
        obtain rfl := Except.ok.inj hp
        exact ⟨rfl, rfl⟩

namespace Host

variable {h : Host} {ns : Nature → Prop}

/-- A type that is granted is bound, by one change or by none. -/
theorem bind_place {b : BusId} {bus : Bus} {context : Option RuntimeId} {type : EventType}
    {kind : Kind} {p : Placement} (hheld : h.isHeld b = true) (hbus : h.bus? b = some bus)
    (hp : bus.place context type kind = .ok p) :
    Changes (· = .plain) h (h.modifyBus b fun bus => { bus with registry := p.registry }) ∧
      (h.modifyBus b fun bus => { bus with registry := p.registry }).binding? ⟨b, type⟩ =
        some ⟨type, kind, p.group⟩ ∧
      (h.modifyBus b fun bus => { bus with registry := p.registry }).isClosed b = false := by
  obtain ⟨hopen, ⟨hreg, hbind⟩ | ⟨fresh, hgroup, hreg⟩⟩ := Bus.place_eq_ok hp
  · have hsame : h.modifyBus b (fun bus => { bus with registry := p.registry }) = h :=
      modifyBus_self hbus (by rw [hreg])
    rw [hsame]
    refine ⟨.refl h, ?_, ?_⟩
    · rw [binding?, hbus, Option.bind_some, hbind]
    · rw [isClosed, hbus, Option.map_some, Option.getD_some, hopen]
  · rw [hreg]
    refine ⟨.single rfl (.bindType fresh hheld hbus hopen), ?_, ?_⟩
    · rw [binding?_bindType h hbus, if_pos rfl, hgroup]
    · rw [isClosed_bindType, isClosed, hbus, Option.map_some, Option.getD_some, hopen]

/-- A group that is to get a consumer has a loop if its runtime is there to run one. -/
theorem ensureLoop_changes (hr : h.Reached) {g : GroupRef} (kind : Kind) {interval : Duration}
    {p : Placement} (hg : h.group? g = some p.group) (hi : h.interval? g.bus = some interval) :
    Changes (· = .plain) h (h.ensureLoop g kind interval p) ∧
      (h.runtime = some p.runtime →
        ∃ l ∈ (h.ensureLoop g kind interval p).loops, l.group = g) := by
  cases hloop : h.hasLoop p.group with
  | true =>
    rw [ensureLoop, if_pos hloop]
    exact ⟨.refl h, fun _ => hr.loopsSound.of_hasLoop hg hloop⟩
  | false =>
    refine ⟨.single rfl (.startLoop hg hloop hi), fun hrun => ?_⟩
    rw [ensureLoop_of_idle hloop]
    refine ⟨{ id := h.loopsStarted, group := g, runtime := p.runtime, interval }, ?_, rfl⟩
    show _ ∈ ite _ _ _
    rw [if_pos hrun]
    exact List.mem_append_right _ (List.mem_singleton.mpr rfl)

/-- A loop that is started changes no kind, shuts no bus and lets nothing go. -/
theorem kind?_ensureLoop (g other : GroupRef) (kind : Kind) (interval : Duration) (p : Placement) :
    (h.ensureLoop g kind interval p).kind? other = h.kind? other := by
  cases hloop : h.hasLoop p.group with
  | true => rw [ensureLoop, if_pos hloop]
  | false =>
    rw [ensureLoop_of_idle hloop]
    exact h.kind?_modifyGroup g _ other

theorem isClosed_ensureLoop (g : GroupRef) (kind : Kind) (interval : Duration) (p : Placement)
    (b : BusId) : (h.ensureLoop g kind interval p).isClosed b = h.isClosed b := by
  cases hloop : h.hasLoop p.group with
  | true => rw [ensureLoop, if_pos hloop]
  | false =>
    rw [ensureLoop_of_idle hloop]
    exact h.isClosed_modifyGroup g _ b

theorem ensureLoop_frame (g : GroupRef) (kind : Kind) (interval : Duration) (p : Placement) :
    (h.ensureLoop g kind interval p).runtime = h.runtime ∧
      (∀ b, (h.ensureLoop g kind interval p).isHeld b = h.isHeld b) ∧
      (∀ b, (h.ensureLoop g kind interval p).isDown b = h.isDown b) ∧
      (h.ensureLoop g kind interval p).handles = h.handles := by
  cases hloop : h.hasLoop p.group with
  | true => rw [ensureLoop, if_pos hloop]; exact ⟨rfl, fun _ => rfl, fun _ => rfl, rfl⟩
  | false =>
    rw [ensureLoop_of_idle hloop]
    exact ⟨rfl, fun _ => rfl, h.isDown_modifyGroup g _, rfl⟩

/-- A task is put in line on a runtime that is there, or is dropped at once. -/
theorem spawn_changes (hplain : ns .plain) (hloss : ns .loss) {t : Task} {kind : Kind}
    (ha : h.Admissible t kind)
    (hl : h.runtime = some t.runtime → ∃ l ∈ h.loops, l.group = t.consumer.group) :
    Changes ns h (((h.modifyGroup t.consumer.group (·.attach.2)).note
      (.subscribed t.consumer kind t.handler.profile)).spawn t) := by
  unfold spawn
  split
  · next hrun => exact .single hplain (.enrol ha hrun (hl hrun))
  · next hrun =>
    exact (Changes.single hplain (.stillborn ha hrun)).trans (release_changes hloss _ _)

/-- The task of the next consumer of a group. -/
def newcomer (h : Host) (g : GroupRef) (runtime : RuntimeId) (handler : Handler Action)
    (held : List (Target × BusId)) : Task :=
  { consumer := (h.attach g).1, runtime, handler, held }

/-- The type is bound first, then the group gets a loop, and then the consumer its slot and task. -/
theorem subscribe_of_place {b : BusId} {bus : Bus} (hbus : h.bus? b = some bus)
    {context : Option RuntimeId} {who : Subscriber Action} {p : Placement}
    (hp : bus.place context who.type who.kind = .ok p) (held : List (Target × BusId)) :
    let e := (h.modifyBus b fun bus => { bus with registry := p.registry }).ensureLoop
      ⟨b, who.type⟩ who.kind bus.flushInterval p
    let t := e.newcomer ⟨b, who.type⟩ p.runtime who.handler held
    (h.subscribe b context who held).2 = ((e.modifyGroup t.consumer.group (·.attach.2)).note
      (.subscribed t.consumer who.kind t.handler.profile)).spawn t := by
  simp only [subscribe, hbus, hp]
  rfl

/-- A subscription that is granted puts the task of a new consumer on a runtime, at a state in which
the type is bound and the group has a loop, and nothing else is different. -/
theorem subscribe_granted (hr : h.Reached) {b : BusId} {bus : Bus} (hb : h.isHeld b = true)
    (hbus : h.bus? b = some bus) {context : Option RuntimeId} {who : Subscriber Action}
    {held : List (Target × BusId)} (hheld : ∀ x ∈ held, h.isHeld x.2 = true) {p : Placement}
    (hp : bus.place context who.type who.kind = .ok p) :
    ∃ e t, Changes (· = .plain) h e ∧ e.Admissible t who.kind ∧
      (e.runtime = some t.runtime → ∃ l ∈ e.loops, l.group = t.consumer.group) ∧
      (∀ x, e.isHeld x = h.isHeld x) ∧ (∀ x, e.isDown x = h.isDown x) ∧ e.handles = h.handles ∧
      (h.subscribe b context who held).2 = ((e.modifyGroup t.consumer.group (·.attach.2)).note
        (.subscribed t.consumer who.kind t.handler.profile)).spawn t := by
  have hplace := bind_place hb hbus hp
  have hsame : ∀ x, (h.modifyBus b fun bus => { bus with registry := p.registry }).isHeld x =
    h.isHeld x := fun _ => rfl
  have hhandles : (h.modifyBus b fun bus => { bus with registry := p.registry }).handles =
    h.handles := rfl
  have hup : ∀ x, (h.modifyBus b fun bus => { bus with registry := p.registry }).isDown x =
      h.isDown x := by
    intro x
    rw [isDown_modifyBus]
    split
    · next hx => rw [hx]; rfl
    · rfl
  have hevery : (h.modifyBus b fun bus => { bus with registry := p.registry }).interval? b =
      some bus.flushInterval := by
    rw [interval?, bus?_modifyBus, if_pos rfl, hbus]
    rfl
  have hsubscribe := subscribe_of_place hbus hp held
  dsimp only at hsubscribe
  rw [hsubscribe]
  -- the type is bound in `m`, and nothing else is different there
  generalize h.modifyBus b (fun bus => { bus with registry := p.registry }) = m
    at hplace hsame hhandles hup hevery ⊢
  obtain ⟨hbind, hbinding, hopen⟩ := hplace
  have hmr : m.Reached := hr.changes hbind
  have hgroup : m.group? ⟨b, who.type⟩ = some p.group := by
    rw [group?_eq_binding?, hbinding]
    rfl
  have hkind : m.kind? ⟨b, who.type⟩ = some who.kind := by
    rw [kind?, hbinding]
    rfl
  obtain ⟨hstart, hserved⟩ := ensureLoop_changes hmr who.kind hgroup hevery
  have hframe := ensureLoop_frame (h := m) ⟨b, who.type⟩ who.kind bus.flushInterval p
  have hkind' := (kind?_ensureLoop ⟨b, who.type⟩ ⟨b, who.type⟩ who.kind
    bus.flushInterval p).trans hkind
  have hopen' := (isClosed_ensureLoop ⟨b, who.type⟩ who.kind bus.flushInterval p b).trans hopen
  -- the group has a loop in `e`, if there is a runtime for it
  generalize m.ensureLoop ⟨b, who.type⟩ who.kind bus.flushInterval p = e
    at hstart hserved hframe hkind' hopen' ⊢
  have hsome : (e.group? ⟨b, who.type⟩).isSome = true := by
    rw [← kind?_isSome, hkind']
    rfl
  obtain ⟨group, hgroup'⟩ := Option.isSome_iff_exists.mp hsome
  have hid : ((e.group? ⟨b, who.type⟩).map (·.nextId)).getD 0 = group.nextId := by
    rw [hgroup']
    rfl
  refine ⟨e, e.newcomer ⟨b, who.type⟩ p.runtime who.handler held, hbind.trans hstart,
    ⟨hkind', ⟨group, hgroup', hid⟩, hopen', ?_, fun x hx => ?_, rfl, rfl, rfl,
      (hmr.changes hstart).task?_of_nextId hgroup' hid⟩, fun hrun => ?_,
    fun x => (hframe.2.1 x).trans (hsame x), fun x => (hframe.2.2.1 x).trans (hup x),
    hframe.2.2.2.trans hhandles, rfl⟩
  · exact (hframe.2.1 b).trans ((hsame b).trans hb)
  · rw [hframe.2.1, hsame, hheld x hx]
  · exact hserved (hframe.1 ▸ hrun)

/-- **A subscription is made of changes**: the type is bound, a loop started, the consumer admitted
and, if its runtime is gone, dropped. -/
theorem subscribe_changes (hr : h.Reached) (hplain : ns .plain) (hloss : ns .loss) {b : BusId}
    (hb : h.isHeld b = true) (context : Option RuntimeId) (who : Subscriber Action)
    {held : List (Target × BusId)} (hheld : ∀ x ∈ held, h.isHeld x.2 = true) :
    Changes ns h (h.subscribe b context who held).2 := by
  cases hbus : h.bus? b with
  | none =>
    simp only [subscribe, hbus]
    exact release_changes hloss _ h
  | some bus =>
    cases hp : bus.place context who.type who.kind with
    | error fault =>
      simp only [subscribe, hbus, hp]
      split
      · exact (Changes.single hplain (.aside rfl)).trans (release_changes hloss _ _)
      · exact release_changes hloss _ h
    | ok p =>
      obtain ⟨e, t, hchanges, hadmissible, hserved, -, -, -, heq⟩ :=
        subscribe_granted hr hb hbus hheld hp
      rw [heq]
      exact (hchanges.mono fun n hn => by rw [hn]; exact hplain).trans
        (spawn_changes hplain hloss hadmissible hserved)

/-- Buses are found for the handler before it subscribes, and the name is bound after that. -/
theorem subscribeAt_changes {own : List (Target × BusId)} (hr : h.Reached) (hplain : ns .plain)
    (hloss : ns .loss) (hown : ∀ x ∈ own, h.isHeld x.2 = true) (context : Option RuntimeId)
    (target : Target) (who : Subscriber Action) :
    Changes ns h (h.subscribeAt own context target who).2 := by
  apply withBus_changes hr hplain hown target _
  intro b m hm hb hown'
  obtain ⟨hall, hheld⟩ := locateAll_extends who.hold hown'
  have hmr := hm.changes hall.changes
  have hsub := subscribe_changes hmr hplain hloss (hall.held b hb) context who hheld
  apply (hall.mono hplain).trans
  dsimp only
  generalize (m.locateAll own who.hold).2.subscribe b context who
    (m.locateAll own who.hold).1 = answered at hsub ⊢
  obtain ⟨⟨fault⟩ | ⟨c⟩, m'⟩ := answered
  · exact hsub
  · exact hsub.trans (bind_changes hplain _ c)

end Host

end EventBus
