import EventBus.Proofs.Turn
import Mathlib.Data.List.Nodup

/-!
# Turns leave no bus loose

In the middle of a turn there may be *loose* buses, which nobody holds any more and which are not
shut down yet; so that there is none is no invariant of changes. It is told of all that a turn does
instead: whatever is done `Tidies`, that is, leaves no bus loose that was not loose before.

A name lets go of the bus that is looked up under it, so it is part of the argument that names are
distinct.
-/

set_option autoImplicit false

namespace EventBus

namespace Host

/-- A bus that is not shut down although nobody holds it. -/
structure Loose (h : Host) (b : BusId) : Prop where
  free : h.isHeld b = false
  up : h.isDown b = false

theorem Loose.not_held {h : Host} {b : BusId} (hb : h.Loose b) : ¬h.isHeld b = true := by
  simp [hb.free]

/-- No two handles of the program have the same name. -/
def Named (h : Host) : Prop := (h.handles.map (·.1)).Nodup

/-- What is loose in `h'` was loose in `h`. -/
def Tidies (h h' : Host) : Prop := h.Named → h'.Named ∧ ∀ b, h'.Loose b → h.Loose b

variable {h m h' : Host}

theorem Tidies.refl (h : Host) : h.Tidies h := fun hn => ⟨hn, fun _ hb => hb⟩

theorem Tidies.trans (ha : h.Tidies m) (hb : m.Tidies h') : h.Tidies h' := by
  intro hn
  obtain ⟨hm, hfirst⟩ := ha hn
  obtain ⟨hn', hrest⟩ := hb hm
  exact ⟨hn', fun b hl => hfirst b (hrest b hl)⟩

/-- Nothing comes loose where nothing is let go and no bus is made. -/
theorem Tidies.of_keeps (hh : h'.handles = h.handles)
    (hheld : ∀ b, h.isHeld b = true → h'.isHeld b = true)
    (hup : ∀ b, h'.isDown b = false → h.isDown b = false) : h.Tidies h' := by
  intro hn
  refine ⟨by rw [Named, hh]; exact hn, fun b hb => ⟨?_, hup b hb.up⟩⟩
  rw [← Bool.not_eq_true]
  intro hbefore
  exact hb.not_held (hheld b hbefore)

/-! ## Letting go -/

/-- None of the buses that are let go is loose any more. -/
theorem Loose.of_release {gone : List BusId} {b : BusId} (hb : (h.release gone).Loose b) :
    h.Loose b ∧ b ∉ gone := by
  induction gone generalizing h with
  | nil => exact ⟨hb, by simp⟩
  | cons x rest ih =>
    -- the first bus that is let go is held by somebody else, or it is shut down
    obtain ⟨hl, hrest⟩ := ih (h := if h.isHeld x then h else h.abandon x) hb
    cases hx : h.isHeld x with
    | true =>
      rw [hx, if_pos rfl] at hl
      refine ⟨hl, fun hmem => ?_⟩
      rcases List.mem_cons.mp hmem with rfl | hmem
      · exact hl.not_held hx
      · exact hrest hmem
    | false =>
      rw [hx, if_neg (by simp)] at hl
      have hup := hl.up
      rw [isDown_abandon, Bool.or_eq_false_iff, beq_eq_false_iff_ne] at hup
      exact ⟨⟨hl.free, hup.1⟩, by simp [hup.2, hrest]⟩

/-- Letting buses go is tidy if nothing else came loose before, or is among what is let go. -/
theorem Tidies.release {gone : List BusId} (hn : h.Named → m.Named)
    (hm : h.Named → ∀ b, m.Loose b → h.Loose b ∨ b ∈ gone) : h.Tidies (m.release gone) := by
  intro hnamed
  constructor
  · rw [Named, release_of_abandon (·.handles) (fun _ _ => rfl) gone m]
    exact hn hnamed
  · intro b hb
    obtain ⟨hl, hkept⟩ := hb.of_release
    exact (hm hnamed b hl).resolve_right hkept

/-- To let go only ever shuts buses down. -/
theorem release_tidies (gone : List BusId) (h : Host) : h.Tidies (h.release gone) :=
  .release id fun _ _ hb => .inl hb

/-! ## Names -/

/-- Since names are distinct, a handle is the one that is found under its name. -/
theorem handle?_of_mem (hn : h.Named) {x : String × BusId} (hx : x ∈ h.handles) :
    h.handle? x.1 = some x.2 := by
  have hsome : (h.handle? x.1).isSome = true :=
    List.lookup_isSome_iff.mpr ⟨x, hx, BEq.rfl⟩
  obtain ⟨b, hb⟩ := Option.isSome_iff_exists.mp hsome
  -- what is found has the same name, and names are distinct
  have hsame : (x.1, b) = x := List.inj_on_of_nodup_map hn (mem_of_lookup hb) hx rfl
  rw [hb, ← hsame]

/-- To take a name away leaves the names distinct. -/
theorem named_otherHandles (hn : h.Named) (name : String) :
    ((h.otherHandles name).map (·.1)).Nodup :=
  hn.sublist (List.filter_sublist.map _)

/-- A name lets go of the bus that is looked up under it, and of no other. -/
theorem Tidies.rename {name : String} (hsub : ∀ x ∈ h.otherHandles name, x ∈ m.handles)
    (hpreset : ∀ b, h.preset = some b → m.preset = some b) (htasks : m.tasks = h.tasks)
    (hn : h.Named → m.Named)
    (hup : ∀ b, m.Loose b → h.isDown b = false) :
    h.Tidies (m.release (h.handle? name).toList) := by
  refine .release hn fun hnamed b hb => ?_
  cases hbefore : h.isHeld b with
  | false => exact .inl ⟨hbefore, hup b hb⟩
  | true =>
    right
    rcases isHeld_iff.mp hbefore with ⟨x, hx, rfl⟩ | hpre | ⟨t, ht, x, hx, rfl⟩
    · -- whoever held the bus before holds it still, but for the name that is given up
      by_cases hname : x.1 = name
      · rw [← hname, handle?_of_mem hnamed hx]
        exact List.mem_singleton.mpr rfl
      · have hother : x ∈ h.otherHandles name := List.mem_filter.mpr ⟨hx, by simpa using hname⟩
        exact absurd (isHeld_of_handle (hsub x hother)) hb.not_held
    · exact absurd (isHeld_of_preset (hpreset b hpre)) hb.not_held
    · exact absurd (isHeld_of_task (htasks ▸ ht) hx) hb.not_held

/-- A name that is taken away before it is given is given once. -/
theorem named_cons (hn : h.Named) (name : String) (b : BusId) :
    (((name, b) :: h.otherHandles name).map (·.1)).Nodup := by
  rw [List.map_cons, List.nodup_cons]
  refine ⟨fun hmem => ?_, named_otherHandles hn name⟩
  obtain ⟨x, hx, hname⟩ := List.mem_map.mp hmem
  exact absurd hname (by simpa using (List.mem_filter.mp hx).2)

/-- A name that is given to a bus lets go of the bus that had it before, and of no other. -/
theorem hold_tidies (name : String) (b : BusId) : h.Tidies (h.hold name b) :=
  .rename (fun _ hx => List.mem_cons_of_mem _ hx) (fun _ hpre => hpre) rfl
    (fun hn => named_cons hn name b) fun _ hb => hb.up

/-- A handle that is dropped lets go of its bus, which is shut down if that was the last one. -/
theorem drop_tidies (name : String) : h.Tidies (h.drop name) :=
  .rename (fun _ hx => hx) (fun _ hpre => hpre) rfl (fun hn => named_otherHandles hn name)
    fun _ hb => hb.up

/-- A bus that is made is up, and held from the start. -/
theorem Loose.up_of_made {bus : Bus} (hs : bus.stage = .active)
    {handles : List (String × BusId)} {preset : Option BusId} {b : BusId}
    (hheld : ({ h with buses := h.buses ++ [bus], handles, preset } : Host).isHeld
      h.buses.length = true)
    (hb : ({ h with buses := h.buses ++ [bus], handles, preset } : Host).Loose b) :
    h.isDown b = false := by
  have hup := hb.up
  rw [h.isDown_append hs] at hup
  split at hup
  · next hnew =>
    subst hnew
    exact absurd hheld hb.not_held
  · exact hup

/-- A new bus is held from the start. -/
theorem make_tidies (name : String) {bus : Bus} (hs : bus.stage = .active) :
    h.Tidies (h.make name bus) :=
  .rename (fun _ hx => List.mem_cons_of_mem _ hx) (fun _ hpre => hpre) rfl
    (fun hn => named_cons hn name _) fun _ => Loose.up_of_made hs
      (isHeld_of_handle (x := (name, h.buses.length)) List.mem_cons_self)

/-- The default bus is made when it is first asked for, and is held as the default. -/
theorem useDefault_tidies (h : Host) : h.Tidies h.useDefault.2 := by
  have hheld := h.useDefault_extends.1.held
  unfold useDefault at hheld ⊢
  split at hheld
  · exact .refl h
  · intro hn
    refine ⟨hn, fun b hb => ⟨?_, Loose.up_of_made rfl (isHeld_of_preset rfl) hb⟩⟩
    rw [← Bool.not_eq_true]
    exact fun hbefore => hb.not_held (hheld b hbefore)

/-- A clone that is installed makes its bus the default one; if it is refused, nothing changes, as
the bus is held still. -/
theorem install_tidies {b : BusId} (hb : h.isHeld b = true) :
    h.Tidies (acknowledged (h.install b)).2 := by
  rcases install_cases h b with ⟨_, -, hinstall⟩ | ⟨hnone, hinstall⟩ <;> rw [hinstall]
  · -- the clone that is refused goes, and the bus is held without it
    rw [release_of_isHeld hb]
    exact .refl h
  · refine .of_keeps rfl (fun x hx => isHeld_mono ?_ ?_ ?_ hx) fun _ hup => hup
    · exact fun _ hx => hx
    · exact fun _ hpre => absurd (hnone.symm.trans hpre) (by simp)
    · exact fun t ht => ⟨t, ht, rfl⟩

/-- The handle that is given away is that of the default bus from then on, or it is dropped. -/
theorem surrender_tidies (name : String) : h.Tidies (h.surrender name).2 := by
  rcases surrender_cases h name with ⟨-, hsame⟩ | ⟨_, _, -, -, hdrop⟩ | ⟨b, hb, hnone, hsettled⟩
  · rw [hsame]
    exact .refl h
  · rw [hdrop]
    exact drop_tidies name
  · -- the default holds the bus, so the name may let go of it
    have hkept : ({ h with handles := h.otherHandles name, preset := some b } : Host).release
        (h.handle? name).toList = { h with handles := h.otherHandles name, preset := some b } := by
      rw [hb]
      exact release_of_isHeld (isHeld_of_preset rfl)
    rw [hsettled, ← hkept]
    exact .rename (fun _ hx => hx) (fun _ hpre => absurd (hnone.symm.trans hpre) (by simp)) rfl
      (fun hn => named_otherHandles hn name) fun _ hl => hl.up

/-! ## Finding a bus -/

/-- To find a bus makes at most the default bus. -/
theorem locate_tidies (own : List (Target × BusId)) (target : Target) :
    h.Tidies (h.locate own target).2 := by
  unfold locate
  split
  · exact .refl h
  · split
    · exact .refl h
    · exact h.useDefault_tidies

theorem locateAll_tidies (own : List (Target × BusId)) (targets : List Target) :
    h.Tidies (h.locateAll own targets).2 := by
  induction targets generalizing h with
  | nil => exact .refl h
  | cons target rest ih => exact (locate_tidies own target).trans ih

/-- A request on a target is tidy if what is done with the bus is. It is done in a reached state and
with a bus that somebody holds. -/
theorem withBus_tidies {own : List (Target × BusId)} (hr : h.Reached)
    (hown : ∀ x ∈ own, h.isHeld x.2 = true) (target : Target) (f : BusId → Host → Answer × Host)
    (hf : ∀ (b : BusId) (m : Host), m.Reached → m.isHeld b = true →
      (∀ x ∈ own, m.isHeld x.2 = true) → m.Tidies (f b m).2) :
    h.Tidies (h.withBus own target f).2 := by
  have hlocate := locate_tidies (h := h) own target
  obtain ⟨hfound, hheld⟩ := locate_extends hown target
  unfold withBus
  split
  · next b m heq =>
    rw [heq] at hlocate hfound hheld
    exact hlocate.trans (hf b m (hr.changes hfound.changes) (hheld b rfl)
      fun x hx => hfound.held _ (hown x hx))
  · next m heq =>
    rw [heq] at hlocate
    exact hlocate

/-! ## Publishing, closing and cancelling -/

/-- Groups are no matter of handles. -/
theorem modifyGroup_tidies (g : GroupRef) (f : Group Event → Group Event) :
    h.Tidies (h.modifyGroup g f) :=
  .of_keeps rfl (fun _ hb => hb) fun b hup => (h.isDown_modifyGroup g f b).symm.trans hup

theorem note_tidies (what : Happening) : h.Tidies (h.note what) :=
  .of_keeps rfl (fun _ hb => hb) fun _ hup => hup

/-- Publishing lets nothing go. -/
theorem publish_tidies (b : BusId) (event : Event) : h.Tidies (h.publish b event) := by
  cases hbus : h.bus? b with
  | none =>
    rw [publish, hbus]
    exact .refl h
  | some bus =>
    cases ha : h.accepts b event with
    | true =>
      rw [publish_of_accepts ha]
      exact (modifyGroup_tidies _ _).trans (note_tidies _)
    | false =>
      obtain ⟨fate, hfate⟩ := publish_of_not_accepts (by rw [hbus]; rfl) ha
      rw [hfate]
      exact note_tidies _

/-- A bus that is closed is down, and so not loose whoever holds it. -/
theorem close_tidies {b : BusId} (hok : h.close b = .ok h') : h.Tidies h' := by
  have hdown := isDown_close hok
  obtain ⟨bus, -, -, rfl⟩ := close_eq_ok hok
  refine .of_keeps rfl (fun _ hb => hb) fun x hup => ?_
  rw [hdown, Bool.or_eq_false_iff] at hup
  exact hup.1

/-- A subscription that is cancelled keeps its task, and with it what its handler holds. -/
theorem cancel_tidies (c : ConsumerRef) : h.Tidies (h.cancel c) := by
  unfold cancel
  split
  · exact (modifyGroup_tidies _ _).trans (note_tidies _)
  · exact .refl h

theorem cancelNamed_tidies (name : String) : h.Tidies (h.cancelNamed name).2 := by
  unfold cancelNamed
  split
  · exact .refl h
  · exact cancel_tidies _

section

variable {own : List (Target × BusId)} (hr : h.Reached) (hown : ∀ x ∈ own, h.isHeld x.2 = true)
  (target : Target)

include hr hown

theorem publishTo_tidies (event : Event) : h.Tidies (h.publishTo own target event).2 :=
  withBus_tidies hr hown target _ fun b _ _ _ _ => publish_tidies b event

theorem countdownTo_tidies (event : Event) : h.Tidies (h.countdownTo own target event).2 := by
  apply withBus_tidies hr hown target _
  intro b m _ _ _
  split
  · next n _ =>
    show m.Tidies (if 0 < n then m.publish b (.int (n - 1)) else m)
    split
    · exact publish_tidies b _
    · exact .refl m
  · exact .refl m

theorem closeAt_tidies : h.Tidies (h.closeAt own target).2 := by
  apply withBus_tidies hr hown target _
  intro b m _ _ _
  split
  · next hok => exact close_tidies hok
  · exact .refl m

theorem countAt_tidies (type : EventType) : h.Tidies (h.countAt own target type).2 :=
  withBus_tidies hr hown target _ fun _ m _ _ _ => .refl m

omit target in
theorem ask_tidies (question : Question) : h.Tidies (h.ask own question).2 := by
  cases question with
  | count target type => exact countAt_tidies hr hown target type
  | status name => exact .refl h

end

/-! ## Tasks -/

/-- A change of tasks that leaves each with what it holds lets nothing go. -/
theorem Tidies.of_map {f : Task → Task} (hf : ∀ t ∈ h.tasks, (f t).held = t.held)
    (htasks : h'.tasks = h.tasks.map f) (hh : h'.handles = h.handles)
    (hpreset : h'.preset = h.preset) (hup : ∀ b, h'.isDown b = false → h.isDown b = false) :
    h.Tidies h' := by
  refine .of_keeps hh (fun b => isHeld_mono (fun _ hx => hh ▸ hx)
    (fun b hpre => hpreset.trans hpre) fun t ht => ?_) hup
  exact ⟨f t, htasks ▸ List.mem_map_of_mem ht, hf t ht⟩

/-- So does a step of one task. -/
theorem Tidies.of_setTask {t : Task} (t' : Task) (hn : (h.tasks.map (·.consumer)).Nodup)
    (ht : h.task? t.consumer = some t) (hs : t.Same t') (htasks : h'.tasks = (h.setTask t').tasks)
    (hh : h'.handles = h.handles) (hpreset : h'.preset = h.preset)
    (hup : ∀ b, h'.isDown b = false → h.isDown b = false) : h.Tidies h' := by
  refine .of_map (fun s hmem => ?_) htasks hh hpreset hup
  split
  · next hc =>
    rw [List.inj_on_of_nodup_map hn hmem (mem_of_task? ht) (hc.trans hs.consumer)]
    exact hs.held
  · rfl

/-- When a task goes, its handler lets go of what it held, and of nothing else is let go. -/
theorem Tidies.of_eraseTask {m : Host} {t : Task} (hn : (h.tasks.map (·.consumer)).Nodup)
    (ht : t ∈ h.tasks) (htasks : m.tasks = (h.eraseTask t.consumer).tasks)
    (hh : m.handles = h.handles) (hpreset : m.preset = h.preset)
    (hdown : ∀ b, m.isDown b = h.isDown b) : h.Tidies (m.release (t.held.map (·.2))) := by
  refine .release (m := m) (fun hnamed => ?_) fun _ b hb => ?_
  · rwa [Named, hh]
  have hup : h.isDown b = false := (hdown b).symm.trans hb.up
  cases hbefore : h.isHeld b with
  | false => exact .inl ⟨hbefore, hup⟩
  | true =>
    right
    rcases isHeld_iff.mp hbefore with hx | hpre | ⟨s, hs, x, hx, rfl⟩
    · exact (hb.not_held (isHeld_iff.mpr (.inl (hh ▸ hx)))).elim
    · exact (hb.not_held (isHeld_iff.mpr (.inr (.inl (hpreset.trans hpre))))).elim
    · -- held by a task: by the one that goes, or by another that is still there
      by_cases hc : s.consumer = t.consumer
      · rw [List.inj_on_of_nodup_map hn hs ht hc] at hx
        exact List.mem_map_of_mem hx
      · have hkept : s ∈ m.tasks :=
          htasks ▸ List.mem_filter.mpr ⟨hs, by simpa using hc⟩
        exact absurd (isHeld_of_task hkept hx) hb.not_held

/-- A task that ends lets go of what its handler held. -/
theorem endTask_tidies {t : Task} (hn : (h.tasks.map (·.consumer)).Nodup) (ht : t ∈ h.tasks)
    (what : Happening) : h.Tidies (h.endTask t what) :=
  .of_eraseTask (m := h.finish t what) hn ht rfl rfl rfl fun b => isDown_modifyGroup _ _ _ b

/-- A job that is over lets go of what its handler held. -/
theorem endJob_tidies {t : Task} (hn : (h.tasks.map (·.consumer)).Nodup) (ht : t ∈ h.tasks) :
    h.Tidies (h.endJob t) :=
  .of_eraseTask (m := h.eraseTask t.consumer) hn ht rfl rfl rfl fun _ => rfl

/-! ## Subscribing -/

/-- A task that is put in line holds what its handler brought along. If it is dropped at once it
lets go of that. -/
theorem spawn_tidies (hr : h.Reached) {t : Task} {kind : Kind} (ha : h.Admissible t kind) :
    h.Tidies (((h.modifyGroup t.consumer.group (·.attach.2)).note
      (.subscribed t.consumer kind t.handler.profile)).spawn t) := by
  have henrol : h.Tidies (h.enrol t kind) := by
    refine .of_keeps rfl (fun b hb => isHeld_mono ?_ ?_ ?_ hb)
      fun b hup => (h.isDown_modifyGroup _ _ b).symm.trans hup
    · exact fun _ hx => hx
    · exact fun _ hpre => hpre
    · exact fun s hs => ⟨s, List.mem_append_left _ hs, rfl⟩
  unfold spawn
  split
  · exact henrol
  · exact henrol.trans (endTask_tidies (h := h.enrol t kind) (hr.paired.enrol ha).nodup
      (List.mem_append_right _ (List.mem_singleton.mpr rfl)) _)

/-- A handler that is refused lets go of what it brought along, and one that is taken holds it as a
task. -/
theorem subscribe_tidies (hr : h.Reached) {b : BusId} (hb : h.isHeld b = true)
    (context : Option RuntimeId) (who : Subscriber Action) {held : List (Target × BusId)}
    (hheld : ∀ x ∈ held, h.isHeld x.2 = true) :
    h.Tidies (h.subscribe b context who held).2 := by
  cases hbus : h.bus? b with
  | none =>
    simp only [subscribe, hbus]
    exact release_tidies _ h
  | some bus =>
    cases hp : bus.place context who.type who.kind with
    | error fault =>
      simp only [subscribe, hbus, hp]
      split
      · exact (note_tidies _).trans (release_tidies _ _)
      · exact release_tidies _ h
    | ok p =>
      -- what comes before the task is put in line lets nothing go
      obtain ⟨e, t, hchanges, hadmissible, -, hsame, hdown, hhandles, heq⟩ :=
        subscribe_granted hr hb hbus hheld hp
      rw [heq]
      have hbefore : h.Tidies e := .of_keeps hhandles (fun x hx => (hsame x).trans hx)
        fun x hup => (hdown x).symm.trans hup
      exact hbefore.trans (spawn_tidies (hr.changes hchanges) hadmissible)

/-- The buses that a handler is to hold are found before it subscribes, so they are held when it
does. -/
theorem subscribeAt_tidies {own : List (Target × BusId)} (hr : h.Reached)
    (hown : ∀ x ∈ own, h.isHeld x.2 = true) (context : Option RuntimeId) (target : Target)
    (who : Subscriber Action) : h.Tidies (h.subscribeAt own context target who).2 := by
  apply withBus_tidies hr hown target _
  intro b m hm hb hown'
  obtain ⟨hall, hheld⟩ := locateAll_extends who.hold hown'
  have hsub := subscribe_tidies (hm.changes hall.changes) (hall.held b hb) context who hheld
  apply (locateAll_tidies own who.hold).trans
  dsimp only
  generalize (m.locateAll own who.hold).2.subscribe b context who
    (m.locateAll own who.hold).1 = answered at hsub ⊢
  obtain ⟨⟨fault⟩ | ⟨c⟩, m'⟩ := answered
  · exact hsub
  · exact hsub.trans (.of_keeps rfl (fun _ hx => hx) fun _ hup => hup)

/-! ## Moves -/

section

variable {t : Task} (hr : h.Reached) (ht : h.task? t.consumer = some t)

include hr ht

/-- A step leaves a task with what its handler holds. -/
theorem step_tidies {t' : Task} {n : Nature} {said : Option Happening}
    (hs : t.Step (h.slot? t.consumer) n t' said) : h.Tidies ((h.setTask t').say said) :=
  .of_setTask t' hr.paired.nodup ht hs.same rfl rfl rfl fun _ hup => hup

/-- A look ends the task or leaves it with what its handler holds. -/
theorem look_tidies : h.Tidies (h.look t) := by
  unfold look
  split
  · exact endTask_tidies hr.paired.nodup (mem_of_task? ht) _
  · next group _ =>
    have hgroup : ∀ f, h.Tidies (h.modifyGroup t.consumer.group f) := modifyGroup_tidies _
    have hset : ∀ f t', t.Same t' →
        h.Tidies ((h.modifyGroup t.consumer.group f).setTask t') := fun f t' hs =>
      .of_setTask t' hr.paired.nodup ht hs rfl rfl rfl
        fun b hup => (h.isDown_modifyGroup _ f b).symm.trans hup
    dsimp only
    split
    · exact (hset _ _ (t.same_beginBatch _)).trans (note_tidies _)
    · exact hset _ _ ⟨rfl, rfl, rfl, rfl⟩
    · exact (hgroup _).trans (endTask_tidies (h := h.modifyGroup t.consumer.group _)
        hr.paired.nodup (mem_of_task? ht) _)

/-- An action lets go of what the request lets go of, and of nothing more. -/
theorem perform_tidies {lent : Option (List Event)} {call : Call}
    (hp : t.phase = .draining lent (some call)) (next : Call) (a : Action) :
    h.Tidies (h.perform t lent next a) := by
  -- the task goes on first, with all that its handler holds
  have hstep : ∀ {next : Call}, h.Tidies (h.setTask (t.continueCall lent next)) :=
    step_tidies hr ht (.work hp)
  have hm : ∀ {next : Call}, (h.setTask (t.continueCall lent next)).Reached :=
    hr.change (.step ht (.work hp))
  have hown : ∀ {next : Call}, ∀ x ∈ t.held,
      (h.setTask (t.continueCall lent next)).isHeld x.2 = true :=
    fun x hx => isHeld_of_task (mem_setTask (t.continueCall lent _) ht rfl) hx
  have hask : ∀ {a : Action} {next : Call} (answered : Answer × Host),
      (h.setTask (t.continueCall lent next)).Tidies answered.2 → h.Tidies (enter t a answered) :=
    fun _ hrequest => (hstep.trans hrequest).trans (note_tidies _)
  cases a with
  | publish target event => exact hask _ (publishTo_tidies hm hown target event)
  | countdown target => exact hask _ (countdownTo_tidies hm hown target _)
  | cancel name => exact hask _ (cancelNamed_tidies name)
  | close target => exact hask _ (closeAt_tidies hm hown target)
  | count target type => exact hask _ (countAt_tidies hm hown target type)
  | consult question skip =>
    rw [perform_consult]
    exact hask _ (ask_tidies hm hown question)
  | subscribe target who => exact hask _ (subscribeAt_tidies hm hown _ target who)
  | sleep ms => exact step_tidies hr ht (.work hp)
  | panic payload =>
    exact .of_setTask (t.fail payload _) hr.paired.nodup ht ⟨rfl, rfl, rfl, rfl⟩ rfl rfl rfl
      fun _ hup => hup
  | report => exact hstep.trans (note_tidies _)

theorem TaskStep.tidies (hs : h.TaskStep t h') : h.Tidies h' := by
  cases hs with
  | register hp => exact step_tidies hr ht (.register hp)
  | look => exact look_tidies hr ht
  | park hp => exact step_tidies hr ht (.park hp)
  | resume hp hw => exact step_tidies hr ht (.resume hp hw)
  | beginCall hp hb => exact step_tidies hr ht (.beginCall hp hb)
  | endBatch =>
    exact .of_setTask t.endBatch hr.paired.nodup ht ⟨rfl, rfl, rfl, rfl⟩ rfl rfl rfl
      fun _ hup => hup
  | awake hp => exact (step_tidies hr ht (.work hp)).trans (note_tidies _)
  | perform hp => exact perform_tidies hr ht hp _ _
  | endCall hp => exact step_tidies hr ht (.endCall hp)
  | fail => exact endTask_tidies hr.paired.nodup (mem_of_task? ht) _

end

theorem MoveStep.tidies {m : Move} (hm : h.MoveStep m h') (hr : h.Reached) : h.Tidies h' := by
  cases hm with
  | run ht _ hstep => exact hstep.tidies hr ht
  | endJob ht => exact endJob_tidies hr.paired.nodup (mem_of_task? ht)
  | leave ht => exact endTask_tidies hr.paired.nodup (mem_of_task? ht) _
  | @tick l =>
    refine .of_map (f := fun t => if t.consumer.group = l.group then t.wake else t)
      (fun t _ => ?_) rfl rfl rfl fun _ hup => hup
    split
    · exact t.same_wake.held
    · rfl
  | halt => exact .of_keeps rfl (fun _ hb => hb) fun _ hup => hup

/-! ## The runtime -/

/-- A task that is dropped lets go of what its handler held, unless a job goes on and holds it
still. -/
theorem lose_tidies (hr : h.Reached) {t : Task} (ht : t ∈ h.attended) : h.Tidies (h.lose t) := by
  obtain ⟨hmem, -⟩ := mem_attended.mp ht
  unfold lose
  split
  · exact .of_setTask t.orphan hr.paired.nodup (hr.paired.task?_of_mem hmem)
      ⟨rfl, rfl, rfl, rfl⟩ rfl rfl rfl fun b hup => (isDown_modifyGroup _ _ _ b).symm.trans hup
  · exact endTask_tidies hr.paired.nodup hmem _

/-- Stopping the runtime drops its tasks one after the other. -/
theorem stopRuntime_tidies (hr : h.Reached) : h.Tidies h.stopRuntime := by
  cases hrun : h.runtime with
  | none =>
    have hsame : h.stopRuntime = h := by simp [stopRuntime, hrun]
    rw [hsame]
    exact .refl h
  | some r =>
    rw [stopRuntime_eq hr hrun]
    have hlose := hr.loseAll (R := Tidies) .refl .trans fun hm ht => lose_tidies hm ht
    exact hlose.trans (.of_keeps rfl (fun _ hb => hb) fun _ hup => hup)

theorem startRuntime_tidies (hr : h.Reached) : h.Tidies h.startRuntime :=
  (stopRuntime_tidies hr).trans (.of_keeps rfl (fun _ hb => hb) fun _ hup => hup)

/-! ## Turns -/

/-- Every command is tidy. -/
theorem obey_tidies (hr : h.Reached) {c : Command} (hq : c.takesTime = false) :
    h.Tidies (h.obey c).2 := by
  have hown : ∀ x ∈ ([] : List (Target × BusId)), h.isHeld x.2 = true := by simp
  cases c with
  | make name builder pinned => exact make_tidies name rfl
  | clone source name => exact withBus_tidies hr hown source _ fun b _ _ _ _ => hold_tidies name b
  | drop name => exact drop_tidies name
  | subscribe target who outside => exact subscribeAt_tidies hr hown _ target who
  | inspect name => exact .refl h
  | cancel name => exact cancelNamed_tidies name
  | publish target event => exact publishTo_tidies hr hown target event
  | close target => exact closeAt_tidies hr hown target
  | count target type => exact countAt_tidies hr hown target type
  | info target =>
    have hlocate := locate_tidies (h := h) [] target
    simp only [obey, infoOf]
    split <;> exact hlocate
  | install source =>
    exact withBus_tidies hr hown source _ fun _ _ _ hb _ => install_tidies hb
  | surrender name => exact surrender_tidies name
  | stopRuntime => exact stopRuntime_tidies hr
  | startRuntime => exact startRuntime_tidies hr
  | advance ms => exact absurd hq (by simp [Command.takesTime])

/-- **Every turn is tidy.** -/
theorem turn?_tidies (hr : h.Reached) {u : Turn} (hu : h.turn? u = some h') : h.Tidies h' := by
  cases turnStep_iff.mpr hu with
  | obey hquick => exact obey_tidies hr hquick
  | move hm => exact hm.tidies hr
  | pass => exact .of_keeps rfl (fun _ hb => hb) fun _ hup => hup

/-- **Nothing is left loose.** Between turns, whoever is not held is shut down. -/
theorem Reachable.not_loose (hr : h.Reachable) : h.Named ∧ ∀ b, ¬h.Loose b := by
  refine hr.invariant (P := fun h => h.Named ∧ ∀ b, ¬h.Loose b) (fun running => ?_) ?_
  · have hnone : (initial running).buses = [] ∧ (initial running).handles = [] := by
      cases running <;> exact ⟨rfl, rfl⟩
    refine ⟨by rw [Named, hnone.2]; exact List.nodup_nil, fun b hb => ?_⟩
    have hup := hb.up
    rw [isDown, bus?, hnone.1] at hup
    exact absurd hup (by simp)
  · intro h h' u hr hbefore hu
    obtain ⟨hnamed, hloose⟩ := turn?_tidies hr.reached hu hbefore.1
    exact ⟨hnamed, fun b hb => hbefore.2 b (hloose b hb)⟩

end Host

end EventBus
