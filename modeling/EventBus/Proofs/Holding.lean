import EventBus.Proofs.History
import EventBus.Proofs.Origin

/-!
# Who is held, and who is down

No change gives anybody a bus that nobody held, a new bus apart. So a bus that was given up stays
given up: once it is shut down without being closed, nobody is left to publish on it or to subscribe
to it (`Reached.isDown_of_isHeld`). Shutting down and closing are for good.
-/

set_option autoImplicit false

namespace EventBus

namespace Host

theorem isHeld_iff {h : Host} {b : BusId} :
    h.isHeld b = true ↔ (∃ x ∈ h.handles, x.2 = b) ∨ h.preset = some b ∨
      ∃ t ∈ h.tasks, ∃ x ∈ t.held, x.2 = b := by
  simp only [isHeld, Bool.or_eq_true, List.any_eq_true, beq_iff_eq, or_assoc]

theorem isHeld_of_handle {h : Host} {x : String × BusId} (hx : x ∈ h.handles) :
    h.isHeld x.2 = true := isHeld_iff.mpr (.inl ⟨x, hx, rfl⟩)

theorem isHeld_of_preset {h : Host} {b : BusId} (hb : h.preset = some b) : h.isHeld b = true :=
  isHeld_iff.mpr (.inr (.inl hb))

theorem isHeld_of_task {h : Host} {t : Task} (ht : t ∈ h.tasks) {x : Target × BusId}
    (hx : x ∈ t.held) : h.isHeld x.2 = true :=
  isHeld_iff.mpr (.inr (.inr ⟨t, ht, x, hx, rfl⟩))

/-- What is held stays so if every handle of the program and what every task holds are kept. -/
theorem isHeld_mono {h h' : Host} (hh : ∀ x ∈ h.handles, x ∈ h'.handles)
    (hp : ∀ b, h.preset = some b → h'.preset = some b)
    (ht : ∀ t ∈ h.tasks, ∃ t' ∈ h'.tasks, t'.held = t.held) {b : BusId}
    (hb : h.isHeld b = true) : h'.isHeld b = true := by
  rcases isHeld_iff.mp hb with ⟨x, hx, rfl⟩ | hpre | ⟨t, hmem, x, hx, rfl⟩
  · exact isHeld_of_handle (hh x hx)
  · exact isHeld_of_preset (hp b hpre)
  · obtain ⟨t', hmem', heq⟩ := ht t hmem
    exact isHeld_of_task hmem' (heq ▸ hx)

/-- A change that leaves names alone only gives tasks what was held. -/
theorem isHeld_of_origin {h h' : Host} {b : BusId} (hh : h'.handles = h.handles)
    (hp : h'.preset = h.preset) (ho : ∀ t ∈ h'.tasks, h.Origin h' t) (hb : h'.isHeld b = true) :
    h.isHeld b = true := by
  rcases isHeld_iff.mp hb with ⟨x, hx, rfl⟩ | hpre | ⟨t, ht, x, hx, rfl⟩
  · exact isHeld_of_handle (hh ▸ hx)
  · exact isHeld_of_preset (hp ▸ hpre)
  · rcases (ho t ht).same with ⟨s, hs, hsame⟩ | ⟨⟨kind, ha⟩, -, -⟩
    · exact isHeld_of_task hs (hsame.held ▸ hx)
    · exact ha.holds x hx

def HasBus (h : Host) (b : BusId) : Prop := (h.bus? b).isSome = true

theorem hasBus_iff {h : Host} {b : BusId} : h.HasBus b ↔ b < h.buses.length := by
  rw [HasBus, bus?, Option.isSome_iff_ne_none, ne_eq, List.getElem?_eq_none_iff, Nat.not_le]

theorem hasBus_of_binding? {h : Host} {g : GroupRef} {binding : Binding}
    (hb : h.binding? g = some binding) : h.HasBus g.bus := by
  obtain ⟨bus, hbus, -⟩ := Option.bind_eq_some_iff.mp hb
  rw [HasBus, hbus]
  rfl

theorem hasBus_of_isClosed {h : Host} {b : BusId} (hb : h.isClosed b = false) : h.HasBus b := by
  unfold isClosed at hb
  cases hbus : h.bus? b with
  | none => rw [hbus] at hb; exact absurd hb (by simp)
  | some bus => rw [HasBus, hbus]; rfl

theorem hasBus_of_isDown {h : Host} {b : BusId} (hb : h.isDown b = false) : h.HasBus b := by
  unfold isDown at hb
  cases hbus : h.bus? b with
  | none => rw [hbus] at hb; exact absurd hb (by simp)
  | some bus => rw [HasBus, hbus]; rfl

theorem hasBus_of_slot? {h : Host} {c : ConsumerRef} {s : Slot Event} (hs : h.slot? c = some s) :
    h.HasBus c.group.bus := by
  rw [slot?_eq_binding?] at hs
  obtain ⟨binding, hb, -⟩ := Option.bind_eq_some_iff.mp hs
  exact hasBus_of_binding? hb

end Host

open Host

namespace Change

variable {n : Nature} {h h' : Host}

/-- How the buses of the states before and after a change compare, and what the journal says of it.
-/
inductive BusChange (h h' : Host) : Nature → Prop
  | none {n : Nature} : h'.buses.length = h.buses.length →
      (∀ b, h'.isDown b = h.isDown b) → (∀ b, h'.isClosed b = h.isClosed b) →
      (∀ b, h'.journal.hasClosed b = h.journal.hasClosed b) → BusChange h h' n
  | made {n : Nature} : h'.buses.length = h.buses.length + 1 →
      (∀ b, h'.isDown b = if b = h.buses.length then false else h.isDown b) →
      (∀ b, h'.isClosed b = if b = h.buses.length then false else h.isClosed b) →
      (∀ b, h'.journal.hasClosed b = h.journal.hasClosed b) → BusChange h h' n
  | abandoned (b : BusId) : h'.buses.length = h.buses.length → h.isHeld b = false →
      (∀ other, h'.isDown other = (h.isDown other || other == b)) →
      (∀ other, h'.isClosed other = h.isClosed other) →
      (∀ b, h'.journal.hasClosed b = h.journal.hasClosed b) → BusChange h h' .loss
  | closed (b : BusId) : h'.buses.length = h.buses.length → h.isHeld b = true → h.HasBus b →
      (∀ other, h'.isDown other = (h.isDown other || other == b)) →
      (∀ other, h'.isClosed other = (h.isClosed other || other == b)) →
      (∀ other, h'.journal.hasClosed other = (h.journal.hasClosed other || other == b)) →
      BusChange h h' .loss

theorem length_modifyBus (h : Host) (b : BusId) (f : Bus → Bus) :
    (h.modifyBus b f).buses.length = h.buses.length := List.length_modify ..

theorem busChange (hc : Change n h h') : BusChange h h' n := by
  cases hc with
  | pass | rename | tick | endJob | halt | stop | start =>
    exact .none rfl (fun _ => rfl) (fun _ => rfl) fun _ => rfl
  | @aside _ what haside =>
    refine .none rfl (fun _ => rfl) (fun _ => rfl) fun b => ?_
    -- an entry beside the buses closes none
    cases what <;> first | rfl | exact absurd haside (by simp [Happening.isAside])
  | step _ hstep =>
    refine .none rfl (fun _ => rfl) (fun _ => rfl) fun b => ?_
    cases hstep <;> rfl
  | @make _ bus _ _ _ hs _ =>
    exact .made (by simp) (h.isDown_append hs _ _) (h.isClosed_append hs _ _) fun _ => rfl
  | @abandon _ b hfree =>
    exact .abandoned b (length_modifyBus ..) hfree (h.isDown_abandon b) (h.isClosed_abandon b)
      fun _ => rfl
  | @close _ _ b hheld hok =>
    have hdown := isDown_close hok
    have hclosed := isClosed_close hok
    obtain ⟨bus, hbus, -, rfl⟩ := close_eq_ok hok
    refine .closed b (length_modifyBus ..) hheld (by rw [HasBus, hbus]; rfl) hdown hclosed
      fun other => ?_
    show (decide (b = other) || h.journal.hasClosed other) = _
    rw [Bool.or_comm, Bool.beq_eq_decide_eq, decide_eq_decide.mpr eq_comm]
  | @publish _ b event _ hb =>
    -- an event that goes into a queue changes its group; one that is refused, the journal only
    cases ha : h.accepts b event with
    | true =>
      rw [publish_of_accepts ha]
      exact .none (length_modifyBus ..) (h.isDown_modifyGroup _ _) (h.isClosed_modifyGroup _ _)
        fun _ => rfl
    | false =>
      obtain ⟨fate, hfate⟩ := publish_of_not_accepts hb ha
      rw [hfate]
      exact .none rfl (fun _ => rfl) (fun _ => rfl) fun _ => rfl
  | bindType fresh _ _ _ =>
    exact .none (length_modifyBus ..) h.isDown_bindType h.isClosed_bindType fun _ => rfl
  | startLoop _ hidle =>
    rw [ensureLoop_of_idle hidle]
    exact .none (length_modifyBus ..) (h.isDown_modifyGroup _ _) (h.isClosed_modifyGroup _ _)
      fun _ => rfl
  | enrol | take | leaveJob =>
    exact .none (length_modifyBus ..) (h.isDown_modifyGroup _ _) (h.isClosed_modifyGroup _ _)
      fun _ => rfl
  | finish _ hending =>
    refine .none (length_modifyBus ..) (h.isDown_modifyGroup _ _) (h.isClosed_modifyGroup _ _)
      fun b => ?_
    cases hending <;> rfl
  | @stillborn _ t kind ha _ =>
    refine .none ?_ (fun b => ?_) (fun b => ?_) fun _ => rfl
    · exact (length_modifyBus ..).trans (length_modifyBus ..)
    · exact (isDown_modifyGroup _ _ _ b).trans (h.isDown_modifyGroup _ _ b)
    · exact (isClosed_modifyGroup _ _ _ b).trans (h.isClosed_modifyGroup _ _ b)
  | cancel ha =>
    rw [cancel_of_active ha]
    exact .none (length_modifyBus ..) (h.isDown_modifyGroup _ _) (h.isClosed_modifyGroup _ _)
      fun _ => rfl

theorem hasBus (hc : Change n h h') {b : BusId} (hb : h.HasBus b) : h'.HasBus b := by
  rw [hasBus_iff] at hb ⊢
  cases hc.busChange with
  | none hl | abandoned _ hl | closed _ hl => exact hl ▸ hb
  | made hl => exact hl ▸ Nat.lt_succ_of_lt hb

theorem isDown_mono (hc : Change n h h') {b : BusId} (hb : h.HasBus b)
    (hdown : h.isDown b = true) : h'.isDown b = true := by
  cases hc.busChange with
  | none _ hd => rw [hd, hdown]
  | made _ hd =>
    have hne : b ≠ h.buses.length := Nat.ne_of_lt (hasBus_iff.mp hb)
    rw [hd, if_neg hne, hdown]
  | abandoned _ _ _ hd | closed _ _ _ _ hd => rw [hd, hdown, Bool.true_or]

theorem isDown_eq (hc : Change n h h') (hn : n ≠ .loss) {b : BusId} (hb : h.HasBus b) :
    h'.isDown b = h.isDown b := by
  cases hc.busChange with
  | none _ hd => exact hd b
  | made _ hd =>
    have hne : b ≠ h.buses.length := Nat.ne_of_lt (hasBus_iff.mp hb)
    rw [hd, if_neg hne]
  | abandoned | closed => exact absurd rfl hn

/-- Whoever holds a bus after a change held it before, or it is new. -/
theorem isHeld (hc : Change n h h') {b : BusId} (hb : h'.isHeld b = true) :
    h.isHeld b = true ∨ (b = h.buses.length ∧ h'.HasBus b ∧ h'.isDown b = false) := by
  have hkeep : h'.handles = h.handles → h'.preset = h.preset → h.isHeld b = true :=
    fun hh hp => isHeld_of_origin hh hp (fun t ht => hc.origin ht) hb
  cases hc with
  | rename hnames => exact .inl (hnames b hb)
  | @make _ bus handles preset _ hs hnames =>
    rcases hnames b hb with hb | rfl
    · exact .inl hb
    · refine .inr ⟨rfl, ?_, ?_⟩
      · rw [HasBus, bus?_append, if_pos rfl]
        rfl
      · rw [h.isDown_append hs, if_pos rfl]
  | close _ hok =>
    obtain ⟨bus, -, -, rfl⟩ := close_eq_ok hok
    exact .inl (hkeep rfl rfl)
  | publish _ hbus =>
    obtain ⟨fate, buses, hframe⟩ := publish_frame hbus
    rw [hframe] at hkeep
    exact .inl (hkeep rfl rfl)
  | startLoop _ hidle =>
    rw [ensureLoop_of_idle hidle] at hkeep
    exact .inl (hkeep rfl rfl)
  | cancel ha =>
    rw [cancel_of_active ha] at hkeep
    exact .inl (hkeep rfl rfl)
  | _ => exact .inl (hkeep rfl rfl)

end Change

namespace Host

/-- Handles are to buses that exist, and nobody holds a bus that was given up. -/
structure HoldsSound (h : Host) : Prop where
  known : ∀ b, h.isHeld b = true → h.HasBus b
  abandoned : ∀ b, h.isDown b = true → h.isClosed b = false → h.isHeld b = false

theorem Reached.holdsSound {h : Host} (hr : h.Reached) : h.HoldsSound := by
  refine hr.invariant (P := HoldsSound) ⟨fun b hb => ?_, fun b _ _ => rfl⟩ ?_
  · rw [isHeld_iff] at hb
    simp at hb
  intro h h' n _ hs hc
  constructor
  · intro b hb
    -- whoever is held was held before, or is a bus that is up
    rcases hc.isHeld hb with hb | ⟨-, hb, -⟩
    · exact hc.hasBus (hs.known b hb)
    · exact hb
  · intro b hdown hopen
    rw [← Bool.not_eq_true]
    intro hheld
    rcases hc.isHeld hheld with hb | ⟨-, -, hup⟩
    · have hbus := hs.known b hb
      have hne : b ≠ h.buses.length := Nat.ne_of_lt (hasBus_iff.mp hbus)
      -- a bus that was down before and not closed was not held then
      have hfree : h.isDown b = true → h.isClosed b = false → False :=
        fun hd hcl => absurd hb (by simp [hs.abandoned b hd hcl])
      cases hc.busChange with
      | none _ hd hcl => exact hfree (hd b ▸ hdown) (hcl b ▸ hopen)
      | made _ hd hcl =>
        rw [hd, if_neg hne] at hdown
        rw [hcl, if_neg hne] at hopen
        exact hfree hdown hopen
      | abandoned b' _ hno hd hcl =>
        rw [hcl] at hopen
        rw [hd, Bool.or_eq_true, beq_iff_eq] at hdown
        rcases hdown with hdown | rfl
        · exact hfree hdown hopen
        · exact absurd hb (by simp [hno])
      | closed b' _ _ _ hd hcl =>
        rw [hcl, Bool.or_eq_false_iff, beq_eq_false_iff_ne] at hopen
        rw [hd, Bool.or_eq_true, beq_iff_eq] at hdown
        exact hfree (hdown.resolve_right hopen.2) hopen.1
    · rw [hdown] at hup
      exact absurd hup (by simp)

/-- A bus that somebody holds is down only if it was closed. -/
theorem Reached.isDown_of_isHeld {h : Host} (hr : h.Reached) {b : BusId}
    (hb : h.isHeld b = true) (hopen : h.isClosed b = false) : h.isDown b = false := by
  rw [← Bool.not_eq_true]
  intro hdown
  have hfree := hr.holdsSound.abandoned b hdown hopen
  rw [hb] at hfree
  exact absurd hfree (by simp)

/-- The journal knows which buses were closed. -/
theorem Reached.hasClosed_iff {h : Host} (hr : h.Reached) : ∀ b,
    h.journal.hasClosed b = true ↔ h.HasBus b ∧ h.isClosed b = true := by
  refine hr.invariant (P := fun h => ∀ b,
    h.journal.hasClosed b = true ↔ h.HasBus b ∧ h.isClosed b = true) (fun b => ?_) ?_
  · simp [Journal.hasClosed, HasBus, bus?]
  intro h h' n _ hiff hc b
  cases hc.busChange with
  | none hl _ hcl hj => rw [hj, hcl, hiff, hasBus_iff, hasBus_iff, hl]
  | made hl _ hcl hj =>
    rw [hj, hcl, hiff, hasBus_iff, hasBus_iff, hl]
    by_cases hb : b = h.buses.length
    · simp [hb]
    · rw [if_neg hb, Nat.lt_succ_iff_lt_or_eq, or_iff_left hb]
  | abandoned _ hl _ _ hcl hj => rw [hj, hcl, hiff, hasBus_iff, hasBus_iff, hl]
  | closed b' hl _ hbus _ hcl hj =>
    rw [hj, hcl, Bool.or_eq_true, Bool.or_eq_true, hiff, hasBus_iff, hasBus_iff, hl, beq_iff_eq]
    by_cases hb : b = b'
    · simp [hb, hasBus_iff.mp hbus]
    · simp [hb]

end Host

end EventBus
