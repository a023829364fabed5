import EventBus.Proofs.Calls
import EventBus.Proofs.Timetable

/-!
# Moves and the clock

No move takes time. Time passes when nobody can move, and whoever cannot move now cannot move before
the next alarm, so it may pass in as many steps as one likes.
-/

set_option autoImplicit false

namespace EventBus

namespace Host

variable {h h' : Host}

/-! ## The clock -/

theorem now_look (t : Task) : (h.look t).now = h.now := by
  unfold look
  split
  · exact (endTask_spares t _).now
  · dsimp only
    split
    · rfl
    · rfl
    · exact (endTask_spares t _).now

theorem now_perform (t : Task) (lent : Option (List Event)) (call : Call) (a : Action) :
    (h.perform t lent call a).now = h.now := by
  have hperforms := perform_requested (h := h) t lent call a
  generalize h.perform t lent call a = h' at hperforms ⊢
  cases hperforms with
  | asked n answered _ _ hasked => exact hasked.spares.now
  | pauses | panics | reports => rfl

theorem TaskStep.now {t : Task} (hs : h.TaskStep t h') : h'.now = h.now := by
  cases hs with
  | look => exact now_look t
  | perform => exact now_perform _ _ _ _
  | fail => exact (endTask_spares t _).now
  | _ => rfl

/-- No move takes time. -/
theorem now_move? {m : Move} (hm : h.move? m = some h') : h'.now = h.now := by
  cases moveStep_iff.mpr hm with
  | run _ _ hstep => exact hstep.now
  | endJob => exact (endJob_spares _).now
  | leave => exact (endTask_spares _ _).now
  | tick | halt => rfl

/-! ## Rest -/

section

variable {instant : Nat} (halarms : ∀ alarm ∈ h.alarms, h.now < alarm → instant < alarm)

include halarms

/-- A step that a task can take before its next alarm it can take now. -/
theorem TaskStep.of_setClock {t : Task} (hs : (h.setClock instant).TaskStep t h')
    (ht : t ∈ h.tasks) : ∃ m, h.TaskStep t m := by
  cases hs with
  | register hp => exact ⟨_, .register hp⟩
  | look hp => exact ⟨_, .look hp⟩
  | park hp => exact ⟨_, .park hp⟩
  | resume hp hw => exact ⟨_, .resume hp hw⟩
  | beginCall hp hb => exact ⟨_, .beginCall hp hb⟩
  | endBatch hp hb => exact ⟨_, .endBatch hp hb⟩
  | @awake _ _ alarm hp halarm hle =>
    have hmem : alarm ∈ h.alarms := by
      refine List.mem_append_right _ (List.mem_filterMap.mpr ⟨t, ht, ?_⟩)
      rw [Task.alarm?, hp]
      exact halarm
    have hpast : alarm ≤ h.now :=
      Nat.le_of_not_lt fun hlt => Nat.not_lt_of_le hle (halarms alarm hmem hlt)
    exact ⟨_, .awake hp halarm hpast⟩
  | perform hp hawake htodo => exact ⟨_, .perform hp hawake htodo⟩
  | endCall hp hawake htodo => exact ⟨_, .endCall hp hawake htodo⟩
  | fail hp => exact ⟨_, .fail hp⟩

/-- A loop whose next alarm is ahead of the instant is not due then, or is due now. -/
theorem isDue_of_setClock {l : FlushLoop} (hl : l ∈ h.loops) (hdue : l.isDue instant = true) :
    l.isDue h.now = true := by
  unfold FlushLoop.isDue at hdue ⊢
  cases ha : l.alarm? with
  | none => rfl
  | some alarm =>
    have hmem : alarm ∈ h.alarms := List.mem_append_left _ (List.mem_filterMap.mpr ⟨l, hl, ha⟩)
    simp only [ha, decide_eq_true_eq] at hdue ⊢
    exact Nat.le_of_not_lt fun hlt => Nat.not_lt_of_le hdue (halarms alarm hmem hlt)

/-- Whoever cannot move now cannot move before the next alarm. -/
theorem isQuiet_setClock (hquiet : h.isQuiet = true) : (h.setClock instant).isQuiet = true := by
  rw [isQuiet_iff]
  refine fun m => Option.eq_none_iff_forall_ne_some.mpr fun h' hm => ?_
  cases moveStep_iff.mpr hm with
  | run ht _ hstep =>
    obtain ⟨m, hstep⟩ := hstep.of_setClock halarms (mem_of_task? ht)
    exact not_taskStep_of_quiet hquiet ht hstep
  | endJob ht horphan hover => exact not_moveStep_of_quiet hquiet (.endJob ht horphan hover)
  | leave ht hp hdown => exact not_moveStep_of_quiet hquiet (.leave ht hp hdown)
  | tick hl hdue =>
    exact not_moveStep_of_quiet hquiet (.tick hl (isDue_of_setClock halarms (mem_of_loop? hl) hdue))
  | halt hl hdown => exact not_moveStep_of_quiet hquiet (.halt hl hdown)

end

end Host

end EventBus
