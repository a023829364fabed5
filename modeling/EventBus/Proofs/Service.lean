import EventBus.Proofs.Occupancy

/-!
# One flush loop for a group

A flush loop, the consumers that it wakes and the number that a group keeps of it end at different
times: the loop with its runtime or with its bus, a consumer with its own task, the number never.
Still no group has two loops at once, and none with a consumer is without, as long as its bus is up:
a group is given a loop exactly when none of its loops is alive.

All of it comes from two facts that changes keep. The number that a group keeps is that of the last
loop which was started for it, and of no other group (`LoopsSound`). And whoever has a task has a
loop for its group while the bus is up (`Reached.served`).
-/

set_option autoImplicit false

namespace EventBus

namespace Host

/-- The flush loops of a group that have not ended. -/
def loopsOf (h : Host) (g : GroupRef) : List FlushLoop := h.loops.filter (·.group = g)

variable {h : Host} {g : GroupRef}

theorem mem_loopsOf {l : FlushLoop} : l ∈ h.loopsOf g ↔ l ∈ h.loops ∧ l.group = g := by
  rw [loopsOf, List.mem_filter, decide_eq_true_eq]

theorem loopsOf_eq_nil_iff : h.loopsOf g = [] ↔ ∀ l ∈ h.loops, l.group ≠ g := by
  simp only [loopsOf, List.filter_eq_nil_iff, decide_eq_true_eq, ne_eq]

namespace LoopsSound

/-- Two loops of one group have the number that the group keeps, so they are the same. -/
theorem eq_of_group (hs : h.LoopsSound) {l r : FlushLoop} (hl : l ∈ h.loops) (hr : r ∈ h.loops)
    (hg : l.group = r.group) : l = r := by
  have hflusher := hs.flusher l hl
  rw [hg, hs.flusher r hr] at hflusher
  exact List.inj_on_of_nodup_map hs.nodup hl hr (Option.some.inj hflusher).symm

theorem loopsOf_eq (hs : h.LoopsSound) {l : FlushLoop} (hl : l ∈ h.loopsOf g) :
    h.loopsOf g = [l] := by
  have hnodup : (h.loopsOf g).Nodup := (List.Nodup.of_map _ hs.nodup).filter _
  refine List.perm_singleton.mp
    ((List.perm_ext_iff_of_nodup hnodup (List.nodup_singleton l)).mpr ?_)
  intro r
  rw [List.mem_singleton]
  constructor
  · intro hr
    obtain ⟨hr, hrg⟩ := mem_loopsOf.mp hr
    obtain ⟨hl, hlg⟩ := mem_loopsOf.mp hl
    exact hs.eq_of_group hr hl (hrg.trans hlg.symm)
  · rintro rfl
    exact hl

theorem length_loopsOf_le (hs : h.LoopsSound) (g : GroupRef) : (h.loopsOf g).length ≤ 1 := by
  cases hl : h.loopsOf g with
  | nil => exact Nat.zero_le 1
  | cons l rest =>
    have hone := hs.loopsOf_eq (g := g) (l := l) (by rw [hl]; exact List.mem_cons_self)
    rw [← hl, hone]
    exact Nat.le_refl 1

/-- What a group keeps of its loop tells whether one is alive. -/
theorem hasLoop_iff (hs : h.LoopsSound) {group : Group Event} (hg : h.group? g = some group) :
    h.hasLoop group = true ↔ h.loopsOf g ≠ [] := by
  constructor
  · intro hloop hnone
    obtain ⟨l, hl, hlg⟩ := hs.of_hasLoop hg hloop
    exact loopsOf_eq_nil_iff.mp hnone l hl hlg
  · intro hsome
    apply Decidable.byContradiction
    intro hidle
    exact hsome (loopsOf_eq_nil_iff.mpr fun l hl => hs.ne_of_idle hg (by simpa using hidle) hl)

end LoopsSound

theorem loopsOf_ensureLoop {kind : Kind} {interval : Duration} {p : Placement}
    (hidle : h.hasLoop p.group = false) (hnone : h.loopsOf g = []) :
    (h.ensureLoop g kind interval p).loopsOf g =
      if h.runtime = some p.runtime then
        [{ id := h.loopsStarted, group := g, runtime := p.runtime, interval }]
      else [] := by
  rw [ensureLoop_of_idle hidle]
  show List.filter _ (ite _ _ _) = _
  split
  · rw [List.filter_append]
    show h.loopsOf g ++ _ = _
    simp [hnone]
  · exact hnone

/-- A group whose bus is up and that has a slot has one loop, on the runtime of its consumers. -/
theorem Reached.serving (hr : h.Reached) (hup : h.isDown g.bus = false)
    (hslots : h.slotsAt g ≠ []) :
    ∃ l, h.loopsOf g = [l] ∧ ∀ t ∈ h.attended, t.consumer.group = g → t.runtime = l.runtime := by
  obtain ⟨s, hs⟩ := List.exists_mem_of_ne_nil _ hslots
  have hmem : s.id ∈ h.consumersAt g :=
    (hr.paired.perm g).mem_iff.mp (List.mem_map_of_mem hs)
  obtain ⟨t, ht, -⟩ := List.mem_map.mp hmem
  obtain ⟨ht, htg⟩ := List.mem_filter.mp ht
  rw [decide_eq_true_eq] at htg
  obtain ⟨hmem, hlive⟩ := mem_attended.mp ht
  obtain ⟨l, hl, hlg⟩ := hr.served t hmem hlive (by rw [htg]; exact hup)
  refine ⟨l, hr.loopsSound.loopsOf_eq (mem_loopsOf.mpr ⟨hl, hlg.trans htg⟩), ?_⟩
  intro t' ht' _
  obtain ⟨hmem', hlive'⟩ := mem_attended.mp ht'
  have htask := hr.onRuntime.tasks t' hmem' hlive'
  rw [hr.onRuntime.loops l hl, Option.some.injEq] at htask
  exact htask.symm

/-- **One flush loop for a group, and none that starves.** In every state of every run a group has
at most one flush loop that is alive. A group with a slot has exactly one as long as its bus is not
shut down, on the runtime that its consumers are on. And wherever a turn comes to, a group is given
a new loop exactly when none is alive: a loop that is alive is left as it is, and otherwise a loop
with a new number is entered in the journal and runs, unless it is put on a runtime that is gone. -/
theorem one_loop_for_each_group (hr : h.Reachable) :
    (∀ g, (h.loopsOf g).length ≤ 1) ∧
      (∀ g, h.isDown g.bus = false → h.slotsAt g ≠ [] →
        ∃ l, h.loopsOf g = [l] ∧
          ∀ t ∈ h.attended, t.consumer.group = g → t.runtime = l.runtime) ∧
      ∀ m, Changes (fun _ => True) h m → ∀ g kind interval p, m.group? g = some p.group →
        (m.loopsOf g ≠ [] → m.ensureLoop g kind interval p = m) ∧
          (m.loopsOf g = [] →
            (m.ensureLoop g kind interval p).journal =
              ⟨m.now, .loopStarted m.loopsStarted g kind interval p.created⟩ :: m.journal ∧
            (m.ensureLoop g kind interval p).flusher? g = some m.loopsStarted ∧
            (m.ensureLoop g kind interval p).loopsOf g =
              if m.runtime = some p.runtime then
                [{ id := m.loopsStarted, group := g, runtime := p.runtime, interval }]
              else []) := by
  have hreached := hr.reached
  refine ⟨hreached.loopsSound.length_loopsOf_le, fun g => hreached.serving, ?_⟩
  intro m hm g kind interval p hg
  have hsound := (hreached.changes hm).loopsSound
  constructor
  · intro halive
    rw [ensureLoop, if_pos ((hsound.hasLoop_iff hg).mpr halive)]
  · intro hnone
    have hidle : m.hasLoop p.group = false := by
      rw [← Bool.not_eq_true, hsound.hasLoop_iff hg]
      exact fun halive => halive hnone
    refine ⟨by rw [ensureLoop_of_idle hidle], ?_, loopsOf_ensureLoop hidle hnone⟩
    rw [flusher?_ensureLoop hg hidle, if_pos rfl]

/-- The runtime of the small program is replaced, and a consumer subscribes anew. -/
def restartingTurns : List Turn :=
  waitingTurns ++ [.obey .startRuntime,
    .obey (.subscribe (.named "b") { handler := ⟨⟨"w", .async⟩, fun _ => []⟩, kind := .int } false)]

def restarted : Host := ((initial true).replay restartingTurns).getD {}

theorem restarted_reachable : restarted.Reachable :=
  ⟨true, restartingTurns, run_of_isSome (by decide)⟩

/-- The group of the small program has had two loops. The one that is alive is on the new runtime,
and yet another is not started. -/
theorem one_loop_for_each_group_restarted :
    restarted.loopsStarted = 2 ∧
      (∃ l, restarted.loopsOf waiter.group = [l] ∧
        ∀ t ∈ restarted.attended, t.consumer.group = waiter.group → t.runtime = l.runtime) ∧
      ∃ p : Placement, restarted.group? waiter.group = some p.group ∧
        restarted.ensureLoop waiter.group .int (.ofMicros 500) p = restarted := by
  have hstarted : restarted.loopsStarted = 2 := by decide
  have hup : restarted.isDown waiter.group.bus = false := by decide
  have hone : (restarted.slotsAt waiter.group).length = 1 := by decide
  have hslots : restarted.slotsAt waiter.group ≠ [] := by
    intro hnone
    rw [hnone] at hone
    exact absurd hone (by simp)
  obtain ⟨group, hg⟩ := Option.isSome_iff_exists.mp
    (show (restarted.group? waiter.group).isSome = true by decide)
  obtain ⟨-, hserved, hensure⟩ := one_loop_for_each_group restarted_reachable
  have hloop := hserved waiter.group hup hslots
  refine ⟨hstarted, hloop, ⟨1, group, false, .empty⟩, hg, ?_⟩
  obtain ⟨l, hl, -⟩ := hloop
  exact (hensure restarted (.refl _) _ _ _ _ hg).1 (by rw [hl]; simp)

end Host

end EventBus
