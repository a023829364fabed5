import EventBus.Proofs.DefaultBus

/-!
# Loops run where their bus is pinned

A bus that was pinned to a runtime when it was made puts every flush loop of its groups on that
runtime, and no other. So when the runtime is gone, no loop of the bus is left, and none that is
started for it runs. Only a subscription starts a loop: all other requests and moves leave the
number of loops that were started as it is.
-/

set_option autoImplicit false

namespace EventBus

/-- Who is given a place is put where the bus is pinned, or else on the current runtime. -/
theorem Bus.runtime_of_place {bus : Bus} {context : Option RuntimeId} {type : EventType}
    {kind : Kind} {p : Placement} (hp : bus.place context type kind = .ok p) :
    bus.pinned.or context = some p.runtime := by
  unfold Bus.place at hp
  split at hp
  · exact absurd hp (by simp)
  · split at hp
    · exact absurd hp (by simp)
    · next runtime hrun =>
      cases hb : bus.registry.binding? type with
      | none =>
        rw [Registry.getOrCreate_of_unbound hb] at hp
        obtain rfl := Except.ok.inj hp
        exact hrun
      | some binding =>
        rw [Registry.getOrCreate_of_bound hb] at hp
        by_cases hk : kind = binding.kind
        · subst hk
          rw [Registry.groupFor_same] at hp
          obtain rfl := Except.ok.inj hp
          exact hrun
        · rw [Registry.groupFor_other hb hk] at hp
          exact absurd hp (by simp [Except.map, pure, Id.run])

namespace Host

/-- The runtime that a bus is pinned to. -/
def pinned? (h : Host) (b : BusId) : Option RuntimeId := (h.builder? b).bind (·.runtime)

/-- The loops of a bus that is pinned run where it is pinned to. -/
def LoopsPinned (h : Host) : Prop :=
  ∀ l ∈ h.loops, ∀ r, h.pinned? l.group.bus = some r → l.runtime = r

variable {h m h' : Host} {ns : Nature → Prop}

theorem pinned?_of_bus? {b : BusId} {bus : Bus} (hbus : h.bus? b = some bus) :
    h.pinned? b = bus.pinned := by
  rw [pinned?, builder?, hbus]
  rfl

/-- A loop is that of a group of a bus that is there. -/
theorem Reached.builder?_of_loop (hr : h.Reached) {l : FlushLoop} (hl : l ∈ h.loops) :
    ∃ s, h.builder? l.group.bus = some s := by
  have hflusher := hr.loopsSound.flusher l hl
  obtain ⟨s, hs, -⟩ := Option.bind_eq_some_iff.mp (flusher?_eq_standing? h _ ▸ hflusher)
  obtain ⟨binding, hb, -⟩ := Option.map_eq_some_iff.mp hs
  obtain ⟨bus, hbus⟩ := Option.isSome_iff_exists.mp (hasBus_of_binding? hb)
  exact ⟨_, by rw [builder?, hbus]; rfl⟩

/-- A bus stays pinned as it was made. -/
theorem pinned?_of_changes (hc : Changes ns h h') {b : BusId} {s : Builder}
    (hs : h.builder? b = some s) : h'.pinned? b = h.pinned? b := by
  rw [pinned?, pinned?, Changes.builder? hc hs, hs]

/-! ## Where loops are left alone -/

/-- Loops that belong to the same groups and run on the same runtimes as loops before are pinned as
those were, for buses stay pinned as they were made. -/
theorem LoopsPinned.of_loops (hm : h.LoopsPinned) (hr : h.Reached) (hc : Changes ns h h')
    (hl : ∀ l' ∈ h'.loops, ∃ l ∈ h.loops, l'.group = l.group ∧ l'.runtime = l.runtime) :
    h'.LoopsPinned := by
  intro l' hl' r hpinned
  obtain ⟨l, hmem, hgroup, hruntime⟩ := hl l' hl'
  obtain ⟨s, hs⟩ := hr.builder?_of_loop hmem
  rw [hgroup, pinned?_of_changes hc hs] at hpinned
  rw [hruntime, hm l hmem r hpinned]

/-- A change by which no loop is started leaves every loop to its group and its runtime. -/
theorem loops_of_started {n : Nature} (hc : Change n h h') (hr : h.Reached)
    (hs : h'.loopsStarted = h.loopsStarted) :
    ∀ l' ∈ h'.loops, ∃ l ∈ h.loops, l'.group = l.group ∧ l'.runtime = l.runtime := by
  intro l' hl'
  cases hc.loopOrigin hl' with
  | kept hl => exact ⟨l', hl, rfl, rfl⟩
  | @ticked l hl _ _ => exact ⟨l, hl, rfl, rfl⟩
  | started _ _ hflusher =>
    have hbelow := (hr.change hc).loopsSound.below _ _ hflusher
    exact absurd hbelow (by rw [hs]; exact Nat.lt_irrefl _)

theorem Changes.loopsStarted_le (hc : Changes ns h h') : h.loopsStarted ≤ h'.loopsStarted :=
  hc.keeps (P := fun m => h.loopsStarted ≤ m.loopsStarted)
    (fun hchange hle => Nat.le_trans hle hchange.loopsStarted_le) (Nat.le_refl _)

/-- **What starts no loop keeps loops pinned**, whatever else it does. -/
theorem LoopsPinned.of_started (hm : h.LoopsPinned) (hr : h.Reached) (hc : Changes ns h h')
    (hs : h'.loopsStarted = h.loopsStarted) : h'.LoopsPinned := by
  -- by induction on the changes: each of them starts as few loops as all of them together, which is
  -- none
  induction hc with
  | refl => exact hm
  | @tail m h' hbefore hlast ih =>
    obtain ⟨n, hn, hlast⟩ := hlast
    have hle : m.loopsStarted ≤ h.loopsStarted := hs ▸ hlast.loopsStarted_le
    have hsame := Nat.le_antisymm hle (Changes.loopsStarted_le hbefore)
    have hmr := hr.changes hbefore
    exact (ih hsame).of_loops hmr (.single hn hlast)
      (loops_of_started hlast hmr (hs.trans hsame.symm))

/-! ## What starts no loop -/

section

variable (h : Host)

theorem started_endTask (t : Task) (what : Happening) :
    (h.endTask t what).loopsStarted = h.loopsStarted :=
  (release_keepsRuntime _ (h.finish t what)).loopsStarted

theorem started_lose (t : Task) : (h.lose t).loopsStarted = h.loopsStarted := by
  unfold lose
  split
  · rfl
  · exact started_endTask h t _

theorem started_look (t : Task) : (h.look t).loopsStarted = h.loopsStarted := by
  unfold look
  split
  · exact started_endTask h t _
  · dsimp only
    split
    · rfl
    · rfl
    · exact started_endTask _ t _

/-- A stop of the runtime ends loops, and starts none. -/
theorem started_stopRuntime : h.stopRuntime.loopsStarted = h.loopsStarted := by
  have hall : ∀ (ts : List Task) (m : Host), (m.loseAll ts).loopsStarted = m.loopsStarted := by
    intro ts
    induction ts with
    | nil => exact fun m => rfl
    | cons t rest ih => exact fun m => (ih _).trans (started_lose m t)
  unfold stopRuntime
  split
  · rfl
  · exact hall _ _

end

/-! ## Subscribing -/

/-- The loop of a group that is to get a consumer is one that it had, or one on the runtime of its
place. -/
theorem mem_loops_subscribe {b : BusId} {context : Option RuntimeId} {who : Subscriber Action}
    {held : List (Target × BusId)} {l : FlushLoop}
    (hl : l ∈ (h.subscribe b context who held).2.loops) :
    l ∈ h.loops ∨ ∃ bus p, h.bus? b = some bus ∧
      bus.place context who.type who.kind = .ok p ∧ l.group.bus = b ∧ l.runtime = p.runtime := by
  -- of all that a subscription does, only the loop that it starts is one more
  have hrelease : ∀ (gone : List BusId) (m : Host), (m.release gone).loops = m.loops :=
    fun gone m => release_of_abandon (·.loops) (fun _ _ => rfl) gone m
  have hspawn : ∀ (m : Host) (t : Task), (m.spawn t).loops = m.loops := by
    intro m t
    unfold spawn
    split
    · rfl
    · exact hrelease _ _
  cases hbus : h.bus? b with
  | none =>
    simp only [subscribe, hbus, hrelease] at hl
    exact .inl hl
  | some bus =>
    cases hp : bus.place context who.type who.kind with
    | error fault =>
      simp only [subscribe, hbus, hp, hrelease] at hl
      split at hl
      · exact .inl hl
      · exact .inl hl
    | ok p =>
      have hafter := subscribe_of_place hbus hp held
      dsimp only at hafter
      rw [hafter, hspawn] at hl
      change l ∈ (ensureLoop _ _ _ _ p).loops at hl
      unfold ensureLoop at hl
      split at hl
      · exact .inl hl
      · -- on a runtime that is gone the loop is not there
        change l ∈ ite _ _ _ at hl
        split at hl
        · rcases List.mem_append.mp hl with hl | hl
          · exact .inl hl
          · obtain rfl := List.mem_singleton.mp hl
            exact .inr ⟨bus, p, rfl, hp, rfl, rfl⟩
        · exact .inl hl

/-- A loop that a subscription starts is put where the place is, and that is where the bus is
pinned. -/
theorem LoopsPinned.subscribe (hm : h.LoopsPinned) (hr : h.Reached) {b : BusId}
    (hb : h.isHeld b = true)
    (context : Option RuntimeId) (who : Subscriber Action) {held : List (Target × BusId)}
    (hheld : ∀ x ∈ held, h.isHeld x.2 = true) : (h.subscribe b context who held).2.LoopsPinned := by
  have hc : Changes (fun _ => True) h (h.subscribe b context who held).2 :=
    subscribe_changes hr trivial trivial hb context who hheld
  intro l hl r hpinned
  rcases mem_loops_subscribe hl with hl | ⟨bus, p, hbus, hp, hlb, hlr⟩
  · obtain ⟨s, hs⟩ := hr.builder?_of_loop hl
    rw [pinned?_of_changes hc hs] at hpinned
    exact hm l hl r hpinned
  · have hs : h.builder? b = some ⟨bus.config, bus.pinned⟩ := by rw [builder?, hbus]; rfl
    have hrun := Bus.runtime_of_place hp
    rw [hlb, pinned?_of_changes hc hs, pinned?_of_bus? hbus] at hpinned
    rw [hpinned, Option.some_or, Option.some.injEq] at hrun
    rw [hlr, hrun]

/-- Before and after that no loop is started. -/
theorem LoopsPinned.subscribeAt (hm : h.LoopsPinned) (hr : h.Reached) {own : List (Target × BusId)}
    (hown : ∀ x ∈ own, h.isHeld x.2 = true) (context : Option RuntimeId) (target : Target)
    (who : Subscriber Action) : (h.subscribeAt own context target who).2.LoopsPinned := by
  obtain ⟨hfound, hheld⟩ := locate_extends hown target
  have hstarted := (locate_keepsRuntime (h := h) own target).loopsStarted
  rw [Host.subscribeAt, withBus]
  split
  · next b m heq =>
    rw [heq] at hfound hheld hstarted
    have hmr := hr.changes hfound.changes
    have hmm := hm.of_started hr hfound.changes hstarted
    obtain ⟨hall, hheld'⟩ := locateAll_extends who.hold fun x hx => hfound.held _ (hown x hx)
    have hsub := LoopsPinned.subscribe
      (hmm.of_started hmr hall.changes (locateAll_keepsRuntime own who.hold).loopsStarted)
      (hmr.changes hall.changes) (hall.held b (hheld b rfl)) context who hheld'
    dsimp only
    split
    · next heq' =>
      rw [heq'] at hsub
      exact hsub
    · next heq' =>
      rw [heq'] at hsub
      exact hsub
  · next m heq =>
    rw [heq] at hfound hstarted
    exact hm.of_started hr hfound.changes hstarted

/-! ## Turns -/

section

variable {t : Task} (hm : h.LoopsPinned) (hr : h.Reached) (ht : h.task? t.consumer = some t)

include hm hr ht

/-- Of all actions only a subscription starts a loop. -/
theorem perform_loopsPinned {lent : Option (List Event)} {call : Call}
    (hp : t.phase = .draining lent (some call)) (next : Call) (a : Action)
    (hlive : a.isPanic = true → t.orphaned = false) : (h.perform t lent next a).LoopsPinned := by
  have hturned := (perform_changes hr ht hp next a hlive).changes
  cases a with
  | subscribe target who =>
    have hstep : Changes (fun _ => True) h (h.setTask (t.continueCall lent next)) :=
      step_changes trivial ht (.work hp)
    exact (hm.of_started hr hstep rfl).subscribeAt (hr.changes hstep)
      (fun x hx => isHeld_of_task (mem_setTask (t.continueCall lent next) ht rfl) hx) _ target who
  | publish => exact hm.of_started hr hturned (publishTo_keepsRuntime _ _ _).loopsStarted
  | countdown => exact hm.of_started hr hturned (countdownTo_keepsRuntime _ _ _).loopsStarted
  | cancel name => exact hm.of_started hr hturned (cancelNamed_keepsRuntime name).loopsStarted
  | close => exact hm.of_started hr hturned (closeAt_keepsRuntime _ _).loopsStarted
  | count => exact hm.of_started hr hturned (countAt_keepsRuntime _ _ _).loopsStarted
  | consult question => exact hm.of_started hr hturned (ask_keepsRuntime _ question).loopsStarted
  | sleep | panic | report => exact hm.of_started hr hturned rfl

theorem TaskStep.loopsPinned (hs : h.TaskStep t h') (hlive : t.isOver = true → t.orphaned = false) :
    h'.LoopsPinned := by
  have hturned := (hs.turned hr ht hlive).changes
  cases hs with
  | look => exact hm.of_started hr hturned (started_look h t)
  | perform hp hawake htodo =>
    exact perform_loopsPinned hm hr ht hp _ _
      fun ha => hlive (Task.isOver_of_panic hp hawake htodo ha)
  | fail => exact hm.of_started hr hturned (started_endTask h t _)
  | _ => exact hm.of_started hr hturned rfl

end

theorem MoveStep.loopsPinned {m : Move} (hmove : h.MoveStep m h') (hm : h.LoopsPinned)
    (hr : h.Reached) : h'.LoopsPinned := by
  have hturned := (hmove.turned hr).changes
  cases hmove with
  | run ht hlive hstep => exact hstep.loopsPinned hm hr ht hlive
  | endJob => exact hm.of_started hr hturned (release_keepsRuntime _ _).loopsStarted
  | leave => exact hm.of_started hr hturned (started_endTask h _ _)
  | tick | halt => exact hm.of_started hr hturned rfl

/-- The same holds for commands. -/
theorem obey_loopsPinned (hm : h.LoopsPinned) (hr : h.Reached) {c : Command}
    (hq : c.takesTime = false) :
    (h.obey c).2.LoopsPinned := by
  have hturned := (obey_changes hr hq).changes
  cases hc : c.reachesRuntime with
  | false => exact hm.of_started hr hturned (obey_keepsRuntime c hc).loopsStarted
  | true =>
    cases c with
    | subscribe target who outside => exact hm.subscribeAt hr (by simp) _ target who
    | stopRuntime | startRuntime => exact hm.of_started hr hturned (started_stopRuntime h)
    | advance => exact absurd hq (by simp [Command.takesTime])
    | _ => exact absurd hc (by simp [Command.reachesRuntime])

/-- No turn puts a loop where its bus is not pinned. -/
theorem turn?_loopsPinned (hm : h.LoopsPinned) (hr : h.Reached) {u : Turn}
    (hu : h.turn? u = some h') : h'.LoopsPinned := by
  have hturned := (turn?_changes hr hu).changes
  cases turnStep_iff.mpr hu with
  | obey hquick => exact obey_loopsPinned hm hr hquick
  | move hmove => exact hmove.loopsPinned hm hr
  | pass => exact hm.of_started hr hturned rfl

/-- In every state of every run the loops of a bus that is pinned run where it is pinned to. -/
theorem Reachable.loopsPinned (hr : h.Reachable) : h.LoopsPinned := by
  refine hr.invariant (P := LoopsPinned) (fun running => ?_)
    fun hr hm hu => turn?_loopsPinned hm hr.reached hu
  cases running <;> exact fun l hl => absurd hl (by simp [initial, startRuntime, stopRuntime])

end Host

end EventBus
