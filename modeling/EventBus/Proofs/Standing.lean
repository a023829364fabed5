import EventBus.Proofs.Holding

/-!
# What a group keeps

Apart from its slots a group has a kind, the id it gives next and the loop that was last started for
it: its `Standing`. A change leaves the standing of a group alone, or binds the group's type, or
gives out an id, or starts a loop. Kinds are therefore for good, ids are never given twice, and the
loops that run are told apart by their groups: `Reached.served` has one for each group with a task,
as long as the bus is up.
-/

set_option autoImplicit false

namespace EventBus

/-- What there is to say of a group apart from its slots. -/
@[ext]
structure Standing where
  kind : Kind
  nextId : ConsumerId
  flusher : Option LoopId

namespace Host

def standing? (h : Host) (g : GroupRef) : Option Standing :=
  (h.binding? g).map fun b => ⟨b.kind, b.group.nextId, b.group.flusher⟩

/-- The kind, the next id and the loop of a group are read off its standing. -/
theorem kind?_eq_standing? (h : Host) (g : GroupRef) :
    h.kind? g = (h.standing? g).map (·.kind) := by
  rw [kind?, standing?, Option.map_map]
  rfl

theorem nextId_eq_standing? (h : Host) (g : GroupRef) :
    (h.group? g).map (·.nextId) = (h.standing? g).map (·.nextId) := by
  rw [group?_eq_binding?, standing?, Option.map_map, Option.map_map]
  rfl

theorem flusher?_eq_standing? (h : Host) (g : GroupRef) :
    h.flusher? g = (h.standing? g).bind (·.flusher) := by
  rw [flusher?, group?_eq_binding?, standing?, Option.bind_map, Option.bind_map]
  rfl

/-- Every group that there is has a standing. -/
theorem standing?_of_group? {h : Host} {g : GroupRef} {group : Group Event}
    (hg : h.group? g = some group) :
    ∃ kind, h.standing? g = some ⟨kind, group.nextId, group.flusher⟩ := by
  rw [group?_eq_binding?] at hg
  obtain ⟨b, hb, rfl⟩ := Option.map_eq_some_iff.mp hg
  exact ⟨b.kind, by rw [standing?, hb]; rfl⟩

theorem standing?_congr {h h' : Host} {g : GroupRef} (hb : h'.binding? g = h.binding? g) :
    h'.standing? g = h.standing? g := by
  rw [standing?, standing?, hb]

/-- What is done to one group leaves the standing of the others alone, and the kind of its own. -/
theorem standing?_modifyGroup (h : Host) (f : Group Event → Group Event) (g other : GroupRef) :
    (h.modifyGroup g f).standing? other =
      if other = g then
        (h.binding? g).map fun b => ⟨b.kind, (f b.group).nextId, (f b.group).flusher⟩
      else h.standing? other := by
  rw [standing?, binding?_modifyGroup]
  split
  · next ho => rw [Option.map_map, ho]; rfl
  · rfl

/-- What touches nothing but slots leaves every standing alone. -/
theorem standing?_modifyGroup_of {f : Group Event → Group Event}
    (hn : ∀ group, (f group).nextId = group.nextId)
    (hf : ∀ group, (f group).flusher = group.flusher) (h : Host) (g other : GroupRef) :
    (h.modifyGroup g f).standing? other = h.standing? other := by
  rw [standing?_modifyGroup]
  split
  · next ho => simp only [hn, hf, standing?, ho]
  · rfl

/-! ## Ids that were given -/

/-- The id of the consumer was given by its group, which is one of `kind`. -/
def Given (h : Host) (c : ConsumerRef) (kind : Kind) : Prop :=
  ∃ s, h.standing? c.group = some s ∧ s.kind = kind ∧ c.id < s.nextId

/-- Whose id was given has a group, and that is of its kind. -/
theorem Given.kind? {h : Host} {c : ConsumerRef} {kind : Kind} (hg : h.Given c kind) :
    h.kind? c.group = some kind := by
  obtain ⟨s, hs, rfl, -⟩ := hg
  rw [kind?_eq_standing?, hs, Option.map_some]

theorem Given.hasBus {h : Host} {c : ConsumerRef} {kind : Kind} (hg : h.Given c kind) :
    h.HasBus c.group.bus := by
  obtain ⟨b, hb, -⟩ := Option.map_eq_some_iff.mp hg.kind?
  exact hasBus_of_binding? hb

/-- An id stays given as long as the standing of its group is what it was. -/
theorem Given.congr {h h' : Host} {c : ConsumerRef} {kind : Kind} (hg : h.Given c kind)
    (hs : h'.standing? c.group = h.standing? c.group) : h'.Given c kind := by
  unfold Given
  rw [hs]
  exact hg

/-- Who is to be admitted gets an id that was not given before. -/
theorem not_given_of_admissible {h : Host} {t : Task} {kind kind' : Kind}
    (ha : h.Admissible t kind) : ¬h.Given t.consumer kind' := by
  rintro ⟨s, hs, -, hlt⟩
  obtain ⟨group, hg, hid⟩ := ha.id
  obtain ⟨k, hs'⟩ := standing?_of_group? hg
  rw [hs', Option.some.injEq] at hs
  rw [← hs, hid] at hlt
  exact absurd hlt (Nat.lt_irrefl _)

/-- Who is admitted has its id from its group. -/
theorem given_attach {h : Host} {t : Task} {kind : Kind} (ha : h.Admissible t kind) :
    (h.modifyGroup t.consumer.group (·.attach.2)).Given t.consumer kind := by
  obtain ⟨group, hg, hid⟩ := ha.id
  have hkind := ha.kind
  rw [group?_eq_binding?] at hg
  obtain ⟨b, hb, rfl⟩ := Option.map_eq_some_iff.mp hg
  rw [kind?, hb, Option.map_some, Option.some.injEq] at hkind
  refine ⟨⟨b.kind, b.group.nextId + 1, b.group.flusher⟩, ?_, hkind, ?_⟩
  · rw [standing?_modifyGroup, if_pos rfl, hb]
    rfl
  · rw [hid]
    exact Nat.lt_succ_self _

end Host

open Host

namespace Change

variable {n : Nature} {h h' : Host}

/-- How the standing of a group before a change compares with that after it. -/
inductive StandingChange (h h' : Host) (g : GroupRef) : Prop
  | same : h'.standing? g = h.standing? g → StandingChange h h' g
  | bound (kind : Kind) : h.standing? g = none → h'.standing? g = some ⟨kind, 1, none⟩ →
      StandingChange h h' g
  | attached (s : Standing) : h.standing? g = some s →
      h'.standing? g = some { s with nextId := s.nextId + 1 } → StandingChange h h' g
  | looped (group : Group Event) (kind : Kind) : h.group? g = some group →
      h.hasLoop group = false → h.standing? g = some ⟨kind, group.nextId, group.flusher⟩ →
      h'.standing? g = some ⟨kind, group.nextId, some h.loopsStarted⟩ →
      h'.loopsStarted = h.loopsStarted + 1 → StandingChange h h' g

/-- Of the group of a consumer that is admitted the next id is one more; of the others it is what it
was. -/
theorem standing_attach {t : Task} {kind : Kind} (ha : h.Admissible t kind) {g : GroupRef}
    (hs : h'.standing? g = (h.modifyGroup t.consumer.group (·.attach.2)).standing? g) :
    StandingChange h h' g := by
  rw [standing?_modifyGroup] at hs
  split at hs
  · next hg =>
    obtain ⟨group, hgroup, -⟩ := ha.id
    rw [group?_eq_binding?] at hgroup
    obtain ⟨b, hb, rfl⟩ := Option.map_eq_some_iff.mp hgroup
    rw [hb] at hs
    exact .attached ⟨b.kind, b.group.nextId, b.group.flusher⟩ (by rw [hg, standing?, hb]; rfl) hs
  · exact .same hs

/-- What a change does to the standing of a group is one of these. -/
theorem standing (hc : Change n h h') (g : GroupRef) : StandingChange h h' g := by
  cases hc with
  | pass | rename | aside | step | endJob | tick | halt | stop | start => exact .same rfl
  | make hr _ _ => exact .same (standing?_congr (h.binding?_append hr _ _ g))
  | @abandon _ b _ => exact .same (standing?_congr (h.binding?_abandon b g))
  | close _ hok => exact .same (standing?_congr (binding?_close hok g))
  | @publish _ b event _ hb =>
    refine .same ?_
    cases ha : h.accepts b event with
    | true =>
      rw [publish_of_accepts ha]
      exact standing?_modifyGroup_of (f := (·.broadcast event)) (fun _ => rfl) (fun _ => rfl) h _ g
    | false =>
      obtain ⟨fate, hfate⟩ := publish_of_not_accepts hb ha
      rw [hfate]
      rfl
  -- the type that is bound had no group until now, and the others are as they were
  | @bindType _ b bus type kind fresh _ hb _ =>
    by_cases hg : g = ⟨b, type⟩
    · refine .bound kind ?_ ?_
      · rw [standing?, hg, binding?_fresh h fresh hb]
        rfl
      · rw [standing?, binding?_bindType h hb, if_pos hg]
        rfl
    · refine .same ?_
      rw [standing?, binding?_bindType h hb, if_neg hg, standing?]
  -- the loop is noted in the group, and that is all
  | @startLoop _ g' kind interval p hgroup hidle =>
    rw [ensureLoop_of_idle hidle]
    by_cases hg : g = g'
    · subst hg
      obtain ⟨kind', hs⟩ := standing?_of_group? hgroup
      refine .looped p.group kind' hgroup hidle hs ?_ rfl
      show (h.modifyGroup g _).standing? g = _
      rw [group?_eq_binding?] at hgroup
      obtain ⟨b, hb, hbg⟩ := Option.map_eq_some_iff.mp hgroup
      rw [standing?, hb, Option.map_some, Option.some.injEq, Standing.mk.injEq] at hs
      rw [standing?_modifyGroup, if_pos rfl, hb, Option.map_some, hs.1, hbg]
    · refine .same ?_
      show (h.modifyGroup g' _).standing? g = _
      rw [standing?_modifyGroup, if_neg hg]
  | enrol ha _ _ => exact standing_attach ha rfl
  | @stillborn _ t kind ha _ =>
    exact standing_attach ha (standing?_modifyGroup_of (f := (·.detach t.consumer.id))
      (fun _ => rfl) (fun _ => rfl) _ _ g)
  | cancel ha =>
    rw [cancel_of_active ha]
    exact .same (standing?_modifyGroup_of (f := fun group => (group.stop _).2)
      (fun _ => rfl) (fun _ => rfl) h _ g)
  | take => exact .same (standing?_modifyGroup_of (fun group => group.nextId_take _ _)
      (fun group => group.flusher_take _ _) h _ g)
  | @finish _ t _ _ _ _ | @leaveJob _ t _ _ _ =>
    exact .same (standing?_modifyGroup_of (f := (·.detach t.consumer.id))
      (fun _ => rfl) (fun _ => rfl) _ _ g)

/-- **An id that was given stays given**, and is not given a second time. -/
theorem given (hc : Change n h h') {c : ConsumerRef} {kind : Kind} (hg : h.Given c kind) :
    h'.Given c kind := by
  obtain ⟨s, hs, hk, hlt⟩ := hg
  cases hc.standing c.group with
  | same hs' => exact ⟨s, hs'.trans hs, hk, hlt⟩
  | bound _ hn _ => rw [hn] at hs; exact absurd hs (by simp)
  | attached s₀ hs₀ hs' =>
    rw [hs₀, Option.some.injEq] at hs
    subst hs
    exact ⟨_, hs', hk, Nat.lt_succ_of_lt hlt⟩
  | looped group k _ _ hs₀ hs' _ =>
    rw [hs₀, Option.some.injEq] at hs
    subst hs
    exact ⟨_, hs', hk, hlt⟩

end Change

namespace Host

/-! ## Loops and their groups -/

/-- Of a group with a standing, the loop is in it. -/
theorem flusher?_of_mem_standing {h : Host} {g : GroupRef} {s : Standing}
    (hs : h.standing? g = some s) : h.flusher? g = s.flusher := by
  rw [flusher?_eq_standing?, hs, Option.bind_some]

/-- Loops are told apart by their numbers, and each is the one last started for its group. -/
structure LoopsSound (h : Host) : Prop where
  nodup : (h.loops.map (·.id)).Nodup
  flusher : ∀ l ∈ h.loops, h.flusher? l.group = some l.id
  unique : ∀ g g' id, h.flusher? g = some id → h.flusher? g' = some id → g = g'
  below : ∀ g id, h.flusher? g = some id → id < h.loopsStarted

theorem LoopsSound.loop?_of_mem {h : Host} (hs : h.LoopsSound) {l : FlushLoop}
    (hl : l ∈ h.loops) : h.loop? l.id = some l :=
  find?_of_key hs.nodup hl fun _ => decide_eq_true_iff

/-- A group that has a loop has it among the loops that run, and under its own name. -/
theorem LoopsSound.of_hasLoop {h : Host} (hs : h.LoopsSound) {g : GroupRef} {group : Group Event}
    (hg : h.group? g = some group) (hloop : h.hasLoop group = true) :
    ∃ l ∈ h.loops, l.group = g := by
  unfold hasLoop at hloop
  cases hf : group.flusher with
  | none => rw [hf] at hloop; exact absurd hloop (by simp)
  | some id =>
    rw [hf] at hloop
    obtain ⟨l, hl⟩ := Option.isSome_iff_exists.mp hloop
    have hmem : l ∈ h.loops := List.mem_of_find?_eq_some hl
    have hid : l.id = id := id_of_loop? hl
    have hflusher : h.flusher? g = some id := by rw [flusher?, hg, Option.bind_some, hf]
    exact ⟨l, hmem, hs.unique _ _ id (hid ▸ hs.flusher l hmem) hflusher⟩

/-- Of a group whose last loop has ended no loop runs. -/
theorem LoopsSound.ne_of_idle {h : Host} (hs : h.LoopsSound) {g : GroupRef} {group : Group Event}
    (hg : h.group? g = some group) (hidle : h.hasLoop group = false) {l : FlushLoop}
    (hl : l ∈ h.loops) : l.group ≠ g := by
  intro hlg
  have hflusher := hs.flusher l hl
  rw [hlg, flusher?, hg, Option.bind_some] at hflusher
  rw [hasLoop, hflusher] at hidle
  have hfound := hs.loop?_of_mem hl
  simp [hfound] at hidle

end Host

namespace Change

variable {n : Nature} {h h' : Host}

/-- Loops are numbered upwards. -/
theorem loopsStarted_le (hc : Change n h h') : h.loopsStarted ≤ h'.loopsStarted := by
  cases hc with
  | close _ hok =>
    obtain ⟨bus, -, -, rfl⟩ := close_eq_ok hok
    exact Nat.le_refl _
  | publish _ hb =>
    obtain ⟨fate, buses, hframe⟩ := publish_frame hb
    exact Nat.le_of_eq (by rw [hframe])
  | startLoop _ hidle =>
    rw [ensureLoop_of_idle hidle]
    exact Nat.le_succ _
  | cancel ha =>
    rw [cancel_of_active ha]
    exact Nat.le_refl _
  | _ => exact Nat.le_refl _

/-- A loop that ticks keeps its number. -/
theorem map_id_setLoop (h : Host) (l : FlushLoop) :
    (h.setLoop l).loops.map (·.id) = h.loops.map (·.id) := by
  rw [setLoop, List.map_map]
  apply List.map_congr_left
  intro r _
  simp only [Function.comp_def]
  split
  · next hr => exact hr.symm
  · rfl

/-- No two loops that run have one number, as a loop that is started takes a new one. -/
theorem loops_nodup (hc : Change n h h') (hs : h.LoopsSound) : (h'.loops.map (·.id)).Nodup := by
  cases hc with
  | close _ hok =>
    obtain ⟨bus, -, -, rfl⟩ := close_eq_ok hok
    exact hs.nodup
  | publish _ hb =>
    obtain ⟨fate, buses, hframe⟩ := publish_frame hb
    rw [hframe]
    exact hs.nodup
  | startLoop _ hidle =>
    rw [ensureLoop_of_idle hidle]
    show (List.map _ (ite _ _ _)).Nodup
    split
    · rw [List.map_append, List.map_singleton, List.nodup_append]
      refine ⟨hs.nodup, by simp, ?_⟩
      intro a ha b hb
      obtain ⟨l, hl, rfl⟩ := List.mem_map.mp ha
      rw [List.mem_singleton] at hb
      subst hb
      -- a loop that runs is the last of its group, so its number is below the next one
      exact Nat.ne_of_lt (hs.below _ _ (hs.flusher l hl))
    · exact hs.nodup
  | cancel ha =>
    rw [cancel_of_active ha]
    exact hs.nodup
  | @tick _ l _ _ =>
    show ((h.setLoop (l.tick h.now)).loops.map (·.id)).Nodup
    rw [map_id_setLoop]
    exact hs.nodup
  | halt => exact hs.nodup.sublist (List.filter_sublist.map _)
  | stop => exact List.nodup_nil
  | _ => exact hs.nodup

/-- Starting a loop is the only change of what was last started for a group, and takes a number that
was never taken. -/
theorem flusher? (hc : Change n h h') :
    (∀ g, h'.flusher? g = h.flusher? g) ∨
      ∃ g group, h.group? g = some group ∧ h.hasLoop group = false ∧
        h'.loopsStarted = h.loopsStarted + 1 ∧
        ∀ other, h'.flusher? other =
          if other = g then some h.loopsStarted else h.flusher? other := by
  -- unless the count goes up, the loop of a group is the one that it was
  have hsame : h'.loopsStarted = h.loopsStarted → ∀ g, h'.flusher? g = h.flusher? g := by
    intro hcount g
    cases hc.standing g with
    | same hs => rw [flusher?_eq_standing?, flusher?_eq_standing?, hs]
    | bound kind hn hs =>
      rw [flusher?_of_mem_standing hs, flusher?_eq_standing?, hn]
      rfl
    | attached s hs hs' => rw [flusher?_of_mem_standing hs, flusher?_of_mem_standing hs']
    | looped _ _ _ _ _ _ hstart =>
      rw [hcount] at hstart
      exact absurd hstart (Nat.ne_of_lt (Nat.lt_succ_self _))
  cases hc with
  | close _ hok =>
    obtain ⟨bus, -, -, rfl⟩ := close_eq_ok hok
    exact .inl (hsame rfl)
  | publish _ hb =>
    obtain ⟨fate, buses, hframe⟩ := publish_frame hb
    rw [hframe] at hsame ⊢
    exact .inl (hsame rfl)
  | @startLoop _ g kind interval p hg hidle =>
    refine .inr ⟨g, p.group, hg, hidle, ?_, flusher?_ensureLoop hg hidle⟩
    rw [ensureLoop_of_idle hidle]
  | cancel ha =>
    rw [cancel_of_active ha] at hsame ⊢
    exact .inl (hsame rfl)
  | _ => exact .inl (hsame rfl)

/-- A change keeps loops sound: those that run are the last of their groups, and the number of one
that is started is new. -/
theorem loopsSound (hc : Change n h h') (hs : h.LoopsSound) : h'.LoopsSound where
  nodup := hc.loops_nodup hs
  flusher l hl := by
    have hkept : ∀ r ∈ h.loops, h'.flusher? r.group = some r.id := by
      intro r hr
      rcases hc.flusher? with hsame | ⟨g, group, hg, hidle, -, hnew⟩
      · rw [hsame, hs.flusher r hr]
      · rw [hnew, if_neg (hs.ne_of_idle hg hidle hr), hs.flusher r hr]
    cases hc.loopOrigin hl with
    | kept hl => exact hkept l hl
    | @ticked r hr _ _ => exact hkept r hr
    | started _ _ hnew => exact hnew
  unique g g' id hg hg' := by
    rcases hc.flusher? with hsame | ⟨g₀, group, -, -, -, hnew⟩
    · rw [hsame] at hg hg'
      exact hs.unique g g' id hg hg'
    · -- a group with the new number is the one that got it, since no other has it
      have hfresh : ∀ g₁, h.flusher? g₁ ≠ some h.loopsStarted :=
        fun g₁ h₁ => absurd rfl (Nat.ne_of_lt (hs.below g₁ _ h₁))
      rw [hnew] at hg hg'
      split at hg
      · next h₁ =>
        split at hg'
        · next h₂ => rw [h₁, h₂]
        · rw [← hg] at hg'
          exact absurd hg' (hfresh g')
      · split at hg'
        · rw [← hg'] at hg
          exact absurd hg (hfresh g)
        · exact hs.unique g g' id hg hg'
  below g id hg := by
    rcases hc.flusher? with hsame | ⟨g₀, group, -, -, hstart, hnew⟩
    · exact Nat.lt_of_lt_of_le (hs.below g id (hsame g ▸ hg)) hc.loopsStarted_le
    · rw [hnew] at hg
      rw [hstart]
      split at hg
      · obtain rfl := Option.some.inj hg
        exact Nat.lt_succ_self _
      · exact Nat.lt_succ_of_lt (hs.below g id hg)

/-- A loop goes on as it is, or ticks, unless its bus is down or the runtime stops. -/
theorem loop_persists (hc : Change n h h') (hs : h.LoopsSound) {l : FlushLoop}
    (hl : l ∈ h.loops) :
    l ∈ h'.loops ∨ (l.tick h.now ∈ h'.loops ∧
      h'.journal = ⟨h.now, .ticked l.id l.group⟩ :: h.journal) ∨
      h.isDown l.group.bus = true ∨ ∀ t ∈ h'.tasks, t.orphaned = true := by
  cases hc with
  | close _ hok =>
    obtain ⟨bus, -, -, rfl⟩ := close_eq_ok hok
    exact .inl hl
  | publish _ hb =>
    obtain ⟨fate, buses, hframe⟩ := publish_frame hb
    rw [hframe]
    exact .inl hl
  | startLoop _ hidle =>
    left
    rw [ensureLoop_of_idle hidle]
    show l ∈ ite _ _ _
    split
    · exact List.mem_append_left _ hl
    · exact hl
  | cancel ha =>
    rw [cancel_of_active ha]
    exact .inl hl
  | @tick _ r hfound _ =>
    -- it is this loop that ticks, or another one
    by_cases hid : l.id = r.id
    · have hfound' := hs.loop?_of_mem hl
      rw [hid, hfound, Option.some.injEq] at hfound'
      subst hfound'
      exact .inr (.inl ⟨List.mem_map.mpr ⟨r, hl, if_pos rfl⟩, rfl⟩)
    · exact .inl (List.mem_map.mpr ⟨l, hl, if_neg hid⟩)
  | @halt _ r hfound hdown =>
    by_cases hid : l.id = r.id
    · have hfound' := hs.loop?_of_mem hl
      rw [hid, hfound, Option.some.injEq] at hfound'
      exact .inr (.inr (.inl (hfound' ▸ hdown)))
    · exact .inl (List.mem_filter.mpr ⟨hl, by simpa using hid⟩)
  | stop hnone => exact .inr (.inr (.inr hnone))
  | _ => exact .inl hl

end Change

namespace Host

/-- In every state that is reached loops are sound. -/
theorem Reached.loopsSound {h : Host} (hr : h.Reached) : h.LoopsSound := by
  refine hr.invariant (P := LoopsSound) ⟨by simp, by simp, ?_, ?_⟩ fun _ hs hc => hc.loopsSound hs
  · intro g g' id hg
    exact absurd hg (by simp [flusher?, group?, bus?])
  · intro g id hg
    exact absurd hg (by simp [flusher?, group?, bus?])

/-- Every task has an id that its group gave. -/
theorem Reached.given_of_mem {h : Host} (hr : h.Reached) : ∀ t ∈ h.tasks,
    ∃ kind, h.Given t.consumer kind := by
  refine hr.invariant (P := fun h => ∀ t ∈ h.tasks, ∃ kind, h.Given t.consumer kind) (by simp) ?_
  intro h h' n _ hgiven hc t ht
  have hkept : ∀ s ∈ h.tasks, s.Same t → ∃ kind, h'.Given t.consumer kind := by
    intro s hs hsame
    obtain ⟨kind, hg⟩ := hgiven s hs
    exact ⟨kind, hc.given (hsame.consumer ▸ hg)⟩
  cases hc.origin ht with
  | kept hs | left hs => exact hkept _ hs ⟨rfl, rfl, rfl, rfl⟩
  | @woken s hs => exact hkept s hs s.same_wake
  | stepped hs hstep => exact hkept _ hs hstep.same
  | @took s batch hs => exact hkept s hs (s.same_beginBatch batch)
  | @enrolled _ kind ha _ _ heq =>
    subst heq
    exact ⟨kind, given_attach ha⟩

/-- A task belongs to a bus that is there. -/
theorem Reached.hasBus_of_mem {h : Host} (hr : h.Reached) {t : Task} (ht : t ∈ h.tasks) :
    h.HasBus t.consumer.group.bus := by
  obtain ⟨kind, hgiven⟩ := hr.given_of_mem t ht
  exact hgiven.hasBus

/-- The id that a group has to give is that of no task. -/
theorem Reached.task?_of_nextId {h : Host} (hr : h.Reached) {c : ConsumerRef} {group : Group Event}
    (hg : h.group? c.group = some group) (hid : c.id = group.nextId) : h.task? c = none := by
  rw [← Option.not_isSome_iff_eq_none, Option.isSome_iff_exists]
  rintro ⟨t, ht⟩
  obtain ⟨kind, s, hs, -, hlt⟩ := hr.given_of_mem t (mem_of_task? ht)
  obtain ⟨kind', hs'⟩ := standing?_of_group? hg
  rw [consumer_of_task? ht, hs', Option.some.injEq] at hs
  rw [consumer_of_task? ht, ← hs, hid] at hlt
  exact absurd hlt (Nat.lt_irrefl _)

/-- **No group starves.** As long as its bus is up, whoever has a task has a loop for its group. -/
theorem Reached.served {h : Host} (hr : h.Reached) : ∀ t ∈ h.tasks, t.orphaned = false →
    h.isDown t.consumer.group.bus = false → ∃ l ∈ h.loops, l.group = t.consumer.group := by
  refine hr.invariant (P := fun h => ∀ t ∈ h.tasks, t.orphaned = false →
    h.isDown t.consumer.group.bus = false →
    ∃ l ∈ h.loops, l.group = t.consumer.group) (by simp) ?_
  intro h h' n hr hserved hc t ht hlive hup
  -- a task that was there was served
  have hkept : ∀ s ∈ h.tasks, s.Same t → s.orphaned = false → h.HasBus t.consumer.group.bus ∧
      (h.isDown t.consumer.group.bus = false → ∃ l ∈ h.loops, l.group = t.consumer.group) := by
    intro s hs hsame hattended
    rw [hsame.consumer]
    exact ⟨hr.hasBus_of_mem hs, hserved s hs hattended⟩
  have hbefore : h.HasBus t.consumer.group.bus ∧
      (h.isDown t.consumer.group.bus = false → ∃ l ∈ h.loops, l.group = t.consumer.group) := by
    cases hc.origin ht with
    | kept hs => exact hkept _ hs ⟨rfl, rfl, rfl, rfl⟩ hlive
    | @woken s hs => exact hkept s hs s.same_wake (s.orphaned_wake ▸ hlive)
    | stepped hs hstep => exact hkept _ hs hstep.same (hstep.orphaned ▸ hlive)
    | @took s batch hs =>
      exact hkept s hs (s.same_beginBatch batch) (s.orphaned_beginBatch batch ▸ hlive)
    | left => exact absurd hlive (by simp [Task.orphan])
    | enrolled ha _ hl _ => exact ⟨hasBus_of_isClosed ha.isOpen, fun _ => hl⟩
  have hup' : h.isDown t.consumer.group.bus = false := by
    rw [← Bool.not_eq_true]
    intro hdown
    rw [hc.isDown_mono hbefore.1 hdown] at hup
    exact absurd hup (by simp)
  obtain ⟨l, hl, hlg⟩ := hbefore.2 hup'
  -- the loop goes on, as the bus is up and there is a task
  rcases hc.loop_persists hr.loopsSound hl with hl | ⟨hl, -⟩ | hdown | hnone
  · exact ⟨l, hl, hlg⟩
  · exact ⟨_, hl, hlg⟩
  · rw [hlg, hup'] at hdown
    exact absurd hdown (by simp)
  · exact absurd (hlive.symm.trans (hnone t ht)) (by simp)

end Host

end EventBus
