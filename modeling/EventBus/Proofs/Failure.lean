import EventBus.Proofs.Descent

/-!
# A task that failed had a handler that panicked

The journal has the events that a handler was called with. As long as a call is on, it is the latest
one, and what is left of it is some of what the handler does on its event. So a task fails only if
there is a panic in what its handler does on the event of the latest call, and the panic is caught
if the handler blocks or has returned its future by then. What is entered when such a task ends is
therefore true.
-/

set_option autoImplicit false

namespace EventBus

namespace Task

/-- What is to know of a task from the calls of its handler so far. -/
structure Sound (t : Task) (calls : List Event) : Prop where
  calling : ∀ lent call, t.phase = .draining lent (some call) →
    calls.getLast? = some call.event ∧ ∀ a ∈ call.todo, a ∈ t.handler.react call.event
  -- Who is blocked by its handler lends its batch, and nobody else does.
  lends : ∀ lent call, t.phase = .draining lent call → lent.isSome = t.handler.profile.isBlocking
  failed : ∀ payload caught, t.phase = .failed payload caught →
    ∃ event early, calls.getLast? = some event ∧ .panic payload early ∈ t.handler.react event ∧
      caught = (t.handler.profile.isBlocking || !early)

namespace Sound

variable {t t' : Task} {calls : List Event} {said : Option Event}

theorem of_calm (hdraining : ∀ lent call, t.phase ≠ .draining lent call)
    (hfailed : ∀ payload caught, t.phase ≠ .failed payload caught) : t.Sound calls where
  calling lent _ hp := absurd hp (hdraining lent _)
  lends lent call hp := absurd hp (hdraining lent call)
  failed payload caught hp := absurd hp (hfailed payload caught)

theorem wake (hs : t.Sound calls) : t.wake.Sound calls := by
  unfold Task.wake
  split
  · exact ⟨hs.calling, hs.lends, hs.failed⟩
  · exact hs

theorem orphan (hs : t.Sound calls) : t.orphan.Sound calls := ⟨hs.calling, hs.lends, hs.failed⟩

/-- Who is between two calls has nothing to do but to lend its batch as before. -/
theorem between {lent : Option (List Event)} (hp : t.phase = .draining lent none)
    (hlends : lent.isSome = t.handler.profile.isBlocking) : t.Sound calls where
  calling lent' call hp' := absurd (hp.symm.trans hp') (by simp)
  lends lent' call hp' := by
    obtain ⟨rfl, -⟩ : lent = lent' ∧ none = call := by simpa using hp.symm.trans hp'
    exact hlends
  failed payload caught hp' := absurd (hp.symm.trans hp') (by simp)

/-- Who goes on with a call does what was left of it, or less. -/
theorem within {lent : Option (List Event)} {call : Call}
    (hp : t.phase = .draining lent (some call)) (hlast : calls.getLast? = some call.event)
    (htodo : ∀ a ∈ call.todo, a ∈ t.handler.react call.event)
    (hlends : lent.isSome = t.handler.profile.isBlocking) : t.Sound calls where
  calling lent' call' hp' := by
    obtain ⟨-, rfl⟩ : lent = lent' ∧ call = call' := by simpa using hp.symm.trans hp'
    exact ⟨hlast, htodo⟩
  lends lent' call' hp' := by
    obtain ⟨rfl, -⟩ : lent = lent' ∧ some call = call' := by simpa using hp.symm.trans hp'
    exact hlends
  failed payload caught hp' := absurd (hp.symm.trans hp') (by simp)

theorem stride (hs : t.Sound calls) (hg : t.Stride said t') : t'.Sound (calls ++ said.toList) := by
  cases hg with
  | register | findNothing | park | resume | endBatch =>
    exact .of_calm (by simp [register, enter, endBatch]) (by simp [register, enter, endBatch])
  | take batch hp =>
    unfold beginBatch
    split
    · next hblocks => exact .between rfl hblocks.symm
    · next hblocks => exact .between rfl (by simpa using hblocks)
  | @beginCall lent event rest hp =>
    have hlends := hs.lends lent none hp
    cases lent <;> exact .within rfl List.getLast?_concat (fun _ ha => ha) hlends
  | @act lent call a rest n asleep hp htodo =>
    obtain ⟨hlast, hreact⟩ := hs.calling lent call hp
    refine .within rfl ?_ (fun b hb => hreact b ?_) (hs.lends lent _ hp)
    · simpa using hlast
    · rw [htodo]
      exact List.mem_cons_of_mem a (List.mem_of_mem_drop hb)
  | @awake lent call hp =>
    obtain ⟨hlast, hreact⟩ := hs.calling lent call hp
    exact .within rfl (by simpa using hlast) hreact (hs.lends lent _ hp)
  | @fail lent call payload early rest hp htodo =>
    obtain ⟨hlast, hreact⟩ := hs.calling lent call hp
    refine ⟨by simp [fail], by simp [fail], fun payload' caught hphase => ?_⟩
    -- the panic is one of the things that the handler does on the event of the call
    obtain ⟨rfl, rfl⟩ : payload = payload' ∧ (lent.isSome || !early) = caught := by
      simpa [fail] using hphase
    refine ⟨call.event, early, by simpa using hlast, hreact _ ?_, ?_⟩
    · rw [htodo]
      exact List.mem_cons_self
    · rw [hs.lends lent _ hp]
      rfl
  | @endCall lent call hp => exact .between rfl (hs.lends lent _ hp)

end Sound

end Task

/-- **Every task is as its calls say.** -/
theorem Host.Reachable.sound {h : Host} (hr : h.Reachable) :
    ∀ t ∈ h.tasks, t.Sound (h.journal.delivered t.consumer) :=
  hr.of_strides (P := Task.Sound) (fun hready _ => .of_calm (by simp [hready]) (by simp [hready]))
    Task.Sound.wake Task.Sound.orphan Task.Sound.stride

/-- A panic is caught if the handler blocks, or does all it does within the futures of its calls. -/
theorem Host.Reachable.caught {h : Host} {c : ConsumerRef} {t : Task} {payload : Payload}
    {caught : Bool} (hr : h.Reachable) (ht : h.task? c = some t)
    (hp : t.phase = .failed payload caught)
    (hd : t.handler.profile.isBlocking = true ∨ t.handler.Deferred) : caught = true := by
  obtain ⟨event, early, -, hpanic, rfl⟩ := (hr.sound t (mem_of_task? ht)).failed payload caught hp
  rcases hd with hblocks | hdeferred
  · rw [hblocks, Bool.true_or]
  · obtain rfl : early = false := hdeferred event _ hpanic
    exact Bool.or_true _

end EventBus
