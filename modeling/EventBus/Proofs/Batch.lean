import EventBus.Proofs.Failure
import EventBus.Proofs.Instant

/-!
# What comes of a batch

A handler is called with the events of a batch one after another, to the end or to the first on
which it panics (`Delivery`); other tasks, loops and commands may come in between as they like.
Where the handler does not go by what it is answered, `calls` and `outcome` say which events these
are and with what it panics, from the batch and the handler alone.
-/

set_option autoImplicit false

namespace EventBus

namespace Handler

variable (handler : Handler Action)

/-- Whether the handler does the same on an event whatever it is answered. -/
def Straight : Prop := ∀ event, ∀ a ∈ handler.react event, a.asks = false

/-- What the handler panics with on an event, if it does. -/
def panics? (event : Event) : Option Payload := (handler.react event).findSome? Action.panic?

/-- What the handler panics with on a batch: on the first event on which it panics. -/
def outcome (batch : List Event) : Option Payload := batch.findSome? handler.panics?

/-- The events of a batch that the handler is called with: all of them, or those up to the first on
which it panics. -/
def calls : List Event → List Event
  | [] => []
  | event :: rest => if (handler.panics? event).isSome then [event] else event :: calls rest

variable {handler} {made batch : List Event}

theorem outcome_append (xs ys : List Event) :
    handler.outcome (xs ++ ys) = (handler.outcome xs).or (handler.outcome ys) :=
  List.findSome?_append

theorem outcome_cons (event : Event) (rest : List Event) :
    handler.outcome (event :: rest) = (handler.panics? event).or (handler.outcome rest) := by
  rw [outcome, List.findSome?_cons]
  cases handler.panics? event <;> rfl

/-- A handler that panics on none of the events is called with all. -/
theorem calls_of_outcome (ho : handler.outcome batch = none) : handler.calls batch = batch := by
  induction batch with
  | nil => rfl
  | cons event rest ih =>
    rw [outcome_cons, Option.or_eq_none_iff] at ho
    rw [calls, ho.1, ih ho.2]
    rfl

/-- Who panicked on the last of the calls, if at all, made no call too many. -/
theorem prefix_calls (hp : made <+: batch) (ho : handler.outcome made.dropLast = none) :
    made <+: handler.calls batch := by
  induction made generalizing batch with
  | nil => exact List.nil_prefix
  | cons event made ih =>
    obtain ⟨rest, rfl⟩ := hp
    rw [List.cons_append, calls]
    cases made with
    | nil =>
      split
      · exact List.prefix_rfl
      · exact List.prefix_append [event] _
    | cons next made =>
      rw [List.dropLast_cons_cons, outcome_cons, Option.or_eq_none_iff] at ho
      rw [ho.1]
      exact List.cons_prefix_cons.mpr ⟨rfl, ih (List.prefix_append _ _) ho.2⟩

/-- Who panicked made all calls. -/
theorem calls_of_panicked (hp : made <+: batch) (ho : handler.outcome made.dropLast = none)
    {payload : Payload} (hpanic : handler.outcome made = some payload) :
    made = handler.calls batch ∧ handler.outcome batch = some payload := by
  obtain ⟨rest, rfl⟩ := hp
  refine ⟨?_, by rw [outcome_append, hpanic]; rfl⟩
  induction made with
  | nil => exact absurd hpanic (by simp [outcome])
  | cons event made ih =>
    rw [List.cons_append, calls]
    cases made with
    | nil =>
      rw [outcome_cons, outcome, List.findSome?_nil, Option.or_none] at hpanic
      rw [hpanic]
      rfl
    | cons next made =>
      rw [List.dropLast_cons_cons, outcome_cons, Option.or_eq_none_iff] at ho
      rw [outcome_cons, ho.1, Option.none_or] at hpanic
      rw [ho.1, ← ih ho.2 hpanic]
      rfl

end Handler

namespace Task

variable {t t' : Task} {said : Option Event} {calls : List Event}

/-- What the latest call of the handler comes to, if it is not over, or came to. -/
def panics? (t : Task) : Option Payload :=
  match t.phase with
  | .draining _ (some call) => call.todo.findSome? Action.panic?
  | .failed payload _ => some payload
  | _ => none

theorem panics?_beginBatch (t : Task) (batch : List Event) :
    (t.beginBatch batch).panics? = none := by
  unfold beginBatch
  split <;> rfl

/-- With a call begins what its event is to come to; no other step changes that, where the handler
does not go by answers. -/
theorem Stride.panics? (hs : t.All fun _ a => a.asks = false) (hg : t.Stride said t') :
    t'.panics? = t.panics?.or (said.bind t.handler.panics?) := by
  cases hg with
  | register hp | findNothing hp | park hp | resume hp => rw [Task.panics?, Task.panics?, hp]; rfl
  | take batch hp => rw [panics?_beginBatch, Task.panics?, hp]; rfl
  | @beginCall lent event rest hp =>
    have hnone : t.panics? = none := by rw [Task.panics?, hp]
    rw [hnone]
    cases lent <;> rfl
  | @act lent call a rest n asleep hp htodo ha hn =>
    have hno : a.asks = false := hs.todo lent call hp a (htodo ▸ List.mem_cons_self)
    obtain rfl : n = 0 := hn.resolve_right (by simp [hno])
    rw [Task.panics?, Task.panics?, hp]
    simp [continueCall, htodo, ha]
  | @awake lent call hp =>
    rw [Task.panics?, Task.panics?, hp]
    exact (Option.or_none).symm
  | fail hp htodo =>
    rw [Task.panics?, Task.panics?, hp]
    dsimp only
    rw [htodo]
    rfl
  | endCall hp htodo =>
    rw [Task.panics?, Task.panics?, hp]
    dsimp only
    rw [htodo]
    rfl
  | endBatch hp => rw [Task.panics?, Task.panics?, hp]; rfl

/-- No call of the task panicked but the latest, and that one comes to what the task says. The
handler does not go by answers. -/
structure Tally (t : Task) (calls : List Event) : Prop where
  straight : t.All fun _ a => a.asks = false
  earlier : t.handler.outcome calls.dropLast = none
  outcome : t.handler.outcome calls = t.panics?

theorem Tally.stride (ht : t.Tally calls) (hg : t.Stride said t') :
    t'.Tally (calls ++ said.toList) := by
  have hhandler : t'.handler = t.handler := hg.same.handler
  have hpanics := hg.panics? ht.straight
  cases said with
  | none =>
    rw [Option.bind_none, Option.or_none] at hpanics
    simp only [Option.toList_none, List.append_nil]
    exact ⟨ht.straight.stride hg, hhandler ▸ ht.earlier, by rw [hhandler, hpanics, ht.outcome]⟩
  | some event =>
    have hnone : t.panics? = none := by
      cases hg with
      | beginCall hp => rw [Task.panics?, hp]
    rw [Option.bind_some] at hpanics
    rw [Option.toList_some]
    refine ⟨ht.straight.stride hg, ?_, ?_⟩
    · rw [List.dropLast_concat, hhandler, ht.outcome, hnone]
    · rw [Handler.outcome_append, hhandler, ht.outcome, hpanics, Handler.outcome_cons]
      simp [Handler.outcome]

theorem Tally.orphan (ht : t.Tally calls) : t.orphan.Tally calls :=
  ⟨ht.straight.orphan, ht.earlier, ht.outcome⟩

/-- Of the calls since a moment at which nothing had panicked. -/
theorem Tally.since {made : List Event} (ht : t.Tally calls) (hnone : t.panics? = none)
    (ht' : t'.Tally (calls ++ made)) (hhandler : t'.handler = t.handler) :
    t.handler.outcome made.dropLast = none ∧ t.handler.outcome made = t'.panics? := by
  have hbefore : t.handler.outcome calls = none := ht.outcome.trans hnone
  refine ⟨?_, by rw [← ht'.outcome, hhandler, Handler.outcome_append, hbefore, Option.none_or]⟩
  rcases eq_or_ne made [] with rfl | hne
  · rfl
  · have hall := ht'.earlier
    rw [List.dropLast_append_of_ne_nil hne, hhandler, Handler.outcome_append, hbefore,
      Option.none_or] at hall
    exact hall

/-- The task is in the middle of a batch. -/
def Draining (t : Task) : Prop := ∃ lent call, t.phase = .draining lent call

theorem batch_of_not_draining (hd : ¬t.Draining) : t.batch = [] := by
  rw [batch]
  split
  · next hp => exact absurd ⟨_, _, hp⟩ hd
  · next hp => exact absurd ⟨_, _, hp⟩ hd
  · rfl

theorem panics?_of_calm (hd : ¬t.Draining) (hf : ¬t.Failed) : t.panics? = none := by
  rw [Task.panics?]
  split
  · next hp => exact absurd ⟨_, _, hp⟩ hd
  · next hp => exact absurd ⟨_, _, hp⟩ hf
  · rfl

/-- The handler is at no call, and none failed. -/
def Uncalled (t : Task) : Prop := (∀ lent call, t.phase ≠ .draining lent (some call)) ∧ ¬t.Failed

theorem Uncalled.wake (hu : t.Uncalled) : t.wake.Uncalled := by
  unfold Task.wake
  split
  · exact hu
  · exact hu

/-- Who calls nobody is at no call afterwards. -/
theorem Uncalled.stride (hu : t.Uncalled) (hg : t.Stride none t') : t'.Uncalled := by
  cases hg with
  | act _ _ hp | awake hp | fail hp | endCall hp => exact absurd hp (hu.1 _ _)
  | take batch =>
    unfold beginBatch
    split <;> simp [Uncalled, Failed]
  | _ => simp [Uncalled, Failed, register, enter, endBatch]

/-- What has come of the batch that `t` had, when its handler was called with `made` of it and `t`
has become `t'`. -/
structure Delivery (t : Task) (made : List Event) (t' : Task) : Prop where
  begins : made <+: t.batch
  -- When the batch is over the handler was called with all of it, or its last call panicked.
  through : ¬t'.Draining → t'.buffer = [] ∧ (t'.Failed ∨ made = t.batch)
  failed : ∀ payload caught, t'.phase = .failed payload caught →
    (∃ event early, made.getLast? = some event ∧ .panic payload early ∈ t.handler.react event) ∧
      (t.handler.profile.isBlocking = true ∨ t.handler.Deferred → caught = true)
  -- Where the handler does not go by answers, the batch alone tells which calls these are.
  straight : t.handler.Straight → made <+: t.handler.calls t.batch ∧
    (¬t'.Draining → made = t.handler.calls t.batch ∧
      ∀ payload, (∃ caught, t'.phase = .failed payload caught) ↔
        t.handler.outcome t.batch = some payload)

end Task

namespace Host

variable {h h' : Host} {c : ConsumerRef} {t t' : Task}

/-- **The calls of a handler panicked** at most at the end. -/
theorem Reachable.tally (hr : h.Reachable) :
    ∀ t ∈ h.tasks, t.handler.Straight → t.Tally (h.journal.delivered t.consumer) := by
  refine hr.of_strides (P := fun t calls => t.handler.Straight → t.Tally calls)
    (fun {t} hready _ hs => ⟨⟨hs, by simp [hready]⟩, rfl, ?_⟩) (fun {t _} ht hs => ?_)
    (fun ht hs => (ht hs).orphan) fun ht hg hs => (ht (hg.same.handler ▸ hs)).stride hg
  · rw [Task.panics?, hready]
    rfl
  · have hpanics : t.wake.panics? = t.panics? := by
      rw [Task.panics?, Task.panics?, Task.phase_wake]
    have hhandler : t.wake.handler = t.handler := t.same_wake.handler
    obtain ⟨hstraight, hearlier, houtcome⟩ := ht (hhandler ▸ hs)
    exact ⟨hstraight.wake, by rw [hhandler]; exact hearlier,
      by rw [hhandler, hpanics]; exact houtcome⟩

/-! ## While a batch is at hand -/

theorem Reached.subscriber_of_task (hr : h.Reached) (ht : h.task? c = some t) :
    c ∈ h.journal.subscribers := by
  obtain ⟨kind, hsub, -⟩ := hr.known_of_task? ht
  exact Journal.mem_subscribers_iff.mpr (by rw [hsub]; rfl)

end Host

open Host

variable {h h' : Host} {c : ConsumerRef} {t t' : Task}

theorem Change.keeps_subscriber {n : Nature} (hc : Change n h h') (hs : c ∈ h.journal.subscribers) :
    c ∈ h'.journal.subscribers := by
  rcases hc.subscribers with hsame | ⟨_, _, _, hnew⟩
  · rw [hsame]
    exact hs
  · rw [hnew]
    exact List.mem_cons_of_mem _ hs

theorem Changes.keeps_subscriber {ns : Nature → Prop} (hc : Changes ns h h')
    (hs : c ∈ h.journal.subscribers) : c ∈ h'.journal.subscribers :=
  hc.keeps (P := fun m => c ∈ m.journal.subscribers)
    (fun hchange hsub => hchange.keeps_subscriber hsub) hs

/-- A task keeps its handler, as long as it is there. -/
theorem Change.handler {n : Nature} (hc : Change n h h') (hr : h.Reached)
    (hs : c ∈ h.journal.subscribers) (ht' : h'.task? c = some t') :
    ∃ t, h.task? c = some t ∧ t'.handler = t.handler := by
  have hknown := hr.known_of_subscriber hs
  cases hc.life hr c with
  | apart _ _ hsame | heard _ _ _ _ hsame | unheard _ _ _ _ hsame | closed _ hsame
  | cancelled _ _ _ hsame => exact ⟨t', hsame.symm.trans ht', rfl⟩
  | ticked _ hwoken =>
    obtain ⟨t, ht, rfl⟩ := Option.map_eq_some_iff.mp (hwoken.symm.trans ht')
    exact ⟨t, ht, t.same_wake.handler⟩
  | enrolled hcons ha | stillborn hcons ha => exact (hknown.not_admissible hcons ha).elim
  | stepped ht hstep _ hnext =>
    obtain rfl := Option.some.inj (hnext.symm.trans ht')
    exact ⟨_, ht, hstep.same.handler⟩
  | @took t s ht _ _ _ _ hnext =>
    obtain rfl := Option.some.inj (hnext.symm.trans ht')
    exact ⟨t, ht, (t.same_beginBatch s.queue).handler⟩
  | @leftJob t ht _ _ _ hjob =>
    obtain rfl := Option.some.inj (hjob.symm.trans ht')
    exact ⟨t, ht, rfl⟩
  | finished _ _ _ hnone | jobOver _ _ _ hnone => exact absurd (hnone.symm.trans ht') (by simp)

theorem Changes.handler (hc : Changes (fun _ => True) h h') (hr : h.Reached)
    (ht : h.task? c = some t) : ∀ t', h'.task? c = some t' → t'.handler = t.handler := by
  have hall := hc.keeps (P := fun m => m.Reached ∧ c ∈ m.journal.subscribers ∧
      ∀ t', m.task? c = some t' → t'.handler = t.handler)
    (fun hchange ⟨hr, hs, hsame⟩ => by
      refine ⟨hr.change hchange, hchange.keeps_subscriber hs, fun t' ht' => ?_⟩
      obtain ⟨s, hs', hhandler⟩ := hchange.handler hr hs ht'
      exact hhandler.trans (hsame s hs'))
    ⟨hr, hr.subscriber_of_task ht, fun t' ht' => by rw [Option.some.inj (ht.symm.trans ht')]⟩
  exact hall.2.2

namespace Host

/-- Whose handler is at a call, or failed in one, was called since it was at none. -/
theorem Run.called {us : List Turn} (run : Run h us h') {before : List Event} :
    h.Reachable → c ∈ h.journal.subscribers → before <+: h.journal.delivered c →
    (∀ t, h.task? c = some t → t.Uncalled ∨ h.journal.delivered c ≠ before) →
    ∀ t', h'.task? c = some t' → t'.Uncalled ∨ h'.journal.delivered c ≠ before := by
  induction run with
  | nil h => exact fun _ _ _ hall => hall
  | @cons h m h' u us hu _ ih =>
    intro hr hsub hbefore hall
    have hchanges := (Run.single hu).changes hr.reached
    have hm := hr.run (.single hu)
    have hgrows : h.journal.delivered c <+: m.journal.delivered c :=
      Journal.delivered_prefix hchanges.journal_suffix
    refine ih hm (hchanges.keeps_subscriber hsub) (hbefore.trans hgrows) fun s hs => ?_
    obtain rfl := consumer_of_task? hs
    cases turn?_descends hu s (mem_of_task? hs) with
    | kept ht hsame =>
      rw [hsame]
      exact hall s (hr.reached.paired.task?_of_mem ht)
    | @woken t ht heq hsame =>
      rw [hsame]
      rw [heq, Task.consumer_wake] at hall ⊢
      exact (hall t (hr.reached.paired.task?_of_mem ht)).imp_left Task.Uncalled.wake
    | @left t ht heq hsame =>
      rw [hsame]
      rw [heq] at hall ⊢
      exact hall t (hr.reached.paired.task?_of_mem ht)
    | @gone t said ht hg hsaid =>
      rw [hg.same.consumer] at hsaid hall hbefore ⊢
      cases said with
      | none =>
        rw [Option.toList_none, List.append_nil] at hsaid
        rw [hsaid]
        exact (hall t (hr.reached.paired.task?_of_mem ht)).imp_left (·.stride hg)
      | some event =>
        -- the handler is called by this very turn
        refine .inr fun hsame => ?_
        have hless := hbefore.length_le
        rw [← hsame, hsaid, List.length_append] at hless
        exact absurd hless (by simp)
    | new _ _ hnew => exact absurd hsub (not_mem_subscribers_of_new hm.reached hnew)

/-- **What comes of a batch**, as long as it is at hand and until the next one. -/
theorem Reachable.delivery (hr : h.Reachable) (ht : h.task? c = some t)
    {lent : Option (List Event)} (hp : t.phase = .draining lent none) {us : List Turn}
    (run : Run h us h') (htaken : h'.journal.taken c = h.journal.taken c)
    (ht' : h'.task? c = some t') :
    ∃ made, h'.journal.delivered c = h.journal.delivered c ++ made ∧ t.Delivery made t' := by
  have hreached := hr.reached
  have hchanges := run.changes hreached
  have hr' := hr.run run
  have hhandler : t'.handler = t.handler := hchanges.handler hreached ht t' ht'
  obtain ⟨made, hmade⟩ := Journal.delivered_prefix (c := c) hchanges.journal_suffix
  -- what was taken before is what was handed over before, and the batch
  obtain ⟨hdelivered, htaken'⟩ := hr'.reached.balance ht'
  have hbatch := (hreached.balance ht).2 (by rintro ⟨payload, caught, hf⟩; simp [hp] at hf)
  have hbegins : made <+: t.batch := by
    rw [htaken, ← hbatch, ← hmade] at hdelivered
    exact (List.prefix_append_right_inj _).mp hdelivered
  have hwhole : ¬t'.Draining → ¬t'.Failed → made = t.batch := fun hthrough hf => by
    have hbatch' := htaken' hf
    rw [Task.batch_of_not_draining hthrough, List.append_nil, htaken, ← hbatch, ← hmade] at hbatch'
    exact List.append_cancel_left hbatch'
  refine ⟨made, hmade.symm, hbegins, fun hthrough => ⟨?_, ?_⟩, fun payload caught hphase => ?_,
    fun hs => ?_⟩
  · exact hr'.reached.bufferClear t' (mem_of_task? ht')
      fun call hphase => hthrough ⟨none, call, hphase⟩
  · by_cases hf : t'.Failed
    · exact .inl hf
    · exact .inr (hwhole hthrough hf)
  · obtain ⟨event, early, hlast, hpanic, -⟩ :=
      (hr'.sound t' (mem_of_task? ht')).failed payload caught hphase
    rw [consumer_of_task? ht', ← hmade] at hlast
    rw [hhandler] at hpanic
    refine ⟨⟨event, early, ?_, hpanic⟩, fun hd => hr'.caught ht' hphase (hhandler ▸ hd)⟩
    -- the call that failed is one of this batch
    have hcalled := run.called hr (hreached.subscriber_of_task ht) List.prefix_rfl
      (fun s hs => .inl ?_) t' ht'
    · have hnot : ¬t'.Uncalled := fun hu => hu.2 ⟨payload, caught, hphase⟩
      have hne : made ≠ [] := fun hnil => hcalled.resolve_left hnot (by simp [← hmade, hnil])
      rwa [List.getLast?_append_of_ne_nil _ hne] at hlast
    · obtain rfl := Option.some.inj (ht.symm.trans hs)
      exact ⟨by simp [hp], by rintro ⟨_, _, hf⟩; simp [hp] at hf⟩
  · have htally := hr.tally t (mem_of_task? ht) hs
    have htally' := hr'.tally t' (mem_of_task? ht') (hhandler ▸ hs)
    rw [consumer_of_task? ht] at htally
    rw [consumer_of_task? ht', ← hmade] at htally'
    obtain ⟨hearlier, houtcome⟩ := htally.since (by rw [Task.panics?, hp]) htally' hhandler
    refine ⟨Handler.prefix_calls hbegins hearlier, fun hthrough => ?_⟩
    by_cases hf : t'.Failed
    · obtain ⟨payload, caught, hphase⟩ := hf
      rw [Task.panics?, hphase] at houtcome
      obtain ⟨hcalls, hout⟩ := Handler.calls_of_panicked hbegins hearlier houtcome
      refine ⟨hcalls, fun payload' => ?_⟩
      rw [hphase, hout]
      simp
    · obtain rfl := hwhole hthrough hf
      rw [Task.panics?_of_calm hthrough hf] at houtcome
      refine ⟨(Handler.calls_of_outcome houtcome).symm, fun payload => ?_⟩
      rw [houtcome]
      exact ⟨fun ⟨caught, hphase⟩ => absurd ⟨payload, caught, hphase⟩ hf,
        fun hout => absurd hout (by simp)⟩

end Host

end EventBus
