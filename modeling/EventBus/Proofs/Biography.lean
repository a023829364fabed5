import EventBus.Proofs.Progress
import EventBus.Proofs.Subscribers

/-!
# The life of a consumer in the journal

What the journal has about a consumer begins with its subscription. Its task, its handler, the flush
loops and whoever cancels it enter what they do in any order, but nothing of that after the end of
the consumer, which is entered when its task ends or is dropped; only when it was dropped, and has
left a job, more may come of the handler. `Biography` says so, and how often the consumer was
cancelled; it is kept by everything that happens in a turn.
-/

set_option autoImplicit false

namespace EventBus

namespace Happening

/-- What a handler does on its own. It is entered only while its task is there, or a job of that. -/
def isRemark : Happening → Bool
  | acted .. | slept .. | reported .. => true
  | _ => false

/-- Whether a task ended by itself. -/
def isExit : Happening → Bool
  | stopped .. | panicked .. => true
  | _ => false

/-- What a handler is called with, and what it does on its own. -/
def isOfHandler : Happening → Bool
  | called .. | acted .. | slept .. | reported .. => true
  | _ => false

theorem isRemark_of_isRoutine {x : Happening} (hx : x.isRoutine = true) : x.isRemark = false := by
  cases x <;> first | rfl | exact absurd hx (by simp [isRoutine])

theorem subject_eq_consumer {x : Happening} {c : ConsumerRef} :
    x.subject = .consumer c ↔ x.who? = some c := by
  refine ⟨fun hs => ?_, subject_of_who?⟩
  unfold subject at hs
  split at hs
  · next d hd => rw [hd, Subject.consumer.inj hs]
  · split at hs <;> exact absurd hs (by simp)

theorem who?_ne_of_foreign {x : Happening} {c : ConsumerRef} (hx : x.concerns c = false)
    (hr : x.isRemark = false) : x.who? ≠ some c := by
  intro hw
  cases x <;> simp_all [concerns, isRemark, who?]

end Happening

namespace Journal

variable {j : Journal} {c : ConsumerRef}

theorem about_of_who? (news : Journal) (hn : ∀ x ∈ news, x.what.who? ≠ some c) :
    about (news ++ j) (.consumer c) = j.about (.consumer c) := by
  have hnone : news.about (.consumer c) = [] := by
    rw [about, List.filter_eq_nil_iff]
    intro x hx
    simp [Happening.subject_eq_consumer, hn x hx]
  rw [about_append, hnone, List.nil_append]

theorem about_cons_own {x : Entry} (hw : x.what.who? = some c) (hx : x.what.counts = true) :
    about (x :: j) (.consumer c) = x :: j.about (.consumer c) := by
  apply List.filter_cons_of_pos
  simp [hx, Happening.subject_of_who? hw]

theorem mem_of_mem_about {x : Entry} {s : Subject} (hx : x ∈ j.about s) : x ∈ j :=
  List.mem_of_mem_filter hx

/-- `j` begins with the subscription of `c`, and has no other subscription and no end of `c`. -/
def Lives (j : Journal) (c : ConsumerRef) : Prop :=
  ∃ (life : Journal) (birth : Entry), j = life ++ [birth] ∧ birth.what.subscriber? = some c ∧
    ∀ x ∈ life, x.what.subscriber? = none ∧ x.what.ends c = false

theorem Lives.append (hj : j.Lives c) (news : Journal)
    (hn : ∀ x ∈ news, x.what.subscriber? = none ∧ x.what.ends c = false) :
    Lives (news ++ j) c := by
  obtain ⟨life, birth, rfl, hbirth, hlife⟩ := hj
  refine ⟨news ++ life, birth, (List.append_assoc ..).symm, hbirth, ?_⟩
  intro x hx
  rcases List.mem_append.mp hx with hx | hx
  · exact hn x hx
  · exact hlife x hx

/-- Whose life is told subscribed. -/
theorem Lives.subscriber {j' : Journal} (hj : j.Lives c) (hsub : ∀ x ∈ j, x ∈ j') :
    c ∈ j'.subscribers := by
  obtain ⟨life, birth, rfl, hbirth, -⟩ := hj
  exact List.mem_filterMap.mpr ⟨birth, hsub birth (by simp), hbirth⟩

/-- How often `c` was cancelled. -/
def cancellations (j : Journal) (c : ConsumerRef) : Nat := j.countP (·.what.cancels c)

theorem cancellations_append (news : Journal) (hn : ∀ x ∈ news, x.what.cancels c = false) :
    cancellations (news ++ j) c = j.cancellations c := by
  have hnone : news.countP (·.what.cancels c) = 0 := by
    rw [List.countP_eq_zero]
    intro x hx
    simp [hn x hx]
  rw [cancellations, List.countP_append, hnone, Nat.zero_add, cancellations]

end Journal

namespace Host

/-- What counts in the journal about a consumer: nothing as long as it did not subscribe; its
subscription and what follows, without an end, as long as its task is there; and the same with its
end after that, when it is gone. Nothing follows the end of a task that ended by itself; one that
was dropped may have left a job, in which its handler goes on. The consumer is cancelled at most
once, and was cancelled exactly if its slot is stopped. -/
inductive Biography (h : Host) (c : ConsumerRef) : Prop
  | unborn : h.task? c = none → h.slot? c = none → h.journal.about (.consumer c) = [] →
      Biography h c
  | alive (stopped : Bool) : h.hasTask c = true →
      (h.slot? c).map (·.stopped) = some stopped → (h.journal.about (.consumer c)).Lives c →
      (h.journal.about (.consumer c)).cancellations c = stopped.toNat → Biography h c
  | gone (after : Journal) {last : Entry} {before : Journal} :
      h.hasTask c = false → h.slot? c = none →
      h.journal.about (.consumer c) = after ++ last :: before → last.what.ends c = true →
      before.Lives c → before.cancellations c ≤ 1 → (∀ x ∈ after, x.what.isOfHandler = true) →
      (last.what.isExit = true → h.task? c = none ∧ after = []) → Biography h c

variable {h h' : Host} {c : ConsumerRef}

theorem hasTask_congr (ht : (h'.task? c).map (·.orphaned) = (h.task? c).map (·.orphaned)) :
    h'.hasTask c = h.hasTask c := by
  have hmap : ∀ h : Host, h.hasTask c = ((h.task? c).map (·.orphaned)).any (!·) := by
    intro h
    rw [hasTask, Option.any_map]
  rw [hmap, hmap, ht]

theorem Biography.of_same (hb : h.Biography c)
    (hj : h'.journal.about (.consumer c) = h.journal.about (.consumer c))
    (ht : (h'.task? c).map (·.orphaned) = (h.task? c).map (·.orphaned))
    (hs : (h'.slot? c).map (·.stopped) = (h.slot? c).map (·.stopped)) : h'.Biography c := by
  have hnotask : h.task? c = none → h'.task? c = none := by
    intro hnone
    rw [hnone, Option.map_none] at ht
    exact Option.map_eq_none_iff.mp ht
  have hnoslot : h.slot? c = none → h'.slot? c = none := by
    intro hnone
    rw [hnone, Option.map_none] at hs
    exact Option.map_eq_none_iff.mp hs
  have hhas := hasTask_congr ht
  cases hb with
  | unborn htask hslot habout =>
    exact .unborn (hnotask htask) (hnoslot hslot) (hj.trans habout)
  | alive stopped htask hslot hlives hcount =>
    exact .alive stopped (hhas.trans htask) (hs.trans hslot) (by rwa [hj]) (by rwa [hj])
  | gone after htask hslot habout hends hlives hcount hafter hexit =>
    exact .gone after (hhas.trans htask) (hnoslot hslot) (hj.trans habout) hends hlives hcount
      hafter fun he => (hexit he).imp_left hnotask

/-- Entries by which the life of a consumer goes on, or only the job that its task has left. -/
theorem Biography.goes_on (hb : h.Biography c) (news : Journal)
    (htask : (h.task? c).isSome = true) (hj : h'.journal = news ++ h.journal)
    (ht : (h'.task? c).map (·.orphaned) = (h.task? c).map (·.orphaned))
    (hs : (h'.slot? c).map (·.stopped) = (h.slot? c).map (·.stopped))
    (hn : ∀ x ∈ news, x.what.subscriber? = none ∧ x.what.ends c = false ∧
      x.what.cancels c = false)
    (hjob : h.hasTask c = false → ∀ x ∈ news, x.what.isOfHandler = true) : h'.Biography c := by
  have hhas := hasTask_congr ht
  cases hb with
  | unborn hnone => exact absurd htask (by simp [hnone])
  | gone after hnot hslot habout hends hlives hcount hafter hexit =>
    rw [hslot, Option.map_none] at hs
    -- only the job is left, so only its handler can add to the record
    refine .gone (news.about (.consumer c) ++ after) (hhas.trans hnot)
      (Option.map_eq_none_iff.mp hs) ?_ hends hlives hcount ?_ ?_
    · rw [hj, Journal.about_append, habout, List.append_assoc]
    · intro x hx
      rcases List.mem_append.mp hx with hx | hx
      · exact hjob hnot x (Journal.mem_of_mem_about hx)
      · exact hafter x hx
    · intro he
      exact absurd htask (by simp [(hexit he).1])
  | alive stopped halive hslot hlives hcount =>
    refine .alive stopped (hhas.trans halive) (hs.trans hslot) ?_ ?_
    · rw [hj, Journal.about_append]
      apply hlives.append
      intro x hx
      obtain ⟨hsub, hends, -⟩ := hn x (Journal.mem_of_mem_about hx)
      exact ⟨hsub, hends⟩
    · rw [hj, Journal.about_append, Journal.cancellations_append, hcount]
      intro x hx
      exact (hn x (Journal.mem_of_mem_about hx)).2.2

/-- Whose task is there has not ended. -/
theorem Biography.of_hasTask (hb : h.Biography c) (htask : h.hasTask c = true) :
    ∃ stopped, (h.slot? c).map (·.stopped) = some stopped ∧
      (h.journal.about (.consumer c)).Lives c ∧
      (h.journal.about (.consumer c)).cancellations c = stopped.toNat := by
  cases hb with
  | unborn hnone => exact absurd htask (by simp [hasTask, hnone])
  | alive stopped _ hslot hlives hcount => exact ⟨stopped, hslot, hlives, hcount⟩
  | gone _ hnot => exact absurd (hnot.symm.trans htask) (by simp)

/-- The life of a consumer ends with the end of its task. -/
theorem Biography.ended (hb : h.Biography c) (htask : h.hasTask c = true) {last : Entry}
    (hj : h'.journal.about (.consumer c) = last :: h.journal.about (.consumer c))
    (hends : last.what.ends c = true) (hgone : h'.hasTask c = false) (hs : h'.slot? c = none)
    (hexit : last.what.isExit = true → h'.task? c = none) : h'.Biography c := by
  obtain ⟨stopped, -, hlives, hcount⟩ := hb.of_hasTask htask
  exact .gone [] hgone hs hj hends hlives (hcount ▸ stopped.toNat_le) (by simp)
    fun he => ⟨hexit he, rfl⟩

/-- A consumer whose slot is not stopped was not cancelled before. -/
theorem Biography.cancelled (hb : h.Biography c) {s : Slot Event} (hslot : h.slot? c = some s)
    (hlive : s.stopped = false) (ht : h'.task? c = h.task? c) (hs : h'.slot? c = some s.stop)
    (hj : h'.journal = ⟨h.now, .unsubscribed c⟩ :: h.journal) : h'.Biography c := by
  cases hb with
  | unborn _ hnone => exact absurd (hnone.symm.trans hslot) (by simp)
  | gone _ _ hnone => exact absurd (hnone.symm.trans hslot) (by simp)
  | @alive stopped htask hstopped hlives hcount =>
    obtain rfl : stopped = false := by
      rw [hslot, Option.map_some, hlive] at hstopped
      exact (Option.some.inj hstopped).symm
    have hall : h'.journal.about (.consumer c) =
        ⟨h.now, .unsubscribed c⟩ :: h.journal.about (.consumer c) := by
      rw [hj, Journal.about_cons_own rfl rfl]
    refine .alive true ((hasTask_congr (by rw [ht])).trans htask) (by rw [hs]; rfl) ?_ ?_ <;>
      rw [hall]
    · exact hlives.append [_] (by simp [Happening.subscriber?, Happening.ends])
    · rw [Journal.cancellations, List.countP_cons_of_pos (by simp [Happening.cancels])]
      exact congrArg (· + 1) hcount

/-- Of whom anything is told subscribed. -/
theorem Biography.subscriber (hb : h.Biography c) (hc : h.journal.about (.consumer c) ≠ []) :
    c ∈ h.journal.subscribers := by
  cases hb with
  | unborn _ _ habout => exact absurd habout hc
  | alive _ _ _ hlives => exact hlives.subscriber fun x hx => Journal.mem_of_mem_about hx
  | gone _ _ _ habout _ hlives =>
    exact hlives.subscriber fun x hx => Journal.mem_of_mem_about
      (habout ▸ List.mem_append_right _ (List.mem_cons_of_mem _ hx))

/-- Nothing was told of a consumer that is put in line for the first time. -/
theorem Biography.unborn_of_admissible (hb : h.Biography c) (hr : h.Reached) {t : Task}
    (ht : t.consumer = c) {kind : Kind} (ha : h.Admissible t kind) :
    h.journal.about (.consumer c) = [] := by
  by_contra hc
  exact (hr.known_of_subscriber (hb.subscriber hc)).not_admissible ht ha

end Host

open Host

namespace Task

variable {t t' : Task} {slot : Option (Slot Event)} {n : Nature} {said : Option Happening}

/-- By what a task does to nothing but itself, its consumer's life goes on. -/
theorem Step.goes_on (hs : t.Step slot n t' said) (c : ConsumerRef) :
    ∀ what ∈ said, what.subscriber? = none ∧ what.ends c = false ∧ what.cancels c = false := by
  cases hs <;> simp [Happening.subscriber?, Happening.ends, Happening.cancels]

/-- A job that is left does nothing but what its handler does. -/
theorem Step.of_orphaned (hs : t.Step slot n t' said) (ht : t.KeepsJob)
    (horphan : t.orphaned = true) : ∀ what ∈ said, what.isOfHandler = true := by
  have hdraining : ∀ {p : Prop}, (∀ lent call, t.phase ≠ .draining lent call) → p := by
    intro p hp
    exact absurd (horphan.symm.trans (ht.attended hp)) (by simp)
  cases hs with
  | register hp | findNothing hp | park hp | resume hp => exact hdraining (by simp [hp])
  | endBatch _ _ hlive | fail _ hlive => exact absurd (horphan.symm.trans hlive) (by simp)
  | beginCall => simp [Happening.isOfHandler]
  | work | endCall => simp

end Task

namespace Change

variable {n : Nature} {h h' : Host} {c : ConsumerRef}

theorem ends_of_ending {t : Task} {what : Happening} (he : h.Ending t n what) :
    what.ends t.consumer = true ∧ what.who? = some t.consumer ∧ what.counts = true := by
  cases he <;> simp [Happening.ends, Happening.who?, Happening.counts]

/-- A change by which no handler remarks anything. -/
theorem biography (hc : Change n h h') (hr : h.Reached) (hb : h.Biography c)
    (hquiet : ∀ news, h'.journal = news ++ h.journal → ∀ x ∈ news, x.what.isRemark = false) :
    h'.Biography c := by
  -- an entry about others leaves the record of the consumer as it was
  have hother : ∀ {x : Entry}, h'.journal = x :: h.journal → x.what.who? ≠ some c →
      h'.journal.about (.consumer c) = h.journal.about (.consumer c) := by
    intro x hj hw
    rw [hj]
    exact Journal.about_of_who? [x] (by simpa using hw)
  cases hc.life hr c with
  | apart news hs ht hj hforeign =>
    refine hb.of_same ?_ (by rw [ht]) (by rw [hs])
    rw [hj]
    apply Journal.about_of_who?
    intro x hx
    exact Happening.who?_ne_of_foreign (hforeign x hx) (hquiet news hj x hx)
  | heard _ _ _ hs ht hj =>
    refine hb.of_same (hother hj (by simp [Happening.who?])) (by rw [ht]) ?_
    rw [hs, Option.map_map]
    simp only [Function.comp_def, Slot.accept_stopped]
  | unheard _ _ _ hs ht hj | closed hs ht hj =>
    exact hb.of_same (hother hj (by simp [Happening.who?])) (by rw [ht]) (by rw [hs])
  | ticked hs ht hj =>
    refine hb.of_same (hother hj (by simp [Happening.who?])) ?_ (by rw [hs])
    rw [ht, Option.map_map]
    simp only [Function.comp_def, Task.orphaned_wake]
  -- a consumer that is enrolled had no record yet
  | enrolled hcons ha _ hs ht hj =>
    have habout := hb.unborn_of_admissible hr hcons ha
    subst hcons
    refine .alive false (by rw [hasTask_of_task? ht, ha.attended]; rfl) (by rw [hs]; rfl) ?_ ?_ <;>
      rw [hj, Journal.about_cons_own rfl rfl, habout]
    · exact ⟨[], _, rfl, rfl, by simp⟩
    · rfl
  | @stillborn t kind hcons ha _ hs ht hj =>
    have habout := hb.unborn_of_admissible hr hcons ha
    subst hcons
    -- the whole record of one that is refused by a stopped runtime: subscribed, then lost
    have hall : h'.journal.about (.consumer t.consumer) =
        [⟨h.now, .lost t.consumer t.handler.profile⟩,
          ⟨h.now, .subscribed t.consumer kind t.handler.profile⟩] := by
      rw [hj, Journal.about_cons_own rfl rfl, Journal.about_cons_own rfl rfl, habout]
    refine .gone [] (by rw [hasTask, ht]; rfl) hs hall (by simp [Happening.ends])
      ⟨[], _, rfl, rfl, by simp⟩ ?_ (by simp) fun _ => ⟨ht, rfl⟩
    simp [Journal.cancellations, Happening.cancels]
  | cancelled hslot hlive hs ht hj => exact hb.cancelled hslot hlive ht hs hj
  | @stepped t _ _ _ hfound hstep hs ht hj =>
    refine hb.goes_on _ (by simp [hfound]) hj ?_ (by rw [hs]) ?_ fun hnot => ?_
    · rw [ht, hfound, Option.map_some, Option.map_some, hstep.orphaned]
    · simpa using hstep.goes_on c
    · have hkeeps := hr.paired.jobs t (mem_of_task? hfound)
      rw [hasTask_of_task? hfound, Bool.not_eq_false'] at hnot
      simpa using hstep.of_orphaned hkeeps hnot
  | @took t s hfound hp hslot _ hs ht hj =>
    refine hb.goes_on [_] (by simp [hfound]) hj ?_ ?_ ?_ fun hnot => ?_
    · rw [ht, hfound, Option.map_some, Option.map_some, t.orphaned_beginBatch s.queue]
    · rw [hs, hslot]
      rfl
    · simp [Happening.subscriber?, Happening.ends, Happening.cancels]
    · -- a task that takes a batch is no orphan, or it would be inside a call
      have hlive := (hr.paired.jobs t (mem_of_task? hfound)).attended (by simp [hp])
      rw [hasTask_of_task? hfound, hlive] at hnot
      exact absurd hnot (by simp)
  | @leftJob t hfound hlive _ hs ht hj =>
    have hcons : t.consumer = c := consumer_of_task? hfound
    exact hb.ended (by rw [hasTask_of_task? hfound, hlive]; rfl)
      (by rw [hj]; exact Journal.about_cons_own rfl rfl) (by simp [Happening.ends])
      (by rw [hasTask_of_task? ht]; rfl) hs (by simp [Happening.isExit])
  | jobOver hfound horphan hs ht hj =>
    cases hb with
    | unborn hnone => exact absurd (hnone.symm.trans hfound) (by simp)
    | alive _ halive =>
      rw [hasTask_of_task? hfound, horphan] at halive
      exact absurd halive (by simp)
    | gone after _ hslot habout hends hlives hcount hafter hexit =>
      exact .gone after (by rw [hasTask, ht]; rfl) (hs.trans hslot) (by rwa [hj]) hends hlives
        hcount hafter fun he => ⟨ht, (hexit he).2⟩
  | @finished t _ what hfound hending hs ht hj =>
    obtain rfl : t.consumer = c := consumer_of_task? hfound
    -- every way to end is entered, and the entry is the last one of the record
    obtain ⟨hends, hwho, hcounts⟩ := ends_of_ending hending
    have hlive := hending.attended (hr.paired.jobs t (mem_of_task? hfound))
    exact hb.ended (by rw [hasTask_of_task? hfound, hlive]; rfl)
      (by rw [hj]; exact Journal.about_cons_own hwho hcounts) hends (by rw [hasTask, ht]; rfl) hs
      fun _ => ht

end Change

namespace Host

variable {h h' : Host} {c : ConsumerRef}

/-- Changes by which no handler remarks anything. -/
theorem Biography.changes {ns : Nature → Prop} (hb : h.Biography c) (hr : h.Reached)
    (hc : Changes ns h h') (news : Journal) (hj : h'.journal = news ++ h.journal)
    (hquiet : ∀ x ∈ news, x.what.isRemark = false) : h'.Biography c := by
  induction hc generalizing news with
  | refl => exact hb
  | @tail m h' hm hchange ih =>
    obtain ⟨n, -, hchange⟩ := hchange
    obtain ⟨before, hbefore⟩ := Changes.journal_suffix hm
    have hnews : ∀ more, h'.journal = more ++ m.journal → news = more ++ before := by
      intro more hmore
      rw [hj, ← hbefore, ← List.append_assoc] at hmore
      exact List.append_cancel_right hmore
    obtain ⟨last, hlast, -⟩ := hchange.news
    have hm' : m.Biography c := by
      apply ih before hbefore.symm
      intro x hx
      exact hquiet x (hnews last hlast ▸ List.mem_append_right _ hx)
    apply hchange.biography (hr.changes hm) hm'
    intro more hmore x hx
    exact hquiet x (hnews more hmore ▸ List.mem_append_left _ hx)

theorem Biography.remarked {what : Happening} {d : ConsumerRef} (hb : h.Biography c)
    (haside : what.isAside = true) (hwho : what.who? = some d)
    (htask : (h.task? d).isSome = true) : (h.note what).Biography c := by
  by_cases hd : d = c
  · subst hd
    refine hb.goes_on [⟨h.now, what⟩] htask rfl rfl rfl ?_ fun _ => ?_
    · cases what <;> simp_all [Happening.isAside, Happening.subscriber?, Happening.ends,
        Happening.cancels]
    · cases what <;> simp_all [Happening.isAside, Happening.isOfHandler, Happening.who?]
  · refine hb.of_same ?_ rfl rfl
    apply Journal.about_of_who? [⟨h.now, what⟩]
    simp [hwho, hd]

theorem LoopNews.isRemark {g : GroupRef} {kind : Kind} {loop : Journal}
    (hl : h.LoopNews g kind loop) : ∀ x ∈ loop, x.what.isRemark = false := by
  cases hl <;> simp [Happening.isRemark]

theorem Biography.granted {b : BusId} {who : Subscriber Action} {held : List (Target × BusId)}
    {d : ConsumerRef} (hb : h.Biography c) (hr : h.Reached) (hg : h.Granted b who held d h') :
    h'.Biography c := by
  obtain ⟨lost, loop, hloop, hlost, hj⟩ := hg.journal
  refine hb.changes hr hg.changes
    (lost ++ ⟨h.now, .subscribed d who.kind who.handler.profile⟩ :: loop)
    (by simp [hj]) ?_
  intro x hx
  rcases List.mem_append.mp hx with hx | hx
  · rcases hlost with rfl | rfl
    · exact absurd hx (by simp)
    · rw [List.mem_singleton.mp hx]
      rfl
  · rcases List.mem_cons.mp hx with rfl | hx
    · rfl
    · exact hloop.isRemark x hx

theorem Biography.episode (hb : h.Biography c) (hr : h.Reached) (he : Episode h h') :
    h'.Biography c := by
  cases he with
  | uneventful hu =>
    obtain ⟨news, hj, hroutine⟩ := hu.journal
    apply hb.changes hr hu.changes news hj
    intro x hx
    exact Happening.isRemark_of_isRoutine (hroutine x hx)
  | settled _ hc _ => exact hb.changes hr hc [] rfl (by simp)
  | subscribed name hg _ => exact (hb.granted hr hg).of_same rfl rfl rfl
  | remarked haside hwho htask => exact hb.remarked haside hwho htask

/-- **What the journal has about a consumer is a life**: in every reachable state, and for every
consumer. -/
theorem Reachable.biography (hr : h.Reachable) (c : ConsumerRef) : h.Biography c := by
  apply hr.of_episodes (P := fun h => h.Biography c)
  · exact .unborn rfl rfl rfl
  · intro m m' hm hb he
    exact hb.episode hm he

end Host

end EventBus
