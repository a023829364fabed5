import EventBus.Proofs.Episode
import EventBus.Proofs.Occupancy

/-!
# The count of subscribers

The count that a bus gives for a type is read off the slots of the group, while a subscription looks
for its own slot by the number of its consumer. That both agree is because numbers are given once:
the subscriptions that were ever granted are distinct, and those of a group that are active are its
live slots.

A subscription is active from the moment at which it is granted until it is cancelled or its
consumer ends, and not a second time. To cancel one concerns no other.
-/

set_option autoImplicit false

namespace EventBus

namespace Happening

/-- Who subscribed by this. -/
def subscriber? : Happening → Option ConsumerRef
  | subscribed c .. => some c
  | _ => none

theorem subscriber?_of_routine {x : Happening} (hx : x.isRoutine = true) :
    x.subscriber? = none := by
  cases x <;> first | rfl | exact absurd hx (by simp [isRoutine])

theorem subscriber?_of_isAside {x : Happening} (hx : x.isAside = true) :
    x.subscriber? = none := by
  cases x <;> first | rfl | exact absurd hx (by simp [isAside])

end Happening

namespace Journal

/-- The consumers that subscribed, the latest first. -/
def subscribers (j : Journal) : List ConsumerRef := j.filterMap (·.what.subscriber?)

/-- Who subscribed is read off the journal, entry by entry. -/
theorem subscribers_append (news j : Journal) :
    (news ++ j).subscribers = news.subscribers ++ j.subscribers :=
  List.filterMap_append

theorem subscribers_cons_of_none {x : Entry} (hx : x.what.subscriber? = none) (j : Journal) :
    subscribers (x :: j) = j.subscribers :=
  List.filterMap_cons_none hx

theorem subscribers_of_none {news : Journal} (hn : ∀ x ∈ news, x.what.subscriber? = none) :
    news.subscribers = [] :=
  List.filterMap_eq_nil_iff.mpr hn

/-- Who is among the subscribers has a kind that it subscribed with. -/
theorem mem_subscribers_iff {j : Journal} {c : ConsumerRef} :
    c ∈ j.subscribers ↔ (j.subscribed? c).isSome = true := by
  rw [subscribers, subscribed?, List.mem_filterMap, List.findSome?_isSome_iff]
  refine exists_congr fun x => and_congr_right fun _ => ?_
  cases x.what <;> simp [Happening.subscriber?, Happening.subscribes?]

end Journal

namespace Group

variable {α : Type} (g : Group α)

theorem mem_live {id : ConsumerId} : id ∈ g.live ↔ g.isLive id = true := by
  simp only [live, isLive, List.mem_map, List.mem_filter, List.any_eq_true, Bool.and_eq_true,
    beq_iff_eq]
  grind

theorem live_nodup : g.live.Nodup := by
  refine g.ids_nodup.sublist ?_
  exact List.filter_sublist.map _

/-- To cancel a consumer leaves all others live or not as they were. -/
theorem isLive_stop (id other : ConsumerId) :
    (g.stop id).2.isLive other = (g.isLive other && decide (other ≠ id)) := by
  rw [Bool.eq_iff_iff, Bool.and_eq_true, decide_eq_true_eq, isLive_iff, isLive_iff, slot?_stop]
  by_cases hid : other = id
  · subst hid
    cases g.slot? other <;> simp [Slot.stop]
  · simp [hid]

/-- The live consumers without the one that is cancelled are those that stay. -/
theorem live_stop (id : ConsumerId) : ((g.stop id).2.live).Perm (g.live.erase id) := by
  apply (List.perm_ext_iff_of_nodup (live_nodup _) (g.live_nodup.erase id)).mpr
  intro other
  rw [g.live_nodup.mem_erase_iff, mem_live, mem_live, isLive_stop, Bool.and_eq_true,
    decide_eq_true_eq, and_comm]

/-- Whoever is live counts for one until it is stopped. -/
theorem count_stop (id : ConsumerId) :
    (g.stop id).2.count + (if g.isLive id then 1 else 0) = g.count := by
  rw [count_eq_length_live, count_eq_length_live, (g.live_stop id).length_eq]
  cases hlive : g.isLive id with
  | true => exact List.length_erase_add_one ((g.mem_live).mpr hlive)
  | false =>
    have hnot : id ∉ g.live := by
      rw [mem_live, hlive]
      simp
    rw [List.erase_of_not_mem hnot]
    rfl

end Group

open Host

namespace Change

variable {n : Nature} {h h' : Host}

/-- Nobody subscribes but a task that is put in line, once. -/
theorem subscribers (hc : Change n h h') :
    h'.journal.subscribers = h.journal.subscribers ∨ ∃ t kind, h.Admissible t kind ∧
      h'.journal.subscribers = t.consumer :: h.journal.subscribers := by
  cases hc with
  | pass | rename | make | abandon | bindType | stop | start => exact .inl rfl
  | take | leaveJob | endJob | tick | halt => exact .inl rfl
  | aside haside =>
    exact .inl (Journal.subscribers_cons_of_none (Happening.subscriber?_of_isAside haside) _)
  | publish _ hb =>
    obtain ⟨fate, buses, hframe⟩ := publish_frame hb
    rw [hframe]
    exact .inl rfl
  | close _ hok =>
    obtain ⟨bus, -, -, rfl⟩ := close_eq_ok hok
    exact .inl rfl
  | startLoop _ hidle =>
    rw [ensureLoop_of_idle hidle]
    exact .inl rfl
  -- only these two enter a subscription, and each of them one
  | enrol ha => exact .inr ⟨_, _, ha, rfl⟩
  | stillborn ha => exact .inr ⟨_, _, ha, rfl⟩
  | cancel ha =>
    rw [cancel_of_active ha]
    exact .inl rfl
  | step _ hstep =>
    left
    cases hstep <;> rfl
  | finish _ hending =>
    left
    cases hending <;> rfl

end Change

namespace Host

variable {h h' : Host}

/-- Who has subscribed has a history that is known in full. -/
theorem Reached.known_of_subscriber (hr : h.Reached) {c : ConsumerRef}
    (hc : c ∈ h.journal.subscribers) : h.Known c := by
  rw [Journal.mem_subscribers_iff] at hc
  cases hr.lifetime c with
  | unborn _ _ hsub => exact absurd hc (by simp [hsub])
  | alive _ _ _ hk => exact hk
  | gone _ _ hk => exact hk

/-- Nobody subscribes twice. -/
theorem Reached.subscribers_nodup (hr : h.Reached) : h.journal.subscribers.Nodup := by
  apply hr.invariant (P := fun h => h.journal.subscribers.Nodup) List.nodup_nil
  intro h h' n hr hnodup hc
  rcases hc.subscribers with hsame | ⟨t, kind, ha, hnew⟩
  · rw [hsame]
    exact hnodup
  · rw [hnew, List.nodup_cons]
    refine ⟨?_, hnodup⟩
    intro hmem
    exact (hr.known_of_subscriber hmem).not_admissible rfl ha

/-! ## The names of subscriptions -/

/-- The subscriptions that were ever granted, the latest first. A name that is bound anew hides a
subscription, but it is not forgotten. -/
def granted (h : Host) : List ConsumerRef := h.subscriptions.map (·.2)

/-- Where nothing happens but routine, nobody subscribes. -/
theorem Uneventful.subscribers (hu : h.Uneventful h') :
    h'.journal.subscribers = h.journal.subscribers := by
  obtain ⟨news, hj, hroutine⟩ := hu.journal
  have hnone : news.subscribers = [] :=
    Journal.subscribers_of_none fun x hx => Happening.subscriber?_of_routine (hroutine x hx)
  rw [hj, Journal.subscribers_append, hnone, List.nil_append]

theorem LoopNews.subscribers {g : GroupRef} {kind : Kind} {loop : Journal}
    (hl : h.LoopNews g kind loop) : loop.subscribers = [] := by
  cases hl <;> rfl

/-- Who is granted a subscription is the one that has come to the subscribers. -/
theorem Granted.subscribers {b : BusId} {who : Subscriber Action} {held : List (Target × BusId)}
    {c : ConsumerRef} (hg : h.Granted b who held c h') :
    h'.journal.subscribers = c :: h.journal.subscribers := by
  obtain ⟨lost, loop, hloop, hlost, hj⟩ := hg.journal
  have hnone : lost.subscribers = [] := by rcases hlost with rfl | rfl <;> rfl
  rw [hj, Journal.subscribers_append, hnone, List.nil_append]
  show c :: (loop ++ h.journal).subscribers = _
  rw [Journal.subscribers_append, hloop.subscribers, List.nil_append]

/-- **Every subscription is granted once, and then it is in the program's hands.** -/
theorem Reachable.granted_eq (hr : h.Reachable) : h.granted = h.journal.subscribers := by
  apply hr.of_episodes (P := fun h => h.granted = h.journal.subscribers) rfl
  intro m m' _ hsame he
  cases he with
  | uneventful hu => rw [granted, hu.subscriptions, hu.subscribers, ← hsame, granted]
  | settled => exact hsame
  | subscribed name hg =>
    show _ :: List.map _ _ = _
    rw [hg.subscriptions]
    exact (congrArg _ hsame).trans hg.subscribers.symm
  | @remarked what c haside =>
    have hnone := Happening.subscriber?_of_isAside haside
    exact hsame.trans (Journal.subscribers_cons_of_none hnone m.journal).symm

/-! ## Who is active -/

/-- **A subscription is active** from when it was made until it is cancelled or its task ends, and
the journal says which. -/
theorem Reached.isActive_iff_journal (hr : h.Reached) {c : ConsumerRef} :
    h.isActive c = true ↔ (h.journal.subscribed? c).isSome = true ∧
      h.journal.hasCancelled c = false ∧ h.journal.hasEnded c = false := by
  rw [isActive_iff]
  cases hr.lifetime c with
  | unborn hs _ hsub => simp [hs, hsub]
  | gone hs _ _ hend => simp [hs, hend]
  | alive _ hs _ hk ha =>
    obtain ⟨kind, hsub, -⟩ := hk
    simp [hs, hsub, ha.stopped, ha.running]

/-- Whoever was granted a subscription that is not active now never gets it back. -/
theorem Reached.inactive_forever (hr : h.Reached) {c : ConsumerRef}
    (hc : c ∈ h.journal.subscribers) (hi : h.isActive c = false) {ns : Nature → Prop}
    (hchanges : Changes ns h h') : h'.isActive c = false := by
  have hsuffix := hchanges.journal_suffix
  rw [← Bool.not_eq_true, hr.isActive_iff_journal] at hi
  rw [← Bool.not_eq_true, (hr.changes hchanges).isActive_iff_journal]
  rintro ⟨-, hcancelled, hended⟩
  apply hi
  refine ⟨Journal.mem_subscribers_iff.mp hc, ?_, ?_⟩
  · rw [← Bool.not_eq_true] at hcancelled ⊢
    intro hbefore
    exact hcancelled (Journal.hasCancelled_of_suffix hsuffix hbefore)
  · rw [← Bool.not_eq_true] at hended ⊢
    intro hbefore
    exact hended (Journal.hasEnded_of_suffix hsuffix hbefore)

/-! ## The count -/

/-- The consumers of a type are those of its group; a type without a group has none. -/
theorem count_eq_group? (h : Host) (b : BusId) (type : EventType) :
    h.count b type = ((h.group? ⟨b, type⟩).map (·.count)).getD 0 := by
  unfold count Bus.count Registry.count group?
  cases h.bus? b <;> rfl

/-- The consumers of a group that are live. -/
def activeAt (h : Host) (g : GroupRef) : List ConsumerRef :=
  (((h.group? g).map (·.live)).getD []).map (⟨g, ·⟩)

/-- What is counted are the active subscriptions. -/
theorem count_eq_length_activeAt (h : Host) (b : BusId) (type : EventType) :
    h.count b type = (h.activeAt ⟨b, type⟩).length := by
  rw [count_eq_group?, activeAt, List.length_map]
  cases h.group? ⟨b, type⟩ with
  | none => rfl
  | some group => exact group.count_eq_length_live

/-- Those of a group are those of its consumers that are active. -/
theorem mem_activeAt {g : GroupRef} {c : ConsumerRef} :
    c ∈ h.activeAt g ↔ c.group = g ∧ h.isActive c = true := by
  obtain ⟨g', id⟩ := c
  rw [activeAt, isActive]
  constructor
  · intro hc
    obtain ⟨id', hid, heq⟩ := List.mem_map.mp hc
    obtain ⟨rfl, rfl⟩ := ConsumerRef.mk.inj heq
    cases hgroup : h.group? g with
    | none => simp [hgroup] at hid
    | some group => simpa [hgroup, Group.mem_live] using hid
  · rintro ⟨rfl, hlive⟩
    refine List.mem_map.mpr ⟨id, ?_, rfl⟩
    cases hgroup : h.group? g' with
    | none => simp [hgroup] at hlive
    | some group => simpa [hgroup, Group.mem_live] using hlive

theorem activeAt_nodup (h : Host) (g : GroupRef) : (h.activeAt g).Nodup := by
  refine List.Nodup.map ?_ ?_
  · intro id id' heq
    exact (ConsumerRef.mk.inj heq).2
  · cases h.group? g with
    | none => exact List.nodup_nil
    | some group => exact group.live_nodup

/-- The live slots of a group are the active ones among the subscriptions that it granted. -/
theorem Reached.count_eq (hr : h.Reached) (b : BusId) (type : EventType) :
    h.count b type =
      (h.journal.subscribers.filter (·.group = ⟨b, type⟩)).countP h.isActive := by
  rw [count_eq_length_activeAt, List.countP_eq_length_filter]
  apply List.Perm.length_eq
  apply (List.perm_ext_iff_of_nodup (h.activeAt_nodup _)
    ((hr.subscribers_nodup.filter _).filter _)).mpr
  intro c
  rw [mem_activeAt, List.mem_filter, List.mem_filter, decide_eq_true_eq, and_assoc]
  refine ⟨fun hc => ⟨?_, hc⟩, fun hc => hc.2⟩
  exact Journal.mem_subscribers_iff.mpr (hr.isActive_iff_journal.mp hc.2).1

/-! ## Cancelling -/

/-- What comes of cancelling a subscription. -/
structure CancelledOnly (h : Host) (c : ConsumerRef) (h' : Host) : Prop where
  inactive : h'.isActive c = false
  -- A second time changes nothing, and neither does the first if it is too late for it.
  again : h'.cancel c = h'
  late : h.isActive c = false → h' = h
  slots : ∀ d, d ≠ c → h'.slot? d = h.slot? d
  others : ∀ d, d ≠ c → h'.isActive d = h.isActive d
  tasks : h'.tasks = h.tasks
  count : ∀ b type, h'.count b type +
    (if h.isActive c = true ∧ c.group = ⟨b, type⟩ then 1 else 0) = h.count b type

theorem cancel_of_inactive {c : ConsumerRef} (hc : h.isActive c = false) : h.cancel c = h := by
  rw [cancel, hc, if_neg (by simp)]

/-- That a subscription is cancelled is entered if it was active. -/
theorem journal_cancel (h : Host) (c : ConsumerRef) : (h.cancel c).journal =
    if h.isActive c then ⟨h.now, .unsubscribed c⟩ :: h.journal else h.journal := by
  unfold cancel
  split <;> rfl

/-- Whether a subscription is active is read off its slot. -/
theorem isActive_congr {c : ConsumerRef} (hs : h'.slot? c = h.slot? c) :
    h'.isActive c = h.isActive c := by
  rw [Bool.eq_iff_iff, isActive_iff, isActive_iff, hs]

/-- No subscription is active after it was cancelled. -/
theorem isActive_cancel (h : Host) (c : ConsumerRef) : (h.cancel c).isActive c = false := by
  cases ha : h.isActive c with
  | false => rw [cancel_of_inactive ha, ha]
  | true =>
    rw [← Bool.not_eq_true, isActive_iff, slot?_cancel ha, if_pos rfl]
    rintro ⟨s, hs, hlive⟩
    obtain ⟨s', -, rfl⟩ := Option.map_eq_some_iff.mp hs
    exact absurd hlive (by simp [Slot.stop])

theorem slot?_cancel_of_ne (h : Host) {c d : ConsumerRef} (hd : d ≠ c) :
    (h.cancel c).slot? d = h.slot? d := by
  cases ha : h.isActive c with
  | false => rw [cancel_of_inactive ha]
  | true => rw [slot?_cancel ha, if_neg hd]

/-- **To cancel an active subscription takes one from the number of its type**, and nothing from any
other. -/
theorem count_cancel (h : Host) (c : ConsumerRef) (b : BusId) (type : EventType) :
    (h.cancel c).count b type +
      (if h.isActive c = true ∧ c.group = ⟨b, type⟩ then 1 else 0) = h.count b type := by
  cases ha : h.isActive c with
  | false => simp [cancel_of_inactive ha]
  | true =>
    rw [cancel_of_active ha, count_eq_group?, count_eq_group?]
    show ((((h.modifyGroup c.group _).group? ⟨b, type⟩).map (·.count)).getD 0 + _ : Nat) = _
    rw [group?_modifyGroup]
    by_cases hg : c.group = ⟨b, type⟩
    · rw [isActive, hg] at ha
      cases hgroup : h.group? ⟨b, type⟩ with
      | none => simp [hgroup] at ha
      | some group =>
        have hcount := group.count_stop c.id
        rw [hgroup, Option.map_some, Option.getD_some] at ha
        rw [ha] at hcount
        simpa [hg] using hcount
    · simp [hg, Ne.symm hg]

/-- To cancel a subscription touches no other, and no bus, task or loop. -/
theorem cancelledOnly (h : Host) (c : ConsumerRef) : h.CancelledOnly c (h.cancel c) where
  inactive := h.isActive_cancel c
  again := cancel_of_inactive (h.isActive_cancel c)
  late hc := cancel_of_inactive hc
  slots d hd := h.slot?_cancel_of_ne hd
  others d hd := isActive_congr (h.slot?_cancel_of_ne hd)
  tasks := by
    unfold cancel
    split <;> rfl
  count := h.count_cancel c

/-! ## The main result -/

/-- **The count agrees with the subscriptions.** In every state of every run the subscriptions that
the program and its handlers were granted are distinct, and are those of the journal. For every bus
and type, the count is the number of those among them that are active: between turns, and whenever a
handler asks, as the buses are the same then. A subscription that is not active, because it was
cancelled or because its consumer ended, is not active in any later state either, and to cancel it
does nothing. And whenever a subscription is cancelled, what comes of it is what `CancelledOnly`
says. -/
theorem count_agrees (hr : h.Reachable) :
    h.granted.Nodup ∧ h.granted = h.journal.subscribers ∧
      (∀ m : Host, m.buses = h.buses → ∀ b type,
        m.count b type = (h.granted.filter (·.group = ⟨b, type⟩)).countP m.isActive) ∧
      (∀ c, h.journal.hasEnded c = true → h.isActive c = false) ∧
      (∀ c ∈ h.granted, h.isActive c = false → ∀ us h', Run h us h' →
        h'.isActive c = false ∧ h'.cancel c = h') ∧
      ∀ (m : Host) c, m.CancelledOnly c (m.cancel c) := by
  have hgranted := hr.granted_eq
  have hreached := hr.reached
  refine ⟨hgranted ▸ hreached.subscribers_nodup, hgranted, ?_, ?_, ?_, cancelledOnly⟩
  · intro m hm b type
    have hbus : ∀ b, m.bus? b = h.bus? b := fun b => by rw [bus?, bus?, hm]
    have hcount : m.count b type = h.count b type := by rw [count, count, hbus]
    have hactive : m.isActive = h.isActive := by
      funext c
      rw [isActive, isActive, group?, group?, hbus]
    rw [hcount, hactive, hgranted]
    exact hreached.count_eq b type
  · intro c hended
    rw [← Bool.not_eq_true, hreached.isActive_iff_journal]
    rintro ⟨-, -, hrunning⟩
    exact absurd (hended.symm.trans hrunning) (by simp)
  · intro c hc hi us h' run
    rw [hgranted] at hc
    have hstill := hreached.inactive_forever hc hi (run.changes hreached)
    exact ⟨hstill, cancel_of_inactive hstill⟩

/-- Three consumers with the same number: two of a bus with two names, of which one is then given to
another bus, and one of that. -/
def namesakeTurns : List Turn :=
  [.obey (.make "b" {} false), .obey (.clone (.named "b") "c"),
    .obey (.subscribe (.named "b") { handler := ⟨⟨"w", .async⟩, fun _ => []⟩, kind := .int } false),
    .obey (.subscribe (.named "b")
      { handler := ⟨⟨"v", .async⟩, fun _ => []⟩, kind := .text } false),
    .obey (.make "b" {} false),
    .obey (.subscribe (.named "b") { handler := ⟨⟨"u", .async⟩, fun _ => []⟩, kind := .int } false)]

def namesakes : Host := ((initial true).replay namesakeTurns).getD {}

def relieved : Host := (namesakes.replay [.obey .stopRuntime, .obey .startRuntime]).getD {}

/-- Cancelling the first concerns neither of its namesakes. With the runtime they all end. -/
theorem count_agrees_namesakes :
    namesakes.granted = [⟨⟨1, 42⟩, 1⟩, ⟨⟨0, 7⟩, 1⟩, waiter] ∧ namesakes.count 0 42 = 1 ∧
      (namesakes.cancel waiter).count 0 42 = 0 ∧ (namesakes.cancel waiter).count 1 42 = 1 ∧
      (namesakes.cancel waiter).isActive ⟨⟨0, 7⟩, 1⟩ = true ∧
      (relieved.replay [.obey .stopRuntime]).map (·.isActive waiter) = some false := by
  have hnamesakes : namesakes.Reachable := ⟨true, namesakeTurns, run_of_isSome (by decide)⟩
  have hlose : Run namesakes _ relieved := run_of_isSome (by decide)
  have hrelieved : relieved.Reachable := by
    obtain ⟨running, ts, run⟩ := hnamesakes
    exact ⟨running, _, run.append hlose⟩
  obtain ⟨-, -, hcount, -, -, hcancel⟩ := count_agrees hnamesakes
  obtain ⟨-, -, -, -, hforever, -⟩ := count_agrees hrelieved
  have hone : namesakes.count 0 42 = 1 := (hcount namesakes rfl 0 42).trans (by decide)
  have hother : namesakes.count 1 42 = 1 := (hcount namesakes rfl 1 42).trans (by decide)
  have honly := hcancel namesakes waiter
  have hlowered := honly.count 0 42
  have hkept := honly.count 1 42
  rw [if_pos ⟨by decide, rfl⟩, hone] at hlowered
  rw [if_neg (by decide), hother] at hkept
  refine ⟨by decide, hone, by omega, hkept, (honly.others _ (by decide)).trans (by decide), ?_⟩
  have hlater : Run relieved [.obey .stopRuntime] relieved.stopRuntime := .single rfl
  show some (relieved.stopRuntime.isActive waiter) = some false
  rw [(hforever waiter (by decide) (by decide) _ _ hlater).1]

end Host

end EventBus
