import EventBus.Group.View

/-!
# A group is a book of logs

What a group keeps is one list of slots, whose places shift whenever a slot goes. What it is for is
simpler: each consumer has a log of the events that it has heard, and has taken the first so many of
them. A group and a book of such logs, one for each id that was ever handed out, give the same
answers to the same questions, however many and in whatever order they are asked.

A group `Mirrors` a book if each of its slots is what the log of that id shows. Each question keeps
that and is answered alike, and so are all questions that follow, by induction. What is then to be
said of groups is said of books, where a consumer is found in its place for good.
-/

set_option autoImplicit false

namespace EventBus

namespace Group

variable {α : Type}

/-! ## Questions and answers -/

/-- What a group may be asked. A look at a queue brings an empty buffer along. -/
inductive Query (α : Type) where
  | attach
  | broadcast (event : α)
  | take (id : ConsumerId)
  | remove (id : ConsumerId)
  | detach (id : ConsumerId)
  | isLive (id : ConsumerId)
  | count
  deriving DecidableEq, Repr

/-- What comes back; after a look, also what is in the buffer then. -/
inductive Reply (α : Type) where
  | done
  | id (id : ConsumerId)
  | taken (found : Take) (buffer : List α)
  | flag (b : Bool)
  | number (n : Nat)
  deriving DecidableEq, Repr

def answer (g : Group α) : Query α → Reply α × Group α
  | .attach => let (id, g) := g.attach; (.id id, g)
  | .broadcast event => (.done, g.broadcast event)
  | .take id => let (found, buffer, g) := g.take id []; (.taken found buffer, g)
  | .remove id => let (live, g) := g.stop id; (.flag live, g)
  | .detach id => (.done, g.detach id)
  | .isLive id => (.flag (g.isLive id), g)
  | .count => (.number g.count, g)

/-- Whether a question can bear on a consumer: it is about this one, or about all of them. -/
def Query.concerns (id : ConsumerId) : Query α → Bool
  | .attach | .broadcast _ => true
  | .take i | .remove i | .detach i | .isLive i => i = id
  | .count => false

section Dialogue

variable {σ : Type} (answer : σ → Query α → Reply α × σ)

/-- Asks in turn; every question with its answer. -/
def dialogue (s : σ) : List (Query α) → List (Query α × Reply α)
  | [] => []
  | q :: qs => (q, (answer s q).1) :: dialogue (answer s q).2 qs

/-- The state in which a dialogue ends. -/
def after (s : σ) : List (Query α) → σ
  | [] => s
  | q :: qs => after (answer s q).2 qs

/-- What was asked first is answered first. -/
theorem after_append (s : σ) (qs rest : List (Query α)) :
    after answer s (qs ++ rest) = after answer (after answer s qs) rest := by
  induction qs generalizing s with
  | nil => rfl
  | cons q qs ih => exact ih _

end Dialogue

/-! ## The book -/

/-- What is known of one consumer: the events that it heard while it was live, and how many of them
it has taken. -/
structure Log (α : Type) where
  heard : List α := []
  taken : Nat := 0
  stopped : Bool := false
  gone : Bool := false
  bounded : taken ≤ heard.length := by exact Nat.zero_le _

namespace Log

/-- A consumer is live until it is cancelled or gone. -/
def isLive (l : Log α) : Bool := !l.stopped && !l.gone

/-- What is not yet taken. -/
def rest (l : Log α) : List α := l.heard.drop l.taken

/-- A live consumer hears of an event; to others it is lost. -/
def hear (l : Log α) (event : α) : Log α :=
  if l.isLive then
    { l with
      heard := l.heard ++ [event]
      bounded := Nat.le_trans l.bounded (by simp) }
  else l

/-- What is logged by then can still be taken. -/
def stop (l : Log α) : Log α := { l with stopped := true }

def leave (l : Log α) : Log α := { l with gone := true }

/-- Whatever was heard of is taken. -/
def takeAll (l : Log α) : Log α :=
  { l with taken := l.heard.length, bounded := Nat.le_refl _ }

/-- A look takes the whole rest. Who finds nothing and is stopped is gone. -/
def look (l : Log α) : Take × List α × Log α :=
  if l.gone then (.stopped, [], l)
  else if l.rest ≠ [] then (.batch, l.rest, l.takeAll)
  else if l.stopped then (.stopped, [], l.leave)
  else (.empty, [], l)

end Log

/-- The logs of all ids that were handed out, the log of the first one first. -/
structure Logbook (α : Type) where
  logs : List (Log α) := []

namespace Logbook

/-- Ids begin with 1; there is no consumer 0. -/
def log? (b : Logbook α) : ConsumerId → Option (Log α)
  | 0 => none
  | i + 1 => b.logs[i]?

def nextId (b : Logbook α) : ConsumerId := b.logs.length + 1

/-- Begins the log of the next id. -/
def attach (b : Logbook α) : Logbook α := ⟨b.logs ++ [({} : Log α)]⟩

def broadcast (b : Logbook α) (event : α) : Logbook α := ⟨b.logs.map (·.hear event)⟩

/-- What is done to one log leaves the others as they are. -/
def modify (b : Logbook α) (f : Log α → Log α) : ConsumerId → Logbook α
  | 0 => b
  | i + 1 => ⟨b.logs.modify i f⟩

def isLive (b : Logbook α) (id : ConsumerId) : Bool := (b.log? id).any (·.isLive)

/-- The ids that are live, in ascending order. -/
def live (b : Logbook α) : List ConsumerId := (List.range' 1 b.logs.length).filter b.isLive

def answer (b : Logbook α) : Query α → Reply α × Logbook α
  | .attach => (.id b.nextId, b.attach)
  | .broadcast event => (.done, b.broadcast event)
  | .take id =>
    match b.log? id with
    | none => (.taken .stopped [], b)
    | some l => let (found, buffer, l) := l.look; (.taken found buffer, b.modify (fun _ => l) id)
  | .remove id => (.flag (b.isLive id), b.modify Log.stop id)
  | .detach id => (.done, b.modify Log.leave id)
  | .isLive id => (.flag (b.isLive id), b)
  | .count => (.number b.live.length, b)

/-! ## What the book says of an id -/

/-- A consumer that is attached has a log of its own, with nothing in it. -/
theorem log?_attach (b : Logbook α) (id : ConsumerId) :
    b.attach.log? id = if id = b.nextId then some {} else b.log? id := by
  cases id with
  | zero => simp [log?, nextId]
  | succ i =>
    simp only [log?, attach, nextId, Nat.succ_eq_add_one, Nat.add_right_cancel_iff]
    rcases Nat.lt_trichotomy i b.logs.length with hi | rfl | hi
    · rw [List.getElem?_append_left hi, if_neg (Nat.ne_of_lt hi)]
    · simp
    · rw [List.getElem?_eq_none (by simp; omega), if_neg (Nat.ne_of_gt hi),
        List.getElem?_eq_none (by omega)]

theorem log?_broadcast (b : Logbook α) (event : α) (id : ConsumerId) :
    (b.broadcast event).log? id = (b.log? id).map (·.hear event) := by
  cases id <;> simp [log?, broadcast]

theorem log?_modify (b : Logbook α) (f : Log α → Log α) (i j : ConsumerId) :
    (b.modify f i).log? j = if j = i then (b.log? j).map f else b.log? j := by
  cases i with
  | zero => cases j <;> simp [log?, modify]
  | succ i =>
    cases j with
    | zero => simp [log?]
    | succ j =>
      simp only [log?, modify, List.getElem?_modify, Nat.succ_eq_add_one, Nat.add_right_cancel_iff,
        eq_comm (a := i)]
      split <;> simp_all

theorem nextId_attach (b : Logbook α) : b.attach.nextId = b.nextId + 1 := by
  simp [attach, nextId]

theorem nextId_broadcast (b : Logbook α) (event : α) : (b.broadcast event).nextId = b.nextId := by
  simp [broadcast, nextId]

theorem nextId_modify (b : Logbook α) (f : Log α → Log α) (id : ConsumerId) :
    (b.modify f id).nextId = b.nextId := by
  cases id <;> simp [modify, nextId]

/-- The ids that were given are those below the next one. -/
theorem log?_isSome (b : Logbook α) (id : ConsumerId) :
    (b.log? id).isSome = true ↔ 1 ≤ id ∧ id < b.nextId := by
  cases id <;> simp [log?, nextId]

theorem mem_live (b : Logbook α) (id : ConsumerId) : id ∈ b.live ↔ b.isLive id = true := by
  refine ⟨fun h => (List.mem_filter.mp h).2, fun h => List.mem_filter.mpr ⟨?_, h⟩⟩
  have known : (b.log? id).isSome = true := by
    rw [isLive, Option.any_eq_true] at h
    obtain ⟨l, hl, -⟩ := h
    exact Option.isSome_of_mem hl
  obtain ⟨hpos, hlt⟩ := (log?_isSome b id).mp known
  exact List.mem_range'_1.mpr ⟨hpos, by rwa [Nat.add_comm]⟩

end Logbook

/-! ## A slot is what is left of a log -/

namespace Log

/-- The slot of a consumer with this log; none when it is gone. -/
def slot? (l : Log α) (id : ConsumerId) : Option (Slot α) :=
  if l.gone then none else some { id, queue := l.rest, stopped := l.stopped }

/-- What a live consumer hears comes after what it has not taken. -/
theorem rest_hear {l : Log α} (live : l.isLive = true) (event : α) :
    (l.hear event).rest = l.rest ++ [event] := by
  simp only [rest, hear, live, if_true]
  exact List.drop_append_of_le_length l.bounded

/-- A slot is what a log shows of itself: it queues what is heard, is empty when all is taken, and
is gone when the consumer is. -/
theorem slot?_hear (l : Log α) (event : α) (id : ConsumerId) :
    (l.hear event).slot? id = (l.slot? id).map (·.accept event) := by
  cases live : l.isLive with
  | true =>
    obtain ⟨going, here⟩ : l.stopped = false ∧ l.gone = false := by simpa [isLive] using live
    have heard := rest_hear live event
    simp only [slot?, heard]
    simp [hear, live, going, here, Slot.accept]
  | false =>
    have same : l.hear event = l := by simp [hear, live]
    cases here : l.gone with
    | true => simp [same, slot?, here]
    | false =>
      have stopped : l.stopped = true := by simpa [isLive, here] using live
      simp [same, slot?, here, Slot.accept, stopped]

theorem slot?_takeAll (l : Log α) (id : ConsumerId) :
    l.takeAll.slot? id = (l.slot? id).map fun s => { s with queue := [] } := by
  have none_left : l.takeAll.rest = [] := List.drop_length
  simp only [slot?, none_left]
  cases here : l.gone <;> simp [takeAll, here]

theorem slot?_stop (l : Log α) (id : ConsumerId) :
    l.stop.slot? id = (l.slot? id).map Slot.stop := by
  cases here : l.gone <;> simp [slot?, stop, here, Slot.stop, rest]

theorem slot?_leave (l : Log α) (id : ConsumerId) : l.leave.slot? id = none := rfl

end Log

/-- The group keeps of each log what is not taken yet, for as long as the consumer is there. -/
structure Mirrors (g : Group α) (b : Logbook α) : Prop where
  nextId : g.nextId = b.nextId
  slot? : ∀ id, g.slot? id = (b.log? id).bind (·.slot? id)

namespace Mirrors

variable {g : Group α} {b : Logbook α}

theorem isLive (hm : Mirrors g b) (id : ConsumerId) : g.isLive id = b.isLive id := by
  rw [Bool.eq_iff_iff, isLive_iff, Logbook.isLive, hm.slot? id]
  cases b.log? id with
  | none => simp
  | some l => cases here : l.gone <;> simp [Log.slot?, Log.isLive, here]

/-- The live consumers of a group and its logbook are the same, in whatever order. -/
theorem live_perm (hm : Mirrors g b) : g.live.Perm b.live := by
  have inGroup : g.live.Nodup := g.ids_nodup.sublist (List.filter_sublist.map _)
  have inBook : b.live.Nodup := (List.nodup_range' ..).filter _
  refine (List.perm_ext_iff_of_nodup inGroup inBook).mpr fun id => ?_
  rw [Logbook.mem_live, ← hm.isLive, isLive_iff, live, List.mem_map]
  constructor
  · rintro ⟨s, hs, rfl⟩
    obtain ⟨hmem, hlive⟩ := List.mem_filter.mp hs
    exact ⟨s, slot?_eq_some_iff.mpr ⟨hmem, rfl⟩, by simpa using hlive⟩
  · rintro ⟨s, hs, hlive⟩
    exact ⟨s, List.mem_filter.mpr ⟨mem_of_slot? hs, by simp [hlive]⟩, id_of_slot? hs⟩

/-- Whatever is asked, a group and a logbook that mirrors it stay alike. -/
theorem attach (hm : Mirrors g b) : Mirrors g.attach.2 b.attach where
  nextId := by rw [Logbook.nextId_attach, ← hm.nextId]; rfl
  slot? id := by
    rw [slot?_attach, Logbook.log?_attach, hm.nextId, hm.slot?]
    split
    · next h => simp [h, Log.slot?, Log.rest]
    · rfl

theorem broadcast (hm : Mirrors g b) (event : α) :
    Mirrors (g.broadcast event) (b.broadcast event) where
  nextId := by rw [Logbook.nextId_broadcast, ← hm.nextId]; rfl
  slot? id := by
    rw [slot?_broadcast, Logbook.log?_broadcast, hm.slot?]
    cases b.log? id with
    | none => rfl
    | some l => exact (l.slot?_hear event id).symm

/-- What changes only the slot of one consumer and its log, in the same way. -/
theorem modify (hm : Mirrors g b) {g' : Group α} {f : Log α → Log α} {i : ConsumerId}
    (hnext : g'.nextId = g.nextId) (hother : ∀ j, j ≠ i → g'.slot? j = g.slot? j)
    (hown : g'.slot? i = (b.log? i).bind fun l => (f l).slot? i) : Mirrors g' (b.modify f i) where
  nextId := by rw [hnext, hm.nextId, Logbook.nextId_modify]
  slot? j := by
    rw [Logbook.log?_modify]
    by_cases hj : j = i
    · rw [hj, if_pos rfl, hown, Option.bind_map, Function.comp_def]
    · rw [if_neg hj, hother j hj, hm.slot?]

theorem stop (hm : Mirrors g b) (id : ConsumerId) :
    Mirrors (g.stop id).2 (b.modify Log.stop id) := by
  refine hm.modify rfl (fun j hj => by simp [hj]) ?_
  rw [slot?_stop, if_pos rfl, hm.slot?]
  cases b.log? id with
  | none => rfl
  | some l => exact (l.slot?_stop id).symm

theorem detach (hm : Mirrors g b) (id : ConsumerId) :
    Mirrors (g.detach id) (b.modify Log.leave id) := by
  refine hm.modify rfl (fun j hj => by simp [hj]) ?_
  rw [slot?_detach, if_pos rfl]
  cases b.log? id with
  | none => rfl
  | some l => exact (l.slot?_leave id).symm

/-- A look finds what the log says, and leaves what the log is then. -/
theorem take (hm : Mirrors g b) {id : ConsumerId} {l : Log α} (hl : b.log? id = some l) :
    ((g.take id []).1, (g.take id []).2.1) = (l.look.1, l.look.2.1) ∧
      Mirrors (g.take id []).2.2 (b.modify (fun _ => l.look.2.2) id) := by
  have own : g.slot? id = l.slot? id := by rw [hm.slot?, hl]; rfl
  -- what is left to see is the slot of this one consumer
  suffices hs : ((g.take id []).1, (g.take id []).2.1) = (l.look.1, l.look.2.1) ∧
      (g.take id []).2.2.slot? id = l.look.2.2.slot? id ∧
      ∀ j, j ≠ id → (g.take id []).2.2.slot? j = g.slot? j from
    ⟨hs.1, hm.modify (nextId_take g id []) hs.2.2 (by rw [hl, hs.2.1]; rfl)⟩
  cases here : l.gone with
  | true =>
    have gone : g.slot? id = none := by simp [own, Log.slot?, here]
    simp [Group.take, gone, Log.look, here, Log.slot?]
  | false =>
    have there : g.slot? id = some { id, queue := l.rest, stopped := l.stopped } := by
      simp [own, Log.slot?, here]
    by_cases hrest : l.rest = []
    · cases stopped : l.stopped with
      | true =>
        rw [take_of_drained there hrest stopped]
        simp +contextual [Log.look, here, hrest, stopped, Log.slot?_leave]
      | false =>
        rw [take_of_empty there hrest stopped]
        simp [Log.look, here, hrest, stopped, own]
    · rw [take_of_queue there hrest]
      simp +contextual [Log.look, here, hrest, Log.slot?_takeAll, own]

/-- One question: the same answer, and the book still mirrors the group. -/
theorem answer (hm : Mirrors g b) (q : Query α) :
    (g.answer q).1 = (b.answer q).1 ∧ Mirrors (g.answer q).2 (b.answer q).2 := by
  cases q with
  | attach => exact ⟨congrArg Reply.id hm.nextId, hm.attach⟩
  | broadcast event => exact ⟨rfl, hm.broadcast event⟩
  | take id =>
    simp only [Group.answer, Logbook.answer]
    cases hl : b.log? id with
    | none =>
      have own : g.slot? id = none := by rw [hm.slot?, hl]; rfl
      rw [Group.take, own]
      exact ⟨rfl, hm⟩
    | some l =>
      obtain ⟨found, mirrors⟩ := hm.take hl
      exact ⟨congrArg (fun f => Reply.taken f.1 f.2) found, mirrors⟩
  | remove id => exact ⟨congrArg Reply.flag (hm.isLive id), hm.stop id⟩
  | detach id => exact ⟨rfl, hm.detach id⟩
  | isLive id => exact ⟨congrArg Reply.flag (hm.isLive id), hm⟩
  | count =>
    refine ⟨congrArg Reply.number ?_, hm⟩
    rw [count_eq_length_live, hm.live_perm.length_eq]

/-- **A group and its logbook answer alike**, by induction on what is asked. -/
theorem dialogue (hm : Mirrors g b) (qs : List (Query α)) :
    dialogue Group.answer g qs = dialogue Logbook.answer b qs := by
  induction qs generalizing g b with
  | nil => rfl
  | cons q qs ih =>
    obtain ⟨same, mirrors⟩ := hm.answer q
    rw [Group.dialogue, Group.dialogue, same, ih mirrors]

end Mirrors

theorem Mirrors.after {g : Group α} {b : Logbook α} (hm : Mirrors g b) (qs : List (Query α)) :
    Mirrors (after Group.answer g qs) (after Logbook.answer b qs) := by
  induction qs generalizing g b with
  | nil => exact hm
  | cons q qs ih => exact ih (hm.answer q).2

/-- A new group is mirrored by an empty logbook. -/
theorem mirrors_empty (type : EventType) (capacity : Nat) :
    Mirrors (empty type capacity : Group α) {} where
  nextId := rfl
  slot? id := by cases id <;> rfl

/-! ## A log depends on no other -/

namespace Logbook

variable {b c : Logbook α} {id : ConsumerId}

/-- Two books with the same log for one consumer, and the same next id. -/
structure Alike (id : ConsumerId) (b c : Logbook α) : Prop where
  nextId : b.nextId = c.nextId
  log? : b.log? id = c.log? id

theorem Alike.isLive (ha : Alike id b c) : b.isLive id = c.isLive id := by
  rw [Logbook.isLive, Logbook.isLive, ha.log?]

theorem Alike.modify (ha : Alike id b c) (f : Log α → Log α) :
    Alike id (b.modify f id) (c.modify f id) where
  nextId := by rw [nextId_modify, nextId_modify, ha.nextId]
  log? := by rw [log?_modify, log?_modify, ha.log?]

/-- What concerns the consumer is answered from its log alone. -/
theorem Alike.answer (ha : Alike id b c) {q : Query α} (hq : q.concerns id = true) :
    (b.answer q).1 = (c.answer q).1 ∧ Alike id (b.answer q).2 (c.answer q).2 := by
  cases q with
  | attach =>
    refine ⟨congrArg Reply.id ha.nextId, ?_, ?_⟩
    · simp only [Logbook.answer, nextId_attach, ha.nextId]
    · simp only [Logbook.answer, log?_attach, ha.nextId, ha.log?]
  | broadcast event =>
    refine ⟨rfl, ?_, ?_⟩
    · simp only [Logbook.answer, nextId_broadcast, ha.nextId]
    · simp only [Logbook.answer, log?_broadcast, ha.log?]
  | take i =>
    obtain rfl : i = id := of_decide_eq_true hq
    simp only [Logbook.answer, ha.log?]
    cases c.log? i with
    | none => exact ⟨rfl, ha⟩
    | some l => exact ⟨rfl, ha.modify _⟩
  | remove i =>
    obtain rfl : i = id := of_decide_eq_true hq
    exact ⟨congrArg Reply.flag ha.isLive, ha.modify _⟩
  | detach i =>
    obtain rfl : i = id := of_decide_eq_true hq
    exact ⟨rfl, ha.modify _⟩
  | isLive i =>
    obtain rfl : i = id := of_decide_eq_true hq
    exact ⟨congrArg Reply.flag ha.isLive, ha⟩
  | count => exact absurd hq Bool.false_ne_true

/-- What is done to another log makes no difference to this one. -/
theorem Alike.modify_left (ha : Alike id b c) (f : Log α → Log α) {i : ConsumerId} (hi : i ≠ id) :
    Alike id (b.modify f i) c where
  nextId := by rw [nextId_modify, ha.nextId]
  log? := by rw [log?_modify, if_neg hi.symm, ha.log?]

/-- What does not concern the consumer leaves its log as it is. -/
theorem Alike.answer_left (ha : Alike id b c) {q : Query α} (hq : q.concerns id = false) :
    Alike id (b.answer q).2 c := by
  cases q with
  | attach => exact absurd hq.symm Bool.false_ne_true
  | broadcast event => exact absurd hq.symm Bool.false_ne_true
  | take i =>
    simp only [Logbook.answer]
    cases b.log? i with
    | none => exact ha
    | some l => exact ha.modify_left _ (of_decide_eq_false hq)
  | remove i => exact ha.modify_left _ (of_decide_eq_false hq)
  | detach i => exact ha.modify_left _ (of_decide_eq_false hq)
  | isLive i => exact ha
  | count => exact ha

/-- A consumer is told the same when whatever does not concern it was never asked. -/
theorem Alike.dialogue (ha : Alike id b c) (qs : List (Query α)) :
    (dialogue Logbook.answer b qs).filter (·.1.concerns id) =
      dialogue Logbook.answer c (qs.filter (·.concerns id)) := by
  induction qs generalizing b c with
  | nil => rfl
  | cons q qs ih =>
    cases hq : q.concerns id with
    | true =>
      obtain ⟨same, alike⟩ := ha.answer hq
      simp only [Group.dialogue, List.filter_cons, hq, if_true, same, ih alike]
    | false =>
      simp only [Group.dialogue, List.filter_cons, hq, Bool.false_eq_true, if_false,
        ih (ha.answer_left hq)]

end Logbook

/-! ## Nobody comes back -/

theorem Log.isLive_hear (l : Log α) (event : α) : (l.hear event).isLive = l.isLive := by
  unfold hear
  split <;> rfl

/-- A look revives nobody. -/
theorem Log.isLive_look {l : Log α} (dead : l.isLive = false) : l.look.2.2.isLive = false := by
  unfold look
  split
  · exact dead
  · split
    · exact dead
    · split
      · simp [isLive, leave]
      · exact dead

namespace Logbook

variable {b : Logbook α} {id : ConsumerId}

/-- The id was handed out, and its consumer is stopped or gone. -/
def IsDead (b : Logbook α) (id : ConsumerId) : Prop := ∃ l, b.log? id = some l ∧ l.isLive = false

/-- To keep a consumer dead it is enough to keep its log dead, whatever is done to the others. -/
theorem IsDead.modify (hd : b.IsDead id) {f : Log α → Log α} {i : ConsumerId}
    (hf : ∀ l, b.log? i = some l → l.isLive = false → (f l).isLive = false) :
    (b.modify f i).IsDead id := by
  obtain ⟨l, hl, dead⟩ := hd
  rw [IsDead, log?_modify, hl]
  by_cases hi : id = i
  · exact ⟨f l, by rw [if_pos hi]; rfl, hf l (hi ▸ hl) dead⟩
  · exact ⟨l, if_neg hi, dead⟩

/-- Nothing that is asked revives a consumer. -/
theorem IsDead.answer (hd : b.IsDead id) (q : Query α) : (b.answer q).2.IsDead id := by
  cases q with
  | attach =>
    obtain ⟨l, hl, dead⟩ := hd
    have known := ((log?_isSome b id).mp (by rw [hl]; rfl)).2
    refine ⟨l, ?_, dead⟩
    rw [Logbook.answer, log?_attach, if_neg (Nat.ne_of_lt known), hl]
  | broadcast event =>
    obtain ⟨l, hl, dead⟩ := hd
    exact ⟨l.hear event, by rw [Logbook.answer, log?_broadcast, hl]; rfl,
      by rw [Log.isLive_hear, dead]⟩
  | take i =>
    simp only [Logbook.answer]
    cases hl : b.log? i with
    | none => exact hd
    | some l =>
      refine hd.modify fun l' hl' dead => Log.isLive_look ?_
      rwa [Option.some.inj (hl.symm.trans hl')]
  | remove i => exact hd.modify fun l _ _ => by simp [Log.isLive, Log.stop]
  | detach i => exact hd.modify fun l _ _ => by simp [Log.isLive, Log.leave]
  | isLive i => exact hd
  | count => exact hd

/-- So it stays dead for good. -/
theorem IsDead.after (hd : b.IsDead id) (qs : List (Query α)) :
    (after Logbook.answer b qs).IsDead id := by
  induction qs generalizing b with
  | nil => exact hd
  | cons q qs ih => exact ih (hd.answer q)

end Logbook

/-- Only ids that were never handed out, or whose consumer is stopped or gone, are not live. -/
theorem Mirrors.isDead_iff {g : Group α} {b : Logbook α} (hm : Mirrors g b) (id : ConsumerId) :
    b.IsDead id ↔ (1 ≤ id ∧ id < g.nextId) ∧ g.isLive id = false := by
  rw [hm.nextId, ← Logbook.log?_isSome, hm.isLive, Logbook.isLive, Logbook.IsDead]
  cases b.log? id <;> simp

/-! ## The group and its book -/

/-- **A group gives the answers of a book of logs.** Whatever is asked of an empty group, in any
order and of any ids, each answer is that of the book, which has for every id handed out the log of
what was broadcast while its consumer was live, and how much of that was taken: the next id; the
whole rest of the log if there is any, and else that there is nothing, or that the consumer is gone;
whether it was live before it was removed; and the number of live ids. What does not concern a
consumer makes no difference to what is answered about it. And whoever is not live any more never
is again. -/
theorem refines_logbook (type : EventType) (capacity : Nat) (qs : List (Query α)) :
    dialogue Group.answer (empty type capacity) qs = dialogue Logbook.answer {} qs ∧
    (∀ id, (dialogue Group.answer (empty type capacity) qs).filter (·.1.concerns id) =
      dialogue Group.answer (empty type capacity) (qs.filter (·.concerns id))) ∧
    (∀ id more, id < (after Group.answer (empty type capacity) qs).nextId →
      (after Group.answer (empty type capacity) qs).isLive id = false →
        (after Group.answer (empty type capacity) (qs ++ more)).isLive id = false) := by
  have start := mirrors_empty (α := α) type capacity
  refine ⟨start.dialogue qs, fun id => ?_, fun id more hold hdead => ?_⟩
  · rw [start.dialogue, start.dialogue]
    exact (Logbook.Alike.mk rfl rfl : Logbook.Alike id {} {}).dialogue qs
  · have later := (start.after qs).after more
    rw [after_append]
    cases id with
    | zero => exact later.isLive 0
    | succ i =>
      have dead := ((start.after qs).isDead_iff (i + 1)).mpr ⟨⟨Nat.succ_pos i, hold⟩, hdead⟩
      exact ((later.isDead_iff (i + 1)).mp (dead.after more)).2

/-- Two consumers, of which the first is removed while it has something to take. -/
def visitors : List (Query Int) :=
  [.attach, .broadcast 5, .attach, .broadcast 6, .remove 1, .broadcast 7, .take 1, .isLive 1,
    .take 1, .take 3, .take 2, .take 2, .remove 1, .count]

theorem refines_logbook_visitors :
    (dialogue Group.answer (empty Kind.int.type 8) visitors).map (·.2) =
        [.id 1, .done, .id 2, .done, .flag true, .done, .taken .batch [5, 6], .flag false,
          .taken .stopped [], .taken .stopped [], .taken .batch [6, 7], .taken .empty [],
          .flag false, .number 1] ∧
      (after Group.answer (empty Kind.int.type 8)
        (visitors ++ [.attach, .broadcast 8])).isLive 1 = false := by
  obtain ⟨same, -, gone⟩ := refines_logbook Kind.int.type 8 visitors
  exact ⟨by rw [same]; decide, gone 1 _ (by decide) (by decide)⟩

end Group

end EventBus
