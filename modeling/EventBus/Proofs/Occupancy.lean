import EventBus.Proofs.Account
import Mathlib.Data.List.Nodup

/-!
# Slots and tasks, one to one

What is kept by every change of a program (`Paired`), told of whole groups: the ids in the slots of
a group are the ids of its consumers whose tasks have not ended. A slot that outlived its task would
gather events for good, and nobody would see it. So the history is compared as well: a consumer has
its slot from its subscription on until its task is entered in the journal as ended, in whatever way
it ends. What a task leaves behind when it is dropped in the middle of a batch is at most a job.

The last part is about the one moment at which all slots go together. A stop of the runtime drops
every task, so every group is empty at once, while what the buses are bound to and which of them are
closed stays as it was.
-/

set_option autoImplicit false

namespace EventBus

namespace Host

/-- The slots of a group, in order. -/
def slotsAt (h : Host) (g : GroupRef) : List (Slot Event) :=
  ((h.group? g).map (·.slots)).getD []

/-- The ids of the consumers of a group whose tasks have not ended. -/
def consumersAt (h : Host) (g : GroupRef) : List ConsumerId :=
  (h.attended.filter (·.consumer.group = g)).map (·.consumer.id)

/-- `h'` is what is left of `h` without its consumers: the buses as they were, and the jobs that had
begun. -/
structure Emptied (h h' : Host) : Prop where
  tasks : h'.attended = []
  jobs : ∀ t' ∈ h'.tasks, t' ∈ h.tasks ∨ ∃ t ∈ h.attended, t.hasJob = true ∧ t' = t.orphan
  slots : ∀ g, h'.slotsAt g = []
  count : ∀ b type, h'.count b type = 0
  buses : h'.buses.length = h.buses.length
  kinds : ∀ g, h'.kind? g = h.kind? g
  ids : ∀ g, (h'.group? g).map (·.nextId) = (h.group? g).map (·.nextId)
  closed : ∀ b, h'.isClosed b = h.isClosed b

variable {h : Host}

/-! ## The slots of a group -/

theorem mem_slotsAt {g : GroupRef} {id : ConsumerId} :
    id ∈ (h.slotsAt g).map (·.id) ↔ (h.slot? ⟨g, id⟩).isSome = true := by
  unfold slotsAt slot?
  cases h.group? g with
  | none => simp
  | some group =>
    rw [Option.map_some, Option.getD_some, Option.bind_some, List.mem_map,
      Option.isSome_iff_exists]
    exact exists_congr fun s => Group.slot?_eq_some_iff.symm

theorem slotsAt_nodup (h : Host) (g : GroupRef) : ((h.slotsAt g).map (·.id)).Nodup := by
  unfold slotsAt
  cases h.group? g with
  | none => exact List.nodup_nil
  | some group => exact group.ids_nodup

theorem count_of_slotsAt {b : BusId} {type : EventType} (hs : h.slotsAt ⟨b, type⟩ = []) :
    h.count b type = 0 := by
  unfold slotsAt group? at hs
  unfold count Bus.count Registry.count
  cases hb : h.bus? b with
  | none => rfl
  | some bus =>
    rw [hb, Option.bind_some] at hs
    cases hg : bus.registry.group? type with
    | none => rw [Option.map_some, Option.getD_some, hg]; rfl
    | some group =>
      have hnone : group.slots = [] := by simpa [hg] using hs
      rw [Option.map_some, Option.getD_some, hg, Option.map_some, Option.getD_some, Group.count,
        hnone, List.countP_nil]

/-! ## The tasks of a group -/

theorem mem_consumersAt (hp : h.Paired) {g : GroupRef} {id : ConsumerId} :
    id ∈ h.consumersAt g ↔ h.hasTask ⟨g, id⟩ = true := by
  rw [consumersAt, List.mem_map, hasTask, Option.any_eq_true]
  constructor
  · rintro ⟨t, ht, rfl⟩
    obtain ⟨hattended, hg⟩ := List.mem_filter.mp ht
    obtain ⟨hmem, hlive⟩ := mem_attended.mp hattended
    obtain rfl := decide_eq_true_eq.mp hg
    exact ⟨t, hp.task?_of_mem hmem, by rw [hlive]; rfl⟩
  · rintro ⟨t, ht, hlive⟩
    have hc := consumer_of_task? ht
    have hmem := mem_attended.mpr ⟨mem_of_task? ht, by simpa using hlive⟩
    refine ⟨t, List.mem_filter.mpr ⟨hmem, ?_⟩, ?_⟩
    · rw [hc, decide_eq_true_eq]
    · rw [hc]

theorem Paired.consumersAt_nodup (hp : h.Paired) (g : GroupRef) : (h.consumersAt g).Nodup := by
  have hnodup := List.Nodup.of_map _ hp.nodup
  refine List.Nodup.map_on ?_ ((hnodup.filter _).filter _)
  intro s hs t ht hid
  simp only [List.mem_filter, mem_attended, decide_eq_true_eq] at hs ht
  exact List.inj_on_of_nodup_map hp.nodup hs.1.1 ht.1.1
    (ConsumerRef.ext (hs.2.trans ht.2.symm) hid)

/-- The slots of a group are its tasks. -/
theorem Paired.perm (hp : h.Paired) (g : GroupRef) :
    ((h.slotsAt g).map (·.id)).Perm (h.consumersAt g) := by
  refine (List.perm_ext_iff_of_nodup (h.slotsAt_nodup g) (hp.consumersAt_nodup g)).mpr fun id => ?_
  rw [mem_slotsAt, mem_consumersAt hp, hp.slots]

theorem Paired.slotsAt_of_idle (hp : h.Paired) (hnone : h.attended = []) (g : GroupRef) :
    h.slotsAt g = [] := by
  have hperm := hp.perm g
  rw [consumersAt, hnone] at hperm
  exact List.map_eq_nil_iff.mp hperm.eq_nil

/-- Without a runtime there are no tasks, and what a job subscribes is dropped at once. -/
theorem Reached.attended_of_stopped (hr : h.Reached) (hstopped : h.runtime = none) :
    h.attended = [] := by
  rw [List.eq_nil_iff_forall_not_mem]
  intro t ht
  obtain ⟨hmem, hlive⟩ := mem_attended.mp ht
  exact absurd (hr.onRuntime.tasks t hmem hlive) (by simp [hstopped])

/-- A consumer has its slot from its subscription until its task ends. -/
theorem Reached.slot?_isSome_iff (hr : h.Reached) (c : ConsumerRef) :
    (h.slot? c).isSome = true ↔
      (h.journal.subscribed? c).isSome = true ∧ h.journal.hasEnded c = false := by
  cases hr.lifetime c with
  | unborn hs _ hsub => simp [hs, hsub]
  | alive _ hs _ hk ha =>
    obtain ⟨kind, hsub, -⟩ := hk
    simp [hs, hsub, ha.running]
  | gone hs _ _ hend => simp [hs, hend]

/-! ## Without a runtime -/

/-- What the end of a task leaves of the buses. -/
theorem endTask_frame (h : Host) (t : Task) (what : Happening) :
    (h.endTask t what).buses.length = h.buses.length ∧
      (∀ g, (h.endTask t what).standing? g = h.standing? g) ∧
      ∀ b, (h.endTask t what).isClosed b = h.isClosed b := by
  have hfinish : ∀ g, (h.finish t what).standing? g = h.standing? g :=
    fun g => standing?_modifyGroup_of (f := (·.detach t.consumer.id)) (fun _ => rfl) (fun _ => rfl)
      _ _ g
  refine ⟨?_, fun g => ?_, fun b => ?_⟩
  · exact (release_of_abandon (·.buses.length) (fun h b => Change.length_modifyBus h b _)
      (t.held.map (·.2)) (h.finish t what)).trans (Change.length_modifyBus _ _ _)
  · exact (release_of_abandon (·.standing? g)
      (fun h b => standing?_congr (h.binding?_abandon b g)) (t.held.map (·.2))
      (h.finish t what)).trans (hfinish g)
  · exact (release_of_abandon (·.isClosed b) (fun h b' => h.isClosed_abandon b' b)
      (t.held.map (·.2)) (h.finish t what)).trans (isClosed_modifyGroup _ _ _ b)

theorem lose_frame (h : Host) (t : Task) :
    (h.lose t).buses.length = h.buses.length ∧ (∀ g, (h.lose t).standing? g = h.standing? g) ∧
      ∀ b, (h.lose t).isClosed b = h.isClosed b := by
  unfold lose
  split
  · exact ⟨Change.length_modifyBus _ _ _,
      fun g => standing?_modifyGroup_of (f := (·.detach t.consumer.id)) (fun _ => rfl)
        (fun _ => rfl) _ _ g, fun b => isClosed_modifyGroup _ _ _ b⟩
  · exact h.endTask_frame t _

theorem loseAll_frame (ts : List Task) (h : Host) :
    (h.loseAll ts).buses.length = h.buses.length ∧
      (∀ g, (h.loseAll ts).standing? g = h.standing? g) ∧
      ∀ b, (h.loseAll ts).isClosed b = h.isClosed b := by
  induction ts generalizing h with
  | nil => exact ⟨rfl, fun _ => rfl, fun _ => rfl⟩
  | cons t rest ih =>
    obtain ⟨hlen, hstand, hclosed⟩ := h.lose_frame t
    obtain ⟨hlen', hstand', hclosed'⟩ := ih (h.lose t)
    exact ⟨hlen'.trans hlen, fun g => (hstand' g).trans (hstand g),
      fun b => (hclosed' b).trans (hclosed b)⟩

/-- Stopping the runtime takes all consumers away, and nothing else of a bus but its last handles.
-/
theorem Reached.emptied_stopRuntime (hr : h.Reached) : h.Emptied h.stopRuntime := by
  obtain ⟨hchanges, hstopped⟩ := stopRuntime_changes hr
  have hafter := hr.changes hchanges
  have hnone := hafter.attended_of_stopped hstopped
  have hslots := hafter.paired.slotsAt_of_idle hnone
  have hframe : (∀ t' ∈ h.stopRuntime.tasks,
        t' ∈ h.tasks ∨ ∃ t ∈ h.attended, t.hasJob = true ∧ t' = t.orphan) ∧
      h.stopRuntime.buses.length = h.buses.length ∧
      (∀ g, h.stopRuntime.standing? g = h.standing? g) ∧
      ∀ b, h.stopRuntime.isClosed b = h.isClosed b := by
    cases hrun : h.runtime with
    | none =>
      have hsame : h.stopRuntime = h := by simp [stopRuntime, hrun]
      rw [hsame]
      exact ⟨fun t ht => .inl ht, rfl, fun _ => rfl, fun _ => rfl⟩
    | some r =>
      rw [stopRuntime_eq hr hrun]
      exact ⟨fun t ht => mem_loseAll ht, h.loseAll_frame h.attended⟩
  obtain ⟨hjobs, hframe⟩ := hframe
  exact ⟨hnone, hjobs, hslots, fun b type => count_of_slotsAt (hslots ⟨b, type⟩), hframe.1,
    fun g => by rw [kind?_eq_standing?, kind?_eq_standing?, hframe.2.1],
    fun g => by rw [nextId_eq_standing?, nextId_eq_standing?, hframe.2.1], hframe.2.2⟩

/-- Two consumers subscribe to one type, and the handler of the first panics with an event. -/
def panickingTurns : List Turn :=
  [.obey (.make "b" {} false),
    .obey (.subscribe (.named "b")
      { handler := ⟨⟨"p", .async⟩, fun _ => [.panic (.number 1)]⟩, kind := .int } false),
    .obey (.subscribe (.named "b") { handler := ⟨⟨"w", .async⟩, fun _ => []⟩, kind := .int } false),
    .obey (.publish (.named "b") (.int 1)),
    .move (.run waiter), .move (.run waiter), .move (.run waiter), .move (.run waiter),
    .move (.run waiter)]

def panicked : Host := ((initial true).replay panickingTurns).getD {}

theorem panicked_reachable : panicked.Reachable :=
  ⟨true, panickingTurns, run_of_isSome (by decide)⟩

/-- A handler that blocks and holds its bus, which nobody else does in the end. -/
def blocker : Subscriber Action where
  handler := ⟨⟨"w", .blocking⟩, fun _ => [.report]⟩
  kind := .int
  hold := [.named "b"]

/-- The handler is called with an event. -/
def callingTurns : List Turn :=
  [.obey (.make "b" {} false), .obey (.subscribe (.named "b") blocker false),
    .obey (.publish (.named "b") (.int 1)), .obey (.drop "b"), .move (.run waiter),
    .move (.run waiter), .move (.run waiter)]

def calling : Host := ((initial true).replay callingTurns).getD {}

theorem calling_reachable : calling.Reachable := ⟨true, callingTurns, run_of_isSome (by decide)⟩

end Host

end EventBus
