import EventBus.Proofs.Batch
import EventBus.Proofs.Departure
import EventBus.Proofs.Lending

/-!
# Both drains of a batch

A batch in the buffer and a batch that is lent come to the same. Where the handler makes no pause, a
task that is left to itself gets through its batch, by as many moves as there are things to do in
it.
-/

set_option autoImplicit false

namespace EventBus

namespace Action

def pauses : Action → Bool
  | sleep _ => true
  | _ => false

/-- Whether actions come to their end, or to a panic, without a pause. Where an answer may leave out
some of them, none of those that follow is a pause. -/
def prompt : List Action → Bool
  | [] | panic .. :: _ => true
  | sleep _ :: _ => false
  | consult .. :: rest => rest.all (!·.pauses)
  | _ :: rest => prompt rest

theorem prompt_of_calm {acts : List Action} (hcalm : acts.all (!·.pauses) = true) :
    prompt acts = true := by
  induction acts with
  | nil => rfl
  | cons a rest ih =>
    rw [List.all_cons, Bool.and_eq_true] at hcalm
    cases a with
    | panic => rfl
    | sleep ms => exact absurd hcalm.1 (by simp [pauses])
    | consult => exact hcalm.2
    | _ => exact ih hcalm.2

end Action

namespace Handler

variable (handler : Handler Action)

/-- Whether the handler, called with any of the events, returns or panics without a pause. -/
def Prompt (events : List Event) : Prop :=
  ∀ event ∈ events, Action.prompt (handler.react event) = true

instance (events : List Event) : Decidable (handler.Prompt events) :=
  inferInstanceAs (Decidable (∀ event ∈ events, Action.prompt (handler.react event) = true))

/-- How many moves there are in a batch at most, up to the last of its calls. -/
def load : List Event → Nat
  | [] => 0
  | event :: rest => (handler.react event).length + 2 + load rest

end Handler

namespace Task

/-- The task is in the middle of a batch that it gets through without a pause. -/
inductive Prompt (t : Task) : Prop
  | between {lent : Option (List Event)} : t.phase = .draining lent none →
      t.handler.Prompt t.batch → Prompt t
  | calling {lent : Option (List Event)} {call : Call} : t.phase = .draining lent (some call) →
      call.asleep = none → Action.prompt call.todo = true → t.handler.Prompt t.batch → Prompt t

/-- How many moves the task makes at most until it is through with its batch. -/
def work (t : Task) : Nat :=
  match t.phase with
  | .draining _ none => t.handler.load t.batch + 1
  | .draining _ (some call) => t.handler.load t.batch + call.todo.length + 2
  | _ => 0

/-- The task is through with its batch. -/
def Through (t : Task) : Prop := t.phase = .ready ∨ t.Failed

/-- `t'` is nearer to the end of the batch than `t`, or there. -/
def Nearer (t t' : Task) : Prop := t'.Through ∨ t'.Prompt ∧ t'.work < t.work

variable {t : Task} {lent : Option (List Event)} {call : Call}

theorem nearer_beginCall {event : Event} {rest : List Event} (hp : t.phase = .draining lent none)
    (hb : t.batch = event :: rest) (hprompt : t.handler.Prompt t.batch) :
    t.Nearer (t.beginCall lent event rest) := by
  have hbatch := batch_beginCall t lent event rest
  have hhandler : (t.beginCall lent event rest).handler = t.handler := by cases lent <;> rfl
  rw [hb] at hprompt
  have hrest : t.handler.Prompt rest := fun e he => hprompt e (List.mem_cons_of_mem _ he)
  have hwork : t.work = t.handler.load rest + (t.handler.react event).length + 3 := by
    simp only [work, hp, hb, Handler.load]
    omega
  refine .inr ⟨?_, ?_⟩
  · cases lent <;>
    · refine .calling rfl rfl (hprompt event List.mem_cons_self) ?_
      rw [hbatch, hhandler]
      exact hrest
  · rw [hwork]
    cases lent <;>
    · simp only [work, beginCall, batch]
      omega

theorem nearer_continueCall {a : Action} {rest : List Action}
    (hp : t.phase = .draining lent (some call)) (htodo : call.todo = a :: rest)
    (hawake : call.asleep = none) (n : Nat) (hrest : Action.prompt (rest.drop n) = true)
    (hprompt : t.handler.Prompt t.batch) :
    t.Nearer (t.continueCall lent { call with todo := rest.drop n }) := by
  have hbatch := batch_enter_draining hp (some { call with todo := rest.drop n })
  refine .inr ⟨.calling rfl hawake hrest (by rw [continueCall, ← enter, hbatch]; exact hprompt), ?_⟩
  simp only [work, hp, htodo, continueCall]
  rw [← enter, hbatch, List.length_drop, List.length_cons]
  omega

theorem nearer_endCall (hp : t.phase = .draining lent (some call)) (htodo : call.todo = [])
    (hprompt : t.handler.Prompt t.batch) : t.Nearer (t.endCall lent) := by
  have hbatch := batch_enter_draining hp none
  refine .inr ⟨.between rfl (by rw [endCall, ← enter, hbatch]; exact hprompt), ?_⟩
  simp only [work, hp, htodo, endCall]
  rw [← enter, hbatch]
  simp

end Task

namespace Host

variable {h h' : Host} {c : ConsumerRef} {t : Task}

/-- Whoever takes no batch leaves what was taken as it is. -/
theorem Tells.taken (htakes : h.Tells (fun what => ∀ c, what.takes? c = none) h')
    (c : ConsumerRef) : h'.journal.taken c = h.journal.taken c := by
  obtain ⟨news, hj, hnews⟩ := htakes
  rw [hj]
  clear hj
  induction news with
  | nil => rfl
  | cons x news ih =>
    rw [List.cons_append, Journal.taken, hnews x List.mem_cons_self]
    exact ih fun y hy => hnews y (List.mem_cons_of_mem x hy)

/-- From `h` to `h'` the task `t` gets nearer to the end of its batch, and no batch is taken. -/
def Nears (h : Host) (t : Task) (h' : Host) : Prop :=
  (∃ t' ∈ h'.tasks, t'.consumer = t.consumer ∧ t'.orphaned = t.orphaned ∧ t.Nearer t') ∧
    h.Tells (fun what => ∀ c, what.takes? c = none) h'

section

variable (hr : h.Reachable) (ht : h.task? t.consumer = some t)

include hr ht

theorem perform_nears {lent : Option (List Event)} {call : Call}
    (hp : t.phase = .draining lent (some call)) (hawake : call.asleep = none) {a : Action}
    {rest : List Action} (htodo : call.todo = a :: rest)
    (hacts : Action.prompt (a :: rest) = true) (hprompt : t.handler.Prompt t.batch) :
    h.Nears t (h.perform t lent { call with todo := rest } a) := by
  have hnext : ∀ n : Nat, Action.prompt (rest.drop n) = true →
      t.Nearer (t.continueCall lent { call with todo := rest.drop n }) := fun n hrest =>
    Task.nearer_continueCall hp htodo hawake n hrest hprompt
  have hmem : ∀ n, t.continueCall lent { call with todo := rest.drop n } ∈
      (h.setTask (t.continueCall lent { call with todo := rest.drop n })).tasks :=
    fun n => mem_setTask (t.continueCall lent { call with todo := rest.drop n }) ht rfl
  have hperforms := perform_asked hr.reached ht (hr.loyal t (mem_of_task? ht)) hp
    { call with todo := rest } a
  -- a request leaves the task as it is and enters nothing that a task does
  have hask : ∀ (n : Nat) {answered : Answer × Host}, Action.prompt (rest.drop n) = true →
      (h.setTask (t.continueCall lent { call with todo := rest.drop n })).Asked answered.2 →
      h.Nears t (enter t a answered) := by
    intro n answered hrest hasked
    have hquiet : h.Tells (fun what => what.isOfTask = false) answered.2 := hasked.quiet
    refine ⟨⟨_, hasked.tasks _ (hmem n), rfl, rfl, hnext n hrest⟩, ?_⟩
    refine (hquiet.mono fun x hx c => ?_).trans (.of_cons rfl fun _ => rfl)
    cases x <;> first | rfl | exact absurd hx (by simp [Happening.isOfTask])
  cases a with
  | panic payload early =>
    exact ⟨⟨t.fail payload _, mem_setTask (t.fail payload _) ht rfl, rfl, rfl,
      .inl (.inr ⟨payload, _, rfl⟩)⟩, .of_same rfl⟩
  | sleep ms => exact absurd hacts (by simp [Action.prompt])
  | report => exact ⟨⟨_, hmem 0, rfl, rfl, hnext 0 hacts⟩, .of_cons rfl fun _ => rfl⟩
  -- what is left after the answer is part of what was left, and makes no pause either
  | consult question skip =>
    generalize h.perform t lent { call with todo := rest } _ = h' at hperforms ⊢
    cases hperforms with
    | asked n answered _ _ hasked =>
      refine hask n (Action.prompt_of_calm ?_) hasked
      exact List.all_eq_true.mpr fun b hb =>
        List.all_eq_true.mp hacts b (List.mem_of_mem_drop hb)
  | _ =>
    generalize h.perform t lent { call with todo := rest } _ = h' at hperforms ⊢
    cases hperforms with
    | asked n answered _ hn hasked =>
      -- only a question leaves anything out
      obtain rfl : n = 0 := hn.resolve_right (by simp [Action.asks])
      exact hask 0 hacts hasked

/-- A task that makes no pause can move, and gets nearer to the end of its batch by that. -/
theorem exists_nears (hprompt : t.Prompt) : ∃ h', h.TaskStep t h' ∧ h.Nears t h' := by
  have hset : ∀ {t' : Task}, t'.consumer = t.consumer → t'.orphaned = t.orphaned → t.Nearer t' →
      h.Nears t (h.setTask t') := fun hc horphan hnear =>
    ⟨⟨_, mem_setTask _ ht hc, hc, horphan, hnear⟩, .of_same rfl⟩
  have hnote : ∀ {t' : Task} {what : Happening}, (∀ c, what.takes? c = none) →
      t'.consumer = t.consumer → t'.orphaned = t.orphaned → t.Nearer t' →
      h.Nears t ((h.setTask t').note what) :=
    fun hw hc horphan hnear => ⟨(hset hc horphan hnear).1, .of_cons rfl hw⟩
  cases hprompt with
  | between hp hevents =>
    cases hb : t.batch with
    | nil => exact ⟨_, .endBatch hp hb, hnote (fun _ => rfl) rfl rfl (.inl (.inl rfl))⟩
    | cons event rest =>
      refine ⟨_, .beginCall hp hb,
        hnote (fun _ => rfl) ?_ ?_ (Task.nearer_beginCall hp hb hevents)⟩
      · unfold Task.beginCall
        split <;> rfl
      · unfold Task.beginCall
        split <;> rfl
  | @calling lent call hp hawake hacts hevents =>
    obtain ⟨event, todo, asleep⟩ := call
    obtain rfl : asleep = none := hawake
    cases todo with
    | nil =>
      exact ⟨_, .endCall hp rfl rfl, hset rfl rfl (Task.nearer_endCall hp rfl hevents)⟩
    | cons a rest =>
      exact ⟨_, .perform hp rfl rfl, perform_nears hr ht hp rfl rfl hacts hevents⟩

end

/-- **A task that is left to itself gets through its batch**, if its handler makes no pause. -/
theorem Reachable.gets_through (hr : h.Reachable) (ht : h.task? c = some t)
    (hlive : t.orphaned = false) (hprompt : t.Prompt) :
    ∃ n h' t', Run h (List.replicate n (.move (.run c))) h' ∧ h'.task? c = some t' ∧ t'.Through ∧
      h'.journal.taken c = h.journal.taken c := by
  induction hw : t.work using Nat.strongRecOn generalizing h t with
  | _ w ih =>
    obtain rfl := consumer_of_task? ht
    obtain ⟨m, hstep, ⟨s, hs, hc, horphan, hnear⟩, htells⟩ := exists_nears hr ht hprompt
    have hmove : h.turn? (.move (.run t.consumer)) = some m :=
      turnStep_iff.mp (.move (.run ht (fun _ => hlive) hstep))
    have hm := hr.run (.single hmove)
    have hs' : m.task? t.consumer = some s := hc ▸ hm.reached.paired.task?_of_mem hs
    rcases hnear with hthrough | ⟨hprompt', hless⟩
    · exact ⟨1, m, s, .single hmove, hs', hthrough, htells.taken _⟩
    · obtain ⟨n, h', t', run, ht', hthrough, htaken⟩ := ih s.work (hw ▸ hless) hm hs'
        (horphan.trans hlive) hprompt' rfl
      exact ⟨n + 1, h', t', .cons hmove run, ht', hthrough, htaken.trans (htells.taken _)⟩

/-! ## In the buffer and lent -/

theorem map_tasks_of_own (hn : (h.tasks.map (·.consumer)).Nodup) (ht : h.task? c = some t)
    {f : Task → Task} (hf : f t = t) (hother : ∀ s, s.consumer ≠ c → f s = s) :
    h.tasks.map f = h.tasks := by
  refine (List.map_congr_left fun s hs => ?_).trans (List.map_id _)
  by_cases hc : s.consumer = c
  · have hs' : h.task? c = some s := find?_of_key hn hs fun _ => by simp [hc]
    obtain rfl := Option.some.inj (hs'.symm.trans ht)
    exact hf
  · exact hother s hc

/-- In a state of a run, one of both ways is the way that the program goes. -/
theorem Reachable.ways (hr : h.Reachable) (ht : h.task? c = some t) {lent : Option (List Event)}
    {call : Option Call} (hp : t.phase = .draining lent call) :
    (h.kept c).lent c = h.lent c ∧
      (if t.handler.profile.isBlocking then h.lent c else h.kept c) = h := by
  have hn := hr.reached.paired.nodup
  have hc := consumer_of_task? ht
  have hlends := (hr.sound t (mem_of_task? ht)).lends lent call hp
  have hsame : ∀ {f : Task → Task}, h.tasks.map f = h.tasks →
      ({ h with tasks := h.tasks.map f } : Host) = h := fun hf =>
    congrArg (fun tasks => { h with tasks }) hf
  rw [← hlends]
  cases lent with
  | none =>
    have hkept : h.kept c = h :=
      hsame (map_tasks_of_own hn ht (by rw [if_pos hc, Task.keep, hp]) fun s hs => if_neg hs)
    rw [hkept]
    exact ⟨rfl, rfl⟩
  | some events =>
    have hbuffer : t.buffer = [] := hr.reached.bufferClear t (mem_of_task? ht) (by simp [hp])
    have hnot : ¬t.Keeps := by
      rintro ⟨_, hk⟩
      simp [hp] at hk
    have hlent : h.lent c = h :=
      hsame (map_tasks_of_own hn ht (Task.lendFor_of_not_keeps hnot) fun s hs =>
        Task.lendFor_other hs)
    have hkept : (h.kept c).lent c = h := by
      rw [lent, kept, List.map_map]
      refine hsame (map_tasks_of_own hn ht ?_ fun s hs => ?_)
      · rw [Function.comp_apply, if_pos hc, Task.lendFor, if_pos (Task.consumer_keep.trans hc),
          Task.lend_keep hp hbuffer]
      · rw [Function.comp_apply, if_neg hs, Task.lendFor_other hs]
    rw [hlent]
    exact ⟨hkept, rfl⟩

/-- Where no panic is early, both ways are alike. -/
theorem Reachable.abreast (hr : h.Reachable) (ht : h.task? c = some t) {lent : Option (List Event)}
    {call : Option Call} (hp : t.phase = .draining lent call) (hd : t.handler.Deferred) :
    Abreast c (h.kept c) (h.lent c) := by
  have htask : (h.kept c).task? c = some t.keep := by rw [task?_kept, ht, Option.map_some]
  have hphase : t.keep.phase = .draining none call := by
    unfold Task.keep
    cases lent <;> simp [hp]
  have hhandler : t.keep.handler = t.handler := by
    unfold Task.keep
    split <;> rfl
  have hdeferred : t.keep.Deferred := by
    refine ⟨hhandler ▸ hd, fun lent' call' hp' a ha => ?_⟩
    obtain ⟨-, rfl⟩ : none = lent' ∧ call = some call' := by simpa using hphase.symm.trans hp'
    obtain ⟨-, hreact⟩ := (hr.sound t (mem_of_task? ht)).calling lent call' hp
    exact hd _ a (hreact a ha)
  have hsame := (hr.ways ht hp).1
  exact hsame ▸ .underWay htask ⟨call, hphase⟩ hdeferred

theorem Reachable.either_reached (hr : h.Reachable) (ht : h.task? c = some t)
    {lent : Option (List Event)} {call : Option Call} (hp : t.phase = .draining lent call) :
    (h.kept c).Reached ∨ (h.lent c).Reached := by
  obtain ⟨-, hown⟩ := hr.ways ht hp
  split at hown
  · exact .inr (hown.symm ▸ hr.reached)
  · exact .inl (hown.symm ▸ hr.reached)

/-! ## Left to itself -/

theorem replay_of_run {us : List Turn} (run : Run h us h') : h.replay us = some h' := by
  induction run with
  | nil h => rfl
  | cons turn _ ih =>
    rw [replay, turn]
    exact ih

theorem Abreast.eq_of_through {k l : Host} (ha : Abreast c k l) {s : Host} (hs : s = k ∨ s = l)
    (ht : s.task? c = some t) (hthrough : t.Through) : k = s ∧ l = s := by
  cases ha with
  | through => exact ⟨by simpa [eq_comm] using hs, by simpa [eq_comm] using hs⟩
  | @underWay u hu hkeeps _ =>
    exfalso
    obtain ⟨call, hp⟩ := hkeeps
    have hdraining : ∃ lent call, t.phase = .draining lent call := by
      rcases hs with rfl | rfl
      · obtain rfl := Option.some.inj (hu.symm.trans ht)
        exact ⟨none, call, hp⟩
      · rw [task?_lent, hu, Option.map_some, Option.some.injEq] at ht
        refine ⟨some u.buffer, call, ?_⟩
        rw [← ht, Task.lendFor, if_pos (consumer_of_task? hu), Task.lend, hp]
    obtain ⟨lent, call, hp⟩ := hdraining
    rcases hthrough with hready | ⟨payload, caught, hf⟩
    · exact absurd (hready.symm.trans hp) (by simp)
    · exact absurd (hf.symm.trans hp) (by simp)

/-- When the task is through with its batch after one of both runs, both lead to the same state. -/
theorem Abreast.replay_of_through {k l : Host} (ha : Abreast c k l) (hr : k.Reached ∨ l.Reached)
    {us : List Turn} (hus : ∀ u ∈ us, u.stopsRuntime = false) {s : Host}
    (hs : k.replay us = some s ∨ l.replay us = some s) (ht : s.task? c = some t)
    (hthrough : t.Through) : k.replay us = some s ∧ l.replay us = some s := by
  have hboth := ha.replay hr hus
  generalize k.replay us = k' at hboth hs ⊢
  generalize l.replay us = l' at hboth hs ⊢
  cases hboth with
  | none => exact absurd hs (by simp)
  | some hm =>
    simp only [Option.some.injEq] at hs ⊢
    exact hm.1.eq_of_through (hs.imp Eq.symm Eq.symm) ht hthrough

theorem not_draining_of_through (hthrough : t.Through) : ¬t.Draining := by
  rintro ⟨lent, call, hp⟩
  rcases hthrough with hready | ⟨payload, caught, hf⟩
  · exact absurd (hready.symm.trans hp) (by simp)
  · exact absurd (hf.symm.trans hp) (by simp)

/-- Where the handler makes no pause, both ways lead through the batch by the same moves, and to the
same state. -/
theorem Reachable.drains (hr : h.Reachable) (ht : h.task? c = some t)
    (hlive : t.orphaned = false) {lent : Option (List Event)} (hp : t.phase = .draining lent none)
    (hd : t.handler.Deferred) (hprompt : t.handler.Prompt t.batch) :
    ∃ n h' t' made, (h.kept c).replay (List.replicate n (.move (.run c))) = some h' ∧
      (h.lent c).replay (List.replicate n (.move (.run c))) = some h' ∧
      h'.task? c = some t' ∧ t'.Through ∧
      h'.journal.delivered c = h.journal.delivered c ++ made ∧ t.Delivery made t' := by
  obtain ⟨n, h', t', run, ht', hthrough, htaken⟩ := hr.gets_through ht hlive (.between hp hprompt)
  obtain ⟨made, hmade, hdelivery⟩ := hr.delivery ht hp run htaken ht'
  obtain ⟨-, hown⟩ := hr.ways ht hp
  have hplayed : (h.kept c).replay (List.replicate n (.move (.run c))) = some h' ∨
      (h.lent c).replay (List.replicate n (.move (.run c))) = some h' := by
    split at hown
    · exact .inr (hown.symm ▸ replay_of_run run)
    · exact .inl (hown.symm ▸ replay_of_run run)
  obtain ⟨hkept, hlent⟩ :=
    (hr.abreast ht hp hd).replay_of_through (hr.either_reached ht hp)
      (by simp [Turn.stopsRuntime]) hplayed ht' hthrough
  exact ⟨n, h', t', made, hkept, hlent, ht', hthrough, hmade, hdelivery⟩

/-! ## After a panic -/

/-- The handler of `c` panicked: the task failed, or is gone, and the slot with it. -/
inductive Spent (h : Host) (c : ConsumerRef) (payload : Payload) : Prop
  | failed {t : Task} {caught : Bool} : h.task? c = some t → t.phase = .failed payload caught →
      Spent h c payload
  | gone : h.task? c = none → h.slot? c = none → c ∈ h.journal.subscribers → Spent h c payload

end Host

open Host

variable {h h' : Host} {c : ConsumerRef} {t : Task} {payload : Payload} {caught : Bool}

/-- From `j` to `j'` nothing is taken for `c`, and nothing is handed to its handler. -/
def Journal.Still (c : ConsumerRef) (j j' : Journal) : Prop :=
  j'.taken c = j.taken c ∧ j'.delivered c = j.delivered c

theorem Journal.Agrees.still {j j' : Journal} (ha : Journal.Agrees c j j') : Journal.Still c j j' :=
  ⟨ha.taken, ha.delivered⟩

namespace Change

variable {n : Nature}

theorem still_of_failed (hc : Change n h h') (hr : h.Reached) (ht : h.task? c = some t)
    (hp : t.phase = .failed payload caught) :
    h'.Spent c payload ∧ Journal.Still c h.journal h'.journal := by
  have hsubscriber := hr.subscriber_of_task ht
  have hknown := hr.known_of_subscriber hsubscriber
  -- a task that failed stays so until it ends
  have hkept : ∀ {t' : Task}, h'.task? c = some t' → t'.phase = t.phase → h'.Spent c payload :=
    fun ht' hphase => .failed ht' (hphase.trans hp)
  cases hc.life hr c with
  | apart news _ hs hj hnews =>
    exact ⟨hkept (hs.trans ht) rfl, hj ▸ (Journal.agrees_of_foreign hnews h.journal).still⟩
  | heard _ _ _ _ hs hj | unheard _ _ _ _ hs hj | closed _ hs hj | cancelled _ _ _ hs hj =>
    exact ⟨hkept (hs.trans ht) rfl, by rw [hj]; exact ⟨rfl, rfl⟩⟩
  | ticked _ hs hj =>
    rw [ht] at hs
    exact ⟨hkept hs t.phase_wake, by rw [hj]; exact ⟨rfl, rfl⟩⟩
  | enrolled hcons ha | stillborn hcons ha => exact (hknown.not_admissible hcons ha).elim
  | stepped hs hstep =>
    obtain rfl := Option.some.inj (hs.symm.trans ht)
    -- no step is possible in this phase but the end
    refine absurd hp ?_
    cases hstep with
    | register hp' | findNothing hp' | park hp' | resume hp' | beginCall hp' | work hp'
    | endCall hp' | endBatch hp' | fail hp' => rw [hp']; simp
  | took hs harmed =>
    obtain rfl := Option.some.inj (hs.symm.trans ht)
    exact absurd (harmed.symm.trans hp) (by simp)
  | finished hs he hslot hgone hj =>
    refine ⟨.gone hgone hslot (hc.keeps_subscriber hsubscriber), ?_⟩
    rw [hj]
    cases he <;> exact ⟨rfl, rfl⟩
  | leftJob hs _ hjob =>
    obtain rfl := Option.some.inj (hs.symm.trans ht)
    -- only a call that runs leaves a job
    obtain ⟨_, _, hdraining⟩ := Task.draining_of_hasJob hjob
    exact absurd (hdraining.symm.trans hp) (by simp)
  | jobOver hs horphan =>
    obtain rfl := Option.some.inj (hs.symm.trans ht)
    have hlive := (hr.paired.jobs _ (mem_of_task? ht)).attended (by simp [hp])
    exact absurd (hlive.symm.trans horphan) (by simp)

theorem still_of_gone (hc : Change n h h') (hr : h.Reached) (hgone : h.task? c = none)
    (hslot : h.slot? c = none) (hs : c ∈ h.journal.subscribers) :
    (h'.task? c = none ∧ h'.slot? c = none) ∧ Journal.Still c h.journal h'.journal := by
  have hknown := hr.known_of_subscriber hs
  cases hc.life hr c with
  | apart news hs ht hj hnews =>
    exact ⟨⟨ht.trans hgone, hs.trans hslot⟩,
      hj ▸ (Journal.agrees_of_foreign hnews h.journal).still⟩
  | heard _ _ _ hs ht hj =>
    rw [hslot] at hs
    exact ⟨⟨ht.trans hgone, hs⟩, by rw [hj]; exact ⟨rfl, rfl⟩⟩
  | unheard _ _ _ hs ht hj | closed hs ht hj =>
    exact ⟨⟨ht.trans hgone, hs.trans hslot⟩, by rw [hj]; exact ⟨rfl, rfl⟩⟩
  | ticked hs ht hj =>
    rw [hgone] at ht
    exact ⟨⟨ht, hs.trans hslot⟩, by rw [hj]; exact ⟨rfl, rfl⟩⟩
  | enrolled hcons ha | stillborn hcons ha => exact (hknown.not_admissible hcons ha).elim
  | cancelled hlive => exact absurd (hslot.symm.trans hlive) (by simp)
  | stepped ht | took ht | finished ht | leftJob ht | jobOver ht =>
    exact absurd (hgone.symm.trans ht) (by simp)

end Change

theorem Changes.spent (hc : Changes (fun _ => True) h h') (hr : h.Reached)
    (hs : h.Spent c payload) : h'.Spent c payload ∧ Journal.Still c h.journal h'.journal := by
  have hall := hc.keeps (P := fun m => m.Reached ∧ m.Spent c payload ∧
      Journal.Still c h.journal m.journal)
    (fun {m m' _} hchange ⟨hm, hspent, htaken, hdelivered⟩ => by
      have hstill : m'.Spent c payload ∧ Journal.Still c m.journal m'.journal := by
        cases hspent with
        | failed ht hp => exact hchange.still_of_failed hm ht hp
        | gone hnone hslot hsub =>
          obtain ⟨⟨htask, hslot'⟩, hstill⟩ := hchange.still_of_gone hm hnone hslot hsub
          exact ⟨.gone htask hslot' (hchange.keeps_subscriber hsub), hstill⟩
      exact ⟨hm.change hchange, hstill.1, hstill.2.1.trans htaken, hstill.2.2.trans hdelivered⟩)
    ⟨hr, hs, rfl, rfl⟩
  exact hall.2

namespace Host

/-- The task that failed can end, and the slot goes with it. -/
theorem Reachable.ends_of_failed (hr : h.Reachable) (ht : h.task? c = some t)
    (hp : t.phase = .failed payload caught) :
    ∃ h', h.turn? (.move (.run c)) = some h' ∧ h'.task? c = none ∧ h'.slot? c = none ∧
      h'.journal = ⟨h.now, .panicked c t.handler.profile payload caught⟩ :: h.journal := by
  obtain rfl := consumer_of_task? ht
  have hlive : t.orphaned = false :=
    (hr.reached.paired.jobs t (mem_of_task? ht)).attended (by simp [hp])
  have hmove : h.turn? (.move (.run t.consumer)) =
      some (h.endTask t (.panicked t.consumer t.handler.profile payload caught)) :=
    turnStep_iff.mp (.move (.run ht (fun _ => hlive) (.fail hp)))
  have hr' := (hr.run (.single hmove)).reached
  have hgone :=
    task?_endTask (h := h) t (.panicked t.consumer t.handler.profile payload caught) t.consumer
  rw [if_pos rfl] at hgone
  refine ⟨_, hmove, hgone, ?_, journal_endTask _ _⟩
  have hslots := hr'.paired.slots t.consumer
  rw [hasTask, hgone] at hslots
  exact Option.isNone_iff_eq_none.mp (by simpa using hslots)

end Host

end EventBus
