import EventBus.Proofs.PrivateRest
import EventBus.Proofs.ShadowTurns
import EventBus.Proofs.Stillness

/-!
# The story of a run for everybody but one

What is asked from outside, with the instant, and what the others do, in order: this is the story of
a run for everybody but a consumer. If somebody asks about the consumer and goes by the answer, then
what is left out for that is part of what it does, and of the story.

The shadow without the consumer `Plays` the story of every run. The story leaves it no choice but
how long to stay at the end. And every story that it plays in which nobody asks about the consumer
is that of a run, as the consumer comes to rest at every instant.
-/

set_option autoImplicit false

namespace EventBus

/-- One thing in a story: a command at an instant, or a move, with the number of actions that were
left out if that was for an answer about the consumer. -/
inductive Scene where
  | asked (instant : Nat) (command : Command)
  | moved (m : Move) (heard : Option Nat)

/-- What was left out for an answer about the consumer. -/
def Scene.heard? : Scene → Option Nat
  | asked .. => none
  | moved _ heard => heard

/-- What a turn is to everybody but `c`. That time passes is not told. -/
def Turn.scene? (c : ConsumerRef) (h : Host) : Turn → Option Scene
  | obey command => some (.asked h.now command)
  | move m => if m.IsOf c then none else some (.moved m (h.heard? c m))
  | pass _ => none

namespace Host

variable {c : ConsumerRef} {h h' k k' : Host}

/-- The story of some turns for everybody but `c`. -/
def story (c : ConsumerRef) : Host → List Turn → List Scene
  | _, [] => []
  | h, t :: ts =>
    (t.scene? c h).toList ++
      match h.turn? t with
      | none => []
      | some h' => h'.story c ts

theorem story_cons {m : Host} {t : Turn} (ts : List Turn) (hm : h.turn? t = some m) :
    h.story c (t :: ts) = (t.scene? c h).toList ++ m.story c ts := by
  rw [story, hm]

theorem Run.story_append {m : Host} {ts us : List Turn} (run : Run h ts m) :
    h.story c (ts ++ us) = h.story c ts ++ m.story c us := by
  induction run with
  | nil => rfl
  | cons turn _ ih =>
    rw [List.cons_append, story_cons _ turn, story_cons _ turn, ih, List.append_assoc]

/-- The moves of the others among some moves, with what was left out for answers about `c`. -/
def tale (c : ConsumerRef) : Host → List Move → List (Move × Option Nat)
  | _, [] => []
  | h, m :: ms =>
    (if m.IsOf c then [] else [(m, h.heard? c m)]) ++
      match h.move? m with
      | none => []
      | some h' => h'.tale c ms

/-- Of moves, the story tells those of the others. -/
theorem story_moves (h : Host) (ms : List Move) :
    h.story c (ms.map .move) = (h.tale c ms).map fun x => .moved x.1 x.2 := by
  induction ms generalizing h with
  | nil => rfl
  | cons m ms ih =>
    have hscene : ((Turn.move m).scene? c h).toList =
        (if m.IsOf c then [] else [(m, h.heard? c m)]).map fun x => Scene.moved x.1 x.2 := by
      rw [Turn.scene?]
      split <;> rfl
    cases hm : h.move? m with
    | none => simp only [List.map_cons, story, tale, turn?, hm, hscene, List.append_nil]
    | some h' => simp only [List.map_cons, story, tale, turn?, hm, hscene, List.map_append, ih]

/-! ## The consumer comes to rest -/

theorem toil_move? (hown : ∀ t, h.task? c = some t → t.Private) {m : Move} (hm : m.IsOf c)
    (hh : h.move? m = some h') : h'.toil c < h.toil c := by
  cases m with
  | run d =>
    obtain rfl : d = c := hm
    obtain ⟨t, ht, hrun⟩ := Option.bind_eq_some_iff.mp hh
    obtain ⟨deed, hact, hdoes⟩ := exists_act ht (hown t ht) hrun
    exact hdoes.toil_lt ht hact
  | leave d =>
    obtain rfl : d = c := hm
    obtain ⟨t, ht, hleave⟩ := Option.bind_eq_some_iff.mp hh
    rw [toil, toil, ht, (does_leave ht (hown t ht) hleave).task]
    exact Nat.succ_pos _
  | tick | halt => exact hm.elim

/-- The consumer makes the moves that it can make at this instant. Nothing of it is told. -/
theorem Shadow.rest (sh : Shadow c h k) : ∃ ts h', Run h ts h' ∧ h.story c ts = [] ∧
    Shadow c h' k ∧ ∀ m : Move, m.IsOf c → h'.move? m = none := by
  generalize hn : h.toil c = n
  induction n using Nat.strongRecOn generalizing h with
  | ind n ih =>
    by_cases hrest : ∀ m : Move, m.IsOf c → h.move? m = none
    · exact ⟨[], h, .nil h, rfl, sh, hrest⟩
    · obtain ⟨m, hm⟩ := not_forall.mp hrest
      obtain ⟨hown, hmoves⟩ := Classical.not_imp.mp hm
      obtain ⟨h₁, hh⟩ := Option.ne_none_iff_exists'.mp hmoves
      have hless := toil_move? (fun t ht => sh.own_task ht) hown hh
      obtain ⟨ts, h', run, hstory, hshadow, hidle⟩ := ih _ (hn ▸ hless) (sh.own_move hown hh) rfl
      refine ⟨.move m :: ts, h', .cons hh run, ?_, hshadow, hidle⟩
      rw [story_cons ts (t := .move m) hh, hstory, Turn.scene?, if_pos hown]
      rfl

/-! ## What the shadow plays -/

/-- `Plays c k s k'`: nobody but the others around, the story `s` leads from `k` to `k'`. Time
passes a millisecond at a time, when nobody can move. -/
inductive Plays (c : ConsumerRef) : Host → List Scene → Host → Prop where
  | nil (k : Host) : Plays c k [] k
  | wait {k k' : Host} {s : List Scene} :
      k.isQuiet = true → Plays c (k.setClock (k.now + 1)) s k' → Plays c k s k'
  | asked {k k' : Host} {s : List Scene} {command : Command} :
      command.takesTime = false → Plays c (k.obey command).2 s k' →
      Plays c k (.asked k.now command :: s) k'
  | moved {k k₁ k' : Host} {s : List Scene} {m : Move} {heard : Option Nat} :
      k.told? c m heard = some k₁ → Plays c k₁ s k' → Plays c k (.moved m heard :: s) k'

namespace Plays

variable {s : List Scene}

theorem wait_until {instant : Nat} (hquiet : k.isQuiet = true)
    (halarms : ∀ alarm ∈ k.alarms, k.now < alarm → instant ≤ alarm) (hle : k.now ≤ instant)
    (hp : Plays c (k.setClock instant) s k') : Plays c k s k' := by
  obtain ⟨n, rfl⟩ := Nat.exists_eq_add_of_le hle
  clear hle
  induction n generalizing k with
  | zero => exact hp
  | succ n ih =>
    refine .wait hquiet ?_
    cases n with
    | zero => exact hp
    | succ n =>
      have hsum : k.now + 1 + (n + 1) = k.now + (n + 1 + 1) := by omega
      have hnext : ∀ alarm ∈ k.alarms, k.now < alarm → k.now + 1 < alarm := by
        intro alarm ha hlt
        have := halarms alarm ha hlt
        omega
      refine ih (k := k.setClock (k.now + 1)) (isQuiet_setClock hnext hquiet) ?_ ?_
      · intro alarm ha hlt
        have := halarms alarm ha (Nat.lt_of_succ_lt hlt)
        show k.now + 1 + (n + 1) ≤ alarm
        omega
      · show Plays c (k.setClock (k.now + 1 + (n + 1))) s k'
        rw [hsum]
        exact hp

/-- Nothing is asked before the present. -/
theorem now_le {instant : Nat} {command : Command}
    (hp : Plays c k (.asked instant command :: s) k') : k.now ≤ instant := by
  generalize hs : Scene.asked instant command :: s = scenes at hp
  induction hp with
  | nil => exact absurd hs (by simp)
  | wait _ _ ih => exact Nat.le_of_succ_le (ih hs)
  | asked =>
    obtain ⟨⟨rfl, -⟩, -⟩ : (_ ∧ _) ∧ _ := by simpa using hs
    exact Nat.le_refl _
  | moved => exact absurd hs (by simp)

/-- What is asked in the present is not put off. -/
theorem of_asked {instant : Nat} {command : Command} (hnow : instant = k.now)
    (hp : Plays c k (.asked instant command :: s) k') : Plays c (k.obey command).2 s k' := by
  cases hp with
  | wait _ hp =>
    have hle := hp.now_le
    exact absurd (hnow ▸ hle) (Nat.not_succ_le_self _)
  | asked _ hp => exact hp

/-- When there is nothing to play, time passes. -/
theorem eq_of_nil (hp : Plays c k [] k') : k' = k.setClock k'.now := by
  generalize hs : ([] : List Scene) = scenes at hp
  induction hp with
  | nil => rfl
  | wait _ _ ih => exact ih hs
  | asked | moved => exact absurd hs (by simp)

/-- **The story tells all** but how long the shadow stays at the end. -/
theorem deterministic {k₁ k₂ : Host} (ha : Plays c k s k₁) (hb : Plays c k s k₂) :
    k₂ = k₁.setClock k₂.now := by
  induction ha with
  | nil => exact hb.eq_of_nil
  | wait hquiet ha ih =>
    cases hb with
    | nil => rw [ha.eq_of_nil]; rfl
    | wait _ hb => exact ih hb
    | asked _ hb => exact absurd ha.now_le (Nat.not_succ_le_self _)
    | moved hm _ => exact absurd (isQuiet_iff.mp hquiet _) (move?_ne_none hm)
  | asked _ _ ih => exact ih (hb.of_asked rfl)
  | moved hm _ ih =>
    cases hb with
    | wait hquiet _ => exact absurd (isQuiet_iff.mp hquiet _) (move?_ne_none hm)
    | moved hm' hb =>
      obtain rfl := Option.some.inj (hm.symm.trans hm')
      exact ih hb

end Plays

/-! ## The shadow of a run -/

namespace Shadow

theorem setClock (sh : Shadow c h k) (instant : Nat) :
    Shadow c (h.setClock instant) (k.setClock instant) :=
  { sh with now := rfl }

/-- What somebody else does in a program is done in the shadow, if that is told what it cannot tell.
-/
theorem follows (sh : Shadow c h k) {m : Move} (hm : ¬m.IsOf c) (hh : h.move? m = some h') :
    ∃ k', k.told? c m (h.heard? c m) = some k' ∧ Shadow c h' k' := by
  have hrel := sh.told? hm (h.heard? c m)
  rw [told?_heard?, hh] at hrel
  generalize k.told? c m (h.heard? c m) = found at hrel
  cases hrel with
  | some hnext => exact ⟨_, rfl, hnext⟩

/-- What is done in the shadow is done in the program. -/
theorem precedes (sh : Shadow c h k) {m : Move} (hm : ¬m.IsOf c) {heard : Option Nat}
    (hk : k.told? c m heard = some k') : ∃ h', h.told? c m heard = some h' ∧ Shadow c h' k' := by
  have hrel := sh.told? hm heard
  rw [hk] at hrel
  generalize h.told? c m heard = found at hrel
  cases hrel with
  | some hnext => exact ⟨_, rfl, hnext⟩

/-- The consumer does not move in the shadow. -/
theorem move?_own (sh : Shadow c h k) {m : Move} (hm : m.IsOf c) : k.move? m = none := by
  have hnone : k.task? c = none := by
    rw [Host.task?, sh.tasks, List.find?_eq_none]
    exact fun t ht hc => by simpa [hc] using (List.mem_filter.mp ht).2
  cases m with
  | run d =>
    obtain rfl : d = c := hm
    rw [Host.move?, hnone, Option.bind_none]
  | leave d =>
    obtain rfl : d = c := hm
    rw [Host.move?, hnone, Option.bind_none]
  | tick | halt => exact hm.elim

/-- When nobody can move, nobody but the consumer can. -/
theorem isQuiet (sh : Shadow c h k) (hidle : ∀ m : Move, ¬m.IsOf c → h.move? m = none) :
    k.isQuiet = true := by
  refine isQuiet_iff.mpr fun m => ?_
  by_cases hm : m.IsOf c
  · exact sh.move?_own hm
  · refine Option.eq_none_iff_forall_ne_some.mpr fun k₁ hk => ?_
    obtain ⟨h₁, hh, -⟩ := sh.precedes hm ((k.told?_heard? c m).trans hk)
    exact absurd (hidle m hm) (move?_ne_none hh)

theorem alarms_subset (sh : Shadow c h k) : ∀ alarm ∈ k.alarms, alarm ∈ h.alarms := by
  intro alarm ha
  rw [alarms, List.mem_append, sh.loops, sh.tasks] at ha
  refine List.mem_append.mpr (ha.imp_right fun ha => ?_)
  obtain ⟨t, ht, halarm⟩ := List.mem_filterMap.mp ha
  exact List.mem_filterMap.mpr ⟨t, (List.mem_filter.mp ht).1, halarm⟩

/-- **The shadow plays the story of every run**, and is then the shadow of what the run leads to. -/
theorem plays {ts : List Turn} (run : Run h ts h') :
    ∀ {k : Host}, Shadow c h k → ∃ k', Plays c k (h.story c ts) k' ∧ Shadow c h' k' := by
  induction run with
  | nil h => exact fun {k} sh => ⟨k, .nil k, sh⟩
  | @cons h m h' t ts turn _ ih =>
    intro k sh
    rw [story_cons ts turn]
    cases turnStep_iff.mpr turn with
    | @obey command hq =>
      obtain ⟨k', hp, hsh⟩ := ih (sh.obey command hq)
      refine ⟨k', ?_, hsh⟩
      rw [Turn.scene?, ← sh.now]
      exact .asked hq hp
    | @move move _ hmove =>
      have hmove := moveStep_iff.mp hmove
      -- moves of the consumer have no scene: the shadow stands still
      by_cases hm : move.IsOf c
      · rw [Turn.scene?, if_pos hm]
        exact ih (sh.own_move hm hmove)
      · rw [Turn.scene?, if_neg hm]
        obtain ⟨k₁, hk, hnext⟩ := sh.follows hm hmove
        obtain ⟨k', hp, hsh⟩ := ih hnext
        exact ⟨k', .moved hk hp, hsh⟩
    | @pass instant hquiet hle halarms =>
      -- the shadow waits millisecond by millisecond; it has no alarm on the way
      obtain ⟨k', hp, hsh⟩ := ih (sh.setClock instant)
      refine ⟨k', ?_, hsh⟩
      refine Plays.wait_until (sh.isQuiet fun m _ => isQuiet_iff.mp hquiet m) ?_ ?_ hp
      · intro alarm ha hlt
        exact halarms alarm (sh.alarms_subset alarm ha) (sh.now ▸ hlt)
      · exact sh.now ▸ hle

/-- **Every story that the shadow plays** in which nobody asks about the consumer is the story of a
run. -/
theorem run_of_plays {s : List Scene} (hp : Plays c k s k') :
    ∀ {h : Host}, Shadow c h k → (∀ scene ∈ s, scene.heard? = none) →
      ∃ ts h', Run h ts h' ∧ h.story c ts = s ∧ Shadow c h' k' := by
  induction hp with
  | nil k => exact fun {h} sh _ => ⟨[], h, .nil h, rfl, sh⟩
  | @wait k k' s hquiet _ ih =>
    intro h sh hs
    -- first the consumer comes to rest, which the shadow does not see
    obtain ⟨us, h₁, hrest, hnothing, hsh, hidle⟩ := sh.rest
    obtain ⟨ts, h', run, hstory, hlast⟩ := ih (hsh.setClock (k.now + 1)) hs
    have hpass : h₁.turn? (.pass (k.now + 1)) = some (h₁.setClock (k.now + 1)) := by
      rw [hsh.now]
      refine if_pos ⟨isQuiet_iff.mpr fun m => ?_, Nat.le_succ _, fun _ _ hlt => hlt⟩
      by_cases hm : m.IsOf c
      · exact hidle m hm
      · refine Option.eq_none_iff_forall_ne_some.mpr fun h₂ hh => ?_
        obtain ⟨k₁, hk, -⟩ := hsh.follows hm hh
        exact absurd (isQuiet_iff.mp hquiet m) (move?_ne_none hk)
    refine ⟨us ++ .pass (k.now + 1) :: ts, h', hrest.append (.cons hpass run), ?_, hlast⟩
    rw [hrest.story_append, hnothing, story_cons ts hpass, hstory]
    rfl
  | @asked k k' s command hq _ ih =>
    intro h sh hs
    obtain ⟨ts, h', run, hstory, hlast⟩ := ih (sh.obey command hq) fun scene hmem =>
      hs scene (List.mem_cons_of_mem _ hmem)
    have hturn : h.turn? (.obey command) = some (h.obey command).2 := by
      rw [turn?, hq]
      rfl
    refine ⟨.obey command :: ts, h', .cons hturn run, ?_, hlast⟩
    rw [story_cons ts hturn, hstory, sh.now]
    rfl
  | @moved k k₁ k' s m heard hm _ ih =>
    intro h sh hs
    obtain rfl : heard = none := hs _ List.mem_cons_self
    -- the shadow has no task of the consumer, so the move belongs to another
    have hother : ¬m.IsOf c := fun hown => absurd (sh.move?_own hown) (move?_ne_none hm)
    obtain ⟨h₁, hh, hnext⟩ := sh.precedes hother hm
    obtain ⟨hnone, hh⟩ := move?_of_told?_none hh
    obtain ⟨ts, h', run, hstory, hlast⟩ := ih hnext fun scene hmem =>
      hs scene (List.mem_cons_of_mem _ hmem)
    refine ⟨.move m :: ts, h', .cons hh run, ?_, hlast⟩
    rw [story_cons ts (t := .move m) hh, hstory, Turn.scene?, if_neg hother, hnone]
    rfl

end Shadow

end Host

end EventBus
