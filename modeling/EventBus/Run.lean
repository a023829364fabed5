import EventBus.Host.Command

/-!
# Runs

A run is any sequence of turns: commands from outside, moves of tasks and loops in any order, and
time that passes while nobody can move. The command that lets time pass is no turn of its own, but
a run of moves and of passing time (`run_of_obey`), so what holds of every run holds of every
script.
-/

set_option autoImplicit false

namespace EventBus

inductive Turn where
  | obey (c : Command)
  | move (m : Move)
  | pass (instant : Nat)

namespace Command

def takesTime : Command → Bool
  | advance _ => true
  | _ => false

end Command

namespace Host

/-- The state after time has passed up to `instant`, if nobody can move before it. -/
def pass? (h : Host) (instant : Nat) : Option Host :=
  if h.isQuiet ∧ h.now ≤ instant ∧ ∀ alarm ∈ h.alarms, h.now < alarm → instant ≤ alarm then
    some (h.setClock instant)
  else none

def turn? (h : Host) : Turn → Option Host
  | .obey c => if c.takesTime then none else some (h.obey c).2
  | .move m => h.move? m
  | .pass instant => h.pass? instant

/-- `Run h ts h'`: the turns `ts` lead from `h` to `h'`. -/
inductive Run : Host → List Turn → Host → Prop where
  | nil (h : Host) : Run h [] h
  | cons {h m h' : Host} {t : Turn} {ts : List Turn} :
      h.turn? t = some m → Run m ts h' → Run h (t :: ts) h'

/-- The state after some turns, if each of them is possible. -/
def replay (h : Host) : List Turn → Option Host
  | [] => some h
  | t :: ts => (h.turn? t).bind (replay · ts)

/-- A state that some run reaches from the start of a program. -/
def Reachable (h : Host) : Prop := ∃ running ts, Run (initial running) ts h

namespace Run

theorem append {h m h' : Host} {ts us : List Turn} (a : Run h ts m) (b : Run m us h') :
    Run h (ts ++ us) h' := by
  induction a with
  | nil _ => exact b
  | cons turn _ ih => exact .cons turn (ih b)

theorem single {h h' : Host} {t : Turn} (turn : h.turn? t = some h') : Run h [t] h' :=
  .cons turn (.nil _)

theorem of_replay {h h' : Host} {ts : List Turn} (played : h.replay ts = some h') :
    Run h ts h' := by
  induction ts generalizing h with
  | nil =>
    obtain rfl := Option.some.inj played
    exact .nil h
  | cons t ts ih =>
    obtain ⟨m, turn, rest⟩ := Option.bind_eq_some_iff.1 played
    exact .cons turn (ih rest)

end Run

/-- What holds at the start, and after every turn from a reachable state in which it holds, holds in
every reachable state. -/
theorem Reachable.invariant {P : Host → Prop} (start : ∀ running, P (initial running))
    (keeps : ∀ {h h' : Host} {t : Turn}, h.Reachable → P h → h.turn? t = some h' → P h')
    {h : Host} (reachable : h.Reachable) : P h := by
  obtain ⟨running, ts, run⟩ := reachable
  suffices along : ∀ {m h' : Host} {us : List Turn}, Run m us h' → m.Reachable → P m → P h' from
    along run ⟨running, [], .nil _⟩ (start running)
  intro m h' us run
  induction run with
  | nil _ => exact fun _ holds => holds
  | cons turn _ ih =>
    rintro ⟨r, vs, before⟩ holds
    exact ih ⟨r, vs ++ [_], before.append (.single turn)⟩ (keeps ⟨r, vs, before⟩ holds turn)

/-! ## Letting time pass is a run of moves -/

theorem firstMove?_eq_some {h h' : Host} {line : List Mover} {who : Mover}
    (found : h.firstMove? line = some (who, h')) : ∃ m, h.move? m = some h' := by
  obtain ⟨w, _, hw⟩ := List.exists_of_findSome?_eq_some found
  obtain ⟨r, hr, heq⟩ := Option.map_eq_some_iff.1 hw
  obtain ⟨m, _, hm⟩ := List.exists_of_findSome?_eq_some hr
  exact ⟨m, by rw [hm]; exact congrArg some (Prod.mk.inj heq).2⟩

theorem isQuiet_of_firstMove?_eq_none {h : Host} {line : List Mover}
    (none_moves : h.firstMove? (line ++ h.movers) = none) : h.isQuiet = true := by
  simp only [firstMove?, List.findSome?_eq_none_iff, Option.map_eq_none_iff] at none_moves
  simp only [isQuiet, List.all_eq_true, Option.isNone_iff_eq_none]
  exact fun who hw m hm => none_moves who (List.mem_append_right _ hw) m hm

theorem nextInstant_bounds (h : Host) {limit : Nat} (ahead : h.now < limit) :
    h.now < h.nextInstant limit ∧
      ∀ alarm ∈ h.alarms, h.now < alarm → h.nextInstant limit ≤ alarm := by
  have key : ∀ (xs : List Nat) (t : Nat), (∀ x ∈ xs, h.now < x) → h.now < t →
      h.now < xs.foldl min t ∧ xs.foldl min t ≤ t ∧ ∀ x ∈ xs, xs.foldl min t ≤ x := by
    intro xs
    induction xs with
    | nil => intro t _ ht; simpa using ht
    | cons x xs ih =>
      intro t hxs ht
      have := ih (min t x) (fun y hy => hxs y (by simp [hy]))
        (by have := hxs x (by simp); omega)
      refine ⟨this.1, by simp only [List.foldl_cons]; omega, fun y hy => ?_⟩
      rcases List.mem_cons.1 hy with rfl | hy
      · simp only [List.foldl_cons]; omega
      · exact this.2.2 y hy
  have := key (h.alarms.filter (h.now < ·)) limit (by simp) ahead
  exact ⟨this.1, fun alarm ha hl => this.2.2 alarm (by simp [ha, hl])⟩

/-- What happens up to an instant is a run of moves and of time that passes. -/
theorem run_of_runUntil {limit fuel : Nat} {last : Option Mover} {h h' : Host}
    (finished : runUntil limit fuel last h = some h') :
    ∃ ts, Run h ts h' ∧ ∀ t ∈ ts, ∀ c, t ≠ .obey c := by
  induction fuel generalizing last h with
  | zero => simp [runUntil] at finished
  | succ fuel ih =>
    rw [runUntil] at finished
    split at finished
    · next who mid found =>
      obtain ⟨m, hm⟩ := firstMove?_eq_some found
      obtain ⟨ts, run, moves⟩ := ih finished
      exact ⟨.move m :: ts, .cons hm run, by simpa using moves⟩
    · next none_moves =>
      split at finished
      · next ahead =>
        obtain ⟨ts, run, moves⟩ := ih finished
        have bounds := h.nextInstant_bounds ahead
        refine ⟨.pass (h.nextInstant limit) :: ts, .cons ?_ run, by simpa using moves⟩
        simp only [turn?, pass?]
        rw [if_pos ⟨isQuiet_of_firstMove?_eq_none none_moves, Nat.le_of_lt bounds.1, bounds.2⟩]
      · obtain rfl := Option.some.inj finished
        exact ⟨[], .nil _, by simp⟩

theorem run_of_advance {fuel ms : Nat} {h h' : Host} (finished : h.advance fuel ms = some h') :
    ∃ ts, Run h ts h' ∧ ∀ t ∈ ts, ∀ c, t ≠ .obey c :=
  run_of_runUntil finished

/-- Whatever command is obeyed, a run leads to the state after it. -/
theorem run_of_obey (h : Host) (c : Command) : ∃ ts, Run h ts (h.obey c).2 := by
  cases quick : c.takesTime with
  | false => exact ⟨[.obey c], .single (by simp [turn?, quick])⟩
  | true =>
    match c, quick with
    | .advance ms, _ =>
      cases finished : h.advance patience ms with
      | none => exact ⟨[], by simpa [obey, finished] using Run.nil h⟩
      | some h' =>
        obtain ⟨ts, run, _⟩ := run_of_advance finished
        exact ⟨ts, by simpa [obey, finished, answered] using run⟩

theorem Reachable.obey {h : Host} (reachable : h.Reachable) (c : Command) :
    (h.obey c).2.Reachable := by
  obtain ⟨running, ts, run⟩ := reachable
  obtain ⟨us, more⟩ := h.run_of_obey c
  exact ⟨running, ts ++ us, run.append more⟩

end Host

end EventBus
