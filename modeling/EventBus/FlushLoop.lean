import EventBus.Journal

/-!
# Flush loops

A flush loop wakes the waiting consumers of one group at regular instants, which count from the
instant at which it first runs. Clocks show whole milliseconds: a tick that falls between two of
them happens at the later one.
-/

set_option autoImplicit false

namespace EventBus

structure FlushLoop where
  id : LoopId
  group : GroupRef
  runtime : RuntimeId
  interval : Duration
  /-- The instant at which the loop first ran. -/
  start : Option Nat := none
  ticks : Nat := 0

/-- The whole milliseconds of a duration, rounded up. -/
def Duration.ceilMillis (d : Duration) : Nat :=
  (d.nanos + (TimeUnit.millisecond.nanos - 1)) / TimeUnit.millisecond.nanos

namespace FlushLoop

/-- The instant of tick `k` of a loop that started at `start`: `k` intervals later, moved up to a
whole millisecond. -/
def instant (start : Nat) (interval : Duration) (k : Nat) : Nat :=
  start + (k * interval.nanos + (TimeUnit.millisecond.nanos - 1)) / TimeUnit.millisecond.nanos

/-- The instant of the next tick. A loop that has not run yet has none: it ticks when it runs. -/
def alarm? (l : FlushLoop) : Option Nat :=
  l.start.map fun start => instant start l.interval l.ticks

def isDue (l : FlushLoop) (now : Nat) : Bool :=
  match l.alarm? with
  | none => true
  | some instant => instant ≤ now

def tick (l : FlushLoop) (now : Nat) : FlushLoop :=
  { l with start := some (l.start.getD now), ticks := l.ticks + 1 }

@[simp] theorem instant_zero (start : Nat) (interval : Duration) :
    instant start interval 0 = start := by
  simp [instant, TimeUnit.millisecond]

theorem instant_mono (start : Nat) (interval : Duration) {j k : Nat} (h : j ≤ k) :
    instant start interval j ≤ instant start interval k := by
  have : j * interval.nanos ≤ k * interval.nanos := Nat.mul_le_mul_right _ h
  exact Nat.add_le_add_left (Nat.div_le_div_right (Nat.add_le_add_right this _)) _

/-- Ticks are no further apart than the interval in whole milliseconds. -/
theorem instant_succ_le (start : Nat) (interval : Duration) (k : Nat) :
    instant start interval (k + 1) ≤ instant start interval k + interval.ceilMillis := by
  simp only [instant, Duration.ceilMillis, TimeUnit.millisecond, Nat.succ_mul]
  omega

end FlushLoop

end EventBus
