import EventBus.Duration
import EventBus.Text.Layout

/-!
# Configuration of a bus

How often a bus wakes its consumers and how much room their queues start with. Any values may be
asked for; a bus works with the clamped ones.
-/

set_option autoImplicit false

namespace EventBus

open Text (Shape)

structure Config where
  /-- The period on which every group wakes its consumers. -/
  flushInterval : Duration := .ofMicros 500
  /-- The room reserved in a consumer's queue. It is no limit. -/
  queueCapacity : Nat := 128
  deriving DecidableEq, Repr

namespace Config

def minFlushInterval : Duration := .ofMicros 1

/-- The most room that a queue starts with. -/
def maxQueueCapacity : Nat := 65536

def flushIntervalClamped (c : Config) : Duration :=
  c.flushInterval.max minFlushInterval

/-- The room a queue starts with, at least one place. -/
def queueCapacityClamped (c : Config) : Nat :=
  max 1 (min c.queueCapacity maxQueueCapacity)

def shape (c : Config) : Shape :=
  .record "Config" [("flush_interval", .atom c.flushInterval.text),
    ("queue_capacity", .atom (toString c.queueCapacity))]

theorem minFlushInterval_le (c : Config) :
    minFlushInterval.nanos ≤ c.flushIntervalClamped.nanos := by
  exact Nat.le_max_right ..

theorem queueCapacityClamped_bounds (c : Config) :
    1 ≤ c.queueCapacityClamped ∧ c.queueCapacityClamped ≤ maxQueueCapacity := by
  unfold queueCapacityClamped maxQueueCapacity
  omega

end Config

end EventBus
