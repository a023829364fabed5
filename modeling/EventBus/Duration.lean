/-!
# Durations

A length of time in whole nanoseconds, and its text: the largest unit of seconds, milliseconds,
microseconds and nanoseconds that it reaches, with the exact rest as a decimal fraction.
-/

set_option autoImplicit false

namespace EventBus

structure Duration where
  nanos : Nat
  deriving DecidableEq, Repr

/-- A unit of time, of `10 ^ places` nanoseconds. -/
structure TimeUnit where
  nanos : Nat
  places : Nat
  symbol : String

namespace TimeUnit

def second : TimeUnit := ⟨1000000000, 9, "s"⟩
def millisecond : TimeUnit := ⟨1000000, 6, "ms"⟩
def microsecond : TimeUnit := ⟨1000, 3, "µs"⟩
def nanosecond : TimeUnit := ⟨1, 0, "ns"⟩

end TimeUnit

namespace Duration

def ofMicros (n : Nat) : Duration := ⟨n * TimeUnit.microsecond.nanos⟩

def max (a b : Duration) : Duration := ⟨Nat.max a.nanos b.nanos⟩

/-- The digits of `n`, filled up with zeros in front to `places` of them. -/
def padded (places n : Nat) : List Char :=
  let digits := Nat.toDigits 10 n
  List.replicate (places - digits.length) '0' ++ digits

/-- `rest`, counted in units of the last of `places` decimal places, as a decimal fraction without
trailing zeros; nothing for zero. -/
def fraction (places rest : Nat) : List Char :=
  if rest = 0 then []
  else '.' :: ((padded places rest).reverse.dropWhile (· == '0')).reverse

def unit (d : Duration) : TimeUnit :=
  if TimeUnit.second.nanos ≤ d.nanos then .second
  else if TimeUnit.millisecond.nanos ≤ d.nanos then .millisecond
  else if TimeUnit.microsecond.nanos ≤ d.nanos then .microsecond
  else .nanosecond

def textIn (d : Duration) (u : TimeUnit) : String :=
  toString (d.nanos / u.nanos) ++ String.ofList (fraction u.places (d.nanos % u.nanos)) ++ u.symbol

def text (d : Duration) : String := d.textIn d.unit

end Duration

end EventBus
