import EventBus.Proofs.Spelling

/-!
# What a configuration is read from

A setting is admitted if it is not set or spells a number within its limit, and refused otherwise.
A configuration is read if both settings are admitted, the interval first; a refused one ends the
reading, and the other name is then not asked for.
-/

set_option autoImplicit false

namespace EventBus

namespace Setting

/-- What a setting comes to: no number when it is not set, else the number that it spells. -/
def Admits (s : Setting) : Option String → Option Nat → Prop
  | none, value => value = none
  | some raw, value => ∃ n, Text.Spells raw n ∧ n ≤ s.limit ∧ value = some n

/-- The setting is set, but spells no number within its limit. The error names the setting and has
the text as it was found. -/
def Refuses (s : Setting) (text : Option String) (e : InvalidSetting) : Prop :=
  ∃ raw, text = some raw ∧ (¬ ∃ n, Text.Spells raw n ∧ n ≤ s.limit) ∧ e = ⟨s.name, raw⟩

/-- What is made of the text that a setting is set to. -/
def answer (s : Setting) : Option String → Except InvalidSetting (Option Nat)
  | none => .ok none
  | some raw =>
    match s.read raw with
    | some n => .ok (some n)
    | none => .error ⟨s.name, raw⟩

theorem read_eq_some (s : Setting) (raw : String) (n : Nat) :
    s.read raw = some n ↔ Text.Spells raw n ∧ n ≤ s.limit := by
  rw [read, Text.readNumber_eq_some, Text.spells_iff_trim]

theorem read_eq_none (s : Setting) (raw : String) :
    s.read raw = none ↔ ¬ ∃ n, Text.Spells raw n ∧ n ≤ s.limit := by
  simp only [Option.eq_none_iff_forall_ne_some, ne_eq, read_eq_some, not_exists]

theorem answer_eq_ok (s : Setting) (text : Option String) (value : Option Nat) :
    s.answer text = .ok value ↔ s.Admits text value := by
  cases text with
  | none => simp [answer, Admits, eq_comm]
  | some raw =>
    simp only [answer, Admits, ← and_assoc, ← read_eq_some]
    cases s.read raw with
    | none => simp
    | some n => simp [eq_comm]

theorem answer_eq_error (s : Setting) (text : Option String) (e : InvalidSetting) :
    s.answer text = .error e ↔ s.Refuses text e := by
  cases text with
  | none => simp [answer, Refuses]
  | some raw =>
    simp only [answer, Refuses, ← read_eq_none]
    cases hr : s.read raw with
    | none => simp [hr, eq_comm]
    | some n => simp [hr]

end Setting

namespace Config

open Setting

/-- The configuration of two numbers, each with its default where there is none. -/
def ofNumbers (micros capacity : Option Nat) : Config where
  flushInterval := .ofMicros (micros.getD 500)
  queueCapacity := capacity.getD 128

section Reading

variable {m : Type → Type} [Monad m] [LawfulMonad m] (lookup : String → m (Option String))

theorem ask_run (s : Setting) : (ask lookup s).run = s.answer <$> lookup s.name := by
  simp only [ask, ExceptT.run_bind, ExceptT.run_liftM, bind_map_left]
  rw [map_eq_pure_bind]
  congr 1
  funext text
  cases text with
  | none => rfl
  | some raw => simp only [answer]; cases s.read raw <;> rfl

/-- Reading a configuration, whatever looking a name up involves. -/
theorem ofLookup_run :
    (ofLookup lookup).run = do
      match Setting.flushInterval.answer (← lookup Setting.flushInterval.name) with
      | .error e => return .error e
      | .ok micros =>
        let text ← lookup Setting.queueCapacity.name
        return (Setting.queueCapacity.answer text).map (ofNumbers micros) := by
  simp only [ofLookup, ExceptT.run_bind, ask_run, bind_map_left]
  congr 1
  funext text
  cases Setting.flushInterval.answer text with
  | error e => rfl
  | ok micros =>
    refine congrArg (lookup Setting.queueCapacity.name >>= ·) (funext fun text => ?_)
    cases Setting.queueCapacity.answer text with
    | error e => rfl
    | ok capacity => cases micros <;> rfl

end Reading

theorem noting_run (lookup : String → Option String) (name : String) (asked : List String) :
    (noting lookup name).run asked = pure (lookup name, asked ++ [name]) := rfl

/-- The names that are asked for, given what the first of them is set to. -/
theorem ofLookupNoting_eq (lookup : String → Option String) :
    ofLookupNoting lookup =
      match Setting.flushInterval.answer (lookup Setting.flushInterval.name) with
      | .error e => (.error e, [Setting.flushInterval.name])
      | .ok micros =>
        ((Setting.queueCapacity.answer (lookup Setting.queueCapacity.name)).map (ofNumbers micros),
          [Setting.flushInterval.name, Setting.queueCapacity.name]) := by
  rw [ofLookupNoting, ofLookup_run, StateT.run_bind, noting_run, pure_bind]
  cases Setting.flushInterval.answer (lookup Setting.flushInterval.name) <;> rfl

theorem ofLookup_eq_noting (lookup : String → Option String) :
    (ofLookup (m := Id) lookup).run = (ofLookupNoting lookup).1 := by
  rw [ofLookup_run, ofLookupNoting_eq]
  change (match Setting.flushInterval.answer (lookup Setting.flushInterval.name) with
    | .error e => _
    | .ok micros => _) = _
  cases Setting.flushInterval.answer (lookup Setting.flushInterval.name) <;> rfl

/-! ## The whole reading -/

/-- An interval that a word of microseconds asks for has its whole seconds in a word, too. -/
theorem ofMicros_seconds_le {n : Nat} (hn : n ≤ Setting.flushInterval.limit) :
    (Duration.ofMicros n).nanos / TimeUnit.second.nanos ≤ Text.maxWord := by
  simp only [Setting.limit, Text.maxWord, Duration.ofMicros, TimeUnit.second,
    TimeUnit.microsecond] at hn ⊢
  omega

theorem answer_number_le {s : Setting} {text : Option String} {n : Nat}
    (hs : s.Admits text (some n)) : n ≤ s.limit := by
  cases text with
  | none => cases hs
  | some raw =>
    obtain ⟨k, -, hk, heq⟩ := hs
    rwa [Option.some.inj heq]

theorem ofLookupNoting_eq_ok (lookup : String → Option String) (config : Config) :
    (ofLookupNoting lookup).1 = .ok config ↔
      ∃ micros capacity, Setting.flushInterval.Admits (lookup "EVBUS_FLUSH_INTERVAL_US") micros ∧
        Setting.queueCapacity.Admits (lookup "EVBUS_QUEUE_CAPACITY") capacity ∧
        config = ofNumbers micros capacity := by
  simp only [← answer_eq_ok, ofLookupNoting_eq, Setting.name]
  cases Setting.flushInterval.answer (lookup "EVBUS_FLUSH_INTERVAL_US") with
  | error e => simp
  | ok micros =>
    cases Setting.queueCapacity.answer (lookup "EVBUS_QUEUE_CAPACITY") with
    | error e => simp [Except.map]
    | ok capacity => simp [Except.map, eq_comm]

theorem ofLookupNoting_eq_error (lookup : String → Option String) (e : InvalidSetting) :
    (ofLookupNoting lookup).1 = .error e ↔
      Setting.flushInterval.Refuses (lookup "EVBUS_FLUSH_INTERVAL_US") e ∨
        (∃ micros, Setting.flushInterval.Admits (lookup "EVBUS_FLUSH_INTERVAL_US") micros) ∧
          Setting.queueCapacity.Refuses (lookup "EVBUS_QUEUE_CAPACITY") e := by
  simp only [← answer_eq_ok, ← answer_eq_error, ofLookupNoting_eq, Setting.name]
  cases Setting.flushInterval.answer (lookup "EVBUS_FLUSH_INTERVAL_US") with
  | error e => simp
  | ok micros =>
    cases Setting.queueCapacity.answer (lookup "EVBUS_QUEUE_CAPACITY") with
    | error e => simp [Except.map]
    | ok capacity => simp [Except.map]

/-- The second name is asked for exactly if the first setting was not refused. -/
theorem ofLookupNoting_asked (lookup : String → Option String) :
    (∃ e, Setting.flushInterval.Refuses (lookup "EVBUS_FLUSH_INTERVAL_US") e) ∧
        (ofLookupNoting lookup).2 = ["EVBUS_FLUSH_INTERVAL_US"] ∨
      (∃ micros, Setting.flushInterval.Admits (lookup "EVBUS_FLUSH_INTERVAL_US") micros) ∧
        (ofLookupNoting lookup).2 = ["EVBUS_FLUSH_INTERVAL_US", "EVBUS_QUEUE_CAPACITY"] := by
  simp only [← answer_eq_ok, ← answer_eq_error, ofLookupNoting_eq, Setting.name]
  cases Setting.flushInterval.answer (lookup "EVBUS_FLUSH_INTERVAL_US") <;> simp

/-- Whatever spelling a number within the limit is given, it is read back. -/
theorem read_toDigits (s : Setting) {n : Nat} (hn : n ≤ s.limit) (zeros : Nat)
    {before sign after : List Char} (hb : Text.Blanks before) (hs : sign = [] ∨ sign = ['+'])
    (ha : Text.Blanks after) :
    s.read (String.ofList
      (before ++ (sign ++ (List.replicate zeros '0' ++ Nat.toDigits 10 n)) ++ after)) = some n :=
  (read_eq_some s _ n).mpr ⟨Text.spells_toDigits n zeros hb hs ha, hn⟩

/-- **A configuration is read from exactly the settings that its grammar admits.** Whatever the two
names are set to: a configuration comes out if and only if each setting is not set or spells a
number within its limit, a word of microseconds and 65536 places, and it then has these numbers, or
500 microseconds and 128 places where there is none. An error comes out if and only if a setting is
refused, and it is about the first such, with the text as it was found. The capacity is asked for
if and only if the interval was not refused. No accepted number is too large for what it is turned
into. And any number within the limit is read back from its digits, however many zeros, at most one
sign and any white space are put around them. -/
theorem ofLookup_exact (lookup : String → Option String) :
    (∀ config, (ofLookup (m := Id) lookup).run = .ok config ↔
      ∃ micros capacity, Setting.flushInterval.Admits (lookup "EVBUS_FLUSH_INTERVAL_US") micros ∧
        Setting.queueCapacity.Admits (lookup "EVBUS_QUEUE_CAPACITY") capacity ∧
        config = ⟨⟨micros.getD 500 * 1000⟩, capacity.getD 128⟩) ∧
    (∀ e, (ofLookup (m := Id) lookup).run = .error e ↔
      Setting.flushInterval.Refuses (lookup "EVBUS_FLUSH_INTERVAL_US") e ∨
        (∃ micros, Setting.flushInterval.Admits (lookup "EVBUS_FLUSH_INTERVAL_US") micros) ∧
          Setting.queueCapacity.Refuses (lookup "EVBUS_QUEUE_CAPACITY") e) ∧
    ((∃ e, Setting.flushInterval.Refuses (lookup "EVBUS_FLUSH_INTERVAL_US") e) ∧
        ofLookupNoting lookup =
          ((ofLookup (m := Id) lookup).run, ["EVBUS_FLUSH_INTERVAL_US"]) ∨
      (∃ micros, Setting.flushInterval.Admits (lookup "EVBUS_FLUSH_INTERVAL_US") micros) ∧
        ofLookupNoting lookup = ((ofLookup (m := Id) lookup).run,
          ["EVBUS_FLUSH_INTERVAL_US", "EVBUS_QUEUE_CAPACITY"])) ∧
    (∀ config, (ofLookup (m := Id) lookup).run = .ok config →
      config.flushInterval.nanos / 1000000000 ≤ Text.maxWord ∧
        config.queueCapacity ≤ maxQueueCapacity) ∧
    (∀ (s : Setting) (n zeros : Nat) (before sign after : List Char), n ≤ s.limit →
      Text.Blanks before → (sign = [] ∨ sign = ['+']) → Text.Blanks after →
        s.read (String.ofList
          (before ++ (sign ++ (List.replicate zeros '0' ++ Nat.toDigits 10 n)) ++ after)) =
            some n) := by
  rw [ofLookup_eq_noting]
  refine ⟨ofLookupNoting_eq_ok lookup, ofLookupNoting_eq_error lookup, ?_, ?_, ?_⟩
  · refine (ofLookupNoting_asked lookup).imp ?_ ?_ <;>
      exact fun ⟨how, asked⟩ => ⟨how, Prod.ext rfl asked⟩
  · intro config hok
    -- the numbers are within their limits, or they are the defaults
    obtain ⟨micros, capacity, hm, hc, rfl⟩ := (ofLookupNoting_eq_ok lookup config).mp hok
    constructor
    · cases micros with
      | none => exact ofMicros_seconds_le (n := 500) (by decide)
      | some n => exact ofMicros_seconds_le (answer_number_le hm)
    · cases capacity with
      | none => exact show 128 ≤ maxQueueCapacity by decide
      | some n => exact answer_number_le hc
  · intro s n zeros before sign after hn hb hs ha
    exact read_toDigits s hn zeros hb hs ha

/-- An interval in a wide spelling: an em space, a sign, zeros, and a line break behind. -/
def wideLookup (name : String) : Option String :=
  if name = "EVBUS_FLUSH_INTERVAL_US" then some "\u2003+0002000\n" else none

theorem ofLookup_exact_wide :
    (ofLookup (m := Id) wideLookup).run = .ok ⟨⟨2000000⟩, 128⟩ ∧
      2000000 / 1000000000 ≤ Text.maxWord ∧
      Setting.flushInterval.read (String.ofList
        (['\u2003'] ++ (['+'] ++ (List.replicate 3 '0' ++ Nat.toDigits 10 2000)) ++ ['\n'])) =
          some 2000 := by
  obtain ⟨accepted, -, -, fits, back⟩ := ofLookup_exact wideLookup
  have spelled := back .flushInterval 2000 3 ['\u2003'] ['+'] ['\n'] (by decide)
    (by simp [Text.Blanks, Text.whiteSpace]) (.inr rfl) (by simp [Text.Blanks, Text.whiteSpace])
  have read : (ofLookup (m := Id) wideLookup).run = .ok ⟨⟨2000000⟩, 128⟩ :=
    (accepted _).mpr ⟨some 2000, none,
      ⟨2000, ((read_eq_some _ _ _).mp spelled).1, by decide, rfl⟩, rfl, rfl⟩
  exact ⟨read, (fits _ read).1, spelled⟩

end Config

end EventBus
