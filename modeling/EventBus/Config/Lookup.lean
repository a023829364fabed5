import EventBus.Config
import EventBus.Text.Numeral
import EventBus.Text.Quoted

/-!
# Configuration from named settings

Reads a configuration from a lookup of names, as a process environment is one. A name that is not
set keeps the default; a value that is set must be a number in range, blanks around it apart. The
interval is asked for first, and the first bad value ends the reading.
-/

set_option autoImplicit false

namespace EventBus

open Text (Shape)

inductive Setting where
  | flushInterval
  | queueCapacity
  deriving DecidableEq, Repr

namespace Setting

def name : Setting → String
  | flushInterval => "EVBUS_FLUSH_INTERVAL_US"
  | queueCapacity => "EVBUS_QUEUE_CAPACITY"

def limit : Setting → Nat
  | flushInterval => Text.maxWord
  | queueCapacity => Config.maxQueueCapacity

def read (s : Setting) (raw : String) : Option Nat :=
  Text.readNumber s.limit (Text.trim raw.toList)

end Setting

/-- A setting that is set to something it cannot be: its name and the value as it was found. -/
structure InvalidSetting where
  key : String
  value : String
  deriving DecidableEq, Repr

namespace InvalidSetting

def label (_ : InvalidSetting) : String := "config_invalid"

def message (e : InvalidSetting) : String :=
  "invalid value for " ++ e.key ++ ": " ++ Text.quoted e.value

def shape (e : InvalidSetting) : Shape :=
  .record "Invalid" [("key", .atom (Text.quoted e.key)), ("value", .atom (Text.quoted e.value))]

end InvalidSetting

namespace Config

/-- Asks for one setting: nothing if it is not set, an error if its value cannot be read. -/
def ask {m : Type → Type} [Monad m] (lookup : String → m (Option String)) (s : Setting) :
    ExceptT InvalidSetting m (Option Nat) := do
  match ← lookup s.name with
  | none => return none
  | some raw =>
    match s.read raw with
    | some n => return some n
    | none => throw ⟨s.name, raw⟩

/-- Reads a configuration, asking `lookup` for each name in turn. -/
def ofLookup {m : Type → Type} [Monad m] (lookup : String → m (Option String)) :
    ExceptT InvalidSetting m Config := do
  let micros ← ask lookup .flushInterval
  let capacity ← ask lookup .queueCapacity
  let base : Config := {}
  return {
    flushInterval := (micros.map Duration.ofMicros).getD base.flushInterval
    queueCapacity := capacity.getD base.queueCapacity }

/-- A lookup that also notes every name it is asked for, the latest last. -/
def noting (lookup : String → Option String) (name : String) :
    StateM (List String) (Option String) := do
  modify (· ++ [name])
  return lookup name

/-- The configuration, or what is wrong with it, and the names that were asked for in order. -/
def ofLookupNoting (lookup : String → Option String) :
    Except InvalidSetting Config × List String :=
  ((ofLookup (noting lookup)).run).run []

end Config

/-- Named settings as the operating system keeps them: bytes that need not be text. -/
abbrev Environment := List (String × ByteArray)

namespace Environment

/-- The text a name is set to. Bytes that are not UTF-8 count as not set. -/
def text? (env : Environment) (name : String) : Option String :=
  (env.lookup name).bind String.fromUTF8?

end Environment

def Config.ofEnvironment (env : Environment) : Except InvalidSetting Config :=
  (Config.ofLookup (m := Id) env.text?).run

end EventBus
