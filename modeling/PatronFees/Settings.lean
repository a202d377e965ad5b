import PatronFees.Event
import PatronFees.Powers
import PatronFees.Toml.Document

namespace PatronFees

/-!
# Settings

Settings come from a TOML document and have a default each. A section is a
table, or an array of its settings in order, or a moment, which sets nothing;
settings and sections that nobody knows are ignored.
-/

/-- The currency that amounts are in. -/
structure CurrencySettings where
  code : String
  fractionDigits : Nat
  deriving Repr, DecidableEq

/-- What is logged. -/
structure LoggingSettings where
  level : String
  json : Bool
  deriving Repr, DecidableEq

/-- How requests are read and carried out. -/
structure BatchSettings where
  /-- How many requests make a batch. -/
  size : Nat
  /-- How many lanes run side by side; without a number, one per processor. -/
  workers : Option Nat
  deriving Repr, DecidableEq

/-- All settings of a run. -/
structure Settings where
  currency : CurrencySettings
  logging : LoggingSettings
  batch : BatchSettings
  deriving Repr, DecidableEq

namespace LoggingSettings

/-- How much is logged; a level that nobody knows counts as `info`. -/
def verbosity (settings : LoggingSettings) : Nat :=
  match Text.lowercased settings.level with
  | "off" => 0
  | "error" => 1
  | "warn" => 2
  | _ => 3

/-- The event is logged. -/
def shows
    (settings : LoggingSettings)
    (event : Event) : Bool :=
  event.verbosity ≤ settings.verbosity

end LoggingSettings

namespace BatchSettings

/-- The size of a batch for which none is set. -/
def defaultSize : Nat := 1000

/-- Batches of the default size, a worker per processor. -/
def standard : BatchSettings :=
  ⟨defaultSize, none⟩

/-- The settings with defaults for zeros, and a warning for each. -/
def normalized (settings : BatchSettings) : BatchSettings × List Event :=
  let (size, sizeWarnings) :=
    if settings.size = 0 then
      (defaultSize, [Event.emptyBatchSize])
    else
      (settings.size, [])
  let (workers, workerWarnings) :=
    if settings.workers = some 0 then
      (none, [Event.noWorkers])
    else
      (settings.workers, [])
  (⟨size, workers⟩, sizeWarnings ++ workerWarnings)

end BatchSettings

namespace Settings

/-- The settings where nothing is set. -/
def standard : Settings where
  currency := ⟨"USD", Money.defaultScale⟩
  logging := ⟨"info", false⟩
  batch := .standard

/-- What a section sets, by the name and the position of a setting. -/
abbrev Section := String → Nat → Option Toml.Value

/-- The settings of a section, if the value can be a section. -/
def sectionOf? : Toml.Value → Option Section
  | .table _ entries => some fun name _ => entries.lookup name
  | .array items => some fun _ position => items[position]?
  | .tables elements =>
      some fun _ position => elements[position]?.map (Toml.Value.table .header)
  | .moment _ => some fun _ _ => none
  | _ => none

/-- The section with a name; one that is missing sets nothing. -/
def section?
    (name : String)
    (entries : Toml.Entries) :
    Option Section :=
  match entries.lookup name with
  | some value => sectionOf? value
  | none => some fun _ _ => none

def text? : Toml.Value → Option String
  | .text text => some text
  | _ => none

def boolean? : Toml.Value → Option Bool
  | .boolean boolean => some boolean
  | _ => none

/-- A natural number below a bound. -/
def natural? (bound : Nat) : Toml.Value → Option Nat
  | .integer integer =>
      if 0 ≤ integer ∧ integer < bound then some integer.toNat else none
  | _ => none

/-- The value of a setting, or its default where it is not set. -/
def setting?
    {Setting : Type}
    (read? : Toml.Value → Option Setting)
    (default : Setting) :
    Option Toml.Value → Option Setting
  | some value => read? value
  | none => some default

/-- The settings of a document. -/
def ofEntries? (entries : Toml.Entries) : Option Settings := do
  let currency ← section? "currency" entries
  let code ← setting? text? standard.currency.code (currency "code" 0)
  let fractionDigits ←
    setting? (natural? (twoTo 32)) standard.currency.fractionDigits
      (currency "fraction_digits" 1)
  let logging ← section? "logging" entries
  let level ← setting? text? standard.logging.level (logging "level" 0)
  let json ← setting? boolean? standard.logging.json (logging "json" 1)
  let batch ← section? "batch" entries
  let size ←
    setting? (natural? (twoTo 64)) standard.batch.size (batch "batch_size" 0)
  let workers ←
    setting? (fun value => (natural? (twoTo 64) value).map some)
      standard.batch.workers (batch "worker_threads" 1)
  return ⟨⟨code, fractionDigits⟩, ⟨level, json⟩, ⟨size, workers⟩⟩

def read (document : String) : Checked Settings :=
  match (Toml.read? document).bind ofEntries? with
  | none => .error (.malformed none .malformedConfiguration)
  | some settings =>
      if Money.maxScale < settings.currency.fractionDigits then
        .error (.malformed none
          (.tooManyFractionDigits settings.currency.fractionDigits
            Money.maxScale))
      else
        .ok settings

end Settings

end PatronFees
