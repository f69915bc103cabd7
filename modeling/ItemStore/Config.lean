import ItemStore.Error
import ItemStore.Number.Layout
import ItemStore.Text.Blank

/-!
# Configuration

A store is configured by its retry policy, its patience and the number of segments that a scan uses
unless it says otherwise.  Settings can be read from variables; a variable that is missing or makes
no sense leaves its setting at the default, and only a configuration that contradicts itself is
refused.
-/

namespace ItemStore

/-! ## Settings -/

/-- How often and how patiently a request is repeated. -/
structure RetryPolicy where
  /-- How many attempts a call makes at most, the first one included. -/
  maxAttempts : Nat := 10
  /-- The shortest pause between attempts. -/
  minBackoff : Duration := .ofMillis 50
  /-- The longest pause between attempts. -/
  maxBackoff : Duration := .ofMillis 5000
  /-- How long the first attempt may take; the `n`-th may take `n` times as long. -/
  baseLatency : Duration := .ofMillis 1000
deriving DecidableEq, Repr

/-- How many pauses a call makes at most. -/
def RetryPolicy.pauses (p : RetryPolicy) : Nat := p.maxAttempts - 1

/-- The configuration of a store. -/
structure Config where
  /-- How requests are repeated. -/
  retry : RetryPolicy := {}
  /-- A factor on how long attempts may take. -/
  patience : Float := Binary64.ofInt 1
  /-- How many segments a scan uses unless it says otherwise. -/
  scanSegments : Nat := 10

namespace Config

/-! ## Validity -/

/-- Accept a patience that is positive and finite. -/
def checkPatience (ratio : Float) : Except StoreError Unit :=
  if Binary64.isFinite ratio && ratio > 0 then .ok ()
  else .error (.configuration
    ("patience ratio must be positive, got " ++ Layout.plain.float ratio))

/-- Accept a configuration that does not contradict itself. -/
def validate (c : Config) : Except StoreError Unit := do
  checkPatience c.patience
  if c.retry.minBackoff.nanos > c.retry.maxBackoff.nanos then
    .error (.configuration ("min backoff " ++ c.retry.minBackoff.describe ++
      " exceeds max backoff " ++ c.retry.maxBackoff.describe))
  else .ok ()

/-- The same configuration with another patience. -/
def relax (c : Config) (ratio : Float) : Except StoreError Config := do
  checkPatience ratio
  return { c with patience := ratio }

/-! ## Deadlines -/

/-- How long the `n`-th attempt may take: `n` times the base latency, scaled by the patience.  Where
that is no duration, the longest one stands for it. -/
def deadline (c : Config) (n : Nat) : Duration :=
  (Duration.ofSeconds? (c.retry.baseLatency.seconds * Binary64.ofInt n * c.patience)).getD .max

/-! ## Variables -/

/-- A setting from a variable, or its default. -/
def setting {α : Type} (lookup : String → Option String) (name : String)
    (read : String → Option α) (default : α) : α :=
  match lookup name with
  | none => default
  | some text => (read (trimBlanks text)).getD default

/-- A duration in milliseconds from a variable, or its default. -/
def millis (lookup : String → Option String) (name : String) (default : Duration) : Duration :=
  setting lookup name (fun s => (readUnsigned 64 s).map .ofMillis) default

/-- The configuration that variables describe. -/
def ofVariables (lookup : String → Option String) : Except StoreError Config := do
  let base : Config := {}
  let retry : RetryPolicy :=
    { maxAttempts := max 1
        (setting lookup "MAX_ATTEMPTS" (readUnsigned 32) base.retry.maxAttempts)
      minBackoff := millis lookup "MIN_BACKOFF_MS" base.retry.minBackoff
      maxBackoff := millis lookup "MAX_BACKOFF_MS" base.retry.maxBackoff
      baseLatency := millis lookup "BASE_LATENCY_MS" base.retry.baseLatency }
  let config : Config :=
    { retry
      patience := setting lookup "PATIENCE" readFloat base.patience
      scanSegments := max 1
        (setting lookup "SCAN_SEGMENTS" (readUnsigned 32) base.scanSegments) }
  config.validate
  return config

end Config

end ItemStore
