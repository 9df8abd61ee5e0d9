import SqlScript.Engine.Config
import SqlScript.Toml.Decode
import SqlScript.Toml.Document

/-!
# Configuration documents

The configuration is read from a TOML document with a table for building and one for retries.
-/

namespace SqlScript

/-- Read options for building. -/
def BuildOptions.ofFields? (fields : Toml.Fields) : Option BuildOptions := do
  let usual : BuildOptions := {}
  let maxIncludeDepth ←
    fields.read 0 "max_include_depth" usual.maxIncludeDepth (Toml.Value.natural? UInt64.size)
  let defaultErrorAction ←
    fields.read 1 "default_error_action" usual.defaultErrorAction fun value =>
      value.alternative?.bind ErrorAction.ofName?
  return { maxIncludeDepth, defaultErrorAction }

namespace Retry

/-- A number of milliseconds. -/
def millis? (value : Toml.Value) : Option UInt64 :=
  (value.natural? UInt64.size).map UInt64.ofNat

/-- Read a policy. -/
def Settings.ofFields? (fields : Toml.Fields) : Option Settings := do
  let usual : Settings := {}
  let maxRetries ← fields.read 0 "max_retries" usual.maxRetries fun value =>
    (value.natural? UInt32.size).map UInt32.ofNat
  let initialBackoff ← fields.read 1 "initial_backoff_ms" usual.initialBackoff millis?
  let maxBackoff ← fields.read 2 "max_backoff_ms" usual.maxBackoff millis?
  let multiplier ← fields.read 3 "backoff_multiplier" usual.multiplier Toml.Value.number?
  let jitter ← fields.read 4 "jitter" usual.jitter Toml.Value.truth?
  let transientNumbers ←
    fields.read 5 "transient_error_numbers" usual.transientNumbers fun value => do
      (← value.items?).mapM (Toml.Value.natural? UInt32.size)
  return { maxRetries, initialBackoff, maxBackoff, multiplier, jitter, transientNumbers }

end Retry

namespace Engine
namespace Config

/-- Read a configuration. -/
def ofFields? (fields : Toml.Fields) : Option Config := do
  let usual : Config := {}
  let build ← fields.read 0 "parser" usual.build fun value => do
    BuildOptions.ofFields? (← Toml.Fields.ofValue? value)
  let retry ← fields.read 1 "retry" usual.retry fun value => do
    Retry.Settings.ofFields? (← Toml.Fields.ofValue? value)
  let eventBuffer ←
    fields.read 2 "event_buffer" usual.eventBuffer (Toml.Value.natural? UInt64.size)
  return { build, retry, eventBuffer }

/-- The configuration that a document describes, if it describes one. -/
def ofText? (text : String) : Option Config := do
  ofFields? (Toml.Fields.ofEntries (← Toml.parse? text))

end Config
end Engine
end SqlScript
