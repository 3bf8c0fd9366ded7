import Recital.Policy.Basic
import Recital.Text.Blank
import Recital.Decimal.Shortest

/-!
# Configuration of a player

Pacing, saving, what happens when something goes wrong, and the policies of the command types.
Every field has a value of its own when it is not given.
-/

namespace Recital

/-- Multipliers of the playback speed that are accepted. -/
def isValidSpeed (speed : Binary64) : Bool :=
  (Binary64.ofDecimal false 1 (-2)).leNonneg speed && speed.leNonneg (Binary64.ofNat 100)

/-- Why a playback speed is refused. -/
def speedRefusal (speed : Binary64) : String :=
  "must be between 0.01 and 100, got " ++ Decimal.plain.render speed

/-- Pacing and saving (`PlaybackConfig`). -/
structure Pacing where
  /-- The delay after each line at speed one, in milliseconds. -/
  lineDelayMs : Nat := 0
  /-- The number that the delay is divided by. -/
  speed : Binary64 := Binary64.ofNat 1
  /-- The least time between two automatic saves, in seconds; without it there are none. -/
  autosaveSecs : Option Nat := none
  /-- The key under which automatic saves are stored. -/
  autosaveKey : String := "autosave"

namespace Pacing

/-- The delay after each line at speed one. -/
def lineDelay (p : Pacing) : Span := Span.ofMillis p.lineDelayMs

/-- The least time between two automatic saves. -/
def autosaveInterval (p : Pacing) : Option Span := p.autosaveSecs.map Span.ofSeconds

/-- A record; the time between saves is left out when there are none. -/
def toJson (p : Pacing) : Json :=
  .obj <|
    [("line_delay_ms", .nat p.lineDelayMs), ("playback_speed", .float p.speed)] ++
    Json.fieldIfSome "autosave_interval_secs" .nat p.autosaveSecs ++
    [("autosave_key", .str p.autosaveKey)]

/-- The names of the fields in their written order. -/
def fieldNames : List String :=
  ["line_delay_ms", "playback_speed", "autosave_interval_secs", "autosave_key"]

/-- Reads a record in which every field may be missing. -/
def ofJson? (j : Json) : Option Pacing := do
  let r ← Json.record? fieldNames j
  let std : Pacing := {}
  return {
    lineDelayMs := ← r.defaulted "line_delay_ms" Json.word? std.lineDelayMs
    speed := ← r.defaulted "playback_speed" Json.float? std.speed
    autosaveSecs :=
      ← r.defaulted "autosave_interval_secs" (Json.option? Json.word?) std.autosaveSecs
    autosaveKey := ← r.defaulted "autosave_key" Json.str? std.autosaveKey }

/-- The fields of the record. -/
def interest : Json.Interest := .record fieldNames

end Pacing

/-- What happens when something goes wrong (`ErrorPolicyConfig`). -/
structure Tolerance where
  /-- A fault that is not remedied is passed over. -/
  continueOnError : Bool := false
  /-- A script with defects is not played. -/
  refuseDefects : Bool := true
  /-- Faults are remedied. -/
  recoveryEnabled : Bool := true
  /-- How many repetitions and rollbacks one line may use up. -/
  maxRecoveries : Nat := 1

namespace Tolerance

/-- A record of all fields. -/
def toJson (t : Tolerance) : Json :=
  .obj
    [("continue_on_error", .bool t.continueOnError),
      ("raise_on_preprocess_errors", .bool t.refuseDefects),
      ("recovery_enabled", .bool t.recoveryEnabled),
      ("max_recovery_retries", .nat t.maxRecoveries)]

/-- Reads a record in which every field may be missing. -/
def ofJson? (j : Json) : Option Tolerance := do
  let r ← Json.record?
    ["continue_on_error", "raise_on_preprocess_errors", "recovery_enabled",
      "max_recovery_retries"] j
  let std : Tolerance := {}
  return {
    continueOnError := ← r.defaulted "continue_on_error" Json.bool? std.continueOnError
    refuseDefects := ← r.defaulted "raise_on_preprocess_errors" Json.bool? std.refuseDefects
    recoveryEnabled := ← r.defaulted "recovery_enabled" Json.bool? std.recoveryEnabled
    maxRecoveries := ← r.defaulted "max_recovery_retries" Json.word32? std.maxRecoveries }

end Tolerance

/-- The configuration of a player (`EngineConfig`). -/
structure Config where
  /-- Pacing and saving. -/
  pacing : Pacing := {}
  /-- What happens when something goes wrong. -/
  tolerance : Tolerance := {}
  /-- The average time above which a command type counts as slow, in milliseconds. -/
  slowMs : Nat := 1000
  /-- The policies of the command types. -/
  commands : Registry := {}

namespace Config

/-- A record of all sections. -/
def toJson (c : Config) : Json :=
  .obj
    [("playback", c.pacing.toJson), ("errors", c.tolerance.toJson),
      ("performance", .obj [("slow_command_threshold_ms", .nat c.slowMs)]),
      ("commands", c.commands.toJson)]

/-- Reads the section that holds the limit for slow commands. -/
def slowMsOfJson? (j : Json) : Option Nat := do
  let r ← Json.record? ["slow_command_threshold_ms"] j
  r.defaulted "slow_command_threshold_ms" Json.word? 1000

/-- Reads a record in which every section may be missing. -/
def ofJson? (j : Json) : Option Config := do
  let r ← Json.record? ["playback", "errors", "performance", "commands"] j
  return {
    pacing := ← r.defaulted "playback" Pacing.ofJson? {}
    tolerance := ← r.defaulted "errors" Tolerance.ofJson? {}
    slowMs := ← r.defaulted "performance" slowMsOfJson? 1000
    commands := ← r.defaulted "commands" Registry.ofJson? {} }

/-- A value of the configuration that makes no sense. -/
structure Defect where
  /-- Where the value stands. -/
  key : String
  /-- What is wrong with it. -/
  reason : String
deriving DecidableEq

/-- The defect of a policy, if it has one. -/
def policyDefect? (key : String) (p : Policy) : Option Defect :=
  if p.timeoutMs = 0 then some ⟨key ++ ".timeout_ms", "must be greater than zero"⟩ else none

/-- The first value that makes no sense, if there is one. -/
def defect? (c : Config) : Option Defect :=
  if !isValidSpeed c.pacing.speed then
    some ⟨"playback.playback_speed", speedRefusal c.pacing.speed⟩
  else if (Text.trim c.pacing.autosaveKey).isEmpty then
    some ⟨"playback.autosave_key", "must not be empty"⟩
  else
    (policyDefect? "commands.defaults" c.commands.defaults).or
      (c.commands.types.entries.findSome? fun e => policyDefect? ("commands.types." ++ e.1) e.2)

end Config

end Recital
