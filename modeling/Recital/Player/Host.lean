import Recital.Policy.Config
import Recital.Script.Parser

/-!
# What a player is given

The host of a player supplies its configuration and whatever it cannot do alone: loading scripts,
showing text, fetching resources, measuring, and drawing random numbers.  Everything but the
configuration may be missing.
-/

namespace Recital

/-- Shows narrative text (`TextPresenter`). -/
structure Presenter where
  /-- How long a text is shown. -/
  span : Span := .zero
  /-- How showing a text ends. -/
  respond : String → Except Failure Unit := fun _ => .ok ()

/-- Fetches the resources of a script before it is played (`ResourcePreloader`).  Whether that works
is not asked. -/
structure Preloader where
  /-- How long it takes. -/
  span : Span := .zero

/-- The surroundings of a player: what an `EngineBuilder` is given. -/
structure Host where
  /-- Pacing, saving and tolerance. -/
  config : Config := {}
  /-- The policies of the command types. -/
  registry : Registry := config.commands
  /-- Finds scripts by name. -/
  loader : Option (String → Except LoadError Script) := none
  /-- Shows narrative lines, which are passed over without it. -/
  presenter : Option Presenter := none
  /-- Fetches resources. -/
  preloader : Option Preloader := none
  /-- Samples of executions and of memory are kept. -/
  measures : Bool := false
  /-- The `n`-th reading of the memory in use, in bytes. -/
  memory : Option (Nat → Option Nat) := none
  /-- The `n`-th random number. -/
  draw : Nat → Nat := fun _ => 0
  /-- What the stopwatch shows, in milliseconds, at an instant of the clock that timers go by. -/
  stopwatch : Nat → Nat := id

namespace Host

/-- The policy of a command type. -/
def policy (h : Host) (type : String) : Policy := h.registry.policy type

end Host

end Recital
