import Recital.Command.Failure
import Recital.Playback.Flow

/-!
# Commands

A command is what a command line stands for.  Each time it is attempted it looks at the playback,
changes it at once (`Effect`), takes its time (`Pace`) and reports a result.  The built-in commands
are spelled out; a host adds its own as `Command.custom`, given by what each attempt does.

That is what every statement about all commands is about.  A command changes the playback through
its effects only, and at the start of an attempt only: later in the attempt it changes nothing, and
it does not publish events of its own on the bus that it is handed.
-/

namespace Recital

/-- What a command sees of the playback (the readers of `CommandContext`). -/
structure View where
  /-- The line that is executed. -/
  line : Nat
  /-- The script of the line. -/
  script : String
  /-- How many lines the loaded script has. -/
  lineCount : Nat
  /-- The playback is being stepped. -/
  stepMode : Bool
  /-- The labels of the loaded script. -/
  labels : Table Nat
  /-- The variables. -/
  vars : Table Json

/-- What a command changes (the writers of `CommandContext`).  A change of a variable publishes the
event that tells of it; there is no effect that publishes anything else. -/
inductive Effect
  /-- Sets a variable. -/
  | assign (name : String) (value : Json)
  /-- Sets a variable to something that is seen at that moment. -/
  | observe (name : String) (look : View → Json)
  /-- Removes all variables. -/
  | clear
  /-- Leaves a return address. -/
  | push (line : Nat)
  /-- Writes a message to the log. -/
  | note (message : String)

/-- How long an attempt takes. -/
inductive Pace
  /-- A span of time. -/
  | lasts (span : Span)
  /-- Until it is cancelled or its time is up. -/
  | endless

/-- One attempt of a command. -/
structure Attempt where
  /-- What it changes, in order, as soon as it starts.  It changes nothing later. -/
  effects : List Effect := []
  /-- How long it then takes. -/
  pace : Pace := .lasts .zero
  /-- What it reports in the end. -/
  verdict : Except Failure CommandResult := .ok (.ofFlow .next)

/-- A command (`Command`, with `StructuredCommand` where it is structured). -/
inductive Command
  /-- Sets a variable. -/
  | assign (name : String) (value : Json)
  /-- Removes all variables. -/
  | clear
  /-- Continues elsewhere. -/
  | jump (target : Target)
  /-- Continues at a label, and comes back on return. -/
  | gosub (label : String)
  /-- Returns to the last `gosub`, or completes the playback. -/
  | back
  /-- Ends the playback. -/
  | stop (reason : String)
  /-- Lets time pass. -/
  | wait (ms : Nat)
  /-- Writes to the log. -/
  | log (message : String)
  /-- Continues in another script. -/
  | call (script : String)
  /-- A command of the host: its type, whether it may redirect the playback, and what its `n`-th
  attempt does. -/
  | custom (type : String) (structured : Bool) (behaviour : Nat → View → Attempt)

namespace Command

/-- The type of a command, by which its policy is found. -/
def type : Command → String
  | assign .. => "set"
  | clear => "clear"
  | jump _ => "jump"
  | gosub _ => "gosub"
  | back => "return"
  | stop _ => "stop"
  | wait _ => "wait"
  | log _ => "log"
  | call _ => "call"
  | custom type .. => type

/-- The command reports a flow action. -/
def isStructured : Command → Bool
  | jump _ | gosub _ | back | stop _ | call _ => true
  | custom _ structured _ => structured
  | _ => false

/-- The command belongs to the host. -/
def isCustom : Command → Bool
  | custom .. => true
  | _ => false

/-- What the `n`-th attempt of a command does. -/
def attempt (c : Command) (n : Nat) (v : View) : Attempt :=
  match c with
  | assign name value => { effects := [.assign name value] }
  | clear => { effects := [.clear] }
  | jump target => { verdict := .ok (.ofFlow (.ofTarget target)) }
  | gosub label =>
    if v.labels.contains label then
      { effects := [.push (v.line + 1)], verdict := .ok (.ofFlow (.toLabel label)) }
    else { verdict := .error (.invalidArgument ("label not found: " ++ label)) }
  | back => { verdict := .ok (.ofFlow .back) }
  | stop reason => { verdict := .ok (.ofFlow (.stop reason)) }
  | wait ms => { pace := .lasts (Span.ofMillis ms) }
  | log message => { effects := [.note message] }
  | call script => { verdict := .ok (.ofFlow (.call script)) }
  | custom _ _ behaviour => behaviour n v

/-- What an attempt means to the playback.  A command that is not structured reports success or
failure only; a structured one that reports no success has failed. -/
def conclude (c : Command) (verdict : Except Failure CommandResult) : Except Failure Flow :=
  match verdict with
  | .error failure => .error failure
  | .ok result =>
    if !c.isStructured then .ok .next
    else if result.success then .ok result.flow
    else match result.fault with
      | some fault => .error (.reported fault)
      | none => .error (.other (c.type ++ " reported failure without an error"))

end Command

end Recital
