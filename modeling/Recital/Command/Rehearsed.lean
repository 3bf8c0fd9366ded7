import Recital.Command.Argument

/-!
# Rehearsed commands

A command whose attempts are written out in its arguments, for trying out how a player deals with
whatever a command may do.  The argument is a JSON object with the type of the command, whether it
is structured, and the outcomes of its attempts; the last outcome is repeated.
-/

namespace Recital

namespace Failure

/-- A failure with a detail, by the name of its kind. -/
def ofKind (kind detail : String) : Failure :=
  match kind with
  | "cancelled" => .cancelled
  | "invalid_argument" => .invalidArgument detail
  | "invalid_state" => .invalidState detail
  | "not_found" => .notFound detail
  | "unimplemented" => .unimplemented detail
  | "out_of_resources" => .outOfResources detail
  | "network" => .network detail
  | "security" => .security detail
  | "configuration" => .configuration detail
  | _ => .other detail

/-- Reads a failure from an object with its kind, and the detail, the elapsed time or the fault that
belongs to it. -/
def ofJson? (j : Json) : Option Failure := do
  let kind ← j.get? "kind" >>= Json.str?
  let detail := ((j.get? "message").bind Json.str?).getD ""
  match kind with
  | "timed_out" => .timedOut <$> (j.get? "elapsed" >>= Span.ofJson?)
  | "reported" => .reported <$> (j.get? "error" >>= Fault.ofJson?)
  | _ => some (ofKind kind detail)

end Failure

namespace Command.Rehearsed

/-- What an observation of the playback shows, asked about a name. -/
def observation (name : String) (v : View) : Json :=
  Json.normalize <| .obj
    [("line", .nat v.line), ("script", .str v.script), ("lines", .nat v.lineCount),
      ("step", .bool v.stepMode), ("label", Json.ofOption .nat (v.labels.get? name)),
      ("var", (v.vars.get? name).getD .null)]

/-- The changes of an outcome: variables, clearing, a return address and an observation. -/
def effects (outcome : Json) : List Effect :=
  (match (outcome.get? "set").bind Json.toTable? with
    | some t => t.entries.map fun e => Effect.assign e.1 e.2
    | none => []) ++
  (if (outcome.get? "clear").bind Json.bool? = some true then [.clear] else []) ++
  (match (outcome.get? "push").bind Json.word? with
    | some line => [.push line]
    | none => []) ++
  (match (outcome.get? "probe").bind Json.str? with
    | some name => [.observe "probe" (observation name)]
    | none => [])

/-- How long an outcome takes. -/
def pace (outcome : Json) : Pace :=
  if (outcome.get? "block").bind Json.bool? = some true then .endless
  else .lasts (Span.ofMillis (((outcome.get? "delay_ms").bind Json.word?).getD 0))

/-- What an outcome reports: a failure, a result without success, or a flow action. -/
def verdict (outcome : Json) : Except Failure CommandResult :=
  match (outcome.get? "error").bind Failure.ofJson? with
  | some failure => .error failure
  | none => match outcome.get? "failed" with
    | some (.obj fields) => .ok (.failed (((Json.obj fields).get? "error").bind Fault.ofJson?))
    | _ => .ok (.ofFlow (((outcome.get? "flow").bind Flow.ofJson?).getD .next))

/-- The attempt that an outcome stands for. -/
def attempt (outcome : Json) : Attempt :=
  { effects := effects outcome, pace := pace outcome, verdict := verdict outcome }

/-- The `n`-th of several outcomes, the last one being repeated. -/
def outcome (outcomes : List Json) (n : Nat) : Json :=
  (outcomes[min n (outcomes.length - 1)]?).getD .null

/-- Reads a rehearsed command. -/
def read : Factory := fun args =>
  match Json.parse? args with
  | none => .error (.custom "bad command spec")
  | some j =>
    let outcomes := ((j.get? "outcomes").bind (Json.list? some)).getD []
    .ok <| .custom (((j.get? "type").bind Json.str?).getD "cmd")
      (((j.get? "structured").bind Json.bool?).getD false)
      fun n _ => attempt (outcome outcomes n)

end Command.Rehearsed

end Recital
