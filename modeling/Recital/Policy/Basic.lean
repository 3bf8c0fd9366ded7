import Recital.Policy.Backoff
import Recital.Playback.Fault
import Recital.Time.Span

/-!
# Policies for command types

A policy says how long a command of one type may take, how often it is attempted, and what is done
when no attempt succeeds.  A registry holds the policies by type; types without one of their own
share a default policy.
-/

namespace Recital

/-- How commands of one type are handled (`CommandPolicy`, which the engine keeps as
`CommandMetadata`). -/
structure Policy where
  /-- How long one attempt may take, in milliseconds. -/
  timeoutMs : Nat := 30000
  /-- How many attempts may follow the first one. -/
  maxRetries : Nat := 0
  /-- The delay before each further attempt. -/
  backoff : Backoff := .none
  /-- The categories of critical faults after which another attempt is made. -/
  retryOn : List Fault.Category := [.timeout, .network, .resourceLoading]
  /-- The category of a failure that does not show one. -/
  categoryHint : Option Fault.Category := none
  /-- What is done when no attempt succeeded. -/
  onError : Option Remedy := none
deriving DecidableEq, Inhabited

namespace Policy

/-- How long one attempt may take. -/
def timeout (p : Policy) : Span := Span.ofMillis p.timeoutMs

/-- Another attempt may be made after a fault of this severity and category. -/
def isRetryable (p : Policy) (severity : Fault.Severity) (category : Fault.Category) : Bool :=
  match severity with
  | .fatal => false
  | .recoverable => true
  | .critical => p.retryOn.contains category

/-- The names of the fields in their written order. -/
def fieldNames : List String :=
  ["timeout_ms", "max_retries", "backoff", "retry_on", "category_hint", "on_error"]

/-- A record; fields that hold nothing are left out. -/
def toJson (p : Policy) : Json :=
  .obj <|
    [("timeout_ms", .nat p.timeoutMs), ("max_retries", .nat p.maxRetries),
      ("backoff", p.backoff.toJson),
      ("retry_on", .arr (p.retryOn.map Fault.Category.toJson))] ++
    Json.fieldIfSome "category_hint" Fault.Category.toJson p.categoryHint ++
    Json.fieldIfSome "on_error" Remedy.toJson p.onError

/-- Reads a record in which every field may be missing. -/
def ofJson? (j : Json) : Option Policy := do
  let r ← Json.record? fieldNames j
  let std : Policy := {}
  return {
    timeoutMs := ← r.defaulted "timeout_ms" Json.word? std.timeoutMs
    maxRetries := ← r.defaulted "max_retries" Json.word32? std.maxRetries
    backoff := ← r.defaulted "backoff" Backoff.ofJson? std.backoff
    retryOn := ← r.defaulted "retry_on" (Json.list? Fault.Category.ofJson?) std.retryOn
    categoryHint :=
      ← r.defaulted "category_hint" (Json.option? Fault.Category.ofJson?) std.categoryHint
    onError := ← r.defaulted "on_error" (Json.option? Remedy.ofJson?) std.onError }

/-- The fields of the record. -/
def interest : Json.Interest := .record fieldNames

end Policy

/-- The policies of all command types (`CommandsConfig`, as a `MetadataRegistry`). -/
structure Registry where
  /-- The policy of types without one of their own. -/
  defaults : Policy := {}
  /-- The policies of single types. -/
  types : Table Policy := ∅

namespace Registry

/-- The policy of a command type. -/
def policy (r : Registry) (type : String) : Policy := (r.types.get? type).getD r.defaults

/-- Gives a command type a policy of its own. -/
def register (r : Registry) (type : String) (p : Policy) : Registry :=
  { r with types := r.types.insert type p }

/-- The command type has a policy of its own. -/
def isRegistered (r : Registry) (type : String) : Bool := r.types.contains type

/-- A record of both fields. -/
def toJson (r : Registry) : Json :=
  .obj [("defaults", r.defaults.toJson), ("types", Json.ofTable Policy.toJson r.types)]

/-- Reads a record in which both fields may be missing. -/
def ofJson? (j : Json) : Option Registry := do
  let r ← Json.record? ["defaults", "types"] j
  return {
    defaults := ← r.defaulted "defaults" Policy.ofJson? {}
    types := ← r.defaulted "types" (Json.table? Policy.ofJson?) ∅ }

end Registry

end Recital
