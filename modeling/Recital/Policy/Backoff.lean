import Recital.Json.Shape

/-!
# Backoff between attempts

How long a playback waits before it attempts a failed command again.  Delays are 64-bit numbers of
milliseconds; where a product would exceed them it stays at the largest one.
-/

namespace Recital

/-- The delay before each further attempt (`BackoffPolicy`). -/
inductive Backoff
  /-- No delay. -/
  | none
  /-- The same delay every time. -/
  | fixed (delayMs : Nat)
  /-- A delay that grows by the base every time. -/
  | linear (baseMs : Nat)
  /-- A delay that doubles every time up to a maximum; jitter draws it from its upper half. -/
  | exponential (baseMs maxMs : Nat) (jitter : Bool)
deriving DecidableEq

instance : Inhabited Backoff := ⟨.none⟩

namespace Backoff

/-- The product of two numbers, at most the largest 64-bit word. -/
def saturatingMul (a b : Nat) : Nat := min (a * b) Text.wordMax

/-- Two to the given power, or the largest 64-bit word where that exceeds it. -/
def doubling (n : Nat) : Nat := if n < 64 then Nat.pow 2 n else Text.wordMax

/-- The delay before the given attempt, leaving out jitter.  Attempts count from one, and attempt
zero counts as one. -/
def window (b : Backoff) (attempt : Nat) : Nat :=
  let attempt := max attempt 1
  match b with
  | .none => 0
  | fixed delay => delay
  | linear base => saturatingMul base attempt
  | exponential base limit _ => min (saturatingMul base (doubling (attempt - 1))) limit

/-- A delay drawn from the upper half of a window; `draw` is any number. -/
def drawFrom (window draw : Nat) : Nat :=
  if 1 < window then window / 2 + draw % (window - window / 2 + 1) else window

/-- Delays are drawn. -/
def isJittered : Backoff → Bool
  | exponential _ _ jitter => jitter
  | _ => false

/-- The delay before the given attempt, where `draw` decides the jitter. -/
def delay (b : Backoff) (attempt draw : Nat) : Nat :=
  if b.isJittered then drawFrom (b.window attempt) draw else b.window attempt

/-- A record tagged with the kind of delay. -/
def toJson : Backoff → Json
  | .none => .obj [("kind", .str "none")]
  | fixed delay => .obj [("kind", .str "fixed"), ("delay_ms", .nat delay)]
  | linear base => .obj [("kind", .str "linear"), ("base_ms", .nat base)]
  | exponential base limit jitter =>
    .obj [("kind", .str "exponential"), ("base_ms", .nat base), ("max_ms", .nat limit),
      ("jitter", .bool jitter)]

/-- Reads a record tagged with the kind of delay. -/
def ofJson? (j : Json) : Option Backoff :=
  match Json.tagged? "kind" j with
  | some ("none", .obj _) => some .none
  | some ("none", .arr []) => some .none
  | some ("fixed", rest) => do
    let r ← Json.record? ["delay_ms"] rest
    return fixed (← r.required "delay_ms" Json.word?)
  | some ("linear", rest) => do
    let r ← Json.record? ["base_ms"] rest
    return linear (← r.required "base_ms" Json.word?)
  | some ("exponential", rest) => do
    let r ← Json.record? ["base_ms", "max_ms", "jitter"] rest
    return exponential (← r.required "base_ms" Json.word?) (← r.required "max_ms" Json.word?)
      (← r.defaulted "jitter" Json.bool? false)
  | _ => Option.none

end Backoff

end Recital
