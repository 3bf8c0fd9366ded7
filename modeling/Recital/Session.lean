import Recital.Player.Control
import Recital.Player.Request

/-!
# Sessions

A session is a player together with the requests in progress, on one clock.  Requests that can go
on do so in rounds, the oldest first and each as far as it can, while the clock stands still; then
the clock moves on to the next instant that some request waits for.
-/

namespace Recital

/-- A request in progress. -/
structure Task where
  /-- The number of the request. -/
  id : Nat
  /-- What it waits for. -/
  phase : Phase

/-- A request that has ended. -/
structure Ending where
  /-- The number of the request. -/
  id : Nat
  /-- When it ended. -/
  at_ : Nat
  /-- How it ended. -/
  answer : Answer

/-- A player and the requests in progress. -/
structure Session where
  /-- The player. -/
  player : Player
  /-- The requests in progress, the oldest first. -/
  tasks : List Task := []
  /-- The requests that have ended, the latest last. -/
  ended : Array Ending := #[]

namespace Session

/-- Adds a request. -/
def submit (s : Session) (id : Nat) (r : Request) : Session :=
  { s with tasks := s.tasks ++ [⟨id, .entering r⟩] }

/-- What becomes of a request that goes on as far as it can; `fuel` bounds its steps.  Tells whether
it went on at all. -/
def drive (id : Nat) : Nat → Player → Phase → Bool → Player × Sum Phase Answer × Bool
  | 0, p, phase, moved => (p, .inl phase, moved)
  | fuel + 1, p, phase, moved =>
    match p.step id phase with
    | (p, .blocked) => (p, .inl phase, moved)
    | (p, .goes phase) => drive id fuel p phase true
    | (p, .ends answer) => (p, .inr answer, true)

/-- One round of the given requests; those that are left are held in reverse. -/
def round (fuel : Nat) : List Task → List Task → Session → Bool → Session × Bool
  | [], left, s, moved => ({ s with tasks := left.reverse }, moved)
  | t :: rest, left, s, moved =>
    match drive t.id fuel s.player t.phase false with
    | (player, .inl phase, went) =>
      round fuel rest ({ t with phase } :: left) { s with player } (moved || went)
    | (player, .inr answer, _) =>
      round fuel rest left
        { s with player, ended := s.ended.push ⟨t.id, player.now, answer⟩ } true

/-- Rounds until no request can go on; `fuel` bounds the rounds and the steps in each. -/
def settle : Nat → Session → Session
  | 0, s => s
  | fuel + 1, s =>
    match round fuel s.tasks [] s false with
    | (s, true) => settle fuel s
    | (s, false) => s

/-- The first instant after now at which a request may go on by itself. -/
def nextTimer (s : Session) : Option Nat :=
  ((s.tasks.flatMap fun t => t.phase.timers).filter (s.player.now < ·)).min?

/-- Sets the clock. -/
def setClock (s : Session) (now : Nat) : Session := { s with player := { s.player with now } }

/-- Lets the clock run up to an instant, from timer to timer; `fuel` bounds the timers. -/
def runUntil (instant : Nat) : Nat → Session → Session
  | 0, s => s
  | fuel + 1, s =>
    match s.nextTimer with
    | some t =>
      if t < instant then runUntil instant fuel (settle fuel (s.setClock t))
      else settle fuel (s.setClock instant)
    | none => settle fuel (s.setClock instant)

/-- Lets the clock run from timer to timer until no request waits for one; `fuel` bounds the
timers. -/
def complete : Nat → Session → Session
  | 0, s => s
  | fuel + 1, s =>
    let s := settle fuel s
    match s.nextTimer with
    | some t => complete fuel (s.setClock t)
    | none => s

/-- The answer to a request that has ended. -/
def answer? (s : Session) (id : Nat) : Option Answer :=
  (s.ended.find? (·.id == id)).map (·.answer)

/-- Lets the clock run for a number of milliseconds. -/
def advance (fuel : Nat) (s : Session) (ms : Nat) : Session :=
  runUntil (s.player.now + ms) fuel s

end Session

end Recital
