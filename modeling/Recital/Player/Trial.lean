import Recital.Player.Line

/-!
# Trying out a command

A command can be tried out on its own, outside any playback: it acts on a player that has no script
loaded, and nothing else goes on meanwhile.
-/

namespace Recital.Player

/-- The line that a command stands on when it is tried out. -/
def trialWork (p : Player) (index : Nat) : Work :=
  { index, source := "", script := "detached", run := p.run, token := ⟨0, false⟩ }

/-- Attempts a command on its own and lets its time pass.  One that is cancelled beforehand makes
its changes, and then fails unless it takes no time. -/
def tryAlone (p : Player) (w : Work) (c : Command) (cancelled : Bool) :
    Player × Except Failure CommandResult :=
  let attempt := c.attempt 0 (p.context.view w.index w.script)
  let p := attempt.effects.foldl (fun p e => p.applyEffect w e) p
  match attempt.pace with
  | .endless => (p, .error .cancelled)
  | .lasts span =>
    if cancelled && span ≠ .zero then (p, .error .cancelled)
    else ({ p with now := p.timer span }, attempt.verdict)

end Recital.Player
