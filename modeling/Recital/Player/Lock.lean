/-!
# Locks

A lock has at most one holder.  Those who have to wait for it get it in the order in which they
asked: the one who waits longest holds it as soon as it is released.
-/

namespace Recital

/-- A lock for tasks, which are known by number. -/
structure Lock where
  /-- The task that holds the lock. -/
  holder : Option Nat := none
  /-- The tasks that wait for it, the longest-waiting first. -/
  queue : List Nat := []
deriving DecidableEq

namespace Lock

/-- The lock is held by nobody. -/
def isFree (l : Lock) : Bool := l.holder.isNone

/-- The task holds the lock. -/
def isHeldBy (l : Lock) (task : Nat) : Bool := l.holder == some task

/-- Asks for the lock: a free one is held at once. -/
def request (l : Lock) (task : Nat) : Lock :=
  if l.isFree then { l with holder := some task } else { l with queue := l.queue ++ [task] }

/-- Releases the lock and hands it to the task that waits longest. -/
def release (l : Lock) : Lock := { holder := l.queue.head?, queue := l.queue.tail }

end Lock

end Recital
