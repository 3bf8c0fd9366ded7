import Recital.Playback.Event

/-!
# The event bus

A bus passes events on to receivers, each of which takes those of one kind or all of them.  Only a
limited number of the latest events is held for each kind, and for all together: a receiver that
falls further behind learns how many it has missed.  A closed bus takes no further events, and its
receivers find its end after the events that are left.
-/

namespace Recital

/-- An event bus (`EventBus`). -/
structure Bus where
  /-- How many events are held. -/
  capacity : Nat
  /-- All events that were published, the latest last. -/
  log : Array Event := #[]
  /-- The kinds that were subscribed to. -/
  kinds : List Event.Kind := []
  /-- Nothing more can be published. -/
  closed : Bool := false

/-- A subscription. -/
structure Receiver where
  /-- The kind that is taken, or all. -/
  kind : Option Event.Kind
  /-- How many events of that kind it has passed, counted from the start of the bus. -/
  position : Nat
deriving DecidableEq

/-- What a receiver finds. -/
inductive Delivery
  | event (e : Event)
  /-- Nothing yet. -/
  | empty
  /-- Nothing ever again. -/
  | closed
  /-- The number of events that were missed. -/
  | lagged (missed : Nat)

namespace Bus

/-- The least power of two, of those below the given exponent, that is at least `n`. -/
def powerAbove (n : Nat) : Nat → Nat → Nat
  | 0, p => p
  | fuel + 1, p => if n ≤ p then p else powerAbove n fuel (2 * p)

/-- A new bus; the number of events held is rounded up to a power of two. -/
def ofCapacity (capacity : Nat) : Bus := { capacity := powerAbove capacity 64 1 }

/-- The event is one that the receiver takes. -/
def takes (kind : Option Event.Kind) (e : Event) : Bool :=
  match kind with
  | none => true
  | some k => e.kind == k

/-- The events that receivers of a kind take. -/
def stream (b : Bus) (kind : Option Event.Kind) : Array Event :=
  match kind with
  | none => b.log
  | some _ => b.log.filter (takes kind)

/-- Publishes an event; a closed bus drops it. -/
def publish (b : Bus) (e : Event) : Bus :=
  if b.closed then b else { b with log := b.log.push e }

/-- A receiver of the events published from now on. -/
def subscribe (b : Bus) (kind : Option Event.Kind) : Receiver × Bus :=
  let receiver : Receiver := ⟨kind, (b.stream kind).size⟩
  match kind with
  | none => (receiver, b)
  | some k =>
    if b.closed || b.kinds.contains k then (receiver, b)
    else (receiver, { b with kinds := b.kinds ++ [k] })

/-- Closes the bus. -/
def close (b : Bus) : Bus := { b with closed := true, kinds := [] }

/-- How many kinds are subscribed to. -/
def listenerCount (b : Bus) : Nat := b.kinds.length

/-- What a receiver finds, and the receiver after that. -/
def receive (b : Bus) (r : Receiver) : Delivery × Receiver :=
  let events := b.stream r.kind
  let oldest := events.size - b.capacity
  if r.position < oldest then (.lagged (oldest - r.position), { r with position := oldest })
  else match events[r.position]? with
    | some e => (.event e, { r with position := r.position + 1 })
    | none => (if b.closed then .closed else .empty, r)

/-- Everything that a receiver finds until nothing is left; `fuel` bounds how often it looks. -/
def drain (b : Bus) : Nat → Receiver → List Delivery × Receiver
  | 0, r => ([], r)
  | fuel + 1, r =>
    match b.receive r with
    | (.empty, r) => ([], r)
    | (.closed, r) => ([], r)
    | (d, r) =>
      let (rest, r) := drain b fuel r
      (d :: rest, r)

/-- Everything that a receiver finds until nothing is left. -/
def receiveAll (b : Bus) (r : Receiver) : List Delivery × Receiver :=
  b.drain (b.log.size + 1) r

end Bus

end Recital
